import KonaSoon.Mpt.Node

namespace KonaSoon.Mpt
open Lib

def encodePathLeaf (path : Nibbles) (isLeaf : Bool) : List UInt8 :=
  let flag := if isLeaf then 2 else 0
  if path.length % 2 = 1 then
    UInt8.ofNat ((flag + 1) * 16 + (path.headD 0).toNat) :: Nibbles.pack path.tail
  else UInt8.ofNat (flag * 16) :: Nibbles.pack path

def unpackPathToNibbles (first : Option UInt8) (rest : List UInt8) : Nibbles :=
  first.toList ++ Nibbles.unpack rest

namespace TrieNode

variable (prim : Primitives)

def encodedKeyLength (pfx : Nibbles) : Nat :=
  let length := pfx.length / 2 + 1
  if length ≠ 1 then length + prim.lengthOfLength length else length

/-- `TrieNode::length`, given the payload length of the node. -/
def lengthOf (node : TrieNode) (payload : Nat) : Nat :=
  match node with
  | .empty => 1
  | .blinded commitment => prim.bytesLength commitment.1
  | _ => prim.lengthOfLength payload + payload

def blindedLengthOf (length : Nat) : Nat :=
  if 32 ≤ length then prim.lengthOfLength 32 + 32 else length

mutual

def payloadLength : TrieNode → Nat
  | .empty => 0
  | .blinded _ => 32
  | .leaf pfx value => encodedKeyLength prim pfx + prim.bytesLength value.1
  | .extension pfx node =>
      encodedKeyLength prim pfx + blindedLengthOf prim (lengthOf prim node (payloadLength node))
  | .branch stack => stackPayloadLength stack

def stackPayloadLength : List TrieNode → Nat
  | [] => 0
  | node :: stack =>
      blindedLengthOf prim (lengthOf prim node (payloadLength node)) + stackPayloadLength stack

end

def length (node : TrieNode) : Nat := lengthOf prim node (payloadLength prim node)

/-- `TrieNode::blind`, given the encoding of the node. -/
def blindOf (node : TrieNode) (encoding : List UInt8) : B256 :=
  match node with
  | .blinded commitment => commitment
  | .empty => prim.emptyRootHash
  | _ => prim.keccak256 encoding

def childEncoding (node : TrieNode) (encoding : List UInt8) : List UInt8 :=
  if 32 ≤ length prim node then prim.encodeBytes (blindOf prim node encoding).1 else encoding

mutual

def encode : TrieNode → List UInt8
  | .empty => [0x80]
  | .blinded commitment => prim.encodeBytes commitment.1
  | .leaf pfx value =>
      prim.encodeHeader ⟨true, payloadLength prim (.leaf pfx value)⟩ ++
        (prim.encodeBytes (encodePathLeaf pfx true) ++ prim.encodeBytes value.1)
  | .extension pfx node =>
      prim.encodeHeader ⟨true, payloadLength prim (.extension pfx node)⟩ ++
        (prim.encodeBytes (encodePathLeaf pfx false) ++ childEncoding prim node (encode node))
  | .branch stack =>
      prim.encodeHeader ⟨true, payloadLength prim (.branch stack)⟩ ++ encodeStack stack

def encodeStack : List TrieNode → List UInt8
  | [] => []
  | node :: stack => childEncoding prim node (encode node) ++ encodeStack stack

end

def blind (node : TrieNode) : B256 := blindOf prim node (encode prim node)

def fromRlp {α : Type} : Except RlpError α → Outcome RlpError α
  | .ok a => .ok a
  | .error e => .error (.error e)

/-- `Buf::advance`. -/
def advance (buf : List UInt8) (count : Nat) : Outcome RlpError (List UInt8) :=
  if count ≤ buf.length then .ok (buf.drop count) else .error .panic

def toBytes (bytes : List UInt8) : Outcome RlpError Bytes :=
  if fits : bytes.length < 2 ^ 63 then .ok ⟨bytes, fits⟩ else .error .panic

def toB256 (bytes : List UInt8) : Outcome RlpError B256 :=
  if size : bytes.length = 32 then .ok ⟨bytes, size⟩ else .error (.error .unexpectedLength)

/-- The loop of `rlp_list_element_length`. -/
def countElements (lenAfterConsume : Nat) : Nat → List UInt8 → Outcome RlpError Nat
  | 0, _ => .error .outOfFuel
  | fuel + 1, buf =>
      if lenAfterConsume < buf.length then do
        let (header, buf) ← fromRlp (prim.decodeHeader buf)
        let buf ← advance buf header.payloadLength
        return (← countElements lenAfterConsume fuel buf) + 1
      else .ok 0

def rlpListElementLength (buf : List UInt8) : Outcome RlpError Nat := do
  let (header, buf) ← fromRlp (prim.decodeHeader buf)
  if header.list then
    if header.payloadLength ≤ buf.length then
      countElements prim (buf.length - header.payloadLength) (buf.length + 1) buf
    else .error .panic
  else .error (.error .unexpectedString)

/-- `Header::decode_bytes` of a list: its payload and what follows. -/
def decodeListPayload (buf : List UInt8) : Outcome RlpError (List UInt8 × List UInt8) := do
  let (header, buf) ← fromRlp (prim.decodeHeader buf)
  if header.list then return (buf.take header.payloadLength, buf.drop header.payloadLength)
  else .error (.error .unexpectedString)

/-- `map_err(TrieNodeError::RLPError)`. -/
def asRlpError {α : Type} : Outcome RlpError α → TrieNodeResult α
  | .ok a => .ok a
  | .error (.error e) => .error (.error (.rlpError e))
  | .error .panic => .error .panic
  | .error .outOfFuel => .error .outOfFuel

/-- `map_err(|_| alloy_rlp::Error::UnexpectedList)`. -/
def asUnexpectedList {α : Type} : TrieNodeResult α → Outcome RlpError α
  | .ok a => .ok a
  | .error (.error _) => .error (.error .unexpectedList)
  | .error .panic => .error .panic
  | .error .outOfFuel => .error .outOfFuel

mutual

def decode : Nat → List UInt8 → Outcome RlpError (TrieNode × List UInt8)
  | 0, _ => .error .outOfFuel
  | fuel + 1, buf => do
      let (header, _) ← fromRlp (prim.decodeHeader buf)
      if header.list then
        let listLength ← rlpListElementLength prim buf
        if listLength = branchListLength then
          let (payload, rest) ← decodeListPayload prim buf
          let list ← decodeStack fuel payload
          return (.branch list, rest)
        else if listLength = 2 then
          let buf ← advance buf (prim.lengthOfLength header.payloadLength)
          asUnexpectedList (tryDecodeLeafOrExtensionPayload fuel buf)
        else .error (.error .unexpectedLength)
      else if header.payloadLength = 0 then
        let buf ← advance buf (prim.lengthOfLength header.payloadLength)
        return (.empty, buf)
      else if header.payloadLength = 32 then
        let (bytes, buf) ← fromRlp (prim.decodeBytes buf)
        let commitment ← toB256 bytes
        return (.blinded commitment, buf)
      else .error (.error .unexpectedLength)

/-- The loop of `Vec::<TrieNode>::decode`. -/
def decodeStack : Nat → List UInt8 → Outcome RlpError (List TrieNode)
  | 0, _ => .error .outOfFuel
  | _ + 1, [] => .ok []
  | fuel + 1, b :: buf => do
      let (node, rest) ← decode fuel (b :: buf)
      let stack ← decodeStack fuel rest
      return node :: stack

def tryDecodeLeafOrExtensionPayload : Nat → List UInt8 → TrieNodeResult (TrieNode × List UInt8)
  | 0, _ => .error .outOfFuel
  | fuel + 1, buf => do
      let (path, buf) ← asRlpError (fromRlp (prim.decodeBytes buf))
      match path with
      | [] => .error .panic
      | head :: tail =>
          let firstNibble := head.toNat / 16
          if 3 < firstNibble then .error (.error .invalidNodeType)
          else
            let first := if firstNibble % 2 = 1 then some (UInt8.ofNat (head.toNat % 16)) else none
            if firstNibble < 2 then
              let (extensionNodeValue, buf) ← asRlpError (decode fuel buf)
              return (.extension (unpackPathToNibbles first tail) extensionNodeValue, buf)
            else
              let (value, buf) ← asRlpError (fromRlp (prim.decodeBytes buf))
              let value ← asRlpError (toBytes value)
              return (.leaf (unpackPathToNibbles first tail) value, buf)

end

def decodeFuel (buf : List UInt8) : Nat := 3 * buf.length + 3

end TrieNode

end KonaSoon.Mpt
