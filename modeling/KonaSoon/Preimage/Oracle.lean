import KonaSoon.Lib.Channel
import KonaSoon.Mpt.Node

/-!
# The preimage oracle

Preimage keys (`preimage/src/key.rs`), and the client and the server of the preimage oracle
(`preimage/src/oracle.rs`) as processes on the two links between them. The channel is reliable, so
that no read or write of a process fails.
-/

namespace KonaSoon.Preimage
open Lib Mpt

/-! ## Keys -/

inductive PreimageKeyType where
  | local
  | keccak256
  | globalGeneric
  | sha256
  | blob
  | precompile
  | blockSlot
  | daProxyBlob
  | l2AccountProof
  | bankHash
  | blockTime
deriving DecidableEq, Repr

inductive PreimageOracleError where
  | invalidPreimageKey
  | bufferLengthMismatch (expected got : Nat)
deriving DecidableEq, Repr

abbrev PreimageOracleResult (α : Type) := Except PreimageOracleError α

namespace PreimageKeyType

def toByte : PreimageKeyType → UInt8
  | «local» => 1
  | keccak256 => 2
  | globalGeneric => 3
  | sha256 => 4
  | blob => 5
  | precompile => 6
  | blockSlot => 7
  | daProxyBlob => 8
  | l2AccountProof => 9
  | bankHash => 10
  | blockTime => 11

def tryFrom (value : UInt8) : PreimageOracleResult PreimageKeyType :=
  match value.toNat with
  | 1 => .ok «local»
  | 2 => .ok keccak256
  | 3 => .ok globalGeneric
  | 4 => .ok sha256
  | 5 => .ok blob
  | 6 => .ok precompile
  | 7 => .ok blockSlot
  | 8 => .ok daProxyBlob
  | 9 => .ok l2AccountProof
  | 10 => .ok bankHash
  | 11 => .ok blockTime
  | _ => .error .invalidPreimageKey

@[simp] theorem tryFrom_toByte (keyType : PreimageKeyType) : tryFrom keyType.toByte = .ok keyType := by
  cases keyType <;> rfl

end PreimageKeyType

structure PreimageKey where
  data : FixedBytes 31
  keyType : PreimageKeyType
deriving DecidableEq, Repr

namespace PreimageKey

def new (key : FixedBytes 32) (keyType : PreimageKeyType) : PreimageKey where
  data := ⟨key.1.tail, by rw [List.length_tail, key.2]⟩
  keyType := keyType

/-- `[u8; 32]::from`. -/
def toRaw (key : PreimageKey) : FixedBytes 32 :=
  ⟨key.keyType.toByte :: key.data.1, by rw [List.length_cons, key.data.2]⟩

def tryFrom (value : FixedBytes 32) : PreimageOracleResult PreimageKey := do
  let keyType ← PreimageKeyType.tryFrom (value.1.headD 0)
  return new value keyType

@[simp] theorem tryFrom_toRaw (key : PreimageKey) : tryFrom key.toRaw = .ok key := by
  simp only [tryFrom, toRaw, List.headD_cons, PreimageKeyType.tryFrom_toByte]
  rfl

end PreimageKey

/-! ## The client -/

def writeKey (key : PreimageKey) : Proc Nat := do
  Proc.send key.toRaw.1
  let lengthBuffer ← Proc.receive 8
  return ofBigEndian lengthBuffer.1

def get (key : PreimageKey) : Proc (PreimageOracleResult (List UInt8)) := do
  let length ← writeKey key
  if length = 0 then
    return .ok []
  else
    let dataBuffer ← Proc.receive length
    return .ok dataBuffer.1

def getExact (key : PreimageKey) (buf : List UInt8) : Proc (PreimageOracleResult Unit × List UInt8) := do
  let length ← writeKey key
  if buf.length ≠ length then
    return (.error (.bufferLengthMismatch length buf.length), buf)
  else if length = 0 then
    return (.ok (), buf)
  else
    let filled ← Proc.receive buf.length
    return (.ok (), filled.1)

/-! ## The server -/

abbrev Preimages := PreimageKey → Bytes

def nextPreimageRequest (getPreimage : Preimages) : Proc (PreimageOracleResult Unit) := do
  let buf ← Proc.receive 32
  match PreimageKey.tryFrom buf with
  | .error e => return .error e
  | .ok preimageKey => do
      let value := getPreimage preimageKey
      Proc.send (bigEndian 8 value.1.length).1
      if value.1.length > 0 then
        Proc.send value.1
      return .ok ()

/-! ## The calls of a client -/

inductive Call where
  | get (key : PreimageKey)
  | getExact (key : PreimageKey) (buf : List UInt8)
deriving DecidableEq, Repr

inductive Answer where
  | got (result : PreimageOracleResult (List UInt8))
  | filled (result : PreimageOracleResult Unit) (buf : List UInt8)
deriving DecidableEq

namespace Call

def key : Call → PreimageKey
  | get key => key
  | getExact key _ => key

def proc : Call → Proc Answer
  | get key => do
      let result ← Preimage.get key
      return .got result
  | getExact key buf => do
      let (result, buf) ← Preimage.getExact key buf
      return .filled result buf

def expected (f : Preimages) : Call → Answer
  | get key => .got (.ok (f key).1)
  | getExact key buf =>
      if buf.length = (f key).1.length then .filled (.ok ()) (f key).1
      else .filled (.error (.bufferLengthMismatch (f key).1.length buf.length)) buf

end Call

end KonaSoon.Preimage
