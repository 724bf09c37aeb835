import KonaSoon.Lib.Outcome
import KonaSoon.Lib.Sequence
import KonaSoon.Lib.Rlp

/-!
# Trie nodes and their operations

The operations of `TrieNode` (`mpt/src/node.rs`), each as a function from the node it mutates to the
node afterwards and its outcome. An index or slice out of bounds is the outcome `panic`. Since
revealing a blinded node may loop on a provider that keeps answering with blinded nodes, the
recursive operations take fuel.
-/

namespace KonaSoon.Mpt
open Lib

/-! ## Data -/

abbrev B256 := {bytes : List UInt8 // bytes.length = 32}

/-- A byte buffer; no allocation is longer than `isize::MAX`. -/
abbrev Bytes := {bytes : List UInt8 // bytes.length < 2 ^ 63}

/-- One nibble to a byte, as `Nibbles` stores them. -/
abbrev Nibbles := List UInt8

/-- Every element is a nibble, which `Nibbles` promises of all its values. -/
def Nibbles.Valid (path : Nibbles) : Prop := ∀ nibble ∈ path, nibble.toNat < 16

instance (path : Nibbles) : Decidable path.Valid :=
  inferInstanceAs (Decidable (∀ nibble ∈ path, nibble.toNat < 16))

namespace Nibbles

def unpack (bytes : List UInt8) : Nibbles :=
  bytes.flatMap fun b => [UInt8.ofNat (b.toNat / 16), UInt8.ofNat (b.toNat % 16)]

def pack : Nibbles → List UInt8
  | high :: low :: rest => UInt8.ofNat (high.toNat * 16 + low.toNat) :: pack rest
  | [high] => [UInt8.ofNat (high.toNat * 16)]
  | [] => []

theorem pack_length (path : Nibbles) (m : Nat) (even : path.length = 2 * m) :
    (pack path).length = m := by
  induction m generalizing path with
  | zero =>
      obtain rfl := List.eq_nil_of_length_eq_zero (by simpa using even)
      rfl
  | succ m ih =>
      match path, even with
      | high :: low :: rest, even =>
          simp only [List.length_cons] at even
          simp [pack, ih rest (by omega)]
      | [_], even => simp at even; omega
      | [], even => simp at even

theorem unpack_pack (path : Nibbles) (valid : path.Valid) (m : Nat) (even : path.length = 2 * m) :
    unpack (pack path) = path := by
  induction m generalizing path with
  | zero =>
      obtain rfl := List.eq_nil_of_length_eq_zero (by simpa using even)
      rfl
  | succ m ih =>
      match path, even with
      | high :: low :: rest, even =>
          have highBound : high.toNat < 16 := valid high (by simp)
          have lowBound : low.toNat < 16 := valid low (by simp)
          have packed : (UInt8.ofNat (high.toNat * 16 + low.toNat)).toNat = high.toNat * 16 + low.toNat := by
            simp
            omega
          have restValid : Nibbles.Valid rest := fun x member => valid x (by simp [member])
          simp only [List.length_cons] at even
          have tail := ih rest restValid (by omega)
          simp only [unpack, pack, List.flatMap_cons, packed] at tail ⊢
          rw [tail]
          have highEq : (high.toNat * 16 + low.toNat) / 16 = high.toNat := by omega
          have lowEq : (high.toNat * 16 + low.toNat) % 16 = low.toNat := by omega
          simp [highEq, lowEq]
      | [_], even => simp at even; omega
      | [], even => simp at even

theorem unpack_length (bytes : List UInt8) : (unpack bytes).length = 2 * bytes.length := by
  induction bytes with
  | nil => rfl
  | cons b bytes ih =>
      simp only [unpack, List.flatMap_cons, List.length_append, List.length_cons, List.length_nil] at ih ⊢
      omega

theorem pack_unpack (bytes : List UInt8) : pack (unpack bytes) = bytes := by
  induction bytes with
  | nil => rfl
  | cons b bytes ih =>
      have high : (UInt8.ofNat (b.toNat / 16)).toNat = b.toNat / 16 := by
        have := b.toNat_lt
        simp
        omega
      have low : (UInt8.ofNat (b.toNat % 16)).toNat = b.toNat % 16 := by
        simp
        omega
      have whole : b.toNat / 16 * 16 + b.toNat % 16 = b.toNat := by omega
      simp only [unpack, List.flatMap_cons, List.cons_append, List.nil_append, pack] at ih ⊢
      rw [ih, high, low, whole, UInt8.ofNat_toNat]

theorem unpack_valid (bytes : List UInt8) : Nibbles.Valid (unpack bytes) := by
  intro nibble member
  obtain ⟨b, -, inside⟩ := List.mem_flatMap.mp member
  have bound := b.toNat_lt
  simp only [List.mem_cons, List.not_mem_nil, or_false] at inside
  rcases inside with rfl | rfl
  · simp
    omega
  · simp
    omega

end Nibbles

structure Primitives extends Rlp where
  keccak256 : List UInt8 → B256

def B256.ofNat (n : Nat) : B256 := ⟨(List.range 32).map fun i => UInt8.ofNat (n / 256 ^ (31 - i)), by simp⟩

def Primitives.tabulated (digests : List (List UInt8 × B256)) : Primitives where
  toRlp := Rlp.standard
  keccak256 bytes := (digests.lookup bytes).getD (B256.ofNat 0)

def Primitives.emptyRootHash (prim : Primitives) : B256 := prim.keccak256 [0x80]

inductive TrieNode where
  | empty
  | blinded (commitment : B256)
  | leaf (pfx : Nibbles) (value : Bytes)
  | extension (pfx : Nibbles) (node : TrieNode)
  | branch (stack : List TrieNode)
deriving Repr

inductive TrieNodeError where
  | invalidNodeType
  | rlpError (e : RlpError)
  | keyNotFound
  | provider (text : String)
deriving DecidableEq, Repr

abbrev TrieNodeResult (α : Type) := Outcome TrieNodeError α

structure TrieProvider where
  trieNodeByHash : B256 → Except String TrieNode
  bankHash : Nat → Except String B256
  blockTime : Nat → Except String Int

structure TrieHinter where
  hintTrieNode : B256 → Except String Unit
  hintAccountProof : B256 → Nat → Except String Unit
  hintBankHash : Nat → Except String Unit
  hintBlockTime : Nat → Except String Unit

def noopTrieProvider : TrieProvider :=
  ⟨fun _ => .ok .empty, fun _ => .ok (B256.ofNat 0), fun _ => .ok 0⟩

def noopTrieHinter : TrieHinter :=
  ⟨fun _ => .ok (), fun _ _ => .ok (), fun _ => .ok (), fun _ => .ok ()⟩

def branchListLength : Nat := 17

def keyNibbles : Nat := 64

namespace TrieNode

def isEmpty : TrieNode → Bool
  | .empty => true
  | _ => false

def slot (stack : List TrieNode) (i : Nat) : TrieNode := stack.getD i .empty

variable (prim : Primitives) (fetcher : TrieProvider) (hinter : TrieHinter)

/-! ## Revealing and reading -/

def unblind : TrieNode → TrieNode × TrieNodeResult Unit
  | .blinded commitment =>
      if commitment = prim.emptyRootHash then (.empty, .ok ())
      else match fetcher.trieNodeByHash commitment with
        | .ok node => (node, .ok ())
        | .error e => (.blinded commitment, .error (.error (.provider e)))
  | node => (node, .ok ())

/-- `TrieNode::open`. -/
def openPath : Nat → TrieNode → Nibbles → TrieNode × TrieNodeResult (Option Bytes)
  | 0, node, _ => (node, .error .outOfFuel)
  | _ + 1, .empty, _ => (.empty, .ok none)
  | _ + 1, .leaf pfx value, path => (.leaf pfx value, .ok (if path = pfx then some value else none))
  | fuel + 1, .extension pfx node, path =>
      match sliceTo path pfx.length, sliceFrom path pfx.length with
      | some front, some rest =>
          if front = pfx then
            match unblind prim fetcher node with
            | (node, .error stop) => (.extension pfx node, .error stop)
            | (node, .ok ()) =>
                let opened := openPath fuel node rest
                (.extension pfx opened.1, opened.2)
          else (.extension pfx node, .ok none)
      | _, _ => (.extension pfx node, .error .panic)
  | _ + 1, .branch stack, [] => (.branch stack, .error .panic)
  | fuel + 1, .branch stack, nibble :: rest =>
      match stack[nibble.toNat]? with
      | none => (.branch stack, .ok none)
      | some node =>
          let opened := openPath fuel node rest
          (.branch (stack.set nibble.toNat opened.1), opened.2)
  | fuel + 1, .blinded commitment, path =>
      match unblind prim fetcher (.blinded commitment) with
      | (node, .error stop) => (node, .error stop)
      | (node, .ok ()) => openPath fuel node path

/-! ## Insertion -/

/-- `stack[index] = node`, on a stack of any length. -/
def setSlot (stack : List TrieNode) (index : Nat) (node : TrieNode) : Option (List TrieNode) :=
  if index < stack.length then some (stack.set index node) else none

/-- The branch that takes the place of a leaf or extension with the prefix `pfx` when `path` leaves
it after `shared` nibbles: `shorten` is what remains of the old node behind its next nibble. -/
def split (path pfx : Nibbles) (shared : Nat) (shorten : Nibbles → TrieNode) (value : Bytes) :
    Option TrieNode := do
  let stack := List.replicate branchListLength .empty
  let extensionNibble ← pfx[shared]?
  let stack ← setSlot stack extensionNibble.toNat (shorten (← sliceFrom pfx (shared + 1)))
  let branchNibbleNew ← path[shared]?
  let stack ← setSlot stack branchNibbleNew.toNat (.leaf (← sliceFrom path (shared + 1)) value)
  if shared = 0 then return .branch stack
  else return .extension (← sliceTo path shared) (.branch stack)

def insert : Nat → TrieNode → Nibbles → Bytes → TrieNode × TrieNodeResult Unit
  | 0, node, _, _ => (node, .error .outOfFuel)
  | _ + 1, .empty, path, value => (.leaf path value, .ok ())
  | _ + 1, .leaf pfx leafValue, path, value =>
      if path = pfx then (.leaf pfx value, .ok ())
      else match split path pfx (commonPrefixLength path pfx) (.leaf · leafValue) value with
        | some node => (node, .ok ())
        | none => (.leaf pfx leafValue, .error .panic)
  | fuel + 1, .extension pfx node, path, value =>
      let shared := commonPrefixLength path pfx
      if shared = pfx.length then
        match sliceFrom path shared with
        | some rest =>
            let inserted := insert fuel node rest value
            (.extension pfx inserted.1, inserted.2)
        | none => (.extension pfx node, .error .panic)
      else
        -- An extension that has no prefix left is put into the branch as its child.
        let shorten := fun rest => if rest = [] then node else .extension rest node
        match split path pfx shared shorten value with
        | some node => (node, .ok ())
        | none => (.extension pfx node, .error .panic)
  | _ + 1, .branch stack, [], _ => (.branch stack, .error .panic)
  | fuel + 1, .branch stack, nibble :: rest, value =>
      match stack[nibble.toNat]? with
      | none => (.branch stack, .error .panic)
      | some node =>
          let inserted := insert fuel node rest value
          (.branch (stack.set nibble.toNat inserted.1), inserted.2)
  | fuel + 1, .blinded commitment, path, value =>
      match unblind prim fetcher (.blinded commitment) with
      | (node, .error stop) => (node, .error stop)
      | (node, .ok ()) => insert fuel node path value

/-! ## Deletion -/

/-- The hashed key under which the host is asked for the only child left in slot `index`: the path
walked so far, padded with zero nibbles to the length of a key. -/
def hintedKey (walked : Nibbles) (index : Nat) : Option B256 :=
  let fullPath := walked ++ [UInt8.ofNat index]
  if fullPath.length ≤ keyNibbles then
    let packed := Nibbles.pack (fullPath ++ List.replicate (keyNibbles - fullPath.length) 0)
    if size : packed.length = 32 then some ⟨packed, size⟩ else none
  else none

def nonEmptyChildren (stack : List TrieNode) : List (TrieNode × Nat) :=
  stack.zipIdx.filter fun child => !child.1.isEmpty

def collapseIfPossible (lastSlot : Nat) :
    Nat → TrieNode → Nibbles → TrieNode × TrieNodeResult Unit
  | 0, node, _ => (node, .error .outOfFuel)
  | _ + 1, .extension pfx (.extension childPfx childNode), _ =>
      (.extension (pfx ++ childPfx) childNode, .ok ())
  | _ + 1, .extension pfx (.leaf childPfx childValue), _ =>
      (.leaf (pfx ++ childPfx) childValue, .ok ())
  | _ + 1, .extension _ .empty, _ => (.empty, .ok ())
  | fuel + 1, .branch stack, walked =>
      match nonEmptyChildren stack with
      | [(.leaf pfx value, index)] => (.leaf (UInt8.ofNat index :: pfx) value, .ok ())
      | [(.extension pfx node, index)] => (.extension (UInt8.ofNat index :: pfx) node, .ok ())
      | [(.branch inner, index)] => (.extension [UInt8.ofNat index] (.branch inner), .ok ())
      | [(.blinded commitment, index)] =>
          match hintedKey walked index with
          | none => (.branch stack, .error .panic)
          | some hash =>
              match hinter.hintAccountProof hash lastSlot with
              | .error e => (.branch stack, .error (.error (.provider e)))
              | .ok () =>
                  match unblind prim fetcher (.blinded commitment) with
                  | (node, .error stop) => (.branch (stack.set index node), .error stop)
                  | (node, .ok ()) =>
                      collapseIfPossible lastSlot fuel (.branch (stack.set index node)) walked
      | _ => (.branch stack, .ok ())
  | _ + 1, node, _ => (node, .ok ())

def delete (lastSlot : Nat) : Nat → TrieNode → Nibbles → Nibbles → TrieNode × TrieNodeResult Unit
  | 0, node, _, _ => (node, .error .outOfFuel)
  | _ + 1, .empty, _, _ => (.empty, .error (.error .keyNotFound))
  | _ + 1, .leaf pfx value, path, _ =>
      if path = pfx then (.empty, .ok ()) else (.leaf pfx value, .error (.error .keyNotFound))
  | fuel + 1, .extension pfx node, path, walked =>
      let shared := commonPrefixLength path pfx
      if shared < pfx.length then (.extension pfx node, .error (.error .keyNotFound))
      else if shared = path.length then (.empty, .ok ())
      else match sliceFrom path pfx.length with
        | none => (.extension pfx node, .error .panic)
        | some rest =>
            match delete lastSlot fuel node rest (walked ++ pfx) with
            | (node, .error stop) => (.extension pfx node, .error stop)
            | (node, .ok ()) =>
                collapseIfPossible prim fetcher hinter lastSlot fuel (.extension pfx node) walked
  | _ + 1, .branch stack, [], _ => (.branch stack, .error .panic)
  | fuel + 1, .branch stack, nibble :: rest, walked =>
      match stack[nibble.toNat]? with
      | none => (.branch stack, .error .panic)
      | some node =>
          match delete lastSlot fuel node rest (walked ++ [nibble]) with
          | (node, .error stop) => (.branch (stack.set nibble.toNat node), .error stop)
          | (node, .ok ()) =>
              collapseIfPossible prim fetcher hinter lastSlot fuel
                (.branch (stack.set nibble.toNat node)) walked
  | fuel + 1, .blinded commitment, path, walked =>
      match unblind prim fetcher (.blinded commitment) with
      | (node, .error stop) => (node, .error stop)
      | (node, .ok ()) => delete lastSlot fuel node path walked

end TrieNode

end KonaSoon.Mpt
