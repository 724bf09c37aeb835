import KonaSoon.Lib.Reader
import KonaSoon.Programs.BridgeInstruction
import KonaSoon.Programs.L1BlockInfo

namespace KonaSoon.Programs
open Lib Mpt

namespace Slices

section

variable {ε : Type}

def splitAt (mid : Nat) (input : List UInt8) : Outcome ε (List UInt8 × List UInt8) :=
  if mid ≤ input.length then .ok (input.take mid, input.drop mid) else .error .panic

/-- `&input[start..]`. -/
def sliceFrom (start : Nat) (input : List UInt8) : Outcome ε (List UInt8) :=
  if start ≤ input.length then .ok (input.drop start) else .error .panic

def tryInto (n : Nat) (data : List UInt8) : Option (FixedBytes n) :=
  if same : data.length = n then some ⟨data, same⟩ else none

variable (invalidInstruction : ε)

def orInvalid {α : Type} : Option α → Outcome ε α
  | some a => .ok a
  | none => .error (.error invalidInstruction)

def unpackAddress : Reads ε Address := fun input =>
  if 20 ≤ input.length then do
    let (data, rest) ← splitAt 20 input
    let address ← Outcome.unwrap (tryInto 20 data)
    return (address, rest)
  else orInvalid invalidInstruction none

def unpackFixed32 : Reads ε (FixedBytes 32) := fun input =>
  if 32 ≤ input.length then do
    let (data, rest) ← splitAt 32 input
    let bytes ← orInvalid invalidInstruction (tryInto 32 data)
    return (bytes, rest)
  else orInvalid invalidInstruction none

def unpackPubkey : Reads ε Pubkey := unpackFixed32 invalidInstruction

def unpackBytes32 : Reads ε B256 := unpackFixed32 invalidInstruction

def unpackInteger {α : Type} (size : Nat) (fromBytes : List UInt8 → α) : Reads ε α := fun input => do
  let slice := if size ≤ input.length then some (input.take size) else none
  let value ← orInvalid invalidInstruction ((slice.bind (tryInto size)).map fun bytes => fromBytes bytes.1)
  let rest ← sliceFrom size input
  return (value, rest)

def unpackU128 : Reads ε (BitVec 128) := unpackInteger invalidInstruction 16 fun bytes => .ofNat 128 (fromLeBytes bytes)

def unpackU64 : Reads ε UInt64 := unpackInteger invalidInstruction 8 fun bytes => .ofNat (fromLeBytes bytes)

def unpackU8 : Reads ε UInt8
  | [] => orInvalid invalidInstruction none
  | value :: rest => .ok (value, rest)

def unpackBool : Reads ε Bool := fun input => do
  let byteValue ← orInvalid invalidInstruction input.head?
  let value ← orInvalid invalidInstruction (if byteValue = 0 then some false else if byteValue = 1 then some true else none)
  let rest ← sliceFrom 1 input
  return (value, rest)

def unpackStr : Reads ε String := fun input => do
  let length ← orInvalid invalidInstruction input.head?
  if input.length < 1 + length.toNat then orInvalid invalidInstruction none
  else do
    let bytes ← sliceFrom 1 input
    let (strBytes, rest) ← splitAt length.toNat bytes
    let result ← orInvalid invalidInstruction (String.fromUTF8? ⟨strBytes.toArray⟩)
    return (result, rest)

theorem splitAt_of_le {size : Nat} {input : List UInt8} (enough : size ≤ input.length) :
    ∃ (data rest : List UInt8) (bytes : FixedBytes size), splitAt size input = (.ok (data, rest) : Outcome ε _) ∧
      tryInto size data = some bytes ∧ takeFixed size input = some (bytes, rest) := by
  have whole : (input.take size).length = size := List.length_take_of_le enough
  refine ⟨input.take size, input.drop size, ⟨input.take size, whole⟩, ?_, ?_, ?_⟩
  · rw [splitAt, if_pos enough]
  · rw [tryInto, dif_pos whole]
  · rw [takeFixed, dif_pos enough]

theorem unpackAddress_eq : unpackAddress invalidInstruction = .ofOption invalidInstruction Programs.unpackAddress := by
  funext input
  rw [Reads.ofOption, Programs.unpackAddress, unpackAddress]
  by_cases enough : 20 ≤ input.length
  · obtain ⟨data, rest, bytes, split, whole, taken⟩ := splitAt_of_le enough
    rw [if_pos enough, split, ok_bind, taken]
    dsimp only
    rw [whole]
    rfl
  · rw [if_neg enough, takeFixed, dif_neg enough]
    rfl

theorem unpackFixed32_eq : unpackFixed32 invalidInstruction = .ofOption invalidInstruction (takeFixed 32) := by
  funext input
  rw [Reads.ofOption, unpackFixed32]
  by_cases enough : 32 ≤ input.length
  · obtain ⟨data, rest, bytes, split, whole, taken⟩ := splitAt_of_le enough
    rw [if_pos enough, split, ok_bind, taken]
    dsimp only
    rw [whole]
    rfl
  · rw [if_neg enough, takeFixed, dif_neg enough]
    rfl

theorem unpackInteger_eq {α : Type} (size : Nat) (fromBytes : List UInt8 → α) :
    unpackInteger invalidInstruction size fromBytes =
      .ofOption invalidInstruction fun input => (takeFixed size input).map fun (bytes, rest) => (fromBytes bytes.1, rest) := by
  funext input
  rw [Reads.ofOption, takeFixed, unpackInteger]
  by_cases enough : size ≤ input.length
  · have whole : (input.take size).length = size := List.length_take_of_le enough
    simp only [if_pos enough, dif_pos enough, Option.bind_some, tryInto, whole, dite_true, sliceFrom]
    rfl
  · simp only [if_neg enough, dif_neg enough, Option.bind_none]
    rfl

theorem unpackPubkey_eq : unpackPubkey invalidInstruction = .ofOption invalidInstruction Programs.unpackPubkey :=
  unpackFixed32_eq invalidInstruction

theorem unpackBytes32_eq : unpackBytes32 invalidInstruction = .ofOption invalidInstruction Programs.unpackBytes32 :=
  unpackFixed32_eq invalidInstruction

theorem unpackU128_eq : unpackU128 invalidInstruction = .ofOption invalidInstruction Programs.unpackU128 :=
  unpackInteger_eq invalidInstruction 16 _

theorem unpackU64_eq : unpackU64 invalidInstruction = .ofOption invalidInstruction Programs.unpackU64 :=
  unpackInteger_eq invalidInstruction 8 _

theorem unpackU8_eq : unpackU8 invalidInstruction = .ofOption invalidInstruction Programs.unpackU8 := by
  funext input
  cases input with
  | nil => rfl
  | cons value rest => rfl

theorem unpackBool_eq : unpackBool invalidInstruction = .ofOption invalidInstruction Programs.unpackBool := by
  funext input
  cases input with
  | nil => rfl
  | cons value rest =>
      have after : (sliceFrom 1 (value :: rest) : Outcome ε (List UInt8)) = .ok rest := if_pos (Nat.le_add_left 1 rest.length)
      rw [Reads.ofOption, Programs.unpackBool, unpackBool, List.head?_cons, orInvalid, ok_bind, after]
      by_cases zero : value = 0
      · rw [if_pos zero, if_pos zero]
        rfl
      · rw [if_neg zero, if_neg zero]
        by_cases one : value = 1
        · rw [if_pos one, if_pos one]
          rfl
        · rw [if_neg one, if_neg one]
          rfl

theorem unpackStr_eq : unpackStr invalidInstruction = .ofOption invalidInstruction Programs.unpackStr := by
  funext input
  cases input with
  | nil => rfl
  | cons length rest =>
      rw [Reads.ofOption, Programs.unpackStr, unpackStr, List.head?_cons, orInvalid, ok_bind, List.length_cons]
      by_cases short : rest.length < length.toNat
      · rw [if_pos (by omega), if_pos short]
        rfl
      · rw [if_neg (by omega), if_neg short, sliceFrom, if_pos (by simp), ok_bind, splitAt, List.drop_one, List.tail_cons,
          if_pos (Nat.not_lt.mp short), ok_bind]
        dsimp only
        cases String.fromUTF8? ⟨(rest.take length.toNat).toArray⟩ with
        | none => rfl
        | some text => rfl

def Same {α : Type} (read : Outcome ε (α × List UInt8)) (value : Option α) : Prop :=
  read.map Prod.fst = orInvalid invalidInstruction value

variable {invalidInstruction}

theorem same_bind {α β : Type} {decode : List UInt8 → Option (α × List UInt8)} {input : List UInt8} {f : α → Reads ε β}
    {k : α × List UInt8 → Option β} (later : ∀ a rest, Same invalidInstruction (f a rest) (k (a, rest))) :
    Same invalidInstruction ((Reads.ofOption invalidInstruction decode >>= f) input) (decode input >>= k) := by
  rw [Reads.bind_apply, Reads.ofOption]
  cases decode input with
  | none => rfl
  | some read => exact later read.1 read.2

theorem same_fail {α : Type} (input : List UInt8) :
    Same invalidInstruction (Reads.fail invalidInstruction input) (none : Option α) := rfl

end

end Slices

section

variable {ε : Type} (invalidInstruction : ε)

namespace BridgeInstruction

def readSlices : Reads ε BridgeInstruction := do
  let tag ← Slices.unpackU8 invalidInstruction
  match tag with
  | 0 => return .createVaultAccount
  | 1 =>
      let sender ← Slices.unpackAddress invalidInstruction
      let recipient ← Slices.unpackAddress invalidInstruction
      let mint ← Slices.unpackU128 invalidInstruction
      let value ← Slices.unpackU128 invalidInstruction
      let gas ← Slices.unpackU64 invalidInstruction
      let isCreation ← Slices.unpackBool invalidInstruction
      let l1BlockNum ← Slices.unpackU64 invalidInstruction
      let l1BlockHash ← Slices.unpackBytes32 invalidInstruction
      let logIndex ← Slices.unpackU128 invalidInstruction
      let depositType ← Slices.unpackU8 invalidInstruction
      let depositFrom ← Slices.unpackAddress invalidInstruction
      let depositTo ← Slices.unpackPubkey invalidInstruction
      let depositAmount ← Slices.unpackU128 invalidInstruction
      let depositExtraData ← Slices.unpackBytes32 invalidInstruction
      let depositL2Contract ← Slices.unpackPubkey invalidInstruction
      let depositL1Contract ← Slices.unpackAddress invalidInstruction
      return .depositETH sender recipient mint value gas isCreation l1BlockNum l1BlockHash logIndex depositType depositFrom
        depositTo depositAmount depositExtraData depositL2Contract depositL1Contract
  | 2 => return .createWithdrawalCounterAccount
  | 3 =>
      let target ← Slices.unpackAddress invalidInstruction
      let value ← Slices.unpackU128 invalidInstruction
      let gasLimit ← Slices.unpackU128 invalidInstruction
      return .withdrawETH target value gasLimit
  | 4 =>
      let remoteToken ← Slices.unpackAddress invalidInstruction
      let name ← Slices.unpackStr invalidInstruction
      let symbol ← Slices.unpackStr invalidInstruction
      let uri ← Slices.unpackStr invalidInstruction
      let decimals ← Slices.unpackU8 invalidInstruction
      return .createSPL remoteToken name symbol uri decimals
  | 5 =>
      let localToken ← Slices.unpackPubkey invalidInstruction
      let remoteToken ← Slices.unpackAddress invalidInstruction
      let sender ← Slices.unpackAddress invalidInstruction
      let recipient ← Slices.unpackPubkey invalidInstruction
      let amount ← Slices.unpackU128 invalidInstruction
      return .depositERC20 localToken remoteToken sender recipient amount
  | 6 =>
      let remoteToken ← Slices.unpackAddress invalidInstruction
      let recipient ← Slices.unpackAddress invalidInstruction
      let amount ← Slices.unpackU128 invalidInstruction
      let gasLimit ← Slices.unpackU128 invalidInstruction
      return .withdrawSPL remoteToken recipient amount gasLimit
  | 7 =>
      let l1CrossDomainMessenger ← Slices.unpackAddress invalidInstruction
      let l1StandardBridge ← Slices.unpackAddress invalidInstruction
      return .createBridgeConfigAccount l1CrossDomainMessenger l1StandardBridge
  | 8 =>
      let newAdmin ← Slices.unpackPubkey invalidInstruction
      return .changeBridgeAdmin newAdmin
  | 9 => return .createUserWithdrawalCounterAccount
  | 10 =>
      let remoteToken ← Slices.unpackAddress invalidInstruction
      let name ← Slices.unpackStr invalidInstruction
      let symbol ← Slices.unpackStr invalidInstruction
      let uri ← Slices.unpackStr invalidInstruction
      return .updateSPLMetadata remoteToken name symbol uri
  | _ => .fail invalidInstruction

def unpackSlices (input : List UInt8) : Outcome ε BridgeInstruction := (readSlices invalidInstruction input).map Prod.fst

theorem unpackSlices_eq (input : List UInt8) :
    unpackSlices invalidInstruction input = Slices.orInvalid invalidInstruction (unpack input) := by
  change Slices.Same invalidInstruction _ _
  simp only [readSlices, Slices.unpackU8_eq, Slices.unpackAddress_eq, Slices.unpackU128_eq, Slices.unpackU64_eq,
    Slices.unpackBool_eq, Slices.unpackBytes32_eq, Slices.unpackPubkey_eq, Slices.unpackStr_eq]
  apply Slices.same_bind
  intro tag rest
  dsimp only
  split
  · rfl
  · iterate 16 refine Slices.same_bind fun _ _ => ?_
    rfl
  · rfl
  · iterate 3 refine Slices.same_bind fun _ _ => ?_
    rfl
  · iterate 5 refine Slices.same_bind fun _ _ => ?_
    rfl
  · iterate 5 refine Slices.same_bind fun _ _ => ?_
    rfl
  · iterate 4 refine Slices.same_bind fun _ _ => ?_
    rfl
  · iterate 2 refine Slices.same_bind fun _ _ => ?_
    rfl
  · refine Slices.same_bind fun _ _ => ?_
    rfl
  · rfl
  · iterate 4 refine Slices.same_bind fun _ _ => ?_
    rfl
  · simp only [*, Slices.same_fail]

def strings : BridgeInstruction → List String
  | createSPL _ name symbol uri _ => [name, symbol, uri]
  | updateSPLMetadata _ name symbol uri => [name, symbol, uri]
  | _ => []

theorem pack_eq_none_iff (instruction : BridgeInstruction) :
    instruction.pack = none ↔ ∃ text ∈ instruction.strings, 255 < text.utf8ByteSize := by
  have three (name symbol uri : String) (later : List UInt8 → List UInt8 → List UInt8 → List UInt8) :
      ((packStr name).bind fun name => (packStr symbol).bind fun symbol => (packStr uri).bind fun uri =>
        some (later name symbol uri)) = none ↔ ∃ text ∈ [name, symbol, uri], 255 < text.utf8ByteSize := by
    rw [List.exists_mem_cons_iff, List.exists_mem_cons_iff, List.exists_mem_cons_iff, ← packStr_eq_none_iff name,
      ← packStr_eq_none_iff symbol, ← packStr_eq_none_iff uri]
    cases packStr name <;> cases packStr symbol <;> cases packStr uri <;> simp
  cases instruction with
  | createSPL remoteToken name symbol uri decimals => exact three name symbol uri _
  | updateSPLMetadata remoteToken name symbol uri => exact three name symbol uri _
  | _ => exact iff_of_false (Option.some_ne_none _) (by intro ⟨_, member, _⟩; cases member)

end BridgeInstruction

namespace L1BlockInfoInstruction

def readSlices : Reads ε L1BlockInfoInstruction := do
  let tag ← Slices.unpackU8 invalidInstruction
  match tag with
  | 0 => return .createL1BlockInfoAccount
  | 1 =>
      let number ← Slices.unpackU64 invalidInstruction
      let timestamp ← Slices.unpackU64 invalidInstruction
      let baseFee ← Slices.unpackU128 invalidInstruction
      let hash ← Slices.unpackBytes32 invalidInstruction
      let sequenceNumber ← Slices.unpackU64 invalidInstruction
      let batcherHash ← Slices.unpackBytes32 invalidInstruction
      let feeOverhead ← Slices.unpackU128 invalidInstruction
      let feeScalar ← Slices.unpackU128 invalidInstruction
      let gas ← Slices.unpackU64 invalidInstruction
      let isSystemTx ← Slices.unpackBool invalidInstruction
      return .updateL1BlockInfo number timestamp baseFee hash sequenceNumber batcherHash feeOverhead feeScalar gas isSystemTx
  | _ => .fail invalidInstruction

def unpackSlices (input : List UInt8) : Outcome ε L1BlockInfoInstruction :=
  (readSlices invalidInstruction input).map Prod.fst

theorem unpackSlices_eq (input : List UInt8) :
    unpackSlices invalidInstruction input = Slices.orInvalid invalidInstruction (unpack input) := by
  change Slices.Same invalidInstruction _ _
  simp only [readSlices, Slices.unpackU8_eq, Slices.unpackU128_eq, Slices.unpackU64_eq, Slices.unpackBool_eq,
    Slices.unpackBytes32_eq]
  apply Slices.same_bind
  intro tag rest
  dsimp only
  split
  · rfl
  · iterate 10 refine Slices.same_bind fun _ _ => ?_
    rfl
  · simp only [*, Slices.same_fail]

end L1BlockInfoInstruction

theorem Slices.orInvalid_returns {α : Type} (value : Option α) : Outcome.Returns (Slices.orInvalid invalidInstruction value) := by
  cases value with
  | none => trivial
  | some a => trivial

/-- What is packed is read back, whatever follows it; reading never panics, and no two instructions are packed
alike. Only an instruction with a text of more than 255 bytes cannot be packed. -/
theorem instructions_round_trip :
    (∀ instruction : BridgeInstruction,
      instruction.pack = none ↔ ∃ text ∈ instruction.strings, 255 < text.utf8ByteSize) ∧
    (∀ (instruction : BridgeInstruction) (data : List UInt8), instruction.pack = some data →
      ∀ rest, BridgeInstruction.unpackSlices invalidInstruction (data ++ rest) = .ok instruction) ∧
    (∀ input, Outcome.Returns (BridgeInstruction.unpackSlices invalidInstruction input)) ∧
    (∀ (instruction other : BridgeInstruction) (data : List UInt8), instruction.pack = some data →
      other.pack = some data → instruction = other) ∧
    (∀ (instruction : L1BlockInfoInstruction) (rest : List UInt8),
      L1BlockInfoInstruction.unpackSlices invalidInstruction (instruction.pack ++ rest) = .ok instruction) ∧
    (∀ input, Outcome.Returns (L1BlockInfoInstruction.unpackSlices invalidInstruction input)) ∧
    (∀ instruction other : L1BlockInfoInstruction, instruction.pack = other.pack → instruction = other) := by
  refine ⟨BridgeInstruction.pack_eq_none_iff, ?_, ?_, ?_, ?_, ?_, ?_⟩
  · intro instruction data packs rest
    rw [BridgeInstruction.unpackSlices_eq, BridgeInstruction.unpack_pack_append packs]
    rfl
  · intro input
    rw [BridgeInstruction.unpackSlices_eq]
    exact Slices.orInvalid_returns invalidInstruction _
  · intro instruction other data packs packs'
    have read := BridgeInstruction.unpack_pack packs
    rw [BridgeInstruction.unpack_pack packs'] at read
    exact (Option.some.inj read).symm
  · intro instruction rest
    rw [L1BlockInfoInstruction.unpackSlices_eq, L1BlockInfoInstruction.unpack_pack_append]
    rfl
  · intro input
    rw [L1BlockInfoInstruction.unpackSlices_eq]
    exact Slices.orInvalid_returns invalidInstruction _
  · intro instruction other same
    have read := L1BlockInfoInstruction.unpack_pack instruction
    rw [same, L1BlockInfoInstruction.unpack_pack] at read
    exact (Option.some.inj read).symm

end

theorem instructions_round_trip_token :
    BridgeInstruction.unpackSlices () (4 :: (List.replicate 20 7 ++ [0, 1, 0x54, 2, 0xC3, 0xA9, 9]) ++ [1, 2, 3]) =
      .ok (.createSPL ⟨List.replicate 20 7, rfl⟩ "" "T" "é" 9) :=
  (instructions_round_trip ()).2.1 (.createSPL ⟨List.replicate 20 7, rfl⟩ "" "T" "é" 9)
    (4 :: (List.replicate 20 7 ++ [0, 1, 0x54, 2, 0xC3, 0xA9, 9])) (by decide +kernel) [1, 2, 3]

end KonaSoon.Programs
