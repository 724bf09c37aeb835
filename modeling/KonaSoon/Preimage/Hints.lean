import KonaSoon.Lib.Calls
import KonaSoon.Lib.Hex
import KonaSoon.Preimage.Oracle
import KonaSoon.Primitives.Account

/-!
# Hints

The text of a hint (`proof/src/hint.rs`), the keys of what it asks for (`preimage/src/key.rs`), and the writer and the
reader of the hint channel (`preimage/src/hint.rs`) as processes on its two links.
-/

namespace KonaSoon.Preimage
open Lib Mpt

/-! ## The text of a hint -/

inductive HintType where
  | l1BlockHeader
  | l1Transactions
  | l1Receipts
  | l1Blob
  | daProxyBlob
  | l1Precompile
  | startingL2Output
  | l2StateNode
  | l2AccountProof
  | l2BlockData
  | l2BankHash
  | l2BlockTime
deriving DecidableEq, Repr

inductive HintParsingError where
  | invalidFormat (hint : String)
  | hex
  | invalidType (value : String)
deriving DecidableEq, Repr

namespace HintType

/-- `<&str>::from`. -/
def toStr : HintType → String
  | l1BlockHeader => "l1-block-header"
  | l1Transactions => "l1-transactions"
  | l1Receipts => "l1-receipts"
  | l1Blob => "l1-blob"
  | daProxyBlob => "da-proxy-blob"
  | l1Precompile => "l1-precompile"
  | startingL2Output => "starting-l2-output"
  | l2StateNode => "l2-state-node"
  | l2AccountProof => "l2-account-proof"
  | l2BlockData => "l2-block-data"
  | l2BankHash => "l2-bank-hash"
  | l2BlockTime => "l2-block-time"

def fromStr (value : String) : Except HintParsingError HintType :=
  match value with
  | "l1-block-header" => .ok l1BlockHeader
  | "l1-transactions" => .ok l1Transactions
  | "l1-receipts" => .ok l1Receipts
  | "l1-blob" => .ok l1Blob
  | "da-proxy-blob" => .ok daProxyBlob
  | "l1-precompile" => .ok l1Precompile
  | "starting-l2-output" => .ok startingL2Output
  | "l2-state-node" => .ok l2StateNode
  | "l2-account-proof" => .ok l2AccountProof
  | "l2-block-data" => .ok l2BlockData
  | "l2-bank-hash" => .ok l2BankHash
  | "l2-block-time" => .ok l2BlockTime
  | value => .error (.invalidType value)

theorem fromStr_eq_iff (value : String) (ty : HintType) : fromStr value = .ok ty ↔ value = ty.toStr := by
  constructor
  · intro parses
    unfold fromStr at parses
    split at parses <;> cases parses <;> rfl
  · rintro rfl
    cases ty <;> rfl

theorem fromStr_spec (value : String) :
    (∃ ty : HintType, value = ty.toStr ∧ fromStr value = .ok ty) ∨
      ((∀ ty : HintType, value ≠ ty.toStr) ∧ fromStr value = .error (.invalidType value)) := by
  by_cases known : ∃ ty : HintType, value = ty.toStr
  · obtain ⟨ty, rfl⟩ := known
    exact .inl ⟨ty, rfl, (fromStr_eq_iff _ ty).mpr rfl⟩
  · have unknown : ∀ ty : HintType, value ≠ ty.toStr := fun ty same => known ⟨ty, same⟩
    refine .inr ⟨unknown, ?_⟩
    have parses : ∀ ty, fromStr value ≠ .ok ty := fun ty parses => unknown ty ((fromStr_eq_iff value ty).mp parses)
    unfold fromStr at parses ⊢
    split <;> first | rfl | exact absurd rfl (parses _)

theorem blank_notMem_toStr (ty : HintType) : ' ' ∉ ty.toStr.toList := by
  cases ty <;> decide

end HintType

structure Hint where
  ty : HintType
  data : List UInt8
deriving DecidableEq, Repr

def decodeHex : List Char → Option (List UInt8)
  | '0' :: 'x' :: digits => Hex.decode digits
  | digits => Hex.decode digits

namespace HintType

/-- `HintType::with_data`: the pieces of the data in a row. -/
def withData (ty : HintType) (data : List (List UInt8)) : Hint := ⟨ty, data.flatten⟩

end HintType

namespace Hint

def withData (hint : Hint) (data : List UInt8) : Hint := { hint with data := hint.data ++ data }

def encode (hint : Hint) : String :=
  String.ofList (hint.ty.toStr.toList ++ ' ' :: '0' :: 'x' :: Hex.encode hint.data)

def fromStr (s : String) : Except HintParsingError Hint :=
  match s.toList.splitOn ' ' with
  | [ty, data] => do
      let ty ← HintType.fromStr (String.ofList ty)
      match decodeHex data with
      | none => .error .hex
      | some data => return ⟨ty, data⟩
  | _ => .error (.invalidFormat s)

/-- The texts of a hint: its type, one blank, and the digits of its data with or without the mark of the base. -/
inductive Spells (s : String) (hint : Hint) : Prop
  | marked {digits : List Char} (spells : Hex.Spells digits hint.data)
      (text : s.toList = hint.ty.toStr.toList ++ ' ' :: '0' :: 'x' :: digits)
  | unmarked {digits : List Char} (spells : Hex.Spells digits hint.data)
      (text : s.toList = hint.ty.toStr.toList ++ ' ' :: digits)

theorem decodeHex_eq_some_iff (data : List Char) (bytes : List UInt8) :
    decodeHex data = some bytes ↔
      (∃ digits, data = '0' :: 'x' :: digits ∧ Hex.Spells digits bytes) ∨ Hex.Spells data bytes := by
  unfold decodeHex
  split
  · rename_i digits
    rw [Hex.decode_eq_some_iff]
    constructor
    · exact fun spells => .inl ⟨digits, rfl, spells⟩
    · rintro (⟨digits', same, spells⟩ | spells)
      · cases same
        exact spells
      · have mark := spells.value_isSome (c := 'x') (by simp)
        cases mark
  · rename_i unmarked
    rw [Hex.decode_eq_some_iff]
    constructor
    · exact .inr
    · rintro (⟨digits, rfl, spells⟩ | spells)
      · exact absurd rfl (unmarked digits)
      · exact spells

theorem splitOn_of_parts {first second : List Char} (noBlank : ' ' ∉ first) (noBlank' : ' ' ∉ second) :
    (first ++ ' ' :: second).splitOn ' ' = [first, second] := by
  rw [List.splitOn_append_cons_self_of_not_mem noBlank, List.splitOn_eq_singleton noBlank']

theorem blank_notMem {digits : List Char} {bytes : List UInt8} (spells : Hex.Spells digits bytes) : ' ' ∉ digits := by
  intro member
  have value := spells.value_isSome member
  cases value

theorem splitOn_eq_pair {s : List Char} {first second : List Char} (splits : s.splitOn ' ' = [first, second]) :
    s = first ++ ' ' :: second := by
  have joined : [' '].intercalate (s.splitOn ' ') = s := List.intercalate_splitOn ' '
  rw [splits] at joined
  simpa [List.intercalate] using joined.symm

theorem fromStr_eq_iff (s : String) (hint : Hint) : fromStr s = .ok hint ↔ Spells s hint := by
  constructor
  · intro parses
    unfold fromStr at parses
    split at parses
    · rename_i ty data splits
      obtain ⟨ty', typed, parses⟩ := bind_eq_ok.mp parses
      rw [HintType.fromStr_eq_iff] at typed
      have typed' : ty = ty'.toStr.toList := by rw [← typed, String.toList_ofList]
      split at parses
      · cases parses
      · rename_i bytes decodes
        cases parses
        have text := splitOn_eq_pair splits
        rw [typed'] at text
        rcases (decodeHex_eq_some_iff data bytes).mp decodes with ⟨digits, rfl, spells⟩ | spells
        · exact .marked spells text
        · exact .unmarked spells text
    · cases parses
  · intro spells
    have parses : ∀ data, ' ' ∉ data → decodeHex data = some hint.data →
        s.toList = hint.ty.toStr.toList ++ ' ' :: data → fromStr s = .ok hint := by
      intro data noBlank decodes text
      rw [fromStr, text, splitOn_of_parts hint.ty.blank_notMem_toStr noBlank]
      simp only [String.ofList_toList, (HintType.fromStr_eq_iff _ _).mpr rfl, decodes]
      rfl
    cases spells with
    | marked spells text =>
        refine parses _ ?_ ((decodeHex_eq_some_iff _ _).mpr (.inl ⟨_, rfl, spells⟩)) text
        simpa using blank_notMem spells
    | unmarked spells text =>
        exact parses _ (blank_notMem spells) ((decodeHex_eq_some_iff _ _).mpr (.inr spells)) text

theorem spells_encode (hint : Hint) : Spells hint.encode hint :=
  .marked (Hex.spells_encode hint.data) String.toList_ofList

theorem splitOn_length (s : List Char) : (s.splitOn ' ').length = s.count ' ' + 1 := by
  induction s with
  | nil => rfl
  | cons c s ih =>
      rw [List.splitOn_cons_eq_if_modifyHead, List.count_cons]
      split
      · rw [List.length_cons, ih]
      · rw [List.length_modifyHead, ih]

theorem splitOn_eq_pair_iff (s first second : List Char) :
    s.splitOn ' ' = [first, second] ↔ ' ' ∉ first ∧ ' ' ∉ second ∧ s = first ++ ' ' :: second := by
  constructor
  · intro splits
    have text := splitOn_eq_pair splits
    have blanks := splitOn_length s
    rw [splits, text, List.count_append, List.count_cons_self, List.length_cons, List.length_singleton] at blanks
    exact ⟨List.count_eq_zero.mp (by omega), List.count_eq_zero.mp (by omega), text⟩
  · rintro ⟨noBlank, noBlank', rfl⟩
    exact splitOn_of_parts noBlank noBlank'

/-- A hint is read from its own texts and no others, which `encode` writes one of. A text is refused for its format if it
does not have one blank, for its type if what stands before the blank is not the name of a type, and else for its
digits. -/
theorem parses_exactly (s : String) :
    (∀ hint, fromStr s = .ok hint ↔ Spells s hint) ∧ (∀ hint, Spells (encode hint) hint) ∧
    (fromStr s = .error (.invalidFormat s) ↔ s.toList.count ' ' ≠ 1) ∧
    ∀ value, fromStr s = .error (.invalidType value) ↔
      ' ' ∉ value.toList ∧ (∀ ty : HintType, value ≠ ty.toStr) ∧
        ∃ data, ' ' ∉ data ∧ s.toList = value.toList ++ ' ' :: data := by
  have blanks := splitOn_length s.toList
  refine ⟨fromStr_eq_iff s, spells_encode, ?_⟩
  unfold fromStr
  split
  · rename_i first second splits
    rw [splits] at blanks
    have one : s.toList.count ' ' = 1 := (Nat.succ.inj blanks).symm
    obtain ⟨noBlank, noBlank', text⟩ := (splitOn_eq_pair_iff ..).mp splits
    rcases HintType.fromStr_spec (String.ofList first) with ⟨ty, named, parses⟩ | ⟨unknown, fails⟩
    · rw [parses, ok_bind]
      refine ⟨⟨fun fails => ?_, fun several => absurd one several⟩, fun value => ⟨fun fails => ?_, ?_⟩⟩
      · split at fails <;> cases fails
      · split at fails <;> cases fails
      · rintro ⟨absent, unknown, data, absent', same⟩
        have parts := (splitOn_eq_pair_iff ..).mpr ⟨absent, absent', same⟩
        rw [splits] at parts
        cases parts
        exact absurd (by rw [← named, String.ofList_toList]) (unknown ty)
    · rw [fails]
      refine ⟨⟨nofun, fun several => absurd one several⟩, fun value => ⟨fun same => ?_, ?_⟩⟩
      · cases same
        rw [String.toList_ofList]
        exact ⟨noBlank, unknown, second, noBlank', text⟩
      · rintro ⟨absent, -, data, absent', same⟩
        have parts := (splitOn_eq_pair_iff ..).mpr ⟨absent, absent', same⟩
        rw [splits] at parts
        cases parts
        rw [String.ofList_toList]
        rfl
  · rename_i several
    refine ⟨⟨fun _ one => ?_, fun _ => rfl⟩, fun value => ⟨nofun, ?_⟩⟩
    · rw [one] at blanks
      obtain ⟨first, second, pair⟩ := List.length_eq_two.mp blanks
      exact several first second pair
    · rintro ⟨absent, -, data, absent', same⟩
      exact absurd ((splitOn_eq_pair_iff ..).mpr ⟨absent, absent', same⟩) (several _ _)

end Hint

/-! ## The keys of hinted preimages -/

namespace PreimageKey

variable (prim : Primitives)

def newKeccak256 (digest : B256) : PreimageKey := new digest .keccak256

def newBlockSlot (blockSlot : UInt64) : PreimageKey := new (prim.keccak256 (toBeBytes blockSlot)) .blockSlot

def newDaProxyBlob (keyData : List UInt8) : PreimageKey := new (prim.keccak256 keyData) .daProxyBlob

def newL2BankHash (blockNumber : UInt64) : PreimageKey := new (prim.keccak256 (toBeBytes blockNumber)) .bankHash

def newL2BlockTime (blockNumber : UInt64) : PreimageKey := new (prim.keccak256 (toBeBytes blockNumber)) .blockTime

def newL2AccountProof (hashedAccount : B256) : PreimageKey := new hashedAccount .l2AccountProof

theorem toRaw_injective : Function.Injective toRaw := by
  intro key key' same
  have parsed := congrArg tryFrom same
  rw [tryFrom_toRaw, tryFrom_toRaw] at parsed
  exact Except.ok.inj parsed

end PreimageKey

/-! ## The hint channel -/

/-- The variants of `PreimageOracleError` that a host raises. -/
inductive HostError where
  | invalidPreimageKey
  | keyNotFound
  | hintParseFailed (e : HintParsingError)
  | other (text : String)
deriving DecidableEq, Repr

def utf8 (text : String) : List UInt8 := text.toByteArray.data.toList

/-- `HintWriter::write`. The length is truncated to 32 bits. -/
def writeHint (hint : String) : Proc Unit := do
  Proc.send (bigEndian 4 (utf8 hint).length).1
  Proc.send (utf8 hint)
  let _ ← Proc.receive 1
  return ()

theorem utf8_eq (text : String) : utf8 text = text.toList.flatMap String.utf8EncodeChar := by
  rw [utf8, ← String.utf8Encode_toList, List.utf8Encode]
  simp

theorem utf8_length_le (text : String) : (utf8 text).length ≤ 4 * text.toList.length := by
  rw [utf8_eq]
  induction text.toList with
  | nil => rfl
  | cons c chars ih =>
      rw [List.flatMap_cons, List.length_append, String.length_utf8EncodeChar, List.length_cons]
      have small := c.utf8Size_le_four
      omega

theorem Hint.encode_short (hint : Hint) (small : hint.data.length < 2 ^ 20) : (utf8 hint.encode).length < 2 ^ 32 := by
  refine (utf8_length_le _).trans_lt ?_
  have name : hint.ty.toStr.toList.length ≤ 18 := by cases hint.ty <;> decide
  rw [Hint.encode, String.toList_ofList]
  simp only [List.length_append, List.length_cons, Hex.length_encode]
  omega

section Servers

variable {S : Type}

def acknowledge (result : Outcome HostError Unit) : Worker S (Outcome HostError Unit) := do
  Worker.send [0]
  return result

/-- An error is acknowledged too, but a router that panics or does not return leaves the client without an answer. -/
def afterRouting : Outcome HostError Unit → Worker S (Outcome HostError Unit)
  | .ok () => acknowledge (.ok ())
  | .error (.error e) => acknowledge (.error (.error e))
  | .error stop => return .error stop

/-- `HintReader::next_hint`. -/
def nextHint (routeHint : String → Accesses S (Outcome HostError Unit)) : Worker S (Outcome HostError Unit) := do
  let lenBuf ← Worker.receive 4
  let rawPayload ← Worker.receive (ofBigEndian lenBuf.1)
  match String.fromUTF8? ⟨rawPayload.1.toArray⟩ with
  | none => acknowledge (.error (.error (.other "Failed to decode hint payload")))
  | some payload => (routeHint payload).toWorker afterRouting

def sendPreimage : Outcome HostError Bytes → Worker S (Outcome HostError Unit)
  | .error stop => return .error stop
  | .ok value => do
      Worker.send (bigEndian 8 value.1.length).1
      if value.1.length > 0 then
        Worker.send value.1
      return .ok ()

/-- `OracleServer::next_preimage_request`, for a fetcher that works on the memory. -/
def nextRequest (getPreimage : PreimageKey → Accesses S (Outcome HostError Bytes)) : Worker S (Outcome HostError Unit) := do
  let buf ← Worker.receive 32
  match PreimageKey.tryFrom buf with
  | .error _ => return .error (.error .invalidPreimageKey)
  | .ok preimageKey => (getPreimage preimageKey).toWorker sendPreimage

end Servers

end KonaSoon.Preimage
