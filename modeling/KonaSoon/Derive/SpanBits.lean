import KonaSoon.Derive.Batch
import KonaSoon.Lib.Reader

namespace KonaSoon.Derive
open Lib

def countOnes (byte : UInt8) : Nat := (List.range 8).countP fun i => byte.toNat.testBit i

def leadingZeros (byte : UInt8) : Nat := if byte = 0 then 8 else 7 - byte.toNat.log2

structure SpanBatchBits where
  bytes : List UInt8
deriving DecidableEq, Repr

namespace SpanBatchBits

def getBit (bits : SpanBatchBits) (index : Nat) : Option UInt8 :=
  if index / 8 < bits.bytes.length then
    bits.bytes[bits.bytes.length - index / 8 - 1]?.map fun byte =>
      if byte &&& (1 <<< UInt8.ofNat (index % 8)) ≠ 0 then 1 else 0
  else none

def bitLenOf : List UInt8 → Nat
  | [] => 0
  | byte :: rest => if byte ≠ 0 then 7 - leadingZeros byte + 1 + rest.length * 8 else bitLenOf rest

def bitLen (bits : SpanBatchBits) : Nat := bitLenOf bits.bytes

def bufferLen (bitLength : Nat) : Nat := bitLength / 8 + if bitLength % 8 ≠ 0 then 1 else 0

/-- The bytes of a list. Where the input is shorter than the list, the source copies it to the left end of the
buffer and leaves zeros behind it. -/
def buffer (bitLength : Nat) (b : List UInt8) : SpanBatchBits :=
  if b.length < bufferLen bitLength then ⟨b ++ List.replicate (bufferLen bitLength - b.length) 0⟩
  else ⟨b.take (bufferLen bitLength)⟩

def decode (bitLength : Nat) : Reads SpanBatchError SpanBatchBits := fun b =>
  if bitLength < (buffer bitLength b).bitLen then .error (.error .bitfieldTooLong)
  else .ok (buffer bitLength b, b.drop (bufferLen bitLength))

def countOnesTotal (bits : SpanBatchBits) : Nat := (bits.bytes.map countOnes).sum

theorem getBit_isSome {bits : SpanBatchBits} {index : Nat} (within : index / 8 < bits.bytes.length) :
    (bits.getBit index).isSome := by
  have inside : bits.bytes.length - index / 8 - 1 < bits.bytes.length := by omega
  simp [getBit, within, inside]

theorem checked_decode (bitLength : Nat) : (decode bitLength).Checked := by
  intro b
  unfold decode
  split
  · trivial
  · trivial

theorem length_buffer (bitLength : Nat) (b : List UInt8) :
    (buffer bitLength b).bytes.length = bufferLen bitLength := by
  unfold buffer
  split
  · rw [List.length_append, List.length_replicate]
    omega
  · rw [List.length_take]
    omega

theorem decode_eq_ok {bitLength : Nat} {b rest : List UInt8} {bits : SpanBatchBits}
    (ok : decode bitLength b = .ok (bits, rest)) :
    bits.bytes.length = bufferLen bitLength ∧ bits.bitLen ≤ bitLength := by
  unfold decode at ok
  split at ok
  · cases ok
  · rename_i fits
    cases ok
    exact ⟨length_buffer bitLength b, Nat.not_lt.mp fits⟩

theorem div_lt_bufferLen {index bitLength : Nat} (within : index < bitLength) : index / 8 < bufferLen bitLength := by
  unfold bufferLen
  split <;> omega

theorem decode_getBit {bitLength index : Nat} {b rest : List UInt8} {bits : SpanBatchBits}
    (ok : decode bitLength b = .ok (bits, rest)) (within : index < bitLength) : (bits.getBit index).isSome :=
  getBit_isSome ((decode_eq_ok ok).1 ▸ div_lt_bufferLen within)

def isSet (bits : SpanBatchBits) (index : Nat) : Bool := bits.getBit index = some 1

theorem getBit_eq {bits : SpanBatchBits} {index : Nat} (found : (bits.getBit index).isSome) :
    bits.getBit index = some (if bits.isSet index then 1 else 0) := by
  obtain ⟨bit, found⟩ := Option.isSome_iff_exists.mp found
  have binary : bit = 1 ∨ bit = 0 := by
    unfold getBit at found
    split at found
    · obtain ⟨byte, -, rfl⟩ := Option.map_eq_some_iff.mp found
      split
      · exact .inl rfl
      · exact .inr rfl
    · cases found
  rcases binary with rfl | rfl
  · simp [isSet, found]
  · simp [isSet, found]

theorem bit_eq_testBit : ∀ (byte : UInt8) (k : Fin 8),
    decide (byte &&& (1 <<< UInt8.ofNat k.1) ≠ 0) = byte.toNat.testBit k.1 := by
  decide +kernel

theorem isSet_cons_of_lt {byte : UInt8} {rest : List UInt8} {index : Nat} (within : index < 8 * rest.length) :
    isSet ⟨byte :: rest⟩ index = isSet ⟨rest⟩ index := by
  have inside : index / 8 < rest.length := by omega
  have position : (byte :: rest).length - index / 8 - 1 = rest.length - index / 8 - 1 + 1 := by
    rw [List.length_cons]
    omega
  simp only [isSet, getBit, position, List.getElem?_cons_succ, if_pos inside]
  rw [if_pos (by rw [List.length_cons]; omega)]

theorem isSet_cons_of_ge {byte : UInt8} {rest : List UInt8} {k : Nat} (within : k < 8) :
    isSet ⟨byte :: rest⟩ (8 * rest.length + k) = byte.toNat.testBit k := by
  have quotient : (8 * rest.length + k) / 8 = rest.length := by omega
  have remainder : (8 * rest.length + k) % 8 = k := by omega
  rw [← bit_eq_testBit byte ⟨k, within⟩]
  simp only [isSet, getBit, quotient, remainder, List.length_cons, Nat.lt_succ_self, if_true]
  by_cases set : byte &&& 1 <<< UInt8.ofNat k = 0
  · simp [set]
  · simp [set]

theorem isSet_of_length_le {bits : SpanBatchBits} {index : Nat} (outside : 8 * bits.bytes.length ≤ index) :
    isSet bits index = false := by
  have beyond : ¬ index / 8 < bits.bytes.length := by omega
  simp [isSet, getBit, beyond]

theorem countP_isSet (bytes : List UInt8) :
    (List.range (8 * bytes.length)).countP (isSet ⟨bytes⟩) = (bytes.map countOnes).sum := by
  induction bytes with
  | nil => rfl
  | cons byte rest ih =>
      have lower : (List.range (8 * rest.length)).countP (isSet ⟨byte :: rest⟩) =
          (List.range (8 * rest.length)).countP (isSet ⟨rest⟩) :=
        List.countP_congr fun i mem => by rw [isSet_cons_of_lt (List.mem_range.mp mem)]
      have upper : (List.range 8).countP (isSet ⟨byte :: rest⟩ ∘ (8 * rest.length + ·)) = countOnes byte :=
        List.countP_congr fun k mem => by rw [Function.comp, isSet_cons_of_ge (List.mem_range.mp mem)]
      rw [List.length_cons, Nat.mul_succ, List.range_add, List.countP_append, List.countP_map, lower, upper, ih,
        List.map_cons, List.sum_cons, Nat.add_comm]

theorem testBit_of_leadingZeros : ∀ (byte : UInt8) (k : Fin 8), 7 - leadingZeros byte + 1 ≤ k.1 →
    byte.toNat.testBit k.1 = false := by
  decide +kernel

theorem isSet_of_bitLenOf_le {bytes : List UInt8} {index : Nat} (outside : bitLenOf bytes ≤ index) :
    isSet ⟨bytes⟩ index = false := by
  induction bytes with
  | nil => simp [isSet, getBit]
  | cons byte rest ih =>
      rcases Nat.lt_or_ge index (8 * rest.length) with lower | upper
      · rw [isSet_cons_of_lt lower]
        refine ih ?_
        unfold bitLenOf at outside
        split at outside
        · omega
        · exact outside
      · rcases Nat.lt_or_ge index (8 * rest.length + 8) with here | beyond
        · obtain ⟨k, rfl⟩ := Nat.exists_eq_add_of_le upper
          rw [isSet_cons_of_ge (by omega)]
          unfold bitLenOf at outside
          split at outside
          · exact testBit_of_leadingZeros byte ⟨k, by omega⟩ (by simp only; omega)
          · rename_i zero
            rw [not_not.mp zero]
            simp
        · exact isSet_of_length_le (by simp only [List.length_cons]; omega)

theorem countP_isSet_of_bitLen_le {bits : SpanBatchBits} {bitLength : Nat} (fits : bits.bitLen ≤ bitLength)
    (within : bitLength ≤ 8 * bits.bytes.length) :
    (List.range bitLength).countP bits.isSet = bits.countOnesTotal := by
  obtain ⟨more, total⟩ := Nat.exists_eq_add_of_le within
  have upper : (List.range more).countP (bits.isSet ∘ (bitLength + ·)) = 0 := by
    rw [List.countP_eq_zero]
    intro k _
    have clear : bits.isSet (bitLength + k) = false := isSet_of_bitLenOf_le (Nat.le_trans fits (Nat.le_add_right _ _))
    simp [clear]
  have all := countP_isSet bits.bytes
  rw [total, List.range_add, List.countP_append, List.countP_map] at all
  rw [countOnesTotal, ← all, upper, Nat.add_zero]

theorem le_bufferLen (bitLength : Nat) : bitLength ≤ 8 * bufferLen bitLength := by
  unfold bufferLen
  split <;> omega

theorem decode_countP_isSet {bitLength : Nat} {b rest : List UInt8} {bits : SpanBatchBits}
    (ok : decode bitLength b = .ok (bits, rest)) :
    (List.range bitLength).countP bits.isSet = bits.countOnesTotal := by
  obtain ⟨length, fits⟩ := decode_eq_ok ok
  exact countP_isSet_of_bitLen_le fits (length ▸ le_bufferLen bitLength)

def resizeFromRight (bytes : List UInt8) (newSize : Nat) : List UInt8 :=
  if newSize < bytes.length then bytes.drop (bytes.length - newSize)
  else List.replicate (newSize - bytes.length) 0 ++ bytes

def writeBit (byte : UInt8) (bitIndex : Nat) (value : Bool) : UInt8 :=
  if value then byte ||| (1 <<< UInt8.ofNat bitIndex) else byte &&& ~~~(1 <<< UInt8.ofNat bitIndex)

def setBit (bits : SpanBatchBits) (index : Nat) (value : Bool) : SpanBatchBits :=
  let bytes := if bits.bytes.length ≤ index / 8 then resizeFromRight bits.bytes (index / 8 + 1) else bits.bytes
  ⟨bytes.modify (bytes.length - index / 8 - 1) fun byte => writeBit byte (index % 8) value⟩

/-- The bits in as many bytes as a list of the given length has. Longer bits do not fit into the buffer. -/
def encode (bitLength : Nat) (bits : SpanBatchBits) : Outcome SpanBatchError (List UInt8) :=
  if bitLength < bits.bitLen then .error (.error .bitfieldTooLong)
  else if bufferLen bitLength < bits.bytes.length then .error .panic
  else .ok (List.replicate (bufferLen bitLength - bits.bytes.length) 0 ++ bits.bytes)

theorem mask_testBit : ∀ k j : Fin 8, ((1 : UInt8) <<< UInt8.ofNat k.1).toNat.testBit j.1 = decide (j = k) ∧
    (~~~((1 : UInt8) <<< UInt8.ofNat k.1)).toNat.testBit j.1 = !decide (j = k) := by
  decide +kernel

theorem testBit_writeBit (byte : UInt8) (value : Bool) {k j : Nat} (setWithin : k < 8) (readWithin : j < 8) :
    (writeBit byte k value).toNat.testBit j = if j = k then value else byte.toNat.testBit j := by
  obtain ⟨one, rest⟩ := mask_testBit ⟨k, setWithin⟩ ⟨j, readWithin⟩
  simp only [Fin.mk.injEq] at one rest
  cases value with
  | true =>
      rw [writeBit, if_pos rfl, UInt8.toNat_or, Nat.testBit_or, one]
      by_cases same : j = k <;> simp [same]
  | false =>
      rw [writeBit, if_neg Bool.false_ne_true, UInt8.toNat_and, Nat.testBit_and, rest]
      by_cases same : j = k <;> simp [same]

theorem isSet_eq_reverse (bits : SpanBatchBits) (index : Nat) :
    bits.isSet index = (bits.bytes.reverse.getD (index / 8) 0).toNat.testBit (index % 8) := by
  unfold isSet getBit
  split
  · rename_i within
    have position : bits.bytes.length - index / 8 - 1 = bits.bytes.length - 1 - index / 8 := by omega
    have inside : bits.bytes.length - 1 - index / 8 < bits.bytes.length := by omega
    rw [List.getD_eq_getElem?_getD, List.getElem?_reverse within, position, List.getElem?_eq_getElem inside]
    rw [← bit_eq_testBit _ ⟨index % 8, Nat.mod_lt index (by decide)⟩]
    simp only [Option.map_some, Option.getD_some, Option.some.injEq]
    split <;> simp_all
  · rename_i outside
    rw [List.getD_eq_getElem?_getD, List.getElem?_eq_none (by rw [List.length_reverse]; omega)]
    simp

theorem reverse_resizeFromRight {bytes : List UInt8} {newSize : Nat} (grows : bytes.length ≤ newSize) :
    (resizeFromRight bytes newSize).reverse = bytes.reverse ++ List.replicate (newSize - bytes.length) 0 := by
  rw [resizeFromRight, if_neg (Nat.not_lt.mpr grows), List.reverse_append, List.reverse_replicate]

theorem reverse_modify {α : Type} (f : α → α) {as : List α} {k : Nat} (within : k < as.length) :
    (as.modify (as.length - k - 1) f).reverse = as.reverse.modify k f := by
  apply List.ext_getElem?
  intro i
  rcases Nat.lt_or_ge i as.length with inside | outside
  · rw [List.getElem?_reverse (by rwa [List.length_modify]), List.getElem?_modify, List.getElem?_modify,
      List.getElem?_reverse inside, List.length_modify]
    have same : as.length - k - 1 = as.length - 1 - i ↔ k = i := by omega
    simp only [same]
  · rw [List.getElem?_eq_none (by simpa using outside), List.getElem?_eq_none (by simpa using outside)]

theorem length_setBit (bits : SpanBatchBits) (index : Nat) (value : Bool) :
    (bits.setBit index value).bytes.length = max bits.bytes.length (index / 8 + 1) := by
  simp only [setBit, List.length_modify]
  split
  · rename_i short
    rw [resizeFromRight, if_neg (by omega), List.length_append, List.length_replicate]
    omega
  · omega

theorem isSet_setBit (bits : SpanBatchBits) (index : Nat) (value : Bool) (i : Nat) :
    (bits.setBit index value).isSet i = if i = index then value else bits.isSet i := by
  obtain ⟨bytes, resized, within, kept⟩ : ∃ bytes : List UInt8,
      bits.setBit index value = ⟨bytes.modify (bytes.length - index / 8 - 1) fun byte => writeBit byte (index % 8) value⟩ ∧
      index / 8 < bytes.length ∧ ∀ k, bytes.reverse.getD k 0 = bits.bytes.reverse.getD k 0 := by
    by_cases short : bits.bytes.length ≤ index / 8
    · refine ⟨resizeFromRight bits.bytes (index / 8 + 1), by simp only [setBit, if_pos short], ?_, ?_⟩
      · rw [← List.length_reverse, reverse_resizeFromRight (by omega), List.length_append, List.length_reverse,
          List.length_replicate]
        omega
      · intro k
        rw [reverse_resizeFromRight (by omega), List.getD_eq_getElem?_getD, List.getD_eq_getElem?_getD]
        rcases Nat.lt_or_ge k bits.bytes.reverse.length with inside | outside
        · rw [List.getElem?_append_left inside]
        · rw [List.getElem?_append_right outside, List.getElem?_eq_none outside, List.getElem?_replicate]
          split <;> rfl
    · exact ⟨bits.bytes, by simp only [setBit, if_neg short], Nat.not_le.mp short, fun _ => rfl⟩
  rw [isSet_eq_reverse, isSet_eq_reverse, resized, reverse_modify _ within, ← kept, List.getD_eq_getElem?_getD,
    List.getD_eq_getElem?_getD, List.getElem?_modify]
  by_cases sameByte : index / 8 = i / 8
  · have here : i / 8 < bytes.reverse.length := by rw [List.length_reverse]; omega
    simp only [sameByte, if_true, List.getElem?_eq_getElem here, Option.map_eq_map, Option.map_some, Option.getD_some]
    rw [testBit_writeBit _ _ (Nat.mod_lt index (by decide)) (Nat.mod_lt i (by decide))]
    have same : i % 8 = index % 8 ↔ i = index := by omega
    simp only [same]
  · rw [if_neg (by rintro rfl; exact sameByte rfl)]
    simp [sameByte]

structure Lists (bits : SpanBatchBits) (flags : List Bool) : Prop where
  length : bits.bytes.length = bufferLen flags.length
  isSet : ∀ i, bits.isSet i = flags.getD i false

theorem Lists.nil : Lists ⟨[]⟩ [] := ⟨rfl, fun i => by simp [SpanBatchBits.isSet, getBit]⟩

theorem Lists.setBit {bits : SpanBatchBits} {flags : List Bool} (lists : bits.Lists flags) (value : Bool) :
    (bits.setBit flags.length value).Lists (flags ++ [value]) := by
  constructor
  · rw [length_setBit, lists.length, List.length_append, List.length_singleton]
    unfold bufferLen
    split <;> split <;> omega
  · intro i
    rw [isSet_setBit, lists.isSet, List.getD_eq_getElem?_getD, List.getD_eq_getElem?_getD]
    rcases Nat.lt_trichotomy i flags.length with before | rfl | behind
    · rw [if_neg (Nat.ne_of_lt before), List.getElem?_append_left before]
    · simp
    · rw [if_neg (Nat.ne_of_gt behind), List.getElem?_eq_none (Nat.le_of_lt behind), List.getElem?_eq_none (by simpa using behind)]

theorem Lists.getBit {bits : SpanBatchBits} {flags : List Bool} (lists : bits.Lists flags) {i : Nat} {flag : Bool}
    (at_ : flags[i]? = some flag) : bits.getBit i = some (if flag then 1 else 0) := by
  obtain ⟨within, -⟩ := List.getElem?_eq_some_iff.mp at_
  rw [getBit_eq (getBit_isSome (lists.length ▸ div_lt_bufferLen within)), lists.isSet, List.getD_eq_getElem?_getD, at_]
  rfl

theorem testBit_top : ∀ byte : UInt8, byte ≠ 0 → byte.toNat.testBit (7 - leadingZeros byte) = true := by
  decide +kernel

theorem bitLenOf_le {bytes : List UInt8} {n : Nat} (clear : ∀ i, n ≤ i → isSet ⟨bytes⟩ i = false) : bitLenOf bytes ≤ n := by
  induction bytes with
  | nil => exact Nat.zero_le n
  | cons byte rest ih =>
      rw [bitLenOf]
      split
      · rename_i nonzero
        by_contra longer
        have top := clear (8 * rest.length + (7 - leadingZeros byte)) (by omega)
        rw [isSet_cons_of_ge (by omega), testBit_top byte nonzero] at top
        cases top
      · apply ih
        intro i behind
        rcases Nat.lt_or_ge i (8 * rest.length) with inside | outside
        · have same : isSet ⟨byte :: rest⟩ i = isSet ⟨rest⟩ i := isSet_cons_of_lt inside
          rw [← same]
          exact clear i behind
        · exact isSet_of_length_le outside

theorem Lists.bitLen_le {bits : SpanBatchBits} {flags : List Bool} (lists : bits.Lists flags) :
    bits.bitLen ≤ flags.length := by
  apply bitLenOf_le
  intro i behind
  rw [lists.isSet, List.getD_eq_getElem?_getD, List.getElem?_eq_none behind]
  rfl

theorem Lists.encode {bits : SpanBatchBits} {flags : List Bool} (lists : bits.Lists flags) :
    encode flags.length bits = .ok bits.bytes := by
  rw [SpanBatchBits.encode, if_neg (Nat.not_lt.mpr lists.bitLen_le), if_neg (Nat.not_lt.mpr (Nat.le_of_eq lists.length)),
    lists.length, Nat.sub_self]
  rfl

theorem Lists.parses {bits : SpanBatchBits} {flags : List Bool} (lists : bits.Lists flags) :
    Reads.Parses (decode flags.length) bits.bytes bits := by
  intro rest
  have enough : ¬ (bits.bytes ++ rest).length < bufferLen flags.length := by
    rw [List.length_append, lists.length]
    omega
  have back : buffer flags.length (bits.bytes ++ rest) = bits := by
    rw [buffer, if_neg enough, ← lists.length, List.take_left]
  rw [decode, back, if_neg (Nat.not_lt.mpr lists.bitLen_le), ← lists.length, List.drop_left]

theorem Lists.countP_clear {bits : SpanBatchBits} {flags : List Bool} (lists : bits.Lists flags) :
    (List.range flags.length).countP (fun i => !bits.isSet i) = flags.countP (!·) := by
  have read : (List.range flags.length).map bits.isSet = flags := by
    apply List.ext_getElem?
    intro i
    rw [List.getElem?_map]
    rcases Nat.lt_or_ge i flags.length with inside | outside
    · rw [List.getElem?_range inside, Option.map_some, lists.isSet, List.getD_eq_getElem?_getD,
        List.getElem?_eq_getElem inside, Option.getD_some]
    · rw [List.getElem?_eq_none (by simpa using outside), List.getElem?_eq_none outside]
      rfl
  conv_rhs => rw [← read, List.countP_map]
  rfl

theorem Lists.countOnesTotal_add {bits : SpanBatchBits} {flags : List Bool} (lists : bits.Lists flags) :
    bits.countOnesTotal + flags.countP (!·) = flags.length := by
  have within : flags.length ≤ 8 * bits.bytes.length := lists.length ▸ le_bufferLen flags.length
  have both := List.length_eq_countP_add_countP bits.isSet (l := List.range flags.length)
  have clear : (List.range flags.length).countP (fun i => decide ¬ bits.isSet i = true) = flags.countP (!·) := by
    rw [← lists.countP_clear]
    exact List.countP_congr fun i _ => by simp
  rw [List.length_range, countP_isSet_of_bitLen_le lists.bitLen_le within, clear] at both
  exact both.symm

end SpanBatchBits

end KonaSoon.Derive
