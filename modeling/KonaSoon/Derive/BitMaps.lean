import KonaSoon.Derive.SpanBits

/-!
# Bit lists as bit maps

What `SpanBatchBits` (`derive/src/batch/span_batch/bits.rs`) keeps: reading after writing, the length of a
list, and the bytes of a list as `encode` writes and `decode` reads them.
-/

namespace KonaSoon.Derive
open Lib

namespace SpanBatchBits

theorem getBit_eq_ite (bits : SpanBatchBits) (index : Nat) :
    bits.getBit index = if index / 8 < bits.bytes.length then some (if bits.isSet index then 1 else 0) else none := by
  split
  · rename_i within
    exact getBit_eq (getBit_isSome within)
  · rename_i outside
    exact if_neg outside

theorem getBit_ne_one_iff (bits : SpanBatchBits) (index : Nat) : bits.getBit index ≠ some 1 ↔ bits.isSet index = false := by
  rw [isSet, decide_eq_false_iff_not]

theorem isSet_replicate_append (k : Nat) (bytes : List UInt8) (index : Nat) :
    isSet ⟨List.replicate k 0 ++ bytes⟩ index = isSet ⟨bytes⟩ index := by
  rw [isSet_eq_reverse, isSet_eq_reverse]
  have same : (List.replicate k 0 ++ bytes).reverse.getD (index / 8) 0 = bytes.reverse.getD (index / 8) 0 := by
    rw [List.reverse_append, List.reverse_replicate, List.getD_eq_getElem?_getD, List.getD_eq_getElem?_getD]
    rcases Nat.lt_or_ge (index / 8) bytes.reverse.length with inside | outside
    · rw [List.getElem?_append_left inside]
    · rw [List.getElem?_append_right outside, List.getElem?_eq_none outside, List.getElem?_replicate]
      split <;> rfl
  rw [same]

theorem bufferLen_eq (bitLength : Nat) : bufferLen bitLength = (bitLength + 7) / 8 := by
  unfold bufferLen
  split <;> omega

theorem bitLen_le_iff (bits : SpanBatchBits) (n : Nat) : bits.bitLen ≤ n ↔ ∀ i, n ≤ i → bits.isSet i = false := by
  constructor
  · intro short i behind
    exact isSet_of_bitLenOf_le (Nat.le_trans short behind)
  · intro clear
    exact bitLenOf_le clear

/-! ## Reading after writing -/

theorem getBit_setBit_self (bits : SpanBatchBits) (index : Nat) (value : Bool) :
    (bits.setBit index value).getBit index = some (if value then 1 else 0) := by
  have within : index / 8 < (bits.setBit index value).bytes.length := by
    rw [length_setBit]
    omega
  rw [getBit_eq_ite, if_pos within, isSet_setBit, if_pos rfl]

theorem getBit_setBit_other (bits : SpanBatchBits) (value : Bool) {index i : Nat} (other : i ≠ index) {bit : UInt8}
    (read : bits.getBit i = some bit) : (bits.setBit index value).getBit i = some bit := by
  rw [getBit_eq_ite] at read
  split at read
  · rename_i within
    have still : i / 8 < (bits.setBit index value).bytes.length := by
      rw [length_setBit]
      omega
    rw [getBit_eq_ite, if_pos still, isSet_setBit, if_neg other]
    exact read
  · cases read

theorem getBit_setBit_new (bits : SpanBatchBits) (value : Bool) {index i : Nat} (other : i ≠ index) {bit : UInt8}
    (absent : bits.getBit i = none) (read : (bits.setBit index value).getBit i = some bit) : bit = 0 := by
  have clear : bits.isSet i = false := by
    rw [isSet, absent]
    rfl
  rw [getBit_eq_ite, isSet_setBit, if_neg other, clear] at read
  split at read
  · exact (Option.some.inj read).symm
  · cases read

theorem bitLen_of_highest {bits : SpanBatchBits} {top : Nat} (set : bits.getBit top = some 1)
    (highest : ∀ i, top < i → bits.getBit i ≠ some 1) : bits.bitLen = top + 1 := by
  apply Nat.le_antisymm
  · apply (bits.bitLen_le_iff (top + 1)).mpr
    intro i above
    exact (bits.getBit_ne_one_iff i).mp (highest i above)
  · by_contra short
    have clear := (bits.bitLen_le_iff top).mp (by omega) top (Nat.le_refl top)
    exact (bits.getBit_ne_one_iff top).mpr clear set

theorem bitLen_eq_zero_iff (bits : SpanBatchBits) : bits.bitLen = 0 ↔ ∀ i, bits.getBit i ≠ some 1 := by
  rw [← Nat.le_zero, bitLen_le_iff]
  exact forall_congr' fun i => by rw [getBit_ne_one_iff, forall_prop_of_true (Nat.zero_le i)]

/-! ## Lists made by writing -/

def written (writes : List (Nat × Bool)) : SpanBatchBits :=
  writes.foldl (fun bits write => bits.setBit write.1 write.2) ⟨[]⟩

structure Below (n : Nat) (bits : SpanBatchBits) : Prop where
  length : bits.bytes.length ≤ bufferLen n
  clear : ∀ i, n ≤ i → bits.isSet i = false

theorem Below.setBit {n : Nat} {bits : SpanBatchBits} (below : bits.Below n) {index : Nat} (within : index < n)
    (value : Bool) : (bits.setBit index value).Below n := by
  constructor
  · have position := div_lt_bufferLen within
    have before := below.length
    rw [length_setBit]
    omega
  · intro i behind
    rw [isSet_setBit, if_neg (by omega)]
    exact below.clear i behind

theorem written_below {n : Nat} {writes : List (Nat × Bool)} (within : ∀ write ∈ writes, write.1 < n) :
    (written writes).Below n := by
  have run (bits : SpanBatchBits) (below : bits.Below n) :
      (writes.foldl (fun bits write => bits.setBit write.1 write.2) bits).Below n := by
    induction writes generalizing bits with
    | nil => exact below
    | cons write writes ih =>
        have first : write.1 < n := within write List.mem_cons_self
        rw [List.foldl_cons]
        exact ih (fun later member => within later (List.mem_cons_of_mem _ member)) _ (below.setBit first write.2)
  exact run ⟨[]⟩ ⟨Nat.zero_le _, fun i _ => isSet_of_length_le (Nat.zero_le i)⟩

/-! ## The bytes of a list -/

theorem Below.encode {n : Nat} {bits : SpanBatchBits} (below : bits.Below n) :
    encode n bits = .ok (List.replicate (bufferLen n - bits.bytes.length) 0 ++ bits.bytes) := by
  have short := (bits.bitLen_le_iff n).mpr below.clear
  rw [SpanBatchBits.encode, if_neg (Nat.not_lt.mpr short), if_neg (Nat.not_lt.mpr below.length)]

theorem decode_of_length {n : Nat} {bytes rest : List UInt8} (length : bytes.length = bufferLen n) :
    decode n (bytes ++ rest) = if n < bitLen ⟨bytes⟩ then .error (.error .bitfieldTooLong) else .ok (⟨bytes⟩, rest) := by
  have enough : ¬ (bytes ++ rest).length < bufferLen n := by
    rw [List.length_append]
    omega
  have taken : buffer n (bytes ++ rest) = ⟨bytes⟩ := by
    rw [buffer, if_neg enough, ← length, List.take_left]
  rw [decode, taken, ← length, List.drop_left]

theorem Below.round_trip {n : Nat} {bits : SpanBatchBits} (below : bits.Below n) :
    ∃ bytes, SpanBatchBits.encode n bits = .ok bytes ∧ bytes.length = bufferLen n ∧
      ∀ rest, ∃ read, decode n (bytes ++ rest) = .ok (read, rest) ∧
        ∀ i, i < n → read.getBit i = some ((bits.getBit i).getD 0) := by
  have length : (List.replicate (bufferLen n - bits.bytes.length) 0 ++ bits.bytes).length = bufferLen n := by
    have fits := below.length
    rw [List.length_append, List.length_replicate]
    omega
  have same (i : Nat) := isSet_replicate_append (bufferLen n - bits.bytes.length) bits.bytes i
  have short : ¬ n < bitLen ⟨List.replicate (bufferLen n - bits.bytes.length) 0 ++ bits.bytes⟩ := by
    rw [Nat.not_lt, bitLen_le_iff]
    intro i behind
    rw [same]
    exact below.clear i behind
  refine ⟨_, below.encode, length, fun rest => ⟨_, (decode_of_length length).trans (if_neg short), ?_⟩⟩
  intro i within
  have inside : i / 8 < (List.replicate (bufferLen n - bits.bytes.length) 0 ++ bits.bytes).length := by
    rw [length]
    exact div_lt_bufferLen within
  rw [getBit_eq_ite, if_pos inside, same, getBit_eq_ite]
  by_cases held : i / 8 < bits.bytes.length
  · rw [if_pos held]
    rfl
  · have clear : isSet ⟨bits.bytes⟩ i = false := @isSet_of_length_le bits i (by omega)
    rw [if_neg held, clear]
    rfl

theorem decode_cases (n : Nat) {bytes : List UInt8} (enough : bufferLen n ≤ bytes.length) :
    decode n bytes = if n < bitLen ⟨bytes.take (bufferLen n)⟩ then .error (.error .bitfieldTooLong)
      else .ok (⟨bytes.take (bufferLen n)⟩, bytes.drop (bufferLen n)) := by
  have length : (bytes.take (bufferLen n)).length = bufferLen n := List.length_take_of_le enough
  conv_lhs => rw [← List.take_append_drop (bufferLen n) bytes]
  exact decode_of_length length

/-- A bit that is set is read back and no other changes, the length is that of the highest one, and encoding a list
of that length and decoding it again are inverse to each other. -/
theorem bit_lists :
    (∀ (bits : SpanBatchBits) (index : Nat) (value : Bool),
      (bits.setBit index value).getBit index = some (if value then 1 else 0) ∧
      ∀ i, i ≠ index → (∀ bit, bits.getBit i = some bit → (bits.setBit index value).getBit i = some bit) ∧
        (bits.getBit i = none → ∀ bit, (bits.setBit index value).getBit i = some bit → bit = 0)) ∧
    (∀ bits : SpanBatchBits, (bits.bitLen = 0 ↔ ∀ i, bits.getBit i ≠ some 1) ∧
      ∀ top, bits.getBit top = some 1 → (∀ i, top < i → bits.getBit i ≠ some 1) → bits.bitLen = top + 1) ∧
    (∀ (n : Nat) (writes : List (Nat × Bool)), (∀ write ∈ writes, write.1 < n) →
      ∃ bytes, encode n (written writes) = .ok bytes ∧ bytes.length = (n + 7) / 8 ∧
        ∀ rest, ∃ read, decode n (bytes ++ rest) = .ok (read, rest) ∧
          ∀ i, i < n → read.getBit i = some (((written writes).getBit i).getD 0)) ∧
    (∀ (n : Nat) (bytes : List UInt8), (n + 7) / 8 ≤ bytes.length →
      ((∃ read, decode n bytes = .ok read) ↔ ∀ i, n ≤ i → getBit ⟨bytes.take ((n + 7) / 8)⟩ i ≠ some 1) ∧
      ∀ bits rest, decode n bytes = .ok (bits, rest) →
        rest = bytes.drop ((n + 7) / 8) ∧ encode n bits = .ok (bytes.take ((n + 7) / 8))) := by
  refine ⟨fun bits index value => ?_, fun bits => ?_, fun n writes within => ?_, fun n bytes enough => ?_⟩
  · refine ⟨bits.getBit_setBit_self index value, fun i other => ⟨fun bit read => ?_, fun absent bit read => ?_⟩⟩
    · exact bits.getBit_setBit_other value other read
    · exact bits.getBit_setBit_new value other absent read
  · exact ⟨bits.bitLen_eq_zero_iff, fun top set highest => bitLen_of_highest set highest⟩
  · rw [← bufferLen_eq]
    exact (written_below within).round_trip
  · rw [← bufferLen_eq] at enough ⊢
    have length : (bytes.take (bufferLen n)).length = bufferLen n := List.length_take_of_le enough
    simp only [getBit_ne_one_iff, ← bitLen_le_iff]
    rw [decode_cases n enough]
    split
    · rename_i long
      refine ⟨⟨?_, fun short => absurd short (Nat.not_le.mpr long)⟩, fun bits rest read => by cases read⟩
      rintro ⟨read, failed⟩
      cases failed
    · rename_i short
      refine ⟨⟨fun _ => Nat.not_lt.mp short, fun _ => ⟨_, rfl⟩⟩, fun bits rest read => ?_⟩
      cases read
      refine ⟨rfl, ?_⟩
      rw [encode, if_neg short, if_neg (by rw [length]; exact Nat.lt_irrefl _), length, Nat.sub_self]
      rfl

end SpanBatchBits

end KonaSoon.Derive
