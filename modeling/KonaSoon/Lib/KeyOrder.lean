import KonaSoon.Lib.Rlp
import KonaSoon.Lib.Sequence

/-!
# The order of keys

`Below` is the lexicographic order of lists none of which is a prefix of another, as the keys of a trie are. In
this order the keys with one first element stand together, and the groups stand in the order of that element.
-/

namespace KonaSoon.Lib

variable {α : Type}

section Below

variable [LT α]

def Below (xs ys : List α) : Prop :=
  ∃ front x y xs' ys', xs = front ++ x :: xs' ∧ ys = front ++ y :: ys' ∧ x < y

variable {x y : α} {xs ys : List α}

theorem not_below_nil (xs : List α) : ¬ Below xs [] := by
  rintro ⟨front, x, y, xs', ys', -, shape, -⟩
  simp at shape

theorem not_nil_below (ys : List α) : ¬ Below [] ys := by
  rintro ⟨front, x, y, xs', ys', shape, -, -⟩
  simp at shape

theorem below_cons_cons : Below (x :: xs) (y :: ys) ↔ x < y ∨ (x = y ∧ Below xs ys) := by
  constructor
  · rintro ⟨front, x', y', xs', ys', left, right, less⟩
    cases front with
    | nil =>
        cases left
        cases right
        exact .inl less
    | cons first front =>
        cases left
        cases right
        exact .inr ⟨rfl, front, x', y', xs', ys', rfl, rfl, less⟩
  · rintro (less | ⟨rfl, front, x', y', xs', ys', rfl, rfl, less⟩)
    · exact ⟨[], x, y, xs, ys, rfl, rfl, less⟩
    · exact ⟨x :: front, x', y', xs', ys', rfl, rfl, less⟩

variable (irrefl : ∀ x : α, ¬ x < x)

include irrefl

theorem below_append_left (front : List α) : Below (front ++ xs) (front ++ ys) ↔ Below xs ys := by
  induction front with
  | nil => rfl
  | cons first front ih => simp [below_cons_cons, ih, irrefl first]

theorem below_iff_lt : Below xs ys ↔ xs < ys ∧ ¬ xs <+: ys := by
  induction xs generalizing ys with
  | nil => simp [not_nil_below]
  | cons x xs ih =>
      cases ys with
      | nil => simp [not_below_nil]
      | cons y ys =>
          rw [below_cons_cons, List.cons_lt_cons_iff, List.cons_prefix_cons, ih]
          constructor
          · rintro (less | ⟨rfl, less, apart⟩)
            · refine ⟨.inl less, ?_⟩
              rintro ⟨rfl, -⟩
              exact irrefl x less
            · exact ⟨.inr ⟨rfl, less⟩, fun same => apart same.2⟩
          · rintro ⟨less | ⟨rfl, less⟩, apart⟩
            · exact .inl less
            · exact .inr ⟨rfl, less, fun same => apart ⟨rfl, same⟩⟩

end Below

theorem commonPrefixLength_take [DecidableEq α] (xs ys : List α) : xs.take (commonPrefixLength xs ys) <+: ys := by
  induction xs generalizing ys with
  | nil => simp
  | cons x xs ih =>
      cases ys with
      | nil => simp [commonPrefixLength]
      | cons y ys =>
          rw [commonPrefixLength]
          split
          · rename_i same
            rw [List.take_succ_cons, same, List.cons_prefix_cons]
            exact ⟨rfl, ih ys⟩
          · exact List.nil_prefix

/-! ## Groups of a sorted list -/

theorem filter_lt_succ {rank : α → Nat} {xs : List α} (sorted : xs.Pairwise fun x y => rank x ≤ rank y) (n : Nat) :
    xs.filter (fun x => rank x < n + 1) = xs.filter (fun x => rank x < n) ++ xs.filter (fun x => rank x = n) := by
  induction xs with
  | nil => rfl
  | cons x xs ih =>
      obtain ⟨least, sorted⟩ := List.pairwise_cons.mp sorted
      rcases Nat.lt_trichotomy (rank x) n with less | same | more
      · simp only [List.filter_cons, ih sorted]
        rw [if_pos (by simp; omega), if_pos (by simpa using less), if_neg (by simp; omega), List.cons_append]
      · have none : xs.filter (fun x => rank x < n) = [] := by
          rw [List.filter_eq_nil_iff]
          intro y member
          have := least y member
          simp
          omega
        simp only [List.filter_cons, ih sorted, none, List.nil_append]
        rw [if_pos (by simp; omega), if_neg (by simp; omega), if_pos (by simpa using same), List.nil_append]
      · simp only [List.filter_cons, ih sorted]
        rw [if_neg (by simp; omega), if_neg (by simp; omega), if_neg (by simp; omega)]

theorem flatMap_ranks {rank : α → Nat} {xs : List α} (sorted : xs.Pairwise fun x y => rank x ≤ rank y) {n : Nat}
    (bounded : ∀ x ∈ xs, rank x < n) :
    (List.range n).flatMap (fun i => xs.filter fun x => rank x = i) = xs := by
  have below : ∀ n, (List.range n).flatMap (fun i => xs.filter fun x => rank x = i) = xs.filter fun x => rank x < n := by
    intro n
    induction n with
    | zero => simp
    | succ n ih => rw [filter_lt_succ sorted, List.range_succ, List.flatMap_append, ih, List.flatMap_singleton]
  rw [below, List.filter_eq_self]
  intro x member
  simpa using bounded x member

end KonaSoon.Lib

namespace KonaSoon.Lib.Rlp

/-! ## Numbers as keys -/

theorem ofBigEndian_cons (b : UInt8) (bytes : List UInt8) :
    ofBigEndian (b :: bytes) = b.toNat * 256 ^ bytes.length + ofBigEndian bytes := by
  simp [ofBigEndian, Nat.ofDigits_append, Nat.mul_comm, Nat.add_comm]

theorem ofBigEndian_lt (bytes : List UInt8) : ofBigEndian bytes < 256 ^ bytes.length := by
  have digits := Nat.ofDigits_lt_base_pow_length (b := 256) (l := bytes.reverse.map UInt8.toNat) (by norm_num) (by
    intro d member
    obtain ⟨byte, -, rfl⟩ := List.mem_map.mp member
    exact byte.toNat_lt)
  simpa [ofBigEndian] using digits

theorem below_of_ofBigEndian_lt {xs ys : List UInt8} (same : xs.length = ys.length)
    (less : ofBigEndian xs < ofBigEndian ys) : Below xs ys := by
  induction xs generalizing ys with
  | nil =>
      obtain rfl := List.eq_nil_of_length_eq_zero same.symm
      exact absurd less (Nat.lt_irrefl _)
  | cons x xs ih =>
      cases ys with
      | nil => cases same
      | cons y ys =>
          have same : xs.length = ys.length := Nat.succ.inj same
          rw [ofBigEndian_cons, ofBigEndian_cons, same] at less
          have smallX := ofBigEndian_lt xs
          have smallY := ofBigEndian_lt ys
          rw [same] at smallX
          rw [below_cons_cons]
          rcases Nat.lt_trichotomy x.toNat y.toNat with first | equal | last
          · exact .inl (UInt8.lt_iff_toNat_lt.mpr first)
          · rw [equal] at less
            exact .inr ⟨UInt8.toNat_inj.mp equal, ih same (by omega)⟩
          · have : (y.toNat + 1) * 256 ^ ys.length ≤ x.toNat * 256 ^ ys.length := Nat.mul_le_mul_right _ last
            rw [Nat.add_mul, Nat.one_mul] at this
            omega

/-- `usize::encode`. -/
def encodeIndex (n : Nat) : List UInt8 := standardEncodeBytes (bigEndian n)

theorem encodeIndex_zero : encodeIndex 0 = [0x80] := by decide

theorem bigEndian_byte {n : Nat} (positive : 0 < n) (small : n < 256) : bigEndian n = [UInt8.ofNat n] := by
  rw [bigEndian, Nat.digits_of_lt 256 n (by omega) small]
  rfl

theorem encodeIndex_small {n : Nat} (positive : 0 < n) (small : n < 128) : encodeIndex n = [UInt8.ofNat n] := by
  have own : selfEncoded [UInt8.ofNat n] = true := by
    simp [selfEncoded]
    omega
  rw [encodeIndex, bigEndian_byte positive (by omega), standardEncodeBytes, if_pos own]

theorem encodeIndex_large {n : Nat} (large : 128 ≤ n) (bound : n < 2 ^ 64) :
    encodeIndex n = UInt8.ofNat (0x80 + (bigEndian n).length) :: bigEndian n := by
  have size := bigEndian_length_le bound
  have own : ¬ selfEncoded (bigEndian n) = true := by
    intro self
    rcases Nat.lt_or_ge n 256 with byte | more
    · rw [bigEndian_byte (by omega) byte] at self
      simp [selfEncoded] at self
      omega
    · have value := ofBigEndian_bigEndian n
      have below := ofBigEndian_lt (bigEndian n)
      rcases shape : bigEndian n with _ | ⟨b, _ | ⟨c, rest⟩⟩
      · simp [shape, selfEncoded] at self
      · rw [value, shape] at below
        simp at below
        omega
      · simp [shape, selfEncoded] at self
  rw [encodeIndex, standardEncodeBytes, if_neg own, standardEncodeHeader, if_pos (by simp only; omega)]
  rfl

theorem bigEndian_length_pos {n : Nat} (positive : 0 < n) : 0 < (bigEndian n).length := by
  obtain ⟨b, bytes, shape, -⟩ := bigEndian_head (n := n) (by omega)
  simp [shape]

theorem bigEndian_length_mono {n m : Nat} (le : n ≤ m) : (bigEndian n).length ≤ (bigEndian m).length := by
  simpa [bigEndian] using Nat.le_length_digits_le 256 n m le

theorem below_encodeIndex_large {n m : Nat} (large : 128 ≤ n) (less : n < m) (bound : m < 2 ^ 64) :
    Below (encodeIndex n) (encodeIndex m) := by
  have size := bigEndian_length_le bound
  have mono := bigEndian_length_mono (Nat.le_of_lt less)
  rw [encodeIndex_large large (by omega), encodeIndex_large (by omega) bound, below_cons_cons]
  rcases Nat.eq_or_lt_of_le mono with same | shorter
  · refine .inr ⟨by rw [same], below_of_ofBigEndian_lt same ?_⟩
    rw [ofBigEndian_bigEndian, ofBigEndian_bigEndian]
    exact less
  · left
    rw [UInt8.lt_iff_toNat_lt]
    simp
    omega

theorem below_encodeIndex_small_large {n m : Nat} (small : n < 128) (large : 128 ≤ m) (bound : m < 2 ^ 64) :
    Below (encodeIndex n) (encodeIndex m) := by
  have size := bigEndian_length_le bound
  have positive := bigEndian_length_pos (n := m) (by omega)
  have head : (UInt8.ofNat (0x80 + (bigEndian m).length)).toNat = 0x80 + (bigEndian m).length := by
    simp
    omega
  rw [encodeIndex_large large bound]
  rcases Nat.eq_zero_or_pos n with rfl | some
  · rw [encodeIndex_zero, below_cons_cons, UInt8.lt_iff_toNat_lt, head]
    left
    simp
    omega
  · rw [encodeIndex_small some small, below_cons_cons, UInt8.lt_iff_toNat_lt, head]
    left
    simp
    omega

theorem below_encodeIndex_small {n m : Nat} (positive : 0 < n) (less : n < m) (small : m < 128) :
    Below (encodeIndex n) (encodeIndex m) := by
  rw [encodeIndex_small positive (by omega), encodeIndex_small (by omega) small, below_cons_cons, UInt8.lt_iff_toNat_lt]
  left
  simp
  omega

theorem below_encodeIndex_zero {n : Nat} (positive : 0 < n) (small : n < 128) : Below (encodeIndex n) (encodeIndex 0) := by
  rw [encodeIndex_small positive small, encodeIndex_zero, below_cons_cons, UInt8.lt_iff_toNat_lt]
  left
  simp
  omega

theorem encodeIndex_length_le {n : Nat} (bound : n < 2 ^ 64) : (encodeIndex n).length ≤ 9 := by
  have size := bigEndian_length_le bound
  rcases Nat.lt_or_ge n 128 with small | large
  · rcases Nat.eq_zero_or_pos n with rfl | some
    · simp [encodeIndex_zero]
    · simp [encodeIndex_small some small]
  · rw [encodeIndex_large large bound, List.length_cons]
    omega

end KonaSoon.Lib.Rlp
