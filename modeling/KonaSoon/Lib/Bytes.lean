import Mathlib

namespace KonaSoon.Lib

abbrev FixedBytes (n : Nat) := { bytes : List UInt8 // bytes.length = n }

def fromLeBytes : List UInt8 → Nat
  | [] => 0
  | b :: bytes => b.toNat + 256 * fromLeBytes bytes

def toLeBytes : Nat → Nat → List UInt8
  | 0, _ => []
  | n + 1, value => UInt8.ofNat value :: toLeBytes n (value / 256)

@[simp] theorem length_toLeBytes (n value : Nat) : (toLeBytes n value).length = n := by
  induction n generalizing value with
  | zero => rfl
  | succ n ih => rw [toLeBytes, List.length_cons, ih]

theorem fromLeBytes_toLeBytes (n value : Nat) : fromLeBytes (toLeBytes n value) = value % 256 ^ n := by
  induction n generalizing value with
  | zero => simp [toLeBytes, fromLeBytes, Nat.mod_one]
  | succ n ih =>
      have lowest : (UInt8.ofNat value).toNat = value % 256 := by simp
      rw [toLeBytes, fromLeBytes, ih, lowest, pow_succ, mul_comm (256 ^ n), Nat.mod_mul]

theorem fromLeBytes_lt (bytes : List UInt8) : fromLeBytes bytes < 256 ^ bytes.length := by
  induction bytes with
  | nil => decide
  | cons b bytes ih =>
      have bounded := b.toNat_lt
      rw [fromLeBytes, List.length_cons, pow_succ]
      omega

theorem toLeBytes_fromLeBytes (bytes : List UInt8) : toLeBytes bytes.length (fromLeBytes bytes) = bytes := by
  induction bytes with
  | nil => rfl
  | cons b bytes ih =>
      have bounded := b.toNat_lt
      have lowest : UInt8.ofNat (b.toNat + 256 * fromLeBytes bytes) = b := by
        apply UInt8.toNat_inj.mp
        simp only [UInt8.toNat_ofNat']
        omega
      have later : (b.toNat + 256 * fromLeBytes bytes) / 256 = fromLeBytes bytes := by omega
      rw [fromLeBytes, List.length_cons, toLeBytes, lowest, later, ih]

def bigEndian (n value : Nat) : FixedBytes n := ⟨(toLeBytes n value).reverse, by simp⟩

def ofBigEndian (bytes : List UInt8) : Nat := fromLeBytes bytes.reverse

theorem ofBigEndian_bigEndian {n value : Nat} (fits : value < 256 ^ n) : ofBigEndian (bigEndian n value).1 = value := by
  rw [ofBigEndian, bigEndian, List.reverse_reverse, fromLeBytes_toLeBytes, Nat.mod_eq_of_lt fits]

theorem bigEndian_ofBigEndian {n : Nat} (bytes : FixedBytes n) : bigEndian n (ofBigEndian bytes.1) = bytes := by
  obtain ⟨bytes, rfl⟩ := bytes
  have back := toLeBytes_fromLeBytes bytes.reverse
  rw [List.length_reverse] at back
  exact Subtype.ext (by simp only [bigEndian, ofBigEndian, back, List.reverse_reverse])

theorem ofBigEndian_lt {n : Nat} (bytes : FixedBytes n) : ofBigEndian bytes.1 < 256 ^ n := by
  have bound := fromLeBytes_lt bytes.1.reverse
  rwa [List.length_reverse, bytes.2] at bound

/-- The first `n` bytes and the bytes after them. -/
def takeFixed (n : Nat) (input : List UInt8) : Option (FixedBytes n × List UInt8) :=
  if enough : n ≤ input.length then some (⟨input.take n, List.length_take_of_le enough⟩, input.drop n) else none

@[simp] theorem takeFixed_append {n : Nat} (bytes : FixedBytes n) (rest : List UInt8) :
    takeFixed n (bytes.1 ++ rest) = some (bytes, rest) := by
  obtain ⟨bytes, rfl⟩ := bytes
  simp [takeFixed]

theorem takeFixed_eq_some {n : Nat} {input rest : List UInt8} {bytes : FixedBytes n} :
    takeFixed n input = some (bytes, rest) ↔ input = bytes.1 ++ rest := by
  constructor
  · intro taken
    unfold takeFixed at taken
    split at taken
    · cases taken
      exact (List.take_append_drop n input).symm
    · cases taken
  · rintro rfl
    exact takeFixed_append bytes rest

theorem takeFixed_toLeBytes (n value : Nat) (rest : List UInt8) :
    takeFixed n (toLeBytes n value ++ rest) = some (⟨toLeBytes n value, length_toLeBytes n value⟩, rest) :=
  takeFixed_append ⟨toLeBytes n value, length_toLeBytes n value⟩ rest

theorem bind_eq_some_of {α β : Type} {field : Option α} {a : α} {later : α → Option β} {b : β} (reads : field = some a)
    (continues : later a = some b) : (field >>= later) = some b :=
  Option.bind_eq_some_iff.mpr ⟨a, reads, continues⟩

end KonaSoon.Lib
