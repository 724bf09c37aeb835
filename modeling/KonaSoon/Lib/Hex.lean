import Mathlib

namespace KonaSoon.Lib.Hex

def digit (n : Nat) : Char := if n < 10 then Char.ofNat (48 + n) else Char.ofNat (87 + n)

def value (c : Char) : Option Nat :=
  if '0' ≤ c ∧ c ≤ '9' then some (c.toNat - 48)
  else if 'a' ≤ c ∧ c ≤ 'f' then some (c.toNat - 87)
  else if 'A' ≤ c ∧ c ≤ 'F' then some (c.toNat - 55)
  else none

def halves (bytes : List UInt8) : List Nat := bytes.flatMap fun b => [b.toNat / 16, b.toNat % 16]

def encode (bytes : List UInt8) : List Char := (halves bytes).map digit

def decode : List Char → Option (List UInt8)
  | [] => some []
  | [_] => none
  | high :: low :: rest => do
      let high ← value high
      let low ← value low
      let rest ← decode rest
      return UInt8.ofNat (16 * high + low) :: rest

def Spells (digits : List Char) (bytes : List UInt8) : Prop := digits.map value = (halves bytes).map some

theorem value_digit {n : Nat} (small : n < 16) : value (digit n) = some n := by
  interval_cases n <;> rfl

theorem value_lt {c : Char} {n : Nat} (reads : value c = some n) : n < 16 := by
  have nine : ('9' : Char).val.toNat = 57 := rfl
  have f : ('f' : Char).val.toNat = 102 := rfl
  have upperF : ('F' : Char).val.toNat = 70 := rfl
  unfold value at reads
  split at reads
  · rename_i digit
    have bound : c.toNat ≤ _ := UInt32.le_iff_toNat_le.mp digit.2
    cases reads
    omega
  · split at reads
    · rename_i lower
      have bound : c.toNat ≤ _ := UInt32.le_iff_toNat_le.mp lower.2
      cases reads
      omega
    · split at reads
      · rename_i upper
        have bound : c.toNat ≤ _ := UInt32.le_iff_toNat_le.mp upper.2
        cases reads
        omega
      · cases reads

theorem halves_lt {bytes : List UInt8} {n : Nat} (member : n ∈ halves bytes) : n < 16 := by
  obtain ⟨b, -, half⟩ := List.mem_flatMap.mp member
  have := b.toNat_lt
  rcases List.mem_cons.mp half with rfl | low
  · omega
  · rw [List.mem_singleton.mp low]
    omega

theorem spells_encode (bytes : List UInt8) : Spells (encode bytes) bytes := by
  rw [Spells, encode, List.map_map]
  exact List.map_congr_left fun n member => value_digit (halves_lt member)

/-- What is read is what the digits stand for. -/
theorem decode_eq_some_iff (digits : List Char) (bytes : List UInt8) : decode digits = some bytes ↔ Spells digits bytes := by
  induction digits using decode.induct generalizing bytes with
  | case1 =>
      cases bytes with
      | nil => simp [decode, Spells, halves]
      | cons b bytes => simp [decode, Spells, halves]
  | case2 c =>
      cases bytes with
      | nil => simp [decode, Spells, halves]
      | cons b bytes => simp [decode, Spells, halves]
  | case3 high low rest ih =>
      cases bytes with
      | nil => simp [decode, Spells, halves, Option.bind_eq_some_iff]
      | cons b bytes =>
          have byte := b.toNat_lt
          simp only [decode, Option.pure_def, Option.bind_eq_bind, Option.bind_eq_some_iff, Option.some.injEq,
            List.cons.injEq, Spells, halves, List.flatMap_cons, List.cons_append, List.nil_append, List.map_cons]
          constructor
          · rintro ⟨h, highReads, l, lowReads, rest', restReads, same, rfl⟩
            have highSmall := value_lt highReads
            have lowSmall := value_lt lowReads
            have whole : b.toNat = 16 * h + l := by
              rw [← same, UInt8.toNat_ofNat']
              omega
            refine ⟨?_, ?_, (ih _).mp restReads⟩
            · rw [highReads, whole]
              congr 1
              omega
            · rw [lowReads, whole]
              congr 1
              omega
          · rintro ⟨highReads, lowReads, restReads⟩
            refine ⟨_, highReads, _, lowReads, bytes, (ih _).mpr restReads, ?_, rfl⟩
            apply UInt8.toNat_inj.mp
            rw [UInt8.toNat_ofNat']
            omega

theorem decode_encode (bytes : List UInt8) : decode (encode bytes) = some bytes :=
  (decode_eq_some_iff _ _).mpr (spells_encode bytes)

theorem length_halves (bytes : List UInt8) : (halves bytes).length = 2 * bytes.length := by
  induction bytes with
  | nil => rfl
  | cons b bytes ih =>
      simp only [halves, List.flatMap_cons, List.length_append, List.length_cons, List.length_nil] at ih ⊢
      omega

theorem length_encode (bytes : List UInt8) : (encode bytes).length = 2 * bytes.length := by
  rw [encode, List.length_map, length_halves]

theorem Spells.value_isSome {digits : List Char} {bytes : List UInt8} (spells : Spells digits bytes) {c : Char}
    (member : c ∈ digits) : (value c).isSome := by
  have within : value c ∈ (halves bytes).map some := spells ▸ List.mem_map_of_mem member
  obtain ⟨n, -, same⟩ := List.mem_map.mp within
  rw [← same]
  rfl

end KonaSoon.Lib.Hex
