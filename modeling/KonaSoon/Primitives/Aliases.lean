import KonaSoon.Primitives.DepositLogs

/-!
# Aliases of addresses

The aliases of contracts on L1 (`primitives/src/deposit.rs`) as arithmetic on 160-bit numbers: the bytes of a
natural number, padded to an address, are the address that denotes it.
-/

namespace KonaSoon
open Lib Mpt Programs

theorem Lib.ofBigEndian_eq_rlp (bytes : List UInt8) : Lib.ofBigEndian bytes = Lib.Rlp.ofBigEndian bytes := by
  have digits (bytes : List UInt8) : fromLeBytes bytes = Nat.ofDigits 256 (bytes.map UInt8.toNat) := by
    induction bytes with
    | nil => rfl
    | cons b bytes ih =>
        rw [fromLeBytes, List.map_cons, Nat.ofDigits_cons, ih]
  exact digits bytes.reverse

theorem Lib.ofBigEndian_replicate_zero (k : Nat) (bytes : List UInt8) :
    Lib.ofBigEndian (List.replicate k 0 ++ bytes) = Lib.ofBigEndian bytes := by
  have zeros : (List.replicate k (0 : UInt8)).map UInt8.toNat = List.replicate k 0 := List.map_replicate
  rw [ofBigEndian_eq_rlp, ofBigEndian_eq_rlp, Rlp.ofBigEndian, Rlp.ofBigEndian, List.reverse_append, List.reverse_replicate,
    List.map_append, zeros, Nat.ofDigits_append_replicate_zero]

theorem ofBigEndian_toBytesBe (n : Nat) : ofBigEndian (toBytesBe n) = n := by
  unfold toBytesBe
  split
  · rename_i zero
    rw [zero]
    rfl
  · rw [Lib.ofBigEndian_eq_rlp, Rlp.ofBigEndian_bigEndian]

theorem length_toBytesBe_le {n : Nat} (bound : n < 256 ^ 20) : (toBytesBe n).length ≤ 20 := by
  unfold toBytesBe
  split
  · decide
  · simpa [Rlp.bigEndian] using (Nat.digits_length_le_iff (b := 256) (by norm_num) n).mpr bound

theorem addressFromSlice_padding {n : Nat} (bound : n < 256 ^ 20) :
    addressFromSlice (padding0ForAddressData (toBytesBe n)) = .ok (bigEndian 20 n) := by
  have few := length_toBytesBe_le bound
  have size : (padding0ForAddressData (toBytesBe n)).length = 20 := by
    rw [padding0ForAddressData, List.length_append, List.length_replicate]
    omega
  have value : ofBigEndian (padding0ForAddressData (toBytesBe n)) = n := by
    rw [padding0ForAddressData, Lib.ofBigEndian_replicate_zero, ofBigEndian_toBytesBe]
  have back : bigEndian 20 (ofBigEndian (padding0ForAddressData (toBytesBe n))) =
      ⟨padding0ForAddressData (toBytesBe n), size⟩ :=
    bigEndian_ofBigEndian ⟨padding0ForAddressData (toBytesBe n), size⟩
  rw [addressFromSlice, dif_pos size, ← back, value]

theorem applyL1ToL2Alias_eq (l1Address : Address) :
    applyL1ToL2Alias l1Address = .ok (bigEndian 20 ((ofBigEndian l1Address.1 + l1ToL2Offset) % 2 ^ 160)) := by
  have bound := ofBigEndian_lt l1Address
  have wrapped : (if ofBigEndian l1Address.1 + l1ToL2Offset > maxAddressToUint then
      ofBigEndian l1Address.1 + l1ToL2Offset - maxAddressToUint - 1 else ofBigEndian l1Address.1 + l1ToL2Offset) =
      (ofBigEndian l1Address.1 + l1ToL2Offset) % 2 ^ 160 := by
    rw [maxAddressToUint, l1ToL2Offset]
    split <;> omega
  have small : (ofBigEndian l1Address.1 + l1ToL2Offset) % 2 ^ 160 < 256 ^ 20 := Nat.mod_lt _ (by decide)
  rw [← addressFromSlice_padding small, ← wrapped]
  rfl

theorem undoL1ToL2Alias_eq (l2Alias : Address) :
    undoL1ToL2Alias l2Alias = .ok (bigEndian 20 ((ofBigEndian l2Alias.1 + (2 ^ 160 - l1ToL2Offset)) % 2 ^ 160)) := by
  have bound := ofBigEndian_lt l2Alias
  have wrapped : (if ofBigEndian l2Alias.1 < l1ToL2Offset then ofBigEndian l2Alias.1 + maxAddressToUint + 1
      else ofBigEndian l2Alias.1) - l1ToL2Offset = (ofBigEndian l2Alias.1 + (2 ^ 160 - l1ToL2Offset)) % 2 ^ 160 := by
    rw [maxAddressToUint, l1ToL2Offset]
    split <;> omega
  have small : (ofBigEndian l2Alias.1 + (2 ^ 160 - l1ToL2Offset)) % 2 ^ 160 < 256 ^ 20 := Nat.mod_lt _ (by decide)
  rw [← addressFromSlice_padding small, ← wrapped]
  rfl

theorem undoL1ToL2Alias_ok (l2Alias : Address) : ∃ address, undoL1ToL2Alias l2Alias = .ok address :=
  ⟨_, undoL1ToL2Alias_eq l2Alias⟩

/-- The two directions shift an address by the offset modulo `2 ^ 160` and undo each other. -/
theorem alias_bijective (address : Address) : ∃ l2Alias l1Address : Address,
    applyL1ToL2Alias address = .ok l2Alias ∧ undoL1ToL2Alias address = .ok l1Address ∧
      ofBigEndian l2Alias.1 = (ofBigEndian address.1 + l1ToL2Offset) % 2 ^ 160 ∧
      (ofBigEndian l1Address.1 : ℤ) = ((ofBigEndian address.1 : ℤ) - l1ToL2Offset) % 2 ^ 160 ∧
      undoL1ToL2Alias l2Alias = .ok address ∧ applyL1ToL2Alias l1Address = .ok address := by
  have bound : ofBigEndian address.1 < 2 ^ 160 := ofBigEndian_lt address
  have up : (ofBigEndian address.1 + l1ToL2Offset) % 2 ^ 160 < 256 ^ 20 := Nat.mod_lt _ (by decide)
  have down : (ofBigEndian address.1 + (2 ^ 160 - l1ToL2Offset)) % 2 ^ 160 < 256 ^ 20 := Nat.mod_lt _ (by decide)
  refine ⟨_, _, applyL1ToL2Alias_eq address, undoL1ToL2Alias_eq address, ofBigEndian_bigEndian up, ?_, ?_, ?_⟩
  · rw [ofBigEndian_bigEndian down, l1ToL2Offset]
    omega
  · have returned : ((ofBigEndian address.1 + l1ToL2Offset) % 2 ^ 160 + (2 ^ 160 - l1ToL2Offset)) % 2 ^ 160 =
        ofBigEndian address.1 := by
      rw [l1ToL2Offset]
      omega
    rw [undoL1ToL2Alias_eq, ofBigEndian_bigEndian up, returned, bigEndian_ofBigEndian]
  · have returned : ((ofBigEndian address.1 + (2 ^ 160 - l1ToL2Offset)) % 2 ^ 160 + l1ToL2Offset) % 2 ^ 160 =
        ofBigEndian address.1 := by
      rw [l1ToL2Offset]
      omega
    rw [applyL1ToL2Alias_eq, ofBigEndian_bigEndian down, returned, bigEndian_ofBigEndian]

end KonaSoon
