import Mathlib

namespace KonaSoon.Lib

variable {κ β ι : Type} [DecidableEq κ]

def updateEach (key : ι → κ) (value : ι → β → β) (m : κ → β) (is : List ι) : κ → β :=
  is.foldl (fun m i => Function.update m (key i) (value i (m (key i)))) m

variable {key : ι → κ} {value : ι → β → β}

@[simp] theorem updateEach_nil (m : κ → β) : updateEach key value m [] = m := rfl

@[simp] theorem updateEach_cons (m : κ → β) (i : ι) (is : List ι) : updateEach key value m (i :: is) =
    updateEach key value (Function.update m (key i) (value i (m (key i)))) is := rfl

theorem updateEach_other (m : κ → β) {is : List ι} {k : κ} (other : ∀ i ∈ is, key i ≠ k) :
    updateEach key value m is k = m k := by
  induction is generalizing m with
  | nil => rfl
  | cons i is ih =>
      have here : key i ≠ k := other i (.head is)
      rw [updateEach_cons, ih _ fun j member => other j (.tail i member), Function.update_of_ne here.symm]

theorem updateEach_mem (m : κ → β) {is : List ι} (distinct : (is.map key).Nodup) {i : ι} (member : i ∈ is) :
    updateEach key value m is (key i) = value i (m (key i)) := by
  induction is generalizing m with
  | nil => cases member
  | cons j is ih =>
      obtain ⟨fresh, rest⟩ := List.nodup_cons.mp distinct
      have apart : ∀ i ∈ is, key i ≠ key j := fun i inside same => fresh (same ▸ List.mem_map_of_mem inside)
      rw [updateEach_cons]
      cases member with
      | head => rw [updateEach_other _ apart, Function.update_self]
      | tail _ inside => rw [ih _ rest inside, Function.update_of_ne (apart i inside)]

theorem updateEach_perm (m : κ → β) {is js : List ι} (perm : is.Perm js) (distinct : (is.map key).Nodup) :
    updateEach key value m is = updateEach key value m js := by
  have distinct' : (js.map key).Nodup := ((perm.map key).nodup_iff).mp distinct
  funext k
  by_cases written : ∃ i ∈ is, key i = k
  · obtain ⟨i, member, rfl⟩ := written
    rw [updateEach_mem m distinct member, updateEach_mem m distinct' (perm.mem_iff.mp member)]
  · have other : ∀ i ∈ is, key i ≠ k := fun i member same => written ⟨i, member, same⟩
    rw [updateEach_other m other, updateEach_other m fun i member => other i (perm.mem_iff.mpr member)]

end KonaSoon.Lib
