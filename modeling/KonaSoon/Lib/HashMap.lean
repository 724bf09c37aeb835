import Mathlib

namespace KonaSoon.Lib

abbrev HashMap (κ β : Type) := AList fun _ : κ => β

namespace HashMap

variable {κ β : Type}

def retain (keep : κ → β → Bool) (map : HashMap κ β) : HashMap κ β :=
  ⟨map.entries.filter fun entry => keep entry.1 entry.2, map.nodupKeys.sublist List.filter_sublist⟩

def values (map : HashMap κ β) : List β := map.entries.map (·.2)

def total (size : β → Nat) (map : HashMap κ β) : Nat := (map.values.map size).sum

@[simp] theorem total_empty (size : β → Nat) : total size (∅ : HashMap κ β) = 0 := rfl

theorem total_congr {map : HashMap κ β} {size size' : β → Nat} (same : ∀ value ∈ map.values, size value = size' value) :
    total size map = total size' map := by
  unfold total
  congr 1
  exact List.map_congr_left same

variable [DecidableEq κ] {map : HashMap κ β} {key : κ} {value : β}

theorem mem_retain {keep : κ → β → Bool} {key : κ} :
    key ∈ map.retain keep ↔ ∃ value, map.lookup key = some value ∧ keep key value = true := by
  rw [AList.mem_keys, AList.keys, List.mem_keys]
  constructor
  · rintro ⟨value, member⟩
    obtain ⟨inside, kept⟩ := List.mem_filter.mp member
    exact ⟨value, AList.mem_lookup_iff.mpr inside, kept⟩
  · rintro ⟨value, here, kept⟩
    exact ⟨value, List.mem_filter.mpr ⟨AList.mem_lookup_iff.mp here, kept⟩⟩

theorem mem_values : value ∈ map.values ↔ ∃ key, map.lookup key = some value := by
  rw [values, List.mem_map]
  constructor
  · rintro ⟨⟨key, value⟩, member, rfl⟩
    exact ⟨key, AList.mem_lookup_iff.mpr member⟩
  · rintro ⟨key, here⟩
    exact ⟨⟨key, value⟩, AList.mem_lookup_iff.mp here, rfl⟩

theorem total_insert (size : β → Nat) (map : HashMap κ β) (key : κ) (value : β) :
    total size (map.insert key value) = size value + total size (map.erase key) := rfl

theorem erase_eq_self (absent : key ∉ map) : map.erase key = map := by
  apply AList.ext
  exact List.kerase_of_notMem_keys absent

theorem total_erase (size : β → Nat) (here : map.lookup key = some value) :
    total size (map.erase key) + size value = total size map := by
  have member : key ∈ map.entries.keys := AList.lookup_isSome.mp (by rw [here]; rfl)
  obtain ⟨found, front, back, -, split, erased⟩ := List.exists_of_kerase member
  have same : found = value := by
    have inside : ⟨key, found⟩ ∈ map.entries := by simp [split]
    rw [AList.mem_lookup_iff.mpr inside] at here
    exact Option.some.inj here
  have left : (map.erase key).entries = front ++ back := erased
  simp only [total, values, left, split, same, List.map_append, List.map_cons, List.sum_append, List.sum_cons]
  omega

theorem le_total (size : β → Nat) (here : map.lookup key = some value) : size value ≤ total size map := by
  have := total_erase size here
  omega

theorem total_erase_le (size : β → Nat) (map : HashMap κ β) (key : κ) : total size (map.erase key) ≤ total size map := by
  cases here : map.lookup key with
  | none => rw [erase_eq_self (AList.lookup_eq_none.mp here)]
  | some value =>
      have := total_erase size here
      omega

theorem lookup_of_lookup_erase {key other : κ} (here : (map.erase key).lookup other = some value) :
    other ≠ key ∧ map.lookup other = some value := by
  by_cases same : other = key
  · rw [same, AList.lookup_erase] at here
    cases here
  · rw [AList.lookup_erase_ne same] at here
    exact ⟨same, here⟩

theorem lookup_of_lookup_insert {key other : κ} {new : β} (here : (map.insert key new).lookup other = some value) :
    (other = key ∧ value = new) ∨ map.lookup other = some value := by
  by_cases same : other = key
  · subst same
    rw [AList.lookup_insert] at here
    exact .inl ⟨rfl, (Option.some.inj here).symm⟩
  · rw [AList.lookup_insert_ne same] at here
    exact .inr here

end HashMap

end KonaSoon.Lib
