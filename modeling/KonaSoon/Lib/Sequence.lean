import Mathlib

namespace KonaSoon.Lib

variable {α : Type}

/-- The elements from `start` on; a start behind the end is out of bounds. -/
def sliceFrom (xs : List α) (start : Nat) : Option (List α) :=
  if start ≤ xs.length then some (xs.drop start) else none

def sliceTo (xs : List α) (stop : Nat) : Option (List α) :=
  if stop ≤ xs.length then some (xs.take stop) else none

def sliceRange (xs : List α) (start stop : Nat) : Option (List α) :=
  if start ≤ stop ∧ stop ≤ xs.length then some ((xs.take stop).drop start) else none

theorem sliceRange_append {xs ys zs : List α} {start stop : Nat} (front : xs.length = start)
    (width : start + ys.length = stop) : sliceRange (xs ++ (ys ++ zs)) start stop = some ys := by
  subst front width
  have inside : xs.length + ys.length ≤ (xs ++ (ys ++ zs)).length := by
    simp only [List.length_append]
    omega
  rw [sliceRange, if_pos ⟨Nat.le_add_right _ _, inside⟩, List.take_append, List.drop_append]
  simp

@[simp] theorem sliceTo_append (xs ys : List α) : sliceTo (xs ++ ys) xs.length = some xs := by
  simp [sliceTo]

@[simp] theorem sliceFrom_append (xs ys : List α) : sliceFrom (xs ++ ys) xs.length = some ys := by
  simp [sliceFrom]

@[simp] theorem sliceFrom_append_cons (xs ys : List α) (y : α) :
    sliceFrom (xs ++ y :: ys) (xs.length + 1) = some ys := by
  have back := sliceFrom_append (xs ++ [y]) ys
  simpa using back

def commonPrefixLength [DecidableEq α] : List α → List α → Nat
  | x :: xs, y :: ys => if x = y then commonPrefixLength xs ys + 1 else 0
  | _, _ => 0

section

variable [DecidableEq α]

theorem commonPrefixLength_append (front xs ys : List α) :
    commonPrefixLength (front ++ xs) (front ++ ys) = front.length + commonPrefixLength xs ys := by
  induction front with
  | nil => simp
  | cons x front ih =>
      simp only [List.cons_append, commonPrefixLength, if_true, ih, List.length_cons]
      omega

@[simp] theorem commonPrefixLength_front (front xs : List α) :
    commonPrefixLength (front ++ xs) front = front.length := by
  have split := commonPrefixLength_append front xs []
  cases xs <;> simpa [commonPrefixLength] using split

theorem commonPrefixLength_diverge {x y : α} (differ : x ≠ y) (front xs ys : List α) :
    commonPrefixLength (front ++ x :: xs) (front ++ y :: ys) = front.length := by
  rw [commonPrefixLength_append]
  simp [commonPrefixLength, differ]

theorem prefix_or_diverge (xs ys : List α) :
    (∃ rest, ys = xs ++ rest) ∨ (∃ rest, xs = ys ++ rest) ∨
    ∃ front x y xs' ys', x ≠ y ∧ xs = front ++ x :: xs' ∧ ys = front ++ y :: ys' := by
  induction xs generalizing ys with
  | nil => exact Or.inl ⟨ys, rfl⟩
  | cons x xs ih =>
      cases ys with
      | nil => exact Or.inr (Or.inl ⟨x :: xs, rfl⟩)
      | cons y ys =>
          by_cases same : x = y
          · subst same
            rcases ih ys with ⟨rest, rfl⟩ | ⟨rest, rfl⟩ | ⟨front, a, b, xs', ys', differ, rfl, rfl⟩
            · exact Or.inl ⟨rest, rfl⟩
            · exact Or.inr (Or.inl ⟨rest, rfl⟩)
            · exact Or.inr (Or.inr ⟨x :: front, a, b, xs', ys', differ, rfl, rfl⟩)
          · exact Or.inr (Or.inr ⟨[], x, y, xs, ys, same, rfl, rfl⟩)

theorem diverge_of_ne {xs ys : List α} (sameLength : xs.length = ys.length) (differ : xs ≠ ys) :
    ∃ front x y xs' ys', x ≠ y ∧ xs = front ++ x :: xs' ∧ ys = front ++ y :: ys' := by
  rcases prefix_or_diverge xs ys with ⟨rest, rfl⟩ | ⟨rest, rfl⟩ | parted
  · have : rest = [] := List.eq_nil_of_length_eq_zero (by simpa using sameLength)
    simp [this] at differ
  · have : rest = [] := List.eq_nil_of_length_eq_zero (by simpa using sameLength)
    simp [this] at differ
  · exact parted

end

theorem front_of_diverging {x y : α} (differ : x ≠ y) (front : List α) {xs ys longer xs' ys' : List α}
    (left : front ++ x :: xs = longer ++ xs') (right : front ++ y :: ys = longer ++ ys') :
    longer.length ≤ front.length := by
  by_contra beyond
  have bound : front.length < longer.length := Nat.lt_of_not_le beyond
  have leftAt := congrArg (fun l => l[front.length]?) left
  have rightAt := congrArg (fun l => l[front.length]?) right
  simp only [List.getElem?_append_left bound, List.getElem?_append_right (Nat.le_refl _),
    Nat.sub_self, List.getElem?_cons_zero] at leftAt rightAt
  exact differ (Option.some.inj (leftAt.trans rightAt.symm))

theorem filter_eq_singleton {xs : List α} {keep : α → Bool} {x : α} (nodup : xs.Nodup)
    (member : x ∈ xs) (kept : keep x = true) (only : ∀ y ∈ xs, keep y = true → y = x) :
    xs.filter keep = [x] := by
  have inside : x ∈ xs.filter keep := List.mem_filter.mpr ⟨member, kept⟩
  have all : ∀ y ∈ xs.filter keep, y = x := fun y hy =>
    only y (List.mem_filter.mp hy).1 (List.mem_filter.mp hy).2
  have once := nodup.filter keep
  generalize xs.filter keep = ys at inside all once
  match ys, inside, all, once with
  | [y], _, all, _ => rw [all y (by simp)]
  | y :: z :: ys, _, all, once =>
      have yz : y = z := (all y (by simp)).trans (all z (by simp)).symm
      simp [yz] at once

theorem getLast?_getD_cons {α : Type} (first second : α) (rest : List α) :
    (second :: rest).getLast?.getD first = rest.getLast?.getD second := by
  rw [List.getLast?_cons]
  rfl

end KonaSoon.Lib
