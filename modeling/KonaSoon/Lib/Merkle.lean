import Mathlib

/-!
# Trees built level by level

A level of nodes is paired up into the next one, with the last node of an odd level paired with itself, until one
node is left. The tree over a list of leaves determines the list if no leaf is there twice.
-/

namespace KonaSoon.Lib

section Levels

variable {α β : Type}

def pairUp (node : α → α → α) : List α → List α
  | [] => []
  | [a] => [node a a]
  | a :: b :: rest => node a b :: pairUp node rest

theorem length_pairUp (node : α → α → α) (level : List α) : (pairUp node level).length = (level.length + 1) / 2 := by
  induction level using pairUp.induct with
  | case1 => simp [pairUp]
  | case2 a => simp [pairUp]
  | case3 a b rest ih =>
      rw [pairUp, List.length_cons, ih, List.length_cons, List.length_cons]
      omega

theorem map_pairUp {node : α → α → α} {node' : β → β → β} {f : α → β} (natural : ∀ a b, f (node a b) = node' (f a) (f b))
    (level : List α) : (pairUp node level).map f = pairUp node' (level.map f) := by
  induction level using pairUp.induct with
  | case1 => rfl
  | case2 a => rw [pairUp, List.map_singleton, natural, List.map_singleton, pairUp]
  | case3 a b rest ih => rw [pairUp, List.map_cons, natural, ih, List.map_cons, List.map_cons, pairUp]

def climb (node : α → α → α) : Nat → List α → List α
  | 0, _ => []
  | fuel + 1, level => if level.length ≤ 1 then [] else pairUp node level ++ climb node fuel (pairUp node level)

def top (node : α → α → α) : Nat → List α → Option α
  | 0, level => level.head?
  | fuel + 1, level => if level.length ≤ 1 then level.head? else top node fuel (pairUp node level)

theorem getLast?_climb (node : α → α → α) {fuel : Nat} {level : List α} (enough : level.length ≤ fuel + 1) :
    (level ++ climb node fuel level).getLast? = top node fuel level := by
  induction fuel generalizing level with
  | zero =>
      rw [climb, List.append_nil, top]
      match level, enough with
      | [], _ => rfl
      | [a], _ => rfl
  | succ fuel ih =>
      rw [climb, top]
      split
      · rename_i short
        rw [List.append_nil]
        match level, short with
        | [], _ => rfl
        | [a], _ => rfl
      · rename_i long
        have length := length_pairUp node level
        have nonempty : pairUp node level ++ climb node fuel (pairUp node level) ≠ [] := by
          apply List.append_ne_nil_of_left_ne_nil
          apply List.ne_nil_of_length_pos
          omega
        rw [List.getLast?_append_of_ne_nil _ nonempty, ih (by omega)]

theorem map_top {node : α → α → α} {node' : β → β → β} {f : α → β} (natural : ∀ a b, f (node a b) = node' (f a) (f b))
    (fuel : Nat) (level : List α) : (top node fuel level).map f = top node' fuel (level.map f) := by
  induction fuel generalizing level with
  | zero => exact List.head?_map.symm
  | succ fuel ih =>
      rw [top, top, List.length_map]
      split
      · exact List.head?_map.symm
      · rw [ih, map_pairUp natural]

/-- The root of a level: its node if one is left, and otherwise the root of the level above. -/
def rootOf (node : α → α → α) : List α → Option α
  | [] => none
  | [a] => some a
  | a :: b :: rest => rootOf node (pairUp node (a :: b :: rest))
termination_by level => level.length
decreasing_by
  rw [length_pairUp, List.length_cons, List.length_cons]
  omega

theorem top_eq_rootOf (node : α → α → α) {fuel : Nat} {level : List α} (enough : level.length ≤ fuel + 1) :
    top node fuel level = rootOf node level := by
  induction fuel generalizing level with
  | zero =>
      match level, enough with
      | [], _ =>
          rw [rootOf]
          rfl
      | [a], _ =>
          rw [rootOf]
          rfl
  | succ fuel ih =>
      match level, enough with
      | [], _ =>
          rw [rootOf]
          rfl
      | [a], _ =>
          rw [rootOf]
          rfl
      | a :: b :: rest, enough =>
          have length := length_pairUp node (a :: b :: rest)
          rw [top, if_neg (by simp), rootOf, ih (by omega)]

theorem rootOf_isSome (node : α → α → α) {level : List α} (nonempty : level ≠ []) : (rootOf node level).isSome := by
  induction level using rootOf.induct node with
  | case1 => exact absurd rfl nonempty
  | case2 a =>
      rw [rootOf]
      rfl
  | case3 a b rest ih =>
      rw [rootOf]
      exact ih (List.cons_ne_nil _ _)

end Levels

inductive PairTree (α : Type) where
  | leaf (a : α)
  | node (left right : PairTree α)
deriving DecidableEq, Repr

namespace PairTree

variable {α : Type}

def leaves : PairTree α → List α
  | leaf a => [a]
  | node left right => left.leaves ++ right.leaves

def ofLeaves (as : List α) : Option (PairTree α) := top node as.length (as.map leaf)

theorem leaves_pairUp (level : List (PairTree α)) :
    level.flatMap leaves <+: (pairUp node level).flatMap leaves ∧
      (pairUp node level).flatMap leaves ⊆ level.flatMap leaves := by
  induction level using pairUp.induct with
  | case1 => exact ⟨List.prefix_rfl, List.Subset.refl _⟩
  | case2 a =>
      simp only [pairUp, List.flatMap_cons, List.flatMap_nil, List.append_nil, leaves]
      exact ⟨List.prefix_append _ _, List.append_subset.mpr ⟨List.Subset.refl _, List.Subset.refl _⟩⟩
  | case3 a b rest ih =>
      simp only [pairUp, List.flatMap_cons, leaves, List.append_assoc]
      exact ⟨(List.prefix_append_right_inj _).mpr ((List.prefix_append_right_inj _).mpr ih.1),
        List.append_subset.mpr ⟨List.subset_append_left _ _, List.append_subset.mpr
          ⟨List.subset_append_of_subset_right _ (List.subset_append_left _ _),
          List.subset_append_of_subset_right _ (List.subset_append_of_subset_right _ ih.2)⟩⟩⟩

theorem leaves_top {fuel : Nat} {level : List (PairTree α)} (enough : level.length ≤ fuel + 1) {tree : PairTree α}
    (made : top node fuel level = some tree) :
    level.flatMap leaves <+: tree.leaves ∧ tree.leaves ⊆ level.flatMap leaves := by
  have short : ∀ {level : List (PairTree α)}, level.length ≤ 1 → level.head? = some tree →
      level.flatMap leaves <+: tree.leaves ∧ tree.leaves ⊆ level.flatMap leaves := by
    intro level short made
    match level, short with
    | [a], _ =>
        cases made
        simp only [List.flatMap_cons, List.flatMap_nil, List.append_nil]
        exact ⟨List.prefix_rfl, List.Subset.refl _⟩
  induction fuel generalizing level with
  | zero => exact short enough made
  | succ fuel ih =>
      rw [top] at made
      split at made
      · rename_i few
        exact short few made
      · have := length_pairUp node level
        obtain ⟨first, only⟩ := ih (by omega) made
        obtain ⟨first', only'⟩ := leaves_pairUp level
        exact ⟨first'.trans first, fun a mem => only' (only mem)⟩

theorem leaves_ofLeaves {as : List α} {tree : PairTree α} (made : ofLeaves as = some tree) :
    as <+: tree.leaves ∧ tree.leaves ⊆ as := by
  have flat : (as.map leaf).flatMap leaves = as := by
    rw [List.flatMap_map]
    exact List.flatMap_singleton' as
  have := leaves_top (by rw [List.length_map]; exact Nat.le_succ _) made
  rwa [flat] at this

theorem top_ne_none {fuel : Nat} {level : List (PairTree α)} (nonempty : level ≠ []) : top node fuel level ≠ none := by
  induction fuel generalizing level with
  | zero => rwa [top, ne_eq, List.head?_eq_none_iff]
  | succ fuel ih =>
      rw [top]
      split
      · rwa [ne_eq, List.head?_eq_none_iff]
      · apply ih
        apply List.ne_nil_of_length_pos
        rw [length_pairUp]
        have := List.length_pos_iff.mpr nonempty
        omega

theorem ofLeaves_eq_none {as : List α} : ofLeaves as = none ↔ as = [] := by
  constructor
  · intro none_made
    by_contra nonempty
    exact top_ne_none (fun empty => nonempty (List.map_eq_nil_iff.mp empty)) none_made
  · rintro rfl
    rfl

theorem eq_of_prefixes {as bs all : List α} (first : as <+: all) (first' : bs <+: all) (only : all ⊆ as)
    (distinct : bs.Nodup) (shorter : as.length ≤ bs.length) : as = bs := by
  obtain ⟨more, rfl⟩ := List.prefix_of_prefix_length_le first first' shorter
  have none_new : more = [] := by
    by_contra nonempty
    obtain ⟨a, rest, rfl⟩ := List.exists_cons_of_ne_nil nonempty
    have inside : a ∈ as := only (first'.subset (List.mem_append_right _ List.mem_cons_self))
    exact (List.nodup_append.mp distinct).2.2 a inside a List.mem_cons_self rfl
  rw [none_new, List.append_nil]

theorem ofLeaves_injective_of_nodup {as bs : List α} (distinct : as.Nodup) (distinct' : bs.Nodup)
    (same : ofLeaves as = ofLeaves bs) : as = bs := by
  cases made : ofLeaves as with
  | none =>
      rw [ofLeaves_eq_none.mp made, ofLeaves_eq_none.mp (same.symm.trans made)]
  | some tree =>
      obtain ⟨first, only⟩ := leaves_ofLeaves made
      obtain ⟨first', only'⟩ := leaves_ofLeaves (same.symm.trans made)
      rcases Nat.le_total as.length bs.length with shorter | shorter
      · exact eq_of_prefixes first first' only distinct' shorter
      · exact (eq_of_prefixes first' first only' distinct shorter).symm

end PairTree

end KonaSoon.Lib
