import Mathlib

namespace KonaSoon.Lib

section

variable {σ ι υ ε : Type} (decode : ι → Except ε υ) (apply : σ → υ → σ)

def applyAll : σ → List ι → σ × Except ε Unit
  | s, [] => (s, .ok ())
  | s, i :: is =>
      match decode i with
      | .error e => (s, .error e)
      | .ok update => applyAll (apply s update) is

theorem applyAll_append (s : σ) (is js : List ι) :
    applyAll decode apply s (is ++ js) =
      match applyAll decode apply s is with
      | (s', .error e) => (s', .error e)
      | (s', .ok ()) => applyAll decode apply s' js := by
  induction is generalizing s with
  | nil => rfl
  | cons i is ih =>
      simp only [List.cons_append, applyAll]
      cases decode i with
      | error e => rfl
      | ok update => exact ih (apply s update)

def Decodes (is : List ι) (updates : List υ) : Prop := List.Forall₂ (fun i update => decode i = .ok update) is updates

def Refuses (is : List ι) (updates : List υ) (e : ε) : Prop :=
  ∃ before refused after, is = before ++ refused :: after ∧ Decodes decode before updates ∧ decode refused = .error e

theorem applyAll_cases (s : σ) (is : List ι) :
    (∃ updates, Decodes decode is updates ∧ applyAll decode apply s is = (updates.foldl apply s, .ok ())) ∨
      ∃ updates e, Refuses decode is updates e ∧ applyAll decode apply s is = (updates.foldl apply s, .error e) := by
  induction is generalizing s with
  | nil => exact .inl ⟨[], .nil, rfl⟩
  | cons i is ih =>
      rw [applyAll]
      cases decodes : decode i with
      | error e => exact .inr ⟨[], e, ⟨[], i, is, rfl, .nil, decodes⟩, rfl⟩
      | ok update =>
          rcases ih (apply s update) with ⟨updates, all, ends⟩ | ⟨updates, e, ⟨before, refused, after, rfl, all, fails⟩, ends⟩
          · exact .inl ⟨update :: updates, .cons decodes all, ends⟩
          · exact .inr ⟨update :: updates, e, ⟨i :: before, refused, after, rfl, .cons decodes all, fails⟩, ends⟩

variable {decode}

theorem Refuses.unique {is : List ι} {updates updates' : List υ} {e e' : ε} (refuses : Refuses decode is updates e)
    (refuses' : Refuses decode is updates' e') : updates = updates' ∧ e = e' := by
  obtain ⟨before, refused, after, rfl, decodes, fails⟩ := refuses
  obtain ⟨before', refused', after', same, decodes', fails'⟩ := refuses'
  induction decodes generalizing before' updates' with
  | nil =>
      cases decodes' with
      | nil =>
          cases same
          exact ⟨rfl, Except.error.inj (fails.symm.trans fails')⟩
      | cons first _ =>
          cases same
          rw [fails] at first
          cases first
  | cons first _ ih =>
      cases decodes' with
      | nil =>
          cases same
          rw [fails'] at first
          cases first
      | cons first' rest' =>
          obtain ⟨rfl, later⟩ := List.cons.inj same
          cases first.symm.trans first'
          obtain ⟨sameUpdates, sameError⟩ := ih _ later rest'
          exact ⟨congrArg _ sameUpdates, sameError⟩

theorem Decodes.not_refuses {is : List ι} {updates updates' : List υ} {e : ε} (decodes : Decodes decode is updates)
    (refuses : Refuses decode is updates' e) : False := by
  obtain ⟨before, refused, after, rfl, -, fails⟩ := refuses
  induction before generalizing updates with
  | nil =>
      cases decodes with
      | cons first _ =>
          rw [fails] at first
          cases first
  | cons i before ih =>
      cases decodes with
      | cons _ rest => exact ih rest

/-- A pass that fails leaves the value as it was, if and only if the updates before the refused item change nothing. -/
theorem applyAll_atomic_iff {apply : σ → υ → σ} {s : σ} {is : List ι} :
    (∀ s' e, applyAll decode apply s is = (s', .error e) → s' = s) ↔
      ∀ updates e, Refuses decode is updates e → updates.foldl apply s = s := by
  rcases applyAll_cases decode apply s is with ⟨updates, decodes, ends⟩ | ⟨updates, e, refuses, ends⟩
  · rw [ends]
    refine iff_of_true ?_ ?_
    · intro s' e fails
      cases fails
    · intro updates' e refuses
      exact (decodes.not_refuses refuses).elim
  · rw [ends]
    constructor
    · intro atomic updates' e' refuses'
      obtain ⟨rfl, rfl⟩ := refuses.unique refuses'
      exact atomic _ _ rfl
    · intro unchanged s' e' fails
      cases fails
      exact unchanged updates e refuses

end

end KonaSoon.Lib
