import KonaSoon.Mpt.Canonical

namespace KonaSoon.Mpt
open Lib

namespace TrieNode

inductive Reveals (Stands : B256 → TrieNode → Prop) : TrieNode → TrieNode → Prop
  | empty : Reveals Stands .empty .empty
  | leaf {pfx value} : Reveals Stands (.leaf pfx value) (.leaf pfx value)
  | extension {pfx node full} (child : Reveals Stands node full) :
      Reveals Stands (.extension pfx node) (.extension pfx full)
  | branch {stack fulls} (width : stack.length = fulls.length)
      (children : ∀ i, Reveals Stands (slot stack i) (slot fulls i)) :
      Reveals Stands (.branch stack) (.branch fulls)
  | blinded {commitment full} (stands : Stands commitment full) :
      Reveals Stands (.blinded commitment) full

def IsBlinded (node : TrieNode) : Prop := ∃ commitment, node = .blinded commitment

structure Serves (prim : Primitives) (fetcher : TrieProvider) (hinter : TrieHinter)
    (Stands : B256 → TrieNode → Prop) : Prop where
  nonempty : ∀ {c full}, Stands c full → full ≠ .empty
  reveal : ∀ {c full}, Stands c full → ∃ node, unblind prim fetcher (.blinded c) = (node, .ok ()) ∧
    Reveals Stands node full ∧ ¬ IsBlinded node
  hint : ∀ {c full}, Stands c full → ∀ hash slot, hinter.hintAccountProof hash slot = .ok ()

/-- A provider that gives the node behind a commitment or an error, for some commitments the one and for others
the other. -/
structure Answers (prim : Primitives) (fetcher : TrieProvider) (Stands : B256 → TrieNode → Prop) : Prop where
  nonempty : ∀ {c full}, Stands c full → full ≠ .empty
  reveal : ∀ {c full}, Stands c full → (∃ node, unblind prim fetcher (.blinded c) = (node, .ok ()) ∧
    Reveals Stands node full ∧ ¬ IsBlinded node) ∨ ∃ e, unblind prim fetcher (.blinded c) = (.blinded c, .error (.error e))

def Fails (prim : Primitives) (fetcher : TrieProvider) (Stands : B256 → TrieNode → Prop) : Prop :=
  ∃ c full e, Stands c full ∧ unblind prim fetcher (.blinded c) = (.blinded c, .error (.error e))

section

variable {Stands : B256 → TrieNode → Prop} {node full : TrieNode}

theorem serves_nothing (prim : Primitives) (fetcher : TrieProvider) (hinter : TrieHinter) :
    Serves prim fetcher hinter (fun _ _ => False) :=
  ⟨False.elim, False.elim, False.elim⟩

theorem reveals_nothing (reveals : Reveals (fun _ _ => False) node full) : node = full := by
  induction reveals with
  | empty => rfl
  | leaf => rfl
  | extension _ ih => rw [ih]
  | branch width _ ih => rw [stack_ext width ih]
  | blinded stands => exact stands.elim

theorem Canonical.reveals {n : Nat} (canonical : Canonical n full) : Reveals Stands full full := by
  induction canonical with
  | empty => exact .empty
  | leaf => exact .leaf
  | extension _ _ _ ih => exact .extension ih
  | @branch n stack width noValue children two ih =>
      refine .branch rfl fun i => ?_
      rcases Nat.lt_or_ge i 16 with below | above
      · exact ih i below
      · rw [slot_above width noValue above]
        exact .empty

theorem Canonical.not_blinded {n : Nat} (canonical : Canonical n full) : ¬ IsBlinded full := by
  rintro ⟨c, rfl⟩
  cases canonical

theorem reveals_set {stack fulls : List TrieNode} (width : stack.length = fulls.length)
    (children : ∀ i, Reveals Stands (slot stack i) (slot fulls i)) (child : Reveals Stands node full)
    (i : Nat) : Reveals Stands (.branch (stack.set i node)) (.branch (fulls.set i full)) := by
  refine .branch (by simpa using width) fun j => ?_
  rw [slot_set, slot_set, width]
  split
  · exact child
  · exact children j

variable {prim : Primitives} {fetcher : TrieProvider} {hinter : TrieHinter}

theorem Reveals.isEmpty_eq (answers : Answers prim fetcher Stands) (reveals : Reveals Stands node full) :
    node.isEmpty = full.isEmpty := by
  cases reveals with
  | blinded stands =>
      have nonempty := answers.nonempty stands
      cases full <;> simp_all [isEmpty]
  | _ => rfl

theorem unblind_cases (answers : Answers prim fetcher Stands) (reveals : Reveals Stands node full) :
    (∃ node', unblind prim fetcher node = (node', .ok ()) ∧ Reveals Stands node' full ∧ ¬ IsBlinded node') ∨
    (∃ c e, node = .blinded c ∧ unblind prim fetcher node = (node, .error (.error e))) ∧ Fails prim fetcher Stands := by
  cases reveals with
  | blinded stands =>
      rcases answers.reveal stands with shown | ⟨e, fails⟩
      · exact .inl shown
      · exact .inr ⟨⟨_, e, rfl, fails⟩, _, _, e, stands, fails⟩
  | empty => exact .inl ⟨_, rfl, .empty, by rintro ⟨_, ⟨⟩⟩⟩
  | leaf => exact .inl ⟨_, rfl, .leaf, by rintro ⟨_, ⟨⟩⟩⟩
  | extension child => exact .inl ⟨_, rfl, .extension child, by rintro ⟨_, ⟨⟩⟩⟩
  | branch width children => exact .inl ⟨_, rfl, .branch width children, by rintro ⟨_, ⟨⟩⟩⟩

variable (serves : Serves prim fetcher hinter Stands)

include serves

theorem Serves.answers : Answers prim fetcher Stands := ⟨serves.nonempty, fun stands => .inl (serves.reveal stands)⟩

theorem Serves.not_fails : ¬ Fails prim fetcher Stands := by
  rintro ⟨c, full, e, stands, fails⟩
  obtain ⟨node, shows, -⟩ := serves.reveal stands
  rw [fails] at shows
  simp at shows

theorem unblind_spec (reveals : Reveals Stands node full) :
    ∃ node', unblind prim fetcher node = (node', .ok ()) ∧ Reveals Stands node' full ∧
      ¬ IsBlinded node' := by
  rcases unblind_cases serves.answers reveals with shown | ⟨-, fails⟩
  · exact shown
  · exact absurd fails serves.not_fails

def OpenCorrect (prim : Primitives) (fetcher : TrieProvider) (Stands : B256 → TrieNode → Prop)
    (n : Nat) (full : TrieNode) : Prop :=
  ∀ node path fuel, Reveals Stands node full → path.length = n → 2 * n + 2 ≤ fuel →
    ∃ node' answer, openPath prim fetcher fuel node path = (node', .ok answer) ∧
      Reveals Stands node' full ∧ ∀ value, answer = some value ↔ Holds full path value

theorem openCorrect_of_revealed {n : Nat}
    (revealed : ∀ node path fuel, ¬ IsBlinded node → Reveals Stands node full → path.length = n →
      2 * n + 1 ≤ fuel → ∃ node' answer, openPath prim fetcher fuel node path = (node', .ok answer) ∧
        Reveals Stands node' full ∧ ∀ value, answer = some value ↔ Holds full path value) :
    OpenCorrect prim fetcher Stands n full := by
  intro node path fuel reveals pathLength enough
  by_cases blinded : IsBlinded node
  · obtain ⟨c, rfl⟩ := blinded
    obtain ⟨node, unblinds, shown, clear⟩ := unblind_spec serves reveals
    obtain ⟨fuel, rfl⟩ : ∃ k, fuel = k + 1 := ⟨fuel - 1, by omega⟩
    rw [openPath, unblinds]
    exact revealed node path fuel clear shown pathLength (by omega)
  · exact revealed node path fuel blinded reveals pathLength (by omega)

theorem openPath_spec {n : Nat} (canonical : Canonical n full) :
    OpenCorrect prim fetcher Stands n full := by
  induction canonical with
  | empty =>
      apply openCorrect_of_revealed serves
      intro node path fuel clear reveals _ enough
      obtain ⟨fuel, rfl⟩ : ∃ k, fuel = k + 1 := ⟨fuel - 1, by omega⟩
      cases reveals with
      | empty => exact ⟨_, _, rfl, .empty, by simp⟩
      | blinded => exact absurd ⟨_, rfl⟩ clear
  | leaf pathLength valid =>
      apply openCorrect_of_revealed serves
      intro node path fuel clear reveals _ enough
      obtain ⟨fuel, rfl⟩ : ∃ k, fuel = k + 1 := ⟨fuel - 1, by omega⟩
      cases reveals with
      | leaf =>
          refine ⟨_, _, rfl, .leaf, fun value => ?_⟩
          split <;> simp_all [eq_comm]
      | blinded => exact absurd ⟨_, rfl⟩ clear
  | @extension n pfx stack nonempty valid child ih =>
      apply openCorrect_of_revealed serves
      intro node path fuel clear reveals pathLength enough
      have positive : 0 < pfx.length := List.length_pos_iff.mpr nonempty
      obtain ⟨fuel, rfl⟩ : ∃ k, fuel = k + 1 := ⟨fuel - 1, by omega⟩
      cases reveals with
      | blinded => exact absurd ⟨_, rfl⟩ clear
      | @extension _ node _ shown =>
          have splits : sliceTo path pfx.length = some (path.take pfx.length) ∧
              sliceFrom path pfx.length = some (path.drop pfx.length) := by
            constructor <;> simp [sliceTo, sliceFrom, pathLength]
          simp only [openPath, splits]
          by_cases along : path.take pfx.length = pfx
          · obtain ⟨node', unblinds, shown', -⟩ := unblind_spec serves shown
            obtain ⟨opened, answer, opens, shown'', correct⟩ :=
              ih node' (path.drop pfx.length) fuel shown' (by simp [pathLength]) (by omega)
            have path_eq : path = pfx ++ path.drop pfx.length := by
              conv_lhs => rw [← List.take_append_drop pfx.length path, along]
            refine ⟨.extension pfx opened, answer, by simp [along, unblinds, opens], .extension shown'',
              fun value => ?_⟩
            rw [correct, path_eq, holds_extension_append, ← path_eq]
          · refine ⟨_, none, by simp [along], .extension shown, fun value => ?_⟩
            suffices ¬ Holds (.extension pfx (.branch stack)) path value by simpa
            intro holds
            obtain ⟨rest, rfl, -⟩ := holds_extension.mp holds
            simp at along
  | @branch n stack width noValue children two ih =>
      apply openCorrect_of_revealed serves
      intro node path fuel clear reveals pathLength enough
      obtain ⟨fuel, rfl⟩ : ∃ k, fuel = k + 1 := ⟨fuel - 1, by omega⟩
      cases path with
      | nil => simp at pathLength
      | cons nibble rest =>
          cases reveals with
          | blinded => exact absurd ⟨_, rfl⟩ clear
          | @branch shown _ sameWidth shownChildren =>
              rcases Nat.lt_or_ge nibble.toNat 16 with below | above
              · obtain ⟨opened, answer, opens, shown', correct⟩ := ih _ below _ rest fuel
                  (shownChildren nibble.toNat) (by simpa using pathLength) (by omega)
                have inside : nibble.toNat < shown.length := by
                  rw [sameWidth, width, branchListLength]
                  omega
                refine ⟨.branch (shown.set nibble.toNat opened), answer, ?_, ?_, fun value => ?_⟩
                · simp [openPath, getElem?_eq_slot inside, opens]
                · simpa only [set_slot] using reveals_set sameWidth shownChildren shown' nibble.toNat
                · rw [correct, holds_branch_cons]
              · have none_here : slot stack nibble.toNat = .empty := slot_above width noValue above
                have absent : ∀ value, ¬ Holds (.branch stack) (nibble :: rest) value := by
                  simp [none_here]
                cases lookup : shown[nibble.toNat]? with
                | none =>
                    exact ⟨.branch shown, none, by simp [openPath, lookup],
                      .branch sameWidth shownChildren, by simpa using absent⟩
                | some child =>
                    have here : slot shown nibble.toNat = child := by
                      simp [slot, List.getD_eq_getElem?_getD, lookup]
                    have shownEmpty := shownChildren nibble.toNat
                    rw [here, none_here] at shownEmpty
                    have : child = .empty := by
                      cases shownEmpty with
                      | empty => rfl
                      | blinded stands => exact absurd rfl (serves.nonempty stands)
                    subst this
                    obtain ⟨fuel, rfl⟩ : ∃ k, fuel = k + 1 := ⟨fuel - 1, by omega⟩
                    refine ⟨.branch shown, none, ?_, .branch sameWidth shownChildren,
                      by simpa using absent⟩
                    rw [openPath, lookup]
                    simp only [openPath]
                    rw [← here, set_slot]

end

end TrieNode

end KonaSoon.Mpt
