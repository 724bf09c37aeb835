import KonaSoon.Mpt.Insert

namespace KonaSoon.Mpt
open Lib

namespace TrieNode

section

variable {Stands : B256 → TrieNode → Prop} {node full : TrieNode}

theorem mem_nonEmptyChildren {stack : List TrieNode} {child : TrieNode} {i : Nat} :
    (child, i) ∈ nonEmptyChildren stack ↔ stack[i]? = some child ∧ child.isEmpty = false := by
  simp [nonEmptyChildren, List.mem_filter, List.mem_zipIdx_iff_getElem?]

theorem isEmpty_eq_false {node : TrieNode} : node.isEmpty = false ↔ node ≠ .empty := by
  cases node <;> simp [isEmpty]

theorem lt_length_of_slot {stack : List TrieNode} {i : Nat} (here : slot stack i ≠ .empty) :
    i < stack.length := by
  by_contra outside
  exact here (slot_outside (Nat.le_of_not_lt outside))

theorem slot_mem_nonEmptyChildren {stack : List TrieNode} {i : Nat} (here : slot stack i ≠ .empty) :
    (slot stack i, i) ∈ nonEmptyChildren stack :=
  mem_nonEmptyChildren.mpr ⟨getElem?_eq_slot (lt_length_of_slot here), isEmpty_eq_false.mpr here⟩

theorem slot_of_mem {stack : List TrieNode} {child : TrieNode} {i : Nat} (member : (child, i) ∈ nonEmptyChildren stack) :
    slot stack i = child := by
  rw [slot, List.getD_eq_getElem?_getD, (mem_nonEmptyChildren.mp member).1, Option.getD_some]

theorem nonEmptyChildren_single {stack : List TrieNode} {i : Nat} (here : slot stack i ≠ .empty)
    (only : ∀ j, slot stack j ≠ .empty → j = i) : nonEmptyChildren stack = [(slot stack i, i)] := by
  have nodup : stack.zipIdx.Nodup := by
    apply List.Nodup.of_map Prod.snd
    rw [List.zipIdx_map_snd]
    exact List.nodup_range'
  have member := List.mem_filter.mp (slot_mem_nonEmptyChildren here)
  apply filter_eq_singleton nodup member.1 member.2
  rintro ⟨child, j⟩ inside kept
  have inside' := (List.mem_zipIdx_iff_getElem?).mp inside
  have child_eq : slot stack j = child := by
    simp only at inside'
    simp [slot, List.getD_eq_getElem?_getD, inside']
  have nonempty : child ≠ .empty := isEmpty_eq_false.mp (by simpa using kept)
  have same : j = i := only j (child_eq ▸ nonempty)
  rw [← child_eq, same]

theorem nonEmptyChildren_not_single {stack : List TrieNode} {i j : Nat} (order : i < j)
    (first : slot stack i ≠ .empty) (second : slot stack j ≠ .empty) (child : TrieNode × Nat) :
    nonEmptyChildren stack ≠ [child] := by
  intro single
  have left := slot_mem_nonEmptyChildren first
  have right := slot_mem_nonEmptyChildren second
  rw [single, List.mem_singleton] at left right
  have := congrArg Prod.snd (left.trans right.symm)
  simp only at this
  omega

theorem hintedKey_isSome {walked : Nibbles} (fits : walked.length + 1 ≤ keyNibbles) (index : Nat) :
    ∃ hash, hintedKey walked index = some hash := by
  have padded : (walked ++ [UInt8.ofNat index] ++
      List.replicate (keyNibbles - (walked ++ [UInt8.ofNat index]).length) 0).length = 2 * 32 := by
    simp only [List.length_append, List.length_singleton, List.length_replicate]
    unfold keyNibbles at fits ⊢
    omega
  have size := Nibbles.pack_length _ 32 padded
  refine ⟨⟨_, size⟩, ?_⟩
  simp only [hintedKey, List.length_append, List.length_singleton] at size ⊢
  rw [if_pos fits, dif_pos size]

def CollapseLeaves (Stands : B256 → TrieNode → Prop) (n : Nat) (full : TrieNode)
    (result : TrieNode × TrieNodeResult Unit) : Prop :=
  ∃ full', result.2 = .ok () ∧ Reveals Stands result.1 full' ∧ Canonical n full' ∧
    (∀ k v, Holds full' k v ↔ Holds full k v) ∧ ¬ IsBlinded result.1 ∧ full' ≠ .empty

variable {prim : Primitives} {fetcher : TrieProvider} {hinter : TrieHinter}

variable (prim fetcher hinter) in
theorem collapse_single {n : Nat} {stack fulls : List TrieNode}
    (children : ∀ i < 16, Canonical n (slot fulls i))
    (shown : ∀ i, Reveals Stands (slot stack i) (slot fulls i)) {i : Nat} (below : i < 16)
    (here : slot stack i ≠ .empty) (only : ∀ j, slot stack j ≠ .empty → j = i)
    (onlyFull : ∀ j, slot fulls j ≠ .empty → j = i) (clear : ¬ IsBlinded (slot stack i))
    (lastSlot fuel : Nat) (walked : Nibbles) :
    CollapseLeaves Stands (n + 1) (.branch fulls)
      (collapseIfPossible prim fetcher hinter lastSlot (fuel + 1) (.branch stack) walked) := by
  have single := nonEmptyChildren_single here only
  have nibble := nibble_toNat below
  have entries : ∀ k v, Holds (.branch fulls) k v ↔
      ∃ rest, k = UInt8.ofNat i :: rest ∧ Holds (slot fulls i) rest v := by
    intro k v
    cases k with
    | nil => simp
    | cons x rest =>
        rw [holds_branch_cons]
        constructor
        · intro holds
          have : x.toNat = i := onlyFull _ fun none => by simp [none] at holds
          refine ⟨rest, ?_, this ▸ holds⟩
          rw [← this, UInt8.ofNat_toNat]
        · rintro ⟨r, same, holds⟩
          obtain ⟨rfl, rfl⟩ := List.cons.inj same
          rwa [nibble]
  have nibbleValid : Nibbles.Valid [UInt8.ofNat i] := by
    intro x member
    obtain rfl := List.mem_singleton.mp member
    omega
  have canonical := children i below
  have reveals := shown i
  generalize slot stack i = child at *
  generalize slot fulls i = childFull at *
  cases reveals with
  | empty => exact absurd rfl here
  | blinded => exact absurd ⟨_, rfl⟩ clear
  | @leaf pfx value =>
      cases canonical with
      | leaf pathLength valid =>
          refine ⟨.leaf (UInt8.ofNat i :: pfx) value, by simp [collapseIfPossible, single],
            by simpa [collapseIfPossible, single] using .leaf, .leaf (by simpa using pathLength) ?_,
            fun k v => ?_, by rintro ⟨c, same⟩; simp [collapseIfPossible, single] at same, by simp⟩
          · intro x member
            rcases List.mem_cons.mp member with rfl | back
            · omega
            · exact valid x back
          · rw [entries]
            simp only [holds_leaf]
            constructor
            · rintro ⟨at_k, v_eq⟩
              exact ⟨pfx, at_k, rfl, v_eq⟩
            · rintro ⟨rest, at_k, rest_eq, v_eq⟩
              exact ⟨rest_eq ▸ at_k, v_eq⟩
  | @extension pfx node _ child =>
      cases canonical with
      | @extension m _ inner nonempty valid branch =>
          have lengths : pfx.length + m + 1 = (UInt8.ofNat i :: pfx).length + m := by
            simp only [List.length_cons]
            omega
          refine ⟨.extension (UInt8.ofNat i :: pfx) (.branch inner), by simp [collapseIfPossible, single],
            by simpa [collapseIfPossible, single] using .extension child, ?_, fun k v => ?_,
            by rintro ⟨c, same⟩; simp [collapseIfPossible, single] at same, by simp⟩
          · rw [lengths]
            refine .extension (by simp) ?_ branch
            intro x member
            rcases List.mem_cons.mp member with rfl | back
            · omega
            · exact valid x back
          · rw [entries]
            simp only [holds_extension, List.cons_append]
            constructor
            · rintro ⟨rest, rfl, holds⟩
              exact ⟨_, rfl, rest, rfl, holds⟩
            · rintro ⟨r, rfl, rest, rfl, holds⟩
              exact ⟨rest, rfl, holds⟩
  | @branch inner innerFull sameWidth innerShown =>
      refine ⟨.extension [UInt8.ofNat i] (.branch innerFull), by simp [collapseIfPossible, single],
        by simpa [collapseIfPossible, single] using .extension (.branch sameWidth innerShown), ?_, fun k v => ?_,
        by rintro ⟨c, same⟩; simp [collapseIfPossible, single] at same, by simp⟩
      · rw [Nat.add_comm]
        have nonempty : [UInt8.ofNat i] ≠ [] := by simp
        exact .extension nonempty nibbleValid canonical
      · rw [entries]
        simp [holds_extension]

variable (prim fetcher hinter) in
theorem collapse_extension {n : Nat} {pfx : Nibbles} (nonempty : pfx ≠ []) (valid : pfx.Valid)
    (canonical : Canonical n full) (here : full ≠ .empty) (shown : Reveals Stands node full)
    (clear : ¬ IsBlinded node) (lastSlot fuel : Nat) (walked : Nibbles) :
    CollapseLeaves Stands (pfx.length + n) (.extension pfx full)
      (collapseIfPossible prim fetcher hinter lastSlot (fuel + 1) (.extension pfx node) walked) := by
  have joined : ∀ {childPfx : Nibbles}, childPfx.Valid → Nibbles.Valid (pfx ++ childPfx) := by
    intro childPfx childValid x member
    rcases List.mem_append.mp member with front | back
    · exact valid x front
    · exact childValid x back
  cases shown with
  | empty => exact absurd rfl here
  | blinded => exact absurd ⟨_, rfl⟩ clear
  | leaf =>
      cases canonical with
      | leaf pathLength childValid =>
          refine ⟨_, rfl, .leaf, .leaf (by simp [pathLength]) (joined childValid), fun k v => ?_, by rintro ⟨_, ⟨⟩⟩, by simp⟩
          simp only [holds_leaf, holds_extension]
          constructor
          · rintro ⟨at_k, v_eq⟩
            exact ⟨_, at_k, rfl, v_eq⟩
          · rintro ⟨rest, at_k, rest_eq, v_eq⟩
            exact ⟨rest_eq ▸ at_k, v_eq⟩
  | @extension childPfx _ _ child =>
      cases canonical with
      | @extension m _ inner childNonempty childValid branch =>
          refine ⟨.extension (pfx ++ childPfx) (.branch inner), rfl, .extension child, ?_, fun k v => ?_, by rintro ⟨_, ⟨⟩⟩, by simp⟩
          · have lengths : pfx.length + (childPfx.length + m) = (pfx ++ childPfx).length + m := by
              simp only [List.length_append]
              omega
            rw [lengths]
            exact .extension (by simp [nonempty]) (joined childValid) branch
          · simp only [holds_extension, List.append_assoc]
            constructor
            · rintro ⟨rest, rfl, holds⟩
              exact ⟨_, rfl, rest, rfl, holds⟩
            · rintro ⟨_, rfl, rest, rfl, holds⟩
              exact ⟨rest, rfl, holds⟩
  | branch sameWidth children =>
      exact ⟨_, rfl, .extension (.branch sameWidth children), .extension nonempty valid canonical,
        fun _ _ => Iff.rfl, by rintro ⟨_, ⟨⟩⟩, by simp⟩

def Unrevealed (prim : Primitives) (fetcher : TrieProvider) (hinter : TrieHinter) (lastSlot : Nat) (walked : Nibbles)
    (commitment : B256) (index : Nat) : Prop :=
  (∃ hash e, hintedKey walked index = some hash ∧ hinter.hintAccountProof hash lastSlot = .error e) ∨
    ∃ stop, (unblind prim fetcher (.blinded commitment)).2 = .error stop

variable (answers : Answers prim fetcher Stands)

include answers

theorem collapse_branch {n : Nat} {stack fulls : List TrieNode} (width : fulls.length = branchListLength)
    (noValue : slot fulls 16 = .empty) (children : ∀ i < 16, Canonical n (slot fulls i))
    (sameWidth : stack.length = fulls.length) (shown : ∀ i, Reveals Stands (slot stack i) (slot fulls i))
    {i : Nat} (below : i < 16) (here : slot fulls i ≠ .empty) {walked : Nibbles}
    (fits : ∀ {c full}, Stands c full → walked.length + 1 ≤ keyNibbles) (lastSlot fuel : Nat) :
    CollapseLeaves Stands (n + 1) (.branch fulls)
      (collapseIfPossible prim fetcher hinter lastSlot (fuel + 2) (.branch stack) walked) ∨
    ∃ c, nonEmptyChildren stack = [(.blinded c, i)] ∧ Unrevealed prim fetcher hinter lastSlot walked c i := by
  have empties : ∀ j, slot stack j ≠ .empty ↔ slot fulls j ≠ .empty := fun j => by
    rw [← isEmpty_eq_false, ← isEmpty_eq_false, (shown j).isEmpty_eq answers]
  by_cases only : ∀ j, slot fulls j ≠ .empty → j = i
  · have only' : ∀ j, slot stack j ≠ .empty → j = i := fun j other => only j ((empties j).mp other)
    have here' := (empties i).mpr here
    by_cases blinded : IsBlinded (slot stack i)
    · obtain ⟨c, child⟩ := blinded
      have reveals := shown i
      rw [child] at reveals
      have stands : Stands c (slot fulls i) := by
        cases reveals
        assumption
      obtain ⟨hash, hinted⟩ := hintedKey_isSome (fits stands) i
      have inside := lt_length_of_slot here'
      have single := nonEmptyChildren_single here' only'
      rw [child] at single
      cases hint : hinter.hintAccountProof hash lastSlot with
      | error e => exact .inr ⟨c, single, .inl ⟨hash, e, hinted, hint⟩⟩
      | ok done =>
          rcases answers.reveal stands with ⟨node, unblinds, shown', clear⟩ | ⟨e, fails⟩
          · have shownSet : ∀ j, Reveals Stands (slot (stack.set i node) j) (slot fulls j) := by
              intro j
              rw [slot_set]
              split
              · rename_i at_i
                rw [← at_i.1]
                exact shown'
              · exact shown j
            have again := collapse_single prim fetcher hinter children shownSet below
              (by
                rw [slot_set_self inside, ← isEmpty_eq_false, shown'.isEmpty_eq answers, isEmpty_eq_false]
                exact here)
              (fun j other => by
                by_contra apart
                rw [slot_set_ne (Ne.symm apart)] at other
                exact apart (only' j other)) only
              (by rwa [slot_set_self inside]) lastSlot fuel walked
            rw [collapseIfPossible, single]
            simp only [hinted, hint, unblinds]
            exact .inl again
          · exact .inr ⟨c, single, .inr ⟨.error e, by rw [fails]⟩⟩
    · exact .inl (collapse_single _ _ _ children shown below here' only' only blinded lastSlot (fuel + 1) walked)
  · simp only [not_forall] at only
    obtain ⟨j, other, apart⟩ := only
    have two : ∃ a b, a < b ∧ b < 16 ∧ slot fulls a ≠ .empty ∧ slot fulls b ≠ .empty := by
      have below' : j < 16 := by
        by_contra above
        exact other (slot_above width noValue (Nat.le_of_not_lt above))
      rcases Nat.lt_or_gt_of_ne apart with order | order
      · exact ⟨j, i, order, below, other, here⟩
      · exact ⟨i, j, order, below', here, other⟩
    obtain ⟨a, b, order, bound, first, second⟩ := two
    have several := nonEmptyChildren_not_single order ((empties a).mpr first) ((empties b).mpr second)
    have stays : collapseIfPossible prim fetcher hinter lastSlot (fuel + 2) (.branch stack) walked =
        (.branch stack, .ok ()) := by
      rw [collapseIfPossible]
      split <;> first | rfl | (rename_i single; exact absurd single (several _))
    rw [stays]
    exact .inl ⟨.branch fulls, rfl, .branch sameWidth shown,
      .branch width noValue children ⟨a, b, order, bound, first, second⟩, fun _ _ => Iff.rfl, by rintro ⟨_, ⟨⟩⟩, by simp⟩

omit answers

/-- A deletion reaches the leaf of its key in a branch with one other child, which is blinded and cannot be
revealed. -/
inductive Stranded (prim : Primitives) (fetcher : TrieProvider) (hinter : TrieHinter) (lastSlot : Nat) :
    TrieNode → Nibbles → Nibbles → Prop
  | here {stack : List TrieNode} {nibble : UInt8} {rest walked : Nibbles} {value : Bytes} {commitment : B256} {index : Nat}
      (leaf : unblind prim fetcher (slot stack nibble.toNat) = (.leaf rest value, .ok ()))
      (single : nonEmptyChildren (stack.set nibble.toNat .empty) = [(.blinded commitment, index)])
      (unrevealed : Unrevealed prim fetcher hinter lastSlot walked commitment index) :
      Stranded prim fetcher hinter lastSlot (.branch stack) (nibble :: rest) walked
  | branch {stack : List TrieNode} {nibble : UInt8} {rest walked : Nibbles}
      (child : Stranded prim fetcher hinter lastSlot (slot stack nibble.toNat) rest (walked ++ [nibble])) :
      Stranded prim fetcher hinter lastSlot (.branch stack) (nibble :: rest) walked
  | extension {pfx rest walked : Nibbles} {child : TrieNode}
      (below : Stranded prim fetcher hinter lastSlot child rest (walked ++ pfx)) :
      Stranded prim fetcher hinter lastSlot (.extension pfx child) (pfx ++ rest) walked
  | blinded {commitment : B256} {shown : TrieNode} {path walked : Nibbles}
      (unblinds : unblind prim fetcher (.blinded commitment) = (shown, .ok ()))
      (inner : Stranded prim fetcher hinter lastSlot shown path walked) :
      Stranded prim fetcher hinter lastSlot (.blinded commitment) path walked

def DeleteLeaves (Stands : B256 → TrieNode → Prop) (n : Nat) (full : TrieNode) (path : Nibbles)
    (result : TrieNode × TrieNodeResult Unit) : Prop :=
  (∃ value, Holds full path value) ∧ (∃ full', result.2 = .ok () ∧ Reveals Stands result.1 full' ∧
    Canonical n full' ∧ (∀ k v, Holds full' k v ↔ k ≠ path ∧ Holds full k v) ∧
    ¬ IsBlinded result.1 ∧ (IsBranch full → full' ≠ .empty)) ∨
  (∀ value, ¬ Holds full path value) ∧ result.2 = .error (.error .keyNotFound) ∧
    Reveals Stands result.1 full

def DeleteCorrect (prim : Primitives) (fetcher : TrieProvider) (hinter : TrieHinter)
    (Stands : B256 → TrieNode → Prop) (n : Nat) (full : TrieNode) : Prop :=
  ∀ node path walked lastSlot fuel, Reveals Stands node full → path.length = n → Nibbles.Valid path →
    (∀ {c full}, Stands c full → walked.length + n = keyNibbles) → 2 * n + 2 ≤ fuel →
    DeleteLeaves Stands n full path (delete prim fetcher hinter lastSlot fuel node path walked)

/-- As `DeleteLeaves`, or the provider failed before anything was deleted. -/
def DeleteEnds (prim : Primitives) (fetcher : TrieProvider) (Stands : B256 → TrieNode → Prop) (n : Nat)
    (full : TrieNode) (path : Nibbles) (result : TrieNode × TrieNodeResult Unit) : Prop :=
  DeleteLeaves Stands n full path result ∨
    Fails prim fetcher Stands ∧ (∃ e, result.2 = .error (.error e)) ∧ Reveals Stands result.1 full

def DeleteReturns (prim : Primitives) (fetcher : TrieProvider) (hinter : TrieHinter)
    (Stands : B256 → TrieNode → Prop) (n : Nat) (full : TrieNode) : Prop :=
  ∀ node path walked lastSlot fuel, Reveals Stands node full → path.length = n → Nibbles.Valid path →
    (∀ {c full}, Stands c full → walked.length + n = keyNibbles) → 2 * n + 2 ≤ fuel →
    ¬ Stranded prim fetcher hinter lastSlot node path walked →
    DeleteEnds prim fetcher Stands n full path (delete prim fetcher hinter lastSlot fuel node path walked)

theorem Serves.not_stranded (serves : Serves prim fetcher hinter Stands) {lastSlot : Nat} {path walked : Nibbles}
    (reveals : Reveals Stands node full) : ¬ Stranded prim fetcher hinter lastSlot node path walked := by
  intro stranded
  induction stranded generalizing full with
  | @here stack nibble rest walked value commitment index leaf single unrevealed =>
      have member : (.blinded commitment, index) ∈ nonEmptyChildren (stack.set nibble.toNat .empty) := by
        rw [single]
        exact .head _
      have child := slot_of_mem member
      rw [slot_set] at child
      split at child
      · cases child
      · cases reveals with
        | branch width children =>
            have shown := children index
            rw [child] at shown
            cases shown with
            | blinded stands =>
                rcases unrevealed with ⟨hash, e, -, failed⟩ | ⟨stop, failed⟩
                · rw [serves.hint stands] at failed
                  cases failed
                · obtain ⟨shown, unblinds, -⟩ := serves.reveal stands
                  rw [unblinds] at failed
                  cases failed
  | @branch stack nibble rest walked child ih =>
      cases reveals with
      | branch width children => exact ih (children nibble.toNat)
  | extension below ih =>
      cases reveals with
      | extension child => exact ih child
  | blinded unblinds inner ih =>
      obtain ⟨shown, unblinds', reveals', -⟩ := unblind_spec serves reveals
      rw [unblinds] at unblinds'
      cases unblinds'
      exact ih reveals'

theorem unblind_deleted (answers : Answers prim fetcher Stands) {n lastSlot fuel : Nat} {path walked : Nibbles}
    (pathLength : path.length = n) (valid : path.Valid) (canonical : Canonical n full) (reveals : Reveals Stands node full)
    {value : Bytes} (holds : Holds full path value) (entries : ∀ k v, Holds .empty k v ↔ k ≠ path ∧ Holds full k v)
    (ok : (delete prim fetcher hinter lastSlot (fuel + 1) node path walked).2 = .ok ()) :
    unblind prim fetcher node = (.leaf path value, .ok ()) := by
  have alone : full = .leaf path value := by
    refine canonical_ext canonical (.leaf pathLength valid) fun k v => ?_
    rw [holds_leaf]
    constructor
    · intro held
      have here : k = path := by
        by_contra apart
        exact holds_empty ((entries k v).mpr ⟨apart, held⟩)
      subst here
      exact ⟨rfl, held.unique holds⟩
    · rintro ⟨rfl, rfl⟩
      exact holds
  subst alone
  cases reveals with
  | leaf => rfl
  | @blinded c _ stands =>
      rcases answers.reveal stands with ⟨shown, unblinds, reveals, clear⟩ | ⟨e, fails⟩
      · cases reveals with
        | leaf => exact unblinds
        | blinded => exact absurd ⟨_, rfl⟩ clear
      · rw [delete, fails] at ok
        cases ok

section

variable (answers : Answers prim fetcher Stands)

include answers

theorem deleteReturns_of_revealed {n : Nat}
    (revealed : ∀ node path walked lastSlot fuel, ¬ IsBlinded node → Reveals Stands node full →
      path.length = n → Nibbles.Valid path →
      (∀ {c full}, Stands c full → walked.length + n = keyNibbles) → 2 * n ≤ fuel →
      ¬ Stranded prim fetcher hinter lastSlot node path walked →
      DeleteEnds prim fetcher Stands n full path
        (delete prim fetcher hinter lastSlot (fuel + 1) node path walked)) :
    DeleteReturns prim fetcher hinter Stands n full := by
  intro node path walked lastSlot fuel reveals pathLength valid fits enough safe
  obtain ⟨fuel, rfl⟩ : ∃ k, fuel = k + 2 := ⟨fuel - 2, by omega⟩
  by_cases blinded : IsBlinded node
  · obtain ⟨c, rfl⟩ := blinded
    rcases unblind_cases answers reveals with ⟨node, unblinds, shown, clear⟩ | ⟨⟨c, e, -, failed⟩, fails⟩
    · rw [delete, unblinds]
      exact revealed node path walked lastSlot fuel clear shown pathLength valid fits (by omega)
        fun stranded => safe (.blinded unblinds stranded)
    · rw [delete, failed]
      exact .inr ⟨fails, ⟨e, rfl⟩, reveals⟩
  · exact revealed node path walked lastSlot (fuel + 1) blinded reveals pathLength valid fits (by omega) safe

theorem delete_returns {n : Nat} (canonical : Canonical n full) :
    DeleteReturns prim fetcher hinter Stands n full := by
  induction canonical with
  | empty =>
      apply deleteReturns_of_revealed answers
      intro node path walked lastSlot fuel clear reveals pathLength valid fits enough safe
      cases reveals with
      | blinded => exact absurd ⟨_, rfl⟩ clear
      | empty => exact .inl (.inr ⟨by simp, rfl, .empty⟩)
  | @leaf n pfx leafValue leafLength leafValid =>
      apply deleteReturns_of_revealed answers
      intro node path walked lastSlot fuel clear reveals pathLength valid fits enough safe
      cases reveals with
      | blinded => exact absurd ⟨_, rfl⟩ clear
      | leaf =>
          by_cases same : path = pfx
          · subst same
            refine .inl (.inl ⟨⟨leafValue, .leaf⟩, .empty, by simp [delete], by simpa [delete] using .empty, .empty,
              fun k v => ?_, ?_, ?_⟩)
            · simp only [holds_empty, holds_leaf, false_iff]
              rintro ⟨apart, here, _⟩
              exact apart here
            · rintro ⟨c, blinded⟩
              simp [delete] at blinded
            · rintro ⟨_, ⟨⟩⟩
          · exact .inl (.inr ⟨by simp [same], by simp [delete, same], by simpa [delete, same] using .leaf⟩)
  | @extension n pfx stack nonempty pfxValid child ih =>
      apply deleteReturns_of_revealed answers
      intro node path walked lastSlot fuel clear reveals pathLength valid fits enough safe
      have positive : 0 < pfx.length := List.length_pos_iff.mpr nonempty
      obtain ⟨m, rfl, -⟩ := child.branch_inv
      cases reveals with
      | blinded => exact absurd ⟨_, rfl⟩ clear
      | @extension _ node _ shown =>
          rcases prefix_or_diverge path pfx with ⟨more, longer⟩ | ⟨rest, rfl⟩ |
            ⟨front, x, y, rest, old, differ, rfl, rfl⟩
          · have := congrArg List.length longer
            simp only [List.length_append] at this
            omega
          · have restLength : rest.length = m + 1 := by simpa using pathLength
            have restValid : Nibbles.Valid rest := fun nibble member => valid nibble (by simp [member])
            have inner := ih node rest (walked ++ pfx) lastSlot fuel shown restLength restValid
              (fun stands => by simpa [Nat.add_assoc] using fits stands) (by omega)
              fun stranded => safe (.extension stranded)
            have notAll : pfx.length ≠ (pfx ++ rest).length := by simp [restLength]
            simp only [delete, commonPrefixLength_front, Nat.lt_irrefl, if_false, if_neg notAll, sliceFrom_append]
            generalize delete prim fetcher hinter lastSlot fuel node rest (walked ++ pfx) = deleted at inner
            obtain ⟨node', result⟩ := deleted
            rcases inner with (⟨⟨value, holds⟩, full', rfl, shown', canonical', entries, clear', left⟩ |
              ⟨absent, rfl, shown'⟩) | ⟨fails, ⟨e, rfl⟩, shown'⟩
            · obtain ⟨fuel, rfl⟩ : ∃ k, fuel = k + 1 := ⟨fuel - 1, by omega⟩
              obtain ⟨full'', ok, shown'', canonical'', same, clear'', nonempty''⟩ :=
                collapse_extension prim fetcher hinter nonempty pfxValid
                  canonical' (left ⟨stack, rfl⟩) shown' clear' lastSlot fuel walked
              refine .inl (.inl ⟨⟨value, .extension holds⟩, full'', ok, shown'', canonical'', fun k v => ?_,
                clear'', fun _ => nonempty''⟩)
              rw [same]
              simp only [holds_extension, entries]
              constructor
              · rintro ⟨r, rfl, apart, inside⟩
                exact ⟨fun here => apart (List.append_cancel_left here), r, rfl, inside⟩
              · rintro ⟨apart, r, rfl, inside⟩
                exact ⟨r, rfl, fun here => apart (by rw [here]), inside⟩
            · exact .inl (.inr ⟨by simpa using absent, rfl, .extension shown'⟩)
            · exact .inr ⟨fails, ⟨e, rfl⟩, .extension shown'⟩
          · have short : front.length < (front ++ y :: old).length := by simp
            refine .inl (.inr ⟨fun value holds => ?_, ?_, ?_⟩)
            · obtain ⟨r, same, -⟩ := holds_extension.mp holds
              rw [List.append_assoc] at same
              exact absurd (List.cons.inj (List.append_cancel_left same)).1 differ
            · simp [delete, commonPrefixLength_diverge differ]
            · simpa [delete, commonPrefixLength_diverge differ] using Reveals.extension shown
  | @branch n stack width noValue children two ih =>
      apply deleteReturns_of_revealed answers
      intro node path walked lastSlot fuel clear reveals pathLength valid fits enough safe
      cases path with
      | nil => simp at pathLength
      | cons nibble rest =>
          have below : nibble.toNat < 16 := valid nibble (by simp)
          have restValid : Nibbles.Valid rest := fun x member => valid x (by simp [member])
          have inside : nibble.toNat < stack.length := by
            rw [width, branchListLength]
            omega
          cases reveals with
          | blinded => exact absurd ⟨_, rfl⟩ clear
          | @branch shown _ sameWidth shownChildren =>
              have lookup : shown[nibble.toNat]? = some (slot shown nibble.toNat) :=
                getElem?_eq_slot (sameWidth ▸ inside)
              have inner := ih _ below _ rest (walked ++ [nibble]) lastSlot fuel
                (shownChildren nibble.toNat) (by simpa using pathLength) restValid
                (fun stands => by
                  have := fits stands
                  simp only [List.length_append, List.length_singleton]
                  omega) (by omega) fun stranded => safe (.branch stranded)
              obtain ⟨fuel, rfl⟩ : ∃ k, fuel = k + 2 := ⟨fuel - 2, by omega⟩
              have leafHere : ∀ value, Holds (slot stack nibble.toNat) rest value →
                  (∀ k v, Holds .empty k v ↔ k ≠ rest ∧ Holds (slot stack nibble.toNat) k v) →
                  (delete prim fetcher hinter lastSlot (fuel + 2) (slot shown nibble.toNat) rest (walked ++ [nibble])).2 =
                    .ok () → unblind prim fetcher (slot shown nibble.toNat) = (.leaf rest value, .ok ()) :=
                fun value => unblind_deleted answers (by simpa using pathLength) restValid (children _ below)
                  (shownChildren nibble.toNat)
              rw [delete, lookup]
              simp only
              generalize delete prim fetcher hinter lastSlot (fuel + 2) (slot shown nibble.toNat) rest
                (walked ++ [nibble]) = deleted at inner leafHere
              obtain ⟨node', result⟩ := deleted
              rcases inner with (⟨⟨value, holds⟩, full', rfl, shown', canonical', entries, clear', -⟩ |
                ⟨absent, rfl, shown'⟩) | ⟨fails, ⟨e, rfl⟩, shown'⟩
              · -- One of the two children a canonical branch has is not the one that was changed.
                obtain ⟨i, bound, apart, here⟩ : ∃ i < 16, i ≠ nibble.toNat ∧ slot stack i ≠ .empty := by
                  obtain ⟨i, j, order, bound, first, second⟩ := two
                  by_cases changed : i = nibble.toNat
                  · exact ⟨j, bound, by omega, second⟩
                  · exact ⟨i, by omega, changed, first⟩
                have setReveals := reveals_set sameWidth shownChildren shown' nibble.toNat
                cases setReveals with
                | branch setWidth setChildren =>
                    have setCanonical : ∀ j < 16, Canonical n (slot (stack.set nibble.toNat full') j) := by
                      intro j bound
                      rw [slot_set]
                      split
                      · exact canonical'
                      · exact children j bound
                    have fits' : ∀ {c full}, Stands c full → walked.length + 1 ≤ keyNibbles := by
                      intro c full stands
                      have := fits stands
                      omega
                    rcases collapse_branch answers (by simpa using width) (by rw [slot_set_ne (by omega), noValue])
                      setCanonical setWidth setChildren bound (by rwa [slot_set_ne (Ne.symm apart)]) fits'
                      lastSlot fuel with ⟨full'', ok, shown'', canonical'', same, clear'', nonempty''⟩ |
                        ⟨c, single, unrevealed⟩
                    · refine .inl (.inl ⟨⟨value, .branch holds⟩, full'', ok, shown'', canonical'', fun k v => ?_, clear'',
                        fun _ => nonempty''⟩)
                      rw [same]
                      cases k with
                      | nil => simp
                      | cons x r =>
                          rw [holds_branch_cons, holds_branch_cons]
                          by_cases here : x = nibble
                          · subst here
                            rw [slot_set_self inside, entries]
                            simp
                          · rw [slot_set_ne (toNat_ne (Ne.symm here))]
                            simp [here]
                    -- With one child left, the slot of the key is empty, and so it held the leaf.
                    · have cleared : node' = .empty := by
                        by_contra nonempty
                        have member : (slot (shown.set nibble.toNat node') nibble.toNat, nibble.toNat) ∈
                            nonEmptyChildren (shown.set nibble.toNat node') :=
                          slot_mem_nonEmptyChildren (by rwa [slot_set_self (sameWidth ▸ inside)])
                        rw [single, List.mem_singleton] at member
                        exact apart (congrArg Prod.snd member).symm
                      subst cleared
                      cases shown' with
                      | empty => exact absurd (.here (leafHere value holds entries rfl) single unrevealed) safe
              · refine .inl (.inr ⟨by simpa using absent, rfl, ?_⟩)
                simpa only [set_slot] using reveals_set sameWidth shownChildren shown' nibble.toNat
              · refine .inr ⟨fails, ⟨e, rfl⟩, ?_⟩
                simpa only [set_slot] using reveals_set sameWidth shownChildren shown' nibble.toNat

end

theorem delete_spec (serves : Serves prim fetcher hinter Stands) {n : Nat} (canonical : Canonical n full) :
    DeleteCorrect prim fetcher hinter Stands n full := by
  intro node path walked lastSlot fuel reveals pathLength valid fits enough
  rcases delete_returns serves.answers canonical node path walked lastSlot fuel reveals pathLength valid fits enough
    (serves.not_stranded reveals) with leaves | ⟨fails, -⟩
  · exact leaves
  · exact absurd fails serves.not_fails

end

end TrieNode

end KonaSoon.Mpt
