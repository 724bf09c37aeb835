import KonaSoon.Mpt.Partial

namespace KonaSoon.Mpt
open Lib

namespace TrieNode

def IsBranch (node : TrieNode) : Prop := ∃ stack, node = .branch stack

section

variable {Stands : B256 → TrieNode → Prop} {node full : TrieNode}

def forked (x y : UInt8) (left right : TrieNode) : List TrieNode :=
  ((List.replicate branchListLength .empty).set y.toNat right).set x.toNat left

theorem slot_forked {x y : UInt8} (below : x.toNat < 16) (below' : y.toNat < 16)
    (left right : TrieNode) (i : Nat) : slot (forked x y left right) i =
      if x.toNat = i then left else if y.toNat = i then right else .empty := by
  simp only [forked, slot_set, slot_replicate, List.length_set, List.length_replicate]
  have inside : x.toNat < branchListLength ∧ y.toNat < branchListLength := by
    unfold branchListLength
    omega
  simp [inside]

theorem forked_reveals {x y : UInt8} (below : x.toNat < 16) (below' : y.toNat < 16)
    {left right left' right' : TrieNode} (shown : Reveals Stands left left')
    (shown' : Reveals Stands right right') :
    Reveals Stands (.branch (forked x y left right)) (.branch (forked x y left' right')) := by
  refine .branch (by simp [forked]) fun i => ?_
  rw [slot_forked below below', slot_forked below below']
  split
  · exact shown
  · split
    · exact shown'
    · exact .empty

theorem toNat_ne {x y : UInt8} (differ : x ≠ y) : x.toNat ≠ y.toNat :=
  fun same => differ (UInt8.toNat_inj.mp same)

theorem forked_canonical {n : Nat} {x y : UInt8} (differ : x ≠ y) (below : x.toNat < 16)
    (below' : y.toNat < 16) {left right : TrieNode} (leftCanonical : Canonical n left)
    (rightCanonical : Canonical n right) (leftFull : left ≠ .empty) (rightFull : right ≠ .empty) :
    Canonical (n + 1) (.branch (forked x y left right)) := by
  have apart := toNat_ne differ
  refine .branch (by simp [forked]) ?_ ?_ ?_
  · rw [slot_forked below below', if_neg (by omega), if_neg (by omega)]
  · intro i _
    rw [slot_forked below below']
    split
    · exact leftCanonical
    · split
      · exact rightCanonical
      · exact .empty
  · have atX : slot (forked x y left right) x.toNat ≠ .empty := by
      rwa [slot_forked below below', if_pos rfl]
    have atY : slot (forked x y left right) y.toNat ≠ .empty := by
      rwa [slot_forked below below', if_neg apart, if_pos rfl]
    rcases Nat.lt_or_gt_of_ne apart with order | order
    · exact ⟨_, _, order, below', atX, atY⟩
    · exact ⟨_, _, order, below, atY, atX⟩

theorem holds_forked {x y : UInt8} (differ : x ≠ y) (below : x.toNat < 16) (below' : y.toNat < 16)
    {left right : TrieNode} {path : Nibbles} {value : Bytes} :
    Holds (.branch (forked x y left right)) path value ↔
      (∃ rest, path = x :: rest ∧ Holds left rest value) ∨
      (∃ rest, path = y :: rest ∧ Holds right rest value) := by
  cases path with
  | nil => simp
  | cons nibble rest =>
      rw [holds_branch_cons, slot_forked below below']
      simp only [UInt8.toNat_inj, List.cons.injEq, and_assoc]
      by_cases left_here : x = nibble
      · subst left_here
        simp [differ]
      · by_cases right_here : y = nibble
        · subst right_here
          simp [left_here]
          exact fun same => absurd same.symm differ
        · simp [left_here, right_here, eq_comm]

def behind (front : Nibbles) (node : TrieNode) : TrieNode :=
  if front = [] then node else .extension front node

theorem holds_behind {front path : Nibbles} {value : Bytes} :
    Holds (behind front node) path value ↔ ∃ rest, path = front ++ rest ∧ Holds node rest value := by
  unfold behind
  split
  · rename_i nothing
    simp [nothing]
  · exact holds_extension

theorem behind_canonical {n : Nat} {front : Nibbles} {stack : List TrieNode} (valid : front.Valid)
    (canonical : Canonical n (.branch stack)) :
    Canonical (front.length + n) (behind front (.branch stack)) := by
  unfold behind
  split
  · rename_i nothing
    simpa [nothing] using canonical
  · rename_i something
    exact .extension something valid canonical

theorem behind_reveals (front : Nibbles) (shown : Reveals Stands node full) :
    Reveals Stands (behind front node) (behind front full) := by
  unfold behind
  split
  · exact shown
  · exact .extension shown

theorem split_eq {front rest old : Nibbles} {x y : UInt8} (below : x.toNat < 16) (below' : y.toNat < 16)
    (shorten : Nibbles → TrieNode) (value : Bytes) :
    split (front ++ x :: rest) (front ++ y :: old) front.length shorten value =
      some (behind front (.branch (forked x y (.leaf rest value) (shorten old)))) := by
  have inside : x.toNat < branchListLength ∧ y.toNat < branchListLength := by
    unfold branchListLength
    omega
  have nibbles : (front ++ y :: old)[front.length]? = some y ∧
      (front ++ x :: rest)[front.length]? = some x := by simp
  simp only [split, nibbles, sliceFrom_append_cons, sliceTo_append, setSlot, List.length_replicate,
    List.length_set, inside, if_true, Option.bind_eq_bind, Option.bind_some]
  cases front with
  | nil => simp [behind, forked]
  | cons z front => simp [behind, forked]

theorem split_spec {n : Nat} {front rest old : Nibbles} {x y : UInt8} (differ : x ≠ y)
    (pathValid : Nibbles.Valid (front ++ x :: rest)) (oldValid : Nibbles.Valid (front ++ y :: old))
    (restLength : rest.length = n) (shorten : Nibbles → TrieNode) (shown : Reveals Stands (shorten old) full)
    (canonical : Canonical n full) (nonempty : full ≠ .empty) (value : Bytes) :
    ∃ node' full', split (front ++ x :: rest) (front ++ y :: old) front.length shorten value = some node' ∧
      Reveals Stands node' full' ∧ Canonical (front.length + (n + 1)) full' ∧
      ∀ k v, Holds full' k v ↔
        if k = front ++ x :: rest then v = value else ∃ r, k = front ++ y :: r ∧ Holds full r v := by
  have below : x.toNat < 16 := pathValid x (by simp)
  have below' : y.toNat < 16 := oldValid y (by simp)
  have frontValid : Nibbles.Valid front := fun nibble member => pathValid nibble (by simp [member])
  have restValid : Nibbles.Valid rest := fun nibble member => pathValid nibble (by simp [member])
  refine ⟨_, behind front (.branch (forked x y (.leaf rest value) full)), split_eq below below' shorten value,
    behind_reveals front (forked_reveals below below' .leaf shown),
    behind_canonical frontValid
      (forked_canonical differ below below' (.leaf restLength restValid) canonical nofun nonempty), ?_⟩
  intro k v
  simp only [holds_behind, holds_forked differ below below', holds_leaf]
  split
  · rename_i here
    subst here
    constructor
    · rintro ⟨tail, same, ⟨r, rfl, rfl, rfl⟩ | ⟨r, rfl, -⟩⟩
      · rfl
      · exact absurd (List.cons.inj (List.append_cancel_left same)).1 differ
    · rintro rfl
      exact ⟨_, rfl, Or.inl ⟨rest, rfl, rfl, rfl⟩⟩
  · rename_i elsewhere
    constructor
    · rintro ⟨tail, rfl, ⟨r, rfl, rfl, rfl⟩ | ⟨r, rfl, holds⟩⟩
      · exact absurd rfl elsewhere
      · exact ⟨r, rfl, holds⟩
    · rintro ⟨r, rfl, holds⟩
      exact ⟨_, rfl, Or.inr ⟨r, rfl, holds⟩⟩

def InsertLeaves (Stands : B256 → TrieNode → Prop) (n : Nat) (full : TrieNode) (path : Nibbles)
    (value : Bytes) (result : TrieNode × TrieNodeResult Unit) : Prop :=
  ∃ full', result.2 = .ok () ∧ Reveals Stands result.1 full' ∧ Canonical n full' ∧
    (∀ k v, Holds full' k v ↔ if k = path then v = value else Holds full k v) ∧
    (IsBranch full → IsBranch full')

theorem InsertLeaves.nonempty {full' : TrieNode} {path : Nibbles} {value : Bytes}
    (entries : ∀ k v, Holds full' k v ↔ if k = path then v = value else Holds full k v) :
    full' ≠ .empty := by
  rintro rfl
  simpa using (entries path value)

def InsertCorrect (prim : Primitives) (fetcher : TrieProvider) (Stands : B256 → TrieNode → Prop)
    (n : Nat) (full : TrieNode) : Prop :=
  ∀ node path value fuel, Reveals Stands node full → path.length = n → Nibbles.Valid path →
    2 * n + 2 ≤ fuel → InsertLeaves Stands n full path value (insert prim fetcher fuel node path value)

variable {prim : Primitives} {fetcher : TrieProvider} {hinter : TrieHinter}
  (serves : Serves prim fetcher hinter Stands)

include serves

theorem insertCorrect_of_revealed {n : Nat}
    (revealed : ∀ node path value fuel, ¬ IsBlinded node → Reveals Stands node full →
      path.length = n → Nibbles.Valid path → 2 * n ≤ fuel →
      InsertLeaves Stands n full path value (insert prim fetcher (fuel + 1) node path value)) :
    InsertCorrect prim fetcher Stands n full := by
  intro node path value fuel reveals pathLength valid enough
  obtain ⟨fuel, rfl⟩ : ∃ k, fuel = k + 2 := ⟨fuel - 2, by omega⟩
  by_cases blinded : IsBlinded node
  · obtain ⟨c, rfl⟩ := blinded
    obtain ⟨node, unblinds, shown, clear⟩ := unblind_spec serves reveals
    rw [insert, unblinds]
    exact revealed node path value fuel clear shown pathLength valid (by omega)
  · exact revealed node path value (fuel + 1) blinded reveals pathLength valid (by omega)

theorem insert_spec {n : Nat} (canonical : Canonical n full) :
    InsertCorrect prim fetcher Stands n full := by
  -- The induction is on the trie that the partial one stands for, which revealing a node does not change.
  induction canonical with
  | empty =>
      apply insertCorrect_of_revealed serves
      intro node path value fuel clear reveals pathLength valid enough
      cases reveals with
      | blinded => exact absurd ⟨_, rfl⟩ clear
      | empty =>
          refine ⟨.leaf path value, rfl, .leaf, .leaf pathLength valid, fun k v => ?_, ?_⟩
          · simp only [holds_leaf, holds_empty]
            split <;> simp_all
          · rintro ⟨_, ⟨⟩⟩
  | @leaf n pfx leafValue leafLength leafValid =>
      apply insertCorrect_of_revealed serves
      intro node path value fuel clear reveals pathLength valid enough
      cases reveals with
      | blinded => exact absurd ⟨_, rfl⟩ clear
      | leaf =>
          by_cases same : path = pfx
          · subst same
            refine ⟨.leaf path value, by simp [insert], by simpa [insert] using .leaf,
              .leaf pathLength valid, fun k v => ?_, ?_⟩
            · simp only [holds_leaf]
              split <;> simp_all
            · rintro ⟨_, ⟨⟩⟩
          · obtain ⟨front, x, y, rest, old, differ, rfl, rfl⟩ :=
              diverge_of_ne (pathLength.trans leafLength.symm) same
            have restLength : rest.length = old.length := by
              simp only [List.length_append, List.length_cons] at pathLength leafLength
              omega
            have oldValid : Nibbles.Valid old := fun nibble member => leafValid nibble (by simp [member])
            have shortened : Reveals Stands (.leaf old leafValue) (.leaf old leafValue) := .leaf
            obtain ⟨node', full', splits, shown, canonical, entries⟩ := split_spec differ valid leafValid restLength
              (.leaf · leafValue) shortened (.leaf rfl oldValid) (by simp) value
            have lengths : front.length + (old.length + 1) = n := by
              simpa using leafLength
            refine ⟨full', ?_, ?_, lengths ▸ canonical, fun k v => ?_, ?_⟩
            · simp [insert, same, commonPrefixLength_diverge differ, splits]
            · simpa [insert, same, commonPrefixLength_diverge differ, splits] using shown
            · rw [entries]
              split
              · rfl
              · simp only [holds_leaf]
                constructor
                · rintro ⟨r, at_k, r_eq, v_eq⟩
                  exact ⟨r_eq ▸ at_k, v_eq⟩
                · rintro ⟨at_k, v_eq⟩
                  exact ⟨old, at_k, rfl, v_eq⟩
            · rintro ⟨_, ⟨⟩⟩
  | @extension n pfx stack nonempty pfxValid child ih =>
      apply insertCorrect_of_revealed serves
      intro node path value fuel clear reveals pathLength valid enough
      have positive : 0 < pfx.length := List.length_pos_iff.mpr nonempty
      cases reveals with
      | blinded => exact absurd ⟨_, rfl⟩ clear
      | @extension _ node _ shown =>
          rcases prefix_or_diverge path pfx with ⟨more, longer⟩ | ⟨rest, rfl⟩ |
            ⟨front, x, y, rest, old, differ, rfl, rfl⟩
          · -- A branch below has at least one nibble left, so the prefix never covers the whole path.
            obtain ⟨m, rfl, -⟩ := child.branch_inv
            have := congrArg List.length longer
            simp only [List.length_append] at this
            omega
          · have restLength : rest.length = n := by simpa using pathLength
            have restValid : Nibbles.Valid rest := fun nibble member => valid nibble (by simp [member])
            obtain ⟨full', ok, shown', canonical', entries, branches⟩ :=
              ih node rest value fuel shown restLength restValid (by omega)
            obtain ⟨stack', rfl⟩ := branches ⟨stack, rfl⟩
            refine ⟨.extension pfx (.branch stack'), ?_, ?_, .extension nonempty pfxValid canonical',
              fun k v => ?_, ?_⟩
            · simpa [insert] using ok
            · simpa [insert] using Reveals.extension shown'
            · simp only [holds_extension, entries]
              constructor
              · rintro ⟨r, rfl, holds⟩
                by_cases here : r = rest
                · simpa [here] using holds
                · simpa [here] using holds
              · intro holds
                split at holds
                · rename_i here
                  exact ⟨rest, here, by simpa using holds⟩
                · rename_i elsewhere
                  obtain ⟨r, rfl, inside⟩ := holds
                  have : r ≠ rest := fun same => elsewhere (by rw [same])
                  exact ⟨r, rfl, by simpa [this] using inside⟩
            · rintro ⟨_, ⟨⟩⟩
          · have restLength : rest.length = old.length + n := by
              simp only [List.length_append, List.length_cons] at pathLength
              omega
            have oldValid : Nibbles.Valid old := fun nibble member => pfxValid nibble (by simp [member])
            have notAll : front.length ≠ (front ++ y :: old).length := by simp
            obtain ⟨node', full', splits, shown', canonical', entries⟩ := split_spec differ valid pfxValid restLength
              (fun rest => if rest = [] then node else .extension rest node) (behind_reveals old shown) (behind_canonical oldValid child)
              (by unfold behind; split <;> simp) value
            have lengths : front.length + (old.length + n + 1) = (front ++ y :: old).length + n := by
              simp only [List.length_append, List.length_cons]
              omega
            refine ⟨full', ?_, ?_, lengths ▸ canonical', fun k v => ?_, ?_⟩
            · simp [insert, commonPrefixLength_diverge differ, splits]
            · simpa [insert, commonPrefixLength_diverge differ, splits] using shown'
            · rw [entries]
              split
              · rfl
              · simp only [holds_behind, holds_extension, List.append_assoc, List.cons_append]
                constructor
                · rintro ⟨r, rfl, r', rfl, holds⟩
                  exact ⟨r', rfl, holds⟩
                · rintro ⟨r', rfl, holds⟩
                  exact ⟨_, rfl, r', rfl, holds⟩
            · rintro ⟨_, ⟨⟩⟩
  | @branch n stack width noValue children two ih =>
      apply insertCorrect_of_revealed serves
      intro node path value fuel clear reveals pathLength valid enough
      cases path with
      | nil => simp at pathLength
      | cons nibble rest =>
          have below : nibble.toNat < 16 := valid nibble (by simp)
          have restValid : Nibbles.Valid rest := fun x member => valid x (by simp [member])
          have inside : nibble.toNat < stack.length := by
            rw [width, branchListLength]
            omega
          cases reveals with
          | blinded => exact absurd ⟨_, rfl⟩ clear
          | @branch shown _ sameWidth shownChildren =>
              obtain ⟨full', ok, shown', canonical', entries, -⟩ := ih _ below _ rest value fuel
                (shownChildren nibble.toNat) (by simpa using pathLength) restValid (by omega)
              have lookup : shown[nibble.toNat]? = some (slot shown nibble.toNat) :=
                getElem?_eq_slot (sameWidth ▸ inside)
              refine ⟨.branch (stack.set nibble.toNat full'), ?_, ?_, ?_, fun k v => ?_, fun _ => ⟨_, rfl⟩⟩
              · simpa [insert, lookup] using ok
              · simpa [insert, lookup] using reveals_set sameWidth shownChildren shown' nibble.toNat
              · refine .branch (by simpa using width) ?_ ?_ ?_
                · rw [slot_set_ne (by omega), noValue]
                · intro i bound
                  rw [slot_set]
                  split
                  · exact canonical'
                  · exact children i bound
                · obtain ⟨i, j, order, bound, first, second⟩ := two
                  have kept : ∀ m, slot stack m ≠ .empty → slot (stack.set nibble.toNat full') m ≠ .empty := by
                    intro m here
                    rw [slot_set]
                    split
                    · exact InsertLeaves.nonempty entries
                    · exact here
                  exact ⟨i, j, order, bound, kept i first, kept j second⟩
              · cases k with
                | nil => simp
                | cons x r =>
                    rw [holds_branch_cons, holds_branch_cons]
                    by_cases here : x = nibble
                    · subst here
                      rw [slot_set_self inside, entries]
                      simp
                    · rw [slot_set_ne (toNat_ne (Ne.symm here))]
                      simp [here]

end

end TrieNode

end KonaSoon.Mpt
