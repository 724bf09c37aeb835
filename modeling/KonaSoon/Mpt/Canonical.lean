import KonaSoon.Mpt.Node

namespace KonaSoon.Mpt
open Lib

namespace TrieNode

@[simp] theorem slot_nil (i : Nat) : slot [] i = .empty := by simp [slot]

theorem slot_set (stack : List TrieNode) (i j : Nat) (node : TrieNode) :
    slot (stack.set i node) j = if i = j ∧ i < stack.length then node else slot stack j := by
  unfold slot
  rw [List.getD_eq_getElem?_getD, List.getD_eq_getElem?_getD, List.getElem?_set]
  by_cases same : i = j
  · subst same
    by_cases inside : i < stack.length
    · simp [inside]
    · simp [inside]
  · simp [same]

theorem slot_set_self {stack : List TrieNode} {i : Nat} (inside : i < stack.length)
    (node : TrieNode) : slot (stack.set i node) i = node := by
  rw [slot_set, if_pos ⟨rfl, inside⟩]

theorem slot_set_ne {i j : Nat} (differ : i ≠ j) (stack : List TrieNode) (node : TrieNode) :
    slot (stack.set i node) j = slot stack j := by
  rw [slot_set, if_neg (fun both => differ both.1)]

@[simp] theorem slot_replicate (n i : Nat) : slot (List.replicate n .empty) i = .empty := by
  unfold slot
  rw [List.getD_eq_getElem?_getD, List.getElem?_replicate]
  split <;> rfl

theorem getElem?_eq_slot {stack : List TrieNode} {i : Nat} (inside : i < stack.length) :
    stack[i]? = some (slot stack i) := by
  simp [slot, List.getD_eq_getElem?_getD, List.getElem?_eq_getElem inside]

theorem slot_outside {stack : List TrieNode} {i : Nat} (outside : stack.length ≤ i) :
    slot stack i = .empty := by
  simp [slot, List.getD_eq_getElem?_getD, List.getElem?_eq_none outside]

theorem set_slot (stack : List TrieNode) (i : Nat) : stack.set i (slot stack i) = stack := by
  apply List.ext_getElem?
  intro j
  rw [List.getElem?_set]
  by_cases same : i = j
  · subst same
    by_cases inside : i < stack.length
    · rw [if_pos rfl, if_pos inside, getElem?_eq_slot inside]
    · simp [inside]
  · simp [same]

theorem stack_ext {stack stack' : List TrieNode} (sameLength : stack.length = stack'.length)
    (slots : ∀ i, slot stack i = slot stack' i) : stack = stack' := by
  apply List.ext_getElem sameLength
  intro i inside inside'
  have left := getElem?_eq_slot inside
  have right := getElem?_eq_slot inside'
  rw [List.getElem?_eq_getElem inside] at left
  rw [List.getElem?_eq_getElem inside', ← slots i, ← left] at right
  exact (Option.some.inj right).symm

/-- `node.Holds path value`: the trie below `node` has `value` at `path`. -/
inductive Holds : TrieNode → Nibbles → Bytes → Prop
  | leaf {pfx value} : Holds (.leaf pfx value) pfx value
  | extension {pfx node path value} (inside : Holds node path value) :
      Holds (.extension pfx node) (pfx ++ path) value
  | branch {stack nibble path value} (inside : Holds (slot stack nibble.toNat) path value) :
      Holds (.branch stack) (nibble :: path) value

@[simp] theorem holds_empty {path : Nibbles} {value : Bytes} : ¬ Holds .empty path value := nofun

@[simp] theorem holds_leaf {pfx path : Nibbles} {leafValue value : Bytes} :
    Holds (.leaf pfx leafValue) path value ↔ path = pfx ∧ value = leafValue :=
  ⟨fun | .leaf => ⟨rfl, rfl⟩, fun ⟨samePath, sameValue⟩ => samePath ▸ sameValue ▸ .leaf⟩

theorem holds_extension {pfx path : Nibbles} {node : TrieNode} {value : Bytes} :
    Holds (.extension pfx node) path value ↔ ∃ rest, path = pfx ++ rest ∧ Holds node rest value :=
  ⟨fun | .extension inside => ⟨_, rfl, inside⟩, fun ⟨_, same, inside⟩ => same ▸ .extension inside⟩

@[simp] theorem holds_extension_append {pfx path : Nibbles} {node : TrieNode} {value : Bytes} :
    Holds (.extension pfx node) (pfx ++ path) value ↔ Holds node path value := by
  rw [holds_extension]
  exact ⟨fun ⟨_, same, inside⟩ => List.append_cancel_left same ▸ inside, fun inside => ⟨_, rfl, inside⟩⟩

@[simp] theorem holds_branch_nil {stack : List TrieNode} {value : Bytes} :
    ¬ Holds (.branch stack) [] value := nofun

@[simp] theorem holds_branch_cons {stack : List TrieNode} {nibble : UInt8} {path : Nibbles}
    {value : Bytes} :
    Holds (.branch stack) (nibble :: path) value ↔ Holds (slot stack nibble.toNat) path value :=
  ⟨fun | .branch inside => inside, .branch⟩

theorem Holds.unique {node : TrieNode} {path : Nibbles} {value value' : Bytes}
    (first : Holds node path value) (second : Holds node path value') : value = value' := by
  induction first with
  | leaf => exact (holds_leaf.mp second).2.symm
  | extension _ ih => exact ih (holds_extension_append.mp second)
  | branch _ ih => exact ih (holds_branch_cons.mp second)

/-- The compact tries of keys that have `n` nibbles left. -/
inductive Canonical : Nat → TrieNode → Prop
  | empty {n} : Canonical n .empty
  | leaf {n : Nat} {pfx : Nibbles} {value : Bytes} (pathLength : pfx.length = n) (valid : pfx.Valid) :
      Canonical n (.leaf pfx value)
  | extension {n : Nat} {pfx : Nibbles} {stack : List TrieNode} (nonempty : pfx ≠ []) (valid : pfx.Valid)
      (child : Canonical n (.branch stack)) :
      Canonical (pfx.length + n) (.extension pfx (.branch stack))
  | branch {n : Nat} {stack : List TrieNode} (width : stack.length = branchListLength) (noValue : slot stack 16 = .empty)
      (children : ∀ i < 16, Canonical n (slot stack i))
      (two : ∃ i j, i < j ∧ j < 16 ∧ slot stack i ≠ .empty ∧ slot stack j ≠ .empty) :
      Canonical (n + 1) (.branch stack)

theorem Canonical.branch_inv {m : Nat} {stack : List TrieNode} (canonical : Canonical m (.branch stack)) :
    ∃ n, m = n + 1 ∧ stack.length = branchListLength ∧ slot stack 16 = .empty ∧
      (∀ i < 16, Canonical n (slot stack i)) ∧
      ∃ i j, i < j ∧ j < 16 ∧ slot stack i ≠ .empty ∧ slot stack j ≠ .empty := by
  cases canonical with
  | branch width noValue children two => exact ⟨_, rfl, width, noValue, children, two⟩

theorem slot_above {stack : List TrieNode} (width : stack.length = branchListLength)
    (noValue : slot stack 16 = .empty) {i : Nat} (above : 16 ≤ i) : slot stack i = .empty := by
  rcases Nat.eq_or_lt_of_le above with rfl | beyond
  · exact noValue
  · exact slot_outside (by simp only [width, branchListLength]; omega)

theorem Canonical.path {n : Nat} {node : TrieNode} (canonical : Canonical n node) {path : Nibbles}
    {value : Bytes} (holds : Holds node path value) : path.length = n ∧ path.Valid := by
  induction canonical generalizing path with
  | empty => simp at holds
  | leaf pathLength valid =>
      obtain ⟨rfl, -⟩ := holds_leaf.mp holds
      exact ⟨pathLength, valid⟩
  | extension nonempty valid child ih =>
      obtain ⟨rest, rfl, inside⟩ := holds_extension.mp holds
      obtain ⟨restLength, restValid⟩ := ih inside
      refine ⟨by simp [restLength], fun nibble member => ?_⟩
      rcases List.mem_append.mp member with front | back
      · exact valid nibble front
      · exact restValid nibble back
  | @branch n stack width noValue children two ih =>
      cases path with
      | nil => simp at holds
      | cons nibble rest =>
          have inside := holds_branch_cons.mp holds
          have below : nibble.toNat < 16 := by
            by_contra beyond
            simp [slot_above width noValue (Nat.le_of_not_lt beyond)] at inside
          obtain ⟨restLength, restValid⟩ := ih _ below inside
          refine ⟨by simp [restLength], fun x member => ?_⟩
          rcases List.mem_cons.mp member with rfl | back
          · exact below
          · exact restValid x back

theorem nibble_toNat {i : Nat} (below : i < 16) : (UInt8.ofNat i).toNat = i := by
  simp; omega

theorem Canonical.inhabited {n : Nat} {node : TrieNode} (canonical : Canonical n node)
    (nonempty : node ≠ .empty) : ∃ path value, Holds node path value := by
  induction canonical with
  | empty => exact absurd rfl nonempty
  | leaf => exact ⟨_, _, .leaf⟩
  | extension _ _ _ ih =>
      obtain ⟨path, value, holds⟩ := ih nofun
      exact ⟨_, value, .extension holds⟩
  | branch width noValue children two ih =>
      obtain ⟨i, j, order, below, first, second⟩ := two
      obtain ⟨path, value, holds⟩ := ih j below second
      exact ⟨UInt8.ofNat j :: path, value, holds_branch_cons.mpr (by rwa [nibble_toNat below])⟩

theorem Canonical.diverges {n : Nat} {stack : List TrieNode} (canonical : Canonical n (.branch stack)) :
    ∃ x y path path' value value', x ≠ y ∧ Holds (.branch stack) (x :: path) value ∧
      Holds (.branch stack) (y :: path') value' := by
  cases canonical with
  | branch width noValue children two =>
      obtain ⟨i, j, order, below, first, second⟩ := two
      have below' : i < 16 := order.trans below
      obtain ⟨path, value, holds⟩ := (children i below').inhabited first
      obtain ⟨path', value', holds'⟩ := (children j below).inhabited second
      refine ⟨UInt8.ofNat i, UInt8.ofNat j, path, path', value, value', ?_, ?_, ?_⟩
      · intro same
        have := congrArg UInt8.toNat same
        rw [nibble_toNat below', nibble_toNat below] at this
        omega
      · exact holds_branch_cons.mpr (by rwa [nibble_toNat below'])
      · exact holds_branch_cons.mpr (by rwa [nibble_toNat below])

theorem extension_prefix_le {n : Nat} {pfx pfx' : Nibbles} {stack : List TrieNode} {node' : TrieNode}
    (child : Canonical n (.branch stack))
    (same : ∀ path value, Holds (.extension pfx (.branch stack)) path value →
      Holds (.extension pfx' node') path value) : pfx'.length ≤ pfx.length := by
  obtain ⟨x, y, path, path', value, value', differ, first, second⟩ := child.diverges
  obtain ⟨_, left, -⟩ := holds_extension.mp (same _ _ (.extension first))
  obtain ⟨_, right, -⟩ := holds_extension.mp (same _ _ (.extension second))
  exact front_of_diverging differ pfx left right

theorem canonical_ext {n : Nat} {node node' : TrieNode} (left : Canonical n node)
    (right : Canonical n node') (same : ∀ path value, Holds node path value ↔ Holds node' path value) :
    node = node' := by
  -- The kind of a node is told by its paths: one path is a leaf, and paths that part at once are a branch.
  induction left generalizing node' with
  | empty =>
      by_contra differ
      obtain ⟨path, value, holds⟩ := right.inhabited (fun h => differ h.symm)
      simp [← same] at holds
  | @leaf n pfx value pathLength valid =>
      have here := (same pfx value).mp .leaf
      have only : ∀ path value', Holds node' path value' → path = pfx := fun path value' holds =>
        (holds_leaf.mp ((same path value').mpr holds)).1
      cases right with
      | empty => simp at here
      | leaf pathLength' valid' =>
          obtain ⟨rfl, rfl⟩ := holds_leaf.mp here
          rfl
      | extension nonempty' valid' child' =>
          obtain ⟨x, y, path, path', v, v', differ, first, second⟩ := child'.diverges
          have both := (only _ _ (.extension first)).trans (only _ _ (.extension second)).symm
          exact absurd (List.cons.inj (List.append_cancel_left both)).1 differ
      | branch width' noValue' children' two' =>
          obtain ⟨x, y, path, path', v, v', differ, first, second⟩ :=
            (Canonical.branch width' noValue' children' two').diverges
          have both := (only _ _ first).trans (only _ _ second).symm
          exact absurd (List.cons.inj both).1 differ
  | @extension n pfx stack nonempty valid child ih =>
      obtain ⟨x, y, path, path', v, v', differ, first, second⟩ := child.diverges
      have first' := (same _ _).mp (.extension first)
      have second' := (same _ _).mp (.extension second)
      generalize lengthEq : pfx.length + n = m at right
      cases right with
      | empty => simp at first'
      | leaf pathLength' valid' =>
          have both := (holds_leaf.mp first').1.trans (holds_leaf.mp second').1.symm
          exact absurd (List.cons.inj (List.append_cancel_left both)).1 differ
      | @extension n' pfx' stack' nonempty' valid' child' =>
          have atMost := extension_prefix_le child fun path value => (same path value).mp
          have atLeast := extension_prefix_le child' fun path value => (same path value).mpr
          obtain ⟨rest, front, -⟩ := holds_extension.mp first'
          obtain rfl : pfx = pfx' := (List.append_inj front (by omega)).1
          obtain rfl : n = n' := by omega
          rw [ih child' fun path value => by simpa using same (pfx ++ path) value]
      | branch width' noValue' children' two' =>
          obtain ⟨x', y', q, q', w, w', differ', firstB, secondB⟩ :=
            (Canonical.branch width' noValue' children' two').diverges
          obtain ⟨r, left', -⟩ := holds_extension.mp ((same _ _).mpr firstB)
          obtain ⟨r', right', -⟩ := holds_extension.mp ((same _ _).mpr secondB)
          have := front_of_diverging differ' [] left' right'
          exact absurd (List.eq_nil_of_length_eq_zero (by simpa using this)) nonempty
  | @branch n stack width noValue children two ih =>
      obtain ⟨x, y, path, path', v, v', differ, first, second⟩ :=
        (Canonical.branch width noValue children two).diverges
      have first' := (same _ _).mp first
      have second' := (same _ _).mp second
      generalize lengthEq : n + 1 = m at right
      cases right with
      | empty => simp at first'
      | leaf pathLength' valid' =>
          have both := (holds_leaf.mp first').1.trans (holds_leaf.mp second').1.symm
          exact absurd (List.cons.inj both).1 differ
      | extension nonempty' valid' child' =>
          obtain ⟨r, left', -⟩ := holds_extension.mp first'
          obtain ⟨r', right', -⟩ := holds_extension.mp second'
          have := front_of_diverging differ [] left' right'
          exact absurd (List.eq_nil_of_length_eq_zero (by simpa using this)) nonempty'
      | @branch n' stack' width' noValue' children' two' =>
          obtain rfl : n = n' := by omega
          congr 1
          apply stack_ext (width.trans width'.symm)
          intro i
          rcases Nat.lt_or_ge i 16 with below | above
          · apply ih i below (children' i below)
            intro path value
            simpa [nibble_toNat below] using same (UInt8.ofNat i :: path) value
          · rw [slot_above width noValue above, slot_above width' noValue' above]

end TrieNode

end KonaSoon.Mpt
