import KonaSoon.Lib.OrderedMap
import KonaSoon.Svm.Executor

/-!
# Leader schedules

A schedule is made of any list of slots and leaders (`svm/src/leader_schedule.rs`): a slot keeps the leader it was
listed with first, and the slots are sorted. The leader at a slot is that of the last slot listed up to it.
-/

namespace KonaSoon.Svm
open Lib Mpt

namespace LeaderSchedule

/-- `unique_by` on the slots, after those that were used before. -/
def uniqueBySlot : List Nat → List (Nat × Pubkey) → List (Nat × Pubkey)
  | _, [] => []
  | used, entry :: rest =>
      if entry.1 ∈ used then uniqueBySlot used rest else entry :: uniqueBySlot (entry.1 :: used) rest

theorem mem_uniqueBySlot {used : List Nat} {pairs : List (Nat × Pubkey)} {slot : Nat} {leader : Pubkey} :
    (slot, leader) ∈ uniqueBySlot used pairs ↔ slot ∉ used ∧ pairs.lookup slot = some leader := by
  induction pairs generalizing used with
  | nil => simp [uniqueBySlot]
  | cons entry rest ih =>
      obtain ⟨listed, first⟩ := entry
      rw [OrderedMap.lookup_cons_ite]
      unfold uniqueBySlot
      dsimp only
      by_cases again : listed ∈ used
      · rw [if_pos again, ih]
        refine and_congr_right fun fresh => ?_
        have other : slot ≠ listed := by
          rintro rfl
          exact fresh again
        rw [if_neg other]
      · rw [if_neg again, List.mem_cons, ih, List.mem_cons, Prod.mk.injEq]
        by_cases same : slot = listed
        · subst same
          simp [again, eq_comm]
        · simp [same]

theorem uniqueBySlot_nodup (used : List Nat) (pairs : List (Nat × Pubkey)) :
    ((uniqueBySlot used pairs).map Prod.fst).Nodup := by
  induction pairs generalizing used with
  | nil => exact List.nodup_nil
  | cons entry rest ih =>
      unfold uniqueBySlot
      by_cases again : entry.1 ∈ used
      · rw [if_pos again]
        exact ih used
      · rw [if_neg again, List.map_cons, List.nodup_cons]
        refine ⟨fun member => ?_, ih _⟩
        obtain ⟨⟨slot, leader⟩, inside, same⟩ := List.mem_map.mp member
        exact (mem_uniqueBySlot.mp inside).1 (same ▸ List.mem_cons_self)

/-- `sort_unstable_by_key` may leave the entries in any order in which the slots do not fall. -/
def SortedBySlot (before after : List (Nat × Pubkey)) : Prop :=
  after.Perm before ∧ after.Pairwise fun left right => left.1 ≤ right.1

theorem insertionSort_sortedBySlot (pairs : List (Nat × Pubkey)) :
    SortedBySlot pairs (pairs.insertionSort fun left right => left.1 ≤ right.1) := by
  have : Std.Total fun left right : Nat × Pubkey => left.1 ≤ right.1 := ⟨fun left right => Nat.le_total left.1 right.1⟩
  have : IsTrans (Nat × Pubkey) fun left right => left.1 ≤ right.1 := ⟨fun _ _ _ => Nat.le_trans⟩
  exact ⟨List.perm_insertionSort _ pairs, List.pairwise_insertionSort _ pairs⟩

theorem SortedBySlot.strict {before after : List (Nat × Pubkey)} (sorted : SortedBySlot before after)
    (distinct : (before.map Prod.fst).Nodup) : (after.map Prod.fst).Pairwise (· < ·) := by
  have apart : (after.map Prod.fst).Nodup := (sorted.1.map Prod.fst).nodup_iff.mpr distinct
  have upward : (after.map Prod.fst).Pairwise (· ≤ ·) := List.pairwise_map.mpr sorted.2
  exact upward.imp₂ (fun _ _ => Nat.lt_of_le_of_ne) apart

def fromIter (pairs : List (Nat × Pubkey)) : LeaderSchedule where
  leaders := (uniqueBySlot [] pairs).insertionSort fun left right => left.1 ≤ right.1
  sorted := (insertionSort_sortedBySlot _).strict (uniqueBySlot_nodup [] pairs)

theorem leaders_eq_of_sortedBySlot {pairs leaders : List (Nat × Pubkey)}
    (sorted : SortedBySlot (uniqueBySlot [] pairs) leaders) : leaders = (fromIter pairs).leaders := by
  have strict := sorted.strict (uniqueBySlot_nodup [] pairs)
  have perm := sorted.1.trans (insertionSort_sortedBySlot (uniqueBySlot [] pairs)).1.symm
  have left : leaders.Pairwise fun left right => left.1 < right.1 := List.pairwise_map.mp strict
  have right : (fromIter pairs).leaders.Pairwise fun left right => left.1 < right.1 :=
    List.pairwise_map.mp (fromIter pairs).sorted
  exact perm.eq_of_pairwise (fun _ _ _ _ less more => absurd less (Nat.lt_asymm more)) left right

/-! ## The search -/

theorem lt_iff_index_lt {entries : List (Nat × Pubkey)} (sorted : (entries.map Prod.fst).Pairwise (· < ·)) {key i : Nat}
    {entry : Nat × Pubkey} (here : entries[i]? = some entry) :
    entry.1 < key ↔ i < entries.countP fun entry => entry.1 < key := by
  induction entries generalizing i with
  | nil => simp at here
  | cons first rest ih =>
      obtain ⟨least, sortedRest⟩ := List.pairwise_cons.mp sorted
      by_cases before : first.1 < key
      · rw [List.countP_cons_of_pos (by simpa using before)]
        cases i with
        | zero =>
            obtain rfl := Option.some.inj here
            simp [before]
        | succ i =>
            rw [ih sortedRest here, Nat.succ_lt_succ_iff]
      · have none_before : rest.countP (fun entry => entry.1 < key) = 0 := by
          apply List.countP_eq_zero.mpr
          intro other member
          have := least other.1 (List.mem_map_of_mem member)
          simp only [decide_eq_true_eq]
          omega
        rw [List.countP_cons_of_neg (by simpa using before), none_before]
        cases i with
        | zero =>
            obtain rfl := Option.some.inj here
            simp [before]
        | succ i =>
            have := least entry.1 (List.mem_map_of_mem (List.mem_of_getElem? here))
            omega

/-- What is documented of `binary_search_by_key`: the entry with the key, or where one could be inserted. -/
theorem binarySearchByKey_spec {entries : List (Nat × Pubkey)} (sorted : (entries.map Prod.fst).Pairwise (· < ·))
    (key : Nat) :
    (∃ i leader, binarySearchByKey entries key = .ok i ∧ entries[i]? = some (key, leader)) ∨
    ∃ i, binarySearchByKey entries key = .error i ∧ i ≤ entries.length ∧
      ∀ j entry, entries[j]? = some entry → (j < i → entry.1 < key) ∧ (i ≤ j → key < entry.1) := by
  unfold binarySearchByKey
  dsimp only
  by_cases found : entries[entries.countP fun entry => entry.1 < key]?.map Prod.fst = some key
  · rw [if_pos found]
    obtain ⟨⟨slot, leader⟩, here, rfl⟩ := Option.map_eq_some_iff.mp found
    exact .inl ⟨_, leader, rfl, here⟩
  · rw [if_neg found]
    refine .inr ⟨_, rfl, List.countP_le_length, fun j entry here => ?_⟩
    refine ⟨(lt_iff_index_lt sorted here).mpr, fun after => ?_⟩
    have notBefore : ¬ entry.1 < key := fun less => absurd ((lt_iff_index_lt sorted here).mp less) (Nat.not_lt.mpr after)
    by_contra notAfter
    have same : entry.1 = key := by omega
    -- The entry where the search ends is not above this one, and would have been found.
    obtain ⟨inside, atJ⟩ := List.getElem?_eq_some_iff.mp here
    have within := Nat.lt_of_le_of_lt after inside
    have atEnd := List.getElem?_eq_getElem within
    have endNotBefore : ¬ entries[entries.countP fun entry => entry.1 < key].1 < key := fun less =>
      absurd ((lt_iff_index_lt sorted atEnd).mp less) (Nat.lt_irrefl _)
    rcases Nat.lt_or_eq_of_le after with later | equal
    · have less := List.pairwise_iff_getElem.mp (List.pairwise_map.mp sorted) _ j within inside later
      rw [atJ, same] at less
      exact endNotBefore less
    · rw [equal, here, Option.map_some, same] at found
      exact found rfl

variable {schedule : LeaderSchedule} {slot : Nat}

theorem leaderAtSlot_eq_none (later : ∀ entry ∈ schedule.leaders, slot < entry.1) : schedule.leaderAtSlot slot = none := by
  unfold leaderAtSlot
  rcases binarySearchByKey_spec schedule.sorted slot with ⟨i, leader, searched, here⟩ | ⟨i, searched, within, sides⟩
  · exact absurd (later _ (List.mem_of_getElem? here)) (Nat.lt_irrefl slot)
  · rw [searched]
    cases i with
    | zero => rfl
    | succ i =>
        have here := List.getElem?_eq_getElem (Nat.lt_of_succ_le within)
        have before := (sides i _ here).1 (Nat.lt_succ_self i)
        exact absurd (later _ (List.getElem_mem _)) (Nat.lt_asymm before)

theorem leaderAtSlot_eq_some {latest : Nat} {leader : Pubkey} (member : (latest, leader) ∈ schedule.leaders)
    (listed : latest ≤ slot) (greatest : ∀ entry ∈ schedule.leaders, entry.1 ≤ slot → entry.1 ≤ latest) :
    schedule.leaderAtSlot slot = some leader := by
  have distinct : (schedule.leaders.map Prod.fst).Nodup := schedule.sorted.imp Nat.ne_of_lt
  -- The answer is an entry not after the slot and not before this one.
  have unique : ∀ entry ∈ schedule.leaders, entry.1 ≤ slot → latest ≤ entry.1 → entry.2 = leader := by
    intro entry inside upTo notBefore
    have same : entry.1 = latest := Nat.le_antisymm (greatest entry inside upTo) notBefore
    rw [List.inj_on_of_nodup_map distinct inside member same]
  obtain ⟨j, inside, atJ⟩ := List.mem_iff_getElem.mp member
  have here : schedule.leaders[j]? = some (latest, leader) := List.getElem?_eq_some_iff.mpr ⟨inside, atJ⟩
  unfold leaderAtSlot
  rcases binarySearchByKey_spec schedule.sorted slot with ⟨i, found, searched, there⟩ | ⟨i, searched, within, sides⟩
  · rw [searched]
    simp only
    rw [there, Option.map_some]
    exact congrArg some (unique _ (List.mem_of_getElem? there) (Nat.le_refl slot) listed)
  · rw [searched]
    have notLast : j < i := by
      by_contra after
      have := (sides j _ here).2 (Nat.not_lt.mp after)
      exact absurd listed (Nat.not_le.mpr this)
    cases i with
    | zero => exact absurd notLast (Nat.not_lt_zero j)
    | succ i =>
        have there := List.getElem?_eq_getElem (Nat.lt_of_succ_le within)
        have before := (sides i _ there).1 (Nat.lt_succ_self i)
        have notBefore : latest ≤ schedule.leaders[i].1 := by
          rcases Nat.lt_or_eq_of_le (Nat.le_of_lt_succ notLast) with less | equal
          · have := List.pairwise_iff_getElem.mp (List.pairwise_map.mp schedule.sorted) j i inside
              (Nat.lt_of_succ_le within) less
            rw [atJ] at this
            exact Nat.le_of_lt this
          · subst equal
            rw [atJ]
        simp only [Nat.succ_ne_zero, if_false, Nat.add_sub_cancel]
        rw [there, Option.map_some]
        exact congrArg some (unique _ (List.getElem_mem _) (Nat.le_of_lt before) notBefore)

/-! ## The step function -/

/-- The leader that is listed first for the greatest listed slot that is not after this one. -/
def stepAt (pairs : List (Nat × Pubkey)) (slot : Nat) : Option Pubkey :=
  ((pairs.map Prod.fst).filter (· ≤ slot)).max?.bind fun latest => pairs.lookup latest

theorem mem_leaders_fromIter {pairs : List (Nat × Pubkey)} {leader : Pubkey} :
    (slot, leader) ∈ (fromIter pairs).leaders ↔ pairs.lookup slot = some leader := by
  rw [fromIter, List.mem_insertionSort, mem_uniqueBySlot]
  simp

theorem exists_lookup {pairs : List (Nat × Pubkey)} (listed : slot ∈ pairs.map Prod.fst) :
    ∃ leader, pairs.lookup slot = some leader := by
  rw [← Option.isSome_iff_exists, List.lookup_isSome_iff]
  obtain ⟨entry, member, rfl⟩ := List.mem_map.mp listed
  exact ⟨entry, member, by simp⟩

/-- A schedule answers with the step function of the list it is made of, whatever order an unstable sort leaves. -/
theorem leaderAtSlot_fromIter (pairs : List (Nat × Pubkey)) :
    (∀ slot, (fromIter pairs).leaderAtSlot slot = stepAt pairs slot) ∧
    ∀ leaders, SortedBySlot (uniqueBySlot [] pairs) leaders → leaders = (fromIter pairs).leaders := by
  refine ⟨fun slot => ?_, fun leaders => leaders_eq_of_sortedBySlot⟩
  unfold stepAt
  have fromListed : ∀ entry ∈ (fromIter pairs).leaders, entry.1 ∈ pairs.map Prod.fst := by
    intro entry member
    obtain ⟨front, back, rfl, -⟩ := List.lookup_eq_some_iff.mp (mem_leaders_fromIter.mp member)
    simp
  cases greatest : ((pairs.map Prod.fst).filter (· ≤ slot)).max? with
  | none =>
      have empty := List.max?_eq_none_iff.mp greatest
      apply leaderAtSlot_eq_none
      intro entry member
      have := List.filter_eq_nil_iff.mp empty _ (fromListed entry member)
      simpa using this
  | some latest =>
      obtain ⟨member, bound⟩ := List.max?_eq_some_iff.mp greatest
      obtain ⟨listed, upTo⟩ := List.mem_filter.mp member
      obtain ⟨leader, found⟩ := exists_lookup listed
      rw [Option.bind_some, found]
      apply leaderAtSlot_eq_some (mem_leaders_fromIter.mpr found) (by simpa using upTo)
      intro entry inside entryUpTo
      exact bound entry.1 (List.mem_filter.mpr ⟨fromListed entry inside, by simpa using entryUpTo⟩)

end LeaderSchedule

end KonaSoon.Svm
