import KonaSoon.Lib.HashMap
import KonaSoon.Lib.OrderedMap
import KonaSoon.Primitives.Blocks

/-!
# The cursor of the derivation pipeline

`PipelineCursor` (`protocol/driver/src/cursor.rs`): the L2 tips of the last L1 origins, to which the driver goes
back when L1 reorganises. The capacity is computed on 64-bit words and wraps.
-/

namespace KonaSoon.Driver
open Lib Mpt

instance blockNumberOrder : LinearOrder UInt64 where
  le_refl := UInt64.le_refl
  le_trans _ _ _ := UInt64.le_trans
  le_antisymm _ _ := UInt64.le_antisymm
  le_total := UInt64.le_total
  lt_iff_le_not_ge a b := by
    rw [UInt64.not_le]
    exact ⟨fun h => ⟨UInt64.le_of_lt h, h⟩, And.right⟩
  toDecidableLE := inferInstance

structure TipCursor where
  l2SafeHead : L2BlockInfo
  l2SafeHeadHeader : L2BlockHeader
  l2SafeHeadOutputRoot : B256
deriving DecidableEq, Repr

structure PipelineCursor where
  capacity : Nat
  channelTimeout : UInt64
  origin : BlockInfo
  origins : List UInt64
  originInfos : HashMap UInt64 BlockInfo
  tips : OrderedMap UInt64 TipCursor

namespace PipelineCursor

/-- There is no cursor where the queue of `capacity` words is larger than any allocation. -/
def new (channelTimeout : UInt64) (origin : BlockInfo) : Option PipelineCursor :=
  let capacity := (channelTimeout + 5).toNat
  if capacity * 8 < 2 ^ 63 then
    some {
      capacity
      channelTimeout
      origin
      origins := [origin.number]
      originInfos := (∅ : HashMap UInt64 BlockInfo).insert origin.number origin
      tips := .empty }
  else none

/-- `none` is the panic of a cursor without tips. -/
def tip (cursor : PipelineCursor) : Option TipCursor := cursor.tips.lastKeyValue.map Prod.snd

/-- The cursor without its oldest origin, if it is full. `none` is the panic of an empty queue. -/
def evict (cursor : PipelineCursor) : Option PipelineCursor :=
  if cursor.capacity ≤ cursor.tips.entries.length then
    match cursor.origins with
    | [] => none
    | key :: origins => some { cursor with origins, tips := cursor.tips.erase key }
  else some cursor

def advance (cursor : PipelineCursor) (origin : BlockInfo) (l2TipBlock : TipCursor) : Option PipelineCursor :=
  cursor.evict.map fun cursor =>
    { cursor with
      origin
      origins := cursor.origins ++ [origin.number]
      originInfos := cursor.originInfos.insert origin.number origin
      tips := cursor.tips.insert origin.number l2TipBlock }

/-- The tip to go back to and its origin. The subtraction wraps; `none` is a panic. -/
def reset (cursor : PipelineCursor) (forkBlock : UInt64) : Option (TipCursor × BlockInfo) :=
  let channelStart := forkBlock - cursor.channelTimeout
  match cursor.tips.get channelStart with
  | some l2SafeTip => (cursor.originInfos.lookup channelStart).map (l2SafeTip, ·)
  | none =>
      match cursor.tips.lastUpTo channelStart with
      | none => none
      | some (lastL1KnownTip, l2KnownTip) => (cursor.originInfos.lookup lastL1KnownTip).map (l2KnownTip, ·)

abbrev History := List (BlockInfo × TipCursor)

def advanceAll (cursor : PipelineCursor) (history : History) : Option PipelineCursor :=
  history.foldlM (fun cursor entry => cursor.advance entry.1 entry.2) cursor

def numbers (history : History) : List UInt64 := history.map fun entry => entry.1.number

def lastFor (history : History) (number : UInt64) : Option (BlockInfo × TipCursor) :=
  history.reverse.find? fun entry => entry.1.number = number

theorem lastFor_append (history : History) (entry : BlockInfo × TipCursor) (number : UInt64) :
    lastFor (history ++ [entry]) number = if number = entry.1.number then some entry else lastFor history number := by
  rw [lastFor, List.reverse_append, List.reverse_singleton, List.singleton_append, List.find?_cons]
  by_cases same : number = entry.1.number
  · simp [same]
  · have differ : entry.1.number ≠ number := fun back => same back.symm
    simp [same, differ, lastFor]

theorem lastFor_isSome_iff (history : History) (number : UInt64) :
    (lastFor history number).isSome ↔ number ∈ numbers history := by
  simp [lastFor, numbers]

theorem advanceAll_append (cursor : PipelineCursor) (history : History) (entry : BlockInfo × TipCursor) :
    cursor.advanceAll (history ++ [entry]) = (cursor.advanceAll history).bind fun now => now.advance entry.1 entry.2 := by
  simp only [advanceAll, List.foldlM_append, List.foldlM_cons, List.foldlM_nil, bind_pure]
  rfl

theorem evict_cases {cursor : PipelineCursor} (nonempty : cursor.origins ≠ []) :
    (cursor.tips.entries.length < cursor.capacity ∧ cursor.evict = some cursor) ∨
    ∃ key origins, cursor.capacity ≤ cursor.tips.entries.length ∧ cursor.origins = key :: origins ∧
      cursor.evict = some { cursor with origins, tips := cursor.tips.erase key } := by
  unfold evict
  split
  · rename_i full
    cases queue : cursor.origins with
    | nil => exact absurd queue nonempty
    | cons key origins => exact .inr ⟨key, origins, full, rfl, rfl⟩
  · rename_i room
    exact .inl ⟨Nat.not_le.mp room, rfl⟩

structure Advances (cursor : PipelineCursor) (entry : BlockInfo × TipCursor) (next : PipelineCursor) : Prop where
  capacity : next.capacity = cursor.capacity
  channelTimeout : next.channelTimeout = cursor.channelTimeout
  origin : next.origin = entry.1
  originInfos : next.originInfos = cursor.originInfos.insert entry.1.number entry.1
  kept : (cursor.tips.entries.length < cursor.capacity ∧ next.origins = cursor.origins ++ [entry.1.number] ∧
      next.tips = cursor.tips.insert entry.1.number entry.2) ∨
    ∃ key origins, cursor.capacity ≤ cursor.tips.entries.length ∧ cursor.origins = key :: origins ∧
      next.origins = origins ++ [entry.1.number] ∧ next.tips = (cursor.tips.erase key).insert entry.1.number entry.2

theorem advance_advances {cursor : PipelineCursor} (nonempty : cursor.origins ≠ []) (entry : BlockInfo × TipCursor) :
    ∃ next, cursor.advance entry.1 entry.2 = some next ∧ Advances cursor entry next := by
  unfold advance
  rcases evict_cases nonempty with ⟨room, evicted⟩ | ⟨key, origins, full, queue, evicted⟩
  · rw [evicted]
    exact ⟨_, rfl, rfl, rfl, rfl, rfl, .inl ⟨room, rfl, rfl⟩⟩
  · rw [evicted]
    exact ⟨_, rfl, rfl, rfl, rfl, rfl, .inr ⟨key, origins, full, queue, rfl, rfl⟩⟩

theorem Advances.nonempty {cursor next : PipelineCursor} {entry : BlockInfo × TipCursor} (advances : Advances cursor entry next) :
    next.origins ≠ [] := by
  rcases advances.kept with ⟨-, origins, -⟩ | ⟨key, origins, -, -, last, -⟩
  · rw [origins]
    simp
  · rw [last]
    simp

theorem Advances.tip_cases {cursor next : PipelineCursor} {entry : BlockInfo × TipCursor}
    (advances : Advances cursor entry next) {k : UInt64} {tip : TipCursor} (here : next.tips.get k = some tip) :
    (k = entry.1.number ∧ tip = entry.2) ∨ (k ≠ entry.1.number ∧ cursor.tips.get k = some tip) := by
  rcases advances.kept with ⟨-, -, tips⟩ | ⟨key, origins, -, -, -, tips⟩
  · rw [tips, OrderedMap.get_insert] at here
    split at here
    · rename_i same
      exact .inl ⟨same, (Option.some.inj here).symm⟩
    · rename_i other
      exact .inr ⟨other, here⟩
  · rw [tips, OrderedMap.get_insert] at here
    split at here
    · rename_i same
      exact .inl ⟨same, (Option.some.inj here).symm⟩
    · rename_i other
      exact .inr ⟨other, OrderedMap.get_of_get_erase here⟩

/-! ## What every run keeps -/

/-- A cursor after a history: its tips and origins are the last ones of their numbers. -/
structure Follows (channelTimeout : UInt64) (history : History) (cursor : PipelineCursor) : Prop where
  capacity : cursor.capacity = (channelTimeout + 5).toNat
  channelTimeout : cursor.channelTimeout = channelTimeout
  nonempty : cursor.origins ≠ []
  tips : ∀ k tip, cursor.tips.get k = some tip → ∃ entry, lastFor history k = some entry ∧ entry.2 = tip
  infos : ∀ k entry, lastFor history k = some entry → cursor.originInfos.lookup k = some entry.1

theorem Follows.keys {channelTimeout : UInt64} {history : History} {cursor : PipelineCursor}
    (follows : Follows channelTimeout history cursor) {k : UInt64} (member : k ∈ cursor.tips.keys) : k ∈ numbers history := by
  obtain ⟨tip, here⟩ := (cursor.tips.mem_keys_iff k).mp member
  obtain ⟨entry, last, -⟩ := follows.tips k tip here
  exact (lastFor_isSome_iff history k).mp (by rw [last]; rfl)

theorem new_eq {channelTimeout : UInt64} {origin : BlockInfo} {cursor : PipelineCursor}
    (made : new channelTimeout origin = some cursor) :
    cursor = ⟨(channelTimeout + 5).toNat, channelTimeout, origin, [origin.number],
      (∅ : HashMap UInt64 BlockInfo).insert origin.number origin, .empty⟩ := by
  simp only [new] at made
  split at made
  · exact (Option.some.inj made).symm
  · cases made

theorem follows_new {channelTimeout : UInt64} {origin : BlockInfo} {cursor : PipelineCursor}
    (made : new channelTimeout origin = some cursor) : Follows channelTimeout [] cursor := by
  rw [new_eq made]
  refine ⟨rfl, rfl, by simp, fun k tip here => ?_, fun k entry last => ?_⟩
  · cases here
  · cases last

theorem Follows.advance {channelTimeout : UInt64} {history : History} {cursor next : PipelineCursor}
    (follows : Follows channelTimeout history cursor) {entry : BlockInfo × TipCursor} (advances : Advances cursor entry next) :
    Follows channelTimeout (history ++ [entry]) next := by
  refine ⟨advances.capacity.trans follows.capacity, advances.channelTimeout.trans follows.channelTimeout,
    advances.nonempty, fun k tip here => ?_, fun k last here => ?_⟩
  · rw [lastFor_append]
    rcases advances.tip_cases here with ⟨same, is_⟩ | ⟨other, before⟩
    · exact ⟨entry, if_pos same, is_.symm⟩
    · rw [if_neg other]
      exact follows.tips k tip before
  · rw [lastFor_append] at here
    rw [advances.originInfos]
    split at here
    · rename_i same
      rw [same, AList.lookup_insert, Option.some.inj here]
    · rename_i other
      rw [AList.lookup_insert_ne other]
      exact follows.infos k last here

theorem advanceAll_keeps {channelTimeout : UInt64} {initial : BlockInfo} {cursor : PipelineCursor} {history : History}
    (Invariant : History → PipelineCursor → Prop) (made : new channelTimeout initial = some cursor) (start : Invariant [] cursor)
    (advance : ∀ sofar entry now next, sofar ++ [entry] <+: history → Follows channelTimeout sofar now → Invariant sofar now →
      Advances now entry next → Invariant (sofar ++ [entry]) next) :
    ∃ now, cursor.advanceAll history = some now ∧ Follows channelTimeout history now ∧ Invariant history now := by
  induction history using List.reverseRecOn with
  | nil => exact ⟨cursor, rfl, follows_new made, start⟩
  | append_singleton history entry ih =>
      obtain ⟨now, run, follows, holds⟩ := ih fun sofar later now next before =>
        advance sofar later now next (before.trans (List.prefix_append history [entry]))
      obtain ⟨next, advanced, advances⟩ := advance_advances follows.nonempty entry
      refine ⟨next, ?_, follows.advance advances, advance history entry now next (List.prefix_refl _) follows holds advances⟩
      rw [advanceAll_append, run]
      exact advanced

theorem le_of_rising {numbers : List UInt64} {last : UInt64} (rising : (numbers ++ [last]).Pairwise (· ≤ ·)) {k : UInt64}
    (member : k ∈ numbers) : k ≤ last :=
  (List.pairwise_append.mp rising).2.2 k member last (List.mem_singleton_self last)

theorem numbers_append (history : History) (entry : BlockInfo × TipCursor) :
    numbers (history ++ [entry]) = numbers history ++ [entry.1.number] := by
  rw [numbers, List.map_append, List.map_singleton, numbers]

theorem numbers_before {sofar history : History} (before : sofar <+: history) : numbers sofar <+: numbers history :=
  List.IsPrefix.map (fun entry : BlockInfo × TipCursor => entry.1.number) before

theorem Follows.tip {channelTimeout : UInt64} {history : History} {cursor next : PipelineCursor}
    (follows : Follows channelTimeout history cursor) {entry : BlockInfo × TipCursor} (advances : Advances cursor entry next)
    (rising : (numbers (history ++ [entry])).Pairwise (· ≤ ·)) : next.tip = some entry.2 := by
  rw [numbers_append] at rising
  have behind : ∀ k ∈ cursor.tips.keys, k ≤ entry.1.number := fun k member => le_of_rising rising (follows.keys member)
  unfold PipelineCursor.tip
  rcases advances.kept with ⟨-, -, tips⟩ | ⟨key, origins, -, -, -, tips⟩
  · rw [tips, OrderedMap.lastKeyValue_insert _ _ behind]
    rfl
  · have still : ∀ k ∈ (cursor.tips.erase key).keys, k ≤ entry.1.number := fun k member =>
      behind k ((cursor.tips.mem_keys_erase key k).mp member).2
    rw [tips, OrderedMap.lastKeyValue_insert _ _ still]
    rfl

theorem advanceAll_tip {channelTimeout : UInt64} {origin : BlockInfo} {cursor : PipelineCursor}
    (made : new channelTimeout origin = some cursor) {history : History} (rising : (numbers history).Pairwise (· ≤ ·)) :
    ∃ now, cursor.advanceAll history = some now ∧ Follows channelTimeout history now ∧
      ∀ entry, history.getLast? = some entry → now.tip = some entry.2 ∧ now.origin = entry.1 := by
  apply advanceAll_keeps (fun sofar now => ∀ entry, sofar.getLast? = some entry → now.tip = some entry.2 ∧ now.origin = entry.1) made
  · intro entry last
    cases last
  · intro sofar entry now next before follows _ advances last same
    rw [List.getLast?_concat] at same
    cases same
    exact ⟨follows.tip advances (rising.sublist (numbers_before before).sublist), advances.origin⟩

/-! ## Before the first eviction -/

structure Unevicted (initial : BlockInfo) (history : History) (cursor : PipelineCursor) : Prop where
  origins : cursor.origins = initial.number :: numbers history
  keys : ∀ k, k ∈ cursor.tips.keys ↔ k ∈ numbers history
  tips : cursor.tips.entries.length ≤ history.length
  originInfos : cursor.originInfos.entries.length ≤ history.length + 1

theorem unevicted_new {channelTimeout : UInt64} {origin : BlockInfo} {cursor : PipelineCursor}
    (made : new channelTimeout origin = some cursor) : Unevicted origin [] cursor := by
  rw [new_eq made]
  exact ⟨rfl, fun _ => Iff.rfl, Nat.le_refl _, Nat.le_refl _⟩

theorem Unevicted.advance {initial : BlockInfo} {history : History} {cursor next : PipelineCursor}
    (unevicted : Unevicted initial history cursor) (room : history.length < cursor.capacity)
    {entry : BlockInfo × TipCursor} (advances : Advances cursor entry next) : Unevicted initial (history ++ [entry]) next := by
  have few := unevicted.tips
  rcases advances.kept with ⟨-, origins, tips⟩ | ⟨key, origins, full, -⟩
  · refine ⟨?_, fun k => ?_, ?_, ?_⟩
    · rw [origins, unevicted.origins, numbers_append, List.cons_append]
    · rw [tips, OrderedMap.mem_keys_insert, unevicted.keys, numbers_append, List.mem_append, List.mem_singleton, or_comm]
    · have grown := cursor.tips.length_insert_le entry.1.number entry.2
      rw [tips, List.length_append, List.length_singleton]
      omega
    · have shrunk := (List.kerase_sublist entry.1.number cursor.originInfos.entries).length_le
      have one := unevicted.originInfos
      rw [advances.originInfos, AList.entries_insert, List.length_cons, List.length_append,
        List.length_singleton]
      omega
  · omega

theorem advanceAll_unevicted {channelTimeout : UInt64} {origin : BlockInfo} {cursor : PipelineCursor}
    (made : new channelTimeout origin = some cursor) {history : History} (room : history.length ≤ cursor.capacity) :
    ∃ now, cursor.advanceAll history = some now ∧ now.capacity = cursor.capacity ∧ Unevicted origin history now := by
  have capacity := (follows_new made).capacity
  obtain ⟨now, run, follows, unevicted⟩ : ∃ now, cursor.advanceAll history = some now ∧ Follows channelTimeout history now ∧
      Unevicted origin history now := by
    apply advanceAll_keeps (Unevicted origin) made (unevicted_new made)
    intro sofar entry now next before follows unevicted advances
    have shorter := before.length_le
    rw [List.length_append, List.length_singleton] at shorter
    have same := follows.capacity
    exact unevicted.advance (by omega) advances
  exact ⟨now, run, follows.capacity.trans capacity.symm, unevicted⟩

structure Consistent (initial : BlockInfo) (history : History) (cursor : PipelineCursor) : Prop where
  tips : cursor.tips.entries.length ≤ cursor.capacity
  origins : cursor.origins.length ≤ cursor.capacity
  originInfos : cursor.originInfos.entries.length ≤ cursor.capacity
  tracked : initial.number ∈ numbers history → ∀ k, k ∈ cursor.origins ↔ k ∈ cursor.tips.keys
  tip : ∀ entry, history.getLast? = some entry → cursor.tip = some entry.2

/-- The origins fill up before the tips do. -/
theorem consistent_iff {channelTimeout : UInt64} {initial : BlockInfo} {cursor : PipelineCursor}
    (made : new channelTimeout initial = some cursor) {history : History} (rising : (numbers history).Pairwise (· ≤ ·)) :
    (∀ sofar, sofar <+: history → ∃ now, cursor.advanceAll sofar = some now ∧ Consistent initial sofar now) ↔
      history.length < cursor.capacity := by
  constructor
  · intro consistent
    by_contra full
    have length : (history.take cursor.capacity).length = cursor.capacity := List.length_take_of_le (Nat.not_lt.mp full)
    obtain ⟨now, run, capacity, unevicted⟩ := advanceAll_unevicted made (Nat.le_of_eq length)
    obtain ⟨now', run', holds⟩ := consistent _ (List.take_prefix cursor.capacity history)
    cases run.symm.trans run'
    have bound := holds.origins
    rw [unevicted.origins, List.length_cons, numbers, List.length_map, length, capacity] at bound
    omega
  · intro room sofar before
    have shorter := before.length_le
    have sofarRoom : sofar.length ≤ cursor.capacity := by omega
    obtain ⟨now, run, capacity, unevicted⟩ := advanceAll_unevicted made sofarRoom
    obtain ⟨now', run', -, last⟩ := advanceAll_tip made (rising.sublist (numbers_before before).sublist)
    cases run.symm.trans run'
    refine ⟨now, run, ?_, ?_, ?_, fun started k => ?_, fun entry here => (last entry here).1⟩
    · have := unevicted.tips
      omega
    · rw [unevicted.origins, List.length_cons, numbers, List.length_map]
      omega
    · have := unevicted.originInfos
      omega
    · rw [unevicted.origins, unevicted.keys, List.mem_cons]
      exact ⟨fun either => either.elim (fun same => same ▸ started) id, .inr⟩

/-! A cursor for no timeout holds five origins, but one more after as many advances. -/

def cursorBlock (number : UInt64) : BlockInfo := ⟨.ofNat number.toNat, number, .ofNat 0, 12 * number⟩

def cursorTip (number : UInt64) : TipCursor :=
  ⟨⟨cursorBlock number, (cursorBlock number).id, 0⟩, ⟨cursorBlock number, .ofNat 0, .ofNat 0⟩, .ofNat 0⟩

def advancesAt (numbers : List UInt64) : History := numbers.map fun number => (cursorBlock number, cursorTip number)

theorem consistent_of_two_advances : ∃ cursor, new 0 (cursorBlock 7) = some cursor ∧
    ((∀ sofar, sofar <+: advancesAt [7, 8] → ∃ now, cursor.advanceAll sofar = some now ∧ Consistent (cursorBlock 7) sofar now) ↔
      (advancesAt [7, 8]).length < cursor.capacity) :=
  ⟨_, rfl, @consistent_iff 0 _ _ rfl _ (by decide)⟩

theorem five_advances_overfill : ∃ cursor now, new 0 (cursorBlock 7) = some cursor ∧
    (numbers (advancesAt [7, 8, 9, 10, 11])).Pairwise (· ≤ ·) ∧
    cursor.advanceAll (advancesAt [7, 8, 9, 10, 11]) = some now ∧ cursor.capacity = 5 ∧ now.origins.length = 6 ∧
    ¬ Consistent (cursorBlock 7) (advancesAt [7, 8, 9, 10, 11]) now :=
  ⟨_, _, rfl, by decide, rfl, rfl, rfl, fun holds => absurd holds.origins (by decide)⟩

/-! ## Going back -/

structure Ordered (initial : BlockInfo) (history : History) (cursor : PipelineCursor) : Prop where
  sorted : cursor.origins.Pairwise (· ≤ ·)
  recorded : ∀ k ∈ cursor.origins, k ∈ initial.number :: numbers history
  queued : ∀ k ∈ cursor.tips.keys, k ∈ cursor.origins
  gone : ∀ k ∈ numbers history, k ∉ cursor.tips.keys →
    cursor.capacity ≤ cursor.tips.entries.length + 1 ∧ ∀ t ∈ cursor.tips.keys, k < t

theorem ordered_new {channelTimeout : UInt64} {origin : BlockInfo} {cursor : PipelineCursor}
    (made : new channelTimeout origin = some cursor) : Ordered origin [] cursor := by
  rw [new_eq made]
  refine ⟨List.pairwise_singleton _ _, fun k member => member, fun k member => ?_, fun k member => ?_⟩
  · cases member
  · cases member

theorem Ordered.advance {initial : BlockInfo} {history : History} {cursor next : PipelineCursor}
    (ordered : Ordered initial history cursor) {entry : BlockInfo × TipCursor} (advances : Advances cursor entry next)
    (rising : (initial.number :: numbers (history ++ [entry])).Pairwise (· ≤ ·)) : Ordered initial (history ++ [entry]) next := by
  rw [numbers_append, ← List.cons_append] at rising
  -- The origins and tips that are left, before the new one comes.
  obtain ⟨origins, tips, nextOrigins, nextTips, kept, queued, gone⟩ :
      ∃ (origins : List UInt64) (tips : OrderedMap UInt64 TipCursor), next.origins = origins ++ [entry.1.number] ∧
        next.tips = tips.insert entry.1.number entry.2 ∧ origins.Sublist cursor.origins ∧ (∀ k ∈ tips.keys, k ∈ origins) ∧
        ∀ k ∈ numbers history, k ∉ tips.keys → cursor.capacity ≤ tips.entries.length + 1 ∧ ∀ t ∈ tips.keys, k < t := by
    rcases advances.kept with ⟨-, origins, tips⟩ | ⟨key, origins, full, queue, last, tips⟩
    · exact ⟨cursor.origins, cursor.tips, origins, tips, List.Sublist.refl _, ordered.queued, ordered.gone⟩
    · refine ⟨origins, cursor.tips.erase key, last, tips, queue ▸ List.sublist_cons_self key origins, fun k member => ?_,
        fun k member absent => ⟨?_, fun t there => ?_⟩⟩
      · obtain ⟨other, before⟩ := (cursor.tips.mem_keys_erase key k).mp member
        have inside := ordered.queued k before
        rw [queue] at inside
        exact (List.mem_cons.mp inside).resolve_left other
      · have := cursor.tips.length_erase key
        omega
      · obtain ⟨other, before⟩ := (cursor.tips.mem_keys_erase key t).mp there
        by_cases oldest : k = key
        · have inside := ordered.queued t before
          have sorted := ordered.sorted
          rw [queue] at inside sorted
          have above := (List.pairwise_cons.mp sorted).1 t ((List.mem_cons.mp inside).resolve_left other)
          exact lt_of_le_of_ne (oldest ▸ above) (oldest ▸ other.symm)
        · have missing : k ∉ cursor.tips.keys := fun there =>
            absent ((cursor.tips.mem_keys_erase key k).mpr ⟨oldest, there⟩)
          exact (ordered.gone k member missing).2 t before
  constructor
  · rw [nextOrigins, List.pairwise_append]
    refine ⟨ordered.sorted.sublist kept, List.pairwise_singleton _ _, fun k member last same => ?_⟩
    rw [List.mem_singleton.mp same]
    exact le_of_rising rising (ordered.recorded k (kept.subset member))
  · intro k member
    rw [nextOrigins, List.mem_append] at member
    rw [numbers_append, ← List.cons_append, List.mem_append]
    exact member.imp (fun old => ordered.recorded k (kept.subset old)) id
  · intro k member
    rw [nextTips, OrderedMap.mem_keys_insert] at member
    rw [nextOrigins, List.mem_append, List.mem_singleton]
    exact member.symm.imp (queued k) id
  · intro k member absent
    rw [nextTips, OrderedMap.mem_keys_insert, not_or] at absent
    have old : k ∈ numbers history := by
      rw [numbers_append, List.mem_append, List.mem_singleton] at member
      exact member.resolve_right absent.1
    obtain ⟨many, below⟩ := gone k old absent.2
    have grown := tips.le_length_insert entry.1.number entry.2
    rw [advances.capacity, nextTips]
    refine ⟨Nat.le_trans many (Nat.succ_le_succ grown), fun t there => ?_⟩
    rw [OrderedMap.mem_keys_insert] at there
    rcases there with rfl | before
    · exact lt_of_le_of_ne (le_of_rising rising (List.mem_cons_of_mem _ old)) absent.1
    · exact below t before

theorem length_le_of_within {ns : List Nat} (distinct : ns.Nodup) {low high : Nat} (within : ∀ n ∈ ns, low ≤ n ∧ n ≤ high) :
    ns.length ≤ high + 1 - low := by
  have inside : ns.toFinset ⊆ Finset.Icc low high := fun n member =>
    Finset.mem_Icc.mpr (within n (List.mem_toFinset.mp member))
  have bound := Finset.card_le_card inside
  rwa [List.toFinset_card_of_nodup distinct, Nat.card_Icc] at bound

theorem Ordered.recent_of_gone {channelTimeout : UInt64} {initial : BlockInfo} {history : History} {cursor : PipelineCursor}
    (follows : Follows channelTimeout history cursor) (ordered : Ordered initial history cursor)
    (noWrap : channelTimeout.toNat + 5 < 2 ^ 64) {k : UInt64} (advanced : k ∈ numbers history) (absent : k ∉ cursor.tips.keys)
    {current : Nat} (latest : ∀ k ∈ numbers history, k.toNat ≤ current) :
    ∃ t ∈ numbers history, k < t ∧ t.toNat + channelTimeout.toNat + 3 ≤ current := by
  obtain ⟨many, below⟩ := ordered.gone k advanced absent
  by_contra none_
  have distinct : (cursor.tips.keys.map UInt64.toNat).Nodup :=
    cursor.tips.keys_nodup.map fun _ _ same => UInt64.toNat_inj.mp same
  have recent : ∀ n ∈ cursor.tips.keys.map UInt64.toNat, current - (channelTimeout.toNat + 2) ≤ n ∧ n ≤ current := by
    intro n member
    obtain ⟨t, there, rfl⟩ := List.mem_map.mp member
    have inside := follows.keys there
    have late : ¬ t.toNat + channelTimeout.toNat + 3 ≤ current := fun early =>
      none_ ⟨t, inside, below t there, early⟩
    have bound := latest t inside
    omega
  have few := length_le_of_within distinct recent
  have capacity := follows.capacity
  have five : (5 : UInt64).toNat = 5 := rfl
  rw [UInt64.toNat_add, five, Nat.mod_eq_of_lt noWrap] at capacity
  rw [List.length_map, OrderedMap.keys, List.length_map] at few
  omega

theorem advanceAll_ordered {channelTimeout : UInt64} {initial : BlockInfo} {cursor : PipelineCursor}
    (made : new channelTimeout initial = some cursor) {history : History}
    (rising : (initial.number :: numbers history).Pairwise (· ≤ ·)) :
    ∃ now, cursor.advanceAll history = some now ∧ Follows channelTimeout history now ∧ Ordered initial history now := by
  apply advanceAll_keeps (Ordered initial) made (ordered_new made)
  intro sofar entry now next before _ ordered advances
  exact ordered.advance advances (rising.sublist ((numbers_before before).sublist.cons_cons initial.number))

/-- After the history every reset in reach goes back to the last tip of the greatest origin that lies a channel timeout
before the fork. -/
def Resets (channelTimeout : UInt64) (history : History) (now : PipelineCursor) : Prop :=
  ∀ first forkBlock, history.head? = some first → now.origin.number.toNat ≤ forkBlock.toNat + 3 →
    forkBlock ≤ now.origin.number → first.1.number.toNat + channelTimeout.toNat ≤ forkBlock.toNat →
    ∃ entry, lastFor history entry.1.number = some entry ∧
      entry.1.number.toNat + channelTimeout.toNat ≤ forkBlock.toNat ∧
      (∀ k ∈ numbers history, k.toNat + channelTimeout.toNat ≤ forkBlock.toNat → k ≤ entry.1.number) ∧
      now.reset forkBlock = some (entry.2, entry.1)

theorem resets_of_rising {channelTimeout : UInt64} {initial : BlockInfo} {cursor : PipelineCursor}
    (made : new channelTimeout initial = some cursor) (noWrap : channelTimeout.toNat + 5 < 2 ^ 64) {history : History}
    (rising : (initial.number :: numbers history).Pairwise (· ≤ ·)) :
    ∃ now, cursor.advanceAll history = some now ∧ Resets channelTimeout history now := by
  have risingHistory := (List.pairwise_cons.mp rising).2
  obtain ⟨now, run, follows, last⟩ := advanceAll_tip made risingHistory
  obtain ⟨now', run', -, ordered⟩ := advanceAll_ordered made rising
  cases run.symm.trans run'
  refine ⟨now, run, fun first forkBlock starts recent _ early => ?_⟩
  have latest : ∀ k ∈ numbers history, k.toNat ≤ now.origin.number.toNat := by
    rcases List.eq_nil_or_concat history with rfl | ⟨sofar, newest, rfl⟩
    · cases starts
    · rw [List.concat_eq_append] at last risingHistory ⊢
      rw [numbers_append] at risingHistory ⊢
      rw [(last newest List.getLast?_concat).2]
      intro k member
      rcases List.mem_append.mp member with before | is_
      · exact UInt64.le_iff_toNat_le.mp (le_of_rising risingHistory before)
      · rw [List.mem_singleton.mp is_]
  obtain ⟨k, advanced, upTo, greatest⟩ : ∃ k ∈ numbers history, k.toNat + channelTimeout.toNat ≤ forkBlock.toNat ∧
      ∀ k' ∈ numbers history, k'.toNat + channelTimeout.toNat ≤ forkBlock.toNat → k' ≤ k := by
    have some_ : first.1.number ∈ (numbers history).filter fun k => k.toNat + channelTimeout.toNat ≤ forkBlock.toNat :=
      List.mem_filter.mpr ⟨List.mem_map_of_mem (List.mem_of_mem_head? starts), by simpa using early⟩
    obtain ⟨k, member, greatest⟩ := Finset.exists_max_image (List.toFinset _) id ⟨_, List.mem_toFinset.mpr some_⟩
    obtain ⟨advanced, upTo⟩ := List.mem_filter.mp (List.mem_toFinset.mp member)
    refine ⟨k, advanced, by simpa using upTo, fun k' other within => ?_⟩
    exact greatest k' (List.mem_toFinset.mpr (List.mem_filter.mpr ⟨other, by simpa using within⟩))
  have here : k ∈ now.tips.keys := by
    by_contra absent
    obtain ⟨t, later, above, old⟩ := ordered.recent_of_gone follows noWrap advanced absent latest
    exact absurd (greatest t later (by omega)) (not_le.mpr above)
  obtain ⟨tip, found⟩ := (now.tips.mem_keys_iff k).mp here
  obtain ⟨entry, isLast, rfl⟩ := follows.tips k tip found
  have number : entry.1.number = k := by simpa using List.find?_some isLast
  subst number
  refine ⟨entry, isLast, upTo, greatest, ?_⟩
  have start : (forkBlock - now.channelTimeout).toNat = forkBlock.toNat - channelTimeout.toNat := by
    rw [follows.channelTimeout, UInt64.toNat_sub_of_le _ _ (UInt64.le_iff_toNat_le.mpr (by omega))]
  have info := follows.infos _ entry isLast
  have atStart {k' : UInt64} (member : k' ∈ now.tips.keys) (below : k' ≤ forkBlock - now.channelTimeout) :
      k' ≤ entry.1.number := by
    have within := UInt64.le_iff_toNat_le.mp below
    exact greatest k' (follows.keys member) (by omega)
  have below : entry.1.number ≤ forkBlock - now.channelTimeout := UInt64.le_iff_toNat_le.mpr (by omega)
  unfold reset
  generalize forkBlock - now.channelTimeout = channelStart at start atStart below
  cases direct : now.tips.get channelStart with
  | some l2SafeTip =>
      obtain rfl := le_antisymm below (atStart ((now.tips.mem_keys_iff _).mpr ⟨_, direct⟩) le_rfl)
      cases found.symm.trans direct
      simp only [direct, info, Option.map_some]
  | none =>
      have nearest := now.tips.lastUpTo_eq_some found below fun k' member within => atStart member within
      simp only [direct, nearest, info, Option.map_some]

/-! ## Where a reset fails -/

theorem not_resets_of_panic {channelTimeout : UInt64} {history : History} {now : PipelineCursor}
    {first : BlockInfo × TipCursor} (forkBlock : UInt64) (starts : history.head? = some first)
    (recent : now.origin.number.toNat ≤ forkBlock.toNat + 3) (notAhead : forkBlock ≤ now.origin.number)
    (early : first.1.number.toNat + channelTimeout.toNat ≤ forkBlock.toNat) (panics : now.reset forkBlock = none) :
    ¬ Resets channelTimeout history now := by
  intro resets
  obtain ⟨entry, -, -, -, reset⟩ := resets first forkBlock starts recent notAhead early
  rw [panics] at reset
  cases reset

/-- Where the capacity wraps, it is less than five, and the tip of the first origin is gone at the last one. -/
theorem not_resets_of_wrap {channelTimeout : UInt64} (wraps : 2 ^ 64 ≤ channelTimeout.toNat + 5) :
    ∃ initial cursor history now, new channelTimeout initial = some cursor ∧
      (initial.number :: numbers history).Pairwise (· ≤ ·) ∧ cursor.advanceAll history = some now ∧
      ¬ Resets channelTimeout history now := by
  have bound := channelTimeout.toNat_lt
  have timeouts : channelTimeout = 0xFFFFFFFFFFFFFFFB ∨ channelTimeout = 0xFFFFFFFFFFFFFFFC ∨
      channelTimeout = 0xFFFFFFFFFFFFFFFD ∨ channelTimeout = 0xFFFFFFFFFFFFFFFE ∨ channelTimeout = 0xFFFFFFFFFFFFFFFF := by
    simp only [← UInt64.toNat_inj, UInt64.reduceToNat]
    omega
  rcases timeouts with rfl | rfl | rfl | rfl | rfl
  · exact ⟨cursorBlock 0, _, advancesAt [0, 0xFFFFFFFFFFFFFFFF], _, rfl, by decide, rfl,
      not_resets_of_panic 0xFFFFFFFFFFFFFFFC rfl (by decide) (by decide) (by decide) (by decide)⟩
  · exact ⟨cursorBlock 0, _, advancesAt [0, 0xFFFFFFFFFFFFFFFF], _, rfl, by decide, rfl,
      not_resets_of_panic 0xFFFFFFFFFFFFFFFC rfl (by decide) (by decide) (by decide) (by decide)⟩
  · exact ⟨cursorBlock 0, _, advancesAt [0, 1, 0xFFFFFFFFFFFFFFFF], _, rfl, by decide, rfl,
      not_resets_of_panic 0xFFFFFFFFFFFFFFFD rfl (by decide) (by decide) (by decide) (by decide)⟩
  · exact ⟨cursorBlock 0, _, advancesAt [0, 1, 2, 0xFFFFFFFFFFFFFFFF], _, rfl, by decide, rfl,
      not_resets_of_panic 0xFFFFFFFFFFFFFFFE rfl (by decide) (by decide) (by decide) (by decide)⟩
  · exact ⟨cursorBlock 0, _, advancesAt [0, 1, 2, 3, 0xFFFFFFFFFFFFFFFF], _, rfl, by decide, rfl,
      not_resets_of_panic 0xFFFFFFFFFFFFFFFF rfl (by decide) (by decide) (by decide) (by decide)⟩

/-- The tip of an origin that was advanced is gone, though a reset may have to go back to it. -/
theorem not_resets_of_gone {channelTimeout : UInt64} {history : History} {now : PipelineCursor}
    (follows : Follows channelTimeout history now) {first : BlockInfo × TipCursor} (starts : history.head? = some first)
    {k forkBlock : UInt64} (advanced : k ∈ numbers history) (gone : k ∉ now.tips.keys) (oldest : first.1.number ≤ k)
    (fork : forkBlock.toNat = k.toNat + channelTimeout.toNat) (recent : now.origin.number.toNat ≤ forkBlock.toNat + 3)
    (notAhead : forkBlock ≤ now.origin.number) : ¬ Resets channelTimeout history now := by
  intro resets
  have early := UInt64.le_iff_toNat_le.mp oldest
  obtain ⟨entry, -, upTo, greatest, reset⟩ := resets first forkBlock starts recent notAhead (by omega)
  have number : entry.1.number = k := le_antisymm (UInt64.le_iff_toNat_le.mpr (by omega)) (greatest k advanced (by omega))
  have start : forkBlock - now.channelTimeout = k := by
    apply UInt64.toNat_inj.mp
    rw [follows.channelTimeout, UInt64.toNat_sub_of_le _ _ (UInt64.le_iff_toNat_le.mpr (by omega))]
    omega
  have absent : now.tips.get k = none := Option.eq_none_iff_forall_ne_some.mpr fun tip here =>
    gone ((now.tips.mem_keys_iff k).mpr ⟨tip, here⟩)
  unfold PipelineCursor.reset at reset
  simp only [start, absent] at reset
  cases nearest : now.tips.lastUpTo k with
  | none =>
      rw [nearest] at reset
      cases reset
  | some known =>
      obtain ⟨k', tip⟩ := known
      -- What is found instead is the tip of an older origin.
      have there : k' ∈ now.tips.keys :=
        List.mem_map_of_mem (f := Prod.fst) (List.mem_filter.mp (List.mem_of_getLast? nearest)).1
      obtain ⟨last, isLast⟩ := Option.isSome_iff_exists.mp ((lastFor_isSome_iff history k').mpr (follows.keys there))
      have lastNumber : last.1.number = k' := by simpa using List.find?_some isLast
      simp only [nearest, follows.infos k' last isLast, Option.map_some, Option.some.injEq, Prod.mk.injEq] at reset
      rw [← reset.2, lastNumber] at number
      exact gone (number ▸ there)

theorem Advances.stays_gone {cursor next : PipelineCursor} {entry : BlockInfo × TipCursor}
    (advances : Advances cursor entry next) {k : UInt64} (gone : k ∉ cursor.tips.keys) (other : entry.1.number ≠ k) :
    k ∉ next.tips.keys := by
  intro there
  obtain ⟨tip, here⟩ := (next.tips.mem_keys_iff k).mp there
  rcases advances.tip_cases here with ⟨same, -⟩ | ⟨-, before⟩
  · exact other same.symm
  · exact gone ((cursor.tips.mem_keys_iff k).mpr ⟨tip, before⟩)

/-- The number of the initial origin is the first in the queue. If the origin is advanced to while the cursor fills up
with older ones, its tip is the first to go. -/
theorem evicts_initial {channelTimeout : UInt64} {initial : BlockInfo} {cursor : PipelineCursor}
    (made : new channelTimeout initial = some cursor) {before : History} (full : before.length = cursor.capacity)
    (distinct : (numbers before).Nodup) {entry : BlockInfo × TipCursor} (other : entry.1.number ≠ initial.number)
    {after : History} (later : ∀ k ∈ numbers after, k ≠ initial.number) :
    ∃ now, cursor.advanceAll (before ++ entry :: after) = some now ∧
      Follows channelTimeout (before ++ entry :: after) now ∧ initial.number ∉ now.tips.keys := by
  induction after using List.reverseRecOn with
  | nil =>
      obtain ⟨filled, run, capacity, unevicted⟩ := advanceAll_unevicted made full.le
      have follows : Follows channelTimeout before filled := by
        obtain ⟨filled', run', follows, -⟩ := advanceAll_keeps (fun _ _ => True) made trivial
          (fun _ _ _ _ (_ : _ <+: before) _ _ _ => trivial)
        cases run.symm.trans run'
        exact follows
      obtain ⟨next, advanced, advances⟩ := advance_advances follows.nonempty entry
      refine ⟨next, by rw [advanceAll_append, run]; exact advanced, follows.advance advances, fun there => ?_⟩
      have many : before.length ≤ filled.tips.entries.length := by
        have within : numbers before ⊆ filled.tips.keys := fun k member => (unevicted.keys k).mpr member
        have bound := (distinct.subperm within).length_le
        rwa [numbers, List.length_map, OrderedMap.keys, List.length_map] at bound
      obtain ⟨tip, here⟩ := (next.tips.mem_keys_iff _).mp there
      rcases advances.kept with ⟨room, -, -⟩ | ⟨key, origins, -, queue, -, tips⟩
      · omega
      · rw [unevicted.origins] at queue
        cases queue
        rw [tips, OrderedMap.get_insert, if_neg other.symm] at here
        exact ((filled.tips.mem_keys_erase _ _).mp ((OrderedMap.mem_keys_iff _ _).mpr ⟨tip, here⟩)).1 rfl
  | append_singleton after last ih =>
      rw [numbers_append] at later
      obtain ⟨now, run, follows, gone⟩ := ih fun k member => later k (List.mem_append_left _ member)
      obtain ⟨next, advanced, advances⟩ := advance_advances follows.nonempty last
      have split : before ++ entry :: (after ++ [last]) = (before ++ entry :: after) ++ [last] := by simp
      rw [split]
      refine ⟨next, by rw [advanceAll_append, run]; exact advanced, follows.advance advances, ?_⟩
      exact advances.stays_gone gone (later _ (List.mem_append_right _ List.mem_cons_self))

/-- A cursor can always be reset over a reorg, over all runs that do not go below its initial origin, exactly if its
capacity does not wrap. A run that begins below it and fills the cursor on the way up has lost the tip of the initial
origin once it goes on. -/
theorem reset_returns (channelTimeout : UInt64) :
    ((∀ initial cursor history, new channelTimeout initial = some cursor →
        (initial.number :: numbers history).Pairwise (· ≤ ·) →
        ∃ now, cursor.advanceAll history = some now ∧ Resets channelTimeout history now) ↔
      channelTimeout.toNat + 5 < 2 ^ 64) ∧
    ∀ initial cursor before entry after, new channelTimeout initial = some cursor → before.length = cursor.capacity →
      (numbers before).Nodup → initial.number ∈ numbers before → (numbers (before ++ entry :: after)).Pairwise (· ≤ ·) →
      initial.number < entry.1.number →
      ∃ now, cursor.advanceAll (before ++ entry :: after) = some now ∧
        ∀ forkBlock, forkBlock.toNat = initial.number.toNat + channelTimeout.toNat →
          now.origin.number.toNat ≤ forkBlock.toNat + 3 → forkBlock ≤ now.origin.number →
          ¬ Resets channelTimeout (before ++ entry :: after) now := by
  refine ⟨⟨fun all => ?_, fun noWrap initial cursor history made rising => resets_of_rising made noWrap rising⟩, ?_⟩
  · by_contra wraps
    obtain ⟨initial, cursor, history, now, made, rising, run, fails⟩ := not_resets_of_wrap (Nat.not_lt.mp wraps)
    obtain ⟨now', run', resets⟩ := all initial cursor history made rising
    cases run.symm.trans run'
    exact fails resets
  · intro initial cursor before entry after made full distinct advanced rising above
    obtain ⟨first, sofar, rfl⟩ : ∃ first sofar, before = first :: sofar := by
      cases before with
      | nil => cases advanced
      | cons first sofar => exact ⟨first, sofar, rfl⟩
    have split : numbers (first :: sofar ++ entry :: after) = numbers (first :: sofar) ++ (entry.1.number :: numbers after) := by
      simp [numbers]
    rw [split] at rising
    obtain ⟨front, back, -⟩ := List.pairwise_append.mp rising
    have later : ∀ k ∈ numbers after, k ≠ initial.number := fun k member =>
      (above.trans_le ((List.pairwise_cons.mp back).1 k member)).ne'
    have oldest : first.1.number ≤ initial.number := by
      rcases List.mem_cons.mp advanced with same | later
      · exact same.ge
      · exact (List.pairwise_cons.mp front).1 _ later
    obtain ⟨now, run, follows, gone⟩ := evicts_initial made full distinct above.ne' later
    refine ⟨now, run, fun forkBlock fork recent notAhead => ?_⟩
    exact not_resets_of_gone follows rfl (split ▸ List.mem_append_left _ advanced) gone oldest fork recent notAhead

theorem reset_returns_after_advances :
    (∃ cursor, new 1 (cursorBlock 7) = some cursor ∧
      ∃ now, cursor.advanceAll (advancesAt [7, 8, 8, 10]) = some now ∧ Resets 1 (advancesAt [7, 8, 8, 10]) now) ∧
    ∃ cursor, new 0 (cursorBlock 100) = some cursor ∧
      ∃ now, cursor.advanceAll (advancesAt [96, 97, 98, 99, 100, 101]) = some now ∧
        ¬ Resets 0 (advancesAt [96, 97, 98, 99, 100, 101]) now := by
  refine ⟨⟨_, rfl, (reset_returns 1).1.mpr (by decide) _ _ _ rfl (by decide)⟩, _, rfl, ?_⟩
  obtain ⟨now, run, fails⟩ := (reset_returns 0).2 (cursorBlock 100) _ (advancesAt [96, 97, 98, 99, 100])
    (cursorBlock 101, cursorTip 101) [] rfl rfl (by decide) (by decide) (by decide) (by decide)
  cases run
  exact ⟨_, rfl, fails 100 (by decide) (by decide) (by decide)⟩

/-- Where the capacity wraps, the second advance evicts the only tip, and a reset behind it panics. Where the first
origins are below the initial one, the tip of an origin that is queued twice is evicted too early. -/
theorem reset_fails :
    (∃ cursor now, new 0xFFFFFFFFFFFFFFFB (cursorBlock 0) = some cursor ∧ cursor.capacity = 0 ∧
      cursor.advanceAll (advancesAt [0, 0xFFFFFFFFFFFFFFFF]) = some now ∧ now.origin.number = 0xFFFFFFFFFFFFFFFF ∧
      now.reset 0xFFFFFFFFFFFFFFFC = none) ∧
    ∃ cursor now, new 0 (cursorBlock 100) = some cursor ∧
      cursor.advanceAll (advancesAt [96, 97, 98, 99, 100, 101]) = some now ∧
      now.reset 100 = some (cursorTip 99, cursorBlock 99) :=
  ⟨⟨_, _, rfl, rfl, rfl, rfl, by decide⟩, ⟨_, _, rfl, rfl, by decide⟩⟩

end PipelineCursor

end KonaSoon.Driver
