import KonaSoon.Derive.BatchQueue
import KonaSoon.Derive.Stability

/-!
# Which batch the queue takes

One call of `derive_next_batch` goes through the queued batches in the order in which they were included. It
throws away what can never be accepted any more, stops at the first batch that it accepts or cannot judge yet,
and keeps everything behind it.
-/

namespace KonaSoon.Derive
open Lib

def BatchValidity.Discards (verdict : BatchValidity) : Prop := verdict = .drop ∨ verdict = .past ∨ verdict = .future

section Checks

variable {F : Type} [L2ChainProvider F] {cfg : SoonRollupConfig} {l1Blocks : List BlockInfo} {parent : L2BlockInfo}

/-! ## A check has a verdict unless it divides by zero -/

theorem SpanBatch.findParent_eq_none {first : SpanBatchElement} {fetcher : F}
    (fails : (findParent cfg parent first fetcher).2 = none) : cfg.blockTime = 0 := by
  unfold findParent at fails
  split at fails
  · split at fails
    · cases fails
    · split at fails
      · assumption
      · split at fails
        · cases fails
        · dsimp only at fails
          split at fails <;> cases fails
  · cases fails

theorem SpanBatch.checkElements_ne_none {safeTimestamp : UInt64} {originIndex : Nat} {originAdvanced : Bool}
    {previous : Option SpanBatchElement} {elements : List SpanBatchElement} (within : originIndex < l1Blocks.length) :
    checkElements cfg l1Blocks safeTimestamp originIndex originAdvanced previous elements ≠ none := by
  induction elements generalizing originIndex originAdvanced previous with
  | nil => exact nofun
  | cons element rest ih =>
      have found := findOrigin_lt element.epochNum within
      unfold checkElements
      split
      · exact ih within
      · dsimp only
        rw [List.getElem?_eq_getElem found]
        dsimp only
        split
        · exact nofun
        · split
          · exact nofun
          · exact ih found

theorem SpanBatch.checkBatchPrefix_eq_none {batch : SpanBatch} {inclusionBlock : BlockInfo} {fetcher : F}
    (fails : (batch.checkBatchPrefix cfg l1Blocks parent inclusionBlock fetcher).2 = none) : cfg.blockTime = 0 := by
  unfold checkBatchPrefix at fails
  split at fails
  · cases fails
  · cases fails
  · rename_i epoch later first rest elements
    dsimp only at fails
    split at fails
    · cases fails
    · split at fails
      · cases fails
      · split at fails
        · cases fails
        · rcases found : findParent cfg parent first fetcher with ⟨after, answer⟩
          rw [found] at fails
          cases answer with
          | none => exact findParent_eq_none (congrArg Prod.snd found)
          | some answer =>
              cases answer with
              | error verdict => cases fails
              | ok block => cases fails

theorem SpanBatch.checkBatch_eq_none {batch : SpanBatch} {inclusionBlock : BlockInfo} {fetcher : F}
    (fails : (batch.checkBatch cfg l1Blocks parent inclusionBlock fetcher).2 = none) : cfg.blockTime = 0 := by
  unfold checkBatch at fails
  rcases checked : batch.checkBatchPrefix cfg l1Blocks parent inclusionBlock fetcher with ⟨after, answer⟩
  rw [checked] at fails
  cases answer with
  | none => exact checkBatchPrefix_eq_none (congrArg Prod.snd checked)
  | some answer =>
      obtain ⟨verdict, found⟩ := answer
      cases verdict with
      | accept =>
          obtain ⟨first, block, same, epoch, later, rest, blocks, elements, -⟩ :=
            (checkBatchPrefix_accept_iff batch cfg l1Blocks parent inclusionBlock fetcher found).mp
              (congrArg Prod.snd checked)
          subst same
          rw [elements] at fails
          exact absurd fails (checkElements_ne_none (by rw [blocks]; exact Nat.succ_pos _))
      | drop => cases fails
      | undecided => cases fails
      | future => cases fails
      | past => cases fails

theorem BatchWithInclusionBlock.checkBatch_eq_none {data : BatchWithInclusionBlock} {fetcher : F}
    (fails : (data.checkBatch cfg l1Blocks parent fetcher).2 = none) : cfg.blockTime = 0 := by
  unfold BatchWithInclusionBlock.checkBatch at fails
  split at fails
  · cases fails
  · exact SpanBatch.checkBatch_eq_none fails

/-! ## The search -/

inductive Skipped (cfg : SoonRollupConfig) (l1Blocks : List BlockInfo) (parent : L2BlockInfo) :
    F → List BatchWithInclusionBlock → F → Prop where
  | nil (fetcher : F) : Skipped cfg l1Blocks parent fetcher [] fetcher
  | cons {fetcher after last : F} {data : BatchWithInclusionBlock} {rest : List BatchWithInclusionBlock}
      {verdict : BatchValidity} (judged : data.checkBatch cfg l1Blocks parent fetcher = (after, some verdict))
      (discards : verdict.Discards) (later : Skipped cfg l1Blocks parent after rest last) :
      Skipped cfg l1Blocks parent fetcher (data :: rest) last

theorem exists_skipped (cfg : SoonRollupConfig) (l1Blocks : List BlockInfo) (parent : L2BlockInfo) (fetcher : F)
    (batches : List BatchWithInclusionBlock) :
    (∃ last, Skipped cfg l1Blocks parent fetcher batches last) ∨
    ∃ skipped data rest after, batches = skipped ++ data :: rest ∧ Skipped cfg l1Blocks parent fetcher skipped after ∧
      ((data.checkBatch cfg l1Blocks parent after).2 = some .accept ∨
        (data.checkBatch cfg l1Blocks parent after).2 = some .undecided ∨
        (data.checkBatch cfg l1Blocks parent after).2 = none) := by
  induction batches generalizing fetcher with
  | nil => exact .inl ⟨fetcher, .nil fetcher⟩
  | cons data rest ih =>
      have onward : ∀ {after : F} {verdict : BatchValidity},
          data.checkBatch cfg l1Blocks parent fetcher = (after, some verdict) → verdict.Discards →
          (∃ last, Skipped cfg l1Blocks parent fetcher (data :: rest) last) ∨
          ∃ skipped data' rest' after', data :: rest = skipped ++ data' :: rest' ∧
            Skipped cfg l1Blocks parent fetcher skipped after' ∧
            ((data'.checkBatch cfg l1Blocks parent after').2 = some .accept ∨
              (data'.checkBatch cfg l1Blocks parent after').2 = some .undecided ∨
              (data'.checkBatch cfg l1Blocks parent after').2 = none) := by
        intro after verdict judged discards
        rcases ih after with ⟨last, all⟩ | ⟨skipped, data', rest', after', split, some_, stops⟩
        · exact .inl ⟨last, .cons judged discards all⟩
        · exact .inr ⟨data :: skipped, data', rest', after', by rw [split, List.cons_append], .cons judged discards some_,
            stops⟩
      rcases judged : data.checkBatch cfg l1Blocks parent fetcher with ⟨after, answer⟩
      cases answer with
      | none => exact .inr ⟨[], data, rest, fetcher, rfl, .nil fetcher, by rw [judged]; exact .inr (.inr rfl)⟩
      | some verdict =>
          cases verdict with
          | accept => exact .inr ⟨[], data, rest, fetcher, rfl, .nil fetcher, by rw [judged]; exact .inl rfl⟩
          | undecided => exact .inr ⟨[], data, rest, fetcher, rfl, .nil fetcher, by rw [judged]; exact .inr (.inl rfl)⟩
          | drop => exact onward judged (.inl rfl)
          | past => exact onward judged (.inr (.inl rfl))
          | future => exact onward judged (.inr (.inr rfl))

namespace BatchQueue

variable {P : Type} [NextBatchProvider P]

theorem search_skipped {fetcher after : F} {skipped : List BatchWithInclusionBlock}
    (all : Skipped cfg l1Blocks parent fetcher skipped after) (tail : List BatchWithInclusionBlock) (prev : P) :
    ∃ prev', search cfg l1Blocks parent prev fetcher (skipped ++ tail) = search cfg l1Blocks parent prev' after tail := by
  induction all generalizing prev with
  | nil fetcher => exact ⟨prev, rfl⟩
  | cons judged discards later ih =>
      rcases discards with rfl | rfl | rfl
      · obtain ⟨prev', same⟩ := ih (NextBatchProvider.flush prev)
        exact ⟨prev', by rw [List.cons_append, search, judged]; exact same⟩
      · obtain ⟨prev', same⟩ := ih prev
        exact ⟨prev', by rw [List.cons_append, search, judged]; exact same⟩
      · obtain ⟨prev', same⟩ := ih (NextBatchProvider.flush prev)
        exact ⟨prev', by rw [List.cons_append, search, judged]; exact same⟩

/-! ## One call -/

def Stops (queue : BatchQueue P F) (parent : L2BlockInfo) (data : BatchWithInclusionBlock)
    (rest : List BatchWithInclusionBlock) (verdict : BatchValidity) : Prop :=
  ∃ skipped after, queue.batches = skipped ++ data :: rest ∧
    Skipped queue.cfg queue.l1Blocks parent queue.fetcher skipped after ∧
    (data.checkBatch queue.cfg queue.l1Blocks parent after).2 = some verdict

def SkipsAll (queue : BatchQueue P F) (parent : L2BlockInfo) : Prop :=
  ∃ last, Skipped queue.cfg queue.l1Blocks parent queue.fetcher queue.batches last

/-- The sequencing window of the epoch lies before the origin, or ends there and there is no more data. -/
def WindowExpired (queue : BatchQueue P F) (empty : Bool) (origin epoch : BlockInfo) : Prop :=
  epoch.number + queue.cfg.seqWindowSize < origin.number ∨
    epoch.number + queue.cfg.seqWindowSize = origin.number ∧ empty = true

def emptyBatchOn (queue : BatchQueue P F) (parent : L2BlockInfo) (epoch : BlockInfo) : SingleBatch :=
  ⟨parent.blockInfo.hash, epoch.number, epoch.hash, parent.blockInfo.timestamp + queue.cfg.blockTime, []⟩

def OriginMatches (parent : L2BlockInfo) (epoch : BlockInfo) : Prop :=
  ¬ (parent.blockInfo.number ≠ 0 ∧ parent.l1Origin ≠ epoch.id ∧ parent.l1Origin.number ≠ epoch.number - 1)

section Call

variable {queue : BatchQueue P F} (empty : Bool) {epoch origin : BlockInfo} {later : List BlockInfo}
  (blocks : queue.l1Blocks = epoch :: later) (matches_ : OriginMatches parent epoch)
  (at_ : queue.origin = some origin)
include blocks matches_ at_

theorem deriveNextBatch_of_stops {data : BatchWithInclusionBlock} {rest : List BatchWithInclusionBlock}
    {verdict : BatchValidity} (stops : queue.Stops parent data rest verdict) :
    (verdict = .accept → (queue.deriveNextBatch empty parent).2 = .ok data.batch ∧
      (queue.deriveNextBatch empty parent).1.batches = rest) ∧
    (verdict = .undecided → (queue.deriveNextBatch empty parent).2 = PipelineError.eof.temp ∧
      (queue.deriveNextBatch empty parent).1.batches = data :: rest) := by
  obtain ⟨skipped, after, split, all, judged⟩ := stops
  obtain ⟨prev', found⟩ := search_skipped all (data :: rest) queue.prev
  rcases checked : data.checkBatch queue.cfg queue.l1Blocks parent after with ⟨last, answer⟩
  rw [checked] at judged
  cases judged
  constructor
  · rintro rfl
    have stopped : search queue.cfg queue.l1Blocks parent queue.prev queue.fetcher queue.batches =
        (prev', last, rest, some (.accepted data.batch)) := by
      rw [split, found, search, checked]
    unfold deriveNextBatch
    rw [stopped]
    simp only [blocks, if_neg matches_, at_, and_self]
  · rintro rfl
    have stopped : search queue.cfg queue.l1Blocks parent queue.prev queue.fetcher queue.batches =
        (prev', last, data :: rest, some .undecided) := by
      rw [split, found, search, checked]
    unfold deriveNextBatch
    rw [stopped]
    simp only [blocks, if_neg matches_, at_, and_self]

theorem deriveNextBatch_of_skipsAll (all : queue.SkipsAll parent) :
    (queue.deriveNextBatch empty parent).1.batches = [] ∧
    ∀ batch, (queue.deriveNextBatch empty parent).2 = .ok batch →
      queue.WindowExpired empty origin epoch ∧ batch = .single (queue.emptyBatchOn parent epoch) := by
  obtain ⟨last, all⟩ := all
  obtain ⟨prev', found⟩ := search_skipped all [] queue.prev
  have exhausted : search queue.cfg queue.l1Blocks parent queue.prev queue.fetcher queue.batches =
      (prev', last, [], some .exhausted) := by
    rw [List.append_nil] at found
    rw [found, search]
  unfold deriveNextBatch
  rw [exhausted]
  simp only [blocks, if_neg matches_, at_]
  unfold forceEmptyBatch
  dsimp only
  split
  · exact ⟨rfl, nofun⟩
  · rename_i expired
    have expired := not_not.mp expired
    cases later with
    | nil => exact ⟨rfl, nofun⟩
    | cons nextEpoch later =>
        dsimp only
        split
        · refine ⟨rfl, fun batch forced => ⟨?_, ?_⟩⟩
          · rcases expired with ⟨here, noData⟩ | past
            · exact .inr ⟨here, noData⟩
            · exact .inl past
          · cases forced
            rfl
        · exact ⟨rfl, nofun⟩

theorem deriveNextBatch_of_panic {skipped rest : List BatchWithInclusionBlock} {data : BatchWithInclusionBlock} {after : F}
    (split : queue.batches = skipped ++ data :: rest)
    (all : Skipped queue.cfg queue.l1Blocks parent queue.fetcher skipped after)
    (fails : (data.checkBatch queue.cfg queue.l1Blocks parent after).2 = none) :
    queue.cfg.blockTime = 0 ∧ (queue.deriveNextBatch empty parent).2 = .error .panic := by
  refine ⟨BatchWithInclusionBlock.checkBatch_eq_none fails, ?_⟩
  obtain ⟨prev', found⟩ := search_skipped all (data :: rest) queue.prev
  rcases checked : data.checkBatch queue.cfg queue.l1Blocks parent after with ⟨last, answer⟩
  rw [checked] at fails
  cases fails
  have stopped : search queue.cfg queue.l1Blocks parent queue.prev queue.fetcher queue.batches =
      (prev', last, data :: rest, none) := by
    rw [split, found, search, checked]
  unfold deriveNextBatch
  rw [stopped]
  simp only [blocks, if_neg matches_, at_]

end Call

/-- One call takes the first batch that it accepts, unless there is one before it that it cannot judge yet; it
keeps the batches it has not judged in their order; and it makes up an empty batch only for an epoch whose
window has expired, when it has judged and thrown away every batch. One of the three cases applies to every
queue, except that with a block time of zero the check of a span batch may panic. -/
theorem deriveNextBatch_selects (queue : BatchQueue P F) (empty : Bool) (parent : L2BlockInfo) (epoch origin : BlockInfo)
    (later : List BlockInfo) (blocks : queue.l1Blocks = epoch :: later) (matches_ : OriginMatches parent epoch)
    (at_ : queue.origin = some origin) :
    (∀ data rest, queue.Stops parent data rest .accept →
      (queue.deriveNextBatch empty parent).2 = .ok data.batch ∧
      (queue.deriveNextBatch empty parent).1.batches = rest) ∧
    (∀ data rest, queue.Stops parent data rest .undecided →
      (queue.deriveNextBatch empty parent).2 = PipelineError.eof.temp ∧
      (queue.deriveNextBatch empty parent).1.batches = data :: rest) ∧
    (queue.SkipsAll parent → (queue.deriveNextBatch empty parent).1.batches = []) ∧
    (∀ batch, (queue.deriveNextBatch empty parent).2 = .ok batch →
      (∃ data rest, queue.Stops parent data rest .accept ∧ data.batch = batch) ∨
      queue.SkipsAll parent ∧ queue.WindowExpired empty origin epoch ∧
        batch = .single (queue.emptyBatchOn parent epoch)) ∧
    ((∃ data rest, queue.Stops parent data rest .accept) ∨ (∃ data rest, queue.Stops parent data rest .undecided) ∨
      queue.SkipsAll parent ∨
      queue.cfg.blockTime = 0 ∧ (queue.deriveNextBatch empty parent).2 = .error .panic) := by
  have cases_ := exists_skipped queue.cfg queue.l1Blocks parent queue.fetcher queue.batches
  refine ⟨fun data rest stops => (deriveNextBatch_of_stops empty blocks matches_ at_ stops).1 rfl,
    fun data rest stops => (deriveNextBatch_of_stops empty blocks matches_ at_ stops).2 rfl,
    fun all => (deriveNextBatch_of_skipsAll empty blocks matches_ at_ all).1, ?_, ?_⟩
  · intro batch returned
    rcases cases_ with all | ⟨skipped, data, rest, after, split, some_, accepted | undecided | fails⟩
    · exact .inr ⟨all, (deriveNextBatch_of_skipsAll empty blocks matches_ at_ all).2 batch returned⟩
    · have stops : queue.Stops parent data rest .accept := ⟨skipped, after, split, some_, accepted⟩
      have result := ((deriveNextBatch_of_stops empty blocks matches_ at_ stops).1 rfl).1
      rw [result] at returned
      cases returned
      exact .inl ⟨data, rest, stops, rfl⟩
    · have stops : queue.Stops parent data rest .undecided := ⟨skipped, after, split, some_, undecided⟩
      have result := ((deriveNextBatch_of_stops empty blocks matches_ at_ stops).2 rfl).1
      rw [result] at returned
      cases returned
    · have result := (deriveNextBatch_of_panic empty blocks matches_ at_ split some_ fails).2
      rw [result] at returned
      cases returned
  · rcases cases_ with all | ⟨skipped, data, rest, after, split, some_, accepted | undecided | fails⟩
    · exact .inr (.inr (.inl all))
    · exact .inl ⟨data, rest, skipped, after, split, some_, accepted⟩
    · exact .inr (.inl ⟨data, rest, skipped, after, split, some_, undecided⟩)
    · exact .inr (.inr (.inr (deriveNextBatch_of_panic empty blocks matches_ at_ split some_ fails)))

end BatchQueue

end Checks

structure NoBatches where

instance : NextBatchProvider NoBatches where
  origin _ := some (blockAt 9)
  advanceOrigin stage := (stage, PipelineError.eof.temp)
  signal stage _ := (stage, .ok ())
  nextBatch stage _ _ := (stage, PipelineError.eof.temp)
  flush stage := stage

namespace BatchQueue

def pastBatch : BatchWithInclusionBlock := ⟨blockAt 8, .single ⟨bigEndian 32 39, 8, bigEndian 32 8, 94, []⟩⟩

def threeBatches : BatchQueue NoBatches NoBlocks :=
  ⟨⟨20, 10, 2⟩, ⟨⟩, some (blockAt 9), [blockAt 8, blockAt 9], [pastBatch, childBatch, pastBatch], [], ⟨⟩⟩

theorem deriveNextBatch_selects_second : OriginMatches safeBlock (blockAt 8) ∧
    (threeBatches.deriveNextBatch false safeBlock).2 = .ok childBatch.batch ∧
    (threeBatches.deriveNextBatch false safeBlock).1.batches = [pastBatch] := by
  have matches_ : OriginMatches safeBlock (blockAt 8) := by
    intro mismatch
    exact mismatch.2.1 rfl
  have past : pastBatch.checkBatch threeBatches.cfg threeBatches.l1Blocks safeBlock NoBlocks.mk =
      (NoBlocks.mk, some .past) := Prod.ext rfl (by decide +kernel)
  have accepted : (childBatch.checkBatch threeBatches.cfg threeBatches.l1Blocks safeBlock NoBlocks.mk).2 =
      some .accept := by decide +kernel
  have stops : threeBatches.Stops safeBlock childBatch [pastBatch] .accept :=
    ⟨[pastBatch], NoBlocks.mk, rfl, .cons past (.inr (.inl rfl)) (.nil _), accepted⟩
  exact ⟨matches_, (deriveNextBatch_selects threeBatches false safeBlock (blockAt 8) (blockAt 9) [blockAt 9] rfl
    matches_ rfl).1 childBatch [pastBatch] stops⟩

end BatchQueue

end KonaSoon.Derive
