import KonaSoon.Derive.BatchQueue
import KonaSoon.Derive.Rules

namespace KonaSoon.Derive
open Lib Mpt

variable {P F : Type} [NextBatchProvider P] [L2ChainProvider F] (deserialize : BincodeDeserialize)

def Forged (transactions : List (List UInt8)) : Prop := ∃ tx ∈ transactions, isNative deserialize tx

instance (transactions : List (List UInt8)) : Decidable (Forged deserialize transactions) :=
  inferInstanceAs (Decidable (∃ tx ∈ transactions, isNative deserialize tx))

def examined (cfg : SoonRollupConfig) (l1Blocks : List BlockInfo) (parent : L2BlockInfo) :
    F → List BatchWithInclusionBlock → List (BatchWithInclusionBlock × F)
  | _, [] => []
  | fetcher, data :: rest => (data, fetcher) ::
      match data.checkBatch cfg l1Blocks parent fetcher with
      | (_, none) => []
      | (_, some .accept) => []
      | (_, some .undecided) => []
      | (fetcher, some _) => examined cfg l1Blocks parent fetcher rest

theorem search_accepted {cfg : SoonRollupConfig} {l1Blocks : List BlockInfo} {parent : L2BlockInfo} {prev prev' : P}
    {fetcher fetcher' : F} {batches rest : List BatchWithInclusionBlock} {batch : Batch}
    (searches : BatchQueue.search cfg l1Blocks parent prev fetcher batches =
      (prev', fetcher', rest, some (.accepted batch))) :
    ∃ entry ∈ examined cfg l1Blocks parent fetcher batches, entry.1.batch = batch ∧
      entry.1.MeetsRules cfg l1Blocks parent entry.2 := by
  induction batches generalizing prev fetcher with
  | nil => cases searches
  | cons data batches ih =>
      have accepts := data.checkBatch_accept_iff cfg l1Blocks parent fetcher
      rw [BatchQueue.search] at searches
      rw [examined]
      generalize data.checkBatch cfg l1Blocks parent fetcher = checked at searches accepts
      obtain ⟨later, _ | verdict⟩ := checked
      · cases searches
      · cases verdict with
        | accept =>
            cases searches
            exact ⟨(data, fetcher), List.mem_cons_self, rfl, accepts.mp rfl⟩
        | undecided => cases searches
        | drop =>
            obtain ⟨entry, mem, found⟩ := ih searches
            exact ⟨entry, List.mem_cons_of_mem _ mem, found⟩
        | future =>
            obtain ⟨entry, mem, found⟩ := ih searches
            exact ⟨entry, List.mem_cons_of_mem _ mem, found⟩
        | past =>
            obtain ⟨entry, mem, found⟩ := ih searches
            exact ⟨entry, List.mem_cons_of_mem _ mem, found⟩

theorem deriveNextBatch_ok {queue after : BatchQueue P F} {empty : Bool} {parent : L2BlockInfo} {batch : Batch}
    (derives : queue.deriveNextBatch empty parent = (after, .ok batch)) :
    batch.transactions = [] ∨
      ∃ entry ∈ examined queue.cfg queue.l1Blocks parent queue.fetcher queue.batches, entry.1.batch = batch ∧
        entry.1.MeetsRules queue.cfg queue.l1Blocks parent entry.2 := by
  unfold BatchQueue.deriveNextBatch at derives
  split at derives
  · cases derives
  · rename_i epoch later blocks
    split at derives
    · cases derives
    · split at derives
      · cases derives
      · split at derives
        · cases derives
        · cases derives
        · rename_i searches
          cases derives
          rw [blocks] at searches ⊢
          exact .inr (search_accepted searches)
        · left
          simp only [BatchQueue.forceEmptyBatch] at derives
          repeat' split at derives
          all_goals cases derives
          rfl

theorem deriveNextBatch_nextSpans (queue : BatchQueue P F) (empty : Bool) (parent : L2BlockInfo) :
    (queue.deriveNextBatch empty parent).1.nextSpans = queue.nextSpans := by
  unfold BatchQueue.deriveNextBatch
  repeat' split
  all_goals try rfl
  simp only [BatchQueue.forceEmptyBatch]
  repeat' split
  all_goals rfl

theorem advanceEpoch_nextSpans {P F : Type} (queue : BatchQueue P F) (parent : L2BlockInfo) :
    (queue.advanceEpoch parent).nextSpans = queue.nextSpans := by
  unfold BatchQueue.advanceEpoch
  repeat' split
  all_goals rfl

theorem updateOrigin_nextSpans {F : Type} (queue : BatchQueue P F) (parent : L2BlockInfo) :
    (queue.updateOrigin parent).1.nextSpans = queue.nextSpans := by
  simp only [BatchQueue.updateOrigin]
  repeat' split
  all_goals rfl

theorem addBatch_nextSpans (queue : BatchQueue P F) (batch : Batch) (parent : L2BlockInfo) :
    (queue.addBatch batch parent).1.nextSpans = queue.nextSpans := by
  unfold BatchQueue.addBatch
  split
  · rfl
  · split
    · rfl
    · simp only
      repeat' split
      all_goals rfl

theorem pullBatch_nextSpans (queue : BatchQueue P F) (parent : L2BlockInfo) (originBehind : Bool) :
    (queue.pullBatch parent originBehind).1.nextSpans = queue.nextSpans := by
  unfold BatchQueue.pullBatch
  split
  · rename_i prev batch pulled
    have added := addBatch_nextSpans { queue with prev } batch parent
    split
    · rfl
    · generalize BatchQueue.addBatch { queue with prev } batch parent = result at added
      split <;> exact added
  · rfl
  · rfl

theorem takeIn_nextSpans (queue : BatchQueue P F) (parent : L2BlockInfo) :
    (queue.takeIn parent).1.nextSpans = [] := by
  have advanced := advanceEpoch_nextSpans { queue with nextSpans := [] } parent
  simp only [BatchQueue.takeIn]
  generalize BatchQueue.advanceEpoch { queue with nextSpans := [] } parent = queue at advanced
  have updated := (updateOrigin_nextSpans queue parent).trans advanced
  generalize queue.updateOrigin parent = result at updated
  obtain ⟨queue', _ | _⟩ := result
  · exact updated
  · have pulled := (pullBatch_nextSpans queue' parent (queue.originBehind parent)).trans updated
    simp only
    generalize queue'.pullBatch parent (queue.originBehind parent) = result at pulled
    obtain ⟨queue'', _ | _⟩ := result
    · exact pulled
    · simp only
      split
      · exact pulled
      · exact pulled

theorem singularBatches_transactions {l1Origins : List BlockInfo} {safeTimestamp : UInt64}
    {elements : List SpanBatchElement} {originIndex : Nat} {batches : List SingleBatch}
    (expands : SpanBatch.singularBatches l1Origins safeTimestamp originIndex elements = .ok batches) :
    ∀ batch ∈ batches, ∃ element ∈ elements, batch.transactions = element.transactions := by
  induction elements generalizing originIndex batches with
  | nil =>
      cases expands
      simp
  | cons element elements ih =>
      rw [SpanBatch.singularBatches] at expands
      split at expands
      · intro batch mem
        obtain ⟨found, mem', same⟩ := ih expands batch mem
        exact ⟨found, List.mem_cons_of_mem _ mem', same⟩
      · split at expands
        · cases expands
        · rename_i origin index found
          cases later : SpanBatch.singularBatches l1Origins safeTimestamp index elements with
          | error e =>
              rw [later] at expands
              cases expands
          | ok rest =>
              rw [later] at expands
              cases expands
              intro batch mem
              cases mem with
              | head => exact ⟨element, List.mem_cons_self, rfl⟩
              | tail _ mem =>
                  obtain ⟨found, mem', same⟩ := ih later batch mem
                  exact ⟨found, List.mem_cons_of_mem _ mem', same⟩

def SearchGuarded (queue : BatchQueue P F) (parent : L2BlockInfo) : Prop :=
  ¬ queue.cachedFollows parent → ∀ taken outOfData, queue.takeIn parent = (taken, .ok outOfData) →
    ∀ entry ∈ examined taken.cfg taken.l1Blocks parent taken.fetcher taken.batches,
      Forged deserialize entry.1.batch.transactions → ¬ entry.1.MeetsRules taken.cfg taken.l1Blocks parent entry.2

def CacheClean (queue : BatchQueue P F) : Prop := ∀ batch ∈ queue.nextSpans, ¬ Forged deserialize batch.transactions

variable {deserialize}

theorem popNextBatch_clean {P F : Type} {queue : BatchQueue P F} {parent : L2BlockInfo} (clean : CacheClean deserialize queue) :
    CacheClean deserialize (queue.popNextBatch parent).1 ∧
      ∀ batch, (queue.popNextBatch parent).2 = .ok batch → ¬ Forged deserialize batch.transactions := by
  unfold BatchQueue.popNextBatch
  cases cached : queue.nextSpans with
  | nil => exact ⟨clean, by simp⟩
  | cons next rest =>
      rw [CacheClean, cached] at clean
      refine ⟨fun batch mem => clean batch (List.mem_cons_of_mem _ mem), fun batch popped => ?_⟩
      cases popped
      exact clean next List.mem_cons_self

theorem derive_clean {queue : BatchQueue P F} {parent : L2BlockInfo} {outOfData : Bool} (cleared : queue.nextSpans = [])
    (guarded : ∀ entry ∈ examined queue.cfg queue.l1Blocks parent queue.fetcher queue.batches,
      Forged deserialize entry.1.batch.transactions → ¬ entry.1.MeetsRules queue.cfg queue.l1Blocks parent entry.2) :
    CacheClean deserialize (queue.derive parent outOfData).1 ∧
      ∀ batch, (queue.derive parent outOfData).2 = .ok batch → ¬ Forged deserialize batch.transactions := by
  have spans := (deriveNextBatch_nextSpans queue outOfData parent).trans cleared
  have unforged : ∀ after batch, queue.deriveNextBatch outOfData parent = (after, .ok batch) →
      ¬ Forged deserialize batch.transactions := by
    intro after batch derives forged
    obtain none | ⟨entry, mem, rfl, meets⟩ := deriveNextBatch_ok derives
    · rw [none] at forged
      obtain ⟨tx, mem, -⟩ := forged
      cases mem
    · exact guarded entry mem forged meets
  unfold BatchQueue.derive
  generalize queue.deriveNextBatch outOfData parent = derived at spans unforged
  obtain ⟨after, result⟩ := derived
  have clean : CacheClean deserialize after := by
    intro batch mem
    rw [spans] at mem
    cases mem
  split
  · rename_i same
    cases same
    exact ⟨clean, by split <;> simp [PipelineError.temp]⟩
  · rename_i same
    cases same
    exact ⟨clean, by simp⟩
  · rename_i batch same
    cases same
    refine ⟨clean, fun batch' returned => ?_⟩
    cases returned
    exact unforged _ _ rfl
  · rename_i span same
    cases same
    have spanClean := unforged _ _ rfl
    split
    · exact ⟨clean, by simp [PipelineError.crit]⟩
    · rename_i batches expands
      -- A native transaction of a cached batch is one of the element of the span it was made of.
      refine popNextBatch_clean fun batch mem forged => spanClean ?_
      obtain ⟨element, mem', same⟩ := singularBatches_transactions expands batch mem
      obtain ⟨tx, isTx, native⟩ := forged
      exact ⟨tx, List.mem_flatMap.mpr ⟨element, mem', same ▸ isTx⟩, native⟩

theorem nextBatch_clean {queue : BatchQueue P F} {parent : L2BlockInfo} (clean : CacheClean deserialize queue)
    (guarded : SearchGuarded deserialize queue parent) :
    CacheClean deserialize (queue.nextBatch parent).1 ∧
      ∀ batch, (queue.nextBatch parent).2 = .ok batch → ¬ Forged deserialize batch.transactions := by
  unfold BatchQueue.nextBatch
  split
  · exact popNextBatch_clean clean
  · rename_i follows
    have taken := takeIn_nextSpans queue parent
    have guarded := guarded follows
    generalize queue.takeIn parent = result at taken guarded
    obtain ⟨after, e | outOfData⟩ := result
    · refine ⟨fun batch mem => ?_, by simp⟩
      simp only at taken
      rw [taken] at mem
      cases mem
    · exact derive_clean taken (guarded after outOfData rfl)

theorem signal_clean {F : Type} {queue : BatchQueue P F} {s : Signal} (clean : CacheClean deserialize queue) :
    CacheClean deserialize (queue.signal s).1 := by
  unfold BatchQueue.signal
  repeat' split
  · exact clean
  · exact fun batch mem => nomatch mem
  · exact fun batch mem => nomatch mem

end KonaSoon.Derive
