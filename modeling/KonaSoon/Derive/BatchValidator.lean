import KonaSoon.Derive.BatchQueue

/-!
# The batch validator

`BatchValidator` (`derive/src/stages/batch/batch_validator.rs`), which checks single batches one by one, and
the empty batches that it forces compared with those of the batch queue.
-/

namespace KonaSoon.Derive
open Lib Mpt

structure BatchValidator (P : Type) where
  cfg : SoonRollupConfig
  prev : P
  origin : Option BlockInfo
  l1Blocks : List BlockInfo

namespace BatchValidator

variable {P : Type} [NextBatchProvider P]

def new (cfg : SoonRollupConfig) (prev : P) : BatchValidator P := ⟨cfg, prev, none, []⟩

def originBehind (validator : BatchValidator P) (parent : L2BlockInfo) : Bool :=
  match Stage.origin validator.prev with
  | none => true
  | some origin => origin.number < parent.l1Origin.number

def takeOrigin (validator : BatchValidator P) (parent : L2BlockInfo) : BatchValidator P × PipelineResult Unit :=
  if validator.origin = Stage.origin validator.prev then (validator, .ok ())
  else
    let originBehind := validator.originBehind parent
    let validator := { validator with origin := Stage.origin validator.prev }
    if originBehind then ({ validator with l1Blocks := [] }, .ok ())
    else match validator.origin with
      | none => (validator, PipelineError.missingOrigin.crit)
      | some origin => ({ validator with l1Blocks := validator.l1Blocks ++ [origin] }, .ok ())

def advanceEpoch (validator : BatchValidator P) (parent : L2BlockInfo) : BatchValidator P :=
  match validator.l1Blocks with
  | [] => validator
  | first :: _ =>
      if first.number < parent.l1Origin.number then
        match validator.l1Blocks.findIdx? fun block => parent.l1Origin.number = block.number with
        | some i => { validator with l1Blocks := validator.l1Blocks.drop i }
        | none => validator
      else validator

def updateOrigins (validator : BatchValidator P) (parent : L2BlockInfo) : BatchValidator P × PipelineResult Unit :=
  match validator.takeOrigin parent with
  | (validator, .error e) => (validator, .error e)
  | (validator, .ok ()) => (validator.advanceEpoch parent, .ok ())

def tryDeriveEmptyBatch (validator : BatchValidator P) (parent : L2BlockInfo) :
    BatchValidator P × PipelineResult SingleBatch :=
  match validator.l1Blocks with
  | [] => (validator, .error .panic)
  | epoch :: later =>
      match validator.origin with
      | none => (validator, PipelineError.missingOrigin.crit)
      | some stageOrigin =>
          let expiryEpoch := epoch.number + validator.cfg.seqWindowSize
          let forceEmptyBatches := expiryEpoch ≤ stageOrigin.number
          let firstOfEpoch := epoch.number = parent.l1Origin.number + 1
          let nextTimestamp := epoch.timestamp + validator.cfg.blockTime
          if ¬ forceEmptyBatches then (validator, PipelineError.eof.temp)
          else match later with
            | [] => (validator, PipelineError.eof.temp)
            | nextEpoch :: _ =>
                if nextTimestamp < nextEpoch.timestamp ∨ firstOfEpoch then
                  (validator, .ok ⟨parent.blockInfo.hash, epoch.number, epoch.hash, nextTimestamp, []⟩)
                else ({ validator with l1Blocks := later }, PipelineError.eof.temp)

/-- What `next_batch` makes of a batch that the previous stage returned. -/
def examine (validator : BatchValidator P) (parent : L2BlockInfo) (stageOrigin : BlockInfo) :
    Batch → BatchValidator P × PipelineResult SingleBatch
  | .span _ => (validator, PipelineError.invalidBatchType.crit)
  | .single batch =>
      match batch.checkBatch validator.cfg validator.l1Blocks parent stageOrigin with
      | .accept => (validator, .ok batch)
      | .past => (validator, PipelineError.notEnoughData.temp)
      | .drop => ({ validator with prev := NextBatchProvider.flush validator.prev }, PipelineError.notEnoughData.temp)
      | .undecided => (validator, PipelineError.notEnoughData.temp)
      | .future => (validator, PipelineError.invalidBatchValidity.crit)

/-- The rest of `next_batch`, once the previous stage has caught up with the parent. -/
def pullBatch (validator : BatchValidator P) (parent : L2BlockInfo) (stageOrigin : BlockInfo) :
    BatchValidator P × PipelineResult SingleBatch :=
  match validator.l1Blocks with
  | epoch :: _ :: _ =>
      if parent.l1Origin ≠ epoch.id ∧ parent.l1Origin.number ≠ epoch.number - 1 then
        (validator, (ResetError.l1OriginMismatch parent.l1Origin.number (epoch.number - 1)).reset)
      else match NextBatchProvider.nextBatch validator.prev parent validator.l1Blocks with
        | (prev, .ok batch) => examine { validator with prev } parent stageOrigin batch
        | (prev, .error (.error (.temporary .eof))) => tryDeriveEmptyBatch { validator with prev } parent
        | (prev, .error e) => ({ validator with prev }, .error e)
  | _ => (validator, PipelineError.missingOrigin.crit)

def nextBatch (validator : BatchValidator P) (parent : L2BlockInfo) : BatchValidator P × PipelineResult SingleBatch :=
  match validator.updateOrigins parent with
  | (validator, .error e) => (validator, .error e)
  | (validator, .ok ()) =>
      match validator.origin with
      | none => (validator, PipelineError.missingOrigin.crit)
      | some stageOrigin =>
          if validator.originBehind parent ∨ parent.l1Origin.number = stageOrigin.number then
            match NextBatchProvider.nextBatch validator.prev parent validator.l1Blocks with
            | (prev, .error e) => ({ validator with prev }, .error e)
            | (prev, .ok _) => ({ validator with prev }, PipelineError.notEnoughData.temp)
          else validator.pullBatch parent stageOrigin

def signal (validator : BatchValidator P) (s : Signal) : BatchValidator P × PipelineResult Unit :=
  match Stage.signal validator.prev s with
  | (prev, .error e) => ({ validator with prev }, .error e)
  | (prev, .ok ()) =>
      match s with
      | .reset _ l1Origin _ => ({ validator with prev, origin := some l1Origin, l1Blocks := [l1Origin] }, .ok ())
      | _ => ({ validator with prev }, .ok ())

/-! ## The empty batches of both stages -/

abbrev EmptyBatch := PipelineResult SingleBatch × List BlockInfo

def emptyBatch (validator : BatchValidator P) (parent : L2BlockInfo) : EmptyBatch :=
  ((validator.tryDeriveEmptyBatch parent).2, (validator.tryDeriveEmptyBatch parent).1.l1Blocks)

variable {F : Type} [L2ChainProvider F]

def ofBatch : PipelineResult Batch → PipelineResult SingleBatch
  | .ok (.single batch) => .ok batch
  | .ok (.span _) => PipelineError.invalidBatchType.crit
  | .error e => .error e

def queueEmptyBatch (queue : BatchQueue P F) (parent : L2BlockInfo) : EmptyBatch :=
  (ofBatch (queue.deriveNextBatch true parent).2, (queue.deriveNextBatch true parent).1.l1Blocks)

/-- Both stages look at the same blocks, with no batch left in the queue, and the checks before the empty
batch pass in both. -/
structure SameView (validator : BatchValidator P) (queue : BatchQueue P F) (parent : L2BlockInfo)
    (epoch nextEpoch stageOrigin : BlockInfo) (later : List BlockInfo) : Prop where
  cfg : queue.cfg = validator.cfg
  blocks : validator.l1Blocks = epoch :: nextEpoch :: later
  blocks' : queue.l1Blocks = epoch :: nextEpoch :: later
  origin : validator.origin = some stageOrigin
  origin' : queue.origin = some stageOrigin
  consecutive : (epoch :: nextEpoch :: later).IsChain fun block next => next.number.toNat = block.number.toNat + 1
  caughtUp : parent.l1Origin.number < stageOrigin.number
  follows : parent.l1Origin = epoch.id ∨ parent.l1Origin.number = epoch.number - 1
  exhausted : (BatchQueue.search queue.cfg queue.l1Blocks parent queue.prev queue.fetcher queue.batches).2.2.2 =
    some .exhausted

/-- When the two next timestamps give the same empty batch: the window is open, the parent is as old as the
epoch, or neither comes before the next epoch and no batch is owed to this one. -/
def ForcesSame (cfg : SoonRollupConfig) (parent : L2BlockInfo) (epoch nextEpoch stageOrigin : BlockInfo) : Prop :=
  stageOrigin.number < epoch.number + cfg.seqWindowSize ∨ epoch.timestamp = parent.blockInfo.timestamp ∨
    (epoch.number ≠ parent.l1Origin.number + 1 ∧ nextEpoch.timestamp ≤ epoch.timestamp + cfg.blockTime ∧
      nextEpoch.timestamp ≤ parent.blockInfo.timestamp + cfg.blockTime)

def forced (cfg : SoonRollupConfig) (parent : L2BlockInfo) (epoch nextEpoch stageOrigin : BlockInfo)
    (later : List BlockInfo) (nextTimestamp : UInt64) : EmptyBatch :=
  if stageOrigin.number < epoch.number + cfg.seqWindowSize then (PipelineError.eof.temp, epoch :: nextEpoch :: later)
  else if nextTimestamp < nextEpoch.timestamp ∨ epoch.number = parent.l1Origin.number + 1 then
    (.ok ⟨parent.blockInfo.hash, epoch.number, epoch.hash, nextTimestamp, []⟩, epoch :: nextEpoch :: later)
  else (PipelineError.eof.temp, nextEpoch :: later)

variable {validator : BatchValidator P} {queue : BatchQueue P F} {parent : L2BlockInfo}
  {epoch nextEpoch stageOrigin : BlockInfo} {later : List BlockInfo}

theorem SameView.emptyBatch_eq (view : SameView validator queue parent epoch nextEpoch stageOrigin later) :
    validator.emptyBatch parent =
      forced validator.cfg parent epoch nextEpoch stageOrigin later (epoch.timestamp + validator.cfg.blockTime) := by
  simp only [emptyBatch, tryDeriveEmptyBatch, forced, view.blocks, view.origin, UInt64.not_le]
  by_cases isOpen : stageOrigin.number < epoch.number + validator.cfg.seqWindowSize
  · simp only [if_pos isOpen, view.blocks]
  · by_cases owed : epoch.timestamp + validator.cfg.blockTime < nextEpoch.timestamp ∨
        epoch.number = parent.l1Origin.number + 1
    · simp only [if_neg isOpen, if_pos owed, view.blocks]
    · simp only [if_neg isOpen, if_neg owed]

theorem SameView.queueEmptyBatch_eq (view : SameView validator queue parent epoch nextEpoch stageOrigin later) :
    queueEmptyBatch queue parent =
      forced validator.cfg parent epoch nextEpoch stageOrigin later (parent.blockInfo.timestamp + validator.cfg.blockTime) := by
  have enters : ¬ (parent.blockInfo.number ≠ 0 ∧ parent.l1Origin ≠ epoch.id ∧
      parent.l1Origin.number ≠ epoch.number - 1) := by
    rintro ⟨-, otherBlock, otherNumber⟩
    exact view.follows.elim otherBlock otherNumber
  have expired : ¬ ((epoch.number + validator.cfg.seqWindowSize = stageOrigin.number ∧ True) ∨
      epoch.number + validator.cfg.seqWindowSize < stageOrigin.number) ↔
      stageOrigin.number < epoch.number + validator.cfg.seqWindowSize := by
    rw [and_true, ← UInt64.toNat_inj, UInt64.lt_iff_toNat_lt, UInt64.lt_iff_toNat_lt]
    omega
  have exhausted := view.exhausted
  cases searched : BatchQueue.search queue.cfg queue.l1Blocks parent queue.prev queue.fetcher queue.batches with
  | mk prev rest =>
      obtain ⟨fetcher, batches, found⟩ := rest
      rw [searched] at exhausted
      cases exhausted
      rw [view.cfg, view.blocks'] at searched
      simp only [queueEmptyBatch, BatchQueue.deriveNextBatch, view.blocks', if_neg enters, view.origin', view.cfg, searched,
        BatchQueue.forceEmptyBatch, expired, forced]
      by_cases isOpen : stageOrigin.number < epoch.number + validator.cfg.seqWindowSize
      · simp only [if_pos isOpen]
        rfl
      · by_cases owed : parent.blockInfo.timestamp + validator.cfg.blockTime < nextEpoch.timestamp ∨
            epoch.number = parent.l1Origin.number + 1
        · simp only [if_neg isOpen, if_pos owed]
          rfl
        · simp only [if_neg isOpen, if_neg owed]
          rfl

/-- The two stages force the same empty batch, or advance alike, exactly when their two timestamps do not tell. -/
theorem forces_same_iff (view : SameView validator queue parent epoch nextEpoch stageOrigin later) :
    validator.emptyBatch parent = queueEmptyBatch queue parent ↔
      ForcesSame validator.cfg parent epoch nextEpoch stageOrigin := by
  rw [view.emptyBatch_eq, view.queueEmptyBatch_eq, forced, forced, ForcesSame]
  by_cases isOpen : stageOrigin.number < epoch.number + validator.cfg.seqWindowSize
  · rw [if_pos isOpen, if_pos isOpen]
    exact iff_of_true rfl (.inl isOpen)
  · rw [if_neg isOpen, if_neg isOpen, or_iff_right isOpen]
    have sameBatch : (Except.ok (ε := Stop PipelineErrorKind) (SingleBatch.mk parent.blockInfo.hash epoch.number epoch.hash
        (epoch.timestamp + validator.cfg.blockTime) []), epoch :: nextEpoch :: later) =
        (Except.ok (SingleBatch.mk parent.blockInfo.hash epoch.number epoch.hash
        (parent.blockInfo.timestamp + validator.cfg.blockTime) []), epoch :: nextEpoch :: later) ↔
        epoch.timestamp = parent.blockInfo.timestamp := by
      simp
    by_cases first : epoch.number = parent.l1Origin.number + 1
    · rw [if_pos (.inr first), if_pos (.inr first), sameBatch]
      exact ⟨.inl, fun holds => holds.resolve_right fun neither => neither.1 first⟩
    · simp only [first, or_false, not_false_eq_true, true_and, ne_eq]
      by_cases early : epoch.timestamp + validator.cfg.blockTime < nextEpoch.timestamp
      · rw [if_pos early]
        by_cases early' : parent.blockInfo.timestamp + validator.cfg.blockTime < nextEpoch.timestamp
        · rw [if_pos early', sameBatch]
          exact ⟨.inl, fun holds => holds.resolve_right fun neither => UInt64.not_le.mpr early neither.1⟩
        · rw [if_neg early']
          refine iff_of_false (fun same => by cases congrArg Prod.fst same) ?_
          rintro (same | neither)
          · exact early' (same ▸ early)
          · exact UInt64.not_le.mpr early neither.1
      · rw [if_neg early]
        by_cases early' : parent.blockInfo.timestamp + validator.cfg.blockTime < nextEpoch.timestamp
        · rw [if_pos early']
          refine iff_of_false (fun same => by cases congrArg Prod.fst same) ?_
          rintro (same | neither)
          · exact early (same ▸ early')
          · exact UInt64.not_le.mpr early' neither.2
        · rw [if_neg early']
          exact iff_of_true rfl (.inr ⟨UInt64.not_lt.mp early, UInt64.not_lt.mp early'⟩)

end BatchValidator

/-! ## A parent later than its L1 origin -/

structure Drained where
  block : BlockInfo

instance : NextBatchProvider Drained where
  origin stage := some stage.block
  advanceOrigin stage := (stage, PipelineError.eof.temp)
  signal stage _ := (stage, .ok ())
  nextBatch stage _ _ := (stage, PipelineError.eof.temp)
  flush stage := stage

instance : L2ChainProvider Drained where
  l2BlockInfoByNumber stage _ := (stage, .error "block not found")

namespace Drained

def l1At (number : UInt64) : BlockInfo :=
  ⟨.ofNat number.toNat, number, .ofNat (number.toNat - 1), 12 * number⟩

def cfg : SoonRollupConfig := ⟨600, 2, 2⟩

def validator : BatchValidator Drained := ⟨cfg, ⟨l1At 7⟩, some (l1At 7), [l1At 5, l1At 6, l1At 7]⟩

def queue : BatchQueue Drained Drained := ⟨cfg, ⟨l1At 7⟩, some (l1At 7), [l1At 5, l1At 6, l1At 7], [], [], ⟨l1At 7⟩⟩

def parentAt (timestamp : UInt64) : L2BlockInfo := ⟨⟨.ofNat 0xA0, 30, .ofNat 0x9F, timestamp⟩, (l1At 5).id, 0⟩

theorem sameView (timestamp : UInt64) :
    BatchValidator.SameView validator queue (parentAt timestamp) (l1At 5) (l1At 6) (l1At 7) [l1At 7] where
  cfg := rfl
  blocks := rfl
  blocks' := rfl
  origin := rfl
  origin' := rfl
  consecutive := .cons_cons (by decide) (.cons_cons (by decide) (.singleton _))
  caughtUp := show (l1At 5).number < (l1At 7).number by decide
  follows := .inl rfl
  exhausted := rfl

/-- The validator counts from the time of the L1 block and forces a batch older than the parent; the queue
counts from the parent and is done with the epoch. -/
theorem forces_other_batch :
    validator.emptyBatch (parentAt 70) = (.ok ⟨.ofNat 0xA0, 5, (l1At 5).hash, 62, []⟩, [l1At 5, l1At 6, l1At 7]) ∧
    BatchValidator.queueEmptyBatch queue (parentAt 70) = (PipelineError.eof.temp, [l1At 6, l1At 7]) ∧
    validator.emptyBatch (parentAt 70) ≠ BatchValidator.queueEmptyBatch queue (parentAt 70) := by
  decide +kernel

theorem forces_same_aligned :
    validator.emptyBatch (parentAt 60) = BatchValidator.queueEmptyBatch queue (parentAt 60) :=
  (BatchValidator.forces_same_iff (sameView 60)).mpr (.inr (.inl (by decide)))

end Drained

end KonaSoon.Derive
