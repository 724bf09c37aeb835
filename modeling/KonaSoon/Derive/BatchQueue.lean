import KonaSoon.Derive.Pipeline

/-!
# The batch queue

`BatchQueue` (`derive/src/stages/batch/batch_queue.rs`): the stage that checks the batches of the stage
before it, takes the first one it can accept and creates empty ones where the sequencing window has passed.
-/

namespace KonaSoon.Derive
open Lib Mpt

structure BatchQueue (P F : Type) where
  cfg : SoonRollupConfig
  prev : P
  origin : Option BlockInfo
  l1Blocks : List BlockInfo
  batches : List BatchWithInclusionBlock
  -- The single batches of a span that was accepted.
  nextSpans : List SingleBatch
  fetcher : F

inductive Search where
  | accepted (batch : Batch)
  | undecided
  | exhausted

namespace BatchQueue

variable {P F : Type} [NextBatchProvider P] [L2ChainProvider F]

def new (cfg : SoonRollupConfig) (prev : P) (fetcher : F) : BatchQueue P F := ⟨cfg, prev, none, [], [], [], fetcher⟩

def popNextBatch (queue : BatchQueue P F) (parent : L2BlockInfo) : BatchQueue P F × PipelineResult SingleBatch :=
  match queue.nextSpans with
  | [] => (queue, .error .panic)
  | next :: rest => ({ queue with nextSpans := rest }, .ok { next with parentHash := parent.blockInfo.hash })

/-- The loop of `derive_next_batch`, with the batches that remain. There is no result where a check panics. -/
def search (cfg : SoonRollupConfig) (l1Blocks : List BlockInfo) (parent : L2BlockInfo) :
    P → F → List BatchWithInclusionBlock → P × F × List BatchWithInclusionBlock × Option Search
  | prev, fetcher, [] => (prev, fetcher, [], some .exhausted)
  | prev, fetcher, data :: rest =>
      match data.checkBatch cfg l1Blocks parent fetcher with
      | (fetcher, none) => (prev, fetcher, data :: rest, none)
      | (fetcher, some .future) => search cfg l1Blocks parent (NextBatchProvider.flush prev) fetcher rest
      | (fetcher, some .drop) => search cfg l1Blocks parent (NextBatchProvider.flush prev) fetcher rest
      | (fetcher, some .accept) => (prev, fetcher, rest, some (.accepted data.batch))
      | (fetcher, some .undecided) => (prev, fetcher, data :: rest, some .undecided)
      | (fetcher, some .past) => search cfg l1Blocks parent prev fetcher rest

/-- What `derive_next_batch` does when no queued batch is accepted or undecided. -/
def forceEmptyBatch (queue : BatchQueue P F) (empty : Bool) (parent : L2BlockInfo) (origin epoch : BlockInfo)
    (later : List BlockInfo) : BatchQueue P F × PipelineResult Batch :=
  let nextTimestamp := parent.blockInfo.timestamp + queue.cfg.blockTime
  let expiryEpoch := epoch.number + queue.cfg.seqWindowSize
  let forceEmptyBatches := (expiryEpoch = origin.number ∧ empty) ∨ expiryEpoch < origin.number
  let firstOfEpoch := epoch.number = parent.l1Origin.number + 1
  if ¬ forceEmptyBatches then (queue, PipelineError.eof.temp)
  else match later with
    | [] => (queue, PipelineError.eof.temp)
    | nextEpoch :: _ =>
        if nextTimestamp < nextEpoch.timestamp ∨ firstOfEpoch then
          (queue, .ok (.single ⟨parent.blockInfo.hash, epoch.number, epoch.hash, nextTimestamp, []⟩))
        else ({ queue with l1Blocks := later }, PipelineError.eof.temp)

def deriveNextBatch (queue : BatchQueue P F) (empty : Bool) (parent : L2BlockInfo) :
    BatchQueue P F × PipelineResult Batch :=
  match queue.l1Blocks with
  | [] => (queue, PipelineError.missingOrigin.crit)
  | epoch :: later =>
      if parent.blockInfo.number ≠ 0 ∧ parent.l1Origin ≠ epoch.id ∧ parent.l1Origin.number ≠ epoch.number - 1 then
        (queue, (ResetError.l1OriginMismatch parent.l1Origin.number (epoch.number - 1)).reset)
      else match queue.origin with
        | none => (queue, PipelineError.missingOrigin.crit)
        | some origin =>
            match search queue.cfg queue.l1Blocks parent queue.prev queue.fetcher queue.batches with
            | (prev, fetcher, batches, none) => ({ queue with prev, fetcher, batches }, .error .panic)
            | (prev, fetcher, batches, some .undecided) => ({ queue with prev, fetcher, batches }, PipelineError.eof.temp)
            | (prev, fetcher, batches, some (.accepted batch)) => ({ queue with prev, fetcher, batches }, .ok batch)
            | (prev, fetcher, batches, some .exhausted) =>
                forceEmptyBatch { queue with prev, fetcher, batches } empty parent origin epoch later

def addBatch (queue : BatchQueue P F) (batch : Batch) (parent : L2BlockInfo) : BatchQueue P F × PipelineResult Unit :=
  if queue.l1Blocks = [] then (queue, .error .panic)
  else match queue.origin with
    | none => (queue, PipelineError.missingOrigin.crit)
    | some origin =>
        let data : BatchWithInclusionBlock := ⟨origin, batch⟩
        match data.checkBatch queue.cfg queue.l1Blocks parent queue.fetcher with
        | (fetcher, none) => ({ queue with fetcher }, .error .panic)
        | (fetcher, some .drop) => ({ queue with fetcher, prev := NextBatchProvider.flush queue.prev }, .ok ())
        | (fetcher, some .future) => ({ queue with fetcher, prev := NextBatchProvider.flush queue.prev }, .ok ())
        | (fetcher, some .past) => ({ queue with fetcher }, .ok ())
        | (fetcher, some _) => ({ queue with fetcher, batches := queue.batches ++ [data] }, .ok ())

def advanceEpoch (queue : BatchQueue P F) (parent : L2BlockInfo) : BatchQueue P F :=
  match queue.l1Blocks with
  | [] => queue
  | first :: _ =>
      if first.number < parent.l1Origin.number then
        match queue.l1Blocks.findIdx? fun block => block.number = parent.l1Origin.number with
        | some i => { queue with l1Blocks := queue.l1Blocks.drop i }
        | none => queue
      else queue

def originBehind (queue : BatchQueue P F) (parent : L2BlockInfo) : Bool :=
  match Stage.origin queue.prev with
  | none => true
  | some origin => origin.number < parent.l1Origin.number

def updateOrigin (queue : BatchQueue P F) (parent : L2BlockInfo) : BatchQueue P F × PipelineResult Unit :=
  if queue.origin = Stage.origin queue.prev then (queue, .ok ())
  else
    let queue := { queue with origin := Stage.origin queue.prev }
    if queue.originBehind parent then ({ queue with l1Blocks := [] }, .ok ())
    else match queue.origin with
      | none => (queue, PipelineError.missingOrigin.crit)
      | some origin => ({ queue with l1Blocks := queue.l1Blocks ++ [origin] }, .ok ())

def pullBatch (queue : BatchQueue P F) (parent : L2BlockInfo) (originBehind : Bool) :
    BatchQueue P F × PipelineResult Bool :=
  match NextBatchProvider.nextBatch queue.prev parent queue.l1Blocks with
  | (prev, .ok batch) =>
      if originBehind then ({ queue with prev }, .ok false)
      else match addBatch { queue with prev } batch parent with
        | (queue, .error .panic) => (queue, .error .panic)
        | (queue, .error .outOfFuel) => (queue, .error .outOfFuel)
        | (queue, _) => (queue, .ok false)
  | (prev, .error (.error (.temporary .eof))) => ({ queue with prev }, .ok true)
  | (prev, .error e) => ({ queue with prev }, .error e)

/-- The part of `next_batch` before a batch is derived: new L1 blocks and batches are taken in. -/
def takeIn (queue : BatchQueue P F) (parent : L2BlockInfo) : BatchQueue P F × PipelineResult Bool :=
  let queue := { queue with nextSpans := [] }
  let queue := queue.advanceEpoch parent
  let originBehind := queue.originBehind parent
  match queue.updateOrigin parent with
  | (queue, .error e) => (queue, .error e)
  | (queue, .ok ()) =>
      match queue.pullBatch parent originBehind with
      | (queue, .error e) => (queue, .error e)
      | (queue, .ok outOfData) =>
          if originBehind then
            (queue, if outOfData then PipelineError.eof.temp else PipelineError.notEnoughData.temp)
          else (queue, .ok outOfData)

def derive (queue : BatchQueue P F) (parent : L2BlockInfo) (outOfData : Bool) :
    BatchQueue P F × PipelineResult SingleBatch :=
  match queue.deriveNextBatch outOfData parent with
  | (queue, .error (.error (.temporary .eof))) =>
      (queue, if outOfData then PipelineError.eof.temp else PipelineError.notEnoughData.temp)
  | (queue, .error e) => (queue, .error e)
  | (queue, .ok (.single batch)) => (queue, .ok batch)
  | (queue, .ok (.span batch)) =>
      match batch.getSingularBatches queue.l1Blocks parent with
      | .error e => (queue, (PipelineError.badEncoding (.spanBatchError e)).crit)
      | .ok batches => popNextBatch { queue with nextSpans := batches } parent

def cachedFollows (queue : BatchQueue P F) (parent : L2BlockInfo) : Bool :=
  match queue.nextSpans with
  | [] => false
  | next :: _ => next.timestamp = parent.blockInfo.timestamp + queue.cfg.blockTime

def nextBatch (queue : BatchQueue P F) (parent : L2BlockInfo) : BatchQueue P F × PipelineResult SingleBatch :=
  if queue.cachedFollows parent then queue.popNextBatch parent
  else match queue.takeIn parent with
    | (queue, .error e) => (queue, .error e)
    | (queue, .ok outOfData) => queue.derive parent outOfData

def signal (queue : BatchQueue P F) (s : Signal) : BatchQueue P F × PipelineResult Unit :=
  match Stage.signal queue.prev s with
  | (prev, .error e) => ({ queue with prev }, .error e)
  | (prev, .ok ()) =>
      match s with
      | .reset _ l1Origin _ => ({ queue with
          prev, origin := some l1Origin, batches := [], l1Blocks := [l1Origin], nextSpans := [] }, .ok ())
      | _ => ({ queue with prev, batches := [], nextSpans := [] }, .ok ())

instance : AttributesProvider (BatchQueue P F) where
  origin queue := Stage.origin queue.prev
  advanceOrigin queue :=
    let (prev, result) := Stage.advanceOrigin queue.prev
    ({ queue with prev }, result)
  signal := signal
  nextBatch := nextBatch
  isLastInSpan queue := queue.nextSpans.isEmpty

end BatchQueue

end KonaSoon.Derive
