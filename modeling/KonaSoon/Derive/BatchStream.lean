import KonaSoon.Derive.Stability
import KonaSoon.Derive.Pipeline

/-!
# The batch stream

`BatchStream` (`derive/src/stages/batch/batch_stream.rs`) expands the span batches of the channel reader into
single batches. It has taken a span out of the channel by the time it checks it, and a span that cannot be
judged yet is not put anywhere.
-/

namespace KonaSoon.Derive
open Lib Mpt

class BatchStreamProvider (P : Type) extends Stage P where
  nextBatch : P → P × PipelineResult Batch
  flush : P → P

structure BatchStream (P F : Type) where
  prev : P
  span : Option SpanBatch
  buffer : List SingleBatch
  config : SoonRollupConfig
  fetcher : F

namespace BatchStream

variable {P F : Type} [BatchStreamProvider P] [L2ChainProvider F]

def new (prev : P) (config : SoonRollupConfig) (fetcher : F) : BatchStream P F := ⟨prev, none, [], config, fetcher⟩

def origin (stream : BatchStream P F) : Option BlockInfo := Stage.origin stream.prev

def tryHydrateBuffer (stream : BatchStream P F) (parent : L2BlockInfo) (l1Origins : List BlockInfo) :
    BatchStream P F × PipelineResult Unit :=
  match stream.span with
  | none => (stream, .ok ())
  | some span =>
      match span.getSingularBatches l1Origins parent with
      | .error e => ({ stream with span := none }, (PipelineError.badEncoding (.spanBatchError e)).crit)
      | .ok batches => ({ stream with span := none, buffer := stream.buffer ++ batches }, .ok ())

def getSingleBatch (stream : BatchStream P F) (parent : L2BlockInfo) (l1Origins : List BlockInfo) :
    BatchStream P F × PipelineResult SingleBatch :=
  match stream.tryHydrateBuffer parent l1Origins with
  | (stream, .error e) => (stream, .error e)
  | (stream, .ok ()) =>
      match stream.buffer with
      | [] => (stream, PipelineError.notEnoughData.temp)
      | batch :: buffer => ({ stream with buffer }, .ok batch)

def flush (stream : BatchStream P F) : BatchStream P F :=
  { stream with prev := BatchStreamProvider.flush stream.prev, span := none, buffer := [] }

def getBatch (stream : BatchStream P F) (parent : L2BlockInfo) (l1Origins : List BlockInfo) :
    BatchStream P F × PipelineResult Batch :=
  let (stream, result) := stream.getSingleBatch parent l1Origins
  (stream, result.map .single)

/-- What `next_batch` does with a span batch, by the verdict on it. -/
def stage (stream : BatchStream P F) (span : SpanBatch) (parent : L2BlockInfo) (l1Origins : List BlockInfo) :
    Option (BatchValidity × Option L2BlockInfo) → BatchStream P F × PipelineResult Batch
  | none => (stream, .error .panic)
  | some (.accept, _) => getBatch { stream with span := some span } parent l1Origins
  | some (.drop, _) => (stream.flush, PipelineError.eof.temp)
  | some (.past, _) => (stream, PipelineError.eof.temp)
  | some (.undecided, _) => (stream, PipelineError.notEnoughData.temp)
  | some (.future, _) => (stream, PipelineError.notEnoughData.temp)

def nextBatch (stream : BatchStream P F) (parent : L2BlockInfo) (l1Origins : List BlockInfo) :
    BatchStream P F × PipelineResult Batch :=
  match stream.buffer with
  | _ :: _ => stream.getBatch parent l1Origins
  | [] =>
      match stream.origin with
      | none => (stream, PipelineError.missingOrigin.crit)
      | some inclusionBlock =>
          match BatchStreamProvider.nextBatch stream.prev with
          | (prev, .error e) => ({ stream with prev }, .error e)
          | (prev, .ok (.single batch)) => ({ stream with prev }, .ok (.single batch))
          | (prev, .ok (.span span)) =>
              let (fetcher, verdict) := span.checkBatchPrefix stream.config l1Origins parent inclusionBlock stream.fetcher
              stage { stream with prev, fetcher } span parent l1Origins verdict

def advanceOrigin (stream : BatchStream P F) : BatchStream P F × PipelineResult Unit :=
  let (prev, result) := Stage.advanceOrigin stream.prev
  ({ stream with prev }, result)

def signal (stream : BatchStream P F) (s : Signal) : BatchStream P F × PipelineResult Unit :=
  match Stage.signal stream.prev s with
  | (prev, .error e) => ({ stream with prev }, .error e)
  | (prev, .ok ()) => ({ stream with prev, buffer := [], span := none }, .ok ())

instance : NextBatchProvider (BatchStream P F) where
  origin := origin
  advanceOrigin := advanceOrigin
  signal := signal
  nextBatch := nextBatch
  flush := flush

/-! ## Calls -/

inductive StreamCall where
  | nextBatch (parent : L2BlockInfo) (l1Origins : List BlockInfo)
  | flush
  | advanceOrigin
  | signal (s : Signal)

def call (stream : BatchStream P F) : StreamCall → BatchStream P F × PipelineResult (Option Batch)
  | .nextBatch parent l1Origins =>
      let (stream, result) := stream.nextBatch parent l1Origins
      (stream, result.map some)
  | .flush => (stream.flush, .ok none)
  | .advanceOrigin =>
      let (stream, result) := stream.advanceOrigin
      (stream, result.map fun _ => none)
  | .signal s =>
      let (stream, result) := stream.signal s
      (stream, result.map fun _ => none)

structure Examination where
  span : SpanBatch
  parent : L2BlockInfo
  l1Origins : List BlockInfo
  inclusionBlock : BlockInfo

def examines (stream : BatchStream P F) : StreamCall → Option Examination
  | .nextBatch parent l1Origins =>
      match stream.buffer with
      | _ :: _ => none
      | [] =>
          match stream.origin with
          | none => none
          | some inclusionBlock =>
              match (BatchStreamProvider.nextBatch stream.prev).2 with
              | .ok (.span span) => some ⟨span, parent, l1Origins, inclusionBlock⟩
              | _ => none
  | _ => none

def verdict (stream : BatchStream P F) (exam : Examination) : Option BatchValidity :=
  ((exam.span.checkBatchPrefix stream.config exam.l1Origins exam.parent exam.inclusionBlock stream.fetcher).2).map Prod.fst

/-- The span batch that a call takes is judged at once, and can be expanded if it is accepted. -/
def Decides (stream : BatchStream P F) (made : StreamCall) : Prop :=
  ∀ exam, stream.examines made = some exam →
    stream.verdict exam = some .drop ∨ stream.verdict exam = some .past ∨
      (stream.verdict exam = some .accept ∧ ∃ batches, exam.span.getSingularBatches exam.l1Origins exam.parent = .ok batches)

def emits (stream : BatchStream P F) (made : StreamCall) : Option Batch :=
  match (stream.call made).2 with
  | .ok batch => batch
  | .error _ => none

/-- A span batch that a call takes is discarded by its verdict, or all of its single batches are handed on and
buffered. -/
def KeepsSpan (stream : BatchStream P F) (made : StreamCall) : Prop :=
  ∀ exam, stream.examines made = some exam →
    stream.verdict exam = some .drop ∨ stream.verdict exam = some .past ∨
      ∃ batches, exam.span.getSingularBatches exam.l1Origins exam.parent = .ok batches ∧
        (stream.emits made).toList ++ (stream.call made).1.buffer.map Batch.single = batches.map Batch.single

def emitted : BatchStream P F → List StreamCall → List Batch
  | _, [] => []
  | stream, made :: calls => (stream.emits made).toList ++ emitted (stream.call made).1 calls

/-! ## One call -/

variable {stream : BatchStream P F} {parent : L2BlockInfo} {l1Origins : List BlockInfo}

omit [BatchStreamProvider P] [L2ChainProvider F] in
theorem getBatch_buffered (unstaged : stream.span = none) (parent : L2BlockInfo) (l1Origins l1Origins' : List BlockInfo) :
    stream.getBatch parent l1Origins = stream.getBatch parent l1Origins' ∧
      (stream.getBatch parent l1Origins).1.span = none := by
  simp only [getBatch, getSingleBatch, tryHydrateBuffer, unstaged]
  cases stream.buffer with
  | nil => exact ⟨trivial, unstaged⟩
  | cons batch buffer => exact ⟨trivial, rfl⟩

omit [BatchStreamProvider P] [L2ChainProvider F] in
theorem getBatch_staged (empty : stream.buffer = []) {span : SpanBatch} {batches : List SingleBatch}
    (expands : span.getSingularBatches l1Origins parent = .ok batches) :
    getBatch { stream with span := some span } parent l1Origins = match batches with
      | [] => ({ stream with span := none, buffer := [] }, PipelineError.notEnoughData.temp)
      | batch :: buffer => ({ stream with span := none, buffer }, .ok (.single batch)) := by
  simp only [getBatch, getSingleBatch, tryHydrateBuffer, expands, empty, List.nil_append]
  cases batches with
  | nil => rfl
  | cons batch buffer => rfl

theorem nextBatch_examined {exam : Examination} (examines : stream.examines (.nextBatch parent l1Origins) = some exam) :
    stream.buffer = [] ∧ exam.parent = parent ∧ exam.l1Origins = l1Origins ∧
      stream.nextBatch parent l1Origins = stage
        { stream with
          prev := (BatchStreamProvider.nextBatch stream.prev).1
          fetcher := (exam.span.checkBatchPrefix stream.config exam.l1Origins exam.parent exam.inclusionBlock
            stream.fetcher).1 }
        exam.span parent l1Origins
        (exam.span.checkBatchPrefix stream.config exam.l1Origins exam.parent exam.inclusionBlock stream.fetcher).2 := by
  cases buffered : stream.buffer with
  | cons batch buffer => simp [BatchStream.examines, buffered] at examines
  | nil =>
      cases here : stream.origin with
      | none => simp [BatchStream.examines, buffered, here] at examines
      | some inclusionBlock =>
          cases pulls : BatchStreamProvider.nextBatch stream.prev with
          | mk prev result =>
              rcases result with e | (single | span)
              · simp [BatchStream.examines, buffered, here, pulls] at examines
              · simp [BatchStream.examines, buffered, here, pulls] at examines
              · simp only [BatchStream.examines, buffered, here, pulls, Option.some.injEq] at examines
                subst examines
                refine ⟨rfl, rfl, rfl, ?_⟩
                simp only [nextBatch, buffered, here, pulls]

theorem nextBatch_unexamined (unstaged : stream.span = none)
    (nothing : stream.examines (.nextBatch parent l1Origins) = none) (l1Origins' : List BlockInfo) :
    stream.nextBatch parent l1Origins' = stream.nextBatch parent l1Origins ∧
      (stream.nextBatch parent l1Origins).1.span = none := by
  cases buffered : stream.buffer with
  | cons batch buffer =>
      have same := getBatch_buffered unstaged parent l1Origins l1Origins'
      simp only [nextBatch, buffered]
      exact ⟨same.1.symm, same.2⟩
  | nil =>
      cases here : stream.origin with
      | none => exact ⟨by simp only [nextBatch, buffered, here], by simpa only [nextBatch, buffered, here] using unstaged⟩
      | some inclusionBlock =>
          cases pulls : BatchStreamProvider.nextBatch stream.prev with
          | mk prev result =>
              rcases result with e | (single | span)
              · exact ⟨by simp only [nextBatch, buffered, here, pulls],
                  by simpa only [nextBatch, buffered, here, pulls] using unstaged⟩
              · exact ⟨by simp only [nextBatch, buffered, here, pulls],
                  by simpa only [nextBatch, buffered, here, pulls] using unstaged⟩
              · simp [examines, buffered, here, pulls] at nothing

theorem nextBatch_decided (unstaged : stream.span = none) {exam : Examination} (examines : stream.examines (.nextBatch parent l1Origins) = some exam)
    (decides : stream.Decides (.nextBatch parent l1Origins)) :
    ((stream.verdict exam = some .drop ∨ stream.verdict exam = some .past) ∧
      (stream.nextBatch parent l1Origins).1.span = none ∧
      (stream.nextBatch parent l1Origins).2 = PipelineError.eof.temp) ∨
    (∃ batches, exam.span.getSingularBatches l1Origins parent = .ok batches ∧
      stream.verdict exam = some .accept ∧
      (stream.nextBatch parent l1Origins).1.span = none ∧ (stream.nextBatch parent l1Origins).1.buffer = batches.tail ∧
      (stream.nextBatch parent l1Origins).2 = match batches with
        | [] => PipelineError.notEnoughData.temp
        | batch :: _ => .ok (.single batch)) := by
  obtain ⟨empty, rfl, rfl, result⟩ := nextBatch_examined examines
  have judged : ∀ validity, stream.verdict exam = some validity → ∃ parentBlock,
      (exam.span.checkBatchPrefix stream.config exam.l1Origins exam.parent exam.inclusionBlock stream.fetcher).2 =
        some (validity, parentBlock) := by
    intro validity verdict
    obtain ⟨⟨_, parentBlock⟩, found, rfl⟩ := Option.map_eq_some_iff.mp verdict
    exact ⟨parentBlock, found⟩
  rw [result]
  rcases decides exam examines with drop | past | ⟨accept, batches, expands⟩
  · obtain ⟨parentBlock, found⟩ := judged _ drop
    rw [found]
    exact .inl ⟨.inl drop, rfl, rfl⟩
  · obtain ⟨parentBlock, found⟩ := judged _ past
    rw [found]
    exact .inl ⟨.inr past, unstaged, rfl⟩
  · obtain ⟨parentBlock, found⟩ := judged _ accept
    rw [found]
    refine .inr ⟨batches, expands, accept, ?_⟩
    rw [stage, @getBatch_staged P F { stream with
      prev := (BatchStreamProvider.nextBatch stream.prev).1
      fetcher := (exam.span.checkBatchPrefix stream.config exam.l1Origins exam.parent exam.inclusionBlock
        stream.fetcher).1 } exam.parent exam.l1Origins empty exam.span batches expands]
    cases batches with
    | nil => exact ⟨rfl, rfl, rfl⟩
    | cons batch rest => exact ⟨rfl, rfl, rfl⟩

theorem call_unstaged (unstaged : stream.span = none) {made : StreamCall} (decides : stream.Decides made) :
    (stream.call made).1.span = none := by
  cases made with
  | nextBatch parent l1Origins =>
      cases examines : stream.examines (.nextBatch parent l1Origins) with
      | none => exact (nextBatch_unexamined unstaged examines l1Origins).2
      | some exam =>
          rcases nextBatch_decided unstaged examines decides with ⟨-, none, -⟩ | ⟨_, -, -, none, -⟩
          · exact none
          · exact none
  | flush => rfl
  | advanceOrigin => exact unstaged
  | signal s =>
      simp only [call, signal]
      cases Stage.signal stream.prev s with
      | mk prev result =>
          cases result with
          | error e => exact unstaged
          | ok done => rfl

theorem call_keepsSpan (unstaged : stream.span = none) {made : StreamCall} (decides : stream.Decides made) :
    stream.KeepsSpan made := by
  intro exam examines
  cases made with
  | nextBatch parent l1Origins =>
      obtain ⟨-, sameParent, sameOrigins, -⟩ := nextBatch_examined examines
      rcases nextBatch_decided unstaged examines decides with ⟨judged, -, -⟩ | ⟨batches, expands, -, -, buffered, returns⟩
      · rcases judged with drop | past
        · exact .inl drop
        · exact .inr (.inl past)
      · refine .inr (.inr ⟨batches, by rw [sameParent, sameOrigins]; exact expands, ?_⟩)
        simp only [emits, call, returns, buffered]
        cases batches with
        | nil => rfl
        | cons batch rest => rfl
  | flush => cases examines
  | advanceOrigin => cases examines
  | signal s => cases examines

omit [L2ChainProvider F] in
theorem examines_extended (more : List BlockInfo) {exam : Examination}
    (examines : stream.examines (.nextBatch parent l1Origins) = some exam) :
    stream.examines (.nextBatch parent (l1Origins ++ more)) = some { exam with l1Origins := l1Origins ++ more } := by
  cases buffered : stream.buffer with
  | cons batch buffer => simp [BatchStream.examines, buffered] at examines
  | nil =>
      cases here : stream.origin with
      | none => simp [BatchStream.examines, buffered, here] at examines
      | some inclusionBlock =>
          cases pulls : (BatchStreamProvider.nextBatch stream.prev).2 with
          | error e => simp [BatchStream.examines, buffered, here, pulls] at examines
          | ok batch =>
              cases batch with
              | single batch => simp [BatchStream.examines, buffered, here, pulls] at examines
              | span span =>
                  simp only [BatchStream.examines, buffered, here, pulls, Option.some.injEq] at examines ⊢
                  subst examines
                  rfl

omit [L2ChainProvider F] in
theorem stage_extended (empty : stream.buffer = []) (more : List BlockInfo) {span : SpanBatch}
    {judged : Option (BatchValidity × Option L2BlockInfo)}
    (expands : ∀ parentBlock, judged = some (.accept, parentBlock) →
      ∃ batches, span.getSingularBatches l1Origins parent = .ok batches) :
    stage stream span parent (l1Origins ++ more) judged = stage stream span parent l1Origins judged := by
  rcases judged with _ | ⟨_ | _ | _ | _ | _, parentBlock⟩
  case some.accept =>
    obtain ⟨batches, expands⟩ := expands parentBlock rfl
    have expands' : span.getSingularBatches (l1Origins ++ more) parent = .ok batches :=
      SpanBatch.singularBatches_append more (Nat.zero_le _) expands
    simp only [stage]
    rw [getBatch_staged empty expands, getBatch_staged empty expands']
    cases batches with
    | nil => rfl
    | cons batch buffer => rfl
  all_goals rfl

theorem nextBatch_extended (unstaged : stream.span = none) (more : List BlockInfo)
    (decides : stream.Decides (.nextBatch parent l1Origins)) :
    stream.nextBatch parent (l1Origins ++ more) = stream.nextBatch parent l1Origins := by
  cases examines : stream.examines (.nextBatch parent l1Origins) with
  | none => exact (nextBatch_unexamined unstaged examines _).1
  | some exam =>
      obtain ⟨empty, rfl, rfl, result⟩ := nextBatch_examined examines
      obtain ⟨-, -, -, result'⟩ := nextBatch_examined (examines_extended more examines)
      have decided : ∀ parentBlock, (exam.span.checkBatchPrefix stream.config exam.l1Origins exam.parent
          exam.inclusionBlock stream.fetcher).2 ≠ some (.undecided, parentBlock) := by
        intro parentBlock undecided
        have verdict : stream.verdict exam = some .undecided := by rw [BatchStream.verdict, undecided]; rfl
        rcases decides exam examines with drop | past | ⟨accept, -⟩
        · rw [verdict] at drop; cases drop
        · rw [verdict] at past; cases past
        · rw [verdict] at accept; cases accept
      have expands : ∀ parentBlock, (exam.span.checkBatchPrefix stream.config exam.l1Origins exam.parent
          exam.inclusionBlock stream.fetcher).2 = some (.accept, parentBlock) →
          ∃ batches, exam.span.getSingularBatches exam.l1Origins exam.parent = .ok batches := by
        intro parentBlock accepted
        have verdict : stream.verdict exam = some .accept := by rw [BatchStream.verdict, accepted]; rfl
        rcases decides exam examines with drop | past | ⟨-, expands⟩
        · rw [verdict] at drop; cases drop
        · rw [verdict] at past; cases past
        · exact expands
      rw [result, result']
      dsimp only
      rw [SpanBatch.checkBatchPrefix_extended exam.span more exam.inclusionBlock decided]
      refine stage_extended ?_ more expands
      exact empty

/-! ## Runs -/

inductive StreamCall.Extends : StreamCall → StreamCall → Prop where
  | nextBatch (parent : L2BlockInfo) (l1Origins more : List BlockInfo) :
      Extends (.nextBatch parent l1Origins) (.nextBatch parent (l1Origins ++ more))
  | same (made : StreamCall) : Extends made made

theorem call_extended (unstaged : stream.span = none) {made made' : StreamCall} (extends' : made.Extends made')
    (decides : stream.Decides made) : stream.call made' = stream.call made := by
  cases extends' with
  | nextBatch parent l1Origins more => simp only [call, nextBatch_extended unstaged more decides]
  | same => rfl

theorem emitted_extended {calls calls' : List StreamCall} (extend : List.Forall₂ StreamCall.Extends calls calls')
    {stream : BatchStream P F} (unstaged : stream.span = none) (decides : Along call Decides stream calls) :
    emitted stream calls' = emitted stream calls := by
  induction extend generalizing stream with
  | nil => rfl
  | cons here later ih =>
      obtain ⟨decided, decides⟩ := decides
      have same := call_extended unstaged here decided
      simp only [emitted, emits, same]
      rw [ih (call_unstaged unstaged decided) decides]

/-- No span batch is lost for want of L1 blocks in a run that judges each one when it takes it: what is not
discarded by its verdict is handed on whole, and more L1 blocks would change nothing. -/
theorem no_span_lost {prev : P} {config : SoonRollupConfig} {fetcher : F} {calls : List StreamCall}
    (decides : Along call Decides (new prev config fetcher) calls) :
    Along call KeepsSpan (new prev config fetcher) calls ∧
      ∀ calls', List.Forall₂ StreamCall.Extends calls calls' →
        emitted (new prev config fetcher) calls' = emitted (new prev config fetcher) calls := by
  constructor
  · exact along_of_invariant (fun stream => stream.span = none) (fun _ _ unstaged decided => call_unstaged unstaged decided)
      (fun _ _ unstaged decided => call_keepsSpan unstaged decided) rfl decides
  · intro calls' extend
    exact emitted_extended extend rfl decides

end BatchStream

structure Unread where
  block : BlockInfo
  batches : List Batch

instance : BatchStreamProvider Unread where
  origin stage := some stage.block
  advanceOrigin stage := (stage, PipelineError.eof.temp)
  signal stage _ := (stage, .ok ())
  nextBatch stage :=
    match stage.batches with
    | [] => (stage, PipelineError.eof.temp)
    | batch :: batches => ({ stage with batches }, .ok batch)
  flush stage := { stage with batches := [] }

instance : L2ChainProvider Unread where
  l2BlockInfoByNumber chain _ := (chain, .error "block not found")

namespace Unread

def l1At (number : UInt64) : BlockInfo :=
  ⟨.ofNat number.toNat, number, .ofNat (number.toNat - 1), 12 * number⟩

def parent : L2BlockInfo := ⟨⟨.ofNat 0xA0, 30, .ofNat 0x9F, 70⟩, (l1At 5).id, 0⟩

def span : SpanBatch :=
  ⟨⟨parent.blockInfo.hash.1.take 20, rfl⟩, ⟨(l1At 6).hash.1.take 20, rfl⟩, [⟨6, 72, []⟩]⟩

def stream : BatchStream Unread Unread := .new ⟨l1At 6, [.span span]⟩ ⟨600, 10, 2⟩ ⟨l1At 6, []⟩

def retry : List BatchStream.StreamCall := [.nextBatch parent [l1At 5], .nextBatch parent [l1At 5, l1At 6]]

theorem decides_known : stream.Decides (.nextBatch parent [l1At 5, l1At 6]) := by
  intro exam examined
  cases examined
  exact .inr (.inr ⟨by decide +kernel, _, rfl⟩)

theorem no_span_lost_known :
    Along BatchStream.call BatchStream.Decides stream [.nextBatch parent [l1At 5, l1At 6]] ∧
      BatchStream.emitted stream [.nextBatch parent [l1At 5, l1At 6, l1At 7]] =
        BatchStream.emitted stream [.nextBatch parent [l1At 5, l1At 6]] :=
  have decides : Along BatchStream.call BatchStream.Decides stream [.nextBatch parent [l1At 5, l1At 6]] :=
    ⟨decides_known, trivial⟩
  ⟨decides, (BatchStream.no_span_lost decides).2 _ (.cons (.nextBatch parent [l1At 5, l1At 6] [l1At 7]) .nil)⟩

/-- The span batch starts in block 6. A run that is given this block with the second call only has lost the
batch by then. -/
theorem span_lost_undecided :
    (stream.examines (.nextBatch parent [l1At 5])).map (·.span) = some span ∧
      (stream.examines (.nextBatch parent [l1At 5])).bind stream.verdict = some .undecided ∧
      (stream.call (.nextBatch parent [l1At 5])).1.examines (.nextBatch parent [l1At 5, l1At 6]) = none ∧
      BatchStream.emitted stream retry = [] ∧
      BatchStream.emitted stream [.nextBatch parent [l1At 5, l1At 6], .nextBatch parent [l1At 5, l1At 6]] =
        [.single ⟨.ofNat 0, 6, (l1At 6).hash, 72, []⟩] := by
  refine ⟨?_, ?_, ?_, ?_, ?_⟩ <;> decide +kernel

end Unread

end KonaSoon.Derive
