import KonaSoon.Derive.BatchQueue
import KonaSoon.Derive.Stability

namespace KonaSoon.Derive
open Lib Mpt

structure L1Chain where
  block : UInt64 → BlockInfo
  number (n : UInt64) : (block n).number = n
  linked {n next : UInt64} (follows : next.toNat = n.toNat + 1) : (block next).parentHash = (block n).hash

def L1Chain.Has (chain : L1Chain) (block : BlockInfo) : Prop := block = chain.block block.number

def Signal.l1Origin : Signal → Option BlockInfo
  | .reset _ l1Origin _ => some l1Origin
  | .activation _ l1Origin _ => some l1Origin
  | .flushChannel => none

/-- The origin of the stage moves along the chain, one block with `advance_origin`, and to the block that a
signal names. -/
structure FollowsChain (chain : L1Chain) (P : Type) [NextBatchProvider P] : Prop where
  nextBatch (stage : P) (parent : L2BlockInfo) (l1Blocks : List BlockInfo) :
    Stage.origin (NextBatchProvider.nextBatch stage parent l1Blocks).1 = Stage.origin stage
  flush (stage : P) : Stage.origin (NextBatchProvider.flush stage) = Stage.origin stage
  advanceOrigin (stage : P) : Stage.origin (Stage.advanceOrigin stage).1 = Stage.origin stage ∨
    ∃ block next, Stage.origin stage = some block ∧ Stage.origin (Stage.advanceOrigin stage).1 = some next ∧
      chain.Has next ∧ next.number.toNat = block.number.toNat + 1
  signal (stage : P) (s : Signal) : Stage.origin (Stage.signal stage s).1 = Stage.origin stage ∨
    ∃ block, s.l1Origin = some block ∧ Stage.origin (Stage.signal stage s).1 = some block
  reset (stage : P) (l2SafeHead : L2BlockInfo) (l1Origin : BlockInfo) (systemConfig : Option SystemConfig) :
    (Stage.signal stage (.reset l2SafeHead l1Origin systemConfig)).2 = .ok () →
      Stage.origin (Stage.signal stage (.reset l2SafeHead l1Origin systemConfig)).1 = some l1Origin

/-! ## What a call does to the blocks -/

namespace BatchQueue

variable {P F : Type} [NextBatchProvider P]

structure Narrows (queue queue' : BatchQueue P F) : Prop where
  origin : queue'.origin = queue.origin
  prevOrigin : Stage.origin queue'.prev = Stage.origin queue.prev
  l1Blocks : queue'.l1Blocks <:+ queue.l1Blocks
  nonempty : queue.l1Blocks ≠ [] → queue'.l1Blocks ≠ []

namespace Narrows

theorem refl (queue : BatchQueue P F) : Narrows queue queue := ⟨rfl, rfl, List.suffix_rfl, id⟩

theorem trans {queue queue' queue'' : BatchQueue P F} (first : Narrows queue queue') (second : Narrows queue' queue'') :
    Narrows queue queue'' where
  origin := second.origin.trans first.origin
  prevOrigin := second.prevOrigin.trans first.prevOrigin
  l1Blocks := second.l1Blocks.trans first.l1Blocks
  nonempty given := second.nonempty (first.nonempty given)

theorem getLast? {queue queue' : BatchQueue P F} (narrows : Narrows queue queue') :
    queue'.l1Blocks.getLast? = queue.l1Blocks.getLast? := by
  by_cases given : queue.l1Blocks = []
  · have none_left : queue'.l1Blocks = [] := List.suffix_nil.mp (given ▸ narrows.l1Blocks)
    rw [given, none_left]
  · have kept := narrows.nonempty given
    rw [List.getLast?_eq_some_getLast given, List.getLast?_eq_some_getLast kept, narrows.l1Blocks.getLast kept]

end Narrows

/-! ## The L1 blocks are brought up to date -/

theorem advanceEpoch_narrows (queue : BatchQueue P F) (parent : L2BlockInfo) :
    Narrows queue (queue.advanceEpoch parent) := by
  unfold advanceEpoch
  split
  · exact .refl queue
  · split
    · split
      · rename_i index found
        refine ⟨rfl, rfl, List.drop_suffix index _, fun _ => ?_⟩
        have within := (List.findIdx?_eq_some_iff_getElem.mp found).choose
        exact List.ne_nil_of_length_pos (by rw [List.length_drop]; omega)
      · exact .refl queue
    · exact .refl queue

/-- The queue of `next_batch` when the old blocks are gone and the origin is up to date. -/
def refreshed (queue : BatchQueue P F) (parent : L2BlockInfo) : BatchQueue P F :=
  (({ queue with nextSpans := [] }.advanceEpoch parent).updateOrigin parent).1

omit [NextBatchProvider P] in
theorem advanceEpoch_prev (queue : BatchQueue P F) (parent : L2BlockInfo) : (queue.advanceEpoch parent).prev = queue.prev := by
  unfold advanceEpoch
  split
  · rfl
  · split
    · split <;> rfl
    · rfl

theorem originBehind_eq_false {queue : BatchQueue P F} {parent : L2BlockInfo} :
    queue.originBehind parent = false ↔
      ∃ block, Stage.origin queue.prev = some block ∧ parent.l1Origin.number ≤ block.number := by
  unfold originBehind
  split
  · rename_i missing
    simp [missing]
  · rename_i block at_
    simp [at_]

theorem updateOrigin_ok (queue : BatchQueue P F) (parent : L2BlockInfo) : (queue.updateOrigin parent).2 = .ok () := by
  unfold updateOrigin
  split
  · rfl
  · dsimp only
    split
    · rfl
    · rename_i ahead
      obtain ⟨block, at_, -⟩ := originBehind_eq_false.mp (Bool.not_eq_true _ ▸ ahead)
      rw [at_]

theorem refreshed_cases (queue : BatchQueue P F) (parent : L2BlockInfo) :
    Stage.origin (queue.refreshed parent).prev = Stage.origin queue.prev ∧
    (queue.refreshed parent).origin = Stage.origin queue.prev ∧
    (queue.origin = Stage.origin queue.prev ∧ Narrows queue (queue.refreshed parent) ∨
    queue.origin ≠ Stage.origin queue.prev ∧
      (queue.originBehind parent = true ∧ (queue.refreshed parent).l1Blocks = [] ∨
      ∃ block older, Stage.origin queue.prev = some block ∧ older <:+ queue.l1Blocks ∧
        older.getLast? = queue.l1Blocks.getLast? ∧ (queue.refreshed parent).l1Blocks = older ++ [block])) := by
  have cleared : Narrows queue { queue with nextSpans := [] } := ⟨rfl, rfl, List.suffix_rfl, id⟩
  have narrows := cleared.trans (advanceEpoch_narrows { queue with nextSpans := [] } parent)
  have behind : ({ queue with nextSpans := [] }.advanceEpoch parent).originBehind parent = queue.originBehind parent := by
    unfold originBehind
    rw [narrows.prevOrigin]
  unfold refreshed updateOrigin
  split
  · rename_i same
    have same' : queue.origin = Stage.origin queue.prev := by rw [← narrows.origin, same, narrows.prevOrigin]
    exact ⟨narrows.prevOrigin, narrows.origin.trans same', .inl ⟨same', narrows⟩⟩
  · rename_i differs
    rw [narrows.origin, narrows.prevOrigin] at differs
    dsimp only
    split
    · rename_i isBehind
      exact ⟨narrows.prevOrigin, narrows.prevOrigin, .inr ⟨differs, .inl ⟨behind.symm.trans isBehind, rfl⟩⟩⟩
    · rename_i ahead
      obtain ⟨block, at_, -⟩ := originBehind_eq_false.mp (Bool.not_eq_true _ ▸ ahead)
      dsimp only at at_
      rw [at_]
      rw [narrows.prevOrigin] at at_
      exact ⟨narrows.prevOrigin.trans rfl, at_.symm, .inr ⟨differs, .inr ⟨block, _, at_, narrows.l1Blocks, narrows.getLast?, rfl⟩⟩⟩

/-! ## Then a batch is taken in and derived -/

variable [L2ChainProvider F]

section Follows

variable {chain : L1Chain} (follows : FollowsChain chain P)
include follows

theorem search_origin (cfg : SoonRollupConfig) (l1Blocks : List BlockInfo) (parent : L2BlockInfo) (prev : P) (fetcher : F)
    (batches : List BatchWithInclusionBlock) :
    Stage.origin (search cfg l1Blocks parent prev fetcher batches).1 = Stage.origin prev := by
  induction batches generalizing prev fetcher with
  | nil => rfl
  | cons data rest ih =>
      unfold search
      split
      · rfl
      · exact (ih _ _).trans (follows.flush prev)
      · exact (ih _ _).trans (follows.flush prev)
      · rfl
      · rfl
      · exact ih _ _

theorem addBatch_narrows (queue : BatchQueue P F) (batch : Batch) (parent : L2BlockInfo) :
    Narrows queue (queue.addBatch batch parent).1 := by
  unfold addBatch
  split
  · exact .refl queue
  · split
    · exact .refl queue
    · dsimp only
      split
      · exact ⟨rfl, rfl, List.suffix_rfl, id⟩
      · exact ⟨rfl, follows.flush queue.prev, List.suffix_rfl, id⟩
      · exact ⟨rfl, follows.flush queue.prev, List.suffix_rfl, id⟩
      · exact ⟨rfl, rfl, List.suffix_rfl, id⟩
      · exact ⟨rfl, rfl, List.suffix_rfl, id⟩

theorem pullBatch_narrows (queue : BatchQueue P F) (parent : L2BlockInfo) (originBehind : Bool) :
    Narrows queue (queue.pullBatch parent originBehind).1 := by
  have pulled := follows.nextBatch queue.prev parent queue.l1Blocks
  rcases answer : NextBatchProvider.nextBatch queue.prev parent queue.l1Blocks with ⟨prev, result⟩
  rw [answer] at pulled
  have moved : Narrows queue { queue with prev } := ⟨rfl, pulled, List.suffix_rfl, id⟩
  unfold pullBatch
  rw [answer]
  split
  · rename_i prev' batch same
    cases same
    split
    · exact moved
    · have added := moved.trans (addBatch_narrows follows { queue with prev } batch parent)
      split <;> rename_i called <;> rw [called] at added <;> exact added
  · rename_i same
    cases same
    exact moved
  · rename_i same
    cases same
    exact moved

theorem deriveNextBatch_narrows (queue : BatchQueue P F) (empty : Bool) (parent : L2BlockInfo) :
    Narrows queue (queue.deriveNextBatch empty parent).1 := by
  unfold deriveNextBatch
  split
  · exact .refl queue
  · rename_i epoch later blocks
    split
    · exact .refl queue
    · split
      · exact .refl queue
      · rename_i origin at_
        have kept := search_origin follows queue.cfg queue.l1Blocks parent queue.prev queue.fetcher queue.batches
        rcases found : search queue.cfg queue.l1Blocks parent queue.prev queue.fetcher queue.batches with
          ⟨prev, fetcher, batches, answer⟩
        rw [found] at kept
        have searched : Narrows queue { queue with prev, fetcher, batches } := ⟨rfl, kept, List.suffix_rfl, id⟩
        cases answer with
        | none => exact searched
        | some answer =>
            cases answer with
            | undecided => exact searched
            | accepted batch => exact searched
            | exhausted =>
                refine searched.trans ?_
                simp only [forceEmptyBatch]
                split
                · exact .refl _
                · split
                  · exact .refl _
                  · rename_i nextEpoch rest
                    split
                    · exact .refl _
                    · exact ⟨rfl, rfl, by rw [blocks]; exact List.suffix_cons _ _, fun _ => List.cons_ne_nil _ _⟩

theorem derive_narrows (queue : BatchQueue P F) (parent : L2BlockInfo) (outOfData : Bool) :
    Narrows queue (queue.derive parent outOfData).1 := by
  have derived := deriveNextBatch_narrows follows queue outOfData parent
  unfold derive
  split <;> rename_i called <;> rw [called] at derived
  · exact derived
  · exact derived
  · exact derived
  · split
    · exact derived
    · refine derived.trans ?_
      unfold popNextBatch
      split <;> exact ⟨rfl, rfl, List.suffix_rfl, id⟩

end Follows

theorem takeIn_eq (queue : BatchQueue P F) (parent : L2BlockInfo) :
    queue.takeIn parent = match (queue.refreshed parent).pullBatch parent (queue.originBehind parent) with
      | (taken, .error e) => (taken, .error e)
      | (taken, .ok outOfData) =>
          if queue.originBehind parent then
            (taken, if outOfData then PipelineError.eof.temp else PipelineError.notEnoughData.temp)
          else (taken, .ok outOfData) := by
  have behind : ({ queue with nextSpans := [] }.advanceEpoch parent).originBehind parent = queue.originBehind parent := by
    unfold originBehind
    rw [advanceEpoch_prev]
  have updated := updateOrigin_ok ({ queue with nextSpans := [] }.advanceEpoch parent) parent
  unfold takeIn refreshed
  simp only [behind]
  generalize ({ queue with nextSpans := [] }.advanceEpoch parent).updateOrigin parent = called at updated ⊢
  obtain ⟨after, result⟩ := called
  cases updated
  rfl

section Follows

variable {chain : L1Chain} (follows : FollowsChain chain P)
include follows

theorem takeIn_narrows (queue : BatchQueue P F) (parent : L2BlockInfo) :
    Narrows (queue.refreshed parent) (queue.takeIn parent).1 := by
  have pulled := pullBatch_narrows follows (queue.refreshed parent) parent (queue.originBehind parent)
  rw [takeIn_eq]
  split <;> rename_i called <;> rw [called] at pulled
  · exact pulled
  · split <;> exact pulled

theorem nextBatch_narrows {queue : BatchQueue P F} {parent : L2BlockInfo} (uncached : queue.cachedFollows parent = false) :
    Narrows (queue.refreshed parent) (queue.nextBatch parent).1 := by
  have taken := takeIn_narrows follows queue parent
  unfold nextBatch
  rw [if_neg (by rw [uncached]; exact Bool.false_ne_true)]
  split <;> rename_i called <;> rw [called] at taken
  · exact taken
  · exact taken.trans (derive_narrows follows _ parent _)

end Follows

theorem nextBatch_cached {queue : BatchQueue P F} {parent : L2BlockInfo} (cached : queue.cachedFollows parent = true) :
    ∃ nextSpans, (queue.nextBatch parent).1 = { queue with nextSpans } ∧
      (queue.nextBatch parent).2 ≠ PipelineError.eof.temp := by
  unfold nextBatch popNextBatch
  rw [if_pos cached]
  split
  · exact ⟨queue.nextSpans, rfl, nofun⟩
  · exact ⟨_, rfl, nofun⟩

end BatchQueue

/-! ## Runs -/

inductive QueueCall where
  | nextBatch (parent : L2BlockInfo)
  | advanceOrigin
  | signal (s : Signal)

structure QueueRun (P F : Type) where
  queue : BatchQueue P F
  -- The last call was `next_batch` and it found no more data.
  outOfData : Bool
  -- The highest L1 origin of a parent since the last reset.
  parentOrigin : UInt64

namespace QueueRun

variable {P F : Type} [NextBatchProvider P] [L2ChainProvider F]

def start (cfg : SoonRollupConfig) (prev : P) (fetcher : F) : QueueRun P F := ⟨.new cfg prev fetcher, false, 0⟩

def isEof {α : Type} : PipelineResult α → Bool
  | .error (.error (.temporary .eof)) => true
  | _ => false

theorem eq_of_isEof {α : Type} {result : PipelineResult α} (eof : isEof result = true) : result = PipelineError.eof.temp := by
  unfold isEof at eof
  split at eof
  · rfl
  · cases eof

def call (run : QueueRun P F) : QueueCall → QueueRun P F × PipelineResult (Option SingleBatch)
  | .nextBatch parent =>
      let (queue, result) := run.queue.nextBatch parent
      (⟨queue, isEof result, parent.l1Origin.number⟩, result.map some)
  | .advanceOrigin =>
      let (prev, result) := Stage.advanceOrigin run.queue.prev
      (⟨{ run.queue with prev }, false, run.parentOrigin⟩, result.map fun () => none)
  | .signal s =>
      let (queue, result) := run.queue.signal s
      let parentOrigin := match s, result with
        | .reset .., .ok () => 0
        | _, _ => run.parentOrigin
      (⟨queue, false, parentOrigin⟩, result.map fun () => none)

/-- The calls as the driver makes them. A signal names the origin of the pipeline, or any block of the chain
when it is the one with which the pipeline starts. -/
def Orderly (chain : L1Chain) (run : QueueRun P F) : QueueCall → Prop
  | .nextBatch parent => run.parentOrigin ≤ parent.l1Origin.number
  | .advanceOrigin => run.outOfData = true
  | .signal s => ∀ block, s.l1Origin = some block →
      Stage.origin run.queue.prev = some block ∨ run.queue.origin = none ∧ chain.Has block

structure Knows (chain : L1Chain) (queue : BatchQueue P F) (outOfData : Bool) : Prop where
  consecutive : Consecutive queue.l1Blocks
  onChain : ∀ block ∈ queue.l1Blocks, chain.Has block
  last : ∀ block, queue.l1Blocks.getLast? = some block → queue.origin = some block
  prevOnChain : ∀ block, Stage.origin queue.prev = some block → chain.Has block
  follows : queue.origin = Stage.origin queue.prev ∨ queue.origin = none ∨
    ∃ block next, queue.origin = some block ∧ Stage.origin queue.prev = some next ∧
      next.number.toNat = block.number.toNat + 1
  settled : outOfData = true → queue.origin = Stage.origin queue.prev

namespace Knows

variable {chain : L1Chain} {queue : BatchQueue P F} {outOfData : Bool}

omit [L2ChainProvider F] in
theorem new (cfg : SoonRollupConfig) {prev : P} (fetcher : F)
    (at_ : ∀ block, Stage.origin prev = some block → chain.Has block) :
    Knows chain (BatchQueue.new cfg prev fetcher) false where
  consecutive := .nil
  onChain := nofun
  last := nofun
  prevOnChain := at_
  follows := .inr (.inl rfl)
  settled := nofun

omit [L2ChainProvider F] in
theorem refreshed (knows : Knows chain queue outOfData) (parent : L2BlockInfo) :
    Knows chain (queue.refreshed parent) true := by
  obtain ⟨prevOrigin, origin, ⟨same, narrows⟩ | ⟨differs, ⟨-, empty⟩ | ⟨block, older, at_, suffix, last, blocks⟩⟩⟩ :=
    BatchQueue.refreshed_cases queue parent
  all_goals
    have settled : (queue.refreshed parent).origin = Stage.origin (queue.refreshed parent).prev :=
      origin.trans prevOrigin.symm
    have prevOnChain : ∀ block, Stage.origin (queue.refreshed parent).prev = some block → chain.Has block :=
      fun block at_ => knows.prevOnChain block (prevOrigin.symm.trans at_)
  · refine ⟨knows.consecutive.suffix narrows.l1Blocks, fun block mem => knows.onChain block (narrows.l1Blocks.subset mem),
      fun block last => ?_, prevOnChain, .inl settled, fun _ => settled⟩
    rw [narrows.origin]
    exact knows.last block (narrows.getLast? ▸ last)
  · refine ⟨?_, ?_, ?_, prevOnChain, .inl settled, fun _ => settled⟩ <;> rw [empty]
    · exact .nil
    · exact nofun
    · exact nofun
  · refine ⟨?_, ?_, ?_, prevOnChain, .inl settled, fun _ => settled⟩ <;> rw [blocks]
    · refine List.isChain_append.mpr ⟨knows.consecutive.suffix suffix, .singleton _, fun previous isLast next isNext => ?_⟩
      rw [last] at isLast
      cases isNext
      have known := knows.last previous isLast
      rcases knows.follows with same | missing | ⟨previous', next, origin', prevOrigin, successor⟩
      · exact absurd same differs
      · rw [known] at missing
        cases missing
      · rw [known] at origin'
        rw [at_] at prevOrigin
        cases origin'
        cases prevOrigin
        exact successor
    · intro other mem
      rcases List.mem_append.mp mem with old | new
      · exact knows.onChain other (suffix.subset old)
      · cases List.mem_singleton.mp new
        exact knows.prevOnChain block at_
    · intro other isLast
      rw [List.getLast?_concat] at isLast
      rw [origin, at_, isLast]

omit [L2ChainProvider F] in
theorem narrow {queue' : BatchQueue P F} (knows : Knows chain queue true) (narrows : BatchQueue.Narrows queue queue')
    (outOfData : Bool) : Knows chain queue' outOfData := by
  have settled : queue'.origin = Stage.origin queue'.prev := by
    rw [narrows.origin, narrows.prevOrigin]
    exact knows.settled rfl
  refine ⟨knows.consecutive.suffix narrows.l1Blocks, fun block mem => knows.onChain block (narrows.l1Blocks.subset mem),
    fun block last => ?_, fun block at_ => ?_, .inl settled, fun _ => settled⟩
  · exact narrows.origin.trans (knows.last block (narrows.getLast? ▸ last))
  · exact knows.prevOnChain block (narrows.prevOrigin.symm.trans at_)

omit [L2ChainProvider F] in
theorem movePrev (knows : Knows chain queue outOfData) {queue' : BatchQueue P F} (origin : queue'.origin = queue.origin)
    (l1Blocks : queue'.l1Blocks = queue.l1Blocks)
    (moved : Stage.origin queue'.prev = Stage.origin queue.prev ∨
      queue.origin = none ∧ ∃ block, chain.Has block ∧ Stage.origin queue'.prev = some block) :
    Knows chain queue' false where
  consecutive := by
    rw [l1Blocks]
    exact knows.consecutive
  onChain := by
    rw [l1Blocks]
    exact knows.onChain
  last := by
    rw [l1Blocks, origin]
    exact knows.last
  prevOnChain block at_ := by
    rcases moved with same | ⟨-, block', onChain, at_'⟩
    · exact knows.prevOnChain block (same.symm.trans at_)
    · cases at_'.symm.trans at_
      exact onChain
  follows := by
    rcases moved with unmoved | ⟨missing, -⟩
    · rw [origin, unmoved]
      exact knows.follows
    · exact .inr (.inl (origin.trans missing))
  settled := nofun

omit [L2ChainProvider F] in
theorem ofReset {l1Origin : BlockInfo} (onChain : chain.Has l1Origin) (at_ : Stage.origin queue.prev = some l1Origin)
    (origin : queue.origin = some l1Origin) (l1Blocks : queue.l1Blocks = [l1Origin]) : Knows chain queue false where
  consecutive := by
    rw [l1Blocks]
    exact .singleton _
  onChain block mem := by
    rw [l1Blocks, List.mem_singleton] at mem
    exact mem ▸ onChain
  last block isLast := by
    rw [l1Blocks] at isLast
    exact origin.trans isLast
  prevOnChain block found := by
    cases at_.symm.trans found
    exact onChain
  follows := .inl (origin.trans at_.symm)
  settled := nofun

omit [L2ChainProvider F] in
theorem advanceOrigin (knows : Knows chain queue true) (stage : FollowsChain chain P) :
    Knows chain { queue with prev := (Stage.advanceOrigin queue.prev).1 } false := by
  have same := knows.settled rfl
  rcases stage.advanceOrigin queue.prev with unmoved | ⟨block, next, at_, moved, onChain, successor⟩
  · exact knows.movePrev rfl rfl (.inl unmoved)
  · refine ⟨knows.consecutive, knows.onChain, knows.last, fun block at_ => ?_,
      .inr (.inr ⟨block, next, same.trans at_, moved, successor⟩), nofun⟩
    cases moved.symm.trans at_
    exact onChain

theorem nextBatch (knows : Knows chain queue outOfData) (stage : FollowsChain chain P) (parent : L2BlockInfo) :
    Knows chain (queue.nextBatch parent).1 (isEof (queue.nextBatch parent).2) := by
  cases cached : queue.cachedFollows parent with
  | true =>
      obtain ⟨nextSpans, same, notEof⟩ := BatchQueue.nextBatch_cached cached
      rw [same]
      exact ⟨knows.consecutive, knows.onChain, knows.last, knows.prevOnChain, knows.follows,
        fun eof => absurd (eq_of_isEof eof) notEof⟩
  | false => exact (knows.refreshed parent).narrow (BatchQueue.nextBatch_narrows stage cached) _

end Knows

structure Tracks (chain : L1Chain) (run : QueueRun P F) : Prop where
  consecutive : Consecutive run.queue.l1Blocks
  onChain : ∀ block ∈ run.queue.l1Blocks, chain.Has block
  last : ∀ block, run.queue.l1Blocks.getLast? = some block → run.queue.origin = some block
  prevOnChain : ∀ block, Stage.origin run.queue.prev = some block → chain.Has block
  -- Without blocks the stages before are behind the parent.
  behind : run.queue.l1Blocks = [] → run.queue.origin = Stage.origin run.queue.prev →
    ∀ block, Stage.origin run.queue.prev = some block → block.number < run.parentOrigin
  follows : run.queue.origin = Stage.origin run.queue.prev ∨ run.queue.origin = none ∨
    ∃ block next, run.queue.origin = some block ∧ Stage.origin run.queue.prev = some next ∧
      next.number.toNat = block.number.toNat + 1
  settled : run.outOfData = true → run.queue.origin = Stage.origin run.queue.prev

namespace Tracks

variable {chain : L1Chain} {run : QueueRun P F}

omit [L2ChainProvider F] in
theorem knows (tracks : Tracks chain run) : Knows chain run.queue run.outOfData :=
  ⟨tracks.consecutive, tracks.onChain, tracks.last, tracks.prevOnChain, tracks.follows, tracks.settled⟩

omit [L2ChainProvider F] in
theorem ofKnows (knows : Knows chain run.queue run.outOfData)
    (behind : run.queue.l1Blocks = [] → run.queue.origin = Stage.origin run.queue.prev →
      ∀ block, Stage.origin run.queue.prev = some block → block.number < run.parentOrigin) : Tracks chain run :=
  ⟨knows.consecutive, knows.onChain, knows.last, knows.prevOnChain, behind, knows.follows, knows.settled⟩

omit [L2ChainProvider F] in
theorem start (cfg : SoonRollupConfig) {prev : P} (fetcher : F)
    (at_ : ∀ block, Stage.origin prev = some block → chain.Has block) :
    Tracks chain (QueueRun.start cfg prev fetcher) := by
  refine ofKnows (.new cfg fetcher at_) fun _ same block found => ?_
  rw [← same] at found
  cases found

omit [L2ChainProvider F] in
theorem refreshed (tracks : Tracks chain run) {parent : L2BlockInfo} (orderly : run.parentOrigin ≤ parent.l1Origin.number) :
    Consecutive (run.queue.refreshed parent).l1Blocks ∧
    (∀ block ∈ (run.queue.refreshed parent).l1Blocks, chain.Has block) ∧
    (∀ block, (run.queue.refreshed parent).l1Blocks.getLast? = some block →
      (run.queue.refreshed parent).origin = some block) ∧
    ((run.queue.refreshed parent).l1Blocks = [] → run.queue.originBehind parent = true) := by
  have knows := tracks.knows.refreshed parent
  refine ⟨knows.consecutive, knows.onChain, knows.last, fun empty => ?_⟩
  obtain ⟨-, -, ⟨same, narrows⟩ | ⟨-, ⟨behind, -⟩ | ⟨block, older, -, -, -, blocks⟩⟩⟩ :=
    BatchQueue.refreshed_cases run.queue parent
  · by_contra ahead
    obtain ⟨block, at_, notBehind⟩ := BatchQueue.originBehind_eq_false.mp (Bool.not_eq_true _ ▸ ahead)
    have none_before : run.queue.l1Blocks = [] := by
      by_contra given
      exact narrows.nonempty given empty
    have := tracks.behind none_before same block at_
    rw [UInt64.lt_iff_toNat_lt] at this
    rw [UInt64.le_iff_toNat_le] at orderly notBehind
    omega
  · exact behind
  · rw [blocks] at empty
    exact absurd empty (List.append_ne_nil_of_right_ne_nil older (List.cons_ne_nil _ _))

theorem nextBatch (tracks : Tracks chain run) (stage : FollowsChain chain P) {parent : L2BlockInfo}
    (orderly : run.Orderly chain (.nextBatch parent)) : Tracks chain (run.call (.nextBatch parent)).1 := by
  refine ofKnows (tracks.knows.nextBatch stage parent) ?_
  change (run.queue.nextBatch parent).1.l1Blocks = [] →
    (run.queue.nextBatch parent).1.origin = Stage.origin (run.queue.nextBatch parent).1.prev →
    ∀ block, Stage.origin (run.queue.nextBatch parent).1.prev = some block → block.number < parent.l1Origin.number
  cases cached : run.queue.cachedFollows parent with
  | true =>
      obtain ⟨nextSpans, unchanged, -⟩ := BatchQueue.nextBatch_cached cached
      rw [unchanged]
      intro empty same block at_
      exact UInt64.lt_of_lt_of_le (tracks.behind empty same block at_) orderly
  | false =>
      have narrows := BatchQueue.nextBatch_narrows stage cached
      obtain ⟨-, -, -, behind⟩ := tracks.refreshed orderly
      intro empty _ block at_
      have none_before : (run.queue.refreshed parent).l1Blocks = [] := by
        by_contra given
        exact narrows.nonempty given empty
      rw [narrows.prevOrigin, (BatchQueue.refreshed_cases run.queue parent).1] at at_
      have isBehind := behind none_before
      unfold BatchQueue.originBehind at isBehind
      rw [at_] at isBehind
      exact of_decide_eq_true isBehind

theorem advanceOrigin (tracks : Tracks chain run) (stage : FollowsChain chain P)
    (orderly : run.Orderly chain .advanceOrigin) : Tracks chain (run.call .advanceOrigin).1 := by
  have settled : run.outOfData = true := orderly
  have knows := tracks.knows
  rw [settled] at knows
  refine ofKnows (knows.advanceOrigin stage) fun empty same block' at_' => ?_
  have same_before := tracks.settled settled
  rcases stage.advanceOrigin run.queue.prev with unmoved | ⟨block, next, at_, moved, -, successor⟩
  · exact tracks.behind empty same_before block' (unmoved.symm.trans at_')
  · have equal : some block = some next := (same_before.trans at_).symm.trans (Eq.trans same moved)
    cases equal
    omega

omit [L2ChainProvider F] in
theorem movePrev (tracks : Tracks chain run) {queue : BatchQueue P F} (origin : queue.origin = run.queue.origin)
    (l1Blocks : queue.l1Blocks = run.queue.l1Blocks)
    (moved : Stage.origin queue.prev = Stage.origin run.queue.prev ∨
      run.queue.origin = none ∧ ∃ block, chain.Has block ∧ Stage.origin queue.prev = some block) :
    Tracks chain ⟨queue, false, run.parentOrigin⟩ := by
  refine ofKnows (tracks.knows.movePrev origin l1Blocks moved) fun empty same block at_ => ?_
  rcases moved with unmoved | ⟨missing, -⟩
  · exact tracks.behind (l1Blocks.symm.trans empty) (origin.symm.trans (Eq.trans same unmoved)) block
      (unmoved.symm.trans at_)
  · cases missing.symm.trans (origin.symm.trans (Eq.trans same at_))

omit [L2ChainProvider F] in
theorem ofReset {queue : BatchQueue P F} {l1Origin : BlockInfo} (onChain : chain.Has l1Origin)
    (at_ : Stage.origin queue.prev = some l1Origin) (origin : queue.origin = some l1Origin)
    (l1Blocks : queue.l1Blocks = [l1Origin]) (parentOrigin : UInt64) : Tracks chain ⟨queue, false, parentOrigin⟩ := by
  refine ofKnows (.ofReset onChain at_ origin l1Blocks) fun empty => ?_
  cases l1Blocks.symm.trans empty

omit [L2ChainProvider F] in
theorem unsettled (tracks : Tracks chain run) : Tracks chain { run with outOfData := false } :=
  { tracks with settled := nofun }

theorem signal (tracks : Tracks chain run) (stage : FollowsChain chain P) {s : Signal}
    (orderly : run.Orderly chain (.signal s)) : Tracks chain (run.call (.signal s)).1 := by
  have moved : Stage.origin (Stage.signal run.queue.prev s).1 = Stage.origin run.queue.prev ∨
      run.queue.origin = none ∧ ∃ block, chain.Has block ∧ Stage.origin (Stage.signal run.queue.prev s).1 = some block := by
    rcases stage.signal run.queue.prev s with unmoved | ⟨block, names, at_⟩
    · exact .inl unmoved
    · rcases orderly block names with same | ⟨missing, onChain⟩
      · exact .inl (at_.trans same.symm)
      · exact .inr ⟨missing, block, onChain, at_⟩
  rcases answered : Stage.signal run.queue.prev s with ⟨prev, result⟩
  rw [answered] at moved
  cases result with
  | error e =>
      have stays : (run.call (.signal s)).1 = ⟨{ run.queue with prev }, false, run.parentOrigin⟩ := by
        simp only [call, BatchQueue.signal, answered]
      rw [stays]
      exact tracks.movePrev rfl rfl moved
  | ok _ =>
      cases s with
      | reset l2SafeHead l1Origin systemConfig =>
          have at_ := stage.reset run.queue.prev l2SafeHead l1Origin systemConfig
          rw [answered] at at_
          have onChain : chain.Has l1Origin := by
            rcases orderly l1Origin rfl with same | ⟨-, onChain⟩
            · exact tracks.prevOnChain l1Origin same
            · exact onChain
          simp only [call, BatchQueue.signal, answered]
          exact ofReset onChain (at_ rfl) rfl rfl 0
      | activation l2SafeHead l1Origin systemConfig =>
          simp only [call, BatchQueue.signal, answered]
          exact tracks.movePrev rfl rfl moved
      | flushChannel =>
          simp only [call, BatchQueue.signal, answered]
          exact tracks.movePrev rfl rfl moved

theorem call (tracks : Tracks chain run) (stage : FollowsChain chain P) {made : QueueCall}
    (orderly : run.Orderly chain made) : Tracks chain (run.call made).1 := by
  cases made with
  | nextBatch parent => exact tracks.nextBatch stage orderly
  | advanceOrigin => exact tracks.advanceOrigin stage orderly
  | signal s => exact tracks.signal stage orderly

end Tracks

/-! ## The view of the chain -/

structure Contiguous (queue : BatchQueue P F) : Prop where
  linked : queue.l1Blocks.IsChain fun block next =>
    next.number.toNat = block.number.toNat + 1 ∧ next.parentHash = block.hash
  nodup : queue.l1Blocks.Nodup
  last : ∀ block, queue.l1Blocks.getLast? = some block → queue.origin = some block

/-- The queue on which `next_batch` calls `add_batch`. -/
def AddsOn (queue : BatchQueue P F) (parent : L2BlockInfo) (called : BatchQueue P F) (batch : Batch) : Prop :=
  queue.cachedFollows parent = false ∧ queue.originBehind parent = false ∧
    ∃ prev, NextBatchProvider.nextBatch (queue.refreshed parent).prev parent (queue.refreshed parent).l1Blocks =
      (prev, .ok batch) ∧ called = { queue.refreshed parent with prev }

/-- The queue on which `next_batch` calls `derive_next_batch`. -/
def DerivesOn (queue : BatchQueue P F) (parent : L2BlockInfo) (called : BatchQueue P F) : Prop :=
  queue.cachedFollows parent = false ∧ ∃ outOfData, queue.takeIn parent = (called, .ok outOfData)

def HasOrigin (queue : BatchQueue P F) : Prop := queue.l1Blocks ≠ [] ∧ queue.origin ≠ none

theorem deriveNextBatch_ne_missingOrigin {queue : BatchQueue P F} (given : HasOrigin queue) (empty : Bool)
    (parent : L2BlockInfo) : (queue.deriveNextBatch empty parent).2 ≠ PipelineError.missingOrigin.crit := by
  unfold BatchQueue.deriveNextBatch
  split
  · rename_i none_left
    exact absurd none_left given.1
  · split
    · exact nofun
    · split
      · rename_i missing
        exact absurd missing given.2
      · split
        · exact nofun
        · exact nofun
        · exact nofun
        · simp only [BatchQueue.forceEmptyBatch]
          split
          · exact nofun
          · split
            · exact nofun
            · split <;> exact nofun

theorem derive_ne_missingOrigin {queue : BatchQueue P F} (given : HasOrigin queue) (parent : L2BlockInfo)
    (outOfData : Bool) : (queue.derive parent outOfData).2 ≠ PipelineError.missingOrigin.crit := by
  have derived := deriveNextBatch_ne_missingOrigin given outOfData parent
  unfold BatchQueue.derive
  split
  · split <;> exact nofun
  · rename_i called
    rw [called] at derived
    intro failed
    cases failed
    exact derived rfl
  · exact nofun
  · split
    · exact nofun
    · unfold BatchQueue.popNextBatch
      split <;> exact nofun

theorem pullBatch_ne_missingOrigin (queue : BatchQueue P F) {parent : L2BlockInfo} (originBehind : Bool)
    (previous : ∀ (stage : P) l1Blocks,
      (NextBatchProvider.nextBatch stage parent l1Blocks).2 ≠ PipelineError.missingOrigin.crit) :
    (queue.pullBatch parent originBehind).2 ≠ PipelineError.missingOrigin.crit := by
  have answers := previous queue.prev queue.l1Blocks
  unfold BatchQueue.pullBatch
  split
  · split
    · exact nofun
    · split <;> exact nofun
  · exact nofun
  · rename_i called
    rw [called] at answers
    intro failed
    cases failed
    exact answers rfl

namespace Tracks

variable {chain : L1Chain} {run : QueueRun P F} {parent : L2BlockInfo}

omit [L2ChainProvider F] in
theorem contiguous (tracks : Tracks chain run) : Contiguous run.queue where
  linked := by
    refine (List.isChain_iff_getElem.mpr fun i within => ?_)
    have successor := List.isChain_iff_getElem.mp tracks.consecutive i within
    have onChain := tracks.onChain _ (List.getElem_mem (Nat.lt_of_succ_lt within))
    have onChain' := tracks.onChain _ (List.getElem_mem within)
    refine ⟨successor, ?_⟩
    rw [onChain, onChain']
    exact chain.linked successor
  nodup := by
    refine (tracks.consecutive.pairwise).imp fun before same => ?_
    rw [same] at before
    exact UInt64.lt_irrefl _ before
  last := tracks.last

omit [L2ChainProvider F] in
theorem refreshed_hasOrigin (tracks : Tracks chain run) (orderly : run.parentOrigin ≤ parent.l1Origin.number)
    (ahead : run.queue.originBehind parent = false) : HasOrigin (run.queue.refreshed parent) := by
  obtain ⟨-, -, -, behind⟩ := tracks.refreshed orderly
  obtain ⟨-, origin, -⟩ := BatchQueue.refreshed_cases run.queue parent
  obtain ⟨block, at_, -⟩ := BatchQueue.originBehind_eq_false.mp ahead
  refine ⟨fun none_left => ?_, ?_⟩
  · rw [behind none_left] at ahead
    cases ahead
  · rw [origin, at_]
    exact Option.some_ne_none block

theorem takeIn_hasOrigin (tracks : Tracks chain run) (stage : FollowsChain chain P)
    (orderly : run.parentOrigin ≤ parent.l1Origin.number) {taken : BatchQueue P F} {outOfData : Bool}
    (called : run.queue.takeIn parent = (taken, .ok outOfData)) : HasOrigin taken := by
  have narrows := BatchQueue.takeIn_narrows stage run.queue parent
  rw [called] at narrows
  have ahead : run.queue.originBehind parent = false := by
    by_contra behind
    rw [BatchQueue.takeIn_eq] at called
    split at called
    · cases called
    · rw [if_pos (Bool.not_eq_false _ ▸ behind)] at called
      split at called <;> cases called
  obtain ⟨blocks, origin⟩ := tracks.refreshed_hasOrigin orderly ahead
  exact ⟨narrows.nonempty blocks, narrows.origin ▸ origin⟩

theorem nextBatch_ne_missingOrigin (tracks : Tracks chain run) (stage : FollowsChain chain P)
    (orderly : run.parentOrigin ≤ parent.l1Origin.number)
    (previous : ∀ (stage : P) l1Blocks,
      (NextBatchProvider.nextBatch stage parent l1Blocks).2 ≠ PipelineError.missingOrigin.crit) :
    (run.queue.nextBatch parent).2 ≠ PipelineError.missingOrigin.crit := by
  unfold BatchQueue.nextBatch
  split
  · unfold BatchQueue.popNextBatch
    split <;> exact nofun
  · split
    · rename_i taken e called
      rw [BatchQueue.takeIn_eq] at called
      have pulled := pullBatch_ne_missingOrigin (run.queue.refreshed parent) (run.queue.originBehind parent) previous
      rcases answered : (run.queue.refreshed parent).pullBatch parent (run.queue.originBehind parent) with ⟨after, result⟩
      rw [answered] at pulled called
      cases result with
      | error stop =>
          cases called
          intro failed
          cases failed
          exact pulled rfl
      | ok outOfData =>
          replace called : (if run.queue.originBehind parent then
              (after, if outOfData then PipelineError.eof.temp else PipelineError.notEnoughData.temp)
            else (after, .ok outOfData)) = (taken, Except.error e) := called
          by_cases behind : run.queue.originBehind parent = true
          · rw [if_pos behind] at called
            cases outOfData <;> cases called <;> exact nofun
          · rw [if_neg behind] at called
            cases called
    · rename_i called
      exact derive_ne_missingOrigin (tracks.takeIn_hasOrigin stage orderly called) parent _

end Tracks

/-- In every run the blocks of the queue are a linked piece of the chain that ends at the origin of the queue, and
whenever a batch is added or derived there is a block to build on. -/
theorem view_contiguous (chain : L1Chain) (stage : FollowsChain chain P) (cfg : SoonRollupConfig) (prev : P) (fetcher : F)
    (at_ : ∀ block, Stage.origin prev = some block → chain.Has block) (calls : List QueueCall)
    (orderly : Along call (Orderly chain) (start cfg prev fetcher) calls) :
    Along call (fun run made => Contiguous (run.call made).1.queue ∧
      ∀ parent, made = .nextBatch parent →
        (∀ called batch, AddsOn run.queue parent called batch → HasOrigin called) ∧
        (∀ called, DerivesOn run.queue parent called → HasOrigin called) ∧
        ((∀ (stage : P) l1Blocks,
            (NextBatchProvider.nextBatch stage parent l1Blocks).2 ≠ PipelineError.missingOrigin.crit) →
          (run.call made).2 ≠ PipelineError.missingOrigin.crit))
      (start cfg prev fetcher) calls := by
  refine along_of_invariant (Tracks chain) (fun run made tracks orderly => tracks.call stage orderly) ?_
    (Tracks.start cfg fetcher at_) orderly
  intro run made tracks orderly
  refine ⟨(tracks.call stage orderly).contiguous, ?_⟩
  rintro parent rfl
  refine ⟨?_, ?_, ?_⟩
  · rintro called batch ⟨-, ahead, prev, -, rfl⟩
    exact tracks.refreshed_hasOrigin orderly ahead
  · rintro called ⟨-, outOfData, taken⟩
    exact tracks.takeIn_hasOrigin stage orderly taken
  · intro previous failed
    refine tracks.nextBatch_ne_missingOrigin stage orderly previous ?_
    rcases answered : run.queue.nextBatch parent with ⟨queue, result⟩
    simp only [call, answered] at failed
    cases result with
    | ok batch => cases failed
    | error e =>
        cases failed
        rfl

end QueueRun

/-! ## Two blocks -/

def blockChain : L1Chain where
  block := blockAt
  number _ := rfl
  linked := by
    intro n next follows
    simp only [blockAt, follows, Nat.add_sub_cancel]

theorem blockChain_has (n : UInt64) : blockChain.Has (blockAt n) := rfl

structure Walker where
  block : BlockInfo
  batches : List (UInt64 × Batch)

instance : NextBatchProvider Walker where
  origin stage := some stage.block
  advanceOrigin stage :=
    if stage.block.number.toNat + 1 < UInt64.size then
      ({ stage with block := blockAt (stage.block.number + 1) }, .ok ())
    else (stage, PipelineError.eof.temp)
  signal stage s := ({ stage with block := s.l1Origin.getD stage.block }, .ok ())
  nextBatch stage _ _ := match stage.batches with
    | [] => (stage, PipelineError.eof.temp)
    | (number, batch) :: batches =>
        if number ≤ stage.block.number then ({ stage with batches }, .ok batch) else (stage, PipelineError.eof.temp)
  flush stage := stage

theorem walker_follows : FollowsChain blockChain Walker where
  nextBatch stage _ _ := by
    simp only [NextBatchProvider.nextBatch]
    split
    · rfl
    · split <;> rfl
  flush _ := rfl
  advanceOrigin stage := by
    by_cases room : stage.block.number.toNat + 1 < UInt64.size
    · refine .inr ⟨stage.block, blockAt (stage.block.number + 1), rfl, ?_, blockChain_has _, ?_⟩
      · simp only [Stage.advanceOrigin, Stage.origin, if_pos room]
      · change (stage.block.number + 1).toNat = _
        rw [UInt64.toNat_add]
        exact Nat.mod_eq_of_lt room
    · left
      simp only [Stage.advanceOrigin, Stage.origin, if_neg room]
  signal stage s := by
    cases s with
    | reset l2SafeHead l1Origin systemConfig => exact .inr ⟨l1Origin, rfl, rfl⟩
    | activation l2SafeHead l1Origin systemConfig => exact .inr ⟨l1Origin, rfl, rfl⟩
    | flushChannel => exact .inl rfl
  reset _ _ _ _ _ := rfl

namespace QueueRun

def walk : QueueRun Walker NoBlocks := start ⟨20, 10, 2⟩ ⟨blockAt 0, []⟩ ⟨⟩

def walkCalls : List QueueCall :=
  [.signal (.reset safeBlock (blockAt 8) none), .nextBatch safeBlock, .advanceOrigin, .nextBatch safeBlock]

theorem view_contiguous_two_blocks : Along call (Orderly blockChain) walk walkCalls ∧
    (run call walk walkCalls).queue.l1Blocks = [blockAt 8, blockAt 9] ∧
    Along call (fun run made => Contiguous (run.call made).1.queue) walk walkCalls := by
  have orderly : Along call (Orderly blockChain) walk walkCalls := by
    refine ⟨?_, ?_, ?_, ?_, trivial⟩
    · intro block names
      cases names
      exact .inr ⟨rfl, blockChain_has 8⟩
    · change (0 : UInt64) ≤ 8
      decide
    · rfl
    · change (8 : UInt64) ≤ 8
      decide
  refine ⟨orderly, rfl, along_mono (fun run made view => view.1)
    (view_contiguous blockChain walker_follows ⟨20, 10, 2⟩ ⟨blockAt 0, []⟩ NoBlocks.mk ?_ walkCalls orderly)⟩
  intro block at_
  cases at_
  exact blockChain_has 0

end QueueRun

end KonaSoon.Derive
