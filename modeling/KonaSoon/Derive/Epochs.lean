import KonaSoon.Derive.Expandable
import KonaSoon.Derive.Recovery
import KonaSoon.Derive.Selection

namespace KonaSoon.Derive
open Lib Mpt

namespace QueueRun

variable {P F : Type} [NextBatchProvider P]

/-! ## The epoch of a batch -/

def InReach (parent : L2BlockInfo) (epochNum : UInt64) : Prop :=
  epochNum = parent.l1Origin.number ∨ epochNum = parent.l1Origin.number + 1

instance (parent : L2BlockInfo) (epochNum : UInt64) : Decidable (InReach parent epochNum) :=
  inferInstanceAs (Decidable (_ ∨ _))

structure NextEpoch (chain : L1Chain) (parent : L2BlockInfo) (batch : SingleBatch) : Prop where
  inReach : InReach parent batch.epochNum
  epochHash : batch.epochHash = (chain.block batch.epochNum).hash
  parentHash : batch.parentHash = parent.blockInfo.hash

def OnChain (chain : L1Chain) (parent : L2BlockInfo) : Prop :=
  parent.blockInfo.number ≠ 0 ∧ parent.l1Origin = (chain.block parent.l1Origin.number).id

def StaysInReach (l1Blocks : List BlockInfo) (parent : L2BlockInfo) : Batch → Prop
  | .single batch => ∀ epoch ∈ l1Blocks.head?, epoch.number = parent.l1Origin.number + 1 →
      batch.epochNum ≠ epoch.number + 1
  | .span batch => ∀ first ∈ batch.batches.head?, first.timestamp ≤ parent.blockInfo.timestamp →
      ∀ element ∈ (SpanBatch.newElements batch.batches parent.blockInfo.timestamp).head?, InReach parent element.epochNum

/-- What `derive_next_batch` returns is in reach. -/
def Near (chain : L1Chain) (parent : L2BlockInfo) : Batch → Prop
  | .single batch => NextEpoch chain parent batch
  | .span batch => ∀ element ∈ (SpanBatch.newElements batch.batches parent.blockInfo.timestamp).head?,
      InReach parent element.epochNum

section Rules

variable {chain : L1Chain} {cfg : SoonRollupConfig} {parent : L2BlockInfo} {inclusionBlock epoch : BlockInfo}
  {later : List BlockInfo}

theorem epoch_inReach (matches_ : BatchQueue.OriginMatches parent epoch) (nonzero : parent.blockInfo.number ≠ 0) :
    epoch.number = parent.l1Origin.number ∨ epoch.number = parent.l1Origin.number + 1 := by
  unfold BatchQueue.OriginMatches at matches_
  by_cases same : parent.l1Origin = epoch.id
  · rw [same]
    exact .inl rfl
  · right
    have before : parent.l1Origin.number = epoch.number - 1 := by
      by_contra other
      exact matches_ ⟨nonzero, same, other⟩
    rw [before, UInt64.sub_add_cancel]

theorem single_nextEpoch {batch : SingleBatch} (consecutive : Consecutive (epoch :: later))
    (onChain : ∀ block ∈ epoch :: later, chain.Has block) (parentOnChain : OnChain chain parent)
    (matches_ : BatchQueue.OriginMatches parent epoch)
    (meets : batch.MeetsRules cfg (epoch :: later) parent inclusionBlock)
    (stays : StaysInReach (epoch :: later) parent (.single batch)) : NextEpoch chain parent batch := by
  obtain ⟨_, _, origin, same, -, builds, -, names, hash, -⟩ := meets
  cases same
  have hash := hash.resolve_right parentOnChain.1
  have reach := epoch_inReach matches_ parentOnChain.1
  rcases names with ⟨number, rfl⟩ | ⟨-, number, next⟩
  · refine ⟨?_, ?_, builds⟩
    · rw [InReach, number]
      exact reach
    · rw [hash, number]
      exact congrArg BlockInfo.hash (onChain origin List.mem_cons_self)
  · cases later with
    | nil => cases next
    | cons block rest =>
        cases next
        have successor := (List.isChain_cons_cons.mp consecutive).1
        have sameNumber : origin.number = batch.epochNum := by
          apply UInt64.toNat_inj.mp
          rw [number, UInt64.toNat_add, successor]
          exact (Nat.mod_eq_of_lt (successor ▸ origin.number.toNat_lt)).symm
        refine ⟨?_, ?_, builds⟩
        · rcases reach with here | passed
          · rw [InReach, number, here]
            exact .inr rfl
          · exact absurd number (stays epoch rfl passed)
        · rw [hash, ← sameNumber]
          exact congrArg BlockInfo.hash (onChain origin (List.mem_cons_of_mem _ List.mem_cons_self))

theorem inReach_of_bounds {epochNum : UInt64} (notOld : parent.l1Origin.number ≤ epochNum)
    (notAhead : epochNum ≤ parent.l1Origin.number + 1) : InReach parent epochNum := by
  rcases UInt64.lt_or_eq_of_le notOld with ahead | same
  · right
    apply UInt64.toNat_inj.mp
    rw [UInt64.lt_iff_toNat_lt] at ahead
    rw [UInt64.le_iff_toNat_le] at notAhead
    have added := UInt64.toNat_add parent.l1Origin.number 1
    have one : (1 : UInt64).toNat = 1 := rfl
    rw [one] at added
    omega
  · exact .inl same.symm

theorem span_inReach {F : Type} [L2ChainProvider F] {fetcher : F} {batch : SpanBatch} {l1Blocks : List BlockInfo}
    (meets : batch.MeetsRules cfg l1Blocks parent inclusionBlock fetcher)
    (stays : StaysInReach l1Blocks parent (.span batch)) : Near chain parent (.span batch) := by
  obtain ⟨first, parentBlock, ⟨epoch, later, rest, -, batches, -, -, -, builds, follows⟩, -⟩ := meets
  by_cases old : first.timestamp ≤ parent.blockInfo.timestamp
  · exact stays first (by rw [batches]; rfl) old
  · intro element mem
    rw [batches, SpanBatch.newElements_cons_new rest old] at mem
    cases mem
    rcases builds with ⟨-, rfl⟩ | ⟨-, notAfter, -⟩
    · exact inReach_of_bounds follows.notOld follows.notAhead
    · exact absurd notAfter old

end Rules

/-! ## One call -/

section Calls

variable {chain : L1Chain} {queue : BatchQueue P F} {parent : L2BlockInfo} {known outOfData : Bool}

def CachedOnChain (chain : L1Chain) (queue : BatchQueue P F) : Prop :=
  ∀ batch ∈ queue.nextSpans, batch.epochHash = (chain.block batch.epochNum).hash

omit [NextBatchProvider P] in
theorem cachedOnChain_of_cleared (cleared : queue.nextSpans = []) : CachedOnChain chain queue := by
  intro batch mem
  rw [cleared] at mem
  cases mem

omit [NextBatchProvider P] in
theorem popNextBatch_cachedOnChain (cached : CachedOnChain chain queue) :
    CachedOnChain chain (queue.popNextBatch parent).1 := by
  unfold BatchQueue.popNextBatch
  split
  · exact cached
  · rename_i next rest spans
    exact fun batch mem => cached batch (spans ▸ List.mem_cons_of_mem next mem)

variable [L2ChainProvider F]

theorem deriveNextBatch_ok_cases {batch : Batch} (ok : (queue.deriveNextBatch outOfData parent).2 = .ok batch) :
    ∃ epoch later origin, queue.l1Blocks = epoch :: later ∧ BatchQueue.OriginMatches parent epoch ∧
      queue.origin = some origin := by
  unfold BatchQueue.deriveNextBatch at ok
  split at ok
  · cases ok
  · rename_i epoch later blocks
    split at ok
    · cases ok
    · rename_i matches_
      split at ok
      · cases ok
      · rename_i origin at_
        exact ⟨epoch, later, origin, blocks, matches_, at_⟩

theorem deriveNextBatch_near (knows : Knows chain queue known) (parentOnChain : OnChain chain parent)
    (stays : ∀ data rest, queue.Stops parent data rest .accept → StaysInReach queue.l1Blocks parent data.batch)
    {batch : Batch} (ok : (queue.deriveNextBatch outOfData parent).2 = .ok batch) : Near chain parent batch := by
  obtain ⟨epoch, later, origin, blocks, matches_, at_⟩ := deriveNextBatch_ok_cases ok
  obtain ⟨-, -, -, taken, -⟩ :=
    BatchQueue.deriveNextBatch_selects queue outOfData parent epoch origin later blocks matches_ at_
  rcases taken batch ok with ⟨data, rest, stops, rfl⟩ | ⟨-, -, rfl⟩
  · have near := stays data rest stops
    obtain ⟨skipped, after, -, -, accepted⟩ := stops
    have meets := (data.checkBatch_accept_iff queue.cfg queue.l1Blocks parent after).mp accepted
    obtain ⟨inclusionBlock, batch | batch⟩ := data
    · rw [blocks] at near meets
      exact single_nextEpoch (blocks ▸ knows.consecutive) (blocks ▸ knows.onChain) parentOnChain matches_ meets near
    · exact span_inReach meets near
  · refine ⟨epoch_inReach matches_ parentOnChain.1, ?_, rfl⟩
    exact congrArg BlockInfo.hash (knows.onChain epoch (by rw [blocks]; exact List.mem_cons_self))

theorem expandsTo_onChain {l1Blocks : List BlockInfo} (onChain : ∀ block ∈ l1Blocks, chain.Has block)
    {element : SpanBatchElement} {batch : SingleBatch} (expands : SpanBatch.ExpandsTo l1Blocks element batch) :
    batch.epochNum = element.epochNum ∧ batch.epochHash = (chain.block batch.epochNum).hash := by
  obtain ⟨block, mem, number, rfl⟩ := expands
  refine ⟨rfl, ?_⟩
  rw [← number]
  exact congrArg BlockInfo.hash (onChain block mem)

theorem singularBatches_onChain {l1Blocks : List BlockInfo} (onChain : ∀ block ∈ l1Blocks, chain.Has block)
    {span : SpanBatch} {batches : List SingleBatch} (expands : span.getSingularBatches l1Blocks parent = .ok batches) :
    (∀ batch ∈ batches, batch.epochHash = (chain.block batch.epochNum).hash) ∧
    ∀ next ∈ batches.head?, ∃ element ∈ (SpanBatch.newElements span.batches parent.blockInfo.timestamp).head?,
      next.epochNum = element.epochNum := by
  have each := SpanBatch.singularBatches_expandsTo expands
  clear expands
  generalize SpanBatch.newElements span.batches parent.blockInfo.timestamp = elements at each
  constructor
  · induction each with
    | nil => exact nofun
    | cons here _ ih =>
        intro batch mem
        rcases List.mem_cons.mp mem with rfl | mem
        · exact (expandsTo_onChain onChain here).2
        · exact ih batch mem
  · cases each with
    | nil => exact nofun
    | cons here _ =>
        intro next isNext
        cases isNext
        exact ⟨_, rfl, (expandsTo_onChain onChain here).1⟩

theorem derive_cachedOnChain (knows : Knows chain queue known) (stage : FollowsChain chain P)
    (cleared : queue.nextSpans = []) : CachedOnChain chain (queue.derive parent outOfData).1 := by
  have narrows := BatchQueue.deriveNextBatch_narrows stage queue outOfData parent
  have spans := (deriveNextBatch_nextSpans queue outOfData parent).trans cleared
  unfold BatchQueue.derive
  split <;> rename_i called <;> rw [called] at narrows spans
  · exact cachedOnChain_of_cleared spans
  · exact cachedOnChain_of_cleared spans
  · exact cachedOnChain_of_cleared spans
  · split
    · exact cachedOnChain_of_cleared spans
    · rename_i batches expands
      have onChain := fun block mem => knows.onChain block (narrows.l1Blocks.subset mem)
      exact popNextBatch_cachedOnChain (singularBatches_onChain onChain expands).1

theorem derive_nextEpoch (knows : Knows chain queue known) (stage : FollowsChain chain P)
    (parentOnChain : OnChain chain parent)
    (stays : ∀ data rest, queue.Stops parent data rest .accept → StaysInReach queue.l1Blocks parent data.batch)
    {batch : SingleBatch} (ok : (queue.derive parent outOfData).2 = .ok batch) : NextEpoch chain parent batch := by
  have narrows := BatchQueue.deriveNextBatch_narrows stage queue outOfData parent
  have near : ∀ batch, (queue.deriveNextBatch outOfData parent).2 = .ok batch → Near chain parent batch :=
    fun _ derived => deriveNextBatch_near knows parentOnChain stays derived
  unfold BatchQueue.derive at ok
  split at ok <;> rename_i called <;> rw [called] at narrows near
  · split at ok <;> cases ok
  · cases ok
  · cases ok
    exact near _ rfl
  · rename_i span
    split at ok
    · cases ok
    · rename_i batches expands
      have onChain := fun block mem => knows.onChain block (narrows.l1Blocks.subset mem)
      obtain ⟨hashes, first⟩ := singularBatches_onChain onChain expands
      cases batches with
      | nil => cases ok
      | cons next rest =>
          cases ok
          obtain ⟨element, isFirst, epoch⟩ := first next rfl
          refine ⟨?_, hashes next List.mem_cons_self, rfl⟩
          rw [InReach, epoch]
          exact near _ rfl element isFirst

/-- What a queue holds at a call that stays in reach of the parent's origin: a cached batch that is in reach, and
among its batches first to accept no single one that skips the L1 block after an origin that is passed over, and no
span that overlaps the safe chain and jumps behind it. -/
structure CallStaysInReach (queue : BatchQueue P F) (parent : L2BlockInfo) : Prop where
  cached : queue.cachedFollows parent = true → ∀ next ∈ queue.nextSpans.head?, InReach parent next.epochNum
  single : ∀ called, DerivesOn queue parent called → ∀ data rest batch, called.Stops parent data rest .accept →
    data.batch = .single batch → ∀ epoch ∈ called.l1Blocks.head?, epoch.number = parent.l1Origin.number + 1 →
      batch.epochNum ≠ epoch.number + 1
  span : ∀ called, DerivesOn queue parent called → ∀ data rest batch, called.Stops parent data rest .accept →
    data.batch = .span batch → ∀ first ∈ batch.batches.head?, first.timestamp ≤ parent.blockInfo.timestamp →
      ∀ element ∈ (SpanBatch.newElements batch.batches parent.blockInfo.timestamp).head?, InReach parent element.epochNum

theorem CallStaysInReach.accepted (stays : CallStaysInReach queue parent) {called : BatchQueue P F}
    (derives : DerivesOn queue parent called) {data : BatchWithInclusionBlock} {rest : List BatchWithInclusionBlock}
    (stops : called.Stops parent data rest .accept) : StaysInReach called.l1Blocks parent data.batch := by
  cases is_ : data.batch with
  | single batch => exact stays.single called derives data rest batch stops is_
  | span batch => exact stays.span called derives data rest batch stops is_

theorem nextBatch_nextEpoch (knows : Knows chain queue known) (cached : CachedOnChain chain queue)
    (stage : FollowsChain chain P) (parentOnChain : OnChain chain parent) (stays : CallStaysInReach queue parent)
    {batch : SingleBatch} (ok : (queue.nextBatch parent).2 = .ok batch) : NextEpoch chain parent batch := by
  unfold BatchQueue.nextBatch at ok
  split at ok
  · rename_i cachedFollows
    have reach := stays.cached cachedFollows
    unfold BatchQueue.popNextBatch at ok
    split at ok
    · cases ok
    · rename_i next rest spans
      cases ok
      refine ⟨reach next (by rw [spans]; rfl), cached next (by rw [spans]; exact List.mem_cons_self), rfl⟩
  · rename_i uncached
    split at ok
    · cases ok
    · rename_i called outOfData taken
      have narrows := BatchQueue.takeIn_narrows stage queue parent
      rw [taken] at narrows
      exact derive_nextEpoch ((knows.refreshed parent).narrow narrows false) stage parentOnChain
        (fun _ _ => stays.accepted ⟨Bool.not_eq_true _ ▸ uncached, outOfData, taken⟩) ok

theorem nextBatch_cachedOnChain (knows : Knows chain queue known) (cached : CachedOnChain chain queue)
    (stage : FollowsChain chain P) (parent : L2BlockInfo) : CachedOnChain chain (queue.nextBatch parent).1 := by
  have narrows := BatchQueue.takeIn_narrows stage queue parent
  have cleared := takeIn_nextSpans queue parent
  unfold BatchQueue.nextBatch
  split
  · exact popNextBatch_cachedOnChain cached
  · split <;> rename_i taken <;> rw [taken] at narrows cleared
    · exact cachedOnChain_of_cleared cleared
    · exact derive_cachedOnChain ((knows.refreshed parent).narrow narrows false) stage cleared

end Calls

/-! ## Runs -/

section Runs

variable [L2ChainProvider F] {chain : L1Chain}

/-- The calls of the pipeline: the origin advances when the queue has run out of data, and a reset names a block of
the chain. The stages before either take a reset or stay where they are. -/
def Permitted (chain : L1Chain) (run : QueueRun P F) : QueueCall → Prop
  | .nextBatch _ => True
  | .advanceOrigin => run.outOfData = true
  | .signal (.reset l2SafeHead l1Origin systemConfig) => chain.Has l1Origin ∧
      ((Stage.signal run.queue.prev (.reset l2SafeHead l1Origin systemConfig)).2 = .ok () ∨
        Stage.origin (Stage.signal run.queue.prev (.reset l2SafeHead l1Origin systemConfig)).1 =
          Stage.origin run.queue.prev)
  | .signal (.activation _ l1Origin _) => Stage.origin run.queue.prev = some l1Origin
  | .signal .flushChannel => True

structure Sound (chain : L1Chain) (run : QueueRun P F) : Prop where
  knows : Knows chain run.queue run.outOfData
  cached : CachedOnChain chain run.queue

namespace Sound

variable {run : QueueRun P F}

omit [L2ChainProvider F] in
theorem unmoved (sound : Sound chain run) {s : Signal}
    (same : Stage.origin (Stage.signal run.queue.prev s).1 = Stage.origin run.queue.prev)
    (keeps : ∀ l2SafeHead l1Origin systemConfig, s = .reset l2SafeHead l1Origin systemConfig →
      (Stage.signal run.queue.prev s).2 ≠ .ok ()) :
    Knows chain (run.queue.signal s).1 false ∧ CachedOnChain chain (run.queue.signal s).1 := by
  rcases answered : Stage.signal run.queue.prev s with ⟨prev, result⟩
  rw [answered] at same keeps
  unfold BatchQueue.signal
  rw [answered]
  cases result with
  | error e => exact ⟨sound.knows.movePrev rfl rfl (.inl same), sound.cached⟩
  | ok _ =>
      cases s with
      | reset l2SafeHead l1Origin systemConfig => exact absurd rfl (keeps _ _ _ rfl)
      | activation l2SafeHead l1Origin systemConfig =>
          exact ⟨sound.knows.movePrev rfl rfl (.inl same), cachedOnChain_of_cleared rfl⟩
      | flushChannel => exact ⟨sound.knows.movePrev rfl rfl (.inl same), cachedOnChain_of_cleared rfl⟩

omit [L2ChainProvider F] in
theorem signal (sound : Sound chain run) (stage : FollowsChain chain P) {s : Signal}
    (permitted : run.Permitted chain (.signal s)) :
    Knows chain (run.queue.signal s).1 false ∧ CachedOnChain chain (run.queue.signal s).1 := by
  cases s with
  | reset l2SafeHead l1Origin systemConfig =>
      obtain ⟨onChain, whole⟩ := permitted
      by_cases ok : (Stage.signal run.queue.prev (.reset l2SafeHead l1Origin systemConfig)).2 = .ok ()
      · have at_ := stage.reset run.queue.prev l2SafeHead l1Origin systemConfig ok
        rcases answered : Stage.signal run.queue.prev (.reset l2SafeHead l1Origin systemConfig) with ⟨prev, result⟩
        rw [answered] at ok at_
        cases ok
        unfold BatchQueue.signal
        rw [answered]
        exact ⟨.ofReset onChain at_ rfl rfl, cachedOnChain_of_cleared rfl⟩
      · refine sound.unmoved (whole.resolve_left ok) ?_
        intro _ _ _ same
        exact ok
  | activation l2SafeHead l1Origin systemConfig =>
      refine sound.unmoved ?_ (by intro _ _ _ same; cases same)
      rcases stage.signal run.queue.prev (.activation l2SafeHead l1Origin systemConfig) with same | ⟨block, names, at_⟩
      · exact same
      · cases names
        exact at_.trans permitted.symm
  | flushChannel =>
      refine sound.unmoved ?_ (by intro _ _ _ same; cases same)
      rcases stage.signal run.queue.prev .flushChannel with same | ⟨block, names, -⟩
      · exact same
      · cases names

theorem call (sound : Sound chain run) (stage : FollowsChain chain P) {made : QueueCall}
    (permitted : run.Permitted chain made) : Sound chain (run.call made).1 := by
  cases made with
  | nextBatch parent =>
      exact ⟨sound.knows.nextBatch stage parent, nextBatch_cachedOnChain sound.knows sound.cached stage parent⟩
  | advanceOrigin =>
      have knows : Knows chain run.queue true := Eq.mp (congrArg (Knows chain run.queue) permitted) sound.knows
      exact ⟨knows.advanceOrigin stage, sound.cached⟩
  | signal s =>
      obtain ⟨knows, cached⟩ := sound.signal stage permitted
      exact ⟨knows, cached⟩

end Sound

def Returns (initial : QueueRun P F) (calls : List QueueCall) (parent : L2BlockInfo) (batch : SingleBatch) : Prop :=
  ∃ before after, calls = before ++ .nextBatch parent :: after ∧
    ((run call initial before).call (.nextBatch parent)).2 = .ok (some batch)

/-- L2 blocks of which each is built from a batch that the run returns for the one before. -/
def BuiltFrom (initial : QueueRun P F) (calls : List QueueCall) (blocks : List L2BlockInfo) : Prop :=
  blocks.IsChain fun parent block => ∃ batch, Returns initial calls parent batch ∧ block.blockInfo.number ≠ 0 ∧
    block.l1Origin = batch.epoch

/-- What a call returns for a parent on the chain is for the next epoch at the latest. -/
def ReturnsNextEpoch (chain : L1Chain) (run : QueueRun P F) (made : QueueCall) : Prop :=
  ∀ parent batch, made = .nextBatch parent → OnChain chain parent → (run.call made).2 = .ok (some batch) →
    NextEpoch chain parent batch

theorem along_at {σ ι ρ : Type} {step : σ → ι → σ × ρ} {condition : σ → ι → Prop} {s : σ} {before after : List ι} {i : ι}
    (along : Along step condition s (before ++ i :: after)) : condition (run step s before) i := by
  induction before generalizing s with
  | nil => exact along.1
  | cons _ before ih => exact ih along.2

theorem along_and {σ ι ρ : Type} {step : σ → ι → σ × ρ} {condition condition' : σ → ι → Prop} {s : σ} {is : List ι}
    (first : Along step condition s is) (second : Along step condition' s is) :
    Along step (fun s i => condition s i ∧ condition' s i) s is := by
  induction is generalizing s with
  | nil => trivial
  | cons _ is ih => exact ⟨⟨first.1, second.1⟩, ih first.2 second.2⟩

theorem covers {initial : QueueRun P F} {calls : List QueueCall}
    (along : Along call (ReturnsNextEpoch chain) initial calls) {first : L2BlockInfo} {rest : List L2BlockInfo}
    (onChain : OnChain chain first) (built : BuiltFrom initial calls (first :: rest)) {n : UInt64}
    (above : first.l1Origin.number ≤ n) (below : n ≤ ((first :: rest).getLast (List.cons_ne_nil _ _)).l1Origin.number) :
    ∃ block ∈ first :: rest, block.l1Origin = (chain.block n).id := by
  induction rest generalizing first with
  | nil =>
      have same : first.l1Origin.number = n := UInt64.le_antisymm above below
      exact ⟨first, List.mem_cons_self, same ▸ onChain.2⟩
  | cons next rest ih =>
      obtain ⟨⟨batch, ⟨before, after, rfl, returned⟩, nonzero, origin⟩, later⟩ := List.isChain_cons_cons.mp built
      have epoch := along_at along first batch rfl onChain returned
      have number : next.l1Origin.number = batch.epochNum := congrArg BlockNumHash.number origin
      have nextOnChain : OnChain chain next := by
        refine ⟨nonzero, ?_⟩
        rw [number, origin, SingleBatch.epoch, epoch.epochHash, BlockInfo.id, chain.number]
      by_cases same : first.l1Origin.number = n
      · exact ⟨first, List.mem_cons_self, same ▸ onChain.2⟩
      · have reached : next.l1Origin.number ≤ n := by
          rw [number]
          rcases epoch.inReach with stays | goesOn
          · rw [stays]
            exact above
          · rw [goesOn]
            have strictly := UInt64.lt_of_le_of_ne above same
            rw [UInt64.lt_iff_toNat_lt] at strictly
            rw [UInt64.le_iff_toNat_le, UInt64.toNat_add]
            exact (Nat.mod_le _ _).trans strictly
        rw [List.getLast_cons (List.cons_ne_nil _ _)] at below
        obtain ⟨block, mem, at_⟩ := ih nextOnChain later reached below
        exact ⟨block, List.mem_cons_of_mem _ mem, at_⟩

/-- Every returned batch builds on the parent's L1 origin or on the next block, and no L1 block between the origins of
the first and the last of the blocks built from returned batches is left out. -/
theorem epochs_follow (chain : L1Chain) (stage : FollowsChain chain P) (cfg : SoonRollupConfig) (prev : P) (fetcher : F)
    (at_ : ∀ block, Stage.origin prev = some block → chain.Has block) (calls : List QueueCall)
    (permitted : Along call (Permitted chain) (start cfg prev fetcher) calls)
    (stays : Along call (fun run made => ∀ parent, made = .nextBatch parent → OnChain chain parent →
      CallStaysInReach run.queue parent) (start cfg prev fetcher) calls) :
    Along call (ReturnsNextEpoch chain) (start cfg prev fetcher) calls ∧
    ∀ first rest, OnChain chain first → BuiltFrom (start cfg prev fetcher) calls (first :: rest) →
      ∀ n, first.l1Origin.number ≤ n → n ≤ ((first :: rest).getLast (List.cons_ne_nil _ _)).l1Origin.number →
        ∃ block ∈ first :: rest, block.l1Origin = (chain.block n).id := by
  have along : Along call (ReturnsNextEpoch chain) (start cfg prev fetcher) calls := by
    refine along_of_invariant (Sound chain) (fun run made sound meets => sound.call stage meets.1) ?_
      ⟨.new cfg fetcher at_, cachedOnChain_of_cleared rfl⟩ (along_and permitted stays)
    rintro run made sound ⟨-, stays⟩ parent batch rfl onChain returned
    refine nextBatch_nextEpoch sound.knows sound.cached stage onChain (stays parent rfl onChain) ?_
    rcases answered : run.queue.nextBatch parent with ⟨queue, result⟩
    simp only [call, answered] at returned
    cases result with
    | ok batch =>
        cases returned
        rfl
    | error e => cases returned
  exact ⟨along, fun first rest onChain built n above below => covers along onChain built above below⟩

end Runs

/-! ## A batch that skips an epoch -/

open DerivationPipeline (head lateBatch chainsAt)

def walkFrom5 (number : UInt64) (batch : SingleBatch) : QueueRun Walker Chains :=
  start ⟨20, 2, 2⟩ ⟨blockAt 5, [(number, .single batch)]⟩ (chainsAt 7)

def lateCalls : List QueueCall :=
  [.nextBatch head, .advanceOrigin, .nextBatch head, .advanceOrigin, .nextBatch head, .advanceOrigin, .nextBatch head]

/-- Block 5 is passed over at block 7, and at block 8 the batch of epoch 7 is returned for a parent of epoch 5. -/
theorem late_batch_skips_epoch : ¬ ∀ calls, Along call (Permitted blockChain) (walkFrom5 8 lateBatch) calls →
    Along call (ReturnsNextEpoch blockChain) (walkFrom5 8 lateBatch) calls := by
  intro holds
  have permitted : Along call (Permitted blockChain) (walkFrom5 8 lateBatch) lateCalls := by
    refine ⟨trivial, ?_, trivial, ?_, trivial, ?_, trivial, trivial⟩
    · change QueueRun.outOfData _ = true
      decide +kernel
    · change QueueRun.outOfData _ = true
      decide +kernel
    · change QueueRun.outOfData _ = true
      decide +kernel
  obtain ⟨-, -, -, -, -, -, last, -⟩ := holds lateCalls permitted
  have skips := (last head lateBatch rfl ⟨by decide, rfl⟩ (by decide +kernel)).inReach
  revert skips
  decide

/-! ## A batch of the next epoch -/

def nextBatch6 : SingleBatch := ⟨bigEndian 32 40, 6, bigEndian 32 6, 73, []⟩

def head6 : L2BlockInfo := ⟨⟨bigEndian 32 41, 41, bigEndian 32 40, 73⟩, (blockAt 6).id, 0⟩

def nextCalls : List QueueCall := [.nextBatch head, .advanceOrigin, .nextBatch head]

theorem callStaysInReach_of_first {P F : Type} [NextBatchProvider P] [L2ChainProvider F] {queue : BatchQueue P F}
    {parent : L2BlockInfo} (first : BlockInfo) (uncached : queue.nextSpans = [])
    (front : (queue.takeIn parent).1.l1Blocks.head? = some first) (reached : first.number ≠ parent.l1Origin.number + 1)
    (single : ∀ data ∈ (queue.takeIn parent).1.batches, ∃ batch, data.batch = .single batch) :
    CallStaysInReach queue parent where
  cached _ := by
    rw [uncached]
    exact nofun
  single := by
    rintro called ⟨-, outOfData, taken⟩ data rest batch - - epoch isFirst passed
    rw [taken] at front
    cases front.symm.trans isFirst
    exact absurd passed reached
  span := by
    rintro called ⟨-, outOfData, taken⟩ data rest batch ⟨skipped, after, batches, -, -⟩ isSpan
    rw [taken] at single
    obtain ⟨other, isSingle⟩ := single data (by rw [batches]; exact List.mem_append_right _ List.mem_cons_self)
    cases isSingle.symm.trans isSpan

theorem epochs_follow_next : Along call (Permitted blockChain) (walkFrom5 6 nextBatch6) nextCalls ∧
    Along call (ReturnsNextEpoch blockChain) (walkFrom5 6 nextBatch6) nextCalls ∧
    BuiltFrom (walkFrom5 6 nextBatch6) nextCalls [head, head6] ∧
    ∃ block ∈ [head, head6], block.l1Origin = (blockChain.block 6).id := by
  have permitted : Along call (Permitted blockChain) (walkFrom5 6 nextBatch6) nextCalls := by
    refine ⟨trivial, ?_, trivial, trivial⟩
    change QueueRun.outOfData _ = true
    decide +kernel
  have stays : Along call (fun run made => ∀ parent, made = .nextBatch parent → OnChain blockChain parent →
      CallStaysInReach run.queue parent) (walkFrom5 6 nextBatch6) nextCalls := by
    refine ⟨?_, ?_, ?_, trivial⟩
    · intro parent same _
      cases same
      refine callStaysInReach_of_first (blockAt 5) ?_ ?_ (by decide) ?_
      · rfl
      · decide +kernel
      · have none : ((walkFrom5 6 nextBatch6).queue.takeIn head).1.batches = [] := by decide +kernel
        rw [none]
        exact nofun
    · intro parent same
      cases same
    · intro parent same _
      cases same
      refine callStaysInReach_of_first (blockAt 5) ?_ ?_ (by decide) ?_
      · decide +kernel
      · decide +kernel
      · have one : ((run call (walkFrom5 6 nextBatch6) [.nextBatch head, .advanceOrigin]).queue.takeIn head).1.batches =
            [⟨blockAt 6, .single nextBatch6⟩] := by decide +kernel
        intro data mem
        cases List.mem_singleton.mp (one ▸ mem)
        exact ⟨nextBatch6, rfl⟩
  have built : BuiltFrom (walkFrom5 6 nextBatch6) nextCalls [head, head6] :=
    List.isChain_pair.mpr ⟨nextBatch6,
      ⟨[.nextBatch head, .advanceOrigin], [], rfl, by decide +kernel⟩, by decide, rfl⟩
  obtain ⟨along, covered⟩ := epochs_follow blockChain walker_follows ⟨20, 2, 2⟩
    ⟨blockAt 5, [(6, .single nextBatch6)]⟩ (chainsAt 7) (fun block at_ => by cases at_; exact blockChain_has 5) nextCalls
    permitted stays
  exact ⟨permitted, along, built, covered head [head6] ⟨by decide, rfl⟩ built 6 (by decide) (by decide)⟩

end QueueRun

end KonaSoon.Derive
