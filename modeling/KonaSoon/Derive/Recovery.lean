import KonaSoon.Derive.Driver
import KonaSoon.Derive.Forgery
import KonaSoon.Derive.L1View

/-!
# Recovery by a reset

After a reset error the driver resets the stages to the L1 block that the pipeline has reached. The batch
queue then knows that block only. It can go on from there when the block is the L1 origin of the safe head or
the next one; when it is further on, the queue asks for another reset whenever it gets to derive a batch.
-/

namespace KonaSoon.Derive
open Lib Mpt

/-! ## The first L1 block -/

namespace BatchQueue

variable {P F : Type} [NextBatchProvider P]

theorem refreshed_front {queue : BatchQueue P F} {parent : L2BlockInfo} {front : BlockInfo} {later : List BlockInfo}
    (blocks : queue.l1Blocks = front :: later) (from_ : parent.l1Origin.number ≤ front.number)
    (ahead : queue.originBehind parent = false) :
    ∃ later', (queue.refreshed parent).l1Blocks = front :: later' := by
  have unmoved : { queue with nextSpans := [] }.advanceEpoch parent = { queue with nextSpans := [] } := by
    unfold advanceEpoch
    simp only [blocks, if_neg (UInt64.not_lt.mpr from_)]
  unfold refreshed
  rw [unmoved]
  unfold updateOrigin
  split
  · exact ⟨later, blocks⟩
  · obtain ⟨block, at_, notBehind⟩ := originBehind_eq_false.mp ahead
    have ahead' : originBehind { queue with nextSpans := [], origin := Stage.origin queue.prev } parent = false :=
      originBehind_eq_false.mpr ⟨block, at_, notBehind⟩
    simp only [ahead', Bool.false_eq_true, if_false]
    rw [at_]
    exact ⟨later ++ [block], by simp only [blocks, List.cons_append]⟩

variable [L2ChainProvider F]

theorem addBatch_l1Blocks (queue : BatchQueue P F) (batch : Batch) (parent : L2BlockInfo) :
    (queue.addBatch batch parent).1.l1Blocks = queue.l1Blocks := by
  unfold addBatch
  split
  · rfl
  · split
    · rfl
    · dsimp only
      split <;> rfl

theorem pullBatch_l1Blocks (queue : BatchQueue P F) (parent : L2BlockInfo) (originBehind : Bool) :
    (queue.pullBatch parent originBehind).1.l1Blocks = queue.l1Blocks := by
  unfold pullBatch
  split
  · rename_i prev batch answered
    split
    · rfl
    · have added := addBatch_l1Blocks { queue with prev } batch parent
      split <;> rename_i called <;> rw [called] at added <;> exact added
  · rfl
  · rfl

theorem takeIn_l1Blocks (queue : BatchQueue P F) (parent : L2BlockInfo) :
    (queue.takeIn parent).1.l1Blocks = (queue.refreshed parent).l1Blocks := by
  have pulled := pullBatch_l1Blocks (queue.refreshed parent) parent (queue.originBehind parent)
  rw [takeIn_eq]
  split <;> rename_i called <;> rw [called] at pulled
  · exact pulled
  · split <;> exact pulled

def Passes (parent : L2BlockInfo) (l1Blocks l1Blocks' : List BlockInfo) : Prop :=
  l1Blocks' = l1Blocks ∨ ∃ front next later, l1Blocks = front :: next :: later ∧ l1Blocks' = next :: later ∧
    front.number ≠ parent.l1Origin.number + 1

theorem deriveNextBatch_passes (queue : BatchQueue P F) (empty : Bool) (parent : L2BlockInfo) :
    Passes parent queue.l1Blocks (queue.deriveNextBatch empty parent).1.l1Blocks := by
  unfold deriveNextBatch
  split
  · exact .inl rfl
  · rename_i epoch later blocks
    split
    · exact .inl rfl
    · split
      · exact .inl rfl
      · split
        · exact .inl rfl
        · exact .inl rfl
        · exact .inl rfl
        · simp only [forceEmptyBatch]
          split
          · exact .inl rfl
          · split
            · exact .inl rfl
            · rename_i nextEpoch rest
              split
              · exact .inl rfl
              · rename_i passed
                exact .inr ⟨epoch, nextEpoch, rest, blocks, rfl, fun first => passed (.inr first)⟩

theorem derive_passes (queue : BatchQueue P F) (parent : L2BlockInfo) (outOfData : Bool) :
    Passes parent queue.l1Blocks (queue.derive parent outOfData).1.l1Blocks := by
  have derived := deriveNextBatch_passes queue outOfData parent
  unfold derive
  split <;> rename_i called <;> rw [called] at derived
  · exact derived
  · exact derived
  · exact derived
  · split
    · exact derived
    · unfold popNextBatch
      split <;> exact derived

theorem nextBatch_passes {queue : BatchQueue P F} {parent : L2BlockInfo} (uncached : queue.cachedFollows parent = false) :
    Passes parent (queue.refreshed parent).l1Blocks (queue.nextBatch parent).1.l1Blocks := by
  have taken := takeIn_l1Blocks queue parent
  unfold nextBatch
  rw [if_neg (by rw [uncached]; exact Bool.false_ne_true)]
  split <;> rename_i called <;> rw [called] at taken <;> dsimp only at taken <;> rw [← taken]
  · exact .inl rfl
  · exact derive_passes _ parent _

/-! ## The mismatch of origins -/

def IsMismatch {α : Type} (result : PipelineResult α) : Prop :=
  ∃ expected got, result = (ResetError.l1OriginMismatch expected got).reset

theorem deriveNextBatch_mismatch {queue : BatchQueue P F} {parent : L2BlockInfo} {front : BlockInfo}
    {later : List BlockInfo} (blocks : queue.l1Blocks = front :: later) (empty : Bool) :
    IsMismatch (queue.deriveNextBatch empty parent).2 ↔
      parent.blockInfo.number ≠ 0 ∧ parent.l1Origin ≠ front.id ∧ parent.l1Origin.number ≠ front.number - 1 := by
  constructor
  · rintro ⟨expected, got, failed⟩
    unfold deriveNextBatch at failed
    simp only [blocks] at failed
    split at failed
    · assumption
    · split at failed
      · cases failed
      · split at failed
        · cases failed
        · cases failed
        · cases failed
        · simp only [forceEmptyBatch] at failed
          split at failed
          · cases failed
          · split at failed
            · cases failed
            · split at failed <;> cases failed
  · intro mismatch
    refine ⟨parent.l1Origin.number, front.number - 1, ?_⟩
    unfold deriveNextBatch
    simp only [blocks, if_pos mismatch]

theorem derive_of_mismatch {queue : BatchQueue P F} {parent : L2BlockInfo} {outOfData : Bool}
    (mismatch : IsMismatch (queue.deriveNextBatch outOfData parent).2) : (queue.derive parent outOfData).1 = queue := by
  obtain ⟨expected, got, failed⟩ := mismatch
  cases blocks : queue.l1Blocks with
  | nil =>
      unfold deriveNextBatch at failed
      rw [blocks] at failed
      cases failed
  | cons front later =>
      have differs := (deriveNextBatch_mismatch blocks outOfData).mp ⟨expected, got, failed⟩
      have unchanged : queue.deriveNextBatch outOfData parent =
          (queue, (ResetError.l1OriginMismatch parent.l1Origin.number (front.number - 1)).reset) := by
        unfold deriveNextBatch
        simp only [blocks, if_pos differs]
      unfold derive
      rw [unchanged]
      rfl

theorem derive_mismatch {queue : BatchQueue P F} {parent : L2BlockInfo} {outOfData : Bool} :
    IsMismatch (queue.derive parent outOfData).2 ↔ IsMismatch (queue.deriveNextBatch outOfData parent).2 := by
  constructor
  · rintro ⟨expected, got, failed⟩
    unfold derive at failed
    split at failed
    · split at failed <;> cases failed
    · rename_i called
      rw [called]
      cases failed
      exact ⟨expected, got, rfl⟩
    · cases failed
    · split at failed
      · cases failed
      · unfold popNextBatch at failed
        split at failed <;> cases failed
  · rintro ⟨expected, got, failed⟩
    refine ⟨expected, got, ?_⟩
    unfold derive
    rcases called : queue.deriveNextBatch outOfData parent with ⟨after, result⟩
    rw [called] at failed
    cases failed
    rfl

structure PlainStage (P : Type) [NextBatchProvider P] : Prop where
  nextBatch (stage : P) (parent : L2BlockInfo) (l1Blocks : List BlockInfo) :
    ¬ IsMismatch (NextBatchProvider.nextBatch stage parent l1Blocks).2
  signal (stage : P) (s : Signal) : (Stage.signal stage s).2 ≠ PipelineError.eof.temp

theorem pullBatch_not_mismatch (plain : PlainStage P) (queue : BatchQueue P F) (parent : L2BlockInfo)
    (originBehind : Bool) : ¬ IsMismatch (queue.pullBatch parent originBehind).2 := by
  have answers := plain.nextBatch queue.prev parent queue.l1Blocks
  rintro ⟨expected, got, failed⟩
  unfold pullBatch at failed
  split at failed
  · split at failed
    · cases failed
    · split at failed <;> cases failed
  · cases failed
  · rename_i called
    rw [called] at answers
    cases failed
    exact answers ⟨expected, got, rfl⟩

theorem nextBatch_mismatch (plain : PlainStage P) {queue : BatchQueue P F} {parent : L2BlockInfo} :
    IsMismatch (queue.nextBatch parent).2 ↔ ∃ called outOfData, queue.cachedFollows parent = false ∧
      queue.takeIn parent = (called, .ok outOfData) ∧ IsMismatch (called.deriveNextBatch outOfData parent).2 := by
  constructor
  · rintro ⟨expected, got, failed⟩
    unfold nextBatch at failed
    split at failed
    · unfold popNextBatch at failed
      split at failed <;> cases failed
    · rename_i uncached
      split at failed
      · rename_i called
        have pulled := pullBatch_not_mismatch plain (queue.refreshed parent) parent (queue.originBehind parent)
        cases failed
        rw [takeIn_eq] at called
        split at called
        · rename_i answered
          rw [answered] at pulled
          cases called
          exact absurd ⟨expected, got, rfl⟩ pulled
        · split at called
          · split at called <;> cases called
          · cases called
      · rename_i called outOfData taken
        exact ⟨called, outOfData, Bool.not_eq_true _ ▸ uncached, taken, derive_mismatch.mp ⟨expected, got, failed⟩⟩
  · rintro ⟨called, outOfData, uncached, taken, mismatch⟩
    obtain ⟨expected, got, failed⟩ := derive_mismatch.mpr mismatch
    refine ⟨expected, got, ?_⟩
    unfold nextBatch
    rw [if_neg (by rw [uncached]; exact Bool.false_ne_true), taken]
    exact failed

end BatchQueue

/-! ## Where the queue can go on -/

section Recovered

variable {P F : Type} [NextBatchProvider P]

structure Recovered (chain : L1Chain) (l2SafeHead : L2BlockInfo) (queue : BatchQueue P F) : Prop where
  tracks : QueueRun.Tracks chain ⟨queue, false, l2SafeHead.l1Origin.number⟩
  front : ∃ front later, queue.l1Blocks = front :: later ∧
    l2SafeHead.l1Origin.number.toNat ≤ front.number.toNat ∧
    front.number.toNat ≤ l2SafeHead.l1Origin.number.toNat + 1
  ahead : queue.originBehind l2SafeHead = false

namespace Recovered

variable {chain : L1Chain} {l2SafeHead : L2BlockInfo} {queue : BatchQueue P F}

theorem ofReset {l1Origin : BlockInfo} (onChain : chain.Has l1Origin) (at_ : Stage.origin queue.prev = some l1Origin)
    (origin : queue.origin = some l1Origin) (l1Blocks : queue.l1Blocks = [l1Origin])
    (from_ : l2SafeHead.l1Origin.number ≤ l1Origin.number)
    (within : l1Origin.number.toNat ≤ l2SafeHead.l1Origin.number.toNat + 1) : Recovered chain l2SafeHead queue where
  tracks := .ofReset onChain at_ origin l1Blocks _
  front := ⟨l1Origin, [], l1Blocks, UInt64.le_iff_toNat_le.mp from_, within⟩
  ahead := BatchQueue.originBehind_eq_false.mpr ⟨l1Origin, at_, from_⟩

omit [NextBatchProvider P] in
theorem origin_matches (onChain : l2SafeHead.l1Origin = (chain.block l2SafeHead.l1Origin.number).id) {front : BlockInfo}
    (has : chain.Has front) (from_ : l2SafeHead.l1Origin.number.toNat ≤ front.number.toNat)
    (within : front.number.toNat ≤ l2SafeHead.l1Origin.number.toNat + 1) :
    l2SafeHead.l1Origin = front.id ∨ l2SafeHead.l1Origin.number = front.number - 1 := by
  rcases Nat.lt_or_eq_of_le within with below | next
  · left
    have same : l2SafeHead.l1Origin.number = front.number := UInt64.toNat_inj.mp (by omega)
    rw [onChain, same, ← has]
  · right
    have one : (1 : UInt64) ≤ front.number := by
      rw [UInt64.le_iff_toNat_le, next]
      exact Nat.le_add_left 1 _
    apply UInt64.toNat_inj.mp
    rw [UInt64.toNat_sub_of_le _ _ one, next]
    exact (Nat.add_sub_cancel _ 1).symm

variable [L2ChainProvider F]

theorem not_mismatch (recovered : Recovered chain l2SafeHead queue) (plain : BatchQueue.PlainStage P)
    (onChain : l2SafeHead.l1Origin = (chain.block l2SafeHead.l1Origin.number).id) :
    ¬ BatchQueue.IsMismatch (queue.nextBatch l2SafeHead).2 := by
  intro mismatch
  obtain ⟨called, outOfData, -, taken, mismatch⟩ := (BatchQueue.nextBatch_mismatch plain).mp mismatch
  obtain ⟨front, later, blocks, from_, within⟩ := recovered.front
  obtain ⟨later', refreshed⟩ :=
    BatchQueue.refreshed_front blocks (UInt64.le_iff_toNat_le.mpr from_) recovered.ahead
  have calledBlocks := BatchQueue.takeIn_l1Blocks queue l2SafeHead
  rw [taken, refreshed] at calledBlocks
  obtain ⟨-, other, notNext⟩ := (BatchQueue.deriveNextBatch_mismatch calledBlocks outOfData).mp mismatch
  have has := recovered.tracks.onChain front (by rw [blocks]; exact List.mem_cons_self)
  rcases origin_matches onChain has from_ within with same | next
  · exact other same
  · exact notNext next

theorem front_nextBatch (recovered : Recovered chain l2SafeHead queue) :
    ∃ front later, (queue.nextBatch l2SafeHead).1.l1Blocks = front :: later ∧
      l2SafeHead.l1Origin.number.toNat ≤ front.number.toNat ∧
      front.number.toNat ≤ l2SafeHead.l1Origin.number.toNat + 1 := by
  obtain ⟨front, later, blocks, from_, within⟩ := recovered.front
  cases cached : queue.cachedFollows l2SafeHead with
  | true =>
      obtain ⟨nextSpans, same, -⟩ := BatchQueue.nextBatch_cached cached
      exact ⟨front, later, by rw [same]; exact blocks, from_, within⟩
  | false =>
      obtain ⟨later', refreshed⟩ :=
        BatchQueue.refreshed_front blocks (UInt64.le_iff_toNat_le.mpr from_) recovered.ahead
      rcases BatchQueue.nextBatch_passes cached with same | ⟨front', next, rest, before, after, notFirst⟩
      · exact ⟨front, later', same.trans refreshed, from_, within⟩
      · rw [refreshed] at before
        cases before
        obtain ⟨consecutive, -⟩ := recovered.tracks.refreshed (UInt64.le_refl l2SafeHead.l1Origin.number)
        rw [refreshed] at consecutive
        have successor := (List.isChain_cons_cons.mp consecutive).1
        -- A block after the origin of the safe head always gets a batch, so it is not passed over.
        have origin : front.number.toNat ≠ l2SafeHead.l1Origin.number.toNat + 1 := by
          intro first
          apply notFirst
          apply UInt64.toNat_inj.mp
          rw [UInt64.toNat_add, first]
          exact (Nat.mod_eq_of_lt (first ▸ front.number.toNat_lt)).symm
        exact ⟨next, rest, after, by omega, by omega⟩

theorem prevOrigin_nextBatch (stage : FollowsChain chain P) (queue : BatchQueue P F) (parent : L2BlockInfo) :
    Stage.origin (queue.nextBatch parent).1.prev = Stage.origin queue.prev := by
  cases cached : queue.cachedFollows parent with
  | true =>
      obtain ⟨nextSpans, same, -⟩ := BatchQueue.nextBatch_cached cached
      rw [same]
  | false =>
      rw [(BatchQueue.nextBatch_narrows stage cached).prevOrigin]
      exact (BatchQueue.refreshed_cases queue parent).1

theorem nextBatch (recovered : Recovered chain l2SafeHead queue) (stage : FollowsChain chain P) :
    Recovered chain l2SafeHead (queue.nextBatch l2SafeHead).1 where
  tracks := (recovered.tracks.nextBatch stage (UInt64.le_refl l2SafeHead.l1Origin.number)).unsettled
  front := recovered.front_nextBatch
  ahead := by
    obtain ⟨block, at_, notBehind⟩ := BatchQueue.originBehind_eq_false.mp recovered.ahead
    exact BatchQueue.originBehind_eq_false.mpr ⟨block, (prevOrigin_nextBatch stage queue l2SafeHead).trans at_, notBehind⟩

theorem advanceOrigin (recovered : Recovered chain l2SafeHead queue) (stage : FollowsChain chain P)
    (eof : (queue.nextBatch l2SafeHead).2 = PipelineError.eof.temp) :
    Recovered chain l2SafeHead { (queue.nextBatch l2SafeHead).1 with
      prev := (Stage.advanceOrigin (queue.nextBatch l2SafeHead).1.prev).1 } where
  tracks := by
    have tracks := recovered.tracks.nextBatch stage (UInt64.le_refl l2SafeHead.l1Origin.number)
    have settled : QueueRun.isEof (queue.nextBatch l2SafeHead).2 = true := by rw [eof]; rfl
    exact tracks.advanceOrigin stage settled
  front := recovered.front_nextBatch
  ahead := by
    obtain ⟨block, at_, notBehind⟩ := BatchQueue.originBehind_eq_false.mp (recovered.nextBatch stage).ahead
    rcases stage.advanceOrigin (queue.nextBatch l2SafeHead).1.prev with unmoved | ⟨block', next, at_', moved, -, successor⟩
    · exact BatchQueue.originBehind_eq_false.mpr ⟨block, unmoved.trans at_, notBehind⟩
    · cases at_.symm.trans at_'
      refine BatchQueue.originBehind_eq_false.mpr ⟨next, moved, ?_⟩
      rw [UInt64.le_iff_toNat_le] at notBehind ⊢
      omega

omit [L2ChainProvider F] in
theorem signal (recovered : Recovered chain l2SafeHead queue) (stage : FollowsChain chain P) {s : Signal}
    {block : BlockInfo} (names : s.l1Origin = some block) (at_ : Stage.origin queue.prev = some block)
    (within : (∃ head config, s = .reset head block config) → (queue.signal s).2 = .ok () →
      block.number.toNat ≤ l2SafeHead.l1Origin.number.toNat + 1) :
    Recovered chain l2SafeHead (queue.signal s).1 := by
  have same : Stage.origin (Stage.signal queue.prev s).1 = Stage.origin queue.prev := by
    rcases stage.signal queue.prev s with unmoved | ⟨block', names', moved⟩
    · exact unmoved
    · cases names.symm.trans names'
      exact moved.trans at_.symm
  have kept : ∀ after : BatchQueue P F, after.origin = queue.origin → after.l1Blocks = queue.l1Blocks →
      after.prev = (Stage.signal queue.prev s).1 → Recovered chain l2SafeHead after := by
    intro after origin l1Blocks prev
    refine ⟨recovered.tracks.movePrev origin l1Blocks (.inl (prev ▸ same)), l1Blocks ▸ recovered.front, ?_⟩
    obtain ⟨block, at_, notBehind⟩ := BatchQueue.originBehind_eq_false.mp recovered.ahead
    exact BatchQueue.originBehind_eq_false.mpr ⟨block, (prev ▸ same).trans at_, notBehind⟩
  rcases answered : Stage.signal queue.prev s with ⟨prev, result⟩
  rw [answered] at same kept
  unfold BatchQueue.signal
  cases result with
  | error e =>
      rw [answered]
      exact kept _ rfl rfl rfl
  | ok _ =>
      cases s with
      | reset head l1Origin config =>
          cases names
          have bound := within ⟨head, config, rfl⟩ (by unfold BatchQueue.signal; rw [answered])
          obtain ⟨block', at_', notBehind⟩ := BatchQueue.originBehind_eq_false.mp recovered.ahead
          cases at_.symm.trans at_'
          rw [answered]
          exact .ofReset (recovered.tracks.prevOnChain _ at_) (same.trans at_) rfl rfl notBehind bound
      | activation head l1Origin config =>
          rw [answered]
          exact kept _ rfl rfl rfl
      | flushChannel => cases names

end Recovered

/-! ## Where it cannot -/

structure Drifted (l2SafeHead : L2BlockInfo) (queue : BatchQueue P F) : Prop where
  front : ∃ front later, queue.l1Blocks = front :: later ∧
    l2SafeHead.l1Origin.number.toNat + 1 < front.number.toNat
  ahead : ∃ block, Stage.origin queue.prev = some block ∧
    l2SafeHead.l1Origin.number.toNat + 1 < block.number.toNat
  nextSpans : queue.nextSpans = []

namespace Drifted

variable {l2SafeHead : L2BlockInfo} {queue : BatchQueue P F}

theorem notBehind (drifted : Drifted l2SafeHead queue) : queue.originBehind l2SafeHead = false := by
  obtain ⟨block, at_, further⟩ := drifted.ahead
  exact BatchQueue.originBehind_eq_false.mpr ⟨block, at_, UInt64.le_iff_toNat_le.mpr (by omega)⟩

theorem uncached (drifted : Drifted l2SafeHead queue) : queue.cachedFollows l2SafeHead = false := by
  unfold BatchQueue.cachedFollows
  rw [drifted.nextSpans]

theorem refreshed (drifted : Drifted l2SafeHead queue) : ∃ front later,
    (queue.refreshed l2SafeHead).l1Blocks = front :: later ∧
      l2SafeHead.l1Origin.number.toNat + 1 < front.number.toNat := by
  obtain ⟨front, later, blocks, further⟩ := drifted.front
  obtain ⟨later', refreshed⟩ :=
    BatchQueue.refreshed_front blocks (UInt64.le_iff_toNat_le.mpr (by omega)) drifted.notBehind
  exact ⟨front, later', refreshed, further⟩

variable [L2ChainProvider F]

theorem derive_mismatch (drifted : Drifted l2SafeHead queue) (nonzero : l2SafeHead.blockInfo.number ≠ 0)
    {called : BatchQueue P F} {outOfData : Bool} (taken : queue.takeIn l2SafeHead = (called, .ok outOfData)) :
    BatchQueue.IsMismatch (called.deriveNextBatch outOfData l2SafeHead).2 := by
  obtain ⟨front, later, refreshed, further⟩ := drifted.refreshed
  have calledBlocks := BatchQueue.takeIn_l1Blocks queue l2SafeHead
  rw [taken, refreshed] at calledBlocks
  refine (BatchQueue.deriveNextBatch_mismatch calledBlocks outOfData).mpr ⟨nonzero, fun same => ?_, fun next => ?_⟩
  · have number := congrArg BlockNumHash.number same
    change l2SafeHead.l1Origin.number = front.number at number
    rw [number] at further
    omega
  · have one : (1 : UInt64) ≤ front.number := by
      rw [UInt64.le_iff_toNat_le]
      exact Nat.le_trans (Nat.le_add_left 1 _) (Nat.le_of_lt further)
    have number := congrArg UInt64.toNat next
    rw [UInt64.toNat_sub_of_le _ _ one] at number
    change _ = front.number.toNat - 1 at number
    omega

theorem takeIn_ne_eof (drifted : Drifted l2SafeHead queue) : (queue.takeIn l2SafeHead).2 ≠ PipelineError.eof.temp := by
  have pulled : ((queue.refreshed l2SafeHead).pullBatch l2SafeHead (queue.originBehind l2SafeHead)).2 ≠
      PipelineError.eof.temp := by
    unfold BatchQueue.pullBatch
    split
    · split
      · exact nofun
      · split <;> exact nofun
    · exact nofun
    · rename_i other answered
      intro eof
      cases eof
      exact other rfl
  rw [BatchQueue.takeIn_eq]
  split <;> rename_i called <;> rw [called] at pulled
  · intro eof
    cases eof
    exact pulled rfl
  · rw [if_neg (by rw [drifted.notBehind]; exact Bool.false_ne_true)]
    exact nofun

theorem nextBatch (drifted : Drifted l2SafeHead queue) {chain : L1Chain} (stage : FollowsChain chain P)
    (nonzero : l2SafeHead.blockInfo.number ≠ 0) :
    Drifted l2SafeHead (queue.nextBatch l2SafeHead).1 ∧
      ∃ e, (queue.nextBatch l2SafeHead).2 = .error e ∧ e ≠ .error (.temporary .eof) := by
  have after : (queue.nextBatch l2SafeHead).1 = (queue.takeIn l2SafeHead).1 ∧
      ∃ e, (queue.nextBatch l2SafeHead).2 = .error e ∧ e ≠ .error (.temporary .eof) := by
    have notEof := drifted.takeIn_ne_eof
    unfold BatchQueue.nextBatch
    rw [if_neg (by rw [drifted.uncached]; exact Bool.false_ne_true)]
    split <;> rename_i taken <;> rw [taken]
    · rename_i e
      rw [taken] at notEof
      exact ⟨rfl, e, rfl, fun eof => notEof (by rw [eof]; rfl)⟩
    · have mismatch := drifted.derive_mismatch nonzero taken
      refine ⟨BatchQueue.derive_of_mismatch mismatch, ?_⟩
      obtain ⟨expected, got, failed⟩ := BatchQueue.derive_mismatch.mpr mismatch
      exact ⟨_, failed, nofun⟩
  refine ⟨⟨?_, ?_, ?_⟩, after.2⟩
  · rw [after.1, BatchQueue.takeIn_l1Blocks]
    exact drifted.refreshed
  · rw [Recovered.prevOrigin_nextBatch stage]
    exact drifted.ahead
  · rw [after.1]
    exact takeIn_nextSpans queue l2SafeHead

omit [L2ChainProvider F] in
theorem signal (drifted : Drifted l2SafeHead queue) {chain : L1Chain} (stage : FollowsChain chain P) {s : Signal}
    {block : BlockInfo} (names : s.l1Origin = some block) (at_ : Stage.origin queue.prev = some block) :
    Drifted l2SafeHead (queue.signal s).1 := by
  obtain ⟨block', at_', further⟩ := drifted.ahead
  cases at_.symm.trans at_'
  have same : Stage.origin (Stage.signal queue.prev s).1 = some block := by
    rcases stage.signal queue.prev s with unmoved | ⟨block', names', moved⟩
    · exact unmoved.trans at_
    · cases names.symm.trans names'
      exact moved
  rcases answered : Stage.signal queue.prev s with ⟨prev, result⟩
  rw [answered] at same
  unfold BatchQueue.signal
  cases result with
  | error e =>
      rw [answered]
      exact ⟨drifted.front, ⟨block, same, further⟩, drifted.nextSpans⟩
  | ok _ =>
      rw [answered]
      cases s with
      | reset head l1Origin config =>
          cases names
          exact ⟨⟨block, [], rfl, further⟩, ⟨block, same, further⟩, rfl⟩
      | activation head l1Origin config => exact ⟨drifted.front, ⟨block, same, further⟩, rfl⟩
      | flushChannel => cases names

end Drifted

end Recovered

/-! ## What a turn of the driver does to the queue -/

section Builder

variable {L1P L2P Receipt : Type} [ChainProvider L1P Receipt] [SystemConfigProvider L2P]

theorem StatefulAttributesBuilder.epochInputs_ne_eof (builder : StatefulAttributesBuilder L1P L2P Receipt)
    (l2Parent : L2BlockInfo) (epoch : BlockNumHash) :
    (builder.epochInputs l2Parent epoch).2 ≠ PipelineError.eof.temp := by
  unfold epochInputs
  split
  · exact nofun
  · split
    · unfold epochStart
      split
      · exact nofun
      · split
        · exact nofun
        · split
          · exact nofun
          · split
            · rename_i e failed
              cases e <;> exact nofun
            · split <;> exact nofun
    · unfold epochContinued
      split
      · exact nofun
      · split <;> exact nofun

theorem StatefulAttributesBuilder.preparePayloadAttributes_ne_eof (builder : StatefulAttributesBuilder L1P L2P Receipt)
    (l2Parent : L2BlockInfo) (epoch : BlockNumHash) :
    (builder.preparePayloadAttributes l2Parent epoch).2 ≠ PipelineError.eof.temp := by
  have inputs := builder.epochInputs_ne_eof l2Parent epoch
  unfold preparePayloadAttributes
  split
  · rename_i failed
    rw [failed] at inputs
    intro eof
    cases eof
    exact inputs rfl
  · split
    · rename_i failed
      intro eof
      cases eof
      unfold DerivedTransactions.encodedL1InfoTx at failed
      split at failed
      · rename_i e _
        cases e <;> cases failed
      · split at failed
        · rename_i e _
          cases e <;> cases failed
        · cases failed
    · exact nofun

variable {P F L : Type} [NextBatchProvider P] [L2ChainProvider F] [ConfigProvider L]

abbrev StatefulPipeline (P F L1P L2P Receipt L : Type) :=
  DerivationPipeline (BatchQueue P F) (StatefulAttributesBuilder L1P L2P Receipt) L

theorem createNextAttributes_prev {Q : Type} [AttributesProvider Q]
    (queue : AttributesQueue Q (StatefulAttributesBuilder L1P L2P Receipt)) (batch : SingleBatch) (parent : L2BlockInfo) :
    (queue.createNextAttributes batch parent).1.prev = queue.prev ∧
      (queue.createNextAttributes batch parent).2 ≠ PipelineError.eof.temp := by
  unfold AttributesQueue.createNextAttributes
  split
  · exact ⟨rfl, nofun⟩
  · have prepared := queue.builder.preparePayloadAttributes_ne_eof parent batch.epoch
    split <;> rename_i answered
    · refine ⟨rfl, fun eof => ?_⟩
      cases eof
      have answered : queue.builder.preparePayloadAttributes parent batch.epoch = _ := answered
      rw [answered] at prepared
      exact prepared rfl
    · exact ⟨rfl, nofun⟩

theorem nextAttributes_cases (queue : AttributesQueue (BatchQueue P F) (StatefulAttributesBuilder L1P L2P Receipt))
    (parent : L2BlockInfo) :
    queue.batch ≠ none ∧ (queue.nextAttributes parent).1.prev = queue.prev ∧
      (queue.nextAttributes parent).2 ≠ PipelineError.eof.temp ∨
    queue.batch = none ∧ (queue.nextAttributes parent).1.prev = (queue.prev.nextBatch parent).1 ∧
      ((queue.nextAttributes parent).2 = PipelineError.eof.temp →
        (queue.prev.nextBatch parent).2 = PipelineError.eof.temp) ∧
      ∀ e, (queue.prev.nextBatch parent).2 = .error e → (queue.nextAttributes parent).2 = .error e ∧
        (queue.nextAttributes parent).1.batch = none := by
  cases loaded : queue.batch with
  | some batch =>
      left
      have load : queue.loadBatch parent = (queue, .ok batch) := by
        unfold AttributesQueue.loadBatch
        rw [loaded]
      obtain ⟨prev, notEof⟩ := createNextAttributes_prev queue batch parent
      unfold AttributesQueue.nextAttributes
      rw [load]
      dsimp only
      split <;> rename_i created <;> rw [created] at prev notEof
      · refine ⟨nofun, prev, fun eof => ?_⟩
        cases eof
        exact notEof rfl
      · exact ⟨nofun, prev, nofun⟩
  | none =>
      right
      rcases answered : queue.prev.nextBatch parent with ⟨prev, result⟩
      have answered' : AttributesProvider.nextBatch queue.prev parent = (prev, result) := answered
      cases result with
      | error e =>
          have failed : queue.nextAttributes parent = ({ queue with prev }, .error e) := by
            unfold AttributesQueue.nextAttributes AttributesQueue.loadBatch
            rw [loaded, answered']
          rw [failed]
          refine ⟨rfl, rfl, fun eof => ?_, fun e' same => ?_⟩
          · cases eof
            rfl
          · cases same
            exact ⟨rfl, loaded⟩
      | ok batch =>
          have load : queue.loadBatch parent = ({ queue with
              prev, batch := some batch, isLastInSpan := AttributesProvider.isLastInSpan prev }, .ok batch) := by
            unfold AttributesQueue.loadBatch
            rw [loaded, answered']
          obtain ⟨prev', notEof⟩ := createNextAttributes_prev { queue with
              prev, batch := some batch, isLastInSpan := AttributesProvider.isLastInSpan prev } batch parent
          unfold AttributesQueue.nextAttributes
          rw [load]
          dsimp only
          split <;> rename_i created <;> rw [created] at prev' notEof
          · refine ⟨rfl, prev', fun eof => ?_, nofun⟩
            cases eof
            exact absurd rfl notEof
          · exact ⟨rfl, prev', nofun, nofun⟩

namespace DerivationPipeline

variable {pipeline : StatefulPipeline P F L1P L2P Receipt L} {l2SafeHead : L2BlockInfo}

omit [ConfigProvider L] in
theorem step_cases (pipeline : StatefulPipeline P F L1P L2P Receipt L) (cursor : L2BlockInfo) :
    (pipeline.attributes.nextAttributes cursor).2 ≠ PipelineError.eof.temp ∧
      (pipeline.step cursor).1.attributes = (pipeline.attributes.nextAttributes cursor).1 ∨
    (pipeline.attributes.nextAttributes cursor).2 = PipelineError.eof.temp ∧
      (pipeline.step cursor).1.attributes = (pipeline.attributes.nextAttributes cursor).1.advanceOrigin.1 := by
  unfold step
  split <;> rename_i answered <;> rw [answered]
  · exact .inl ⟨nofun, rfl⟩
  · right
    split <;> rename_i advanced <;> rw [advanced] <;> exact ⟨rfl, rfl⟩
  · rename_i notEof
    refine .inl ⟨fun eof => ?_, rfl⟩
    cases eof
    exact notEof rfl
  · rename_i notError
    refine .inl ⟨fun eof => ?_, rfl⟩
    cases eof
    exact notError _ rfl

def resetSignal (e : ResetError) (l2SafeHead : L2BlockInfo) (l1Origin : BlockInfo) (systemConfig : SystemConfig) : Signal :=
  if e = .holoceneActivation then .activation l2SafeHead l1Origin (some systemConfig)
  else .reset l2SafeHead l1Origin (some systemConfig)

theorem resetSignal_l1Origin (e : ResetError) (l2SafeHead : L2BlockInfo) (l1Origin : BlockInfo)
    (systemConfig : SystemConfig) : (resetSignal e l2SafeHead l1Origin systemConfig).l1Origin = some l1Origin := by
  unfold resetSignal
  split <;> rfl

omit [ChainProvider L1P Receipt] [SystemConfigProvider L2P] in
theorem attributes_signal (queue : AttributesQueue (BatchQueue P F) (StatefulAttributesBuilder L1P L2P Receipt))
    {s : Signal} {block : BlockInfo} (names : s.l1Origin = some block) :
    (queue.signal s).1.prev = (queue.prev.signal s).1 ∧ (queue.signal s).2 = (queue.prev.signal s).2 ∧
      (queue.batch = none → (queue.signal s).1.batch = none) := by
  have stages : ∀ s', Stage.signal queue.prev s' = queue.prev.signal s' := fun _ => rfl
  unfold AttributesQueue.signal
  cases s with
  | flushChannel => cases names
  | reset head l1Origin config =>
      dsimp only
      rw [stages]
      rcases queue.prev.signal (.reset head l1Origin config) with ⟨prev, e | _⟩
      · exact ⟨rfl, rfl, id⟩
      · exact ⟨rfl, rfl, fun _ => rfl⟩
  | activation head l1Origin config =>
      dsimp only
      rw [stages]
      rcases queue.prev.signal (.activation head l1Origin config) with ⟨prev, e | _⟩
      · exact ⟨rfl, rfl, id⟩
      · exact ⟨rfl, rfl, fun _ => rfl⟩

omit [ChainProvider L1P Receipt] [SystemConfigProvider L2P] in
theorem signalStages_cases (pipeline : StatefulPipeline P F L1P L2P Receipt L) (l2SafeHead : L2BlockInfo) (s : Signal) :
    (pipeline.signalStages l2SafeHead s).1.attributes = pipeline.attributes ∧
      (pipeline.signalStages l2SafeHead s).2 ≠ .ok () ∨
    ∃ systemConfig, (pipeline.signalStages l2SafeHead s).1.attributes =
        (pipeline.attributes.signal (s.withSystemConfig systemConfig)).1 ∧
      ((pipeline.signalStages l2SafeHead s).2 = .ok () ↔
        (pipeline.attributes.signal (s.withSystemConfig systemConfig)).2 = .ok () ∨
        (pipeline.attributes.signal (s.withSystemConfig systemConfig)).2 = PipelineError.eof.temp) := by
  unfold signalStages
  split
  · exact .inl ⟨rfl, nofun⟩
  · rename_i provider systemConfig found
    refine .inr ⟨systemConfig, ?_⟩
    split <;> rename_i answered <;> rw [answered]
    · exact ⟨rfl, ⟨fun _ => .inr rfl, fun _ => rfl⟩⟩
    · rename_i notEof
      refine ⟨rfl, ⟨.inl, ?_⟩⟩
      rintro (ok | eof)
      · exact ok
      · cases eof
        exact (notEof rfl).elim

omit [ChainProvider L1P Receipt] [SystemConfigProvider L2P] in
theorem sendReset_cases (pipeline : StatefulPipeline P F L1P L2P Receipt L) (e : ResetError) (l2SafeHead : L2BlockInfo) :
    (pipeline.sendReset e l2SafeHead).1.attributes = pipeline.attributes ∧
      (pipeline.sendReset e l2SafeHead).2 ≠ .ok () ∨
    ∃ block systemConfig, pipeline.origin = some block ∧
      (pipeline.sendReset e l2SafeHead).1.attributes =
        (pipeline.attributes.signal (resetSignal e l2SafeHead block systemConfig)).1 ∧
      ((pipeline.sendReset e l2SafeHead).2 = .ok () ↔
        (pipeline.attributes.signal (resetSignal e l2SafeHead block systemConfig)).2 = .ok () ∨
        (pipeline.attributes.signal (resetSignal e l2SafeHead block systemConfig)).2 = PipelineError.eof.temp) := by
  unfold sendReset
  split
  · exact .inl ⟨rfl, nofun⟩
  · rename_i l2ChainProvider systemConfig found
    dsimp only
    split
    · exact .inl ⟨rfl, nofun⟩
    · rename_i block at_
      have at_ : pipeline.origin = some block := at_
      unfold resetSignal
      by_cases activation : e = .holoceneActivation
      · simp only [if_pos activation, signal]
        rcases signalStages_cases { pipeline with l2ChainProvider } l2SafeHead
          (.activation l2SafeHead block (some systemConfig)) with failed | ⟨systemConfig', sent⟩
        · exact .inl failed
        · exact .inr ⟨block, systemConfig', at_, sent⟩
      · simp only [if_neg activation, signal]
        rcases signalStages_cases { pipeline with l2ChainProvider } l2SafeHead
          (.reset l2SafeHead block (some systemConfig)) with failed | ⟨systemConfig', sent⟩
        · exact .inl failed
        · exact .inr ⟨block, systemConfig', at_, sent⟩

/-- The step ends in a reset error and the driver then resets the stages to this block. -/
def SendsReset (l2SafeHead : L2BlockInfo) (pipeline : StatefulPipeline P F L1P L2P Receipt L) (block : BlockInfo) : Prop :=
  ∃ e, e ≠ .holoceneActivation ∧
    ((pipeline.step l2SafeHead).2 = some (.stepFailed (.reset e)) ∨
      (pipeline.step l2SafeHead).2 = some (.originAdvanceErr (.reset e))) ∧
    (pipeline.step l2SafeHead).1.origin = some block ∧
    ((pipeline.step l2SafeHead).1.sendReset e l2SafeHead).2 = .ok ()

omit [ChainProvider L1P Receipt] [SystemConfigProvider L2P] [ConfigProvider L] [NextBatchProvider P]
  [L2ChainProvider F] in
theorem next_attributes (pipeline : StatefulPipeline P F L1P L2P Receipt L) :
    pipeline.next.1.attributes = pipeline.attributes := by
  unfold next
  split <;> rfl

omit [ChainProvider L1P Receipt] [SystemConfigProvider L2P] in
theorem afterError_cases (pipeline : StatefulPipeline P F L1P L2P Receipt L) (l2SafeHead : L2BlockInfo)
    (kind : PipelineErrorKind) :
    (pipeline.afterError l2SafeHead kind).1.attributes = pipeline.attributes ∧ (∀ e, kind ≠ .reset e) ∨
    ∃ e, kind = .reset e ∧
      (pipeline.afterError l2SafeHead kind).1.attributes = (pipeline.sendReset e l2SafeHead).1.attributes := by
  cases kind with
  | temporary e => exact .inl ⟨rfl, nofun⟩
  | critical e => exact .inl ⟨rfl, nofun⟩
  | reset e =>
      refine .inr ⟨e, rfl, ?_⟩
      simp only [afterError]
      split <;> rename_i sent <;> rw [sent]
      exact next_attributes _

def Signalled (l2SafeHead : L2BlockInfo) (pipeline after : StatefulPipeline P F L1P L2P Receipt L)
    (attributes : AttributesQueue (BatchQueue P F) (StatefulAttributesBuilder L1P L2P Receipt)) : Prop :=
  attributes = after.attributes ∧ (∀ block, ¬ SendsReset l2SafeHead pipeline block) ∨
  ∃ e block systemConfig, after.origin = some block ∧
    attributes = (after.attributes.signal (resetSignal e l2SafeHead block systemConfig)).1 ∧
    (e ≠ .holoceneActivation → (after.attributes.signal (resetSignal e l2SafeHead block systemConfig)).2 = .ok () →
      SendsReset l2SafeHead pipeline block) ∧
    ∀ block', SendsReset l2SafeHead pipeline block' → block' = block ∧ e ≠ .holoceneActivation ∧
      ((after.attributes.signal (resetSignal e l2SafeHead block systemConfig)).2 = .ok () ∨
      (after.attributes.signal (resetSignal e l2SafeHead block systemConfig)).2 = PipelineError.eof.temp)

theorem signalled_of_error {after : StatefulPipeline P F L1P L2P Receipt L} {kind : PipelineErrorKind}
    (stepped : pipeline.step l2SafeHead = (after, some (.stepFailed kind)) ∨
      pipeline.step l2SafeHead = (after, some (.originAdvanceErr kind))) :
    Signalled l2SafeHead pipeline after (after.afterError l2SafeHead kind).1.attributes := by
  have first : (pipeline.step l2SafeHead).1 = after := by
    rcases stepped with stepped | stepped <;> rw [stepped]
  have result : ∀ e, ((pipeline.step l2SafeHead).2 = some (.stepFailed (.reset e)) ∨
      (pipeline.step l2SafeHead).2 = some (.originAdvanceErr (.reset e))) ↔ kind = .reset e := by
    intro e
    rcases stepped with stepped | stepped <;> rw [stepped] <;> simp
  rcases afterError_cases after l2SafeHead kind with ⟨same, other⟩ | ⟨e, rfl, sent⟩
  · refine .inl ⟨same, ?_⟩
    rintro block ⟨e, -, failed, -⟩
    exact other e ((result e).mp failed)
  · rw [Signalled, sent]
    rcases sendReset_cases after e l2SafeHead with ⟨same, notOk⟩ | ⟨block, systemConfig, at_, signalled, ok⟩
    · refine .inl ⟨same, ?_⟩
      rintro block ⟨e', -, failed, -, sentOk⟩
      cases (result e').mp failed
      exact notOk (first ▸ sentOk)
    · refine .inr ⟨e, block, systemConfig, at_, signalled, fun reset sentOk => ?_, ?_⟩
      · refine ⟨e, reset, (result e).mpr rfl, first ▸ at_, ?_⟩
        rw [first]
        exact ok.mpr (.inl sentOk)
      · rintro block' ⟨e', reset, failed, at_', sentOk⟩
        cases (result e').mp failed
        rw [first] at at_' sentOk
        cases at_.symm.trans at_'
        exact ⟨rfl, reset, ok.mp sentOk⟩

theorem turn_signalled (pipeline : StatefulPipeline P F L1P L2P Receipt L) (l2SafeHead : L2BlockInfo) :
    Signalled l2SafeHead pipeline (pipeline.step l2SafeHead).1 (pipeline.turn l2SafeHead).1.attributes := by
  have quiet : (∀ e, (pipeline.step l2SafeHead).2 ≠ some (.stepFailed (.reset e)) ∧
      (pipeline.step l2SafeHead).2 ≠ some (.originAdvanceErr (.reset e))) →
      ∀ block, ¬ SendsReset l2SafeHead pipeline block := by
    rintro other block ⟨e, -, failed | failed, -⟩
    · exact (other e).1 failed
    · exact (other e).2 failed
  unfold turn
  rcases stepped : pipeline.step l2SafeHead with ⟨after, result⟩
  rw [stepped] at quiet
  cases result with
  | none => exact .inl ⟨rfl, quiet fun e => ⟨nofun, nofun⟩⟩
  | some result =>
      cases result with
      | preparedAttributes => exact .inl ⟨next_attributes after, quiet fun e => ⟨nofun, nofun⟩⟩
      | advancedOrigin =>
          refine .inl ⟨?_, quiet fun e => ⟨nofun, nofun⟩⟩
          dsimp only
          split
          · rfl
          · exact next_attributes after
      | originAdvanceErr kind => exact signalled_of_error (.inr stepped)
      | stepFailed kind => exact signalled_of_error (.inl stepped)

/-! ## Runs of the loop -/

/-- The batch queue asks for a reset since the L1 origin of the safe head does not fit. -/
def Mismatches (l2SafeHead : L2BlockInfo) (pipeline : StatefulPipeline P F L1P L2P Receipt L) : Prop :=
  pipeline.attributes.batch = none ∧ BatchQueue.IsMismatch (pipeline.attributes.prev.nextBatch l2SafeHead).2

/-- A reset in this turn goes to the L1 origin of the safe head or to the block after it at the most. -/
def ResetsNear (l2SafeHead : L2BlockInfo) (pipeline : StatefulPipeline P F L1P L2P Receipt L) : Prop :=
  ∀ block, SendsReset l2SafeHead pipeline block → block.number.toNat ≤ l2SafeHead.l1Origin.number.toNat + 1

section Stage

variable {chain : L1Chain} (stage : FollowsChain chain P)

include stage in
theorem sendsReset_turn (plain : BatchQueue.PlainStage P) {block : BlockInfo}
    (sent : SendsReset l2SafeHead pipeline block) :
    (pipeline.turn l2SafeHead).1.attributes.prev.l1Blocks = [block] ∧
    (pipeline.turn l2SafeHead).1.attributes.prev.origin = some block ∧
    Stage.origin (pipeline.turn l2SafeHead).1.attributes.prev.prev = some block ∧
    (pipeline.turn l2SafeHead).1.attributes.prev.nextSpans = [] ∧
    (pipeline.turn l2SafeHead).1.attributes.batch = none := by
  rcases turn_signalled pipeline l2SafeHead with ⟨-, never⟩ | ⟨e, block', systemConfig, at_, turned, -, only⟩
  · exact absurd sent (never block)
  · obtain ⟨rfl, reset, answered⟩ := only block sent
    have signal : resetSignal e l2SafeHead block systemConfig = .reset l2SafeHead block (some systemConfig) := if_neg reset
    rw [signal] at answered turned
    rw [turned]
    have reset := stage.reset (pipeline.step l2SafeHead).1.attributes.prev.prev l2SafeHead block (some systemConfig)
    have notEof := plain.signal (pipeline.step l2SafeHead).1.attributes.prev.prev (.reset l2SafeHead block (some systemConfig))
    have stages : ∀ s, Stage.signal (pipeline.step l2SafeHead).1.attributes.prev s =
      (pipeline.step l2SafeHead).1.attributes.prev.signal s := fun _ => rfl
    unfold AttributesQueue.signal at answered ⊢
    dsimp only at answered ⊢
    rw [stages] at answered ⊢
    unfold BatchQueue.signal at answered ⊢
    rcases sent' : Stage.signal (pipeline.step l2SafeHead).1.attributes.prev.prev
      (.reset l2SafeHead block (some systemConfig)) with ⟨prev, failed | _⟩
    · rw [sent'] at answered notEof
      rcases answered with ok | eof
      · cases ok
      · cases eof
        exact absurd rfl notEof
    · rw [sent'] at reset
      exact ⟨rfl, rfl, reset rfl, rfl, rfl⟩

include stage

omit [ConfigProvider L] in
theorem recovered_step (recovered : Recovered chain l2SafeHead pipeline.attributes.prev) :
    Recovered chain l2SafeHead (pipeline.step l2SafeHead).1.attributes.prev := by
  rcases nextAttributes_cases pipeline.attributes l2SafeHead with ⟨-, prev, notEof⟩ | ⟨-, prev, eof, -⟩
  · rcases step_cases pipeline l2SafeHead with ⟨-, stepped⟩ | ⟨isEof, -⟩
    · rw [stepped, prev]
      exact recovered
    · exact absurd isEof notEof
  · rcases step_cases pipeline l2SafeHead with ⟨-, stepped⟩ | ⟨isEof, stepped⟩
    · rw [stepped, prev]
      exact recovered.nextBatch stage
    · rw [stepped]
      change Recovered chain l2SafeHead (Stage.advanceOrigin (pipeline.attributes.nextAttributes l2SafeHead).1.prev).1
      rw [prev]
      exact recovered.advanceOrigin stage (eof isEof)

theorem recovered_turn (recovered : Recovered chain l2SafeHead pipeline.attributes.prev)
    (near : ResetsNear l2SafeHead pipeline) :
    Recovered chain l2SafeHead (pipeline.turn l2SafeHead).1.attributes.prev := by
  have stepped := recovered_step stage recovered
  rcases turn_signalled pipeline l2SafeHead with ⟨same, -⟩ | ⟨e, block, systemConfig, at_, turned, sends, -⟩
  · rw [same]
    exact stepped
  · have names := resetSignal_l1Origin e l2SafeHead block systemConfig
    obtain ⟨prev, result, -⟩ := attributes_signal (pipeline.step l2SafeHead).1.attributes names
    rw [turned, prev]
    refine stepped.signal stage names at_ fun isReset ok => ?_
    have reset : e ≠ .holoceneActivation := by
      rintro rfl
      obtain ⟨head, config, isReset⟩ := isReset
      cases isReset
    exact near block (sends reset (result.trans ok))

theorem drifted_turn (nonzero : l2SafeHead.blockInfo.number ≠ 0) (drifted : Drifted l2SafeHead pipeline.attributes.prev)
    (idle : pipeline.attributes.batch = none) :
    Drifted l2SafeHead (pipeline.turn l2SafeHead).1.attributes.prev ∧
      (pipeline.turn l2SafeHead).1.attributes.batch = none := by
  obtain ⟨after, e, failed, notEof⟩ := drifted.nextBatch stage nonzero
  have stepped : Drifted l2SafeHead (pipeline.step l2SafeHead).1.attributes.prev ∧
      (pipeline.step l2SafeHead).1.attributes.batch = none := by
    rcases nextAttributes_cases pipeline.attributes l2SafeHead with ⟨loaded, -⟩ | ⟨-, prev, -, error⟩
    · exact absurd idle loaded
    · obtain ⟨result, unloaded⟩ := error e failed
      rcases step_cases pipeline l2SafeHead with ⟨-, stepped⟩ | ⟨isEof, -⟩
      · rw [stepped, prev]
        exact ⟨after, unloaded⟩
      · rw [result] at isEof
        cases isEof
        exact absurd rfl notEof
  rcases turn_signalled pipeline l2SafeHead with ⟨same, -⟩ | ⟨e, block, systemConfig, at_, turned, -, -⟩
  · rw [same]
    exact stepped
  · have names := resetSignal_l1Origin e l2SafeHead block systemConfig
    obtain ⟨prev, -, batch⟩ := attributes_signal (pipeline.step l2SafeHead).1.attributes names
    rw [turned, prev]
    exact ⟨stepped.1.signal stage names at_, batch stepped.2⟩

end Stage

/-- The loop of `produce_payload` on one safe head. -/
def loop (l2SafeHead : L2BlockInfo) (pipeline : StatefulPipeline P F L1P L2P Receipt L) (_ : Unit) :
    StatefulPipeline P F L1P L2P Receipt L × Turn :=
  pipeline.turn l2SafeHead

theorem drifted_loop {chain : L1Chain} (stage : FollowsChain chain P) (plain : BatchQueue.PlainStage P)
    (nonzero : l2SafeHead.blockInfo.number ≠ 0) (turns : List Unit)
    (drifted : Drifted l2SafeHead pipeline.attributes.prev) (idle : pipeline.attributes.batch = none) :
    Along (loop l2SafeHead) (fun pipeline _ => ∀ called,
      QueueRun.DerivesOn pipeline.attributes.prev l2SafeHead called → Mismatches l2SafeHead pipeline) pipeline turns := by
  induction turns generalizing pipeline with
  | nil => trivial
  | cons _ turns ih =>
      refine ⟨?_, ?_⟩
      · rintro called ⟨uncached, outOfData, taken⟩
        have mismatch := drifted.derive_mismatch nonzero taken
        exact ⟨idle, (BatchQueue.nextBatch_mismatch plain).mpr ⟨called, outOfData, uncached, taken, mismatch⟩⟩
      · obtain ⟨drifted', idle'⟩ := drifted_turn stage nonzero drifted idle
        exact ih drifted' idle'

/-- After a reset to the L1 origin of the safe head or to the next block, and as long as every further reset is
of this kind, the batch queue never finds a mismatch of origins again: its first block stays one of the two.
After a reset to a block further on, every call that gets to derive a batch finds one. -/
theorem reset_recovers (chain : L1Chain) (stage : FollowsChain chain P) (plain : BatchQueue.PlainStage P)
    (l2SafeHead : L2BlockInfo) (nonzero : l2SafeHead.blockInfo.number ≠ 0)
    (onChain : l2SafeHead.l1Origin = (chain.block l2SafeHead.l1Origin.number).id)
    (pipeline : StatefulPipeline P F L1P L2P Receipt L) (block : BlockInfo) (has : chain.Has block)
    (below : l2SafeHead.l1Origin.number ≤ block.number) (sent : SendsReset l2SafeHead pipeline block)
    (turns : List Unit) :
    (Along (loop l2SafeHead) (fun pipeline _ => ResetsNear l2SafeHead pipeline) pipeline (() :: turns) →
      Along (loop l2SafeHead) (fun pipeline _ => ¬ Mismatches l2SafeHead pipeline ∧
        ∃ front later, pipeline.attributes.prev.l1Blocks = front :: later ∧
          (l2SafeHead.l1Origin = front.id ∨ l2SafeHead.l1Origin.number = front.number - 1))
        (pipeline.turn l2SafeHead).1 turns) ∧
    (l2SafeHead.l1Origin.number.toNat + 1 < block.number.toNat →
      Along (loop l2SafeHead) (fun pipeline _ => ∀ called,
        QueueRun.DerivesOn pipeline.attributes.prev l2SafeHead called → Mismatches l2SafeHead pipeline)
        (pipeline.turn l2SafeHead).1 turns) := by
  obtain ⟨l1Blocks, origin, prevOrigin, nextSpans, idle⟩ := sendsReset_turn stage plain sent
  constructor
  · rintro ⟨near, later⟩
    have recovered : Recovered chain l2SafeHead (pipeline.turn l2SafeHead).1.attributes.prev :=
      .ofReset has prevOrigin origin l1Blocks below (near block sent)
    refine along_of_invariant (fun pipeline => Recovered chain l2SafeHead pipeline.attributes.prev)
      (fun pipeline _ recovered near => recovered_turn stage recovered near) ?_ recovered later
    intro pipeline _ recovered _
    refine ⟨fun mismatch => recovered.not_mismatch plain onChain mismatch.2, ?_⟩
    obtain ⟨front, rest, blocks, from_, within⟩ := recovered.front
    have hasFront := recovered.tracks.onChain front (by rw [blocks]; exact List.mem_cons_self)
    exact ⟨front, rest, blocks, Recovered.origin_matches onChain hasFront from_ within⟩
  · intro further
    exact drifted_loop stage plain nonzero turns
      ⟨⟨block, [], l1Blocks, further⟩, ⟨block, prevOrigin, further⟩, nextSpans⟩ idle

end DerivationPipeline

end Builder

/-! ## A late batch -/

theorem walker_plain : BatchQueue.PlainStage Walker where
  nextBatch stage parent l1Blocks := by
    rintro ⟨expected, got, failed⟩
    simp only [NextBatchProvider.nextBatch] at failed
    split at failed
    · cases failed
    · split at failed <;> cases failed
  signal _ _ := nofun

instance : ConfigProvider Chains where
  systemConfigByNumber chains _ := (chains, .ok chains.config)

namespace DerivationPipeline

/-- The safe head: its L1 origin is block 5, and the next block is due after the time of block 6. -/
def head : L2BlockInfo := ⟨⟨bigEndian 32 40, 40, bigEndian 32 39, 71⟩, (blockAt 5).id, 0⟩

def lateBatch : SingleBatch := ⟨bigEndian 32 40, 7, bigEndian 32 7, 84, []⟩

def chainsAt (number : UInt64) : Chains := ⟨blockAt number, Pipeline.chains.config⟩

def pipelineFrom (prev : Walker) : StatefulPipeline Walker Chains Chains Chains Unit Chains :=
  .new (.new (.new ⟨20, 2, 2⟩ prev (chainsAt 7)) ⟨⟨20, 2, 2⟩, Pipeline.derived, chainsAt 7, chainsAt 7⟩) (chainsAt 7)

def beforeLateBatch : StatefulPipeline Walker Chains Chains Chains Unit Chains :=
  run (loop head) (pipelineFrom ⟨blockAt 5, [(8, .single lateBatch)]⟩) [(), (), ()]

theorem beforeLateBatch_sendsReset : SendsReset head beforeLateBatch (blockAt 8) :=
  ⟨.attributesBuilder (.blockMismatchEpochReset lateBatch.epoch head.l1Origin (bigEndian 32 6)), nofun,
    .inl (by decide +kernel), by decide +kernel, by decide +kernel⟩

theorem reset_mismatches_again : head.blockInfo.number ≠ 0 ∧ head.l1Origin = (blockChain.block head.l1Origin.number).id ∧
    head.l1Origin.number ≤ (blockAt 8).number ∧ SendsReset head beforeLateBatch (blockAt 8) ∧
    Mismatches head (beforeLateBatch.turn head).1 :=
  ⟨by decide, rfl, by decide, beforeLateBatch_sendsReset, rfl, 5, 7, by decide +kernel⟩

def startedBefore : StatefulPipeline Walker Chains Chains Chains Unit Chains :=
  run (loop head) ((pipelineFrom ⟨blockAt 4, []⟩).signal (.reset head (blockAt 4) none)).1 [()]

theorem startedBefore_sendsReset : SendsReset head startedBefore (blockAt 5) :=
  ⟨.l1OriginMismatch 5 3, nofun, .inl (by decide +kernel), by decide +kernel, by decide +kernel⟩

theorem startedBefore_near :
    Along (loop head) (fun pipeline _ => ResetsNear head pipeline) startedBefore [(), ()] := by
  refine ⟨?_, ?_, trivial⟩
  · rintro block ⟨e, -, -, at_, -⟩
    have reached : (startedBefore.step head).1.origin = some (blockAt 5) := by decide +kernel
    cases reached.symm.trans at_
    decide
  · rintro block ⟨e, -, -, at_, -⟩
    have reached : ((startedBefore.turn head).1.step head).1.origin = some (blockAt 6) := by decide +kernel
    cases reached.symm.trans at_
    decide

theorem reset_recovers_both : SendsReset head startedBefore (blockAt 5) ∧
    ¬ Mismatches head (startedBefore.turn head).1 ∧
    SendsReset head beforeLateBatch (blockAt 8) ∧
    ∀ called, QueueRun.DerivesOn (beforeLateBatch.turn head).1.attributes.prev head called →
      Mismatches head (beforeLateBatch.turn head).1 :=
  ⟨startedBefore_sendsReset,
    ((reset_recovers blockChain walker_follows walker_plain head (by decide) rfl startedBefore (blockAt 5)
      (blockChain_has 5) (by decide) startedBefore_sendsReset [()]).1 startedBefore_near).1.1,
    beforeLateBatch_sendsReset,
    ((reset_recovers blockChain walker_follows walker_plain head (by decide) rfl beforeLateBatch (blockAt 8)
      (blockChain_has 8) (by decide) beforeLateBatch_sendsReset [()]).2 (by decide)).1⟩

end DerivationPipeline

end KonaSoon.Derive
