import KonaSoon.Derive.Stability

namespace KonaSoon.Derive
open Lib Mpt

namespace SingleBatch

def checkOriginUnbounded (batch : SingleBatch) (cfg : SoonRollupConfig) (nextBlock : Option BlockInfo)
    (l2SafeHead : L2BlockInfo) (epoch batchOrigin : BlockInfo) : BatchValidity :=
  let max := batchOrigin.timestamp.toNat + cfg.maxSequencerDrift.toNat
  if batch.epochHash ≠ batchOrigin.hash ∧ l2SafeHead.blockInfo.number ≠ 0 then .drop
  else if max < batch.timestamp.toNat ∧ batch.transactions ≠ [] then .drop
  else if max < batch.timestamp.toNat ∧ epoch.number = batchOrigin.number then
    match nextBlock with
    | none => .undecided
    | some nextOrigin => if nextOrigin.timestamp ≤ batch.timestamp then .drop else batch.checkTransactions
  else batch.checkTransactions

def checkBatchUnbounded (batch : SingleBatch) (cfg : SoonRollupConfig) (l1Blocks : List BlockInfo)
    (l2SafeHead : L2BlockInfo) (inclusionBlock : BlockInfo) : BatchValidity :=
  match l1Blocks with
  | [] => .undecided
  | epoch :: later =>
      if batch.timestamp < l2SafeHead.blockInfo.timestamp then .past
      else if batch.parentHash ≠ l2SafeHead.blockInfo.hash then .past
      else if batch.epochNum.toNat + cfg.seqWindowSize.toNat < inclusionBlock.number.toNat then .drop
      else if batch.epochNum < epoch.number then .drop
      else if batch.epochNum = epoch.number then batch.checkOriginUnbounded cfg later.head? l2SafeHead epoch epoch
      else if batch.epochNum.toNat = epoch.number.toNat + 1 then
        match later with
        | [] => .undecided
        | next :: _ => batch.checkOriginUnbounded cfg later.head? l2SafeHead epoch next
      else .drop

/-- The last moment at which the origin of the batch allows transactions is not a 64-bit number. -/
def DriftOverflows (batch : SingleBatch) (cfg : SoonRollupConfig) (l1Blocks : List BlockInfo) : Prop :=
  ∃ origin ∈ l1Blocks, origin.number = batch.epochNum ∧ 2 ^ 64 ≤ origin.timestamp.toNat + cfg.maxSequencerDrift.toNat

instance (batch : SingleBatch) (cfg : SoonRollupConfig) (l1Blocks : List BlockInfo) :
    Decidable (batch.DriftOverflows cfg l1Blocks) :=
  List.decidableBEx _ l1Blocks

variable {batch : SingleBatch} {cfg : SoonRollupConfig} {l2SafeHead : L2BlockInfo} {epoch batchOrigin : BlockInfo}
  {inclusionBlock : BlockInfo}

theorem checkOrigin_of_fits (nextBlock : Option BlockInfo)
    (fits : batchOrigin.timestamp.toNat + cfg.maxSequencerDrift.toNat < 2 ^ 64) :
    batch.checkOrigin cfg nextBlock l2SafeHead epoch batchOrigin =
      batch.checkOriginUnbounded cfg nextBlock l2SafeHead epoch batchOrigin := by
  have sum : (batchOrigin.timestamp + cfg.maxSequencerDrift).toNat =
      batchOrigin.timestamp.toNat + cfg.maxSequencerDrift.toNat := by
    rw [UInt64.toNat_add, Nat.mod_eq_of_lt fits]
  have same : batchOrigin.timestamp + cfg.maxSequencerDrift < batch.timestamp ↔
      batchOrigin.timestamp.toNat + cfg.maxSequencerDrift.toNat < batch.timestamp.toNat := by
    rw [UInt64.lt_iff_toNat_lt, sum]
  by_cases late : batchOrigin.timestamp.toNat + cfg.maxSequencerDrift.toNat < batch.timestamp.toNat
  · cases nextBlock <;>
      simp only [checkOrigin, checkOriginUnbounded, checkedAdd, if_pos fits, same.mpr late, late, true_and]
  · simp only [checkOrigin, checkOriginUnbounded, checkedAdd, if_pos fits, mt same.mp late, late, false_and, if_false]

theorem checkOrigin_of_overflow (nextBlock : Option BlockInfo)
    (overflows : 2 ^ 64 ≤ batchOrigin.timestamp.toNat + cfg.maxSequencerDrift.toNat) :
    batch.checkOrigin cfg nextBlock l2SafeHead epoch batchOrigin = .drop ∧
      (batch.checkOriginUnbounded cfg nextBlock l2SafeHead epoch batchOrigin = .drop ∨
        batch.checkOriginUnbounded cfg nextBlock l2SafeHead epoch batchOrigin = .accept) := by
  have never : ¬ batchOrigin.timestamp.toNat + cfg.maxSequencerDrift.toNat < batch.timestamp.toNat := by
    have := batch.timestamp.toNat_lt
    omega
  constructor
  · simp only [checkOrigin, checkedAdd, if_neg (Nat.not_lt.mpr overflows)]
    split <;> rfl
  · simp only [checkOriginUnbounded, never, false_and, if_false, checkTransactions]
    split
    · exact .inl rfl
    · split
      · exact .inl rfl
      · exact .inr rfl

/-- What becomes of a batch that the rules over the natural numbers accept, if the check for overflow fails. -/
def guarded (overflows : Prop) [Decidable overflows] (verdict : BatchValidity) : BatchValidity :=
  if overflows ∧ verdict = .accept then .drop else verdict

theorem guarded_of_ne {overflows : Prop} [Decidable overflows] {verdict : BatchValidity} (refuses : verdict ≠ .accept) :
    guarded overflows verdict = verdict :=
  if_neg fun both => refuses both.2

theorem guarded_of_not {overflows : Prop} [Decidable overflows] {verdict : BatchValidity} (fits : ¬ overflows) :
    guarded overflows verdict = verdict :=
  if_neg fun both => fits both.1

variable {l1Blocks : List BlockInfo}

theorem checkOrigin_eq (nextBlock : Option BlockInfo) (member : batchOrigin ∈ l1Blocks)
    (named : batchOrigin.number = batch.epochNum)
    (only : ∀ other ∈ l1Blocks, other.number = batch.epochNum → other = batchOrigin) :
    batch.checkOrigin cfg nextBlock l2SafeHead epoch batchOrigin = guarded (batch.DriftOverflows cfg l1Blocks)
      (batch.checkOriginUnbounded cfg nextBlock l2SafeHead epoch batchOrigin) := by
  by_cases fits : batchOrigin.timestamp.toNat + cfg.maxSequencerDrift.toNat < 2 ^ 64
  · rw [checkOrigin_of_fits nextBlock fits, guarded_of_not]
    rintro ⟨origin, inside, same, overflows⟩
    rw [only origin inside same] at overflows
    omega
  · have overflows : batch.DriftOverflows cfg l1Blocks := ⟨batchOrigin, member, named, Nat.not_lt.mp fits⟩
    obtain ⟨drops, unbounded⟩ := @checkOrigin_of_overflow batch cfg l2SafeHead epoch batchOrigin nextBlock (Nat.not_lt.mp fits)
    rw [drops]
    rcases unbounded with drop | accept
    · rw [drop, guarded_of_ne (by simp)]
    · rw [accept, guarded, if_pos ⟨overflows, rfl⟩]

theorem ahead_of_wraps (window : cfg.seqWindowSize.toNat < 2 ^ 63) (number : epoch.number.toNat < 2 ^ 63)
    (wraps : 2 ^ 64 ≤ batch.epochNum.toNat + cfg.seqWindowSize.toNat) :
    epoch.number.toNat + 1 < batch.epochNum.toNat := by
  omega

theorem checkBatch_of_inWindow {later : List BlockInfo} (consecutive : Consecutive (epoch :: later))
    (number : epoch.number.toNat < 2 ^ 63) (recent : ¬ batch.timestamp < l2SafeHead.blockInfo.timestamp)
    (builds : ¬ batch.parentHash ≠ l2SafeHead.blockInfo.hash)
    (early : ¬ batch.epochNum + cfg.seqWindowSize < inclusionBlock.number)
    (inWindow : ¬ batch.epochNum.toNat + cfg.seqWindowSize.toNat < inclusionBlock.number.toNat) :
    batch.checkBatch cfg (epoch :: later) l2SafeHead inclusionBlock =
      guarded (batch.DriftOverflows cfg (epoch :: later))
        (batch.checkBatchUnbounded cfg (epoch :: later) l2SafeHead inclusionBlock) := by
  simp only [checkBatch, checkBatchUnbounded, recent, builds, early, inWindow, if_false]
  have successor : (epoch.number + 1).toNat = epoch.number.toNat + 1 := by
    rw [UInt64.toNat_add, UInt64.toNat_one, Nat.mod_eq_of_lt (by omega)]
  have advances : batch.epochNum = epoch.number + 1 ↔ batch.epochNum.toNat = epoch.number.toNat + 1 := by
    rw [← UInt64.toNat_inj, successor]
  by_cases stale : batch.epochNum < epoch.number
  · rw [if_pos stale, if_pos stale, guarded_of_ne (by simp)]
  · rw [if_neg stale, if_neg stale]
    by_cases same : batch.epochNum = epoch.number
    · rw [if_pos same, if_pos same]
      refine checkOrigin_eq later.head? List.mem_cons_self same.symm ?_
      intro other member named
      exact consecutive.eq_of_number member List.mem_cons_self (named.trans same)
    · rw [if_neg same, if_neg same]
      by_cases next : batch.epochNum = epoch.number + 1
      · rw [if_pos next, if_pos (advances.mp next)]
        cases later with
        | nil => rw [guarded_of_ne (by simp)]
        | cons block blocks =>
            have follows : block.number.toNat = epoch.number.toNat + 1 := (List.isChain_cons_cons.mp consecutive).1
            have named : block.number = batch.epochNum := by
              rw [next, ← UInt64.toNat_inj, successor, follows]
            have member : block ∈ epoch :: block :: blocks := List.mem_cons_of_mem _ List.mem_cons_self
            refine checkOrigin_eq _ member named ?_
            intro other inside same
            exact consecutive.eq_of_number inside member (same.trans named.symm)
      · rw [if_neg next, if_neg (mt advances.mpr next), guarded_of_ne (by simp)]

theorem checkBatch_of_ahead {later : List BlockInfo} (ahead : epoch.number.toNat + 1 < batch.epochNum.toNat)
    (recent : ¬ batch.timestamp < l2SafeHead.blockInfo.timestamp)
    (builds : ¬ batch.parentHash ≠ l2SafeHead.blockInfo.hash) :
    batch.checkBatch cfg (epoch :: later) l2SafeHead inclusionBlock = .drop ∧
      batch.checkBatchUnbounded cfg (epoch :: later) l2SafeHead inclusionBlock = .drop := by
  have notStale : ¬ batch.epochNum < epoch.number := by
    rw [UInt64.lt_iff_toNat_lt]
    omega
  have notSame : batch.epochNum ≠ epoch.number := by
    rw [Ne, ← UInt64.toNat_inj]
    omega
  have notNext : batch.epochNum ≠ epoch.number + 1 := by
    have := batch.epochNum.toNat_lt
    rw [Ne, ← UInt64.toNat_inj, UInt64.toNat_add, UInt64.toNat_one, Nat.mod_eq_of_lt (by omega)]
    omega
  constructor
  · simp only [checkBatch, recent, builds, notStale, notSame, notNext, if_false, ite_self]
  · simp only [checkBatchUnbounded, recent, builds, notStale, notSame, Nat.ne_of_gt ahead, if_false, ite_self]

theorem checkBatch_eq_guarded (consecutive : Consecutive l1Blocks) (window : cfg.seqWindowSize.toNat < 2 ^ 63)
    (numbers : ∀ block ∈ l1Blocks, block.number.toNat < 2 ^ 63) :
    batch.checkBatch cfg l1Blocks l2SafeHead inclusionBlock = guarded (batch.DriftOverflows cfg l1Blocks)
      (batch.checkBatchUnbounded cfg l1Blocks l2SafeHead inclusionBlock) := by
  cases l1Blocks with
  | nil => rw [checkBatch, checkBatchUnbounded, guarded_of_ne (by simp)]
  | cons epoch later =>
      have number := numbers epoch List.mem_cons_self
      by_cases old : batch.timestamp < l2SafeHead.blockInfo.timestamp
      · simp only [checkBatch, checkBatchUnbounded, if_pos old]
        rw [guarded_of_ne (by simp)]
      · by_cases strange : batch.parentHash ≠ l2SafeHead.blockInfo.hash
        · simp only [checkBatch, checkBatchUnbounded, if_neg old, if_pos strange]
          rw [guarded_of_ne (by simp)]
        · by_cases fits : batch.epochNum.toNat + cfg.seqWindowSize.toNat < 2 ^ 64
          · have same : batch.epochNum + cfg.seqWindowSize < inclusionBlock.number ↔
                batch.epochNum.toNat + cfg.seqWindowSize.toNat < inclusionBlock.number.toNat := by
              rw [UInt64.lt_iff_toNat_lt, UInt64.toNat_add, Nat.mod_eq_of_lt fits]
            by_cases late : batch.epochNum + cfg.seqWindowSize < inclusionBlock.number
            · simp only [checkBatch, checkBatchUnbounded, if_neg old, if_neg strange, if_pos late, if_pos (same.mp late)]
              rw [guarded_of_ne (by simp)]
            · exact checkBatch_of_inWindow consecutive number old strange late (mt same.mpr late)
          · -- The sum wraps, so whatever the comparison says of it, the epoch is too far ahead of the first block.
            have ahead := ahead_of_wraps window number (Nat.not_lt.mp fits)
            obtain ⟨bounded, unbounded⟩ := @checkBatch_of_ahead batch cfg l2SafeHead epoch inclusionBlock later ahead old strange
            rw [bounded, unbounded, guarded_of_ne (by simp)]

structure Sound (batch : SingleBatch) (cfg : SoonRollupConfig) (l1Blocks : List BlockInfo) (l2SafeHead : L2BlockInfo)
    (inclusionBlock origin : BlockInfo) : Prop where
  builds : batch.parentHash = l2SafeHead.blockInfo.hash
  recent : l2SafeHead.blockInfo.timestamp ≤ batch.timestamp
  known : l1Blocks[0]? = some origin ∨ l1Blocks[1]? = some origin
  named : batch.epoch = ⟨origin.number, origin.hash⟩
  included : inclusionBlock.number.toNat ≤ batch.epochNum.toNat + cfg.seqWindowSize.toNat
  full : ∀ tx ∈ batch.transactions, tx ≠ []
  drifts : origin.timestamp.toNat + cfg.maxSequencerDrift.toNat < batch.timestamp.toNat →
    batch.transactions = [] ∧
      ((∃ epoch, l1Blocks[0]? = some epoch ∧ epoch.number < batch.epochNum) ∨
        ∃ next, l1Blocks[1]? = some next ∧ batch.timestamp < next.timestamp)

theorem InTime.drifts {nextBlock : Option BlockInfo} (inTime : batch.InTime cfg epoch nextBlock batchOrigin)
    (late : batchOrigin.timestamp.toNat + cfg.maxSequencerDrift.toNat < batch.timestamp.toNat) :
    batch.transactions = [] ∧
      (epoch.number = batchOrigin.number → ∃ next, nextBlock = some next ∧ batch.timestamp < next.timestamp) := by
  obtain ⟨max, bound, early | empty⟩ := inTime
  · -- The sum fits, so the batch cannot be within the drift and past it.
    have := batch.timestamp.toNat_lt
    have fits : batchOrigin.timestamp.toNat + cfg.maxSequencerDrift.toNat < 2 ^ 64 := by omega
    rw [checkedAdd, if_pos fits, Option.some.injEq] at bound
    rw [← bound, UInt64.le_iff_toNat_le, UInt64.toNat_add, Nat.mod_eq_of_lt fits] at early
    omega
  · exact empty

theorem MeetsRules.sound (consecutive : Consecutive l1Blocks)
    (numbers : ∀ block ∈ l1Blocks, block.number.toNat < 2 ^ 63) (started : l2SafeHead.blockInfo.number ≠ 0)
    (rules : batch.MeetsRules cfg l1Blocks l2SafeHead inclusionBlock) :
    ∃ origin, batch.Sound cfg l1Blocks l2SafeHead inclusionBlock origin := by
  obtain ⟨epoch, later, origin, rfl, recent, builds, inWindow, names, hashes, inTime, full⟩ := rules
  have sameHash : batch.epochHash = origin.hash := hashes.resolve_right started
  have included : inclusionBlock.number.toNat ≤ batch.epochNum.toNat + cfg.seqWindowSize.toNat := by
    rw [UInt64.le_iff_toNat_le, UInt64.toNat_add] at inWindow
    exact inWindow.trans (Nat.mod_le _ _)
  rcases names with ⟨named, rfl⟩ | ⟨ahead, named, next⟩
  · refine ⟨origin, builds, recent, .inl rfl, by rw [SingleBatch.epoch, named, sameHash], included, full, ?_⟩
    intro late
    obtain ⟨empty, early⟩ := inTime.drifts late
    obtain ⟨next, head, before⟩ := early rfl
    exact ⟨empty, .inr ⟨next, by rwa [List.getElem?_cons_succ, ← List.head?_eq_getElem?], before⟩⟩
  · have second : (epoch :: later)[1]? = some origin := by
      rwa [List.getElem?_cons_succ, ← List.head?_eq_getElem?]
    have number : origin.number = batch.epochNum := by
      obtain ⟨blocks, rfl⟩ := List.head?_eq_some_iff.mp next
      have follows : origin.number.toNat = epoch.number.toNat + 1 := (List.isChain_cons_cons.mp consecutive).1
      have := numbers epoch List.mem_cons_self
      rw [named, ← UInt64.toNat_inj, follows, UInt64.toNat_add, UInt64.toNat_one, Nat.mod_eq_of_lt (by omega)]
    refine ⟨origin, builds, recent, .inr second, by rw [SingleBatch.epoch, number, sameHash], included, full, ?_⟩
    intro late
    exact ⟨(inTime.drifts late).1, .inl ⟨epoch, rfl, ahead⟩⟩

/-- The verdict is that of the rules over the natural numbers, but for the batches that the check for overflow
drops. -/
theorem checkBatch_exact_but_overflow (batch : SingleBatch) (cfg : SoonRollupConfig) (l1Blocks : List BlockInfo)
    (l2SafeHead : L2BlockInfo) (inclusionBlock : BlockInfo) (consecutive : Consecutive l1Blocks)
    (window : cfg.seqWindowSize.toNat < 2 ^ 63) (numbers : ∀ block ∈ l1Blocks, block.number.toNat < 2 ^ 63)
    (started : l2SafeHead.blockInfo.number ≠ 0) :
    batch.checkBatch cfg l1Blocks l2SafeHead inclusionBlock = guarded (batch.DriftOverflows cfg l1Blocks)
      (batch.checkBatchUnbounded cfg l1Blocks l2SafeHead inclusionBlock) ∧
    (batch.checkBatch cfg l1Blocks l2SafeHead inclusionBlock = .accept →
      ∃ origin, batch.Sound cfg l1Blocks l2SafeHead inclusionBlock origin) := by
  refine ⟨checkBatch_eq_guarded consecutive window numbers, ?_⟩
  intro accepts
  rw [checkBatch_accept_iff] at accepts
  exact accepts.sound consecutive numbers started

def lastMoment : BlockInfo := ⟨bigEndian 32 8, 8, bigEndian 32 7, 2 ^ 64 - 1⟩

def lastBatch : SingleBatch := ⟨bigEndian 32 40, 8, bigEndian 32 8, 2 ^ 64 - 1, []⟩

def lastHead : L2BlockInfo := ⟨⟨bigEndian 32 40, 40, bigEndian 32 39, 96⟩, lastMoment.id, 0⟩

theorem checkBatch_exact_but_overflow_lastBatch :
    lastBatch.checkBatch ⟨0, 10, 2⟩ [lastMoment] lastHead lastMoment = .accept ∧
      ∃ origin, lastBatch.Sound ⟨0, 10, 2⟩ [lastMoment] lastHead lastMoment origin := by
  have accepts : lastBatch.checkBatch ⟨0, 10, 2⟩ [lastMoment] lastHead lastMoment = .accept := by decide +kernel
  have consecutive : Consecutive [lastMoment] := by simp [Consecutive]
  have exact := checkBatch_exact_but_overflow lastBatch ⟨0, 10, 2⟩ [lastMoment] lastHead lastMoment consecutive
    (by decide) (by decide) (by decide)
  exact ⟨accepts, exact.2 accepts⟩

/-- With a drift of one the sum does not fit, and a batch at the time of its origin is dropped. -/
theorem checkBatch_drops_within_drift : Consecutive [lastMoment] ∧ lastHead.blockInfo.number ≠ 0 ∧
    lastBatch.checkBatch ⟨1, 10, 2⟩ [lastMoment] lastHead lastMoment = .drop ∧
    lastBatch.checkBatchUnbounded ⟨1, 10, 2⟩ [lastMoment] lastHead lastMoment = .accept := by
  refine ⟨by simp [Consecutive], ?_⟩
  decide +kernel

end SingleBatch

end KonaSoon.Derive
