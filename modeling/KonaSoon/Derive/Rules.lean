import KonaSoon.Derive.Batch

namespace KonaSoon.Derive
open Lib Mpt

namespace SingleBatch

def OriginIs (batch : SingleBatch) (epoch : BlockInfo) (nextBlock : Option BlockInfo) (origin : BlockInfo) : Prop :=
  batch.epochNum = epoch.number ∧ origin = epoch ∨
    epoch.number < batch.epochNum ∧ batch.epochNum = epoch.number + 1 ∧ nextBlock = some origin

def InTime (batch : SingleBatch) (cfg : SoonRollupConfig) (epoch : BlockInfo) (nextBlock : Option BlockInfo)
    (origin : BlockInfo) : Prop :=
  ∃ max, checkedAdd origin.timestamp cfg.maxSequencerDrift = some max ∧
    (batch.timestamp ≤ max ∨ batch.transactions = [] ∧
      (epoch.number = origin.number → ∃ next, nextBlock = some next ∧ batch.timestamp < next.timestamp))

def MeetsRules (batch : SingleBatch) (cfg : SoonRollupConfig) (l1Blocks : List BlockInfo) (l2SafeHead : L2BlockInfo)
    (inclusionBlock : BlockInfo) : Prop :=
  ∃ epoch later origin, l1Blocks = epoch :: later ∧
    l2SafeHead.blockInfo.timestamp ≤ batch.timestamp ∧ batch.parentHash = l2SafeHead.blockInfo.hash ∧
    inclusionBlock.number ≤ batch.epochNum + cfg.seqWindowSize ∧ batch.OriginIs epoch later.head? origin ∧
    (batch.epochHash = origin.hash ∨ l2SafeHead.blockInfo.number = 0) ∧ batch.InTime cfg epoch later.head? origin ∧
    ∀ tx ∈ batch.transactions, tx ≠ []

theorem checkTransactions_accept_iff (batch : SingleBatch) :
    batch.checkTransactions = .accept ↔ ∀ tx ∈ batch.transactions, tx ≠ [] := by
  unfold checkTransactions
  split
  · rename_i empty
    simpa using empty
  · rename_i full
    simp only [List.any_eq_true, decide_eq_true_eq, not_exists, not_and] at full
    simpa using full

theorem checkOrigin_accept_iff (batch : SingleBatch) (cfg : SoonRollupConfig) (nextBlock : Option BlockInfo)
    (l2SafeHead : L2BlockInfo) (epoch origin : BlockInfo) :
    batch.checkOrigin cfg nextBlock l2SafeHead epoch origin = .accept ↔
      (batch.epochHash = origin.hash ∨ l2SafeHead.blockInfo.number = 0) ∧ batch.InTime cfg epoch nextBlock origin ∧
        ∀ tx ∈ batch.transactions, tx ≠ [] := by
  unfold checkOrigin InTime
  split
  · rename_i mismatch
    simp [mismatch.1, mismatch.2]
  · rename_i agree
    have hashes : batch.epochHash = origin.hash ∨ l2SafeHead.blockInfo.number = 0 := by
      by_contra neither
      exact agree (not_or.mp neither)
    simp only [hashes, true_and]
    cases checkedAdd origin.timestamp cfg.maxSequencerDrift with
    | none => simp
    | some max =>
        simp only [Option.some.injEq, exists_eq_left']
        by_cases late : max < batch.timestamp
        · by_cases noTxs : batch.transactions = []
          · by_cases stays : epoch.number = origin.number
            · cases nextBlock with
              | none => simp [late, noTxs, stays, UInt64.not_le.mpr late]
              | some next =>
                  by_cases adoptable : next.timestamp ≤ batch.timestamp
                  · simp [late, noTxs, stays, adoptable, UInt64.not_le.mpr late, UInt64.not_lt.mpr adoptable]
                  · simp [late, noTxs, stays, adoptable, checkTransactions, UInt64.not_le.mp adoptable]
            · simp [late, noTxs, stays, checkTransactions]
          · simp [late, noTxs, UInt64.not_le.mpr late]
        · simp [late, UInt64.not_lt.mp late, checkTransactions_accept_iff]

theorem checkBatch_accept_iff (batch : SingleBatch) (cfg : SoonRollupConfig) (l1Blocks : List BlockInfo)
    (l2SafeHead : L2BlockInfo) (inclusionBlock : BlockInfo) :
    batch.checkBatch cfg l1Blocks l2SafeHead inclusionBlock = .accept ↔
      batch.MeetsRules cfg l1Blocks l2SafeHead inclusionBlock := by
  cases l1Blocks with
  | nil => simp [checkBatch, MeetsRules]
  | cons epoch later =>
      have rules : batch.MeetsRules cfg (epoch :: later) l2SafeHead inclusionBlock ↔
          l2SafeHead.blockInfo.timestamp ≤ batch.timestamp ∧ batch.parentHash = l2SafeHead.blockInfo.hash ∧
          inclusionBlock.number ≤ batch.epochNum + cfg.seqWindowSize ∧
          ∃ origin, batch.OriginIs epoch later.head? origin ∧
            batch.checkOrigin cfg later.head? l2SafeHead epoch origin = .accept := by
        simp only [MeetsRules, checkOrigin_accept_iff, List.cons.injEq]
        constructor
        · rintro ⟨_, _, origin, ⟨rfl, rfl⟩, recent, builds, early, names, rest⟩
          exact ⟨recent, builds, early, origin, names, rest⟩
        · rintro ⟨recent, builds, early, origin, names, rest⟩
          exact ⟨epoch, later, origin, ⟨rfl, rfl⟩, recent, builds, early, names, rest⟩
      rw [rules]
      simp only [checkBatch]
      split_ifs with old strange late stale same next
      · simp [UInt64.not_le.mpr old]
      · simp [strange]
      · simp [UInt64.not_le.mpr late]
      · simp only [OriginIs, false_iff]
        rintro ⟨-, -, -, origin, ⟨named, -⟩ | ⟨ahead, -⟩, -⟩
        · exact UInt64.lt_irrefl _ (named ▸ stale)
        · exact UInt64.lt_irrefl _ (UInt64.lt_trans stale ahead)
      · have names : ∀ origin, batch.OriginIs epoch later.head? origin ↔ origin = epoch := by
          intro origin
          simp [OriginIs, same]
        simp [names, UInt64.not_lt.mp old, not_not.mp strange, UInt64.not_lt.mp late]
      · have ahead : epoch.number < batch.epochNum :=
          UInt64.lt_of_le_of_ne (UInt64.not_lt.mp stale) (Ne.symm same)
        have names : ∀ origin, batch.OriginIs epoch later.head? origin ↔ later.head? = some origin := by
          intro origin
          rw [OriginIs, iff_true_intro ahead, iff_true_intro next, iff_false_intro same]
          simp
        simp only [names, UInt64.not_lt.mp old, not_not.mp strange, UInt64.not_lt.mp late, true_and]
        cases later with
        | nil => simp
        | cons block blocks => simp
      · simp [OriginIs, same, next]

end SingleBatch

namespace SpanBatch

variable {F : Type} [L2ChainProvider F]

def BuildsOn (cfg : SoonRollupConfig) (l2SafeHead : L2BlockInfo) (first : SpanBatchElement) (fetcher : F)
    (parentBlock : L2BlockInfo) : Prop :=
  l2SafeHead.blockInfo.timestamp + cfg.blockTime ≤ first.timestamp ∧ parentBlock = l2SafeHead ∨
    first.timestamp < l2SafeHead.blockInfo.timestamp + cfg.blockTime ∧
      first.timestamp ≤ l2SafeHead.blockInfo.timestamp ∧ cfg.blockTime ≠ 0 ∧
      (l2SafeHead.blockInfo.timestamp - first.timestamp) % cfg.blockTime = 0 ∧
      (L2ChainProvider.l2BlockInfoByNumber fetcher (l2SafeHead.blockInfo.number -
        (l2SafeHead.blockInfo.timestamp - first.timestamp) / cfg.blockTime - 1)).2 = .ok parentBlock

structure FollowsParent (batch : SpanBatch) (cfg : SoonRollupConfig) (l1Origins : List BlockInfo)
    (inclusionBlock : BlockInfo) (first last : SpanBatchElement) (parentBlock : L2BlockInfo) : Prop where
  parent : batch.checkParentHash parentBlock.blockInfo.hash
  inWindow : inclusionBlock.number ≤ first.epochNum + cfg.seqWindowSize
  notAhead : first.epochNum ≤ parentBlock.l1Origin.number + 1
  sameChain : ∃ block, (l1Origins.find? fun block => block.number = last.epochNum) = some block ∧
    batch.checkOriginHash block.hash
  notOld : parentBlock.l1Origin.number ≤ first.epochNum

def InTime (cfg : SoonRollupConfig) (nextOrigin : Option BlockInfo) (l1Origin : BlockInfo) (originAdvanced : Bool)
    (element : SpanBatchElement) : Prop :=
  l1Origin.timestamp ≤ element.timestamp ∧
    (element.timestamp ≤ l1Origin.timestamp + cfg.maxSequencerDrift ∨
      element.transactions = [] ∧
        (originAdvanced = false → ∃ next, nextOrigin = some next ∧ element.timestamp < next.timestamp))

/-- Spans are checked for the transactions that `has_invalid_transactions` looks for in a single batch. -/
theorem hasInvalidTransactions_eq_false_iff (batch : SingleBatch) :
    batch.hasInvalidTransactions = false ↔ ∀ tx ∈ batch.transactions, transactionAllowed tx := by
  simp [SingleBatch.hasInvalidTransactions, transactionAllowed]

def ElementsMeetRules (cfg : SoonRollupConfig) (l1Blocks : List BlockInfo) (safeTimestamp : UInt64) :
    Nat → Bool → Option SpanBatchElement → List SpanBatchElement → Prop
  | _, _, _, [] => True
  | originIndex, originAdvanced, previous, element :: rest =>
      if element.timestamp ≤ safeTimestamp then
        ElementsMeetRules cfg l1Blocks safeTimestamp originIndex originAdvanced (some element) rest
      else
        let originIndex := findOrigin l1Blocks originIndex element.epochNum
        let originAdvanced := advances originAdvanced previous element
        (∃ l1Origin, l1Blocks[originIndex]? = some l1Origin ∧
          InTime cfg l1Blocks[originIndex + 1]? l1Origin originAdvanced element) ∧
        (∀ tx ∈ element.transactions, transactionAllowed tx) ∧
        ElementsMeetRules cfg l1Blocks safeTimestamp originIndex originAdvanced (some element) rest

def PrefixMeetsRules (batch : SpanBatch) (cfg : SoonRollupConfig) (l1Origins : List BlockInfo) (l2SafeHead : L2BlockInfo)
    (inclusionBlock : BlockInfo) (fetcher : F) (first : SpanBatchElement) (parentBlock : L2BlockInfo) : Prop :=
  ∃ epoch later rest, l1Origins = epoch :: later ∧ batch.batches = first :: rest ∧
    ¬ (first.epochNum = epoch.number + 1 ∧ later = []) ∧
    first.timestamp ≤ l2SafeHead.blockInfo.timestamp + cfg.blockTime ∧
    l2SafeHead.blockInfo.timestamp + cfg.blockTime ≤ (rest.getLast?.getD first).timestamp ∧
    BuildsOn cfg l2SafeHead first fetcher parentBlock ∧
    batch.FollowsParent cfg l1Origins inclusionBlock first (rest.getLast?.getD first) parentBlock

def MeetsRules (batch : SpanBatch) (cfg : SoonRollupConfig) (l1Blocks : List BlockInfo) (l2SafeHead : L2BlockInfo)
    (inclusionBlock : BlockInfo) (fetcher : F) : Prop :=
  ∃ first parentBlock, batch.PrefixMeetsRules cfg l1Blocks l2SafeHead inclusionBlock fetcher first parentBlock ∧
    ElementsMeetRules cfg l1Blocks l2SafeHead.blockInfo.timestamp 0 (first.epochNum = parentBlock.l1Origin.number + 1)
      none batch.batches

theorem checkTime_eq_none_iff {cfg : SoonRollupConfig} {nextOrigin : Option BlockInfo} {l1Origin : BlockInfo}
    {originAdvanced : Bool} {element : SpanBatchElement} :
    checkTime cfg nextOrigin l1Origin originAdvanced element = none ↔
      InTime cfg nextOrigin l1Origin originAdvanced element := by
  unfold checkTime InTime
  by_cases early : element.timestamp < l1Origin.timestamp
  · simp [early, UInt64.not_le.mpr early]
  · simp only [early, if_false, UInt64.not_lt.mp early, true_and]
    by_cases late : l1Origin.timestamp + cfg.maxSequencerDrift < element.timestamp
    · simp only [late, if_true, UInt64.not_le.mpr late, false_or]
      by_cases empty : element.transactions = []
      · simp only [empty, if_true, true_and]
        cases originAdvanced with
        | true => simp
        | false =>
            cases nextOrigin with
            | none => simp
            | some next => simp
      · simp [empty]
    · simp [late, UInt64.not_lt.mp late]

theorem checkTime_ne_accept {cfg : SoonRollupConfig} {nextOrigin : Option BlockInfo} {l1Origin : BlockInfo}
    {originAdvanced : Bool} {element : SpanBatchElement} {verdict : BatchValidity}
    (ends : checkTime cfg nextOrigin l1Origin originAdvanced element = some verdict) : verdict ≠ .accept := by
  rintro rfl
  unfold checkTime at ends
  repeat' split at ends
  all_goals cases ends

theorem checkElements_accept_iff (cfg : SoonRollupConfig) (l1Blocks : List BlockInfo) (safeTimestamp : UInt64)
    (elements : List SpanBatchElement) (originIndex : Nat) (originAdvanced : Bool) (previous : Option SpanBatchElement) :
    checkElements cfg l1Blocks safeTimestamp originIndex originAdvanced previous elements = some .accept ↔
      ElementsMeetRules cfg l1Blocks safeTimestamp originIndex originAdvanced previous elements := by
  induction elements generalizing originIndex originAdvanced previous with
  | nil => simp [checkElements, ElementsMeetRules]
  | cons element rest ih =>
      by_cases old : element.timestamp ≤ safeTimestamp
      · simp only [checkElements, ElementsMeetRules, if_pos old, ih]
      · simp only [checkElements, ElementsMeetRules, if_neg old]
        cases l1Blocks[findOrigin l1Blocks originIndex element.epochNum]? with
        | none => simp
        | some l1Origin =>
            simp only [Option.some.injEq, exists_eq_left', ← checkTime_eq_none_iff]
            cases ends : checkTime cfg l1Blocks[findOrigin l1Blocks originIndex element.epochNum + 1]? l1Origin
              (advances originAdvanced previous element) element with
            | some verdict => simp [checkTime_ne_accept ends]
            | none =>
                by_cases all : ∀ tx ∈ element.transactions, transactionAllowed tx
                · have none : (element.transactions.any fun tx => !transactionAllowed tx) = false := by simpa using all
                  simp only [none, Bool.false_eq_true, if_false, ih, iff_true_intro all, true_and]
                · have some : (element.transactions.any fun tx => !transactionAllowed tx) = true := by simpa using all
                  simp [some, all]

theorem findParent_ok_iff (cfg : SoonRollupConfig) (l2SafeHead : L2BlockInfo) (first : SpanBatchElement) (fetcher : F)
    (parentBlock : L2BlockInfo) :
    (findParent cfg l2SafeHead first fetcher).2 = some (.ok parentBlock) ↔
      BuildsOn cfg l2SafeHead first fetcher parentBlock := by
  unfold findParent BuildsOn
  by_cases overlaps : first.timestamp < l2SafeHead.blockInfo.timestamp + cfg.blockTime
  · simp only [overlaps, if_true, UInt64.not_le.mpr overlaps, false_and, false_or, true_and]
    by_cases between : l2SafeHead.blockInfo.timestamp < first.timestamp
    · simp [between, UInt64.not_le.mpr between]
    · simp only [between, if_false, UInt64.not_lt.mp between, true_and]
      by_cases zero : cfg.blockTime = 0
      · simp [zero]
      · simp only [zero, if_false, not_false_eq_true, ne_eq, true_and]
        by_cases aligned : (l2SafeHead.blockInfo.timestamp - first.timestamp) % cfg.blockTime = 0
        · simp only [aligned, not_true_eq_false, if_false, true_and]
          generalize L2ChainProvider.l2BlockInfoByNumber fetcher _ = fetched
          obtain ⟨fetcher, _ | block⟩ := fetched
          · simp
          · simp
        · simp [aligned]
  · simp [overlaps, UInt64.not_lt.mp overlaps, eq_comm]

theorem findParent_ne_accept (cfg : SoonRollupConfig) (l2SafeHead : L2BlockInfo) (first : SpanBatchElement)
    (fetcher : F) : (findParent cfg l2SafeHead first fetcher).2 ≠ some (.error .accept) := by
  simp only [findParent]
  repeat' split
  all_goals simp

theorem checkOnParent_accept_iff (batch : SpanBatch) (cfg : SoonRollupConfig) (l1Origins : List BlockInfo)
    (inclusionBlock : BlockInfo) (first last : SpanBatchElement) (parentBlock : L2BlockInfo)
    (found : Option L2BlockInfo) :
    batch.checkOnParent cfg l1Origins inclusionBlock first last parentBlock = (.accept, found) ↔
      found = some parentBlock ∧ batch.FollowsParent cfg l1Origins inclusionBlock first last parentBlock := by
  constructor
  · intro accepts
    unfold checkOnParent at accepts
    split at accepts
    · cases accepts
    · rename_i parent
      split at accepts
      · cases accepts
      · rename_i late
        split at accepts
        · cases accepts
        · rename_i ahead
          split at accepts
          · cases accepts
          · rename_i block finds
            split at accepts
            · cases accepts
            · rename_i origin
              split at accepts
              · cases accepts
              · rename_i old
                cases accepts
                exact ⟨rfl, not_not.mp parent, UInt64.not_lt.mp late, UInt64.not_lt.mp ahead,
                  ⟨block, finds, not_not.mp origin⟩, UInt64.not_lt.mp old⟩
  · rintro ⟨rfl, parent, inWindow, notAhead, ⟨block, finds, origin⟩, notOld⟩
    simp [checkOnParent, parent, UInt64.not_lt.mpr inWindow, UInt64.not_lt.mpr notAhead, finds, origin,
      UInt64.not_lt.mpr notOld]

theorem checkBatchPrefix_accept_iff (batch : SpanBatch) (cfg : SoonRollupConfig) (l1Origins : List BlockInfo)
    (l2SafeHead : L2BlockInfo) (inclusionBlock : BlockInfo) (fetcher : F) (found : Option L2BlockInfo) :
    (batch.checkBatchPrefix cfg l1Origins l2SafeHead inclusionBlock fetcher).2 = some (.accept, found) ↔
      ∃ first parentBlock, found = some parentBlock ∧
        batch.PrefixMeetsRules cfg l1Origins l2SafeHead inclusionBlock fetcher first parentBlock := by
  cases l1Origins with
  | nil => simp [checkBatchPrefix, PrefixMeetsRules]
  | cons epoch later =>
      cases batches : batch.batches with
      | nil => simp [checkBatchPrefix, PrefixMeetsRules, batches]
      | cons first rest =>
          -- The list of blocks and the elements are known here, so that only the parent is quantified.
          have rules : (∃ first parentBlock, found = some parentBlock ∧
              batch.PrefixMeetsRules cfg (epoch :: later) l2SafeHead inclusionBlock fetcher first parentBlock) ↔
              ¬ (first.epochNum = epoch.number + 1 ∧ later = []) ∧
              first.timestamp ≤ l2SafeHead.blockInfo.timestamp + cfg.blockTime ∧
              l2SafeHead.blockInfo.timestamp + cfg.blockTime ≤ (rest.getLast?.getD first).timestamp ∧
              ∃ parentBlock, BuildsOn cfg l2SafeHead first fetcher parentBlock ∧ found = some parentBlock ∧
                batch.FollowsParent cfg (epoch :: later) inclusionBlock first (rest.getLast?.getD first) parentBlock := by
            simp only [PrefixMeetsRules, batches, List.cons.injEq]
            constructor
            · rintro ⟨_, parentBlock, same, _, _, _, ⟨rfl, rfl⟩, ⟨rfl, rfl⟩, known, next, new, builds, follows⟩
              exact ⟨known, next, new, parentBlock, builds, same, follows⟩
            · rintro ⟨known, next, new, parentBlock, builds, same, follows⟩
              exact ⟨_, parentBlock, same, _, _, _, ⟨rfl, rfl⟩, ⟨rfl, rfl⟩, known, next, new, builds, follows⟩
          rw [rules]
          simp only [checkBatchPrefix, batches, ← findParent_ok_iff, ← checkOnParent_accept_iff]
          by_cases eager : first.epochNum = epoch.number + 1 ∧ later = []
          · simp [eager]
          · by_cases future : l2SafeHead.blockInfo.timestamp + cfg.blockTime < first.timestamp
            · simp [eager, future, UInt64.not_le.mpr future]
            · by_cases past : (rest.getLast?.getD first).timestamp < l2SafeHead.blockInfo.timestamp + cfg.blockTime
              · simp [eager, future, past, UInt64.not_le.mpr past]
              · simp only [eager, future, past, if_false, not_false_eq_true, UInt64.not_lt.mp future,
                  UInt64.not_lt.mp past, true_and]
                have refused := findParent_ne_accept cfg l2SafeHead first fetcher
                generalize findParent cfg l2SafeHead first fetcher = parent at refused
                obtain ⟨fetcher, _ | validity | parentBlock⟩ := parent
                · simp
                · have refuses : validity ≠ .accept := by
                    rintro rfl
                    exact refused rfl
                  simp [refuses]
                · simp

theorem checkBatch_accept_iff (batch : SpanBatch) (cfg : SoonRollupConfig) (l1Blocks : List BlockInfo)
    (l2SafeHead : L2BlockInfo) (inclusionBlock : BlockInfo) (fetcher : F) :
    (batch.checkBatch cfg l1Blocks l2SafeHead inclusionBlock fetcher).2 = some .accept ↔
      batch.MeetsRules cfg l1Blocks l2SafeHead inclusionBlock fetcher := by
  have accepts := batch.checkBatchPrefix_accept_iff cfg l1Blocks l2SafeHead inclusionBlock fetcher
  unfold checkBatch MeetsRules
  generalize batch.checkBatchPrefix cfg l1Blocks l2SafeHead inclusionBlock fetcher = checked at accepts
  constructor
  · intro accept
    obtain ⟨fetcher', _ | ⟨verdict, found⟩⟩ := checked
    · cases accept
    · cases verdict with
      | accept =>
          obtain ⟨first, parentBlock, rfl, rules⟩ := (accepts found).mp rfl
          obtain ⟨epoch, later, rest, -, batches, -⟩ := id rules
          simp only [batches, checkElements_accept_iff] at accept
          exact ⟨first, parentBlock, rules, batches ▸ accept⟩
      | drop => cases accept
      | undecided => cases accept
      | future => cases accept
      | past => cases accept
  · rintro ⟨first, parentBlock, rules, elements⟩
    obtain ⟨epoch, later, rest, -, batches, -⟩ := id rules
    have accept := (accepts (some parentBlock)).mpr ⟨first, parentBlock, rfl, rules⟩
    obtain ⟨fetcher', found⟩ := checked
    cases accept
    rw [batches] at elements
    simp only [batches, checkElements_accept_iff]
    exact elements

end SpanBatch

def BatchWithInclusionBlock.MeetsRules {F : Type} [L2ChainProvider F] (data : BatchWithInclusionBlock)
    (cfg : SoonRollupConfig) (l1Blocks : List BlockInfo) (l2SafeHead : L2BlockInfo) (fetcher : F) : Prop :=
  match data.batch with
  | .single batch => batch.MeetsRules cfg l1Blocks l2SafeHead data.inclusionBlock
  | .span batch => batch.MeetsRules cfg l1Blocks l2SafeHead data.inclusionBlock fetcher

theorem BatchWithInclusionBlock.checkBatch_accept_iff {F : Type} [L2ChainProvider F] (data : BatchWithInclusionBlock)
    (cfg : SoonRollupConfig) (l1Blocks : List BlockInfo) (l2SafeHead : L2BlockInfo) (fetcher : F) :
    (data.checkBatch cfg l1Blocks l2SafeHead fetcher).2 = some .accept ↔
      data.MeetsRules cfg l1Blocks l2SafeHead fetcher := by
  obtain ⟨inclusionBlock, batch | batch⟩ := data
  · exact (Option.some.injEq _ _).to_iff.trans (SingleBatch.checkBatch_accept_iff ..)
  · exact SpanBatch.checkBatch_accept_iff ..

end KonaSoon.Derive
