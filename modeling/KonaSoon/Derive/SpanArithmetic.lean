import KonaSoon.Derive.Expansion
import KonaSoon.Derive.Selection

namespace KonaSoon.Derive
open Lib Mpt

theorem checkedAdd_of_fits {a b : UInt64} (fits : a.toNat + b.toNat < 2 ^ 64) : checkedAdd a b = some (a + b) := if_pos fits

theorem checkedAdd_of_overflow {a b : UInt64} (overflows : ¬ a.toNat + b.toNat < 2 ^ 64) : checkedAdd a b = none :=
  if_neg overflows

namespace SpanBatch

variable {F : Type} [L2ChainProvider F]

/-! ## The check that stops -/

/-- `findParent`, stopping where the parent would have a number below zero. -/
def findParentChecked (cfg : SoonRollupConfig) (nextTimestamp : UInt64) (l2SafeHead : L2BlockInfo)
    (first : SpanBatchElement) (fetcher : F) : F × Option (Except BatchValidity L2BlockInfo) :=
  if first.timestamp < nextTimestamp then
    if l2SafeHead.blockInfo.timestamp < first.timestamp then (fetcher, some (.error .drop))
    else if cfg.blockTime = 0 then (fetcher, none)
    else if (l2SafeHead.blockInfo.timestamp - first.timestamp) % cfg.blockTime ≠ 0 then (fetcher, some (.error .drop))
    else match (checkedSub l2SafeHead.blockInfo.number
        ((l2SafeHead.blockInfo.timestamp - first.timestamp) / cfg.blockTime)).bind (checkedSub · 1) with
      | none => (fetcher, none)
      | some parentNum =>
          match L2ChainProvider.l2BlockInfoByNumber fetcher parentNum with
          | (fetcher, .ok block) => (fetcher, some (.ok block))
          | (fetcher, .error _) => (fetcher, some (.error .undecided))
  else (fetcher, some (.ok l2SafeHead))

def checkOnParentChecked (batch : SpanBatch) (cfg : SoonRollupConfig) (l1Origins : List BlockInfo)
    (inclusionBlock : BlockInfo) (first last : SpanBatchElement) (parentBlock : L2BlockInfo) :
    Option (BatchValidity × Option L2BlockInfo) :=
  if ¬ batch.checkParentHash parentBlock.blockInfo.hash then some (.drop, none)
  else match checkedAdd first.epochNum cfg.seqWindowSize with
    | none => none
    | some windowEnd =>
        if windowEnd < inclusionBlock.number then some (.drop, none)
        else match checkedAdd parentBlock.l1Origin.number 1 with
          | none => none
          | some nextEpoch =>
              if nextEpoch < first.epochNum then some (.drop, none)
              else match l1Origins.find? fun block => block.number = last.epochNum with
                | none => some (.undecided, none)
                | some block =>
                    if ¬ batch.checkOriginHash block.hash then some (.drop, none)
                    else if first.epochNum < parentBlock.l1Origin.number then some (.drop, none)
                    else some (.accept, some parentBlock)

def checkBatchPrefixChecked (batch : SpanBatch) (cfg : SoonRollupConfig) (l1Origins : List BlockInfo)
    (l2SafeHead : L2BlockInfo) (inclusionBlock : BlockInfo) (fetcher : F) :
    F × Option (BatchValidity × Option L2BlockInfo) :=
  match l1Origins, batch.batches with
  | [], _ => (fetcher, some (.undecided, none))
  | _ :: _, [] => (fetcher, some (.undecided, none))
  | epoch :: later, first :: rest =>
      let last := rest.getLast?.getD first
      match checkedAdd l2SafeHead.blockInfo.timestamp cfg.blockTime, checkedAdd epoch.number 1 with
      | some nextTimestamp, some nextEpoch =>
          if first.epochNum = nextEpoch ∧ later = [] then (fetcher, some (.undecided, none))
          else if nextTimestamp < first.timestamp then (fetcher, some (.drop, none))
          else if last.timestamp < nextTimestamp then (fetcher, some (.past, none))
          else match findParentChecked cfg nextTimestamp l2SafeHead first fetcher with
            | (fetcher, none) => (fetcher, none)
            | (fetcher, some (.error validity)) => (fetcher, some (validity, none))
            | (fetcher, some (.ok parentBlock)) =>
                (fetcher, batch.checkOnParentChecked cfg (epoch :: later) inclusionBlock first last parentBlock)
      | _, _ => (fetcher, none)

def checkTimeChecked (cfg : SoonRollupConfig) (nextOrigin : Option BlockInfo) (l1Origin : BlockInfo)
    (originAdvanced : Bool) (element : SpanBatchElement) : Option (Option BatchValidity) :=
  if element.timestamp < l1Origin.timestamp then some (some .drop)
  else match checkedAdd l1Origin.timestamp cfg.maxSequencerDrift with
    | none => none
    | some max =>
        if max < element.timestamp then
          if element.transactions = [] then
            if originAdvanced then some none
            else match nextOrigin with
              | none => some (some .undecided)
              | some next => if next.timestamp ≤ element.timestamp then some (some .drop) else some none
          else some (some .drop)
        else some none

def checkElementsChecked (cfg : SoonRollupConfig) (l1Blocks : List BlockInfo) (safeTimestamp : UInt64) :
    Nat → Bool → Option SpanBatchElement → List SpanBatchElement → Option BatchValidity
  | _, _, _, [] => some .accept
  | originIndex, originAdvanced, previous, element :: rest =>
      if element.timestamp ≤ safeTimestamp then
        checkElementsChecked cfg l1Blocks safeTimestamp originIndex originAdvanced (some element) rest
      else
        let originIndex := findOrigin l1Blocks originIndex element.epochNum
        match l1Blocks[originIndex]? with
        | none => none
        | some l1Origin =>
            let originAdvanced := advances originAdvanced previous element
            match checkTimeChecked cfg l1Blocks[originIndex + 1]? l1Origin originAdvanced element with
            | none => none
            | some (some verdict) => some verdict
            | some none =>
                if element.transactions.any fun tx => !transactionAllowed tx then some .drop
                else checkElementsChecked cfg l1Blocks safeTimestamp originIndex originAdvanced (some element) rest

def checkBatchChecked (batch : SpanBatch) (cfg : SoonRollupConfig) (l1Blocks : List BlockInfo) (l2SafeHead : L2BlockInfo)
    (inclusionBlock : BlockInfo) (fetcher : F) : F × Option BatchValidity :=
  match batch.checkBatchPrefixChecked cfg l1Blocks l2SafeHead inclusionBlock fetcher with
  | (fetcher, none) => (fetcher, none)
  | (fetcher, some (.accept, parentBlock)) =>
      match parentBlock, batch.batches with
      | some parentBlock, first :: _ =>
          match checkedAdd parentBlock.l1Origin.number 1 with
          | none => (fetcher, none)
          | some nextEpoch => (fetcher, checkElementsChecked cfg l1Blocks l2SafeHead.blockInfo.timestamp 0
              (first.epochNum = nextEpoch) none batch.batches)
      | _, _ => (fetcher, none)
  | (fetcher, some (verdict, _)) => (fetcher, some verdict)

/-! ## The parent -/

def Overlaps (cfg : SoonRollupConfig) (l2SafeHead : L2BlockInfo) (first : SpanBatchElement) : Prop :=
  first.timestamp < l2SafeHead.blockInfo.timestamp + cfg.blockTime ∧ first.timestamp ≤ l2SafeHead.blockInfo.timestamp ∧
    (l2SafeHead.blockInfo.timestamp - first.timestamp) % cfg.blockTime = 0

def ParentFits (cfg : SoonRollupConfig) (l2SafeHead : L2BlockInfo) (first : SpanBatchElement) : Prop :=
  Overlaps cfg l2SafeHead first →
    (l2SafeHead.blockInfo.timestamp - first.timestamp) / cfg.blockTime < l2SafeHead.blockInfo.number

theorem checkedSub_parent (number back : UInt64) :
    (checkedSub number back).bind (checkedSub · 1) = if back < number then some (number - back - 1) else none := by
  by_cases enough : back ≤ number
  · rw [checkedSub, if_pos enough, Option.bind_some, checkedSub]
    have same : 1 ≤ number - back ↔ back < number := by
      rw [UInt64.le_iff_toNat_le, UInt64.lt_iff_toNat_lt, UInt64.toNat_sub_of_le _ _ enough, UInt64.toNat_one]
      omega
    by_cases fewer : back < number
    · rw [if_pos fewer, if_pos (same.mpr fewer)]
    · rw [if_neg fewer, if_neg (mt same.mp fewer)]
  · have fewer : ¬ back < number := fun less => enough (UInt64.le_of_lt less)
    rw [checkedSub, if_neg enough, Option.bind_none, if_neg fewer]

theorem findParentChecked_of_fits {cfg : SoonRollupConfig} {l2SafeHead : L2BlockInfo} {first : SpanBatchElement}
    (fetcher : F) (fits : ParentFits cfg l2SafeHead first) :
    findParentChecked cfg (l2SafeHead.blockInfo.timestamp + cfg.blockTime) l2SafeHead first fetcher =
      findParent cfg l2SafeHead first fetcher := by
  unfold findParentChecked findParent
  by_cases overlaps : first.timestamp < l2SafeHead.blockInfo.timestamp + cfg.blockTime
  · rw [if_pos overlaps, if_pos overlaps]
    by_cases between : l2SafeHead.blockInfo.timestamp < first.timestamp
    · rw [if_pos between, if_pos between]
    · rw [if_neg between, if_neg between]
      by_cases zero : cfg.blockTime = 0
      · rw [if_pos zero, if_pos zero]
      · rw [if_neg zero, if_neg zero]
        by_cases aligned : (l2SafeHead.blockInfo.timestamp - first.timestamp) % cfg.blockTime ≠ 0
        · rw [if_pos aligned, if_pos aligned]
        · have found := checkedSub_parent l2SafeHead.blockInfo.number
            ((l2SafeHead.blockInfo.timestamp - first.timestamp) / cfg.blockTime)
          rw [if_pos (fits ⟨overlaps, UInt64.not_lt.mp between, not_not.mp aligned⟩)] at found
          rw [if_neg aligned, if_neg aligned]
          generalize (checkedSub l2SafeHead.blockInfo.number
            ((l2SafeHead.blockInfo.timestamp - first.timestamp) / cfg.blockTime)).bind (checkedSub · 1) = parentNum at found ⊢
          cases found
          rfl
  · rw [if_neg overlaps, if_neg overlaps]

theorem findParentChecked_of_not_fits {cfg : SoonRollupConfig} {l2SafeHead : L2BlockInfo} {first : SpanBatchElement}
    (fetcher : F) (underflows : ¬ ParentFits cfg l2SafeHead first) :
    (findParentChecked cfg (l2SafeHead.blockInfo.timestamp + cfg.blockTime) l2SafeHead first fetcher).2 = none := by
  simp only [ParentFits, Classical.not_imp] at underflows
  obtain ⟨⟨overlaps, notAfter, aligned⟩, beyond⟩ := underflows
  rw [findParentChecked, if_pos overlaps, if_neg (UInt64.not_lt.mpr notAfter)]
  by_cases zero : cfg.blockTime = 0
  · rw [if_pos zero]
  · rw [if_neg zero, if_neg (not_not.mpr aligned), checkedSub_parent, if_neg beyond]

def OnParentFits (batch : SpanBatch) (cfg : SoonRollupConfig) (inclusionBlock : BlockInfo) (first : SpanBatchElement)
    (parentBlock : L2BlockInfo) : Prop :=
  batch.checkParentHash parentBlock.blockInfo.hash →
    first.epochNum.toNat + cfg.seqWindowSize.toNat < 2 ^ 64 ∧
      (inclusionBlock.number ≤ first.epochNum + cfg.seqWindowSize → parentBlock.l1Origin.number.toNat + 1 < 2 ^ 64)

variable {batch : SpanBatch} {cfg : SoonRollupConfig} {l2SafeHead : L2BlockInfo} {inclusionBlock : BlockInfo}
  {first : SpanBatchElement}

theorem checkOnParentChecked_of_fits (l1Origins : List BlockInfo) (last : SpanBatchElement) {parentBlock : L2BlockInfo}
    (fits : OnParentFits batch cfg inclusionBlock first parentBlock) :
    batch.checkOnParentChecked cfg l1Origins inclusionBlock first last parentBlock =
      some (batch.checkOnParent cfg l1Origins inclusionBlock first last parentBlock) := by
  unfold checkOnParentChecked checkOnParent
  by_cases parent : ¬ batch.checkParentHash parentBlock.blockInfo.hash
  · rw [if_pos parent, if_pos parent]
  · obtain ⟨window, origin⟩ := fits (not_not.mp parent)
    rw [if_neg parent, if_neg parent, checkedAdd_of_fits window]
    dsimp only
    by_cases late : first.epochNum + cfg.seqWindowSize < inclusionBlock.number
    · rw [if_pos late, if_pos late]
    · rw [if_neg late, if_neg late, checkedAdd_of_fits (origin (UInt64.not_lt.mp late))]
      dsimp only
      by_cases ahead : parentBlock.l1Origin.number + 1 < first.epochNum
      · rw [if_pos ahead, if_pos ahead]
      · rw [if_neg ahead, if_neg ahead]
        cases l1Origins.find? fun block => block.number = last.epochNum with
        | none => rfl
        | some block =>
            dsimp only
            split
            · rfl
            · split
              · rfl
              · rfl

theorem checkOnParentChecked_of_not_fits (l1Origins : List BlockInfo) (last : SpanBatchElement) {parentBlock : L2BlockInfo}
    (overflows : ¬ OnParentFits batch cfg inclusionBlock first parentBlock) :
    batch.checkOnParentChecked cfg l1Origins inclusionBlock first last parentBlock = none := by
  simp only [OnParentFits, Classical.not_imp, not_and] at overflows
  obtain ⟨parent, sums⟩ := overflows
  rw [checkOnParentChecked, if_neg (not_not.mpr parent)]
  by_cases window : first.epochNum.toNat + cfg.seqWindowSize.toNat < 2 ^ 64
  · obtain ⟨inWindow, origin⟩ := sums window
    rw [checkedAdd_of_fits window]
    dsimp only
    rw [if_neg (UInt64.not_lt.mpr inWindow), checkedAdd_of_overflow origin]
  · rw [checkedAdd_of_overflow window]

/-! ## The prefix -/

def Undecided (cfg : SoonRollupConfig) (epoch : BlockInfo) (later : List BlockInfo) (l2SafeHead : L2BlockInfo)
    (first last : SpanBatchElement) : Prop :=
  ¬ (first.epochNum = epoch.number + 1 ∧ later = []) ∧
    first.timestamp ≤ l2SafeHead.blockInfo.timestamp + cfg.blockTime ∧
    l2SafeHead.blockInfo.timestamp + cfg.blockTime ≤ last.timestamp

structure PrefixFits (batch : SpanBatch) (cfg : SoonRollupConfig) (epoch : BlockInfo) (later : List BlockInfo)
    (l2SafeHead : L2BlockInfo) (inclusionBlock : BlockInfo) (fetcher : F) (first last : SpanBatchElement) : Prop where
  nextTimestamp : l2SafeHead.blockInfo.timestamp.toNat + cfg.blockTime.toNat < 2 ^ 64
  nextEpoch : epoch.number.toNat + 1 < 2 ^ 64
  parent : Undecided cfg epoch later l2SafeHead first last → ParentFits cfg l2SafeHead first
  onParent : ∀ parentBlock, Undecided cfg epoch later l2SafeHead first last →
    BuildsOn cfg l2SafeHead first fetcher parentBlock → OnParentFits batch cfg inclusionBlock first parentBlock

theorem checkBatchPrefixChecked_of_fits {epoch : BlockInfo} {later : List BlockInfo} {rest : List SpanBatchElement}
    {fetcher : F} (batches : batch.batches = first :: rest)
    (fits : PrefixFits batch cfg epoch later l2SafeHead inclusionBlock fetcher first (rest.getLast?.getD first)) :
    batch.checkBatchPrefixChecked cfg (epoch :: later) l2SafeHead inclusionBlock fetcher =
      batch.checkBatchPrefix cfg (epoch :: later) l2SafeHead inclusionBlock fetcher := by
  have one : epoch.number.toNat + (1 : UInt64).toNat < 2 ^ 64 := fits.nextEpoch
  unfold checkBatchPrefixChecked checkBatchPrefix
  simp only [batches, checkedAdd_of_fits fits.nextTimestamp, checkedAdd_of_fits one]
  by_cases eager : first.epochNum = epoch.number + 1 ∧ later = []
  · rw [if_pos eager, if_pos eager]
  · rw [if_neg eager, if_neg eager]
    by_cases future : l2SafeHead.blockInfo.timestamp + cfg.blockTime < first.timestamp
    · rw [if_pos future, if_pos future]
    · rw [if_neg future, if_neg future]
      by_cases past : (rest.getLast?.getD first).timestamp < l2SafeHead.blockInfo.timestamp + cfg.blockTime
      · rw [if_pos past, if_pos past]
      · have undecided : Undecided cfg epoch later l2SafeHead first (rest.getLast?.getD first) :=
          ⟨eager, UInt64.not_lt.mp future, UInt64.not_lt.mp past⟩
        rw [if_neg past, if_neg past, findParentChecked_of_fits fetcher (fits.parent undecided)]
        have builds := findParent_ok_iff cfg l2SafeHead first fetcher
        generalize findParent cfg l2SafeHead first fetcher = found at builds
        obtain ⟨fetcher', _ | validity | parentBlock⟩ := found
        · rfl
        · rfl
        · dsimp only
          rw [checkOnParentChecked_of_fits _ _ (fits.onParent parentBlock undecided ((builds parentBlock).mp rfl))]

theorem checkBatchPrefixChecked_of_not_fits {epoch : BlockInfo} {later : List BlockInfo} {rest : List SpanBatchElement}
    {fetcher : F} (batches : batch.batches = first :: rest)
    (overflows : ¬ PrefixFits batch cfg epoch later l2SafeHead inclusionBlock fetcher first (rest.getLast?.getD first)) :
    (batch.checkBatchPrefixChecked cfg (epoch :: later) l2SafeHead inclusionBlock fetcher).2 = none := by
  unfold checkBatchPrefixChecked
  simp only [batches]
  by_cases nextTimestamp : l2SafeHead.blockInfo.timestamp.toNat + cfg.blockTime.toNat < 2 ^ 64
  · rw [checkedAdd_of_fits nextTimestamp]
    by_cases nextEpoch : epoch.number.toNat + (1 : UInt64).toNat < 2 ^ 64
    · rw [checkedAdd_of_fits nextEpoch]
      dsimp only
      by_cases undecided : Undecided cfg epoch later l2SafeHead first (rest.getLast?.getD first)
      · rw [if_neg undecided.1, if_neg (UInt64.not_lt.mpr undecided.2.1), if_neg (UInt64.not_lt.mpr undecided.2.2)]
        by_cases parent : ParentFits cfg l2SafeHead first
        · rw [findParentChecked_of_fits fetcher parent]
          have builds := findParent_ok_iff cfg l2SafeHead first fetcher
          have onParent : ∃ parentBlock, BuildsOn cfg l2SafeHead first fetcher parentBlock ∧
              ¬ OnParentFits batch cfg inclusionBlock first parentBlock := by
            by_contra none
            simp only [not_exists, not_and, not_not] at none
            exact overflows ⟨nextTimestamp, nextEpoch, fun _ => parent, fun parentBlock _ => none parentBlock⟩
          obtain ⟨parentBlock, found, beyond⟩ := onParent
          have answer := (builds parentBlock).mpr found
          generalize findParent cfg l2SafeHead first fetcher = parent at answer
          obtain ⟨fetcher', _⟩ := parent
          cases answer
          dsimp only
          exact checkOnParentChecked_of_not_fits _ _ beyond
        · have stops := findParentChecked_of_not_fits fetcher parent
          generalize findParentChecked cfg _ l2SafeHead first fetcher = parent at stops
          obtain ⟨fetcher', _⟩ := parent
          cases stops
          rfl
      · exact absurd ⟨nextTimestamp, nextEpoch, fun reached => absurd reached undecided,
          fun _ reached => absurd reached undecided⟩ overflows
    · rw [checkedAdd_of_overflow nextEpoch]
  · rw [checkedAdd_of_overflow nextTimestamp]

/-! ## The elements -/

def DriftFits (cfg : SoonRollupConfig) (l1Origin : BlockInfo) (element : SpanBatchElement) : Prop :=
  l1Origin.timestamp ≤ element.timestamp → l1Origin.timestamp.toNat + cfg.maxSequencerDrift.toNat < 2 ^ 64

def ElementsFit (cfg : SoonRollupConfig) (l1Blocks : List BlockInfo) (safeTimestamp : UInt64) :
    Nat → Bool → Option SpanBatchElement → List SpanBatchElement → Prop
  | _, _, _, [] => True
  | originIndex, originAdvanced, previous, element :: rest =>
      if element.timestamp ≤ safeTimestamp then
        ElementsFit cfg l1Blocks safeTimestamp originIndex originAdvanced (some element) rest
      else
        let originIndex := findOrigin l1Blocks originIndex element.epochNum
        let originAdvanced := advances originAdvanced previous element
        ∀ l1Origin, l1Blocks[originIndex]? = some l1Origin → DriftFits cfg l1Origin element ∧
          (InTime cfg l1Blocks[originIndex + 1]? l1Origin originAdvanced element →
            (∀ tx ∈ element.transactions, transactionAllowed tx) →
              ElementsFit cfg l1Blocks safeTimestamp originIndex originAdvanced (some element) rest)

theorem checkTimeChecked_of_fits {l1Origin : BlockInfo} {element : SpanBatchElement} (nextOrigin : Option BlockInfo)
    (originAdvanced : Bool) (fits : DriftFits cfg l1Origin element) :
    checkTimeChecked cfg nextOrigin l1Origin originAdvanced element =
      some (checkTime cfg nextOrigin l1Origin originAdvanced element) := by
  unfold checkTimeChecked checkTime
  by_cases early : element.timestamp < l1Origin.timestamp
  · rw [if_pos early, if_pos early]
  · rw [if_neg early, if_neg early, checkedAdd_of_fits (fits (UInt64.not_lt.mp early))]
    dsimp only
    by_cases late : l1Origin.timestamp + cfg.maxSequencerDrift < element.timestamp
    · rw [if_pos late, if_pos late]
      split
      · split
        · rfl
        · cases nextOrigin with
          | none => rfl
          | some next =>
              dsimp only
              split
              · rfl
              · rfl
      · rfl
    · rw [if_neg late, if_neg late]

theorem checkTimeChecked_of_not_fits {l1Origin : BlockInfo} {element : SpanBatchElement} (nextOrigin : Option BlockInfo)
    (originAdvanced : Bool) (overflows : ¬ DriftFits cfg l1Origin element) :
    checkTimeChecked cfg nextOrigin l1Origin originAdvanced element = none := by
  simp only [DriftFits, Classical.not_imp] at overflows
  obtain ⟨notEarly, beyond⟩ := overflows
  unfold checkTimeChecked
  rw [if_neg (UInt64.not_lt.mpr notEarly), checkedAdd_of_overflow beyond]

theorem any_not_allowed_iff (element : SpanBatchElement) :
    (element.transactions.any fun tx => !transactionAllowed tx) = true ↔
      ¬ ∀ tx ∈ element.transactions, transactionAllowed tx := by
  simp

theorem checkElementsChecked_cases (l1Blocks : List BlockInfo) (safeTimestamp : UInt64) (originIndex : Nat)
    (originAdvanced : Bool) (previous : Option SpanBatchElement) (elements : List SpanBatchElement) :
    (ElementsFit cfg l1Blocks safeTimestamp originIndex originAdvanced previous elements →
      checkElementsChecked cfg l1Blocks safeTimestamp originIndex originAdvanced previous elements =
        checkElements cfg l1Blocks safeTimestamp originIndex originAdvanced previous elements) ∧
    (¬ ElementsFit cfg l1Blocks safeTimestamp originIndex originAdvanced previous elements →
      checkElementsChecked cfg l1Blocks safeTimestamp originIndex originAdvanced previous elements = none) := by
  induction elements generalizing originIndex originAdvanced previous with
  | nil => exact ⟨fun _ => rfl, fun beyond => absurd trivial beyond⟩
  | cons element rest ih =>
      rw [ElementsFit, checkElementsChecked, checkElements]
      by_cases old : element.timestamp ≤ safeTimestamp
      · rw [if_pos old, if_pos old, if_pos old]
        exact ih originIndex originAdvanced (some element)
      · rw [if_neg old, if_neg old, if_neg old]
        dsimp only
        generalize findOrigin l1Blocks originIndex element.epochNum = index
        generalize advances originAdvanced previous element = advanced
        cases l1Blocks[index]? with
        | none => exact ⟨fun _ => rfl, fun beyond => absurd (by simp) beyond⟩
        | some l1Origin =>
            have later := ih index advanced (some element)
            simp only [Option.some.injEq, forall_eq', ← checkTime_eq_none_iff]
            by_cases fits : DriftFits cfg l1Origin element
            · rw [checkTimeChecked_of_fits _ _ fits]
              cases checkTime cfg l1Blocks[index + 1]? l1Origin advanced element with
              | some verdict => exact ⟨fun _ => rfl, fun beyond => absurd ⟨fits, fun ends => by cases ends⟩ beyond⟩
              | none =>
                  by_cases allowed : ∀ tx ∈ element.transactions, transactionAllowed tx
                  · have all : ¬ (element.transactions.any fun tx => !transactionAllowed tx) = true :=
                      fun any => (any_not_allowed_iff element).mp any allowed
                    dsimp only
                    rw [if_neg all, if_neg all]
                    exact ⟨fun sums => later.1 (sums.2 rfl allowed),
                      fun beyond => later.2 fun sums => beyond ⟨fits, fun _ _ => sums⟩⟩
                  · have some : (element.transactions.any fun tx => !transactionAllowed tx) = true :=
                      (any_not_allowed_iff element).mpr allowed
                    dsimp only
                    rw [if_pos some, if_pos some]
                    exact ⟨fun _ => rfl, fun beyond => absurd ⟨fits, fun _ all => absurd all allowed⟩ beyond⟩
            · rw [checkTimeChecked_of_not_fits _ _ fits]
              exact ⟨fun sums => absurd sums.1 fits, fun _ => rfl⟩

/-! ## The whole check -/

structure ArithmeticFits (batch : SpanBatch) (cfg : SoonRollupConfig) (epoch : BlockInfo) (later : List BlockInfo)
    (l2SafeHead : L2BlockInfo) (inclusionBlock : BlockInfo) (fetcher : F) (first last : SpanBatchElement) : Prop where
  head : PrefixFits batch cfg epoch later l2SafeHead inclusionBlock fetcher first last
  elements : ∀ parentBlock, batch.PrefixMeetsRules cfg (epoch :: later) l2SafeHead inclusionBlock fetcher first parentBlock →
    ElementsFit cfg (epoch :: later) l2SafeHead.blockInfo.timestamp 0 (first.epochNum = parentBlock.l1Origin.number + 1)
      none batch.batches

/-- Both checks come to the verdict of the code without an overflow, an index out of range or a division by zero. -/
def Judges (batch : SpanBatch) (cfg : SoonRollupConfig) (l1Blocks : List BlockInfo) (l2SafeHead : L2BlockInfo)
    (inclusionBlock : BlockInfo) (fetcher : F) : Prop :=
  (∃ verdict, (batch.checkBatchPrefixChecked cfg l1Blocks l2SafeHead inclusionBlock fetcher).2 = some verdict ∧
    (batch.checkBatchPrefix cfg l1Blocks l2SafeHead inclusionBlock fetcher).2 = some verdict) ∧
  ∃ verdict, (batch.checkBatchChecked cfg l1Blocks l2SafeHead inclusionBlock fetcher).2 = some verdict ∧
    (batch.checkBatch cfg l1Blocks l2SafeHead inclusionBlock fetcher).2 = some verdict

theorem PrefixFits.nextEpoch_of_accept {epoch : BlockInfo} {later : List BlockInfo} {rest : List SpanBatchElement}
    {fetcher : F} {parentBlock : L2BlockInfo} (batches : batch.batches = first :: rest)
    (fits : PrefixFits batch cfg epoch later l2SafeHead inclusionBlock fetcher first (rest.getLast?.getD first))
    (rules : batch.PrefixMeetsRules cfg (epoch :: later) l2SafeHead inclusionBlock fetcher first parentBlock) :
    parentBlock.l1Origin.number.toNat + (1 : UInt64).toNat < 2 ^ 64 := by
  obtain ⟨epoch', later', rest', blocks, elements, known, notAfter, reaches, builds, follows⟩ := rules
  cases blocks
  rw [batches] at elements
  cases elements
  exact (fits.onParent parentBlock ⟨known, notAfter, reaches⟩ builds follows.parent).2 follows.inWindow

theorem checkBatchChecked_cases {epoch : BlockInfo} {later : List BlockInfo} {rest : List SpanBatchElement} {fetcher : F}
    (batches : batch.batches = first :: rest)
    (fits : PrefixFits batch cfg epoch later l2SafeHead inclusionBlock fetcher first (rest.getLast?.getD first)) :
    (ArithmeticFits batch cfg epoch later l2SafeHead inclusionBlock fetcher first (rest.getLast?.getD first) →
      batch.checkBatchChecked cfg (epoch :: later) l2SafeHead inclusionBlock fetcher =
        batch.checkBatch cfg (epoch :: later) l2SafeHead inclusionBlock fetcher) ∧
    (¬ ArithmeticFits batch cfg epoch later l2SafeHead inclusionBlock fetcher first (rest.getLast?.getD first) →
      (batch.checkBatchChecked cfg (epoch :: later) l2SafeHead inclusionBlock fetcher).2 = none) := by
  have accepts := batch.checkBatchPrefix_accept_iff cfg (epoch :: later) l2SafeHead inclusionBlock fetcher
  unfold checkBatchChecked checkBatch
  rw [checkBatchPrefixChecked_of_fits batches fits]
  -- The loop is not run unless the prefix is accepted, and then on one parent.
  have refused : (∀ found, (batch.checkBatchPrefix cfg (epoch :: later) l2SafeHead inclusionBlock fetcher).2 ≠
      some (.accept, found)) →
      ArithmeticFits batch cfg epoch later l2SafeHead inclusionBlock fetcher first (rest.getLast?.getD first) := by
    intro never
    exact ⟨fits, fun parentBlock rules => absurd ((accepts (some parentBlock)).mpr ⟨first, parentBlock, rfl, rules⟩)
      (never (some parentBlock))⟩
  generalize batch.checkBatchPrefix cfg (epoch :: later) l2SafeHead inclusionBlock fetcher = checked at accepts refused
  obtain ⟨fetcher', _ | ⟨verdict, found⟩⟩ := checked
  · exact ⟨fun _ => rfl, fun _ => rfl⟩
  · cases verdict with
    | accept =>
        obtain ⟨first', parentBlock, rfl, rules⟩ := (accepts found).mp rfl
        have same : first' = first := by
          obtain ⟨-, -, rest', -, elements, -⟩ := rules
          rw [batches] at elements
          cases elements
          rfl
        subst same
        have next := fits.nextEpoch_of_accept batches rules
        have loop := @checkElementsChecked_cases cfg (epoch :: later) l2SafeHead.blockInfo.timestamp 0
          (first'.epochNum = parentBlock.l1Origin.number + 1) none batch.batches
        rw [batches] at loop ⊢
        dsimp only
        rw [checkedAdd_of_fits next]
        constructor
        · intro arithmetic
          have elements := arithmetic.elements parentBlock rules
          rw [batches] at elements
          exact congrArg (Prod.mk fetcher') (loop.1 elements)
        · intro beyond
          refine loop.2 fun elements => beyond ⟨fits, fun parentBlock' rules' => ?_⟩
          have only := (accepts (some parentBlock')).mpr ⟨first', parentBlock', rfl, rules'⟩
          cases only
          rw [batches]
          exact elements
    | drop => exact ⟨fun _ => rfl, fun beyond => absurd (refused (by simp)) beyond⟩
    | undecided => exact ⟨fun _ => rfl, fun beyond => absurd (refused (by simp)) beyond⟩
    | future => exact ⟨fun _ => rfl, fun beyond => absurd (refused (by simp)) beyond⟩
    | past => exact ⟨fun _ => rfl, fun beyond => absurd (refused (by simp)) beyond⟩

/-- The check of a span computes in 64 bits what it means to if and only if its sums and differences fit. -/
theorem span_judged_iff (batch : SpanBatch) (cfg : SoonRollupConfig) (epoch : BlockInfo) (later : List BlockInfo)
    (l2SafeHead : L2BlockInfo) (inclusionBlock : BlockInfo) (fetcher : F) (first : SpanBatchElement)
    (rest : List SpanBatchElement) (batches : batch.batches = first :: rest) (positive : cfg.blockTime ≠ 0) :
    batch.Judges cfg (epoch :: later) l2SafeHead inclusionBlock fetcher ↔
      ArithmeticFits batch cfg epoch later l2SafeHead inclusionBlock fetcher first (rest.getLast?.getD first) := by
  by_cases fits : PrefixFits batch cfg epoch later l2SafeHead inclusionBlock fetcher first (rest.getLast?.getD first)
  · have whole := checkBatchChecked_cases batches fits
    constructor
    · rintro ⟨-, verdict, judged, -⟩
      by_contra beyond
      rw [whole.2 beyond] at judged
      cases judged
    · intro arithmetic
      have prefixReturns : (batch.checkBatchPrefix cfg (epoch :: later) l2SafeHead inclusionBlock fetcher).2 ≠ none :=
        fun fails => positive (checkBatchPrefix_eq_none fails)
      have returns : (batch.checkBatch cfg (epoch :: later) l2SafeHead inclusionBlock fetcher).2 ≠ none :=
        fun fails => positive (checkBatch_eq_none fails)
      obtain ⟨early, earlyOk⟩ := Option.ne_none_iff_exists'.mp prefixReturns
      obtain ⟨verdict, ok⟩ := Option.ne_none_iff_exists'.mp returns
      exact ⟨⟨early, by rw [checkBatchPrefixChecked_of_fits batches fits, earlyOk], earlyOk⟩,
        verdict, by rw [whole.1 arithmetic, ok], ok⟩
  · constructor
    · rintro ⟨⟨verdict, judged, -⟩, -⟩
      rw [checkBatchPrefixChecked_of_not_fits batches fits] at judged
      cases judged
    · intro arithmetic
      exact absurd arithmetic.head fits

def nextSpan : SpanBatch := ⟨noCheck, noCheck, [⟨8, 98, []⟩]⟩

theorem span_judged_nextSpan : nextSpan.Judges ⟨20, 10, 2⟩ [blockAt 8, blockAt 9] safeBlock (blockAt 9) NoBlocks.mk ∧
    ArithmeticFits nextSpan ⟨20, 10, 2⟩ (blockAt 8) [blockAt 9] safeBlock (blockAt 9) NoBlocks.mk ⟨8, 98, []⟩
      ⟨8, 98, []⟩ := by
  have judged : nextSpan.Judges ⟨20, 10, 2⟩ [blockAt 8, blockAt 9] safeBlock (blockAt 9) NoBlocks.mk :=
    ⟨⟨(.accept, some safeBlock), by decide +kernel, by decide +kernel⟩, .accept, by decide +kernel, by decide +kernel⟩
  exact ⟨judged, (span_judged_iff nextSpan ⟨20, 10, 2⟩ (blockAt 8) [blockAt 9] safeBlock (blockAt 9) NoBlocks.mk
    ⟨8, 98, []⟩ [] rfl (by decide)).mp judged⟩

def earlyHead : L2BlockInfo := ⟨⟨bigEndian 32 1, 1, bigEndian 32 0, 96⟩, (blockAt 8).id, 0⟩

def deepSpan : SpanBatch := ⟨noCheck, noCheck, [⟨8, 90, []⟩, ⟨8, 92, []⟩, ⟨8, 94, []⟩, ⟨8, 96, []⟩, ⟨8, 98, []⟩]⟩

/-- The parent of a span that goes back further than the chain is looked for under a number that wrapped. -/
theorem deepSpan_not_judged : Consecutive [blockAt 8, blockAt 9] ∧
    (deepSpan.checkBatchPrefixChecked ⟨20, 10, 2⟩ [blockAt 8, blockAt 9] earlyHead (blockAt 9) NoBlocks.mk).2 = none ∧
    earlyHead.blockInfo.number - (earlyHead.blockInfo.timestamp - 90) / 2 - 1 = 2 ^ 64 - 3 ∧
    ¬ deepSpan.Judges ⟨20, 10, 2⟩ [blockAt 8, blockAt 9] earlyHead (blockAt 9) NoBlocks.mk := by
  have stops : (deepSpan.checkBatchPrefixChecked ⟨20, 10, 2⟩ [blockAt 8, blockAt 9] earlyHead (blockAt 9)
      NoBlocks.mk).2 = none := by
    decide +kernel
  refine ⟨by simp [Consecutive, blockAt], stops, by decide +kernel, ?_⟩
  rintro ⟨⟨verdict, judged, -⟩, -⟩
  rw [stops] at judged
  cases judged

end SpanBatch

end KonaSoon.Derive
