import KonaSoon.Derive.Expansion
import KonaSoon.Derive.SpanDerivation

namespace KonaSoon.Derive
open Lib Mpt

namespace SpanBatch

/-! ## Derived spans -/

def Succeeds (blockTime : UInt64) (element next : SpanBatchElement) : Prop :=
  next.timestamp = element.timestamp + blockTime ∧
    (next.epochNum = element.epochNum ∨ next.epochNum = element.epochNum + 1)

theorem derived_succeeds {codecs : Codecs} {overflowChecks : Bool} {raw : RawSpanBatch}
    {blockTime genesisTime chainId : UInt64} {batch : SpanBatch}
    (ok : raw.derive codecs overflowChecks blockTime genesisTime chainId = .ok batch) :
    batch.batches.IsChain (Succeeds blockTime) ∧ batch.batches.length < 2 ^ 64 := by
  obtain ⟨origins, envelopedTxs, up, -, made, -⟩ := RawSpanBatch.derive_eq_ok ok
  refine ⟨?_, by rw [made.blocks]; exact raw.payload.blockCount.toNat_lt⟩
  rw [List.isChain_iff_getElem]
  intro i inside
  have here := List.getElem?_eq_getElem (Nat.lt_of_succ_lt inside)
  have next := List.getElem?_eq_getElem inside
  have time := made.times i _ here
  have nextTime := made.times (i + 1) _ next
  have step := made.steps up here next
  constructor
  · have one : UInt64.ofNat (0 + (i + 1)) = UInt64.ofNat (0 + i) + 1 := by
      rw [← Nat.add_assoc, UInt64.ofNat_add]
      rfl
    rw [nextTime, time, one, UInt64.mul_add, UInt64.mul_one, UInt64.add_assoc (genesisTime + raw.head.relTimestamp)]
  · rw [step, RawSpanBatch.originStep]
    split
    · exact .inr rfl
    · exact .inl (UInt64.add_zero _)

/-! ## Times -/

def Later (blockTime : UInt64) (element next : SpanBatchElement) : Prop :=
  next.timestamp.toNat = element.timestamp.toNat + blockTime.toNat

variable {blockTime safeTimestamp : UInt64}

theorem later_of_succeeds {element next : SpanBatchElement} (succeeds : Succeeds blockTime element next)
    (fits : element.timestamp.toNat + blockTime.toNat < 2 ^ 64) : Later blockTime element next := by
  rw [Later, succeeds.1, UInt64.toNat_add, Nat.mod_eq_of_lt fits]

theorem isChain_later {first : SpanBatchElement} {rest : List SpanBatchElement}
    (chain : (first :: rest).IsChain (Succeeds blockTime))
    (fits : first.timestamp.toNat + blockTime.toNat * rest.length < 2 ^ 64) :
    (first :: rest).IsChain (Later blockTime) := by
  induction rest generalizing first with
  | nil => simp
  | cons second rest ih =>
      rw [List.isChain_cons_cons] at chain ⊢
      rw [List.length_cons, Nat.mul_succ] at fits
      have later := later_of_succeeds chain.1 (by omega)
      refine ⟨later, ih chain.2 ?_⟩
      rw [later]
      omega

theorem fits_of_later {first : SpanBatchElement} {rest : List SpanBatchElement}
    (chain : (first :: rest).IsChain (Later blockTime)) :
    first.timestamp.toNat + blockTime.toNat * rest.length < 2 ^ 64 := by
  induction rest generalizing first with
  | nil => simpa using first.timestamp.toNat_lt
  | cons second rest ih =>
      rw [List.isChain_cons_cons] at chain
      have later := ih chain.2
      rw [chain.1] at later
      rw [List.length_cons, Nat.mul_succ]
      omega

theorem newElements_of_later {first : SpanBatchElement} {rest : List SpanBatchElement}
    (chain : (first :: rest).IsChain (Later blockTime)) (new : safeTimestamp < first.timestamp) :
    newElements (first :: rest) safeTimestamp = first :: rest := by
  induction rest generalizing first with
  | nil => exact newElements_cons_new [] (UInt64.not_le.mpr new)
  | cons second rest ih =>
      rw [List.isChain_cons_cons] at chain
      rw [newElements_cons_new _ (UInt64.not_le.mpr new), ih chain.2 ?_]
      rw [UInt64.lt_iff_toNat_lt] at new ⊢
      have later : second.timestamp.toNat = first.timestamp.toNat + blockTime.toNat := chain.1
      omega

/-- A span whose times do not wrap, that starts a whole number of blocks before the block after the safe head and
reaches that block: its new elements are its end, and the first of them is that block. -/
theorem newElements_split {first : SpanBatchElement} {rest : List SpanBatchElement} (positive : 0 < blockTime.toNat)
    (chain : (first :: rest).IsChain (Later blockTime))
    (aligned : ∃ blocks, first.timestamp.toNat + blockTime.toNat * blocks = safeTimestamp.toNat + blockTime.toNat)
    (reaches : safeTimestamp.toNat + blockTime.toNat ≤ (rest.getLast?.getD first).timestamp.toNat) :
    ∃ old next later, first :: rest = old ++ next :: later ∧ (∀ element ∈ old, element.timestamp ≤ safeTimestamp) ∧
      newElements (first :: rest) safeTimestamp = next :: later ∧
      next.timestamp.toNat = safeTimestamp.toNat + blockTime.toNat := by
  obtain ⟨blocks, aligned⟩ := aligned
  induction rest generalizing first blocks with
  | nil =>
      have here : safeTimestamp.toNat + blockTime.toNat ≤ first.timestamp.toNat := reaches
      have same : first.timestamp.toNat = safeTimestamp.toNat + blockTime.toNat := by omega
      have new : safeTimestamp < first.timestamp := by
        rw [UInt64.lt_iff_toNat_lt]
        omega
      exact ⟨[], first, [], rfl, by simp, newElements_of_later chain new, same⟩
  | cons second rest ih =>
      by_cases old : first.timestamp ≤ safeTimestamp
      · have step : second.timestamp.toNat = first.timestamp.toNat + blockTime.toNat := (List.isChain_cons_cons.mp chain).1
        rw [getLast?_getD_cons] at reaches
        cases blocks with
        | zero =>
            rw [UInt64.le_iff_toNat_le] at old
            omega
        | succ blocks =>
            rw [Nat.mul_succ] at aligned
            obtain ⟨before, next, later, split, all, new, time⟩ :=
              ih (List.isChain_cons_cons.mp chain).2 reaches blocks (by omega)
            refine ⟨first :: before, next, later, by rw [split]; rfl, ?_, ?_, time⟩
            · intro element member
              rcases List.mem_cons.mp member with rfl | member
              · exact old
              · exact all element member
            · rw [newElements_cons_old _ old, new]
      · have new : safeTimestamp < first.timestamp := UInt64.not_le.mp old
        have after := UInt64.lt_iff_toNat_lt.mp new
        have none : blocks = 0 := by
          by_contra some
          have : blockTime.toNat * 1 ≤ blockTime.toNat * blocks := Nat.mul_le_mul_left _ (Nat.pos_of_ne_zero some)
          omega
        subst none
        exact ⟨[], first, second :: rest, rfl, by simp, newElements_of_later chain new, by omega⟩

/-! ## Epochs -/

def StepsUp (epoch next : UInt64) : Prop := next.toNat = epoch.toNat ∨ next.toNat = epoch.toNat + 1

theorem epochs_rise {first : SpanBatchElement} {rest : List SpanBatchElement}
    (chain : (first :: rest).IsChain (Succeeds blockTime)) :
    ∃ steps ≤ rest.length, (rest.getLast?.getD first).epochNum.toNat = (first.epochNum.toNat + steps) % 2 ^ 64 ∧
      (first.epochNum.toNat + steps < 2 ^ 64 → ((first :: rest).map (·.epochNum)).IsChain StepsUp) := by
  induction rest generalizing first with
  | nil =>
      refine ⟨0, Nat.le_refl 0, ?_, fun _ => by simp⟩
      rw [Nat.add_zero, Nat.mod_eq_of_lt first.epochNum.toNat_lt]
      rfl
  | cons second rest ih =>
      rw [List.isChain_cons_cons] at chain
      obtain ⟨steps, few, last, upwards⟩ := ih chain.2
      have bound := first.epochNum.toNat_lt
      have bound' := second.epochNum.toNat_lt
      rw [getLast?_getD_cons]
      simp only [List.map_cons, List.isChain_cons_cons, List.length_cons] at upwards ⊢
      rcases chain.1.2 with same | next
      · rw [same] at last upwards
        refine ⟨steps, by omega, last, fun fits => ⟨.inl (by rw [same]), ?_⟩⟩
        rw [same]
        exact upwards fits
      · have number : second.epochNum.toNat = (first.epochNum.toNat + 1) % 2 ^ 64 := by
          rw [next, UInt64.toNat_add]
          rfl
        refine ⟨steps + 1, by omega, ?_, ?_⟩
        · rw [last, number, Nat.mod_add_mod, Nat.add_assoc, Nat.add_comm 1]
        · intro fits
          rw [Nat.mod_eq_of_lt (by omega)] at number
          exact ⟨.inr number, upwards (by omega)⟩

theorem epochs_stepUp {first : SpanBatchElement} {rest : List SpanBatchElement} {number : UInt64}
    (chain : (first :: rest).IsChain (Succeeds blockTime)) (fewer : (first :: rest).length < 2 ^ 64)
    (starts : first.epochNum.toNat ≤ number.toNat + 1) (ends : number ≤ (rest.getLast?.getD first).epochNum) :
    ((first :: rest).map (·.epochNum)).IsChain StepsUp := by
  obtain ⟨steps, few, last, upwards⟩ := epochs_rise chain
  apply upwards
  by_contra wraps
  have bound := first.epochNum.toNat_lt
  rw [UInt64.le_iff_toNat_le, last] at ends
  rw [List.length_cons] at fewer
  omega

theorem StepsUp.le {epoch next : UInt64} (up : StepsUp epoch next) : epoch ≤ next := by
  rw [UInt64.le_iff_toNat_le]
  rcases up with same | next
  · omega
  · omega

theorem pairwise_of_stepUp {elements : List SpanBatchElement} (chain : (elements.map (·.epochNum)).IsChain StepsUp) :
    elements.Pairwise fun element later => element.epochNum ≤ later.epochNum := by
  have : IsTrans SpanBatchElement fun element later => element.epochNum ≤ later.epochNum := ⟨fun _ _ _ => UInt64.le_trans⟩
  rw [List.isChain_map] at chain
  exact (chain.imp fun _ _ up => up.le).pairwise

/-! ## Origins -/

theorem consecutive_number {epoch : BlockInfo} {later : List BlockInfo} (consecutive : Consecutive (epoch :: later)) (i : Nat) :
    ∀ block, (epoch :: later)[i]? = some block → block.number.toNat = epoch.number.toNat + i := by
  induction i with
  | zero =>
      intro block here
      cases here
      rfl
  | succ i ih =>
      intro block here
      have inside := (List.getElem?_eq_some_iff.mp here).1
      have before := ih _ (List.getElem?_eq_getElem (Nat.lt_of_succ_lt inside))
      have next := consecutive.getElem i inside
      rw [← (List.getElem?_eq_some_iff.mp here).2, next, before, Nat.add_assoc]

theorem exists_number {epoch last : BlockInfo} {later : List BlockInfo} (consecutive : Consecutive (epoch :: later))
    (member : last ∈ epoch :: later) {number : UInt64} (from_ : epoch.number ≤ number) (upTo : number ≤ last.number) :
    ∃ block ∈ epoch :: later, block.number = number := by
  obtain ⟨i, here⟩ := List.mem_iff_getElem?.mp member
  have inside := (List.getElem?_eq_some_iff.mp here).1
  have count := consecutive_number consecutive i last here
  rw [UInt64.le_iff_toNat_le] at from_ upTo
  have within : number.toNat - epoch.number.toNat < (epoch :: later).length := by omega
  refine ⟨_, List.getElem_mem within, ?_⟩
  rw [← UInt64.toNat_inj, consecutive_number consecutive _ _ (List.getElem?_eq_getElem within)]
  omega

theorem Consecutive.head_le {epoch block : BlockInfo} {later : List BlockInfo} (consecutive : Consecutive (epoch :: later))
    (member : block ∈ epoch :: later) : epoch.number ≤ block.number := by
  obtain ⟨i, here⟩ := List.mem_iff_getElem?.mp member
  rw [UInt64.le_iff_toNat_le, consecutive_number consecutive i block here]
  omega

/-! ## The check -/

variable {cfg : SoonRollupConfig} {l1Blocks : List BlockInfo}

theorem elementsMeetRules_of_old {old new : List SpanBatchElement} {originIndex : Nat} {originAdvanced : Bool}
    {previous : Option SpanBatchElement} (safe : ∀ element ∈ old, element.timestamp ≤ safeTimestamp)
    (rules : ElementsMeetRules cfg l1Blocks safeTimestamp originIndex originAdvanced previous (old ++ new)) :
    ∃ previous', ElementsMeetRules cfg l1Blocks safeTimestamp originIndex originAdvanced previous' new := by
  induction old generalizing previous with
  | nil => exact ⟨previous, rules⟩
  | cons element old ih =>
      rw [List.cons_append, ElementsMeetRules, if_pos (safe element List.mem_cons_self)] at rules
      exact ih (fun other member => safe other (List.mem_cons_of_mem element member)) rules

theorem findOrigin_finds {originIndex : Nat} {element : SpanBatchElement} {rest : List SpanBatchElement} {block : BlockInfo}
    (lags : Lags l1Blocks originIndex (element :: rest)) (member : block ∈ l1Blocks)
    (named : block.number = element.epochNum) :
    ∃ origin, l1Blocks[findOrigin l1Blocks originIndex element.epochNum]? = some origin ∧
      origin.number = element.epochNum := by
  have later : block ∈ l1Blocks.drop originIndex := by
    rw [← List.take_append_drop originIndex l1Blocks, List.mem_append] at member
    refine member.resolve_left fun before => ?_
    have := lags element List.mem_cons_self block before
    exact UInt64.lt_irrefl _ (named ▸ this)
  unfold findOrigin
  cases found : (l1Blocks.drop originIndex).findIdx? fun block => block.number = element.epochNum with
  | none =>
      rw [List.findIdx?_eq_none_iff] at found
      exact absurd named (by simpa using found block later)
  | some offset =>
      obtain ⟨inside, finds, -⟩ := List.findIdx?_eq_some_iff_getElem.mp found
      refine ⟨(l1Blocks.drop originIndex)[offset], ?_, of_decide_eq_true finds⟩
      dsimp only
      rw [← List.getElem?_drop, List.getElem?_eq_getElem inside]

def Checked (cfg : SoonRollupConfig) (l1Blocks : List BlockInfo) (element : SpanBatchElement) : Prop :=
  (∃ block ∈ l1Blocks, block.number = element.epochNum ∧ block.timestamp ≤ element.timestamp ∧
    (element.timestamp.toNat ≤ block.timestamp.toNat + cfg.maxSequencerDrift.toNat ∨ element.transactions = [])) ∧
  ∀ tx ∈ element.transactions, tx ≠ []

theorem elements_checked {elements : List SpanBatchElement} {originIndex : Nat} {originAdvanced : Bool}
    {previous : Option SpanBatchElement} (increasing : l1Blocks.Pairwise fun block later => block.number < later.number)
    (ordered : elements.Pairwise fun element later => element.epochNum ≤ later.epochNum)
    (lags : Lags l1Blocks originIndex elements)
    (known : ∀ element ∈ elements, ∃ block ∈ l1Blocks, block.number = element.epochNum)
    (new : ∀ element ∈ elements, safeTimestamp < element.timestamp)
    (rules : ElementsMeetRules cfg l1Blocks safeTimestamp originIndex originAdvanced previous elements) :
    ∀ element ∈ elements, Checked cfg l1Blocks element := by
  induction elements generalizing originIndex originAdvanced previous with
  | nil =>
      intro element member
      cases member
  | cons element rest ih =>
      rw [ElementsMeetRules, if_neg (UInt64.not_le.mpr (new element List.mem_cons_self))] at rules
      obtain ⟨⟨l1Origin, at_, early, late⟩, allowed, rules⟩ := rules
      obtain ⟨block, member, named⟩ := known element List.mem_cons_self
      obtain ⟨origin, finds, sameNumber⟩ := findOrigin_finds lags member named
      have same : origin = l1Origin := Option.some.inj (finds.symm.trans at_)
      subst same
      have after : Lags l1Blocks (findOrigin l1Blocks originIndex element.epochNum) rest :=
        @Lags.after l1Blocks 0 _ element rest origin increasing ordered finds sameNumber
      have others := ih (List.pairwise_cons.mp ordered).2 after
        (fun other inside => known other (List.mem_cons_of_mem element inside))
        (fun other inside => new other (List.mem_cons_of_mem element inside)) rules
      intro other inside
      rcases List.mem_cons.mp inside with rfl | inside
      · refine ⟨⟨origin, List.mem_of_getElem? finds, sameNumber, early, ?_⟩, ?_⟩
        · refine late.imp (fun inTime => ?_) And.left
          -- A sum that wraps is below the true one.
          rw [UInt64.le_iff_toNat_le, UInt64.toNat_add] at inTime
          exact inTime.trans (Nat.mod_le _ _)
        · intro tx mem empty
          have := allowed tx mem
          rw [transactionAllowed, empty] at this
          cases this
      · exact others other inside

/-! ## The expansion -/

def ExpandsTo (l1Blocks : List BlockInfo) (element : SpanBatchElement) (batch : SingleBatch) : Prop :=
  ∃ block ∈ l1Blocks, block.number = element.epochNum ∧
    batch = ⟨.ofNat 0, element.epochNum, block.hash, element.timestamp, element.transactions⟩

theorem singularBatches_of_old {old : List SpanBatchElement} (new : List SpanBatchElement) (originIndex : Nat)
    (safe : ∀ element ∈ old, element.timestamp ≤ safeTimestamp) :
    singularBatches l1Blocks safeTimestamp originIndex (old ++ new) =
      singularBatches l1Blocks safeTimestamp originIndex new := by
  induction old with
  | nil => rfl
  | cons element old ih =>
      rw [List.cons_append, singularBatches, if_pos (safe element List.mem_cons_self)]
      exact ih fun other member => safe other (List.mem_cons_of_mem element member)

theorem singularBatches_expandsTo {elements : List SpanBatchElement} {originIndex : Nat} {batches : List SingleBatch}
    (ok : singularBatches l1Blocks safeTimestamp originIndex elements = .ok batches) :
    List.Forall₂ (ExpandsTo l1Blocks) (newElements elements safeTimestamp) batches := by
  induction elements generalizing originIndex batches with
  | nil =>
      cases ok
      exact .nil
  | cons element rest ih =>
      rw [singularBatches] at ok
      by_cases old : element.timestamp ≤ safeTimestamp
      · rw [if_pos old] at ok
        rw [newElements_cons_old rest old]
        exact ih ok
      · rw [if_neg old] at ok
        rw [newElements_cons_new rest old]
        rcases find?_zipIdx_cases (l1Blocks.drop originIndex) element.epochNum with
          ⟨missing, -⟩ | ⟨origin, index, found, finds, -⟩
        · rw [missing] at ok
          cases ok
        · rw [found] at ok
          simp only [bind_eq_ok] at ok
          obtain ⟨later, ok, made⟩ := ok
          cases made
          have member := List.mem_of_mem_drop (List.mem_of_find?_eq_some finds)
          exact .cons ⟨origin, member, by simpa using List.find?_some finds, rfl⟩ (ih ok)

theorem map_eq_of_expandsTo {β : Type} {f : SpanBatchElement → β} {g : SingleBatch → β} {elements : List SpanBatchElement}
    {batches : List SingleBatch} (each : List.Forall₂ (ExpandsTo l1Blocks) elements batches)
    (same : ∀ element batch, ExpandsTo l1Blocks element batch → f element = g batch) : elements.map f = batches.map g := by
  induction each with
  | nil => rfl
  | cons here _ ih => rw [List.map_cons, List.map_cons, same _ _ here, ih]

theorem times_of_expandsTo {elements : List SpanBatchElement} {batches : List SingleBatch}
    (each : List.Forall₂ (ExpandsTo l1Blocks) elements batches) :
    elements.map (·.timestamp) = batches.map (·.timestamp) := by
  refine map_eq_of_expandsTo each ?_
  rintro element batch ⟨block, -, -, rfl⟩
  rfl

theorem epochs_of_expandsTo {elements : List SpanBatchElement} {batches : List SingleBatch}
    (each : List.Forall₂ (ExpandsTo l1Blocks) elements batches) :
    elements.map (·.epochNum) = batches.map (·.epochNum) := by
  refine map_eq_of_expandsTo each ?_
  rintro element batch ⟨block, -, -, rfl⟩
  rfl

structure Continues (cfg : SoonRollupConfig) (l1Blocks : List BlockInfo) (l2SafeHead : L2BlockInfo)
    (batches : List SingleBatch) : Prop where
  some : batches ≠ []
  origins : ∀ batch ∈ batches, ∃ block ∈ l1Blocks, batch.epoch = block.id ∧ block.timestamp ≤ batch.timestamp ∧
    (batch.timestamp.toNat ≤ block.timestamp.toNat + cfg.maxSequencerDrift.toNat ∨ batch.transactions = [])
  full : ∀ batch ∈ batches, ∀ tx ∈ batch.transactions, tx ≠ []
  times : (l2SafeHead.blockInfo.timestamp :: batches.map (·.timestamp)).IsChain
    fun time next => next.toNat = time.toNat + cfg.blockTime.toNat
  epochs : (l2SafeHead.l1Origin.number :: batches.map (·.epochNum)).IsChain StepsUp

def Expandable (batch : SpanBatch) (cfg : SoonRollupConfig) (l1Blocks : List BlockInfo) (l2SafeHead : L2BlockInfo) : Prop :=
  ∃ batches, (∀ logs, batch.getSingularBatchesLogged logs l1Blocks l2SafeHead = some (.ok batches)) ∧
    Continues cfg l1Blocks l2SafeHead batches

theorem exists_of_expandsTo {elements : List SpanBatchElement} {batches : List SingleBatch}
    (each : List.Forall₂ (ExpandsTo l1Blocks) elements batches) {batch : SingleBatch} (member : batch ∈ batches) :
    ∃ element ∈ elements, ExpandsTo l1Blocks element batch := by
  induction each with
  | nil => cases member
  | cons here _ ih =>
      rcases List.mem_cons.mp member with rfl | member
      · exact ⟨_, List.mem_cons_self, here⟩
      · obtain ⟨element, inside, expands⟩ := ih member
        exact ⟨element, List.mem_cons_of_mem _ inside, expands⟩

theorem continues_of_checked {l2SafeHead : L2BlockInfo} {next : SpanBatchElement} {newer : List SpanBatchElement}
    {batches : List SingleBatch} (consecutive : Consecutive l1Blocks)
    (each : List.Forall₂ (ExpandsTo l1Blocks) (next :: newer) batches)
    (checked : ∀ element ∈ next :: newer, Checked cfg l1Blocks element)
    (times : (next :: newer).IsChain (Later cfg.blockTime))
    (time : next.timestamp.toNat = l2SafeHead.blockInfo.timestamp.toNat + cfg.blockTime.toNat)
    (epochs : ((next :: newer).map (·.epochNum)).IsChain StepsUp)
    (near : StepsUp l2SafeHead.l1Origin.number next.epochNum) : Continues cfg l1Blocks l2SafeHead batches := by
  refine ⟨?_, ?_, ?_, ?_, ?_⟩
  · intro none
    subst none
    cases each
  · intro batch member
    obtain ⟨element, inside, block, known, named, rfl⟩ := exists_of_expandsTo each member
    obtain ⟨⟨block', known', named', early, late⟩, -⟩ := checked element inside
    have same : block' = block := consecutive.eq_of_number known' known (named'.trans named.symm)
    subst same
    exact ⟨block', known, by rw [SingleBatch.epoch, BlockInfo.id, named], early, late⟩
  · intro batch member
    obtain ⟨element, inside, block, -, -, rfl⟩ := exists_of_expandsTo each member
    exact (checked element inside).2
  · have mapped : ((next :: newer).map (·.timestamp)).IsChain
        fun time next => next.toNat = time.toNat + cfg.blockTime.toNat := (List.isChain_map _).mpr times
    rw [← times_of_expandsTo each, List.map_cons, List.isChain_cons_cons]
    exact ⟨time, mapped⟩
  · rw [← epochs_of_expandsTo each, List.map_cons, List.isChain_cons_cons]
    exact ⟨near, epochs⟩

/-- No time of the span is beyond 64 bits, and the first element after the safe head has the origin of the safe head
or the one after it, and none before the first of the L1 blocks. -/
structure Covered (batch : SpanBatch) (cfg : SoonRollupConfig) (l1Blocks : List BlockInfo) (l2SafeHead : L2BlockInfo) :
    Prop where
  next : l2SafeHead.blockInfo.timestamp.toNat + cfg.blockTime.toNat < 2 ^ 64
  last : ∀ first rest, batch.batches = first :: rest →
    first.timestamp.toNat + cfg.blockTime.toNat * rest.length < 2 ^ 64
  origin : ∀ element, (newElements batch.batches l2SafeHead.blockInfo.timestamp).head? = some element →
    (∀ epoch, l1Blocks.head? = some epoch → epoch.number ≤ element.epochNum) ∧
    StepsUp l2SafeHead.l1Origin.number element.epochNum

theorem BuildsOn.aligned {F : Type} [L2ChainProvider F] {fetcher : F} {l2SafeHead parentBlock : L2BlockInfo}
    {first : SpanBatchElement} (builds : BuildsOn cfg l2SafeHead first fetcher parentBlock)
    (fits : l2SafeHead.blockInfo.timestamp.toNat + cfg.blockTime.toNat < 2 ^ 64)
    (notAfter : first.timestamp ≤ l2SafeHead.blockInfo.timestamp + cfg.blockTime) :
    ∃ blocks, first.timestamp.toNat + cfg.blockTime.toNat * blocks =
      l2SafeHead.blockInfo.timestamp.toNat + cfg.blockTime.toNat := by
  have sum : (l2SafeHead.blockInfo.timestamp + cfg.blockTime).toNat =
      l2SafeHead.blockInfo.timestamp.toNat + cfg.blockTime.toNat := by
    rw [UInt64.toNat_add, Nat.mod_eq_of_lt fits]
  rcases builds with ⟨notBefore, -⟩ | ⟨-, overlaps, -, aligned, -⟩
  · refine ⟨0, ?_⟩
    rw [UInt64.le_iff_toNat_le, sum] at notAfter notBefore
    omega
  · refine ⟨(l2SafeHead.blockInfo.timestamp - first.timestamp).toNat / cfg.blockTime.toNat + 1, ?_⟩
    have zero := congrArg UInt64.toNat aligned
    rw [UInt64.toNat_mod, UInt64.toNat_zero] at zero
    have whole := Nat.div_add_mod (l2SafeHead.blockInfo.timestamp - first.timestamp).toNat cfg.blockTime.toNat
    rw [zero, UInt64.toNat_sub_of_le _ _ overlaps] at whole
    rw [UInt64.le_iff_toNat_le] at overlaps
    rw [Nat.mul_succ, UInt64.toNat_sub_of_le _ _ (UInt64.le_iff_toNat_le.mpr overlaps)]
    omega

theorem getLast?_append_cons {α : Type} {first next : α} {rest old later : List α}
    (split : first :: rest = old ++ next :: later) : rest.getLast?.getD first = later.getLast?.getD next := by
  have last : (first :: rest).getLast? = (old ++ next :: later).getLast? := congrArg List.getLast? split
  rw [List.getLast?_append, List.getLast?_cons, List.getLast?_cons] at last
  exact Option.some.inj last

def StartsAt (l1Blocks : List BlockInfo) (l2SafeHead : L2BlockInfo) : Prop :=
  ∃ epoch later, l1Blocks = epoch :: later ∧ StepsUp l2SafeHead.l1Origin.number epoch.number

variable {F : Type} [L2ChainProvider F] {fetcher : F} {batch : SpanBatch} {l2SafeHead : L2BlockInfo}
  {inclusionBlock : BlockInfo}

theorem Covered.expandable (derived : batch.batches.IsChain (Succeeds cfg.blockTime) ∧ batch.batches.length < 2 ^ 64)
    (positive : 0 < cfg.blockTime.toNat) (consecutive : Consecutive l1Blocks) (starts : StartsAt l1Blocks l2SafeHead)
    (rules : batch.MeetsRules cfg l1Blocks l2SafeHead inclusionBlock fetcher)
    (covered : batch.Covered cfg l1Blocks l2SafeHead) : batch.Expandable cfg l1Blocks l2SafeHead := by
  obtain ⟨epoch, later, rfl, start⟩ := starts
  obtain ⟨first, parentBlock, ⟨_, _, rest, -, batches, -, notAfter, reaches, builds, follows⟩, elements⟩ := rules
  obtain ⟨chain, fewer⟩ := derived
  rw [batches] at chain fewer elements
  obtain ⟨blocks, aligned⟩ := builds.aligned covered.next notAfter
  rw [UInt64.le_iff_toNat_le, UInt64.toNat_add, Nat.mod_eq_of_lt covered.next] at reaches
  obtain ⟨old, next, newer, split, safe, new, time⟩ := newElements_split positive
    (isChain_later chain (covered.last first rest batches)) ⟨blocks, aligned⟩ reaches
  obtain ⟨notBehind, near⟩ := covered.origin next (by rw [batches, new]; rfl)
  have times := isChain_later chain (covered.last first rest batches)
  have suffix : next :: newer <:+ first :: rest := ⟨old, split.symm⟩
  -- The last element is new, and its origin is in the list.
  obtain ⟨last, finds, -⟩ := follows.sameChain
  have member := List.mem_of_find?_eq_some finds
  have named : last.number = (newer.getLast?.getD next).epochNum := by
    rw [← getLast?_append_cons split]
    simpa using List.find?_some finds
  have epochs : ((next :: newer).map (·.epochNum)).IsChain StepsUp := by
    refine @epochs_stepUp cfg.blockTime next newer epoch.number (chain.suffix suffix)
      (Nat.lt_of_le_of_lt suffix.length_le fewer) ?_ ?_
    · rcases near with same | after <;> rcases start with same' | after' <;> omega
    · rw [← named]
      exact Consecutive.head_le consecutive member
  have ordered := pairwise_of_stepUp epochs
  have known : ∀ element ∈ next :: newer, ∃ block ∈ epoch :: later, block.number = element.epochNum := by
    intro element inside
    have upTo := le_last_of_ordered ordered element inside
    rw [← named] at upTo
    have from_ : next.epochNum ≤ element.epochNum := by
      rcases List.mem_cons.mp inside with rfl | inside
      · exact UInt64.le_refl _
      · exact (List.pairwise_cons.mp ordered).1 element inside
    exact exists_number consecutive member (UInt64.le_trans (notBehind epoch rfl) from_) upTo
  have lags : Lags (epoch :: later) 0 (next :: newer) := by
    intro element _ block before
    rw [List.take_zero] at before
    cases before
  have allNew : ∀ element ∈ next :: newer, l2SafeHead.blockInfo.timestamp < element.timestamp := by
    intro element inside
    rw [← new] at inside
    simpa [newElements] using (List.mem_filter.mp inside).2
  rw [split] at elements
  obtain ⟨previous, elements⟩ := elementsMeetRules_of_old safe elements
  have checked := elements_checked consecutive.pairwise ordered lags known allNew elements
  obtain ⟨singles, ok, each⟩ := (mapM_searchOrigin_expands (epoch :: later) (next :: newer)).found known
  have onlyNew : newElements (next :: newer) l2SafeHead.blockInfo.timestamp = next :: newer :=
    List.filter_eq_self.mpr fun element inside => decide_eq_true (allNew element inside)
  refine ⟨singles, ?_, continues_of_checked consecutive each checked (times.suffix suffix) time epochs near⟩
  intro logs
  have reads : ¬ (logs = true ∧ epoch :: later = []) := by simp
  have searched := @singularBatches_eq_mapM (epoch :: later) l2SafeHead.blockInfo.timestamp consecutive.pairwise
    (next :: newer) 0 ordered lags
  rw [onlyNew] at searched
  rw [getSingularBatchesLogged, singularBatchesLogged_eq_some 0 reads, batches, split,
    singularBatches_of_old (next :: newer) 0 safe, searched, ok]

theorem Continues.times_fit {batches : List SingleBatch} {first : SpanBatchElement} {rest : List SpanBatchElement}
    (chain : (first :: rest).IsChain (Succeeds cfg.blockTime))
    (fits : l2SafeHead.blockInfo.timestamp.toNat + cfg.blockTime.toNat < 2 ^ 64)
    (reaches : l2SafeHead.blockInfo.timestamp < (rest.getLast?.getD first).timestamp)
    (each : List.Forall₂ (ExpandsTo l1Blocks) (newElements (first :: rest) l2SafeHead.blockInfo.timestamp) batches)
    (continues : Continues cfg l1Blocks l2SafeHead batches) :
    first.timestamp.toNat + cfg.blockTime.toNat * rest.length < 2 ^ 64 := by
  have spaced : (first :: rest).Pairwise fun element later => l2SafeHead.blockInfo.timestamp < element.timestamp →
      l2SafeHead.blockInfo.timestamp < later.timestamp →
        element.timestamp.toNat + cfg.blockTime.toNat ≤ later.timestamp.toNat := by
    have : IsTrans SpanBatchElement fun element later =>
        element.timestamp.toNat + cfg.blockTime.toNat ≤ later.timestamp.toNat := ⟨fun _ _ _ before after => by omega⟩
    have times := continues.times.tail
    rw [List.tail_cons, ← times_of_expandsTo each, List.isChain_map] at times
    have pairwise := (times.imp fun _ _ next => Nat.le_of_eq next.symm).pairwise
    rw [newElements, List.pairwise_filter] at pairwise
    exact pairwise.imp fun after new new' => after (decide_eq_true new) (decide_eq_true new')
  apply fits_of_later
  rw [List.isChain_iff_getElem] at chain ⊢
  intro i inside
  apply later_of_succeeds (chain i inside)
  by_contra wraps
  have last : (first :: rest)[(first :: rest).length - 1] = rest.getLast?.getD first := by
    have := List.getLast?_cons (l := rest) (a := first)
    rw [List.getLast?_eq_getElem?, List.getElem?_eq_getElem (by simp)] at this
    exact Option.some.inj this
  have later := List.pairwise_iff_getElem.mp spaced i ((first :: rest).length - 1) (by omega) (by simp) (by omega)
  rw [last] at later
  have new : l2SafeHead.blockInfo.timestamp < (first :: rest)[i].timestamp := by
    rw [UInt64.lt_iff_toNat_lt]
    omega
  have := later new reaches
  have := (rest.getLast?.getD first).timestamp.toNat_lt
  omega

theorem Expandable.covered (derived : batch.batches.IsChain (Succeeds cfg.blockTime)) (positive : 0 < cfg.blockTime.toNat)
    (consecutive : Consecutive l1Blocks) (rules : batch.MeetsRules cfg l1Blocks l2SafeHead inclusionBlock fetcher)
    (expandable : batch.Expandable cfg l1Blocks l2SafeHead) : batch.Covered cfg l1Blocks l2SafeHead := by
  obtain ⟨singles, ok, continues⟩ := expandable
  obtain ⟨first, parentBlock, ⟨epoch, later, rest, rfl, batches, -, -, reaches, -⟩, -⟩ := rules
  have each : List.Forall₂ (ExpandsTo (epoch :: later))
      (newElements batch.batches l2SafeHead.blockInfo.timestamp) singles := by
    have expands := ok false
    rw [getSingularBatchesLogged, singularBatchesLogged_eq_some 0 (by simp)] at expands
    exact singularBatches_expandsTo (Option.some.inj expands)
  have times := continues.times
  have epochs := continues.epochs
  rw [← times_of_expandsTo each] at times
  rw [← epochs_of_expandsTo each] at epochs
  cases new : newElements batch.batches l2SafeHead.blockInfo.timestamp with
  | nil =>
      rw [new] at each
      cases each
      exact absurd rfl continues.some
  | cons next newer =>
      rw [new, List.map_cons, List.isChain_cons_cons] at times epochs
      have fits : l2SafeHead.blockInfo.timestamp.toNat + cfg.blockTime.toNat < 2 ^ 64 := by
        have := next.timestamp.toNat_lt
        omega
      refine ⟨fits, ?_, ?_⟩
      · intro first' rest' same
        rw [batches] at same derived each
        cases same
        refine continues.times_fit derived fits ?_ each
        rw [UInt64.le_iff_toNat_le, UInt64.toNat_add, Nat.mod_eq_of_lt fits] at reaches
        rw [UInt64.lt_iff_toNat_lt]
        omega
      · intro element head
        rw [new] at head each
        cases head
        refine ⟨?_, epochs.1⟩
        intro epoch' head
        cases head
        cases each with
        | cons here _ =>
            obtain ⟨block, member, named, -⟩ := here
            rw [← named]
            exact Consecutive.head_le consecutive member

/-- An accepted span can be expanded into batches that continue the safe chain if and only if its times fit and its
first new element does not leave the origins that are left to it. -/
theorem accepted_expandable_iff (codecs : Codecs) (overflowChecks : Bool) (raw : RawSpanBatch) (genesisTime chainId : UInt64)
    (batch : SpanBatch) (cfg : SoonRollupConfig) (l1Blocks : List BlockInfo) (l2SafeHead : L2BlockInfo)
    (inclusionBlock : BlockInfo) (fetcher : F) (positive : 0 < cfg.blockTime)
    (derived : raw.derive codecs overflowChecks cfg.blockTime genesisTime chainId = .ok batch)
    (consecutive : Consecutive l1Blocks) (starts : StartsAt l1Blocks l2SafeHead)
    (accepts : (batch.checkBatch cfg l1Blocks l2SafeHead inclusionBlock fetcher).2 = some .accept) :
    batch.Expandable cfg l1Blocks l2SafeHead ↔ batch.Covered cfg l1Blocks l2SafeHead := by
  have chain := derived_succeeds derived
  have rules := (batch.checkBatch_accept_iff cfg l1Blocks l2SafeHead inclusionBlock fetcher).mp accepts
  have time : 0 < cfg.blockTime.toNat := UInt64.lt_iff_toNat_lt.mp positive
  exact ⟨Expandable.covered chain.1 time consecutive rules, Covered.expandable chain time consecutive starts rules⟩

def fastBlock (number : UInt64) : BlockInfo :=
  ⟨bigEndian 32 number.toNat, number, bigEndian 32 (number.toNat - 1), 5 * number + 45⟩

def fastHead : L2BlockInfo := ⟨⟨bigEndian 32 40, 40, bigEndian 32 39, 96⟩, (fastBlock 8).id, 0⟩

structure OneBlock where

instance : L2ChainProvider OneBlock where
  l2BlockInfoByNumber fetcher number :=
    (fetcher, if number = fastHead.blockInfo.number then .ok fastHead else .error "block not found")

def emptyBlocks : RawSpanBatch :=
  ⟨⟨5, 9, ⟨List.replicate 20 0, length_zeroAddress⟩, ⟨List.replicate 20 0, length_zeroAddress⟩⟩, 2, ⟨[2]⟩, [0, 0], 0,
    ⟨[]⟩, [], [], [], [], [], ⟨[]⟩, [], 0⟩

def twoEpochs : SpanBatch := ⟨noCheck, noCheck, [⟨8, 98, []⟩, ⟨9, 100, []⟩]⟩

theorem twoEpochs_derived : emptyBlocks.derive BatchReader.sampleCodecs true 2 93 1 = .ok twoEpochs := by
  decide +kernel

theorem fastBlocks_consecutive (number : UInt64) (small : number.toNat + 1 < 2 ^ 64) :
    Consecutive [fastBlock number, fastBlock (number + 1)] := by
  simp only [Consecutive, List.isChain_cons_cons, List.isChain_singleton, and_true, fastBlock]
  rw [UInt64.toNat_add, UInt64.toNat_one, Nat.mod_eq_of_lt small]

theorem accepted_expandable_twoEpochs :
    (twoEpochs.checkBatch ⟨20, 10, 2⟩ [fastBlock 8, fastBlock 9] fastHead (fastBlock 10) OneBlock.mk).2 = some .accept ∧
      twoEpochs.Expandable ⟨20, 10, 2⟩ [fastBlock 8, fastBlock 9] fastHead := by
  have accepts : (twoEpochs.checkBatch ⟨20, 10, 2⟩ [fastBlock 8, fastBlock 9] fastHead (fastBlock 10) OneBlock.mk).2 =
      some .accept := by
    decide +kernel
  have covered : twoEpochs.Covered ⟨20, 10, 2⟩ [fastBlock 8, fastBlock 9] fastHead := by
    refine ⟨by decide +kernel, ?_, ?_⟩
    · intro first rest same
      cases same
      decide +kernel
    · intro element head
      cases head
      refine ⟨?_, .inl rfl⟩
      intro epoch head
      cases head
      decide +kernel
  have expandable := accepted_expandable_iff BatchReader.sampleCodecs true emptyBlocks 93 1 twoEpochs ⟨20, 10, 2⟩
    [fastBlock 8, fastBlock 9] fastHead (fastBlock 10) OneBlock.mk (by decide) twoEpochs_derived
    (fastBlocks_consecutive 8 (by decide)) ⟨fastBlock 8, [fastBlock 9], rfl, .inl rfl⟩ accepts
  exact ⟨accepts, expandable.mpr covered⟩

/-- The same span is accepted when the L1 blocks start after the origin of the safe head, and cannot be expanded. -/
theorem accepted_missing_origin :
    emptyBlocks.derive BatchReader.sampleCodecs true 2 93 1 = .ok twoEpochs ∧
    Consecutive [fastBlock 9, fastBlock 10] ∧ StartsAt [fastBlock 9, fastBlock 10] fastHead ∧
    (twoEpochs.checkBatch ⟨20, 10, 2⟩ [fastBlock 9, fastBlock 10] fastHead (fastBlock 10) OneBlock.mk).2 = some .accept ∧
    ∀ logs, twoEpochs.getSingularBatchesLogged logs [fastBlock 9, fastBlock 10] fastHead =
      some (.error .missingL1Origin) := by
  refine ⟨twoEpochs_derived, fastBlocks_consecutive 9 (by decide), ⟨fastBlock 9, [fastBlock 10], rfl, .inr rfl⟩, ?_⟩
  decide +kernel

end SpanBatch

end KonaSoon.Derive
