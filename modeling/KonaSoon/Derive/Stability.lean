import KonaSoon.Derive.Rules
import KonaSoon.Lib.Bytes

namespace KonaSoon.Derive
open Lib

def Consecutive (blocks : List BlockInfo) : Prop :=
  blocks.IsChain fun block next => next.number.toNat = block.number.toNat + 1

theorem Consecutive.pairwise {blocks : List BlockInfo} (consecutive : Consecutive blocks) :
    blocks.Pairwise fun block later => block.number < later.number := by
  have : IsTrans BlockInfo fun block later => block.number < later.number := ⟨fun _ _ _ => UInt64.lt_trans⟩
  refine (List.IsChain.imp ?_ consecutive).pairwise
  intro block next follows
  rw [UInt64.lt_iff_toNat_lt]
  omega

theorem Consecutive.eq_of_number {l1Blocks : List BlockInfo} (consecutive : Consecutive l1Blocks)
    {block other : BlockInfo} (inside : other ∈ l1Blocks) (member : block ∈ l1Blocks)
    (same : other.number = block.number) : other = block := by
  have distinct : (l1Blocks.map fun block => block.number).Nodup :=
    List.pairwise_map.mpr (consecutive.pairwise.imp fun below => UInt64.ne_of_lt below)
  exact List.inj_on_of_nodup_map distinct inside member same

namespace SingleBatch

variable {batch : SingleBatch} {cfg : SoonRollupConfig} {l2SafeHead : L2BlockInfo} {epoch batchOrigin : BlockInfo}

theorem checkOrigin_of_none (nextBlock : Option BlockInfo)
    (decided : batch.checkOrigin cfg none l2SafeHead epoch batchOrigin ≠ .undecided) :
    batch.checkOrigin cfg nextBlock l2SafeHead epoch batchOrigin =
      batch.checkOrigin cfg none l2SafeHead epoch batchOrigin := by
  unfold checkOrigin at decided ⊢
  split
  · rfl
  · rename_i sameHash
    rw [if_neg sameHash] at decided
    split
    · rfl
    · rename_i max bound
      rw [bound] at decided
      dsimp only at decided
      split
      · rfl
      · rename_i notLate
        rw [if_neg notLate] at decided
        split
        · rename_i late
          rw [if_pos late] at decided
          exact absurd rfl decided
        · rfl

theorem checkBatch_append (batch : SingleBatch) (cfg : SoonRollupConfig) (l1Blocks more : List BlockInfo)
    (l2SafeHead : L2BlockInfo) (inclusionBlock : BlockInfo)
    (decided : batch.checkBatch cfg l1Blocks l2SafeHead inclusionBlock ≠ .undecided) :
    batch.checkBatch cfg (l1Blocks ++ more) l2SafeHead inclusionBlock =
      batch.checkBatch cfg l1Blocks l2SafeHead inclusionBlock := by
  cases l1Blocks with
  | nil => exact absurd rfl decided
  | cons epoch later =>
      cases later with
      | cons next later => rfl
      | nil =>
          -- the only L1 block is the epoch itself
          simp only [checkBatch, List.cons_append, List.nil_append, List.head?_nil] at decided ⊢
          split
          · rfl
          · rename_i recent
            rw [if_neg recent] at decided
            split
            · rfl
            · rename_i child
              rw [if_neg child] at decided
              split
              · rfl
              · rename_i inWindow
                rw [if_neg inWindow] at decided
                split
                · rfl
                · rename_i notOld
                  rw [if_neg notOld] at decided
                  split
                  · rename_i current
                    rw [if_pos current] at decided
                    exact checkOrigin_of_none more.head? decided
                  · rename_i other
                    rw [if_neg other] at decided
                    split
                    · rename_i following
                      rw [if_pos following] at decided
                      exact absurd rfl decided
                    · rfl

end SingleBatch

namespace SpanBatch

variable {cfg : SoonRollupConfig} {l1Blocks more : List BlockInfo}

def Before (l1Blocks more : List BlockInfo) (number : UInt64) : Prop :=
  (∃ block ∈ l1Blocks, number ≤ block.number) ∧ Consecutive (l1Blocks ++ more)

theorem Before.absent {number : UInt64} (before : Before l1Blocks more number) :
    ∀ block ∈ more, block.number ≠ number := by
  obtain ⟨⟨block, here, upTo⟩, consecutive⟩ := before
  intro later member same
  have after := (List.pairwise_append.mp consecutive.pairwise).2.2 block here later member
  rw [same] at after
  exact UInt64.lt_irrefl _ (UInt64.lt_of_le_of_lt upTo after)

theorem findOrigin_append {originIndex : Nat} {epochNum : UInt64} (within : originIndex ≤ l1Blocks.length)
    (before : Before l1Blocks more epochNum) :
    findOrigin (l1Blocks ++ more) originIndex epochNum = findOrigin l1Blocks originIndex epochNum := by
  have none : more.findIdx? (fun block => block.number = epochNum) = none := by
    rw [List.findIdx?_eq_none_iff]
    intro block member
    exact decide_eq_false (before.absent block member)
  unfold findOrigin
  rw [List.drop_append_of_le_length within, List.findIdx?_append, none]
  cases (l1Blocks.drop originIndex).findIdx? fun block => block.number = epochNum with
  | none => rfl
  | some offset => rfl

theorem findOrigin_lt {originIndex : Nat} (epochNum : UInt64) (within : originIndex < l1Blocks.length) :
    findOrigin l1Blocks originIndex epochNum < l1Blocks.length := by
  unfold findOrigin
  split
  · rename_i offset found
    have inside := (List.findIdx?_eq_some_iff_findIdx_eq.mp found).1
    rw [List.length_drop] at inside
    omega
  · exact within

theorem checkTime_of_none {l1Origin : BlockInfo} {originAdvanced : Bool} {element : SpanBatchElement}
    (nextOrigin : Option BlockInfo) (decided : checkTime cfg none l1Origin originAdvanced element ≠ some .undecided) :
    checkTime cfg nextOrigin l1Origin originAdvanced element = checkTime cfg none l1Origin originAdvanced element := by
  unfold checkTime at decided ⊢
  split
  · rfl
  · rename_i notEarly
    rw [if_neg notEarly] at decided
    split
    · rename_i late
      rw [if_pos late] at decided
      split
      · rename_i empty
        rw [if_pos empty] at decided
        split
        · rfl
        · rename_i stays
          rw [if_neg stays] at decided
          exact absurd rfl decided
      · rfl
    · rfl

theorem checkElements_append {safeTimestamp : UInt64} {originIndex : Nat} {originAdvanced : Bool}
    {previous : Option SpanBatchElement} {elements : List SpanBatchElement} (within : originIndex < l1Blocks.length)
    (before : ∀ element ∈ elements, Before l1Blocks more element.epochNum)
    (decided : checkElements cfg l1Blocks safeTimestamp originIndex originAdvanced previous elements ≠ some .undecided) :
    checkElements cfg (l1Blocks ++ more) safeTimestamp originIndex originAdvanced previous elements =
      checkElements cfg l1Blocks safeTimestamp originIndex originAdvanced previous elements := by
  induction elements generalizing originIndex originAdvanced previous with
  | nil => rfl
  | cons element rest ih =>
      have later : ∀ element ∈ rest, Before l1Blocks more element.epochNum := fun other member =>
        before other (List.mem_cons_of_mem element member)
      unfold checkElements at decided ⊢
      split
      · rename_i safe
        rw [if_pos safe] at decided
        exact ih within later decided
      · rename_i unsafe_
        rw [if_neg unsafe_] at decided
        have sameIndex := findOrigin_append (Nat.le_of_lt within) (before element List.mem_cons_self)
        have found := findOrigin_lt element.epochNum within
        simp only [sameIndex, List.getElem?_append_left found] at decided ⊢
        rw [List.getElem?_eq_getElem found] at decided ⊢
        dsimp only at decided ⊢
        set i := findOrigin l1Blocks originIndex element.epochNum
        set advanced := advances originAdvanced previous element
        have sameTime : checkTime cfg (l1Blocks ++ more)[i + 1]? l1Blocks[i] advanced element =
            checkTime cfg l1Blocks[i + 1]? l1Blocks[i] advanced element := by
          rcases Nat.lt_or_ge (i + 1) l1Blocks.length with inside | beyond
          · rw [List.getElem?_append_left inside]
          · rw [List.getElem?_eq_none beyond] at decided ⊢
            refine checkTime_of_none _ fun undecided => ?_
            rw [undecided] at decided
            exact decided rfl
        rw [sameTime]
        cases verdict : checkTime cfg l1Blocks[i + 1]? l1Blocks[i] advanced element with
        | some verdict => rfl
        | none =>
            rw [verdict] at decided
            dsimp only at decided ⊢
            split
            · rfl
            · rename_i allowed
              rw [if_neg allowed] at decided
              exact ih found later decided

def AnswersAlike {F : Type} [L2ChainProvider F] (fetcher fetcher' : F) : Prop :=
  ∀ number, (L2ChainProvider.l2BlockInfoByNumber fetcher number).2 = (L2ChainProvider.l2BlockInfoByNumber fetcher' number).2

variable {F : Type} [L2ChainProvider F] {fetcher fetcher' : F} {l2SafeHead : L2BlockInfo}

theorem findParent_alike (cfg : SoonRollupConfig) (l2SafeHead : L2BlockInfo) (alike : AnswersAlike fetcher fetcher') (first : SpanBatchElement) :
    (findParent cfg l2SafeHead first fetcher').2 = (findParent cfg l2SafeHead first fetcher).2 := by
  unfold findParent
  split
  · split
    · rfl
    · split
      · rfl
      · split
        · rfl
        · dsimp only
          have same := alike (l2SafeHead.blockInfo.number -
            (l2SafeHead.blockInfo.timestamp - first.timestamp) / cfg.blockTime - 1)
          rcases asked : L2ChainProvider.l2BlockInfoByNumber fetcher (l2SafeHead.blockInfo.number -
            (l2SafeHead.blockInfo.timestamp - first.timestamp) / cfg.blockTime - 1) with ⟨after, answer⟩
          rcases asked' : L2ChainProvider.l2BlockInfoByNumber fetcher' (l2SafeHead.blockInfo.number -
            (l2SafeHead.blockInfo.timestamp - first.timestamp) / cfg.blockTime - 1) with ⟨after', answer'⟩
          rw [asked, asked'] at same
          cases same
          cases answer with
          | ok block => rfl
          | error text => rfl
  · rfl

theorem checkOnParent_append (batch : SpanBatch) (l1Blocks more : List BlockInfo) (inclusionBlock : BlockInfo) (first last : SpanBatchElement)
    (parentBlock : L2BlockInfo)
    (decided : (batch.checkOnParent cfg l1Blocks inclusionBlock first last parentBlock).1 ≠ .undecided) :
    batch.checkOnParent cfg (l1Blocks ++ more) inclusionBlock first last parentBlock =
      batch.checkOnParent cfg l1Blocks inclusionBlock first last parentBlock := by
  unfold checkOnParent at decided ⊢
  rw [List.find?_append]
  cases found : l1Blocks.find? fun block => block.number = last.epochNum with
  | some block => rfl
  | none =>
      rw [found] at decided
      split
      · rfl
      · rename_i onParent
        rw [if_neg onParent] at decided
        split
        · rfl
        · rename_i inWindow
          rw [if_neg inWindow] at decided
          split
          · rfl
          · rename_i near
            rw [if_neg near] at decided
            exact absurd rfl decided

theorem checkBatchPrefix_append (batch : SpanBatch) (more : List BlockInfo) (inclusionBlock : BlockInfo) (alike : AnswersAlike fetcher fetcher')
    (decided : ∀ parentBlock, (batch.checkBatchPrefix cfg l1Blocks l2SafeHead inclusionBlock fetcher).2 ≠
      some (.undecided, parentBlock)) :
    (batch.checkBatchPrefix cfg (l1Blocks ++ more) l2SafeHead inclusionBlock fetcher').2 =
      (batch.checkBatchPrefix cfg l1Blocks l2SafeHead inclusionBlock fetcher).2 := by
  cases l1Blocks with
  | nil => exact absurd rfl (decided none)
  | cons epoch later =>
      unfold checkBatchPrefix at decided ⊢
      cases elements : batch.batches with
      | nil =>
          rw [elements] at decided
          exact absurd rfl (decided none)
      | cons first rest =>
          simp only [elements, List.cons_append] at decided ⊢
          by_cases eager : first.epochNum = epoch.number + 1 ∧ later = []
          · rw [if_pos eager] at decided
            exact absurd rfl (decided none)
          · have notEager : ¬ (first.epochNum = epoch.number + 1 ∧ later ++ more = []) := by
              rintro ⟨advances, none⟩
              exact eager ⟨advances, (List.append_eq_nil_iff.mp none).1⟩
            rw [if_neg eager] at decided
            rw [if_neg eager, if_neg notEager]
            split
            · rfl
            · rename_i reached
              rw [if_neg reached] at decided
              split
              · rfl
              · rename_i recent
                rw [if_neg recent] at decided
                have same := findParent_alike cfg l2SafeHead alike first
                rcases parent : findParent cfg l2SafeHead first fetcher with ⟨after, answer⟩
                rcases parent' : findParent cfg l2SafeHead first fetcher' with ⟨after', answer'⟩
                rw [parent, parent'] at same
                cases same
                rw [parent] at decided
                cases answer with
                | none => rfl
                | some answer =>
                    cases answer with
                    | error validity => rfl
                    | ok parentBlock =>
                        refine congrArg some (checkOnParent_append batch (epoch :: later) more inclusionBlock first _ parentBlock ?_)
                        intro undecided
                        exact decided _ (congrArg some (Prod.ext undecided rfl))

theorem checkBatchPrefix_fetcher (batch : SpanBatch) (more : List BlockInfo) (inclusionBlock : BlockInfo)
    (decided : ∀ parentBlock, (batch.checkBatchPrefix cfg l1Blocks l2SafeHead inclusionBlock fetcher).2 ≠
      some (.undecided, parentBlock)) :
    (batch.checkBatchPrefix cfg (l1Blocks ++ more) l2SafeHead inclusionBlock fetcher).1 =
      (batch.checkBatchPrefix cfg l1Blocks l2SafeHead inclusionBlock fetcher).1 := by
  cases l1Blocks with
  | nil => exact absurd rfl (decided none)
  | cons epoch later =>
      unfold checkBatchPrefix at decided ⊢
      cases elements : batch.batches with
      | nil => rfl
      | cons first rest =>
          simp only [elements, List.cons_append] at decided ⊢
          by_cases eager : first.epochNum = epoch.number + 1 ∧ later = []
          · rw [if_pos eager] at decided
            exact absurd rfl (decided none)
          · have notEager : ¬ (first.epochNum = epoch.number + 1 ∧ later ++ more = []) := by
              rintro ⟨advances, none⟩
              exact eager ⟨advances, (List.append_eq_nil_iff.mp none).1⟩
            rw [if_neg eager, if_neg notEager]
            split
            · rfl
            · split
              · rfl
              · cases findParent cfg l2SafeHead first fetcher with
                | mk after answer =>
                    rcases answer with - | - | -
                    · rfl
                    · rfl
                    · rfl

theorem checkBatchPrefix_extended (batch : SpanBatch) (more : List BlockInfo) (inclusionBlock : BlockInfo)
    (decided : ∀ parentBlock, (batch.checkBatchPrefix cfg l1Blocks l2SafeHead inclusionBlock fetcher).2 ≠
      some (.undecided, parentBlock)) :
    batch.checkBatchPrefix cfg (l1Blocks ++ more) l2SafeHead inclusionBlock fetcher =
      batch.checkBatchPrefix cfg l1Blocks l2SafeHead inclusionBlock fetcher :=
  Prod.ext (checkBatchPrefix_fetcher batch more inclusionBlock decided)
    (checkBatchPrefix_append batch more inclusionBlock (fun _ => rfl) decided)

theorem singularBatches_append (more : List BlockInfo) {safeTimestamp : UInt64} {originIndex : Nat}
    (within : originIndex ≤ l1Blocks.length) {elements : List SpanBatchElement} {batches : List SingleBatch}
    (expands : singularBatches l1Blocks safeTimestamp originIndex elements = .ok batches) :
    singularBatches (l1Blocks ++ more) safeTimestamp originIndex elements = .ok batches := by
  induction elements generalizing originIndex batches with
  | nil => exact expands
  | cons element rest ih =>
      unfold singularBatches at expands ⊢
      by_cases old : element.timestamp ≤ safeTimestamp
      · rw [if_pos old] at expands ⊢
        exact ih within expands
      · rw [if_neg old] at expands ⊢
        cases found : (l1Blocks.drop originIndex).zipIdx.find? fun origin => origin.1.number = element.epochNum with
        | none =>
            rw [found] at expands
            cases expands
        | some entry =>
            have same : ((l1Blocks ++ more).drop originIndex).zipIdx.find?
                (fun origin => origin.1.number = element.epochNum) = some entry := by
              rw [List.drop_append_of_le_length within, List.zipIdx_append, List.find?_append, found]
              rfl
            obtain ⟨origin, index⟩ := entry
            rw [found] at expands
            rw [same]
            simp only [bind_eq_ok] at expands ⊢
            obtain ⟨later, expands, made⟩ := expands
            have member := List.mem_zipIdx (List.mem_of_find?_eq_some found)
            have bound : index ≤ l1Blocks.length := by
              have := List.length_drop (i := originIndex) (l := l1Blocks)
              omega
            exact ⟨later, ih bound expands, made⟩

def EpochsOrdered (batch : SpanBatch) : Prop := batch.batches.Pairwise fun element later => element.epochNum ≤ later.epochNum

theorem le_last_of_ordered {first : SpanBatchElement} {rest : List SpanBatchElement}
    (ordered : (first :: rest).Pairwise fun element later => element.epochNum ≤ later.epochNum) :
    ∀ element ∈ first :: rest, element.epochNum ≤ (rest.getLast?.getD first).epochNum := by
  induction rest generalizing first with
  | nil =>
      intro element member
      rw [List.mem_singleton.mp member]
      exact UInt64.le_refl _
  | cons second rest ih =>
      obtain ⟨before, tail⟩ := List.pairwise_cons.mp ordered
      rw [getLast?_getD_cons]
      intro element member
      rcases List.mem_cons.mp member with rfl | later
      · exact UInt64.le_trans (before second List.mem_cons_self) (ih tail second List.mem_cons_self)
      · exact ih tail element later

theorem before_of_accept {batch : SpanBatch} (ordered : batch.EpochsOrdered) {inclusionBlock : BlockInfo}
    {parentBlock : Option L2BlockInfo} (consecutive : Consecutive (l1Blocks ++ more))
    (accepts : (batch.checkBatchPrefix cfg l1Blocks l2SafeHead inclusionBlock fetcher).2 = some (.accept, parentBlock)) :
    0 < l1Blocks.length ∧ ∀ element ∈ batch.batches, Before l1Blocks more element.epochNum := by
  obtain ⟨first, parent, -, epoch, later, rest, blocks, elements, -, -, -, -, follows⟩ :=
    (checkBatchPrefix_accept_iff batch cfg l1Blocks l2SafeHead inclusionBlock fetcher parentBlock).mp accepts
  obtain ⟨block, found, -⟩ := follows.sameChain
  have number : block.number = (rest.getLast?.getD first).epochNum := by simpa using List.find?_some found
  refine ⟨by rw [blocks]; exact Nat.succ_pos _, fun element member => ⟨⟨block, List.mem_of_find?_eq_some found, ?_⟩, consecutive⟩⟩
  rw [number]
  rw [EpochsOrdered, elements] at ordered
  rw [elements] at member
  exact le_last_of_ordered ordered element member

theorem checkBatch_append (batch : SpanBatch) (ordered : batch.EpochsOrdered) (inclusionBlock : BlockInfo)
    (consecutive : Consecutive (l1Blocks ++ more)) (alike : AnswersAlike fetcher fetcher')
    (decided : (batch.checkBatch cfg l1Blocks l2SafeHead inclusionBlock fetcher).2 ≠ some .undecided) :
    (batch.checkBatch cfg (l1Blocks ++ more) l2SafeHead inclusionBlock fetcher').2 =
      (batch.checkBatch cfg l1Blocks l2SafeHead inclusionBlock fetcher).2 := by
  have decidedPrefix : ∀ parentBlock, (batch.checkBatchPrefix cfg l1Blocks l2SafeHead inclusionBlock fetcher).2 ≠
      some (.undecided, parentBlock) := by
    intro parentBlock undecided
    apply decided
    unfold checkBatch
    rcases checked : batch.checkBatchPrefix cfg l1Blocks l2SafeHead inclusionBlock fetcher with ⟨after, answer⟩
    rw [checked] at undecided
    cases undecided
    rfl
  have same := checkBatchPrefix_append batch more inclusionBlock alike decidedPrefix
  unfold checkBatch at decided ⊢
  rcases checked : batch.checkBatchPrefix cfg l1Blocks l2SafeHead inclusionBlock fetcher with ⟨after, answer⟩
  rcases checked' : batch.checkBatchPrefix cfg (l1Blocks ++ more) l2SafeHead inclusionBlock fetcher' with ⟨after', answer'⟩
  rw [checked, checked'] at same
  cases same
  rw [checked] at decided
  cases answer with
  | none => rfl
  | some answer =>
      obtain ⟨verdict, parentBlock⟩ := answer
      cases verdict with
      | accept =>
          obtain ⟨nonempty, before⟩ := before_of_accept ordered consecutive (by rw [checked])
          cases parentBlock with
          | none => rfl
          | some parentBlock =>
              cases elements : batch.batches with
              | nil => rfl
              | cons first rest =>
                  rw [elements] at decided before
                  exact checkElements_append nonempty before decided
      | drop => rfl
      | undecided => rfl
      | future => rfl
      | past => rfl

end SpanBatch

def Batch.EpochsOrdered : Batch → Prop
  | .single _ => True
  | .span batch => batch.EpochsOrdered

/-- A verdict other than `undecided` stays when further L1 blocks are known. -/
theorem verdict_stable {F : Type} [L2ChainProvider F] (cfg : SoonRollupConfig) (l1Blocks more : List BlockInfo)
    (l2SafeHead : L2BlockInfo) (data : BatchWithInclusionBlock) (fetcher fetcher' : F)
    (consecutive : Consecutive (l1Blocks ++ more)) (ordered : data.batch.EpochsOrdered)
    (alike : SpanBatch.AnswersAlike fetcher fetcher') (verdict : BatchValidity)
    (judged : (data.checkBatch cfg l1Blocks l2SafeHead fetcher).2 = some verdict) (decided : verdict ≠ .undecided) :
    (data.checkBatch cfg (l1Blocks ++ more) l2SafeHead fetcher').2 = some verdict := by
  obtain ⟨inclusionBlock, batch⟩ := data
  cases batch with
  | single batch =>
      have same : batch.checkBatch cfg l1Blocks l2SafeHead inclusionBlock = verdict := Option.some.inj judged
      have stays := batch.checkBatch_append cfg l1Blocks more l2SafeHead inclusionBlock (same ▸ decided)
      exact congrArg some (stays.trans same)
  | span batch =>
      have same : (batch.checkBatch cfg l1Blocks l2SafeHead inclusionBlock fetcher).2 = some verdict := judged
      have open_ : (batch.checkBatch cfg l1Blocks l2SafeHead inclusionBlock fetcher).2 ≠ some .undecided := by
        rw [same]
        exact fun undecided => decided (Option.some.inj undecided)
      exact (batch.checkBatch_append ordered inclusionBlock consecutive alike open_).trans same

structure NoBlocks where

instance : L2ChainProvider NoBlocks where
  l2BlockInfoByNumber fetcher _ := (fetcher, .error "block not found")

def blockAt (number : UInt64) : BlockInfo :=
  ⟨bigEndian 32 number.toNat, number, bigEndian 32 (number.toNat - 1), 12 * number⟩

def childBatch : BatchWithInclusionBlock := ⟨blockAt 9, .single ⟨bigEndian 32 40, 8, bigEndian 32 8, 98, []⟩⟩

def safeBlock : L2BlockInfo := ⟨⟨bigEndian 32 40, 40, bigEndian 32 39, 96⟩, (blockAt 8).id, 0⟩

theorem verdict_stable_two_blocks : Consecutive ([blockAt 8] ++ [blockAt 9, blockAt 10]) ∧
    (childBatch.checkBatch ⟨20, 10, 2⟩ [blockAt 8] safeBlock NoBlocks.mk).2 = some .accept ∧
    (childBatch.checkBatch ⟨20, 10, 2⟩ ([blockAt 8] ++ [blockAt 9, blockAt 10]) safeBlock NoBlocks.mk).2 =
      some .accept := by
  have consecutive : Consecutive ([blockAt 8] ++ [blockAt 9, blockAt 10]) := by
    simp [Consecutive, blockAt]
  have judged : (childBatch.checkBatch ⟨20, 10, 2⟩ [blockAt 8] safeBlock NoBlocks.mk).2 = some .accept := by
    decide +kernel
  exact ⟨consecutive, judged, verdict_stable ⟨20, 10, 2⟩ [blockAt 8] [blockAt 9, blockAt 10] safeBlock childBatch
    NoBlocks.mk NoBlocks.mk consecutive trivial (fun _ => rfl) .accept judged (by decide)⟩

end KonaSoon.Derive
