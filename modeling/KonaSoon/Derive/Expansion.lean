import KonaSoon.Derive.Stability

namespace KonaSoon.Derive.SpanBatch
open Lib Mpt

/-- The loop with the line that it logs, if lines of that level are written. There is no result where the line
reads the first block of an empty list. -/
def singularBatchesLogged (logs : Bool) (l1Origins : List BlockInfo) (safeTimestamp : UInt64) :
    Nat → List SpanBatchElement → Option (Except SpanBatchError (List SingleBatch))
  | _, [] => some (.ok [])
  | originIndex, element :: rest =>
      if element.timestamp ≤ safeTimestamp then singularBatchesLogged logs l1Origins safeTimestamp originIndex rest
      else if logs ∧ l1Origins = [] then none
      else match (l1Origins.drop originIndex).zipIdx.find? fun origin => origin.1.number = element.epochNum with
        | none => some (.error .missingL1Origin)
        | some (origin, index) => do
            let later ← singularBatchesLogged logs l1Origins safeTimestamp index rest
            return later.map
              (⟨.ofNat 0, element.epochNum, origin.hash, element.timestamp, element.transactions⟩ :: ·)

def getSingularBatchesLogged (logs : Bool) (batch : SpanBatch) (l1Origins : List BlockInfo) (l2SafeHead : L2BlockInfo) :
    Option (Except SpanBatchError (List SingleBatch)) :=
  singularBatchesLogged logs l1Origins l2SafeHead.blockInfo.timestamp 0 batch.batches

def newElements (elements : List SpanBatchElement) (safeTimestamp : UInt64) : List SpanBatchElement :=
  elements.filter fun element => safeTimestamp < element.timestamp

/-- The line is logged, for an element after the safe head, and there is no block to read. -/
def LogFails (logs : Bool) (l1Origins : List BlockInfo) (safeTimestamp : UInt64) (elements : List SpanBatchElement) : Prop :=
  logs = true ∧ l1Origins = [] ∧ newElements elements safeTimestamp ≠ []

variable {logs : Bool} {l1Origins : List BlockInfo} {safeTimestamp : UInt64}

theorem newElements_cons_old {element : SpanBatchElement} (rest : List SpanBatchElement)
    (old : element.timestamp ≤ safeTimestamp) :
    newElements (element :: rest) safeTimestamp = newElements rest safeTimestamp :=
  List.filter_cons_of_neg (by simpa using old)

theorem newElements_cons_new {element : SpanBatchElement} (rest : List SpanBatchElement)
    (new : ¬ element.timestamp ≤ safeTimestamp) :
    newElements (element :: rest) safeTimestamp = element :: newElements rest safeTimestamp :=
  List.filter_cons_of_pos (by simpa using new)

theorem singularBatchesLogged_eq_none {elements : List SpanBatchElement} (originIndex : Nat)
    (fails : LogFails logs l1Origins safeTimestamp elements) :
    singularBatchesLogged logs l1Origins safeTimestamp originIndex elements = none := by
  obtain ⟨writes, noBlocks, new⟩ := fails
  induction elements with
  | nil => exact absurd rfl new
  | cons element rest ih =>
      rw [singularBatchesLogged]
      by_cases old : element.timestamp ≤ safeTimestamp
      · rw [newElements_cons_old rest old] at new
        rw [if_pos old, ih new]
      · rw [if_neg old, if_pos ⟨writes, noBlocks⟩]

theorem singularBatchesLogged_eq_some {elements : List SpanBatchElement} (originIndex : Nat)
    (reads : ¬ (logs = true ∧ l1Origins = [])) :
    singularBatchesLogged logs l1Origins safeTimestamp originIndex elements =
      some (singularBatches l1Origins safeTimestamp originIndex elements) := by
  induction elements generalizing originIndex with
  | nil => rfl
  | cons element rest ih =>
      rw [singularBatchesLogged, singularBatches]
      by_cases old : element.timestamp ≤ safeTimestamp
      · rw [if_pos old, if_pos old, ih]
      · rw [if_neg old, if_neg old, if_neg reads]
        cases found : (l1Origins.drop originIndex).zipIdx.find? fun origin => origin.1.number = element.epochNum with
        | none => rfl
        | some entry =>
            obtain ⟨origin, index⟩ := entry
            dsimp only
            rw [ih]
            cases singularBatches l1Origins safeTimestamp index rest with
            | error e => rfl
            | ok later => rfl

theorem singularBatchesLogged_of_no_new {elements : List SpanBatchElement} (originIndex : Nat)
    (nothing : newElements elements safeTimestamp = []) :
    singularBatchesLogged logs l1Origins safeTimestamp originIndex elements =
      some (singularBatches l1Origins safeTimestamp originIndex elements) := by
  induction elements with
  | nil => rfl
  | cons element rest ih =>
      by_cases old : element.timestamp ≤ safeTimestamp
      · rw [newElements_cons_old rest old] at nothing
        rw [singularBatchesLogged, singularBatches, if_pos old, if_pos old, ih nothing]
      · rw [newElements_cons_new rest old] at nothing
        cases nothing

def searchOrigin (l1Origins : List BlockInfo) (element : SpanBatchElement) : Except SpanBatchError SingleBatch :=
  match l1Origins.find? fun origin => origin.number = element.epochNum with
  | none => .error .missingL1Origin
  | some origin => .ok ⟨.ofNat 0, element.epochNum, origin.hash, element.timestamp, element.transactions⟩

def searchOrigins (batch : SpanBatch) (l1Origins : List BlockInfo) (l2SafeHead : L2BlockInfo) :
    Except SpanBatchError (List SingleBatch) :=
  (newElements batch.batches l2SafeHead.blockInfo.timestamp).mapM (searchOrigin l1Origins)

def Lags (l1Origins : List BlockInfo) (originIndex : Nat) (elements : List SpanBatchElement) : Prop :=
  ∀ element ∈ elements, ∀ block ∈ l1Origins.take originIndex, block.number < element.epochNum

theorem find?_drop_of_lags {originIndex : Nat} {elements : List SpanBatchElement} {element : SpanBatchElement}
    (lags : Lags l1Origins originIndex elements) (member : element ∈ elements) :
    (l1Origins.drop originIndex).find? (fun origin => origin.number = element.epochNum) =
      l1Origins.find? fun origin => origin.number = element.epochNum := by
  have none : (l1Origins.take originIndex).find? (fun origin => origin.number = element.epochNum) = none := by
    rw [List.find?_eq_none]
    intro block before
    simpa using UInt64.ne_of_lt (lags element member block before)
  conv => rhs; rw [← List.take_append_drop originIndex l1Origins, List.find?_append, none]
  rfl

theorem find?_zipIdx_cases (blocks : List BlockInfo) (number : UInt64) :
    (blocks.zipIdx.find? (fun origin => origin.1.number = number) = none ∧
      blocks.find? (fun origin => origin.number = number) = none) ∨
    ∃ origin index, blocks.zipIdx.find? (fun origin => origin.1.number = number) = some (origin, index) ∧
      blocks.find? (fun origin => origin.number = number) = some origin ∧ blocks[index]? = some origin := by
  cases found : blocks.zipIdx.find? fun origin => origin.1.number = number with
  | none =>
      refine .inl ⟨rfl, ?_⟩
      rw [List.find?_eq_none] at found ⊢
      intro block member
      obtain ⟨index, at_⟩ := List.mem_iff_getElem?.mp member
      exact found (block, index) (List.mk_mem_zipIdx_iff_getElem?.mpr at_)
  | some entry =>
      obtain ⟨origin, index⟩ := entry
      refine .inr ⟨origin, index, rfl, ?_, List.mk_mem_zipIdx_iff_getElem?.mp (List.mem_of_find?_eq_some found)⟩
      have unzipped : blocks = blocks.zipIdx.map Prod.fst := by simp
      conv => lhs; rw [unzipped, List.find?_map]
      simp only [Function.comp_def, found, Option.map_some]

theorem Lags.after {originIndex index : Nat} {element : SpanBatchElement} {rest : List SpanBatchElement} {origin : BlockInfo}
    (increasing : l1Origins.Pairwise fun block later => block.number < later.number)
    (ordered : (element :: rest).Pairwise fun element later => element.epochNum ≤ later.epochNum)
    (found : (l1Origins.drop originIndex)[index]? = some origin) (named : origin.number = element.epochNum) :
    Lags l1Origins index rest := by
  intro later member block before
  rw [List.getElem?_drop] at found
  obtain ⟨position, at_⟩ := List.mem_iff_getElem?.mp before
  have inside : position < index := by
    have := (List.getElem?_eq_some_iff.mp at_).1
    rw [List.length_take] at this
    omega
  rw [List.getElem?_take_of_lt inside] at at_
  have behind : block.number < origin.number := by
    obtain ⟨here, rfl⟩ := List.getElem?_eq_some_iff.mp at_
    obtain ⟨there, rfl⟩ := List.getElem?_eq_some_iff.mp found
    exact List.pairwise_iff_getElem.mp increasing position (originIndex + index) here there (by omega)
  rw [named] at behind
  exact UInt64.lt_of_lt_of_le behind ((List.pairwise_cons.mp ordered).1 later member)

theorem singularBatches_eq_mapM (increasing : l1Origins.Pairwise fun block later => block.number < later.number)
    {elements : List SpanBatchElement} {originIndex : Nat}
    (ordered : elements.Pairwise fun element later => element.epochNum ≤ later.epochNum)
    (lags : Lags l1Origins originIndex elements) :
    singularBatches l1Origins safeTimestamp originIndex elements =
      (newElements elements safeTimestamp).mapM (searchOrigin l1Origins) := by
  induction elements generalizing originIndex with
  | nil => rfl
  | cons element rest ih =>
      have tail := (List.pairwise_cons.mp ordered).2
      rw [singularBatches]
      by_cases old : element.timestamp ≤ safeTimestamp
      · rw [if_pos old, newElements_cons_old rest old]
        exact ih tail fun later member => lags later (List.mem_cons_of_mem element member)
      · have whole := find?_drop_of_lags lags List.mem_cons_self
        rw [if_neg old, newElements_cons_new rest old, List.mapM_cons, searchOrigin, ← whole]
        rcases find?_zipIdx_cases (l1Origins.drop originIndex) element.epochNum with
          ⟨missing, none⟩ | ⟨origin, index, found, some, at_⟩
        · rw [missing, none]
          rfl
        · have named : origin.number = element.epochNum := by simpa using List.find?_some some
          rw [found, some]
          dsimp only
          rw [ih tail (Lags.after increasing ordered at_ named)]
          rfl

/-- What the expansion promises: an error where an origin is missing, and otherwise one batch for each element after
the safe head, in order and with the hash of the block of its number. -/
structure Expands (l1Origins : List BlockInfo) (elements : List SpanBatchElement)
    (result : Option (Except SpanBatchError (List SingleBatch))) : Prop where
  missing : result = some (.error .missingL1Origin) ↔ ∃ element ∈ elements, ∀ block ∈ l1Origins, block.number ≠ element.epochNum
  found : (∀ element ∈ elements, ∃ block ∈ l1Origins, block.number = element.epochNum) →
    ∃ batches, result = some (.ok batches) ∧
      List.Forall₂ (fun element batch => ∃ block ∈ l1Origins, block.number = element.epochNum ∧
        batch = ⟨.ofNat 0, element.epochNum, block.hash, element.timestamp, element.transactions⟩) elements batches

theorem searchOrigin_cases (l1Origins : List BlockInfo) (element : SpanBatchElement) :
    (searchOrigin l1Origins element = .error .missingL1Origin ∧ ∀ block ∈ l1Origins, block.number ≠ element.epochNum) ∨
    ∃ block ∈ l1Origins, block.number = element.epochNum ∧ searchOrigin l1Origins element =
      .ok ⟨.ofNat 0, element.epochNum, block.hash, element.timestamp, element.transactions⟩ := by
  rw [searchOrigin]
  cases found : l1Origins.find? fun origin => origin.number = element.epochNum with
  | none =>
      refine .inl ⟨rfl, ?_⟩
      rw [List.find?_eq_none] at found
      intro block member
      simpa using found block member
  | some origin => exact .inr ⟨origin, List.mem_of_find?_eq_some found, by simpa using List.find?_some found, rfl⟩

theorem mapM_searchOrigin_expands (l1Origins : List BlockInfo) (elements : List SpanBatchElement) :
    Expands l1Origins elements (some (elements.mapM (searchOrigin l1Origins))) := by
  induction elements with
  | nil => exact ⟨by simp [pure, Except.pure], fun _ => ⟨[], rfl, .nil⟩⟩
  | cons element rest ih =>
      have step : (element :: rest).mapM (searchOrigin l1Origins) = (do
          let batch ← searchOrigin l1Origins element
          let later ← rest.mapM (searchOrigin l1Origins)
          return batch :: later) := List.mapM_cons
      rw [step]
      rcases searchOrigin_cases l1Origins element with ⟨fails, absent⟩ | ⟨block, member, named, finds⟩
      · refine ⟨⟨fun _ => ⟨element, List.mem_cons_self, absent⟩, fun _ => by rw [fails]; rfl⟩, ?_⟩
        intro all
        obtain ⟨block, member, named⟩ := all element List.mem_cons_self
        exact absurd named (absent block member)
      · rw [finds]
        have elsewhere : (∃ other ∈ element :: rest, ∀ block ∈ l1Origins, block.number ≠ other.epochNum) ↔
            ∃ other ∈ rest, ∀ block ∈ l1Origins, block.number ≠ other.epochNum := by
          have here : ¬ ∀ block ∈ l1Origins, block.number ≠ element.epochNum := fun absent => absent block member named
          simp only [List.mem_cons, exists_eq_or_imp, here, false_or]
        have others : (∀ other ∈ element :: rest, ∃ block ∈ l1Origins, block.number = other.epochNum) →
            ∀ other ∈ rest, ∃ block ∈ l1Origins, block.number = other.epochNum :=
          fun all other member => all other (List.mem_cons_of_mem element member)
        cases later : rest.mapM (searchOrigin l1Origins) with
        | error e =>
            rw [later] at ih
            refine ⟨ih.missing.trans elsewhere.symm, ?_⟩
            intro all
            obtain ⟨batches, made, -⟩ := ih.found (others all)
            cases made
        | ok batches =>
            rw [later] at ih
            refine ⟨⟨fun fails => (by cases fails), ?_⟩, ?_⟩
            · intro absent
              cases ih.missing.mpr (elsewhere.mp absent)
            · intro all
              obtain ⟨batches', made, each⟩ := ih.found (others all)
              cases made
              exact ⟨_, rfl, .cons ⟨block, member, named, rfl⟩ each⟩

/-- The expansion agrees with the search of the whole list, but where there is no block to log. -/
theorem getSingularBatches_eq_search_iff (logs : Bool) (batch : SpanBatch) (l1Origins : List BlockInfo)
    (l2SafeHead : L2BlockInfo) (increasing : l1Origins.Pairwise fun block later => block.number < later.number)
    (ordered : batch.EpochsOrdered) :
    (batch.getSingularBatchesLogged logs l1Origins l2SafeHead = some (batch.searchOrigins l1Origins l2SafeHead) ∧
      Expands l1Origins (newElements batch.batches l2SafeHead.blockInfo.timestamp)
        (batch.getSingularBatchesLogged logs l1Origins l2SafeHead)) ↔
      ¬ LogFails logs l1Origins l2SafeHead.blockInfo.timestamp batch.batches := by
  constructor
  · rintro ⟨agrees, -⟩ fails
    rw [getSingularBatchesLogged, singularBatchesLogged_eq_none 0 fails] at agrees
    cases agrees
  · intro reads
    have agrees : batch.getSingularBatchesLogged logs l1Origins l2SafeHead =
        some (batch.searchOrigins l1Origins l2SafeHead) := by
      have lags : Lags l1Origins 0 batch.batches := by
        intro element member block before
        rw [List.take_zero] at before
        cases before
      have whole := @singularBatches_eq_mapM l1Origins l2SafeHead.blockInfo.timestamp increasing _ 0 ordered lags
      rw [searchOrigins, ← whole, getSingularBatchesLogged]
      by_cases nothing : newElements batch.batches l2SafeHead.blockInfo.timestamp = []
      · exact singularBatchesLogged_of_no_new 0 nothing
      · exact singularBatchesLogged_eq_some 0 fun fails => reads ⟨fails.1, fails.2, nothing⟩
    rw [agrees]
    exact ⟨rfl, mapM_searchOrigin_expands l1Origins _⟩

def noCheck : { bytes : List UInt8 // bytes.length = 20 } := ⟨List.replicate 20 0, rfl⟩

def shortSpan : SpanBatch := ⟨noCheck, noCheck, [⟨8, 96, []⟩, ⟨8, 98, []⟩, ⟨10, 100, [[1]]⟩]⟩

theorem shortSpan_ordered : shortSpan.EpochsOrdered := by
  unfold EpochsOrdered
  decide +kernel

theorem getSingularBatches_eq_search_shortSpan :
    ([blockAt 8, blockAt 9, blockAt 10].Pairwise fun block later => block.number < later.number) ∧
      shortSpan.getSingularBatchesLogged true [blockAt 8, blockAt 9, blockAt 10] safeBlock =
        some (shortSpan.searchOrigins [blockAt 8, blockAt 9, blockAt 10] safeBlock) := by
  have increasing : [blockAt 8, blockAt 9, blockAt 10].Pairwise fun block later => block.number < later.number := by
    decide +kernel
  have reads : ¬ LogFails true [blockAt 8, blockAt 9, blockAt 10] safeBlock.blockInfo.timestamp shortSpan.batches := by
    rintro ⟨-, empty, -⟩
    cases empty
  have agrees := getSingularBatches_eq_search_iff true shortSpan _ safeBlock increasing shortSpan_ordered
  exact ⟨increasing, (agrees.mpr reads).1⟩

/-- Without L1 blocks the line that is logged stops the expansion before it can fail. -/
theorem getSingularBatches_stops_without_blocks : shortSpan.EpochsOrdered ∧
    shortSpan.getSingularBatchesLogged true [] safeBlock = none ∧
    shortSpan.searchOrigins [] safeBlock = .error .missingL1Origin := by
  refine ⟨shortSpan_ordered, ?_⟩
  decide +kernel

end KonaSoon.Derive.SpanBatch
