import KonaSoon.Derive.Forgery
import KonaSoon.Primitives.DepositLogs

namespace KonaSoon.Derive
open Lib Mpt

/-! ## What the attributes are made of -/

section Builder

variable {L1P L2P Receipt : Type} [ChainProvider L1P Receipt]

namespace StatefulAttributesBuilder

structure StartsEpoch (builder : StatefulAttributesBuilder L1P L2P Receipt) (l2Parent : L2BlockInfo)
    (epoch : BlockNumHash) (inputs : EpochInputs) (receipts : List Receipt) : Prop where
  differs : l2Parent.l1Origin.number ≠ epoch.number
  info : (ChainProvider.blockInfoByHash Receipt builder.receiptsFetcher epoch.hash).2 = .ok inputs.l1Origin
  follows : l2Parent.l1Origin.hash = inputs.l1Origin.parentHash
  fetched : (@ChainProvider.receiptsByHash L1P Receipt _
    (ChainProvider.blockInfoByHash Receipt builder.receiptsFetcher epoch.hash).1 epoch.hash).2 = .ok receipts
  deposits : builder.derived.deriveSanitizedDepositTx epoch.number epoch.hash receipts = .ok inputs.depositTransactions
  number : inputs.sequenceNumber = 0

structure ContinuesEpoch (builder : StatefulAttributesBuilder L1P L2P Receipt) (l2Parent : L2BlockInfo)
    (epoch : BlockNumHash) (inputs : EpochInputs) : Prop where
  same : l2Parent.l1Origin = epoch
  info : (ChainProvider.blockInfoByHash Receipt builder.receiptsFetcher epoch.hash).2 = .ok inputs.l1Origin
  deposits : inputs.depositTransactions = []
  number : inputs.sequenceNumber = l2Parent.seqNum + 1

variable {builder : StatefulAttributesBuilder L1P L2P Receipt} {l2Parent : L2BlockInfo} {epoch : BlockNumHash}
  {inputs : EpochInputs}

theorem epochStart_ok {sysConfig : SystemConfig} (differs : l2Parent.l1Origin.number ≠ epoch.number)
    (reads : (builder.epochStart l2Parent epoch sysConfig).2 = .ok inputs) :
    ∃ receipts, builder.StartsEpoch l2Parent epoch inputs receipts := by
  unfold epochStart at reads
  split at reads
  · cases reads
  · rename_i fetcher epochInfo info
    split at reads
    · cases reads
    · rename_i follows
      split at reads
      · cases reads
      · rename_i fetcher' receipts fetched
        split at reads
        · cases reads
        · rename_i deposits derives
          split at reads
          · cases reads
          · cases reads
            exact ⟨receipts, differs, by rw [info], not_not.mp follows, by rw [info, fetched], derives, rfl⟩

theorem epochContinued_ok {sysConfig : SystemConfig} (same : l2Parent.l1Origin.number = epoch.number)
    (reads : (builder.epochContinued l2Parent epoch sysConfig).2 = .ok inputs) :
    builder.ContinuesEpoch l2Parent epoch inputs := by
  unfold epochContinued at reads
  split at reads
  · cases reads
  · rename_i sameHash
    split at reads
    · cases reads
    · rename_i fetcher epochInfo info
      cases reads
      have origin : l2Parent.l1Origin = epoch := by
        calc
          l2Parent.l1Origin = ⟨l2Parent.l1Origin.number, l2Parent.l1Origin.hash⟩ := rfl
          _ = ⟨epoch.number, epoch.hash⟩ := by rw [same, not_not.mp sameHash]
      exact ⟨origin, by rw [info], rfl, rfl⟩

theorem epochInputs_ok [SystemConfigProvider L2P] (reads : (builder.epochInputs l2Parent epoch).2 = .ok inputs) :
    (∃ receipts, builder.StartsEpoch l2Parent epoch inputs receipts) ∨ builder.ContinuesEpoch l2Parent epoch inputs := by
  unfold epochInputs at reads
  split at reads
  · cases reads
  · rename_i configFetcher sysConfig configured
    by_cases same : l2Parent.l1Origin.number = epoch.number
    · rw [if_neg (not_not.mpr same)] at reads
      obtain ⟨origin, info, deposits, number⟩ := epochContinued_ok same reads
      exact .inr ⟨origin, info, deposits, number⟩
    · rw [if_pos same] at reads
      obtain ⟨receipts, differs, info, follows, fetched, derives, number⟩ := epochStart_ok same reads
      exact .inl ⟨receipts, differs, info, follows, fetched, derives, number⟩

end StatefulAttributesBuilder

/-- The transactions that a block starts with: that of the L1 block of its epoch, and the deposits of that L1
block if the epoch is new, in the order of their logs. -/
structure StatefulAttributesBuilder.Opens (builder : StatefulAttributesBuilder L1P L2P KonaSoon.Receipt)
    [ChainProvider L1P KonaSoon.Receipt] (contracts : DepositContracts) (parent : L2BlockInfo) (epoch : BlockNumHash)
    (inputs : EpochInputs) : Prop where
  info : (ChainProvider.blockInfoByHash KonaSoon.Receipt builder.receiptsFetcher epoch.hash).2 = .ok inputs.l1Origin
  continued : parent.l1Origin = epoch → inputs.depositTransactions = []
  started : parent.l1Origin ≠ epoch → ∃ receipts found,
    (@ChainProvider.receiptsByHash L1P KonaSoon.Receipt _
      (ChainProvider.blockInfoByHash KonaSoon.Receipt builder.receiptsFetcher epoch.hash).1 epoch.hash).2 = .ok receipts ∧
    (countedLogs receipts).zipIdx.mapM (fun (log, index) =>
      depositOfLog builder.derived.prim contracts epoch.number epoch.hash (UInt64.ofNat index) log) = some found ∧
    found.reduceOption.mapM builder.derived.encodedDepositTx = .ok inputs.depositTransactions

theorem StatefulAttributesBuilder.preparePayloadAttributes_opens [ChainProvider L1P KonaSoon.Receipt]
    [SystemConfigProvider L2P] {builder : StatefulAttributesBuilder L1P L2P KonaSoon.Receipt} {contracts : DepositContracts}
    (reads : builder.derived.deriveDeposits = deriveDeposits builder.derived.prim contracts) {parent : L2BlockInfo}
    {epoch : BlockNumHash} {attributes : PayloadAttributes}
    (prepares : (builder.preparePayloadAttributes parent epoch).2 = .ok attributes) :
    ∃ inputs l1InfoTx, builder.Opens contracts parent epoch inputs ∧
      builder.derived.encodedL1InfoTx inputs = .ok l1InfoTx ∧
      attributes.transactions = some (l1InfoTx :: inputs.depositTransactions) := by
  obtain ⟨inputs, l1InfoTx, prepared, encodes, transactions⟩ :=
    preparePayloadAttributes_ok (Prod.ext rfl prepares : builder.preparePayloadAttributes parent epoch = (_, .ok attributes))
  refine ⟨inputs, l1InfoTx, ?_, encodes, transactions⟩
  rcases epochInputs_ok (congrArg Prod.snd prepared) with ⟨receipts, starts⟩ | continues
  · refine ⟨starts.info, fun same => absurd (congrArg BlockNumHash.number same) starts.differs, fun _ => ?_⟩
    have derives := starts.deposits
    simp only [DerivedTransactions.deriveSanitizedDepositTx, bind_eq_ok, Outcome.unwrap_eq_ok, reads] at derives
    obtain ⟨deposits, derives, encoded⟩ := derives
    obtain ⟨found, collected, rfl⟩ := deriveDeposits_eq derives
    exact ⟨receipts, found, starts.fetched, collected, encoded⟩
  · exact ⟨continues.info, fun _ => continues.deposits, fun differs => absurd continues.same differs⟩

end Builder

/-! ## What a call does with the batch -/

namespace AttributesQueue

variable {P B : Type} [AttributesProvider P] [AttributesBuilder B]

def pulls (queue : AttributesQueue P B) : Call → Option SingleBatch
  | .nextAttributes parent =>
      match queue.batch with
      | some _ => none
      | none => (AttributesProvider.nextBatch queue.prev parent).2.toOption
  | _ => none

abbrev Turn (P B : Type) := AttributesQueue P B × Call

def turns : AttributesQueue P B → List Call → List (Turn P B)
  | _, [] => []
  | queue, made :: calls => (queue, made) :: turns (queue.call made).1 calls

def Turn.answers (turn : Turn P B) : Bool :=
  match (turn.1.call turn.2).2 with
  | .ok (some _) => true
  | _ => false

def Builds (batch : SingleBatch) (turn : Turn P B) : Prop :=
  ∃ parent attributes isLastInSpan, turn.2 = .nextAttributes parent ∧ batch.parentHash = parent.blockInfo.hash ∧
    (AttributesBuilder.preparePayloadAttributes turn.1.builder parent batch.epoch).2 = .ok attributes ∧
    (turn.1.nextAttributes parent).2 = .ok ⟨extendAttributes attributes batch, parent, isLastInSpan⟩

def pulled (queue : AttributesQueue P B) (calls : List Call) : List SingleBatch :=
  (queue.turns calls).filterMap fun turn => turn.1.pulls turn.2

def answered (queue : AttributesQueue P B) (calls : List Call) : List (Turn P B) :=
  (queue.turns calls).filter Turn.answers

variable {queue : AttributesQueue P B} {parent : L2BlockInfo}

omit [AttributesProvider P] in
theorem createNextAttributes_spec (queue : AttributesQueue P B) (batch : SingleBatch) (parent : L2BlockInfo) :
    (queue.createNextAttributes batch parent).1.batch = queue.batch ∧
      (queue.createNextAttributes batch parent).1.prev = queue.prev ∧
      ∀ attributes, (queue.createNextAttributes batch parent).2 = .ok attributes →
        batch.parentHash = parent.blockInfo.hash ∧ ∃ prepared, attributes = extendAttributes prepared batch ∧
          (AttributesBuilder.preparePayloadAttributes queue.builder parent batch.epoch).2 = .ok prepared := by
  unfold createNextAttributes
  split
  · exact ⟨rfl, rfl, nofun⟩
  · rename_i sameHash
    split
    · exact ⟨rfl, rfl, nofun⟩
    · rename_i builder prepared prepares
      refine ⟨rfl, rfl, ?_⟩
      intro attributes made
      cases made
      exact ⟨not_not.mp sameHash, prepared, rfl, by rw [prepares]⟩

theorem nextAttributes_loaded {batch : SingleBatch} (loaded : queue.batch = some batch) :
    (∃ stop, (queue.nextAttributes parent).2 = .error stop ∧ (queue.nextAttributes parent).1.batch = some batch ∧
      (queue.nextAttributes parent).1.prev = queue.prev) ∨
    ((queue.nextAttributes parent).1.batch = none ∧ Builds batch (queue, .nextAttributes parent)) := by
  obtain ⟨kept, prev, made⟩ := createNextAttributes_spec queue batch parent
  have loads : queue.loadBatch parent = (queue, .ok batch) := by rw [loadBatch, loaded]
  cases creates : queue.createNextAttributes batch parent with
  | mk after result =>
      rw [creates] at kept prev made
      cases result with
      | error stop =>
          refine .inl ⟨stop, ?_, ?_, ?_⟩
          · simp only [nextAttributes, loads, creates]
          · simp only [nextAttributes, loads, creates]
            exact kept.trans loaded
          · simp only [nextAttributes, loads, creates]
            exact prev
      | ok attributes =>
          obtain ⟨sameHash, prepared, rfl, prepares⟩ := made attributes rfl
          refine .inr ⟨?_, parent, prepared, after.isLastInSpan, rfl, sameHash, prepares, ?_⟩
          · simp only [nextAttributes, loads, creates]
          · simp only [nextAttributes, loads, creates]

theorem nextAttributes_unloaded (unloaded : queue.batch = none) :
    (∃ prev stop, AttributesProvider.nextBatch queue.prev parent = (prev, .error stop) ∧
      queue.nextAttributes parent = ({ queue with prev }, .error stop)) ∨
    (∃ prev batch, AttributesProvider.nextBatch queue.prev parent = (prev, .ok batch) ∧
      queue.nextAttributes parent = nextAttributes
        { queue with prev, batch := some batch, isLastInSpan := AttributesProvider.isLastInSpan prev } parent) := by
  cases pulls : AttributesProvider.nextBatch queue.prev parent with
  | mk prev result =>
      cases result with
      | error stop =>
          refine .inl ⟨prev, stop, rfl, ?_⟩
          simp only [nextAttributes, loadBatch, unloaded, pulls]
      | ok batch =>
          refine .inr ⟨prev, batch, rfl, ?_⟩
          simp only [nextAttributes, loadBatch, unloaded, pulls]

omit [AttributesBuilder B] in
theorem pulls_loaded {batch : SingleBatch} (loaded : queue.batch = some batch) :
    queue.pulls (.nextAttributes parent) = none := by rw [pulls, loaded]

omit [AttributesBuilder B] in
theorem pulls_unloaded (unloaded : queue.batch = none) :
    queue.pulls (.nextAttributes parent) = (AttributesProvider.nextBatch queue.prev parent).2.toOption := by
  rw [pulls, unloaded]

theorem nextAttributes_spec (queue : AttributesQueue P B) (parent : L2BlockInfo) :
    (∃ stop, (queue.nextAttributes parent).2 = .error stop ∧
      (queue.nextAttributes parent).1.batch.toList =
        queue.batch.toList ++ (queue.pulls (.nextAttributes parent)).toList ∧
      (queue.batch ≠ none → (queue.nextAttributes parent).1.prev = queue.prev)) ∨
    (∃ batch, queue.batch.toList ++ (queue.pulls (.nextAttributes parent)).toList = [batch] ∧
      (queue.nextAttributes parent).1.batch = none ∧ Builds batch (queue, .nextAttributes parent)) := by
  cases loaded : queue.batch with
  | some batch =>
      rw [pulls_loaded loaded]
      rcases @nextAttributes_loaded _ _ _ _ queue parent batch loaded with ⟨stop, fails, kept, prev⟩ | ⟨cleared, builds⟩
      · exact .inl ⟨stop, fails, by rw [kept]; rfl, fun _ => prev⟩
      · exact .inr ⟨batch, rfl, cleared, builds⟩
  | none =>
      rw [pulls_unloaded loaded]
      rcases @nextAttributes_unloaded _ _ _ _ queue parent loaded with ⟨prev, stop, pulls, result⟩ | ⟨prev, batch, pulls, result⟩
      · rw [pulls, result]
        exact .inl ⟨stop, rfl, by rw [loaded]; rfl, fun present => absurd rfl present⟩
      · rw [pulls]
        rcases @nextAttributes_loaded _ _ _ _ { queue with
            prev, batch := some batch, isLastInSpan := AttributesProvider.isLastInSpan prev } parent batch rfl with
          ⟨stop, fails, kept, -⟩ | ⟨cleared, parent', attributes, last, called, sameHash, prepares, answers⟩
        · rw [← result] at fails kept
          exact .inl ⟨stop, fails, by rw [kept]; rfl, fun present => absurd rfl present⟩
        · rw [← result] at cleared
          cases called
          exact .inr ⟨batch, rfl, cleared, parent, attributes, last, rfl, sameHash, prepares, by rw [result]; exact answers⟩

theorem answers_of_builds {turn : Turn P B} {batch : SingleBatch} (builds : Builds batch turn) : turn.answers = true := by
  obtain ⟨queue, made⟩ := turn
  obtain ⟨parent, attributes, last, rfl, -, -, answers⟩ := builds
  simp only [Turn.answers, call, answers]
  rfl

theorem call_spec (queue : AttributesQueue P B) (made : Call) :
    (Turn.answers (queue, made) = false ∧
      ((queue.call made).1.batch.toList = queue.batch.toList ++ (queue.pulls made).toList ∨
        ((∃ s, made = .signal s) ∧ (queue.call made).1.batch = none))) ∨
    (∃ batch, queue.batch.toList ++ (queue.pulls made).toList = [batch] ∧ (queue.call made).1.batch = none ∧
      Builds batch (queue, made)) := by
  cases made with
  | nextAttributes parent =>
      rcases nextAttributes_spec queue parent with ⟨stop, fails, kept, -⟩ | answers
      · refine .inl ⟨?_, .inl kept⟩
        simp only [Turn.answers, call, fails]
        rfl
      · exact .inr answers
  | advanceOrigin =>
      refine .inl ⟨?_, .inl (List.append_nil _).symm⟩
      simp only [Turn.answers, call]
      cases queue.advanceOrigin.2 with
      | error stop => rfl
      | ok done => rfl
  | signal s =>
      refine .inl ⟨?_, ?_⟩
      · simp only [Turn.answers, call]
        cases (queue.signal s).2 with
        | error stop => rfl
        | ok done => rfl
      · simp only [call, signal]
        cases s with
        | flushChannel => exact .inr ⟨⟨_, rfl⟩, rfl⟩
        | reset l2SafeHead l1Origin systemConfig =>
            cases Stage.signal queue.prev (.reset l2SafeHead l1Origin systemConfig) with
            | mk prev result =>
                cases result with
                | error e => exact .inl (List.append_nil _).symm
                | ok done => exact .inr ⟨⟨_, rfl⟩, rfl⟩
        | activation l2SafeHead l1Origin systemConfig =>
            cases Stage.signal queue.prev (.activation l2SafeHead l1Origin systemConfig) with
            | mk prev result =>
                cases result with
                | error e => exact .inl (List.append_nil _).symm
                | ok done => exact .inr ⟨⟨_, rfl⟩, rfl⟩

omit [AttributesBuilder B] in
theorem signal_clears (queue : AttributesQueue P B) (s : Signal) (done : (queue.signal s).2 = .ok ()) :
    (queue.signal s).1.batch = none := by
  unfold signal at done ⊢
  split at done
  · rfl
  · split at done
    · cases done
    · rfl

/-! ## Runs -/

theorem run_spec (start : AttributesQueue P B) (calls : List Call) :
    ∃ built, List.Forall₂ Builds built (start.answered calls) ∧
      built.Sublist (start.batch.toList ++ start.pulled calls) ∧
      ((∀ s, Call.signal s ∉ calls) →
        start.batch.toList ++ start.pulled calls = built ++ (run call start calls).batch.toList) := by
  induction calls generalizing start with
  | nil => exact ⟨[], .nil, List.nil_sublist _, fun _ => by simp [pulled, turns]⟩
  | cons made calls ih =>
      obtain ⟨built, pairs, among, exactly⟩ := ih (start.call made).1
      have pulledHere : start.pulled (made :: calls) = (start.pulls made).toList ++ (start.call made).1.pulled calls := by
        cases here : start.pulls made with
        | none => simp [pulled, turns, here]
        | some batch => simp [pulled, turns, here]
      have quiet (noSignal : ∀ s, Call.signal s ∉ made :: calls) : ∀ s, Call.signal s ∉ calls :=
        fun s member => noSignal s (List.mem_cons_of_mem made member)
      rw [pulledHere, ← List.append_assoc]
      rcases call_spec start made with ⟨silent, kept | ⟨⟨s, rfl⟩, cleared⟩⟩ | ⟨batch, held, cleared, builds⟩
      · refine ⟨built, ?_, ?_, ?_⟩
        · rw [answered, turns, List.filter_cons_of_neg (by rw [silent]; exact Bool.false_ne_true)]
          exact pairs
        · rw [← kept]
          exact among
        · intro noSignal
          rw [← kept]
          exact exactly (quiet noSignal)
      · refine ⟨built, ?_, ?_, ?_⟩
        · rw [answered, turns, List.filter_cons_of_neg (by rw [silent]; exact Bool.false_ne_true)]
          exact pairs
        · rw [cleared] at among
          exact among.trans (List.sublist_append_right _ _)
        · intro noSignal
          exact absurd List.mem_cons_self (noSignal s)
      · rw [cleared] at among
        refine ⟨batch :: built, ?_, ?_, ?_⟩
        · rw [answered, turns, List.filter_cons_of_pos (answers_of_builds builds)]
          exact .cons builds pairs
        · rw [held]
          exact among.cons_cons batch
        · intro noSignal
          have rest := exactly (quiet noSignal)
          rw [cleared] at rest
          rw [held]
          exact congrArg (batch :: ·) rest

theorem nextAttributes_fails {stop : Stop PipelineErrorKind} (fails : (queue.nextAttributes parent).2 = .error stop) :
    (∀ batch, queue.batch = some batch → (queue.nextAttributes parent).1.batch = some batch ∧
      (queue.nextAttributes parent).1.prev = queue.prev) ∧
    (queue.batch = none →
      (queue.nextAttributes parent).1.batch = (AttributesProvider.nextBatch queue.prev parent).2.toOption) := by
  rcases nextAttributes_spec queue parent with ⟨_, -, kept, prev⟩ | ⟨_, -, -, _, _, _, called, -, -, answers⟩
  · constructor
    · intro batch loaded
      rw [loaded, pulls_loaded loaded] at kept
      exact ⟨by simpa using kept, prev (by rw [loaded]; exact Option.some_ne_none batch)⟩
    · intro unloaded
      rw [unloaded, pulls_unloaded unloaded] at kept
      simpa using congrArg List.head? kept
  · cases called
    rw [fails] at answers
    cases answers

theorem nextAttributes_answers {batch : SingleBatch} (loaded : queue.batch = some batch)
    (follows : batch.parentHash = parent.blockInfo.hash) {attributes : PayloadAttributes}
    (prepares : (AttributesBuilder.preparePayloadAttributes queue.builder parent batch.epoch).2 = .ok attributes) :
    (queue.nextAttributes parent).2 = .ok ⟨extendAttributes attributes batch, parent, queue.isLastInSpan⟩ := by
  have prepared : AttributesBuilder.preparePayloadAttributes queue.builder parent batch.epoch =
      ((AttributesBuilder.preparePayloadAttributes queue.builder parent batch.epoch).1, .ok attributes) := by rw [← prepares]
  rw [nextAttributes, loadBatch, loaded]
  simp only [createNextAttributes, follows, ne_eq, not_true, if_false]
  rw [prepared]

/-- In every run the attributes returned are those of the batches pulled, each once and in order, with what is
held at the end left over; only a signal lets a batch go. A failed call keeps its batch and pulls no other, and
the next call whose builder answers builds from it. After a signal that succeeded only batches pulled since are
used. With the builder of the pipeline, the transactions are those the block opens with and then the batch's. -/
theorem attributes_once_in_order {L1P L2P : Type} [ChainProvider L1P KonaSoon.Receipt] [SystemConfigProvider L2P] :
    (∀ (start : AttributesQueue P B) (calls : List Call), ∃ built, List.Forall₂ Builds built (start.answered calls) ∧
      built.Sublist (start.batch.toList ++ start.pulled calls) ∧
      ((∀ s, Call.signal s ∉ calls) →
        start.batch.toList ++ start.pulled calls = built ++ (run call start calls).batch.toList)) ∧
    (∀ (queue : AttributesQueue P B) (parent : L2BlockInfo) (stop : Stop PipelineErrorKind),
      (queue.nextAttributes parent).2 = .error stop →
        (∀ batch, queue.batch = some batch → (queue.nextAttributes parent).1.batch = some batch ∧
          (queue.nextAttributes parent).1.prev = queue.prev) ∧
        (queue.batch = none →
          (queue.nextAttributes parent).1.batch = (AttributesProvider.nextBatch queue.prev parent).2.toOption)) ∧
    (∀ (queue : AttributesQueue P B) (parent : L2BlockInfo) (batch : SingleBatch) (attributes : PayloadAttributes),
      queue.batch = some batch → batch.parentHash = parent.blockInfo.hash →
      (AttributesBuilder.preparePayloadAttributes queue.builder parent batch.epoch).2 = .ok attributes →
      (queue.nextAttributes parent).2 = .ok ⟨extendAttributes attributes batch, parent, queue.isLastInSpan⟩) ∧
    (∀ (queue : AttributesQueue P B) (s : Signal), (queue.signal s).2 = .ok () → ∀ calls : List Call,
      ∃ built, List.Forall₂ Builds built ((queue.signal s).1.answered calls) ∧
        built.Sublist ((queue.signal s).1.pulled calls)) ∧
    (∀ (queue : AttributesQueue P (StatefulAttributesBuilder L1P L2P KonaSoon.Receipt)) (contracts : DepositContracts)
      (parent : L2BlockInfo) (batch : SingleBatch) (answer : AttributesWithParent),
      queue.builder.derived.deriveDeposits = deriveDeposits queue.builder.derived.prim contracts →
      Builds batch (queue, .nextAttributes parent) → (queue.nextAttributes parent).2 = .ok answer →
      ∃ inputs l1InfoTx, queue.builder.Opens contracts parent batch.epoch inputs ∧
        queue.builder.derived.encodedL1InfoTx inputs = .ok l1InfoTx ∧
        answer.attributes.transactions = some (l1InfoTx :: inputs.depositTransactions ++ batch.transactions)) := by
  refine ⟨run_spec, fun queue parent stop fails => nextAttributes_fails fails,
    fun queue parent batch attributes loaded follows prepares => nextAttributes_answers loaded follows prepares, ?_, ?_⟩
  · intro queue s done calls
    obtain ⟨built, pairs, among, -⟩ := run_spec (queue.signal s).1 calls
    rw [signal_clears queue s done] at among
    exact ⟨built, pairs, among⟩
  · rintro queue contracts parent batch answer reads ⟨_, attributes, last, called, -, prepares, answers⟩ returns
    cases called
    rw [answers] at returns
    cases returns
    obtain ⟨inputs, l1InfoTx, opens, encodes, transactions⟩ :=
      StatefulAttributesBuilder.preparePayloadAttributes_opens reads prepares
    refine ⟨inputs, l1InfoTx, opens, encodes, ?_⟩
    simp only [extendAttributes, transactions]

end AttributesQueue

/-! ## A chain that fails once -/

structure Unreliable where
  failures : Nat
  chains : Chains

instance : ChainProvider Unreliable KonaSoon.Receipt where
  blockInfoByHash node _ :=
    match node.failures with
    | 0 => (node, .ok node.chains.l1Block)
    | failures + 1 => ({ node with failures }, .error "connection reset")
  receiptsByHash node _ := (node, .ok [])

namespace Pipeline

def contracts : DepositContracts :=
  ⟨⟨List.replicate 20 1, List.length_replicate⟩, ⟨List.replicate 20 2, List.length_replicate⟩,
    ⟨List.replicate 20 3, List.length_replicate⟩⟩

def receiptsDerived : DerivedTransactions KonaSoon.Receipt where
  prim
  solana := ⟨findProgramAddress, compileMessage, fun _ => .ok ()⟩
  deriveDeposits := deriveDeposits prim contracts
  updateWithReceipts config _ := .ok config
  bincodeSerialize := writeOneOf known

def failingOnce : AttributesQueue (BatchQueue Loaded Chains) (StatefulAttributesBuilder Unreliable Chains KonaSoon.Receipt) :=
  .new (.new cfg ⟨l1Block, [.single (single transferTx)]⟩ chains) ⟨cfg, receiptsDerived, chains, ⟨1, chains⟩⟩

theorem attributes_once_in_order_failing_once :
    (failingOnce.call (.nextAttributes safeHead)).2 = (PipelineError.provider "connection reset").temp ∧
    ∃ built, List.Forall₂ AttributesQueue.Builds built
        (failingOnce.answered [.nextAttributes safeHead, .nextAttributes safeHead]) ∧
      [single transferTx] = built ++
        (run AttributesQueue.call failingOnce [.nextAttributes safeHead, .nextAttributes safeHead]).batch.toList := by
  have pulled : failingOnce.batch.toList ++ failingOnce.pulled [.nextAttributes safeHead, .nextAttributes safeHead] =
      [single transferTx] := by decide +kernel
  obtain ⟨built, pairs, -, exactly⟩ := (@AttributesQueue.attributes_once_in_order _ _ _ _ Unreliable Chains _ _).1
    failingOnce [.nextAttributes safeHead, .nextAttributes safeHead]
  refine ⟨by decide +kernel, built, pairs, ?_⟩
  rw [← pulled]
  exact exactly (by simp)

end Pipeline

end KonaSoon.Derive
