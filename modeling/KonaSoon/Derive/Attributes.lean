import KonaSoon.Derive.BatchQueue

/-!
# Payload attributes

`StatefulAttributesBuilder` (`derive/src/attributes/stateful.rs`), which starts the transactions of a block
with those derived from L1, and `AttributesQueue` (`derive/src/stages/attributes_queue.rs`), which appends
the transactions of a batch.
-/

namespace KonaSoon.Derive
open Lib Mpt

/-! ## The attributes builder -/

class ChainProvider (P Receipt : Type) where
  blockInfoByHash : P → B256 → P × Except String BlockInfo
  receiptsByHash : P → B256 → P × Except String (List Receipt)

class SystemConfigProvider (P : Type) where
  systemConfigByNumber : P → UInt64 → P × Except String SystemConfig

/-- How the transactions of a block are derived. The reading of receipts gives no deposits where it panics. -/
structure DerivedTransactions (Receipt : Type) where
  prim : Primitives
  solana : Solana
  deriveDeposits : UInt64 → B256 → List Receipt → Option (List UserDeposited)
  updateWithReceipts : SystemConfig → List Receipt → Except String SystemConfig
  bincodeSerialize : L2Transaction → Except String (List UInt8)

structure StatefulAttributesBuilder (L1P L2P Receipt : Type) where
  rollupCfg : SoonRollupConfig
  derived : DerivedTransactions Receipt
  configFetcher : L2P
  receiptsFetcher : L1P

structure EpochInputs where
  l1Origin : BlockInfo
  depositTransactions : List (List UInt8)
  sysConfig : SystemConfig
  sequenceNumber : UInt64

section Builder

variable {L1P L2P Receipt : Type}

namespace DerivedTransactions

def sanitizedDerivedTxToBytes (derived : DerivedTransactions Receipt) (tx : VersionedTransaction) :
    Outcome PipelineEncodingError (List UInt8) :=
  match derived.bincodeSerialize (.newFromDerivedTx tx) with
  | .ok bytes => .ok bytes
  | .error text => .error (.error (.l2TxSerializeErr text))

def encodedDepositTx (derived : DerivedTransactions Receipt) (userDeposit : UserDeposited) :
    Outcome PipelineEncodingError (List UInt8) :=
  match userDeposit.toSanitizedTransaction derived.solana derived.prim with
  | .ok sanitizedTx => derived.sanitizedDerivedTxToBytes sanitizedTx
  | .error e => .error (e.map .depositError)

def deriveSanitizedDepositTx (derived : DerivedTransactions Receipt) (l1BlockNum : UInt64) (l1BlockHash : B256)
    (receipts : List Receipt) : Outcome PipelineEncodingError (List (List UInt8)) := do
  let depositTxs ← Outcome.unwrap (derived.deriveDeposits l1BlockNum l1BlockHash receipts)
  depositTxs.mapM derived.encodedDepositTx

def l1InfoTx (derived : DerivedTransactions Receipt) (inputs : EpochInputs) : Outcome DepositError VersionedTransaction := do
  let l1InfoTx ← AttributesDeposited.tryFrom inputs.l1Origin inputs.sequenceNumber
    (addressToHash inputs.sysConfig.batcherAddress)
  l1InfoTx.toSanitizedTransaction derived.solana derived.prim

def encodedL1InfoTx (derived : DerivedTransactions Receipt) (inputs : EpochInputs) : PipelineResult (List UInt8) :=
  match derived.l1InfoTx inputs with
  | .error e => .error (e.map fun e => .temporary (.parseL1BlockInfoTxErr e.toString))
  | .ok tx =>
      match derived.sanitizedDerivedTxToBytes tx with
      | .error e => .error (e.map fun e => .critical (.badEncoding e))
      | .ok bytes => .ok bytes

end DerivedTransactions

namespace StatefulAttributesBuilder

variable [ChainProvider L1P Receipt] [SystemConfigProvider L2P]

def epochStart (builder : StatefulAttributesBuilder L1P L2P Receipt) (l2Parent : L2BlockInfo)
    (epoch : BlockNumHash) (sysConfig : SystemConfig) :
    StatefulAttributesBuilder L1P L2P Receipt × PipelineResult EpochInputs :=
  match ChainProvider.blockInfoByHash Receipt builder.receiptsFetcher epoch.hash with
  | (receiptsFetcher, .error text) => ({ builder with receiptsFetcher }, (PipelineError.provider text).temp)
  | (receiptsFetcher, .ok epochInfo) =>
      if l2Parent.l1Origin.hash ≠ epochInfo.parentHash then
        ({ builder with receiptsFetcher }, (ResetError.attributesBuilder
          (.blockMismatchEpochReset epoch l2Parent.l1Origin epochInfo.parentHash)).reset)
      else match ChainProvider.receiptsByHash receiptsFetcher epoch.hash with
        | (receiptsFetcher, .error text) => ({ builder with receiptsFetcher }, (PipelineError.provider text).temp)
        | (receiptsFetcher, .ok receipts) =>
            match builder.derived.deriveSanitizedDepositTx epoch.number epoch.hash receipts with
            | .error e => ({ builder with receiptsFetcher }, .error (e.map fun e => .critical (.badEncoding e)))
            | .ok deposits =>
                match builder.derived.updateWithReceipts sysConfig receipts with
                | .error text => ({ builder with receiptsFetcher }, (PipelineError.systemConfigUpdate text).crit)
                | .ok sysConfig => ({ builder with receiptsFetcher }, .ok ⟨epochInfo, deposits, sysConfig, 0⟩)

def epochContinued (builder : StatefulAttributesBuilder L1P L2P Receipt) (l2Parent : L2BlockInfo)
    (epoch : BlockNumHash) (sysConfig : SystemConfig) :
    StatefulAttributesBuilder L1P L2P Receipt × PipelineResult EpochInputs :=
  if l2Parent.l1Origin.hash ≠ epoch.hash then
    (builder, (ResetError.attributesBuilder (.blockMismatch epoch l2Parent.l1Origin)).reset)
  else match ChainProvider.blockInfoByHash Receipt builder.receiptsFetcher epoch.hash with
    | (receiptsFetcher, .error text) => ({ builder with receiptsFetcher }, (PipelineError.provider text).temp)
    | (receiptsFetcher, .ok epochInfo) =>
        ({ builder with receiptsFetcher }, .ok ⟨epochInfo, [], sysConfig, l2Parent.seqNum + 1⟩)

def epochInputs (builder : StatefulAttributesBuilder L1P L2P Receipt) (l2Parent : L2BlockInfo)
    (epoch : BlockNumHash) : StatefulAttributesBuilder L1P L2P Receipt × PipelineResult EpochInputs :=
  match SystemConfigProvider.systemConfigByNumber builder.configFetcher l2Parent.blockInfo.number with
  | (configFetcher, .error text) => ({ builder with configFetcher }, (PipelineError.provider text).temp)
  | (configFetcher, .ok sysConfig) =>
      if l2Parent.l1Origin.number ≠ epoch.number then
        epochStart { builder with configFetcher } l2Parent epoch sysConfig
      else epochContinued { builder with configFetcher } l2Parent epoch sysConfig

def preparePayloadAttributes (builder : StatefulAttributesBuilder L1P L2P Receipt) (l2Parent : L2BlockInfo)
    (epoch : BlockNumHash) : StatefulAttributesBuilder L1P L2P Receipt × PipelineResult PayloadAttributes :=
  match builder.epochInputs l2Parent epoch with
  | (builder, .error e) => (builder, .error e)
  | (builder, .ok inputs) =>
      match builder.derived.encodedL1InfoTx inputs with
      | .error e => (builder, .error e)
      | .ok encodedL1InfoTx => (builder, .ok {
          timestamp := l2Parent.blockInfo.timestamp + builder.rollupCfg.blockTime
          transactions := some (encodedL1InfoTx :: inputs.depositTransactions)
          noTxPool := some true
          gasLimit := some inputs.sysConfig.gasLimit })

instance : AttributesBuilder (StatefulAttributesBuilder L1P L2P Receipt) where
  preparePayloadAttributes := preparePayloadAttributes

theorem epochInputs_derived (builder : StatefulAttributesBuilder L1P L2P Receipt) (l2Parent : L2BlockInfo)
    (epoch : BlockNumHash) : (builder.epochInputs l2Parent epoch).1.derived = builder.derived := by
  unfold epochInputs epochStart epochContinued
  repeat' split
  all_goals rfl

theorem preparePayloadAttributes_derived (builder : StatefulAttributesBuilder L1P L2P Receipt) (l2Parent : L2BlockInfo)
    (epoch : BlockNumHash) : (builder.preparePayloadAttributes l2Parent epoch).1.derived = builder.derived := by
  have derived := epochInputs_derived builder l2Parent epoch
  unfold preparePayloadAttributes
  generalize builder.epochInputs l2Parent epoch = result at derived
  obtain ⟨after, e | inputs⟩ := result
  · exact derived
  · simp only
    split
    · exact derived
    · exact derived

theorem preparePayloadAttributes_ok {builder after : StatefulAttributesBuilder L1P L2P Receipt}
    {l2Parent : L2BlockInfo} {epoch : BlockNumHash} {attributes : PayloadAttributes}
    (prepares : builder.preparePayloadAttributes l2Parent epoch = (after, .ok attributes)) :
    ∃ inputs l1InfoTx, builder.epochInputs l2Parent epoch = (after, .ok inputs) ∧
      builder.derived.encodedL1InfoTx inputs = .ok l1InfoTx ∧
      attributes.transactions = some (l1InfoTx :: inputs.depositTransactions) := by
  have derived := epochInputs_derived builder l2Parent epoch
  unfold preparePayloadAttributes at prepares
  split at prepares
  · cases prepares
  · rename_i found inputs reads
    split at prepares
    · cases prepares
    · rename_i l1InfoTx encodes
      cases prepares
      rw [reads] at derived
      exact ⟨inputs, l1InfoTx, reads, derived ▸ encodes, rfl⟩

end StatefulAttributesBuilder

/-! ### The derived transactions are native -/

/-- What the libraries promise: serialized transactions are read back, and messages call the programs of
their instructions. -/
structure DerivedTransactions.Lawful (derived : DerivedTransactions Receipt) (deserialize : BincodeDeserialize) : Prop where
  roundTrip : ∀ tx bytes, derived.bincodeSerialize tx = .ok bytes → deserialize bytes = some tx
  compiles : derived.solana.CompilesCalls

variable {derived : DerivedTransactions Receipt} {deserialize : BincodeDeserialize}

theorem sanitizedDerivedTxToBytes_native (lawful : derived.Lawful deserialize) {tx : VersionedTransaction}
    (native : tx.hasNativeInstruction = some true) {bytes : List UInt8}
    (encodes : derived.sanitizedDerivedTxToBytes tx = .ok bytes) : isNative deserialize bytes := by
  unfold DerivedTransactions.sanitizedDerivedTxToBytes at encodes
  split at encodes
  · rename_i serializes
    cases encodes
    simp [isNative, lawful.roundTrip _ _ serializes, L2Transaction.newFromDerivedTx, L2Transaction.transaction, native]
  · cases encodes

theorem encodedL1InfoTx_native (lawful : derived.Lawful deserialize) {inputs : EpochInputs} {bytes : List UInt8}
    (encodes : derived.encodedL1InfoTx inputs = .ok bytes) : isNative deserialize bytes := by
  unfold DerivedTransactions.encodedL1InfoTx at encodes
  split at encodes
  · cases encodes
  · rename_i tx creates
    split at encodes
    · cases encodes
    · rename_i serializes
      cases encodes
      obtain ⟨attributes, -, creates⟩ := bind_eq_ok.mp creates
      exact sanitizedDerivedTxToBytes_native lawful
        (AttributesDeposited.toSanitizedTransaction_native lawful.compiles creates) serializes

theorem deriveSanitizedDepositTx_native (lawful : derived.Lawful deserialize) {l1BlockNum : UInt64} {l1BlockHash : B256}
    {receipts : List Receipt} {deposits : List (List UInt8)}
    (derives : derived.deriveSanitizedDepositTx l1BlockNum l1BlockHash receipts = .ok deposits) :
    ∀ tx ∈ deposits, isNative deserialize tx := by
  intro bytes mem
  obtain ⟨depositTxs, -, encode⟩ := bind_eq_ok.mp derives
  obtain ⟨userDeposit, -, encodes⟩ := mem_of_mapM_eq_ok encode mem
  unfold DerivedTransactions.encodedDepositTx at encodes
  split at encodes
  · rename_i creates
    exact sanitizedDerivedTxToBytes_native lawful
      (UserDeposited.toSanitizedTransaction_native lawful.compiles creates) encodes
  · cases encodes

theorem epochInputs_native [ChainProvider L1P Receipt] [SystemConfigProvider L2P]
    {builder : StatefulAttributesBuilder L1P L2P Receipt} (lawful : builder.derived.Lawful deserialize)
    {l2Parent : L2BlockInfo} {epoch : BlockNumHash} {inputs : EpochInputs}
    (reads : (builder.epochInputs l2Parent epoch).2 = .ok inputs) :
    ∀ tx ∈ inputs.depositTransactions, isNative deserialize tx := by
  unfold StatefulAttributesBuilder.epochInputs at reads
  split at reads
  · cases reads
  · split at reads
    · unfold StatefulAttributesBuilder.epochStart at reads
      split at reads
      · cases reads
      · split at reads
        · cases reads
        · split at reads
          · cases reads
          · split at reads
            · cases reads
            · rename_i derives
              split at reads
              · cases reads
              · cases reads
                exact deriveSanitizedDepositTx_native lawful derives
    · unfold StatefulAttributesBuilder.epochContinued at reads
      split at reads
      · cases reads
      · split at reads
        · cases reads
        · cases reads
          simp

end Builder

/-! ## The attributes queue -/

structure AttributesQueue (P B : Type) where
  prev : P
  isLastInSpan : Bool
  batch : Option SingleBatch
  builder : B

structure AttributesWithParent where
  attributes : PayloadAttributes
  parent : L2BlockInfo
  isLastInSpan : Bool
deriving DecidableEq, Repr

namespace AttributesQueue

variable {P B : Type} [AttributesProvider P] [AttributesBuilder B]

def new (prev : P) (builder : B) : AttributesQueue P B := ⟨prev, false, none, builder⟩

def loadBatch (queue : AttributesQueue P B) (parent : L2BlockInfo) :
    AttributesQueue P B × PipelineResult SingleBatch :=
  match queue.batch with
  | some batch => (queue, .ok batch)
  | none =>
      match AttributesProvider.nextBatch queue.prev parent with
      | (prev, .error e) => ({ queue with prev }, .error e)
      | (prev, .ok batch) =>
          ({ queue with prev, batch := some batch, isLastInSpan := AttributesProvider.isLastInSpan prev }, .ok batch)

def extendAttributes (attributes : PayloadAttributes) (batch : SingleBatch) : PayloadAttributes :=
  { attributes with
    noTxPool := some true
    transactions := match attributes.transactions with
      | some txs => some (txs ++ batch.transactions)
      | none => if batch.transactions = [] then none else some batch.transactions }

def createNextAttributes (queue : AttributesQueue P B) (batch : SingleBatch) (parent : L2BlockInfo) :
    AttributesQueue P B × PipelineResult PayloadAttributes :=
  if batch.parentHash ≠ parent.blockInfo.hash then
    (queue, (ResetError.badParentHash batch.parentHash parent.blockInfo.hash).reset)
  else match AttributesBuilder.preparePayloadAttributes queue.builder parent batch.epoch with
    | (builder, .error e) => ({ queue with builder }, .error e)
    | (builder, .ok attributes) => ({ queue with builder }, .ok (extendAttributes attributes batch))

def nextAttributes (queue : AttributesQueue P B) (parent : L2BlockInfo) :
    AttributesQueue P B × PipelineResult AttributesWithParent :=
  match queue.loadBatch parent with
  | (queue, .error e) => (queue, .error e)
  | (queue, .ok batch) =>
      match queue.createNextAttributes batch parent with
      | (queue, .error e) => (queue, .error e)
      | (queue, .ok attributes) =>
          ({ queue with batch := none, isLastInSpan := false }, .ok ⟨attributes, parent, queue.isLastInSpan⟩)

def signal (queue : AttributesQueue P B) (s : Signal) : AttributesQueue P B × PipelineResult Unit :=
  match s with
  | .flushChannel =>
      let (prev, result) := Stage.signal queue.prev s
      ({ queue with prev, batch := none }, result)
  | _ =>
      match Stage.signal queue.prev s with
      | (prev, .error e) => ({ queue with prev }, .error e)
      | (prev, .ok ()) => ({ queue with prev, batch := none, isLastInSpan := false }, .ok ())

def advanceOrigin (queue : AttributesQueue P B) : AttributesQueue P B × PipelineResult Unit :=
  let (prev, result) := Stage.advanceOrigin queue.prev
  ({ queue with prev }, result)

end AttributesQueue

inductive Call where
  | nextAttributes (parent : L2BlockInfo)
  | advanceOrigin
  | signal (s : Signal)

def AttributesQueue.call {P B : Type} [AttributesProvider P] [AttributesBuilder B] (queue : AttributesQueue P B) :
    Call → AttributesQueue P B × PipelineResult (Option AttributesWithParent)
  | .nextAttributes parent =>
      let (queue, result) := queue.nextAttributes parent
      (queue, result.map some)
  | .advanceOrigin =>
      let (queue, result) := queue.advanceOrigin
      (queue, result.map fun _ => none)
  | .signal s =>
      let (queue, result) := queue.signal s
      (queue, result.map fun _ => none)

end KonaSoon.Derive
