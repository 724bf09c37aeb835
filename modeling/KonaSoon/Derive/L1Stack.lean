import KonaSoon.Derive.Pipeline

/-!
# Reading the L1 chain

`L1Traversal` and `L1Retrieval` (`derive/src/stages`) with the calldata and DA-server sources
(`derive/src/sources`). A provider may answer one call and fail the next, so each call is given the
provider as it answers then; its errors are already those of the pipeline.
-/

namespace KonaSoon.Derive
open Lib Mpt

structure L1Transaction where
  hash : B256
  sender : Address
  input : List UInt8
  recipient : Option Address
deriving DecidableEq, Repr

structure L1ChainProvider (Receipt : Type) where
  blockInfoByNumber : UInt64 → Except PipelineErrorKind BlockInfo
  receiptsByHash : B256 → Except PipelineErrorKind (List Receipt)
  getBlockTransactionsByHash : B256 → Except PipelineErrorKind (List L1Transaction)

/-- `update_with_receipts` changes the configuration log by log, also when it fails in the end. -/
abbrev UpdateWithReceipts (Receipt : Type) := SystemConfig → List Receipt → SystemConfig × Except String Unit

def liftPipeline {α : Type} : Except PipelineErrorKind α → PipelineResult α
  | .ok a => .ok a
  | .error e => .error (.error e)

/-! ## Traversal -/

structure L1Traversal where
  block : Option BlockInfo
  done : Bool
  systemConfig : SystemConfig
deriving DecidableEq, Repr

namespace L1Traversal

variable {Receipt : Type}

def new (systemConfig : SystemConfig) : L1Traversal := ⟨some ⟨.ofNat 0, 0, .ofNat 0, 0⟩, false, systemConfig⟩

def batcherAddr (traversal : L1Traversal) : Address := traversal.systemConfig.batcherAddress

def nextL1Block (traversal : L1Traversal) : L1Traversal × PipelineResult (Option BlockInfo) :=
  if !traversal.done then ({ traversal with done := true }, .ok traversal.block)
  else (traversal, PipelineError.eof.temp)

def nextOrigin (provider : L1ChainProvider Receipt) (traversal : L1Traversal) :
    PipelineResult (BlockInfo × List Receipt) := do
  match traversal.block with
  | none => PipelineError.eof.temp
  | some block =>
      let nextL1Origin ← liftPipeline (provider.blockInfoByNumber (block.number + 1))
      if block.hash ≠ nextL1Origin.parentHash then
        (ResetError.reorgDetected block.hash nextL1Origin.parentHash).reset
      else
        let receipts ← liftPipeline (provider.receiptsByHash nextL1Origin.hash)
        return (nextL1Origin, receipts)

def advanceOrigin (updateWithReceipts : UpdateWithReceipts Receipt) (provider : L1ChainProvider Receipt)
    (traversal : L1Traversal) : L1Traversal × PipelineResult Unit :=
  match traversal.nextOrigin provider with
  | .error e => (traversal, .error e)
  | .ok (nextL1Origin, receipts) =>
      match updateWithReceipts traversal.systemConfig receipts with
      | (systemConfig, .error text) => ({ traversal with systemConfig }, (PipelineError.systemConfigUpdate text).crit)
      | (systemConfig, .ok ()) => (⟨some nextL1Origin, false, systemConfig⟩, .ok ())

/-- A reset or an activation without a system configuration panics. -/
def signal (traversal : L1Traversal) : Signal → L1Traversal × PipelineResult Unit
  | .reset _ l1Origin systemConfig | .activation _ l1Origin systemConfig =>
      match systemConfig with
      | none => ({ traversal with block := some l1Origin, done := false }, .error .panic)
      | some systemConfig => (⟨some l1Origin, false, systemConfig⟩, .ok ())
  | .flushChannel => (traversal, .ok ())

end L1Traversal

/-! ## Sources -/

structure CalldataSource where
  batchInboxAddress : Address
  calldata : List (List UInt8)
  isOpen : Bool
deriving DecidableEq, Repr

namespace CalldataSource

variable {Receipt : Type}

def new (batchInboxAddress : Address) : CalldataSource := ⟨batchInboxAddress, [], false⟩

def batcherInputs (batchInboxAddress batcherAddress : Address) (txs : List L1Transaction) : List (List UInt8) :=
  txs.filterMap fun tx =>
    match tx.recipient with
    | none => none
    | some recipient =>
        if recipient ≠ batchInboxAddress then none
        else if tx.sender ≠ batcherAddress then none
        else some tx.input

def loadCalldata (provider : L1ChainProvider Receipt) (source : CalldataSource) (blockRef : BlockInfo)
    (batcherAddress : Address) : CalldataSource × Except PipelineErrorKind Unit :=
  if source.isOpen then (source, .ok ())
  else
    match provider.getBlockTransactionsByHash blockRef.hash with
    | .error e => (source, .error e)
    | .ok txs =>
        ({ source with calldata := batcherInputs source.batchInboxAddress batcherAddress txs, isOpen := true }, .ok ())

def next (provider : L1ChainProvider Receipt) (source : CalldataSource) (blockRef : BlockInfo)
    (batcherAddress : Address) : CalldataSource × PipelineResult (List UInt8) :=
  match source.loadCalldata provider blockRef batcherAddress with
  | (source, .error e) => (source, .error (.error e))
  | (source, .ok ()) =>
      match source.calldata with
      | [] => (source, PipelineError.eof.temp)
      | data :: rest => ({ source with calldata := rest }, .ok data)

def clear (source : CalldataSource) : CalldataSource := { source with calldata := [], isOpen := false }

end CalldataSource

structure DAServerSource where
  calldataSource : CalldataSource
  data : List (List UInt8)
deriving DecidableEq, Repr

/-- `get_input` of the DA server. -/
abbrev GetInput := List UInt8 → Except PipelineErrorKind (List UInt8)

namespace DAServerSource

variable {Receipt : Type}

def new (batchInboxAddress : Address) : DAServerSource := ⟨.new batchInboxAddress, []⟩

def loadDaServerData (getInput : GetInput) (source : DAServerSource) (commitment : List UInt8) :
    DAServerSource × PipelineResult Unit :=
  match getInput commitment with
  | .error e => (source, .error (.error e))
  | .ok imageData => ({ source with data := source.data ++ [imageData] }, .ok ())

def next (provider : L1ChainProvider Receipt) (getInput : GetInput) (source : DAServerSource) (blockRef : BlockInfo)
    (batcherAddress : Address) : DAServerSource × PipelineResult (List UInt8) :=
  match source.calldataSource.next provider blockRef batcherAddress with
  | (calldataSource, .error e) => ({ source with calldataSource }, .error e)
  | (calldataSource, .ok commitment) =>
      match { source with calldataSource }.loadDaServerData getInput commitment with
      | (source, .error e) => (source, .error e)
      | (source, .ok ()) =>
          match source.data with
          | [] => (source, PipelineError.eof.temp)
          | data :: rest => ({ source with data := rest }, .ok data)

def clear (source : DAServerSource) : DAServerSource := ⟨source.calldataSource.clear, []⟩

end DAServerSource

/-! ## Retrieval -/

/-- `L1Retrieval` on a traversal stage and a calldata source. -/
structure L1Retrieval where
  prev : L1Traversal
  provider : CalldataSource
  next : Option BlockInfo
deriving DecidableEq, Repr

namespace L1Retrieval

variable {Receipt : Type}

def new (prev : L1Traversal) (provider : CalldataSource) : L1Retrieval := ⟨prev, provider, none⟩

def takeBlock (stage : L1Retrieval) : L1Retrieval × PipelineResult BlockInfo :=
  match stage.next with
  | some next => (stage, .ok next)
  | none =>
      match stage.prev.nextL1Block with
      | (prev, .error e) => ({ stage with prev }, .error e)
      | (prev, .ok none) => ({ stage with prev }, PipelineError.missingL1Data.temp)
      | (prev, .ok (some block)) => ({ stage with prev, next := some block }, .ok block)

def nextData (chain : L1ChainProvider Receipt) (stage : L1Retrieval) : L1Retrieval × PipelineResult (List UInt8) :=
  match stage.takeBlock with
  | (stage, .error e) => (stage, .error e)
  | (stage, .ok next) =>
      match stage.provider.next chain next stage.prev.batcherAddr with
      | (provider, .ok data) => ({ stage with provider }, .ok data)
      | (provider, .error e) =>
          if e = .error (.temporary .eof) then ({ stage with provider := provider.clear, next := none }, .error e)
          else ({ stage with provider }, .error e)

def advanceOrigin (updateWithReceipts : UpdateWithReceipts Receipt) (chain : L1ChainProvider Receipt)
    (stage : L1Retrieval) : L1Retrieval × PipelineResult Unit :=
  let (prev, result) := stage.prev.advanceOrigin updateWithReceipts chain
  ({ stage with prev }, result)

def signal (stage : L1Retrieval) (s : Signal) : L1Retrieval × PipelineResult Unit :=
  match stage.prev.signal s with
  | (prev, .error e) => ({ stage with prev }, .error e)
  | (prev, .ok ()) =>
      match s with
      | .reset _ l1Origin _ | .activation _ l1Origin _ => ({ stage with prev, next := some l1Origin }, .ok ())
      | .flushChannel => ({ stage with prev }, .ok ())

end L1Retrieval

end KonaSoon.Derive
