import KonaSoon.Lib.Outcome
import KonaSoon.Primitives.Blocks

namespace KonaSoon.Derive
open Lib Mpt

structure SoonRollupConfig where
  maxSequencerDrift : UInt64
  seqWindowSize : UInt64
  blockTime : UInt64
deriving DecidableEq, Repr

inductive BatchValidity where
  | drop
  | accept
  | undecided
  | future
  | past
deriving DecidableEq, Repr

structure SingleBatch where
  parentHash : B256
  epochNum : UInt64
  epochHash : B256
  timestamp : UInt64
  transactions : List (List UInt8)
deriving DecidableEq, Repr

namespace SingleBatch

def hasInvalidTransactions (batch : SingleBatch) : Bool :=
  batch.transactions.any fun tx => tx = [] || tx.head? = some 0x7E

def epoch (batch : SingleBatch) : BlockNumHash := ⟨batch.epochNum, batch.epochHash⟩

def checkTransactions (batch : SingleBatch) : BatchValidity :=
  if batch.transactions.any (· = []) then .drop else .accept

def checkOrigin (batch : SingleBatch) (cfg : SoonRollupConfig) (nextBlock : Option BlockInfo) (l2SafeHead : L2BlockInfo)
    (epoch batchOrigin : BlockInfo) : BatchValidity :=
  if batch.epochHash ≠ batchOrigin.hash ∧ l2SafeHead.blockInfo.number ≠ 0 then .drop
  else match checkedAdd batchOrigin.timestamp cfg.maxSequencerDrift with
    | none => .drop
    | some max =>
        if max < batch.timestamp ∧ batch.transactions ≠ [] then .drop
        else if max < batch.timestamp ∧ epoch.number = batchOrigin.number then
          match nextBlock with
          | none => .undecided
          | some nextOrigin =>
              if nextOrigin.timestamp ≤ batch.timestamp then .drop else batch.checkTransactions
        else batch.checkTransactions

def checkBatch (batch : SingleBatch) (cfg : SoonRollupConfig) (l1Blocks : List BlockInfo) (l2SafeHead : L2BlockInfo)
    (inclusionBlock : BlockInfo) : BatchValidity :=
  match l1Blocks with
  | [] => .undecided
  | epoch :: later =>
      if batch.timestamp < l2SafeHead.blockInfo.timestamp then .past
      else if batch.parentHash ≠ l2SafeHead.blockInfo.hash then .past
      else if batch.epochNum + cfg.seqWindowSize < inclusionBlock.number then .drop
      else if batch.epochNum < epoch.number then .drop
      else if batch.epochNum = epoch.number then batch.checkOrigin cfg later.head? l2SafeHead epoch epoch
      else if batch.epochNum = epoch.number + 1 then
        match later with
        | [] => .undecided
        | next :: _ => batch.checkOrigin cfg later.head? l2SafeHead epoch next
      else .drop

end SingleBatch

structure SpanBatchElement where
  epochNum : UInt64
  timestamp : UInt64
  transactions : List (List UInt8)
deriving DecidableEq, Repr

inductive SpanDecodingError where
  | relativeTimestamp
  | l1OriginNumber
  | parentCheck
  | l1OriginCheck
  | blockCount
  | blockTxCounts
  | txNonces
  | typeSignatureLenMismatch
  | invalidTransactionType
  | invalidTransactionData
  | invalidTransactionSignature
deriving DecidableEq, Repr

inductive SpanBatchError where
  | tooBigSpanBatchSize
  | bitfieldTooLong
  | emptySpanBatch
  | missingL1Origin
  | decoding (e : SpanDecodingError)
deriving DecidableEq, Repr

structure SpanBatch where
  parentCheck : { bytes : List UInt8 // bytes.length = 20 }
  l1OriginCheck : { bytes : List UInt8 // bytes.length = 20 }
  batches : List SpanBatchElement
deriving DecidableEq, Repr

class L2ChainProvider (F : Type) where
  l2BlockInfoByNumber : F → UInt64 → F × Except String L2BlockInfo

namespace SpanBatch

def checkOriginHash (batch : SpanBatch) (hash : B256) : Bool := batch.l1OriginCheck.1 = hash.1.take 20

def checkParentHash (batch : SpanBatch) (hash : B256) : Bool := batch.parentCheck.1 = hash.1.take 20

variable {F : Type} [L2ChainProvider F]

/-- The parent block of a span that starts with this element, or the verdict if it has none. There is no
result where the source divides by a block time of zero. -/
def findParent (cfg : SoonRollupConfig) (l2SafeHead : L2BlockInfo) (first : SpanBatchElement) (fetcher : F) :
    F × Option (Except BatchValidity L2BlockInfo) :=
  if first.timestamp < l2SafeHead.blockInfo.timestamp + cfg.blockTime then
    if l2SafeHead.blockInfo.timestamp < first.timestamp then (fetcher, some (.error .drop))
    else if cfg.blockTime = 0 then (fetcher, none)
    else if (l2SafeHead.blockInfo.timestamp - first.timestamp) % cfg.blockTime ≠ 0 then (fetcher, some (.error .drop))
    else
      let parentNum := l2SafeHead.blockInfo.number -
        (l2SafeHead.blockInfo.timestamp - first.timestamp) / cfg.blockTime - 1
      match L2ChainProvider.l2BlockInfoByNumber fetcher parentNum with
      | (fetcher, .ok block) => (fetcher, some (.ok block))
      | (fetcher, .error _) => (fetcher, some (.error .undecided))
  else (fetcher, some (.ok l2SafeHead))

def checkOnParent (batch : SpanBatch) (cfg : SoonRollupConfig) (l1Origins : List BlockInfo) (inclusionBlock : BlockInfo)
    (first last : SpanBatchElement) (parentBlock : L2BlockInfo) : BatchValidity × Option L2BlockInfo :=
  if ¬ batch.checkParentHash parentBlock.blockInfo.hash then (.drop, none)
  else if first.epochNum + cfg.seqWindowSize < inclusionBlock.number then (.drop, none)
  else if parentBlock.l1Origin.number + 1 < first.epochNum then (.drop, none)
  else match l1Origins.find? fun block => block.number = last.epochNum with
    | none => (.undecided, none)
    | some block =>
        if ¬ batch.checkOriginHash block.hash then (.drop, none)
        else if first.epochNum < parentBlock.l1Origin.number then (.drop, none)
        else (.accept, some parentBlock)

def checkBatchPrefix (batch : SpanBatch) (cfg : SoonRollupConfig) (l1Origins : List BlockInfo)
    (l2SafeHead : L2BlockInfo) (inclusionBlock : BlockInfo) (fetcher : F) :
    F × Option (BatchValidity × Option L2BlockInfo) :=
  match l1Origins, batch.batches with
  | [], _ => (fetcher, some (.undecided, none))
  | _ :: _, [] => (fetcher, some (.undecided, none))
  | epoch :: later, first :: rest =>
      let last := rest.getLast?.getD first
      let nextTimestamp := l2SafeHead.blockInfo.timestamp + cfg.blockTime
      if first.epochNum = epoch.number + 1 ∧ later = [] then (fetcher, some (.undecided, none))
      else if nextTimestamp < first.timestamp then (fetcher, some (.drop, none))
      else if last.timestamp < nextTimestamp then (fetcher, some (.past, none))
      else match findParent cfg l2SafeHead first fetcher with
        | (fetcher, none) => (fetcher, none)
        | (fetcher, some (.error validity)) => (fetcher, some (validity, none))
        | (fetcher, some (.ok parentBlock)) =>
            (fetcher, some (batch.checkOnParent cfg (epoch :: later) inclusionBlock first last parentBlock))

def findOrigin (l1Blocks : List BlockInfo) (originIndex : Nat) (epochNum : UInt64) : Nat :=
  match (l1Blocks.drop originIndex).findIdx? fun block => block.number = epochNum with
  | some offset => originIndex + offset
  | none => originIndex

def advances (originAdvanced : Bool) : Option SpanBatchElement → SpanBatchElement → Bool
  | none, _ => originAdvanced
  | some previous, element => previous.epochNum < element.epochNum

def checkTime (cfg : SoonRollupConfig) (nextOrigin : Option BlockInfo) (l1Origin : BlockInfo) (originAdvanced : Bool)
    (element : SpanBatchElement) : Option BatchValidity :=
  if element.timestamp < l1Origin.timestamp then some .drop
  else if l1Origin.timestamp + cfg.maxSequencerDrift < element.timestamp then
    if element.transactions = [] then
      if originAdvanced then none
      else match nextOrigin with
        | none => some .undecided
        | some next => if next.timestamp ≤ element.timestamp then some .drop else none
    else some .drop
  else none

def transactionAllowed (tx : List UInt8) : Bool := tx ≠ [] && tx.head? ≠ some 0x7E

/-- The loop over the elements. There is no result where the source indexes out of range. -/
def checkElements (cfg : SoonRollupConfig) (l1Blocks : List BlockInfo) (safeTimestamp : UInt64) :
    Nat → Bool → Option SpanBatchElement → List SpanBatchElement → Option BatchValidity
  | _, _, _, [] => some .accept
  | originIndex, originAdvanced, previous, element :: rest =>
      if element.timestamp ≤ safeTimestamp then
        checkElements cfg l1Blocks safeTimestamp originIndex originAdvanced (some element) rest
      else
        let originIndex := findOrigin l1Blocks originIndex element.epochNum
        match l1Blocks[originIndex]? with
        | none => none
        | some l1Origin =>
            let originAdvanced := advances originAdvanced previous element
            match checkTime cfg l1Blocks[originIndex + 1]? l1Origin originAdvanced element with
            | some verdict => some verdict
            | none =>
                if element.transactions.any fun tx => !transactionAllowed tx then some .drop
                else checkElements cfg l1Blocks safeTimestamp originIndex originAdvanced (some element) rest

def checkBatch (batch : SpanBatch) (cfg : SoonRollupConfig) (l1Blocks : List BlockInfo) (l2SafeHead : L2BlockInfo)
    (inclusionBlock : BlockInfo) (fetcher : F) : F × Option BatchValidity :=
  match batch.checkBatchPrefix cfg l1Blocks l2SafeHead inclusionBlock fetcher with
  | (fetcher, none) => (fetcher, none)
  | (fetcher, some (.accept, parentBlock)) =>
      match parentBlock, batch.batches with
      | some parentBlock, first :: _ => (fetcher, checkElements cfg l1Blocks l2SafeHead.blockInfo.timestamp 0
          (first.epochNum = parentBlock.l1Origin.number + 1) none batch.batches)
      | _, _ => (fetcher, none)
  | (fetcher, some (verdict, _)) => (fetcher, some verdict)

/-- The loop of `get_singular_batches`. The index that it keeps is relative to the blocks it has just
searched. -/
def singularBatches (l1Origins : List BlockInfo) (safeTimestamp : UInt64) :
    Nat → List SpanBatchElement → Except SpanBatchError (List SingleBatch)
  | _, [] => .ok []
  | originIndex, element :: rest =>
      if element.timestamp ≤ safeTimestamp then singularBatches l1Origins safeTimestamp originIndex rest
      else match (l1Origins.drop originIndex).zipIdx.find? fun origin => origin.1.number = element.epochNum with
        | none => .error .missingL1Origin
        | some (origin, index) => do
            let later ← singularBatches l1Origins safeTimestamp index rest
            return ⟨.ofNat 0, element.epochNum, origin.hash, element.timestamp, element.transactions⟩ :: later

def getSingularBatches (batch : SpanBatch) (l1Origins : List BlockInfo) (l2SafeHead : L2BlockInfo) :
    Except SpanBatchError (List SingleBatch) :=
  singularBatches l1Origins l2SafeHead.blockInfo.timestamp 0 batch.batches

end SpanBatch

inductive Batch where
  | single (batch : SingleBatch)
  | span (batch : SpanBatch)
deriving DecidableEq, Repr

structure BatchWithInclusionBlock where
  inclusionBlock : BlockInfo
  batch : Batch
deriving DecidableEq, Repr

def BatchWithInclusionBlock.checkBatch {F : Type} [L2ChainProvider F] (data : BatchWithInclusionBlock)
    (cfg : SoonRollupConfig) (l1Blocks : List BlockInfo) (l2SafeHead : L2BlockInfo) (fetcher : F) :
    F × Option BatchValidity :=
  match data.batch with
  | .single batch => (fetcher, some (batch.checkBatch cfg l1Blocks l2SafeHead data.inclusionBlock))
  | .span batch => batch.checkBatch cfg l1Blocks l2SafeHead data.inclusionBlock fetcher

def Batch.transactions : Batch → List (List UInt8)
  | .single batch => batch.transactions
  | .span batch => batch.batches.flatMap (·.transactions)

end KonaSoon.Derive
