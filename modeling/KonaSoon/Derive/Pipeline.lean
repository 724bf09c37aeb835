import KonaSoon.Derive.Batch
import KonaSoon.Primitives.Deposit

namespace KonaSoon.Derive
open Lib Mpt

structure SystemConfig where
  batcherAddress : Address
  overhead : BitVec 256
  scalar : BitVec 256
  gasLimit : UInt64
  baseFeeScalar : Option UInt64
  blobBaseFeeScalar : Option UInt64
  eip1559Denominator : Option UInt32
  eip1559Elasticity : Option UInt32
  operatorFeeScalar : Option UInt32
  operatorFeeConstant : Option UInt64
deriving DecidableEq, Repr

inductive BuilderError where
  | blockMismatch (expected got : BlockNumHash)
  | blockMismatchEpochReset (epoch origin : BlockNumHash) (parentHash : B256)
deriving DecidableEq, Repr

inductive PipelineEncodingError where
  | emptyBuffer
  | alloyRlpError (e : RlpError)
  | depositError (e : DepositError)
  | spanBatchError (e : SpanBatchError)
  | l2TxSerializeErr (text : String)
deriving DecidableEq, Repr

inductive PipelineError where
  | eof
  | notEnoughData
  | channelProviderEmpty
  | channelNotFound
  | batchQueueEmpty
  | missingOrigin
  | missingL1Data
  | invalidBatchType
  | invalidBatchValidity
  | systemConfigUpdate (text : String)
  | badEncoding (e : PipelineEncodingError)
  | endOfSource
  | provider (text : String)
  | parseL1BlockInfoTxErr (text : String)
deriving DecidableEq, Repr

inductive ResetError where
  | badParentHash (expected actual : B256)
  | l1OriginMismatch (expected got : UInt64)
  | reorgDetected (expected got : B256)
  | attributesBuilder (e : BuilderError)
  | holoceneActivation
deriving DecidableEq, Repr

inductive PipelineErrorKind where
  | temporary (e : PipelineError)
  | critical (e : PipelineError)
  | reset (e : ResetError)
deriving DecidableEq, Repr

abbrev PipelineResult (α : Type) := Outcome PipelineErrorKind α

def PipelineError.temp {α : Type} (e : PipelineError) : PipelineResult α := .error (.error (.temporary e))

def PipelineError.crit {α : Type} (e : PipelineError) : PipelineResult α := .error (.error (.critical e))

def ResetError.reset {α : Type} (e : ResetError) : PipelineResult α := .error (.error (.reset e))

inductive Signal where
  | reset (l2SafeHead : L2BlockInfo) (l1Origin : BlockInfo) (systemConfig : Option SystemConfig)
  | activation (l2SafeHead : L2BlockInfo) (l1Origin : BlockInfo) (systemConfig : Option SystemConfig)
  | flushChannel
deriving DecidableEq, Repr

class Stage (P : Type) where
  origin : P → Option BlockInfo
  advanceOrigin : P → P × PipelineResult Unit
  signal : P → Signal → P × PipelineResult Unit

class NextBatchProvider (P : Type) extends Stage P where
  nextBatch : P → L2BlockInfo → List BlockInfo → P × PipelineResult Batch
  flush : P → P

class AttributesProvider (P : Type) extends Stage P where
  nextBatch : P → L2BlockInfo → P × PipelineResult SingleBatch
  isLastInSpan : P → Bool

structure PayloadAttributes where
  timestamp : UInt64
  transactions : Option (List (List UInt8))
  noTxPool : Option Bool
  gasLimit : Option UInt64
deriving DecidableEq, Repr

class AttributesBuilder (B : Type) where
  preparePayloadAttributes : B → L2BlockInfo → BlockNumHash → B × PipelineResult PayloadAttributes

end KonaSoon.Derive
