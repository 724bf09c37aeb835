import KonaSoon.Derive.SpanBounds

/-!
# Building and encoding of span batches

`SpanBatchTransactions::add_txs` and `SpanBatch::append_singular_batch` (`derive/src/batch/span_batch`). Both write
to the batch while they read the transactions, so that an error leaves behind what was written up to it. A batch is
then converted to a `RawSpanBatch`, whose fields are written one after the other.
-/

namespace KonaSoon.Derive
open Lib Mpt

/-! ## Transactions -/

def TxKind.toOption : TxKind → Option Address
  | create => none
  | call to_ => some to_

namespace Transaction

def txType : Transaction → TxType
  | legacy _ => .legacy
  | eip2930 _ => .eip2930
  | eip1559 _ => .eip1559
  | eip7702 _ => .eip7702

def chainId : Transaction → Option UInt64
  | legacy tx => tx.chainId
  | eip2930 tx => some tx.chainId
  | eip1559 tx => some tx.chainId
  | eip7702 tx => some tx.chainId

def nonce : Transaction → UInt64
  | legacy tx => tx.nonce
  | eip2930 tx => tx.nonce
  | eip1559 tx => tx.nonce
  | eip7702 tx => tx.nonce

def gasLimit : Transaction → UInt64
  | legacy tx => tx.gasLimit
  | eip2930 tx => tx.gasLimit
  | eip1559 tx => tx.gasLimit
  | eip7702 tx => tx.gasLimit

def to_ : Transaction → Option Address
  | legacy tx => tx.to_.toOption
  | eip2930 tx => tx.to_.toOption
  | eip1559 tx => tx.to_.toOption
  | eip7702 tx => some tx.to_

def isReplayProtected : Transaction → Bool
  | legacy tx => tx.chainId.isSome
  | eip2930 _ => true
  | eip1559 _ => true
  | eip7702 _ => true

def ofOtherChain (tx : Transaction) (chainId : UInt64) : Bool :=
  tx.isReplayProtected && tx.chainId ≠ some chainId

end Transaction

inductive EnvelopedTx where
  | plain (envelope : TxEnvelope)
  | eip4844
deriving DecidableEq, Repr

/-- What the builder takes from `unsigned_varint`, `alloy_rlp` and `alloy_consensus`. -/
structure Encoders where
  varintU64 : UInt64 → List UInt8
  decodeTx : List UInt8 → Except RlpError EnvelopedTx
  legacy : SpanBatchLegacyTransactionData → List UInt8
  eip2930 : SpanBatchEip2930TransactionData → List UInt8
  eip1559 : SpanBatchEip1559TransactionData → List UInt8
  eip7702 : SpanBatchEip7702TransactionData → List UInt8

namespace SpanBatchTransactionData

def ofTransaction : Transaction → SpanBatchTransactionData
  | .legacy tx => legacy ⟨tx.value, tx.gasPrice.setWidth 256, tx.input⟩
  | .eip2930 tx => eip2930 ⟨tx.value, tx.gasPrice.setWidth 256, tx.input, tx.accessList⟩
  | .eip1559 tx => eip1559 ⟨tx.value, tx.maxPriorityFeePerGas.setWidth 256, tx.maxFeePerGas.setWidth 256, tx.input,
      tx.accessList⟩
  | .eip7702 tx => eip7702 ⟨tx.value, tx.maxPriorityFeePerGas.setWidth 256, tx.maxFeePerGas.setWidth 256, tx.input,
      tx.accessList, tx.authorizationList⟩

def tryFrom : EnvelopedTx → Except SpanBatchError (TxEnvelope × SpanBatchTransactionData)
  | .plain envelope => .ok (envelope, ofTransaction envelope.tx)
  | .eip4844 => .error (.decoding .invalidTransactionType)

def encode (encoders : Encoders) : SpanBatchTransactionData → List UInt8
  | legacy data => encoders.legacy data
  | eip2930 data => 1 :: encoders.eip2930 data
  | eip1559 data => 2 :: encoders.eip1559 data
  | eip7702 data => 4 :: encoders.eip7702 data

end SpanBatchTransactionData

/-! ## Columns -/

namespace SpanBatchTransactions

def empty : SpanBatchTransactions := ⟨0, ⟨[]⟩, [], [], [], [], [], ⟨[]⟩, [], 0⟩

def noteLegacy (txs : SpanBatchTransactions) (tx : Transaction) : SpanBatchTransactions :=
  if tx.txType = .legacy then
    { txs with
      protectedBits := txs.protectedBits.setBit txs.legacyTxCount.toNat tx.isReplayProtected
      legacyTxCount := txs.legacyTxCount + 1 }
  else txs

def push (txs : SpanBatchTransactions) (position : UInt64) (envelope : TxEnvelope) (data : List UInt8) :
    SpanBatchTransactions :=
  { txs with
    txTos := txs.txTos ++ envelope.tx.to_.toList
    txSigs := txs.txSigs ++ [envelope.signature]
    contractCreationBits := txs.contractCreationBits.setBit position.toNat envelope.tx.to_.isNone
    txNonces := txs.txNonces ++ [envelope.tx.nonce]
    txDatas := txs.txDatas ++ [data]
    txGases := txs.txGases ++ [envelope.tx.gasLimit]
    txTypes := txs.txTypes ++ [envelope.tx.txType] }

def addTx (encoders : Encoders) (chainId position : UInt64) (txs : SpanBatchTransactions) (tx : List UInt8) :
    SpanBatchTransactions × Except SpanBatchError Unit :=
  match encoders.decodeTx tx with
  | .error _ => (txs, .error (.decoding .invalidTransactionData))
  | .ok enveloped =>
      match SpanBatchTransactionData.tryFrom enveloped with
      | .error e => (txs, .error e)
      | .ok (envelope, spanBatchTx) =>
          if envelope.tx.ofOtherChain chainId then
            (txs.noteLegacy envelope.tx, .error (.decoding .invalidTransactionData))
          else ((txs.noteLegacy envelope.tx).push position envelope (spanBatchTx.encode encoders), .ok ())

def addTxsFrom (encoders : Encoders) (chainId offset : UInt64) :
    UInt64 → List (List UInt8) → SpanBatchTransactions → SpanBatchTransactions × Except SpanBatchError Unit
  | _, [], txs => (txs, .ok ())
  | i, tx :: later, txs =>
      match txs.addTx encoders chainId (i + offset) tx with
      | (txs, .error e) => (txs, .error e)
      | (txs, .ok ()) => addTxsFrom encoders chainId offset (i + 1) later txs

def addTxs (encoders : Encoders) (chainId : UInt64) (txs : SpanBatchTransactions) (added : List (List UInt8)) :
    SpanBatchTransactions × Except SpanBatchError Unit :=
  match addTxsFrom encoders chainId txs.totalBlockTxCount 0 added txs with
  | (txs, .error e) => (txs, .error e)
  | (txs, .ok ()) => ({ txs with totalBlockTxCount := txs.totalBlockTxCount + UInt64.ofNat added.length }, .ok ())

/-! ## Encoding of columns -/

def encodeContractCreationBits (txs : SpanBatchTransactions) : Outcome SpanBatchError (List UInt8) :=
  SpanBatchBits.encode txs.totalBlockTxCount.toNat txs.contractCreationBits

def encodeProtectedBits (txs : SpanBatchTransactions) : Outcome SpanBatchError (List UInt8) :=
  SpanBatchBits.encode txs.legacyTxCount.toNat txs.protectedBits

def yParityBits (txSigs : List Signature) : SpanBatchBits :=
  txSigs.zipIdx.foldl (fun bits entry => bits.setBit entry.2 entry.1.yParity) ⟨[]⟩

def encodeTxSig (sig : Signature) : List UInt8 := (bigEndian 32 sig.r.toNat).1 ++ (bigEndian 32 sig.s.toNat).1

def encodeTxSigs (txs : SpanBatchTransactions) : Outcome SpanBatchError (List UInt8) := do
  let parities ← SpanBatchBits.encode txs.totalBlockTxCount.toNat (yParityBits txs.txSigs)
  pure (parities ++ txs.txSigs.flatMap encodeTxSig)

def encodeTxTos (txs : SpanBatchTransactions) : List UInt8 := txs.txTos.flatMap (·.1)

def encodeTxDatas (txs : SpanBatchTransactions) : List UInt8 := txs.txDatas.flatten

def encodeTxNonces (encoders : Encoders) (txs : SpanBatchTransactions) : List UInt8 :=
  txs.txNonces.flatMap encoders.varintU64

def encodeTxGases (encoders : Encoders) (txs : SpanBatchTransactions) : List UInt8 :=
  txs.txGases.flatMap encoders.varintU64

def encode (encoders : Encoders) (txs : SpanBatchTransactions) : Outcome SpanBatchError (List UInt8) := do
  let creations ← txs.encodeContractCreationBits
  let sigs ← txs.encodeTxSigs
  let protections ← txs.encodeProtectedBits
  pure (creations ++ (sigs ++ (txs.encodeTxTos ++ (txs.encodeTxDatas ++ (txs.encodeTxNonces encoders ++
    (txs.encodeTxGases encoders ++ protections))))))

end SpanBatchTransactions

/-! ## Span batches -/

structure SpanBatchBuilder extends SpanBatch where
  genesisTimestamp : UInt64
  chainId : UInt64
  originBits : SpanBatchBits
  blockTxCounts : List UInt64
  txs : SpanBatchTransactions
deriving DecidableEq, Repr

def hashCheck (hash : B256) : FixedBytes 20 := ⟨hash.1.take 20, by rw [List.length_take, hash.2]; rfl⟩

namespace SpanBatchBuilder

def new (genesisTimestamp chainId : UInt64) : SpanBatchBuilder :=
  ⟨⟨⟨List.replicate 20 0, List.length_replicate⟩, ⟨List.replicate 20 0, List.length_replicate⟩, []⟩, genesisTimestamp,
    chainId, ⟨[]⟩, [], .empty⟩

/-- The last element is later than the batch, which the source answers with a panic. -/
def outOfOrder (builder : SpanBatchBuilder) (singularBatch : SingleBatch) : Bool :=
  builder.batches.getLast?.any fun last => decide (singularBatch.timestamp < last.timestamp)

def epochBit (builder : SpanBatchBuilder) (singularBatch : SingleBatch) (seqNum : UInt64) : Bool :=
  match builder.batches.getLast? with
  | none => seqNum = 0
  | some last => decide (last.epochNum < singularBatch.epochNum)

def appendElement (builder : SpanBatchBuilder) (singularBatch : SingleBatch) (seqNum : UInt64) : SpanBatchBuilder :=
  { builder with
    parentCheck := if builder.batches = [] then hashCheck singularBatch.parentHash else builder.parentCheck
    l1OriginCheck := hashCheck singularBatch.epochHash
    batches := builder.batches ++ [⟨singularBatch.epochNum, singularBatch.timestamp, singularBatch.transactions⟩]
    originBits := builder.originBits.setBit builder.batches.length (builder.epochBit singularBatch seqNum)
    blockTxCounts := builder.blockTxCounts ++ [UInt64.ofNat singularBatch.transactions.length] }

def appendSingularBatch (encoders : Encoders) (builder : SpanBatchBuilder) (singularBatch : SingleBatch)
    (seqNum : UInt64) : SpanBatchBuilder × Outcome SpanBatchError Unit :=
  if builder.outOfOrder singularBatch then (builder, .error .panic)
  else
    let appended := builder.appendElement singularBatch seqNum
    let (txs, result) := appended.txs.addTxs encoders builder.chainId singularBatch.transactions
    ({ appended with txs }, result.mapError .error)

end SpanBatchBuilder

/-! ## Encoding of span batches -/

def SpanBatchPrefix.encodePrefix (encoders : Encoders) (head : SpanBatchPrefix) : List UInt8 :=
  encoders.varintU64 head.relTimestamp ++ (encoders.varintU64 head.l1OriginNum ++
    (head.parentCheck.1 ++ head.l1OriginCheck.1))

namespace SpanBatchPayload

def encodeBlockCount (encoders : Encoders) (payload : SpanBatchPayload) : List UInt8 :=
  encoders.varintU64 payload.blockCount

def encodeOriginBits (payload : SpanBatchPayload) : Outcome SpanBatchError (List UInt8) :=
  SpanBatchBits.encode payload.blockCount.toNat payload.originBits

def encodeBlockTxCounts (encoders : Encoders) (payload : SpanBatchPayload) : List UInt8 :=
  payload.blockTxCounts.flatMap encoders.varintU64

def encodePayload (encoders : Encoders) (payload : SpanBatchPayload) : Outcome SpanBatchError (List UInt8) := do
  let origins ← payload.encodeOriginBits
  let txs ← payload.txs.encode encoders
  pure (payload.encodeBlockCount encoders ++ (origins ++ (payload.encodeBlockTxCounts encoders ++ txs)))

end SpanBatchPayload

namespace RawSpanBatch

def tryFrom (overflowChecks : Bool) (value : SpanBatchBuilder) : Outcome SpanBatchError RawSpanBatch :=
  match value.batches.head?, value.batches.getLast? with
  | some spanStart, some spanEnd => do
      let relTimestamp ← subU64 overflowChecks spanStart.timestamp value.genesisTimestamp
      pure ⟨⟨relTimestamp, spanEnd.epochNum, value.parentCheck, value.l1OriginCheck⟩,
        UInt64.ofNat value.batches.length, value.originBits, value.blockTxCounts, value.txs⟩
  | _, _ => .error (.error .emptySpanBatch)

def encode (encoders : Encoders) (raw : RawSpanBatch) : Outcome SpanBatchError (List UInt8) := do
  let payload ← raw.payload.encodePayload encoders
  pure (raw.head.encodePrefix encoders ++ payload)

end RawSpanBatch

end KonaSoon.Derive
