import KonaSoon.Derive.Pipeline
import KonaSoon.Derive.SpanBits

/-!
# Decoding of span batches

`RawSpanBatch::decode` and `RawSpanBatch::derive` (`derive/src/batch/span_batch`). The decoder reads field after
field from the front of the batch; some fields are checked, others are sliced off. What the source takes from
other crates, the codecs of numbers and of transactions, is collected in `Codecs`.
-/

namespace KonaSoon.Derive
open Lib Mpt

def maxSpanBatchElements : UInt64 := 10000000

/-! ## Transactions -/

inductive TxType where
  | legacy
  | eip2930
  | eip1559
  | eip4844
  | eip7702
deriving DecidableEq, Repr

def TxType.ofByte (byte : UInt8) : Option TxType :=
  if byte = 0 then some .legacy
  else if byte = 1 then some .eip2930
  else if byte = 2 then some .eip1559
  else if byte = 3 then some .eip4844
  else if byte = 4 then some .eip7702
  else none

structure AccessListItem where
  address : Address
  storageKeys : List B256
deriving DecidableEq, Repr

structure SignedAuthorization where
  chainId : BitVec 256
  address : Address
  nonce : UInt64
  yParity : UInt8
  r : BitVec 256
  s : BitVec 256
deriving DecidableEq, Repr

structure SpanBatchLegacyTransactionData where
  value : BitVec 256
  gasPrice : BitVec 256
  data : List UInt8
deriving DecidableEq, Repr

structure SpanBatchEip2930TransactionData where
  value : BitVec 256
  gasPrice : BitVec 256
  data : List UInt8
  accessList : List AccessListItem
deriving DecidableEq, Repr

structure SpanBatchEip1559TransactionData where
  value : BitVec 256
  maxPriorityFeePerGas : BitVec 256
  maxFeePerGas : BitVec 256
  data : List UInt8
  accessList : List AccessListItem
deriving DecidableEq, Repr

structure SpanBatchEip7702TransactionData where
  value : BitVec 256
  maxPriorityFeePerGas : BitVec 256
  maxFeePerGas : BitVec 256
  data : List UInt8
  accessList : List AccessListItem
  authorizationList : List SignedAuthorization
deriving DecidableEq, Repr

inductive SpanBatchTransactionData where
  | legacy (data : SpanBatchLegacyTransactionData)
  | eip2930 (data : SpanBatchEip2930TransactionData)
  | eip1559 (data : SpanBatchEip1559TransactionData)
  | eip7702 (data : SpanBatchEip7702TransactionData)
deriving DecidableEq, Repr

structure Signature where
  r : BitVec 256
  s : BitVec 256
  yParity : Bool
deriving DecidableEq, Repr

inductive TxKind where
  | create
  | call (to_ : Address)
deriving DecidableEq, Repr

def TxKind.ofOption : Option Address → TxKind
  | none => .create
  | some to_ => .call to_

structure TxLegacy where
  chainId : Option UInt64
  nonce : UInt64
  gasPrice : BitVec 128
  gasLimit : UInt64
  to_ : TxKind
  value : BitVec 256
  input : List UInt8
deriving DecidableEq, Repr

structure TxEip2930 where
  chainId : UInt64
  nonce : UInt64
  gasPrice : BitVec 128
  gasLimit : UInt64
  to_ : TxKind
  value : BitVec 256
  input : List UInt8
  accessList : List AccessListItem
deriving DecidableEq, Repr

structure TxEip1559 where
  chainId : UInt64
  nonce : UInt64
  maxFeePerGas : BitVec 128
  maxPriorityFeePerGas : BitVec 128
  gasLimit : UInt64
  to_ : TxKind
  value : BitVec 256
  input : List UInt8
  accessList : List AccessListItem
deriving DecidableEq, Repr

structure TxEip7702 where
  chainId : UInt64
  nonce : UInt64
  maxFeePerGas : BitVec 128
  maxPriorityFeePerGas : BitVec 128
  gasLimit : UInt64
  to_ : Address
  value : BitVec 256
  input : List UInt8
  accessList : List AccessListItem
  authorizationList : List SignedAuthorization
deriving DecidableEq, Repr

inductive Transaction where
  | legacy (tx : TxLegacy)
  | eip2930 (tx : TxEip2930)
  | eip1559 (tx : TxEip1559)
  | eip7702 (tx : TxEip7702)
deriving DecidableEq, Repr

structure TxEnvelope where
  tx : Transaction
  signature : Signature
  signatureHash : B256
deriving DecidableEq, Repr

/-- What the decoder takes from `unsigned_varint`, `alloy_rlp` and `alloy_consensus`. -/
structure Codecs where
  rlp : Rlp
  varintU64 : List UInt8 → Option (UInt64 × List UInt8)
  singleBatch : List UInt8 → Except RlpError SingleBatch
  legacy : List UInt8 → Except RlpError SpanBatchLegacyTransactionData
  eip2930 : List UInt8 → Except RlpError SpanBatchEip2930TransactionData
  eip1559 : List UInt8 → Except RlpError SpanBatchEip1559TransactionData
  eip7702 : List UInt8 → Except RlpError SpanBatchEip7702TransactionData
  signatureHash : Transaction → B256
  encode2718 : TxEnvelope → List UInt8

namespace SpanBatchTransactionData

def txType : SpanBatchTransactionData → TxType
  | legacy _ => .legacy
  | eip2930 _ => .eip2930
  | eip1559 _ => .eip1559
  | eip7702 _ => .eip7702

def decodeTyped (codecs : Codecs) (b : List UInt8) : Except RlpError SpanBatchTransactionData :=
  match b with
  | [] => .error (.custom "Invalid transaction data")
  | [_] => .error (.custom "Invalid transaction data")
  | first :: payload =>
      match TxType.ofByte first with
      | none => .error (.custom "Invalid tx type")
      | some .eip2930 => (codecs.eip2930 payload).map eip2930
      | some .eip1559 => (codecs.eip1559 payload).map eip1559
      | some .eip7702 => (codecs.eip7702 payload).map eip7702
      | some .legacy => .error (.custom "Invalid transaction type")
      | some .eip4844 => .error (.custom "Invalid transaction type")

def decode (codecs : Codecs) (r : List UInt8) : Except RlpError SpanBatchTransactionData :=
  if (r.head?.any fun first => decide (0x7F < first)) then (codecs.legacy r).map legacy else decodeTyped codecs r

def toSignedTx (codecs : Codecs) (data : SpanBatchTransactionData) (nonce gas : UInt64) (to_ : Option Address)
    (chainId : UInt64) (signature : Signature) (isProtected : Bool) : Except SpanBatchError TxEnvelope := do
  let tx : Transaction ←
    match data, to_ with
    | legacy data, to_ => .ok (.legacy ⟨if isProtected then some chainId else none, nonce, data.gasPrice.setWidth 128, gas,
        .ofOption to_, data.value, data.data⟩)
    | eip2930 data, to_ => .ok (.eip2930 ⟨chainId, nonce, data.gasPrice.setWidth 128, gas, .ofOption to_, data.value,
        data.data, data.accessList⟩)
    | eip1559 data, to_ => .ok (.eip1559 ⟨chainId, nonce, data.maxFeePerGas.setWidth 128,
        data.maxPriorityFeePerGas.setWidth 128, gas, .ofOption to_, data.value, data.data, data.accessList⟩)
    | eip7702 _, none => .error (.decoding .invalidTransactionData)
    | eip7702 data, some to_ => .ok (.eip7702 ⟨chainId, nonce, data.maxFeePerGas.setWidth 128,
        data.maxPriorityFeePerGas.setWidth 128, gas, to_, data.value, data.data, data.accessList,
        data.authorizationList⟩)
  .ok ⟨tx, signature, codecs.signatureHash tx⟩

end SpanBatchTransactionData

def readTxPayload (codecs : Codecs) : Reads SpanBatchError (List UInt8) := fun r =>
  match codecs.rlp.decodeHeader r with
  | .error _ => .error (.error (.decoding .invalidTransactionData))
  | .ok (header, _) =>
      if header.list then
        (Reads.slice (header.payloadLength + codecs.rlp.lengthOfLength header.payloadLength) r).map
          fun (payload, rest) => (payload.1, rest)
      else .error (.error (.decoding .invalidTransactionData))

def readTxOfType (codecs : Codecs) (txType : UInt8) (txData : List UInt8) :
    Reads SpanBatchError (List UInt8 × TxType) := do
  let txPayload ← readTxPayload codecs
  match TxType.ofByte txType with
  | none => .fail (.decoding .invalidTransactionType)
  | some type => pure (txData ++ txPayload, type)

def readTxData (codecs : Codecs) : Reads SpanBatchError (List UInt8 × TxType) := fun r =>
  match r with
  | [] => .error (.error (.decoding .invalidTransactionData))
  | firstByte :: rest =>
      if firstByte ≤ 0x7F then readTxOfType codecs firstByte [firstByte] rest else readTxOfType codecs 0 [] r

/-! ## Prefix -/

structure SpanBatchPrefix where
  relTimestamp : UInt64
  l1OriginNum : UInt64
  parentCheck : FixedBytes 20
  l1OriginCheck : FixedBytes 20
deriving DecidableEq, Repr

namespace SpanBatchPrefix

def decodeRelTimestamp (codecs : Codecs) : Reads SpanBatchError UInt64 :=
  .ofOption (.decoding .relativeTimestamp) codecs.varintU64

def decodeL1OriginNum (codecs : Codecs) : Reads SpanBatchError UInt64 :=
  .ofOption (.decoding .l1OriginNumber) codecs.varintU64

def decodeParentCheck : Reads SpanBatchError (FixedBytes 20) := .slice 20

def decodeL1OriginCheck : Reads SpanBatchError (FixedBytes 20) := .slice 20

def decodePrefix (codecs : Codecs) : Reads SpanBatchError SpanBatchPrefix := do
  let relTimestamp ← decodeRelTimestamp codecs
  let l1OriginNum ← decodeL1OriginNum codecs
  let parentCheck ← decodeParentCheck
  let l1OriginCheck ← decodeL1OriginCheck
  pure ⟨relTimestamp, l1OriginNum, parentCheck, l1OriginCheck⟩

end SpanBatchPrefix

/-! ## Transaction columns -/

structure SpanBatchTransactions where
  totalBlockTxCount : UInt64
  contractCreationBits : SpanBatchBits
  txSigs : List Signature
  txNonces : List UInt64
  txGases : List UInt64
  txTos : List Address
  txDatas : List (List UInt8)
  protectedBits : SpanBatchBits
  txTypes : List TxType
  legacyTxCount : UInt64
deriving DecidableEq, Repr

namespace SpanBatchTransactions

def decodeContractCreationBits (totalBlockTxCount : UInt64) : Reads SpanBatchError SpanBatchBits :=
  if maxSpanBatchElements < totalBlockTxCount then .fail .tooBigSpanBatchSize
  else SpanBatchBits.decode totalBlockTxCount.toNat

def decodeProtectedBits (legacyTxCount : UInt64) : Reads SpanBatchError SpanBatchBits :=
  if maxSpanBatchElements < legacyTxCount then .fail .tooBigSpanBatchSize else SpanBatchBits.decode legacyTxCount.toNat

def decodeTxSig (yParityBits : SpanBatchBits) (i : Nat) : Reads SpanBatchError Signature := do
  let yParity ← .unwrap (yParityBits.getBit i)
  let r ← .slice 32
  let s ← .slice 32
  pure ⟨BitVec.ofNat 256 (ofBigEndian r.1), BitVec.ofNat 256 (ofBigEndian s.1), yParity = 1⟩

def decodeTxSigs (totalBlockTxCount : UInt64) : Reads SpanBatchError (List Signature) := do
  let yParityBits ← SpanBatchBits.decode totalBlockTxCount.toNat
  (List.range totalBlockTxCount.toNat).mapM (decodeTxSig yParityBits)

/-- The errors of nonces and of gas limits are the same in the source. -/
def decodeTxNumbers (codecs : Codecs) (totalBlockTxCount : UInt64) : Reads SpanBatchError (List UInt64) :=
  (List.range totalBlockTxCount.toNat).mapM fun _ => .ofOption (.decoding .txNonces) codecs.varintU64

def decodeTxNonces (codecs : Codecs) (totalBlockTxCount : UInt64) : Reads SpanBatchError (List UInt64) :=
  decodeTxNumbers codecs totalBlockTxCount

def decodeTxGases (codecs : Codecs) (totalBlockTxCount : UInt64) : Reads SpanBatchError (List UInt64) :=
  decodeTxNumbers codecs totalBlockTxCount

def contractCreationCount (contractCreationBits : SpanBatchBits) : UInt64 :=
  UInt64.ofNat contractCreationBits.countOnesTotal

def decodeTxTos (overflowChecks : Bool) (totalBlockTxCount : UInt64) (contractCreationBits : SpanBatchBits) :
    Reads SpanBatchError (List Address) := do
  let calls ← StateT.lift (subU64 overflowChecks totalBlockTxCount (contractCreationCount contractCreationBits))
  (List.range calls.toNat).mapM fun _ => .slice 20

def decodeTxDatas (codecs : Codecs) (totalBlockTxCount : UInt64) : Reads SpanBatchError (List (List UInt8 × TxType)) :=
  (List.range totalBlockTxCount.toNat).mapM fun _ => readTxData codecs

def legacyCount (datas : List (List UInt8 × TxType)) : UInt64 :=
  UInt64.ofNat (datas.countP fun data => data.2 = .legacy)

def decode (codecs : Codecs) (overflowChecks : Bool) (totalBlockTxCount : UInt64) :
    Reads SpanBatchError SpanBatchTransactions := do
  let contractCreationBits ← decodeContractCreationBits totalBlockTxCount
  let txSigs ← decodeTxSigs totalBlockTxCount
  let txTos ← decodeTxTos overflowChecks totalBlockTxCount contractCreationBits
  let datas ← decodeTxDatas codecs totalBlockTxCount
  let txNonces ← decodeTxNonces codecs totalBlockTxCount
  let txGases ← decodeTxGases codecs totalBlockTxCount
  let protectedBits ← decodeProtectedBits (legacyCount datas)
  pure ⟨totalBlockTxCount, contractCreationBits, txSigs, txNonces, txGases, txTos, datas.map (·.1), protectedBits,
    datas.map (·.2), legacyCount datas⟩

def getOr {α : Type} (value : Option α) : Outcome SpanBatchError α :=
  match value with
  | none => .error (.error (.decoding .invalidTransactionData))
  | some a => .ok a

def recipient (txs : SpanBatchTransactions) (bit : UInt8) (toIdx : Nat) :
    Outcome SpanBatchError (Option Address × Nat) :=
  if bit = 0 then (getOr txs.txTos[toIdx]?).map fun to_ => (some to_, toIdx + 1) else .ok (none, toIdx)

def fullTx (codecs : Codecs) (txs : SpanBatchTransactions) (chainId : UInt64) (idx toIdx protectedBitIdx : Nat) :
    Outcome SpanBatchError (List UInt8 × Nat × Nat) := do
  let datas ← Outcome.unwrap txs.txDatas[idx]?
  let tx ← getOr (SpanBatchTransactionData.decode codecs datas).toOption
  let nonce ← getOr txs.txNonces[idx]?
  let gas ← getOr txs.txGases[idx]?
  let bit ← getOr (txs.contractCreationBits.getBit idx)
  let (to_, toIdx) ← txs.recipient bit toIdx
  let sig ← getOr txs.txSigs[idx]?
  let legacy : Bool := tx.txType = .legacy
  let isProtected := !legacy || (txs.protectedBits.getBit protectedBitIdx).getD 0 = 1
  let envelope ← (tx.toSignedTx codecs nonce gas to_ chainId sig isProtected).mapError .error
  pure (codecs.encode2718 envelope, toIdx, if legacy then protectedBitIdx + 1 else protectedBitIdx)

def fullTxsFrom (codecs : Codecs) (txs : SpanBatchTransactions) (chainId : UInt64) :
    Nat → Nat → Nat → Nat → Outcome SpanBatchError (List (List UInt8))
  | 0, _, _, _ => .ok []
  | remaining + 1, idx, toIdx, protectedBitIdx => do
      let (tx, toIdx, protectedBitIdx) ← txs.fullTx codecs chainId idx toIdx protectedBitIdx
      let later ← fullTxsFrom codecs txs chainId remaining (idx + 1) toIdx protectedBitIdx
      pure (tx :: later)

def fullTxs (codecs : Codecs) (txs : SpanBatchTransactions) (chainId : UInt64) :
    Outcome SpanBatchError (List (List UInt8)) :=
  txs.fullTxsFrom codecs chainId txs.totalBlockTxCount.toNat 0 0 0

end SpanBatchTransactions

/-! ## Payload -/

structure SpanBatchPayload where
  blockCount : UInt64
  originBits : SpanBatchBits
  blockTxCounts : List UInt64
  txs : SpanBatchTransactions
deriving DecidableEq, Repr

namespace SpanBatchPayload

def decodeBlockCount (codecs : Codecs) : Reads SpanBatchError UInt64 := do
  let blockCount ← .ofOption (.decoding .blockCount) codecs.varintU64
  if maxSpanBatchElements < blockCount then .fail .tooBigSpanBatchSize
  else if blockCount = 0 then .fail .emptySpanBatch
  else pure blockCount

def decodeOriginBits (blockCount : UInt64) : Reads SpanBatchError SpanBatchBits :=
  if maxSpanBatchElements < blockCount then .fail .tooBigSpanBatchSize else SpanBatchBits.decode blockCount.toNat

def decodeBlockTxCount (codecs : Codecs) : Reads SpanBatchError UInt64 := do
  let blockTxCount ← .ofOption (.decoding .blockTxCounts) codecs.varintU64
  if maxSpanBatchElements < blockTxCount then .fail .tooBigSpanBatchSize else pure blockTxCount

def decodeBlockTxCounts (codecs : Codecs) (blockCount : UInt64) : Reads SpanBatchError (List UInt64) :=
  (List.range blockCount.toNat).mapM fun _ => decodeBlockTxCount codecs

def totalBlockTxCount : UInt64 → List UInt64 → Option UInt64
  | acc, [] => some acc
  | acc, count :: counts => (checkedAdd acc count).bind (totalBlockTxCount · counts)

/-- The total that `decode_txs` puts into the transactions before it decodes them. -/
def decodeTotal (blockTxCounts : List UInt64) : Reads SpanBatchError UInt64 :=
  if blockTxCounts = [] then .fail .emptySpanBatch
  else match totalBlockTxCount 0 blockTxCounts with
    | none => .fail .tooBigSpanBatchSize
    | some total => if maxSpanBatchElements < total then .fail .tooBigSpanBatchSize else pure total

def decodeTxs (codecs : Codecs) (overflowChecks : Bool) (blockTxCounts : List UInt64) :
    Reads SpanBatchError SpanBatchTransactions := do
  let total ← decodeTotal blockTxCounts
  SpanBatchTransactions.decode codecs overflowChecks total

def decodePayload (codecs : Codecs) (overflowChecks : Bool) : Reads SpanBatchError SpanBatchPayload := do
  let blockCount ← decodeBlockCount codecs
  let originBits ← decodeOriginBits blockCount
  let blockTxCounts ← decodeBlockTxCounts codecs blockCount
  let txs ← decodeTxs codecs overflowChecks blockTxCounts
  pure ⟨blockCount, originBits, blockTxCounts, txs⟩

end SpanBatchPayload

/-! ## Span batches -/

structure RawSpanBatch where
  head : SpanBatchPrefix
  payload : SpanBatchPayload
deriving DecidableEq, Repr

namespace RawSpanBatch

def decode (codecs : Codecs) (overflowChecks : Bool) : Reads SpanBatchError RawSpanBatch := do
  let head ← SpanBatchPrefix.decodePrefix codecs
  let payload ← SpanBatchPayload.decodePayload codecs overflowChecks
  pure ⟨head, payload⟩

/-- The origins of the first blocks, of which the last one has the given origin; the source counts down from
the last block. -/
def blockOriginNums (overflowChecks : Bool) (originBits : SpanBatchBits) :
    Nat → UInt64 → Outcome SpanBatchError (List UInt64)
  | 0, _ => .ok []
  | i + 1, l1OriginNumber =>
      match originBits.getBit i with
      | none => .error (.error (.decoding .l1OriginCheck))
      | some bit => do
          let earlier ← if bit = 1 ∧ 0 < i then subU64 overflowChecks l1OriginNumber 1 else .ok l1OriginNumber
          let origins ← blockOriginNums overflowChecks originBits i earlier
          pure (origins ++ [l1OriginNumber])

def elementsFrom (overflowChecks : Bool) (raw : RawSpanBatch) (blockTime genesisTime : UInt64)
    (origins : List UInt64) (envelopedTxs : List (List UInt8)) :
    Nat → Nat → Nat → Outcome SpanBatchError (List SpanBatchElement)
  | 0, _, _ => .ok []
  | remaining + 1, i, txIdx => do
      let count ← Outcome.unwrap raw.payload.blockTxCounts[i]?
      let transactions ← (List.range count.toNat).mapM fun k => Outcome.unwrap envelopedTxs[txIdx + k]?
      let epochNum ← Outcome.unwrap origins[i]?
      let start ← addU64 overflowChecks genesisTime raw.head.relTimestamp
      let elapsed ← mulU64 overflowChecks blockTime (UInt64.ofNat i)
      let timestamp ← addU64 overflowChecks start elapsed
      let later ← elementsFrom overflowChecks raw blockTime genesisTime origins envelopedTxs remaining (i + 1)
        (txIdx + count.toNat)
      pure (⟨epochNum, timestamp, transactions⟩ :: later)

def derive (codecs : Codecs) (overflowChecks : Bool) (raw : RawSpanBatch) (blockTime genesisTime chainId : UInt64) :
    Outcome SpanBatchError SpanBatch :=
  if raw.payload.blockCount = 0 then .error (.error .emptySpanBatch)
  else do
    let origins ← blockOriginNums overflowChecks raw.payload.originBits raw.payload.blockCount.toNat raw.head.l1OriginNum
    let envelopedTxs ← raw.payload.txs.fullTxs codecs chainId
    let batches ← raw.elementsFrom overflowChecks blockTime genesisTime origins envelopedTxs
      raw.payload.blockCount.toNat 0 0
    pure ⟨raw.head.parentCheck, raw.head.l1OriginCheck, batches⟩

end RawSpanBatch

/-! ## Batches -/

inductive BatchType where
  | single
  | span
deriving DecidableEq, Repr

def BatchType.ofByte {ε : Type} (byte : UInt8) : Outcome ε BatchType :=
  if byte = 0 then .ok .single else if byte = 1 then .ok .span else .error .panic

def mapError {ε ε' α : Type} (f : ε → ε') (x : Outcome ε α) : Outcome ε' α := x.mapError (Stop.map f)

def Batch.decode (codecs : Codecs) (overflowChecks : Bool) : List UInt8 → Outcome PipelineEncodingError Batch
  | [] => .error (.error .emptyBuffer)
  | first :: r => do
      match (← BatchType.ofByte first) with
      | .single => (codecs.singleBatch r).map .single |>.mapError fun e => .error (.alloyRlpError e)
      | .span =>
          mapError .spanBatchError do
            let (raw, _) ← RawSpanBatch.decode codecs overflowChecks r
            (raw.derive codecs overflowChecks 0 0 0).map .span

end KonaSoon.Derive
