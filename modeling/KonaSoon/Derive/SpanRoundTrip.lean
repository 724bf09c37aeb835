import KonaSoon.Derive.SpanColumns
import KonaSoon.Derive.SpanDerivation

/-!
# Span batches there and back

A span batch that was built from single batches is encoded and decoded without a change, and `derive` gives the
blocks it was built from. The columns are the point where both ways meet: the builder fills them from the
transactions, and they are what the decoder reads.
-/

namespace KonaSoon.Derive
open Lib Mpt

variable {codecs : Codecs} {encoders : Encoders} {chainId : UInt64} {overflowChecks : Bool}

/-! ## Data -/

def RlpList (rlp : Rlp) (bytes : List UInt8) : Prop :=
  ∃ payload, payload.length < 2 ^ 64 ∧ bytes = rlp.encodeHeader ⟨true, payload.length⟩ ++ payload

def SpanBatchTransactionData.encodePayload (encoders : Encoders) : SpanBatchTransactionData → List UInt8
  | legacy data => encoders.legacy data
  | eip2930 data => encoders.eip2930 data
  | eip1559 data => encoders.eip1559 data
  | eip7702 data => encoders.eip7702 data

theorem parses_readTxPayload {bytes : List UInt8} (list : RlpList codecs.rlp bytes) :
    Reads.Parses (readTxPayload codecs) bytes bytes := by
  obtain ⟨payload, small, rfl⟩ := list
  intro rest
  have length : payload.length + codecs.rlp.lengthOfLength payload.length =
      (codecs.rlp.encodeHeader ⟨true, payload.length⟩ ++ payload).length := by
    rw [List.length_append, codecs.rlp.encodeHeader_length _ small, Nat.add_comm]
  have header := codecs.rlp.decodeHeader_list payload rest small
  rw [← List.append_assoc] at header
  have sliced : (Reads.slice (payload.length + codecs.rlp.lengthOfLength payload.length) : Reads SpanBatchError _)
      (codecs.rlp.encodeHeader ⟨true, payload.length⟩ ++ payload ++ rest) = .ok (⟨_, length.symm⟩, rest) :=
    Reads.Parses.slice ⟨_, length.symm⟩ rest
  simp only [readTxPayload, header, if_true, sliced]
  rfl

theorem parses_readTxOfType {bytes : List UInt8} (list : RlpList codecs.rlp bytes) {txType : UInt8} {type : TxType}
    (known : TxType.ofByte txType = some type) (txData : List UInt8) :
    Reads.Parses (readTxOfType codecs txType txData) bytes (txData ++ bytes, type) := by
  intro rest
  rw [readTxOfType, Reads.bind_apply, parses_readTxPayload list rest, ok_bind, known]
  rfl

theorem parses_readTxData {data : SpanBatchTransactionData} (restores : RestoresData codecs encoders data)
    (list : RlpList codecs.rlp (data.encodePayload encoders)) :
    Reads.Parses (readTxData codecs) (data.encode encoders) (data.encode encoders, data.txType) := by
  cases data with
  | legacy data =>
      intro rest
      obtain ⟨first, bytes, same⟩ : ∃ first bytes, encoders.legacy data = first :: bytes := by
        cases encoded : encoders.legacy data with
        | nil =>
            have head := restores.2
            rw [encoded] at head
            cases head
        | cons first bytes => exact ⟨first, bytes, rfl⟩
      have high : ¬ first ≤ 0x7F := by
        have head := restores.2
        rw [same] at head
        exact UInt8.not_le.mpr (by simpa using head)
      have legacyType : TxType.ofByte 0 = some .legacy := rfl
      have read := parses_readTxOfType list legacyType [] rest
      rw [SpanBatchTransactionData.encodePayload, same] at read
      rw [SpanBatchTransactionData.encode, same, List.cons_append, readTxData, if_neg high]
      exact read
  | eip2930 data =>
      have type : TxType.ofByte 1 = some .eip2930 := rfl
      exact fun rest => parses_readTxOfType list type [1] rest
  | eip1559 data =>
      have type : TxType.ofByte 2 = some .eip1559 := rfl
      exact fun rest => parses_readTxOfType list type [2] rest
  | eip7702 data =>
      have type : TxType.ofByte 4 = some .eip7702 := rfl
      exact fun rest => parses_readTxOfType list type [4] rest

/-! ## Columns -/

def RestoresVarints (codecs : Codecs) (encoders : Encoders) : Prop :=
  ∀ n rest, codecs.varintU64 (encoders.varintU64 n ++ rest) = some (n, rest)

theorem parses_varints (varints : RestoresVarints codecs encoders) (e : SpanBatchError) (numbers : List UInt64) :
    Reads.Parses ((List.range numbers.length).mapM fun _ => .ofOption e codecs.varintU64)
      (numbers.flatMap encoders.varintU64) numbers := by
  have all : Reads.Parses ((List.range numbers.length).mapM fun _ => .ofOption e codecs.varintU64)
      (numbers.flatMap encoders.varintU64) (numbers.map id) :=
    .mapM_range fun _ number _ => .ofOption e (varints number)
  rwa [List.map_id] at all

structure Legible (codecs : Codecs) (encoders : Encoders) (envelope : TxEnvelope) : Prop where
  restores : Restores codecs encoders envelope
  list : RlpList codecs.rlp ((SpanBatchTransactionData.ofTransaction envelope.tx).encodePayload encoders)

namespace SpanBatchTransactions

theorem lists_setBits {bits : SpanBatchBits} {flags : List Bool} (lists : bits.Lists flags) (txSigs : List Signature) :
    ((txSigs.zipIdx flags.length).foldl (fun bits entry => bits.setBit entry.2 entry.1.yParity) bits).Lists
      (flags ++ txSigs.map (·.yParity)) := by
  induction txSigs generalizing bits flags with
  | nil => simpa using lists
  | cons sig txSigs ih =>
      have next := ih (lists.setBit sig.yParity)
      rw [List.length_append, List.length_singleton, List.append_assoc, List.singleton_append] at next
      exact next

theorem lists_yParityBits (txSigs : List Signature) : (yParityBits txSigs).Lists (txSigs.map (·.yParity)) :=
  lists_setBits .nil txSigs

theorem ofNat_bigEndian (word : BitVec 256) : BitVec.ofNat 256 (ofBigEndian (bigEndian 32 word.toNat).1) = word := by
  have fits : word.toNat < 256 ^ 32 := word.isLt
  rw [ofBigEndian_bigEndian fits, BitVec.ofNat_toNat, BitVec.setWidth_eq]

theorem parses_decodeTxSig {bits : SpanBatchBits} {flags : List Bool} (lists : bits.Lists flags) {i : Nat}
    {sig : Signature} (parity : flags[i]? = some sig.yParity) :
    Reads.Parses (decodeTxSig bits i) (encodeTxSig sig) sig := by
  have bit := lists.getBit parity
  have read : Reads.Parses (decodeTxSig bits i) ([] ++ ((bigEndian 32 sig.r.toNat).1 ++ (bigEndian 32 sig.s.toNat).1))
      ⟨BitVec.ofNat 256 (ofBigEndian (bigEndian 32 sig.r.toNat).1), BitVec.ofNat 256 (ofBigEndian (bigEndian 32 sig.s.toNat).1),
        (if sig.yParity then 1 else 0 : UInt8) = 1⟩ :=
    (Reads.Parses.unwrap bit).bind ((Reads.Parses.slice _).bind (Reads.Parses.slice _).bind_pure)
  rw [ofNat_bigEndian, ofNat_bigEndian] at read
  have same : decide ((if sig.yParity then 1 else 0 : UInt8) = 1) = sig.yParity := by cases sig.yParity <;> rfl
  rwa [same] at read

theorem Columns.parses_tos {txs : SpanBatchTransactions} {envelopes : List TxEnvelope}
    (columns : Columns encoders txs envelopes) (total : txs.totalBlockTxCount.toNat = envelopes.length) :
    Reads.Parses (decodeTxTos overflowChecks txs.totalBlockTxCount txs.contractCreationBits) txs.encodeTxTos txs.txTos := by
  have balance := columns.creations.countOnesTotal_add
  rw [← countP_isNone, ← columns.tos, List.length_map, ← total] at balance
  have bound := txs.totalBlockTxCount.toNat_lt
  have count : (contractCreationCount txs.contractCreationBits).toNat = txs.contractCreationBits.countOnesTotal :=
    UInt64.toNat_ofNat_of_lt' (show _ < 2 ^ 64 by omega)
  have fewer : contractCreationCount txs.contractCreationBits ≤ txs.totalBlockTxCount := by
    rw [UInt64.le_iff_toNat_le, count]
    omega
  have calls : (txs.totalBlockTxCount - contractCreationCount txs.contractCreationBits).toNat = txs.txTos.length := by
    rw [UInt64.toNat_sub_of_le _ _ fewer, count]
    omega
  have each : Reads.Parses ((List.range txs.txTos.length).mapM fun _ => (.slice 20 : Reads SpanBatchError Address))
      (txs.txTos.flatMap (·.1)) (txs.txTos.map id) :=
    .mapM_range fun _ to_ _ => .slice to_
  intro rest
  rw [List.map_id] at each
  rw [decodeTxTos, Reads.bind_apply, subU64_of_le overflowChecks fewer]
  show ((List.range (txs.totalBlockTxCount - contractCreationCount txs.contractCreationBits).toNat).mapM fun _ =>
    (.slice 20 : Reads SpanBatchError Address)) (txs.encodeTxTos ++ rest) = _
  rw [calls]
  exact each rest

theorem Columns.parses_sigs {txs : SpanBatchTransactions} {envelopes : List TxEnvelope}
    (columns : Columns encoders txs envelopes) (total : txs.totalBlockTxCount.toNat = envelopes.length) :
    ∃ bytes, txs.encodeTxSigs = .ok bytes ∧ Reads.Parses (decodeTxSigs txs.totalBlockTxCount) bytes txs.txSigs := by
  have lists := lists_yParityBits txs.txSigs
  have length : (txs.txSigs.map (·.yParity)).length = txs.totalBlockTxCount.toNat := by
    rw [List.length_map, columns.sigs, List.length_map, total]
  have encoded := lists.encode
  have bits := lists.parses
  rw [length] at encoded bits
  have each : Reads.Parses ((List.range txs.txSigs.length).mapM (decodeTxSig (yParityBits txs.txSigs)))
      (txs.txSigs.flatMap encodeTxSig) (txs.txSigs.map id) :=
    .mapM_range fun i sig here => parses_decodeTxSig lists (by rw [List.getElem?_map, here]; rfl)
  rw [List.map_id, ← List.length_map (fun sig : Signature => sig.yParity), length] at each
  refine ⟨_, by rw [encodeTxSigs, encoded, ok_bind]; rfl, ?_⟩
  exact bits.bind each

theorem Columns.parses_datas {txs : SpanBatchTransactions} {envelopes : List TxEnvelope}
    (columns : Columns encoders txs envelopes) (total : txs.totalBlockTxCount.toNat = envelopes.length)
    (legible : ∀ envelope ∈ envelopes, Legible codecs encoders envelope) :
    Reads.Parses (decodeTxDatas codecs txs.totalBlockTxCount) txs.encodeTxDatas (envelopes.map fun envelope =>
      ((SpanBatchTransactionData.ofTransaction envelope.tx).encode encoders, envelope.tx.txType)) := by
  rw [decodeTxDatas, total, encodeTxDatas, columns.datas, ← List.flatMap_def]
  apply Reads.Parses.mapM_range
  intro i envelope here
  have both := legible envelope (List.mem_of_getElem? here)
  rw [← SpanBatchTransactionData.txType_ofTransaction]
  exact parses_readTxData both.restores.data both.list

theorem bounded_parses {count : UInt64} {bits : SpanBatchBits} {flags : List Bool} (lists : bits.Lists flags)
    (length : count.toNat = flags.length) (small : count ≤ maxSpanBatchElements) :
    Reads.Parses (if maxSpanBatchElements < count then .fail .tooBigSpanBatchSize else SpanBatchBits.decode count.toNat)
      bits.bytes bits := by
  rw [if_neg (UInt64.not_lt.mpr small), length]
  exact lists.parses

theorem legacyCount_eq (envelopes : List TxEnvelope) (data : TxEnvelope → List UInt8) :
    legacyCount (envelopes.map fun envelope => (data envelope, envelope.tx.txType)) =
      UInt64.ofNat (envelopes.filter isLegacy).length := by
  rw [legacyCount, List.countP_map, List.countP_eq_length_filter]
  rfl

theorem Columns.encode_parses (overflowChecks : Bool) {txs : SpanBatchTransactions} {envelopes : List TxEnvelope}
    (columns : Columns encoders txs envelopes) (total : txs.totalBlockTxCount.toNat = envelopes.length)
    (small : txs.totalBlockTxCount ≤ maxSpanBatchElements) (varints : RestoresVarints codecs encoders)
    (legible : ∀ envelope ∈ envelopes, Legible codecs encoders envelope) :
    ∃ bytes, txs.encode encoders = .ok bytes ∧
      Reads.Parses (decode codecs overflowChecks txs.totalBlockTxCount) bytes txs := by
  obtain ⟨sigBytes, sigsEncoded, sigs⟩ := columns.parses_sigs total
  have creations := columns.creations.encode
  have protections := columns.protections.encode
  rw [List.length_map, ← total] at creations
  rw [List.length_map, ← columns.legacy] at protections
  refine ⟨_, by
    rw [SpanBatchTransactions.encode, encodeContractCreationBits, creations, ok_bind, sigsEncoded, ok_bind,
      encodeProtectedBits, protections, ok_bind]
    rfl, ?_⟩
  have datas := columns.parses_datas total legible
  have count := legacyCount_eq envelopes fun envelope =>
    (SpanBatchTransactionData.ofTransaction envelope.tx).encode encoders
  have first : (envelopes.map fun envelope => ((SpanBatchTransactionData.ofTransaction envelope.tx).encode encoders,
      envelope.tx.txType)).map (·.1) = txs.txDatas := by
    rw [columns.datas, List.map_map]
    rfl
  have second : (envelopes.map fun envelope => ((SpanBatchTransactionData.ofTransaction envelope.tx).encode encoders,
      envelope.tx.txType)).map (·.2) = txs.txTypes := by
    rw [columns.types, List.map_map]
    rfl
  generalize (envelopes.map fun envelope => ((SpanBatchTransactionData.ofTransaction envelope.tx).encode encoders,
      envelope.tx.txType)) = read at datas count first second
  rw [← columns.legacy, UInt64.ofNat_toNat] at count
  have fewLegacy : txs.legacyTxCount ≤ maxSpanBatchElements := by
    have few := List.length_filter_le isLegacy envelopes
    rw [UInt64.le_iff_toNat_le] at small ⊢
    rw [columns.legacy]
    omega
  have nonces := parses_varints varints (.decoding .txNonces) txs.txNonces
  have gases := parses_varints varints (.decoding .txNonces) txs.txGases
  rw [columns.nonces, List.length_map, ← total, ← columns.nonces] at nonces
  rw [columns.gases, List.length_map, ← total, ← columns.gases] at gases
  have bits : Reads.Parses (decodeProtectedBits (legacyCount read)) txs.protectedBits.bytes txs.protectedBits := by
    rw [count]
    exact bounded_parses columns.protections (by rw [columns.legacy, List.length_map]) fewLegacy
  have made : Reads.Parses (decode codecs overflowChecks txs.totalBlockTxCount) _ ⟨txs.totalBlockTxCount,
      txs.contractCreationBits, txs.txSigs, txs.txNonces, txs.txGases, txs.txTos, read.map (·.1), txs.protectedBits,
      read.map (·.2), legacyCount read⟩ :=
    (bounded_parses columns.creations (by rw [total, List.length_map]) small).bind
      (sigs.bind ((columns.parses_tos total).bind (datas.bind (nonces.bind (gases.bind bits.bind_pure)))))
  rw [first, second, count] at made
  exact made

end SpanBatchTransactions

/-! ## Batches -/

theorem exists_totalBlockTxCount {acc : UInt64} {counts : List UInt64}
    (fits : acc.toNat + (counts.map UInt64.toNat).sum < 2 ^ 64) :
    ∃ total, SpanBatchPayload.totalBlockTxCount acc counts = some total := by
  induction counts generalizing acc with
  | nil => exact ⟨acc, rfl⟩
  | cons count counts ih =>
      rw [List.map_cons, List.sum_cons] at fits
      have here : acc.toNat + count.toNat < 2 ^ 64 := by omega
      have next : (acc + count).toNat = acc.toNat + count.toNat := by
        rw [UInt64.toNat_add, Nat.mod_eq_of_lt here]
      obtain ⟨total, ok⟩ := ih (show (acc + count).toNat + _ < 2 ^ 64 by omega)
      refine ⟨total, ?_⟩
      rw [SpanBatchPayload.totalBlockTxCount, checkedAdd, if_pos here]
      exact ok

theorem parses_decodeTotal {counts : List UInt64} {total : UInt64} (some_ : counts ≠ [])
    (sum : (counts.map UInt64.toNat).sum = total.toNat) (small : total ≤ maxSpanBatchElements) :
    Reads.Parses (SpanBatchPayload.decodeTotal counts) [] total := by
  have bound := total.toNat_lt
  have fits : (0 : UInt64).toNat + (counts.map UInt64.toNat).sum < 2 ^ 64 := by
    rw [sum]
    simpa using bound
  obtain ⟨found, ok⟩ := exists_totalBlockTxCount fits
  have same : found = total := by
    apply UInt64.toNat.inj
    rw [← RawSpanBatch.totalBlockTxCount_eq_some ok, sum]
    exact Nat.zero_add _
  subst same
  intro rest
  simp only [SpanBatchPayload.decodeTotal, if_neg some_, ok, if_neg (UInt64.not_lt.mpr small)]
  rfl

theorem parses_decodeBlockCount (varints : RestoresVarints codecs encoders) {blockCount : UInt64} (some_ : blockCount ≠ 0)
    (small : blockCount ≤ maxSpanBatchElements) :
    Reads.Parses (SpanBatchPayload.decodeBlockCount codecs) (encoders.varintU64 blockCount) blockCount := by
  intro rest
  rw [SpanBatchPayload.decodeBlockCount, Reads.bind_apply, Reads.Parses.ofOption _ (varints blockCount), ok_bind,
    if_neg (UInt64.not_lt.mpr small), if_neg some_]
  rfl

theorem parses_decodeBlockTxCounts (varints : RestoresVarints codecs encoders) {counts : List UInt64} {blockCount : UInt64}
    (blocks : counts.length = blockCount.toNat) (small : ∀ count ∈ counts, count ≤ maxSpanBatchElements) :
    Reads.Parses (SpanBatchPayload.decodeBlockTxCounts codecs blockCount) (counts.flatMap encoders.varintU64) counts := by
  have all : Reads.Parses ((List.range counts.length).mapM fun _ => SpanBatchPayload.decodeBlockTxCount codecs)
      (counts.flatMap encoders.varintU64) (counts.map id) := by
    apply Reads.Parses.mapM_range
    intro i count here rest
    rw [SpanBatchPayload.decodeBlockTxCount, Reads.bind_apply, Reads.Parses.ofOption _ (varints count), ok_bind,
      if_neg (UInt64.not_lt.mpr (small count (List.mem_of_getElem? here)))]
    rfl
  rwa [List.map_id, blocks] at all

structure Regular (encoders : Encoders) (payload : SpanBatchPayload) (flags : List Bool) (envelopes : List TxEnvelope) :
    Prop where
  origins : payload.originBits.Lists flags
  blocks : payload.blockCount.toNat = flags.length
  nonempty : payload.blockCount ≠ 0
  fewBlocks : payload.blockCount ≤ maxSpanBatchElements
  perBlock : payload.blockTxCounts.length = payload.blockCount.toNat
  sum : (payload.blockTxCounts.map UInt64.toNat).sum = payload.txs.totalBlockTxCount.toNat
  fewTxs : payload.txs.totalBlockTxCount ≤ maxSpanBatchElements
  columns : SpanBatchTransactions.Columns encoders payload.txs envelopes
  total : payload.txs.totalBlockTxCount.toNat = envelopes.length

theorem Regular.counts_small {payload : SpanBatchPayload} {flags : List Bool} {envelopes : List TxEnvelope}
    (regular : Regular encoders payload flags envelopes) :
    ∀ count ∈ payload.blockTxCounts, count ≤ maxSpanBatchElements := by
  intro count mem
  have part := List.single_le_sum (fun _ _ => Nat.zero_le _) _ (List.mem_map_of_mem (f := UInt64.toNat) mem)
  rw [regular.sum] at part
  exact UInt64.le_iff_toNat_le.mpr (Nat.le_trans part (UInt64.le_iff_toNat_le.mp regular.fewTxs))

theorem Regular.encode_parses (overflowChecks : Bool) {payload : SpanBatchPayload} {flags : List Bool} {envelopes : List TxEnvelope}
    (regular : Regular encoders payload flags envelopes) (varints : RestoresVarints codecs encoders)
    (legible : ∀ envelope ∈ envelopes, Legible codecs encoders envelope) :
    ∃ bytes, payload.encodePayload encoders = .ok bytes ∧
      Reads.Parses (SpanBatchPayload.decodePayload codecs overflowChecks) bytes payload := by
  obtain ⟨txBytes, txsEncoded, txs⟩ := regular.columns.encode_parses overflowChecks regular.total regular.fewTxs varints
    legible
  have origins := regular.origins.encode
  rw [← regular.blocks] at origins
  have counts := parses_decodeBlockTxCounts varints regular.perBlock regular.counts_small
  have some_ : payload.blockTxCounts ≠ [] := by
    intro none
    have perBlock := regular.perBlock
    rw [none] at perBlock
    exact regular.nonempty (UInt64.toNat.inj perBlock.symm)
  have total := (parses_decodeTotal some_ regular.sum regular.fewTxs).bind txs
  have bits := SpanBatchTransactions.bounded_parses regular.origins regular.blocks regular.fewBlocks
  have made : Reads.Parses (SpanBatchPayload.decodePayload codecs overflowChecks) _ payload :=
    (parses_decodeBlockCount varints regular.nonempty regular.fewBlocks).bind (bits.bind (counts.bind total.bind_pure))
  refine ⟨_, by
    rw [SpanBatchPayload.encodePayload, SpanBatchPayload.encodeOriginBits, origins, ok_bind, txsEncoded, ok_bind]
    rfl, made⟩

theorem parses_decodePrefix (varints : RestoresVarints codecs encoders) (head : SpanBatchPrefix) :
    Reads.Parses (SpanBatchPrefix.decodePrefix codecs) (head.encodePrefix encoders) head :=
  (Reads.Parses.ofOption _ (varints head.relTimestamp)).bind ((Reads.Parses.ofOption _ (varints head.l1OriginNum)).bind
    ((Reads.Parses.slice head.parentCheck).bind (Reads.Parses.slice head.l1OriginCheck).bind_pure))

theorem RawSpanBatch.decode_encode (overflowChecks : Bool) {raw : RawSpanBatch} {flags : List Bool} {envelopes : List TxEnvelope}
    (regular : Regular encoders raw.payload flags envelopes) (varints : RestoresVarints codecs encoders)
    (legible : ∀ envelope ∈ envelopes, Legible codecs encoders envelope) :
    ∃ bytes, raw.encode encoders = .ok bytes ∧ RawSpanBatch.decode codecs overflowChecks bytes = .ok (raw, []) := by
  obtain ⟨bytes, encoded, payload⟩ := regular.encode_parses overflowChecks varints legible
  have made : Reads.Parses (RawSpanBatch.decode codecs overflowChecks) (raw.head.encodePrefix encoders ++ bytes) raw :=
    (parses_decodePrefix varints raw.head).bind payload.bind_pure
  refine ⟨raw.head.encodePrefix encoders ++ bytes, by rw [RawSpanBatch.encode, encoded]; rfl, ?_⟩
  have all := made []
  rwa [List.append_nil] at all

/-! ## Appending -/

namespace SpanBatchBuilder
open SpanBatchTransactions

def element (batch : SingleBatch) : SpanBatchElement := ⟨batch.epochNum, batch.timestamp, batch.transactions⟩

def appendStep (encoders : Encoders) (builder : SpanBatchBuilder) (appended : SingleBatch × UInt64) :
    SpanBatchBuilder × Outcome SpanBatchError Unit :=
  builder.appendSingularBatch encoders appended.1 appended.2

def Spaced (blockTime : UInt64) (previous batch : SingleBatch) : Prop :=
  batch.timestamp.toNat = previous.timestamp.toNat + blockTime.toNat ∧
    (batch.epochNum = previous.epochNum ∨ batch.epochNum.toNat = previous.epochNum.toNat + 1)

/-- A builder that holds these batches, with their origin bits and their transactions. -/
structure Holds (codecs : Codecs) (encoders : Encoders) (genesisTimestamp chainId : UInt64) (builder : SpanBatchBuilder)
    (batches : List SingleBatch) (flags : List Bool) : Prop where
  genesis : builder.genesisTimestamp = genesisTimestamp
  chain : builder.chainId = chainId
  elements : builder.batches = batches.map element
  origins : builder.originBits.Lists flags
  perBlock : flags.length = batches.length
  changes : ∀ i previous batch, batches[i]? = some previous → batches[i + 1]? = some batch →
    flags[i + 1]? = some (decide (previous.epochNum < batch.epochNum))
  counts : builder.blockTxCounts = batches.map fun batch => UInt64.ofNat batch.transactions.length
  parentCheck : ∀ first, batches.head? = some first → builder.parentCheck = hashCheck first.parentHash
  l1OriginCheck : ∀ last, batches.getLast? = some last → builder.l1OriginCheck = hashCheck last.epochHash
  txs : InStep codecs encoders chainId (Legible codecs encoders) ⟨builder.txs, batches.flatMap (·.transactions)⟩

theorem Holds.new (genesisTimestamp chainId : UInt64) :
    Holds codecs encoders genesisTimestamp chainId (new genesisTimestamp chainId) [] [] where
  genesis := rfl
  chain := rfl
  elements := rfl
  origins := .nil
  perBlock := rfl
  changes := by simp
  counts := rfl
  parentCheck := by simp
  l1OriginCheck := by simp
  txs := .empty

theorem Holds.getLast? {genesisTimestamp : UInt64} {builder : SpanBatchBuilder} {batches : List SingleBatch}
    {flags : List Bool} (holds : Holds codecs encoders genesisTimestamp chainId builder batches flags) :
    builder.batches.getLast? = batches.getLast?.map element := by
  rw [holds.elements, List.getLast?_map]

/-- Transactions that are taken and given by their own encoding, and of which nothing is lost. -/
def Canonical (codecs : Codecs) (encoders : Encoders) (chainId : UInt64) (batch : SingleBatch) : Prop :=
  ∀ tx ∈ batch.transactions, ∃ envelope, taken encoders chainId tx = some envelope ∧ codecs.encode2718 envelope = tx ∧
    Legible codecs encoders envelope

theorem Canonical.legible {batch : SingleBatch} (canonical : Canonical codecs encoders chainId batch) :
    ∀ tx ∈ batch.transactions, ∀ envelope, taken encoders chainId tx = some envelope → Legible codecs encoders envelope := by
  intro tx mem envelope takes
  obtain ⟨envelope', takes', -, legible⟩ := canonical tx mem
  cases takes.symm.trans takes'
  exact legible

theorem Canonical.adds {batch : SingleBatch} (canonical : Canonical codecs encoders chainId batch) :
    ∀ tx ∈ batch.transactions, (taken encoders chainId tx).map codecs.encode2718 = some tx := by
  intro tx mem
  obtain ⟨envelope, takes, same, -⟩ := canonical tx mem
  rw [takes, Option.map_some, same]

theorem Holds.append {genesisTimestamp : UInt64} {builder : SpanBatchBuilder} {batches : List SingleBatch}
    {flags : List Bool} (holds : Holds codecs encoders genesisTimestamp chainId builder batches flags)
    {batch : SingleBatch} (order : ∀ last, batches.getLast? = some last → last.timestamp ≤ batch.timestamp)
    (canonical : Canonical codecs encoders chainId batch)
    (room : builder.txs.totalBlockTxCount.toNat + batch.transactions.length < 2 ^ 64) (seqNum : UInt64) :
    ∃ after flag, builder.appendSingularBatch encoders batch seqNum = (after, .ok ()) ∧
      Holds codecs encoders genesisTimestamp chainId after (batches ++ [batch]) (flags ++ [flag]) := by
  have inOrder : builder.outOfOrder batch = false := by
    rw [outOfOrder, holds.getLast?]
    cases last : batches.getLast? with
    | none => rfl
    | some last' => simpa [element] using UInt64.not_lt.mpr (order last' last)
  have adds : AddsAll codecs encoders chainId ⟨builder.txs, batches.flatMap (·.transactions)⟩ batch.transactions :=
    ⟨canonical.adds, room⟩
  obtain ⟨txs, added, inStep⟩ := holds.txs.addBlock_taken canonical.legible adds.takes room
  rw [(filterMap_taken adds.takes).mpr adds.1] at inStep
  refine ⟨{ builder.appendElement batch seqNum with txs }, builder.epochBit batch seqNum, ?_, ?_⟩
  · simp only [appendSingularBatch, inOrder, Bool.false_eq_true, if_false, appendElement, holds.chain, added]
    rfl
  · have set := holds.origins.setBit (builder.epochBit batch seqNum)
    have place : builder.batches.length = flags.length := by rw [holds.elements, List.length_map, holds.perBlock]
    constructor
    case genesis => exact holds.genesis
    case chain => exact holds.chain
    case elements =>
      rw [List.map_append, ← holds.elements]
      rfl
    case origins =>
      rw [← place] at set
      exact set
    case perBlock => simp [holds.perBlock]
    case changes =>
      intro i previous next here there
      rcases Nat.lt_trichotomy (i + 1) batches.length with inside | last | beyond
      · rw [List.getElem?_append_left (by omega)] at here there
        rw [List.getElem?_append_left (by rw [holds.perBlock]; exact inside)]
        exact holds.changes i previous next here there
      · -- The new batch, whose bit compares it with the last of the batches before it.
        rw [List.getElem?_append_left (by omega)] at here
        rw [last, List.getElem?_concat_length] at there
        cases there
        have previousLast : batches.getLast? = some previous := by
          rw [List.getLast?_eq_getElem?, ← last, Nat.add_sub_cancel, here]
        rw [last, ← holds.perBlock, List.getElem?_concat_length, epochBit, holds.getLast?, previousLast]
        rfl
      · rw [List.getElem?_eq_none (by rw [List.length_append, List.length_singleton]; omega)] at there
        cases there
    case counts =>
      rw [List.map_append, ← holds.counts]
      rfl
    case parentCheck =>
      intro first head
      cases batches with
      | nil =>
          cases head
          simp [appendElement, holds.elements]
      | cons opening later =>
          have kept := holds.parentCheck opening rfl
          cases head
          simp [appendElement, holds.elements, kept]
    case l1OriginCheck =>
      intro last final
      rw [List.getLast?_concat] at final
      cases final
      rfl
    case txs =>
      rw [List.flatMap_append, List.flatMap_singleton]
      exact inStep

theorem Holds.total {genesisTimestamp : UInt64} {builder : SpanBatchBuilder} {batches : List SingleBatch}
    {flags : List Bool} (holds : Holds codecs encoders genesisTimestamp chainId builder batches flags) :
    builder.txs.totalBlockTxCount.toNat = (batches.flatMap (·.transactions)).length := by
  obtain ⟨envelopes, -, total, -, added⟩ := holds.txs
  have length := congrArg List.length added
  rw [List.length_map] at length
  exact total.trans length.symm

theorem Spaced.le {blockTime : UInt64} {previous batch : SingleBatch} (spaced : Spaced blockTime previous batch) :
    previous.timestamp ≤ batch.timestamp := by
  rw [UInt64.le_iff_toNat_le, spaced.1]
  exact Nat.le_add_right _ _

theorem Holds.run {genesisTimestamp blockTime : UInt64} {appended : List (SingleBatch × UInt64)}
    {builder : SpanBatchBuilder} {batches : List SingleBatch} {flags : List Bool}
    (holds : Holds codecs encoders genesisTimestamp chainId builder batches flags)
    (spaced : (batches ++ appended.map (·.1)).IsChain (Spaced blockTime))
    (canonical : ∀ entry ∈ appended, Canonical codecs encoders chainId entry.1)
    (room : ((batches ++ appended.map (·.1)).flatMap (·.transactions)).length < 2 ^ 64) :
    Along (appendStep encoders) (fun builder entry => (appendStep encoders builder entry).2 = .ok ()) builder appended ∧
      ∃ flags', Holds codecs encoders genesisTimestamp chainId (run (appendStep encoders) builder appended)
        (batches ++ appended.map (·.1)) flags' := by
  induction appended generalizing builder batches flags with
  | nil => exact ⟨trivial, flags, by simpa using holds⟩
  | cons entry later ih =>
      rw [List.map_cons] at spaced room ⊢
      have order : ∀ last, batches.getLast? = some last → last.timestamp ≤ entry.1.timestamp := by
        intro last final
        have link := (List.isChain_append.mp spaced).2.2 last final entry.1 rfl
        exact link.le
      have here : builder.txs.totalBlockTxCount.toNat + entry.1.transactions.length < 2 ^ 64 := by
        rw [holds.total]
        simp only [List.flatMap_append, List.flatMap_cons, List.length_append] at room
        omega
      obtain ⟨after, flag, ok, next⟩ := holds.append order (canonical entry List.mem_cons_self) here entry.2
      have split : batches ++ entry.1 :: later.map (·.1) = (batches ++ [entry.1]) ++ later.map (·.1) := by simp
      rw [split] at spaced room ⊢
      obtain ⟨rest, flags', final⟩ := ih next spaced (fun entry mem => canonical entry (List.mem_cons_of_mem _ mem)) room
      have stepped : appendStep encoders builder entry = (after, .ok ()) := ok
      refine ⟨⟨congrArg Prod.snd stepped, by rw [stepped]; exact rest⟩, flags', ?_⟩
      rw [run_cons, stepped]
      exact final

/-! ## There and back -/

theorem isChain_link {R : SingleBatch → SingleBatch → Prop} {batches : List SingleBatch} (chain : batches.IsChain R)
    {i : Nat} {previous batch : SingleBatch} (here : batches[i]? = some previous)
    (next : batches[i + 1]? = some batch) : R previous batch := by
  obtain ⟨_, rfl⟩ := List.getElem?_eq_some_iff.mp here
  obtain ⟨inside, rfl⟩ := List.getElem?_eq_some_iff.mp next
  exact chain.getElem i inside

section Held

variable {genesisTimestamp blockTime : UInt64} {builder : SpanBatchBuilder} {batches : List SingleBatch}
  {flags : List Bool}

theorem Holds.epoch_step (holds : Holds codecs encoders genesisTimestamp chainId builder batches flags)
    (spaced : batches.IsChain (Spaced blockTime)) {i : Nat} {previous batch : SingleBatch}
    (here : batches[i]? = some previous) (next : batches[i + 1]? = some batch) :
    batch.epochNum.toNat = previous.epochNum.toNat + if builder.originBits.isSet (i + 1) then 1 else 0 := by
  have flag := holds.changes i previous batch here next
  rw [holds.origins.isSet, List.getD_eq_getElem?_getD, flag, Option.getD_some]
  rcases (isChain_link spaced here next).2 with same | grows
  · simp [same]
  · have less : previous.epochNum < batch.epochNum := by
      rw [UInt64.lt_iff_toNat_lt, grows]
      exact Nat.lt_succ_self _
    simp [less, grows]

theorem Holds.originChanges_le (holds : Holds codecs encoders genesisTimestamp chainId builder batches flags)
    (spaced : batches.IsChain (Spaced blockTime)) (i : Nat) :
    ∀ batch, batches[i]? = some batch → RawSpanBatch.originChanges builder.originBits (i + 1) ≤ batch.epochNum.toNat := by
  induction i with
  | zero =>
      intro batch _
      rw [RawSpanBatch.originChanges_succ]
      simp [RawSpanBatch.originChanges]
  | succ i ih =>
      intro batch next
      have inside := (List.getElem?_eq_some_iff.mp next).1
      have here := List.getElem?_eq_getElem (Nat.lt_of_succ_lt inside)
      have earlier := ih _ here
      have step := holds.epoch_step spaced here next
      rw [RawSpanBatch.originChanges_succ, step]
      simp only [Nat.succ_pos, true_and]
      omega

theorem timestamp_of_spaced (spaced : batches.IsChain (Spaced blockTime)) {first : SingleBatch}
    (opening : batches[0]? = some first) (i : Nat) :
    ∀ batch, batches[i]? = some batch → batch.timestamp.toNat = first.timestamp.toNat + blockTime.toNat * i := by
  induction i with
  | zero =>
      intro batch here
      rw [opening] at here
      cases here
      rfl
  | succ i ih =>
      intro batch next
      have inside := (List.getElem?_eq_some_iff.mp next).1
      have here := List.getElem?_eq_getElem (Nat.lt_of_succ_lt inside)
      rw [(isChain_link spaced here next).1, ih _ here, Nat.mul_succ, Nat.add_assoc]

theorem length_le_flatMap {batch : SingleBatch} (mem : batch ∈ batches) :
    batch.transactions.length ≤ (batches.flatMap (·.transactions)).length :=
  (List.sublist_flatten_of_mem (List.mem_map_of_mem mem)).length_le

theorem Holds.counts_toNat (holds : Holds codecs encoders genesisTimestamp chainId builder batches flags)
    (fewTxs : (batches.flatMap (·.transactions)).length ≤ maxSpanBatchElements.toNat) :
    builder.blockTxCounts.map UInt64.toNat = batches.map (·.transactions.length) := by
  rw [holds.counts, List.map_map]
  apply List.map_congr_left
  intro batch mem
  have small := Nat.le_trans (length_le_flatMap mem) fewTxs
  exact UInt64.toNat_ofNat_of_lt' (Nat.lt_of_le_of_lt small maxSpanBatchElements.toNat_lt)

theorem Holds.tryFrom (holds : Holds codecs encoders genesisTimestamp chainId builder batches flags) {first last : SingleBatch}
    (opening : batches.head? = some first) (final : batches.getLast? = some last)
    (afterGenesis : genesisTimestamp ≤ first.timestamp) (overflowChecks : Bool) :
    RawSpanBatch.tryFrom overflowChecks builder =
      .ok ⟨⟨first.timestamp - genesisTimestamp, last.epochNum, builder.parentCheck, builder.l1OriginCheck⟩,
        UInt64.ofNat batches.length, builder.originBits, builder.blockTxCounts, builder.txs⟩ := by
  simp only [RawSpanBatch.tryFrom, holds.elements, List.head?_map, opening, List.getLast?_map, final, Option.map_some,
    holds.genesis, element, subU64_of_le overflowChecks afterGenesis, ok_bind, List.length_map]
  rfl

theorem Holds.regular (holds : Holds codecs encoders genesisTimestamp chainId builder batches flags)
    (some_ : batches ≠ []) (fewBlocks : batches.length ≤ maxSpanBatchElements.toNat)
    (fewTxs : (batches.flatMap (·.transactions)).length ≤ maxSpanBatchElements.toNat) :
    ∃ envelopes, Regular encoders ⟨UInt64.ofNat batches.length, builder.originBits, builder.blockTxCounts, builder.txs⟩
        flags envelopes ∧ ∀ envelope ∈ envelopes, Legible codecs encoders envelope := by
  obtain ⟨envelopes, columns, total, all, -⟩ := holds.txs
  have blocks : (UInt64.ofNat batches.length).toNat = batches.length :=
    UInt64.toNat_ofNat_of_lt' (Nat.lt_of_le_of_lt fewBlocks maxSpanBatchElements.toNat_lt)
  refine ⟨envelopes, ?_, fun envelope mem => (all envelope mem).1⟩
  constructor
  case origins => exact holds.origins
  case blocks => rw [blocks, holds.perBlock]
  case nonempty =>
    intro zero
    exact some_ (List.length_eq_zero_iff.mp (blocks.symm.trans (congrArg UInt64.toNat zero)))
  case fewBlocks => rwa [UInt64.le_iff_toNat_le, blocks]
  case perBlock => rw [blocks, holds.counts, List.length_map]
  case sum =>
    rw [holds.counts_toNat fewTxs, holds.total, List.length_flatMap]
  case fewTxs => rwa [UInt64.le_iff_toNat_le, holds.total]
  case columns => exact columns
  case total => exact total

/-- Numbers that end alike and grow by the same steps are the same. The induction goes back from the end. -/
theorem eq_of_steps {epochs epochs' : List UInt64} {step : Nat → Nat} (length : epochs.length = epochs'.length)
    (ends : epochs.getLast? = epochs'.getLast?)
    (up : ∀ i previous epoch, epochs[i]? = some previous → epochs[i + 1]? = some epoch →
      epoch.toNat = previous.toNat + step (i + 1))
    (up' : ∀ i previous epoch, epochs'[i]? = some previous → epochs'[i + 1]? = some epoch →
      epoch.toNat = previous.toNat + step (i + 1)) : epochs = epochs' := by
  have back : ∀ k i, i + k + 1 = epochs.length → epochs[i]? = epochs'[i]? := by
    intro k
    induction k with
    | zero =>
        intro i last
        rw [List.getLast?_eq_getElem?, List.getLast?_eq_getElem?, ← length, ← last] at ends
        exact ends
    | succ k ih =>
        intro i place
        have next := ih (i + 1) (by omega)
        have here := List.getElem?_eq_getElem (show i < epochs.length by omega)
        have there := List.getElem?_eq_getElem (show i + 1 < epochs.length by omega)
        have here' := List.getElem?_eq_getElem (show i < epochs'.length by omega)
        have step' := up' i _ _ here' (next.symm.trans there)
        rw [up i _ _ here there] at step'
        rw [here, here', UInt64.toNat.inj (Nat.add_right_cancel step')]
  apply List.ext_getElem?
  intro i
  rcases Nat.lt_or_ge i epochs.length with inside | outside
  · exact back (epochs.length - i - 1) i (by omega)
  · rw [List.getElem?_eq_none outside, List.getElem?_eq_none (length ▸ outside)]

theorem Holds.reconstructs (holds : Holds codecs encoders genesisTimestamp chainId builder batches flags)
    (spaced : batches.IsChain (Spaced blockTime)) {first last : SingleBatch} (opening : batches.head? = some first)
    (final : batches.getLast? = some last) (afterGenesis : genesisTimestamp ≤ first.timestamp)
    (fewBlocks : batches.length ≤ maxSpanBatchElements.toNat)
    (fewTxs : (batches.flatMap (·.transactions)).length ≤ maxSpanBatchElements.toNat) {raw : RawSpanBatch}
    (made : raw = ⟨⟨first.timestamp - genesisTimestamp, last.epochNum, builder.parentCheck, builder.l1OriginCheck⟩,
      UInt64.ofNat batches.length, builder.originBits, builder.blockTxCounts, builder.txs⟩) {span : SpanBatch}
    (reconstructs : raw.Reconstructs codecs blockTime genesisTimestamp chainId span) :
    span.batches = batches.map element := by
  subst made
  have blocks : span.batches.length = batches.length := reconstructs.blocks.trans
    (UInt64.toNat_ofNat_of_lt' (Nat.lt_of_le_of_lt fewBlocks maxSpanBatchElements.toNat_lt))
  have epochs : span.batches.map (·.epochNum) = batches.map (·.epochNum) := by
    refine @eq_of_steps _ _ (fun i => if builder.originBits.isSet i then 1 else 0) ?_ ?_ ?_ ?_
    · rw [List.length_map, List.length_map, blocks]
    · rw [List.getLast?_map, List.getLast?_map, final, reconstructs.ends]
      rfl
    · intro i previous epoch here next
      rw [List.getElem?_map, Option.map_eq_some_iff] at here next
      obtain ⟨before, here, rfl⟩ := here
      obtain ⟨after, next, rfl⟩ := next
      exact reconstructs.steps i before after here next
    · intro i previous epoch here next
      rw [List.getElem?_map, Option.map_eq_some_iff] at here next
      obtain ⟨before, here, rfl⟩ := here
      obtain ⟨after, next, rfl⟩ := next
      exact holds.epoch_step spaced here next
  have transactions : span.batches.map (·.transactions) = batches.map (·.transactions) := by
    obtain ⟨envelopes, columns, total, all, added⟩ := holds.txs
    have whole := columns.fullTxs total (fun envelope mem => (all envelope mem).1.restores)
      (fun envelope mem => (all envelope mem).2)
    rw [← added] at whole
    rw [List.eq_iff_flatten_eq]
    constructor
    · have same := reconstructs.transactions.symm.trans whole
      rw [← List.flatMap_def, ← List.flatMap_def]
      exact Except.ok.inj same
    · rw [List.map_map, List.map_map]
      exact reconstructs.sizes.trans (holds.counts_toNat fewTxs)
  have opening' : batches[0]? = some first := by rw [← List.head?_eq_getElem?, opening]
  apply List.ext_getElem?
  intro i
  rcases Nat.lt_or_ge i batches.length with inside | outside
  · have here := List.getElem?_eq_getElem (l := span.batches) (show i < span.batches.length by omega)
    have there := List.getElem?_eq_getElem inside
    have epoch := congrArg (·[i]?) epochs
    have txs := congrArg (·[i]?) transactions
    simp only [List.getElem?_map, here, there, Option.map_some, Option.some.injEq] at epoch txs
    have time : (span.batches[i]).timestamp = (batches[i]).timestamp := by
      apply UInt64.toNat.inj
      rw [timestamp_of_spaced spaced opening' i _ there, reconstructs.times i _ here, UInt64.toNat_sub_of_le _ _ afterGenesis]
      have order := UInt64.le_iff_toNat_le.mp afterGenesis
      omega
    rw [List.getElem?_map, here, there, Option.map_some, element, ← epoch, ← time, ← txs]
  · rw [List.getElem?_eq_none (by omega), List.getElem?_eq_none (by simpa using outside)]

theorem derive_checks {raw : RawSpanBatch} {span : SpanBatch}
    (ok : raw.derive codecs overflowChecks blockTime genesisTimestamp chainId = .ok span) :
    span.parentCheck = raw.head.parentCheck ∧ span.l1OriginCheck = raw.head.l1OriginCheck := by
  unfold RawSpanBatch.derive at ok
  split at ok
  · cases ok
  · simp only [bind_eq_ok] at ok
    obtain ⟨_, -, _, -, _, -, made⟩ := ok
    cases made
    exact ⟨rfl, rfl⟩

theorem Holds.round_trip (holds : Holds codecs encoders genesisTimestamp chainId builder batches flags)
    (varints : RestoresVarints codecs encoders) (spaced : batches.IsChain (Spaced blockTime)) {first : SingleBatch}
    (opening : batches.head? = some first) (afterGenesis : genesisTimestamp ≤ first.timestamp)
    (fewBlocks : batches.length ≤ maxSpanBatchElements.toNat)
    (fewTxs : (batches.flatMap (·.transactions)).length ≤ maxSpanBatchElements.toNat) (overflowChecks : Bool) :
    ∃ raw bytes, RawSpanBatch.tryFrom overflowChecks builder = .ok raw ∧ raw.encode encoders = .ok bytes ∧
      RawSpanBatch.decode codecs overflowChecks bytes = .ok (raw, []) ∧
      raw.derive codecs overflowChecks blockTime genesisTimestamp chainId = .ok builder.toSpanBatch := by
  have some_ : batches ≠ [] := by
    rintro rfl
    cases opening
  obtain ⟨last, final⟩ : ∃ last, batches.getLast? = some last := ⟨_, List.getLast?_eq_some_getLast some_⟩
  obtain ⟨envelopes, regular, legible⟩ := holds.regular some_ fewBlocks fewTxs
  have converted := holds.tryFrom opening final afterGenesis overflowChecks
  generalize made : (⟨⟨first.timestamp - genesisTimestamp, last.epochNum, builder.parentCheck, builder.l1OriginCheck⟩,
      UInt64.ofNat batches.length, builder.originBits, builder.blockTxCounts, builder.txs⟩ : RawSpanBatch) = raw at converted
  obtain ⟨bytes, encoded, decoded⟩ := RawSpanBatch.decode_encode overflowChecks
    (show Regular encoders raw.payload flags envelopes by rw [← made]; exact regular) varints legible
  refine ⟨raw, bytes, converted, encoded, decoded, ?_⟩
  have blocks : raw.payload.blockCount.toNat = batches.length := by
    rw [← made]
    exact UInt64.toNat_ofNat_of_lt' (Nat.lt_of_le_of_lt fewBlocks maxSpanBatchElements.toNat_lt)
  have inside : batches.length - 1 < batches.length := Nat.sub_lt (List.length_pos_of_ne_nil some_) Nat.one_pos
  have lastAt : batches[batches.length - 1]? = some last := by rw [← List.getLast?_eq_getElem?, final]
  have enough : RawSpanBatch.originChanges raw.payload.originBits raw.payload.blockCount.toNat ≤
      raw.head.l1OriginNum.toNat := by
    rw [blocks, ← made]
    have changes := holds.originChanges_le spaced _ last lastAt
    rwa [Nat.sub_add_cancel (List.length_pos_of_ne_nil some_)] at changes
  have fits : raw.TimesFit blockTime genesisTimestamp := by
    have opening' : batches[0]? = some first := by rw [← List.head?_eq_getElem?, opening]
    have time := timestamp_of_spaced spaced opening' _ last lastAt
    have bound := last.timestamp.toNat_lt
    have order := UInt64.le_iff_toNat_le.mp afterGenesis
    rw [RawSpanBatch.TimesFit, blocks, ← made, UInt64.toNat_sub_of_le _ _ afterGenesis]
    omega
  have shaped := RawSpanBatch.decode_shaped decoded
  have derives : ∃ span, raw.derive codecs overflowChecks blockTime genesisTimestamp chainId = .ok span := by
    rcases RawSpanBatch.derive_cases codecs overflowChecks shaped enough fits chainId with ⟨span, ok, -⟩ | ⟨e, -, refused⟩
    · exact ⟨span, ok⟩
    · obtain ⟨envelopes, columns, total, all, -⟩ := holds.txs
      have whole := columns.fullTxs total (fun envelope mem => (all envelope mem).1.restores)
        (fun envelope mem => (all envelope mem).2)
      rcases RawSpanBatch.fullTxs_cases codecs shaped chainId with ⟨txs, -, -, converts⟩ | ⟨e', failed, -⟩
      · exact absurd converts refused
      · rw [← made, whole] at failed
        cases failed
  obtain ⟨span, ok⟩ := derives
  obtain ⟨parent, origin⟩ := derive_checks ok
  have elements := holds.reconstructs spaced opening final afterGenesis fewBlocks fewTxs made.symm
    (RawSpanBatch.derive_ok_reconstructs shaped enough fits ok)
  rw [← holds.elements] at elements
  rw [← made] at parent origin
  obtain ⟨parentCheck, l1OriginCheck, elements'⟩ := span
  dsimp only at parent origin elements
  subst parent origin elements
  exact ok

end Held

/-- Batches that are appended to an empty span batch, converted, encoded, decoded and derived come back as the span
batch they were appended to, with the checks and the blocks of the batches and no byte left. -/
theorem span_round_trip (codecs : Codecs) (encoders : Encoders) (varints : RestoresVarints codecs encoders)
    (overflowChecks : Bool) (genesisTimestamp blockTime chainId : UInt64) (appended : List (SingleBatch × UInt64))
    (first last : SingleBatch) (opening : (appended.map (·.1)).head? = some first)
    (final : (appended.map (·.1)).getLast? = some last) (afterGenesis : genesisTimestamp ≤ first.timestamp)
    (spaced : (appended.map (·.1)).IsChain (Spaced blockTime))
    (fewBlocks : appended.length ≤ maxSpanBatchElements.toNat)
    (fewTxs : ((appended.map (·.1)).flatMap (·.transactions)).length ≤ maxSpanBatchElements.toNat)
    (canonical : ∀ entry ∈ appended, Canonical codecs encoders chainId entry.1) :
    Along (appendStep encoders) (fun builder entry => (appendStep encoders builder entry).2 = .ok ())
        (new genesisTimestamp chainId) appended ∧
      ∃ raw bytes, RawSpanBatch.tryFrom overflowChecks (run (appendStep encoders) (new genesisTimestamp chainId) appended) =
          .ok raw ∧
        raw.encode encoders = .ok bytes ∧ RawSpanBatch.decode codecs overflowChecks bytes = .ok (raw, []) ∧
        raw.derive codecs overflowChecks blockTime genesisTimestamp chainId =
          .ok ⟨hashCheck first.parentHash, hashCheck last.epochHash, (appended.map (·.1)).map element⟩ := by
  have room : (([] ++ appended.map (·.1) : List SingleBatch).flatMap (·.transactions)).length < 2 ^ 64 :=
    Nat.lt_of_le_of_lt fewTxs maxSpanBatchElements.toNat_lt
  have start : Holds codecs encoders genesisTimestamp chainId (new genesisTimestamp chainId) [] [] := .new _ _
  obtain ⟨appends, flags, holds⟩ := start.run spaced canonical room
  rw [List.nil_append] at holds
  refine ⟨appends, ?_⟩
  obtain ⟨raw, bytes, converted, encoded, decoded, derived⟩ := holds.round_trip varints spaced opening afterGenesis
    (by rwa [List.length_map]) fewTxs overflowChecks
  refine ⟨raw, bytes, converted, encoded, decoded, ?_⟩
  rw [derived, ← holds.parentCheck first opening, ← holds.l1OriginCheck last final, ← holds.elements]

theorem readVarint_varintBytes {fuel n : Nat} (small : n < 128 ^ fuel) (some_ : 0 < fuel) (rest : List UInt8) :
    readVarint (varintBytes fuel n ++ rest) = some (n, rest) := by
  induction fuel generalizing n with
  | zero => exact absurd some_ (Nat.lt_irrefl 0)
  | succ fuel ih =>
      rw [varintBytes]
      split
      · rename_i one
        have byte : (UInt8.ofNat n).toNat = n := UInt8.toNat_ofNat_of_lt' (Nat.lt_trans one (by decide))
        have below : UInt8.ofNat n < 128 := by
          rw [UInt8.lt_iff_toNat_lt, byte]
          exact one
        rw [List.singleton_append, readVarint, if_pos below, byte]
      · rename_i more
        have byte : (UInt8.ofNat (n % 128 + 128)).toNat = n % 128 + 128 :=
          UInt8.toNat_ofNat_of_lt' (show n % 128 + 128 < 256 by omega)
        have above : ¬ UInt8.ofNat (n % 128 + 128) < 128 := by
          rw [UInt8.lt_iff_toNat_lt, byte]
          exact Nat.not_lt.mpr (Nat.le_add_left 128 _)
        have left : 0 < fuel := by
          rcases Nat.eq_zero_or_pos fuel with rfl | positive
          · omega
          · exact positive
        have later : n / 128 < 128 ^ fuel := Nat.div_lt_of_lt_mul (by rwa [pow_succ, Nat.mul_comm] at small)
        rw [List.cons_append, readVarint, if_neg above, ih later left, Option.map_some, byte]
        congr 2
        omega

theorem restoresVarints_transfer : RestoresVarints transferCodecs transferEncoders := by
  intro n rest
  have small : n.toNat < 128 ^ 10 := Nat.lt_trans n.toNat_lt (by decide)
  show (readVarint (varintBytes 10 n.toNat ++ rest)).map _ = _
  rw [readVarint_varintBytes small (by decide), Option.map_some, UInt64.ofNat_toNat]

theorem legible_transfer : Legible transferCodecs transferEncoders (transfer none) :=
  ⟨restores_transfer, [0x01, 0x01, 0x80], by decide, by decide +kernel⟩

def transferBlocks : List (SingleBatch × UInt64) :=
  [(⟨.ofNat 1, 5, .ofNat 2, 100, []⟩, 0), (⟨.ofNat 3, 6, .ofNat 4, 102, [transferBytes]⟩, 0)]

theorem span_round_trip_transfer :
    ∃ raw bytes, RawSpanBatch.tryFrom true (run (appendStep transferEncoders) (new 90 1) transferBlocks) = .ok raw ∧
      raw.encode transferEncoders = .ok bytes ∧ RawSpanBatch.decode transferCodecs true bytes = .ok (raw, []) ∧
      raw.derive transferCodecs true 2 90 1 =
        .ok ⟨hashCheck (.ofNat 1), hashCheck (.ofNat 4), [⟨5, 100, []⟩, ⟨6, 102, [transferBytes]⟩]⟩ := by
  have canonical : ∀ entry ∈ transferBlocks, Canonical transferCodecs transferEncoders 1 entry.1 := by
    intro entry mem tx inside
    have same : tx = transferBytes := by
      rcases List.mem_pair.mp mem with rfl | rfl
      · cases inside
      · exact List.mem_singleton.mp inside
    subst same
    exact ⟨transfer none, by decide +kernel, by decide +kernel, legible_transfer⟩
  have spaced : (transferBlocks.map (·.1)).IsChain (Spaced 2) := by
    refine .cons_cons ⟨by decide, .inr (by decide)⟩ (.singleton _)
  exact (span_round_trip transferCodecs transferEncoders restoresVarints_transfer true 90 2 1 transferBlocks
    ⟨.ofNat 1, 5, .ofNat 2, 100, []⟩ ⟨.ofNat 3, 6, .ofNat 4, 102, [transferBytes]⟩ rfl rfl (by decide) spaced (by decide)
    (by decide) canonical).2

end SpanBatchBuilder

end KonaSoon.Derive
