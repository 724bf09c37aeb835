import KonaSoon.Derive.RawSpanBatch

/-!
# Which span batches decode without a panic

The fields of a span batch fall into five groups. The decoder checks what it reads of the opening numbers, of the
counts with their bit lists and of the transaction columns; between them it slices off the two hash checks and
then all signatures and recipients, whose length the counts announce. Hence only the length of these two slices
and the number of origin changes decide whether decoding panics.
-/

namespace KonaSoon.Derive
open Lib Mpt

variable {codecs : Codecs} {overflowChecks : Bool}

namespace RawSpanBatch

/-! ## The groups of fields -/

def decodeOpening (codecs : Codecs) : Reads SpanBatchError (UInt64 × UInt64) := do
  let relTimestamp ← SpanBatchPrefix.decodeRelTimestamp codecs
  let l1OriginNum ← SpanBatchPrefix.decodeL1OriginNum codecs
  pure (relTimestamp, l1OriginNum)

def decodeHashChecks : Reads SpanBatchError (FixedBytes 20 × FixedBytes 20) := do
  let parentCheck ← SpanBatchPrefix.decodeParentCheck
  let l1OriginCheck ← SpanBatchPrefix.decodeL1OriginCheck
  pure (parentCheck, l1OriginCheck)

structure Counts where
  blockCount : UInt64
  originBits : SpanBatchBits
  blockTxCounts : List UInt64
  total : UInt64
  contractCreationBits : SpanBatchBits
  yParityBits : SpanBatchBits

def decodeCounts (codecs : Codecs) : Reads SpanBatchError Counts := do
  let blockCount ← SpanBatchPayload.decodeBlockCount codecs
  let originBits ← SpanBatchPayload.decodeOriginBits blockCount
  let blockTxCounts ← SpanBatchPayload.decodeBlockTxCounts codecs blockCount
  let total ← SpanBatchPayload.decodeTotal blockTxCounts
  let contractCreationBits ← SpanBatchTransactions.decodeContractCreationBits total
  let yParityBits ← SpanBatchBits.decode total.toNat
  pure ⟨blockCount, originBits, blockTxCounts, total, contractCreationBits, yParityBits⟩

def decodeSigned (overflowChecks : Bool) (counts : Counts) : Reads SpanBatchError (List Signature × List Address) := do
  let txSigs ← (List.range counts.total.toNat).mapM (SpanBatchTransactions.decodeTxSig counts.yParityBits)
  let txTos ← SpanBatchTransactions.decodeTxTos overflowChecks counts.total counts.contractCreationBits
  pure (txSigs, txTos)

structure Columns where
  datas : List (List UInt8 × TxType)
  nonces : List UInt64
  gases : List UInt64
  protectedBits : SpanBatchBits

def decodeColumns (codecs : Codecs) (total : UInt64) : Reads SpanBatchError Columns := do
  let datas ← SpanBatchTransactions.decodeTxDatas codecs total
  let nonces ← SpanBatchTransactions.decodeTxNonces codecs total
  let gases ← SpanBatchTransactions.decodeTxGases codecs total
  let protectedBits ← SpanBatchTransactions.decodeProtectedBits (SpanBatchTransactions.legacyCount datas)
  pure ⟨datas, nonces, gases, protectedBits⟩

def assemble (opening : UInt64 × UInt64) (hashChecks : FixedBytes 20 × FixedBytes 20) (counts : Counts)
    (signed : List Signature × List Address) (columns : Columns) : RawSpanBatch :=
  ⟨⟨opening.1, opening.2, hashChecks.1, hashChecks.2⟩, counts.blockCount, counts.originBits, counts.blockTxCounts,
    counts.total, counts.contractCreationBits, signed.1, columns.nonces, columns.gases, signed.2,
    columns.datas.map (·.1), columns.protectedBits, columns.datas.map (·.2),
    SpanBatchTransactions.legacyCount columns.datas⟩

def decodeGroups (codecs : Codecs) (overflowChecks : Bool) : Reads SpanBatchError RawSpanBatch := do
  let opening ← decodeOpening codecs
  let hashChecks ← decodeHashChecks
  let counts ← decodeCounts codecs
  let signed ← decodeSigned overflowChecks counts
  let columns ← decodeColumns codecs counts.total
  pure (assemble opening hashChecks counts signed columns)

theorem decode_eq_groups : decode codecs overflowChecks = decodeGroups codecs overflowChecks := by
  simp only [decode, SpanBatchPrefix.decodePrefix, SpanBatchPayload.decodePayload, SpanBatchPayload.decodeTxs,
    SpanBatchTransactions.decode, SpanBatchTransactions.decodeTxSigs, decodeGroups, decodeOpening, decodeHashChecks,
    decodeCounts, decodeSigned, decodeColumns, assemble, bind_assoc, pure_bind]

/-! ## Checked and unchecked groups -/

theorem checked_opening : (decodeOpening codecs).Checked :=
  (Reads.Checked.ofOption _ _).bind fun _ => (Reads.Checked.ofOption _ _).bind fun _ => .pure _

theorem takes_hashChecks : Reads.Takes 40 decodeHashChecks :=
  (Reads.Takes.slice 20).bind fun _ => (Reads.Takes.slice 20).bind fun _ => .pure _

theorem checked_decodeBlockCount : (SpanBatchPayload.decodeBlockCount codecs).Checked := by
  refine (Reads.Checked.ofOption _ _).bind fun blockCount => ?_
  split
  · exact .fail _
  · split
    · exact .fail _
    · exact .pure _

theorem checked_bounded (count : UInt64) :
    Reads.Checked (if maxSpanBatchElements < count then .fail .tooBigSpanBatchSize
      else SpanBatchBits.decode count.toNat) := by
  split
  · exact .fail _
  · exact SpanBatchBits.checked_decode _

theorem checked_decodeBlockTxCounts (blockCount : UInt64) :
    (SpanBatchPayload.decodeBlockTxCounts codecs blockCount).Checked := by
  refine .mapM fun _ => (Reads.Checked.ofOption _ _).bind fun blockTxCount => ?_
  split
  · exact .fail _
  · exact .pure _

theorem checked_decodeTotal (blockTxCounts : List UInt64) : (SpanBatchPayload.decodeTotal blockTxCounts).Checked := by
  unfold SpanBatchPayload.decodeTotal
  split
  · exact .fail _
  · split
    · exact .fail _
    · split
      · exact .fail _
      · exact .pure _

theorem checked_counts : (decodeCounts codecs).Checked :=
  checked_decodeBlockCount.bind fun blockCount => (checked_bounded blockCount).bind fun _ =>
    (checked_decodeBlockTxCounts blockCount).bind fun blockTxCounts => (checked_decodeTotal blockTxCounts).bind fun total =>
      (checked_bounded total).bind fun _ => (SpanBatchBits.checked_decode _).bind fun _ => .pure _

theorem checked_readTxPayload (fits : codecs.rlp.HeaderFits) : (readTxPayload codecs).Checked := by
  intro r
  unfold readTxPayload
  split
  · trivial
  · rename_i header rest ok
    split
    · rename_i list
      obtain ⟨payload, taken⟩ := (Reads.Takes.slice _ r).1 (fits r header rest ok list)
      rw [taken]
      trivial
    · trivial

theorem checked_readTxOfType (fits : codecs.rlp.HeaderFits) (txType : UInt8) (txData : List UInt8) :
    (readTxOfType codecs txType txData).Checked := by
  refine (checked_readTxPayload fits).bind fun _ => ?_
  split
  · exact .fail _
  · exact .pure _

theorem checked_readTxData (fits : codecs.rlp.HeaderFits) : (readTxData codecs).Checked := by
  intro r
  unfold readTxData
  split
  · trivial
  · split
    · exact checked_readTxOfType fits _ _ _
    · exact checked_readTxOfType fits _ _ _

theorem checked_columns (fits : codecs.rlp.HeaderFits) (total : UInt64) : (decodeColumns codecs total).Checked :=
  (Reads.Checked.mapM fun _ => checked_readTxData fits).bind fun _ =>
    (Reads.Checked.mapM fun _ => .ofOption _ _).bind fun _ => (Reads.Checked.mapM fun _ => .ofOption _ _).bind fun _ =>
      (checked_bounded _).bind fun _ => .pure _

/-! ## What the counts promise -/

structure Counts.Decoded (counts : Counts) : Prop where
  blocks : counts.blockCount ≠ 0
  origin : ∀ i < counts.blockCount.toNat, (counts.originBits.getBit i).isSome
  perBlock : counts.blockTxCounts.length = counts.blockCount.toNat
  sum : (counts.blockTxCounts.map UInt64.toNat).sum = counts.total.toNat
  creations : (List.range counts.total.toNat).countP counts.contractCreationBits.isSet =
    counts.contractCreationBits.countOnesTotal
  creation : ∀ i < counts.total.toNat, (counts.contractCreationBits.getBit i).isSome
  parity : ∀ i < counts.total.toNat, (counts.yParityBits.getBit i).isSome

theorem totalBlockTxCount_eq_some {acc total : UInt64} {counts : List UInt64}
    (ok : SpanBatchPayload.totalBlockTxCount acc counts = some total) :
    acc.toNat + (counts.map UInt64.toNat).sum = total.toNat := by
  induction counts generalizing acc with
  | nil =>
      cases ok
      simp
  | cons count counts ih =>
      rw [SpanBatchPayload.totalBlockTxCount, Option.bind_eq_some_iff] at ok
      obtain ⟨next, added, ok⟩ := ok
      unfold checkedAdd at added
      split at added
      · rename_i fits
        cases added
        have later := ih ok
        rw [UInt64.toNat_add, Nat.mod_eq_of_lt fits] at later
        rw [List.map_cons, List.sum_cons]
        omega
      · cases added

theorem decodeTotal_eq_ok {blockTxCounts : List UInt64} {r rest : List UInt8} {total : UInt64}
    (ok : SpanBatchPayload.decodeTotal blockTxCounts r = .ok (total, rest)) :
    (blockTxCounts.map UInt64.toNat).sum = total.toNat := by
  unfold SpanBatchPayload.decodeTotal at ok
  split at ok
  · cases ok
  · cases sum : SpanBatchPayload.totalBlockTxCount 0 blockTxCounts with
    | none =>
        rw [sum] at ok
        cases ok
    | some found =>
        rw [sum] at ok
        dsimp only at ok
        split at ok
        · cases ok
        · cases ok
          simpa using totalBlockTxCount_eq_some sum

theorem bounded_eq_ok {count : UInt64} {r rest : List UInt8} {bits : SpanBatchBits}
    (ok : (if maxSpanBatchElements < count then Reads.fail SpanBatchError.tooBigSpanBatchSize
      else SpanBatchBits.decode count.toNat) r = .ok (bits, rest)) :
    SpanBatchBits.decode count.toNat r = .ok (bits, rest) := by
  split at ok
  · cases ok
  · exact ok

theorem decodeCounts_decoded {r rest : List UInt8} {counts : Counts} (ok : decodeCounts codecs r = .ok (counts, rest)) :
    counts.Decoded := by
  simp only [decodeCounts, Reads.bind_ok_iff] at ok
  obtain ⟨blockCount, r₁, countOk, originBits, r₂, originOk, blockTxCounts, r₃, perBlockOk, total, r₄, totalOk,
    creationBits, r₅, creationOk, parityBits, r₆, parityOk, made⟩ := ok
  cases made
  have originOk := bounded_eq_ok originOk
  have creationOk := bounded_eq_ok creationOk
  exact {
    blocks := by
      simp only [SpanBatchPayload.decodeBlockCount, Reads.bind_ok_iff] at countOk
      obtain ⟨count, r', -, countOk⟩ := countOk
      split at countOk
      · cases countOk
      · split at countOk
        · cases countOk
        · rename_i nonzero
          cases countOk
          exact nonzero
    origin := fun i within => SpanBatchBits.decode_getBit originOk within
    perBlock := by simpa using Reads.length_of_mapM perBlockOk
    sum := decodeTotal_eq_ok totalOk
    creations := SpanBatchBits.decode_countP_isSet creationOk
    creation := fun i within => SpanBatchBits.decode_getBit creationOk within
    parity := fun i within => SpanBatchBits.decode_getBit parityOk within }

/-! ## Signatures and recipients -/

def Counts.calls (counts : Counts) : Nat := counts.total.toNat - counts.contractCreationBits.countOnesTotal

def Counts.signedLength (counts : Counts) : Nat := 64 * counts.total.toNat + 20 * counts.calls

theorem Counts.Decoded.creations_le {counts : Counts} (decoded : counts.Decoded) :
    counts.contractCreationBits.countOnesTotal ≤ counts.total.toNat := by
  rw [← decoded.creations]
  simpa using List.countP_le_length (l := List.range counts.total.toNat) (p := counts.contractCreationBits.isSet)

theorem Counts.Decoded.sub_creations {counts : Counts} (decoded : counts.Decoded) :
    (subU64 overflowChecks counts.total (SpanBatchTransactions.contractCreationCount counts.contractCreationBits) :
      Outcome SpanBatchError UInt64) = .ok (UInt64.ofNat counts.calls) := by
  have fits : counts.total.toNat < UInt64.size := counts.total.toNat_lt
  have fewer := decoded.creations_le
  have small : counts.calls < UInt64.size := Nat.lt_of_le_of_lt (Nat.sub_le _ _) fits
  have count : (SpanBatchTransactions.contractCreationCount counts.contractCreationBits).toNat =
      counts.contractCreationBits.countOnesTotal := by
    rw [SpanBatchTransactions.contractCreationCount, UInt64.toNat_ofNat_of_lt' (by omega)]
  have within : SpanBatchTransactions.contractCreationCount counts.contractCreationBits ≤ counts.total := by
    rw [UInt64.le_iff_toNat_le, count]
    exact fewer
  rw [subU64_of_le overflowChecks within]
  congr 1
  apply UInt64.toNat.inj
  rw [UInt64.toNat_sub_of_le _ _ within, count, UInt64.toNat_ofNat_of_lt' small, calls]

theorem takes_decodeTxSig {bits : SpanBatchBits} {i : Nat} (isSome : (bits.getBit i).isSome) :
    Reads.Takes 64 (SpanBatchTransactions.decodeTxSig bits i) :=
  (Reads.Takes.unwrap isSome).bind fun _ => (Reads.Takes.slice 32).bind fun _ =>
    (Reads.Takes.slice 32).bind fun _ => .pure _

theorem decodeTxTos_eq {counts : Counts} (decoded : counts.Decoded) :
    SpanBatchTransactions.decodeTxTos overflowChecks counts.total counts.contractCreationBits =
      (List.range counts.calls).mapM fun _ => .slice 20 := by
  have calls : (UInt64.ofNat counts.calls).toNat = counts.calls :=
    UInt64.toNat_ofNat_of_lt' (Nat.lt_of_le_of_lt (Nat.sub_le _ _) counts.total.toNat_lt)
  have counted : (StateT.lift (subU64 overflowChecks counts.total
      (SpanBatchTransactions.contractCreationCount counts.contractCreationBits)) : Reads SpanBatchError UInt64) =
      pure (UInt64.ofNat counts.calls) := by
    rw [decoded.sub_creations]
    rfl
  rw [SpanBatchTransactions.decodeTxTos, counted, pure_bind, calls]

theorem takes_decodeTxTos {counts : Counts} (decoded : counts.Decoded) :
    Reads.Takes (20 * counts.calls)
      (SpanBatchTransactions.decodeTxTos overflowChecks counts.total counts.contractCreationBits) := by
  have all := Reads.Takes.mapM (List.range counts.calls) fun _ _ =>
    (Reads.Takes.slice 20 : Reads.Takes 20 (Reads.slice 20 : Reads SpanBatchError Address))
  rw [List.length_range] at all
  rw [decodeTxTos_eq decoded]
  exact all

theorem takes_signed {counts : Counts} (decoded : counts.Decoded) :
    Reads.Takes counts.signedLength (decodeSigned overflowChecks counts) := by
  have sigs : Reads.Takes (64 * counts.total.toNat)
      ((List.range counts.total.toNat).mapM (SpanBatchTransactions.decodeTxSig counts.yParityBits)) := by
    have each := Reads.Takes.mapM (List.range counts.total.toNat) fun i mem =>
      takes_decodeTxSig (decoded.parity i (List.mem_range.mp mem))
    rwa [List.length_range] at each
  exact sigs.bind fun _ => (takes_decodeTxTos decoded).bind fun _ => .pure _

/-! ## Decoded batches -/

/-- What holds of every span batch that has been decoded: its columns have as many entries as its counts say. -/
structure Shaped (raw : RawSpanBatch) : Prop where
  blocks : raw.payload.blockCount ≠ 0
  origin : ∀ i < raw.payload.blockCount.toNat, (raw.payload.originBits.getBit i).isSome
  perBlock : raw.payload.blockTxCounts.length = raw.payload.blockCount.toNat
  sum : (raw.payload.blockTxCounts.map UInt64.toNat).sum = raw.payload.txs.totalBlockTxCount.toNat
  creation : ∀ i < raw.payload.txs.totalBlockTxCount.toNat, (raw.payload.txs.contractCreationBits.getBit i).isSome
  sigs : raw.payload.txs.txSigs.length = raw.payload.txs.totalBlockTxCount.toNat
  tos : raw.payload.txs.txTos.length = (List.range raw.payload.txs.totalBlockTxCount.toNat).countP
    fun i => !raw.payload.txs.contractCreationBits.isSet i
  datas : raw.payload.txs.txDatas.length = raw.payload.txs.totalBlockTxCount.toNat
  nonces : raw.payload.txs.txNonces.length = raw.payload.txs.totalBlockTxCount.toNat
  gases : raw.payload.txs.txGases.length = raw.payload.txs.totalBlockTxCount.toNat

theorem decodeSigned_lengths {counts : Counts} (decoded : counts.Decoded) {r rest : List UInt8}
    {signed : List Signature × List Address} (ok : decodeSigned overflowChecks counts r = .ok (signed, rest)) :
    signed.1.length = counts.total.toNat ∧ signed.2.length = counts.calls := by
  simp only [decodeSigned, Reads.bind_ok_iff] at ok
  obtain ⟨txSigs, r₁, sigsOk, txTos, r₂, tosOk, made⟩ := ok
  cases made
  refine ⟨by simpa using Reads.length_of_mapM sigsOk, ?_⟩
  rw [decodeTxTos_eq decoded] at tosOk
  simpa using Reads.length_of_mapM tosOk

theorem Counts.Decoded.calls_eq {counts : Counts} (decoded : counts.Decoded) :
    counts.calls = (List.range counts.total.toNat).countP fun i => !counts.contractCreationBits.isSet i := by
  have both := List.length_eq_countP_add_countP (l := List.range counts.total.toNat) counts.contractCreationBits.isSet
  have clear : (List.range counts.total.toNat).countP (fun i => decide ¬ counts.contractCreationBits.isSet i = true) =
      (List.range counts.total.toNat).countP fun i => !counts.contractCreationBits.isSet i :=
    List.countP_congr fun i _ => by simp
  rw [List.length_range, decoded.creations, clear] at both
  rw [calls]
  omega

theorem decodeColumns_lengths {total : UInt64} {r rest : List UInt8} {columns : Columns}
    (ok : decodeColumns codecs total r = .ok (columns, rest)) :
    columns.datas.length = total.toNat ∧ columns.nonces.length = total.toNat ∧ columns.gases.length = total.toNat := by
  simp only [decodeColumns, Reads.bind_ok_iff] at ok
  obtain ⟨datas, r₁, datasOk, nonces, r₂, noncesOk, gases, r₃, gasesOk, bits, r₄, -, made⟩ := ok
  cases made
  exact ⟨by simpa using Reads.length_of_mapM datasOk, by simpa using Reads.length_of_mapM noncesOk,
    by simpa using Reads.length_of_mapM gasesOk⟩

theorem assemble_shaped {opening : UInt64 × UInt64} {hashChecks : FixedBytes 20 × FixedBytes 20} {counts : Counts}
    {signed : List Signature × List Address} {columns : Columns} (decoded : counts.Decoded)
    {r₁ r₂ r₃ r₄ : List UInt8} (signedOk : decodeSigned overflowChecks counts r₁ = .ok (signed, r₂))
    (columnsOk : decodeColumns codecs counts.total r₃ = .ok (columns, r₄)) :
    (assemble opening hashChecks counts signed columns).Shaped := by
  obtain ⟨sigs, tos⟩ := decodeSigned_lengths decoded signedOk
  obtain ⟨datas, nonces, gases⟩ := decodeColumns_lengths columnsOk
  exact {
    blocks := decoded.blocks
    origin := decoded.origin
    perBlock := decoded.perBlock
    sum := decoded.sum
    creation := decoded.creation
    sigs := sigs
    tos := tos.trans decoded.calls_eq
    datas := by rwa [assemble, List.length_map]
    nonces := nonces
    gases := gases }

/-! ## Origins -/

def originChanges (originBits : SpanBatchBits) (blockCount : Nat) : Nat :=
  (List.range blockCount).countP fun i => decide (0 < i) && originBits.isSet i

theorem originChanges_succ (originBits : SpanBatchBits) (i : Nat) :
    originChanges originBits (i + 1) = originChanges originBits i + if 0 < i ∧ originBits.isSet i then 1 else 0 := by
  simp [originChanges, List.range_succ, List.countP_append, List.countP_singleton]

theorem blockOriginNums_ok (overflowChecks : Bool) {originBits : SpanBatchBits} {n : Nat} {l1OriginNumber : UInt64}
    (inRange : ∀ i < n, (originBits.getBit i).isSome) (enough : originChanges originBits n ≤ l1OriginNumber.toNat) :
    ∃ origins, blockOriginNums overflowChecks originBits n l1OriginNumber = .ok origins ∧ origins.length = n := by
  induction n generalizing l1OriginNumber with
  | zero => exact ⟨[], rfl, rfl⟩
  | succ i ih =>
      obtain ⟨bit, found⟩ := Option.isSome_iff_exists.mp (inRange i (Nat.lt_succ_self i))
      have earlierInRange : ∀ k < i, (originBits.getBit k).isSome := fun k within => inRange k (Nat.lt_succ_of_lt within)
      rw [originChanges_succ] at enough
      by_cases changes : bit = 1 ∧ 0 < i
      · have set : 0 < i ∧ originBits.isSet i := ⟨changes.2, by simp [SpanBatchBits.isSet, found, changes.1]⟩
        rw [if_pos set] at enough
        have one : (1 : UInt64) ≤ l1OriginNumber := by
          rw [UInt64.le_iff_toNat_le]
          exact Nat.le_trans (Nat.le_add_left 1 _) enough
        have less : (l1OriginNumber - 1).toNat = l1OriginNumber.toNat - 1 := UInt64.toNat_sub_of_le _ _ one
        obtain ⟨origins, ok, length⟩ := ih earlierInRange (by rw [less]; omega)
        refine ⟨origins ++ [l1OriginNumber], ?_, by simp [length]⟩
        simp only [blockOriginNums, found, if_pos changes, subU64_of_le overflowChecks one, ok_bind, ok]
        rfl
      · obtain ⟨origins, ok, length⟩ := ih earlierInRange (Nat.le_trans (Nat.le_add_right _ _) enough)
        refine ⟨origins ++ [l1OriginNumber], ?_, by simp [length]⟩
        simp only [blockOriginNums, found, if_neg changes, ok_bind, ok]
        rfl

theorem blockOriginNums_panic {originBits : SpanBatchBits} {n : Nat} {l1OriginNumber : UInt64}
    (inRange : ∀ i < n, (originBits.getBit i).isSome) (fewer : l1OriginNumber.toNat < originChanges originBits n) :
    blockOriginNums true originBits n l1OriginNumber = .error .panic := by
  induction n generalizing l1OriginNumber with
  | zero => exact absurd fewer (Nat.not_lt_zero _)
  | succ i ih =>
      obtain ⟨bit, found⟩ := Option.isSome_iff_exists.mp (inRange i (Nat.lt_succ_self i))
      have earlierInRange : ∀ k < i, (originBits.getBit k).isSome := fun k within => inRange k (Nat.lt_succ_of_lt within)
      rw [originChanges_succ] at fewer
      by_cases changes : bit = 1 ∧ 0 < i
      · have set : 0 < i ∧ originBits.isSet i := ⟨changes.2, by simp [SpanBatchBits.isSet, found, changes.1]⟩
        rw [if_pos set] at fewer
        by_cases zero : l1OriginNumber < 1
        · simp only [blockOriginNums, found, if_pos changes, subU64, zero, and_self, if_true]
          rfl
        · have one : (1 : UInt64) ≤ l1OriginNumber := UInt64.not_lt.mp zero
          have less : (l1OriginNumber - 1).toNat = l1OriginNumber.toNat - 1 := UInt64.toNat_sub_of_le _ _ one
          have positive := UInt64.le_iff_toNat_le.mp one
          have stops := ih earlierInRange (by rw [less]; simp only [UInt64.toNat_one] at positive; omega)
          simp only [blockOriginNums, found, if_pos changes, subU64_of_le true one, ok_bind, stops]
          rfl
      · have clear : ¬ (0 < i ∧ originBits.isSet i) := by
          rintro ⟨later, set⟩
          exact changes ⟨by simpa [SpanBatchBits.isSet, found] using set, later⟩
        rw [if_neg clear, Nat.add_zero] at fewer
        have stops := ih earlierInRange fewer
        simp only [blockOriginNums, found, if_neg changes, ok_bind, stops]
        rfl

/-! ## Transactions -/

def Converts (codecs : Codecs) (contractCreationBits : SpanBatchBits) (idx : Nat) (data : List UInt8) : Prop :=
  ∃ tx, SpanBatchTransactionData.decode codecs data = .ok tx ∧
    (tx.txType = .eip7702 → contractCreationBits.isSet idx = false)

def recipientsBefore (contractCreationBits : SpanBatchBits) (idx : Nat) : Nat :=
  (List.range idx).countP fun i => !contractCreationBits.isSet i

theorem recipientsBefore_succ (bits : SpanBatchBits) (idx : Nat) :
    recipientsBefore bits (idx + 1) = recipientsBefore bits idx + if bits.isSet idx then 0 else 1 := by
  cases set : bits.isSet idx with
  | false => simp [recipientsBefore, List.range_succ, List.countP_append, set]
  | true => simp [recipientsBefore, List.range_succ, List.countP_append, set]

theorem recipientsBefore_mono (bits : SpanBatchBits) {idx idx' : Nat} (le : idx ≤ idx') :
    recipientsBefore bits idx ≤ recipientsBefore bits idx' := by
  obtain ⟨more, rfl⟩ := Nat.exists_eq_add_of_le le
  rw [recipientsBefore, recipientsBefore, List.range_add, List.countP_append]
  exact Nat.le_add_right _ _

theorem toSignedTx_cases (codecs : Codecs) (tx : SpanBatchTransactionData) (nonce gas : UInt64) (to_ : Option Address) (chainId : UInt64)
    (sig : Signature) (isProtected : Bool) :
    ((tx.txType = .eip7702 → to_ ≠ none) ∧ ∃ envelope, tx.toSignedTx codecs nonce gas to_ chainId sig isProtected =
      .ok envelope) ∨
    ((tx.txType = .eip7702 ∧ to_ = none) ∧ ∃ e, tx.toSignedTx codecs nonce gas to_ chainId sig isProtected =
      .error e) := by
  cases tx with
  | legacy data => exact .inl ⟨nofun, _, rfl⟩
  | eip2930 data => exact .inl ⟨nofun, _, rfl⟩
  | eip1559 data => exact .inl ⟨nofun, _, rfl⟩
  | eip7702 data =>
      cases to_ with
      | none => exact .inr ⟨⟨rfl, rfl⟩, _, rfl⟩
      | some to_ => exact .inl ⟨fun _ => Option.some_ne_none to_, _, rfl⟩

theorem recipient_eq {raw : RawSpanBatch} (shaped : raw.Shaped) {idx : Nat}
    (within : idx < raw.payload.txs.totalBlockTxCount.toNat) :
    ∃ to_, raw.payload.txs.recipient (if raw.payload.txs.contractCreationBits.isSet idx then 1 else 0)
        (recipientsBefore raw.payload.txs.contractCreationBits idx) =
          .ok (to_, recipientsBefore raw.payload.txs.contractCreationBits (idx + 1)) ∧
      (to_ = none ↔ raw.payload.txs.contractCreationBits.isSet idx) := by
  rw [recipientsBefore_succ]
  cases set : raw.payload.txs.contractCreationBits.isSet idx with
  | true => exact ⟨none, rfl, by simp⟩
  | false =>
      have last : recipientsBefore raw.payload.txs.contractCreationBits idx + 1 ≤ raw.payload.txs.txTos.length := by
        rw [shaped.tos]
        have upTo := recipientsBefore_mono raw.payload.txs.contractCreationBits (Nat.succ_le_of_lt within)
        rwa [Nat.succ_eq_add_one, recipientsBefore_succ, set] at upTo
      have found := List.getElem?_eq_getElem (Nat.lt_of_succ_le last)
      exact ⟨_, by simp [SpanBatchTransactions.recipient, found, SpanBatchTransactions.getOr, Except.map]; rfl, by simp⟩

theorem getOr_eq {α : Type} (as : List α) {i : Nat} (within : i < as.length) :
    ∃ a, SpanBatchTransactions.getOr as[i]? = .ok a := by
  rw [List.getElem?_eq_getElem within]
  exact ⟨_, rfl⟩

theorem fullTx_cases (codecs : Codecs) {raw : RawSpanBatch} (shaped : raw.Shaped) {idx : Nat} {data : List UInt8}
    (here : raw.payload.txs.txDatas[idx]? = some data) (chainId : UInt64) (protectedBitIdx : Nat) :
    (Converts codecs raw.payload.txs.contractCreationBits idx data ∧
      ∃ tx next, raw.payload.txs.fullTx codecs chainId idx
        (recipientsBefore raw.payload.txs.contractCreationBits idx) protectedBitIdx =
          .ok (tx, recipientsBefore raw.payload.txs.contractCreationBits (idx + 1), next)) ∨
    (¬ Converts codecs raw.payload.txs.contractCreationBits idx data ∧
      ∃ e, raw.payload.txs.fullTx codecs chainId idx
        (recipientsBefore raw.payload.txs.contractCreationBits idx) protectedBitIdx = .error (.error e)) := by
  have within : idx < raw.payload.txs.totalBlockTxCount.toNat := by
    obtain ⟨inside, -⟩ := List.getElem?_eq_some_iff.mp here
    rwa [shaped.datas] at inside
  obtain ⟨nonce, nonceOk⟩ := getOr_eq raw.payload.txs.txNonces (i := idx) (by rwa [shaped.nonces])
  obtain ⟨gas, gasOk⟩ := getOr_eq raw.payload.txs.txGases (i := idx) (by rwa [shaped.gases])
  obtain ⟨sig, sigOk⟩ := getOr_eq raw.payload.txs.txSigs (i := idx) (by rwa [shaped.sigs])
  obtain ⟨to_, toOk, toNone⟩ := recipient_eq shaped within
  have bit := SpanBatchBits.getBit_eq (shaped.creation idx within)
  cases decoded : SpanBatchTransactionData.decode codecs data with
  | error e =>
      refine .inr ⟨?_, .decoding .invalidTransactionData, ?_⟩
      · rintro ⟨tx, ok, -⟩
        rw [decoded] at ok
        cases ok
      · simp only [SpanBatchTransactions.fullTx, here, Outcome.unwrap, ok_bind, decoded, Except.toOption,
          SpanBatchTransactions.getOr]
        rfl
  | ok tx =>
      have readable : SpanBatchTransactions.getOr (SpanBatchTransactionData.decode codecs data).toOption = .ok tx := by
        rw [decoded]
        rfl
      have bitOk : SpanBatchTransactions.getOr (raw.payload.txs.contractCreationBits.getBit idx) =
          .ok (if raw.payload.txs.contractCreationBits.isSet idx then 1 else 0) := by
        rw [bit]
        rfl
      simp only [SpanBatchTransactions.fullTx, here, Outcome.unwrap, ok_bind, readable, nonceOk, gasOk, bitOk, toOk, sigOk]
      generalize (!decide (tx.txType = .legacy) || _ : Bool) = isProtected
      rcases toSignedTx_cases codecs tx nonce gas to_ chainId sig isProtected with
        ⟨called, envelope, signed⟩ | ⟨⟨delegates, creation⟩, e, failed⟩
      · refine .inl ⟨⟨tx, decoded, fun delegates => ?_⟩, _, _, by rw [signed]; rfl⟩
        have clear := mt toNone.mpr (called delegates)
        simpa using clear
      · refine .inr ⟨?_, e, by rw [failed]; rfl⟩
        rintro ⟨tx', same, clear⟩
        rw [decoded] at same
        cases same
        rw [toNone.mp creation] at clear
        cases clear delegates

theorem fullTxsFrom_cases (codecs : Codecs) {raw : RawSpanBatch} (shaped : raw.Shaped) (chainId : UInt64) {remaining idx : Nat}
    (counted : idx + remaining = raw.payload.txs.totalBlockTxCount.toNat) (protectedBitIdx : Nat) :
    (∃ txs, raw.payload.txs.fullTxsFrom codecs chainId remaining idx
        (recipientsBefore raw.payload.txs.contractCreationBits idx) protectedBitIdx = .ok txs ∧ txs.length = remaining ∧
      ∀ i data, idx ≤ i → raw.payload.txs.txDatas[i]? = some data →
        Converts codecs raw.payload.txs.contractCreationBits i data) ∨
    (∃ e, raw.payload.txs.fullTxsFrom codecs chainId remaining idx
        (recipientsBefore raw.payload.txs.contractCreationBits idx) protectedBitIdx = .error (.error e) ∧
      ∃ i data, raw.payload.txs.txDatas[i]? = some data ∧
        ¬ Converts codecs raw.payload.txs.contractCreationBits i data) := by
  induction remaining generalizing idx protectedBitIdx with
  | zero =>
      refine .inl ⟨[], rfl, rfl, fun i data beyond found => ?_⟩
      obtain ⟨inside, -⟩ := List.getElem?_eq_some_iff.mp found
      rw [shaped.datas] at inside
      omega
  | succ remaining ih =>
      have here := List.getElem?_eq_getElem (l := raw.payload.txs.txDatas) (i := idx) (by rw [shaped.datas]; omega)
      rcases fullTx_cases codecs shaped here chainId protectedBitIdx with
        ⟨converts, tx, next, ok⟩ | ⟨fails, e, failed⟩
      · have rest : idx + 1 + remaining = raw.payload.txs.totalBlockTxCount.toNat := by omega
        rcases ih rest next with ⟨txs, later, length, all⟩ | ⟨e, later, bad⟩
        · refine .inl ⟨tx :: txs, ?_, by simp [length], fun i data from_ found => ?_⟩
          · simp only [SpanBatchTransactions.fullTxsFrom, ok, ok_bind, later]
            rfl
          · rcases Nat.eq_or_lt_of_le from_ with same | after
            · subst same
              rw [here] at found
              cases found
              exact converts
            · exact all i data after found
        · refine .inr ⟨e, ?_, bad⟩
          simp only [SpanBatchTransactions.fullTxsFrom, ok, ok_bind, later]
          rfl
      · refine .inr ⟨e, ?_, idx, _, here, fails⟩
        simp only [SpanBatchTransactions.fullTxsFrom, failed]
        rfl

def Convertible (codecs : Codecs) (contractCreationBits : SpanBatchBits) (txDatas : List (List UInt8)) : Prop :=
  ∀ idx data, txDatas[idx]? = some data → Converts codecs contractCreationBits idx data

theorem fullTxs_cases (codecs : Codecs) {raw : RawSpanBatch} (shaped : raw.Shaped) (chainId : UInt64) :
    (∃ txs, raw.payload.txs.fullTxs codecs chainId = .ok txs ∧ txs.length = raw.payload.txs.totalBlockTxCount.toNat ∧
      Convertible codecs raw.payload.txs.contractCreationBits raw.payload.txs.txDatas) ∨
    (∃ e, raw.payload.txs.fullTxs codecs chainId = .error (.error e) ∧
      ¬ Convertible codecs raw.payload.txs.contractCreationBits raw.payload.txs.txDatas) := by
  rcases fullTxsFrom_cases codecs shaped chainId (Nat.zero_add _) 0 with ⟨txs, ok, length, all⟩ | ⟨e, failed, i, data, found, bad⟩
  · exact .inl ⟨txs, ok, length, fun i data found => all i data (Nat.zero_le i) found⟩
  · exact .inr ⟨e, failed, fun all => bad (all i data found)⟩

/-! ## Elements -/

theorem takeTxs_ok (envelopedTxs : List (List UInt8)) {txIdx count : Nat} (enough : txIdx + count ≤ envelopedTxs.length) :
    ∃ txs, ((List.range count).mapM fun k => Outcome.unwrap envelopedTxs[txIdx + k]? :
      Outcome SpanBatchError (List (List UInt8))) = .ok txs := by
  induction count with
  | zero => exact ⟨[], rfl⟩
  | succ count ih =>
      obtain ⟨txs, ok⟩ := ih (by omega)
      have last := List.getElem?_eq_getElem (l := envelopedTxs) (i := txIdx + count) (by omega)
      refine ⟨txs ++ [envelopedTxs[txIdx + count]], ?_⟩
      rw [List.range_succ, List.mapM_append, ok, ok_bind, List.mapM_cons, last]
      rfl

def TimesFit (raw : RawSpanBatch) (blockTime genesisTime : UInt64) : Prop :=
  genesisTime.toNat + raw.head.relTimestamp.toNat + blockTime.toNat * (raw.payload.blockCount.toNat - 1) < 2 ^ 64

theorem timesFit_zero (raw : RawSpanBatch) : raw.TimesFit 0 0 := by
  have := raw.head.relTimestamp.toNat_lt
  simpa [TimesFit] using this

theorem TimesFit.time {raw : RawSpanBatch} {blockTime genesisTime : UInt64} (fits : raw.TimesFit blockTime genesisTime)
    {i : Nat} (within : i < raw.payload.blockCount.toNat) :
    genesisTime.toNat + raw.head.relTimestamp.toNat + blockTime.toNat * (UInt64.ofNat i).toNat < 2 ^ 64 := by
  have small : (UInt64.ofNat i).toNat = i :=
    UInt64.toNat_ofNat_of_lt' (Nat.lt_trans within raw.payload.blockCount.toNat_lt)
  have earlier : blockTime.toNat * i ≤ blockTime.toNat * (raw.payload.blockCount.toNat - 1) :=
    Nat.mul_le_mul_left _ (by omega)
  rw [small]
  unfold TimesFit at fits
  omega

theorem elementsFrom_ok (overflowChecks : Bool) {raw : RawSpanBatch} (shaped : raw.Shaped) {origins : List UInt64}
    {envelopedTxs : List (List UInt8)} (perBlock : origins.length = raw.payload.blockCount.toNat)
    (perTx : envelopedTxs.length = raw.payload.txs.totalBlockTxCount.toNat) {blockTime genesisTime : UInt64}
    (fits : raw.TimesFit blockTime genesisTime) {remaining i txIdx : Nat}
    (blocks : i + remaining = raw.payload.blockCount.toNat)
    (txs : txIdx + ((raw.payload.blockTxCounts.drop i).map UInt64.toNat).sum = raw.payload.txs.totalBlockTxCount.toNat) :
    ∃ batches, raw.elementsFrom overflowChecks blockTime genesisTime origins envelopedTxs remaining i txIdx = .ok batches := by
  induction remaining generalizing i txIdx with
  | zero => exact ⟨[], rfl⟩
  | succ remaining ih =>
      have block : i < raw.payload.blockTxCounts.length := by
        rw [shaped.perBlock]
        omega
      have count := List.getElem?_eq_getElem block
      have epoch := List.getElem?_eq_getElem (l := origins) (i := i) (by omega)
      rw [List.drop_eq_getElem_cons block, List.map_cons, List.sum_cons] at txs
      obtain ⟨transactions, taken⟩ := takeTxs_ok envelopedTxs
        (by omega : txIdx + raw.payload.blockTxCounts[i].toNat ≤ envelopedTxs.length)
      obtain ⟨later, ok⟩ := ih (by omega : i + 1 + remaining = _)
        (by omega : txIdx + raw.payload.blockTxCounts[i].toNat + _ = _)
      have time := fits.time (by omega : i < raw.payload.blockCount.toNat)
      have start : genesisTime.toNat + raw.head.relTimestamp.toNat < 2 ^ 64 := by omega
      have elapsed : blockTime.toNat * (UInt64.ofNat i).toNat < 2 ^ 64 := by omega
      have sum : (genesisTime + raw.head.relTimestamp).toNat + (blockTime * UInt64.ofNat i).toNat < 2 ^ 64 := by
        rwa [UInt64.toNat_add, Nat.mod_eq_of_lt start, UInt64.toNat_mul, Nat.mod_eq_of_lt elapsed]
      refine ⟨⟨origins[i], genesisTime + raw.head.relTimestamp + blockTime * UInt64.ofNat i, transactions⟩ :: later, ?_⟩
      simp only [elementsFrom, count, Outcome.unwrap_some, ok_bind, taken, epoch, addU64_of_fits overflowChecks start,
        mulU64_of_fits overflowChecks elapsed, addU64_of_fits overflowChecks sum, ok]
      rfl

/-! ## Derived batches -/

theorem derive_cases (codecs : Codecs) (overflowChecks : Bool) {raw : RawSpanBatch} (shaped : raw.Shaped)
    (enough : originChanges raw.payload.originBits raw.payload.blockCount.toNat ≤ raw.head.l1OriginNum.toNat)
    {blockTime genesisTime : UInt64} (fits : raw.TimesFit blockTime genesisTime) (chainId : UInt64) :
    (∃ batch, raw.derive codecs overflowChecks blockTime genesisTime chainId = .ok batch ∧
      Convertible codecs raw.payload.txs.contractCreationBits raw.payload.txs.txDatas) ∨
    (∃ e, raw.derive codecs overflowChecks blockTime genesisTime chainId = .error (.error e) ∧
      ¬ Convertible codecs raw.payload.txs.contractCreationBits raw.payload.txs.txDatas) := by
  obtain ⟨origins, originsOk, perBlock⟩ := blockOriginNums_ok overflowChecks shaped.origin enough
  rcases fullTxs_cases codecs shaped chainId with ⟨txs, txsOk, perTx, all⟩ | ⟨e, failed, bad⟩
  · obtain ⟨batches, ok⟩ := elementsFrom_ok overflowChecks shaped perBlock perTx fits (Nat.zero_add _)
      (by rw [List.drop_zero, Nat.zero_add, shaped.sum])
    refine .inl ⟨⟨raw.head.parentCheck, raw.head.l1OriginCheck, batches⟩, ?_, all⟩
    simp only [derive, if_neg shaped.blocks, originsOk, ok_bind, txsOk, ok]
    rfl
  · refine .inr ⟨e, ?_, bad⟩
    simp only [derive, if_neg shaped.blocks, originsOk, ok_bind, failed]
    rfl

theorem derive_panic {raw : RawSpanBatch} (shaped : raw.Shaped)
    (fewer : raw.head.l1OriginNum.toNat < originChanges raw.payload.originBits raw.payload.blockCount.toNat)
    (blockTime genesisTime chainId : UInt64) :
    raw.derive codecs true blockTime genesisTime chainId = .error .panic := by
  simp only [derive, if_neg shaped.blocks, blockOriginNums_panic shaped.origin fewer]
  rfl

/-! ## The condition -/

/-- Every slice of a span batch finds its bytes, and the last of its groups of fields, once it is read, meets a
condition together with the counts and the origin. -/
def Reaches (codecs : Codecs) (final : UInt64 → Counts → Columns → Prop) (r : List UInt8) : Prop :=
  ∀ opening r₁, decodeOpening codecs r = .ok (opening, r₁) → 40 ≤ r₁.length ∧
    ∀ counts r₂, decodeCounts codecs (r₁.drop 40) = .ok (counts, r₂) → counts.signedLength ≤ r₂.length ∧
      ∀ columns r₃, decodeColumns codecs counts.total (r₂.drop counts.signedLength) = .ok (columns, r₃) →
        final opening.2 counts columns

def OriginsReach (l1OriginNum : UInt64) (counts : Counts) : Prop :=
  originChanges counts.originBits counts.blockCount.toNat ≤ l1OriginNum.toNat

/-- Span batches that fail one of the checks of the decoder, or that decode if this is allowed, without a panic or
an overflow before. -/
def Tolerated (codecs : Codecs) (allowed : Prop) (r : List UInt8) : Prop :=
  Reaches codecs (fun l1OriginNum counts columns => OriginsReach l1OriginNum counts ∧
    (Convertible codecs counts.contractCreationBits (columns.datas.map (·.1)) → allowed)) r

def InBounds (codecs : Codecs) (r : List UInt8) : Prop := Tolerated codecs True r

def Refused (codecs : Codecs) (r : List UInt8) : Prop := Tolerated codecs False r

theorem derive_ends {overflowChecks : Bool} {raw : RawSpanBatch} (shaped : raw.Shaped)
    (enough : originChanges raw.payload.originBits raw.payload.blockCount.toNat ≤ raw.head.l1OriginNum.toNat)
    {allowed : Prop} {chainId : UInt64} : Outcome.Ends allowed (raw.derive codecs overflowChecks 0 0 chainId) ↔
      (Convertible codecs raw.payload.txs.contractCreationBits raw.payload.txs.txDatas → allowed) := by
  rcases derive_cases codecs overflowChecks shaped enough raw.timesFit_zero chainId with
    ⟨batch, ok, all⟩ | ⟨e, failed, bad⟩
  · rw [ok]
    exact ⟨fun holds _ => holds, fun holds => holds all⟩
  · rw [failed]
    exact ⟨fun _ all => absurd all bad, fun _ => trivial⟩

/-- What `Batch::decode` makes of a span batch. -/
def deriveRead (codecs : Codecs) (overflowChecks : Bool) (raw : RawSpanBatch) : Reads SpanBatchError SpanBatch :=
  StateT.lift (raw.derive codecs overflowChecks 0 0 0)

theorem deriveRead_ends {overflowChecks : Bool} {raw : RawSpanBatch} {allowed : Prop} {rest : List UInt8} :
    Outcome.Ends allowed (deriveRead codecs overflowChecks raw rest) ↔
      Outcome.Ends allowed (raw.derive codecs overflowChecks 0 0 0) := by
  have lifted : deriveRead codecs overflowChecks raw rest = (raw.derive codecs overflowChecks 0 0 0).map (·, rest) := by
    cases derived : raw.derive codecs overflowChecks 0 0 0 with
    | ok batch => simp [deriveRead, StateT.lift, derived, Except.map]
    | error stop => simp [deriveRead, StateT.lift, derived, Except.map]
  rw [lifted, Outcome.ends_map]

theorem tolerated_of_ends (fits : codecs.rlp.HeaderFits) {allowed : Prop} {r : List UInt8}
    (ends : Outcome.Ends allowed ((decode codecs true >>= deriveRead codecs true) r)) : Tolerated codecs allowed r := by
  simp only [decode_eq_groups, decodeGroups, bind_assoc, pure_bind] at ends
  intro opening r₁ openingOk
  have afterOpening := checked_opening.bind_ends.mp ends opening r₁ openingOk
  obtain ⟨enough, afterChecks⟩ := takes_hashChecks.bind_ends.mp afterOpening
  obtain ⟨hashChecks, hashChecksOk⟩ := (takes_hashChecks r₁).1 enough
  refine ⟨enough, fun counts r₂ countsOk => ?_⟩
  have decoded := decodeCounts_decoded countsOk
  have afterCounts := checked_counts.bind_ends.mp (afterChecks hashChecks hashChecksOk) counts r₂ countsOk
  have takes : Reads.Takes counts.signedLength (decodeSigned true counts) := takes_signed decoded
  obtain ⟨present, afterSigned⟩ := takes.bind_ends.mp afterCounts
  obtain ⟨signed, signedOk⟩ := (takes r₂).1 present
  refine ⟨present, fun columns r₃ columnsOk => ?_⟩
  have last := (checked_columns fits _).bind_ends.mp (afterSigned signed signedOk) columns r₃ columnsOk
  have shaped : (assemble opening hashChecks counts signed columns).Shaped :=
    assemble_shaped decoded signedOk columnsOk
  rw [deriveRead_ends] at last
  by_cases reach : OriginsReach opening.2 counts
  · exact ⟨reach, (derive_ends shaped reach).mp last⟩
  · rw [derive_panic shaped (Nat.not_le.mp reach)] at last
    exact last.elim

theorem ends_of_tolerated (fits : codecs.rlp.HeaderFits) {allowed : Prop} {r : List UInt8}
    (tolerated : Tolerated codecs allowed r) (overflowChecks : Bool) :
    Outcome.Ends allowed ((decode codecs overflowChecks >>= deriveRead codecs overflowChecks) r) := by
  simp only [decode_eq_groups, decodeGroups, bind_assoc, pure_bind]
  refine checked_opening.bind_ends.mpr fun opening r₁ openingOk => ?_
  obtain ⟨enough, afterChecks⟩ := tolerated opening r₁ openingOk
  refine takes_hashChecks.bind_ends.mpr ⟨enough, fun hashChecks _ => ?_⟩
  refine checked_counts.bind_ends.mpr fun counts r₂ countsOk => ?_
  have decoded := decodeCounts_decoded countsOk
  obtain ⟨present, afterSigned⟩ := afterChecks counts r₂ countsOk
  refine (takes_signed decoded).bind_ends.mpr ⟨present, fun signed signedOk => ?_⟩
  refine (checked_columns fits _).bind_ends.mpr fun columns r₃ columnsOk => ?_
  obtain ⟨reach, final⟩ := afterSigned columns r₃ columnsOk
  rw [deriveRead_ends]
  exact (derive_ends (assemble_shaped decoded signedOk columnsOk) reach).mpr final

end RawSpanBatch

end KonaSoon.Derive
