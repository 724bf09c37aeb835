import KonaSoon.Derive.ChannelReader
import KonaSoon.Derive.SpanBuilder

/-!
# Columns in step with the transactions

A span batch keeps its transactions in columns: one list for each part of a transaction, two bit lists and two
counters. As long as no call fails after it has written something, the columns are those of the transactions added
so far, and `full_txs` puts these together again. `append_singular_batch` writes before it reads a transaction, so
no failure of it leaves the batch as it was.
-/

namespace KonaSoon.Derive
open Lib Mpt

variable {codecs : Codecs} {encoders : Encoders} {chainId : UInt64}

/-! ## Transactions and their data -/

def RestoresData (codecs : Codecs) (encoders : Encoders) : SpanBatchTransactionData → Prop
  | .legacy data => codecs.legacy (encoders.legacy data) = .ok data ∧
      ((encoders.legacy data).head?.any fun first => decide (0x7F < first)) = true
  | .eip2930 data => codecs.eip2930 (encoders.eip2930 data) = .ok data ∧ encoders.eip2930 data ≠ []
  | .eip1559 data => codecs.eip1559 (encoders.eip1559 data) = .ok data ∧ encoders.eip1559 data ≠ []
  | .eip7702 data => codecs.eip7702 (encoders.eip7702 data) = .ok data ∧ encoders.eip7702 data ≠ []

/-- What the builder relies on for one transaction: its data are read back, and its encoding has no part in the hash
that is kept beside it. -/
structure Restores (codecs : Codecs) (encoders : Encoders) (envelope : TxEnvelope) : Prop where
  data : RestoresData codecs encoders (.ofTransaction envelope.tx)
  hash : ∀ signatureHash, codecs.encode2718 ⟨envelope.tx, envelope.signature, signatureHash⟩ = codecs.encode2718 envelope

namespace SpanBatchTransactionData

theorem decode_encode {data : SpanBatchTransactionData} (restores : RestoresData codecs encoders data) :
    decode codecs (data.encode encoders) = .ok data := by
  cases data with
  | legacy data =>
      rw [encode, decode, if_pos restores.2, restores.1]
      rfl
  | eip2930 data =>
      obtain ⟨first, rest, bytes⟩ := List.exists_cons_of_ne_nil restores.2
      have read : decode codecs (1 :: first :: rest) = (codecs.eip2930 (first :: rest)).map eip2930 := rfl
      rw [encode, bytes, read, ← bytes, restores.1]
      rfl
  | eip1559 data =>
      obtain ⟨first, rest, bytes⟩ := List.exists_cons_of_ne_nil restores.2
      have read : decode codecs (2 :: first :: rest) = (codecs.eip1559 (first :: rest)).map eip1559 := rfl
      rw [encode, bytes, read, ← bytes, restores.1]
      rfl
  | eip7702 data =>
      obtain ⟨first, rest, bytes⟩ := List.exists_cons_of_ne_nil restores.2
      have read : decode codecs (4 :: first :: rest) = (codecs.eip7702 (first :: rest)).map eip7702 := rfl
      rw [encode, bytes, read, ← bytes, restores.1]
      rfl

@[simp] theorem txType_ofTransaction (tx : Transaction) : (ofTransaction tx).txType = tx.txType := by
  cases tx <;> rfl

theorem ofOption_toOption (to_ : TxKind) : TxKind.ofOption to_.toOption = to_ := by
  cases to_ <;> rfl

theorem setWidth_setWidth (fee : BitVec 128) : (fee.setWidth 256).setWidth 128 = fee := by
  simp

theorem toSignedTx_ofTransaction {tx : Transaction} {signature : Signature} {isProtected : Bool}
    (ours : tx.ofOtherChain chainId = false) (noted : tx.txType = .legacy → isProtected = tx.isReplayProtected) :
    (ofTransaction tx).toSignedTx codecs tx.nonce tx.gasLimit tx.to_ chainId signature isProtected =
      .ok ⟨tx, signature, codecs.signatureHash tx⟩ := by
  cases tx with
  | legacy tx =>
      have chain : (if isProtected then some chainId else none) = tx.chainId := by
        rw [noted rfl]
        cases named : tx.chainId with
        | none => simp [Transaction.isReplayProtected, named]
        | some id =>
            simp only [Transaction.ofOtherChain, Transaction.isReplayProtected, Transaction.chainId, named] at ours
            simp_all [Transaction.isReplayProtected]
      simp only [ofTransaction, toSignedTx, Transaction.nonce, Transaction.gasLimit, Transaction.to_, ok_bind,
        setWidth_setWidth, ofOption_toOption, chain]
  | eip2930 tx =>
      have chain : tx.chainId = chainId := by
        simpa [Transaction.ofOtherChain, Transaction.isReplayProtected, Transaction.chainId] using ours
      simp only [ofTransaction, toSignedTx, Transaction.nonce, Transaction.gasLimit, Transaction.to_, ok_bind,
        setWidth_setWidth, ofOption_toOption, ← chain]
  | eip1559 tx =>
      have chain : tx.chainId = chainId := by
        simpa [Transaction.ofOtherChain, Transaction.isReplayProtected, Transaction.chainId] using ours
      simp only [ofTransaction, toSignedTx, Transaction.nonce, Transaction.gasLimit, Transaction.to_, ok_bind,
        setWidth_setWidth, ofOption_toOption, ← chain]
  | eip7702 tx =>
      have chain : tx.chainId = chainId := by
        simpa [Transaction.ofOtherChain, Transaction.isReplayProtected, Transaction.chainId] using ours
      simp only [ofTransaction, toSignedTx, Transaction.nonce, Transaction.gasLimit, Transaction.to_, ok_bind,
        setWidth_setWidth, ← chain]

end SpanBatchTransactionData

namespace SpanBatchTransactions

/-! ## Columns of a list of transactions -/

def isLegacy (envelope : TxEnvelope) : Bool := envelope.tx.txType = .legacy

structure Columns (encoders : Encoders) (txs : SpanBatchTransactions) (envelopes : List TxEnvelope) : Prop where
  creations : txs.contractCreationBits.Lists (envelopes.map fun envelope => envelope.tx.to_.isNone)
  sigs : txs.txSigs = envelopes.map (·.signature)
  nonces : txs.txNonces = envelopes.map (·.tx.nonce)
  gases : txs.txGases = envelopes.map (·.tx.gasLimit)
  tos : txs.txTos = envelopes.filterMap (·.tx.to_)
  datas : txs.txDatas = envelopes.map fun envelope => (SpanBatchTransactionData.ofTransaction envelope.tx).encode encoders
  protections : txs.protectedBits.Lists ((envelopes.filter isLegacy).map (·.tx.isReplayProtected))
  types : txs.txTypes = envelopes.map (·.tx.txType)
  legacy : txs.legacyTxCount.toNat = (envelopes.filter isLegacy).length

theorem Columns.empty : Columns encoders empty [] where
  creations := .nil
  sigs := rfl
  nonces := rfl
  gases := rfl
  tos := rfl
  datas := rfl
  protections := .nil
  types := rfl
  legacy := rfl

theorem Columns.noteLegacy {txs : SpanBatchTransactions} {envelopes : List TxEnvelope}
    (columns : Columns encoders txs envelopes) (envelope : TxEnvelope) (room : envelopes.length + 1 < 2 ^ 64) :
    (txs.noteLegacy envelope.tx).protectedBits.Lists
        (((envelopes ++ [envelope]).filter isLegacy).map (·.tx.isReplayProtected)) ∧
      (txs.noteLegacy envelope.tx).legacyTxCount.toNat = ((envelopes ++ [envelope]).filter isLegacy).length := by
  by_cases kind : envelope.tx.txType = .legacy
  · have selected : [envelope].filter isLegacy = [envelope] := by simp [isLegacy, kind]
    have few := List.length_filter_le isLegacy envelopes
    simp only [SpanBatchTransactions.noteLegacy, if_pos kind, List.filter_append, selected, List.map_append,
      List.map_singleton, List.length_append, List.length_singleton]
    constructor
    · have set := columns.protections.setBit envelope.tx.isReplayProtected
      rwa [List.length_map, ← columns.legacy] at set
    · rw [UInt64.toNat_add, columns.legacy]
      exact Nat.mod_eq_of_lt (Nat.lt_of_le_of_lt (Nat.succ_le_succ few) room)
  · have dropped : [envelope].filter isLegacy = [] := by simp [isLegacy, kind]
    simp only [SpanBatchTransactions.noteLegacy, if_neg kind, List.filter_append, dropped, List.append_nil]
    exact ⟨columns.protections, columns.legacy⟩

theorem noteLegacy_fields (txs : SpanBatchTransactions) (tx : Transaction) :
    (txs.noteLegacy tx).contractCreationBits = txs.contractCreationBits ∧ (txs.noteLegacy tx).txSigs = txs.txSigs ∧
      (txs.noteLegacy tx).txNonces = txs.txNonces ∧ (txs.noteLegacy tx).txGases = txs.txGases ∧
      (txs.noteLegacy tx).txTos = txs.txTos ∧ (txs.noteLegacy tx).txDatas = txs.txDatas ∧
      (txs.noteLegacy tx).txTypes = txs.txTypes ∧
      (txs.noteLegacy tx).totalBlockTxCount = txs.totalBlockTxCount := by
  unfold noteLegacy
  split <;> simp

theorem Columns.push {txs : SpanBatchTransactions} {envelopes : List TxEnvelope}
    (columns : Columns encoders txs envelopes) (envelope : TxEnvelope) (room : envelopes.length + 1 < 2 ^ 64)
    {position : UInt64} (behind : position.toNat = envelopes.length) :
    Columns encoders ((txs.noteLegacy envelope.tx).push position envelope
      ((SpanBatchTransactionData.ofTransaction envelope.tx).encode encoders)) (envelopes ++ [envelope]) := by
  obtain ⟨creations, sigs, nonces, gases, tos, datas, types, -⟩ := noteLegacy_fields txs envelope.tx
  obtain ⟨protections, legacy⟩ := columns.noteLegacy envelope room
  constructor
  case creations =>
    have set := columns.creations.setBit envelope.tx.to_.isNone
    rw [List.length_map, ← behind] at set
    rw [SpanBatchTransactions.push, creations, List.map_append]
    exact set
  case protections => exact protections
  case legacy => exact legacy
  case tos =>
    rw [SpanBatchTransactions.push, tos, columns.tos, List.filterMap_append]
    cases to_ : envelope.tx.to_ <;> simp [to_]
  all_goals
    simp [SpanBatchTransactions.push, sigs, nonces, gases, datas, types, columns.sigs, columns.nonces, columns.gases,
      columns.datas, columns.types]

/-! ## Transactions from columns -/

theorem Columns.recipient {txs : SpanBatchTransactions} {before later : List TxEnvelope} {envelope : TxEnvelope}
    (columns : Columns encoders txs (before ++ envelope :: later)) :
    txs.recipient (if envelope.tx.to_.isNone then 1 else 0) (before.filterMap (·.tx.to_)).length =
      .ok (envelope.tx.to_, ((before ++ [envelope]).filterMap (·.tx.to_)).length) := by
  cases to_ : envelope.tx.to_ with
  | none => simp [SpanBatchTransactions.recipient, to_]
  | some address =>
      have found : txs.txTos[(before.filterMap (·.tx.to_)).length]? = some address := by
        simp [columns.tos, List.filterMap_append, to_]
      simp [SpanBatchTransactions.recipient, to_, found, getOr, Except.map]

theorem Columns.isProtected {txs : SpanBatchTransactions} {before later : List TxEnvelope} {envelope : TxEnvelope}
    (columns : Columns encoders txs (before ++ envelope :: later)) (kind : envelope.tx.txType = .legacy) :
    decide ((txs.protectedBits.getBit (before.filter isLegacy).length).getD 0 = 1) = envelope.tx.isReplayProtected := by
  have noted : (((before ++ envelope :: later).filter isLegacy).map (·.tx.isReplayProtected))[(before.filter
      isLegacy).length]? = some envelope.tx.isReplayProtected := by
    simp [List.filter_append, isLegacy, kind]
  rw [columns.protections.getBit noted]
  cases envelope.tx.isReplayProtected <;> rfl

theorem Columns.fullTx {txs : SpanBatchTransactions} {before later : List TxEnvelope} {envelope : TxEnvelope}
    (columns : Columns encoders txs (before ++ envelope :: later)) (restores : Restores codecs encoders envelope)
    (ours : envelope.tx.ofOtherChain chainId = false) :
    txs.fullTx codecs chainId before.length (before.filterMap (·.tx.to_)).length (before.filter isLegacy).length =
      .ok (codecs.encode2718 envelope, ((before ++ [envelope]).filterMap (·.tx.to_)).length,
        ((before ++ [envelope]).filter isLegacy).length) := by
  have datas : txs.txDatas[before.length]? =
      some ((SpanBatchTransactionData.ofTransaction envelope.tx).encode encoders) := by simp [columns.datas]
  have nonces : txs.txNonces[before.length]? = some envelope.tx.nonce := by simp [columns.nonces]
  have gases : txs.txGases[before.length]? = some envelope.tx.gasLimit := by simp [columns.gases]
  have sigs : txs.txSigs[before.length]? = some envelope.signature := by simp [columns.sigs]
  have created : ((before ++ envelope :: later).map fun envelope => envelope.tx.to_.isNone)[before.length]? =
      some envelope.tx.to_.isNone := by simp
  have signed : (SpanBatchTransactionData.ofTransaction envelope.tx).toSignedTx codecs envelope.tx.nonce
      envelope.tx.gasLimit envelope.tx.to_ chainId envelope.signature (!decide (envelope.tx.txType = .legacy) ||
        decide ((txs.protectedBits.getBit (before.filter isLegacy).length).getD 0 = 1)) =
      .ok ⟨envelope.tx, envelope.signature, codecs.signatureHash envelope.tx⟩ := by
    apply SpanBatchTransactionData.toSignedTx_ofTransaction ours
    intro kind
    rw [columns.isProtected kind, kind]
    rfl
  have counted : (if decide (envelope.tx.txType = .legacy) = true then (before.filter isLegacy).length + 1
      else (before.filter isLegacy).length) = ((before ++ [envelope]).filter isLegacy).length := by
    by_cases kind : envelope.tx.txType = .legacy <;> simp [List.filter_append, isLegacy, kind]
  simp only [SpanBatchTransactions.fullTx, datas, Outcome.unwrap_some, ok_bind,
    SpanBatchTransactionData.decode_encode restores.data, Except.toOption, getOr, nonces, gases, sigs,
    columns.creations.getBit created, columns.recipient, SpanBatchTransactionData.txType_ofTransaction, signed,
    Except.mapError, restores.hash, counted]
  rfl

theorem Columns.fullTxsFrom {txs : SpanBatchTransactions} {later : List TxEnvelope}
    (restores : ∀ envelope ∈ later, Restores codecs encoders envelope)
    (ours : ∀ envelope ∈ later, envelope.tx.ofOtherChain chainId = false) {before : List TxEnvelope}
    (columns : Columns encoders txs (before ++ later)) :
    txs.fullTxsFrom codecs chainId later.length before.length (before.filterMap (·.tx.to_)).length
      (before.filter isLegacy).length = .ok (later.map codecs.encode2718) := by
  induction later generalizing before with
  | nil => rfl
  | cons envelope later ih =>
      have here := columns.fullTx (restores envelope List.mem_cons_self) (ours envelope List.mem_cons_self)
      have rest := ih (fun envelope mem => restores envelope (List.mem_cons_of_mem _ mem))
        (fun envelope mem => ours envelope (List.mem_cons_of_mem _ mem))
        (show Columns encoders txs ((before ++ [envelope]) ++ later) by rwa [List.append_assoc, List.singleton_append])
      rw [List.length_append, List.length_singleton] at rest
      rw [List.length_cons, SpanBatchTransactions.fullTxsFrom, here, ok_bind]
      simp only [rest, ok_bind]
      rfl

theorem Columns.fullTxs {txs : SpanBatchTransactions} {envelopes : List TxEnvelope}
    (columns : Columns encoders txs envelopes) (total : txs.totalBlockTxCount.toNat = envelopes.length)
    (restores : ∀ envelope ∈ envelopes, Restores codecs encoders envelope)
    (ours : ∀ envelope ∈ envelopes, envelope.tx.ofOtherChain chainId = false) :
    txs.fullTxs codecs chainId = .ok (envelopes.map codecs.encode2718) := by
  rw [SpanBatchTransactions.fullTxs, total]
  exact Columns.fullTxsFrom restores ours (show Columns encoders txs ([] ++ envelopes) from columns)

/-! ## Added transactions -/

/-- The transaction that `add_txs` adds for these bytes. -/
def taken (encoders : Encoders) (chainId : UInt64) (tx : List UInt8) : Option TxEnvelope :=
  match encoders.decodeTx tx with
  | .error _ => none
  | .ok .eip4844 => none
  | .ok (.plain envelope) => if envelope.tx.ofOtherChain chainId then none else some envelope

def leavesNoTrace (encoders : Encoders) (tx : List UInt8) : Bool :=
  match encoders.decodeTx tx with
  | .error _ => true
  | .ok .eip4844 => true
  | .ok (.plain envelope) => envelope.tx.txType ≠ .legacy

theorem ofOtherChain_of_taken {tx : List UInt8} {envelope : TxEnvelope}
    (takes : taken encoders chainId tx = some envelope) : envelope.tx.ofOtherChain chainId = false := by
  unfold taken at takes
  split at takes
  · cases takes
  · cases takes
  · split at takes
    · cases takes
    · rename_i ours
      cases takes
      simpa using ours

theorem addTx_of_taken {tx : List UInt8} {envelope : TxEnvelope} (takes : taken encoders chainId tx = some envelope)
    (txs : SpanBatchTransactions) (position : UInt64) :
    txs.addTx encoders chainId position tx = ((txs.noteLegacy envelope.tx).push position envelope
      ((SpanBatchTransactionData.ofTransaction envelope.tx).encode encoders), .ok ()) := by
  unfold taken at takes
  unfold addTx
  split at takes
  · cases takes
  · cases takes
  · rename_i decoded
    rw [decoded]
    split at takes
    · cases takes
    · rename_i ours
      cases takes
      simp [SpanBatchTransactionData.tryFrom, ours]

theorem addTx_of_refused {tx : List UInt8} (refused : taken encoders chainId tx = none) (txs : SpanBatchTransactions)
    (position : UInt64) :
    ∃ after e, txs.addTx encoders chainId position tx = (after, .error e) ∧
      (leavesNoTrace encoders tx = true → after = txs) ∧
      (leavesNoTrace encoders tx = false → after.legacyTxCount = txs.legacyTxCount + 1) ∧
      after.txSigs = txs.txSigs ∧ after.txTypes = txs.txTypes ∧ after.totalBlockTxCount = txs.totalBlockTxCount := by
  unfold taken at refused
  unfold addTx leavesNoTrace
  split at refused
  · rename_i decoded
    exact ⟨txs, _, by rw [decoded], fun _ => rfl, by simp, rfl, rfl, rfl⟩
  · rename_i decoded
    exact ⟨txs, _, by rw [decoded]; rfl, fun _ => rfl, by simp, rfl, rfl, rfl⟩
  · rename_i envelope decoded
    split at refused
    · rename_i other
      obtain ⟨-, sigs, -, -, -, -, types, total⟩ := noteLegacy_fields txs envelope.tx
      refine ⟨txs.noteLegacy envelope.tx, .decoding .invalidTransactionData, ?_, ?_, ?_, sigs, types, total⟩
      · simp [decoded, SpanBatchTransactionData.tryFrom, other]
      · intro untouched
        simp only [ne_eq, decide_not, Bool.not_eq_true', decide_eq_false_iff_not] at untouched
        rw [noteLegacy, if_neg untouched]
      · intro touched
        simp only [ne_eq, decide_not, Bool.not_eq_false', decide_eq_true_eq] at touched
        rw [noteLegacy, if_pos touched]
    · cases refused

theorem addTxsFrom_cons_taken {tx : List UInt8} {envelope : TxEnvelope}
    (takes : taken encoders chainId tx = some envelope) (offset i : UInt64) (later : List (List UInt8))
    (txs : SpanBatchTransactions) :
    addTxsFrom encoders chainId offset i (tx :: later) txs =
      addTxsFrom encoders chainId offset (i + 1) later ((txs.noteLegacy envelope.tx).push (i + offset) envelope
        ((SpanBatchTransactionData.ofTransaction envelope.tx).encode encoders)) := by
  rw [addTxsFrom, addTx_of_taken takes]

theorem addTxsFrom_cons_refused {tx : List UInt8} (refused : taken encoders chainId tx = none) (offset i : UInt64)
    (later : List (List UInt8)) (txs : SpanBatchTransactions) :
    addTxsFrom encoders chainId offset i (tx :: later) txs = txs.addTx encoders chainId (i + offset) tx := by
  obtain ⟨after, e, added, -⟩ := addTx_of_refused refused txs (i + offset)
  rw [addTxsFrom, added]

theorem push_sigs (txs : SpanBatchTransactions) (position : UInt64) (envelope : TxEnvelope) (data : List UInt8) :
    ((txs.noteLegacy envelope.tx).push position envelope data).txSigs = txs.txSigs ++ [envelope.signature] ∧
      ((txs.noteLegacy envelope.tx).push position envelope data).totalBlockTxCount = txs.totalBlockTxCount := by
  obtain ⟨-, sigs, -, -, -, -, -, total⟩ := noteLegacy_fields txs envelope.tx
  exact ⟨by rw [push, sigs], total⟩

theorem toNat_add_ofNat {count : UInt64} {n : Nat} (room : count.toNat + n < 2 ^ 64) :
    (count + UInt64.ofNat n).toNat = count.toNat + n := by
  rw [UInt64.toNat_add, UInt64.toNat_ofNat_of_lt' (Nat.lt_of_le_of_lt (Nat.le_add_left n count.toNat) room)]
  exact Nat.mod_eq_of_lt room

theorem addTxsFrom_of_taken {block : List (List UInt8)}
    (takes : ∀ tx ∈ block, (taken encoders chainId tx).isSome = true) (offset i : UInt64) (txs : SpanBatchTransactions) :
    ∃ after, addTxsFrom encoders chainId offset i block txs = (after, .ok ()) ∧
      after.txSigs.length = txs.txSigs.length + block.length ∧ after.totalBlockTxCount = txs.totalBlockTxCount ∧
      ∀ before, Columns encoders txs before → before.length + block.length < 2 ^ 64 →
        (i + offset).toNat = before.length →
        Columns encoders after (before ++ block.filterMap (taken encoders chainId)) := by
  induction block generalizing i txs with
  | nil =>
      refine ⟨txs, rfl, rfl, rfl, ?_⟩
      intro before columns _ _
      rwa [List.filterMap_nil, List.append_nil]
  | cons tx later ih =>
      obtain ⟨envelope, takesFirst⟩ := Option.isSome_iff_exists.mp (takes tx List.mem_cons_self)
      obtain ⟨sigs, total⟩ := push_sigs txs (i + offset) envelope
        ((SpanBatchTransactionData.ofTransaction envelope.tx).encode encoders)
      obtain ⟨after, adds, length, same, columnsAfter⟩ := ih (fun tx mem => takes tx (List.mem_cons_of_mem _ mem)) (i + 1)
        ((txs.noteLegacy envelope.tx).push (i + offset) envelope
          ((SpanBatchTransactionData.ofTransaction envelope.tx).encode encoders))
      refine ⟨after, by rw [addTxsFrom_cons_taken takesFirst, adds], ?_, same.trans total, ?_⟩
      · rw [length, sigs, List.length_append, List.length_singleton, List.length_cons]
        omega
      · intro before columns room behind
        rw [List.length_cons] at room
        have next : (i + 1 + offset).toNat = (before ++ [envelope]).length := by
          rw [UInt64.add_assoc, UInt64.add_comm 1, ← UInt64.add_assoc, List.length_append, List.length_singleton]
          rw [← behind]
          exact toNat_add_ofNat (show (i + offset).toNat + 1 < 2 ^ 64 by omega)
        have pushed := columnsAfter (before ++ [envelope]) (columns.push envelope (by omega) behind)
          (by rw [List.length_append, List.length_singleton]; omega) next
        rwa [List.append_assoc, List.singleton_append, ← List.filterMap_cons_some takesFirst] at pushed

theorem addTxsFrom_of_refused {block : List (List UInt8)}
    (refuses : ¬ ∀ tx ∈ block, (taken encoders chainId tx).isSome = true) (offset i : UInt64)
    (txs : SpanBatchTransactions) :
    ∃ after e, addTxsFrom encoders chainId offset i block txs = (after, .error e) ∧
      after.totalBlockTxCount = txs.totalBlockTxCount ∧
      ∃ earlier tx later, block = earlier ++ tx :: later ∧ taken encoders chainId tx = none ∧
        after.txSigs.length = txs.txSigs.length + earlier.length := by
  induction block generalizing i txs with
  | nil => exact absurd (fun tx mem => by cases mem) refuses
  | cons first rest ih =>
      cases takesFirst : taken encoders chainId first with
      | none =>
          obtain ⟨after, e, added, -, -, sigs, -, total⟩ := addTx_of_refused takesFirst txs (i + offset)
          refine ⟨after, e, by rw [addTxsFrom_cons_refused takesFirst, added], total, [], first, rest, rfl, takesFirst, ?_⟩
          rw [sigs]
          rfl
      | some envelope =>
          have refusesRest : ¬ ∀ tx ∈ rest, (taken encoders chainId tx).isSome = true := by
            intro takes
            apply refuses
            rw [List.forall_mem_cons, takesFirst]
            exact ⟨rfl, takes⟩
          obtain ⟨sigs, total⟩ := push_sigs txs (i + offset) envelope
            ((SpanBatchTransactionData.ofTransaction envelope.tx).encode encoders)
          obtain ⟨after, e, adds, same, earlier, tx, later, rfl, refused, length⟩ := ih refusesRest (i + 1)
            ((txs.noteLegacy envelope.tx).push (i + offset) envelope
              ((SpanBatchTransactionData.ofTransaction envelope.tx).encode encoders))
          refine ⟨after, e, by rw [addTxsFrom_cons_taken takesFirst, adds], same.trans total, first :: earlier, tx, later,
            rfl, refused, ?_⟩
          rw [length, sigs, List.length_append, List.length_singleton, List.length_cons]
          omega

/-! ## Runs -/

structure Built where
  txs : SpanBatchTransactions
  added : List (List UInt8)

def Built.empty : Built := ⟨.empty, []⟩

def addBlock (encoders : Encoders) (chainId : UInt64) (built : Built) (block : List (List UInt8)) :
    Built × Except SpanBatchError Unit :=
  let (txs, result) := built.txs.addTxs encoders chainId block
  (⟨txs, if result.isOk then built.added ++ block else built.added⟩, result)

theorem addBlock_ok {built : Built} {block : List (List UInt8)} {after : SpanBatchTransactions}
    (adds : built.txs.addTxs encoders chainId block = (after, .ok ())) :
    (addBlock encoders chainId built block).1 = ⟨after, built.added ++ block⟩ := by
  rw [addBlock, adds]
  rfl

theorem addBlock_error {built : Built} {block : List (List UInt8)} {after : SpanBatchTransactions} {e : SpanBatchError}
    (fails : built.txs.addTxs encoders chainId block = (after, .error e)) :
    (addBlock encoders chainId built block).1 = ⟨after, built.added⟩ := by
  rw [addBlock, fails]
  rfl

structure Intact (codecs : Codecs) (chainId : UInt64) (built : Built) : Prop where
  sigs : built.txs.txSigs.length = built.txs.totalBlockTxCount.toNat
  nonces : built.txs.txNonces.length = built.txs.totalBlockTxCount.toNat
  gases : built.txs.txGases.length = built.txs.totalBlockTxCount.toNat
  datas : built.txs.txDatas.length = built.txs.totalBlockTxCount.toNat
  types : built.txs.txTypes.length = built.txs.totalBlockTxCount.toNat
  creations : built.txs.contractCreationBits.bytes.length = SpanBatchBits.bufferLen built.txs.totalBlockTxCount.toNat
  tos : built.txs.txTos.length =
    (List.range built.txs.totalBlockTxCount.toNat).countP fun i => !built.txs.contractCreationBits.isSet i
  legacy : built.txs.legacyTxCount.toNat = built.txs.txTypes.count .legacy
  full : built.txs.fullTxs codecs chainId = .ok built.added

def InStep (codecs : Codecs) (encoders : Encoders) (chainId : UInt64) (known : TxEnvelope → Prop) (built : Built) : Prop :=
  ∃ envelopes, Columns encoders built.txs envelopes ∧ built.txs.totalBlockTxCount.toNat = envelopes.length ∧
    (∀ envelope ∈ envelopes, known envelope ∧ envelope.tx.ofOtherChain chainId = false) ∧
    built.added = envelopes.map codecs.encode2718

/-- Every transaction of the block is taken, is given by its own encoding, and there is room for the block. -/
def AddsAll (codecs : Codecs) (encoders : Encoders) (chainId : UInt64) (built : Built) (block : List (List UInt8)) :
    Prop :=
  (∀ tx ∈ block, (taken encoders chainId tx).map codecs.encode2718 = some tx) ∧
    built.txs.totalBlockTxCount.toNat + block.length < 2 ^ 64

/-- The first transaction of the block is refused, and it is not a legacy transaction of another chain. -/
def RefusedAtOnce (encoders : Encoders) (chainId : UInt64) (block : List (List UInt8)) : Prop :=
  ∃ tx later, block = tx :: later ∧ taken encoders chainId tx = none ∧ leavesNoTrace encoders tx = true

variable {known : TxEnvelope → Prop}

theorem InStep.empty : InStep codecs encoders chainId known .empty :=
  ⟨[], .empty, rfl, (by intro _ mem; cases mem), rfl⟩

theorem countP_isNone (envelopes : List TxEnvelope) :
    (envelopes.filterMap (·.tx.to_)).length = (envelopes.map fun envelope => envelope.tx.to_.isNone).countP (!·) := by
  induction envelopes with
  | nil => rfl
  | cons envelope envelopes ih =>
      cases to_ : envelope.tx.to_ <;> simp [to_, ih]

theorem InStep.intact {built : Built}
    (inStep : InStep codecs encoders chainId (Restores codecs encoders) built) : Intact codecs chainId built := by
  obtain ⟨envelopes, columns, total, all, added⟩ := inStep
  constructor
  case sigs => rw [columns.sigs, total, List.length_map]
  case nonces => rw [columns.nonces, total, List.length_map]
  case gases => rw [columns.gases, total, List.length_map]
  case datas => rw [columns.datas, total, List.length_map]
  case types => rw [columns.types, total, List.length_map]
  case creations => rw [columns.creations.length, total, List.length_map]
  case tos =>
    have clear := columns.creations.countP_clear
    rw [List.length_map] at clear
    rw [total, clear, columns.tos, countP_isNone]
  case legacy =>
    rw [columns.legacy, columns.types, List.count, List.countP_map, List.countP_eq_length_filter]
    rfl
  case full =>
    rw [added]
    exact columns.fullTxs total (fun envelope mem => (all envelope mem).1) (fun envelope mem => (all envelope mem).2)

theorem addTxs_of_taken {block : List (List UInt8)}
    (takes : ∀ tx ∈ block, (taken encoders chainId tx).isSome = true) (txs : SpanBatchTransactions) :
    ∃ after, txs.addTxs encoders chainId block = (after, .ok ()) ∧
      after.totalBlockTxCount = txs.totalBlockTxCount + UInt64.ofNat block.length ∧
      after.txSigs.length = txs.txSigs.length + block.length ∧
      ∀ before, Columns encoders txs before → txs.totalBlockTxCount.toNat = before.length →
        before.length + block.length < 2 ^ 64 →
        Columns encoders after (before ++ block.filterMap (taken encoders chainId)) := by
  obtain ⟨after, adds, length, same, columnsAfter⟩ := addTxsFrom_of_taken takes txs.totalBlockTxCount 0 txs
  refine ⟨{ after with totalBlockTxCount := after.totalBlockTxCount + UInt64.ofNat block.length }, by rw [addTxs, adds],
    by rw [same], length, ?_⟩
  intro before columns total room
  obtain ⟨creations, sigs, nonces, gases, tos, datas, protections, types, legacy⟩ := columnsAfter before columns room
    (by rw [UInt64.zero_add, total])
  exact ⟨creations, sigs, nonces, gases, tos, datas, protections, types, legacy⟩

theorem addTxs_of_refusedAtOnce {block : List (List UInt8)} (refused : RefusedAtOnce encoders chainId block)
    (txs : SpanBatchTransactions) : ∃ e, txs.addTxs encoders chainId block = (txs, .error e) := by
  obtain ⟨tx, later, rfl, refused, untouched⟩ := refused
  obtain ⟨after, e, added, same, -⟩ := addTx_of_refused refused txs (0 + txs.totalBlockTxCount)
  cases same untouched
  exact ⟨e, by rw [addTxs, addTxsFrom_cons_refused refused, added]⟩

theorem filterMap_taken {block : List (List UInt8)}
    (takes : ∀ tx ∈ block, (taken encoders chainId tx).isSome = true) :
    (block.filterMap (taken encoders chainId)).map codecs.encode2718 = block ↔
      ∀ tx ∈ block, (taken encoders chainId tx).map codecs.encode2718 = some tx := by
  induction block with
  | nil => simp
  | cons tx later ih =>
      obtain ⟨envelope, takesFirst⟩ := Option.isSome_iff_exists.mp (takes tx List.mem_cons_self)
      rw [List.filterMap_cons_some takesFirst, List.map_cons, List.cons.injEq,
        ih fun tx mem => takes tx (List.mem_cons_of_mem _ mem), List.forall_mem_cons, takesFirst, Option.map_some,
        Option.some.injEq]

theorem AddsAll.takes {built : Built} {block : List (List UInt8)} (adds : AddsAll codecs encoders chainId built block) :
    ∀ tx ∈ block, (taken encoders chainId tx).isSome = true := by
  intro tx mem
  rw [← Option.isSome_map, adds.1 tx mem]
  rfl

theorem InStep.addBlock_taken {built : Built} (inStep : InStep codecs encoders chainId known built)
    {block : List (List UInt8)} (knows : ∀ tx ∈ block, ∀ envelope, taken encoders chainId tx = some envelope → known envelope)
    (takes : ∀ tx ∈ block, (taken encoders chainId tx).isSome = true)
    (room : built.txs.totalBlockTxCount.toNat + block.length < 2 ^ 64) :
    ∃ after, built.txs.addTxs encoders chainId block = (after, .ok ()) ∧
      InStep codecs encoders chainId known
        ⟨after, built.added ++ (block.filterMap (taken encoders chainId)).map codecs.encode2718⟩ := by
  obtain ⟨envelopes, columns, total, all, added⟩ := inStep
  obtain ⟨after, adds, totalAfter, -, columnsAfter⟩ := addTxs_of_taken takes built.txs
  have every : (block.filterMap (taken encoders chainId)).length = block.length := by
    rw [List.length_filterMap_eq_countP, List.countP_eq_length]
    exact takes
  refine ⟨after, adds, envelopes ++ block.filterMap (taken encoders chainId), ?_, ?_, ?_, ?_⟩
  · exact columnsAfter envelopes columns total (total ▸ room)
  · rw [totalAfter, toNat_add_ofNat room, total, List.length_append, every]
  · intro envelope mem
    rcases List.mem_append.mp mem with before | new
    · exact all envelope before
    · obtain ⟨tx, inBlock, takesTx⟩ := List.mem_filterMap.mp new
      exact ⟨knows tx inBlock envelope takesTx, ofOtherChain_of_taken takesTx⟩
  · rw [added, List.map_append]

theorem InStep.addBlock {built : Built} (inStep : InStep codecs encoders chainId known built)
    {block : List (List UInt8)} (knows : ∀ tx ∈ block, ∀ envelope, taken encoders chainId tx = some envelope → known envelope)
    (keeps : AddsAll codecs encoders chainId built block ∨ RefusedAtOnce encoders chainId block) :
    InStep codecs encoders chainId known (SpanBatchTransactions.addBlock encoders chainId built block).1 := by
  rcases keeps with all | refused
  · obtain ⟨after, adds, next⟩ := inStep.addBlock_taken knows all.takes all.2
    rw [(filterMap_taken all.takes).mpr all.1] at next
    rwa [addBlock_ok adds]
  · obtain ⟨e, fails⟩ := addTxs_of_refusedAtOnce refused built.txs
    rwa [addBlock_error fails]

theorem InStep.keeps_of_intact {built : Built}
    (inStep : InStep codecs encoders chainId (Restores codecs encoders) built) {block : List (List UInt8)}
    (restores : ∀ tx ∈ block, ∀ envelope, taken encoders chainId tx = some envelope → Restores codecs encoders envelope)
    (intact : Intact codecs chainId (SpanBatchTransactions.addBlock encoders chainId built block).1) :
    AddsAll codecs encoders chainId built block ∨ RefusedAtOnce encoders chainId block := by
  have before := inStep.intact
  by_cases takes : ∀ tx ∈ block, (taken encoders chainId tx).isSome = true
  · left
    obtain ⟨after, adds, total, sigs, -⟩ := addTxs_of_taken takes built.txs
    rw [addBlock_ok adds] at intact
    have room : built.txs.totalBlockTxCount.toNat + block.length < 2 ^ 64 := by
      rw [← before.sigs, ← sigs, intact.sigs]
      exact UInt64.toNat_lt _
    obtain ⟨after', adds', next⟩ := inStep.addBlock_taken restores takes room
    cases adds.symm.trans adds'
    have same := Except.ok.inj (intact.full.symm.trans next.intact.full)
    exact ⟨(filterMap_taken takes).mp (List.append_cancel_left same).symm, room⟩
  · right
    obtain ⟨after, e, fails, total, earlier, tx, later, rfl, refused, sigs⟩ :=
      addTxsFrom_of_refused takes built.txs.totalBlockTxCount 0 built.txs
    have stops : built.txs.addTxs encoders chainId (earlier ++ tx :: later) = (after, .error e) := by rw [addTxs, fails]
    rw [addBlock_error stops] at intact
    have none_ : earlier = [] := by
      have balance := intact.sigs
      rw [sigs, total, before.sigs] at balance
      exact List.length_eq_zero_iff.mp (Nat.add_eq_left.mp balance)
    subst none_
    refine ⟨tx, later, rfl, refused, ?_⟩
    rw [List.nil_append, addTxsFrom_cons_refused refused] at fails
    obtain ⟨after', e', fails', -, counted, -, types, -⟩ := addTx_of_refused refused built.txs (0 + built.txs.totalBlockTxCount)
    cases fails.symm.trans fails'
    by_contra traced
    have legacy := intact.legacy
    rw [counted (Bool.eq_false_of_not_eq_true traced), types, ← before.legacy] at legacy
    exact absurd (UInt64.toNat_inj.mp legacy) (by simp)

end SpanBatchTransactions

/-! ## Span batches -/

namespace SpanBatchBuilder
open SpanBatchTransactions

def AppendsAtomically (encoders : Encoders) (builder : SpanBatchBuilder) (singularBatch : SingleBatch)
    (seqNum : UInt64) : Prop :=
  ∀ after e, builder.appendSingularBatch encoders singularBatch seqNum = (after, .error (.error e)) → after = builder

theorem appendsAtomically_iff (builder : SpanBatchBuilder) (singularBatch : SingleBatch) (seqNum : UInt64) :
    AppendsAtomically encoders builder singularBatch seqNum ↔
      builder.outOfOrder singularBatch = true ∨
        ∀ tx ∈ singularBatch.transactions, (taken encoders builder.chainId tx).isSome = true := by
  by_cases order : builder.outOfOrder singularBatch = true
  · refine iff_of_true ?_ (.inl order)
    intro after e appends
    rw [appendSingularBatch, if_pos order] at appends
    cases appends
  · by_cases takes : ∀ tx ∈ singularBatch.transactions, (taken encoders builder.chainId tx).isSome = true
    · refine iff_of_true ?_ (.inr takes)
      obtain ⟨txs, adds, -⟩ := addTxs_of_taken takes builder.txs
      intro after e appends
      simp only [appendSingularBatch, if_neg order, appendElement, adds] at appends
      cases appends
    · refine iff_of_false ?_ (not_or.mpr ⟨order, takes⟩)
      intro atomic
      obtain ⟨txs, e, fails, -⟩ := addTxsFrom_of_refused takes builder.txs.totalBlockTxCount 0 builder.txs
      -- The element is there before the first transaction is read, so the batch has grown whatever the error was.
      have same := atomic { builder.appendElement singularBatch seqNum with txs } e
        (by simp only [appendSingularBatch, if_neg order, appendElement, addTxs, fails]; rfl)
      have length := congrArg (fun builder : SpanBatchBuilder => builder.batches.length) same
      simp [appendElement] at length

/-- An append that can fail is never atomic. The columns of a run of `add_txs` fit together and give back the added
transactions, after every call, if and only if every call takes all transactions of its block, each given by its own
encoding, or refuses the block at its first transaction without a trace. -/
theorem building_atomic_iff (codecs : Codecs) (encoders : Encoders) :
    (∀ builder singularBatch seqNum, AppendsAtomically encoders builder singularBatch seqNum ↔
      builder.outOfOrder singularBatch = true ∨
        ∀ tx ∈ singularBatch.transactions, (taken encoders builder.chainId tx).isSome = true) ∧
    ∀ chainId blocks, (∀ block ∈ blocks, ∀ tx ∈ block, ∀ envelope, taken encoders chainId tx = some envelope →
        Restores codecs encoders envelope) →
      Intact codecs chainId .empty ∧
      (Along (addBlock encoders chainId)
          (fun built block => Intact codecs chainId (addBlock encoders chainId built block).1) .empty blocks ↔
        Along (addBlock encoders chainId)
          (fun built block => AddsAll codecs encoders chainId built block ∨ RefusedAtOnce encoders chainId block) .empty
          blocks) := by
  refine ⟨appendsAtomically_iff, ?_⟩
  intro chainId blocks restores
  have start : InStep codecs encoders chainId (Restores codecs encoders) .empty := .empty
  refine ⟨start.intact, ?_⟩
  refine along_iff_of_invariant (InStep codecs encoders chainId (Restores codecs encoders)) ?_ ?_ start
  · intro built block mem inStep keeps
    exact inStep.addBlock (restores block mem) keeps
  · intro built block mem inStep
    exact ⟨inStep.keeps_of_intact (restores block mem), fun keeps => (inStep.addBlock (restores block mem) keeps).intact⟩

/-! ## A transfer -/

def transferData : SpanBatchLegacyTransactionData := ⟨1, 1, []⟩

def transfer (chainId : Option UInt64) : TxEnvelope where
  tx := .legacy ⟨chainId, 0, 1, 21000, .call ⟨List.replicate 20 0x11, List.length_replicate⟩, 1, []⟩
  signature := ⟨1, 1, false⟩
  signatureHash := .ofNat 0

def transferBytes : List UInt8 :=
  [0xdf, 0x80, 0x01, 0x82, 0x52, 0x08, 0x94] ++ List.replicate 20 0x11 ++ [0x01, 0x80, 0x1b, 0x01, 0x01]

def otherTransferBytes : List UInt8 :=
  [0xdf, 0x80, 0x01, 0x82, 0x52, 0x08, 0x94] ++ List.replicate 20 0x11 ++ [0x01, 0x80, 0x37, 0x01, 0x01]

/-- `unsigned_varint::encode::u64`, of which ten bytes are enough. -/
def varintBytes : Nat → Nat → List UInt8
  | 0, _ => []
  | fuel + 1, n => if n < 128 then [UInt8.ofNat n] else UInt8.ofNat (n % 128 + 128) :: varintBytes fuel (n / 128)

def readVarint : List UInt8 → Option (Nat × List UInt8)
  | [] => none
  | byte :: rest =>
      if byte < 128 then some (byte.toNat, rest)
      else (readVarint rest).map fun read => (byte.toNat - 128 + 128 * read.1, read.2)

def transferEncoders : Encoders where
  varintU64 n := varintBytes 10 n.toNat
  decodeTx bytes :=
    if bytes = transferBytes then .ok (.plain (transfer none))
    else if bytes = otherTransferBytes then .ok (.plain (transfer (some 10)))
    else .error .inputTooShort
  legacy data := if data = transferData then [0xc3, 0x01, 0x01, 0x80] else [0xc0]
  eip2930 _ := [0xc0]
  eip1559 _ := [0xc0]
  eip7702 _ := [0xc0]

def transferCodecs : Codecs :=
  { BatchReader.sampleCodecs with
    varintU64 := fun bytes => (readVarint bytes).map fun read => (UInt64.ofNat read.1, read.2)
    legacy := fun bytes => if bytes = [0xc3, 0x01, 0x01, 0x80] then .ok transferData else .error .inputTooShort
    encode2718 := fun envelope =>
      if envelope.tx = (transfer none).tx then transferBytes
      else if envelope.tx = (transfer (some 10)).tx then otherTransferBytes
      else [] }

theorem taken_transferEncoders {tx : List UInt8} {envelope : TxEnvelope}
    (takes : taken transferEncoders 1 tx = some envelope) : envelope = transfer none := by
  simp only [taken, transferEncoders] at takes
  split at takes
  · cases takes
  · cases takes
  · rename_i decoded
    split at decoded
    · cases decoded
      split at takes
      · cases takes
      · exact (Option.some.inj takes).symm
    · split at decoded
      · cases decoded
        cases takes
      · cases decoded

theorem restores_transfer : Restores transferCodecs transferEncoders (transfer none) :=
  ⟨⟨by decide +kernel, by decide +kernel⟩, fun _ => rfl⟩

theorem building_atomic_transfer :
    (∀ block ∈ [[transferBytes], [[0x00]], [transferBytes, transferBytes]], ∀ tx ∈ block, ∀ envelope,
        taken transferEncoders 1 tx = some envelope → Restores transferCodecs transferEncoders envelope) ∧
      Along (addBlock transferEncoders 1) (fun built block => Intact transferCodecs 1 (addBlock transferEncoders 1 built block).1)
        .empty [[transferBytes], [[0x00]], [transferBytes, transferBytes]] := by
  have restores : ∀ block ∈ [[transferBytes], [[0x00]], [transferBytes, transferBytes]], ∀ tx ∈ block, ∀ envelope,
      taken transferEncoders 1 tx = some envelope → Restores transferCodecs transferEncoders envelope := by
    intro _ _ _ _ envelope takes
    rw [taken_transferEncoders takes]
    exact restores_transfer
  refine ⟨restores, (((building_atomic_iff transferCodecs transferEncoders).2 1 _ restores).2).mpr ?_⟩
  refine ⟨.inl ⟨by decide +kernel, by decide +kernel⟩, .inr ⟨[0x00], [], rfl, by decide +kernel, by decide +kernel⟩,
    .inl ⟨by decide +kernel, by decide +kernel⟩, trivial⟩

/-- A batch with an undecodable transaction stays in the span batch it was not appended to. Behind a transfer the
undecodable transaction leaves the columns longer than their total, and a transfer of another chain counts as a legacy
transaction without being one of the batch. -/
theorem building_keeps_refused :
    ¬ AppendsAtomically transferEncoders (.new 0 1) ⟨.ofNat 1, 2, .ofNat 3, 4, [[0x00]]⟩ 0 ∧
    ¬ Intact transferCodecs 1 (addBlock transferEncoders 1 .empty [transferBytes, [0x00]]).1 ∧
    ¬ Intact transferCodecs 1 (addBlock transferEncoders 1 .empty [otherTransferBytes]).1 := by
  refine ⟨?_, ?_, ?_⟩
  · rw [appendsAtomically_iff]
    decide +kernel
  · intro intact
    exact absurd intact.sigs (by decide +kernel)
  · intro intact
    exact absurd intact.legacy (by decide +kernel)

end SpanBatchBuilder

end KonaSoon.Derive
