import KonaSoon.Primitives.Labels
import KonaSoon.Derive.BatcherAddress

namespace KonaSoon.Derive
open Lib Mpt Programs

inductive L2BlockError where
  | insufficientTransactions
  | unmatchedEntriesAndTransactions
  | hash (text : String)
deriving DecidableEq, Repr

structure EntrySummary where
  numTransactions : UInt64
  startingTransactionIndex : UInt64
deriving DecidableEq, Repr

def batchFromEntryAndBlockTxs (entry : EntrySummary) (blockTxs : List VersionedTransaction) :
    Except L2BlockError (List L2Transaction) :=
  if entry.numTransactions = 0 then .ok []
  else
    let startIndex := entry.startingTransactionIndex.toNat
    if blockTxs.length ≤ startIndex then .error .insufficientTransactions
    else
      let endIndex := min (startIndex + entry.numTransactions.toNat) (2 ^ 64 - 1)
      if blockTxs.length < endIndex then .error .insufficientTransactions
      else .ok (L2Transaction.label entry.numTransactions ((blockTxs.take endIndex).drop startIndex))

def labelTransactions {ι : Type} (summary : ι → Except L2BlockError EntrySummary) (entries : List ι)
    (blockTxs : List VersionedTransaction) : Except L2BlockError (List L2Transaction) := do
  let l2Txs ← entries.foldlM (fun l2Txs entry => do
    let txBatch ← batchFromEntryAndBlockTxs (← summary entry) blockTxs
    return l2Txs ++ txBatch) []
  if l2Txs.length ≠ blockTxs.length then .error .unmatchedEntriesAndTransactions else return l2Txs

structure ConfirmedBlock (τ : Type) where
  previousBlockhash : String
  blockhash : String
  parentSlot : UInt64
  blockTime : Option Int64
  transactions : τ

def ConfirmedBlock.labelled {τ : Type} (block : ConfirmedBlock τ) (transactions : List L2Transaction) : L2Block :=
  { previousBlockhash := block.previousBlockhash
    blockhash := block.blockhash
    parentSlot := block.parentSlot
    blockTime := (block.blockTime.getD 0).toUInt64
    blockHeight := block.parentSlot + 1
    transactions }

/-- The conversion of a `VersionedConfirmedBlockWithEntries`. -/
def L2Block.tryFrom (block : ConfirmedBlock (List VersionedTransaction)) (entries : List EntrySummary) :
    Except L2BlockError L2Block := do
  let l2Txs ← labelTransactions .ok entries block.transactions
  return block.labelled l2Txs

structure UiEntrySummary where
  hash : String
  numTransactions : UInt64
  startingTransactionIndex : UInt64
deriving DecidableEq, Repr

def uiSummary (parseHash : String → Except String B256) (entry : UiEntrySummary) : Except L2BlockError EntrySummary :=
  match parseHash entry.hash with
  | .ok _ => .ok ⟨entry.numTransactions, entry.startingTransactionIndex⟩
  | .error text => .error (.hash text)

/-- The conversion of a `UiConfirmedBlockWithEntries`. Decoding a transaction and parsing a hash is done by
libraries. -/
def L2Block.tryFromUi {τ : Type} (decode : τ → Option VersionedTransaction) (parseHash : String → Except String B256)
    (block : ConfirmedBlock (Option (List τ))) (entries : List UiEntrySummary) : Except L2BlockError L2Block := do
  let l2Txs ← match block.transactions with
    | some transactions => labelTransactions (uiSummary parseHash) entries (transactions.filterMap decode)
    | none => pure []
  return block.labelled l2Txs

def EntrySummary.Within (blockLength : Nat) (entry : EntrySummary) : Prop :=
  entry.numTransactions = 0 ∨ entry.startingTransactionIndex.toNat + entry.numTransactions.toNat ≤ blockLength

instance (blockLength : Nat) (entry : EntrySummary) : Decidable (entry.Within blockLength) :=
  inferInstanceAs (Decidable (_ ∨ _))

def EntrySummary.batch (blockTxs : List VersionedTransaction) (entry : EntrySummary) : List L2Transaction :=
  L2Transaction.label entry.numTransactions
    ((blockTxs.drop entry.startingTransactionIndex.toNat).take entry.numTransactions.toNat)

def total (entries : List EntrySummary) : Nat := (entries.map fun entry => entry.numTransactions.toNat).sum

/-- The entries that are no ticks cut the block, from an index to its end, into consecutive pieces. -/
def Tiles (blockLength : Nat) : Nat → List EntrySummary → Prop
  | start, [] => start = blockLength
  | start, entry :: entries =>
      if entry.numTransactions = 0 then Tiles blockLength start entries
      else entry.startingTransactionIndex.toNat = start ∧ Tiles blockLength (start + entry.numTransactions.toNat) entries

theorem batchFromEntry_of_within {blockTxs : List VersionedTransaction} (fits : blockTxs.length < 2 ^ 64 - 1) {entry : EntrySummary}
    (within : entry.Within blockTxs.length) : batchFromEntryAndBlockTxs entry blockTxs = .ok (entry.batch blockTxs) := by
  unfold batchFromEntryAndBlockTxs EntrySummary.batch
  split
  · rename_i tick
    rw [tick, UInt64.toNat_zero, List.take_zero]
    rfl
  · rename_i nonzero
    have bound := within.resolve_left nonzero
    have positive : entry.numTransactions.toNat ≠ 0 := fun zero => nonzero (UInt64.toNat_inj.mp zero)
    have ends : min (entry.startingTransactionIndex.toNat + entry.numTransactions.toNat) (2 ^ 64 - 1) =
        entry.startingTransactionIndex.toNat + entry.numTransactions.toNat := by omega
    simp only [ends]
    rw [if_neg (by omega), if_neg (by omega), List.drop_take, Nat.add_sub_cancel_left]

theorem batchFromEntry_of_outside {blockTxs : List VersionedTransaction} (fits : blockTxs.length < 2 ^ 64 - 1) {entry : EntrySummary}
    (outside : ¬ entry.Within blockTxs.length) :
    batchFromEntryAndBlockTxs entry blockTxs = .error .insufficientTransactions := by
  obtain ⟨nonzero, beyond⟩ := not_or.mp outside
  simp only [batchFromEntryAndBlockTxs, if_neg nonzero]
  split
  · rfl
  · rw [if_pos]
    omega

theorem length_batch {blockTxs : List VersionedTransaction} {entry : EntrySummary} (within : entry.Within blockTxs.length) :
    (entry.batch blockTxs).length = entry.numTransactions.toNat := by
  rw [EntrySummary.batch, L2Transaction.length_label, List.length_take, List.length_drop]
  rcases within with tick | bound
  · rw [tick, UInt64.toNat_zero, Nat.zero_min]
  · omega

section

variable {blockTxs : List VersionedTransaction} {entries : List EntrySummary}

theorem labelTransactions_of_within (fits : blockTxs.length < 2 ^ 64 - 1) (within : ∀ entry ∈ entries, entry.Within blockTxs.length) :
    labelTransactions .ok entries blockTxs =
      if total entries ≠ blockTxs.length then .error .unmatchedEntriesAndTransactions
      else .ok (entries.flatMap (·.batch blockTxs)) := by
  have loop (l2Txs : List L2Transaction) :
      entries.foldlM (fun l2Txs entry => do
        let txBatch ← batchFromEntryAndBlockTxs (← (.ok entry : Except L2BlockError EntrySummary)) blockTxs
        return l2Txs ++ txBatch) l2Txs = .ok (l2Txs ++ entries.flatMap (·.batch blockTxs)) := by
    induction entries generalizing l2Txs with
    | nil => rw [List.flatMap_nil, List.append_nil]; rfl
    | cons entry entries ih =>
        have first := batchFromEntry_of_within fits (within entry List.mem_cons_self)
        have later := ih (fun later member => within later (List.mem_cons_of_mem entry member)) (l2Txs ++ entry.batch blockTxs)
        rw [List.foldlM_cons, List.flatMap_cons, ← List.append_assoc, ← later]
        show (batchFromEntryAndBlockTxs entry blockTxs >>= fun txBatch => pure (l2Txs ++ txBatch)) >>= _ = _
        rw [first]
        rfl
  have length : (entries.flatMap (·.batch blockTxs)).length = total entries := by
    rw [List.length_flatMap, total]
    congr 1
    exact List.map_congr_left fun entry member => length_batch (within entry member)
  rw [labelTransactions, loop []]
  show (if _ then _ else _) = _
  rw [List.nil_append, length]
  rfl

theorem labelTransactions_of_outside (fits : blockTxs.length < 2 ^ 64 - 1) {entry : EntrySummary} (member : entry ∈ entries)
    (outside : ¬ entry.Within blockTxs.length) :
    labelTransactions .ok entries blockTxs = .error .insufficientTransactions := by
  have loop (l2Txs : List L2Transaction) :
      entries.foldlM (fun l2Txs entry => do
        let txBatch ← batchFromEntryAndBlockTxs (← (.ok entry : Except L2BlockError EntrySummary)) blockTxs
        return l2Txs ++ txBatch) l2Txs = .error .insufficientTransactions := by
    induction entries generalizing l2Txs with
    | nil => cases member
    | cons first entries ih =>
        rw [List.foldlM_cons]
        show (batchFromEntryAndBlockTxs first blockTxs >>= fun txBatch => pure (l2Txs ++ txBatch)) >>= _ = _
        by_cases stops : first.Within blockTxs.length
        · have inside : entry ∈ entries := (List.mem_cons.mp member).resolve_left fun same => outside (same ▸ stops)
          rw [batchFromEntry_of_within fits stops]
          exact ih inside _
        · rw [batchFromEntry_of_outside fits stops]
          rfl
  rw [labelTransactions, loop []]
  rfl

theorem Tiles.batches {start : Nat} (tiles : Tiles blockTxs.length start entries) :
    (∀ entry ∈ entries, entry.Within blockTxs.length) ∧ start + total entries = blockTxs.length ∧
      (entries.flatMap (·.batch blockTxs)).map L2Transaction.transaction = blockTxs.drop start := by
  induction entries generalizing start with
  | nil =>
      refine ⟨fun entry member => (by cases member), tiles, ?_⟩
      rw [List.flatMap_nil, List.map_nil, List.drop_of_length_le (Nat.le_of_eq (Eq.symm tiles))]
  | cons entry entries ih =>
      rw [List.flatMap_cons, List.map_append, total, List.map_cons, List.sum_cons]
      unfold Tiles at tiles
      split at tiles
      · rename_i tick
        obtain ⟨within, sum, back⟩ := ih tiles
        refine ⟨fun other member => ?_, ?_, ?_⟩
        · rcases List.mem_cons.mp member with rfl | later
          · exact .inl tick
          · exact within other later
        · rw [tick, UInt64.toNat_zero, Nat.zero_add]
          exact sum
        · rw [EntrySummary.batch, tick, UInt64.toNat_zero, List.take_zero, back]
          rfl
      · obtain ⟨starts, later⟩ := tiles
        obtain ⟨within, sum, back⟩ := ih later
        have bound : start + entry.numTransactions.toNat ≤ blockTxs.length := by omega
        refine ⟨fun other member => ?_, ?_, ?_⟩
        · rcases List.mem_cons.mp member with rfl | later
          · exact .inr (starts ▸ bound)
          · exact within other later
        · rw [total] at sum
          omega
        · rw [EntrySummary.batch, L2Transaction.map_transaction_label, starts, back, ← List.drop_drop, List.take_append_drop]

theorem grouped_batches (within : ∀ entry ∈ entries, entry.Within blockTxs.length) :
    L2Transaction.Grouped (entries.flatMap (·.batch blockTxs)) := by
  apply L2Transaction.grouped_flatMap
  intro entry member
  apply L2Transaction.grouped_label
  have length := length_batch (within entry member)
  rw [EntrySummary.batch, L2Transaction.length_label] at length
  exact length.symm

end

/-- The conversion keeps the transactions of a block, in groups, and refuses entries that do not tile it. -/
def KeepsTransactions (block : ConfirmedBlock (List VersionedTransaction)) (entries : List EntrySummary) : Prop :=
  (∀ l2Block, L2Block.tryFrom block entries = .ok l2Block →
    l2Block.transactions.map L2Transaction.transaction = block.transactions ∧ L2Transaction.Grouped l2Block.transactions) ∧
  (¬ Tiles block.transactions.length 0 entries → ∃ e, L2Block.tryFrom block entries = .error e)

/-- Only the bounds of every entry and the sum of the counts are checked. -/
theorem keepsTransactions_iff {block : ConfirmedBlock (List VersionedTransaction)} (fits : block.transactions.length < 2 ^ 63)
    (entries : List EntrySummary) : KeepsTransactions block entries ↔
      Tiles block.transactions.length 0 entries ∨ (∃ entry ∈ entries, ¬ entry.Within block.transactions.length) ∨
        total entries ≠ block.transactions.length := by
  have small : block.transactions.length < 2 ^ 64 - 1 := by omega
  by_cases within : ∀ entry ∈ entries, entry.Within block.transactions.length
  · have result := labelTransactions_of_within small within
    have inside : ¬ ∃ entry ∈ entries, ¬ entry.Within block.transactions.length := by
      rintro ⟨entry, member, outside⟩
      exact outside (within entry member)
    by_cases counts : total entries = block.transactions.length
    · rw [if_neg (not_not.mpr counts)] at result
      have accepted : L2Block.tryFrom block entries = .ok (block.labelled (entries.flatMap (·.batch block.transactions))) := by
        rw [L2Block.tryFrom, result]
        rfl
      constructor
      · rintro ⟨-, refuses⟩
        by_contra neither
        obtain ⟨e, refused⟩ := refuses fun tiles => neither (.inl tiles)
        rw [accepted] at refused
        cases refused
      · intro condition
        have tiles := condition.resolve_right fun either => either.elim inside fun differ => differ counts
        refine ⟨fun l2Block ok => ?_, fun gap => absurd tiles gap⟩
        rw [accepted] at ok
        cases ok
        exact ⟨tiles.batches.2.2, grouped_batches within⟩
    · rw [if_pos counts] at result
      have refused : L2Block.tryFrom block entries = .error .unmatchedEntriesAndTransactions := by
        rw [L2Block.tryFrom, result]
        rfl
      refine ⟨fun _ => .inr (.inr counts), fun _ => ⟨fun l2Block ok => ?_, fun _ => ⟨_, refused⟩⟩⟩
      rw [refused] at ok
      cases ok
  · simp only [not_forall] at within
    obtain ⟨entry, member, outside⟩ := within
    have refused : L2Block.tryFrom block entries = .error .insufficientTransactions := by
      rw [L2Block.tryFrom, labelTransactions_of_outside small member outside]
      rfl
    refine ⟨fun _ => .inr (.inl ⟨entry, member, outside⟩), fun _ => ⟨fun l2Block ok => ?_, fun _ => ⟨_, refused⟩⟩⟩
    rw [refused] at ok
    cases ok

def plainTx (tag : UInt8) : VersionedTransaction := ⟨[], ⟨0, 0, 0, [], .ofNat 0, [⟨0, [], [tag]⟩], none⟩⟩

def pairBlock : ConfirmedBlock (List VersionedTransaction) := ⟨"parent", "block", 4, some 12, [plainTx 0, plainTx 1]⟩

theorem keepsTransactions_of_pieces :
    Tiles 2 0 [⟨1, 0⟩, ⟨0, 1⟩, ⟨1, 1⟩] ∧ KeepsTransactions pairBlock [⟨1, 0⟩, ⟨0, 1⟩, ⟨1, 1⟩] := by
  have tiles : Tiles 2 0 [⟨1, 0⟩, ⟨0, 1⟩, ⟨1, 1⟩] := by simp [Tiles]
  exact ⟨tiles, (keepsTransactions_iff (by decide) _).mpr (.inl tiles)⟩

/-- Two entries for the first transaction count as many as the block has. -/
theorem overlapping_entries_accepted :
    (L2Block.tryFrom pairBlock [⟨1, 0⟩, ⟨1, 0⟩]).map (·.transactions) = .ok [.head 1 (plainTx 0), .head 1 (plainTx 0)] ∧
      ¬ Tiles 2 0 [⟨1, 0⟩, ⟨1, 0⟩] ∧ ¬ KeepsTransactions pairBlock [⟨1, 0⟩, ⟨1, 0⟩] := by
  have accepted : L2Block.tryFrom pairBlock [⟨1, 0⟩, ⟨1, 0⟩] =
      .ok (pairBlock.labelled [.head 1 (plainTx 0), .head 1 (plainTx 0)]) := rfl
  refine ⟨congrArg _ accepted, by simp [Tiles], fun keeps => ?_⟩
  have same := (keeps.1 _ accepted).1
  revert same
  decide

theorem tryFromUi_of_parsed {τ : Type} (decode : τ → Option VersionedTransaction) {parseHash : String → Except String B256}
    {block : ConfirmedBlock (Option (List τ))} {encoded : List τ} (has : block.transactions = some encoded)
    {entries : List UiEntrySummary} (parsed : ∀ entry ∈ entries, ∃ hash, parseHash entry.hash = .ok hash) :
    L2Block.tryFromUi decode parseHash block entries =
      L2Block.tryFrom { block with transactions := encoded.filterMap decode }
        (entries.map fun entry => ⟨entry.numTransactions, entry.startingTransactionIndex⟩) := by
  have loop (l2Txs : List L2Transaction) (blockTxs : List VersionedTransaction) :
      entries.foldlM (fun l2Txs entry => do
        let summary ← uiSummary parseHash entry
        let txBatch ← batchFromEntryAndBlockTxs summary blockTxs
        return l2Txs ++ txBatch) l2Txs =
      (entries.map fun entry => (⟨entry.numTransactions, entry.startingTransactionIndex⟩ : EntrySummary)).foldlM
        (fun l2Txs entry => do
          let txBatch ← batchFromEntryAndBlockTxs (← (.ok entry : Except L2BlockError EntrySummary)) blockTxs
          return l2Txs ++ txBatch) l2Txs := by
    induction entries generalizing l2Txs with
    | nil => rfl
    | cons entry entries ih =>
        obtain ⟨hash, ok⟩ := parsed entry List.mem_cons_self
        have read : uiSummary parseHash entry = .ok ⟨entry.numTransactions, entry.startingTransactionIndex⟩ := by
          simp only [uiSummary, ok]
        rw [List.foldlM_cons, List.map_cons, List.foldlM_cons, read]
        congr 1
        funext later
        exact ih (fun other member => parsed other (List.mem_cons_of_mem entry member)) later
  unfold L2Block.tryFromUi L2Block.tryFrom labelTransactions
  rw [has]
  simp only [loop]
  rfl

end KonaSoon.Derive
