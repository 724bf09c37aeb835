import KonaSoon.Primitives.Labels

/-!
# Blocks as labelled transactions and as batches

The two forms of a block for the virtual machine and the conversions between them (`svm/src/block.rs`). The size
of a transaction in memory is a parameter: a `Vec` of more than `isize::MAX` bytes cannot be requested.
-/

namespace KonaSoon.Svm
open Lib Mpt

structure RawBlock where
  batches : List (List VersionedTransaction)
deriving DecidableEq, Repr

structure L2Block where
  transactions : List L2Transaction
deriving DecidableEq, Repr

/-- Whether a `Vec` may have a capacity. -/
def Allocates (itemSize capacity : Nat) : Prop := capacity * itemSize < 2 ^ 63

/-- What every `Vec` keeps: its length is a word, and so much memory can be requested. -/
def Held {α : Type} (itemSize : Nat) (items : List α) : Prop := items.length < 2 ^ 64 ∧ Allocates itemSize items.length

instance (itemSize capacity : Nat) : Decidable (Allocates itemSize capacity) := inferInstanceAs (Decidable (_ < _))

instance {α : Type} (itemSize : Nat) (items : List α) : Decidable (Held itemSize items) := inferInstanceAs (Decidable (_ ∧ _))

def fromTxBatch (txBatch : List VersionedTransaction) : List L2Transaction :=
  L2Transaction.label (UInt64.ofNat txBatch.length) txBatch

def L2Block.fromRaw (rawBlock : RawBlock) : L2Block := ⟨rawBlock.batches.flatMap fromTxBatch⟩

def flush (batches : List (List VersionedTransaction)) (txBatch : List VersionedTransaction) :
    List (List VersionedTransaction) :=
  if txBatch = [] then batches else batches ++ [txBatch]

/-- The loop over the labels. There is no result where the announced capacity is too large. -/
def gather (txSize : Nat) (batches : List (List VersionedTransaction)) (txBatch : List VersionedTransaction) :
    List L2Transaction → Option (List (List VersionedTransaction))
  | [] => some (flush batches txBatch)
  | .head length tx :: txs =>
      if Allocates txSize length.toNat then gather txSize (flush batches txBatch) [tx] txs else none
  | .body tx :: txs => gather txSize batches (txBatch ++ [tx]) txs

def L2Block.toRaw (txSize : Nat) (block : L2Block) : Option RawBlock := (gather txSize [] [] block.transactions).map RawBlock.mk

/-! ## Segments -/

def segments : List L2Transaction → List L2Transaction × List (List L2Transaction)
  | [] => ([], [])
  | .body tx :: txs => (.body tx :: (segments txs).1, (segments txs).2)
  | .head length tx :: txs => ([], (.head length tx :: (segments txs).1) :: (segments txs).2)

theorem segments_join (txs : List L2Transaction) : (segments txs).1 ++ (segments txs).2.flatten = txs := by
  induction txs with
  | nil => rfl
  | cons l2Tx txs ih =>
      cases l2Tx with
      | body tx => rw [segments, List.cons_append, ih]
      | head length tx => rw [segments, List.nil_append, List.flatten_cons, List.cons_append, ih]

def Announces (txSize : Nat) (txs : List L2Transaction) : Prop :=
  ∀ length tx, L2Transaction.head length tx ∈ txs → Allocates txSize length.toNat

theorem gather_eq_none {txSize : Nat} {txs : List L2Transaction} (large : ¬ Announces txSize txs)
    (batches : List (List VersionedTransaction)) (txBatch : List VersionedTransaction) :
    gather txSize batches txBatch txs = none := by
  induction txs generalizing batches txBatch with
  | nil => exact absurd (fun length tx member => by cases member) large
  | cons l2Tx txs ih =>
      cases l2Tx with
      | body tx =>
          rw [gather]
          apply ih
          intro small
          apply large
          intro length head member
          exact small length head ((List.mem_cons.mp member).resolve_left L2Transaction.noConfusion)
      | head length tx =>
          rw [gather]
          split
          · rename_i fits
            apply ih
            intro small
            apply large
            intro length' head member
            rcases List.mem_cons.mp member with same | later
            · cases same
              exact fits
            · exact small length' head later
          · rfl

theorem gather_eq_some {txSize : Nat} {txs : List L2Transaction} (small : Announces txSize txs)
    (batches : List (List VersionedTransaction)) (txBatch : List VersionedTransaction) :
    gather txSize batches txBatch txs =
      some (flush batches (txBatch ++ (segments txs).1.map L2Transaction.transaction) ++
        (segments txs).2.map (·.map L2Transaction.transaction)) := by
  induction txs generalizing batches txBatch with
  | nil => rw [gather, segments, List.map_nil, List.map_nil, List.append_nil, List.append_nil]
  | cons l2Tx txs ih =>
      have later : Announces txSize txs := fun length tx member => small length tx (List.mem_cons_of_mem _ member)
      cases l2Tx with
      | body tx =>
          rw [gather, ih later, segments, List.map_cons, List.append_assoc]
          rfl
      | head length tx =>
          have fits : Allocates txSize length.toNat := small length tx List.mem_cons_self
          have begun : flush (flush batches txBatch) ([tx] ++ (segments txs).1.map L2Transaction.transaction) =
              flush batches txBatch ++ [tx :: (segments txs).1.map L2Transaction.transaction] := rfl
          rw [gather, if_pos fits, ih later, begun, segments, List.map_nil, List.append_nil, List.append_assoc]
          rfl

theorem L2Block.toRaw_isSome_iff (txSize : Nat) (block : L2Block) :
    (block.toRaw txSize).isSome ↔ Announces txSize block.transactions := by
  unfold L2Block.toRaw
  by_cases small : Announces txSize block.transactions
  · rw [gather_eq_some small]
    exact iff_of_true rfl small
  · rw [gather_eq_none small]
    exact iff_of_false Bool.false_ne_true small

/-- The batches are the transactions of segments of the block. Only the first segment may start without a head,
and every head starts one. -/
structure Splits (txs : List L2Transaction) (parts : List (List L2Transaction)) : Prop where
  join : parts.flatten = txs
  nonempty : ∀ part ∈ parts, part ≠ []
  bodies : ∀ part ∈ parts, ∀ l2Tx ∈ part.tail, ∃ tx, l2Tx = .body tx
  heads : ∀ part ∈ parts.tail, ∃ length tx rest, part = .head length tx :: rest

theorem segments_bodies (txs : List L2Transaction) :
    (∀ l2Tx ∈ (segments txs).1, ∃ tx, l2Tx = .body tx) ∧
      ∀ part ∈ (segments txs).2, ∃ length tx rest, part = .head length tx :: rest ∧ ∀ l2Tx ∈ rest, ∃ tx, l2Tx = .body tx := by
  induction txs with
  | nil => exact ⟨fun l2Tx member => (by cases member), fun part member => (by cases member)⟩
  | cons l2Tx txs ih =>
      cases l2Tx with
      | body tx =>
          refine ⟨fun other member => ?_, ih.2⟩
          rcases List.mem_cons.mp member with rfl | later
          · exact ⟨tx, rfl⟩
          · exact ih.1 other later
      | head length tx =>
          refine ⟨fun other member => (by cases member), fun part member => ?_⟩
          rcases List.mem_cons.mp member with rfl | later
          · exact ⟨length, tx, (segments txs).1, rfl, ih.1⟩
          · exact ih.2 part later

theorem L2Block.toRaw_splits {txSize : Nat} {block : L2Block} {rawBlock : RawBlock}
    (converts : block.toRaw txSize = some rawBlock) :
    ∃ parts, Splits block.transactions parts ∧ rawBlock.batches = parts.map (·.map L2Transaction.transaction) := by
  have small : Announces txSize block.transactions :=
    (block.toRaw_isSome_iff txSize).mp (by rw [converts]; rfl)
  rw [L2Block.toRaw, gather_eq_some small, Option.map_some] at converts
  obtain ⟨lead, later⟩ := segments_bodies block.transactions
  have join := segments_join block.transactions
  rw [← Option.some.inj converts, List.nil_append]
  by_cases none_ : (segments block.transactions).1 = []
  · rw [none_, List.nil_append] at join
    refine ⟨(segments block.transactions).2, ⟨join, fun part member => ?_, fun part member => ?_, fun part member => ?_⟩, ?_⟩
    · obtain ⟨length, tx, rest, rfl, -⟩ := later part member
      exact List.cons_ne_nil _ _
    · obtain ⟨length, tx, rest, rfl, bodies⟩ := later part member
      exact bodies
    · obtain ⟨length, tx, rest, shape, -⟩ := later part (List.mem_of_mem_tail member)
      exact ⟨length, tx, rest, shape⟩
    · rw [none_]
      rfl
  · refine ⟨(segments block.transactions).1 :: (segments block.transactions).2, ⟨join, fun part member => ?_,
      fun part member => ?_, fun part member => ?_⟩, ?_⟩
    · rcases List.mem_cons.mp member with rfl | behind
      · exact none_
      · obtain ⟨length, tx, rest, rfl, -⟩ := later part behind
        exact List.cons_ne_nil _ _
    · rcases List.mem_cons.mp member with rfl | behind
      · exact fun l2Tx inside => lead l2Tx (List.mem_of_mem_tail inside)
      · obtain ⟨length, tx, rest, rfl, bodies⟩ := later part behind
        exact bodies
    · obtain ⟨length, tx, rest, shape, -⟩ := later part member
      exact ⟨length, tx, rest, shape⟩
    · have some_ : (segments block.transactions).1.map L2Transaction.transaction ≠ [] := fun empty =>
        none_ (List.map_eq_nil_iff.mp empty)
      simp only [flush, if_neg some_, List.nil_append]
      rfl

/-! ## There and back -/

theorem segments_group {length : UInt64} {tx : VersionedTransaction} {bodies : List VersionedTransaction} {txs : List L2Transaction}
    (ends : (segments txs).1 = []) : segments (.head length tx :: bodies.map .body ++ txs) =
      ([], (.head length tx :: bodies.map .body) :: (segments txs).2) := by
  have run : segments (bodies.map .body ++ txs) = (bodies.map .body, (segments txs).2) := by
    induction bodies with
    | nil => exact Prod.ext ends rfl
    | cons body bodies ih => rw [List.map_cons, List.cons_append, segments, ih]
  rw [List.cons_append, segments, run]

theorem grouped_segments {txs : List L2Transaction} (grouped : L2Transaction.Grouped txs) : (segments txs).1 = [] := by
  cases grouped with
  | nil => rfl
  | group size later => rfl

theorem grouped_back {txs : List L2Transaction} (grouped : L2Transaction.Grouped txs) :
    ((segments txs).2.map (·.map L2Transaction.transaction)).flatMap fromTxBatch = txs := by
  induction grouped with
  | nil => rfl
  | @group length tx bodies rest size later ih =>
      have announced : UInt64.ofNat (bodies.length + 1) = length := by
        rw [← size, UInt64.ofNat_toNat]
      have batch : (.head length tx :: bodies.map .body).map L2Transaction.transaction = tx :: bodies := by
        rw [List.map_cons, List.map_map]
        exact congrArg (tx :: ·) (List.map_id bodies)
      rw [segments_group (grouped_segments later), List.map_cons, List.flatMap_cons, ih, batch, fromTxBatch,
        List.length_cons, announced, L2Transaction.label_cons]

theorem segments_fromRaw {batches : List (List VersionedTransaction)} (nonempty : ∀ batch ∈ batches, batch ≠ []) :
    segments (batches.flatMap fromTxBatch) = ([], batches.map fromTxBatch) := by
  induction batches with
  | nil => rfl
  | cons batch batches ih =>
      have later := ih fun other member => nonempty other (List.mem_cons_of_mem batch member)
      cases batch with
      | nil => exact absurd rfl (nonempty [] List.mem_cons_self)
      | cons tx txs =>
          have ends : (segments (batches.flatMap fromTxBatch)).1 = [] := by rw [later]
          rw [List.flatMap_cons, fromTxBatch, L2Transaction.label_cons, segments_group ends, later, List.map_cons, fromTxBatch,
            L2Transaction.label_cons]

theorem announces_fromRaw {txSize : Nat} {batches : List (List VersionedTransaction)} (held : ∀ batch ∈ batches, Held txSize batch) :
    Announces txSize (batches.flatMap fromTxBatch) := by
  intro length tx member
  obtain ⟨batch, inside, labelled⟩ := List.mem_flatMap.mp member
  obtain ⟨word, fits⟩ := held batch inside
  cases batch with
  | nil => cases labelled
  | cons first txs =>
      rw [fromTxBatch, L2Transaction.label_cons] at labelled
      rcases List.mem_cons.mp labelled with same | later
      · cases same
        rwa [UInt64.toNat_ofNat_of_lt' word]
      · obtain ⟨other, -, same⟩ := List.mem_map.mp later
        cases same

theorem toRaw_fromRaw {txSize : Nat} {rawBlock : RawBlock} (nonempty : ∀ batch ∈ rawBlock.batches, batch ≠ [])
    (held : ∀ batch ∈ rawBlock.batches, Held txSize batch) : (L2Block.fromRaw rawBlock).toRaw txSize = some rawBlock := by
  have unlabelled : rawBlock.batches.map (List.map L2Transaction.transaction ∘ fromTxBatch) = rawBlock.batches := by
    conv_rhs => rw [← List.map_id rawBlock.batches]
    apply List.map_congr_left
    intro batch _
    exact L2Transaction.map_transaction_label _ batch
  rw [L2Block.toRaw, L2Block.fromRaw, gather_eq_some (announces_fromRaw held), segments_fromRaw nonempty, List.map_map, unlabelled]
  rfl

theorem L2Block.fromRaw_eq_iff {txSize : Nat} {block : L2Block} {rawBlock : RawBlock} (fits : block.transactions.length < 2 ^ 64)
    (converts : block.toRaw txSize = some rawBlock) :
    L2Block.fromRaw rawBlock = block ↔ L2Transaction.Grouped block.transactions := by
  constructor
  · intro back
    rw [← back]
    apply L2Transaction.grouped_flatMap
    intro batch member
    have length : (rawBlock.batches.flatMap fromTxBatch).length = block.transactions.length :=
      congrArg (fun block => block.transactions.length) back
    have part : batch.length ≤ (rawBlock.batches.flatMap fromTxBatch).length := by
      rw [← L2Transaction.length_label (UInt64.ofNat batch.length) batch]
      exact (List.sublist_flatten_of_mem (List.mem_map_of_mem (f := fromTxBatch) member)).length_le
    exact L2Transaction.grouped_label (UInt64.toNat_ofNat_of_lt' (show batch.length < 2 ^ 64 by omega))
  · intro grouped
    have small : Announces txSize block.transactions := (block.toRaw_isSome_iff txSize).mp (by rw [converts]; rfl)
    rw [L2Block.toRaw, gather_eq_some small, grouped_segments grouped, Option.map_some] at converts
    rw [← Option.some.inj converts, L2Block.fromRaw]
    exact congrArg L2Block.mk (grouped_back grouped)

/-- Batches are read back from the block that is made of them, and a block from its batches exactly if its labels
group it. -/
theorem raw_blocks_correspond (txSize : Nat) :
    (∀ rawBlock : RawBlock, (∀ batch ∈ rawBlock.batches, batch ≠ []) → (∀ batch ∈ rawBlock.batches, Held txSize batch) →
      (L2Block.fromRaw rawBlock).toRaw txSize = some rawBlock) ∧
    ∀ (block : L2Block) (rawBlock : RawBlock), block.toRaw txSize = some rawBlock →
      (∀ batch ∈ rawBlock.batches, batch ≠ []) ∧
      rawBlock.batches.flatten = block.transactions.map L2Transaction.transaction ∧
      (∃ parts, Splits block.transactions parts ∧ rawBlock.batches = parts.map (·.map L2Transaction.transaction)) ∧
      (block.transactions.length < 2 ^ 64 →
        (L2Block.fromRaw rawBlock = block ↔ L2Transaction.Grouped block.transactions)) := by
  refine ⟨fun rawBlock nonempty held => toRaw_fromRaw nonempty held, fun block rawBlock converts => ?_⟩
  obtain ⟨parts, splits, batches⟩ := L2Block.toRaw_splits converts
  refine ⟨fun batch member => ?_, ?_, ⟨parts, splits, batches⟩, fun fits => L2Block.fromRaw_eq_iff fits converts⟩
  · rw [batches] at member
    obtain ⟨part, inside, rfl⟩ := List.mem_map.mp member
    exact fun empty => splits.nonempty part inside (List.map_eq_nil_iff.mp empty)
  · rw [batches, ← List.map_flatten, splits.join]

def taggedTx (tag : UInt8) : VersionedTransaction := ⟨[], ⟨0, 0, 0, [], .ofNat 0, [⟨0, [], [tag]⟩], none⟩⟩

theorem raw_blocks_correspond_pair :
    (L2Block.fromRaw ⟨[[taggedTx 0, taggedTx 1], [taggedTx 2]]⟩).toRaw 136 =
        some ⟨[[taggedTx 0, taggedTx 1], [taggedTx 2]]⟩ ∧
      (L2Block.fromRaw ⟨[[taggedTx 0], [taggedTx 1]]⟩ = ⟨[.body (taggedTx 0), .head 7 (taggedTx 1)]⟩ ↔
        L2Transaction.Grouped [.body (taggedTx 0), .head 7 (taggedTx 1)]) :=
  ⟨(raw_blocks_correspond 136).1 _ (by decide) (by decide),
    ((raw_blocks_correspond 136).2 ⟨[.body (taggedTx 0), .head 7 (taggedTx 1)]⟩ _ (by decide)).2.2.2 (by decide)⟩

end KonaSoon.Svm
