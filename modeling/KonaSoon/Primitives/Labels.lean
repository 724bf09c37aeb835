import KonaSoon.Primitives.NativeTx

/-!
# Labels of transactions

The transactions of a block in batches: the first one of a batch carries the length of the batch
(`L2Transaction` in `primitives/src/l2blocks.rs` and, with the same variants, in `svm/src/block.rs`).
-/

namespace KonaSoon.L2Transaction

def label (length : UInt64) (txs : List VersionedTransaction) : List L2Transaction :=
  txs.mapIdx fun index tx => if index = 0 then .head length tx else .body tx

theorem label_cons (length : UInt64) (tx : VersionedTransaction) (txs : List VersionedTransaction) :
    label length (tx :: txs) = .head length tx :: txs.map .body := by
  rw [label, List.mapIdx_cons, if_pos rfl]
  congr 1
  apply List.ext_getElem?
  intro i
  rw [List.getElem?_mapIdx, List.getElem?_map]
  rfl

@[simp] theorem map_transaction_label (length : UInt64) (txs : List VersionedTransaction) :
    (label length txs).map transaction = txs := by
  cases txs with
  | nil => rfl
  | cons tx txs =>
      rw [label_cons, List.map_cons, List.map_map]
      exact congrArg (tx :: ·) (List.map_id txs)

@[simp] theorem length_label (length : UInt64) (txs : List VersionedTransaction) : (label length txs).length = txs.length :=
  List.length_mapIdx

inductive Grouped : List L2Transaction → Prop where
  | nil : Grouped []
  | group {length : UInt64} {tx : VersionedTransaction} {bodies : List VersionedTransaction} {rest : List L2Transaction}
      (size : length.toNat = bodies.length + 1) (later : Grouped rest) : Grouped (.head length tx :: bodies.map .body ++ rest)

theorem Grouped.append {front back : List L2Transaction} (first : Grouped front) (second : Grouped back) :
    Grouped (front ++ back) := by
  induction first with
  | nil => exact second
  | group size _ ih =>
      rw [List.append_assoc]
      exact .group size ih

theorem grouped_label {length : UInt64} {txs : List VersionedTransaction} (size : length.toNat = txs.length) :
    Grouped (label length txs) := by
  cases txs with
  | nil => exact .nil
  | cons tx txs =>
      have group : Grouped (.head length tx :: txs.map .body ++ []) := .group size .nil
      rwa [List.append_nil, ← label_cons] at group

theorem grouped_flatMap {ι : Type} {batches : List ι} {labelled : ι → List L2Transaction}
    (each : ∀ i ∈ batches, Grouped (labelled i)) : Grouped (batches.flatMap labelled) := by
  induction batches with
  | nil => exact .nil
  | cons i batches ih =>
      rw [List.flatMap_cons]
      exact (each i List.mem_cons_self).append (ih fun j member => each j (List.mem_cons_of_mem i member))

end KonaSoon.L2Transaction
