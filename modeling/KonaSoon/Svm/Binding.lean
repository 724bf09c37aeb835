import KonaSoon.Svm.Entries

/-!
# What the blockhash binds

The blockhash of a block as a function of the signatures in its batches. Two blocks with as many batches have the
same blockhash exactly when the trees over the signatures of their batches are the same, as long as the hash
function has no collision on what is hashed for them.
-/

namespace KonaSoon.Svm
open Lib Mpt

variable (sha : Sha256)

/-! ## The blockhash in closed form -/

def entryHash (hashesPerTick : UInt64) (startHash : B256) (mixin : B256) : B256 :=
  sha (((hashOnce sha)^[hashesPerTick.toNat - 1] startHash).1 ++ mixin.1)

theorem min_of_le {a b : UInt64} (below : b ≤ a) : min a b = b := by
  change (if a ≤ b then a else b) = b
  split
  · exact UInt64.le_antisymm ‹_› below
  · rfl

def pohAfter (startHash : B256) (numHashes : UInt64) : Poh where
  hash := (hashOnce sha)^[numHashes.toNat - 1] startHash
  numHashes := numHashes - 1
  hashesPerTick := lowPowerMode
  remainingHashes := lowPowerMode - (numHashes - 1)
  tickNumber := 0

theorem toNat_remaining {numHashes : UInt64} (positive : 1 ≤ numHashes) :
    (lowPowerMode - (numHashes - 1)).toNat = 2 ^ 64 - numHashes.toNat := by
  have bound := numHashes.toNat_lt
  have least : 1 ≤ numHashes.toNat := UInt64.le_iff_toNat_le.mp positive
  have low : lowPowerMode.toNat = 2 ^ 64 - 1 := rfl
  have before : (numHashes - 1).toNat = numHashes.toNat - 1 := UInt64.toNat_sub_of_le _ _ positive
  have below : numHashes - 1 ≤ lowPowerMode := by
    rw [UInt64.le_iff_toNat_le, before, low]
    omega
  rw [UInt64.toNat_sub_of_le _ _ below, before, low]
  omega

theorem hashUpTo_new (startHash : B256) {numHashes : UInt64} (positive : 1 ≤ numHashes) :
    ∃ ticksNext, (⟨startHash, 0, lowPowerMode, lowPowerMode, 0⟩ : Poh).hashUpTo sha (numHashes - min numHashes 1) =
      some (pohAfter sha startHash numHashes, ticksNext) := by
  have bound := numHashes.toNat_lt
  have one : min numHashes 1 = 1 := min_of_le positive
  have before : (numHashes - 1).toNat = numHashes.toNat - 1 := UInt64.toNat_sub_of_le _ _ positive
  have least : min (lowPowerMode - 1) (numHashes - 1) = numHashes - 1 := by
    apply min_of_le
    have low : (lowPowerMode - 1).toNat = 2 ^ 64 - 2 := rfl
    rw [UInt64.le_iff_toNat_le, before, low]
    omega
  have left : 0 < lowPowerMode - (numHashes - 1) := by
    rw [UInt64.lt_iff_toNat_lt, toNat_remaining positive]
    exact Nat.sub_pos_of_lt bound
  refine ⟨decide (lowPowerMode - (numHashes - 1) = 1), ?_⟩
  unfold Poh.hashUpTo
  simp only [one, least, if_pos left, before, UInt64.zero_add]
  rfl

theorem nextHash_tick (startHash : B256) {numHashes : UInt64} (positive : 1 ≤ numHashes) :
    nextHash sha startHash numHashes [] = some ((hashOnce sha)^[numHashes.toNat] startHash) := by
  obtain ⟨ticksNext, hashed⟩ := hashUpTo_new sha startHash positive
  have nonzero : numHashes ≠ 0 := by
    rintro rfl
    exact absurd positive (by decide)
  have fresh : Poh.new startHash none = some ⟨startHash, 0, lowPowerMode, lowPowerMode, 0⟩ := rfl
  unfold nextHash
  rw [if_neg (fun both => nonzero both.1), fresh, Option.bind_eq_bind, Option.bind_some, hashed, Option.bind_eq_bind,
    Option.bind_some]
  simp only [if_true]
  have succ : numHashes.toNat = numHashes.toNat - 1 + 1 := by
    have := UInt64.le_iff_toNat_le.mp positive
    change 1 ≤ numHashes.toNat at this
    omega
  rw [succ, Function.iterate_succ_apply']
  simp [Poh.tick, pohAfter]

theorem nextHash_record (startHash : B256) {numHashes : UInt64} (positive : 1 ≤ numHashes)
    {transactions : List VersionedTransaction} (some_ : transactions ≠ []) :
    nextHash sha startHash numHashes transactions =
      if numHashes = lowPowerMode then none
      else some (entryHash sha numHashes startHash (hashTransactions sha transactions)) := by
  obtain ⟨ticksNext, hashed⟩ := hashUpTo_new sha startHash positive
  have fresh : Poh.new startHash none = some ⟨startHash, 0, lowPowerMode, lowPowerMode, 0⟩ := rfl
  have tickFirst : (pohAfter sha startHash numHashes).remainingHashes = 1 ↔ numHashes = lowPowerMode := by
    have remaining := toNat_remaining positive
    have bound := numHashes.toNat_lt
    have low : lowPowerMode.toNat = 2 ^ 64 - 1 := rfl
    rw [← UInt64.toNat_inj, ← UInt64.toNat_inj, low]
    change (lowPowerMode - (numHashes - 1)).toNat = 1 ↔ _
    omega
  unfold nextHash
  rw [if_neg (fun both => some_ both.2), fresh, Option.bind_eq_bind, Option.bind_some, hashed, Option.bind_eq_bind,
    Option.bind_some]
  simp only [if_neg some_, Poh.record, tickFirst]
  split
  · rfl
  · rfl

theorem newEntry_tick (prevHash : B256) {numHashes : UInt64} (positive : 1 ≤ numHashes) :
    newEntry sha prevHash numHashes [] = some ⟨numHashes, (hashOnce sha)^[numHashes.toNat] prevHash, []⟩ := by
  unfold newEntry
  simp only [ne_eq, not_true_eq_false, and_false, if_false, nextHash_tick sha prevHash positive]
  rfl

theorem newEntry_data (prevHash : B256) {numHashes : UInt64} (positive : 1 ≤ numHashes)
    {transactions : List VersionedTransaction} (some_ : transactions ≠ []) :
    newEntry sha prevHash numHashes transactions =
      if numHashes = lowPowerMode then none
      else some ⟨numHashes, entryHash sha numHashes prevHash (hashTransactions sha transactions), transactions⟩ := by
  have nonzero : numHashes ≠ 0 := by
    rintro rfl
    exact absurd positive (by decide)
  unfold newEntry
  simp only [nonzero, false_and, if_false, nextHash_record sha prevHash positive some_]
  split <;> rfl

theorem isTick_nil (numHashes : UInt64) (hash : B256) : (⟨numHashes, hash, []⟩ : BlockEntry).isTick = true := rfl

def nonEmpty (batches : List (List VersionedTransaction)) : List (List VersionedTransaction) := batches.filter (· ≠ [])

namespace SlotState

variable (state : SlotState)

def dataHash (startHash : B256) (batches : List (List VersionedTransaction)) : B256 :=
  batches.foldl (fun hash batch => entryHash sha state.hashesPerTick hash (hashTransactions sha batch)) startHash

def dataEntries (startHash : B256) : List (List VersionedTransaction) → List BlockEntry
  | [] => []
  | batch :: batches =>
      let hash := entryHash sha state.hashesPerTick startHash (hashTransactions sha batch)
      ⟨state.hashesPerTick, hash, batch⟩ :: dataEntries hash batches

def ticks : Nat → B256 → List BlockEntry
  | 0, _ => []
  | count + 1, startHash =>
      let hash := (hashOnce sha)^[state.hashesPerTick.toNat] startHash
      ⟨state.hashesPerTick, hash, []⟩ :: ticks count hash

def blockhashOf (lastHash : B256) (batches : List (List VersionedTransaction)) : B256 :=
  (hashOnce sha)^[state.hashesPerTick.toNat * state.ticksPerSlot.toNat] (state.dataHash sha lastHash (nonEmpty batches))

variable {state} (positive : 1 ≤ state.hashesPerTick)

theorem getLast?_dataEntries (startHash : B256) {batches : List (List VersionedTransaction)} (some_ : batches ≠ []) :
    (state.dataEntries sha startHash batches).getLast?.map BlockEntry.hash = some (state.dataHash sha startHash batches) := by
  induction batches generalizing startHash with
  | nil => exact absurd rfl some_
  | cons batch batches ih =>
      cases batches with
      | nil => rfl
      | cons batch' batches =>
          rw [dataEntries, dataEntries, List.getLast?_cons_cons]
          exact ih _ (List.cons_ne_nil _ _)

theorem dataEntries_not_tick (startHash : B256) {batches : List (List VersionedTransaction)}
    (full : ∀ batch ∈ batches, batch ≠ []) : ∀ entry ∈ state.dataEntries sha startHash batches, entry.isTick = false := by
  induction batches generalizing startHash with
  | nil => exact nofun
  | cons batch batches ih =>
      intro entry mem
      rcases List.mem_cons.mp mem with rfl | mem
      · exact decide_eq_false (full batch List.mem_cons_self)
      · exact ih _ (fun batch mem => full batch (List.mem_cons_of_mem _ mem)) entry mem

include positive in
theorem tickEntries_eq (count : Nat) (startHash : B256) :
    state.tickEntries sha count startHash = some (state.ticks sha count startHash) := by
  induction count generalizing startHash with
  | zero => rfl
  | succ count ih =>
      rw [tickEntries, newEntry_tick sha startHash positive, Option.bind_eq_bind, Option.bind_some, ih]
      rfl

include positive in
theorem batchesToDataEntries_eq {startHash : Option B256} {hash : B256}
    (from_ : (startHash <|> state.blockhashQueue.lastHash) = some hash) (batches : List (List VersionedTransaction)) :
    state.batchesToDataEntries sha startHash batches =
      if nonEmpty batches ≠ [] ∧ state.hashesPerTick = lowPowerMode then none
      else some (state.dataEntries sha hash (nonEmpty batches)) := by
  induction batches generalizing startHash hash with
  | nil => rfl
  | cons batch batches ih =>
      rw [batchesToDataEntries]
      by_cases empty : batch = []
      · have skipped : nonEmpty (batch :: batches) = nonEmpty batches := by
          rw [nonEmpty, List.filter_cons_of_neg (by simp [empty])]
          rfl
        rw [if_pos empty, ih from_, skipped]
      · have kept : nonEmpty (batch :: batches) = batch :: nonEmpty batches := by
          rw [nonEmpty, List.filter_cons_of_pos (by simp [empty])]
          rfl
        have entry : state.transactionsToEntry sha batch startHash = newEntry sha hash state.hashesPerTick batch := by
          rw [transactionsToEntry, from_]
          rfl
        rw [if_neg empty, entry, newEntry_data sha hash positive empty, kept]
        by_cases low : state.hashesPerTick = lowPowerMode
        · simp [low]
        · simp only [low, and_false, if_false, Option.bind_eq_bind, Option.bind_some]
          rw [ih rfl]
          simp only [low, and_false, if_false, Option.bind_some]
          rfl

theorem registerTicks_data {entries : List BlockEntry} (data : ∀ entry ∈ entries, entry.isTick = false) (count : UInt64)
    (more : List BlockEntry) : state.registerTicks count (entries ++ more) = state.registerTicks count more := by
  induction entries with
  | nil => rfl
  | cons entry entries ih =>
      rw [List.cons_append, registerTicks, if_neg (by rw [data entry List.mem_cons_self]; exact Bool.false_ne_true)]
      exact ih fun entry mem => data entry (List.mem_cons_of_mem _ mem)

theorem registerTicks_ticks {count : UInt64} {more : Nat} (due : count.toNat + (more + 1) = state.ticksPerSlot.toNat)
    (startHash : B256) : state.registerTicks count (state.ticks sha (more + 1) startHash) =
      state.registerRecentBlockhash ((hashOnce sha)^[state.hashesPerTick.toNat * (more + 1)] startHash) := by
  induction more generalizing count startHash with
  | zero =>
      have last : count + 1 = state.ticksPerSlot := by
        apply UInt64.toNat_inj.mp
        rw [UInt64.toNat_add]
        change (count.toNat + 1) % 2 ^ 64 = _
        have := state.ticksPerSlot.toNat_lt
        omega
      rw [ticks, registerTicks, if_pos (isTick_nil _ _), if_pos last, Nat.zero_add, Nat.mul_one]
  | succ more ih =>
      have next : (count + 1).toNat = count.toNat + 1 := by
        rw [UInt64.toNat_add]
        change (count.toNat + 1) % 2 ^ 64 = _
        have := state.ticksPerSlot.toNat_lt
        omega
      have notLast : count + 1 ≠ state.ticksPerSlot := by
        intro last
        rw [last] at next
        omega
      rw [ticks, registerTicks, if_pos (isTick_nil _ _), if_neg notLast, ih (by omega), ← Function.iterate_add_apply]
      congr 2

include positive in
theorem process_eq (ticking : 1 ≤ state.ticksPerSlot) {lastHash : B256} (last : state.blockhashQueue.lastHash = some lastHash)
    {batches : List (List VersionedTransaction)} (some_ : nonEmpty batches ≠ []) :
    state.processEntriesAndRegisterBlockhash sha batches =
      if state.hashesPerTick = lowPowerMode then (state, .error .panic)
      else (state.registerRecentBlockhash (state.blockhashOf sha lastHash batches), .ok ()) := by
  have from_ : ((none : Option B256) <|> state.blockhashQueue.lastHash) = some lastHash := last
  unfold processEntriesAndRegisterBlockhash
  rw [batchesToDataEntries_eq sha positive from_ batches]
  by_cases low : state.hashesPerTick = lowPowerMode
  · rw [if_pos ⟨some_, low⟩, if_pos low]
  · rw [if_neg (fun both => low both.2), if_neg low]
    have data : ∀ entry ∈ state.dataEntries sha lastHash (nonEmpty batches), entry.isTick = false :=
      dataEntries_not_tick sha lastHash fun batch mem => of_decide_eq_true (List.mem_filter.mp mem).2
    have noTicks : (state.dataEntries sha lastHash (nonEmpty batches)).filter BlockEntry.isTick = [] :=
      List.filter_eq_nil_iff.mpr fun entry mem isTick => by
        rw [data entry mem] at isTick
        cases isTick
    obtain ⟨lastEntry, isLast, hash⟩ := Option.map_eq_some_iff.mp (getLast?_dataEntries sha lastHash some_)
    have complete : state.completeEntries sha (state.dataEntries sha lastHash (nonEmpty batches)) =
        .ok (state.dataEntries sha lastHash (nonEmpty batches) ++
          state.ticks sha state.ticksPerSlot.toNat (state.dataHash sha lastHash (nonEmpty batches))) := by
      unfold completeEntries
      rw [isLast]
      dsimp only
      rw [noTicks, List.length_nil, Nat.sub_zero, hash, tickEntries_eq sha positive]
      rfl
    obtain ⟨more, count⟩ : ∃ more, state.ticksPerSlot.toNat = more + 1 :=
      ⟨state.ticksPerSlot.toNat - 1, by
        have := UInt64.le_iff_toNat_le.mp ticking
        change 1 ≤ state.ticksPerSlot.toNat at this
        omega⟩
    simp only [complete]
    rw [registerTicks_data data, count, registerTicks_ticks sha (by rw [count]; exact Nat.zero_add _), ← count]
    rfl

end SlotState

/-! ## The tree of signatures is bound -/

def treeHash : PairTree (List UInt8) → B256
  | .leaf item => MerkleTree.hashLeaf sha item
  | .node left right => MerkleTree.hashIntermediate sha (treeHash left) (treeHash right)

def treeInputs : PairTree (List UInt8) → List (List UInt8)
  | .leaf item => [0 :: item]
  | .node left right => (1 :: ((treeHash sha left).1 ++ (treeHash sha right).1)) :: (treeInputs left ++ treeInputs right)

theorem getRoot_eq (items : List (List UInt8)) :
    MerkleTree.getRoot (MerkleTree.new sha items) = (PairTree.ofLeaves items).map (treeHash sha) := by
  have natural : ∀ left right, treeHash sha (.node left right) =
      MerkleTree.hashIntermediate sha (treeHash sha left) (treeHash sha right) := fun _ _ => rfl
  rw [MerkleTree.getRoot, MerkleTree.new, getLast?_climb _ (by rw [List.length_map]; exact Nat.le_succ _),
    PairTree.ofLeaves, map_top natural, List.map_map]
  rfl

section Free

variable {inputs : Set (List UInt8)} (free : Set.InjOn sha inputs)
include free

theorem treeHash_injective {tree tree' : PairTree (List UInt8)} (mem : ∀ x ∈ treeInputs sha tree, x ∈ inputs)
    (mem' : ∀ x ∈ treeInputs sha tree', x ∈ inputs) (same : treeHash sha tree = treeHash sha tree') : tree = tree' := by
  induction tree generalizing tree' with
  | leaf item =>
      cases tree' with
      | leaf item' =>
          have equal := free (mem _ List.mem_cons_self) (mem' _ List.mem_cons_self) same
          cases equal
          rfl
      | node left right =>
          have equal := free (mem _ List.mem_cons_self) (mem' _ List.mem_cons_self) same
          cases equal
  | node left right ihLeft ihRight =>
      cases tree' with
      | leaf item =>
          have equal := free (mem _ List.mem_cons_self) (mem' _ List.mem_cons_self) same
          cases equal
      | node left' right' =>
          have equal := free (mem _ List.mem_cons_self) (mem' _ List.mem_cons_self) same
          obtain ⟨sameLeft, sameRight⟩ := List.append_inj (List.cons.inj equal).2
            ((treeHash sha left).2.trans (treeHash sha left').2.symm)
          rw [ihLeft (fun x here => mem x (List.mem_cons_of_mem _ (List.mem_append_left _ here)))
              (fun x here => mem' x (List.mem_cons_of_mem _ (List.mem_append_left _ here))) (Subtype.ext sameLeft),
            ihRight (fun x here => mem x (List.mem_cons_of_mem _ (List.mem_append_right _ here)))
              (fun x here => mem' x (List.mem_cons_of_mem _ (List.mem_append_right _ here))) (Subtype.ext sameRight)]

theorem iterate_injective {count : Nat} {hash hash' : B256}
    (mem : ∀ i < count, ((hashOnce sha)^[i] hash).1 ∈ inputs) (mem' : ∀ i < count, ((hashOnce sha)^[i] hash').1 ∈ inputs)
    (same : (hashOnce sha)^[count] hash = (hashOnce sha)^[count] hash') : hash = hash' := by
  induction count with
  | zero => exact same
  | succ count ih =>
      rw [Function.iterate_succ_apply', Function.iterate_succ_apply'] at same
      have before := free (mem count (Nat.lt_succ_self _)) (mem' count (Nat.lt_succ_self _)) same
      exact ih (fun i below => mem i (Nat.lt_succ_of_lt below)) (fun i below => mem' i (Nat.lt_succ_of_lt below))
        (Subtype.ext before)

end Free

namespace SlotState

variable (state : SlotState)

def hashed : B256 → List (List VersionedTransaction) → Set (List UInt8)
  | startHash, [] =>
      { x | ∃ i < state.hashesPerTick.toNat * state.ticksPerSlot.toNat, x = ((hashOnce sha)^[i] startHash).1 }
  | startHash, batch :: batches =>
      let mixin := hashTransactions sha batch
      { x | ∃ i < state.hashesPerTick.toNat - 1, x = ((hashOnce sha)^[i] startHash).1 } ∪
      { x | ∃ tree, PairTree.ofLeaves (signatures batch) = some tree ∧ x ∈ treeInputs sha tree } ∪
      {((hashOnce sha)^[state.hashesPerTick.toNat - 1] startHash).1 ++ mixin.1} ∪
      hashed (entryHash sha state.hashesPerTick startHash mixin) batches

/-- The hash function has no collision on these inputs and maps none of them to the default hash. -/
structure CollisionFree (inputs : Set (List UInt8)) : Prop where
  injOn : Set.InjOn sha inputs
  nonzero : ∀ x ∈ inputs, sha x ≠ hashDefault

def trees (batches : List (List VersionedTransaction)) : List (Option (PairTree (List UInt8))) :=
  batches.map fun batch => PairTree.ofLeaves (signatures batch)

variable {sha} {state} {inputs : Set (List UInt8)} (free : CollisionFree sha inputs)

theorem treeHash_ne_default (free : CollisionFree sha inputs) {tree : PairTree (List UInt8)}
    (mem : ∀ x ∈ treeInputs sha tree, x ∈ inputs) : treeHash sha tree ≠ hashDefault := by
  cases tree with
  | leaf item => exact free.nonzero _ (mem _ List.mem_cons_self)
  | node left right => exact free.nonzero _ (mem _ List.mem_cons_self)

include free in
theorem hashTransactions_injective {batch batch' : List VersionedTransaction}
    (mem : ∀ tree, PairTree.ofLeaves (signatures batch) = some tree → ∀ x ∈ treeInputs sha tree, x ∈ inputs)
    (mem' : ∀ tree, PairTree.ofLeaves (signatures batch') = some tree → ∀ x ∈ treeInputs sha tree, x ∈ inputs)
    (same : hashTransactions sha batch = hashTransactions sha batch') :
    PairTree.ofLeaves (signatures batch) = PairTree.ofLeaves (signatures batch') := by
  rw [hashTransactions, hashTransactions, getRoot_eq, getRoot_eq] at same
  cases made : PairTree.ofLeaves (signatures batch) with
  | none =>
      cases made' : PairTree.ofLeaves (signatures batch') with
      | none => rfl
      | some tree' =>
          rw [made, made'] at same
          exact absurd same.symm (treeHash_ne_default free (mem' tree' made'))
  | some tree =>
      cases made' : PairTree.ofLeaves (signatures batch') with
      | none =>
          rw [made, made'] at same
          exact absurd same (treeHash_ne_default free (mem tree made))
      | some tree' =>
          rw [made, made'] at same
          rw [treeHash_injective sha free.injOn (mem tree made) (mem' tree' made') same]

include free in
theorem trees_of_same_hash {batches batches' : List (List VersionedTransaction)} (length : batches.length = batches'.length)
    {startHash startHash' : B256} (mem : state.hashed sha startHash batches ⊆ inputs)
    (mem' : state.hashed sha startHash' batches' ⊆ inputs)
    (same : (hashOnce sha)^[state.hashesPerTick.toNat * state.ticksPerSlot.toNat] (state.dataHash sha startHash batches) =
      (hashOnce sha)^[state.hashesPerTick.toNat * state.ticksPerSlot.toNat] (state.dataHash sha startHash' batches')) :
    startHash = startHash' ∧ trees batches = trees batches' := by
  induction batches generalizing batches' startHash startHash' with
  | nil =>
      obtain rfl := List.length_eq_zero_iff.mp length.symm
      exact ⟨iterate_injective sha free.injOn (fun i below => mem ⟨i, below, rfl⟩) (fun i below => mem' ⟨i, below, rfl⟩) same,
        rfl⟩
  | cons batch batches ih =>
      match batches', length with
      | batch' :: batches', length =>
          obtain ⟨entries, rest⟩ := ih (by simpa using length) (fun x here => mem (.inr here)) (fun x here => mem' (.inr here))
            same
          have recorded := free.injOn (mem (.inl (.inr rfl))) (mem' (.inl (.inr rfl))) entries
          obtain ⟨chain, mixin⟩ := List.append_inj recorded
            (((hashOnce sha)^[state.hashesPerTick.toNat - 1] startHash).2.trans
              ((hashOnce sha)^[state.hashesPerTick.toNat - 1] startHash').2.symm)
          have start := iterate_injective sha free.injOn (fun i below => mem (.inl (.inl (.inl ⟨i, below, rfl⟩))))
            (fun i below => mem' (.inl (.inl (.inl ⟨i, below, rfl⟩)))) (Subtype.ext chain)
          have tree := hashTransactions_injective free
            (fun tree made x here => mem (.inl (.inl (.inr ⟨tree, made, here⟩))))
            (fun tree made x here => mem' (.inl (.inl (.inr ⟨tree, made, here⟩)))) (Subtype.ext mixin)
          exact ⟨start, by rw [trees, trees, List.map_cons, List.map_cons, tree]; exact congrArg _ rest⟩

/-! ## Two blocks on one state -/

section Blocks

variable (sha) (state)

def Registers (block : List (List VersionedTransaction)) (blockhash : B256) : Prop :=
  state.processEntriesAndRegisterBlockhash sha block = (state.registerRecentBlockhash blockhash, .ok ())

def signatureLists (block : List (List VersionedTransaction)) : List (List (List UInt8)) := (nonEmpty block).map signatures

/-- Each of the blocks registers one blockhash, which does not depend on empty batches, and if it is the same then so
are the signatures, batch by batch, and the transactions. -/
structure Binds (block block' : List (List VersionedTransaction)) : Prop where
  registers : ∃ blockhash, Registers sha state block blockhash
  registers' : ∃ blockhash, Registers sha state block' blockhash
  empties : ∀ blockhash, Registers sha state (nonEmpty block) blockhash ↔ Registers sha state block blockhash
  empties' : ∀ blockhash, Registers sha state (nonEmpty block') blockhash ↔ Registers sha state block' blockhash
  signatures : ∀ blockhash, Registers sha state block blockhash → Registers sha state block' blockhash →
    signatureLists block = signatureLists block'
  transactions : ∀ blockhash, Registers sha state block blockhash → Registers sha state block' blockhash →
    block.flatten = block'.flatten

end Blocks

theorem flatten_nonEmpty (block : List (List VersionedTransaction)) : (nonEmpty block).flatten = block.flatten := by
  unfold nonEmpty
  induction block with
  | nil => rfl
  | cons batch batches ih =>
      by_cases empty : batch = []
      · rw [List.filter_cons_of_neg (by simp [empty]), ih, empty]
        rfl
      · rw [List.filter_cons_of_pos (by simp [empty]), List.flatten_cons, List.flatten_cons, ih]

theorem nonEmpty_nonEmpty (block : List (List VersionedTransaction)) : nonEmpty (nonEmpty block) = nonEmpty block := by
  rw [nonEmpty, nonEmpty, List.filter_filter]
  simp

variable (sha) in
theorem registers_iff {lastHash : B256} (last : state.blockhashQueue.lastHash = some lastHash)
    (positive : 1 ≤ state.hashesPerTick) (ticking : 1 ≤ state.ticksPerSlot) {block : List (List VersionedTransaction)}
    (some_ : nonEmpty block ≠ []) (blockhash : B256) :
    Registers sha state block blockhash ↔
      state.hashesPerTick ≠ lowPowerMode ∧ blockhash = state.blockhashOf sha lastHash block := by
  rw [Registers, process_eq sha positive ticking last some_]
  by_cases low : state.hashesPerTick = lowPowerMode
  · rw [if_pos low]
    constructor
    · intro same
      cases congrArg Prod.snd same
    · rintro ⟨notLow, -⟩
      exact absurd low notLow
  · rw [if_neg low]
    constructor
    · intro same
      have hash := congrArg (fun result => result.1.blockhash) same
      exact ⟨low, (Option.some.inj hash).symm⟩
    · rintro ⟨-, rfl⟩
      rfl

theorem dataHash_of_trees {batches batches' : List (List VersionedTransaction)} (same : trees batches = trees batches')
    (startHash : B256) : state.dataHash sha startHash batches = state.dataHash sha startHash batches' := by
  induction batches generalizing batches' startHash with
  | nil =>
      obtain rfl : batches' = [] := List.map_eq_nil_iff.mp same.symm
      rfl
  | cons batch batches ih =>
      match batches', same with
      | batch' :: batches', same =>
          obtain ⟨tree, rest⟩ := List.cons.inj same
          have mixin : hashTransactions sha batch = hashTransactions sha batch' := by
            have tree : PairTree.ofLeaves (signatures batch) = PairTree.ofLeaves (signatures batch') := tree
            rw [hashTransactions, hashTransactions, getRoot_eq, getRoot_eq, tree]
          rw [dataHash, dataHash, List.foldl_cons, List.foldl_cons, mixin]
          exact ih rest _

theorem signatureLists_of_trees {block block' : List (List VersionedTransaction)}
    (distinct : ∀ list ∈ signatureLists block ++ signatureLists block', list.Nodup)
    (same : trees (nonEmpty block) = trees (nonEmpty block')) : signatureLists block = signatureLists block' := by
  unfold signatureLists at distinct ⊢
  generalize nonEmpty block = batches at distinct same
  generalize nonEmpty block' = batches' at distinct same
  induction batches generalizing batches' with
  | nil =>
      obtain rfl : batches' = [] := List.map_eq_nil_iff.mp same.symm
      rfl
  | cons batch batches ih =>
      match batches', same with
      | batch' :: batches', same =>
          obtain ⟨tree, rest⟩ := List.cons.inj same
          have first : Svm.signatures batch = Svm.signatures batch' := PairTree.ofLeaves_injective_of_nodup
            (distinct _ (List.mem_append_left _ List.mem_cons_self))
            (distinct _ (List.mem_append_right _ List.mem_cons_self)) tree
          rw [List.map_cons, List.map_cons, first, ih batches' (fun list mem => distinct list ?_) rest]
          rcases List.mem_append.mp mem with mem | mem
          · exact List.mem_append_left _ (List.mem_cons_of_mem _ mem)
          · exact List.mem_append_right _ (List.mem_cons_of_mem _ mem)

/-- Every transaction is signed, and no signature stands on two different transactions. -/
structure SignedApart (transactions : List VersionedTransaction) : Prop where
  signed : ∀ tx ∈ transactions, tx.signatures ≠ []
  apart : ∀ tx ∈ transactions, ∀ tx' ∈ transactions, ∀ signature ∈ tx.signatures, signature ∈ tx'.signatures → tx = tx'

theorem SignedApart.mono {transactions transactions' : List VersionedTransaction} (signed : SignedApart transactions)
    (subset : transactions' ⊆ transactions) : SignedApart transactions' where
  signed tx mem := signed.signed tx (subset mem)
  apart tx mem tx' mem' := signed.apart tx (subset mem) tx' (subset mem')

theorem transactions_of_signatures {batch batch' : List VersionedTransaction} (signed : SignedApart (batch ++ batch'))
    (same : Svm.signatures batch = Svm.signatures batch') : batch = batch' := by
  induction batch generalizing batch' with
  | nil =>
      cases batch' with
      | nil => rfl
      | cons tx' rest' =>
          have none : tx'.signatures = [] := (List.append_eq_nil_iff.mp same.symm).1
          exact absurd none (signed.signed tx' List.mem_cons_self)
  | cons tx rest ih =>
      obtain ⟨first, more, shape⟩ := List.exists_cons_of_ne_nil (signed.signed tx List.mem_cons_self)
      cases batch' with
      | nil =>
          have none : tx.signatures = [] := (List.append_eq_nil_iff.mp same).1
          exact absurd none (signed.signed tx List.mem_cons_self)
      | cons tx' rest' =>
          have here' : tx' ∈ tx :: rest ++ tx' :: rest' := List.mem_append_right _ List.mem_cons_self
          obtain ⟨first', more', shape'⟩ := List.exists_cons_of_ne_nil (signed.signed tx' here')
          have heads : tx.signatures ++ Svm.signatures rest = tx'.signatures ++ Svm.signatures rest' := same
          -- The first signature tells which transaction it stands on.
          obtain rfl : first = first' := by
            rw [shape, shape'] at heads
            exact (List.cons.inj heads).1
          obtain rfl : tx = tx' := signed.apart tx List.mem_cons_self tx' here' first (by simp [shape]) (by simp [shape'])
          rw [ih (signed.mono ?_) (List.append_cancel_left heads)]
          intro other mem
          rcases List.mem_append.mp mem with mem | mem
          · exact List.mem_append_left _ (List.mem_cons_of_mem _ mem)
          · exact List.mem_append_right _ (List.mem_cons_of_mem _ mem)

theorem signatures_flatten (batches : List (List VersionedTransaction)) :
    Svm.signatures batches.flatten = (batches.map Svm.signatures).flatten := by
  induction batches with
  | nil => rfl
  | cons batch batches ih =>
      rw [List.flatten_cons, Svm.signatures, List.flatMap_append]
      exact congrArg (Svm.signatures batch ++ ·) ih

theorem transactions_of_signatureLists {block block' : List (List VersionedTransaction)}
    (signed : SignedApart (block.flatten ++ block'.flatten)) (same : signatureLists block = signatureLists block') :
    block.flatten = block'.flatten := by
  rw [← flatten_nonEmpty block, ← flatten_nonEmpty block'] at signed ⊢
  apply transactions_of_signatures signed
  rw [signatures_flatten, signatures_flatten]
  exact congrArg List.flatten same

/-! ## Three small blocks -/

def signed (byte : UInt8) : VersionedTransaction := ⟨[List.replicate 64 byte], ⟨1, 0, 0, [], .ofNat 7, [], none⟩⟩

def leafA : B256 := .ofNat 0xabf8d1d398851cc3c5ec641a4153db3f5e075cfaa8ce941f0c21daf1e579a739

def leafB : B256 := .ofNat 0x0edb541129393f1fb832cdacbe3a0441fdb191e4204fe463234f66fba42c6b82

def leafC : B256 := .ofNat 0xaa11f15060ca191e6791dbac439faaef6cbbe5fb339154024175653348c3bec6

def nodeAB : B256 := .ofNat 0xcf8a4b84a717f4d4198bdfdd5ed6c4c142f9db68dc3fa564e342c00a7914c1f8

def nodeCC : B256 := .ofNat 0x060ea5c75f950a588752054e998f5ce90102781dc747632100fd70fd7a9d41e2

def rootABC : B256 := .ofNat 0xe73da0165a22558bbaf738cab856ec387a0effd998247c561ca64a8a8097e841

def entryABC : B256 := .ofNat 0x9b2e1077f3eda7b3801328fd36ad32c80fd71985ad444d8f2f3b0e41178e6762

def entryAB : B256 := .ofNat 0xb4fb25dec7cd84ce2a39efac9ef283da7f5723e114ab80cbb95438974ebdb796

def digests : List (List UInt8 × B256) :=
  [(0 :: List.replicate 64 0xA1, leafA),
   (0 :: List.replicate 64 0xB2, leafB),
   (0 :: List.replicate 64 0xC3, leafC),
   (1 :: (leafA.1 ++ leafB.1), nodeAB),
   (1 :: (leafC.1 ++ leafC.1), nodeCC),
   (1 :: (nodeAB.1 ++ nodeCC.1), rootABC),
   ((B256.ofNat 7).1 ++ rootABC.1, entryABC),
   (entryABC.1, .ofNat 0xd85f50a4a208f7dd18468eb8dc73fb928126161ce8ac3a624fca768116a856f2),
   ((B256.ofNat 7).1 ++ nodeAB.1, entryAB),
   (entryAB.1, .ofNat 0xab2f7214c8d215fdab2d65cd3d728c533945d886529b4920b5ce27ff2f4fe80f)]

def exampleSha : Sha256 := fun x => (digests.lookup x).getD hashDefault

def exampleSlot : SlotState := ⟨1, 1, 5000, .ofSysvar [(.ofNat 7, 0)], none, [(.ofNat 7, 0)]⟩

def twoTransactions : List (List VersionedTransaction) := [[signed 0xA1, signed 0xB2]]

def threeTransactions : List (List VersionedTransaction) := [[signed 0xA1, signed 0xB2, signed 0xC3], []]

def lastTwice : List (List VersionedTransaction) := [[signed 0xA1, signed 0xB2, signed 0xC3, signed 0xC3]]

theorem digests_free : CollisionFree exampleSha { x | x ∈ digests.map Prod.fst } where
  injOn := by
    have distinct : ∀ x ∈ digests.map Prod.fst, ∀ y ∈ digests.map Prod.fst, exampleSha x = exampleSha y → x = y := by
      decide +kernel
    exact fun x memX y memY same => distinct x memX y memY same
  nonzero := by
    have nonzero : ∀ x ∈ digests.map Prod.fst, exampleSha x ≠ hashDefault := by decide +kernel
    exact fun x mem => nonzero x mem

theorem CollisionFree.mono {sha : Sha256} {inputs inputs' : Set (List UInt8)} (free : CollisionFree sha inputs)
    (subset : inputs' ⊆ inputs) : CollisionFree sha inputs' :=
  ⟨free.injOn.mono subset, fun x mem => free.nonzero x (subset mem)⟩

theorem hashed_subset {batch : List VersionedTransaction} {tree : PairTree (List UInt8)}
    (made : PairTree.ofLeaves (Svm.signatures batch) = some tree)
    (inTree : ∀ x ∈ treeInputs exampleSha tree, x ∈ digests.map Prod.fst)
    (recorded : (B256.ofNat 7).1 ++ (hashTransactions exampleSha batch).1 ∈ digests.map Prod.fst)
    (ticked : (entryHash exampleSha 1 (.ofNat 7) (hashTransactions exampleSha batch)).1 ∈ digests.map Prod.fst) :
    exampleSlot.hashed exampleSha (.ofNat 7) [batch] ⊆ { x | x ∈ digests.map Prod.fst } := by
  rintro x (((⟨i, below, -⟩ | ⟨tree', made', mem⟩) | rfl) | ⟨i, below, rfl⟩)
  · exact absurd below (Nat.not_lt_zero i)
  · cases made.symm.trans made'
    exact inTree x mem
  · exact recorded
  · obtain rfl : i = 0 := Nat.lt_one_iff.mp below
    exact ticked

def treeAB : PairTree (List UInt8) := .node (.leaf (List.replicate 64 0xA1)) (.leaf (List.replicate 64 0xB2))

def treeABC : PairTree (List UInt8) :=
  .node treeAB (.node (.leaf (List.replicate 64 0xC3)) (.leaf (List.replicate 64 0xC3)))

/-! ## When the blockhash binds -/

/-- The blockhash binds two blocks with as many batches unless their lists of signatures differ but have the same
trees, which takes a batch with the same signature twice, or the lists are the same on different transactions, since
only signatures are hashed. A number of hashes per tick that is the largest of all words leaves no room to record a
batch. -/
theorem blockhash_binds_iff (sha : Sha256) (state : SlotState) (lastHash : B256)
    (last : state.blockhashQueue.lastHash = some lastHash) (positive : 1 ≤ state.hashesPerTick)
    (ticking : 1 ≤ state.ticksPerSlot) (block block' : List (List VersionedTransaction)) (some_ : nonEmpty block ≠ [])
    (some_' : nonEmpty block' ≠ []) (length : (nonEmpty block).length = (nonEmpty block').length)
    (free : CollisionFree sha (state.hashed sha lastHash (nonEmpty block) ∪ state.hashed sha lastHash (nonEmpty block'))) :
    (Binds sha state block block' ↔ state.hashesPerTick ≠ lowPowerMode ∧
      (trees (nonEmpty block) = trees (nonEmpty block') →
        signatureLists block = signatureLists block' ∧ block.flatten = block'.flatten)) ∧
    ((∀ list ∈ signatureLists block ++ signatureLists block', list.Nodup) →
      trees (nonEmpty block) = trees (nonEmpty block') → signatureLists block = signatureLists block') ∧
    (SignedApart (block.flatten ++ block'.flatten) →
      signatureLists block = signatureLists block' → block.flatten = block'.flatten) := by
  have registers := registers_iff sha last positive ticking some_
  have registers' := registers_iff sha last positive ticking some_'
  refine ⟨⟨?_, ?_⟩, fun distinct same => signatureLists_of_trees distinct same, transactions_of_signatureLists⟩
  · intro binds
    obtain ⟨blockhash, registered⟩ := binds.registers
    obtain ⟨low, rfl⟩ := (registers blockhash).mp registered
    refine ⟨low, fun same => ?_⟩
    have registered' : Registers sha state block' (state.blockhashOf sha lastHash block) := by
      rw [registers', blockhashOf, blockhashOf, dataHash_of_trees same]
      exact ⟨low, rfl⟩
    exact ⟨binds.signatures _ registered registered', binds.transactions _ registered registered'⟩
  · rintro ⟨low, bound⟩
    have shared : ∀ blockhash, Registers sha state block blockhash → Registers sha state block' blockhash →
        signatureLists block = signatureLists block' ∧ block.flatten = block'.flatten := by
      intro blockhash registered registered'
      have same := ((registers _).mp registered).2.symm.trans ((registers' _).mp registered').2
      exact bound (trees_of_same_hash free length Set.subset_union_left Set.subset_union_right same).2
    refine ⟨⟨_, (registers _).mpr ⟨low, rfl⟩⟩, ⟨_, (registers' _).mpr ⟨low, rfl⟩⟩, fun blockhash => ?_,
      fun blockhash => ?_, fun blockhash registered registered' => (shared blockhash registered registered').1,
      fun blockhash registered registered' => (shared blockhash registered registered').2⟩
    · rw [registers_iff sha last positive ticking (by rwa [nonEmpty_nonEmpty]), registers, blockhashOf, blockhashOf,
        nonEmpty_nonEmpty]
    · rw [registers_iff sha last positive ticking (by rwa [nonEmpty_nonEmpty]), registers', blockhashOf, blockhashOf,
        nonEmpty_nonEmpty]

theorem blockhash_binds_two_and_three :
    CollisionFree exampleSha (exampleSlot.hashed exampleSha (.ofNat 7) (nonEmpty twoTransactions) ∪
      exampleSlot.hashed exampleSha (.ofNat 7) (nonEmpty threeTransactions)) ∧
    Binds exampleSha exampleSlot twoTransactions threeTransactions := by
  have two : exampleSlot.hashed exampleSha (.ofNat 7) (nonEmpty twoTransactions) ⊆ { x | x ∈ digests.map Prod.fst } :=
    hashed_subset (show _ = some treeAB by decide +kernel) (by decide +kernel) (by decide +kernel) (by decide +kernel)
  have three : exampleSlot.hashed exampleSha (.ofNat 7) (nonEmpty threeTransactions) ⊆ { x | x ∈ digests.map Prod.fst } :=
    hashed_subset (show _ = some treeABC by decide +kernel) (by decide +kernel) (by decide +kernel) (by decide +kernel)
  have free := digests_free.mono (Set.union_subset two three)
  have distinct : ∀ list ∈ signatureLists twoTransactions ++ signatureLists threeTransactions, list.Nodup := by
    decide +kernel
  have signed : SignedApart (twoTransactions.flatten ++ threeTransactions.flatten) :=
    ⟨by decide +kernel, by decide +kernel⟩
  obtain ⟨binds, lists, transactions⟩ := blockhash_binds_iff exampleSha exampleSlot (.ofNat 7) rfl (by decide) (by decide)
    twoTransactions threeTransactions (by decide +kernel) (by decide +kernel) rfl free
  exact ⟨free, binds.mpr ⟨by decide, fun same => ⟨lists distinct same, transactions signed (lists distinct same)⟩⟩⟩

def otherMessage : List (List VersionedTransaction) :=
  [[signed 0xA1, { signed 0xB2 with message := ⟨1, 0, 0, [], .ofNat 8, [], none⟩ }, signed 0xC3]]

theorem registers_example {block : List (List VersionedTransaction)} (some_ : nonEmpty block ≠ []) {blockhash : B256} :
    Registers exampleSha exampleSlot block blockhash ↔
      exampleSlot.hashesPerTick ≠ lowPowerMode ∧ blockhash = exampleSlot.blockhashOf exampleSha (.ofNat 7) block :=
  registers_iff exampleSha rfl (by decide) (by decide) some_ blockhash

/-- The last transaction twice, or another message under the same signatures, leaves the blockhash as it is. -/
theorem blockhash_of_lastTwice : exampleSlot.blockhashQueue.lastHash = some (.ofNat 7) ∧
    1 ≤ exampleSlot.hashesPerTick ∧ 1 ≤ exampleSlot.ticksPerSlot ∧
    (nonEmpty threeTransactions).length = (nonEmpty lastTwice).length ∧
    CollisionFree exampleSha (exampleSlot.hashed exampleSha (.ofNat 7) (nonEmpty threeTransactions) ∪
      exampleSlot.hashed exampleSha (.ofNat 7) (nonEmpty lastTwice)) ∧
    ¬ Binds exampleSha exampleSlot threeTransactions lastTwice ∧
    (nonEmpty threeTransactions).length = (nonEmpty otherMessage).length ∧
    CollisionFree exampleSha (exampleSlot.hashed exampleSha (.ofNat 7) (nonEmpty threeTransactions) ∪
      exampleSlot.hashed exampleSha (.ofNat 7) (nonEmpty otherMessage)) ∧
    ¬ Binds exampleSha exampleSlot threeTransactions otherMessage := by
  have three : exampleSlot.hashed exampleSha (.ofNat 7) (nonEmpty threeTransactions) ⊆ { x | x ∈ digests.map Prod.fst } :=
    hashed_subset (show _ = some treeABC by decide +kernel) (by decide +kernel) (by decide +kernel) (by decide +kernel)
  have four : exampleSlot.hashed exampleSha (.ofNat 7) (nonEmpty lastTwice) ⊆ { x | x ∈ digests.map Prod.fst } :=
    hashed_subset (show _ = some treeABC by decide +kernel) (by decide +kernel) (by decide +kernel) (by decide +kernel)
  have other : exampleSlot.hashed exampleSha (.ofNat 7) (nonEmpty otherMessage) ⊆ { x | x ∈ digests.map Prod.fst } :=
    hashed_subset (show _ = some treeABC by decide +kernel) (by decide +kernel) (by decide +kernel) (by decide +kernel)
  refine ⟨rfl, by decide, by decide, rfl, digests_free.mono (Set.union_subset three four), fun binds => ?_, rfl,
    digests_free.mono (Set.union_subset three other), fun binds => ?_⟩
  · have same : trees (nonEmpty threeTransactions) = trees (nonEmpty lastTwice) := by decide +kernel
    have differ : signatureLists threeTransactions ≠ signatureLists lastTwice := by decide +kernel
    refine differ (binds.signatures _ ((registers_example (by decide +kernel)).mpr ⟨by decide, rfl⟩)
      ((registers_example (by decide +kernel)).mpr ⟨by decide, ?_⟩))
    rw [blockhashOf, blockhashOf, dataHash_of_trees same]
  · have same : trees (nonEmpty threeTransactions) = trees (nonEmpty otherMessage) := by decide +kernel
    have differ : threeTransactions.flatten ≠ otherMessage.flatten := by decide +kernel
    refine differ (binds.transactions _ ((registers_example (by decide +kernel)).mpr ⟨by decide, rfl⟩)
      ((registers_example (by decide +kernel)).mpr ⟨by decide, ?_⟩))
    rw [blockhashOf, blockhashOf, dataHash_of_trees same]

end SlotState

end KonaSoon.Svm
