import KonaSoon.Svm.Binding
import KonaSoon.Svm.RawBlocks

/-!
# Blocks of posted transactions

From the bytes of payload attributes to the entries of a block: `convert_block` (`proof/executor/src/builder/core.rs`),
the batches of the block, the trees of their signatures (`svm/src/entry/merkle_tree.rs`) and the entries. There is
no result where the source panics.
-/

namespace KonaSoon.Svm
open Lib Mpt

abbrev Deserialize := List UInt8 → Except String L2Transaction

inductive ExecutorError where
  | fraudInitError (text : String)
deriving DecidableEq, Repr

def convertBlock (deserialize : Deserialize) (transactions : Option (List (List UInt8))) : Except ExecutorError L2Block := do
  let transactions ← (transactions.getD []).mapM fun tx => (deserialize tx).mapError .fraudInitError
  return ⟨transactions⟩

namespace MerkleTree

variable (sha : Sha256)

def nextLevelLen (levelLen : Nat) : Nat := if levelLen = 1 then 0 else (levelLen + 1) / 2

/-- The logarithm is computed by a library on floating-point numbers. The sum wraps. -/
def calculateVecCapacity (log2Raw : Nat → Nat) (leafCount : Nat) : Nat :=
  if 0 < leafCount then (log2Raw leafCount + 2 * leafCount + 1) % 2 ^ 64 else 0

def buildLevel (prevLevelStart prevLevelLen levelLen : Nat) (nodes : List B256) : Option (List B256) :=
  (List.range levelLen).foldlM (fun nodes i => do
    let prevLevelIdx := 2 * i
    let lsib ← nodes[prevLevelStart + prevLevelIdx]?
    let rsib ← (if prevLevelIdx + 1 < prevLevelLen then nodes[prevLevelStart + prevLevelIdx + 1]?
      else nodes[prevLevelStart + prevLevelIdx]?)
    return nodes ++ [hashIntermediate sha lsib rsib]) nodes

theorem nextLevelLen_lt {levelLen : Nat} (positive : 0 < levelLen) : nextLevelLen levelLen < levelLen := by
  unfold nextLevelLen
  split <;> omega

def buildLevels (levelLen levelStart prevLevelLen prevLevelStart : Nat) (nodes : List B256) : Option (List B256) :=
  if _positive : 0 < levelLen then do
    let nodes ← buildLevel sha prevLevelStart prevLevelLen levelLen nodes
    buildLevels (nextLevelLen levelLen) (levelStart + levelLen) levelLen levelStart nodes
  else some nodes
termination_by levelLen
decreasing_by exact nextLevelLen_lt ‹_›

/-- The tree as the source builds it, with indices into the nodes. -/
def build (log2Raw : Nat → Nat) (items : List (List UInt8)) : Option (List B256) :=
  if Allocates 32 (calculateVecCapacity log2Raw items.length) then
    buildLevels sha (nextLevelLen items.length) items.length items.length 0 (items.map (hashLeaf sha))
  else none

/-! ## Every index is in range -/

theorem getElem?_pairUp {α : Type} (node : α → α → α) (level : List α) (i : Nat) :
    (pairUp node level)[i]? = do
      let lsib ← level[2 * i]?
      let rsib ← (if 2 * i + 1 < level.length then level[2 * i + 1]? else level[2 * i]?)
      return node lsib rsib := by
  induction level using pairUp.induct generalizing i with
  | case1 => rfl
  | case2 a =>
      cases i with
      | zero => rfl
      | succ i => rfl
  | case3 a b rest ih =>
      cases i with
      | zero => rfl
      | succ i =>
          have left : 2 * (i + 1) = 2 * i + 1 + 1 := by omega
          have shorter : 2 * i + 1 + 1 + 1 < (a :: b :: rest).length ↔ 2 * i + 1 < rest.length := by
            rw [List.length_cons, List.length_cons]
            omega
          rw [pairUp, List.getElem?_cons_succ, ih, left]
          simp only [List.getElem?_cons_succ, shorter]

theorem buildLevel_eq (front level : List B256) :
    buildLevel sha front.length level.length (pairUp (hashIntermediate sha) level).length (front ++ level) =
      some (front ++ level ++ pairUp (hashIntermediate sha) level) := by
  have pass (count : Nat) (within : count ≤ (pairUp (hashIntermediate sha) level).length) :
      buildLevel sha front.length level.length count (front ++ level) =
        some (front ++ level ++ (pairUp (hashIntermediate sha) level).take count) := by
    induction count with
    | zero =>
        rw [List.take_zero, List.append_nil]
        rfl
    | succ count ih =>
        have here := List.getElem?_eq_getElem (Nat.lt_of_succ_le within)
        have read (j : Nat) (inside : j < level.length) :
            (front ++ level ++ (pairUp (hashIntermediate sha) level).take count)[front.length + j]? = level[j]? := by
          rw [List.append_assoc, List.getElem?_append_right (Nat.le_add_right _ _), Nat.add_sub_cancel_left,
            List.getElem?_append_left inside]
        have long : 2 * count < level.length := by
          rw [length_pairUp] at within
          omega
        have next := getElem?_pairUp (hashIntermediate sha) level count
        rw [here] at next
        have before := ih (Nat.le_of_succ_le within)
        unfold buildLevel at before ⊢
        rw [List.range_succ, List.foldlM_append, before, Option.bind_eq_bind, Option.bind_some, List.foldlM_cons,
          List.take_add_one, here, Option.toList_some, ← List.append_assoc]
        simp only [List.foldlM_nil, bind_pure]
        rw [read (2 * count) long, Nat.add_assoc]
        by_cases pair : 2 * count + 1 < level.length
        · rw [if_pos pair] at next ⊢
          rw [read (2 * count + 1) pair]
          rw [List.getElem?_eq_getElem long, List.getElem?_eq_getElem pair] at next ⊢
          exact congrArg _ (congrArg (fun node => _ ++ [node]) (Option.some.inj next).symm)
        · rw [if_neg pair] at next ⊢
          rw [List.getElem?_eq_getElem long] at next ⊢
          exact congrArg _ (congrArg (fun node => _ ++ [node]) (Option.some.inj next).symm)
  have whole := pass _ (Nat.le_refl _)
  rwa [List.take_length] at whole

theorem nextLevelLen_eq {level : List B256} : nextLevelLen level.length =
    if level.length ≤ 1 then 0 else (pairUp (hashIntermediate sha) level).length := by
  rw [length_pairUp]
  unfold nextLevelLen
  split <;> split <;> omega

theorem buildLevels_eq {fuel : Nat} (front level : List B256) (enough : level.length ≤ fuel + 1) :
    buildLevels sha (nextLevelLen level.length) (front.length + level.length) level.length front.length (front ++ level) =
      some (front ++ level ++ climb (hashIntermediate sha) fuel level) := by
  induction fuel generalizing front level with
  | zero =>
      have last : nextLevelLen level.length = 0 := by
        rw [nextLevelLen_eq sha, if_pos enough]
      rw [last, buildLevels, dif_neg (Nat.lt_irrefl 0), climb, List.append_nil]
  | succ fuel ih =>
      rw [climb, buildLevels, nextLevelLen_eq sha]
      by_cases short : level.length ≤ 1
      · rw [if_pos short, dif_neg (Nat.lt_irrefl 0), if_pos short, List.append_nil]
      · have length := length_pairUp (hashIntermediate sha) level
        have positive : 0 < (pairUp (hashIntermediate sha) level).length := by omega
        have above := ih (front ++ level) (pairUp (hashIntermediate sha) level) (by omega)
        rw [List.length_append] at above
        rw [if_neg short, dif_pos positive, buildLevel_eq, Option.bind_eq_bind, Option.bind_some, above, if_neg short,
          List.append_assoc]

theorem build_eq (log2Raw : Nat → Nat) (items : List (List UInt8)) :
    build sha log2Raw items = if Allocates 32 (calculateVecCapacity log2Raw items.length) then some (new sha items) else none := by
  have enough : (items.map (hashLeaf sha)).length ≤ items.length + 1 := by
    rw [List.length_map]
    exact Nat.le_succ _
  have levels := buildLevels_eq sha [] (items.map (hashLeaf sha)) enough
  rw [List.length_map, List.length_nil, Nat.zero_add, List.nil_append] at levels
  unfold build
  split
  · exact levels
  · rfl

/-- The loops stop with every index in range, and the last node is the root of the tree that is built level by
level. -/
theorem build_root (log2Raw : Nat → Nat) (items : List (List UInt8)) (nonempty : items ≠ []) :
    ∃ nodes root,
      buildLevels sha (nextLevelLen items.length) items.length items.length 0 (items.map (hashLeaf sha)) = some nodes ∧
      build sha log2Raw items =
        (if Allocates 32 (calculateVecCapacity log2Raw items.length) then some nodes else none) ∧
      getRoot nodes = some root ∧ rootOf (hashIntermediate sha) (items.map (hashLeaf sha)) = some root := by
  have enough : (items.map (hashLeaf sha)).length ≤ items.length + 1 := by
    rw [List.length_map]
    exact Nat.le_succ _
  have levels := buildLevels_eq sha [] (items.map (hashLeaf sha)) enough
  rw [List.length_map, List.length_nil, Nat.zero_add, List.nil_append] at levels
  have leaves : items.map (hashLeaf sha) ≠ [] := fun empty => nonempty (List.map_eq_nil_iff.mp empty)
  obtain ⟨root, made⟩ := Option.isSome_iff_exists.mp (rootOf_isSome (hashIntermediate sha) leaves)
  refine ⟨new sha items, root, levels, build_eq sha log2Raw items, ?_, made⟩
  rw [getRoot, new, getLast?_climb _ enough, top_eq_rootOf _ enough, made]

theorem build_root_three_items : ∃ nodes root,
    buildLevels (fun _ => .ofNat 0) (nextLevelLen 3) 3 3 0 ([[1], [2], [3]].map (hashLeaf fun _ => .ofNat 0)) = some nodes ∧
      build (fun _ => .ofNat 0) Nat.log2 [[1], [2], [3]] =
        (if Allocates 32 (calculateVecCapacity Nat.log2 3) then some nodes else none) ∧
      getRoot nodes = some root ∧
      rootOf (hashIntermediate fun _ => .ofNat 0) ([[1], [2], [3]].map (hashLeaf fun _ => .ofNat 0)) = some root :=
  build_root (fun _ => .ofNat 0) Nat.log2 [[1], [2], [3]] (List.cons_ne_nil _ _)

end MerkleTree

/-! ## Entries -/

theorem newEntry_tick_isSome (sha : Sha256) (prevHash : B256) (numHashes : UInt64) :
    (newEntry sha prevHash numHashes []).isSome := by
  by_cases zero : numHashes = 0
  · rw [zero]
    rfl
  · have positive : 1 ≤ numHashes := by
      rw [UInt64.le_iff_toNat_le]
      exact Nat.pos_of_ne_zero fun zero' => zero (UInt64.toNat_inj.mp zero')
    rw [newEntry_tick sha prevHash positive]
    rfl

theorem newEntry_data_isSome_iff (sha : Sha256) (prevHash : B256) (numHashes : UInt64) {transactions : List VersionedTransaction}
    (some_ : transactions ≠ []) : (newEntry sha prevHash numHashes transactions).isSome ↔ numHashes ≠ lowPowerMode := by
  by_cases zero : numHashes = 0
  · have one : newEntry sha prevHash 0 transactions = newEntry sha prevHash 1 transactions := by
      unfold newEntry
      simp only [ne_eq, some_, not_false_eq_true, and_true, if_true]
      rfl
    have least : (1 : UInt64) ≤ 1 := UInt64.le_refl 1
    rw [zero, one, newEntry_data sha prevHash least some_]
    exact iff_of_true rfl (by decide)
  · have positive : 1 ≤ numHashes := by
      rw [UInt64.le_iff_toNat_le]
      exact Nat.pos_of_ne_zero fun zero' => zero (UInt64.toNat_inj.mp zero')
    rw [newEntry_data sha prevHash positive some_]
    by_cases low : numHashes = lowPowerMode
    · rw [if_pos low]
      exact iff_of_false Bool.false_ne_true (not_not.mpr low)
    · rw [if_neg low]
      exact iff_of_true rfl low

namespace SlotState

variable (sha : Sha256) (state : SlotState)

theorem tickEntries_isSome (count : Nat) (startHash : B256) : (state.tickEntries sha count startHash).isSome := by
  induction count generalizing startHash with
  | zero => rfl
  | succ count ih =>
      obtain ⟨entry, made⟩ := Option.isSome_iff_exists.mp (newEntry_tick_isSome sha startHash state.hashesPerTick)
      obtain ⟨entries, later⟩ := Option.isSome_iff_exists.mp (ih entry.hash)
      rw [tickEntries, made, Option.bind_eq_bind, Option.bind_some, later]
      rfl

theorem completeEntries_returns (dataEntries : List BlockEntry) : Outcome.Returns (state.completeEntries sha dataEntries) := by
  unfold completeEntries
  split
  · trivial
  · rename_i lastEntry last
    obtain ⟨ticks, made⟩ := Option.isSome_iff_exists.mp (state.tickEntries_isSome sha
      (state.ticksPerSlot.toNat - (dataEntries.filter BlockEntry.isTick).length) lastEntry.hash)
    simp only [made]
    trivial

def Records (startHash : Option B256) : Prop :=
  (startHash <|> state.blockhashQueue.lastHash).isSome ∧ state.hashesPerTick ≠ lowPowerMode

theorem transactionsToEntry_isSome_iff {transactions : List VersionedTransaction} (some_ : transactions ≠ [])
    (startHash : Option B256) : (state.transactionsToEntry sha transactions startHash).isSome ↔ state.Records startHash := by
  unfold transactionsToEntry Records
  cases startHash <|> state.blockhashQueue.lastHash with
  | none => exact iff_of_false Bool.false_ne_true fun both => Bool.false_ne_true both.1
  | some hash =>
      rw [Option.bind_eq_bind, Option.bind_some, newEntry_data_isSome_iff sha hash state.hashesPerTick some_]
      exact ⟨fun fits => ⟨rfl, fits⟩, And.right⟩

theorem batchesToDataEntries_isSome_iff {batches : List (List VersionedTransaction)} (full : ∀ batch ∈ batches, batch ≠ [])
    (startHash : Option B256) :
    (state.batchesToDataEntries sha startHash batches).isSome ↔ batches = [] ∨ state.Records startHash := by
  induction batches generalizing startHash with
  | nil => exact iff_of_true rfl (.inl rfl)
  | cons batch batches ih =>
      have first := state.transactionsToEntry_isSome_iff sha (full batch List.mem_cons_self) startHash
      rw [batchesToDataEntries, if_neg (full batch List.mem_cons_self)]
      cases made : state.transactionsToEntry sha batch startHash with
      | none =>
          rw [made] at first
          refine iff_of_false Bool.false_ne_true ?_
          rintro (nothing | records)
          · cases nothing
          · exact Bool.false_ne_true (first.mpr records)
      | some entry =>
          rw [made] at first
          have records := first.mp rfl
          obtain ⟨entries, later⟩ := Option.isSome_iff_exists.mp
            ((ih (fun other member => full other (List.mem_cons_of_mem batch member)) (some entry.hash)).mpr
              (.inr ⟨rfl, records.2⟩))
          rw [Option.bind_eq_bind, Option.bind_some, later]
          exact iff_of_true rfl (.inr records)

end SlotState

/-! ## Building a block -/

def batchesOf (txs : List L2Transaction) : List (List VersionedTransaction) :=
  flush [] ((segments txs).1.map L2Transaction.transaction) ++ (segments txs).2.map (·.map L2Transaction.transaction)

theorem L2Block.toRaw_eq {txSize : Nat} {block : L2Block} (announces : Announces txSize block.transactions) :
    block.toRaw txSize = some ⟨batchesOf block.transactions⟩ := by
  rw [L2Block.toRaw, gather_eq_some announces]
  rfl

theorem batchesOf_ne_nil (txs : List L2Transaction) : ∀ batch ∈ batchesOf txs, batch ≠ [] := by
  intro batch member
  rcases List.mem_append.mp member with lead | later
  · unfold flush at lead
    split at lead
    · cases lead
    · rename_i some_
      rw [List.nil_append, List.mem_singleton] at lead
      rw [lead]
      exact some_
  · obtain ⟨part, inside, rfl⟩ := List.mem_map.mp later
    obtain ⟨length, tx, rest, rfl, -⟩ := (segments_bodies txs).2 part inside
    exact List.cons_ne_nil _ _

theorem batchesOf_eq_nil_iff (txs : List L2Transaction) : batchesOf txs = [] ↔ txs = [] := by
  constructor
  · intro none_
    obtain ⟨lead, later⟩ := List.append_eq_nil_iff.mp none_
    have join := segments_join txs
    rw [List.map_eq_nil_iff.mp later] at join
    unfold flush at lead
    split at lead
    · rename_i empty
      rw [List.map_eq_nil_iff.mp empty] at join
      exact join.symm
    · cases lead
  · rintro rfl
    rfl

section

variable (sha : Sha256) (log2Raw : Nat → Nat) (txSize : Nat) (state : SlotState)

/-- No step from the transactions of payload attributes to the entries of their block panics. -/
def NeverPanics (deserialize : Deserialize) (transactions : Option (List (List UInt8))) : Prop :=
  ∀ block, convertBlock deserialize transactions = .ok block →
    ∃ rawBlock, block.toRaw txSize = some rawBlock ∧
      (∀ batch ∈ rawBlock.batches, (MerkleTree.build sha log2Raw (signatures batch)).isSome) ∧
      ∃ dataEntries, state.batchesToDataEntries sha none rawBlock.batches = some dataEntries ∧
        Outcome.Returns (state.completeEntries sha dataEntries)

omit sha log2Raw txSize state in
theorem convertBlock_eq_ok {deserialize : Deserialize} {transactions : Option (List (List UInt8))} {block : L2Block} :
    convertBlock deserialize transactions = .ok block ↔ (transactions.getD []).mapM deserialize = .ok block.transactions := by
  unfold convertBlock
  rw [bind_eq_ok]
  constructor
  · rintro ⟨txs, read, same⟩
    cases same
    exact mapM_mapError_eq_ok.mp read
  · intro read
    exact ⟨block.transactions, mapM_mapError_eq_ok.mpr read, rfl⟩

/-- The lengths that heads announce are requested before any check. -/
theorem neverPanics_iff (deserialize : Deserialize) (transactions : Option (List (List UInt8))) :
    NeverPanics sha log2Raw txSize state deserialize transactions ↔
      ∀ txs, (transactions.getD []).mapM deserialize = .ok txs →
        Announces txSize txs ∧
        (∀ batch ∈ batchesOf txs, Allocates 32 (MerkleTree.calculateVecCapacity log2Raw (signatures batch).length)) ∧
        (txs = [] ∨ (state.blockhashQueue.lastHash.isSome ∧ state.hashesPerTick ≠ lowPowerMode)) := by
  have built (batch : List VersionedTransaction) : (MerkleTree.build sha log2Raw (signatures batch)).isSome ↔
      Allocates 32 (MerkleTree.calculateVecCapacity log2Raw (signatures batch).length) := by
    rw [MerkleTree.build_eq]
    split
    · rename_i fits
      exact iff_of_true rfl fits
    · rename_i large
      exact iff_of_false Bool.false_ne_true large
  constructor
  · intro never txs decoded
    obtain ⟨rawBlock, converts, trees, dataEntries, entries, -⟩ := never ⟨txs⟩ (convertBlock_eq_ok.mpr decoded)
    have announces : Announces txSize txs := (L2Block.toRaw_isSome_iff txSize ⟨txs⟩).mp (by rw [converts]; rfl)
    rw [L2Block.toRaw_eq announces] at converts
    cases converts
    refine ⟨announces, fun batch member => (built batch).mp (trees batch member), ?_⟩
    have some_ := (state.batchesToDataEntries_isSome_iff sha (batchesOf_ne_nil txs) none).mp (by rw [entries]; rfl)
    exact some_.imp (batchesOf_eq_nil_iff txs).mp id
  · intro condition block converts
    obtain ⟨announces, trees, records⟩ := condition block.transactions (convertBlock_eq_ok.mp converts)
    obtain ⟨dataEntries, entries⟩ := Option.isSome_iff_exists.mp
      ((state.batchesToDataEntries_isSome_iff sha (batchesOf_ne_nil block.transactions) none).mpr
        (records.imp (batchesOf_eq_nil_iff block.transactions).mpr id))
    exact ⟨_, L2Block.toRaw_eq announces, fun batch member => (built batch).mpr (trees batch member), dataEntries, entries,
      state.completeEntries_returns sha dataEntries⟩

end

def hugeHeadBytes : List UInt8 := List.replicate 4 0 ++ List.replicate 8 0xFF ++ List.replicate 38 0

def emptyTx : VersionedTransaction := ⟨[], ⟨0, 0, 0, [], .ofNat 0, [], none⟩⟩

def readHugeHead : Deserialize := fun bytes =>
  if bytes = hugeHeadBytes then .ok (.head 0xFFFFFFFFFFFFFFFF emptyTx) else .error "io error: unexpected end of file"

def readySlot : SlotState := ⟨64, 0, 5000, ⟨1, some (.ofNat 7), ∅, 300⟩, none, []⟩

theorem huge_head_panics :
    convertBlock readHugeHead (some [hugeHeadBytes]) = .ok ⟨[.head 0xFFFFFFFFFFFFFFFF emptyTx]⟩ ∧
      L2Block.toRaw 136 ⟨[.head 0xFFFFFFFFFFFFFFFF emptyTx]⟩ = none ∧
      ¬ NeverPanics (fun _ => .ofNat 0) Nat.log2 136 readySlot readHugeHead (some [hugeHeadBytes]) := by
  have decoded : convertBlock readHugeHead (some [hugeHeadBytes]) = .ok ⟨[.head 0xFFFFFFFFFFFFFFFF emptyTx]⟩ := rfl
  have stops : L2Block.toRaw 136 ⟨[.head 0xFFFFFFFFFFFFFFFF emptyTx]⟩ = none := by decide
  refine ⟨decoded, stops, fun never => ?_⟩
  obtain ⟨rawBlock, converts, -⟩ := never _ decoded
  rw [stops] at converts
  cases converts

end KonaSoon.Svm
