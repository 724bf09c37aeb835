import KonaSoon.Lib.HashMap
import KonaSoon.Mpt.Node

/-!
# The queue of recent blockhashes

`BlockhashQueue` (`svm/src/blockhash_queue.rs`) and the sysvar from which the virtual machine rebuilds it at the
start of every block (`svm/src/sysvar/recent_blockhashes.rs`). Indices stay far below the limit of a 64-bit word.
-/

namespace KonaSoon.Svm
open Lib Mpt

def maxRecentBlockhashes : Nat := 300

def maxProcessingAge : Nat := maxRecentBlockhashes / 2

def maxEntries : Nat := maxProcessingAge

structure HashInfo where
  lamportsPerSignature : UInt64
  hashIndex : Nat
deriving DecidableEq, Repr

structure IterItem where
  hashIndex : Nat
  hash : B256
  lamportsPerSignature : UInt64
deriving DecidableEq, Repr

abbrev BlockhashEntry := B256 × UInt64

structure BlockhashQueue where
  lastHashIndex : Nat
  lastHash : Option B256
  hashes : HashMap B256 HashInfo
  -- Older hashes are dropped.
  maxAge : Nat

namespace BlockhashQueue

def new (maxAge : Nat) : BlockhashQueue := ⟨0, none, ∅, maxAge⟩

def default : BlockhashQueue := new maxRecentBlockhashes

def isHashIndexValid (lastHashIndex maxAge hashIndex : Nat) : Bool := lastHashIndex - hashIndex ≤ maxAge

def getHashInfoIfValid (queue : BlockhashQueue) (hash : B256) (maxAge : Nat) : Option HashInfo :=
  (queue.hashes.lookup hash).filter fun info => isHashIndexValid queue.lastHashIndex maxAge info.hashIndex

def registerHash (queue : BlockhashQueue) (hash : B256) (lamportsPerSignature : UInt64) : BlockhashQueue :=
  let lastHashIndex := queue.lastHashIndex + 1
  let hashes :=
    if queue.maxAge ≤ queue.hashes.entries.length then
      queue.hashes.retain fun _ info => isHashIndexValid lastHashIndex queue.maxAge info.hashIndex
    else queue.hashes
  { queue with
    lastHashIndex
    lastHash := some hash
    hashes := hashes.insert hash ⟨lamportsPerSignature, lastHashIndex⟩ }

def getRecentBlockhashes (queue : BlockhashQueue) : List IterItem :=
  queue.hashes.entries.map fun entry => ⟨entry.2.hashIndex, entry.1, entry.2.lamportsPerSignature⟩

/-- What `update_recent_blockhashes_locked` writes: the newest hashes, the newest first. -/
def toSysvar (queue : BlockhashQueue) : List BlockhashEntry :=
  ((queue.getRecentBlockhashes.mergeSort fun item other => other.hashIndex ≤ item.hashIndex).take maxEntries).map
    fun item => (item.hash, item.lamportsPerSignature)

def indexed : Nat → List BlockhashEntry → List IterItem
  | _, [] => []
  | lastHashIndex, (hash, lamportsPerSignature) :: older =>
      ⟨lastHashIndex, hash, lamportsPerSignature⟩ :: indexed (lastHashIndex - 1) older

def collect (items : List IterItem) : HashMap B256 HashInfo :=
  items.foldl (fun hashes item => hashes.insert item.hash ⟨item.lamportsPerSignature, item.hashIndex⟩) ∅

def ofSysvar (recentBlockhashes : List BlockhashEntry) : BlockhashQueue where
  lastHashIndex := recentBlockhashes.length
  lastHash := recentBlockhashes.head?.map Prod.fst
  hashes := collect (indexed recentBlockhashes.length recentBlockhashes)
  maxAge := maxRecentBlockhashes

/-- The queue at the start of a block (`finish_init`). -/
def atBlockStart (genesisHash : B256) (parentSlot : Nat) (recentBlockhashes : List BlockhashEntry) : BlockhashQueue :=
  if recentBlockhashes = [] ∧ parentSlot = 0 then ofSysvar [(genesisHash, 0)] else ofSysvar recentBlockhashes

def sysvarAfter (genesisHash : B256) (blocks : List BlockhashEntry) : Nat × List BlockhashEntry :=
  blocks.foldl
    (fun (parentSlot, sysvar) (hash, lamports) =>
      (parentSlot + 1, ((atBlockStart genesisHash parentSlot sysvar).registerHash hash lamports).toSysvar))
    (0, [])

def rebuilt (genesisHash : B256) (blocks : List BlockhashEntry) : BlockhashQueue :=
  atBlockStart genesisHash (sysvarAfter genesisHash blocks).1 (sysvarAfter genesisHash blocks).2

def continuous (genesisHash : B256) (blocks : List BlockhashEntry) : BlockhashQueue :=
  ((genesisHash, 0) :: blocks).foldl (fun queue (hash, lamports) => queue.registerHash hash lamports) default

/-! ## What a queue holds -/

theorem mem_indexed {lastHashIndex : Nat} {entries : List BlockhashEntry} {item : IterItem} :
    item ∈ indexed lastHashIndex entries ↔ ∃ age, entries[age]? = some (item.hash, item.lamportsPerSignature) ∧
      item.hashIndex = lastHashIndex - age := by
  induction entries generalizing lastHashIndex with
  | nil => simp [indexed]
  | cons entry older ih =>
      obtain ⟨hash, lamports⟩ := entry
      rw [indexed, List.mem_cons, ih]
      constructor
      · rintro (rfl | ⟨age, found, index⟩)
        · exact ⟨0, rfl, rfl⟩
        · exact ⟨age + 1, found, by omega⟩
      · rintro ⟨age, found, index⟩
        cases age with
        | zero =>
            left
            cases item
            cases found
            cases index
            rfl
        | succ age => exact .inr ⟨age, found, by omega⟩

theorem indexed_hashes (lastHashIndex : Nat) (entries : List BlockhashEntry) :
    (indexed lastHashIndex entries).map IterItem.hash = entries.map Prod.fst := by
  induction entries generalizing lastHashIndex with
  | nil => rfl
  | cons entry older ih => rw [indexed, List.map_cons, List.map_cons, ih]

theorem indexed_take (lastHashIndex : Nat) (entries : List BlockhashEntry) (count : Nat) :
    (indexed lastHashIndex entries).take count = indexed lastHashIndex (entries.take count) := by
  induction entries generalizing lastHashIndex count with
  | nil => simp [indexed]
  | cons entry older ih =>
      cases count with
      | zero => rfl
      | succ count => rw [List.take_succ_cons, indexed, indexed, List.take_succ_cons, ih]

theorem indexed_drop (lastHashIndex : Nat) (entries : List BlockhashEntry) (count : Nat) :
    (indexed lastHashIndex entries).drop count = indexed (lastHashIndex - count) (entries.drop count) := by
  induction count generalizing lastHashIndex entries with
  | zero => rfl
  | succ count ih =>
      cases entries with
      | nil => rfl
      | cons entry older =>
          rw [indexed, List.drop_succ_cons, List.drop_succ_cons, ih, Nat.sub_sub, Nat.add_comm 1]

theorem indexed_entries (lastHashIndex : Nat) (entries : List BlockhashEntry) :
    (indexed lastHashIndex entries).map (fun item => (item.hash, item.lamportsPerSignature)) = entries := by
  induction entries generalizing lastHashIndex with
  | nil => rfl
  | cons entry older ih => rw [indexed, List.map_cons, ih]

theorem indexed_sorted {lastHashIndex : Nat} {entries : List BlockhashEntry} (fits : entries.length ≤ lastHashIndex) :
    (indexed lastHashIndex entries).Pairwise fun item other => other.hashIndex < item.hashIndex := by
  induction entries generalizing lastHashIndex with
  | nil => exact .nil
  | cons entry older ih =>
      rw [List.length_cons] at fits
      refine .cons ?_ (ih (by omega))
      intro item mem
      obtain ⟨age, found, index⟩ := mem_indexed.mp mem
      have within := List.getElem?_eq_some_iff.mp found
      dsimp only
      omega

theorem filter_indexed {lastHashIndex : Nat} {entries : List BlockhashEntry} (fits : entries.length ≤ lastHashIndex)
    (maxAge : Nat) :
    (indexed lastHashIndex entries).filter (fun item => isHashIndexValid (lastHashIndex + 1) maxAge item.hashIndex) =
      indexed lastHashIndex (entries.take maxAge) := by
  rw [← indexed_take, ← List.take_append_drop maxAge (indexed lastHashIndex entries), List.filter_append,
    List.take_append_drop]
  have young : ((indexed lastHashIndex entries).take maxAge).filter
      (fun item => isHashIndexValid (lastHashIndex + 1) maxAge item.hashIndex) =
      (indexed lastHashIndex entries).take maxAge := by
    rw [List.filter_eq_self, indexed_take]
    intro item mem
    obtain ⟨age, at_, index⟩ := mem_indexed.mp mem
    have within := (List.getElem?_eq_some_iff.mp at_).1
    rw [List.length_take] at within
    apply decide_eq_true
    omega
  have old : ((indexed lastHashIndex entries).drop maxAge).filter
      (fun item => isHashIndexValid (lastHashIndex + 1) maxAge item.hashIndex) = [] := by
    rw [List.filter_eq_nil_iff, indexed_drop]
    intro item mem valid
    obtain ⟨age, at_, index⟩ := mem_indexed.mp mem
    have within := (List.getElem?_eq_some_iff.mp at_).1
    rw [List.length_drop] at within
    have valid := of_decide_eq_true valid
    omega
  rw [young, old, List.append_nil]

structure Holds (queue : BlockhashQueue) (entries : List BlockhashEntry) : Prop where
  items : queue.getRecentBlockhashes.Perm (indexed queue.lastHashIndex entries)
  distinct : (entries.map Prod.fst).Nodup
  fits : entries.length ≤ queue.lastHashIndex
  last : queue.lastHash = entries.head?.map Prod.fst

namespace Holds

variable {queue : BlockhashQueue} {entries : List BlockhashEntry}

theorem lookup (holds : Holds queue entries) (hash : B256) (info : HashInfo) :
    queue.hashes.lookup hash = some info ↔ ∃ age, entries[age]? = some (hash, info.lamportsPerSignature) ∧
      info.hashIndex = queue.lastHashIndex - age := by
  have mem : queue.hashes.lookup hash = some info ↔
      (⟨info.hashIndex, hash, info.lamportsPerSignature⟩ : IterItem) ∈ queue.getRecentBlockhashes := by
    rw [getRecentBlockhashes, List.mem_map]
    constructor
    · intro found
      exact ⟨⟨hash, info⟩, AList.mem_lookup_iff.mp found, rfl⟩
    · rintro ⟨⟨hash', info'⟩, found, same⟩
      cases info'
      cases same
      exact AList.mem_lookup_iff.mpr found
  rw [mem, holds.items.mem_iff, mem_indexed]

theorem getHashInfoIfValid (holds : Holds queue entries) (hash : B256) (lamports : UInt64) (maxAge : Nat) :
    (queue.getHashInfoIfValid hash maxAge).map HashInfo.lamportsPerSignature = some lamports ↔
      ∃ age, age ≤ maxAge ∧ entries[age]? = some (hash, lamports) := by
  unfold BlockhashQueue.getHashInfoIfValid
  constructor
  · intro found
    obtain ⟨info, valid, rfl⟩ := Option.map_eq_some_iff.mp found
    obtain ⟨here, young⟩ := Option.filter_eq_some_iff.mp valid
    obtain ⟨age, at_, index⟩ := (holds.lookup hash info).mp here
    have within := (List.getElem?_eq_some_iff.mp at_).1
    have fits := holds.fits
    have young := of_decide_eq_true young
    exact ⟨age, by omega, at_⟩
  · rintro ⟨age, young, at_⟩
    have within := (List.getElem?_eq_some_iff.mp at_).1
    have fits := holds.fits
    refine Option.map_eq_some_iff.mpr ⟨⟨lamports, queue.lastHashIndex - age⟩, Option.filter_eq_some_iff.mpr ⟨?_, ?_⟩, rfl⟩
    · exact (holds.lookup hash _).mpr ⟨age, at_, rfl⟩
    · apply decide_eq_true
      dsimp only
      omega

theorem toSysvar (holds : Holds queue entries) : queue.toSysvar = entries.take maxEntries := by
  have sorted : queue.getRecentBlockhashes.mergeSort (fun item other => other.hashIndex ≤ item.hashIndex) =
      indexed queue.lastHashIndex entries := by
    refine List.Perm.eq_of_pairwise ?_ (List.pairwise_mergeSort ?_ ?_ _)
      ((indexed_sorted holds.fits).imp fun before => decide_eq_true (Nat.le_of_lt before))
      ((List.mergeSort_perm _ _).trans holds.items)
    · intro item other memItem memOther before after
      have before := of_decide_eq_true before
      have after := of_decide_eq_true after
      obtain ⟨age, at_, index⟩ := mem_indexed.mp (holds.items.mem_iff.mp (List.mem_mergeSort.mp memItem))
      obtain ⟨age', at_', index'⟩ := mem_indexed.mp memOther
      have within := (List.getElem?_eq_some_iff.mp at_).1
      have within' := (List.getElem?_eq_some_iff.mp at_').1
      have fits := holds.fits
      obtain rfl : age = age' := by omega
      rw [at_] at at_'
      cases item
      cases other
      cases at_'
      congr 1
      exact index.trans index'.symm
    · intro item other third before after
      exact decide_eq_true (Nat.le_trans (of_decide_eq_true after) (of_decide_eq_true before))
    · intro item other
      rw [Bool.or_eq_true]
      rcases Nat.le_total other.hashIndex item.hashIndex with before | after
      · exact .inl (decide_eq_true before)
      · exact .inr (decide_eq_true after)
  rw [BlockhashQueue.toSysvar, sorted, indexed_take, indexed_entries]

theorem lookup_eq_none (holds : Holds queue entries) {hash : B256} (absent : hash ∉ entries.map Prod.fst) :
    hash ∉ queue.hashes := by
  intro member
  obtain ⟨info, found⟩ := Option.isSome_iff_exists.mp (AList.lookup_isSome.mpr member)
  obtain ⟨age, at_, -⟩ := (holds.lookup hash info).mp found
  exact absent (List.mem_map.mpr ⟨_, List.mem_of_getElem? at_, rfl⟩)

theorem retain (holds : Holds queue entries) (maxAge : Nat) :
    Holds { queue with
      hashes := queue.hashes.retain fun _ info => isHashIndexValid (queue.lastHashIndex + 1) maxAge info.hashIndex
      lastHash := (entries.take maxAge).head?.map Prod.fst } (entries.take maxAge) where
  items := by
    have kept : (indexed queue.lastHashIndex entries).filter
        (fun item => isHashIndexValid (queue.lastHashIndex + 1) maxAge item.hashIndex) =
        indexed queue.lastHashIndex (entries.take maxAge) := filter_indexed holds.fits maxAge
    rw [← kept]
    have perm := holds.items.filter fun item => isHashIndexValid (queue.lastHashIndex + 1) maxAge item.hashIndex
    rw [getRecentBlockhashes, List.filter_map] at perm
    exact perm
  distinct := by
    rw [List.map_take]
    exact holds.distinct.sublist (List.take_sublist _ _)
  fits := by
    rw [List.length_take]
    exact Nat.le_trans (Nat.min_le_right _ _) holds.fits
  last := rfl

theorem insert (holds : Holds queue entries) {hash : B256} (fresh : hash ∉ entries.map Prod.fst) (lamports : UInt64) :
    Holds { queue with
      lastHashIndex := queue.lastHashIndex + 1
      lastHash := some hash
      hashes := queue.hashes.insert hash ⟨lamports, queue.lastHashIndex + 1⟩ } ((hash, lamports) :: entries) where
  items := by
    have absent := holds.lookup_eq_none fresh
    rw [getRecentBlockhashes, AList.entries_insert_of_notMem absent, List.map_cons]
    exact holds.items.cons _
  distinct := List.nodup_cons.mpr ⟨fresh, holds.distinct⟩
  fits := Nat.succ_le_succ holds.fits
  last := rfl

theorem registerHash (holds : Holds queue entries) {hash : B256} (fresh : hash ∉ entries.map Prod.fst)
    (lamports : UInt64) : Holds (queue.registerHash hash lamports) ((hash, lamports) ::
      if queue.maxAge ≤ entries.length then entries.take queue.maxAge else entries) := by
  have count : queue.hashes.entries.length = entries.length := by
    have same := holds.items.length_eq
    rw [getRecentBlockhashes, List.length_map] at same
    rw [same, ← List.length_map Prod.fst, ← indexed_hashes queue.lastHashIndex, List.length_map]
  unfold BlockhashQueue.registerHash
  rw [count]
  by_cases full : queue.maxAge ≤ entries.length
  · simp only [if_pos full]
    refine (holds.retain queue.maxAge).insert (fun member => fresh ?_) lamports
    rw [List.map_take] at member
    exact List.mem_of_mem_take member
  · simp only [if_neg full]
    exact holds.insert fresh lamports

end Holds

theorem collect_perm (items : List IterItem) (hashes : HashMap B256 HashInfo)
    (distinct : (items.map IterItem.hash).Nodup) (fresh : ∀ item ∈ items, item.hash ∉ hashes) :
    ((items.foldl (fun hashes item => hashes.insert item.hash ⟨item.lamportsPerSignature, item.hashIndex⟩)
      hashes).entries.map fun entry =>
        (⟨entry.2.hashIndex, entry.1, entry.2.lamportsPerSignature⟩ : IterItem)).Perm
      (items ++ hashes.entries.map fun entry => ⟨entry.2.hashIndex, entry.1, entry.2.lamportsPerSignature⟩) := by
  induction items generalizing hashes with
  | nil => exact .refl _
  | cons item items ih =>
      obtain ⟨absent, distinct⟩ := List.nodup_cons.mp distinct
      rw [List.foldl_cons]
      refine (ih _ distinct ?_).trans ?_
      · intro other mem inside
        rcases (AList.mem_insert hashes).mp inside with same | before
        · exact absent (same ▸ List.mem_map_of_mem mem)
        · exact fresh other (List.mem_cons_of_mem _ mem) before
      · rw [AList.entries_insert_of_notMem (fresh item List.mem_cons_self), List.map_cons]
        exact List.perm_middle

theorem ofSysvar_holds {recentBlockhashes : List BlockhashEntry} (distinct : (recentBlockhashes.map Prod.fst).Nodup) :
    Holds (ofSysvar recentBlockhashes) recentBlockhashes where
  items := by
    have perm := collect_perm (indexed recentBlockhashes.length recentBlockhashes) ∅
      (by rw [indexed_hashes]; exact distinct) (fun item _ inside => AList.notMem_empty _ inside)
    rw [AList.empty_entries, List.map_nil, List.append_nil] at perm
    exact perm
  distinct := distinct
  fits := Nat.le_refl _
  last := rfl

/-! ## Runs -/

def history (genesisHash : B256) (blocks : List BlockhashEntry) : List BlockhashEntry :=
  ((genesisHash, 0) :: blocks).reverse

theorem history_concat (genesisHash : B256) (blocks : List BlockhashEntry) (block : BlockhashEntry) :
    history genesisHash (blocks ++ [block]) = block :: history genesisHash blocks := by
  rw [history, history, ← List.cons_append, List.reverse_concat]

def Distinct (genesisHash : B256) (blocks : List BlockhashEntry) : Prop :=
  (((genesisHash, 0) :: blocks).map Prod.fst).Nodup

theorem Distinct.history {genesisHash : B256} {blocks : List BlockhashEntry} (distinct : Distinct genesisHash blocks) :
    ((history genesisHash blocks).map Prod.fst).Nodup := by
  rw [BlockhashQueue.history, List.map_reverse]
  exact List.nodup_reverse.mpr distinct

theorem Distinct.init {genesisHash : B256} {blocks : List BlockhashEntry} {block : BlockhashEntry}
    (distinct : Distinct genesisHash (blocks ++ [block])) :
    Distinct genesisHash blocks ∧ block.1 ∉ (BlockhashQueue.history genesisHash blocks).map Prod.fst := by
  have all := distinct.history
  rw [history_concat, List.map_cons] at all
  obtain ⟨fresh, rest⟩ := List.nodup_cons.mp all
  refine ⟨?_, fresh⟩
  rw [BlockhashQueue.history, List.map_reverse] at rest
  exact List.nodup_reverse.mp rest

theorem continuous_holds {genesisHash : B256} {blocks : List BlockhashEntry} (distinct : Distinct genesisHash blocks) :
    ∃ entries, Holds (continuous genesisHash blocks) entries ∧
      (continuous genesisHash blocks).maxAge = maxRecentBlockhashes ∧
      entries <+: history genesisHash blocks ∧
      (entries = history genesisHash blocks ∨ maxRecentBlockhashes ≤ entries.length) := by
  induction blocks using List.reverseRecOn with
  | nil =>
      refine ⟨[(genesisHash, 0)], ?_, rfl, List.prefix_rfl, .inl rfl⟩
      have empty : Holds default [] := ⟨.refl _, .nil, Nat.le_refl _, rfl⟩
      exact empty.registerHash List.not_mem_nil 0
  | append_singleton blocks block ih =>
      obtain ⟨distinct, fresh⟩ := distinct.init
      obtain ⟨entries, holds, maxAge, newest, enough⟩ := ih distinct
      have step : continuous genesisHash (blocks ++ [block]) =
          (continuous genesisHash blocks).registerHash block.1 block.2 := by
        rw [continuous, ← List.cons_append, List.foldl_concat]
        rfl
      have fresh' : block.1 ∉ entries.map Prod.fst := fun member => fresh ((newest.map Prod.fst).subset member)
      have held := holds.registerHash fresh' block.2
      rw [maxAge] at held
      rw [step, history_concat]
      refine ⟨_, held, maxAge, ?_, ?_⟩
      · split
        · exact List.cons_prefix_cons.mpr ⟨rfl, (List.take_prefix _ _).trans newest⟩
        · exact List.cons_prefix_cons.mpr ⟨rfl, newest⟩
      · split
        · rename_i full
          right
          rw [List.length_cons, List.length_take, Nat.min_eq_left full]
          exact Nat.le_succ _
        · rename_i room
          rcases enough with all | full
          · exact .inl (by rw [all])
          · exact absurd full room

theorem rebuilt_holds {genesisHash : B256} {blocks : List BlockhashEntry} (distinct : Distinct genesisHash blocks) :
    Holds (rebuilt genesisHash blocks) ((history genesisHash blocks).take maxEntries) ∧
      (rebuilt genesisHash blocks).maxAge = maxRecentBlockhashes := by
  induction blocks using List.reverseRecOn with
  | nil => exact ⟨ofSysvar_holds (List.nodup_singleton genesisHash), rfl⟩
  | append_singleton blocks block ih =>
      have distinct' := distinct
      obtain ⟨distinct, fresh⟩ := distinct.init
      obtain ⟨holds, maxAge⟩ := ih distinct
      have fresh' : block.1 ∉ ((history genesisHash blocks).take maxEntries).map Prod.fst := by
        rw [List.map_take]
        exact fun member => fresh (List.mem_of_mem_take member)
      have room : ¬ maxRecentBlockhashes ≤ ((history genesisHash blocks).take maxEntries).length := by
        rw [List.length_take]
        have : maxEntries < maxRecentBlockhashes := by decide
        omega
      have held := holds.registerHash fresh' block.2
      rw [maxAge, if_neg room] at held
      have sysvar : (sysvarAfter genesisHash (blocks ++ [block])).2 =
          (history genesisHash (blocks ++ [block])).take maxEntries := by
        have step : (sysvarAfter genesisHash (blocks ++ [block])).2 =
            ((rebuilt genesisHash blocks).registerHash block.1 block.2).toSysvar := by
          rw [sysvarAfter, List.foldl_concat]
          rfl
        rw [step, held.toSysvar, history_concat]
        change (block :: List.take (149 + 1) _).take (149 + 1) = (block :: _).take (149 + 1)
        rw [List.take_succ_cons, List.take_succ_cons, List.take_take, Nat.min_eq_left (Nat.le_succ _)]
      have nonempty : (history genesisHash (blocks ++ [block])).take maxEntries ≠ [] := by
        rw [history_concat]
        exact List.cons_ne_nil _ _
      have start : rebuilt genesisHash (blocks ++ [block]) =
          ofSysvar ((history genesisHash (blocks ++ [block])).take maxEntries) := by
        rw [rebuilt, sysvar, atBlockStart, if_neg (fun genesis => nonempty genesis.1)]
      rw [start]
      refine ⟨ofSysvar_holds ?_, rfl⟩
      rw [List.map_take]
      exact distinct'.history.sublist (List.take_sublist _ _)

/-- The same hashes are young enough, with the same fee rates, and the last hash is the same. -/
def Agree (queue other : BlockhashQueue) : Prop :=
  (∀ hash, (queue.getHashInfoIfValid hash maxProcessingAge).map HashInfo.lamportsPerSignature =
    (other.getHashInfoIfValid hash maxProcessingAge).map HashInfo.lamportsPerSignature) ∧
  queue.lastHash = other.lastHash

theorem Holds.agree {queue other : BlockhashQueue} {entries : List BlockhashEntry} (holds : Holds queue entries)
    (holds' : Holds other entries) : Agree queue other := by
  refine ⟨fun hash => Option.ext fun lamports => ?_, holds.last.trans holds'.last.symm⟩
  rw [holds.getHashInfoIfValid hash lamports, holds'.getHashInfoIfValid hash lamports]

theorem not_agree_of_long {genesisHash : B256} {blocks : List BlockhashEntry} (distinct : Distinct genesisHash blocks)
    (long : maxProcessingAge < (history genesisHash blocks).length) :
    ¬ Agree (rebuilt genesisHash blocks) (continuous genesisHash blocks) := by
  obtain ⟨holds, -⟩ := rebuilt_holds distinct
  obtain ⟨entries, holds', -, ⟨older, split⟩, enough⟩ := continuous_holds distinct
  intro agree
  obtain ⟨oldest, at_⟩ : ∃ entry, (history genesisHash blocks)[maxProcessingAge]? = some entry :=
    ⟨_, List.getElem?_eq_getElem long⟩
  have within : maxProcessingAge < entries.length := by
    rcases enough with all | full
    · exact all ▸ long
    · exact Nat.lt_of_lt_of_le (by decide) full
  have at_' : entries[maxProcessingAge]? = some (oldest.1, oldest.2) := by
    rw [← split, List.getElem?_append_left within] at at_
    exact at_
  have accepted := (holds'.getHashInfoIfValid oldest.1 oldest.2 maxProcessingAge).mpr
    ⟨maxProcessingAge, Nat.le_refl _, at_'⟩
  rw [← agree.1 oldest.1] at accepted
  obtain ⟨age, -, found⟩ := (holds.getHashInfoIfValid oldest.1 oldest.2 maxProcessingAge).mp accepted
  have young := (List.getElem?_eq_some_iff.mp found).1
  rw [List.length_take] at young
  have younger : age < maxEntries := by omega
  rw [List.getElem?_take_of_lt younger] at found
  -- The hash is not also a younger one.
  have same : ((history genesisHash blocks).map Prod.fst)[age]? =
      ((history genesisHash blocks).map Prod.fst)[maxProcessingAge]? := by
    rw [List.getElem?_map, List.getElem?_map, found, at_]
  have equal := (List.getElem?_inj (by rw [List.length_map]; omega) distinct.history).mp same
  exact absurd equal (Nat.ne_of_lt younger)

/-- The queues agree as long as there is no hash that is just as old as allowed. -/
theorem rebuilt_agrees_iff (genesisHash : B256) (blocks : List BlockhashEntry) (distinct : Distinct genesisHash blocks) :
    Agree (rebuilt genesisHash blocks) (continuous genesisHash blocks) ↔
      ((genesisHash, 0) :: blocks).length ≤ maxProcessingAge := by
  have length : (history genesisHash blocks).length = ((genesisHash, (0 : UInt64)) :: blocks).length :=
    List.length_reverse
  rw [← length]
  constructor
  · intro agree
    by_contra long
    exact not_agree_of_long distinct (Nat.lt_of_not_le long) agree
  · intro short
    obtain ⟨holds, -⟩ := rebuilt_holds distinct
    obtain ⟨entries, holds', -, newest, enough⟩ := continuous_holds distinct
    have all : entries = history genesisHash blocks := by
      rcases enough with all | full
      · exact all
      · have := newest.length_le
        have : maxProcessingAge < maxRecentBlockhashes := by decide
        omega
    rw [List.take_of_length_le (show _ ≤ maxEntries from short)] at holds
    exact holds.agree (all ▸ holds')

def numbered (count : Nat) : List BlockhashEntry := (List.range count).map fun n => (B256.ofNat (n + 1), 5000)

theorem ofNat_inj {n m : Nat} (small : n < 256) (small' : m < 256) (same : B256.ofNat n = B256.ofNat m) : n = m := by
  have last := congrArg (fun hash : B256 => hash.1[31]?) same
  simp only [B256.ofNat, List.getElem?_map, List.getElem?_range (show 31 < 32 by decide), Option.map_some,
    Nat.sub_self, Nat.pow_zero, Nat.div_one, Option.some.injEq] at last
  have bytes := congrArg UInt8.toNat last
  rw [UInt8.toNat_ofNat', UInt8.toNat_ofNat'] at bytes
  omega

theorem numbered_distinct {count : Nat} (few : count < 256) : Distinct (.ofNat 0) (numbered count) := by
  have hashes : ((B256.ofNat 0, (0 : UInt64)) :: numbered count).map Prod.fst = (List.range (count + 1)).map B256.ofNat := by
    rw [List.range_succ_eq_map]
    simp only [numbered, List.map_cons, List.map_map]
    rfl
  rw [Distinct, hashes]
  refine List.nodup_range.map_on fun n mem m mem' same => ofNat_inj ?_ ?_ same
  · have := List.mem_range.mp mem
    omega
  · have := List.mem_range.mp mem'
    omega

theorem rebuilt_agrees_two_blocks : Distinct (.ofNat 0) (numbered 2) ∧
    Agree (rebuilt (.ofNat 0) (numbered 2)) (continuous (.ofNat 0) (numbered 2)) :=
  ⟨numbered_distinct (by decide),
    (rebuilt_agrees_iff (.ofNat 0) (numbered 2) (numbered_distinct (by decide))).mpr (by decide)⟩

theorem rebuilt_forgets_genesis : Distinct (.ofNat 0) (numbered 150) ∧
    ¬ Agree (rebuilt (.ofNat 0) (numbered 150)) (continuous (.ofNat 0) (numbered 150)) := by
  refine ⟨numbered_distinct (by decide), not_agree_of_long (numbered_distinct (by decide)) ?_⟩
  rw [history, List.length_reverse, List.length_cons, numbered, List.length_map, List.length_range]
  decide

end BlockhashQueue

end KonaSoon.Svm
