import KonaSoon.Lib.KeyedMap

namespace KonaSoon.Lib

variable {κ β : Type} [LinearOrder κ]

structure OrderedMap (κ β : Type) [LinearOrder κ] where
  entries : List (κ × β)
  sorted : (entries.map Prod.fst).Pairwise (· < ·)

namespace OrderedMap

def insertEntry (key : κ) (value : β) : List (κ × β) → List (κ × β)
  | [] => [(key, value)]
  | (k, v) :: rest =>
      if key < k then (key, value) :: (k, v) :: rest
      else if key = k then (key, value) :: rest
      else (k, v) :: insertEntry key value rest

theorem mem_insertEntry_keys {key k : κ} {value : β} {entries : List (κ × β)}
    (member : k ∈ (insertEntry key value entries).map Prod.fst) : k = key ∨ k ∈ entries.map Prod.fst := by
  induction entries with
  | nil => simpa [insertEntry] using member
  | cons entry rest ih =>
      unfold insertEntry at member
      split at member
      · simpa using member
      · split at member
        · rename_i same
          simp only [List.map_cons, List.mem_cons] at member ⊢
          tauto
        · simp only [List.map_cons, List.mem_cons] at member ⊢
          rcases member with here | later
          · exact .inr (.inl here)
          · rcases ih later with here | inside
            · exact .inl here
            · exact .inr (.inr inside)

theorem insertEntry_sorted (key : κ) (value : β) {entries : List (κ × β)}
    (sorted : (entries.map Prod.fst).Pairwise (· < ·)) :
    ((insertEntry key value entries).map Prod.fst).Pairwise (· < ·) := by
  induction entries with
  | nil => simp [insertEntry]
  | cons entry rest ih =>
      obtain ⟨first, restSorted⟩ := List.pairwise_cons.mp sorted
      unfold insertEntry
      split
      · rename_i before
        refine List.pairwise_cons.mpr ⟨fun k member => ?_, sorted⟩
        rcases List.mem_cons.mp member with rfl | later
        · exact before
        · exact before.trans (first k later)
      · split
        · rename_i same
          refine List.pairwise_cons.mpr ⟨fun k member => ?_, restSorted⟩
          exact same ▸ first k member
        · rename_i notBefore differ
          have after : entry.1 < key := lt_of_le_of_ne (not_lt.mp notBefore) (Ne.symm differ)
          refine List.pairwise_cons.mpr ⟨fun k member => ?_, ih restSorted⟩
          rcases mem_insertEntry_keys member with rfl | later
          · exact after
          · exact first k later

def empty : OrderedMap κ β := ⟨[], .nil⟩

def insert (m : OrderedMap κ β) (key : κ) (value : β) : OrderedMap κ β :=
  ⟨insertEntry key value m.entries, insertEntry_sorted key value m.sorted⟩

def get (m : OrderedMap κ β) (key : κ) : Option β := m.entries.lookup key

theorem lookup_cons_ite (key k : κ) (v : β) (rest : List (κ × β)) :
    ((k, v) :: rest).lookup key = if key = k then some v else rest.lookup key := by
  by_cases same : key = k
  · simp [same]
  · have notEqual : (key == k) = false := by simpa using same
    rw [List.lookup_cons, notEqual, if_neg same]

theorem lookup_insertEntry (key k : κ) (value : β) (entries : List (κ × β)) :
    (insertEntry key value entries).lookup k = if k = key then some value else entries.lookup k := by
  induction entries with
  | nil => exact lookup_cons_ite k key value []
  | cons entry rest ih =>
      obtain ⟨k', v'⟩ := entry
      unfold insertEntry
      split
      · exact lookup_cons_ite k key value _
      · split
        · rename_i same'
          subst same'
          by_cases same : k = key <;> simp [lookup_cons_ite, same]
        · rename_i differ
          rw [lookup_cons_ite, ih, lookup_cons_ite]
          by_cases here : k = k'
          · subst here
            simp [Ne.symm differ]
          · simp [here]

theorem get_insert (m : OrderedMap κ β) (key k : κ) (value : β) :
    (m.insert key value).get k = if k = key then some value else m.get k :=
  lookup_insertEntry key k value m.entries

theorem mem_entries_iff (m : OrderedMap κ β) (key : κ) (value : β) :
    (key, value) ∈ m.entries ↔ m.get key = some value := by
  obtain ⟨entries, sorted⟩ := m
  simp only [get]
  induction entries with
  | nil => simp
  | cons entry rest ih =>
      obtain ⟨k, v⟩ := entry
      obtain ⟨first, restSorted⟩ := List.pairwise_cons.mp sorted
      rw [lookup_cons_ite, List.mem_cons, ih restSorted, Prod.mk.injEq]
      by_cases same : key = k
      · subst same
        have fresh : rest.lookup key ≠ some value := fun found =>
          absurd (first key (List.mem_map_of_mem ((ih restSorted).mpr found))) (lt_irrefl key)
        simp [fresh, eq_comm]
      · simp [same]

theorem keys_nodup (m : OrderedMap κ β) : (m.entries.map Prod.fst).Nodup :=
  m.sorted.imp fun before => before.ne

def keys (m : OrderedMap κ β) : List κ := m.entries.map Prod.fst

def erase (m : OrderedMap κ β) (key : κ) : OrderedMap κ β :=
  ⟨m.entries.filter fun entry => entry.1 ≠ key, m.sorted.sublist (List.filter_sublist.map Prod.fst)⟩

def lastKeyValue (m : OrderedMap κ β) : Option (κ × β) := m.entries.getLast?

def lastUpTo (m : OrderedMap κ β) (bound : κ) : Option (κ × β) :=
  (m.entries.filter fun entry => entry.1 ≤ bound).getLast?

theorem mem_keys_iff (m : OrderedMap κ β) (key : κ) : key ∈ m.keys ↔ ∃ value, m.get key = some value := by
  rw [keys, List.mem_map]
  constructor
  · rintro ⟨⟨key, value⟩, member, rfl⟩
    exact ⟨value, (m.mem_entries_iff key value).mp member⟩
  · rintro ⟨value, here⟩
    exact ⟨(key, value), (m.mem_entries_iff key value).mpr here, rfl⟩

theorem mem_keys_insert (m : OrderedMap κ β) (key k : κ) (value : β) :
    k ∈ (m.insert key value).keys ↔ k = key ∨ k ∈ m.keys := by
  rw [mem_keys_iff, mem_keys_iff, get_insert]
  by_cases same : k = key
  · simp [same]
  · simp [same]

theorem mem_keys_erase (m : OrderedMap κ β) (key k : κ) : k ∈ (m.erase key).keys ↔ k ≠ key ∧ k ∈ m.keys := by
  simp only [keys, erase, List.mem_map, List.mem_filter, decide_eq_true_eq]
  constructor
  · rintro ⟨entry, ⟨member, other⟩, rfl⟩
    exact ⟨other, entry, member, rfl⟩
  · rintro ⟨other, entry, member, rfl⟩
    exact ⟨entry, ⟨member, other⟩, rfl⟩

theorem get_of_get_erase {m : OrderedMap κ β} {key k : κ} {value : β} (here : (m.erase key).get k = some value) :
    m.get k = some value := by
  rw [← mem_entries_iff] at here ⊢
  exact (List.mem_filter.mp here).1

theorem length_insertEntry (key : κ) (value : β) (entries : List (κ × β)) :
    entries.length ≤ (insertEntry key value entries).length ∧
      (insertEntry key value entries).length ≤ entries.length + 1 := by
  induction entries with
  | nil => simp [insertEntry]
  | cons entry rest ih =>
      unfold insertEntry
      split
      · simp
      · split
        · simp
        · rw [List.length_cons, List.length_cons]
          omega

theorem length_insert_le (m : OrderedMap κ β) (key : κ) (value : β) :
    (m.insert key value).entries.length ≤ m.entries.length + 1 := (length_insertEntry key value m.entries).2

theorem le_length_insert (m : OrderedMap κ β) (key : κ) (value : β) :
    m.entries.length ≤ (m.insert key value).entries.length := (length_insertEntry key value m.entries).1

theorem length_erase (m : OrderedMap κ β) (key : κ) : m.entries.length ≤ (m.erase key).entries.length + 1 := by
  have once : m.entries.countP (fun entry => decide (entry.1 = key)) ≤ 1 := by
    have count : m.keys.count key ≤ 1 := List.nodup_iff_count_le_one.mp m.keys_nodup key
    rw [keys, List.count, List.countP_map] at count
    exact Nat.le_trans (Nat.le_of_eq (List.countP_congr fun entry _ => by simp)) count
  have both := List.length_eq_countP_add_countP (fun entry : κ × β => decide (entry.1 = key)) (l := m.entries)
  have kept : (m.erase key).entries.length = m.entries.countP fun entry => decide ¬ decide (entry.1 = key) = true := by
    rw [erase, List.countP_eq_length_filter]
    congr 1
    exact List.filter_congr fun entry _ => by simp
  omega

theorem lastKeyValue_insert (m : OrderedMap κ β) {key : κ} (value : β) (behind : ∀ k ∈ m.keys, k ≤ key) :
    (m.insert key value).lastKeyValue = some (key, value) := by
  obtain ⟨entries, sorted⟩ := m
  simp only [lastKeyValue, insert]
  induction entries with
  | nil => rfl
  | cons entry rest ih =>
      have first : entry.1 ≤ key := behind entry.1 (List.mem_map_of_mem List.mem_cons_self)
      unfold insertEntry
      rw [if_neg (not_lt.mpr first)]
      split
      · rename_i same
        have none_ : rest = [] := by
          rw [List.eq_nil_iff_forall_not_mem]
          intro later member
          have above := (List.pairwise_cons.mp sorted).1 later.1 (List.mem_map_of_mem member)
          have below := behind later.1 (List.mem_map_of_mem (List.mem_cons_of_mem _ member))
          exact absurd (same ▸ above) (not_lt.mpr below)
        rw [none_]
        rfl
      · have last := ih (List.pairwise_cons.mp sorted).2 fun k member => behind k (List.mem_cons_of_mem _ member)
        rw [List.getLast?_cons, last]
        rfl

theorem lastUpTo_eq_some (m : OrderedMap κ β) {key bound : κ} {value : β} (here : m.get key = some value)
    (below : key ≤ bound) (greatest : ∀ k ∈ m.keys, k ≤ bound → k ≤ key) : m.lastUpTo bound = some (key, value) := by
  have member := (m.mem_entries_iff key value).mpr here
  have inside : (key, value) ∈ m.entries.filter fun entry => decide (entry.1 ≤ bound) :=
    List.mem_filter.mpr ⟨member, by simpa using below⟩
  obtain ⟨front, back, split⟩ := List.append_of_mem inside
  have sorted : ((m.entries.filter fun entry => decide (entry.1 ≤ bound)).map Prod.fst).Pairwise (· < ·) :=
    m.sorted.sublist (List.filter_sublist.map Prod.fst)
  have none_ : back = [] := by
    rw [List.eq_nil_iff_forall_not_mem]
    intro later behind
    have within : later ∈ m.entries.filter fun entry => decide (entry.1 ≤ bound) := by
      rw [split]
      exact List.mem_append_right front (List.mem_cons_of_mem _ behind)
    obtain ⟨there, upTo⟩ := List.mem_filter.mp within
    rw [split, List.map_append, List.map_cons, List.pairwise_append] at sorted
    have above := (List.pairwise_cons.mp sorted.2.1).1 later.1 (List.mem_map_of_mem behind)
    exact absurd above (not_lt.mpr (greatest later.1 (List.mem_map_of_mem there) (by simpa using upTo)))
  rw [lastUpTo, split, none_, List.getLast?_concat]

end OrderedMap

end KonaSoon.Lib
