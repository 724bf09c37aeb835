import KonaSoon.Lib.Outcome
import KonaSoon.Preimage.Oracle

/-!
# The caching oracle

`CachingOracle` (`proof/src/caching_oracle.rs`) in front of an oracle reader. The `lru` crate is a
parameter, with what its documentation says of the four operations that are used.
-/

namespace KonaSoon.Preimage
open Lib Mpt

/-! ## The cache -/

structure LruCache (Cache : Type) where
  new : ℕ+ → Cache
  get : Cache → PreimageKey → Option (List UInt8) × Cache
  put : Cache → PreimageKey → List UInt8 → Cache
  clear : Cache → Cache

namespace LruCache

variable {Cache : Type} (lru : LruCache Cache)

def lookup (cache : Cache) (key : PreimageKey) : Option (List UInt8) := (lru.get cache key).1

/-- A lookup changes only which entry goes first; a new entry may push out one of another key. -/
structure Lawful : Prop where
  new : ∀ capacity key, lru.lookup (lru.new capacity) key = none
  get : ∀ cache key other, lru.lookup (lru.get cache key).2 other = lru.lookup cache other
  put_self : ∀ cache key value, lru.lookup (lru.put cache key value) key = some value
  put_other : ∀ cache key value other, other ≠ key →
    lru.lookup (lru.put cache key value) other = lru.lookup cache other ∨
      lru.lookup (lru.put cache key value) other = none
  clear : ∀ cache key, lru.lookup (lru.clear cache) key = none

end LruCache

/-! ## The oracle -/

/-- `PreimageOracleClient`. -/
structure OracleClient where
  get : PreimageKey → PreimageOracleResult (List UInt8)
  getExact : PreimageKey → List UInt8 → PreimageOracleResult Unit × List UInt8

def OracleClient.serving (f : Preimages) : OracleClient where
  get key := .ok (f key).1
  getExact key buf :=
    if buf.length = (f key).1.length then (.ok (), (f key).1)
    else (.error (.bufferLengthMismatch (f key).1.length buf.length), buf)

namespace CachingOracle

variable {Cache : Type} (lru : LruCache Cache) (oracleReader : OracleClient)

def new (cacheSize : Nat) : Outcome Empty Cache :=
  if positive : 0 < cacheSize then .ok (lru.new ⟨cacheSize, positive⟩) else .error .panic

def flush (cache : Cache) : Cache := lru.clear cache

def get (cache : Cache) (key : PreimageKey) : Cache × PreimageOracleResult (List UInt8) :=
  match lru.get cache key with
  | (some value, cache) => (cache, .ok value)
  | (none, cache) =>
      match oracleReader.get key with
      | .ok value => (lru.put cache key value, .ok value)
      | .error e => (cache, .error e)

/-- `copy_from_slice` panics unless the two lengths are the same. -/
def getExact (cache : Cache) (key : PreimageKey) (buf : List UInt8) :
    Cache × Outcome PreimageOracleError Unit × List UInt8 :=
  match lru.get cache key with
  | (some value, cache) =>
      if buf.length = value.length then (cache, .ok (), value) else (cache, .error .panic, buf)
  | (none, cache) =>
      match oracleReader.getExact key buf with
      | (.ok (), buf) => (lru.put cache key buf, .ok (), buf)
      | (.error e, buf) => (cache, .error (.error e), buf)

end CachingOracle

/-! ## Runs -/

inductive Operation where
  | call (call : Call)
  | flush
deriving DecidableEq, Repr

inductive Reply where
  | answered (answer : Answer)
  | panicked
  | flushed

def Reply.ofGetExact : Outcome PreimageOracleError Unit × List UInt8 → Reply
  | (.ok (), buf) => .answered (.filled (.ok ()) buf)
  | (.error (.error e), buf) => .answered (.filled (.error e) buf)
  | (.error _, _) => .panicked

def Operation.expected (f : Preimages) : Operation → Reply
  | .call request => .answered (request.expected f)
  | .flush => .flushed

variable {Cache : Type} {lru : LruCache Cache} {f : Preimages} {cache : Cache}

def cachedStep (lru : LruCache Cache) (oracleReader : OracleClient) (cache : Cache) : Operation → Cache × Reply
  | .call (.get key) =>
      let (cache, result) := CachingOracle.get lru oracleReader cache key
      (cache, .answered (.got result))
  | .call (.getExact key buf) =>
      let (cache, result) := CachingOracle.getExact lru oracleReader cache key buf
      (cache, .ofGetExact result)
  | .flush => (CachingOracle.flush lru cache, .flushed)

/-- A `get_exact` finds its key in the cache only with a buffer of the length of the preimage. -/
def FitsCached (lru : LruCache Cache) (f : Preimages) (cache : Cache) : Operation → Prop
  | .call (.getExact key buf) => lru.lookup cache key = none ∨ buf.length = (f key).1.length
  | _ => True

def Consistent (lru : LruCache Cache) (f : Preimages) (cache : Cache) : Prop :=
  ∀ key value, lru.lookup cache key = some value → value = (f key).1

namespace Consistent

variable (lawful : lru.Lawful)
include lawful

theorem after_get (consistent : Consistent lru f cache) (key : PreimageKey) : Consistent lru f (lru.get cache key).2 := by
  intro other value here
  rw [lawful.get] at here
  exact consistent other value here

theorem after_put (consistent : Consistent lru f cache) (key : PreimageKey) :
    Consistent lru f (lru.put cache key (f key).1) := by
  intro other value here
  by_cases same : other = key
  · subst same
    rw [lawful.put_self] at here
    exact (Option.some.inj here).symm
  · rcases lawful.put_other cache key (f key).1 other same with kept | evicted
    · exact consistent other value (kept ▸ here)
    · rw [evicted] at here
      cases here

theorem get_spec (consistent : Consistent lru f cache) (key : PreimageKey) :
    (CachingOracle.get lru (.serving f) cache key).2 = .ok (f key).1 ∧
      Consistent lru f (CachingOracle.get lru (.serving f) cache key).1 := by
  have after := consistent.after_get lawful key
  cases found : lru.get cache key with
  | mk entry cache' =>
      rw [found] at after
      cases entry with
      | none =>
          simp only [CachingOracle.get, found, OracleClient.serving]
          exact ⟨trivial, after.after_put lawful key⟩
      | some value =>
          have same : value = (f key).1 := consistent key value (by rw [LruCache.lookup, found])
          simp only [CachingOracle.get, found, same]
          exact ⟨trivial, after⟩

theorem getExact_spec (consistent : Consistent lru f cache) (key : PreimageKey) (buf : List UInt8) :
    (Reply.ofGetExact (CachingOracle.getExact lru (.serving f) cache key buf).2 =
        .answered ((Call.getExact key buf).expected f) ↔
      lru.lookup cache key = none ∨ buf.length = (f key).1.length) ∧
      Consistent lru f (CachingOracle.getExact lru (.serving f) cache key buf).1 := by
  have after := consistent.after_get lawful key
  cases found : lru.get cache key with
  | mk entry cache' =>
      rw [found] at after
      have here : lru.lookup cache key = entry := by rw [LruCache.lookup, found]
      by_cases fits : buf.length = (f key).1.length
      · have expected : (Call.getExact key buf).expected f = .filled (.ok ()) (f key).1 := if_pos fits
        rw [expected]
        refine ⟨iff_of_true ?_ (.inr fits), ?_⟩
        · cases entry with
          | none => simp [CachingOracle.getExact, found, OracleClient.serving, fits, Reply.ofGetExact]
          | some value => simp [CachingOracle.getExact, found, consistent key value here, fits, Reply.ofGetExact]
        · cases entry with
          | none =>
              simp only [CachingOracle.getExact, found, OracleClient.serving, if_pos fits]
              exact after.after_put lawful key
          | some value =>
              have same := consistent key value here
              simp only [CachingOracle.getExact, found, same, if_pos fits]
              exact after
      · have expected : (Call.getExact key buf).expected f =
            .filled (.error (.bufferLengthMismatch (f key).1.length buf.length)) buf := if_neg fits
        rw [expected]
        cases entry with
        | none =>
            refine ⟨iff_of_true ?_ (.inl here), ?_⟩
            · simp [CachingOracle.getExact, found, OracleClient.serving, fits, Reply.ofGetExact]
            · simpa [CachingOracle.getExact, found, OracleClient.serving, fits] using after
        | some value =>
            have same := consistent key value here
            refine ⟨iff_of_false ?_ ?_, ?_⟩
            · simp [CachingOracle.getExact, found, same, fits, Reply.ofGetExact]
            · simp [here, fits]
            · simpa [CachingOracle.getExact, found, same, fits] using after

theorem step_spec (consistent : Consistent lru f cache) (operation : Operation) :
    ((cachedStep lru (.serving f) cache operation).2 = operation.expected f ↔ FitsCached lru f cache operation) ∧
      Consistent lru f (cachedStep lru (.serving f) cache operation).1 := by
  cases operation with
  | flush =>
      refine ⟨iff_of_true rfl trivial, ?_⟩
      intro key value here
      rw [cachedStep, CachingOracle.flush, lawful.clear] at here
      cases here
  | call request =>
      cases request with
      | get key =>
          obtain ⟨answer, after⟩ := consistent.get_spec lawful key
          refine ⟨iff_of_true ?_ trivial, after⟩
          exact congrArg (fun result => Reply.answered (.got result)) answer
      | getExact key buf => exact consistent.getExact_spec lawful key buf

end Consistent

/-- A run of the caching oracle answers as the oracle it wraps exactly when no `get_exact` with a buffer
of the wrong length finds its key in the cache. -/
theorem cachingOracle_refines_iff (lawful : lru.Lawful) (f : Preimages) (capacity : ℕ+) (operations : List Operation) :
    Along (cachedStep lru (.serving f)) (fun cache operation =>
        (cachedStep lru (.serving f) cache operation).2 = operation.expected f) (lru.new capacity) operations ↔
      Along (cachedStep lru (.serving f)) (FitsCached lru f) (lru.new capacity) operations := by
  refine along_iff_of_invariant (Consistent lru f) ?_ ?_ ?_
  · intro cache operation _ consistent _
    exact (consistent.step_spec lawful operation).2
  · intro cache operation _ consistent
    exact (consistent.step_spec lawful operation).1
  · intro key value here
    rw [lawful.new] at here
    cases here

/-! ## A cache in a list

The entry used last comes first. -/

section

variable {κ β : Type} [DecidableEq κ]

theorem lookup_filter_other {key other : κ} (differs : other ≠ key) (entries : List (κ × β)) :
    (entries.filter (·.1 ≠ key)).lookup other = entries.lookup other := by
  induction entries with
  | nil => rfl
  | cons entry entries ih =>
      obtain ⟨k, v⟩ := entry
      by_cases same : k = key
      · have apart : (other == k) = false := by simpa [same] using differs
        rw [List.filter_cons_of_neg (by simpa using same), ih, List.lookup_cons, apart]
      · rw [List.filter_cons_of_pos (by simpa using same), List.lookup_cons, List.lookup_cons, ih]

theorem lookup_take (n : Nat) (entries : List (κ × β)) (key : κ) :
    (entries.take n).lookup key = entries.lookup key ∨ (entries.take n).lookup key = none := by
  induction entries generalizing n with
  | nil => simp
  | cons entry entries ih =>
      cases n with
      | zero => exact .inr rfl
      | succ n =>
          rw [List.take_succ_cons, List.lookup_cons, List.lookup_cons]
          split
          · exact .inl rfl
          · exact ih n

end

def listCache : LruCache (ℕ+ × List (PreimageKey × List UInt8)) where
  new capacity := (capacity, [])
  get cache key :=
    match cache.2.lookup key with
    | none => (none, cache)
    | some value => (some value, cache.1, (key, value) :: cache.2.filter (·.1 ≠ key))
  put cache key value := (cache.1, ((key, value) :: cache.2.filter (·.1 ≠ key)).take cache.1)
  clear cache := (cache.1, [])

theorem lookup_listCache (cache : ℕ+ × List (PreimageKey × List UInt8)) (key : PreimageKey) :
    listCache.lookup cache key = cache.2.lookup key := by
  cases found : cache.2.lookup key with
  | none => simp only [LruCache.lookup, listCache, found]
  | some value => simp only [LruCache.lookup, listCache, found]

theorem listCache_lawful : listCache.Lawful where
  new capacity key := rfl
  clear cache key := rfl
  get cache key other := by
    rw [lookup_listCache, lookup_listCache]
    cases found : cache.2.lookup key with
    | none => simp only [listCache, found]
    | some value =>
        simp only [listCache, found, List.lookup_cons]
        by_cases same : other = key
        · simp [same, found]
        · have apart : (other == key) = false := by simpa using same
          rw [apart, lookup_filter_other same]
  put_self cache key value := by
    obtain ⟨n, capacity⟩ := Nat.exists_eq_succ_of_ne_zero cache.1.ne_zero
    rw [lookup_listCache]
    simp only [listCache, capacity, List.take_succ_cons, List.lookup_cons, beq_self_eq_true]
  put_other cache key value other differs := by
    rw [lookup_listCache, lookup_listCache]
    have rest : ((key, value) :: cache.2.filter (·.1 ≠ key)).lookup other = cache.2.lookup other := by
      have apart : (other == key) = false := by simpa using differs
      rw [List.lookup_cons, apart, lookup_filter_other differs]
    rw [← rest]
    exact lookup_take _ _ _

def someKey : PreimageKey := ⟨⟨List.replicate 31 0, List.length_replicate⟩, .local⟩

theorem length_samePreimage : [(8 : UInt8), 9].length < 2 ^ 63 := by decide

def samePreimage : Preimages := fun _ => ⟨[8, 9], length_samePreimage⟩

theorem cachingOracle_refines_evicting : listCache.Lawful ∧
    Along (cachedStep listCache (.serving samePreimage)) (fun cache operation =>
        (cachedStep listCache (.serving samePreimage) cache operation).2 =
          operation.expected samePreimage)
      (listCache.new 1) [.call (.get someKey), .call (.getExact someKey [0, 0]),
        .call (.get { someKey with keyType := .blob }), .call (.getExact someKey [0])] := by
  refine ⟨listCache_lawful, (cachingOracle_refines_iff listCache_lawful _ 1 _).mpr ?_⟩
  exact ⟨trivial, .inr rfl, trivial, .inl (by decide +kernel), trivial⟩

theorem getExact_panics_on_cached : ¬ Along (cachedStep listCache (.serving samePreimage))
    (fun cache operation => (cachedStep listCache (.serving samePreimage) cache operation).2 =
      operation.expected samePreimage)
    (listCache.new 1) [.call (.get someKey), .call (.getExact someKey [0])] := by
  rintro ⟨-, answers, -⟩
  exact absurd answers nofun

end KonaSoon.Preimage
