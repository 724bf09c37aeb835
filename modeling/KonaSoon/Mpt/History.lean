import KonaSoon.Lib.KeyedMap
import KonaSoon.Mpt.Commitment

namespace KonaSoon.Mpt
open Lib

abbrev Key := {path : Nibbles // path.length = keyNibbles ∧ path.Valid}

/-- `Nibbles::unpack` of a hash. -/
def Key.ofHash (hash : B256) : Key :=
  ⟨Nibbles.unpack hash.1, by rw [Nibbles.unpack_length, hash.2, keyNibbles], Nibbles.unpack_valid hash.1⟩

theorem Key.ofHash_injective : Function.Injective Key.ofHash := by
  intro hash hash' same
  have paths : Nibbles.unpack hash.1 = Nibbles.unpack hash'.1 := congrArg Subtype.val same
  have packed := congrArg Nibbles.pack paths
  rw [Nibbles.pack_unpack, Nibbles.pack_unpack] at packed
  exact Subtype.ext packed

inductive TrieOp where
  | openKey (key : Key)
  | unblind
  | insert (key : Key) (value : Bytes)
  | delete (key : Key) (lastSlot : Nat)

inductive Answer where
  | opened (result : TrieNodeResult (Option Bytes))
  | updated (result : TrieNodeResult Unit)
deriving DecidableEq

def Answer.Returns : Answer → Prop
  | .opened result => Outcome.Returns result
  | .updated result => Outcome.Returns result

/-- Fuel for every operation on a key: two steps a nibble, and the reveal of a blinded root. -/
def enoughFuel : Nat := 2 * keyNibbles + 3

namespace TrieNode

def applyOp (prim : Primitives) (fetcher : TrieProvider) (hinter : TrieHinter) (fuel : Nat) (node : TrieNode) :
    TrieOp → TrieNode × Answer
  | .openKey key => (openPath prim fetcher fuel node key.1).map id .opened
  | .unblind => (unblind prim fetcher node).map id .updated
  | .insert key value => (insert prim fetcher fuel node key.1 value).map id .updated
  | .delete key lastSlot => (delete prim fetcher hinter lastSlot fuel node key.1 []).map id .updated

def after (prim : Primitives) (fetcher : TrieProvider) (hinter : TrieHinter) (fuel : Nat) (ops : List TrieOp) :
    TrieNode := run (applyOp prim fetcher hinter fuel) .empty ops

end TrieNode

/-! ## The abstract machine -/

abbrev Contents := Key → Option Bytes

def Contents.step (contents : Contents) : TrieOp → Contents × Answer
  | .openKey key => (contents, .opened (.ok (contents key)))
  | .unblind => (contents, .updated (.ok ()))
  | .insert key value => (Function.update contents key (some value), .updated (.ok ()))
  | .delete key _ =>
      if contents key = none then (contents, .updated (.error (.error .keyNotFound)))
      else (Function.update contents key none, .updated (.ok ()))

def written (key : Key) (before : Option Bytes) : TrieOp → Option Bytes
  | .insert k value => if k = key then some value else before
  | .delete k _ => if k = key then none else before
  | _ => before

/-- The value `key` was last inserted with, unless it has been deleted since. -/
def lastWritten (ops : List TrieOp) (key : Key) : Option Bytes := ops.foldl (written key) none

def TrieOp.key : TrieOp → Option Key
  | .openKey key => some key
  | .unblind => none
  | .insert key _ => some key
  | .delete key _ => some key

theorem Contents.step_delete (contents : Contents) (key : Key) (lastSlot : Nat) :
    (contents.step (.delete key lastSlot)).1 = Function.update contents key none := by
  by_cases absent : contents key = none
  · have unchanged := Function.update_eq_self key contents
    rw [absent] at unchanged
    simp [step, absent, unchanged]
  · simp [step, absent]

theorem Contents.step_other {op : TrieOp} {key : Key} (other : op.key ≠ some key) (contents : Contents) :
    (contents.step op).1 key = contents key := by
  cases op with
  | openKey => rfl
  | unblind => rfl
  | insert k value =>
      have differ : key ≠ k := fun same => other (by rw [same]; rfl)
      simp [step, differ]
  | delete k lastSlot =>
      have differ : key ≠ k := fun same => other (by rw [same]; rfl)
      rw [step_delete, Function.update_of_ne differ]

theorem Contents.step_returns (contents : Contents) (op : TrieOp) : (contents.step op).2.Returns := by
  cases op with
  | delete key lastSlot =>
      by_cases absent : contents key = none <;> simp [step, absent, Answer.Returns, Outcome.Returns]
  | _ => trivial

theorem run_contents (ops : List TrieOp) (key : Key) :
    run Contents.step (fun _ => none) ops key = lastWritten ops key := by
  -- The fold is followed from any contents, not only from the empty ones.
  suffices general : ∀ contents : Contents, run Contents.step contents ops key =
      ops.foldl (written key) (contents key) from general _
  induction ops with
  | nil => intro contents; rfl
  | cons op ops ih =>
      intro contents
      rw [run_cons, ih, List.foldl_cons]
      congr 1
      cases op with
      | openKey => rfl
      | unblind => rfl
      | insert k value =>
          by_cases same : k = key
          · simp [Contents.step, written, same]
          · simp [Contents.step, written, same, Ne.symm same]
      | delete k lastSlot =>
          rw [Contents.step_delete]
          by_cases same : k = key
          · simp [written, same]
          · simp [written, same, Ne.symm same]

/-! ## The simulation -/

namespace TrieNode

def Represents (full : TrieNode) (contents : Contents) : Prop :=
  Canonical keyNibbles full ∧ ∀ (key : Key) value, Holds full key.1 value ↔ contents key = some value

theorem represents_empty : Represents .empty fun _ => none :=
  ⟨.empty, fun _ _ => by simp⟩

theorem Represents.unique {left right : TrieNode} {contents : Contents} (first : Represents left contents)
    (second : Represents right contents) : left = right := by
  apply canonical_ext first.1 second.1
  intro path value
  constructor
  · intro holds
    exact (second.2 ⟨path, first.1.path holds⟩ value).mpr ((first.2 ⟨path, first.1.path holds⟩ value).mp holds)
  · intro holds
    exact (first.2 ⟨path, second.1.path holds⟩ value).mpr ((second.2 ⟨path, second.1.path holds⟩ value).mp holds)

theorem Represents.absent {full : TrieNode} {contents : Contents} (represents : Represents full contents)
    {key : Key} : contents key = none ↔ ∀ value, ¬ Holds full key.1 value := by
  simp only [represents.2]
  exact Option.eq_none_iff_forall_ne_some

variable {prim : Primitives} {fetcher : TrieProvider} {hinter : TrieHinter} {Stands : B256 → TrieNode → Prop}
  {node full : TrieNode} {contents : Contents} {fuel : Nat}

def Simulates (Stands : B256 → TrieNode → Prop) (result : TrieNode × Answer) (expected : Contents × Answer) : Prop :=
  ∃ full', Represents full' expected.1 ∧ Reveals Stands result.1 full' ∧ result.2 = expected.2

section

variable (serves : Serves prim fetcher hinter Stands) (represents : Represents full contents)
  (reveals : Reveals Stands node full) (enough : 2 * keyNibbles + 2 ≤ fuel)

include serves represents reveals enough

theorem openPath_simulates (key : Key) :
    Simulates Stands (applyOp prim fetcher hinter fuel node (.openKey key)) (contents.step (.openKey key)) := by
  obtain ⟨node', answer, opens, shown, meaning⟩ :=
    openPath_spec serves represents.1 node key.1 fuel reveals key.2.1 enough
  have same : answer = contents key := by
    apply Option.ext
    intro value
    rw [meaning, represents.2]
  subst same
  rw [applyOp, opens]
  exact ⟨full, represents, shown, rfl⟩

theorem insert_simulates (key : Key) (value : Bytes) :
    Simulates Stands (applyOp prim fetcher hinter fuel node (.insert key value))
      (contents.step (.insert key value)) := by
  obtain ⟨full', returns, shown, canonical, entries, -⟩ :=
    insert_spec serves represents.1 node key.1 value fuel reveals key.2.1 key.2.2 enough
  refine ⟨full', ⟨canonical, fun k v => ?_⟩, shown, congrArg Answer.updated returns⟩
  rw [entries]
  by_cases same : k = key
  · subst same
    simp [Contents.step, eq_comm]
  · have differ : k.1 ≠ key.1 := fun equal => same (Subtype.ext equal)
    simp [Contents.step, same, differ, represents.2]

theorem delete_simulates (key : Key) (lastSlot : Nat) :
    Simulates Stands (applyOp prim fetcher hinter fuel node (.delete key lastSlot))
      (contents.step (.delete key lastSlot)) := by
  rcases delete_spec serves represents.1 node key.1 [] lastSlot fuel reveals key.2.1 key.2.2
    (fun _ => by simp) enough with ⟨present, full', returns, shown, canonical, entries, -, -⟩ | ⟨absent, fails, shown⟩
  · have here : contents key ≠ none := by
      rw [Ne, represents.absent]
      exact fun none => none _ present.choose_spec
    simp only [Contents.step, if_neg here]
    refine ⟨full', ⟨canonical, fun k v => ?_⟩, shown, congrArg Answer.updated returns⟩
    rw [entries]
    by_cases same : k = key
    · subst same
      simp
    · have differ : k.1 ≠ key.1 := fun equal => same (Subtype.ext equal)
      simp [same, differ, represents.2]
  · have none : contents key = none := represents.absent.mpr absent
    simp only [Contents.step, if_pos none]
    exact ⟨full, represents, shown, congrArg Answer.updated fails⟩

theorem applyOp_simulates (op : TrieOp) :
    Simulates Stands (applyOp prim fetcher hinter fuel node op) (contents.step op) := by
  cases op with
  | openKey key => exact openPath_simulates serves represents reveals enough key
  | unblind =>
      obtain ⟨node', unblinds, shown, -⟩ := unblind_spec serves reveals
      rw [applyOp, unblinds]
      exact ⟨full, represents, shown, rfl⟩
  | insert key value => exact insert_simulates serves represents reveals enough key value
  | delete key lastSlot => exact delete_simulates serves represents reveals enough key lastSlot

end

/-! ## Whole tries -/

section

variable (prim : Primitives) (fetcher : TrieProvider) (hinter : TrieHinter)

theorem applyOp_represents (represents : Represents node contents) (enough : enoughFuel ≤ fuel) (op : TrieOp) :
    Represents (applyOp prim fetcher hinter fuel node op).1 (contents.step op).1 ∧
      (applyOp prim fetcher hinter fuel node op).2 = (contents.step op).2 := by
  obtain ⟨full', represents', reveals, answers⟩ := applyOp_simulates (serves_nothing prim fetcher hinter)
    represents represents.1.reveals (Nat.le_of_succ_le enough) op
  rw [reveals_nothing reveals]
  exact ⟨represents', answers⟩

theorem after_represents (enough : enoughFuel ≤ fuel) (ops : List TrieOp) :
    Represents (after prim fetcher hinter fuel ops) (lastWritten ops) := by
  have follows := run_related Represents
    (fun node contents op represents => (applyOp_represents prim fetcher hinter represents enough op).1)
    represents_empty ops
  rwa [show run Contents.step (fun _ => none) ops = lastWritten ops from funext (run_contents ops)] at follows

theorem applyOp_unchanged (represents : Represents node contents) (enough : enoughFuel ≤ fuel) {op : TrieOp}
    (same : (contents.step op).1 = contents) : applyOp prim fetcher hinter fuel node op = (node, (contents.step op).2) := by
  obtain ⟨represents', answers⟩ := applyOp_represents prim fetcher hinter represents enough op
  rw [same] at represents'
  exact Prod.ext (represents'.unique represents) answers

theorem openPath_represents (represents : Represents node contents) (enough : enoughFuel ≤ fuel) (key : Key) :
    openPath prim fetcher fuel node key.1 = (node, .ok (contents key)) := by
  have opens : applyOp prim fetcher noopTrieHinter fuel node (.openKey key) = (node, .opened (.ok (contents key))) :=
    applyOp_unchanged prim fetcher noopTrieHinter represents enough rfl
  have leaves := congrArg Prod.fst opens
  have answers := congrArg Prod.snd opens
  exact Prod.ext leaves (Answer.opened.inj answers)

/-- A trie of keys of 64 nibbles behaves as a finite map, and no operation on it runs out of the bounds
of a path or a stack. -/
theorem after_finite_map (enough : enoughFuel ≤ fuel) (ops : List TrieOp) :
    (∀ key : Key, openPath prim fetcher fuel (after prim fetcher hinter fuel ops) key.1 =
      (after prim fetcher hinter fuel ops, .ok (lastWritten ops key))) ∧
    (∀ (key : Key) value, (insert prim fetcher fuel (after prim fetcher hinter fuel ops) key.1 value).2 = .ok ()) ∧
    (∀ key lastSlot, lastWritten ops key ≠ none →
      (delete prim fetcher hinter lastSlot fuel (after prim fetcher hinter fuel ops) key.1 []).2 = .ok ()) ∧
    (∀ key lastSlot, lastWritten ops key = none →
      delete prim fetcher hinter lastSlot fuel (after prim fetcher hinter fuel ops) key.1 [] =
        (after prim fetcher hinter fuel ops, .error (.error .keyNotFound))) ∧
    (∀ (op : TrieOp) key, op.key ≠ some key →
      (openPath prim fetcher fuel (after prim fetcher hinter fuel (ops ++ [op])) key.1).2 =
        (openPath prim fetcher fuel (after prim fetcher hinter fuel ops) key.1).2) ∧
    (∀ op, (applyOp prim fetcher hinter fuel (after prim fetcher hinter fuel ops) op).2.Returns) := by
  have represents := after_represents prim fetcher hinter enough ops
  have step := fun op => applyOp_represents prim fetcher hinter represents enough op
  refine ⟨openPath_represents prim fetcher represents enough, ?_, ?_, ?_, ?_, ?_⟩
  · intro key value
    exact Answer.updated.inj (step (.insert key value)).2
  · intro key lastSlot present
    have answers := (step (.delete key lastSlot)).2
    simp only [Contents.step, if_neg present] at answers
    exact Answer.updated.inj answers
  · intro key lastSlot absent
    have same : (Contents.step (lastWritten ops) (.delete key lastSlot)).1 = lastWritten ops := by
      simp [Contents.step, absent]
    have deletes := applyOp_unchanged prim fetcher hinter represents enough same
    simp only [Contents.step, if_pos absent] at deletes
    have leaves := congrArg Prod.fst deletes
    have answers := congrArg Prod.snd deletes
    exact Prod.ext leaves (Answer.updated.inj answers)
  · intro op key other
    have later : after prim fetcher hinter fuel (ops ++ [op]) =
        (applyOp prim fetcher hinter fuel (after prim fetcher hinter fuel ops) op).1 := run_append _ _ _ _
    rw [later, openPath_represents prim fetcher (step op).1 enough,
      openPath_represents prim fetcher represents enough, Contents.step_other other]
  · intro op
    rw [(step op).2]
    exact Contents.step_returns _ op

def stem : Nibbles := List.replicate 63 0

def leftKey : Key := ⟨0 :: stem, by decide +kernel⟩

def rightKey : Key := ⟨1 :: stem, by decide +kernel⟩

def one : Bytes := ⟨[1], by decide⟩

def two : Bytes := ⟨[2], by decide⟩

def twoLeaves : TrieNode := .branch ([.leaf stem one, .leaf stem two] ++ List.replicate 15 .empty)

def leafHash : B256 := .ofNat 0x51786a8d3bc13523fe2a4a4de42ba891617b2aad3a2da9a0681c6efa2263f434

def leafHash' : B256 := .ofNat 0x6e9c0ad64301ea72977e7b346f6b5762c993b45bf7dabfb51c0957d1d6455b6b

def rootHash : B256 := .ofNat 0x34734119a88ceb4106a48ec1d678bc9eefa85266b0e1b4d2307c9101bdb7db56

def digests : List (List UInt8 × B256) :=
  [([0x80], .ofNat 0x56e81f171bcc55a6ff8345e692c0f86e5b48e01b996cadc001622fb5e363b421),
   ([0xe2, 0xa0, 0x30] ++ List.replicate 31 0 ++ [1], leafHash),
   ([0xe2, 0xa0, 0x30] ++ List.replicate 31 0 ++ [2], leafHash'),
   ([0xf8, 0x51, 0xa0] ++ leafHash.1 ++ [0xa0] ++ leafHash'.1 ++ List.replicate 15 0x80, rootHash)]

theorem after_finite_map_deleted :
    openPath (.tabulated digests) noopTrieProvider enoughFuel
        (after (.tabulated digests) noopTrieProvider noopTrieHinter enoughFuel
          [.insert leftKey one, .insert rightKey two, .delete leftKey 0]) rightKey.1 =
      (.leaf rightKey.1 two, .ok (some two)) ∧
    delete (.tabulated digests) noopTrieProvider noopTrieHinter 0 enoughFuel
        (after (.tabulated digests) noopTrieProvider noopTrieHinter enoughFuel
          [.insert leftKey one, .insert rightKey two, .delete leftKey 0]) leftKey.1 [] =
      (.leaf rightKey.1 two, .error (.error .keyNotFound)) := by
  have facts := after_finite_map (.tabulated digests) noopTrieProvider noopTrieHinter (le_refl enoughFuel)
    [.insert leftKey one, .insert rightKey two, .delete leftKey 0]
  exact ⟨facts.1 rightKey, facts.2.2.2.1 leftKey 0 rfl⟩

/-! ## Canonicity -/

/-- The shape every node of a trie has: no blinded nodes, no extension without a path or over anything
but a branch, no branch with a value or with fewer than two children. -/
def Compact : TrieNode → Prop
  | .empty => True
  | .blinded _ => False
  | .leaf _ _ => True
  | .extension pfx node => pfx ≠ [] ∧ IsBranch node
  | .branch stack => stack.length = branchListLength ∧ slot stack 16 = .empty ∧
      ∃ i j, i < j ∧ j < 16 ∧ slot stack i ≠ .empty ∧ slot stack j ≠ .empty

theorem Canonical.compact {n : Nat} (canonical : Canonical n node) : Compact node := by
  cases canonical with
  | empty => trivial
  | leaf => trivial
  | extension nonempty valid child => exact ⟨nonempty, _, rfl⟩
  | branch width noValue children two => exact ⟨width, noValue, two⟩

def inserts (entries : List (Key × Bytes)) : List TrieOp := entries.map fun entry => .insert entry.1 entry.2

theorem lastWritten_inserts {entries : List (Key × Bytes)} (distinct : (entries.map Prod.fst).Nodup) (key : Key)
    (value : Bytes) : lastWritten (inserts entries) key = some value ↔ (key, value) ∈ entries := by
  have runs : ∀ contents : Contents, run Contents.step contents (inserts entries) =
      updateEach Prod.fst (fun entry _ => some entry.2) contents entries := by
    induction entries with
    | nil => intro contents; rfl
    | cons entry entries ih => exact fun contents => ih (List.nodup_cons.mp distinct).2 _
  rw [← run_contents, runs]
  by_cases written : ∃ entry ∈ entries, entry.1 = key
  · obtain ⟨entry, member, rfl⟩ := written
    have found : ∀ contents : Contents,
        updateEach Prod.fst (fun entry _ => some entry.2) contents entries entry.1 = some entry.2 :=
      fun contents => updateEach_mem contents distinct member
    rw [found]
    constructor
    · intro same
      rwa [← Option.some.inj same]
    · intro inside
      rw [List.inj_on_of_nodup_map distinct member inside rfl]
  · rw [updateEach_other _ fun entry member same => written ⟨entry, member, same⟩]
    exact ⟨nofun, fun inside => absurd ⟨_, inside, rfl⟩ written⟩

theorem holds_inserts (enough : enoughFuel ≤ fuel) {entries : List (Key × Bytes)}
    (distinct : (entries.map Prod.fst).Nodup) (path : Nibbles) (value : Bytes) :
    Holds (after prim fetcher hinter fuel (inserts entries)) path value ↔
      ∃ entry ∈ entries, path = entry.1.1 ∧ value = entry.2 := by
  have represents := after_represents prim fetcher hinter enough (inserts entries)
  constructor
  · intro holds
    have valid := represents.1.path holds
    exact ⟨_, (lastWritten_inserts distinct ⟨path, valid⟩ value).mp ((represents.2 ⟨path, valid⟩ value).mp holds), rfl, rfl⟩
  · rintro ⟨entry, member, rfl, rfl⟩
    exact (represents.2 _ _).mpr ((lastWritten_inserts distinct _ _).mpr member)

theorem lastWritten_inserts_perm (ops : List TrieOp) {entries entries' : List (Key × Bytes)}
    (distinct : (entries.map Prod.fst).Nodup) (perm : entries.Perm entries') (key : Key) :
    lastWritten (ops ++ inserts entries) key = lastWritten (ops ++ inserts entries') key := by
  simp only [lastWritten, List.foldl_append, inserts, List.foldl_map]
  apply perm.foldl_eq'
  intro x memberX y memberY before
  by_cases same : x.1 = y.1
  · rw [List.inj_on_of_nodup_map distinct memberX memberY same]
  · by_cases hereX : x.1 = key
    · have notY : y.1 ≠ key := fun hereY => same (hereX.trans hereY.symm)
      simp [written, hereX, notY]
    · simp [written, hereX]

/-- The contents of a trie determine its tree and so its root, whatever the history. -/
theorem after_history_independent (enough : enoughFuel ≤ fuel) :
    (∀ ops ops', (∀ key, lastWritten ops key = lastWritten ops' key) →
      after prim fetcher hinter fuel ops = after prim fetcher hinter fuel ops' ∧
        blind prim (after prim fetcher hinter fuel ops) = blind prim (after prim fetcher hinter fuel ops')) ∧
    (∀ ops (entries entries' : List (Key × Bytes)), (entries.map Prod.fst).Nodup → entries.Perm entries' →
      after prim fetcher hinter fuel (ops ++ inserts entries) =
        after prim fetcher hinter fuel (ops ++ inserts entries')) ∧
    (∀ ops key value lastSlot, lastWritten ops key = none →
      after prim fetcher hinter fuel (ops ++ [.insert key value, .delete key lastSlot]) =
        after prim fetcher hinter fuel ops) ∧
    (∀ ops node, Within (after prim fetcher hinter fuel ops) node → Compact node) := by
  have sameTree : ∀ ops ops', (∀ key, lastWritten ops key = lastWritten ops' key) →
      after prim fetcher hinter fuel ops = after prim fetcher hinter fuel ops' := by
    intro ops ops' same
    have represents := after_represents prim fetcher hinter enough ops
    rw [funext same] at represents
    exact represents.unique (after_represents prim fetcher hinter enough ops')
  refine ⟨?_, ?_, ?_, ?_⟩
  · intro ops ops' same
    exact ⟨sameTree ops ops' same, congrArg (blind prim) (sameTree ops ops' same)⟩
  · intro ops entries entries' distinct perm
    exact sameTree _ _ (lastWritten_inserts_perm ops distinct perm)
  · intro ops key value lastSlot absent
    apply sameTree
    intro other
    by_cases here : key = other
    · subst here
      simpa [lastWritten, written] using absent.symm
    · simp [lastWritten, written, here]
  · intro ops node within
    obtain ⟨n, -, canonical⟩ := within.canonical (after_represents prim fetcher hinter enough ops).1
    exact canonical.compact

theorem after_history_independent_overwritten :
    after (.tabulated digests) noopTrieProvider noopTrieHinter enoughFuel
        [.insert rightKey one, .insert leftKey one, .insert rightKey two] = twoLeaves ∧
      blind (.tabulated digests) (after (.tabulated digests) noopTrieProvider noopTrieHinter enoughFuel
        [.insert rightKey one, .insert leftKey one, .insert rightKey two]) = rootHash := by
  have facts := after_history_independent (.tabulated digests) noopTrieProvider noopTrieHinter (le_refl enoughFuel)
  have same : ∀ key, lastWritten [.insert rightKey one, .insert leftKey one, .insert rightKey two] key =
      lastWritten [.insert leftKey one, .insert rightKey two] key := by
    intro key
    simp only [lastWritten, written, List.foldl_cons, List.foldl_nil]
    split_ifs <;> rfl
  obtain ⟨trees, roots⟩ := facts.1 _ _ same
  exact ⟨trees.trans rfl, roots.trans (by decide +kernel)⟩

end

end TrieNode

end KonaSoon.Mpt
