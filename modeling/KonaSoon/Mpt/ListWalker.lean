import KonaSoon.Mpt.OrderedTrie

namespace KonaSoon.Mpt
open Lib

inductive OrderedListWalkerError where
  | alreadyHydrated
  | trieNode (e : TrieNodeError)
deriving DecidableEq, Repr

abbrev OrderedListWalkerResult (α : Type) := Outcome OrderedListWalkerError α

structure OrderedListWalker where
  root : B256
  inner : Option (List (Nibbles × Bytes))

namespace OrderedListWalker

def new (root : B256) : OrderedListWalker := ⟨root, none⟩

def getTrieNode (fetcher : TrieProvider) (hash : B256) : OrderedListWalkerResult TrieNode :=
  match fetcher.trieNodeByHash hash with
  | .ok node => .ok node
  | .error e => .error (.error (.trieNode (.provider e)))

def fetchChild (fetcher : TrieProvider) (fetchLeaves : TrieNode → OrderedListWalkerResult (List (Nibbles × Bytes))) :
    TrieNode → OrderedListWalkerResult (List (Nibbles × Bytes))
  | .blinded commitment => getTrieNode fetcher commitment >>= fetchLeaves
  | node => fetchLeaves node

def fetchItem (fetcher : TrieProvider) (fetchLeaves : TrieNode → OrderedListWalkerResult (List (Nibbles × Bytes))) :
    TrieNode → OrderedListWalkerResult (List (Nibbles × Bytes))
  | .blinded commitment => getTrieNode fetcher commitment >>= fetchLeaves
  | .empty => .ok []
  | item => fetchLeaves item

def fetchLeaves (fetcher : TrieProvider) : Nat → TrieNode → OrderedListWalkerResult (List (Nibbles × Bytes))
  | 0, _ => .error .outOfFuel
  | fuel + 1, .branch stack => do
      let leafValues ← stack.mapM (fetchItem fetcher (fetchLeaves fetcher fuel))
      return leafValues.flatten
  | _ + 1, .leaf pfx value => .ok [(pfx, value)]
  | fuel + 1, .extension _ node => fetchChild fetcher (fetchLeaves fetcher fuel) node
  | _ + 1, .empty => .ok []
  | _ + 1, .blinded _ => .error (.error (.trieNode .invalidNodeType))

def placeFirst {α : Type} (list : List α) : List α :=
  if list.length ≤ 0x80 then list.getLast?.toList ++ list.dropLast
  else list[0x7f]?.toList ++ list.eraseIdx 0x7f

def hydrate (walker : OrderedListWalker) (fetcher : TrieProvider) (fuel : Nat) :
    OrderedListWalker × OrderedListWalkerResult Unit :=
  if 0 < (walker.inner.map List.length).getD 0 then (walker, .error (.error .alreadyHydrated))
  else match getTrieNode fetcher walker.root >>= fetchLeaves fetcher fuel with
    | .error e => (walker, .error e)
    | .ok orderedList => ({ walker with inner := some (placeFirst orderedList) }, .ok ())

def tryNewHydrated (root : B256) (fetcher : TrieProvider) (fuel : Nat) : OrderedListWalkerResult OrderedListWalker :=
  match (new root).hydrate fetcher fuel with
  | (_, .error e) => .error e
  | (walker, .ok ()) => .ok walker

def takeInner (walker : OrderedListWalker) : OrderedListWalker × Option (List (Nibbles × Bytes)) :=
  ({ walker with inner := none }, walker.inner)

/-- `Iterator::next`. -/
def next (walker : OrderedListWalker) : OrderedListWalker × Option (Nibbles × Bytes) :=
  match walker.inner with
  | none => (walker, none)
  | some [] => ({ walker with inner := none }, none)
  | some (item :: leaves) => ({ walker with inner := if leaves = [] then none else some leaves }, some item)

/-- The items of the first calls of `next`, up to the first that has none. -/
def iterate : Nat → OrderedListWalker → List (Nibbles × Bytes) × OrderedListWalker
  | 0, walker => ([], walker)
  | count + 1, walker =>
      match walker.next with
      | (walker, none) => ([], walker)
      | (walker, some item) => (item :: (iterate count walker).1, (iterate count walker).2)

section Fetching

open TrieNode

variable {prim : Primitives} {fetcher : TrieProvider} {origin : TrieNode}

theorem exists_common_bound {α : Type} {holds : Nat → α → Prop} {xs : List α}
    (each : ∀ x ∈ xs, ∃ bound, ∀ n, bound ≤ n → holds n x) : ∃ bound, ∀ x ∈ xs, ∀ n, bound ≤ n → holds n x := by
  induction xs with
  | nil => exact ⟨0, List.forall_mem_nil _⟩
  | cons x xs ih =>
      obtain ⟨first, here⟩ := each x (by simp)
      obtain ⟨rest, later⟩ := ih fun y member => each y (by simp [member])
      refine ⟨max first rest, ?_⟩
      intro y member n enough
      rcases List.mem_cons.mp member with rfl | member
      · exact here n (le_trans (le_max_left _ _) enough)
      · exact later y member n (le_trans (le_max_right _ _) enough)

theorem mapM_eq_ok {ε α β : Type} {f : α → Except ε β} {g : α → β} {xs : List α} (each : ∀ x ∈ xs, f x = .ok (g x)) :
    xs.mapM f = .ok (xs.map g) := by
  induction xs with
  | nil => rfl
  | cons x xs ih =>
      rw [List.mapM_cons, each x (by simp), ih fun y member => each y (by simp [member])]
      rfl

theorem within_of_mem {stack : List TrieNode} (above : Within origin (.branch stack)) {node : TrieNode}
    (member : node ∈ stack) : Within origin node := by
  obtain ⟨i, inside, rfl⟩ := List.getElem_of_mem member
  have here : slot stack i = stack[i] := by
    simp [slot, List.getD_eq_getElem?_getD, List.getElem?_eq_getElem inside]
  rw [← here]
  exact .branch above i

theorem getTrieNode_honest (honest : Honest prim fetcher origin) {node : TrieNode} (within : Within origin node)
    (served : node = origin ∨ 32 ≤ (encode prim node).length) (shaped : Shaped node) (unblinded : Unblinded node) :
    getTrieNode fetcher (blind prim node) = .ok (shallow prim node) := by
  rw [blind_eq_keccak unblinded.not_blinded, getTrieNode, honest node within served, decodePreimage_encode shaped]

theorem fetch_hidden (honest : Honest prim fetcher origin) {node : TrieNode} (within : Within origin node)
    (shaped : Shaped node) (unblinded : Unblinded node)
    (fetches : ∃ bound, ∀ fuel, bound ≤ fuel → fetchLeaves fetcher fuel (shallow prim node) = .ok node.leafNodes) :
    ∃ bound, ∀ fuel, bound ≤ fuel →
      fetchChild fetcher (fetchLeaves fetcher fuel) (hidden prim node) = .ok node.leafNodes ∧
      fetchItem fetcher (fetchLeaves fetcher fuel) (hidden prim node) = .ok node.leafNodes := by
  obtain ⟨bound, fetches⟩ := fetches
  refine ⟨bound, ?_⟩
  intro fuel enough
  have fetched := fetches fuel enough
  unfold TrieNode.hidden hiddenAs
  split
  · rename_i large
    rw [← encode_length prim shaped] at large
    have served := getTrieNode_honest honest within (.inr large) shaped unblinded
    simp only [fetchChild, fetchItem, served, ok_bind, fetched, and_self]
  · cases unblinded with
    | empty => exact ⟨fetched, rfl⟩
    | leaf pfx value => exact ⟨fetched, fetched⟩
    | extension pfx child => exact ⟨fetched, fetched⟩
    | branch children => exact ⟨fetched, fetched⟩

theorem fetchLeaves_shallow (honest : Honest prim fetcher origin) {node : TrieNode} (unblinded : Unblinded node)
    (shaped : Shaped node) (within : Within origin node) :
    ∃ bound, ∀ fuel, bound ≤ fuel → fetchLeaves fetcher fuel (shallow prim node) = .ok node.leafNodes := by
  induction unblinded with
  | empty =>
      refine ⟨1, fun fuel enough => ?_⟩
      obtain ⟨fuel, rfl⟩ : ∃ k, fuel = k + 1 := ⟨fuel - 1, by omega⟩
      rfl
  | leaf pfx value =>
      refine ⟨1, fun fuel enough => ?_⟩
      obtain ⟨fuel, rfl⟩ : ∃ k, fuel = k + 1 := ⟨fuel - 1, by omega⟩
      rfl
  | extension pfx child ih =>
      cases shaped with
      | extension short valid childShaped =>
          obtain ⟨bound, fetches⟩ := fetch_hidden honest within.extension childShaped child
            (ih childShaped within.extension)
          refine ⟨bound + 1, fun fuel enough => ?_⟩
          obtain ⟨fuel, rfl⟩ : ∃ k, fuel = k + 1 := ⟨fuel - 1, by omega⟩
          exact (fetches fuel (by omega)).1
  | @branch stack children ih =>
      cases shaped with
      | branch width childrenShaped =>
          obtain ⟨bound, fetches⟩ := exists_common_bound fun node member =>
            fetch_hidden honest (within_of_mem within member) (childrenShaped node member) (children node member)
              (ih node member (childrenShaped node member) (within_of_mem within member))
          refine ⟨bound + 1, fun fuel enough => ?_⟩
          obtain ⟨fuel, rfl⟩ : ∃ k, fuel = k + 1 := ⟨fuel - 1, by omega⟩
          have items : (shallowStack prim stack).mapM (fetchItem fetcher (fetchLeaves fetcher fuel)) =
              .ok (stack.map leafNodes) := by
            rw [shallowStack_eq, List.mapM_map]
            exact mapM_eq_ok fun node member => (fetches node member fuel (by omega)).2
          rw [shallow, fetchLeaves, items, leafNodes, leafNodesOf_eq]
          rfl

end Fetching

theorem placeFirst_map {α β : Type} (f : α → β) (list : List α) : (placeFirst list).map f = placeFirst (list.map f) := by
  unfold placeFirst
  rw [List.length_map]
  split
  · rw [List.map_append, List.map_dropLast, List.getLast?_map]
    cases list.getLast? <;> rfl
  · rw [List.map_append, List.eraseIdx_map, List.getElem?_map]
    cases list[0x7f]? <;> rfl

theorem placeFirst_indices {α : Type} {xs : List α} (nonempty : xs ≠ []) :
    placeFirst ((indices xs.length).filterMap fun i => xs[i]?) = xs := by
  obtain ⟨x, rest, rfl⟩ := List.exists_cons_of_ne_nil nonempty
  rcases Nat.lt_or_ge 0x80 (x :: rest).length with long | short
  · have size : 0x7f < rest.length := by
      rw [List.length_cons] at long
      omega
    have taken : (rest.take 0x7f).length = 0x7f := List.length_take_of_le (Nat.le_of_lt size)
    have order : (indices (x :: rest).length).filterMap (fun i => (x :: rest)[i]?) =
        rest.take 0x7f ++ x :: rest.drop 0x7f := by
      have all : (rest.drop 0x7f).take ((x :: rest).length - 0x80) = rest.drop 0x7f :=
        List.take_of_length_le (by rw [List.length_drop, List.length_cons]; omega)
      rw [indices_long long, List.filterMap_append, List.filterMap_cons, range'_getElem?, range'_getElem?,
        List.getElem?_cons_zero, List.drop_one, List.tail_cons, List.drop_succ_cons, all]
    have length : ¬ (rest.take 0x7f ++ x :: rest.drop 0x7f).length ≤ 0x80 := by
      simp only [List.length_append, List.length_cons, List.length_drop, taken]
      rw [List.length_cons] at long
      omega
    rw [order, placeFirst, if_neg length, List.getElem?_append_right (Nat.le_of_eq taken), taken, Nat.sub_self,
      List.getElem?_cons_zero, List.eraseIdx_append_of_length_le (Nat.le_of_eq taken), taken, Nat.sub_self,
      List.eraseIdx_cons_zero, List.take_append_drop]
    rfl
  · have order : (indices (x :: rest).length).filterMap (fun i => (x :: rest)[i]?) = rest ++ [x] := by
      have all : rest.take ((x :: rest).length - 1) = rest := List.take_of_length_le (by simp)
      rw [indices_short (by simp) short, List.filterMap_append, range'_getElem?, List.drop_one, List.tail_cons, all]
      rfl
    have length : (rest ++ [x]).length ≤ 0x80 := by simpa using short
    rw [order, placeFirst, if_pos length]
    simp

theorem iterate_all {root : B256} {leaves : List (Nibbles × Bytes)} (nonempty : leaves ≠ []) {count : Nat}
    (enough : leaves.length ≤ count) : iterate count ⟨root, some leaves⟩ = (leaves, ⟨root, none⟩) := by
  induction leaves generalizing count with
  | nil => exact absurd rfl nonempty
  | cons item leaves ih =>
      obtain ⟨count, rfl⟩ : ∃ k, count = k + 1 := ⟨count - 1, by simp at enough; omega⟩
      rw [List.length_cons] at enough
      cases leaves with
      | nil =>
          cases count with
          | zero => rfl
          | succ count => rfl
      | cons second leaves =>
          have later : iterate count ⟨root, some (second :: leaves)⟩ = (second :: leaves, ⟨root, none⟩) :=
            ih (by simp) (by omega)
          simp only [iterate, next, List.cons_ne_nil, if_false, later]

end OrderedListWalker

open TrieNode

/-- The root that the builder computes from leaves it is given in order is that of their trie. -/
def HashBuilder.Builds (prim : Primitives) (root : HashBuilder → B256) : Prop :=
  ∀ hb, Ascending hb.leaves → root hb = blind prim (trieOf hb.leaves)

namespace OrderedListWalker

variable {prim : Primitives} {fetcher : TrieProvider}

theorem tryNewHydrated_trie {trie : TrieNode} {leaves : List (Nibbles × Bytes)} (represents : Represents trie leaves)
    (honest : Honest prim fetcher trie) : ∃ bound, ∀ fuel, bound ≤ fuel →
      tryNewHydrated (blind prim trie) fetcher fuel = .ok ⟨blind prim trie, some (placeFirst trie.leafNodes)⟩ := by
  obtain ⟨bound, fetches⟩ := fetchLeaves_shallow honest represents.unblinded represents.shaped .root
  refine ⟨bound, fun fuel enough => ?_⟩
  have root := getTrieNode_honest honest .root (.inl rfl) represents.shaped represents.unblinded
  have hydrated : (new (blind prim trie)).hydrate fetcher fuel =
      (⟨blind prim trie, some (placeFirst trie.leafNodes)⟩, .ok ()) := by
    rw [hydrate, if_neg (by simp [new])]
    simp only [new, root, ok_bind, fetches fuel enough]
  rw [tryNewHydrated, hydrated]

/-- The items of a list come back in their order from the root of its trie. -/
theorem ordered_list_roundTrip {T : Type} {items : Slice T} {encode : T → Bytes} (nonempty : items.1 ≠ [])
    (sized : ∀ item ∈ items.1, (encode item).1 ≠ []) {root : HashBuilder → B256} (builds : HashBuilder.Builds prim root)
    (honest : ∀ hb, orderedTrieWithEncoder items encode = some hb → Honest prim fetcher (trieOf hb.leaves)) :
    ∃ hb, orderedTrieWithEncoder items encode = some hb ∧ Ascending hb.leaves ∧
      ∃ bound, ∀ fuel, bound ≤ fuel → ∃ walker leaves, tryNewHydrated (root hb) fetcher fuel = .ok walker ∧
        walker.takeInner.2 = some leaves ∧ leaves.map Prod.snd = items.1.map encode ∧
        ∀ count, items.1.length ≤ count → walker.iterate count = (leaves, ⟨root hb, none⟩) := by
  obtain ⟨hb, built, leaves⟩ := orderedTrieWithEncoder_ok items encode
  have ascending : Ascending hb.leaves := by
    rw [leaves]
    exact listLeaves_ascending items encode sized
  have represents : Represents (trieOf hb.leaves) hb.leaves := by
    apply represents_trieOf ascending
    intro leaf member
    rw [leaves] at member
    have size := listLeaves_length_le items encode member
    unfold keyNibbles
    omega
  have values : (placeFirst (trieOf hb.leaves).leafNodes).map Prod.snd = items.1.map encode := by
    have some : items.1.map encode ≠ [] := by simpa using nonempty
    have order := placeFirst_indices some
    rw [List.length_map] at order
    rw [placeFirst_map, represents.values, leaves, listLeaves_values, order]
  obtain ⟨bound, hydrates⟩ := tryNewHydrated_trie represents (honest hb built)
  refine ⟨hb, built, ascending, bound, fun fuel enough =>
    ⟨⟨root hb, some (placeFirst (trieOf hb.leaves).leafNodes)⟩, _, ?_, rfl, values, ?_⟩⟩
  · rw [builds hb ascending]
    exact hydrates fuel enough
  · intro count enough
    have lengths := congrArg List.length values
    rw [List.length_map, List.length_map] at lengths
    refine iterate_all ?_ (by omega)
    intro none
    rw [none] at lengths
    exact nonempty (List.eq_nil_of_length_eq_zero lengths.symm)

theorem within_pair {first second : Bytes} {node : TrieNode}
    (within : Within (.branch (.leaf [1] second :: (List.replicate 7 .empty ++ .leaf [0] first :: List.replicate 8 .empty))) node) :
    node = .branch (.leaf [1] second :: (List.replicate 7 .empty ++ .leaf [0] first :: List.replicate 8 .empty)) ∨
      node = .leaf [1] second ∨ node = .leaf [0] first ∨ node = .empty := by
  induction within with
  | root => exact .inl rfl
  | extension _ ih => simp at ih
  | @branch stack _ i ih =>
      obtain rfl : stack = .leaf [1] second :: (List.replicate 7 .empty ++ .leaf [0] first :: List.replicate 8 .empty) := by
        simpa using ih
      rcases Nat.lt_or_ge i (TrieNode.leaf [1] second ::
          (List.replicate 7 .empty ++ .leaf [0] first :: List.replicate 8 .empty)).length with inside | outside
      · have member := List.mem_of_getElem? (getElem?_eq_slot inside)
        simp only [List.mem_cons, List.mem_append, List.mem_replicate] at member
        rcases member with first | (⟨-, empty⟩ | last | ⟨-, empty⟩)
        · exact .inr (.inl first)
        · exact .inr (.inr (.inr empty))
        · exact .inr (.inr (.inl last))
        · exact .inr (.inr (.inr empty))
      · exact .inr (.inr (.inr (slot_outside outside)))

namespace TwoItems

def small : Bytes := ⟨[7], by decide⟩

def large : Bytes := ⟨List.replicate 40 9, by decide⟩

def items : Slice Bytes := ⟨[small, large], by decide⟩

def trie : TrieNode :=
  .branch (.leaf [1] large :: (List.replicate 7 .empty ++ .leaf [0] small :: List.replicate 8 .empty))

def leafEncoding : List UInt8 := encode (.tabulated []) (.leaf [1] large)

def rootEncoding : List UInt8 := encode (.tabulated [(leafEncoding, .ofNat 1)]) trie

def digests : List (List UInt8 × B256) := [(leafEncoding, .ofNat 1), (rootEncoding, .ofNat 2)]

def preimages : List (B256 × List UInt8) := digests.map Prod.swap

theorem honest_trie : Honest (.tabulated digests) (trieNodeProvider (.tabulated digests) preimages) trie := by
  have looksUp : ∀ preimage, preimages.lookup ((Primitives.tabulated digests).keccak256 preimage) = some preimage →
      (trieNodeProvider (.tabulated digests) preimages).trieNodeByHash
        ((Primitives.tabulated digests).keccak256 preimage) = decodePreimage (.tabulated digests) preimage := by
    intro preimage found
    simp only [trieNodeProvider, found]
  intro node within hideable
  apply looksUp
  rcases within_pair within with rfl | rfl | rfl | rfl
  · decide +kernel
  · decide +kernel
  · rcases hideable with root | long
    · cases root
    · exact absurd long (by decide +kernel)
  · rcases hideable with root | long
    · cases root
    · exact absurd long (by decide +kernel)

theorem ordered_list_roundTrip_two_items : ∃ hb, orderedTrieWithEncoder items id = some hb ∧
    ∃ bound, ∀ fuel, bound ≤ fuel → ∃ walker leaves,
      tryNewHydrated (blind (.tabulated digests) trie) (trieNodeProvider (.tabulated digests) preimages) fuel = .ok walker ∧
      walker.takeInner.2 = some leaves ∧ leaves.map Prod.snd = [small, large] := by
  have sized : ∀ item ∈ items.1, item.1 ≠ [] := by decide
  have shape : ∀ hb, orderedTrieWithEncoder items id = some hb → trieOf hb.leaves = trie := by
    intro hb built
    cases built
    rfl
  obtain ⟨hb, built, -, bound, walks⟩ := @ordered_list_roundTrip (.tabulated digests)
    (trieNodeProvider (.tabulated digests) preimages) Bytes items id (by decide) sized
    (fun hb => blind (.tabulated digests) (trieOf hb.leaves)) (fun _ _ => rfl)
    (fun hb built => by rw [shape hb built]; exact honest_trie)
  refine ⟨hb, built, bound, fun fuel enough => ?_⟩
  obtain ⟨walker, leaves, hydrates, takes, values, -⟩ := walks fuel enough
  rw [shape hb built] at hydrates
  exact ⟨walker, leaves, hydrates, takes, values⟩

end TwoItems

end OrderedListWalker

end KonaSoon.Mpt
