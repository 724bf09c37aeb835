import KonaSoon.Client.L1Walk

namespace KonaSoon.Client
open Lib Mpt Preimage Host

def hiddenEncodings (prim : Primitives) (trie : TrieNode) : Set (List UInt8) :=
  {bytes | ∃ node, TrieNode.Within trie node ∧ (node = trie ∨ 32 ≤ (TrieNode.encode prim node).length) ∧
    TrieNode.encode prim node = bytes}

def Fits (prim : Primitives) (trie : TrieNode) : Prop :=
  ∀ node, TrieNode.Within trie node → (TrieNode.encode prim node).length < 2 ^ 63

/-- What a builder keeps of the leaves it is given in order: encodings of nodes of their trie, and all that are referred to
by their hashes. -/
def Retains (lib : HandlerLibraries) : Prop :=
  ∀ hb, Ascending hb.leaves → hb.leaves ≠ [] → Fits lib.prim (trieOf hb.leaves) →
    (∀ bytes ∈ hiddenEncodings lib.prim (trieOf hb.leaves), ∃ node ∈ lib.takeProofNodes hb, node.1 = bytes) ∧
    ∀ node ∈ lib.takeProofNodes hb, ∃ inner, TrieNode.Within (trieOf hb.leaves) inner ∧
      TrieNode.encode lib.prim inner = node.1

section Retaining

open TrieNode

mutual

def allNodes : TrieNode → List TrieNode
  | .extension pfx child => .extension pfx child :: allNodes child
  | .branch stack => .branch stack :: allNodesOf stack
  | node => [node]

def allNodesOf : List TrieNode → List TrieNode
  | [] => []
  | node :: stack => allNodes node ++ allNodesOf stack

end

mutual

theorem allNodes_trans {node below : TrieNode} : ∀ above, node ∈ allNodes above → below ∈ allNodes node → below ∈ allNodes above
  | .extension pfx child, here, deeper => by
      rcases List.mem_cons.mp here with rfl | inner
      · exact deeper
      · exact List.mem_cons_of_mem _ (allNodes_trans child inner deeper)
  | .branch stack, here, deeper => by
      rcases List.mem_cons.mp here with rfl | inner
      · exact deeper
      · exact List.mem_cons_of_mem _ (allNodesOf_trans stack inner deeper)
  | .empty, here, deeper => by
      obtain rfl := List.mem_singleton.mp here
      exact deeper
  | .blinded _, here, deeper => by
      obtain rfl := List.mem_singleton.mp here
      exact deeper
  | .leaf _ _, here, deeper => by
      obtain rfl := List.mem_singleton.mp here
      exact deeper

theorem allNodesOf_trans {node below : TrieNode} : ∀ stack, node ∈ allNodesOf stack → below ∈ allNodes node →
    below ∈ allNodesOf stack
  | [], here, _ => nomatch here
  | first :: stack, here, deeper => by
      rcases List.mem_append.mp here with inside | later
      · exact List.mem_append_left _ (allNodes_trans first inside deeper)
      · exact List.mem_append_right _ (allNodesOf_trans stack later deeper)

end

mutual

theorem within_of_mem_allNodes {trie node : TrieNode} : ∀ above, Within trie above → node ∈ allNodes above → Within trie node
  | .extension pfx child, within, member => by
      rcases List.mem_cons.mp member with rfl | inner
      · exact within
      · exact within_of_mem_allNodes child within.extension inner
  | .branch stack, within, member => by
      rcases List.mem_cons.mp member with rfl | inner
      · exact within
      · exact within_of_mem_allNodesOf stack (fun child => OrderedListWalker.within_of_mem within) inner
  | .empty, within, member => List.mem_singleton.mp member ▸ within
  | .blinded _, within, member => List.mem_singleton.mp member ▸ within
  | .leaf _ _, within, member => List.mem_singleton.mp member ▸ within

theorem within_of_mem_allNodesOf {trie node : TrieNode} : ∀ stack, (∀ child ∈ stack, Within trie child) →
    node ∈ allNodesOf stack → Within trie node
  | [], _, member => nomatch member
  | first :: stack, within, member => by
      rcases List.mem_append.mp member with inside | later
      · exact within_of_mem_allNodes first (within first List.mem_cons_self) inside
      · exact within_of_mem_allNodesOf stack (fun child member => within child (List.mem_cons_of_mem first member)) later

end

def proofNodes (prim : Primitives) (hb : HashBuilder) : List Bytes :=
  (allNodes (trieOf hb.leaves)).filterMap fun node =>
    if fits : (encode prim node).length < 2 ^ 63 then some ⟨encode prim node, fits⟩ else none

end Retaining

def storeProvider {W : Type} (prim : Primitives) (host : HostState W) : TrieProvider where
  trieNodeByHash hash :=
    match host.kv.get (PreimageKey.newKeccak256 hash).toRaw with
    | some value => TrieNode.decodePreimage prim value.1
    | none => .error "Key not found."
  bankHash _ := .error "not supported"
  blockTime _ := .error "not supported"

def Stored {W : Type} (prim : Primitives) (trie : TrieNode) (host : HostState W) : Prop :=
  ∀ encoding ∈ hiddenEncodings prim trie, ∃ bytes : Bytes, bytes.1 = encoding ∧
    host.kv.get (keyOf prim bytes).toRaw = some bytes

section Walking

variable {Receipt Transaction W : Type} {consensus : Consensus Receipt Transaction} {fetchHint : FetchHint W}
variable {proactiveHints : List HintType} {hostFuel : Nat} {host : HostState W}

open OracleL1ChainProvider OracleProgram

theorem Stored.honest {prim : Primitives} {trie : TrieNode} (stored : Stored prim trie host) :
    TrieNode.Honest prim (storeProvider prim host) trie := by
  intro node within hidden
  obtain ⟨bytes, same, here⟩ := stored _ ⟨node, within, hidden, rfl⟩
  rw [keyOf, same] at here
  simp only [storeProvider, here, same]

theorem mapError_completes {ε ε' α : Type} {f : Stop ε → Stop ε'} {program : OracleProgram ε α} {a : α}
    {backend : PreimageServerBackend (HostState W)} {after : HostState W}
    (completes : Completes (handle backend) host program.run after (.ok a)) :
    Completes (handle backend) host (mapError f program).run after (.ok a) :=
  completes.bind (.done after _)

theorem getTrieNode_asks {hash : B256} {node : TrieNode} {value : List UInt8} {backend : PreimageServerBackend (HostState W)}
    {after : HostState W} (decodes : TrieNode.decodePreimage consensus.prim value = .ok node)
    (gets : handle backend host (.get (.newKeccak256 hash)) = (after, .answered (.got value) (.ok ()))) :
    Completes (handle backend) host (getTrieNode consensus hash).run after (.ok node) := by
  have decodes' : decodeTrieNode consensus value = .ok node := by
    unfold TrieNode.decodePreimage at decodes
    unfold decodeTrieNode
    rcases decoded : TrieNode.decode consensus.prim (TrieNode.decodeFuel value) value with e | ⟨read, rest⟩
    · rw [decoded] at decodes
      cases decodes
    · rw [decoded] at decodes
      cases decodes
      rfl
  refine mapError_completes (.ask gets ?_)
  rw [← decodes']
  exact .done after _

theorem getTrieNode_completes {hash : B256} {node : TrieNode}
    (has : OrderedListWalker.getTrieNode (storeProvider consensus.prim host) hash = .ok node) :
    Completes (handle (OnlineHostBackend fetchHint proactiveHints hostFuel)) host (getTrieNode consensus hash).run host
      (.ok node) := by
  cases here : host.kv.get (PreimageKey.newKeccak256 hash).toRaw with
  | none =>
      simp only [OrderedListWalker.getTrieNode, storeProvider, here] at has
      cases has
  | some value =>
      have gets : handle (OnlineHostBackend fetchHint proactiveHints hostFuel) host (.get (.newKeccak256 hash)) =
          (host, .answered (.got value.1) (.ok ())) := by
        simp only [handle, OnlineHostBackend, OnlineHostBackend.getPreimage_found here]
      simp only [OrderedListWalker.getTrieNode, storeProvider, here] at has
      refine getTrieNode_asks ?_ gets
      split at has
      · rename_i decoded
        cases has
        exact decoded
      · cases has

theorem mapM_completes {α β : Type} {f : α → OracleProgram OrderedListWalkerError β}
    {g : α → OrderedListWalkerResult β} {backend : PreimageServerBackend (HostState W)} {xs : List α} {ys : List β}
    (each : ∀ x ∈ xs, ∀ y, g x = .ok y → Completes (handle backend) host (f x).run host (.ok y)) (maps : xs.mapM g = .ok ys) :
    Completes (handle backend) host (xs.mapM f).run host (.ok ys) := by
  induction xs generalizing ys with
  | nil =>
      cases maps
      exact .done host _
  | cons x xs ih =>
      simp only [List.mapM_cons, bind_eq_ok] at maps
      obtain ⟨y, first, rest, maps, made⟩ := maps
      cases made
      rw [List.mapM_cons]
      refine (each x List.mem_cons_self y first).bind_ok ?_
      exact (ih (fun x' member => each x' (List.mem_cons_of_mem x member)) maps).bind_ok (.done host _)

theorem fetchLeaves_completes {fuel : Nat} {node : TrieNode} {leaves : List (Nibbles × Bytes)}
    (fetches : OrderedListWalker.fetchLeaves (storeProvider consensus.prim host) fuel node = .ok leaves) :
    Completes (handle (OnlineHostBackend fetchHint proactiveHints hostFuel)) host (fetchLeaves consensus fuel node).run host
      (.ok leaves) := by
  induction fuel generalizing node leaves with
  | zero => cases fetches
  | succ fuel ih =>
      have blinded : ∀ {commitment leaves}, (OrderedListWalker.getTrieNode (storeProvider consensus.prim host) commitment >>=
          OrderedListWalker.fetchLeaves (storeProvider consensus.prim host) fuel) = .ok leaves →
          Completes (handle (OnlineHostBackend fetchHint proactiveHints hostFuel)) host
            (getTrieNode consensus commitment >>= fetchLeaves consensus fuel).run host (.ok leaves) := by
        intro commitment leaves fetches
        obtain ⟨inner, has, rest⟩ := bind_eq_ok.mp fetches
        exact (getTrieNode_completes has).bind_ok (ih rest)
      cases node with
      | empty =>
          cases fetches
          exact .done host _
      | blinded commitment => cases fetches
      | leaf pfx value =>
          cases fetches
          exact .done host _
      | extension pfx child =>
          cases child with
          | blinded commitment => exact blinded fetches
          | empty => exact ih fetches
          | leaf pfx value => exact ih fetches
          | extension pfx child => exact ih fetches
          | branch stack => exact ih fetches
      | branch stack =>
          obtain ⟨leafValues, maps, made⟩ := bind_eq_ok.mp fetches
          cases made
          refine (mapM_completes (fun item _ values item_fetches => ?_) maps).bind_ok (.done host _)
          cases item with
          | blinded commitment => exact blinded item_fetches
          | empty =>
              cases item_fetches
              exact .done host _
          | leaf pfx value => exact ih item_fetches
          | extension pfx child => exact ih item_fetches
          | branch stack => exact ih item_fetches

end Walking

def nodeEncodings (prim : Primitives) (trie : TrieNode) : Set Bytes :=
  {bytes | ∃ node, TrieNode.Within trie node ∧ TrieNode.encode prim node = bytes.1}

section Storing

variable {prim : Primitives} {known : Set Bytes} {kv : SplitKeyValueStore}

theorem foldl_set_spec (free : Set.InjOn (keyOf prim) known) {made : List (PreimageKey × Bytes)}
    (proper : ∀ entry ∈ made, entry.1 = keyOf prim entry.2 ∧ entry.2 ∈ known) (right : RightIn prim known kv) :
    RightIn prim known (made.foldl (fun kv entry => kv.set entry.1.toRaw entry.2) kv) ∧
    (∀ bytes ∈ known, kv.get (keyOf prim bytes).toRaw = some bytes →
      (made.foldl (fun kv entry => kv.set entry.1.toRaw entry.2) kv).get (keyOf prim bytes).toRaw = some bytes) ∧
    ∀ entry ∈ made,
      (made.foldl (fun kv entry => kv.set entry.1.toRaw entry.2) kv).get (keyOf prim entry.2).toRaw = some entry.2 := by
  induction made generalizing kv with
  | nil => exact ⟨right, fun _ _ here => here, List.forall_mem_nil _⟩
  | cons entry made ih =>
      obtain ⟨key, member⟩ := proper entry List.mem_cons_self
      have stored : ∀ bytes, (kv.set entry.1.toRaw entry.2).get (keyOf prim bytes).toRaw =
          if keyOf prim bytes = keyOf prim entry.2 then some entry.2 else kv.get (keyOf prim bytes).toRaw := by
        rw [key]
        exact get_set_keyOf prim kv entry.2
      have right' : RightIn prim known (kv.set entry.1.toRaw entry.2) := by
        rw [key]
        exact right.set free member
      obtain ⟨rightAfter, kept, all⟩ := ih (fun entry' member' => proper entry' (List.mem_cons_of_mem entry member')) right'
      refine ⟨rightAfter, fun bytes member' here => kept bytes member' ?_, fun entry' member' => ?_⟩
      · rw [stored]
        split
        · rename_i same
          rw [free member' member same]
        · exact here
      · rcases List.mem_cons.mp member' with rfl | later
        · exact kept _ member ((stored _).trans (if_pos rfl))
        · exact all entry' later

variable {lib : HandlerLibraries}

theorem within_empty {node : TrieNode} (within : TrieNode.Within .empty node) : node = .empty := by
  induction within with
  | root => rfl
  | extension _ ih => cases ih
  | branch _ _ ih => cases ih

theorem leaf_values {items : Slice Bytes} {hb : HashBuilder} (built : orderedTrieWithEncoder items id = some hb) :
    OrderedListWalker.placeFirst (hb.leaves.map Prod.snd) = items.1 := by
  obtain ⟨hb', built', leaves⟩ := orderedTrieWithEncoder_ok items id
  obtain rfl : hb = hb' := Option.some.inj (built.symm.trans built')
  rw [leaves, listLeaves_values, List.map_id]
  by_cases none : items.1 = []
  · rw [none]
    rfl
  · exact OrderedListWalker.placeFirst_indices none

theorem orderedTrieEntries_spec (retains : Retains lib) {items : Slice Bytes} (sized : ∀ item ∈ items.1, item.1 ≠ [])
    {hb : HashBuilder} (built : orderedTrieWithEncoder items id = some hb) (fits : Fits lib.prim (trieOf hb.leaves)) :
    ∃ made, lib.orderedTrieEntries items = .ok made ∧
      (∀ entry ∈ made, entry.1 = keyOf lib.prim entry.2 ∧ entry.2 ∈ nodeEncodings lib.prim (trieOf hb.leaves)) ∧
      ∀ encoding ∈ hiddenEncodings lib.prim (trieOf hb.leaves), ∃ entry ∈ made, entry.2.1 = encoding := by
  obtain ⟨hb', built', leaves⟩ := orderedTrieWithEncoder_ok items id
  obtain rfl : hb = hb' := Option.some.inj (built.symm.trans built')
  unfold HandlerLibraries.orderedTrieEntries
  by_cases none : items.1 = []
  · have empty : trieOf hb.leaves = .empty := by
      have noLeaves : hb.leaves = [] := by
        rw [leaves, listLeaves, none]
        rfl
      rw [noLeaves]
      rfl
    rw [if_pos none, empty]
    refine ⟨_, rfl, fun entry member => ?_, ?_⟩
    · obtain rfl := List.mem_singleton.mp member
      exact ⟨rfl, .empty, .root, rfl⟩
    · rintro encoding ⟨node, within, -, rfl⟩
      obtain rfl := within_empty within
      exact ⟨_, List.mem_singleton_self _, rfl⟩
  · have ascending : Ascending hb.leaves := by
      rw [leaves]
      exact listLeaves_ascending items id sized
    have some : hb.leaves ≠ [] := by
      intro noLeaves
      have values := leaf_values built
      rw [noLeaves] at values
      exact none values.symm
    obtain ⟨all, nodes⟩ := retains hb ascending some fits
    rw [if_neg none, built]
    refine ⟨_, rfl, fun entry member => ?_, fun encoding hidden => ?_⟩
    · obtain ⟨node, kept, rfl⟩ := List.mem_map.mp member
      obtain ⟨inner, within, encodes⟩ := nodes node kept
      exact ⟨rfl, inner, within, encodes⟩
    · obtain ⟨node, kept, rfl⟩ := all encoding hidden
      exact ⟨lib.nodeEntry node, List.mem_map_of_mem kept, rfl⟩

end Storing

section Lists

variable {Receipt Transaction W : Type} {consensus : Consensus Receipt Transaction} {blocks : L1Blocks consensus}
variable {lib : HandlerLibraries} {cfg : SingleChainHost} {providers : SingleChainProviders W}
variable {proactiveHints : List HintType} {hostFuel : Nat}

open OracleL1ChainProvider OracleProgram

/-- A list of a block, with its trie and the encoding of its root. No header is the root of the trie, and no two headers or
nodes have one key. -/
structure ListOf (lib : HandlerLibraries) (blocks : L1Blocks consensus) where
  items : Slice Bytes
  sized : ∀ item ∈ items.1, item.1 ≠ []
  hb : HashBuilder
  built : orderedTrieWithEncoder items id = some hb
  fits : Fits lib.prim (trieOf hb.leaves)
  free : Set.InjOn (keyOf consensus.prim) (blocks.raws ∪ nodeEncodings consensus.prim (trieOf hb.leaves))
  apart : ∀ n ≤ blocks.head, (blocks.raw n).1 ≠ TrieNode.encode consensus.prim (trieOf hb.leaves)

namespace ListOf

variable (list : ListOf lib blocks)

def trie : TrieNode := trieOf list.hb.leaves

def known : Set Bytes := blocks.raws ∪ nodeEncodings consensus.prim list.trie

def Holds (root : Bytes) (host : HostState W) : Prop :=
  RightIn consensus.prim list.known host.kv ∧
    (host.kv.get (keyOf consensus.prim root).toRaw = none ∨ Stored consensus.prim list.trie host)

variable {list}

theorem ascending : Ascending list.hb.leaves := by
  obtain ⟨hb, built, leaves⟩ := orderedTrieWithEncoder_ok list.items id
  obtain rfl : list.hb = hb := Option.some.inj (list.built.symm.trans built)
  rw [leaves]
  exact listLeaves_ascending list.items id list.sized

theorem represents : Represents list.trie list.hb.leaves := by
  apply represents_trieOf ascending
  intro leaf member
  obtain ⟨hb, built, leaves⟩ := orderedTrieWithEncoder_ok list.items id
  obtain rfl : list.hb = hb := Option.some.inj (list.built.symm.trans built)
  rw [leaves] at member
  have size := listLeaves_length_le list.items id member
  unfold keyNibbles
  omega

theorem mem_raws {n : Nat} (within : n ≤ blocks.head) : blocks.raw n ∈ list.known := .inl ⟨n, within, rfl⟩

theorem exists_root (shared : lib.prim = consensus.prim) (retains : Retains lib) :
    ∃ root : Bytes, root.1 = TrieNode.encode consensus.prim list.trie := by
  obtain ⟨made, -, proper, all⟩ := orderedTrieEntries_spec retains list.sized list.built list.fits
  obtain ⟨entry, member, root⟩ := all _ ⟨_, .root, .inl rfl, rfl⟩
  rw [shared] at root
  exact ⟨entry.2, root⟩

theorem isNode {root : Bytes} (isRoot : root.1 = TrieNode.encode consensus.prim list.trie) :
    root ∈ nodeEncodings consensus.prim list.trie := ⟨_, .root, isRoot.symm⟩

theorem keeps {root : Bytes} (isRoot : root.1 = TrieNode.encode consensus.prim list.trie) :
    blocks.Keeps (list.Holds (W := W) root) where
  replaces _ _ before := before
  right _ before := fun bytes member => before.1 bytes (.inl member)
  stores host nodes n within := by
    rintro ⟨right, rootOrAll⟩
    refine ⟨right.set list.free (mem_raws within), ?_⟩
    rcases rootOrAll with none | stored
    · refine .inl ?_
      have apart : keyOf consensus.prim root ≠ keyOf consensus.prim (blocks.raw n) := by
        intro same
        rw [list.free (.inr (isNode isRoot)) (mem_raws within) same] at isRoot
        exact list.apart n within isRoot
      rw [get_set_keyOf, if_neg apart]
      exact none
    · refine .inr fun encoding hidden => ?_
      obtain ⟨bytes, same, here⟩ := stored encoding hidden
      obtain ⟨node, within', -, encodes⟩ := hidden
      refine ⟨bytes, same, ?_⟩
      rw [get_set_keyOf]
      split
      · rename_i alike
        rw [list.free (.inr ⟨node, within', encodes.trans same.symm⟩) (mem_raws within) alike]
      · exact here

theorem fetches_list (shared : lib.prim = consensus.prim) (retains : Retains lib) {root : Bytes}
    (isRoot : root.1 = TrieNode.encode consensus.prim list.trie) {α : Type} {provider : W → W × Except String α}
    {entries : α → Outcome String (List (PreimageKey × Bytes))} {hint : Hint}
    (asks : fetchHint lib cfg providers hint = request provider entries)
    (answers : ∀ nodes, ∃ answer, (provider nodes).2 = .ok answer ∧ entries answer = lib.orderedTrieEntries list.items)
    (host : HostState W) (before : list.Holds root host) :
    ∃ after, (fetchHint lib cfg providers hint).run host = (after, .ok ()) ∧ list.Holds root after ∧
      after.kv.get (keyOf consensus.prim root).toRaw = some root := by
  obtain ⟨made, makes, proper, all⟩ := orderedTrieEntries_spec retains list.sized list.built list.fits
  rw [shared] at proper all
  obtain ⟨answer, answered, same⟩ := answers host.providers
  obtain ⟨right, -, stored⟩ := foldl_set_spec list.free
    (fun entry member => ⟨(proper entry member).1, .inr (proper entry member).2⟩) before.1
  have everything : ∀ encoding ∈ hiddenEncodings consensus.prim list.trie, ∃ bytes : Bytes, bytes.1 = encoding ∧
      (made.foldl (fun kv entry => kv.set entry.1.toRaw entry.2) host.kv).get (keyOf consensus.prim bytes).toRaw =
        some bytes := by
    intro encoding hidden
    obtain ⟨entry, member, encodes⟩ := all encoding hidden
    exact ⟨entry.2, encodes, stored entry member⟩
  rw [asks]
  refine ⟨_, request_run answered (same.trans makes), ⟨right, .inr everything⟩, ?_⟩
  obtain ⟨bytes, encodes, here⟩ := everything _ ⟨_, .root, .inl rfl, rfl⟩
  rw [Subtype.ext (isRoot.trans encodes.symm)]
  exact here

theorem hydratedItems_completes (cfg : SingleChainHost) (proactiveHints : List HintType) (hostFuel : Nat)
    (shared : lib.prim = consensus.prim) (retains : Retains lib) {root : Bytes}
    (isRoot : root.1 = TrieNode.encode consensus.prim list.trie) {α : Type} {provider : W → W × Except String α}
    {entries : α → Outcome String (List (PreimageKey × Bytes))} {hint : Hint}
    (asks : fetchHint lib cfg providers hint = request provider entries)
    (answers : ∀ nodes, ∃ answer, (provider nodes).2 = .ok answer ∧ entries answer = lib.orderedTrieEntries list.items)
    (text : HintText) (encodes : text.1 = hint.encode) {host : HostState W} (before : list.Holds root host) :
    ∃ bound after leaves, leaves.map Prod.snd = list.items.1 ∧ ∀ fuel, bound ≤ fuel →
      Completes (handle (singleChainBackend lib cfg providers proactiveHints (hostFuel + 1))) host
        (write text >>= fun _ => hydratedItems consensus (TrieNode.blind consensus.prim list.trie) fuel).run after
        (.ok leaves) := by
  obtain ⟨between, after, holds, rootStored, acknowledges, gets⟩ := hinted_get_served (keeps isRoot).replaces
    (fetches_list shared retains isRoot asks answers) (fun host before => before.1 root (.inr (isNode isRoot))) text encodes
    before
  have stored : Stored consensus.prim list.trie after := by
    rcases holds.2 with none | stored
    · rw [none] at rootStored
      cases rootStored
    · exact stored
  have represents : Represents list.trie list.hb.leaves := represents
  obtain ⟨bound, fetches⟩ := OrderedListWalker.fetchLeaves_shallow stored.honest represents.unblinded represents.shaped .root
  have decodes : TrieNode.decodePreimage consensus.prim (TrieNode.encode consensus.prim list.trie) = _ :=
    TrieNode.decodePreimage_encode represents.shaped
  have key : TrieNode.blind consensus.prim list.trie = consensus.prim.keccak256 root.1 := by
    rw [TrieNode.blind_eq_keccak represents.unblinded.not_blinded, isRoot]
  refine ⟨bound, after, OrderedListWalker.placeFirst list.trie.leafNodes, ?_, fun fuel enough => ?_⟩
  · rw [OrderedListWalker.placeFirst_map, represents.values, leaf_values list.built]
  · rw [isRoot] at gets
    rw [key]
    refine .ask acknowledges (mapError_completes ?_)
    exact (getTrieNode_asks decodes gets).bind_ok ((fetchLeaves_completes (fetches fuel enough)).bind_ok (.done after _))

end ListOf

def decodeValues {T : Type} (decode : List UInt8 → Except RlpError T) (items : List Bytes) :
    Outcome OracleProviderError (List T) :=
  items.mapM fun item => (decode item.1).mapError fun e => .error (.rlp e)

theorem decodeItems_eq {T : Type} (decode : List UInt8 → Except RlpError T) (leaves : List (Nibbles × Bytes)) :
    decodeItems decode leaves = decodeValues decode (leaves.map Prod.snd) := by
  rw [decodeItems, decodeValues, List.mapM_map]
  rfl

theorem leaves_complete (cfg : SingleChainHost) (proactiveHints : List HintType) (hostFuel : Nat)
    (shared : lib.prim = consensus.prim) (retains : Retains lib) (served : blocks.ServedBy providers) (list : ListOf lib blocks)
    {n : Nat} (within : n ≤ blocks.head) {α : Type} {provider : W → W × Except String α}
    {entries : α → Outcome String (List (PreimageKey × Bytes))} (ty : HintType)
    (asks : fetchHint lib cfg providers (ty.withData [(blocks.hash n).1]) = request provider entries)
    (answers : ∀ nodes, ∃ answer, (provider nodes).2 = .ok answer ∧ entries answer = lib.orderedTrieEntries list.items)
    (nodes : W) {T : Type} (root : L1Header → B256) (commits : root (blocks.l1Header n) = TrieNode.blind consensus.prim list.trie)
    (decode : List Bytes → Outcome OracleProviderError T) :
    ∃ bound, ∀ fuel, bound ≤ fuel →
      ∃ after, Completes (handle (singleChainBackend lib cfg providers proactiveHints (hostFuel + 1)))
        (startingHost cfg nodes)
        (headerByHash consensus (blocks.hash n) >>= fun header =>
          write (hashHint ty (blocks.hash n)) >>= fun _ =>
            hydratedItems consensus (root header) fuel >>= fun items => lift (decode (items.map Prod.snd))).run after
        (decode list.items.1) := by
  obtain ⟨rootBytes, isRoot⟩ := list.exists_root shared retains
  have start : list.Holds rootBytes (startingHost cfg nodes) :=
    ⟨rightIn_startingHost consensus.prim list.known cfg nodes, .inl (get_startingHost consensus.prim cfg nodes rootBytes)⟩
  obtain ⟨between, holds, first⟩ : ∃ between, list.Holds rootBytes between ∧
      Completes (handle (singleChainBackend lib cfg providers proactiveHints (hostFuel + 1))) (startingHost cfg nodes)
        (headerByHash consensus (blocks.hash n)).run between (.ok (blocks.l1Header n)) :=
    headerByHash_completes served (ListOf.keeps isRoot) within start
  obtain ⟨bound, after, leaves, values, second⟩ := ListOf.hydratedItems_completes cfg proactiveHints hostFuel shared retains
    isRoot asks answers (hashHint ty (blocks.hash n)) rfl holds
  refine ⟨bound, fun fuel enough => ⟨after, first.bind_ok ?_⟩⟩
  rw [commits, ← bind_assoc, ← values]
  exact (second fuel enough).bind_ok (.done after _)

/-- The same of the receipts. -/
theorem receipts_by_hash_served (shared : lib.prim = consensus.prim) (retains : Retains lib)
    (served : blocks.ServedBy providers) (list : ListOf lib blocks) {n : Nat} (within : n ≤ blocks.head)
    (commits : (blocks.header n).receiptsRoot = TrieNode.blind consensus.prim list.trie)
    (answers : ∀ nodes, (providers.getRawReceipts nodes (blocks.hash n)).2 = .ok list.items) (nodes : W) :
    ∃ bound, ∀ fuel, bound ≤ fuel →
      ∀ {s : Session HostPort ClientCall (HostState W) (Stop HostError) ClientAnswer
        (Outcome OracleProviderError (List Receipt))},
      Session.Reachable (preimageServer (singleChainBackend lib cfg providers proactiveHints (hostFuel + 1)))
        (startingHost cfg nodes) (receiptsByHash consensus fuel (blocks.hash n)).run s →
      (∀ s', ¬ Session.Moves (preimageServer (singleChainBackend lib cfg providers proactiveHints (hostFuel + 1))) s s') →
        s.result = some (decodeValues consensus.decodeReceipt list.items.1) := by
  have data : [(blocks.hash n).1].flatten = (blocks.hash n).1 := List.flatten_singleton
  have asks : fetchHint lib cfg providers (HintType.l1Receipts.withData [(blocks.hash n).1]) =
      request (providers.getRawReceipts · (blocks.hash n)) lib.orderedTrieEntries := by
    simp only [fetchHint, HintType.withData, data, exactly_self]
  obtain ⟨bound, completes⟩ := leaves_complete cfg proactiveHints hostFuel shared retains served list within _ asks
    (fun nodes => ⟨_, answers nodes, rfl⟩) nodes L1Header.receiptsRoot commits (decodeValues consensus.decodeReceipt)
  refine ⟨bound, fun fuel enough s reaches stuck => ?_⟩
  obtain ⟨after, completes⟩ := completes fuel enough
  have program : receiptsByHash consensus fuel (blocks.hash n) = (headerByHash consensus (blocks.hash n) >>= fun header =>
      write (hashHint .l1Receipts (blocks.hash n)) >>= fun _ =>
        hydratedItems consensus header.receiptsRoot fuel >>= fun items =>
          lift (decodeValues consensus.decodeReceipt (items.map Prod.snd))) := by
    simp only [receiptsByHash, decodeItems_eq]
  rw [program] at reaches
  exact (session_result completes reaches stuck).2

end Lists

namespace TwoTransactions

def first : Bytes := ⟨[
  0xf8, 0x6c, 0x09, 0x85, 0x04, 0xa8, 0x17, 0xc8, 0x00, 0x82, 0x52, 0x08, 0x94] ++ List.replicate 20 0x35 ++ [
  0x88, 0x0d, 0xe0, 0xb6, 0xb3, 0xa7, 0x64, 0x00, 0x00, 0x80, 0x25, 0xa0, 0x28, 0xef, 0x61, 0x34,
  0x0b, 0xd9, 0x39, 0xbc, 0x21, 0x95, 0xfe, 0x53, 0x75, 0x67, 0x86, 0x60, 0x03, 0xe1, 0xa1, 0x5d,
  0x3c, 0x71, 0xff, 0x63, 0xe1, 0x59, 0x06, 0x20, 0xaa, 0x63, 0x62, 0x76, 0xa0, 0x67, 0xcb, 0xe9,
  0xd8, 0x99, 0x7f, 0x76, 0x1a, 0xec, 0xb7, 0x03, 0x30, 0x4b, 0x38, 0x00, 0xcc, 0xf5, 0x55, 0xc9,
  0xf3, 0xdc, 0x64, 0x21, 0x4b, 0x29, 0x7f, 0xb1, 0x96, 0x6a, 0x3b, 0x6d, 0x83], by decide⟩

def second : Bytes := ⟨[
  0xf8, 0x6c, 0x0a, 0x85, 0x04, 0xa8, 0x17, 0xc8, 0x00, 0x82, 0x52, 0x08, 0x94] ++ List.replicate 20 0x35 ++ [
  0x88, 0x1b, 0xc1, 0x6d, 0x67, 0x4e, 0xc8, 0x00, 0x00, 0x80, 0x25, 0xa0, 0xd5, 0x84, 0xcd, 0x1b,
  0x64, 0xb4, 0xbd, 0x56, 0xdd, 0x77, 0xb5, 0x1f, 0x05, 0x7e, 0x5a, 0x5c, 0xbb, 0x8c, 0x2e, 0xe1,
  0x80, 0xef, 0xb8, 0x37, 0xda, 0x57, 0x89, 0xf4, 0x25, 0x04, 0x67, 0xa7, 0xa0, 0x02, 0xc7, 0xb6,
  0x42, 0xb0, 0xc5, 0x2e, 0x2b, 0xbf, 0x30, 0xb9, 0xfa, 0x21, 0xa4, 0x18, 0xa7, 0xe1, 0xa6, 0x61,
  0xe3, 0x55, 0x0e, 0x54, 0x13, 0xe9, 0x26, 0x5d, 0x4e, 0x55, 0x79, 0x91, 0xd0], by decide⟩

/-- The nonce, the signer and the receiver. -/
abbrev Transfer := UInt64 × List UInt8 × List UInt8

def transfer (nonce : UInt64) : Transfer :=
  (nonce, [0x9d, 0x8a, 0x62, 0xf6, 0x56, 0xa8, 0xd1, 0x61, 0x5c, 0x12, 0x94, 0xfd, 0x71, 0xe9, 0xcf, 0xb3, 0xe4, 0x85, 0x5a, 0x4f],
    List.replicate 20 0x35)

def items : Slice Bytes := ⟨[first, second], by decide⟩

def trie : TrieNode :=
  .branch (.leaf [1] second :: (List.replicate 7 .empty ++ .leaf [0] first :: List.replicate 8 .empty))

def leafDigests : List (List UInt8 × B256) :=
  [(TrieNode.encode (.tabulated []) (.leaf [0] first), .ofNat 8), (TrieNode.encode (.tabulated []) (.leaf [1] second), .ofNat 9)]

def rootEncoding : List UInt8 := TrieNode.encode (.tabulated leafDigests) trie

def headerRlp : Bytes := ⟨TwoHeaders.encodeHeader (.ofNat 0) (.ofNat 7) 0x80 12, by decide +kernel⟩

def header : Header := ⟨.ofNat 0, 0, 12, .ofNat 0, .ofNat 7, .ofNat 0⟩

def prim : Primitives := .tabulated ([(headerRlp.1, .ofNat 100), (rootEncoding, .ofNat 7), ([0x80], .ofNat 5)] ++ leafDigests)

def codecs : Consensus Unit Transfer where
  prim := prim
  decodeHeader bytes := if bytes = headerRlp.1 then .ok (header, .ofNat 100) else .error .inputTooShort
  decodeReceipt _ := .error .inputTooShort
  decodeTransaction bytes :=
    if bytes = first.1 then .ok (some (transfer 9))
    else if bytes = second.1 then .ok (some (transfer 10))
    else .error .inputTooShort
  displayError _ := "RLP error"

def libraries : HandlerLibraries := ⟨prim, proofNodes prim, fun _ => none, []⟩

def blocks : L1Blocks codecs where
  head := 0
  header _ := header
  raw _ := headerRlp
  decodes n known := by decide +kernel
  number n known := by
    obtain rfl := Nat.le_zero.mp known
    rfl
  linked n known := absurd known (Nat.not_lt_zero n)

def nodes : SingleChainProviders Unit :=
  { SmallHost.nodes with
    getRawHeader := fun _ _ => ((), .ok headerRlp)
    getBlockTransactions := fun _ _ => ((), .ok (some items)) }

theorem encoding_fits {node : TrieNode} (within : TrieNode.Within trie node) : (TrieNode.encode prim node).length < 2 ^ 63 := by
  rcases OrderedListWalker.within_pair within with rfl | rfl | rfl | rfl <;> decide +kernel

def known : List Bytes :=
  [headerRlp, ⟨TrieNode.encode prim trie, encoding_fits .root⟩, ⟨TrieNode.encode prim (.leaf [1] second), by decide +kernel⟩,
    ⟨TrieNode.encode prim (.leaf [0] first), by decide +kernel⟩, ⟨TrieNode.encode prim .empty, by decide +kernel⟩]

theorem mem_known {bytes : Bytes} (either : bytes ∈ blocks.raws ∪ nodeEncodings prim trie) : bytes ∈ known := by
  rcases either with ⟨_, -, rfl⟩ | ⟨node, within, encodes⟩
  · exact List.mem_cons_self
  · have same : ∀ other : Bytes, TrieNode.encode prim node = other.1 → bytes = other :=
      fun other encodes' => Subtype.ext (encodes.symm.trans encodes')
    simp only [known, List.mem_cons, List.not_mem_nil, or_false]
    rcases OrderedListWalker.within_pair within with rfl | rfl | rfl | rfl
    · exact .inr (.inl (same ⟨_, _⟩ rfl))
    · exact .inr (.inr (.inl (same ⟨_, _⟩ rfl)))
    · exact .inr (.inr (.inr (.inl (same ⟨_, _⟩ rfl))))
    · exact .inr (.inr (.inr (.inr (same ⟨_, _⟩ rfl))))

theorem keys_nodup : (known.map (keyOf prim)).Nodup := by decide +kernel

def list : ListOf libraries blocks where
  items := items
  sized := by decide
  hb := ⟨[[0, 1], [8, 0]], [([0, 1], second), ([8, 0], first)]⟩
  built := rfl
  fits _ within := encoding_fits within
  free := fun _ one _ other => List.inj_on_of_nodup_map keys_nodup (mem_known one) (mem_known other)
  apart _ _ := by
    change headerRlp.1 ≠ TrieNode.encode prim trie
    decide +kernel

theorem served : blocks.ServedBy nodes := fun _ _ _ => rfl

end TwoTransactions

end KonaSoon.Client
