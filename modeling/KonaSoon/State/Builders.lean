import KonaSoon.Lib.OrderedMap
import KonaSoon.State.Runs

namespace KonaSoon.State
open Lib Mpt

instance : LinearOrder Pubkey :=
  LinearOrder.lift' (fun pubkey => pubkey.1.map UInt8.toNat) fun _ _ same =>
    Subtype.ext (List.map_injective_iff.mpr (fun _ _ => UInt8.toNat_inj.mp) same)

section

variable (prim : Primitives) (trieRoot : List (B256 × Bytes) → B256)

def addTrieAccount (pubkey : Pubkey) (account : Account) : B256 × TrieSolanaAccount :=
  (prim.keccak256 pubkey.1, accountFromSolanaNative prim account)

/-- `SoonAccounts::state_root`. -/
def stateRoot (accounts : AccountPairs) : B256 :=
  let mptAccounts := accounts.map fun entry => addTrieAccount prim entry.1 entry.2
  trieRoot (mptAccounts.map fun entry => (entry.1, solAccountEncoder prim entry.2))

/-- The state root of `OffchainL2Builder::build_block`, after the diff of the block was written over the
accounts it started with. -/
def offchainStateRoot (soonAccountsMap : OrderedMap Pubkey Account) (diffAccounts : AccountPairs) : B256 :=
  stateRoot prim trieRoot (diffAccounts.foldl (fun accounts entry => accounts.insert entry.1 entry.2) soonAccountsMap).entries

def StandardTrieRoot : Prop :=
  ∀ entries full, (entries.map Prod.fst).Nodup → TrieNode.Canonical keyNibbles full →
    (∀ path value, TrieNode.Holds full path value ↔
      ∃ entry ∈ entries, path = (Key.ofHash entry.1).1 ∧ value = entry.2) →
    trieRoot entries = TrieNode.blind prim full

def offchainEntry (account : Account) : Option Bytes :=
  some (solAccountEncoder prim (accountFromSolanaNative prim account))

end

theorem get_merged (soonAccountsMap : OrderedMap Pubkey Account) (diffAccounts : AccountPairs) :
    (diffAccounts.foldl (fun accounts entry => accounts.insert entry.1 entry.2) soonAccountsMap).get =
      overridden soonAccountsMap.get diffAccounts := by
  induction diffAccounts generalizing soonAccountsMap with
  | nil => rfl
  | cons entry rest ih =>
      have inserted : (soonAccountsMap.insert entry.1 entry.2).get =
          Function.update soonAccountsMap.get entry.1 (some entry.2) := by
        funext pubkey
        by_cases same : pubkey = entry.1 <;> simp [OrderedMap.get_insert, same]
      rw [List.foldl_cons, ih, inserted]
      rfl

section

variable {prim : Primitives} {trieRoot : List (B256 × Bytes) → B256} {involved : Set Pubkey}

theorem stateRoot_eq (standard : StandardTrieRoot prim trieRoot)
    (apart : Set.InjOn (fun pubkey : Pubkey => prim.keccak256 pubkey.1) involved) (accounts : OrderedMap Pubkey Account)
    (known : ∀ pubkey account, accounts.get pubkey = some account → pubkey ∈ involved) :
    ∃ full, FullTrieOf prim (offchainEntry prim) accounts.get full ∧
      stateRoot prim trieRoot accounts.entries = TrieNode.blind prim full := by
  have injective : Set.InjOn (keyOf prim) involved := fun x memberX y memberY same =>
    apart memberX memberY (Key.ofHash_injective same)
  have inside : ∀ written ∈ accounts.entries, written.1 ∈ involved := fun written member =>
    known written.1 written.2 ((accounts.mem_entries_iff _ _).mp member)
  have keys := keys_distinct injective accounts.keys_nodup inside
  let entries := accounts.entries.map fun written =>
    (keyOf prim written.1, solAccountEncoder prim (accountFromSolanaNative prim written.2))
  have distinct : (entries.map Prod.fst).Nodup := by rwa [List.map_map]
  let full := TrieNode.after prim noopTrieProvider noopTrieHinter enoughFuel (TrieNode.inserts entries)
  have canonical := (TrieNode.after_represents prim noopTrieProvider noopTrieHinter (le_refl enoughFuel)
    (TrieNode.inserts entries)).1
  have holds := TrieNode.holds_inserts prim noopTrieProvider noopTrieHinter (le_refl enoughFuel) distinct
  refine ⟨full, ⟨canonical, fun path value => ?_⟩, standard _ _ ?_ canonical fun path value => ?_⟩
  · rw [holds]
    constructor
    · rintro ⟨entry, member, rfl, rfl⟩
      obtain ⟨written, inside, rfl⟩ := List.mem_map.mp member
      exact ⟨written.1, written.2, (accounts.mem_entries_iff _ _).mp inside, rfl, rfl⟩
    · rintro ⟨pubkey, account, here, stored, rfl⟩
      exact ⟨_, List.mem_map_of_mem ((accounts.mem_entries_iff _ _).mpr here), rfl, (Option.some.inj stored).symm⟩
  · rw [List.map_map]
    have hashes : (accounts.entries.map fun written => keyOf prim written.1) =
        (accounts.entries.map fun written => prim.keccak256 written.1.1).map Key.ofHash := by
      rw [List.map_map]
      rfl
    rw [hashes] at keys
    rw [List.map_map]
    exact keys.of_map
  · rw [holds, List.map_map]
    constructor
    · rintro ⟨entry, member, rfl, rfl⟩
      obtain ⟨written, inside, rfl⟩ := List.mem_map.mp member
      exact ⟨_, List.mem_map_of_mem inside, rfl, rfl⟩
    · rintro ⟨entry, member, rfl, rfl⟩
      obtain ⟨written, inside, rfl⟩ := List.mem_map.mp member
      exact ⟨_, List.mem_map_of_mem inside, rfl, rfl⟩

variable {stateOrigin withdrawalOrigin : TrieNode} {fetcher : TrieDBProvider} {hinter : TrieHinter}
  {state withdrawals : Contents} {db : TrieDB} {fuel : Nat}

theorem fullTries_differ (injective : Set.InjOn (keyOf prim) involved) {accounts : AccountMap} {live all : TrieNode}
    (known : ∀ pubkey account, accounts pubkey = some account → pubkey ∈ involved)
    (liveTrie : FullTrieOf prim (stateEntry prim) accounts live)
    (allTrie : FullTrieOf prim (offchainEntry prim) accounts all) {pubkey : Pubkey} {account : Account}
    (here : accounts pubkey = some account) (closed : account.lamports = 0) : live ≠ all := by
  rintro rfl
  obtain ⟨other, account', there, stored, same⟩ :=
    (liveTrie.2 _ _).mp ((allTrie.2 _ _).mpr ⟨pubkey, account, here, rfl, rfl⟩)
  obtain rfl := injective (known pubkey account here) (known other account' there) (Subtype.ext same)
  obtain rfl := Option.some.inj (here.symm.trans there)
  simp [stateEntry, closed] at stored

theorem fullTries_agree {accounts : AccountMap} {live all : TrieNode}
    (liveTrie : FullTrieOf prim (stateEntry prim) accounts live)
    (allTrie : FullTrieOf prim (offchainEntry prim) accounts all)
    (funded : ∀ pubkey account, accounts pubkey = some account → account.lamports ≠ 0) : live = all := by
  apply TrieNode.canonical_ext liveTrie.1 allTrie.1
  intro path value
  rw [liveTrie.2, allTrie.2]
  refine exists₂_congr fun pubkey account => and_congr_right fun here => ?_
  rw [stateEntry, if_neg (funded pubkey account here), offchainEntry]

theorem worldStates_root (sources : Sources prim fetcher hinter stateOrigin withdrawalOrigin involved)
    (enough : enoughFuel ≤ fuel)
    (tracks : Tracks prim stateOrigin withdrawalOrigin fetcher hinter state withdrawals db) {accounts : AccountMap}
    (known : ∀ pubkey account, accounts pubkey = some account → pubkey ∈ involved)
    (start : TrieOf prim stateOrigin (stateEntry prim) accounts db.rootNode) {accountDiff : AccountPairs}
    (isDiff : IsDiff involved accountDiff) (lastSlot : Nat)
    (returns : (db.updateAccounts prim fuel accountDiff lastSlot).2 = .ok ()) :
    ∃ live withdrawalRoot, FullTrieOf prim (stateEntry prim) (overridden accounts accountDiff) live ∧
      (db.worldStates prim fuel accountDiff lastSlot).2 = .ok (TrieNode.blind prim live, withdrawalRoot) := by
  have keys := keys_distinct sources.injective isDiff.1 isDiff.2
  have updates := updateAccounts_updates sources.state sources.withdrawal enough tracks lastSlot keys
  have next := updates.tracks_of_ok returns
  have lists := (trieOf_iff_lists sources.state tracks.root _ _).mp start
  have nextLists : Lists prim (stateEntry prim) (overridden accounts accountDiff)
      (stateAfter prim state (accountDiff.map (TrieDB.hashAccount prim))) :=
    (lists_overridden sources.injective lists known isDiff.1 isDiff.2 _).mpr fun _ _ => rfl
  obtain ⟨live, seen, liveTrie⟩ := (trieOf_iff_lists sources.state next.root _ _).mpr nextLists
  refine ⟨live, TrieNode.blind prim (db.updateAccounts prim fuel accountDiff lastSlot).1.withdrawalNode, liveTrie, ?_⟩
  rw [← seen.blind_eq sources.state.canonical, TrieDB.worldStates]
  generalize db.updateAccounts prim fuel accountDiff lastSlot = updated at returns
  obtain ⟨db', result⟩ := updated
  obtain rfl := returns
  rfl

/-- The two roots agree if and only if no account of the updated map is without lamports. -/
theorem builders_agree_iff (sources : Sources prim fetcher hinter stateOrigin withdrawalOrigin involved)
    (enough : enoughFuel ≤ fuel) (standard : StandardTrieRoot prim trieRoot)
    (tracks : Tracks prim stateOrigin withdrawalOrigin fetcher hinter state withdrawals db)
    (accounts : OrderedMap Pubkey Account)
    (known : ∀ pubkey account, accounts.get pubkey = some account → pubkey ∈ involved)
    (start : TrieOf prim stateOrigin (stateEntry prim) accounts.get db.rootNode) (accountDiff : AccountPairs)
    (isDiff : IsDiff involved accountDiff) (lastSlot : Nat)
    (free : ∀ live all, FullTrieOf prim (stateEntry prim) (overridden accounts.get accountDiff) live →
      FullTrieOf prim (offchainEntry prim) (overridden accounts.get accountDiff) all →
      TrieNode.CollisionFree prim (TrieNode.nodes live ∪ TrieNode.nodes all)) :
    (∃ withdrawalRoot, (db.worldStates prim fuel accountDiff lastSlot).2 =
        .ok (offchainStateRoot prim trieRoot accounts accountDiff, withdrawalRoot)) ↔
      ∀ pubkey account, overridden accounts.get accountDiff pubkey = some account → account.lamports ≠ 0 := by
  have merged := get_merged accounts accountDiff
  have mergedKnown := overridden_known known isDiff.2
  obtain ⟨all, allTrie, offchain⟩ := stateRoot_eq standard sources.distinctHashes
    (accountDiff.foldl (fun accounts entry => accounts.insert entry.1 entry.2) accounts) (merged ▸ mergedKnown)
  rw [merged] at allTrie
  rw [offchainStateRoot, offchain]
  constructor
  · rintro ⟨withdrawalRoot, agree⟩ pubkey account here closed
    have returns : (db.updateAccounts prim fuel accountDiff lastSlot).2 = .ok () := by
      rw [TrieDB.worldStates] at agree
      generalize db.updateAccounts prim fuel accountDiff lastSlot = updated at agree
      obtain ⟨db', _ | _⟩ := updated
      · cases agree
      · rfl
    obtain ⟨live, _, liveTrie, root⟩ := worldStates_root sources enough tracks known start isDiff lastSlot returns
    have roots := congrArg Prod.fst (Except.ok.inj (root.symm.trans agree))
    exact fullTries_differ sources.injective mergedKnown liveTrie allTrie here closed
      (TrieNode.blind_injective liveTrie.1 allTrie.1 (free live all liveTrie allTrie) roots)
  · intro funded
    have keys := keys_distinct sources.injective isDiff.1 isDiff.2
    have updates := updateAccounts_updates sources.state sources.withdrawal enough tracks lastSlot keys
    have returns := (updates.1 (by
      rw [List.forall_mem_map]
      intro written member closed
      exact absurd closed (funded written.1 written.2 (overridden_mem isDiff.1 member)))).1
    obtain ⟨live, withdrawalRoot, liveTrie, root⟩ :=
      worldStates_root sources enough tracks known start isDiff lastSlot returns
    rw [fullTries_agree liveTrie allTrie funded] at root
    exact ⟨withdrawalRoot, root⟩

end

def insertedRoot (prim : Primitives) (entries : List (B256 × Bytes)) : B256 :=
  TrieNode.blind prim (TrieNode.after prim noopTrieProvider noopTrieHinter enoughFuel
    (TrieNode.inserts (entries.map fun entry => (Key.ofHash entry.1, entry.2))))

theorem insertedRoot_standard (prim : Primitives) : StandardTrieRoot prim (insertedRoot prim) := by
  intro entries full distinct canonical holds
  have keys : ((entries.map fun entry => (Key.ofHash entry.1, entry.2)).map Prod.fst).Nodup := by
    have mapped := distinct.map Key.ofHash_injective
    rwa [List.map_map] at mapped ⊢
  have represents := TrieNode.after_represents prim noopTrieProvider noopTrieHinter (le_refl enoughFuel)
    (TrieNode.inserts (entries.map fun entry => (Key.ofHash entry.1, entry.2)))
  refine congrArg (TrieNode.blind prim) (TrieNode.canonical_ext represents.1 canonical fun path value => ?_)
  rw [TrieNode.holds_inserts prim noopTrieProvider noopTrieHinter (le_refl enoughFuel) keys, holds]
  constructor
  · rintro ⟨entry, member, rfl, rfl⟩
    obtain ⟨written, inside, rfl⟩ := List.mem_map.mp member
    exact ⟨written, inside, rfl, rfl⟩
  · rintro ⟨written, inside, rfl, rfl⟩
    exact ⟨_, List.mem_map_of_mem inside, rfl, rfl⟩

def closedAlice : OrderedMap Pubkey Account := OrderedMap.empty.insert alice { systemAccount with lamports := 0 }

/-- The stateless root of an account without lamports is that of the empty trie; the offchain root is
not. -/
theorem builders_disagree :
    StandardTrieRoot (.tabulated accountDigests) (insertedRoot (.tabulated accountDigests)) ∧
    TrieOf (.tabulated accountDigests) .empty (stateEntry (.tabulated accountDigests)) closedAlice.get emptyDb.rootNode ∧
    (emptyDb.worldStates (.tabulated accountDigests) enoughFuel [] 0).2 = .ok (emptyRoot, emptyRoot) ∧
    offchainStateRoot (.tabulated accountDigests) (insertedRoot (.tabulated accountDigests)) closedAlice [] ≠
      emptyRoot := by
  have lists : Lists (.tabulated accountDigests) (stateEntry (.tabulated accountDigests)) closedAlice.get
      (fun _ => none) := by
    intro key value
    simp only [reduceCtorEq, false_iff]
    rintro ⟨pubkey, account, here, stored, -⟩
    rw [closedAlice, OrderedMap.get_insert] at here
    split at here
    · cases here
      cases stored
    · cases here
  exact ⟨insertedRoot_standard _, (trieOf_iff_lists emptyBacked emptyDb_tracks.root _ _).mpr lists,
    by decide +kernel, by decide +kernel⟩

def aliceLeaf : TrieNode := .leaf (Key.ofHash hashedAlice).1 hashedBridgeAccount.toBytes

theorem aliceLeaf_fullTrie {entry : Account → Option Bytes} (stored : entry bridgeAccount = some hashedBridgeAccount.toBytes)
    {full : TrieNode} (fullTrie : FullTrieOf (.tabulated accountDigests) entry
      (overridden (OrderedMap.empty : OrderedMap Pubkey Account).get [(alice, bridgeAccount)]) full) :
    full = aliceLeaf := by
  refine TrieNode.canonical_ext fullTrie.1 (.leaf (Key.ofHash hashedAlice).2.1 (Key.ofHash hashedAlice).2.2) fun path value => ?_
  have alone : ∀ pubkey account, overridden (OrderedMap.empty : OrderedMap Pubkey Account).get [(alice, bridgeAccount)]
      pubkey = some account ↔ pubkey = alice ∧ account = bridgeAccount := by
    intro pubkey account
    by_cases same : pubkey = alice
    · simp [overridden, same, eq_comm]
    · simp [overridden, same, OrderedMap.get, OrderedMap.empty]
  rw [fullTrie.2, aliceLeaf, TrieNode.holds_leaf]
  constructor
  · rintro ⟨pubkey, account, here, holds, rfl⟩
    obtain ⟨rfl, rfl⟩ := (alone _ _).mp here
    exact ⟨by decide +kernel, Option.some.inj (holds.symm.trans stored)⟩
  · rintro ⟨rfl, rfl⟩
    exact ⟨alice, bridgeAccount, (alone _ _).mpr ⟨rfl, rfl⟩, stored, by decide +kernel⟩

theorem aliceLeaf_collisionFree :
    TrieNode.CollisionFree (.tabulated accountDigests) (TrieNode.nodes aliceLeaf ∪ TrieNode.nodes aliceLeaf) := by
  have listed : ∀ bytes ∈ ({[0x80]} ∪ Set.image (TrieNode.encode (.tabulated accountDigests))
      (TrieNode.nodes aliceLeaf ∪ TrieNode.nodes aliceLeaf) : Set (List UInt8)),
      bytes = [0x80] ∨ bytes = TrieNode.encode (.tabulated accountDigests) aliceLeaf := by
    rintro bytes (rfl | ⟨node, within, rfl⟩)
    · exact .inl rfl
    · rw [Set.union_self] at within
      obtain rfl := TrieNode.within_childless (by simp [aliceLeaf]) (by simp [aliceLeaf]) within
      exact .inr rfl
  have apart : (Primitives.tabulated accountDigests).keccak256 [0x80] ≠
      (Primitives.tabulated accountDigests).keccak256 (TrieNode.encode (.tabulated accountDigests) aliceLeaf) := by
    decide +kernel
  intro x memberX y memberY same
  rcases listed x memberX with rfl | rfl <;> rcases listed y memberY with rfl | rfl
  · rfl
  · exact absurd same apart
  · exact absurd same.symm apart
  · rfl

theorem builders_agree_opened : ∃ withdrawalRoot,
    (emptyDb.worldStates (.tabulated accountDigests) enoughFuel [(alice, bridgeAccount)] 0).2 =
      .ok (offchainStateRoot (.tabulated accountDigests) (insertedRoot (.tabulated accountDigests)) .empty
        [(alice, bridgeAccount)], withdrawalRoot) := by
  have isDiff : IsDiff {alice} [(alice, bridgeAccount)] := by simp [IsDiff]
  apply (builders_agree_iff emptySources (le_refl enoughFuel) (insertedRoot_standard _) emptyDb_tracks .empty
    nothing_known (emptyDb_trieOf _) _ isDiff 0 ?_).mpr
  · intro pubkey account here
    by_cases same : pubkey = alice
    · simp only [overridden, updateEach_cons, updateEach_nil, same, Function.update_self, Option.some.injEq] at here
      subst here
      decide
    · simp [overridden, same, OrderedMap.get, OrderedMap.empty] at here
  · intro live all liveTrie allTrie
    rw [aliceLeaf_fullTrie (by decide +kernel) liveTrie, aliceLeaf_fullTrie (by decide +kernel) allTrie]
    exact aliceLeaf_collisionFree

end KonaSoon.State
