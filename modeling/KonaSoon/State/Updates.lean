import KonaSoon.Lib.KeyedMap
import KonaSoon.Mpt.Refinement
import KonaSoon.State.TrieDB

namespace KonaSoon.State
open Lib Mpt

abbrev AccountMap := Pubkey → Option Account

section

variable (prim : Primitives)

def keyOf (pubkey : Pubkey) : Key := .ofHash (prim.keccak256 pubkey.1)

def stateEntry (account : Account) : Option Bytes :=
  if account.lamports = 0 then none else some (solAccountEncoder prim (accountFromSolanaNative prim account))

def withdrawalEntry (account : Account) : Option Bytes :=
  if account.owner = withdrawalProgramPubkey ∧ account.lamports ≠ 0 then
    some (withdrawalAccountEncoder (accountFromSolanaNative prim account))
  else none

def overridden (accounts : AccountMap) (accountDiff : AccountPairs) : AccountMap :=
  updateEach Prod.fst (fun entry _ => some entry.2) accounts accountDiff

/-- The trie that maps the hashed key of each account that has an entry to that entry, and nothing
else. -/
def FullTrieOf (entry : Account → Option Bytes) (accounts : AccountMap) (full : TrieNode) : Prop :=
  TrieNode.Canonical keyNibbles full ∧ ∀ path value, TrieNode.Holds full path value ↔
    ∃ pubkey account, accounts pubkey = some account ∧ entry account = some value ∧ path = (keyOf prim pubkey).1

def TrieOf (origin : TrieNode) (entry : Account → Option Bytes) (accounts : AccountMap) (node : TrieNode) : Prop :=
  ∃ full, TrieNode.SeenAs prim origin full node ∧ FullTrieOf prim entry accounts full

def withdrawalLeft (account : Account) (before : Option Bytes) : Option Bytes :=
  if account.owner = withdrawalProgramPubkey then withdrawalEntry prim account else before

def HashedAccount.key (entry : HashedAccount) : Key := .ofHash entry.hashedAddress

def stateAfter (state : Contents) (entries : List HashedAccount) : Contents :=
  updateEach HashedAccount.key (fun entry _ => stateEntry prim entry.account) state entries

def withdrawalsAfter (withdrawals : Contents) (entries : List HashedAccount) : Contents :=
  updateEach HashedAccount.key (fun entry => withdrawalLeft prim entry.account) withdrawals entries

end

def Closable (state withdrawals : Contents) (key : Key) (account : Account) : Prop :=
  account.lamports = 0 → state key ≠ none ∧ (account.owner = withdrawalProgramPubkey → withdrawals key ≠ none)

structure Tracks (prim : Primitives) (stateOrigin withdrawalOrigin : TrieNode) (fetcher : TrieDBProvider)
    (hinter : TrieHinter) (state withdrawals : Contents) (db : TrieDB) : Prop where
  root : TrieNode.Shows prim stateOrigin state db.rootNode
  withdrawal : TrieNode.Shows prim withdrawalOrigin withdrawals db.withdrawalNode
  sameFetcher : db.fetcher = fetcher
  sameHinter : db.hinter = hinter

section

variable {prim : Primitives} {stateOrigin withdrawalOrigin : TrieNode} {fetcher : TrieDBProvider}
  {hinter : TrieHinter} {state withdrawals : Contents} {db : TrieDB} {fuel : Nat}
  (stateBacked : TrieNode.Backed prim fetcher.toTrieProvider hinter stateOrigin)
  (withdrawalBacked : TrieNode.Backed prim fetcher.toTrieProvider hinter withdrawalOrigin)
  (enough : enoughFuel ≤ fuel)
  (tracks : Tracks prim stateOrigin withdrawalOrigin fetcher hinter state withdrawals db)

include stateBacked withdrawalBacked enough tracks

omit withdrawalBacked in
theorem deleteRoot_present {key : Key} (present : state key ≠ none) (lastSlot : Nat) :
    (db.deleteRoot prim fuel key.1 lastSlot).2 = .ok () ∧
      Tracks prim stateOrigin withdrawalOrigin fetcher hinter (Function.update state key none) withdrawals
        (db.deleteRoot prim fuel key.1 lastSlot).1 := by
  obtain ⟨root, withdrawal, rfl, rfl⟩ := tracks
  obtain ⟨returns, next⟩ := root.delete_present stateBacked enough present lastSlot
  exact ⟨congrArg TrieDB.fromTrieNode returns, next, withdrawal, rfl, rfl⟩

omit withdrawalBacked in
theorem deleteRoot_absent {key : Key} (absent : state key = none) (lastSlot : Nat) :
    (db.deleteRoot prim fuel key.1 lastSlot).2 = .error (.error (.trieNode .keyNotFound)) := by
  obtain ⟨root, withdrawal, rfl, rfl⟩ := tracks
  exact congrArg TrieDB.fromTrieNode (root.delete_absent stateBacked enough absent lastSlot)

omit stateBacked in
theorem deleteWithdrawal_present {key : Key} (present : withdrawals key ≠ none) (lastSlot : Nat) :
    (db.deleteWithdrawal prim fuel key.1 lastSlot).2 = .ok () ∧
      Tracks prim stateOrigin withdrawalOrigin fetcher hinter state (Function.update withdrawals key none)
        (db.deleteWithdrawal prim fuel key.1 lastSlot).1 := by
  obtain ⟨root, withdrawal, rfl, rfl⟩ := tracks
  obtain ⟨returns, next⟩ := withdrawal.delete_present withdrawalBacked enough present lastSlot
  exact ⟨congrArg TrieDB.fromTrieNode returns, root, next, rfl, rfl⟩

omit stateBacked in
theorem deleteWithdrawal_absent {key : Key} (absent : withdrawals key = none) (lastSlot : Nat) :
    (db.deleteWithdrawal prim fuel key.1 lastSlot).2 = .error (.error (.trieNode .keyNotFound)) := by
  obtain ⟨root, withdrawal, rfl, rfl⟩ := tracks
  exact congrArg TrieDB.fromTrieNode (withdrawal.delete_absent withdrawalBacked enough absent lastSlot)

omit withdrawalBacked in
theorem insertRoot_spec (key : Key) (value : Bytes) :
    (db.insertRoot prim fuel key.1 value).2 = .ok () ∧
      Tracks prim stateOrigin withdrawalOrigin fetcher hinter (Function.update state key (some value)) withdrawals
        (db.insertRoot prim fuel key.1 value).1 := by
  obtain ⟨root, withdrawal, rfl, rfl⟩ := tracks
  obtain ⟨returns, next⟩ := root.insert stateBacked enough key value
  exact ⟨congrArg TrieDB.fromTrieNode returns, next, withdrawal, rfl, rfl⟩

omit stateBacked in
theorem insertWithdrawal_spec (key : Key) (value : Bytes) :
    (db.insertWithdrawal prim fuel key.1 value).2 = .ok () ∧
      Tracks prim stateOrigin withdrawalOrigin fetcher hinter state (Function.update withdrawals key (some value))
        (db.insertWithdrawal prim fuel key.1 value).1 := by
  obtain ⟨root, withdrawal, rfl, rfl⟩ := tracks
  obtain ⟨returns, next⟩ := withdrawal.insert withdrawalBacked enough key value
  exact ⟨congrArg TrieDB.fromTrieNode returns, root, next, rfl, rfl⟩

def Updates (prim : Primitives) (stateOrigin withdrawalOrigin : TrieNode) (fetcher : TrieDBProvider)
    (hinter : TrieHinter) (state withdrawals : Contents) (entries : List HashedAccount)
    (result : TrieDB × TrieDBResult Unit) : Prop :=
  ((∀ entry ∈ entries, Closable state withdrawals entry.key entry.account) → result.2 = .ok () ∧
    Tracks prim stateOrigin withdrawalOrigin fetcher hinter (stateAfter prim state entries)
      (withdrawalsAfter prim withdrawals entries) result.1) ∧
  (¬ (∀ entry ∈ entries, Closable state withdrawals entry.key entry.account) →
    result.2 = .error (.error (.trieNode .keyNotFound)))

theorem closeAccount_updates (lastSlot : Nat) {entry : HashedAccount} (closed : entry.account.lamports = 0) :
    Updates prim stateOrigin withdrawalOrigin fetcher hinter state withdrawals [entry]
      (db.updateAccount prim fuel lastSlot entry) := by
  have path : Nibbles.unpack entry.hashedAddress.1 = entry.key.1 := rfl
  simp only [Updates, List.forall_mem_singleton, stateAfter, withdrawalsAfter, updateEach_cons, updateEach_nil,
    TrieDB.updateAccount, path, closed, if_true, Closable, forall_const, stateEntry, withdrawalLeft]
  by_cases absent : state entry.key = none
  · have fails := deleteRoot_absent stateBacked enough tracks absent lastSlot
    generalize db.deleteRoot prim fuel entry.key.1 lastSlot = deleted at fails
    obtain ⟨db', result⟩ := deleted
    obtain rfl := fails
    exact ⟨fun both => absurd absent both.1, fun _ => rfl⟩
  · obtain ⟨returns, next⟩ := deleteRoot_present stateBacked enough tracks absent lastSlot
    generalize db.deleteRoot prim fuel entry.key.1 lastSlot = deleted at returns next
    obtain ⟨db', result⟩ := deleted
    obtain rfl := returns
    by_cases bridge : entry.account.owner = withdrawalProgramPubkey
    · simp only [bridge, if_true, forall_const, withdrawalEntry, closed, ne_eq, not_true, and_false, if_false]
      by_cases absent' : withdrawals entry.key = none
      · have fails := deleteWithdrawal_absent withdrawalBacked enough next absent' lastSlot
        exact ⟨fun both => absurd absent' both.2, fun _ => fails⟩
      · have deletes := deleteWithdrawal_present withdrawalBacked enough next absent' lastSlot
        exact ⟨fun _ => deletes, fun not => absurd ⟨absent, absent'⟩ not⟩
    · simp only [bridge, if_false, Function.update_eq_self]
      exact ⟨fun _ => ⟨trivial, next⟩, fun not => absurd ⟨absent, False.elim⟩ not⟩

theorem writeAccount_updates (lastSlot : Nat) {entry : HashedAccount} (live : entry.account.lamports ≠ 0) :
    Updates prim stateOrigin withdrawalOrigin fetcher hinter state withdrawals [entry]
      (db.updateAccount prim fuel lastSlot entry) := by
  have path : Nibbles.unpack entry.hashedAddress.1 = entry.key.1 := rfl
  refine ⟨fun _ => ?_, fun not => absurd (by simp [Closable, live]) not⟩
  simp only [stateAfter, withdrawalsAfter, updateEach_cons, updateEach_nil, TrieDB.updateAccount, path, live, if_false,
    stateEntry, withdrawalLeft]
  obtain ⟨returns, next⟩ := insertRoot_spec stateBacked enough tracks entry.key
    (solAccountEncoder prim (accountFromSolanaNative prim entry.account))
  generalize db.insertRoot prim fuel entry.key.1 _ = inserted at returns next
  obtain ⟨db', result⟩ := inserted
  obtain rfl := returns
  by_cases bridge : entry.account.owner = withdrawalProgramPubkey
  · simp only [bridge, if_true, withdrawalEntry, live, ne_eq, not_false_iff, and_self]
    exact insertWithdrawal_spec withdrawalBacked enough next entry.key _
  · simp only [bridge, if_false, Function.update_eq_self]
    exact ⟨trivial, next⟩

theorem updateAccount_updates (lastSlot : Nat) (entry : HashedAccount) :
    Updates prim stateOrigin withdrawalOrigin fetcher hinter state withdrawals [entry]
      (db.updateAccount prim fuel lastSlot entry) := by
  by_cases closed : entry.account.lamports = 0
  · exact closeAccount_updates stateBacked withdrawalBacked enough tracks lastSlot closed
  · exact writeAccount_updates stateBacked withdrawalBacked enough tracks lastSlot closed

omit stateBacked withdrawalBacked enough tracks in
theorem closable_after {entry other : HashedAccount} (apart : other.key ≠ entry.key) :
    Closable (stateAfter prim state [entry]) (withdrawalsAfter prim withdrawals [entry]) other.key other.account ↔
      Closable state withdrawals other.key other.account := by
  simp [Closable, stateAfter, withdrawalsAfter, Function.update_of_ne apart]

theorem updateSorted_updates (lastSlot : Nat) {entries : List HashedAccount}
    (distinct : (entries.map HashedAccount.key).Nodup) :
    Updates prim stateOrigin withdrawalOrigin fetcher hinter state withdrawals entries
      (db.updateSorted prim fuel lastSlot entries) := by
  induction entries generalizing db state withdrawals with
  | nil => exact ⟨fun _ => ⟨rfl, tracks⟩, fun not => absurd nofun not⟩
  | cons entry rest ih =>
      obtain ⟨fresh, distinctRest⟩ := List.nodup_cons.mp distinct
      have apart : ∀ other ∈ rest, other.key ≠ entry.key := fun other member same =>
        fresh (same ▸ List.mem_map_of_mem member)
      have head := updateAccount_updates stateBacked withdrawalBacked enough tracks lastSlot entry
      simp only [Updates, List.forall_mem_singleton] at head
      simp only [Updates, TrieDB.updateSorted, List.forall_mem_cons]
      generalize db.updateAccount prim fuel lastSlot entry = updated at head
      obtain ⟨db', result⟩ := updated
      by_cases closable : Closable state withdrawals entry.key entry.account
      · obtain ⟨rfl, next⟩ := head.1 closable
        obtain ⟨succeeds, fails⟩ := ih next distinctRest
        -- The entries that follow see the contents from before this one.
        have same : (∀ other ∈ rest, Closable (stateAfter prim state [entry]) (withdrawalsAfter prim withdrawals [entry])
            other.key other.account) ↔ ∀ other ∈ rest, Closable state withdrawals other.key other.account :=
          forall₂_congr fun other member => closable_after (apart other member)
        rw [same] at succeeds fails
        exact ⟨fun all => succeeds all.2, fun not => fails fun all => not ⟨closable, all⟩⟩
      · obtain rfl := head.2 closable
        exact ⟨fun all => absurd all.1 closable, fun _ => rfl⟩

omit stateBacked withdrawalBacked enough tracks in
theorem Updates.tracks_of_ok {entries : List HashedAccount} {result : TrieDB × TrieDBResult Unit}
    (updates : Updates prim stateOrigin withdrawalOrigin fetcher hinter state withdrawals entries result)
    (returns : result.2 = .ok ()) :
    Tracks prim stateOrigin withdrawalOrigin fetcher hinter (stateAfter prim state entries)
      (withdrawalsAfter prim withdrawals entries) result.1 := by
  by_cases closable : ∀ entry ∈ entries, Closable state withdrawals entry.key entry.account
  · exact (updates.1 closable).2
  · rw [updates.2 closable] at returns
    cases returns

omit stateBacked withdrawalBacked enough tracks in
theorem Updates.perm {entries entries' : List HashedAccount} (perm : entries.Perm entries')
    (distinct : (entries.map HashedAccount.key).Nodup) {result : TrieDB × TrieDBResult Unit}
    (updates : Updates prim stateOrigin withdrawalOrigin fetcher hinter state withdrawals entries result) :
    Updates prim stateOrigin withdrawalOrigin fetcher hinter state withdrawals entries' result := by
  have same : (∀ entry ∈ entries, Closable state withdrawals entry.key entry.account) ↔
      ∀ entry ∈ entries', Closable state withdrawals entry.key entry.account :=
    forall_congr' fun entry => by rw [perm.mem_iff]
  unfold Updates stateAfter withdrawalsAfter at *
  rwa [← same, ← updateEach_perm _ perm distinct, ← updateEach_perm _ perm distinct]

omit stateBacked withdrawalBacked enough tracks in
theorem key_hashAccount (prim : Primitives) (accountDiff : AccountPairs) :
    (accountDiff.map (TrieDB.hashAccount prim)).map HashedAccount.key =
      accountDiff.map fun entry => keyOf prim entry.1 := by
  rw [List.map_map]
  rfl

theorem updateAccounts_updates (lastSlot : Nat) {accountDiff : AccountPairs}
    (distinct : (accountDiff.map fun entry => keyOf prim entry.1).Nodup) :
    Updates prim stateOrigin withdrawalOrigin fetcher hinter state withdrawals (accountDiff.map (TrieDB.hashAccount prim))
      (db.updateAccounts prim fuel accountDiff lastSlot) := by
  have perm := List.perm_insertionSort (fun a b : HashedAccount => a.hashedAddress.1 ≤ b.hashedAddress.1)
    (accountDiff.map (TrieDB.hashAccount prim))
  have sortedDistinct := ((perm.map HashedAccount.key).nodup_iff).mpr (by rwa [key_hashAccount])
  exact (updateSorted_updates stateBacked withdrawalBacked enough tracks lastSlot sortedDistinct).perm perm
    sortedDistinct

end

def Lists (prim : Primitives) (entry : Account → Option Bytes) (accounts : AccountMap) (contents : Contents) : Prop :=
  ∀ key value, contents key = some value ↔
    ∃ pubkey account, accounts pubkey = some account ∧ entry account = some value ∧ key = keyOf prim pubkey

theorem trieOf_iff_lists {prim : Primitives} {fetcher : TrieProvider} {hinter : TrieHinter} {origin node : TrieNode}
    {contents : Contents} (backed : TrieNode.Backed prim fetcher hinter origin)
    (shows : TrieNode.Shows prim origin contents node) (entry : Account → Option Bytes) (accounts : AccountMap) :
    TrieOf prim origin entry accounts node ↔ Lists prim entry accounts contents := by
  obtain ⟨full, seen, canonical, represents⟩ := shows
  constructor
  · rintro ⟨full', seen', -, holds⟩ key value
    obtain rfl := seen.unique backed.canonical backed.free seen'
    rw [← represents, holds]
    simp only [Subtype.ext_iff]
  · intro lists
    refine ⟨full, seen, canonical, fun path value => ⟨fun holds => ?_, ?_⟩⟩
    · obtain ⟨pubkey, account, known, written, same⟩ :=
        (lists ⟨path, canonical.path holds⟩ value).mp ((represents ⟨path, canonical.path holds⟩ value).mp holds)
      exact ⟨pubkey, account, known, written, congrArg Subtype.val same⟩
    · rintro ⟨pubkey, account, known, written, rfl⟩
      exact (represents _ _).mpr ((lists _ _).mpr ⟨pubkey, account, known, written, rfl⟩)

section

variable {prim : Primitives} {involved : Set Pubkey} (injective : Set.InjOn (keyOf prim) involved)
  {entry : Account → Option Bytes} {accounts : AccountMap} {contents : Contents}

include injective

theorem Lists.entry_at (lists : Lists prim entry accounts contents)
    (known : ∀ pubkey account, accounts pubkey = some account → pubkey ∈ involved) {pubkey : Pubkey}
    (member : pubkey ∈ involved) : contents (keyOf prim pubkey) = (accounts pubkey).bind entry := by
  apply Option.ext
  intro value
  rw [lists, Option.bind_eq_some_iff]
  constructor
  · rintro ⟨other, account, here, written, same⟩
    obtain rfl := injective member (known other account here) same
    exact ⟨account, here, written⟩
  · rintro ⟨account, here, written⟩
    exact ⟨pubkey, account, here, written, rfl⟩

omit injective in
theorem overridden_mem {accountDiff : AccountPairs} (distinct : (accountDiff.map Prod.fst).Nodup)
    {written : Pubkey × Account} (member : written ∈ accountDiff) :
    overridden accounts accountDiff written.1 = some written.2 := updateEach_mem accounts distinct member

omit injective in
theorem overridden_other {accountDiff : AccountPairs} {pubkey : Pubkey}
    (other : ∀ written ∈ accountDiff, written.1 ≠ pubkey) : overridden accounts accountDiff pubkey = accounts pubkey :=
  updateEach_other accounts other

omit injective in
theorem overridden_known (known : ∀ pubkey account, accounts pubkey = some account → pubkey ∈ involved)
    {accountDiff : AccountPairs} (diffKnown : ∀ written ∈ accountDiff, written.1 ∈ involved) :
    ∀ pubkey account, overridden accounts accountDiff pubkey = some account → pubkey ∈ involved := by
  intro pubkey account here
  by_cases written : ∃ entry ∈ accountDiff, entry.1 = pubkey
  · obtain ⟨entry, member, rfl⟩ := written
    exact diffKnown entry member
  · rw [overridden_other fun entry member same => written ⟨entry, member, same⟩] at here
    exact known pubkey account here

theorem keys_distinct {accountDiff : AccountPairs} (distinct : (accountDiff.map Prod.fst).Nodup)
    (diffKnown : ∀ written ∈ accountDiff, written.1 ∈ involved) :
    (accountDiff.map fun entry => keyOf prim entry.1).Nodup := by
  have apart : ∀ x ∈ accountDiff.map Prod.fst, ∀ y ∈ accountDiff.map Prod.fst, keyOf prim x = keyOf prim y → x = y := by
    intro x memberX y memberY same
    obtain ⟨entry, inside, rfl⟩ := List.mem_map.mp memberX
    obtain ⟨entry', inside', rfl⟩ := List.mem_map.mp memberY
    exact injective (diffKnown entry inside) (diffKnown entry' inside') same
  have mapped := distinct.map_on apart
  rwa [List.map_map] at mapped

theorem lists_overridden (lists : Lists prim entry accounts contents)
    (known : ∀ pubkey account, accounts pubkey = some account → pubkey ∈ involved) {accountDiff : AccountPairs}
    (distinct : (accountDiff.map Prod.fst).Nodup) (diffKnown : ∀ written ∈ accountDiff, written.1 ∈ involved)
    (value : HashedAccount → Option Bytes → Option Bytes) :
    Lists prim entry (overridden accounts accountDiff)
        (updateEach HashedAccount.key value contents (accountDiff.map (TrieDB.hashAccount prim))) ↔
      ∀ written ∈ accountDiff,
        value (TrieDB.hashAccount prim written) (contents (keyOf prim written.1)) = entry written.2 := by
  have keys := keys_distinct injective distinct diffKnown
  rw [← key_hashAccount] at keys
  have atDiff : ∀ written ∈ accountDiff,
      updateEach HashedAccount.key value contents (accountDiff.map (TrieDB.hashAccount prim)) (keyOf prim written.1) =
        value (TrieDB.hashAccount prim written) (contents (keyOf prim written.1)) := fun written member =>
    updateEach_mem contents keys (List.mem_map_of_mem member)
  constructor
  · intro lists' written member
    rw [← atDiff written member, lists'.entry_at injective (overridden_known known diffKnown) (diffKnown written member),
      overridden_mem distinct member]
    rfl
  · intro follows key stored
    by_cases inDiff : ∃ written ∈ accountDiff, keyOf prim written.1 = key
    · obtain ⟨written, member, rfl⟩ := inDiff
      rw [atDiff written member, follows written member]
      constructor
      · intro here
        exact ⟨written.1, written.2, overridden_mem distinct member, here, rfl⟩
      · rintro ⟨pubkey, account, here, holds, same⟩
        obtain rfl := injective (diffKnown written member) (overridden_known known diffKnown pubkey account here) same
        rw [overridden_mem distinct member] at here
        rwa [Option.some.inj here]
    · have apart : ∀ written ∈ accountDiff, keyOf prim written.1 ≠ key := fun written member same =>
        inDiff ⟨written, member, same⟩
      have other : ∀ hashed ∈ accountDiff.map (TrieDB.hashAccount prim), hashed.key ≠ key := by
        intro hashed member
        obtain ⟨written, inside, rfl⟩ := List.mem_map.mp member
        exact apart written inside
      rw [updateEach_other contents other, lists]
      have sameAccount : ∀ pubkey, key = keyOf prim pubkey → overridden accounts accountDiff pubkey = accounts pubkey := by
        rintro pubkey rfl
        exact overridden_other fun written member same => apart written member (by rw [same])
      constructor
      · rintro ⟨pubkey, account, here, holds, same⟩
        exact ⟨pubkey, account, (sameAccount pubkey same).trans here, holds, same⟩
      · rintro ⟨pubkey, account, here, holds, same⟩
        exact ⟨pubkey, account, (sameAccount pubkey same).symm.trans here, holds, same⟩

end

end KonaSoon.State
