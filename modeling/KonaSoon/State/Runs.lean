import KonaSoon.State.Updates

namespace KonaSoon.State
open Lib Mpt

/-- The provider, the hinter and the hash function answer as they should for the two tries and for the
accounts of a run. -/
structure Sources (prim : Primitives) (fetcher : TrieDBProvider) (hinter : TrieHinter)
    (stateOrigin withdrawalOrigin : TrieNode) (involved : Set Pubkey) : Prop where
  state : TrieNode.Backed prim fetcher.toTrieProvider hinter stateOrigin
  withdrawal : TrieNode.Backed prim fetcher.toTrieProvider hinter withdrawalOrigin
  distinctHashes : Set.InjOn (fun pubkey : Pubkey => prim.keccak256 pubkey.1) involved

def IsDiff (involved : Set Pubkey) (accountDiff : AccountPairs) : Prop :=
  (accountDiff.map Prod.fst).Nodup ∧ ∀ written ∈ accountDiff, written.1 ∈ involved

/-- `holds` of the account map, the database and the result after every diff of a run. -/
def Throughout {α : Type} (step : TrieDB → AccountPairs → Nat → TrieDB × TrieDBResult α)
    (holds : AccountMap → TrieDB → TrieDBResult α → Prop) : AccountMap → TrieDB → List (AccountPairs × Nat) → Prop
  | _, _, [] => True
  | accounts, db, (accountDiff, lastSlot) :: rest =>
      holds (overridden accounts accountDiff) (step db accountDiff lastSlot).1 (step db accountDiff lastSlot).2 ∧
        Throughout step holds (overridden accounts accountDiff) (step db accountDiff lastSlot).1 rest

/-- The accounts a run closes are live, and those it closes under the bridge program have a withdrawal
entry. -/
def ClosesHeld (prim : Primitives) : AccountMap → Contents → List (AccountPairs × Nat) → Prop
  | _, _, [] => True
  | accounts, withdrawals, (accountDiff, _) :: rest =>
      (∀ written ∈ accountDiff, written.2.lamports = 0 →
        (∃ account, accounts written.1 = some account ∧ account.lamports ≠ 0) ∧
        (written.2.owner = withdrawalProgramPubkey → withdrawals (keyOf prim written.1) ≠ none)) ∧
      ClosesHeld prim (overridden accounts accountDiff)
        (withdrawalsAfter prim withdrawals (accountDiff.map (TrieDB.hashAccount prim))) rest

def KeepsBridge : AccountMap → List (AccountPairs × Nat) → Prop
  | _, [] => True
  | accounts, (accountDiff, _) :: rest =>
      (∀ written ∈ accountDiff, ∀ account, accounts written.1 = some account →
        account.owner = withdrawalProgramPubkey → account.lamports ≠ 0 → written.2.owner = withdrawalProgramPubkey) ∧
      KeepsBridge (overridden accounts accountDiff) rest

section

variable {prim : Primitives} {stateOrigin withdrawalOrigin : TrieNode} {fetcher : TrieDBProvider}
  {hinter : TrieHinter} {involved : Set Pubkey} {state withdrawals : Contents} {accounts : AccountMap} {db : TrieDB}
  {fuel : Nat} (sources : Sources prim fetcher hinter stateOrigin withdrawalOrigin involved)

include sources

theorem Sources.injective : Set.InjOn (keyOf prim) involved := by
  intro x memberX y memberY same
  exact sources.distinctHashes memberX memberY (Key.ofHash_injective same)

variable (known : ∀ pubkey account, accounts pubkey = some account → pubkey ∈ involved)

include known

theorem closable_iff (lists : Lists prim (stateEntry prim) accounts state) {accountDiff : AccountPairs}
    (isDiff : IsDiff involved accountDiff) :
    (∀ entry ∈ accountDiff.map (TrieDB.hashAccount prim), Closable state withdrawals entry.key entry.account) ↔
      ∀ written ∈ accountDiff, written.2.lamports = 0 →
        (∃ account, accounts written.1 = some account ∧ account.lamports ≠ 0) ∧
        (written.2.owner = withdrawalProgramPubkey → withdrawals (keyOf prim written.1) ≠ none) := by
  rw [List.forall_mem_map]
  refine forall₂_congr fun written member => ?_
  have here := lists.entry_at sources.injective known (isDiff.2 written member)
  have live : state (keyOf prim written.1) ≠ none ↔
      ∃ account, accounts written.1 = some account ∧ account.lamports ≠ 0 := by
    rw [here]
    cases accounts written.1 with
    | none => simp
    | some account => simp [stateEntry]
  exact imp_congr_right fun _ => and_congr_left' live

variable (enough : enoughFuel ≤ fuel)
  (tracks : Tracks prim stateOrigin withdrawalOrigin fetcher hinter state withdrawals db)

include enough tracks

theorem worldStates_iff_of_lists (lists : Lists prim (stateEntry prim) accounts state)
    (diffs : List (AccountPairs × Nat)) (areDiffs : ∀ diff ∈ diffs, IsDiff involved diff.1) :
    Throughout (TrieDB.worldStates prim fuel) (fun accounts db result => (∃ roots, result = .ok roots) ∧
        TrieOf prim stateOrigin (stateEntry prim) accounts db.rootNode) accounts db diffs ↔
      ClosesHeld prim accounts withdrawals diffs := by
  induction diffs generalizing accounts state withdrawals db with
  | nil => exact Iff.rfl
  | cons diff rest ih =>
      obtain ⟨accountDiff, lastSlot⟩ := diff
      have isDiff := areDiffs _ (.head rest)
      have keys := keys_distinct sources.injective isDiff.1 isDiff.2
      -- A diff that closes an account without an entry fails, and nothing is said of the tries after it.
      obtain ⟨succeeds, fails⟩ :=
        updateAccounts_updates sources.state sources.withdrawal enough tracks lastSlot keys
      rw [closable_iff sources known lists isDiff] at succeeds fails
      simp only [Throughout, ClosesHeld, TrieDB.worldStates]
      generalize db.updateAccounts prim fuel accountDiff lastSlot = updated at succeeds fails
      obtain ⟨db', result⟩ := updated
      by_cases held : ∀ written ∈ accountDiff, written.2.lamports = 0 →
          (∃ account, accounts written.1 = some account ∧ account.lamports ≠ 0) ∧
          (written.2.owner = withdrawalProgramPubkey → withdrawals (keyOf prim written.1) ≠ none)
      · obtain ⟨rfl, next⟩ := succeeds held
        have nextLists : Lists prim (stateEntry prim) (overridden accounts accountDiff)
            (stateAfter prim state (accountDiff.map (TrieDB.hashAccount prim))) :=
          (lists_overridden sources.injective lists known isDiff.1 isDiff.2 _).mpr fun _ _ => rfl
        have nextTrie := (trieOf_iff_lists sources.state next.root _ _).mpr nextLists
        have later := ih (overridden_known known isDiff.2) next nextLists fun diff member => areDiffs diff (.tail _ member)
        exact ⟨fun all => ⟨held, later.mp all.2⟩, fun all => ⟨⟨⟨_, rfl⟩, nextTrie⟩, later.mpr all.2⟩⟩
      · obtain rfl := fails held
        refine ⟨fun all => ?_, fun all => absurd all.1 held⟩
        obtain ⟨roots, impossible⟩ := all.1.1
        cases impossible

/-- Every update succeeds and leaves the trie of the updated accounts, if and only if every account a
diff closes has the entries that are deleted with it. -/
theorem worldStates_follow_iff (start : TrieOf prim stateOrigin (stateEntry prim) accounts db.rootNode)
    (diffs : List (AccountPairs × Nat)) (areDiffs : ∀ diff ∈ diffs, IsDiff involved diff.1) :
    Throughout (TrieDB.worldStates prim fuel) (fun accounts db result => (∃ roots, result = .ok roots) ∧
        TrieOf prim stateOrigin (stateEntry prim) accounts db.rootNode) accounts db diffs ↔
      ClosesHeld prim accounts withdrawals diffs := by
  have lists := (trieOf_iff_lists sources.state tracks.root _ _).mp start
  exact worldStates_iff_of_lists sources known enough tracks lists diffs areDiffs

omit tracks enough in
theorem withdrawals_listed_iff (lists : Lists prim (withdrawalEntry prim) accounts withdrawals)
    {accountDiff : AccountPairs} (isDiff : IsDiff involved accountDiff) :
    Lists prim (withdrawalEntry prim) (overridden accounts accountDiff)
        (withdrawalsAfter prim withdrawals (accountDiff.map (TrieDB.hashAccount prim))) ↔
      ∀ written ∈ accountDiff, ∀ account, accounts written.1 = some account →
        account.owner = withdrawalProgramPubkey → account.lamports ≠ 0 → written.2.owner = withdrawalProgramPubkey := by
  unfold withdrawalsAfter
  rw [lists_overridden sources.injective lists known isDiff.1 isDiff.2]
  refine forall₂_congr fun written member => ?_
  rw [lists.entry_at sources.injective known (isDiff.2 written member)]
  simp only [TrieDB.hashAccount, withdrawalLeft]
  by_cases bridge : written.2.owner = withdrawalProgramPubkey
  · simp [bridge]
  · cases accounts written.1 with
    | none => simp [bridge, withdrawalEntry]
    | some account => simp [bridge, withdrawalEntry]

theorem updateAccounts_withdrawals_of_lists (lists : Lists prim (withdrawalEntry prim) accounts withdrawals)
    (diffs : List (AccountPairs × Nat)) (areDiffs : ∀ diff ∈ diffs, IsDiff involved diff.1)
    (succeed : Throughout (TrieDB.updateAccounts prim fuel) (fun _ _ result => result = .ok ()) accounts db diffs) :
    Throughout (TrieDB.updateAccounts prim fuel) (fun accounts db _ =>
        TrieOf prim withdrawalOrigin (withdrawalEntry prim) accounts db.withdrawalNode) accounts db diffs ↔
      KeepsBridge accounts diffs := by
  induction diffs generalizing accounts state withdrawals db with
  | nil => exact Iff.rfl
  | cons diff rest ih =>
      obtain ⟨accountDiff, lastSlot⟩ := diff
      have isDiff := areDiffs _ (.head rest)
      have keys := keys_distinct sources.injective isDiff.1 isDiff.2
      have updates := updateAccounts_updates sources.state sources.withdrawal enough tracks lastSlot keys
      simp only [Throughout, KeepsBridge] at succeed ⊢
      obtain ⟨returns, laterSucceed⟩ := succeed
      have next := updates.tracks_of_ok returns
      rw [trieOf_iff_lists sources.withdrawal next.withdrawal, withdrawals_listed_iff sources known lists isDiff]
      refine and_congr_right fun keeps => ?_
      have nextLists := (withdrawals_listed_iff sources known lists isDiff).mpr keeps
      exact ih (overridden_known known isDiff.2) next nextLists (fun diff member => areDiffs diff (.tail _ member))
        laterSucceed

/-- Where every update succeeds, the withdrawal trie follows the account map if and only if no live
account of the bridge program is given another owner. -/
theorem updateAccounts_withdrawals_iff
    (start : TrieOf prim withdrawalOrigin (withdrawalEntry prim) accounts db.withdrawalNode)
    (diffs : List (AccountPairs × Nat)) (areDiffs : ∀ diff ∈ diffs, IsDiff involved diff.1)
    (succeed : Throughout (TrieDB.updateAccounts prim fuel) (fun _ _ result => result = .ok ()) accounts db diffs) :
    Throughout (TrieDB.updateAccounts prim fuel) (fun accounts db _ =>
        TrieOf prim withdrawalOrigin (withdrawalEntry prim) accounts db.withdrawalNode) accounts db diffs ↔
      KeepsBridge accounts diffs := by
  have lists := (trieOf_iff_lists sources.withdrawal tracks.withdrawal _ _).mp start
  exact updateAccounts_withdrawals_of_lists sources known enough tracks lists diffs areDiffs succeed

end

def alice : Pubkey := .ofNat 1

def bridgeAccount : Account := ⟨5, ⟨[], length_noBytes⟩, withdrawalProgramPubkey, false, 0⟩

def systemAccount : Account := { bridgeAccount with owner := .ofNat 0 }

def hashedAlice : B256 := .ofNat 0xb10e2d527612073b26eecdfd717e6a320cf44b4afac2b0732d9fcbe2b7fa0cf6

def noData : B256 := .ofNat 0xc5d2460186f7233c927e7db2dcc703c0e500b653ca82273b7bfad8045d85a470

def hashedBridgeAccount : B256 := .ofNat 0xeb5ada3e608ad55318bdd13dfb82f5bf8eefc4651e97f034918b2c76e0820e96

def hashedSystemAccount : B256 := .ofNat 0x8d8f7275d7fa4599fe8016f5a2b05f797b656939ecbf0740482b6f5a12899a82

def emptyRoot : B256 := .ofNat 0x56e81f171bcc55a6ff8345e692c0f86e5b48e01b996cadc001622fb5e363b421

def accountDigests : List (List UInt8 × B256) :=
  [([0x80], emptyRoot), ([], noData), (alice.1, hashedAlice),
   (toBeBytes 5 ++ toBeBytes 0 ++ noData.1 ++ [0] ++ withdrawalProgramPubkey.1, hashedBridgeAccount),
   (toBeBytes 5 ++ toBeBytes 0 ++ noData.1 ++ [0] ++ (B256.ofNat 0).1, hashedSystemAccount),
   ([0xf8, 0x43, 0xa1, 0x20] ++ hashedAlice.1 ++ [0xa0] ++ hashedBridgeAccount.1,
    .ofNat 0x4ab93299a6e08920997c8e4101df1564b35ba59af7b5043bb8c42d765675a4cf),
   ([0xf8, 0x43, 0xa1, 0x20] ++ hashedAlice.1 ++ [0xa0] ++ noData.1,
    .ofNat 0xcf538717e27d57ab1c1cbc329f386aadb3065fb7f80dc6e6809d3b2c75da7210),
   ([0xf8, 0x43, 0xa1, 0x20] ++ hashedAlice.1 ++ [0xa0] ++ (B256.ofNat 0).1,
    .ofNat 0x8a57279646c3c66370f069fae384b660b9fcaaaf26b1be113f234f3573fe9bff)]

def emptyProvider : TrieDBProvider where
  toTrieProvider := TrieNode.trieNodeProvider (.tabulated accountDigests) [(emptyRoot, [0x80])]
  dataByHash _ := .ok ⟨[], length_noBytes⟩

def emptyDb : TrieDB := .new ⟨⟨.ofNat 0, 0, .ofNat 0, 0⟩, emptyRoot, emptyRoot⟩ emptyProvider noopTrieHinter

theorem emptyBacked : TrieNode.Backed (.tabulated accountDigests) emptyProvider.toTrieProvider noopTrieHinter .empty where
  canonical := .empty
  honest := by
    intro node within _
    obtain rfl := TrieNode.within_childless (by simp) (by simp) within
    rfl
  hints _ _ := rfl
  free := by
    have only : ∀ bytes ∈ ({[0x80]} ∪ Set.image (TrieNode.encode (.tabulated accountDigests)) (TrieNode.nodes .empty) :
        Set (List UInt8)), bytes = [0x80] := by
      rintro bytes (rfl | ⟨node, within, rfl⟩)
      · rfl
      · obtain rfl := TrieNode.within_childless (by simp) (by simp) within
        rfl
    intro x memberX y memberY _
    rw [only x memberX, only y memberY]

theorem emptySources : Sources (.tabulated accountDigests) emptyProvider noopTrieHinter .empty .empty {alice} :=
  ⟨emptyBacked, emptyBacked, Set.injOn_singleton _ _⟩

theorem emptyDb_tracks : Tracks (.tabulated accountDigests) .empty .empty emptyProvider noopTrieHinter (fun _ => none)
    (fun _ => none) emptyDb :=
  ⟨⟨.empty, .inr ⟨rfl, rfl⟩, TrieNode.represents_empty⟩,
    ⟨.empty, .inr ⟨rfl, rfl⟩, TrieNode.represents_empty⟩, rfl, rfl⟩

theorem nothing_known : ∀ pubkey account, (fun _ => none : AccountMap) pubkey = some account →
    pubkey ∈ ({alice} : Set Pubkey) := by simp

theorem nothing_listed (entry : Account → Option Bytes) :
    Lists (.tabulated accountDigests) entry (fun _ => none) (fun _ => none) := fun _ _ => by simp

theorem emptyDb_trieOf (entry : Account → Option Bytes) :
    TrieOf (.tabulated accountDigests) .empty entry (fun _ => none) emptyDb.rootNode :=
  (trieOf_iff_lists emptyBacked emptyDb_tracks.root _ _).mpr (nothing_listed entry)

/-- Closing an account that never had an entry makes the update fail. -/
theorem worldStates_closes_unknown :
    TrieOf (.tabulated accountDigests) .empty (stateEntry (.tabulated accountDigests)) (fun _ => none) emptyDb.rootNode ∧
    (emptyDb.worldStates (.tabulated accountDigests) enoughFuel [(alice, { systemAccount with lamports := 0 })] 0).2 =
      .error (.error (.trieNode .keyNotFound)) :=
  ⟨emptyDb_trieOf _, by decide +kernel⟩

theorem worldStates_follow_opened_and_closed :
    Throughout (TrieDB.worldStates (.tabulated accountDigests) enoughFuel) (fun accounts db result =>
        (∃ roots, result = .ok roots) ∧ TrieOf (.tabulated accountDigests) .empty
          (stateEntry (.tabulated accountDigests)) accounts db.rootNode) (fun _ => none) emptyDb
      [([(alice, bridgeAccount)], 0), ([(alice, { bridgeAccount with lamports := 0 })], 1)] := by
  have areDiffs : ∀ diff ∈ [([(alice, bridgeAccount)], 0), ([(alice, { bridgeAccount with lamports := 0 })], 1)],
      IsDiff {alice} diff.1 := by
    simp [IsDiff]
  apply (worldStates_follow_iff emptySources nothing_known (le_refl enoughFuel) emptyDb_tracks (emptyDb_trieOf _) _ areDiffs).mpr
  simp [ClosesHeld, overridden, withdrawalsAfter, TrieDB.hashAccount, HashedAccount.key, keyOf, withdrawalLeft,
    withdrawalEntry, bridgeAccount]

theorem emptyDb_withdrawals (entry : Account → Option Bytes) :
    TrieOf (.tabulated accountDigests) .empty entry (fun _ => none) emptyDb.withdrawalNode := emptyDb_trieOf entry

/-- An account that is handed to another program keeps its withdrawal entry. -/
theorem updateAccounts_keeps_stale_withdrawal :
    TrieOf (.tabulated accountDigests) .empty (withdrawalEntry (.tabulated accountDigests)) (fun _ => none)
      emptyDb.withdrawalNode ∧
    Throughout (TrieDB.updateAccounts (.tabulated accountDigests) enoughFuel) (fun _ _ result => result = .ok ())
      (fun _ => none) emptyDb [([(alice, bridgeAccount)], 0), ([(alice, systemAccount)], 1)] ∧
    ¬ Throughout (TrieDB.updateAccounts (.tabulated accountDigests) enoughFuel) (fun accounts db _ =>
        TrieOf (.tabulated accountDigests) .empty (withdrawalEntry (.tabulated accountDigests)) accounts
          db.withdrawalNode) (fun _ => none) emptyDb [([(alice, bridgeAccount)], 0), ([(alice, systemAccount)], 1)] := by
  have areDiffs : ∀ diff ∈ [([(alice, bridgeAccount)], 0), ([(alice, systemAccount)], 1)], IsDiff {alice} diff.1 := by
    simp [IsDiff]
  have succeed : Throughout (TrieDB.updateAccounts (.tabulated accountDigests) enoughFuel)
      (fun _ _ result => result = .ok ()) (fun _ => none) emptyDb
      [([(alice, bridgeAccount)], 0), ([(alice, systemAccount)], 1)] := by
    refine ⟨?_, ?_, trivial⟩ <;> decide +kernel
  refine ⟨emptyDb_withdrawals _, succeed, ?_⟩
  rw [updateAccounts_withdrawals_of_lists emptySources nothing_known (le_refl enoughFuel) emptyDb_tracks
    (nothing_listed _) _ areDiffs succeed]
  have other : B256.ofNat 0 ≠ withdrawalProgramPubkey := by decide
  simp [KeepsBridge, overridden, bridgeAccount, systemAccount, other]

theorem updateAccounts_withdrawals_opened_and_closed :
    Throughout (TrieDB.updateAccounts (.tabulated accountDigests) enoughFuel) (fun accounts db _ =>
        TrieOf (.tabulated accountDigests) .empty (withdrawalEntry (.tabulated accountDigests)) accounts
          db.withdrawalNode) (fun _ => none) emptyDb
      [([(alice, bridgeAccount)], 0), ([(alice, { bridgeAccount with lamports := 0 })], 1)] := by
  have areDiffs : ∀ diff ∈ [([(alice, bridgeAccount)], 0), ([(alice, { bridgeAccount with lamports := 0 })], 1)],
      IsDiff {alice} diff.1 := by
    simp [IsDiff]
  have succeed : Throughout (TrieDB.updateAccounts (.tabulated accountDigests) enoughFuel)
      (fun _ _ result => result = .ok ()) (fun _ => none) emptyDb
      [([(alice, bridgeAccount)], 0), ([(alice, { bridgeAccount with lamports := 0 })], 1)] := by
    refine ⟨?_, ?_, trivial⟩ <;> decide +kernel
  apply (updateAccounts_withdrawals_iff emptySources nothing_known (le_refl enoughFuel) emptyDb_tracks
    (emptyDb_withdrawals _) _ areDiffs succeed).mpr
  simp [KeepsBridge, overridden, bridgeAccount]

end KonaSoon.State
