import KonaSoon.State.AccountWire
import KonaSoon.State.Builders

namespace KonaSoon.State
open Lib Mpt

structure CommittedTrie (prim : Primitives) (db : TrieDB) where
  full : TrieNode
  canonical : TrieNode.Canonical keyNibbles full
  root : TrieNode.blind prim full = db.parentBlockHeader.accountRoot

def ReadVerified (prim : Primitives) (full : TrieNode) (pubkey : Pubkey) (result : Except TrieDBError (Option Account)) :
    Prop :=
  (∀ account, result = .ok (some account) → TrieNode.Holds full (keyOf prim pubkey).1
    (solAccountEncoder prim (accountFromSolanaNative prim account))) ∧
  (result = .ok none → ∀ value, ¬ TrieNode.Holds full (keyOf prim pubkey).1 value)

def Sends (prim : Primitives) (db : TrieDB) (pubkey : Pubkey) (answer : Bytes) : Prop :=
  db.hinter.hintAccountProof (prim.keccak256 pubkey.1) db.parentBlockHeader.blockInfo.number.toNat = .ok () ∧
    db.fetcher.dataByHash (prim.keccak256 pubkey.1) = .ok answer

/-- Bytes that mislead nobody: none where there is no account, those of the account that is there, or bytes of no
account at all. -/
inductive HonestAnswer (vacant : Prop) (present : Account → Prop) : List UInt8 → Prop
  | empty (nothing : vacant) : HonestAnswer vacant present []
  | account {account : Account} {bytes : List UInt8} (wire : WireOf account bytes) (here : present account) :
      HonestAnswer vacant present bytes
  | malformed {bytes : List UInt8} (nonempty : bytes ≠ []) (none : ∀ account, ¬ WireOf account bytes) :
      HonestAnswer vacant present bytes

section

variable {vacant : Prop} {present : Account → Prop} {bytes : List UInt8}

theorem honestAnswer_nil : HonestAnswer vacant present [] ↔ vacant := by
  constructor
  · intro honest
    cases honest with
    | empty nothing => exact nothing
    | account wire _ => exact absurd rfl wire.nonempty
    | malformed nonempty _ => exact absurd rfl nonempty
  · exact .empty

theorem honestAnswer_wire {account : Account} (bound : bytes.length < 2 ^ 63) (wire : WireOf account bytes) :
    HonestAnswer vacant present bytes ↔ present account := by
  constructor
  · intro honest
    cases honest with
    | empty => exact absurd rfl wire.nonempty
    | account wire' here => rwa [wire.unique bound wire']
    | malformed _ none => exact absurd wire (none account)
  · exact .account wire

theorem HonestAnswer.imp {vacant' : Prop} {present' : Account → Prop} (honest : HonestAnswer vacant present bytes)
    (nothing : vacant → vacant') (same : ∀ account, WireOf account bytes → present account → present' account) :
    HonestAnswer vacant' present' bytes := by
  cases honest with
  | empty none => exact .empty (nothing none)
  | account wire here => exact .account wire (same _ wire here)
  | malformed nonempty none => exact .malformed nonempty none

end

section

variable {prim : Primitives} {codec : AccountCodec} {db : TrieDB} {pubkey : Pubkey}

theorem getAccountData_empty {answer : Bytes} (sends : Sends prim db pubkey answer) (empty : answer.1 = []) :
    db.getAccountData prim codec pubkey = .ok none := by
  simp [TrieDB.getAccountData, sends.1, sends.2, empty]

theorem getAccountData_decoded {answer : Bytes} (sends : Sends prim db pubkey answer) (nonempty : answer.1 ≠ [])
    {account : Account} (decoded : decodeWrappedSolanaAccount codec answer.1 = .ok account) :
    db.getAccountData prim codec pubkey = .ok (some account) := by
  simp [TrieDB.getAccountData, sends.1, sends.2, nonempty, decoded]

theorem getAccountData_refused {answer : Bytes} (sends : Sends prim db pubkey answer) (nonempty : answer.1 ≠ [])
    {e : RlpError} (refused : decodeWrappedSolanaAccount codec answer.1 = .error e) :
    db.getAccountData prim codec pubkey =
      .error (.provider ("fail to parse solana account: " ++ codec.displayError e)) := by
  simp [TrieDB.getAccountData, sends.1, sends.2, nonempty, refused]

theorem sends_of_getAccountData {found : Option Account} (ok : db.getAccountData prim codec pubkey = .ok found) :
    ∃ answer, Sends prim db pubkey answer := by
  unfold TrieDB.getAccountData at ok
  split at ok
  · cases ok
  · rename_i hinted
    split at ok
    · cases ok
    · rename_i answer answered
      exact ⟨answer, hinted, answered⟩

theorem readVerified_iff_of_sends (lawful : codec.Lawful) {answer : Bytes} (sends : Sends prim db pubkey answer)
    (full : TrieNode) :
    ReadVerified prim full pubkey (db.getAccountData prim codec pubkey) ↔
      HonestAnswer (∀ value, ¬ TrieNode.Holds full (keyOf prim pubkey).1 value)
        (fun account => TrieNode.Holds full (keyOf prim pubkey).1
          (solAccountEncoder prim (accountFromSolanaNative prim account))) answer.1 := by
  by_cases empty : answer.1 = []
  · rw [getAccountData_empty sends empty, empty, honestAnswer_nil]
    simp [ReadVerified]
  · cases decoded : decodeWrappedSolanaAccount codec answer.1 with
    | error e =>
        have none : ∀ account, ¬ WireOf account answer.1 := by
          intro account wire
          cases decoded.symm.trans ((decodeWrappedSolanaAccount_iff lawful answer.2).mpr wire)
        rw [getAccountData_refused sends empty decoded]
        exact ⟨fun _ => .malformed empty none, fun _ => ⟨nofun, nofun⟩⟩
    | ok account =>
        have wire : WireOf account answer.1 := (decodeWrappedSolanaAccount_iff lawful answer.2).mp decoded
        rw [getAccountData_decoded sends empty decoded, honestAnswer_wire answer.2 wire]
        simp [ReadVerified]

theorem readVerified_iff (lawful : codec.Lawful) (full : TrieNode) :
    ReadVerified prim full pubkey (db.getAccountData prim codec pubkey) ↔
      ∀ answer, Sends prim db pubkey answer →
        HonestAnswer (∀ value, ¬ TrieNode.Holds full (keyOf prim pubkey).1 value)
          (fun account => TrieNode.Holds full (keyOf prim pubkey).1
            (solAccountEncoder prim (accountFromSolanaNative prim account))) answer.1 := by
  constructor
  · intro verified answer sends
    exact (readVerified_iff_of_sends lawful sends full).mp verified
  · intro honest
    by_cases sent : ∃ answer, Sends prim db pubkey answer
    · obtain ⟨answer, sends⟩ := sent
      exact (readVerified_iff_of_sends lawful sends full).mpr (honest answer sends)
    · exact ⟨fun account ok => absurd (sends_of_getAccountData ok) sent,
        fun ok => absurd (sends_of_getAccountData ok) sent⟩

end

/-- What `sol_account_encoder` hashes. -/
def encodedFields (account : TrieSolanaAccount) : List UInt8 :=
  let flag : UInt8 := if account.executable then 1 else 0
  toBeBytes account.lamports ++ toBeBytes account.rentEpoch ++ account.data.1 ++ [flag] ++ account.owner.1

def hashInputs (prim : Primitives) (account : Account) : Set (List UInt8) :=
  {account.data.1, encodedFields (accountFromSolanaNative prim account)}

theorem toBytes_injective {hash other : B256} (same : hash.toBytes = other.toBytes) : hash = other :=
  Subtype.ext (congrArg (fun bytes : Bytes => bytes.1) same)

theorem encodedFields_injective {account other : TrieSolanaAccount} (same : encodedFields account = encodedFields other) :
    account = other := by
  unfold encodedFields at same
  obtain ⟨front, owners⟩ := List.append_inj same (by simp [length_toBeBytes, account.data.2, other.data.2])
  obtain ⟨front, flags⟩ := List.append_inj front (by simp [length_toBeBytes, account.data.2, other.data.2])
  obtain ⟨front, datas⟩ := List.append_inj front (by simp [length_toBeBytes])
  obtain ⟨lamports, rents⟩ := List.append_inj front (by simp [length_toBeBytes])
  have executables : account.executable = other.executable := by
    cases one : account.executable <;> cases two : other.executable <;> simp_all
  obtain ⟨lamports', data, executable, rent, owner⟩ := account
  obtain ⟨lamports'', data', executable', rent', owner'⟩ := other
  simp only at owners datas lamports rents executables
  rw [toBeBytes_injective lamports, toBeBytes_injective rents, Subtype.ext datas, Subtype.ext owners, executables]

theorem solAccountEncoder_of_closed (prim : Primitives) (account : TrieSolanaAccount) (closed : account.lamports = 0) :
    solAccountEncoder prim account = (B256.ofNat 0).toBytes := if_pos closed

theorem solAccountEncoder_of_funded (prim : Primitives) (account : TrieSolanaAccount) (funded : account.lamports ≠ 0) :
    solAccountEncoder prim account = (prim.keccak256 (encodedFields account)).toBytes := if_neg funded

section

variable {prim : Primitives}

theorem solAccountEncoder_injective {live account : Account} (funded : live.lamports ≠ 0)
    (free : Set.InjOn prim.keccak256 (hashInputs prim live ∪ hashInputs prim account))
    (nonzero : prim.keccak256 (encodedFields (accountFromSolanaNative prim live)) ≠ .ofNat 0)
    (same : solAccountEncoder prim (accountFromSolanaNative prim live) =
      solAccountEncoder prim (accountFromSolanaNative prim account)) : live = account := by
  have written := solAccountEncoder_of_funded prim (accountFromSolanaNative prim live) funded
  by_cases closed : account.lamports = 0
  · have zero := solAccountEncoder_of_closed prim (accountFromSolanaNative prim account) closed
    exact absurd (toBytes_injective (written.symm.trans (same.trans zero))) nonzero
  · have other := solAccountEncoder_of_funded prim (accountFromSolanaNative prim account) closed
    have hashes := toBytes_injective (written.symm.trans (same.trans other))
    have fields := free (.inl (.inr rfl)) (.inr (.inr rfl)) hashes
    have entries := encodedFields_injective fields
    have datas := free (.inl (.inl rfl)) (.inr (.inl rfl)) (congrArg TrieSolanaAccount.data entries)
    obtain ⟨lamports, data, owner, executable, rent⟩ := live
    obtain ⟨lamports', data', owner', executable', rent'⟩ := account
    simp only [accountFromSolanaNative, TrieSolanaAccount.mk.injEq] at entries
    obtain ⟨rfl, -, rfl, rfl, rfl⟩ := entries
    obtain rfl : data = data' := Subtype.ext datas
    rfl

structure ReadCollisionFree (prim : Primitives) (accounts : AccountMap) (pubkey : Pubkey) (bytes : List UInt8) : Prop where
  keys : ∀ other account, accounts other = some account → prim.keccak256 other.1 = prim.keccak256 pubkey.1 →
    other = pubkey
  entries : ∀ live account, accounts pubkey = some live → WireOf account bytes →
    Set.InjOn prim.keccak256 (hashInputs prim live ∪ hashInputs prim account)
  nonzero : ∀ live, accounts pubkey = some live →
    prim.keccak256 (encodedFields (accountFromSolanaNative prim live)) ≠ .ofNat 0

variable {accounts : AccountMap} {pubkey : Pubkey} {bytes : List UInt8} {full : TrieNode}
  (fullTrie : FullTrieOf prim (stateEntry prim) accounts full) (free : ReadCollisionFree prim accounts pubkey bytes)

include fullTrie free

theorem holds_key_iff {value : Bytes} : TrieNode.Holds full (keyOf prim pubkey).1 value ↔
    ∃ live, accounts pubkey = some live ∧ live.lamports ≠ 0 ∧
      solAccountEncoder prim (accountFromSolanaNative prim live) = value := by
  have entry : ∀ live, stateEntry prim live = some value ↔
      live.lamports ≠ 0 ∧ solAccountEncoder prim (accountFromSolanaNative prim live) = value := by
    intro live
    by_cases closed : live.lamports = 0 <;> simp [stateEntry, closed]
  rw [fullTrie.2]
  constructor
  · rintro ⟨other, live, here, stored, path⟩
    have same := congrArg Subtype.val (Key.ofHash_injective (Subtype.ext path))
    obtain rfl := free.keys other live here (Subtype.ext same.symm)
    exact ⟨live, here, (entry live).mp stored⟩
  · rintro ⟨live, here, stored⟩
    exact ⟨pubkey, live, here, (entry live).mpr stored, rfl⟩

theorem vacant_iff : (∀ value, ¬ TrieNode.Holds full (keyOf prim pubkey).1 value) ↔
    ∀ account, accounts pubkey = some account → account.lamports = 0 := by
  simp only [holds_key_iff fullTrie free]
  constructor
  · intro none live here
    by_contra funded
    exact none _ ⟨live, here, funded, rfl⟩
  · rintro closed value ⟨live, here, funded, -⟩
    exact funded (closed live here)

theorem holds_entry_iff {account : Account} (wire : WireOf account bytes) :
    TrieNode.Holds full (keyOf prim pubkey).1 (solAccountEncoder prim (accountFromSolanaNative prim account)) ↔
      accounts pubkey = some account ∧ account.lamports ≠ 0 := by
  rw [holds_key_iff fullTrie free]
  constructor
  · rintro ⟨live, here, funded, same⟩
    obtain rfl := solAccountEncoder_injective funded (free.entries live account here wire) (free.nonzero live here) same
    exact ⟨here, funded⟩
  · rintro ⟨here, funded⟩
    exact ⟨account, here, funded, rfl⟩

end

def aliceAccounts : AccountMap := fun pubkey => if pubkey = alice then some bridgeAccount else none

theorem aliceAccounts_iff {pubkey : Pubkey} {account : Account} :
    aliceAccounts pubkey = some account ↔ pubkey = alice ∧ account = bridgeAccount := by
  by_cases same : pubkey = alice <;> simp [aliceAccounts, same, eq_comm]

def aliceRoot : B256 := .ofNat 0x4ab93299a6e08920997c8e4101df1564b35ba59af7b5043bb8c42d765675a4cf

theorem aliceLeaf_root : TrieNode.blind (.tabulated accountDigests) aliceLeaf = aliceRoot := by decide +kernel

theorem aliceLeaf_canonical : TrieNode.Canonical keyNibbles aliceLeaf :=
  .leaf (Key.ofHash hashedAlice).2.1 (Key.ofHash hashedAlice).2.2

theorem aliceLeaf_fullTrieOf :
    FullTrieOf (.tabulated accountDigests) (stateEntry (.tabulated accountDigests)) aliceAccounts aliceLeaf := by
  have stored : stateEntry (.tabulated accountDigests) bridgeAccount = some hashedBridgeAccount.toBytes := by decide +kernel
  have path : (keyOf (.tabulated accountDigests) alice).1 = (Key.ofHash hashedAlice).1 := by decide +kernel
  refine ⟨aliceLeaf_canonical, fun key value => ?_⟩
  rw [aliceLeaf, TrieNode.holds_leaf]
  constructor
  · rintro ⟨rfl, rfl⟩
    exact ⟨alice, bridgeAccount, aliceAccounts_iff.mpr ⟨rfl, rfl⟩, stored, path.symm⟩
  · rintro ⟨pubkey, account, here, holds, rfl⟩
    obtain ⟨rfl, rfl⟩ := aliceAccounts_iff.mp here
    exact ⟨path, Option.some.inj (holds.symm.trans stored)⟩

def answering (accountRoot : B256) (answer : Bytes) : TrieDB :=
  .new { emptyDb.parentBlockHeader with accountRoot } { emptyProvider with dataByHash := fun _ => .ok answer } noopTrieHinter

def bridgeBytes : Bytes := ⟨encodeWrappedSolanaAccount bridgeAccount, by decide +kernel⟩

def forgedBytes : Bytes := ⟨[0xf8, 0x39, 0x05] ++ List.replicate 56 0x80, by decide⟩

theorem forgedBytes_wire : WireOf systemAccount forgedBytes.1 := by
  have written : forgedBytes.1 = encodeWrappedSolanaAccount systemAccount := by decide +kernel
  exact written ▸ wireOf_encode systemAccount

theorem alice_collisionFree {account : Account} {answer : Bytes} (wire : WireOf account answer.1)
    (known : account = bridgeAccount ∨ account = systemAccount) :
    ReadCollisionFree (.tabulated accountDigests) aliceAccounts alice answer.1 where
  keys other account here _ := (aliceAccounts_iff.mp here).1
  entries := by
    intro live other here wire'
    obtain ⟨-, rfl⟩ := aliceAccounts_iff.mp here
    obtain rfl := wire.unique answer.2 wire'
    have inputs : hashInputs (.tabulated accountDigests) bridgeAccount ∪ hashInputs (.tabulated accountDigests) account ⊆
        {[], encodedFields (accountFromSolanaNative (.tabulated accountDigests) bridgeAccount),
          encodedFields (accountFromSolanaNative (.tabulated accountDigests) systemAccount)} := by
      rcases known with rfl | rfl
      · rintro bytes ((rfl | rfl) | (rfl | rfl)) <;> simp [bridgeAccount]
      · rintro bytes ((rfl | rfl) | (rfl | rfl)) <;> simp [bridgeAccount, systemAccount]
    refine Set.InjOn.mono inputs ?_
    simp only [Set.InjOn, Set.mem_insert_iff, Set.mem_singleton_iff, forall_eq_or_imp, forall_eq]
    decide +kernel
  nonzero := by
    intro live here
    obtain ⟨-, rfl⟩ := aliceAccounts_iff.mp here
    decide +kernel

/-- A read agrees with a committed trie exactly when the host's bytes are none where the trie has no entry, or are the
wire form of an account whose encoding the trie holds, or of no account. For the trie of an account map, and without
collisions, the account is the one the map has at the key. -/
theorem getAccountData_verified_iff (prim : Primitives) {codec : AccountCodec} (lawful : codec.Lawful) (db : TrieDB)
    (pubkey : Pubkey) (trie : CommittedTrie prim db) :
    (ReadVerified prim trie.full pubkey (db.getAccountData prim codec pubkey) ↔
      ∀ answer, Sends prim db pubkey answer →
        HonestAnswer (∀ value, ¬ TrieNode.Holds trie.full (keyOf prim pubkey).1 value)
          (fun account => TrieNode.Holds trie.full (keyOf prim pubkey).1
            (solAccountEncoder prim (accountFromSolanaNative prim account))) answer.1) ∧
    ∀ accounts, FullTrieOf prim (stateEntry prim) accounts trie.full →
      (∀ answer, Sends prim db pubkey answer → ReadCollisionFree prim accounts pubkey answer.1) →
      (ReadVerified prim trie.full pubkey (db.getAccountData prim codec pubkey) ↔
        ∀ answer, Sends prim db pubkey answer →
          HonestAnswer (∀ account, accounts pubkey = some account → account.lamports = 0)
            (fun account => accounts pubkey = some account ∧ account.lamports ≠ 0) answer.1) := by
  refine ⟨readVerified_iff lawful trie.full, fun accounts fullTrie free => ?_⟩
  rw [readVerified_iff lawful trie.full]
  refine forall₂_congr fun answer sends => ?_
  have vacant := vacant_iff fullTrie (free answer sends)
  have entry := fun account (wire : WireOf account answer.1) => holds_entry_iff fullTrie (free answer sends) wire
  exact ⟨fun honest => honest.imp vacant.mp fun account wire => (entry account wire).mp,
    fun honest => honest.imp vacant.mpr fun account wire => (entry account wire).mpr⟩

theorem getAccountData_verified_alice :
    ReadVerified (.tabulated accountDigests) aliceLeaf alice
      ((answering aliceRoot bridgeBytes).getAccountData (.tabulated accountDigests) .standard alice) ∧
    ¬ ReadVerified (.tabulated accountDigests) aliceLeaf alice
      ((answering aliceRoot forgedBytes).getAccountData (.tabulated accountDigests) .standard alice) := by
  have bridgeWire : WireOf bridgeAccount bridgeBytes.1 := wireOf_encode bridgeAccount
  constructor
  · refine ((getAccountData_verified_iff _ AccountCodec.standard_lawful (answering aliceRoot bridgeBytes) alice
      ⟨aliceLeaf, aliceLeaf_canonical, aliceLeaf_root⟩).2 aliceAccounts aliceLeaf_fullTrieOf ?_).mpr ?_
    · rintro answer ⟨-, ⟨⟩⟩
      exact alice_collisionFree bridgeWire (.inl rfl)
    · rintro answer ⟨-, ⟨⟩⟩
      exact .account bridgeWire ⟨aliceAccounts_iff.mpr ⟨rfl, rfl⟩, by decide⟩
  · intro verified
    have honest := ((getAccountData_verified_iff _ AccountCodec.standard_lawful (answering aliceRoot forgedBytes) alice
      ⟨aliceLeaf, aliceLeaf_canonical, aliceLeaf_root⟩).2 aliceAccounts aliceLeaf_fullTrieOf (by
        rintro answer ⟨-, ⟨⟩⟩
        exact alice_collisionFree forgedBytes_wire (.inr rfl))).mp verified forgedBytes ⟨rfl, rfl⟩
    have here := ((honestAnswer_wire forgedBytes.2 forgedBytes_wire).mp honest).1
    cases (aliceAccounts_iff.mp here).2

/-- The host answers for an account that the empty trie does not have. -/
theorem getAccountData_forged :
    TrieNode.Backed (.tabulated accountDigests) (answering emptyRoot forgedBytes).fetcher.toTrieProvider
      (answering emptyRoot forgedBytes).hinter .empty ∧
    TrieNode.blind (.tabulated accountDigests) .empty = (answering emptyRoot forgedBytes).parentBlockHeader.accountRoot ∧
    (answering emptyRoot forgedBytes).getAccountData (.tabulated accountDigests) .standard alice =
      .ok (some systemAccount) ∧
    ¬ ReadVerified (.tabulated accountDigests) .empty alice
      ((answering emptyRoot forgedBytes).getAccountData (.tabulated accountDigests) .standard alice) := by
  have returns : (answering emptyRoot forgedBytes).getAccountData (.tabulated accountDigests) .standard alice =
      .ok (some systemAccount) := by
    decide +kernel
  refine ⟨emptyBacked, by decide +kernel, returns, fun verified => ?_⟩
  exact TrieNode.holds_empty (verified.1 systemAccount returns)

end KonaSoon.State
