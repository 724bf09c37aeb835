import KonaSoon.Mpt.Encoding
import KonaSoon.Primitives.Account
import KonaSoon.Primitives.Blocks

namespace KonaSoon.State
open Lib Mpt

structure TrieDBProvider extends TrieProvider where
  dataByHash : B256 → Except String Bytes

inductive TrieDBError where
  | rootNotBlinded
  | missingAccountInfo
  | trieNode (e : TrieNodeError)
  | provider (text : String)
deriving DecidableEq, Repr

abbrev TrieDBResult (α : Type) := Outcome TrieDBError α

structure AccountCodec where
  decodeVec : List UInt8 → Except RlpError (List UInt8)
  bincodeDeserialize : List UInt8 → Option Account
  displayError : RlpError → String

/-- `WrappedSolanaAccount::decode`. -/
def decodeWrappedSolanaAccount (codec : AccountCodec) (buf : List UInt8) : Except RlpError Account := do
  let txBytes ← codec.decodeVec buf
  match codec.bincodeDeserialize txBytes with
  | some account => .ok account
  | none => .error (.custom "Failed to deserialize VersionedTransaction")

structure TrieDB where
  rootNode : TrieNode
  withdrawalNode : TrieNode
  parentBlockHeader : L2BlockHeader
  fetcher : TrieDBProvider
  hinter : TrieHinter

structure HashedAccount where
  pubkey : Pubkey
  hashedAddress : B256
  account : Account

abbrev AccountPairs := List (Pubkey × Account)

namespace TrieDB

def new (parentBlockHeader : L2BlockHeader) (fetcher : TrieDBProvider) (hinter : TrieHinter) : TrieDB where
  rootNode := .blinded parentBlockHeader.accountRoot
  withdrawalNode := .blinded parentBlockHeader.widthdrawRoot
  parentBlockHeader := parentBlockHeader
  fetcher := fetcher
  hinter := hinter

def setParentBlockHeader (db : TrieDB) (parentBlockHeader : L2BlockHeader) : TrieDB :=
  { db with parentBlockHeader }

def fromTrieNode {α : Type} : TrieNodeResult α → TrieDBResult α
  | .ok a => .ok a
  | .error (.error e) => .error (.error (.trieNode e))
  | .error .panic => .error .panic
  | .error .outOfFuel => .error .outOfFuel

variable (prim : Primitives) (fuel : Nat)

def deleteRoot (db : TrieDB) (path : Nibbles) (lastSlot : Nat) : TrieDB × TrieDBResult Unit :=
  let deleted := TrieNode.delete prim db.fetcher.toTrieProvider db.hinter lastSlot fuel db.rootNode path []
  ({ db with rootNode := deleted.1 }, fromTrieNode deleted.2)

def deleteWithdrawal (db : TrieDB) (path : Nibbles) (lastSlot : Nat) : TrieDB × TrieDBResult Unit :=
  let deleted := TrieNode.delete prim db.fetcher.toTrieProvider db.hinter lastSlot fuel db.withdrawalNode path []
  ({ db with withdrawalNode := deleted.1 }, fromTrieNode deleted.2)

def insertRoot (db : TrieDB) (path : Nibbles) (value : Bytes) : TrieDB × TrieDBResult Unit :=
  let inserted := TrieNode.insert prim db.fetcher.toTrieProvider fuel db.rootNode path value
  ({ db with rootNode := inserted.1 }, fromTrieNode inserted.2)

def insertWithdrawal (db : TrieDB) (path : Nibbles) (value : Bytes) : TrieDB × TrieDBResult Unit :=
  let inserted := TrieNode.insert prim db.fetcher.toTrieProvider fuel db.withdrawalNode path value
  ({ db with withdrawalNode := inserted.1 }, fromTrieNode inserted.2)

/-- The body of the loop of `update_accounts`. -/
def updateAccount (lastSlot : Nat) (db : TrieDB) (entry : HashedAccount) : TrieDB × TrieDBResult Unit :=
  let accountPath := Nibbles.unpack entry.hashedAddress.1
  let isWithdrawal := entry.account.owner = withdrawalProgramPubkey
  if entry.account.lamports = 0 then
    match deleteRoot prim fuel db accountPath lastSlot with
    | (db, .error stop) => (db, .error stop)
    | (db, .ok ()) =>
        if isWithdrawal then deleteWithdrawal prim fuel db accountPath lastSlot else (db, .ok ())
  else
    let mptAccount := accountFromSolanaNative prim entry.account
    match insertRoot prim fuel db accountPath (solAccountEncoder prim mptAccount) with
    | (db, .error stop) => (db, .error stop)
    | (db, .ok ()) =>
        if isWithdrawal then insertWithdrawal prim fuel db accountPath (withdrawalAccountEncoder mptAccount)
        else (db, .ok ())

def updateSorted (lastSlot : Nat) : TrieDB → List HashedAccount → TrieDB × TrieDBResult Unit
  | db, [] => (db, .ok ())
  | db, entry :: rest =>
      match updateAccount prim fuel lastSlot db entry with
      | (db, .error stop) => (db, .error stop)
      | (db, .ok ()) => updateSorted lastSlot db rest

def hashAccount (entry : Pubkey × Account) : HashedAccount := ⟨entry.1, prim.keccak256 entry.1.1, entry.2⟩

def updateAccounts (db : TrieDB) (accountDiff : AccountPairs) (lastSlot : Nat) : TrieDB × TrieDBResult Unit :=
  let sortedState := (accountDiff.map (hashAccount prim)).insertionSort fun a b => a.hashedAddress.1 ≤ b.hashedAddress.1
  updateSorted prim fuel lastSlot db sortedState

def worldStates (db : TrieDB) (accountDiff : AccountPairs) (lastSlot : Nat) :
    TrieDB × TrieDBResult (B256 × B256) :=
  match updateAccounts prim fuel db accountDiff lastSlot with
  | (db, .error stop) => (db, .error stop)
  | (db, .ok ()) => (db, .ok (TrieNode.blind prim db.rootNode, TrieNode.blind prim db.withdrawalNode))

def getAccountData (codec : AccountCodec) (db : TrieDB) (pubkey : Pubkey) : Except TrieDBError (Option Account) :=
  match db.hinter.hintAccountProof (prim.keccak256 pubkey.1) db.parentBlockHeader.blockInfo.number.toNat with
  | .error e => .error (.provider e)
  | .ok () =>
      match db.fetcher.dataByHash (prim.keccak256 pubkey.1) with
      | .error _ => .error .missingAccountInfo
      | .ok accountBytes =>
          if accountBytes.1.length = 0 then .ok none
          else match decodeWrappedSolanaAccount codec accountBytes.1 with
            | .error e => .error (.provider ("fail to parse solana account: " ++ codec.displayError e))
            | .ok account => .ok (some account)

end TrieDB

end KonaSoon.State
