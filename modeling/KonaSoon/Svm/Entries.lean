import KonaSoon.Lib.Merkle
import KonaSoon.Primitives.NativeTx
import KonaSoon.Svm.Accounts
import KonaSoon.Svm.BlockhashQueue

/-!
# Entries and the blockhash

The chain of hashes over the batches of a block (`svm/src/entry`) and the blockhash that is registered at its
end (`process_entries_and_register_blockhash` in `svm/src/lib.rs`). The hash function is a parameter.
-/

namespace KonaSoon.Svm
open Lib Mpt

abbrev Sha256 := List UInt8 → B256

/-! ## The tree of signatures -/

namespace MerkleTree

variable (sha : Sha256)

def hashLeaf (item : List UInt8) : B256 := sha (0 :: item)

def hashIntermediate (left right : B256) : B256 := sha (1 :: (left.1 ++ right.1))

def new (items : List (List UInt8)) : List B256 :=
  items.map (hashLeaf sha) ++ climb (hashIntermediate sha) items.length (items.map (hashLeaf sha))

def getRoot (nodes : List B256) : Option B256 := nodes.getLast?

end MerkleTree

def hashDefault : B256 := .ofNat 0

def signatures (transactions : List VersionedTransaction) : List (List UInt8) := transactions.flatMap (·.signatures)

def hashTransactions (sha : Sha256) (transactions : List VersionedTransaction) : B256 :=
  (MerkleTree.getRoot (MerkleTree.new sha (signatures transactions))).getD hashDefault

/-! ## The chain of hashes -/

def lowPowerMode : UInt64 := 0xFFFFFFFFFFFFFFFF

structure Poh where
  hash : B256
  numHashes : UInt64
  hashesPerTick : UInt64
  remainingHashes : UInt64
  tickNumber : UInt64

def hashOnce (sha : Sha256) (hash : B256) : B256 := sha hash.1

namespace Poh

variable (sha : Sha256)

/-- There is no result where an assertion fails. -/
def new (hash : B256) (hashesPerTick : Option UInt64) : Option Poh :=
  let hashesPerTick := hashesPerTick.getD lowPowerMode
  if 1 < hashesPerTick then some ⟨hash, 0, hashesPerTick, hashesPerTick, 0⟩ else none

/-- The method `hash`, with whether the next thing to do is a tick. -/
def hashUpTo (poh : Poh) (maxNumHashes : UInt64) : Option (Poh × Bool) :=
  let numHashes := min (poh.remainingHashes - 1) maxNumHashes
  let poh := { poh with
    hash := (hashOnce sha)^[numHashes.toNat] poh.hash
    numHashes := poh.numHashes + numHashes
    remainingHashes := poh.remainingHashes - numHashes }
  if 0 < poh.remainingHashes then some (poh, poh.remainingHashes = 1) else none

def record (poh : Poh) (mixin : B256) : Poh × Option B256 :=
  if poh.remainingHashes = 1 then (poh, none)
  else
    let hash := sha (poh.hash.1 ++ mixin.1)
    ({ poh with hash, numHashes := 0, remainingHashes := poh.remainingHashes - 1 }, some hash)

def tick (poh : Poh) : Poh × Option B256 :=
  let poh := { poh with
    hash := hashOnce sha poh.hash
    numHashes := poh.numHashes + 1
    remainingHashes := poh.remainingHashes - 1 }
  if poh.hashesPerTick ≠ lowPowerMode ∧ poh.remainingHashes ≠ 0 then (poh, none)
  else
    ({ poh with remainingHashes := poh.hashesPerTick, numHashes := 0, tickNumber := poh.tickNumber + 1 }, some poh.hash)

end Poh

/-- There is no result where the source panics. -/
def nextHash (sha : Sha256) (startHash : B256) (numHashes : UInt64) (transactions : List VersionedTransaction) :
    Option B256 :=
  if numHashes = 0 ∧ transactions = [] then some startHash
  else do
    let poh ← Poh.new startHash none
    let (poh, _) ← poh.hashUpTo sha (numHashes - min numHashes 1)
    if transactions = [] then (poh.tick sha).2 else (poh.record sha (hashTransactions sha transactions)).2

structure BlockEntry where
  numHashes : UInt64
  hash : B256
  transactions : List VersionedTransaction

def BlockEntry.isTick (entry : BlockEntry) : Bool := entry.transactions = []

def newEntry (sha : Sha256) (prevHash : B256) (numHashes : UInt64) (transactions : List VersionedTransaction) :
    Option BlockEntry := do
  let numHashes := if numHashes = 0 ∧ transactions ≠ [] then 1 else numHashes
  let hash ← nextHash sha prevHash numHashes transactions
  return ⟨numHashes, hash, transactions⟩

/-! ## The blockhash of a block -/

structure SlotState where
  ticksPerSlot : UInt64
  hashesPerTick : UInt64
  lamportsPerSignature : UInt64
  blockhashQueue : BlockhashQueue
  blockhash : Option B256
  -- The sysvar of recent blockhashes.
  recentBlockhashes : List BlockhashEntry

namespace SlotState

variable (sha : Sha256)

def registerRecentBlockhash (state : SlotState) (blockhash : B256) : SlotState :=
  let blockhashQueue := state.blockhashQueue.registerHash blockhash state.lamportsPerSignature
  { state with blockhashQueue, blockhash := some blockhash, recentBlockhashes := blockhashQueue.toSysvar }

def transactionsToEntry (state : SlotState) (transactions : List VersionedTransaction) (startHash : Option B256) :
    Option BlockEntry := do
  let startHash ← startHash <|> state.blockhashQueue.lastHash
  newEntry sha startHash state.hashesPerTick transactions

def batchesToDataEntries (state : SlotState) : Option B256 → List (List VersionedTransaction) → Option (List BlockEntry)
  | _, [] => some []
  | startHash, batch :: batches =>
      if batch = [] then batchesToDataEntries state startHash batches
      else do
        let entry ← state.transactionsToEntry sha batch startHash
        let entries ← batchesToDataEntries state (some entry.hash) batches
        return entry :: entries

def tickEntries (state : SlotState) : Nat → B256 → Option (List BlockEntry)
  | 0, _ => some []
  | count + 1, startHash => do
      let entry ← newEntry sha startHash state.hashesPerTick []
      let entries ← tickEntries state count entry.hash
      return entry :: entries

def completeEntries (state : SlotState) (dataEntries : List BlockEntry) : Outcome LiteSVMError (List BlockEntry) :=
  match dataEntries.getLast? with
  | none => .error (.error .noEntries)
  | some lastEntry => do
      let tickCount := state.ticksPerSlot.toNat - (dataEntries.filter BlockEntry.isTick).length
      let ticks ← .unwrap (state.tickEntries sha tickCount lastEntry.hash)
      return dataEntries ++ ticks

def registerTicks (state : SlotState) : UInt64 → List BlockEntry → SlotState
  | _, [] => state
  | count, entry :: entries =>
      if entry.isTick then
        if count + 1 = state.ticksPerSlot then state.registerRecentBlockhash entry.hash
        else registerTicks state (count + 1) entries
      else registerTicks state count entries

def processEntriesAndRegisterBlockhash (state : SlotState) (batchTxs : List (List VersionedTransaction)) :
    SlotState × Outcome LiteSVMError Unit :=
  match state.batchesToDataEntries sha none batchTxs with
  | none => (state, .error .panic)
  | some dataEntries =>
      match state.completeEntries sha dataEntries with
      | .error e => (state, .error e)
      | .ok entries => (state.registerTicks 0 entries, .ok ())

end SlotState

end KonaSoon.Svm
