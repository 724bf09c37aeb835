import KonaSoon.State.Builders

/-!
# The stateless builder and its executor

`StatelessL2Builder` (`executor/src/builder/core.rs`) and `KonaExecutor` (`proof/src/executor.rs`). Every block gets
a virtual machine of its own. The providers may answer one call and fail the next, so each call is given the
providers as they answer then.
-/

namespace KonaSoon.State
open Lib Mpt

inductive ExecutorError where
  | missingExecutor
  | trieDBError (e : TrieDBError)
  | fraudInitError (text : String)
  | fraudExecutorError (text : String)
deriving DecidableEq, Repr

abbrev ExecutorResult (α : Type) := Outcome ExecutorError α

structure ExecutorConfig where
  genesisHash : Option B256
  sequencerSchedules : List (UInt64 × Pubkey)

structure SvmSetup where
  genesisHash : B256
  parentSlot : UInt64
  parentBankHash : B256
  clockTimestamp : Int
  leaderSchedule : List (UInt64 × Pubkey)
  accountsCallback : TrieDB
  initAccount : AccountPairs

structure BlockBuildingOutcome (Report : Type) where
  blockInfo : L2BlockInfo
  stateRoot : B256
  withdrawRoot : B256
  -- The results of the transactions, the number of signatures and the fee rate.
  report : Report
deriving DecidableEq

/-- `LiteSVM` and `FraudExecutor`: the initialisation, the decoder of transactions, the execution of a block and
the accounts that it leaves, one entry an account. -/
structure Vm (Svm L2Transaction Report : Type) where
  finishInit : SvmSetup → Except String Svm
  deserialize : List UInt8 → Except String L2Transaction
  executeBlock : Svm → List L2Transaction → Outcome String (Svm × L2BlockInfo × Report)
  exportDiffAccounts : Svm → AccountPairs
  distinct : ∀ svm, ((exportDiffAccounts svm).map Prod.fst).Nodup

structure Host where
  fetcher : TrieDBProvider
  hinter : TrieHinter

namespace TrieDB

def answering (db : TrieDB) (host : Host) : TrieDB := { db with fetcher := host.fetcher, hinter := host.hinter }

def bankHash (db : TrieDB) (blockNumber : UInt64) : Except TrieDBError B256 :=
  match db.hinter.hintBankHash blockNumber.toNat with
  | .error e => .error (.provider e)
  | .ok () => (db.fetcher.bankHash blockNumber.toNat).mapError .provider

def blockTime (db : TrieDB) (blockNumber : UInt64) : Except TrieDBError Int :=
  match db.hinter.hintBlockTime blockNumber.toNat with
  | .error e => .error (.provider e)
  | .ok () => (db.fetcher.blockTime blockNumber.toNat).mapError .provider

end TrieDB

/-- `utils::modified_accounts`: what is new or different from the accounts written before. -/
def modifiedAccounts (raw : OrderedMap Pubkey Account) (diff : AccountPairs) : AccountPairs :=
  diff.filter fun entry => raw.get entry.1 ≠ some entry.2

structure StatelessL2Builder where
  config : ExecutorConfig
  trieDb : TrieDB
  accountsDiff : OrderedMap Pubkey Account
  lastAccountsDiff : AccountPairs
  parentSlot : UInt64

namespace StatelessL2Builder

def extend (accounts : OrderedMap Pubkey Account) (diff : AccountPairs) : OrderedMap Pubkey Account :=
  diff.foldl (fun accounts entry => accounts.insert entry.1 entry.2) accounts

def new (config : ExecutorConfig) (parentHeader : L2BlockHeader) (lastAccountsDiff : AccountPairs) (trieDb : TrieDB) :
    StatelessL2Builder :=
  ⟨config, trieDb, extend .empty lastAccountsDiff, lastAccountsDiff, parentHeader.blockInfo.number⟩

def accountDiff (builder : StatelessL2Builder) : AccountPairs := builder.accountsDiff.entries

variable {Svm L2Transaction Report : Type} (vm : Vm Svm L2Transaction Report) (prim : Primitives) (fuel : Nat)

def convertBlock (transactions : Option (List (List UInt8))) : ExecutorResult (List L2Transaction) :=
  (transactions.getD []).mapM fun tx => (vm.deserialize tx).mapError fun e => .error (.fraudInitError e)

/-- `build_block` up to the export of the accounts; nothing of the builder has changed by then. -/
def execute (host : Host) (builder : StatelessL2Builder) (transactions : Option (List (List UInt8))) :
    ExecutorResult (L2BlockInfo × Report × AccountPairs) := do
  let trieDb := builder.trieDb.answering host
  let parentBankHash ← (trieDb.bankHash builder.parentSlot).mapError fun e => .error (.trieDBError e)
  let clockTimestamp ← (trieDb.blockTime (builder.parentSlot + 1)).mapError fun e => .error (.trieDBError e)
  let genesisHash ← Outcome.unwrap builder.config.genesisHash
  let svm ← (vm.finishInit ⟨genesisHash, builder.parentSlot, parentBankHash, clockTimestamp,
    builder.config.sequencerSchedules, trieDb, builder.lastAccountsDiff⟩).mapError fun e => .error (.fraudExecutorError e)
  let block ← convertBlock vm transactions
  let (svm, blockInfo, report) ← (vm.executeBlock svm block).mapError (Stop.map .fraudExecutorError)
  return (blockInfo, report, vm.exportDiffAccounts svm)

def buildBlock (host : Host) (builder : StatelessL2Builder) (transactions : Option (List (List UInt8))) :
    StatelessL2Builder × ExecutorResult (BlockBuildingOutcome Report) :=
  match execute vm host builder transactions with
  | .error stop => (builder, .error stop)
  | .ok (blockInfo, report, diffAccounts) =>
      let modified := modifiedAccounts builder.accountsDiff diffAccounts
      let builder := { builder with accountsDiff := extend builder.accountsDiff diffAccounts }
      match (builder.trieDb.answering host).worldStates prim fuel modified builder.parentSlot.toNat with
      | (trieDb, .error stop) => ({ builder with trieDb }, .error (stop.map .trieDBError))
      | (trieDb, .ok (stateRoot, withdrawalRoot)) =>
          ({ builder with trieDb := trieDb.setParentBlockHeader ⟨blockInfo.blockInfo, stateRoot, withdrawalRoot⟩ },
            .ok ⟨blockInfo, stateRoot, withdrawalRoot, report⟩)

section Cases

variable {vm prim fuel} {host : Host} {builder : StatelessL2Builder} {transactions : Option (List (List UInt8))}

theorem buildBlock_of_error {stop : Stop ExecutorError} (executed : execute vm host builder transactions = .error stop) :
    buildBlock vm prim fuel host builder transactions = (builder, .error stop) := by
  unfold buildBlock
  rw [executed]

/-- The accounts are written down before the tries are updated, and stay if that fails. -/
theorem buildBlock_of_ok {blockInfo : L2BlockInfo} {report : Report} {diffAccounts : AccountPairs}
    (executed : execute vm host builder transactions = .ok (blockInfo, report, diffAccounts)) :
    (buildBlock vm prim fuel host builder transactions).1.accountsDiff = extend builder.accountsDiff diffAccounts ∧
    ((∃ roots, ((builder.trieDb.answering host).worldStates prim fuel (modifiedAccounts builder.accountsDiff diffAccounts)
        builder.parentSlot.toNat).2 = .ok roots ∧ (buildBlock vm prim fuel host builder transactions).2 =
          .ok ⟨blockInfo, roots.1, roots.2, report⟩) ∨
      ∃ stop, ((builder.trieDb.answering host).worldStates prim fuel (modifiedAccounts builder.accountsDiff diffAccounts)
        builder.parentSlot.toNat).2 = .error stop ∧ (buildBlock vm prim fuel host builder transactions).2 =
          .error (stop.map .trieDBError)) := by
  unfold buildBlock
  rw [executed]
  dsimp only
  rcases (builder.trieDb.answering host).worldStates prim fuel (modifiedAccounts builder.accountsDiff diffAccounts)
    builder.parentSlot.toNat with ⟨trieDb, stop | roots⟩
  · exact ⟨rfl, .inr ⟨stop, rfl, rfl⟩⟩
  · exact ⟨rfl, .inl ⟨roots, rfl, rfl⟩⟩

theorem execute_distinct {executed : L2BlockInfo × Report × AccountPairs}
    (ok : execute vm host builder transactions = .ok executed) : (executed.2.2.map Prod.fst).Nodup := by
  unfold execute at ok
  simp only [bind_eq_ok] at ok
  obtain ⟨_, _, _, _, _, _, _, _, _, _, ⟨svm, _, _⟩, _, same⟩ := ok
  cases same
  exact vm.distinct svm

end Cases

/-- `OutputRoot::from_parts` with its encoding and its hash. -/
def outputRoot (stateRoot bridgeStorageRoot blockHash : B256) : B256 :=
  prim.keccak256 (List.replicate 32 0 ++ stateRoot.1 ++ bridgeStorageRoot.1 ++ blockHash.1)

def computeOutputRoot (builder : StatelessL2Builder) : B256 :=
  let parentHeader := builder.trieDb.parentBlockHeader
  outputRoot prim parentHeader.accountRoot parentHeader.widthdrawRoot parentHeader.blockInfo.hash

end StatelessL2Builder

structure KonaExecutor where
  rollupConfig : ExecutorConfig
  inner : Option StatelessL2Builder

namespace KonaExecutor

variable {Svm L2Transaction Report : Type} (vm : Vm Svm L2Transaction Report) (prim : Primitives) (fuel : Nat)

def updateSafeHead (executor : KonaExecutor) (host : Host) (header : L2BlockHeader) : KonaExecutor :=
  let (lastAccountDiff, trieDb) := match executor.inner with
    | none => ([], TrieDB.new header host.fetcher host.hinter)
    | some builder => (builder.accountDiff, builder.trieDb)
  { executor with inner := some (.new executor.rollupConfig header lastAccountDiff trieDb) }

def executePayload (executor : KonaExecutor) (host : Host) (transactions : Option (List (List UInt8))) :
    KonaExecutor × ExecutorResult (BlockBuildingOutcome Report) :=
  match executor.inner with
  | none => (executor, .error (.error .missingExecutor))
  | some builder =>
      let (builder, result) := builder.buildBlock vm prim fuel host transactions
      ({ executor with inner := some builder }, result)

theorem executePayload_some {vm : Vm Svm L2Transaction Report} {prim : Primitives} {fuel : Nat} {executor : KonaExecutor}
    {builder : StatelessL2Builder} (inner : executor.inner = some builder) (host : Host)
    (transactions : Option (List (List UInt8))) :
    (executor.executePayload vm prim fuel host transactions).1 =
      { executor with inner := some (builder.buildBlock vm prim fuel host transactions).1 } ∧
    (executor.executePayload vm prim fuel host transactions).2 = (builder.buildBlock vm prim fuel host transactions).2 := by
  unfold executePayload
  rw [inner]
  exact ⟨rfl, rfl⟩

def computeOutputRoot (executor : KonaExecutor) : ExecutorResult B256 :=
  match executor.inner with
  | none => .error (.error .missingExecutor)
  | some builder => .ok (builder.computeOutputRoot prim)

end KonaExecutor

end KonaSoon.State
