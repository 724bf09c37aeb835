import KonaSoon.State.Executor
import KonaSoon.Svm.PostedBlocks
import KonaSoon.Svm.Written

/-!
# The virtual machine of a block

The executor of transactions and blocks as the virtual machine of the stateless builder: `FraudExecutor`
(`executor/fraud/src/executor.rs`) over `LiteSVM`. A block that the builder makes is one whose batches this executor
has executed and sealed, and what it exports are the accounts that the executor has written.
-/

namespace KonaSoon.Svm
open Lib Mpt Programs

def sysvarClock : Pubkey := .ofNat 0x06a7d51718c774c928566398691d5eb68b5eb8a39b4b6d5c73555b2100000000

/-- The virtual machine with the keys under which it may have written. -/
structure Machine (Program : Type) where
  svm : LiteSVM Program
  slotState : SlotState
  parentBlockhash : Option B256
  written : List Pubkey
  covers : ∀ key, key ∉ written → svm.accounts.accountsDiff key = none

structure ExecutionReport where
  executionResult : List TransactionResult
  signatureCount : UInt64
  lamportsPerSignature : UInt64

/-- What a block takes from libraries, and what it reads from and writes into the accounts of sysvars. -/
structure MachineLibraries (Program Limits : Type) where
  runtime : Runtime VersionedTransaction Program Limits
  sha : Sha256
  -- The size of a transaction in memory.
  txSize : Nat
  deserialize : Deserialize
  finishInit : State.SvmSetup → Except String (Machine Program)
  finishInit_slot : ∀ setup machine, finishInit setup = .ok machine → machine.svm.slot = (setup.parentSlot + 1).toNat
  -- The two sysvars of recent blockhashes.
  recentBlockhashes : List BlockhashEntry → List (Pubkey × Account)
  getClock : Option Account → Except String UInt64
  l1BlockInfoPubkey : Pubkey
  getL1BlockInfo : Option Account → BlockNumHash × UInt64
  displayError : LiteSVMError → String
  noBlockhash : String

namespace Machine

variable {Program Limits : Type} (lib : MachineLibraries Program Limits)

def exportDiffAccounts (machine : Machine Program) : List (Pubkey × Account) :=
  machine.written.dedup.filterMap fun key => (machine.svm.accounts.accountsDiff key).map fun account => (key, account)

theorem exportDiffAccounts_iff (machine : Machine Program) (key : Pubkey) (account : Account) :
    (key, account) ∈ machine.exportDiffAccounts ↔ machine.svm.accounts.accountsDiff key = some account := by
  simp only [exportDiffAccounts, List.mem_filterMap, List.mem_dedup, Option.map_eq_some_iff, Prod.mk.injEq]
  constructor
  · rintro ⟨_, -, _, here, rfl, rfl⟩
    exact here
  · intro here
    refine ⟨key, ?_, account, here, rfl, rfl⟩
    by_contra outside
    rw [machine.covers key outside] at here
    cases here

theorem exportDiffAccounts_distinct (machine : Machine Program) : (machine.exportDiffAccounts.map Prod.fst).Nodup := by
  have keys : (machine.exportDiffAccounts.map Prod.fst).Sublist machine.written.dedup := by
    unfold exportDiffAccounts
    rw [List.map_filterMap]
    have single : ∀ key, ((machine.svm.accounts.accountsDiff key).map fun account => (key, account)).map Prod.fst =
        if (machine.svm.accounts.accountsDiff key).isSome then some key else none := by
      intro key
      cases machine.svm.accounts.accountsDiff key <;> rfl
    simp only [single]
    induction machine.written.dedup with
    | nil => exact .slnil
    | cons key keys ih =>
        rw [List.filterMap_cons]
        split
        · exact ih.cons key
        · rename_i same
          split at same
          · cases same
            exact ih.cons_cons key
          · cases same
  exact keys.nodup (List.nodup_dedup _)

def put (machine : Machine Program) (key : Pubkey) (account : Account) : Machine Program where
  svm := updateSysvar machine.svm key account
  slotState := machine.slotState
  parentBlockhash := machine.parentBlockhash
  written := key :: machine.written
  covers other outside := by
    obtain ⟨differs, outside⟩ := List.ne_and_not_mem_of_not_mem_cons outside
    exact (insertDiff_other machine.svm.accounts differs account).trans (machine.covers other outside)

/-- The batches of a block, and `seal_block` behind them. -/
def executeBatches (machine : Machine Program) (batches : List (List VersionedTransaction)) :
    Except LiteSVMError (Machine Program × List TransactionResult) :=
  match seals : sealBlock lib.runtime (Svm.executeBatches lib.runtime machine.svm batches).1
    (Svm.executeBatches lib.runtime machine.svm batches).2 with
  | .error e => .error e
  | .ok sealed => .ok ({
      svm := sealed
      slotState := machine.slotState
      parentBlockhash := machine.parentBlockhash
      written := machine.written ++ writtenKeys lib.runtime machine.svm batches
      covers := fun key outside => by
        obtain ⟨before, unwritten⟩ := not_or.mp (mt List.mem_append.mpr outside)
        exact (block_other seals unwritten).trans (machine.covers key before) },
      (Svm.executeBatches lib.runtime machine.svm batches).2)

/-- No blockhash is set before that of the block, and with it the sysvars are written. -/
def registerBlockhash (machine : Machine Program) (batches : List (List VersionedTransaction)) :
    Outcome LiteSVMError (Machine Program) :=
  match machine.slotState.processEntriesAndRegisterBlockhash lib.sha batches with
  | (_, .error stop) => .error stop
  | (slotState, .ok ()) =>
      let machine := { machine with slotState }
      .ok (if slotState.blockhash.isSome then
        (lib.recentBlockhashes slotState.recentBlockhashes).foldl (fun machine entry => machine.put entry.1 entry.2) machine
      else machine)

def getL2BlockInfo (machine : Machine Program) : Except String L2BlockInfo := do
  let (l1Origin, seqNum) := lib.getL1BlockInfo (machine.svm.accounts.getAccount lib.l1BlockInfoPubkey)
  let timestamp ← lib.getClock (machine.svm.accounts.getAccount sysvarClock)
  let parentHash ← machine.parentBlockhash.elim (.error lib.noBlockhash) .ok
  let hash ← machine.slotState.blockhash.elim (.error lib.noBlockhash) .ok
  return ⟨⟨hash, .ofNat machine.svm.slot, parentHash, timestamp⟩, l1Origin, seqNum⟩

def executeBlock (machine : Machine Program) (block : List L2Transaction) :
    Outcome String (Machine Program × L2BlockInfo × ExecutionReport) := do
  let rawBlock ← Outcome.unwrap (L2Block.toRaw lib.txSize ⟨block⟩)
  let (machine, executionResult) ←
    (machine.executeBatches lib rawBlock.batches).mapError fun e => .error (lib.displayError e)
  let machine ← (machine.registerBlockhash lib rawBlock.batches).mapError (Stop.map lib.displayError)
  let blockInfo ← (machine.getL2BlockInfo lib).mapError .error
  return (machine, blockInfo, ⟨executionResult, machine.svm.signatureCount, machine.svm.lamportsPerSignature⟩)

end Machine

def MachineLibraries.vm {Program Limits : Type} (lib : MachineLibraries Program Limits) :
    State.Vm (Machine Program) L2Transaction ExecutionReport where
  finishInit := lib.finishInit
  deserialize := lib.deserialize
  executeBlock machine block := machine.executeBlock lib block
  exportDiffAccounts machine := machine.exportDiffAccounts
  distinct machine := machine.exportDiffAccounts_distinct

section

variable {Program Limits : Type} {lib : MachineLibraries Program Limits}

theorem sealBlock_slot {svm sealed : LiteSVM Program} {results : List TransactionResult}
    (seals : sealBlock lib.runtime svm results = .ok sealed) : sealed.slot = svm.slot := by
  obtain ⟨paid, collects, same⟩ := bind_eq_ok.mp seals
  cases same
  unfold collectFees at collects
  dsimp only at collects
  split at collects
  · split at collects
    · obtain ⟨accounts, -, same⟩ := bind_eq_ok.mp collects
      cases same
      rfl
    · cases collects
      rfl
  · cases collects
    rfl

namespace Machine

theorem executeBatches_ok {machine after : Machine Program} {batches : List (List VersionedTransaction)}
    {results : List TransactionResult} (executes : machine.executeBatches lib batches = .ok (after, results)) :
    sealBlock lib.runtime (Svm.executeBatches lib.runtime machine.svm batches).1
      (Svm.executeBatches lib.runtime machine.svm batches).2 = .ok after.svm ∧
    results = (Svm.executeBatches lib.runtime machine.svm batches).2 := by
  unfold executeBatches at executes
  split at executes
  · cases executes
  · rename_i sealed seals
    cases executes
    exact ⟨seals, rfl⟩

theorem getL2BlockInfo_number {machine : Machine Program} {blockInfo : L2BlockInfo}
    (reads : machine.getL2BlockInfo lib = .ok blockInfo) : blockInfo.blockInfo.number = .ofNat machine.svm.slot := by
  simp only [getL2BlockInfo, bind_eq_ok] at reads
  obtain ⟨_, _, _, _, _, _, same⟩ := reads
  cases same
  rfl

theorem foldl_put (accounts : List (Pubkey × Account)) (machine : Machine Program) :
    (accounts.foldl (fun machine entry => machine.put entry.1 entry.2) machine).svm.slot = machine.svm.slot ∧
    ∀ key, key ∉ accounts.map Prod.fst →
      (accounts.foldl (fun machine entry => machine.put entry.1 entry.2) machine).svm.accounts.accountsDiff key =
        machine.svm.accounts.accountsDiff key := by
  induction accounts generalizing machine with
  | nil => exact ⟨rfl, fun _ _ => rfl⟩
  | cons entry accounts ih =>
      obtain ⟨slot, others⟩ := ih (machine.put entry.1 entry.2)
      refine ⟨slot, fun key outside => ?_⟩
      obtain ⟨differs, outside⟩ := List.ne_and_not_mem_of_not_mem_cons outside
      exact (others key outside).trans (insertDiff_other machine.svm.accounts differs entry.2)

theorem registerBlockhash_ok {machine after : Machine Program} {batches : List (List VersionedTransaction)}
    (registers : machine.registerBlockhash lib batches = .ok after) :
    after.svm.slot = machine.svm.slot ∧
    ∀ key, (∀ hashes, key ∉ (lib.recentBlockhashes hashes).map Prod.fst) →
      after.svm.accounts.accountsDiff key = machine.svm.accounts.accountsDiff key := by
  unfold registerBlockhash at registers
  split at registers
  · cases registers
  · cases registers
    split
    · obtain ⟨slot, others⟩ := foldl_put (lib.recentBlockhashes _) { machine with slotState := _ }
      exact ⟨slot, fun key outside => others key (outside _)⟩
    · exact ⟨rfl, fun _ _ => rfl⟩

end Machine

/-- What is left of a block on a machine: its batches were executed one after the other and the block was sealed, with
the sysvars of recent blockhashes written behind it. -/
structure Ran (lib : MachineLibraries Program Limits) (machine : Machine Program) (batches : List (List VersionedTransaction))
    (after : Machine Program) (blockInfo : L2BlockInfo) (report : ExecutionReport) : Prop where
  results : report.executionResult = (executeBatches lib.runtime machine.svm batches).2
  seals : ∃ sealed,
    sealBlock lib.runtime (executeBatches lib.runtime machine.svm batches).1 report.executionResult = .ok sealed ∧
    ∀ key, (∀ hashes, key ∉ (lib.recentBlockhashes hashes).map Prod.fst) →
      after.svm.accounts.accountsDiff key = sealed.accounts.accountsDiff key
  number : blockInfo.blockInfo.number = .ofNat machine.svm.slot

theorem Machine.executeBlock_ran {machine after : Machine Program} {block : List L2Transaction} {blockInfo : L2BlockInfo}
    {report : ExecutionReport} (executes : machine.executeBlock lib block = .ok (after, blockInfo, report)) :
    ∃ rawBlock, L2Block.toRaw lib.txSize ⟨block⟩ = some rawBlock ∧
      Ran lib machine rawBlock.batches after blockInfo report := by
  unfold Machine.executeBlock at executes
  simp only [bind_eq_ok] at executes
  obtain ⟨rawBlock, converts, ⟨sealed, results⟩, ran, registered, registers, _, reads, same⟩ := executes
  cases same
  rw [Outcome.unwrap_eq_ok] at converts
  obtain ⟨seals, rfl⟩ := Machine.executeBatches_ok (mapError_eq_ok.mp ran)
  obtain ⟨slot, others⟩ := Machine.registerBlockhash_ok (mapError_eq_ok.mp registers)
  refine ⟨rawBlock, converts, rfl, ⟨sealed.svm, seals, others⟩, ?_⟩
  have number := Machine.getL2BlockInfo_number (mapError_eq_ok.mp reads)
  rw [number, slot, sealBlock_slot seals, executeBatches_eq_flatten, (executeBatchTransactions_schedule _ _ _).2]

theorem executeBlock_numbered {setup : State.SvmSetup} {machine after : Machine Program} {block : List L2Transaction}
    {blockInfo : L2BlockInfo} {report : ExecutionReport} (started : lib.vm.finishInit setup = .ok machine)
    (executes : lib.vm.executeBlock machine block = .ok (after, blockInfo, report)) :
    blockInfo.blockInfo.number = setup.parentSlot + 1 := by
  obtain ⟨rawBlock, -, ran⟩ := Machine.executeBlock_ran executes
  rw [ran.number, lib.finishInit_slot setup machine started, UInt64.ofNat_toNat]

/-- A block of the stateless builder is the posted transactions, executed batch by batch and sealed. Under a key that
is not one of the sysvars of recent blockhashes, it exports what the executor has there in the end, and where the block
does not write that is what the initialisation has put there. -/
theorem execute_ran {builder : State.StatelessL2Builder} {host : State.Host} {transactions : Option (List (List UInt8))}
    {blockInfo : L2BlockInfo} {report : ExecutionReport} {diffAccounts : List (Pubkey × Account)}
    (executes : builder.execute lib.vm host transactions = .ok (blockInfo, report, diffAccounts)) :
    ∃ setup machine block rawBlock sealed, lib.finishInit setup = .ok machine ∧ setup.parentSlot = builder.parentSlot ∧
      (transactions.getD []).mapM lib.deserialize = .ok block ∧ L2Block.toRaw lib.txSize ⟨block⟩ = some rawBlock ∧
      report.executionResult = (executeBatches lib.runtime machine.svm rawBlock.batches).2 ∧
      sealBlock lib.runtime (executeBatches lib.runtime machine.svm rawBlock.batches).1 report.executionResult = .ok sealed ∧
      blockInfo.blockInfo.number = builder.parentSlot + 1 ∧
      ∀ key, (∀ hashes, key ∉ (lib.recentBlockhashes hashes).map Prod.fst) →
        (∀ account, (key, account) ∈ diffAccounts ↔ sealed.accounts.accountsDiff key = some account) ∧
        (key ∉ writtenKeys lib.runtime machine.svm rawBlock.batches →
          sealed.accounts.accountsDiff key = machine.svm.accounts.accountsDiff key) := by
  unfold State.StatelessL2Builder.execute at executes
  simp only [bind_eq_ok] at executes
  obtain ⟨_, _, _, _, _, _, machine, started, block, converts, ⟨after, info, report'⟩, ran, same⟩ := executes
  cases same
  have started := mapError_eq_ok.mp started
  have ran := mapError_eq_ok.mp ran
  obtain ⟨rawBlock, raw, executed⟩ := Machine.executeBlock_ran ran
  obtain ⟨sealed, seals, others⟩ := executed.seals
  refine ⟨_, machine, block, rawBlock, sealed, started, rfl, ?_, raw, executed.results, seals,
    executeBlock_numbered started ran, fun key ordinary => ⟨fun account => ?_, fun unwritten => ?_⟩⟩
  · exact mapM_mapError_eq_ok.mp converts
  · rw [← others key ordinary]
    exact after.exportDiffAccounts_iff key account
  · rw [executed.results] at seals
    exact block_other seals unwritten

end

end KonaSoon.Svm
