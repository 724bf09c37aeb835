import KonaSoon.Lib.Asking
import KonaSoon.Lib.Overlay
import KonaSoon.State.Executor

/-!
# The accounts of a block

They are an overlay over the host (`AccountsDb`, `svm/src/accounts_db.rs`): on what earlier blocks
have written, and what this one writes. Its fields are private, and the virtual machine gets at them by `get_account`
and `add_diff_account` alone; `fill_sysvar_cache` looks up as `get_account` does.
-/

namespace KonaSoon.State
open Lib Mpt

inductive Writer where
  | transaction
  | block
deriving DecidableEq, Repr

abbrev AccountLog := List (Access Writer Pubkey Account)

/-- A call of `AccountsDb`. The rent check of `add_diff_account` comes before the call. -/
inductive AccountCall where
  | getAccount (pubkey : Pubkey)
  | addDiffAccount (pubkey : Pubkey) (account : Account)

abbrev Calling := Asking AccountCall (Option Account)

structure AccountsDb where
  accounts : Overlay Pubkey Account
  -- The calls so far, which the source does not keep.
  log : AccountLog

namespace AccountsDb

/-- The callback of `get_account` with its failures dropped, and the accounts of `set_init_accounts`. -/
def init (prim : Primitives) (codec : AccountCodec) (callback : TrieDB) (initAccounts : AccountPairs) : AccountsDb where
  accounts := ⟨fun pubkey => (callback.getAccountData prim codec pubkey).toOption.join,
    StatelessL2Builder.extend .empty initAccounts⟩
  log := []

def serve (writer : Writer) (db : AccountsDb) : AccountCall → AccountsDb × Option Account
  | .getAccount pubkey =>
      ({ db with log := db.log ++ [.read pubkey (db.accounts.get pubkey)] }, db.accounts.get pubkey)
  | .addDiffAccount pubkey account =>
      (⟨db.accounts.put pubkey account, db.log ++ [.wrote writer pubkey account]⟩, none)

end AccountsDb

/-- `LiteSVM` without its accounts: what it asks of them, and what it does with the answers. -/
structure Client (Svm L2Transaction Transaction TransactionResult Report : Type) where
  -- The genesis hash, the parent slot with its bank hash, the time of the clock and the leaders.
  finishInit : B256 → UInt64 → B256 → Int → List (UInt64 × Pubkey) → Calling (Except String Svm)
  deserialize : List UInt8 → Except String L2Transaction
  toRaw : List L2Transaction → Option (List (List Transaction))
  sendTransaction : Svm → Transaction → Calling (Svm × TransactionResult)
  -- From `seal_block` to the block info of the outcome.
  sealBlock : Svm → List (List Transaction) → List TransactionResult → Calling (Except String (L2BlockInfo × Report))
  -- A `HashMap` is iterated in any order.
  iterate : AccountPairs → AccountPairs
  iterate_perm : ∀ accounts, (iterate accounts).Perm accounts

namespace Client

variable {Svm L2Transaction Transaction TransactionResult Report : Type}
  (client : Client Svm L2Transaction Transaction TransactionResult Report) (prim : Primitives) (codec : AccountCodec)

def sendTransactions : AccountsDb → Svm → List Transaction → AccountsDb × Svm × List TransactionResult
  | db, svm, [] => (db, svm, [])
  | db, svm, tx :: txs =>
      let (db, svm, result) := (client.sendTransaction svm tx).serve (AccountsDb.serve .transaction) db
      let (db, svm, results) := sendTransactions db svm txs
      (db, svm, result :: results)

def executeBlock (db : AccountsDb) (svm : Svm) (block : List L2Transaction) :
    Outcome String ((Svm × AccountsDb) × L2BlockInfo × Report × AccountLog) :=
  match client.toRaw block with
  | none => .error .panic
  | some batches =>
      let (db, svm, results) := client.sendTransactions db svm batches.flatten
      let (db, sealed) := (client.sealBlock svm batches results).serve (AccountsDb.serve .block) db
      match sealed with
      | .error e => .error (.error e)
      | .ok (blockInfo, report) => .ok ((svm, db), blockInfo, report, db.log)

def vm : Vm (Svm × AccountsDb) L2Transaction (Report × AccountLog) where
  finishInit setup :=
    let (db, started) := (client.finishInit setup.genesisHash setup.parentSlot setup.parentBankHash setup.clockTimestamp
      setup.leaderSchedule).serve (AccountsDb.serve .block) (.init prim codec setup.accountsCallback setup.initAccount)
    started.map fun svm => (svm, db)
  deserialize := client.deserialize
  executeBlock machine block := client.executeBlock machine.2 machine.1 block
  exportDiffAccounts machine := client.iterate machine.2.accounts.diff.entries
  distinct machine :=
    ((client.iterate_perm _).map Prod.fst).nodup_iff.mpr machine.2.accounts.diff.keys_nodup

end Client

/-! ## A block on its overlay -/

def anyone : Writer → Bool := fun _ => true

def transactionsOnly (writer : Writer) : Bool := writer = .transaction

def accountsAfter (start : AccountMap) (log : AccountLog) : AccountMap := fun pubkey =>
  (lastWrite anyone pubkey log).or (start pubkey)

structure AccountsDb.Sound (start : AccountMap) (past : AccountLog) (db : AccountsDb) : Prop where
  follows : db.accounts.Follows anyone start (past ++ db.log)
  current : Current anyone start (past ++ db.log)

section

variable {start : AccountMap} {past : AccountLog} {db : AccountsDb}

theorem AccountsDb.Sound.serve (sound : db.Sound start past) (writer : Writer) (call : AccountCall) :
    (db.serve writer call).1.Sound start past := by
  cases call with
  | getAccount pubkey =>
      refine ⟨?_, ?_⟩
      · show Overlay.Follows anyone start (past ++ (db.log ++ _)) db.accounts
        rw [← List.append_assoc]
        exact sound.follows.read pubkey _
      · show Current anyone start (past ++ (db.log ++ _))
        rw [← List.append_assoc]
        apply sound.current.concat
        intro key found same
        cases same
        exact sound.follows.get pubkey
  | addDiffAccount pubkey account =>
      refine ⟨?_, ?_⟩
      · show Overlay.Follows anyone start (past ++ (db.log ++ _)) (db.accounts.put pubkey account)
        rw [← List.append_assoc]
        exact sound.follows.put rfl pubkey account
      · show Current anyone start (past ++ (db.log ++ _))
        rw [← List.append_assoc]
        apply sound.current.concat
        intro key found same
        cases same

variable {Svm L2Transaction Transaction TransactionResult Report : Type}
  {client : Client Svm L2Transaction Transaction TransactionResult Report} {prim : Primitives} {codec : AccountCodec}

theorem AccountsDb.Sound.calls (sound : db.Sound start past) (writer : Writer) {Result : Type} (calling : Calling Result) :
    (calling.serve (AccountsDb.serve writer) db).1.Sound start past :=
  Asking.serve_keeps (fun _ call sound => sound.serve writer call) calling sound

theorem Client.sendTransactions_sound (sound : db.Sound start past) (svm : Svm) (txs : List Transaction) :
    (client.sendTransactions db svm txs).1.Sound start past := by
  induction txs generalizing db svm with
  | nil => exact sound
  | cons tx txs ih => exact ih (sound.calls .transaction _) _

theorem Client.executeBlock_sound (sound : db.Sound start past) {svm : Svm} {block : List L2Transaction}
    {machine : Svm × AccountsDb} {blockInfo : L2BlockInfo} {report : Report} {log : AccountLog}
    (ok : client.executeBlock db svm block = .ok (machine, blockInfo, report, log)) :
    machine.2.log = log ∧ machine.2.Sound start past := by
  unfold executeBlock at ok
  cases batches : client.toRaw block with
  | none =>
      rw [batches] at ok
      cases ok
  | some batches' =>
      rw [batches] at ok
      dsimp only at ok
      have sent := client.sendTransactions_sound sound svm batches'.flatten
      have sealed := sent.calls .block (client.sealBlock (client.sendTransactions db svm batches'.flatten).2.1 batches'
        (client.sendTransactions db svm batches'.flatten).2.2)
      split at ok
      · cases ok
      · cases ok
        exact ⟨rfl, sealed⟩

theorem Client.execute_sound {builder : StatelessL2Builder} {host : Host} {transactions : Option (List (List UInt8))}
    {blockInfo : L2BlockInfo} {report : Report} {log : AccountLog} {diffAccounts : AccountPairs}
    (sound : (AccountsDb.init prim codec (builder.trieDb.answering host) builder.lastAccountsDiff).Sound start past)
    (ok : builder.execute (client.vm prim codec) host transactions = .ok (blockInfo, (report, log), diffAccounts)) :
    ∃ db : AccountsDb, db.log = log ∧ db.Sound start past ∧ diffAccounts.Perm db.accounts.diff.entries := by
  unfold StatelessL2Builder.execute at ok
  simp only [bind_eq_ok] at ok
  obtain ⟨parentBankHash, _, clockTimestamp, _, genesisHash, _, machine, initialized, block, _, executed, ran, same⟩ := ok
  obtain ⟨machine', info, report', log'⟩ := executed
  cases same
  have started := sound.calls .block (client.finishInit genesisHash builder.parentSlot parentBankHash clockTimestamp
    builder.config.sequencerSchedules)
  have opened : machine.2.Sound start past := by
    simp only [vm] at initialized
    generalize Asking.serve _ _ _ = served at initialized started
    obtain ⟨db, _ | svm⟩ := served
    · cases initialized
    · cases initialized
      exact started
  have executes : client.executeBlock machine.2 machine.1 block = .ok (machine', info, report, log) := by
    simp only [vm] at ran
    cases result : client.executeBlock machine.2 machine.1 block with
    | error stop =>
        rw [result] at ran
        cases ran
    | ok value =>
        rw [result] at ran
        cases ran
        rfl
  obtain ⟨logged, closed⟩ := client.executeBlock_sound opened executes
  exact ⟨machine'.2, logged, closed, client.iterate_perm _⟩

end

end KonaSoon.State
