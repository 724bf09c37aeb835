import KonaSoon.Lib.Asking
import KonaSoon.Svm.Fees

/-!
# The executor and its account requests

The functions of `AccountsDb` and `LiteSVM` again, with each call of the callback a request, so that a request may be
answered one way now and another way later. Over a callback that answers all requests for an account alike, they are
the functions of the executor.
-/

namespace KonaSoon.Svm
open Lib Mpt Programs

abbrev Callback := Pubkey → Option Account

abbrev Fetching := Asking Pubkey (Option Account)

variable {Transaction Program Limits : Type} (rt : Runtime Transaction Program Limits)

namespace Requests

def getAccount (db : AccountsDb Program) (pubkey : Pubkey) : Fetching (Option Account) :=
  match db.accountsDiff pubkey with
  | some account => pure (some account)
  | none => Asking.query pubkey

def loadProgram (db : AccountsDb Program) (programAccount : Account) : Fetching (Except InstructionError Program) :=
  let owner := programAccount.owner
  let data := programAccount.data.1
  if owner = bpfLoader ∨ owner = bpfLoaderDeprecated then
    pure (AccountsDb.newProgram (rt.programCacheEntry owner data data.length))
  else if owner = bpfLoaderUpgradeable then
    match rt.programdataAddress programAccount with
    | none => pure (.error .invalidAccountData)
    | some programdataAddress => do
        match ← getAccount db programdataAddress with
        | none => return .error .missingAccount
        | some programdataAccount =>
            match AccountsDb.getFrom programdataAccount.data.1 rt.programdataMetadataSize with
            | none => return .error .invalidAccountData
            | some programdata =>
                let size := data.length + programdataAccount.data.1.length
                return AccountsDb.newProgram (rt.programCacheEntry owner programdata size)
  else if owner = loaderV4 then
    match AccountsDb.getFrom data rt.loaderV4Offset with
    | none => pure (.error .invalidAccountData)
    | some elfBytes => pure (AccountsDb.newProgram (rt.programCacheEntry loaderV4 elfBytes data.length))
  else pure (.error .incorrectProgramId)

def loadAccount (db : AccountsDb Program) (pubkey : Pubkey) :
    Fetching (AccountsDb Program × Except InstructionError (Option Account)) := do
  match ← getAccount db pubkey with
  | none => return (db, .ok none)
  | some account =>
      if account.executable ∧ account.owner ≠ nativeLoader then
        match ← loadProgram rt db account with
        | .error e => return (db, .error e)
        | .ok program =>
            return ({ db with programsCache := Function.update db.programsCache pubkey (some program) }, .ok (some account))
      else return (db, .ok (some account))

def mint (db : AccountsDb Program) (checkRentExemption : Bool) (pubkey : Pubkey) (lamports : UInt64) :
    Fetching (Except LiteSVMError (AccountsDb Program)) := do
  match ← getAccount db pubkey with
  | some account =>
      match checkedAdd account.lamports lamports with
      | some sum => return db.addDiffAccount checkRentExemption pubkey { account with lamports := sum }
      | none => return .error .lamportsOverflow
  | none => return db.addDiffAccount checkRentExemption pubkey { defaultAccount with lamports }

def burn (db : AccountsDb Program) (checkRentExemption : Bool) (pubkey : Pubkey) (lamports : UInt64) :
    Fetching (Except LiteSVMError (AccountsDb Program)) := do
  match ← getAccount db pubkey with
  | some account =>
      match checkedSub account.lamports lamports with
      | some rest => return db.addDiffAccount checkRentExemption pubkey { account with lamports := rest }
      | none => return .error .lamportsOverflow
  | none => return .error (.missingAccount pubkey)

/-! ## Processing a transaction -/

def loadKey (message : Message) (fee : UInt64) (state : LoadState Program) (index : Nat) (key : Pubkey) :
    Fetching (LoadState Program × Except TransactionError Account) :=
  if key = sysvarInstructions then pure (state, .ok (rt.instructionsAccount message))
  else do
    match ← loadAccount rt state.accounts key with
    | (accounts, .error _) => return ({ state with accounts }, .error .accountNotFound)
    | (accounts, .ok loaded) =>
        let account := loaded.getD defaultAccount
        if state.payerKey.isNone ∧ (¬ message.isInvoked index ∨ message.isInstructionAccount index) then
          let (account, feePayerRentDebit) := rt.collectRent key account
          match validateFeePayer rt key account index fee with
          | .error e => return ({ state with accounts, feePayerRentDebit }, .error e)
          | .ok charged => return ({ accounts, payerKey := some key, feePayerRentDebit }, .ok charged)
        else if message.isWritable index then
          let (account, feePayerRentDebit) := rt.collectRent key account
          return ({ state with accounts, feePayerRentDebit }, .ok account)
        else return ({ state with accounts }, .ok account)

def loadKeys (message : Message) (fee : UInt64) : LoadState Program → Nat → List Pubkey →
    Fetching (LoadState Program × Except TransactionError (List (Pubkey × Account)))
  | state, _, [] => pure (state, .ok [])
  | state, index, key :: keys => do
      match ← loadKey rt message fee state index key with
      | (state, .error e) => return (state, .error e)
      | (state, .ok account) =>
          match ← loadKeys message fee state (index + 1) keys with
          | (state, .error e) => return (state, .error e)
          | (state, .ok accounts) => return (state, .ok ((key, account) :: accounts))

def programAccounts (db : AccountsDb Program) (accounts loaders : List (Pubkey × Account)) (programIndex : Nat) :
    Fetching (AccountsDb Program × List (Pubkey × Account) × Except TransactionError (List Nat)) :=
  let (programId, programAccount) := accounts.getD programIndex (systemProgramId, defaultAccount)
  if programId = nativeLoader then pure (db, loaders, .ok [])
  else if ¬ programAccount.executable then pure (db, loaders, .error .invalidProgramForExecution)
  else
    let ownerId := programAccount.owner
    if ownerId = nativeLoader then pure (db, loaders, .ok [programIndex])
    else if loaders.any fun loader => loader.1 = ownerId then pure (db, loaders, .ok [programIndex])
    else do
      match ← loadAccount rt db ownerId with
      | (db, .error _) => return (db, loaders, .error .accountNotFound)
      | (db, .ok none) => return (db, loaders, .error .accountNotFound)
      | (db, .ok (some ownerAccount)) =>
          if ownerAccount.owner ≠ nativeLoader then return (db, loaders, .error .invalidProgramForExecution)
          else if ¬ ownerAccount.executable then return (db, loaders, .error .invalidProgramForExecution)
          else return (db, loaders ++ [(ownerId, ownerAccount)], .ok [programIndex])

def loadPrograms (accounts : List (Pubkey × Account)) : AccountsDb Program → List (Pubkey × Account) → List Nat →
    Fetching (AccountsDb Program × Except TransactionError (List (Pubkey × Account) × List (List Nat)))
  | db, loaders, [] => pure (db, .ok (loaders, []))
  | db, loaders, programIndex :: rest => do
      match ← programAccounts rt db accounts loaders programIndex with
      | (db, _, .error e) => return (db, .error e)
      | (db, loaders, .ok indices) =>
          match ← loadPrograms accounts db loaders rest with
          | (db, .error e) => return (db, .error e)
          | (db, .ok (loaders, later)) => return (db, .ok (loaders, indices :: later))

def checkAccountRent (db : AccountsDb Program) (message : Message) (context : List (Pubkey × Account)) (index : Nat) :
    Fetching (Except TransactionError Unit) :=
  if message.isWritable index then
    match context[index]? with
    | none => pure (.error (.instructionError (index % 256)))
    | some (pubkey, account) =>
        if account.data.1 ≠ [] then do
          let postRentState := RentState.fromAccount rt account
          let preRentState := RentState.fromAccount rt ((← getAccount db pubkey).getD defaultAccount)
          if postRentState.transitionAllowedFrom preRentState then return .ok ()
          else return .error (.insufficientFundsForRent (index % 256))
        else pure (.ok ())
  else pure (.ok ())

def checkAccountsRent (db : AccountsDb Program) (message : Message) (context : List (Pubkey × Account)) :
    List Nat → Fetching (Except TransactionError Unit)
  | [] => pure (.ok ())
  | index :: indices => do
      match ← checkAccountRent rt db message context index with
      | .error e => return .error e
      | .ok () => checkAccountsRent db message context indices

def processTransaction (svm : LiteSVM Program) (message : Message) (lamportsPerSignature : UInt64) (limits : Limits) :
    Fetching (ProcessResult Program) := do
  let fee := rt.calculateFee message lamportsPerSignature limits
  match ← loadKeys rt message fee ⟨svm.accounts, none, 0⟩ 0 message.accountKeys with
  | (state, .error e) => return ⟨state.accounts, .error e, 0, none, fee, state.payerKey, state.feePayerRentDebit⟩
  | (state, .ok accounts) =>
      if state.payerKey.isNone then
        return ⟨state.accounts, .error .accountNotFound, 0, none, fee, state.payerKey, state.feePayerRentDebit⟩
      else
        match ← loadPrograms rt accounts state.accounts [] message.programIndices with
        | (db, .error e) => return ⟨db, .error e, 0, none, fee, state.payerKey, state.feePayerRentDebit⟩
        | (db, .ok (loaders, programIndices)) =>
            let processed := rt.processMessage message programIndices db (accounts ++ loaders)
            let context := contextAfter (accounts ++ loaders) processed
            match ← checkAccountsRent rt db message context (List.range message.accountKeys.length) with
            | .error err => return ⟨db, .error err, processed.consumedUnits, some context, fee, state.payerKey,
                state.feePayerRentDebit⟩
            | .ok () => return ⟨db, processed.result, processed.consumedUnits, some context, fee, state.payerKey,
                state.feePayerRentDebit⟩

/-! ## Checking and executing -/

def checkAndLoadMessageNonceAccount (svm : LiteSVM Program) (message : Message) (nextDurableNonce : B256) :
    Fetching (Option NonceData) :=
  if message.recentBlockhash = nextDurableNonce then pure none
  else match message.durableNonce with
    | none => pure none
    | some nonceAddress => do
        match ← getAccount svm.accounts nonceAddress with
        | none => return none
        | some nonceAccount =>
            match rt.verifyNonceAccount nonceAccount message.recentBlockhash with
            | none => return none
            | some nonceData =>
                return if message.nonceSigners.any fun signer => signer = nonceData.authority then some nonceData else none

def checkTransactionAge (svm : LiteSVM Program) (message : Message) (nextDurableNonce : B256) :
    Fetching (Except TransactionError UInt64) :=
  match svm.validHash message.recentBlockhash with
  | some lamportsPerSignature => pure (.ok lamportsPerSignature)
  | none => do
      match ← checkAndLoadMessageNonceAccount rt svm message nextDurableNonce with
      | some nonceData => return .ok nonceData.lamportsPerSignature
      | none =>
          return if message.accountKeys.head? = some noSigTxPayer then .ok 0 else .error .blockhashNotFound

def maybeBlockhashCheck (svm : LiteSVM Program) (message : Message) : Fetching (Except TransactionError UInt64) :=
  if svm.blockhashVerify then checkTransactionAge rt svm message (rt.durableNonceFrom svm.lastHash)
  else pure (.ok svm.lamportsPerSignature)

def checkTxResult (db : AccountsDb Program) (result : Except TransactionError Unit) (payerKey : Option Pubkey)
    (fee : UInt64) : Fetching (AccountsDb Program × Except TransactionError Unit) :=
  match result with
  | .ok () => pure (db, .ok ())
  | .error e =>
      match payerKey with
      | some payer => do
          match ← burn db false payer fee with
          | .ok db => return (db, .ok ())
          | .error _ => return (db, .error .insufficientFundsForFee)
      | none => pure (db, .error e)

def executeSanitizedTransaction (svm : LiteSVM Program) (message : Message) :
    Fetching (LiteSVM Program × ExecutionResult) := do
  match ← maybeBlockhashCheck rt svm message with
  | .error e => return (svm, .failed e)
  | .ok lamportsPerSignature =>
      match rt.computeBudgetLimits message with
      | .error e => return (svm, .failed e)
      | .ok limits =>
          let processed ← processTransaction rt svm message lamportsPerSignature limits
          match processed.context with
          | none =>
              return ({ svm with accounts := processed.accounts },
                ⟨[], processed.result, 0, processed.consumedUnits, processed.fee⟩)
          | some context =>
              let (db, txResult) ← checkTxResult processed.accounts processed.result processed.payerKey processed.fee
              return ({ svm with accounts := db },
                ⟨postAccounts message context, txResult, message.numRequiredSignatures, processed.consumedUnits, processed.fee⟩)

def executeTransaction (svm : LiteSVM Program) (tx : Transaction) : Fetching (LiteSVM Program × ExecutionResult) :=
  match rt.sanitize svm.sigVerify tx with
  | .error e => pure (svm, .failed e)
  | .ok message => executeSanitizedTransaction rt svm message

def sendTransaction (svm : LiteSVM Program) (tx : Transaction) : Fetching (LiteSVM Program × TransactionResult) := do
  let (svm, executed) ← executeTransaction rt svm tx
  let svm := { svm with signatureCount := svm.signatureCount + executed.signatureCount.toUInt64 }
  let metadata : TransactionMetadata := ⟨executed.consumedUnits, executed.fee⟩
  match executed.txResult with
  | .error err => return (svm, .error ⟨err, metadata⟩)
  | .ok () => return ({ svm with accounts := writeBack rt svm.accounts executed.postAccounts }, .ok metadata)

/-! ## Blocks -/

def executeBatchTransactions (svm : LiteSVM Program) : List Transaction →
    Fetching (LiteSVM Program × List TransactionResult)
  | [] => pure (svm, [])
  | tx :: txs => do
      let (svm, result) ← sendTransaction rt svm tx
      let (svm, results) ← executeBatchTransactions svm txs
      return (svm, result :: results)

def executeBatches (svm : LiteSVM Program) : List (List Transaction) →
    Fetching (LiteSVM Program × List TransactionResult)
  | [] => pure (svm, [])
  | batch :: batches => do
      let (svm, res) ← executeBatchTransactions rt svm batch
      let (svm, results) ← executeBatches svm batches
      return (svm, res ++ results)

def collectFees (svm : LiteSVM Program) (results : List TransactionResult) :
    Fetching (Except LiteSVMError (LiteSVM Program)) :=
  let fees := totalFees results
  match svm.leaderSchedule.leaderAtSlot svm.slot with
  | some feeCollector =>
      if 0 < fees then do
        let minted ← mint svm.accounts svm.validateFeeCollector feeCollector fees
        return minted.map fun accounts => { svm with accounts }
      else pure (.ok svm)
  | none => pure (.ok svm)

def updateSlotHistory (svm : LiteSVM Program) : Fetching (LiteSVM Program) := do
  let found ← getAccount svm.accounts sysvarSlotHistory
  return updateSysvar svm sysvarSlotHistory (rt.slotHistoryAccount found svm.slot)

def sealBlock (svm : LiteSVM Program) (results : List TransactionResult) :
    Fetching (Except LiteSVMError (LiteSVM Program)) := do
  match ← collectFees svm results with
  | .error e => return .error e
  | .ok svm => return .ok (updateFeeRateGovernor rt (← updateSlotHistory rt svm))

end Requests

/-! ## A callback that answers alike each time -/

def AccountsDb.over (callback : Callback) (db : AccountsDb Program) : AccountsDb Program := { db with callback }

def LoadState.over (callback : Callback) (state : LoadState Program) : LoadState Program :=
  { state with accounts := state.accounts.over callback }

def ProcessResult.over (callback : Callback) (processed : ProcessResult Program) : ProcessResult Program :=
  { processed with accounts := processed.accounts.over callback }

def LiteSVM.over (callback : Callback) (svm : LiteSVM Program) : LiteSVM Program :=
  { svm with accounts := svm.accounts.over callback }

open Asking

variable {rt} (callback : Callback)

theorem getAccount_value (db : AccountsDb Program) (pubkey : Pubkey) :
    (db.over callback).getAccount pubkey = value callback (Requests.getAccount db pubkey) := by
  show (db.accountsDiff pubkey).or (callback pubkey) = _
  unfold Requests.getAccount
  cases db.accountsDiff pubkey with
  | none => rfl
  | some account => rfl

theorem loadProgram_value (db : AccountsDb Program) (programAccount : Account) :
    (db.over callback).loadProgram rt programAccount = value callback (Requests.loadProgram rt db programAccount) := by
  unfold AccountsDb.loadProgram Requests.loadProgram
  dsimp only
  by_cases plain : programAccount.owner = bpfLoader ∨ programAccount.owner = bpfLoaderDeprecated
  · rw [if_pos plain, if_pos plain]
    rfl
  · rw [if_neg plain, if_neg plain]
    by_cases upgradeable : programAccount.owner = bpfLoaderUpgradeable
    · rw [if_pos upgradeable, if_pos upgradeable]
      cases rt.programdataAddress programAccount with
      | none => rfl
      | some programdataAddress =>
          dsimp only
          rw [value_bind, getAccount_value]
          cases value callback (Requests.getAccount db programdataAddress) with
          | none => rfl
          | some programdataAccount =>
              dsimp only
              cases AccountsDb.getFrom programdataAccount.data.1 rt.programdataMetadataSize with
              | none => rfl
              | some programdata => rfl
    · rw [if_neg upgradeable, if_neg upgradeable]
      by_cases v4 : programAccount.owner = loaderV4
      · rw [if_pos v4, if_pos v4]
        cases AccountsDb.getFrom programAccount.data.1 rt.loaderV4Offset with
        | none => rfl
        | some elfBytes => rfl
      · rw [if_neg v4, if_neg v4]
        rfl

theorem loadAccount_value (db : AccountsDb Program) (pubkey : Pubkey) :
    (db.over callback).loadAccount rt pubkey =
      (value callback (Requests.loadAccount rt db pubkey)).map (AccountsDb.over callback) id := by
  unfold AccountsDb.loadAccount Requests.loadAccount
  rw [value_bind, getAccount_value]
  cases value callback (Requests.getAccount db pubkey) with
  | none => rfl
  | some account =>
      dsimp only
      by_cases executable : account.executable ∧ account.owner ≠ nativeLoader
      · rw [if_pos executable, if_pos executable, value_bind, loadProgram_value]
        cases value callback (Requests.loadProgram rt db account) with
        | error e => rfl
        | ok program => rfl
      · rw [if_neg executable, if_neg executable]
        rfl

theorem addDiffAccount_over (db : AccountsDb Program) (checkRentExemption : Bool) (pubkey : Pubkey) (account : Account) :
    (db.over callback).addDiffAccount checkRentExemption pubkey account =
      (db.addDiffAccount checkRentExemption pubkey account).map (AccountsDb.over callback) := by
  cases checkRentExemption with
  | false => rfl
  | true =>
      have same : (db.over callback).sysvarRent = db.sysvarRent := rfl
      unfold AccountsDb.addDiffAccount
      rw [same]
      cases db.sysvarRent with
      | none => rfl
      | some minimumBalance =>
          by_cases poor : account.lamports < minimumBalance account.data.1.length
          · simp only [if_pos poor]
            rfl
          · simp only [if_neg poor]
            rfl

theorem mint_value (db : AccountsDb Program) (checkRentExemption : Bool) (pubkey : Pubkey) (lamports : UInt64) :
    (db.over callback).mint checkRentExemption pubkey lamports =
      (value callback (Requests.mint db checkRentExemption pubkey lamports)).map (AccountsDb.over callback) := by
  unfold AccountsDb.mint Requests.mint
  rw [value_bind, getAccount_value]
  cases value callback (Requests.getAccount db pubkey) with
  | none => exact addDiffAccount_over callback db _ _ _
  | some account =>
      dsimp only
      cases checkedAdd account.lamports lamports with
      | none => rfl
      | some sum => exact addDiffAccount_over callback db _ _ _

theorem burn_value (db : AccountsDb Program) (checkRentExemption : Bool) (pubkey : Pubkey) (lamports : UInt64) :
    (db.over callback).burn checkRentExemption pubkey lamports =
      (value callback (Requests.burn db checkRentExemption pubkey lamports)).map (AccountsDb.over callback) := by
  unfold AccountsDb.burn Requests.burn
  rw [value_bind, getAccount_value]
  cases value callback (Requests.getAccount db pubkey) with
  | none => rfl
  | some account =>
      dsimp only
      cases checkedSub account.lamports lamports with
      | none => rfl
      | some rest => exact addDiffAccount_over callback db _ _ _

theorem loadKey_value (message : Message) (fee : UInt64) (state : LoadState Program) (index : Nat) (key : Pubkey) :
    loadKey rt message fee (state.over callback) index key =
      (value callback (Requests.loadKey rt message fee state index key)).map (LoadState.over callback) id := by
  unfold loadKey Requests.loadKey
  by_cases instructions : key = sysvarInstructions
  · rw [if_pos instructions, if_pos instructions]
    rfl
  · have loads : (state.over callback).accounts.loadAccount rt key =
        (value callback (Requests.loadAccount rt state.accounts key)).map (AccountsDb.over callback) id :=
      loadAccount_value callback state.accounts key
    rw [if_neg instructions, if_neg instructions, value_bind, loads]
    obtain ⟨accounts, e | loaded⟩ := value callback (Requests.loadAccount rt state.accounts key)
    · rfl
    · dsimp only [Prod.map, id]
      by_cases first : state.payerKey.isNone ∧ (¬ message.isInvoked index ∨ message.isInstructionAccount index)
      · have firstOver : (state.over callback).payerKey.isNone ∧
          (¬ message.isInvoked index ∨ message.isInstructionAccount index) := first
        rw [if_pos first, if_pos firstOver]
        cases validateFeePayer rt key (rt.collectRent key (loaded.getD defaultAccount)).1 index fee with
        | error e => rfl
        | ok charged => rfl
      · have firstOver : ¬ ((state.over callback).payerKey.isNone ∧
          (¬ message.isInvoked index ∨ message.isInstructionAccount index)) := first
        rw [if_neg first, if_neg firstOver]
        by_cases writable : message.isWritable index
        · rw [if_pos writable, if_pos writable]
          rfl
        · rw [if_neg writable, if_neg writable]
          rfl

theorem loadKeys_value (message : Message) (fee : UInt64) (keys : List Pubkey) (state : LoadState Program) (index : Nat) :
    loadKeys rt message fee (state.over callback) index keys =
      (value callback (Requests.loadKeys rt message fee state index keys)).map (LoadState.over callback) id := by
  induction keys generalizing state index with
  | nil => rfl
  | cons key keys ih =>
      unfold loadKeys Requests.loadKeys
      rw [value_bind, loadKey_value]
      obtain ⟨next, e | account⟩ := value callback (Requests.loadKey rt message fee state index key)
      · rfl
      · dsimp only [Prod.map, id]
        rw [value_bind, ih]
        obtain ⟨last, e | accounts⟩ := value callback (Requests.loadKeys rt message fee next (index + 1) keys)
        · rfl
        · rfl

theorem programAccounts_value (db : AccountsDb Program) (accounts loaders : List (Pubkey × Account)) (programIndex : Nat) :
    programAccounts rt (db.over callback) accounts loaders programIndex =
      (value callback (Requests.programAccounts rt db accounts loaders programIndex)).map (AccountsDb.over callback) id := by
  unfold programAccounts Requests.programAccounts
  obtain ⟨programId, programAccount⟩ := accounts.getD programIndex (systemProgramId, defaultAccount)
  dsimp only
  by_cases native : programId = nativeLoader
  · rw [if_pos native, if_pos native]
    rfl
  · rw [if_neg native, if_neg native]
    by_cases data : ¬ programAccount.executable
    · rw [if_pos data, if_pos data]
      rfl
    · rw [if_neg data, if_neg data]
      by_cases builtin : programAccount.owner = nativeLoader
      · rw [if_pos builtin, if_pos builtin]
        rfl
      · rw [if_neg builtin, if_neg builtin]
        by_cases appended : loaders.any fun loader => loader.1 = programAccount.owner
        · rw [if_pos appended, if_pos appended]
          rfl
        · rw [if_neg appended, if_neg appended, value_bind, loadAccount_value]
          obtain ⟨next, e | _ | ownerAccount⟩ := value callback (Requests.loadAccount rt db programAccount.owner)
          · rfl
          · rfl
          · dsimp only [Prod.map, id]
            by_cases foreign : ownerAccount.owner ≠ nativeLoader
            · rw [if_pos foreign, if_pos foreign]
              rfl
            · rw [if_neg foreign, if_neg foreign]
              by_cases inert : ¬ ownerAccount.executable
              · rw [if_pos inert, if_pos inert]
                rfl
              · rw [if_neg inert, if_neg inert]
                rfl

theorem loadPrograms_value (accounts : List (Pubkey × Account)) (programIndices : List Nat) (db : AccountsDb Program)
    (loaders : List (Pubkey × Account)) :
    loadPrograms rt accounts (db.over callback) loaders programIndices =
      (value callback (Requests.loadPrograms rt accounts db loaders programIndices)).map (AccountsDb.over callback) id := by
  induction programIndices generalizing db loaders with
  | nil => rfl
  | cons programIndex rest ih =>
      unfold loadPrograms Requests.loadPrograms
      rw [value_bind, programAccounts_value]
      obtain ⟨next, loaders', e | indices⟩ :=
        value callback (Requests.programAccounts rt db accounts loaders programIndex)
      · rfl
      · dsimp only [Prod.map, id]
        rw [value_bind, ih]
        obtain ⟨last, e | all⟩ := value callback (Requests.loadPrograms rt accounts next loaders' rest)
        · rfl
        · rfl

theorem checkAccountRent_value (db : AccountsDb Program) (message : Message) (context : List (Pubkey × Account))
    (index : Nat) : checkAccountRent rt (db.over callback) message context index =
      value callback (Requests.checkAccountRent rt db message context index) := by
  unfold checkAccountRent Requests.checkAccountRent
  by_cases writable : message.isWritable index
  · rw [if_pos writable, if_pos writable]
    cases context[index]? with
    | none => rfl
    | some entry =>
        dsimp only
        by_cases data : entry.2.data.1 ≠ []
        · rw [if_pos data, if_pos data, value_bind, getAccount_value]
          by_cases allowed : (RentState.fromAccount rt entry.2).transitionAllowedFrom (RentState.fromAccount rt
            ((value callback (Requests.getAccount db entry.1)).getD defaultAccount))
          · rw [if_pos allowed, if_pos allowed]
            rfl
          · rw [if_neg allowed, if_neg allowed]
            rfl
        · rw [if_neg data, if_neg data]
          rfl
  · rw [if_neg writable, if_neg writable]
    rfl

theorem checkAccountsRent_value (db : AccountsDb Program) (message : Message) (context : List (Pubkey × Account))
    (indices : List Nat) : indices.forM (checkAccountRent rt (db.over callback) message context) =
      value callback (Requests.checkAccountsRent rt db message context indices) := by
  induction indices with
  | nil => rfl
  | cons index indices ih =>
      unfold Requests.checkAccountsRent
      show (checkAccountRent rt (db.over callback) message context index >>= fun _ => indices.forM _) = _
      rw [value_bind, checkAccountRent_value]
      cases value callback (Requests.checkAccountRent rt db message context index) with
      | error e => rfl
      | ok done => exact ih

theorem checkTxResult_value (db : AccountsDb Program) (result : Except TransactionError Unit) (payerKey : Option Pubkey)
    (fee : UInt64) : checkTxResult (db.over callback) result payerKey fee =
      (value callback (Requests.checkTxResult db result payerKey fee)).map (AccountsDb.over callback) id := by
  unfold checkTxResult Requests.checkTxResult
  cases result with
  | ok done => rfl
  | error e =>
      cases payerKey with
      | none => rfl
      | some payer =>
          dsimp only
          rw [value_bind, burn_value]
          cases value callback (Requests.burn db false payer fee) with
          | error e => rfl
          | ok next => rfl

theorem checkAndLoadMessageNonceAccount_value (svm : LiteSVM Program) (message : Message) (nextDurableNonce : B256) :
    checkAndLoadMessageNonceAccount rt (svm.over callback) message nextDurableNonce =
      value callback (Requests.checkAndLoadMessageNonceAccount rt svm message nextDurableNonce) := by
  unfold checkAndLoadMessageNonceAccount Requests.checkAndLoadMessageNonceAccount
  by_cases current : message.recentBlockhash = nextDurableNonce
  · rw [if_pos current, if_pos current]
    rfl
  · rw [if_neg current, if_neg current]
    cases message.durableNonce with
    | none => rfl
    | some nonceAddress =>
        have found : (svm.over callback).accounts.getAccount nonceAddress =
          value callback (Requests.getAccount svm.accounts nonceAddress) := getAccount_value callback svm.accounts nonceAddress
        simp only [Option.bind_eq_bind, Option.bind_some, value_bind, found]
        cases value callback (Requests.getAccount svm.accounts nonceAddress) with
        | none => rfl
        | some nonceAccount =>
            simp only [Option.bind_some]
            cases rt.verifyNonceAccount nonceAccount message.recentBlockhash with
            | none => rfl
            | some nonceData => rfl

theorem maybeBlockhashCheck_value (svm : LiteSVM Program) (message : Message) :
    maybeBlockhashCheck rt (svm.over callback) message = value callback (Requests.maybeBlockhashCheck rt svm message) := by
  unfold maybeBlockhashCheck Requests.maybeBlockhashCheck
  by_cases verify : svm.blockhashVerify
  · have verifyOver : (svm.over callback).blockhashVerify := verify
    rw [if_pos verify, if_pos verifyOver]
    unfold checkTransactionAge Requests.checkTransactionAge
    show (match svm.validHash message.recentBlockhash with
      | some lamportsPerSignature => Except.ok lamportsPerSignature
      | none =>
          match checkAndLoadMessageNonceAccount rt (svm.over callback) message (rt.durableNonceFrom svm.lastHash) with
          | some nonceData => .ok nonceData.lamportsPerSignature
          | none =>
              if message.accountKeys.head? = some noSigTxPayer then .ok 0
              else .error TransactionError.blockhashNotFound) = _
    cases svm.validHash message.recentBlockhash with
    | some lamportsPerSignature => rfl
    | none =>
        dsimp only
        rw [value_bind, checkAndLoadMessageNonceAccount_value]
        cases value callback (Requests.checkAndLoadMessageNonceAccount rt svm message (rt.durableNonceFrom svm.lastHash)) with
        | none => rfl
        | some nonceData => rfl
  · have verifyOver : ¬ (svm.over callback).blockhashVerify := verify
    rw [if_neg verify, if_neg verifyOver]
    rfl

theorem writeBack_over (accounts : List (Pubkey × Account)) (db : AccountsDb Program) :
    writeBack rt (db.over callback) accounts = (writeBack rt db accounts).over callback := by
  induction accounts generalizing db with
  | nil => rfl
  | cons entry accounts ih => exact ih (db.insertDiff entry.1 (rt.collectRent entry.1 entry.2).1)

section

-- The message processor is given the caches and the loaded accounts, and not the callback.
variable (unasked : ∀ message programIndices (db : AccountsDb Program) callback accounts,
  rt.processMessage message programIndices (db.over callback) accounts =
    rt.processMessage message programIndices db accounts)

include unasked

theorem processTransaction_value (svm : LiteSVM Program) (message : Message) (lamportsPerSignature : UInt64)
    (limits : Limits) : processTransaction rt (svm.over callback) message lamportsPerSignature limits =
      (value callback (Requests.processTransaction rt svm message lamportsPerSignature limits)).over callback := by
  unfold processTransaction Requests.processTransaction
  dsimp only
  generalize rt.calculateFee message lamportsPerSignature limits = fee
  have loads : loadKeys rt message fee ⟨(svm.over callback).accounts, none, 0⟩ 0 message.accountKeys =
      (value callback (Requests.loadKeys rt message fee ⟨svm.accounts, none, 0⟩ 0 message.accountKeys)).map
        (LoadState.over callback) id := loadKeys_value callback message fee message.accountKeys ⟨svm.accounts, none, 0⟩ 0
  rw [value_bind, loads]
  obtain ⟨state, e | accounts⟩ := value callback (Requests.loadKeys rt message fee ⟨svm.accounts, none, 0⟩ 0 message.accountKeys)
  · rfl
  · dsimp only [Prod.map, id]
    by_cases unvalidated : state.payerKey.isNone
    · have unvalidatedOver : (state.over callback).payerKey.isNone := unvalidated
      rw [if_pos unvalidated, if_pos unvalidatedOver]
      rfl
    · have validatedOver : ¬ (state.over callback).payerKey.isNone := unvalidated
      have programs : loadPrograms rt accounts (state.over callback).accounts [] message.programIndices =
          (value callback (Requests.loadPrograms rt accounts state.accounts [] message.programIndices)).map
            (AccountsDb.over callback) id := loadPrograms_value callback accounts message.programIndices state.accounts []
      rw [if_neg unvalidated, if_neg validatedOver, value_bind, programs]
      obtain ⟨db, e | ⟨loaders, programIndices⟩⟩ :=
        value callback (Requests.loadPrograms rt accounts state.accounts [] message.programIndices)
      · rfl
      · dsimp only [Prod.map, id]
        unfold checkAccountsRent
        rw [unasked, value_bind, checkAccountsRent_value]
        cases value callback (Requests.checkAccountsRent rt db message (contextAfter (accounts ++ loaders)
          (rt.processMessage message programIndices db (accounts ++ loaders))) (List.range message.accountKeys.length)) with
        | error err => rfl
        | ok done => rfl

theorem executeSanitizedTransaction_value (svm : LiteSVM Program) (message : Message) :
    executeSanitizedTransaction rt (svm.over callback) message =
      (value callback (Requests.executeSanitizedTransaction rt svm message)).map (LiteSVM.over callback) id := by
  unfold executeSanitizedTransaction Requests.executeSanitizedTransaction
  rw [value_bind, maybeBlockhashCheck_value]
  cases value callback (Requests.maybeBlockhashCheck rt svm message) with
  | error e => rfl
  | ok lamportsPerSignature =>
      dsimp only
      cases rt.computeBudgetLimits message with
      | error e => rfl
      | ok limits =>
          dsimp only
          rw [value_bind, processTransaction_value callback unasked]
          obtain ⟨db, result, consumedUnits, _ | context, fee, payerKey, feePayerRentDebit⟩ :=
            value callback (Requests.processTransaction rt svm message lamportsPerSignature limits)
          · rfl
          · dsimp only [ProcessResult.over]
            rw [value_bind, checkTxResult_value]
            rfl

theorem executeTransaction_value (svm : LiteSVM Program) (tx : Transaction) :
    executeTransaction rt (svm.over callback) tx =
      (value callback (Requests.executeTransaction rt svm tx)).map (LiteSVM.over callback) id := by
  unfold executeTransaction Requests.executeTransaction
  show (match rt.sanitize svm.sigVerify tx with
    | .error e => (svm.over callback, ExecutionResult.failed e)
    | .ok message => executeSanitizedTransaction rt (svm.over callback) message) = _
  cases rt.sanitize svm.sigVerify tx with
  | error e => rfl
  | ok message => exact executeSanitizedTransaction_value callback unasked svm message

theorem sendTransaction_value (svm : LiteSVM Program) (tx : Transaction) :
    sendTransaction rt (svm.over callback) tx =
      (value callback (Requests.sendTransaction rt svm tx)).map (LiteSVM.over callback) id := by
  unfold sendTransaction Requests.sendTransaction
  rw [value_bind, executeTransaction_value callback unasked]
  obtain ⟨next, postAccounts, e | done, signatureCount, consumedUnits, fee⟩ :=
    value callback (Requests.executeTransaction rt svm tx)
  · rfl
  · have written : writeBack rt (next.over callback).accounts postAccounts =
      (writeBack rt next.accounts postAccounts).over callback := writeBack_over callback postAccounts next.accounts
    dsimp only [Prod.map, id]
    rw [written]
    rfl

theorem executeBatchTransactions_value (txs : List Transaction) (svm : LiteSVM Program) :
    executeBatchTransactions rt (svm.over callback) txs =
      (value callback (Requests.executeBatchTransactions rt svm txs)).map (LiteSVM.over callback) id := by
  induction txs generalizing svm with
  | nil => rfl
  | cons tx txs ih =>
      unfold executeBatchTransactions Requests.executeBatchTransactions
      rw [value_bind, sendTransaction_value callback unasked]
      obtain ⟨next, result⟩ := value callback (Requests.sendTransaction rt svm tx)
      dsimp only [Prod.map, id]
      rw [value_bind, ih]
      rfl

theorem executeBatches_value (block : List (List Transaction)) (svm : LiteSVM Program) :
    executeBatches rt (svm.over callback) block =
      (value callback (Requests.executeBatches rt svm block)).map (LiteSVM.over callback) id := by
  induction block generalizing svm with
  | nil => rfl
  | cons batch batches ih =>
      unfold executeBatches Requests.executeBatches
      rw [value_bind, executeBatchTransactions_value callback unasked]
      obtain ⟨next, results⟩ := value callback (Requests.executeBatchTransactions rt svm batch)
      dsimp only [Prod.map, id]
      rw [value_bind, ih]
      rfl

end

theorem collectFees_value (svm : LiteSVM Program) (results : List TransactionResult) :
    collectFees (svm.over callback) results =
      (value callback (Requests.collectFees svm results)).map (LiteSVM.over callback) := by
  unfold collectFees Requests.collectFees
  dsimp only [LiteSVM.over]
  cases svm.leaderSchedule.leaderAtSlot svm.slot with
  | none => rfl
  | some feeCollector =>
      dsimp only
      by_cases fees : 0 < totalFees results
      · rw [if_pos fees, if_pos fees, value_bind, mint_value]
        cases value callback (Requests.mint svm.accounts svm.validateFeeCollector feeCollector (totalFees results)) with
        | error e => rfl
        | ok accounts => rfl
      · rw [if_neg fees, if_neg fees]
        rfl

theorem sealBlock_value (svm : LiteSVM Program) (results : List TransactionResult) :
    sealBlock rt (svm.over callback) results =
      (value callback (Requests.sealBlock rt svm results)).map (LiteSVM.over callback) := by
  unfold sealBlock Requests.sealBlock
  rw [value_bind, collectFees_value]
  cases value callback (Requests.collectFees svm results) with
  | error e => rfl
  | ok next =>
      show Except.ok (updateFeeRateGovernor rt (updateSysvar (next.over callback) sysvarSlotHistory
        (rt.slotHistoryAccount ((next.over callback).accounts.getAccount sysvarSlotHistory) next.slot))) = _
      have found : (next.over callback).accounts.getAccount sysvarSlotHistory =
        value callback (Requests.getAccount next.accounts sysvarSlotHistory) := getAccount_value callback next.accounts _
      dsimp only
      unfold Requests.updateSlotHistory
      rw [found, value_bind, value_bind]
      rfl

end KonaSoon.Svm
