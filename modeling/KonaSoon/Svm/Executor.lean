import KonaSoon.Svm.Accounts

namespace KonaSoon.Svm
open Lib Mpt Programs

structure LeaderSchedule where
  leaders : List (Nat × Pubkey)
  sorted : (leaders.map Prod.fst).Pairwise (· < ·)

/-- `binary_search_by_key` on a sorted list with distinct keys: the index of the key, or where it would go. -/
def binarySearchByKey {Value : Type} (entries : List (Nat × Value)) (key : Nat) : Except Nat Nat :=
  let index := entries.countP fun entry => entry.1 < key
  if (entries[index]?.map Prod.fst) = some key then .ok index else .error index

def LeaderSchedule.leaderAtSlot (schedule : LeaderSchedule) (slot : Nat) : Option Pubkey :=
  match binarySearchByKey schedule.leaders slot with
  | .ok i => schedule.leaders[i]?.map Prod.snd
  | .error i => if i = 0 then none else schedule.leaders[i - 1]?.map Prod.snd

structure LiteSVM (Program : Type) where
  accounts : AccountsDb Program
  sigVerify : Bool
  blockhashVerify : Bool
  slot : Nat
  leaderSchedule : LeaderSchedule
  lamportsPerSignature : UInt64
  signatureCount : UInt64
  lastHash : B256
  -- The fee rate of a blockhash that is not too old.
  validHash : B256 → Option UInt64
  validateFeeCollector : Bool

structure ProcessResult (Program : Type) where
  accounts : AccountsDb Program
  result : Except TransactionError Unit
  consumedUnits : UInt64
  -- The keys and accounts of the transaction context.
  context : Option (List (Pubkey × Account))
  fee : UInt64
  payerKey : Option Pubkey
  feePayerRentDebit : UInt64

structure LoadState (Program : Type) where
  accounts : AccountsDb Program
  payerKey : Option Pubkey
  feePayerRentDebit : UInt64

structure ExecutionResult where
  postAccounts : List (Pubkey × Account)
  txResult : Except TransactionError Unit
  signatureCount : UInt8
  consumedUnits : UInt64
  fee : UInt64

structure TransactionMetadata where
  consumedUnits : UInt64
  fee : UInt64
deriving DecidableEq, Repr

structure FailedTransactionMetadata where
  err : TransactionError
  metadata : TransactionMetadata
deriving DecidableEq, Repr

abbrev TransactionResult := Except FailedTransactionMetadata TransactionMetadata

/-- `ExecutionResult { tx_result: Err(err), ..Default::default() }`. -/
def ExecutionResult.failed (err : TransactionError) : ExecutionResult := ⟨[], .error err, 0, 0, 0⟩

variable {Transaction Program Limits : Type} (rt : Runtime Transaction Program Limits)

def loadKey (message : Message) (fee : UInt64) (state : LoadState Program) (index : Nat) (key : Pubkey) :
    LoadState Program × Except TransactionError Account :=
  if key = sysvarInstructions then (state, .ok (rt.instructionsAccount message))
  else match state.accounts.loadAccount rt key with
    | (accounts, .error _) => ({ state with accounts }, .error .accountNotFound)
    | (accounts, .ok loaded) =>
        let account := loaded.getD defaultAccount
        if state.payerKey.isNone ∧ (¬ message.isInvoked index ∨ message.isInstructionAccount index) then
          let (account, feePayerRentDebit) := rt.collectRent key account
          match validateFeePayer rt key account index fee with
          | .error e => ({ state with accounts, feePayerRentDebit }, .error e)
          | .ok charged => ({ accounts, payerKey := some key, feePayerRentDebit }, .ok charged)
        else if message.isWritable index then
          let (account, feePayerRentDebit) := rt.collectRent key account
          ({ state with accounts, feePayerRentDebit }, .ok account)
        else ({ state with accounts }, .ok account)

def loadKeys (message : Message) (fee : UInt64) : LoadState Program → Nat → List Pubkey →
    LoadState Program × Except TransactionError (List (Pubkey × Account))
  | state, _, [] => (state, .ok [])
  | state, index, key :: keys =>
      match loadKey rt message fee state index key with
      | (state, .error e) => (state, .error e)
      | (state, .ok account) =>
          match loadKeys message fee state (index + 1) keys with
          | (state, .error e) => (state, .error e)
          | (state, .ok accounts) => (state, .ok ((key, account) :: accounts))

/-- The body of the loop over the instructions: the account indices of one program. `loaders` are the
accounts that were appended for the programs before it. -/
def programAccounts (db : AccountsDb Program) (accounts loaders : List (Pubkey × Account)) (programIndex : Nat) :
    AccountsDb Program × List (Pubkey × Account) × Except TransactionError (List Nat) :=
  let (programId, programAccount) := accounts.getD programIndex (systemProgramId, defaultAccount)
  if programId = nativeLoader then (db, loaders, .ok [])
  else if ¬ programAccount.executable then (db, loaders, .error .invalidProgramForExecution)
  else
    let ownerId := programAccount.owner
    if ownerId = nativeLoader then (db, loaders, .ok [programIndex])
    else if loaders.any fun loader => loader.1 = ownerId then (db, loaders, .ok [programIndex])
    else match db.loadAccount rt ownerId with
      | (db, .error _) => (db, loaders, .error .accountNotFound)
      | (db, .ok none) => (db, loaders, .error .accountNotFound)
      | (db, .ok (some ownerAccount)) =>
          if ownerAccount.owner ≠ nativeLoader then (db, loaders, .error .invalidProgramForExecution)
          else if ¬ ownerAccount.executable then (db, loaders, .error .invalidProgramForExecution)
          else (db, loaders ++ [(ownerId, ownerAccount)], .ok [programIndex])

def loadPrograms (accounts : List (Pubkey × Account)) : AccountsDb Program → List (Pubkey × Account) → List Nat →
    AccountsDb Program × Except TransactionError (List (Pubkey × Account) × List (List Nat))
  | db, loaders, [] => (db, .ok (loaders, []))
  | db, loaders, programIndex :: rest =>
      match programAccounts rt db accounts loaders programIndex with
      | (db, _, .error e) => (db, .error e)
      | (db, loaders, .ok indices) =>
          match loadPrograms accounts db loaders rest with
          | (db, .error e) => (db, .error e)
          | (db, .ok (loaders, later)) => (db, .ok (loaders, indices :: later))

def checkAccountRent (db : AccountsDb Program) (message : Message) (context : List (Pubkey × Account)) (index : Nat) :
    Except TransactionError Unit :=
  if message.isWritable index then
    match context[index]? with
    | none => .error (.instructionError (index % 256))
    | some (pubkey, account) =>
        if account.data.1 ≠ [] then
          let postRentState := RentState.fromAccount rt account
          let preRentState := RentState.fromAccount rt ((db.getAccount pubkey).getD defaultAccount)
          if postRentState.transitionAllowedFrom preRentState then .ok ()
          else .error (.insufficientFundsForRent (index % 256))
        else .ok ()
  else .ok ()

def checkAccountsRent (db : AccountsDb Program) (message : Message) (context : List (Pubkey × Account)) :
    Except TransactionError Unit :=
  (List.range message.accountKeys.length).forM (checkAccountRent rt db message context)

def contextAfter (accounts : List (Pubkey × Account)) (processed : Processed) : List (Pubkey × Account) :=
  accounts.zipIdx.map fun entry => (entry.1.1, processed.account entry.2)

def processTransaction (svm : LiteSVM Program) (message : Message) (lamportsPerSignature : UInt64) (limits : Limits) :
    ProcessResult Program :=
  let fee := rt.calculateFee message lamportsPerSignature limits
  match loadKeys rt message fee ⟨svm.accounts, none, 0⟩ 0 message.accountKeys with
  | (state, .error e) => ⟨state.accounts, .error e, 0, none, fee, state.payerKey, state.feePayerRentDebit⟩
  | (state, .ok accounts) =>
      if state.payerKey.isNone then
        ⟨state.accounts, .error .accountNotFound, 0, none, fee, state.payerKey, state.feePayerRentDebit⟩
      else match loadPrograms rt accounts state.accounts [] message.programIndices with
        | (db, .error e) => ⟨db, .error e, 0, none, fee, state.payerKey, state.feePayerRentDebit⟩
        | (db, .ok (loaders, programIndices)) =>
            let processed := rt.processMessage message programIndices db (accounts ++ loaders)
            let context := contextAfter (accounts ++ loaders) processed
            let txResult := match checkAccountsRent rt db message context with
              | .error err => .error err
              | .ok () => processed.result
            ⟨db, txResult, processed.consumedUnits, some context, fee, state.payerKey, state.feePayerRentDebit⟩

def checkAndLoadMessageNonceAccount (svm : LiteSVM Program) (message : Message) (nextDurableNonce : B256) :
    Option NonceData :=
  if message.recentBlockhash = nextDurableNonce then none
  else do
    let nonceAddress ← message.durableNonce
    let nonceAccount ← svm.accounts.getAccount nonceAddress
    let nonceData ← rt.verifyNonceAccount nonceAccount message.recentBlockhash
    if message.nonceSigners.any fun signer => signer = nonceData.authority then some nonceData else none

def checkTransactionAge (svm : LiteSVM Program) (message : Message) (nextDurableNonce : B256) :
    Except TransactionError UInt64 :=
  match svm.validHash message.recentBlockhash with
  | some lamportsPerSignature => .ok lamportsPerSignature
  | none =>
      match checkAndLoadMessageNonceAccount rt svm message nextDurableNonce with
      | some nonceData => .ok nonceData.lamportsPerSignature
      | none =>
          if message.accountKeys.head? = some noSigTxPayer then .ok 0 else .error .blockhashNotFound

def maybeBlockhashCheck (svm : LiteSVM Program) (message : Message) : Except TransactionError UInt64 :=
  if svm.blockhashVerify then checkTransactionAge rt svm message (rt.durableNonceFrom svm.lastHash)
  else .ok svm.lamportsPerSignature

def checkTxResult (db : AccountsDb Program) (result : Except TransactionError Unit) (payerKey : Option Pubkey)
    (fee : UInt64) : AccountsDb Program × Except TransactionError Unit :=
  match result with
  | .ok () => (db, .ok ())
  | .error e =>
      match payerKey with
      | some payer =>
          match db.burn false payer fee with
          | .ok db => (db, .ok ())
          | .error _ => (db, .error .insufficientFundsForFee)
      | none => (db, .error e)

/-- `execution_result_if_context`: the accounts of the context that the message may write. -/
def postAccounts (message : Message) (context : List (Pubkey × Account)) : List (Pubkey × Account) :=
  (context.zipIdx.filter fun entry => message.isWritable entry.2).map Prod.fst

def executeSanitizedTransaction (svm : LiteSVM Program) (message : Message) : LiteSVM Program × ExecutionResult :=
  match maybeBlockhashCheck rt svm message with
  | .error e => (svm, .failed e)
  | .ok lamportsPerSignature =>
      match rt.computeBudgetLimits message with
      | .error e => (svm, .failed e)
      | .ok limits =>
          let processed := processTransaction rt svm message lamportsPerSignature limits
          match processed.context with
          | none =>
              ({ svm with accounts := processed.accounts }, ⟨[], processed.result, 0, processed.consumedUnits, processed.fee⟩)
          | some context =>
              let (db, txResult) := checkTxResult processed.accounts processed.result processed.payerKey processed.fee
              ({ svm with accounts := db },
                ⟨postAccounts message context, txResult, message.numRequiredSignatures, processed.consumedUnits, processed.fee⟩)

def executeTransaction (svm : LiteSVM Program) (tx : Transaction) : LiteSVM Program × ExecutionResult :=
  match rt.sanitize svm.sigVerify tx with
  | .error e => (svm, .failed e)
  | .ok message => executeSanitizedTransaction rt svm message

def writeBack (db : AccountsDb Program) (accounts : List (Pubkey × Account)) : AccountsDb Program :=
  accounts.foldl (fun db entry => db.insertDiff entry.1 (rt.collectRent entry.1 entry.2).1) db

def sendTransaction (svm : LiteSVM Program) (tx : Transaction) : LiteSVM Program × TransactionResult :=
  let (svm, executed) := executeTransaction rt svm tx
  let svm := { svm with signatureCount := svm.signatureCount + executed.signatureCount.toUInt64 }
  let metadata : TransactionMetadata := ⟨executed.consumedUnits, executed.fee⟩
  match executed.txResult with
  | .error err => (svm, .error ⟨err, metadata⟩)
  | .ok () => ({ svm with accounts := writeBack rt svm.accounts executed.postAccounts }, .ok metadata)

def executeBatchTransactions (svm : LiteSVM Program) : List Transaction → LiteSVM Program × List TransactionResult
  | [] => (svm, [])
  | tx :: txs =>
      let (svm, result) := sendTransaction rt svm tx
      let (svm, results) := executeBatchTransactions svm txs
      (svm, result :: results)

/-- The loop of `execute_block` over the batches of a block. -/
def executeBatches (svm : LiteSVM Program) : List (List Transaction) → LiteSVM Program × List TransactionResult
  | [] => (svm, [])
  | batch :: batches =>
      let (svm, res) := executeBatchTransactions rt svm batch
      let (svm, results) := executeBatches svm batches
      (svm, res ++ results)

def reportedFee : TransactionResult → UInt64
  | .ok metadata => metadata.fee
  | .error failed => failed.metadata.fee

/-- The addition wraps, as the profiles of the workspace leave overflow unchecked. -/
def totalFees (results : List TransactionResult) : UInt64 :=
  results.foldl (fun fees result => fees + reportedFee result) 0

/-- The part of `seal_block` that pays the leader. -/
def collectFees (svm : LiteSVM Program) (results : List TransactionResult) : Except LiteSVMError (LiteSVM Program) :=
  let fees := totalFees results
  match svm.leaderSchedule.leaderAtSlot svm.slot with
  | some feeCollector =>
      if 0 < fees then do
        let accounts ← svm.accounts.mint svm.validateFeeCollector feeCollector fees
        return { svm with accounts }
      else return svm
  | none => return svm

def updateSysvar (svm : LiteSVM Program) (id : Pubkey) (account : Account) : LiteSVM Program :=
  { svm with accounts := svm.accounts.insertDiff id account }

def updateSlotHistory (svm : LiteSVM Program) : LiteSVM Program :=
  updateSysvar svm sysvarSlotHistory (rt.slotHistoryAccount (svm.accounts.getAccount sysvarSlotHistory) svm.slot)

def updateFeeRateGovernor (svm : LiteSVM Program) : LiteSVM Program :=
  updateSysvar svm soonFeeRateGovernor (rt.feeRateGovernorAccount svm.signatureCount)

def sealBlock (svm : LiteSVM Program) (results : List TransactionResult) : Except LiteSVMError (LiteSVM Program) := do
  let svm ← collectFees svm results
  return updateFeeRateGovernor rt (updateSlotHistory rt svm)

end KonaSoon.Svm
