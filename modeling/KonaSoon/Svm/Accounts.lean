import KonaSoon.Programs.Instruction

/-!
# The account store of the virtual machine

`AccountsDb` (`svm/src/accounts_db.rs`), the rent states and the fee payer check. The virtual machine,
its program loader and its rent collector are libraries: what they compute is given by a `Runtime`.
-/

namespace KonaSoon.Svm
open Lib Mpt Programs

def nativeLoader : Pubkey := .ofNat 0x058784bf148ba4282fb012574888a9f153a07dadf765c0455c9a970380000000

def bpfLoader : Pubkey := .ofNat 0x02a8f6914e88a16e395ae128948ffa695693376818dd47435221f3c600000000

def bpfLoaderDeprecated : Pubkey := .ofNat 0x02a8f6914e88a16bbd2395855f6404d9b4f456b7821bb0145749428c00000000

def bpfLoaderUpgradeable : Pubkey := .ofNat 0x02a8f6914e88a1b0e210153ef763ae2b00c2b93d16c124d2c0537a1004800000

def loaderV4 : Pubkey := .ofNat 0x0512b4115151e37aad0a8bc5d3882e7b7fda4cf3d2c028c8cf83361800000000

def incinerator : Pubkey := .ofNat 0x003390728d34116079bdc911bfff00dbd44d2ecdccf79ca6e10038e100000000

def sysvarInstructions : Pubkey := .ofNat 0x06a7d517187bd16635dad40455fdc2c0c124c68f215675a5dbbacb5f08000000

def sysvarSlotHistory : Pubkey := .ofNat 0x06a7d517192f0aafc875e2e184577c5069cfc84649e3eb92782f958d48000000

def soonFeeRateGovernor : Pubkey := .ofNat 0x069c71cf3308081f15a524561a611f152afe089cc5ec5cf0253c2e63e9000000

inductive TransactionError where
  | accountNotFound
  | programAccountNotFound
  | insufficientFundsForFee
  | invalidAccountForFee
  | blockhashNotFound
  | instructionError (index : Nat)
  | invalidProgramForExecution
  | insufficientFundsForRent (accountIndex : Nat)
  | invalidRentPayingAccount
  | unsupportedVersion
  | other (text : String)
deriving DecidableEq, Repr

inductive InstructionError where
  | invalidAccountData
  | missingAccount
  | incorrectProgramId
deriving DecidableEq, Repr

inductive LiteSVMError where
  | insufficientLamports
  | missingAccount (pubkey : Pubkey)
  | lamportsOverflow
  | invalidSysvarData
  | noEntries
deriving DecidableEq, Repr

inductive SystemAccountKind where
  | system
  | nonce
deriving DecidableEq, Repr

structure Message where
  accountKeys : List Pubkey
  isWritable : Nat → Bool
  isInvoked : Nat → Bool
  isInstructionAccount : Nat → Bool
  -- The `program_id_index` of each instruction.
  programIndices : List Nat
  recentBlockhash : B256
  durableNonce : Option Pubkey
  -- The signers of the instruction that advances the nonce.
  nonceSigners : List Pubkey
  numRequiredSignatures : UInt8
  -- Sanitizing a message checks that its instructions name accounts of its own.
  indices_lt : ∀ i ∈ programIndices, i < accountKeys.length
  writable_lt : ∀ i, isWritable i → i < accountKeys.length

structure NonceData where
  authority : Pubkey
  lamportsPerSignature : UInt64

structure Processed where
  result : Except TransactionError Unit
  consumedUnits : UInt64
  account : Nat → Account

structure AccountsDb (Program : Type) where
  -- `callback.get_account_data(pubkey).ok().flatten()`.
  callback : Pubkey → Option Account
  accountsDiff : Pubkey → Option Account
  programsCache : Pubkey → Option Program
  -- The minimum balances of the rent sysvar, if the cache has it.
  sysvarRent : Option (Nat → UInt64)

structure Runtime (Transaction Program Limits : Type) where
  sanitize : Bool → Transaction → Except TransactionError Message
  computeBudgetLimits : Message → Except TransactionError Limits
  calculateFee : Message → UInt64 → Limits → UInt64
  instructionsAccount : Message → Account
  collectRent : Pubkey → Account → Account × UInt64
  minimumBalance : Nat → UInt64
  nonceStateSize : Nat
  systemAccountKind : Account → Option SystemAccountKind
  durableNonceFrom : B256 → B256
  verifyNonceAccount : Account → B256 → Option NonceData
  programdataAddress : Account → Option Pubkey
  programdataMetadataSize : Nat
  loaderV4Offset : Nat
  programCacheEntry : Pubkey → List UInt8 → Nat → Option Program
  -- The account of the slot history sysvar, with one more slot.
  slotHistoryAccount : Option Account → Nat → Account
  -- The account of the fee rate sysvar, for a number of signatures.
  feeRateGovernorAccount : UInt64 → Account
  processMessage : Message → List (List Nat) → AccountsDb Program → List (Pubkey × Account) → Processed

/-- `AccountSharedData::default()`. -/
def defaultAccount : Account := ⟨0, ⟨[], length_noBytes⟩, systemProgramId, false, 0⟩

variable {Transaction Program Limits : Type}

namespace AccountsDb

def getAccount (db : AccountsDb Program) (pubkey : Pubkey) : Option Account :=
  (db.accountsDiff pubkey).or (db.callback pubkey)

def getFrom (bytes : List UInt8) (offset : Nat) : Option (List UInt8) :=
  if offset ≤ bytes.length then some (bytes.drop offset) else none

def newProgram (entry : Option Program) : Except InstructionError Program :=
  match entry with
  | some program => .ok program
  | none => .error .invalidAccountData

def loadProgram (rt : Runtime Transaction Program Limits) (db : AccountsDb Program) (programAccount : Account) :
    Except InstructionError Program :=
  let owner := programAccount.owner
  let data := programAccount.data.1
  if owner = bpfLoader ∨ owner = bpfLoaderDeprecated then newProgram (rt.programCacheEntry owner data data.length)
  else if owner = bpfLoaderUpgradeable then
    match rt.programdataAddress programAccount with
    | none => .error .invalidAccountData
    | some programdataAddress =>
        match db.getAccount programdataAddress with
        | none => .error .missingAccount
        | some programdataAccount =>
            match getFrom programdataAccount.data.1 rt.programdataMetadataSize with
            | none => .error .invalidAccountData
            | some programdata =>
                newProgram (rt.programCacheEntry owner programdata (data.length + programdataAccount.data.1.length))
  else if owner = loaderV4 then
    match getFrom data rt.loaderV4Offset with
    | none => .error .invalidAccountData
    | some elfBytes => newProgram (rt.programCacheEntry loaderV4 elfBytes data.length)
  else .error .incorrectProgramId

def loadAccount (rt : Runtime Transaction Program Limits) (db : AccountsDb Program) (pubkey : Pubkey) :
    AccountsDb Program × Except InstructionError (Option Account) :=
  match db.getAccount pubkey with
  | none => (db, .ok none)
  | some account =>
      if account.executable ∧ account.owner ≠ nativeLoader then
        match loadProgram rt db account with
        | .error e => (db, .error e)
        | .ok program =>
            ({ db with programsCache := Function.update db.programsCache pubkey (some program) }, .ok (some account))
      else (db, .ok (some account))

def insertDiff (db : AccountsDb Program) (pubkey : Pubkey) (account : Account) : AccountsDb Program :=
  { db with accountsDiff := Function.update db.accountsDiff pubkey (some account) }

def addDiffAccount (db : AccountsDb Program) (checkRentExemption : Bool) (pubkey : Pubkey) (account : Account) :
    Except LiteSVMError (AccountsDb Program) :=
  if checkRentExemption then
    match db.sysvarRent with
    | none => .error .invalidSysvarData
    | some minimumBalance =>
        if account.lamports < minimumBalance account.data.1.length then .error .insufficientLamports
        else .ok (db.insertDiff pubkey account)
  else .ok (db.insertDiff pubkey account)

def mint (db : AccountsDb Program) (checkRentExemption : Bool)
    (pubkey : Pubkey) (lamports : UInt64) : Except LiteSVMError (AccountsDb Program) :=
  match db.getAccount pubkey with
  | some account =>
      match checkedAdd account.lamports lamports with
      | some sum => addDiffAccount db checkRentExemption pubkey { account with lamports := sum }
      | none => .error .lamportsOverflow
  | none => addDiffAccount db checkRentExemption pubkey { defaultAccount with lamports }

def burn (db : AccountsDb Program) (checkRentExemption : Bool)
    (pubkey : Pubkey) (lamports : UInt64) : Except LiteSVMError (AccountsDb Program) :=
  match db.getAccount pubkey with
  | some account =>
      match checkedSub account.lamports lamports with
      | some rest => addDiffAccount db checkRentExemption pubkey { account with lamports := rest }
      | none => .error .lamportsOverflow
  | none => .error (.missingAccount pubkey)

end AccountsDb

/-! ## Rent states and the fee payer -/

inductive RentState where
  | uninitialized
  | rentPaying (lamports : UInt64) (dataSize : Nat)
  | rentExempt
deriving DecidableEq, Repr

namespace RentState

def fromAccount (rt : Runtime Transaction Program Limits) (account : Account) : RentState :=
  if account.lamports = 0 then .uninitialized
  else if rt.minimumBalance account.data.1.length ≤ account.lamports then .rentExempt
  else .rentPaying account.lamports account.data.1.length

def transitionAllowedFrom : RentState → RentState → Bool
  | .uninitialized, _ => true
  | .rentExempt, _ => true
  | .rentPaying _ _, .uninitialized => false
  | .rentPaying _ _, .rentExempt => false
  | .rentPaying postLamports postDataSize, .rentPaying preLamports preDataSize =>
      postDataSize = preDataSize ∧ postLamports ≤ preLamports

end RentState

def checkRentStateWithAccount (preRentState postRentState : RentState) (address : Pubkey) (accountIndex : Nat) :
    Except TransactionError Unit :=
  if address ≠ incinerator ∧ ¬ postRentState.transitionAllowedFrom preRentState then
    .error (.insufficientFundsForRent (accountIndex % 256))
  else .ok ()

def minBalance (rt : Runtime Transaction Program Limits) : SystemAccountKind → UInt64
  | .system => 0
  | .nonce => rt.minimumBalance rt.nonceStateSize

def validateFeePayer (rt : Runtime Transaction Program Limits) (payerAddress : Pubkey) (payerAccount : Account)
    (payerIndex : Nat) (fee : UInt64) : Except TransactionError Account :=
  if payerAccount.lamports = 0 then .error .accountNotFound
  else match rt.systemAccountKind payerAccount with
    | none => .error .invalidAccountForFee
    | some kind =>
        match (checkedSub payerAccount.lamports (minBalance rt kind)).bind fun v => checkedSub v fee with
        | none => .error .insufficientFundsForFee
        | some _ =>
            let charged := { payerAccount with lamports := payerAccount.lamports - fee }
            match checkRentStateWithAccount (RentState.fromAccount rt payerAccount) (RentState.fromAccount rt charged)
              payerAddress payerIndex with
            | .error e => .error e
            | .ok () => .ok charged

end KonaSoon.Svm
