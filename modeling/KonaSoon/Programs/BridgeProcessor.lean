import KonaSoon.Programs.BridgeState

/-!
# The bridge program

The instructions of `bridge-program/src/processor.rs`. A program reads and writes the data of accounts and calls
other programs, which are known only by what the runtime lets them do. An instruction that fails leaves
the accounts as they were.
-/

namespace KonaSoon.Programs
open Lib Mpt Abi

/-! ## What the program runs on -/

structure AccountState where
  lamports : UInt64
  data : List UInt8
  owner : Pubkey
deriving DecidableEq, Repr

abbrev Ledger := Pubkey → AccountState

def Ledger.setData (ledger : Ledger) (key : Pubkey) (data : List UInt8) : Ledger := fun other =>
  if other = key then { ledger key with data } else ledger other

inductive Invocation where
  | transfer (source destination : Pubkey) (lamports : UInt64)
  | allocate (key : Pubkey) (space : Nat)
  | assign (key owner : Pubkey)
  | initializeMint (mint mintAuthority : Pubkey) (decimals : UInt8)
  | mintTo (mint account owner : Pubkey) (amount : UInt64)
  | burn (account mint authority : Pubkey) (amount : UInt64)
  | setCloseAuthority (owned newAuthority owner : Pubkey)
  | createAssociatedTokenAccount (funding wallet mint : Pubkey)
  | createMetadataAccountV3 (metadata mint mintAuthority payer updateAuthority : Pubkey) (name symbol uri : String)
  | updateMetadataAccountV2 (metadata updateAuthority : Pubkey) (name symbol uri : String)
deriving DecidableEq

structure Mint where
  supply : UInt64
  decimals : UInt8
deriving DecidableEq, Repr

structure TokenAccount where
  owner : Pubkey
deriving DecidableEq, Repr

structure Rent where
  minimumBalance : Nat → UInt64

/-- What the program calls: derived addresses, encoders, the rent, other programs with the accounts and the
derived signers that they are given, and the accounts of the token program. The runtime checks at the end of an
instruction what it has changed. -/
structure Runtime where
  findProgramAddress : FindProgramAddress
  abi : EthAbi
  rentGet : Except ProgramError Rent
  rentFromAccountInfo : AccountMeta → AccountState → Except ProgramError Rent
  invoke : Invocation → List AccountMeta → List Pubkey → Ledger → Except ProgramError Ledger
  unpackMint : List UInt8 → Except ProgramError Mint
  unpackTokenAccount : List UInt8 → Except ProgramError TokenAccount
  verify : List AccountMeta → Ledger → Ledger → Except ProgramError Unit

/-- `metaqbxxUerdq28cj1RbAWkYQm3ybzjb6a8bt518x1s`. -/
def mplTokenMetadataId : Pubkey := .ofNat 0x0b7065b1e3d17c45389d527f6b04c3cd58b86c731aa0fdb549b6d1bc03f82946

def findMetadataPda (findProgramAddress : FindProgramAddress) (mint : Pubkey) : Pubkey :=
  findProgramAddress ["metadata".toUTF8.data.toList, mplTokenMetadataId.1, mint.1] mplTokenMetadataId

def fail {α : Type} (error : BridgeError) : Outcome ProgramError α := .error (.error (.custom error))

def check (holds : Bool) (error : BridgeError) : Outcome ProgramError Unit := if holds then .ok () else fail error

def ofCall {α : Type} : Except ProgramError α → Outcome ProgramError α
  | .ok a => .ok a
  | .error e => .error (.error e)

namespace Runtime

def pubkey (rt : Runtime) (pda : Pda) : Pubkey := pda.pubkey rt.findProgramAddress

def invokeSigned (rt : Runtime) (invocation : Invocation) (infos : List AccountMeta) (signers : List Pda) (ledger : Ledger) :
    Outcome ProgramError Ledger :=
  ofCall (rt.invoke invocation infos (signers.map rt.pubkey) ledger)

end Runtime

/-! ## Amounts -/

def splShareDecimal : UInt8 := 9

def maxTokenDecimal : UInt8 := 9

def minimalGasLimit : BitVec 128 := 500000

def standardBridgeCallGasLimit : BitVec 128 := 200000

def toU64 (amount : BitVec 128) : Option UInt64 := if amount.toNat < 2 ^ 64 then some (.ofNat amount.toNat) else none

/-- A power of ten panics if it overflows, and so does a product. -/
def checkedPow10 (exponent : UInt8) : Outcome ProgramError (BitVec 128) :=
  if 10 ^ exponent.toNat < 2 ^ 128 then .ok (.ofNat 128 (10 ^ exponent.toNat)) else .error .panic

def checkedMul (a b : BitVec 128) : Outcome ProgramError (BitVec 128) :=
  if a.toNat * b.toNat < 2 ^ 128 then .ok (a * b) else .error .panic

def removeDust (amount : BitVec 128) (fromDecimal toDecimal : UInt8) : Outcome ProgramError (BitVec 128) :=
  if fromDecimal ≤ toDecimal then .ok amount
  else do
    let conversionRate ← checkedPow10 (fromDecimal - toDecimal)
    checkedMul (amount / conversionRate) conversionRate

def convertDecimal (amount : BitVec 128) (fromDecimal toDecimal : UInt8) : Outcome ProgramError (BitVec 128) :=
  if fromDecimal > toDecimal then do
    let conversionRate ← checkedPow10 (fromDecimal - toDecimal)
    return amount / conversionRate
  else do
    let conversionRate ← checkedPow10 (toDecimal - fromDecimal)
    checkedMul amount conversionRate

/-! ## Instructions -/

structure BridgeCall where
  accounts : List AccountMeta
  input : List UInt8
deriving DecidableEq, Repr

namespace Processor

variable (rt : Runtime)

def payRent (rent : Rent) (payer target systemProgram : AccountMeta) (len : Nat) (payerSigners : List Pda) (ledger : Ledger) :
    Outcome ProgramError Ledger :=
  let required := (rent.minimumBalance len).toNat - (ledger target.pubkey).lamports.toNat
  if 0 < required then
    rt.invokeSigned (.transfer payer.pubkey target.pubkey (.ofNat required)) [payer, target, systemProgram] payerSigners ledger
  else .ok ledger

def createAccount (rent : Rent) (payer target systemProgram : AccountMeta) (len : Nat) (owner : Pubkey)
    (payerSigners targetSigners : List Pda) (ledger : Ledger) : Outcome ProgramError Ledger := do
  let ledger ← payRent rt rent payer target systemProgram len payerSigners ledger
  let ledger ← rt.invokeSigned (.allocate target.pubkey len) [target, systemProgram] targetSigners ledger
  rt.invokeSigned (.assign target.pubkey owner) [target, systemProgram] targetSigners ledger

def takeCounter (userWithdrawalCounter payer : AccountMeta) (ledger : Ledger) : Outcome ProgramError (UInt64 × Ledger) := do
  check (rt.pubkey (.userWithdrawalCounter payer.pubkey) = userWithdrawalCounter.pubkey) .invalidWithdrawalCounterAccount
  let account ← WithdrawalCounter.unpack (ledger userWithdrawalCounter.pubkey).data
  let newCount ← Outcome.unwrap (checkedAdd account.counter 1)
  let data ← WithdrawalCounter.pack ⟨newCount⟩ (ledger userWithdrawalCounter.pubkey).data
  return (account.counter, ledger.setData userWithdrawalCounter.pubkey data)

def tryCalldata (len : Nat) (calldata : List UInt8) : Outcome ProgramError (FixedBytes len) :=
  if fits : calldata.length = len then .ok ⟨calldata, fits⟩ else .error (.error .invalidAccountData)

def createWithdrawal (rentSysvar payer withdrawalTransaction systemProgram : AccountMeta) (calldataLen : Nat) (counter : UInt64)
    (ledger : Ledger) : Outcome ProgramError Ledger := do
  let rent ← ofCall (rt.rentFromAccountInfo rentSysvar (ledger rentSysvar.pubkey))
  createAccount rt rent payer withdrawalTransaction systemProgram (WithdrawalTransaction.len calldataLen)
    withdrawalProgramPubkey [] [.withdrawalTransaction payer.pubkey counter] ledger

def withdrawalOf {calldataLen : Nat} (config : BridgeConfig) (counter value : UInt64) (gasLimit : BitVec 128)
    (calldata : FixedBytes calldataLen) : WithdrawalTransaction calldataLen where
  nonce := .ofNat 256 counter.toNat
  sender := withdrawalProgramPubkey
  target := config.l1CrossDomainMessenger
  value := .ofNat 256 value.toNat
  gasLimit := gasLimit.setWidth 256
  data := calldata

def writeWithdrawal (bridgeConfig withdrawalTransaction : AccountMeta) (calldataLen : Nat)
    (calldataFor : BridgeConfig → List UInt8) (counter value : UInt64) (gasLimit : BitVec 128) (ledger : Ledger) :
    Outcome ProgramError Ledger := do
  let config ← BridgeConfig.unpack (ledger bridgeConfig.pubkey).data
  let calldata ← tryCalldata calldataLen (calldataFor config)
  let data ← (withdrawalOf config counter value gasLimit calldata).pack (ledger withdrawalTransaction.pubkey).data
  return ledger.setData withdrawalTransaction.pubkey data

def orFail {α : Type} (value : Option α) (error : BridgeError) : Outcome ProgramError α :=
  match value with
  | some value => .ok value
  | none => fail error

def withdrawEth (accounts : List AccountMeta) (target : Address) (value gasLimit : BitVec 128) (ledger : Ledger) :
    Outcome ProgramError Ledger := do
  check (minimalGasLimit ≤ gasLimit) .gasLimitTooLow
  match accounts with
  | systemProgram :: rentSysvar :: userWithdrawalCounter :: withdrawalTransaction :: vault :: bridgeConfig :: payer :: _ =>
      check (rt.pubkey .config = bridgeConfig.pubkey) .invalidBridgeConfigAccount
      let (counter, ledger) ← takeCounter rt userWithdrawalCounter payer ledger
      check (rt.pubkey (.withdrawalTransaction payer.pubkey counter) = withdrawalTransaction.pubkey)
        .invalidWithdrawalTransactionAccount
      check (rt.pubkey .vault = vault.pubkey) .invalidVaultAccount
      let value ← orFail (toU64 value) .invalidWithdrawAmount
      check (value ≠ 0) .invalidWithdrawAmount
      let ledger ← rt.invokeSigned (.transfer payer.pubkey (rt.pubkey .vault) value) [payer, vault, systemProgram] [] ledger
      let ledger ← createWithdrawal rt rentSysvar payer withdrawalTransaction systemProgram
        ethWithdrawalTransactionCalldataLen counter ledger
      writeWithdrawal bridgeConfig withdrawalTransaction ethWithdrawalTransactionCalldataLen
        (fun config => rt.abi.getBridgeEthCalldata config.l1StandardBridge payer.pubkey target (.ofNat 128 value.toNat)
          standardBridgeCallGasLimit counter) counter value gasLimit ledger
  | _ => .error .panic

def withdrawSpl (accounts : List AccountMeta) (remoteToken target : Address) (amount gasLimit : BitVec 128) (ledger : Ledger) :
    Outcome ProgramError Ledger := do
  check (minimalGasLimit ≤ gasLimit) .gasLimitTooLow
  match accounts with
  | systemProgram :: rentSysvar :: splTokenProgram :: userWithdrawalCounter :: withdrawalTransaction :: splTokenOwner ::
      splTokenMint :: payerSplAssociatedToken :: bridgeConfig :: payer :: _ =>
      check (rt.pubkey .config = bridgeConfig.pubkey) .invalidBridgeConfigAccount
      check (splTokenProgram.pubkey = splTokenId) .invalidSPLTokenProgramId
      let (counter, ledger) ← takeCounter rt userWithdrawalCounter payer ledger
      check (rt.pubkey (.withdrawalTransaction payer.pubkey counter) = withdrawalTransaction.pubkey)
        .invalidWithdrawalTransactionAccount
      check (rt.pubkey (.splTokenOwner remoteToken) = splTokenOwner.pubkey) .invalidSPLTokenOwnerAccount
      check (rt.pubkey (.splTokenMint remoteToken) = splTokenMint.pubkey) .invalidSPLTokenMintAccount
      let mint ← ofCall (rt.unpackMint (ledger splTokenMint.pubkey).data)
      let amount ← removeDust amount mint.decimals splShareDecimal
      let amount ← orFail (toU64 amount) .invalidWithdrawAmount
      check (amount ≠ 0) .invalidWithdrawAmount
      let ledger ← rt.invokeSigned (.burn payerSplAssociatedToken.pubkey splTokenMint.pubkey payer.pubkey amount)
        [splTokenProgram, payerSplAssociatedToken, splTokenMint, payer] [] ledger
      let ledger ← createWithdrawal rt rentSysvar payer withdrawalTransaction systemProgram
        splWithdrawalTransactionCalldataLen counter ledger
      let shares ← convertDecimal (.ofNat 128 amount.toNat) mint.decimals splShareDecimal
      writeWithdrawal bridgeConfig withdrawalTransaction splWithdrawalTransactionCalldataLen
        (fun config => rt.abi.getBridgeErc20Calldata config.l1StandardBridge splTokenMint.pubkey remoteToken payer.pubkey
          target shares standardBridgeCallGasLimit counter) counter 0 gasLimit ledger
  | _ => .error .panic

def createUserWithdrawalCounterAccount (accounts : List AccountMeta) (ledger : Ledger) : Outcome ProgramError Ledger :=
  match accounts with
  | systemProgram :: rentSysvar :: userWithdrawalCounter :: payer :: _ => do
      check (rt.pubkey (.userWithdrawalCounter payer.pubkey) = userWithdrawalCounter.pubkey) .invalidWithdrawalCounterAccount
      let rent ← ofCall (rt.rentFromAccountInfo rentSysvar (ledger rentSysvar.pubkey))
      let ledger ← createAccount rt rent payer userWithdrawalCounter systemProgram 8 withdrawalProgramPubkey []
        [.userWithdrawalCounter payer.pubkey] ledger
      let data ← WithdrawalCounter.pack ⟨0⟩ (ledger userWithdrawalCounter.pubkey).data
      return ledger.setData userWithdrawalCounter.pubkey data
  | _ => .error .panic

def checkNoSigTxPayer (noSigTxPayer : AccountMeta) : Outcome ProgramError Unit :=
  check (noSigTxPayer.pubkey = Programs.noSigTxPayer ∧ noSigTxPayer.isSigner) .invalidNoSigTxPayer

def depositEth (accounts : List AccountMeta) (value : BitVec 128) (depositTo : Pubkey) (ledger : Ledger) :
    Outcome ProgramError Ledger :=
  match accounts with
  | systemProgram :: depositor :: vault :: noSigTxPayer :: _ => do
      checkNoSigTxPayer noSigTxPayer
      check (rt.pubkey .vault = vault.pubkey) .invalidVaultAccount
      check (depositTo = depositor.pubkey) .invalidDepositorAccount
      let rent ← ofCall rt.rentGet
      let depositAmount ← orFail (toU64 value) .invalidDepositAmount
      check (rent.minimumBalance 0 < depositAmount) .invalidDepositAmount
      rt.invokeSigned (.transfer vault.pubkey depositor.pubkey depositAmount) [systemProgram, vault, depositor] [.vault] ledger
  | _ => .error .panic

def checkAdmin (bridgeOwner admin : AccountMeta) (ledger : Ledger) : Outcome ProgramError Unit := do
  check (rt.pubkey .bridgeOwner = bridgeOwner.pubkey) .invalidBridgeOwnerAccount
  let owner ← BridgeOwner.unpack (ledger bridgeOwner.pubkey).data
  check (owner.admin = admin.pubkey ∧ admin.isSigner) .invalidAdmin

def changeBridgeAdmin (accounts : List AccountMeta) (newAdmin : Pubkey) (ledger : Ledger) : Outcome ProgramError Ledger :=
  match accounts with
  | bridgeOwner :: admin :: _ => do
      checkAdmin rt bridgeOwner admin ledger
      let data ← BridgeOwner.pack ⟨newAdmin⟩ (ledger bridgeOwner.pubkey).data
      return ledger.setData bridgeOwner.pubkey data
  | _ => .error .panic

def mintLen : Nat := 82

def createSpl (accounts : List AccountMeta) (remoteToken : Address) (name symbol uri : String) (decimals : UInt8)
    (ledger : Ledger) : Outcome ProgramError Ledger := do
  check (decimals ≤ maxTokenDecimal) .invalidSPLTokenDecimal
  match accounts with
  | systemProgram :: rentSysvar :: splTokenProgram :: splTokenOwner :: splTokenMint :: vault :: bridgeOwner :: admin ::
      tokenMetadataProgram :: metadata :: _ =>
      check (splTokenProgram.pubkey = splTokenId) .invalidSPLTokenProgramId
      check (rt.pubkey .vault = vault.pubkey) .invalidVaultAccount
      checkAdmin rt bridgeOwner admin ledger
      check (rt.pubkey (.splTokenOwner remoteToken) = splTokenOwner.pubkey) .invalidSPLTokenOwnerAccount
      check (rt.pubkey (.splTokenMint remoteToken) = splTokenMint.pubkey) .invalidSPLTokenMintAccount
      check (tokenMetadataProgram.pubkey = mplTokenMetadataId) .invalidMetadataProgramId
      check (findMetadataPda rt.findProgramAddress splTokenMint.pubkey = metadata.pubkey) .invalidMetadataAccount
      let rent ← ofCall (rt.rentFromAccountInfo rentSysvar (ledger rentSysvar.pubkey))
      let ledger ← createAccount rt rent vault splTokenMint systemProgram mintLen splTokenProgram.pubkey [.vault]
        [.splTokenMint remoteToken] ledger
      let ledger ← rt.invokeSigned (.initializeMint (rt.pubkey (.splTokenMint remoteToken))
        (rt.pubkey (.splTokenOwner remoteToken)) decimals) [splTokenMint, rentSysvar, splTokenProgram] [] ledger
      rt.invokeSigned (.createMetadataAccountV3 metadata.pubkey splTokenMint.pubkey splTokenOwner.pubkey admin.pubkey
        splTokenOwner.pubkey name symbol uri)
        [tokenMetadataProgram, metadata, splTokenMint, splTokenOwner, admin, rentSysvar] [.splTokenOwner remoteToken] ledger
  | _ => .error .panic

def updateSplMetadata (accounts : List AccountMeta) (remoteToken : Address) (name symbol uri : String) (ledger : Ledger) :
    Outcome ProgramError Ledger :=
  match accounts with
  | metadata :: splTokenMint :: splTokenOwner :: tokenMetadataProgram :: bridgeOwner :: admin :: _ => do
      checkAdmin rt bridgeOwner admin ledger
      check (tokenMetadataProgram.pubkey = mplTokenMetadataId) .invalidMetadataProgramId
      check (findMetadataPda rt.findProgramAddress splTokenMint.pubkey = metadata.pubkey) .invalidMetadataAccount
      check (rt.pubkey (.splTokenOwner remoteToken) = splTokenOwner.pubkey) .invalidSPLTokenOwnerAccount
      rt.invokeSigned (.updateMetadataAccountV2 metadata.pubkey splTokenOwner.pubkey name symbol uri)
        [tokenMetadataProgram, metadata, splTokenOwner] [.splTokenOwner remoteToken] ledger
  | _ => .error .panic

def openTokenAccount (systemProgram splTokenProgram associatedTokenProgram splTokenOwner splTokenMint depositor
    depositorToken vault : AccountMeta) (ledger : Ledger) : Outcome ProgramError Ledger :=
  if (ledger depositorToken.pubkey).owner ≠ splTokenProgram.pubkey then do
    let ledger ← rt.invokeSigned (.createAssociatedTokenAccount vault.pubkey depositor.pubkey splTokenMint.pubkey)
      [systemProgram, splTokenProgram, associatedTokenProgram, depositor, depositorToken, splTokenMint, vault] [.vault] ledger
    rt.invokeSigned (.setCloseAuthority depositorToken.pubkey splTokenOwner.pubkey depositor.pubkey)
      [splTokenProgram, depositorToken, depositor] [] ledger
  else do
    let tokenAccount ← ofCall (rt.unpackTokenAccount (ledger depositorToken.pubkey).data)
    check (tokenAccount.owner = depositor.pubkey) .unmatchedTokenAccountOwner
    return ledger

def depositErc20 (accounts : List AccountMeta) (localToken : Pubkey) (remoteToken : Address) (recipient : Pubkey)
    (amount : BitVec 128) (ledger : Ledger) : Outcome ProgramError Ledger :=
  match accounts with
  | systemProgram :: splTokenProgram :: associatedTokenProgram :: splTokenOwner :: splTokenMint :: depositor ::
      depositorToken :: vault :: noSigTxPayer :: _ => do
      checkNoSigTxPayer noSigTxPayer
      check (splTokenProgram.pubkey = splTokenId) .invalidSPLTokenProgramId
      check (associatedTokenProgram.pubkey = splAssociatedTokenAccountId) .invalidAssociatedTokenProgramId
      check (recipient = depositor.pubkey ∧ depositor.isSigner) .invalidDepositorAccount
      check (rt.pubkey .vault = vault.pubkey) .invalidVaultAccount
      check (localToken = splTokenMint.pubkey) .invalidSPLTokenMintAccount
      check (rt.pubkey (.splTokenOwner remoteToken) = splTokenOwner.pubkey) .invalidSPLTokenOwnerAccount
      check (rt.pubkey (.splTokenMint remoteToken) = splTokenMint.pubkey) .invalidSPLTokenMintAccount
      let ledger ← openTokenAccount rt systemProgram splTokenProgram associatedTokenProgram splTokenOwner splTokenMint
        depositor depositorToken vault ledger
      let mint ← ofCall (rt.unpackMint (ledger splTokenMint.pubkey).data)
      let amount ← convertDecimal amount splShareDecimal mint.decimals
      let amount ← orFail (toU64 amount) .invalidDepositAmount
      rt.invokeSigned (.mintTo splTokenMint.pubkey depositorToken.pubkey splTokenOwner.pubkey amount)
        [splTokenProgram, splTokenMint, depositorToken, splTokenOwner, vault] [.splTokenOwner remoteToken] ledger
  | _ => .error .panic

def processInstruction (accounts : List AccountMeta) (ledger : Ledger) : BridgeInstruction → Outcome ProgramError Ledger
  | .createVaultAccount => .ok ledger
  | .depositETH _ _ _ value _ _ _ _ _ _ _ depositTo _ _ _ _ => depositEth rt accounts value depositTo ledger
  | .createWithdrawalCounterAccount => .ok ledger
  | .withdrawETH target value gasLimit => withdrawEth rt accounts target value gasLimit ledger
  | .createSPL remoteToken name symbol uri decimals => createSpl rt accounts remoteToken name symbol uri decimals ledger
  | .depositERC20 localToken remoteToken _ recipient amount =>
      depositErc20 rt accounts localToken remoteToken recipient amount ledger
  | .withdrawSPL remoteToken recipient amount gasLimit => withdrawSpl rt accounts remoteToken recipient amount gasLimit ledger
  | .createBridgeConfigAccount _ _ => .ok ledger
  | .changeBridgeAdmin newAdmin => changeBridgeAdmin rt accounts newAdmin ledger
  | .createUserWithdrawalCounterAccount => createUserWithdrawalCounterAccount rt accounts ledger
  | .updateSPLMetadata remoteToken name symbol uri => updateSplMetadata rt accounts remoteToken name symbol uri ledger

def process (accounts : List AccountMeta) (input : List UInt8) (ledger : Ledger) : Outcome ProgramError Ledger := do
  let instruction ← orFail (BridgeInstruction.unpack input) .invalidInstruction
  processInstruction rt accounts ledger instruction

def attempt (ledger : Ledger) (call : BridgeCall) : Outcome ProgramError Ledger := do
  let after ← process rt call.accounts call.input ledger
  ofCall (rt.verify call.accounts ledger after)
  return after

def execute (ledger : Ledger) (call : BridgeCall) : Ledger × Outcome ProgramError Unit :=
  match attempt rt ledger call with
  | .ok after => (after, .ok ())
  | .error e => (ledger, .error e)

end Processor

end KonaSoon.Programs
