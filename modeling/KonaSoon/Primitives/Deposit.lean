import KonaSoon.Lib.Outcome
import KonaSoon.Primitives.Blocks
import KonaSoon.Primitives.NativeTx

namespace KonaSoon
open Lib Mpt Programs

inductive DepositError where
  | parseDepositTxError (text : String)
  | parseL1BlockInfoTxError (text : String)
  | invalidTransaction (text : String)
deriving DecidableEq, Repr

def DepositError.toString : DepositError → String
  | parseDepositTxError text => "Derive deposit tx error: " ++ text
  | parseL1BlockInfoTxError text => "Derive l1 block info tx error: " ++ text
  | invalidTransaction text => text

structure EthDepositData where
  sender : Address
  recipient : Pubkey
  amount : BitVec 256
  extraData : List UInt8
deriving DecidableEq, Repr

structure Erc20DepositData where
  l2Contract : Pubkey
  l1Contract : Address
  sender : Address
  recipient : Pubkey
  amount : BitVec 256
deriving DecidableEq, Repr

inductive DepositType where
  | eth (data : EthDepositData)
  | erc20 (data : Erc20DepositData)
deriving DecidableEq, Repr

structure UserDeposited where
  bridgeSender : Address
  mint : BitVec 256
  gas : UInt64
  isCreation : Bool
  l1BlockNum : UInt64
  l1BlockHash : B256
  logIndex : UInt64
  depositType : DepositType
deriving DecidableEq, Repr

def userDepositSourceDomain : UInt32 := 0

def l1InfoDepositSourceDomain : UInt32 := 1

def sourceHash (prim : Primitives) (domain : UInt32) (l1BlockHash : B256) (index : UInt64) : B256 :=
  let depositIdHash := prim.keccak256 (l1BlockHash.1 ++ List.replicate 24 0 ++ toBeBytes index)
  prim.keccak256 (List.replicate 24 0 ++ toBeBytes domain.toUInt64 ++ depositIdHash.1)

def tryU128 (value : BitVec 256) (e : DepositError) : Outcome DepositError (BitVec 128) :=
  if value.toNat < 2 ^ 128 then .ok (value.setWidth 128) else .error (.error e)

def tryBytes32 (bytes : List UInt8) (e : DepositError) : Outcome DepositError B256 :=
  if fits : bytes.length = 32 then .ok ⟨bytes, fits⟩ else .error (.error e)

def sanitizedNativeTransaction (solana : Solana) (ix : Instruction) (sourceHash : B256) :
    Outcome DepositError VersionedTransaction := do
  let tx ← Outcome.unwrap (newNativeTransaction solana [ix] sourceHash)
  match solana.sanitize tx with
  | .ok () => return tx
  | .error text => .error (.error (.invalidTransaction text))

namespace UserDeposited

def sourceHash (prim : Primitives) (deposit : UserDeposited) : B256 :=
  KonaSoon.sourceHash prim userDepositSourceDomain deposit.l1BlockHash deposit.logIndex

def instruction (solana : Solana) (deposit : UserDeposited) : Outcome DepositError Instruction :=
  match deposit.depositType with
  | .eth data => do
      let mint ← tryU128 deposit.mint (.parseDepositTxError "Invalid mint")
      let value ← tryU128 data.amount (.parseDepositTxError "Invalid amount")
      let depositAmount ← tryU128 data.amount (.parseDepositTxError "Invalid amount")
      let extraData ← tryBytes32 data.extraData (.parseDepositTxError "Invalid extra data")
      Outcome.unwrap (depositEth solana.findProgramAddress deposit.bridgeSender ⟨List.replicate 20 0, length_zeroAddress⟩ mint value
        deposit.gas deposit.isCreation deposit.l1BlockNum deposit.l1BlockHash (deposit.logIndex.toBitVec.setWidth 128)
        data.sender data.recipient depositAmount extraData)
  | .erc20 data => do
      let amount ← tryU128 data.amount (.parseDepositTxError "Invalid amount")
      Outcome.unwrap (depositErc20 solana.findProgramAddress data.l2Contract data.l1Contract data.sender data.recipient
        amount)

def toSanitizedTransaction (solana : Solana) (prim : Primitives) (deposit : UserDeposited) :
    Outcome DepositError VersionedTransaction := do
  let ix ← deposit.instruction solana
  sanitizedNativeTransaction solana ix (deposit.sourceHash prim)

end UserDeposited

structure AttributesDeposited where
  l1BlockNum : UInt64
  timestamp : UInt64
  baseFee : BitVec 128
  l1BlockHash : B256
  sequenceNumber : UInt64
  batcherHash : BitVec 256
  feeOverhead : BitVec 256
  feeScalar : BitVec 256
  gas : UInt64
  isSystemTx : Bool
deriving DecidableEq, Repr

def addressToHash (address : Address) : BitVec 256 :=
  .ofNat 256 (fromLeBytes (List.replicate 12 0 ++ address.1).reverse)

namespace AttributesDeposited

def tryFrom (block : BlockInfo) (sequenceNumber : UInt64) (batcherHash : BitVec 256) :
    Outcome DepositError AttributesDeposited := .ok {
  l1BlockNum := block.number
  timestamp := block.timestamp
  baseFee := 0
  l1BlockHash := block.hash
  sequenceNumber
  batcherHash
  feeOverhead := 0
  feeScalar := 0
  gas := 0
  isSystemTx := true }

def sourceHash (prim : Primitives) (attributes : AttributesDeposited) : B256 :=
  KonaSoon.sourceHash prim l1InfoDepositSourceDomain attributes.l1BlockHash attributes.sequenceNumber

def instruction (solana : Solana) (attributes : AttributesDeposited) : Outcome DepositError Instruction := do
  let feeOverhead ← tryU128 attributes.feeOverhead (.parseL1BlockInfoTxError "Invalid fee overhead")
  let feeScalar ← tryU128 attributes.feeScalar (.parseL1BlockInfoTxError "Invalid fee scalar")
  return updateL1BlockInfo solana.findProgramAddress attributes.l1BlockNum attributes.timestamp attributes.baseFee
    attributes.l1BlockHash attributes.sequenceNumber ⟨toLeBytes 32 attributes.batcherHash.toNat, length_toLeBytes ..⟩
    feeOverhead feeScalar attributes.gas attributes.isSystemTx

def toSanitizedTransaction (solana : Solana) (prim : Primitives) (attributes : AttributesDeposited) :
    Outcome DepositError VersionedTransaction := do
  let ix ← attributes.instruction solana
  sanitizedNativeTransaction solana ix (attributes.sourceHash prim)

end AttributesDeposited

theorem UserDeposited.instruction_isDeposit {solana : Solana} {deposit : UserDeposited} {ix : Instruction}
    (makes : deposit.instruction solana = .ok ix) : ix.IsDeposit := by
  unfold instruction at makes
  split at makes
  · simp only [bind_eq_ok] at makes
    obtain ⟨mint, -, value, -, depositAmount, -, extraData, -, made⟩ := makes
    exact depositEth_isDeposit (Outcome.unwrap_eq_ok.mp made)
  · simp only [bind_eq_ok] at makes
    obtain ⟨amount, -, made⟩ := makes
    exact depositErc20_isDeposit (Outcome.unwrap_eq_ok.mp made)

theorem sanitizedNativeTransaction_calls {solana : Solana} (compiles : solana.CompilesCalls) {ix : Instruction}
    (few : ix.accounts.length < 255) {hash : B256} {tx : VersionedTransaction}
    (creates : sanitizedNativeTransaction solana ix hash = .ok tx) :
    tx.message.calls = [(some ix.programId, ix.data)] := by
  obtain ⟨created, unwraps, checks⟩ := bind_eq_ok.mp creates
  split at checks
  · cases checks
    exact newNativeTransaction_calls compiles few (Outcome.unwrap_eq_ok.mp unwraps)
  · cases checks

theorem UserDeposited.toSanitizedTransaction_native {solana : Solana} (compiles : solana.CompilesCalls)
    {prim : Primitives} {deposit : UserDeposited} {tx : VersionedTransaction}
    (creates : deposit.toSanitizedTransaction solana prim = .ok tx) : tx.hasNativeInstruction = some true := by
  obtain ⟨ix, makes, creates⟩ := bind_eq_ok.mp creates
  obtain ⟨program, few, instruction, unpacks, derived⟩ := instruction_isDeposit makes
  have calls := sanitizedNativeTransaction_calls compiles few creates
  have other : tx.hasUpdateL1BlockInfoInstruction = some false := by
    rw [VersionedTransaction.hasUpdateL1BlockInfoInstruction, VersionedTransaction.anyInstruction_single calls, program]
    decide
  have bridge : tx.hasDerivedBridgeInstruction = some true := by
    rw [VersionedTransaction.hasDerivedBridgeInstruction, VersionedTransaction.anyInstruction_single calls, program,
      unpacks]
    simp [derived]
  rw [VersionedTransaction.hasNativeInstruction, other]
  exact bridge

theorem AttributesDeposited.toSanitizedTransaction_native {solana : Solana} (compiles : solana.CompilesCalls)
    {prim : Primitives} {attributes : AttributesDeposited} {tx : VersionedTransaction}
    (creates : attributes.toSanitizedTransaction solana prim = .ok tx) : tx.hasNativeInstruction = some true := by
  obtain ⟨ix, makes, creates⟩ := bind_eq_ok.mp creates
  simp only [instruction, bind_eq_ok] at makes
  obtain ⟨feeOverhead, -, feeScalar, -, made⟩ := makes
  cases made
  have calls := sanitizedNativeTransaction_calls compiles (by simp [updateL1BlockInfo]) creates
  have update : tx.hasUpdateL1BlockInfoInstruction = some true := by
    rw [VersionedTransaction.hasUpdateL1BlockInfoInstruction, VersionedTransaction.anyInstruction_single calls]
    simp [updateL1BlockInfo]
  rw [VersionedTransaction.hasNativeInstruction, update]
  rfl

end KonaSoon
