import KonaSoon.Programs.Instruction

namespace KonaSoon.Programs
open Lib Mpt

inductive BridgeInstruction where
  | createVaultAccount
  | depositETH (sender recipient : Address) (mint value : BitVec 128) (gas : UInt64) (isCreation : Bool)
      (l1BlockNum : UInt64) (l1BlockHash : B256) (logIndex : BitVec 128) (depositType : UInt8)
      (depositFrom : Address) (depositTo : Pubkey) (depositAmount : BitVec 128) (depositExtraData : B256)
      (depositL2Contract : Pubkey) (depositL1Contract : Address)
  | createWithdrawalCounterAccount
  | withdrawETH (target : Address) (value gasLimit : BitVec 128)
  | createSPL (remoteToken : Address) (name symbol uri : String) (decimals : UInt8)
  | depositERC20 (localToken : Pubkey) (remoteToken sender : Address) (recipient : Pubkey) (amount : BitVec 128)
  | withdrawSPL (remoteToken recipient : Address) (amount gasLimit : BitVec 128)
  | createBridgeConfigAccount (l1CrossDomainMessenger l1StandardBridge : Address)
  | changeBridgeAdmin (newAdmin : Pubkey)
  | createUserWithdrawalCounterAccount
  | updateSPLMetadata (remoteToken : Address) (name symbol uri : String)
deriving DecidableEq

namespace BridgeInstruction

def isDerived : BridgeInstruction → Bool
  | depositETH .. => true
  | depositERC20 .. => true
  | _ => false

def unpackDepositETH (rest : List UInt8) : Option BridgeInstruction := do
  let (sender, rest) ← unpackAddress rest
  let (recipient, rest) ← unpackAddress rest
  let (mint, rest) ← unpackU128 rest
  let (value, rest) ← unpackU128 rest
  let (gas, rest) ← unpackU64 rest
  let (isCreation, rest) ← unpackBool rest
  let (l1BlockNum, rest) ← unpackU64 rest
  let (l1BlockHash, rest) ← unpackBytes32 rest
  let (logIndex, rest) ← unpackU128 rest
  let (depositType, rest) ← unpackU8 rest
  let (depositFrom, rest) ← unpackAddress rest
  let (depositTo, rest) ← unpackPubkey rest
  let (depositAmount, rest) ← unpackU128 rest
  let (depositExtraData, rest) ← unpackBytes32 rest
  let (depositL2Contract, rest) ← unpackPubkey rest
  let (depositL1Contract, _) ← unpackAddress rest
  return .depositETH sender recipient mint value gas isCreation l1BlockNum l1BlockHash logIndex depositType depositFrom
    depositTo depositAmount depositExtraData depositL2Contract depositL1Contract

def unpackDepositERC20 (rest : List UInt8) : Option BridgeInstruction := do
  let (localToken, rest) ← unpackPubkey rest
  let (remoteToken, rest) ← unpackAddress rest
  let (sender, rest) ← unpackAddress rest
  let (recipient, rest) ← unpackPubkey rest
  let (amount, _) ← unpackU128 rest
  return .depositERC20 localToken remoteToken sender recipient amount

def unpack (input : List UInt8) : Option BridgeInstruction := do
  let (tag, rest) ← unpackU8 input
  match tag with
  | 0 => return .createVaultAccount
  | 1 => unpackDepositETH rest
  | 2 => return .createWithdrawalCounterAccount
  | 3 =>
      let (target, rest) ← unpackAddress rest
      let (value, rest) ← unpackU128 rest
      let (gasLimit, _) ← unpackU128 rest
      return .withdrawETH target value gasLimit
  | 4 =>
      let (remoteToken, rest) ← unpackAddress rest
      let (name, rest) ← unpackStr rest
      let (symbol, rest) ← unpackStr rest
      let (uri, rest) ← unpackStr rest
      let (decimals, _) ← unpackU8 rest
      return .createSPL remoteToken name symbol uri decimals
  | 5 => unpackDepositERC20 rest
  | 6 =>
      let (remoteToken, rest) ← unpackAddress rest
      let (recipient, rest) ← unpackAddress rest
      let (amount, rest) ← unpackU128 rest
      let (gasLimit, _) ← unpackU128 rest
      return .withdrawSPL remoteToken recipient amount gasLimit
  | 7 =>
      let (l1CrossDomainMessenger, rest) ← unpackAddress rest
      let (l1StandardBridge, _) ← unpackAddress rest
      return .createBridgeConfigAccount l1CrossDomainMessenger l1StandardBridge
  | 8 =>
      let (newAdmin, _) ← unpackPubkey rest
      return .changeBridgeAdmin newAdmin
  | 9 => return .createUserWithdrawalCounterAccount
  | 10 =>
      let (remoteToken, rest) ← unpackAddress rest
      let (name, rest) ← unpackStr rest
      let (symbol, rest) ← unpackStr rest
      let (uri, _) ← unpackStr rest
      return .updateSPLMetadata remoteToken name symbol uri
  | _ => none

def pack : BridgeInstruction → Option (List UInt8)
  | createVaultAccount => some [0]
  | depositETH sender recipient mint value gas isCreation l1BlockNum l1BlockHash logIndex depositType depositFrom
      depositTo depositAmount depositExtraData depositL2Contract depositL1Contract => some (1 :: (sender.1 ++
      (recipient.1 ++ (packU128 mint ++ (packU128 value ++ (packU64 gas ++ (packBool isCreation ++ (packU64 l1BlockNum ++
      (l1BlockHash.1 ++ (packU128 logIndex ++ (depositType :: (depositFrom.1 ++ (depositTo.1 ++ (packU128 depositAmount ++
      (depositExtraData.1 ++ (depositL2Contract.1 ++ depositL1Contract.1))))))))))))))))
  | createWithdrawalCounterAccount => some [2]
  | withdrawETH target value gasLimit => some (3 :: (target.1 ++ (packU128 value ++ packU128 gasLimit)))
  | createSPL remoteToken name symbol uri decimals => do
      let name ← packStr name
      let symbol ← packStr symbol
      let uri ← packStr uri
      return 4 :: (remoteToken.1 ++ (name ++ (symbol ++ (uri ++ [decimals]))))
  | depositERC20 localToken remoteToken sender recipient amount =>
      some (5 :: (localToken.1 ++ (remoteToken.1 ++ (sender.1 ++ (recipient.1 ++ packU128 amount)))))
  | withdrawSPL remoteToken recipient amount gasLimit =>
      some (6 :: (remoteToken.1 ++ (recipient.1 ++ (packU128 amount ++ packU128 gasLimit))))
  | createBridgeConfigAccount l1CrossDomainMessenger l1StandardBridge =>
      some (7 :: (l1CrossDomainMessenger.1 ++ l1StandardBridge.1))
  | changeBridgeAdmin newAdmin => some (8 :: newAdmin.1)
  | createUserWithdrawalCounterAccount => some [9]
  | updateSPLMetadata remoteToken name symbol uri => do
      let name ← packStr name
      let symbol ← packStr symbol
      let uri ← packStr uri
      return 10 :: (remoteToken.1 ++ (name ++ (symbol ++ uri)))

theorem unpack_pack_append {instruction : BridgeInstruction} {data : List UInt8} (packs : instruction.pack = some data)
    (rest : List UInt8) : unpack (data ++ rest) = some instruction := by
  have texts {name symbol uri : String} {later : List UInt8 → List UInt8 → List UInt8 → List UInt8}
      (packs : ((packStr name).bind fun name => (packStr symbol).bind fun symbol => (packStr uri).bind fun uri =>
        some (later name symbol uri)) = some data) :
      ∃ a b c, packStr name = some a ∧ packStr symbol = some b ∧ packStr uri = some c ∧ data = later a b c := by
    obtain ⟨a, packsName, packs⟩ := Option.bind_eq_some_iff.mp packs
    obtain ⟨b, packsSymbol, packs⟩ := Option.bind_eq_some_iff.mp packs
    obtain ⟨c, packsUri, packs⟩ := Option.bind_eq_some_iff.mp packs
    exact ⟨a, b, c, packsName, packsSymbol, packsUri, (Option.some.inj packs).symm⟩
  -- In each case the fields are read one after the other, as they are on the wire.
  cases instruction with
  | createVaultAccount => cases packs; rfl
  | depositETH sender recipient mint value gas isCreation l1BlockNum l1BlockHash logIndex depositType depositFrom
      depositTo depositAmount depositExtraData depositL2Contract depositL1Contract =>
      cases packs
      simp only [List.append_assoc, List.cons_append]
      change unpackDepositETH _ = _
      refine bind_eq_some_of (unpackAddress_append sender _) (bind_eq_some_of (unpackAddress_append recipient _) ?_)
      refine bind_eq_some_of (unpackU128_packU128_append mint _) (bind_eq_some_of (unpackU128_packU128_append value _) ?_)
      refine bind_eq_some_of (unpackU64_packU64_append gas _) (bind_eq_some_of (unpackBool_packBool_append isCreation _) ?_)
      refine bind_eq_some_of (unpackU64_packU64_append l1BlockNum _) (bind_eq_some_of (unpackBytes32_append l1BlockHash _) ?_)
      refine bind_eq_some_of (unpackU128_packU128_append logIndex _) (bind_eq_some_of (unpackU8_cons depositType _) ?_)
      refine bind_eq_some_of (unpackAddress_append depositFrom _) (bind_eq_some_of (unpackPubkey_append depositTo _) ?_)
      refine bind_eq_some_of (unpackU128_packU128_append depositAmount _) ?_
      refine bind_eq_some_of (unpackBytes32_append depositExtraData _) ?_
      refine bind_eq_some_of (unpackPubkey_append depositL2Contract _) ?_
      exact bind_eq_some_of (unpackAddress_append depositL1Contract rest) rfl
  | createWithdrawalCounterAccount => cases packs; rfl
  | withdrawETH target value gasLimit =>
      cases packs
      simp only [List.append_assoc, List.cons_append]
      refine bind_eq_some_of (unpackU8_cons 3 _) (bind_eq_some_of (unpackAddress_append target _) ?_)
      refine bind_eq_some_of (unpackU128_packU128_append value _) ?_
      exact bind_eq_some_of (unpackU128_packU128_append gasLimit rest) rfl
  | createSPL remoteToken name symbol uri decimals =>
      obtain ⟨a, b, c, packsName, packsSymbol, packsUri, rfl⟩ := texts packs
      simp only [List.append_assoc, List.cons_append, List.nil_append]
      refine bind_eq_some_of (unpackU8_cons 4 _) (bind_eq_some_of (unpackAddress_append remoteToken _) ?_)
      refine bind_eq_some_of (unpackStr_packStr_append packsName _) ?_
      refine bind_eq_some_of (unpackStr_packStr_append packsSymbol _) ?_
      refine bind_eq_some_of (unpackStr_packStr_append packsUri _) ?_
      exact bind_eq_some_of (unpackU8_cons decimals rest) rfl
  | depositERC20 localToken remoteToken sender recipient amount =>
      cases packs
      simp only [List.append_assoc, List.cons_append]
      change unpackDepositERC20 _ = _
      refine bind_eq_some_of (unpackPubkey_append localToken _) (bind_eq_some_of (unpackAddress_append remoteToken _) ?_)
      refine bind_eq_some_of (unpackAddress_append sender _) (bind_eq_some_of (unpackPubkey_append recipient _) ?_)
      exact bind_eq_some_of (unpackU128_packU128_append amount rest) rfl
  | withdrawSPL remoteToken recipient amount gasLimit =>
      cases packs
      simp only [List.append_assoc, List.cons_append]
      refine bind_eq_some_of (unpackU8_cons 6 _) (bind_eq_some_of (unpackAddress_append remoteToken _) ?_)
      refine bind_eq_some_of (unpackAddress_append recipient _) ?_
      refine bind_eq_some_of (unpackU128_packU128_append amount _) ?_
      exact bind_eq_some_of (unpackU128_packU128_append gasLimit rest) rfl
  | createBridgeConfigAccount l1CrossDomainMessenger l1StandardBridge =>
      cases packs
      simp only [List.append_assoc, List.cons_append]
      refine bind_eq_some_of (unpackU8_cons 7 _) (bind_eq_some_of (unpackAddress_append l1CrossDomainMessenger _) ?_)
      exact bind_eq_some_of (unpackAddress_append l1StandardBridge rest) rfl
  | changeBridgeAdmin newAdmin =>
      cases packs
      rw [List.cons_append]
      exact bind_eq_some_of (unpackU8_cons 8 _) (bind_eq_some_of (unpackPubkey_append newAdmin rest) rfl)
  | createUserWithdrawalCounterAccount => cases packs; rfl
  | updateSPLMetadata remoteToken name symbol uri =>
      obtain ⟨a, b, c, packsName, packsSymbol, packsUri, rfl⟩ := texts packs
      simp only [List.append_assoc, List.cons_append]
      refine bind_eq_some_of (unpackU8_cons 10 _) (bind_eq_some_of (unpackAddress_append remoteToken _) ?_)
      refine bind_eq_some_of (unpackStr_packStr_append packsName _) ?_
      refine bind_eq_some_of (unpackStr_packStr_append packsSymbol _) ?_
      exact bind_eq_some_of (unpackStr_packStr_append packsUri rest) rfl

theorem unpack_pack {instruction : BridgeInstruction} {data : List UInt8} (packs : instruction.pack = some data) :
    unpack data = some instruction := by
  have whole := unpack_pack_append packs []
  rwa [List.append_nil] at whole

end BridgeInstruction

section

variable (findProgramAddress : FindProgramAddress)

def vaultPubkey : Pubkey := findProgramAddress ["vault".toUTF8.data.toList] withdrawalProgramPubkey

def splTokenOwnerPubkey (remoteToken : Address) : Pubkey :=
  findProgramAddress ["spl-owner".toUTF8.data.toList, remoteToken.1] withdrawalProgramPubkey

def splTokenMintPubkey (remoteToken : Address) : Pubkey :=
  findProgramAddress ["spl-mint".toUTF8.data.toList, remoteToken.1] withdrawalProgramPubkey

/-- There is no result where the source unwraps the error of packing. -/
def depositEth (sender recipient : Address) (mint value : BitVec 128) (gas : UInt64) (isCreation : Bool)
    (l1BlockNum : UInt64) (l1BlockHash : B256) (logIndex : BitVec 128) (depositFrom : Address) (depositTo : Pubkey)
    (depositAmount : BitVec 128) (depositExtraData : B256) : Option Instruction := do
  let data ← (BridgeInstruction.depositETH sender recipient mint value gas isCreation l1BlockNum l1BlockHash logIndex 0
    depositFrom depositTo depositAmount depositExtraData (.ofNat 0) ⟨List.replicate 20 0, length_zeroAddress⟩).pack
  return {
    programId := withdrawalProgramPubkey
    accounts := [.newReadonly systemProgramId false, .new depositTo false, .new (vaultPubkey findProgramAddress) false,
      .newReadonly noSigTxPayer true]
    data }

def depositErc20 (localToken : Pubkey) (remoteToken sender : Address) (recipient : Pubkey) (amount : BitVec 128) :
    Option Instruction := do
  let splTokenMintKey := splTokenMintPubkey findProgramAddress remoteToken
  let depositorAssociatedTokenKey := getAssociatedTokenAddress findProgramAddress recipient splTokenMintKey
  let data ← (BridgeInstruction.depositERC20 localToken remoteToken sender recipient amount).pack
  return {
    programId := withdrawalProgramPubkey
    accounts := [.newReadonly systemProgramId false, .newReadonly splTokenId false,
      .newReadonly splAssociatedTokenAccountId false, .newReadonly (splTokenOwnerPubkey findProgramAddress remoteToken) false,
      .new splTokenMintKey false, .newReadonly recipient true, .new depositorAssociatedTokenKey false,
      .new (vaultPubkey findProgramAddress) false, .newReadonly noSigTxPayer true]
    data }

end

structure Instruction.IsDeposit (ix : Instruction) : Prop where
  program : ix.programId = withdrawalProgramPubkey
  few : ix.accounts.length < 255
  derived : ∃ instruction : BridgeInstruction, BridgeInstruction.unpack ix.data = some instruction ∧ instruction.isDerived

theorem depositEth_isDeposit {findProgramAddress : FindProgramAddress} {sender recipient : Address}
    {mint value : BitVec 128} {gas : UInt64} {isCreation : Bool} {l1BlockNum : UInt64} {l1BlockHash : B256}
    {logIndex : BitVec 128} {depositFrom : Address} {depositTo : Pubkey} {depositAmount : BitVec 128}
    {depositExtraData : B256} {ix : Instruction}
    (makes : depositEth findProgramAddress sender recipient mint value gas isCreation l1BlockNum l1BlockHash logIndex
      depositFrom depositTo depositAmount depositExtraData = some ix) : ix.IsDeposit := by
  unfold depositEth at makes
  obtain ⟨data, packs, made⟩ := Option.bind_eq_some_iff.mp makes
  cases made
  exact ⟨rfl, by simp, _, BridgeInstruction.unpack_pack packs, by rfl⟩

theorem depositErc20_isDeposit {findProgramAddress : FindProgramAddress} {localToken : Pubkey}
    {remoteToken sender : Address} {recipient : Pubkey} {amount : BitVec 128} {ix : Instruction}
    (makes : depositErc20 findProgramAddress localToken remoteToken sender recipient amount = some ix) :
    ix.IsDeposit := by
  unfold depositErc20 at makes
  obtain ⟨data, packs, made⟩ := Option.bind_eq_some_iff.mp makes
  cases made
  exact ⟨rfl, by simp, _, BridgeInstruction.unpack_pack packs, by rfl⟩

end KonaSoon.Programs
