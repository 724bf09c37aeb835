import KonaSoon.Lib.Abi
import KonaSoon.Lib.Outcome
import KonaSoon.Programs.Pda

namespace KonaSoon.Programs
open Lib Mpt Abi

inductive BridgeError where
  | invalidInstruction
  | invalidWithdrawalCounterAccount
  | invalidWithdrawalTransactionAccount
  | invalidVaultAccount
  | invalidDepositorAccount
  | invalidSPLTokenOwnerAccount
  | invalidSPLTokenMintAccount
  | invalidSPLTokenProgramId
  | invalidBridgeConfigAccount
  | invalidAssociatedTokenProgramId
  | invalidNoSigTxPayer
  | invalidBridgeOwnerAccount
  | invalidAdmin
  | gasLimitTooLow
  | invalidSPLTokenDecimal
  | invalidMetadataProgramId
  | invalidMetadataAccount
  | invalidDepositAmount
  | invalidWithdrawAmount
  | unmatchedTokenAccountOwner
deriving DecidableEq, Repr

inductive ProgramError where
  | custom (error : BridgeError)
  | invalidAccountData
  | called (text : String)
deriving DecidableEq, Repr

def unpackExact {α : Type} (len : Nat) (unpackFromSlice : FixedBytes len → α) (src : List UInt8) : Outcome ProgramError α :=
  if fits : src.length = len then .ok (unpackFromSlice ⟨src, fits⟩) else .error (.error .invalidAccountData)

def packExact (len : Nat) (bytes dst : List UInt8) : Outcome ProgramError (List UInt8) :=
  if dst.length = len then .ok bytes else .error (.error .invalidAccountData)

theorem packExact_eq_ok {len : Nat} {bytes dst data : List UInt8} (packs : packExact len bytes dst = .ok data) :
    dst.length = len ∧ data = bytes := by
  unfold packExact at packs
  split at packs
  · cases packs
    exact ⟨‹_›, rfl⟩
  · cases packs

structure WithdrawalCounter where
  counter : UInt64
deriving DecidableEq, Repr

namespace WithdrawalCounter

def packIntoSlice (account : WithdrawalCounter) : List UInt8 := packU64 account.counter

def unpackFromSlice (src : FixedBytes 8) : WithdrawalCounter := ⟨.ofNat (fromLeBytes src.1)⟩

def unpack (src : List UInt8) : Outcome ProgramError WithdrawalCounter := unpackExact 8 unpackFromSlice src

def pack (account : WithdrawalCounter) (dst : List UInt8) : Outcome ProgramError (List UInt8) :=
  packExact 8 account.packIntoSlice dst

theorem length_packIntoSlice (account : WithdrawalCounter) : account.packIntoSlice.length = 8 := length_toLeBytes _ _

theorem unpack_length {src : List UInt8} {account : WithdrawalCounter} (unpacks : unpack src = .ok account) :
    src.length = 8 := by
  unfold unpack unpackExact at unpacks
  split at unpacks
  · assumption
  · cases unpacks

theorem unpack_packIntoSlice (account : WithdrawalCounter) : unpack account.packIntoSlice = .ok account := by
  have read : UInt64.ofNat (fromLeBytes (toLeBytes 8 account.counter.toNat)) = account.counter := by
    rw [fromLeBytes_toLeBytes, show (256 : Nat) ^ 8 = 2 ^ 64 by rfl, Nat.mod_eq_of_lt account.counter.toNat_lt,
      UInt64.ofNat_toNat]
  rw [unpack, unpackExact, dif_pos account.length_packIntoSlice]
  exact congrArg (fun counter => Except.ok (WithdrawalCounter.mk counter)) read

end WithdrawalCounter

structure BridgeConfig where
  l1CrossDomainMessenger : Address
  l1StandardBridge : Address
deriving DecidableEq, Repr

namespace BridgeConfig

def unpackFromSlice (src : FixedBytes 40) : BridgeConfig where
  l1CrossDomainMessenger := ⟨src.1.take 20, by simp [src.2]⟩
  l1StandardBridge := ⟨src.1.drop 20, by simp [src.2]⟩

def unpack (src : List UInt8) : Outcome ProgramError BridgeConfig := unpackExact 40 unpackFromSlice src

end BridgeConfig

structure BridgeOwner where
  admin : Pubkey
deriving DecidableEq, Repr

namespace BridgeOwner

def unpack (src : List UInt8) : Outcome ProgramError BridgeOwner := unpackExact 32 BridgeOwner.mk src

def pack (account : BridgeOwner) (dst : List UInt8) : Outcome ProgramError (List UInt8) :=
  packExact 32 account.admin.1 dst

end BridgeOwner

def packU256 (value : BitVec 256) : List UInt8 :=
  (bigEndian 16 (value.toNat / 2 ^ 128)).1 ++ (bigEndian 16 (value.toNat % 2 ^ 128)).1

structure WithdrawalTransaction (calldataLen : Nat) where
  nonce : BitVec 256
  sender : Pubkey
  target : Address
  value : BitVec 256
  gasLimit : BitVec 256
  data : FixedBytes calldataLen
deriving DecidableEq, Repr

def ethWithdrawalTransactionCalldataLen : Nat := 420

abbrev ETHWithdrawalTransaction := WithdrawalTransaction ethWithdrawalTransactionCalldataLen

def splWithdrawalTransactionCalldataLen : Nat := 484

abbrev SPLWithdrawalTransaction := WithdrawalTransaction splWithdrawalTransactionCalldataLen

theorem length_packU256 (value : BitVec 256) : (packU256 value).length = 32 := by
  rw [packU256, List.length_append, (bigEndian 16 _).2, (bigEndian 16 _).2]

theorem packU256_injective : Function.Injective packU256 := by
  intro value value' same
  have halves : ∀ value : BitVec 256, value.toNat / 2 ^ 128 < 256 ^ 16 ∧ value.toNat % 2 ^ 128 < 256 ^ 16 := by
    intro value
    have bound := value.isLt
    rw [show (256 : Nat) ^ 16 = 2 ^ 128 by norm_num]
    omega
  obtain ⟨high, low⟩ := List.append_inj same (by rw [(bigEndian 16 _).2, (bigEndian 16 _).2])
  have highs := congrArg ofBigEndian high
  have lows := congrArg ofBigEndian low
  rw [ofBigEndian_bigEndian (halves value).1, ofBigEndian_bigEndian (halves value').1] at highs
  rw [ofBigEndian_bigEndian (halves value).2, ofBigEndian_bigEndian (halves value').2] at lows
  apply BitVec.eq_of_toNat_eq
  omega

namespace WithdrawalTransaction

variable {calldataLen : Nat}

def len (calldataLen : Nat) : Nat := 148 + calldataLen

def packIntoSlice (account : WithdrawalTransaction calldataLen) : List UInt8 :=
  packU256 account.nonce ++ (account.sender.1 ++ (account.target.1 ++ (packU256 account.value ++
    (packU256 account.gasLimit ++ account.data.1))))

def pack (account : WithdrawalTransaction calldataLen) (dst : List UInt8) : Outcome ProgramError (List UInt8) :=
  packExact (len calldataLen) account.packIntoSlice dst

theorem length_packIntoSlice (account : WithdrawalTransaction calldataLen) :
    account.packIntoSlice.length = len calldataLen := by
  simp only [packIntoSlice, List.length_append, length_packU256, account.sender.2, account.target.2, account.data.2, len]
  omega

theorem packIntoSlice_inj {account account' : WithdrawalTransaction calldataLen}
    (same : account.packIntoSlice = account'.packIntoSlice) : account.nonce = account'.nonce ∧ account.data = account'.data := by
  obtain ⟨nonce, same⟩ := List.append_inj same (by rw [length_packU256, length_packU256])
  obtain ⟨-, same⟩ := List.append_inj same (by rw [account.sender.2, account'.sender.2])
  obtain ⟨-, same⟩ := List.append_inj same (by rw [account.target.2, account'.target.2])
  obtain ⟨-, same⟩ := List.append_inj same (by rw [length_packU256, length_packU256])
  obtain ⟨-, same⟩ := List.append_inj same (by rw [length_packU256, length_packU256])
  exact ⟨packU256_injective nonce, Subtype.ext same⟩

end WithdrawalTransaction

structure EthAbi where
  encode : List Token → List UInt8
  keccak256 : List UInt8 → B256

namespace EthAbi

def encodeWithSelector (abi : EthAbi) (selector : String) (params : List Token) : List UInt8 :=
  (abi.keccak256 selector.toUTF8.data.toList).1.take 4 ++ abi.encode params

def messageVersion : BitVec 256 := 1

def encodeVersionedNonce (nonce : UInt64) : BitVec 256 := messageVersion <<< 240 ||| .ofNat 256 nonce.toNat

def relayMessage (abi : EthAbi) (l1StandardBridge : Address) (value gasLimit : BitVec 128) (counter : UInt64)
    (message : List UInt8) : List UInt8 :=
  abi.encodeWithSelector "relayMessage(uint256,bytes32,address,uint256,uint256,bytes)" [.uint (encodeVersionedNonce counter),
    .fixedBytes withdrawalProgramPubkey, .address l1StandardBridge, .uint (value.setWidth 256),
    .uint (gasLimit.setWidth 256), .bytes message]

def finalizeBridgeETH (abi : EthAbi) (sender : Pubkey) (target : Address) (value : BitVec 128) : List UInt8 :=
  abi.encodeWithSelector "finalizeBridgeETH(bytes32,address,uint256,bytes)" [.fixedBytes sender, .address target,
    .uint (value.setWidth 256), .bytes []]

def finalizeBridgeERC20 (abi : EthAbi) (localToken : Pubkey) (remoteToken : Address) (sender : Pubkey) (target : Address)
    (amount : BitVec 128) : List UInt8 :=
  abi.encodeWithSelector "finalizeBridgeERC20(address,bytes32,bytes32,address,uint256,bytes)" [.address remoteToken,
    .fixedBytes localToken, .fixedBytes sender, .address target, .uint (amount.setWidth 256), .bytes []]

def getBridgeEthCalldata (abi : EthAbi) (l1StandardBridge : Address) (sender : Pubkey) (target : Address)
    (value gasLimit : BitVec 128) (counter : UInt64) : List UInt8 :=
  abi.relayMessage l1StandardBridge value gasLimit counter (abi.finalizeBridgeETH sender target value)

def getBridgeErc20Calldata (abi : EthAbi) (l1StandardBridge : Address) (localToken : Pubkey) (remoteToken : Address)
    (sender : Pubkey) (target : Address) (amount gasLimit : BitVec 128) (counter : UInt64) : List UInt8 :=
  abi.relayMessage l1StandardBridge 0 gasLimit counter (abi.finalizeBridgeERC20 localToken remoteToken sender target amount)

section Lawful

variable {abi : EthAbi} (lawful : Lawful abi.encode)
include lawful

theorem length_encodeWithSelector (selector : String) {params : List Token} (fits : ∀ token ∈ params, token.Fits) :
    (abi.encodeWithSelector selector params).length = 4 + encodedLength params := by
  rw [encodeWithSelector, List.length_append, List.length_take, (abi.keccak256 _).2, lawful.length params fits]
  omega

theorem encodeWithSelector_inj {selector : String} {params params' : List Token} (fits : ∀ token ∈ params, token.Fits)
    (fits' : ∀ token ∈ params', token.Fits) (kinds : params.map Token.kind = params'.map Token.kind)
    (same : abi.encodeWithSelector selector params = abi.encodeWithSelector selector params') : params = params' :=
  lawful.injective params params' fits fits' kinds (List.append_cancel_left same)

theorem length_finalizeBridgeETH (sender : Pubkey) (target : Address) (value : BitVec 128) :
    (abi.finalizeBridgeETH sender target value).length = 164 := by
  rw [finalizeBridgeETH, length_encodeWithSelector lawful _ (by simp [Token.Fits])]
  rfl

theorem length_finalizeBridgeERC20 (localToken : Pubkey) (remoteToken : Address) (sender : Pubkey) (target : Address)
    (amount : BitVec 128) : (abi.finalizeBridgeERC20 localToken remoteToken sender target amount).length = 228 := by
  rw [finalizeBridgeERC20, length_encodeWithSelector lawful _ (by simp [Token.Fits])]
  rfl

theorem length_relayMessage (l1StandardBridge : Address) (value gasLimit : BitVec 128) (counter : UInt64)
    {message : List UInt8} (fits : message.length < 2 ^ 32) :
    (abi.relayMessage l1StandardBridge value gasLimit counter message).length = 228 + padded message.length := by
  rw [relayMessage, length_encodeWithSelector lawful _ (by simpa [Token.Fits] using fits)]
  simp only [encodedLength, List.map_cons, List.map_nil, List.sum_cons, List.sum_nil, Token.tailLength]
  omega

theorem length_getBridgeEthCalldata (l1StandardBridge : Address) (sender : Pubkey) (target : Address)
    (value gasLimit : BitVec 128) (counter : UInt64) :
    (abi.getBridgeEthCalldata l1StandardBridge sender target value gasLimit counter).length =
      ethWithdrawalTransactionCalldataLen := by
  have length := length_finalizeBridgeETH lawful sender target value
  rw [getBridgeEthCalldata, length_relayMessage lawful _ _ _ _ (by rw [length]; decide), length]
  rfl

theorem length_getBridgeErc20Calldata (l1StandardBridge : Address) (localToken : Pubkey) (remoteToken : Address)
    (sender : Pubkey) (target : Address) (amount gasLimit : BitVec 128) (counter : UInt64) :
    (abi.getBridgeErc20Calldata l1StandardBridge localToken remoteToken sender target amount gasLimit counter).length =
      splWithdrawalTransactionCalldataLen := by
  have length := length_finalizeBridgeERC20 lawful localToken remoteToken sender target amount
  rw [getBridgeErc20Calldata, length_relayMessage lawful _ _ _ _ (by rw [length]; decide), length]
  rfl

theorem relayMessage_inj {l1StandardBridge l1StandardBridge' : Address} {value value' gasLimit gasLimit' : BitVec 128}
    {counter counter' : UInt64} {message message' : List UInt8} (fits : message.length < 2 ^ 32)
    (fits' : message'.length < 2 ^ 32)
    (same : abi.relayMessage l1StandardBridge value gasLimit counter message =
      abi.relayMessage l1StandardBridge' value' gasLimit' counter' message') : message = message' := by
  have params := encodeWithSelector_inj lawful (by simpa [Token.Fits] using fits) (by simpa [Token.Fits] using fits')
    (by rfl) same
  simp only [List.cons.injEq, Token.bytes.injEq] at params
  exact params.2.2.2.2.2.1

theorem getBridgeEthCalldata_sender {l1StandardBridge l1StandardBridge' : Address} {sender sender' : Pubkey}
    {target target' : Address} {value value' gasLimit gasLimit' : BitVec 128} {counter counter' : UInt64}
    (same : abi.getBridgeEthCalldata l1StandardBridge sender target value gasLimit counter =
      abi.getBridgeEthCalldata l1StandardBridge' sender' target' value' gasLimit' counter') : sender = sender' := by
  have messages := relayMessage_inj lawful (by rw [length_finalizeBridgeETH lawful]; decide)
    (by rw [length_finalizeBridgeETH lawful]; decide) same
  have params := encodeWithSelector_inj lawful (by simp [Token.Fits]) (by simp [Token.Fits]) (by rfl) messages
  simp only [List.cons.injEq, Token.fixedBytes.injEq] at params
  exact params.1

theorem getBridgeErc20Calldata_sender {l1StandardBridge l1StandardBridge' : Address} {localToken localToken' : Pubkey}
    {remoteToken remoteToken' : Address} {sender sender' : Pubkey} {target target' : Address}
    {amount amount' gasLimit gasLimit' : BitVec 128} {counter counter' : UInt64}
    (same : abi.getBridgeErc20Calldata l1StandardBridge localToken remoteToken sender target amount gasLimit counter =
      abi.getBridgeErc20Calldata l1StandardBridge' localToken' remoteToken' sender' target' amount' gasLimit' counter') :
    sender = sender' := by
  have messages := relayMessage_inj lawful (by rw [length_finalizeBridgeERC20 lawful]; decide)
    (by rw [length_finalizeBridgeERC20 lawful]; decide) same
  have params := encodeWithSelector_inj lawful (by simp [Token.Fits]) (by simp [Token.Fits]) (by rfl) messages
  simp only [List.cons.injEq, Token.fixedBytes.injEq] at params
  exact params.2.2.1

end Lawful

end EthAbi

end KonaSoon.Programs
