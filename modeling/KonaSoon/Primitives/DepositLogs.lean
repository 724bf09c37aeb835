import KonaSoon.Primitives.Deposit

namespace KonaSoon
open Lib Mpt Programs

structure Log where
  address : Address
  topics : List B256
  data : List UInt8
deriving DecidableEq, Repr

inductive Eip658Value where
  | eip658 (success : Bool)
  | postState (root : B256)
deriving DecidableEq, Repr

structure Receipt where
  status : Eip658Value
  logs : List Log
deriving DecidableEq, Repr

/-- Why a log is no deposit. `derive_deposits` only logs these, so what their texts show is kept as it is. -/
inductive DepositLogError where
  | invalidDomainMessenger (sender : Address)
  | invalidL2CrossDomainMessenger (target : B256)
  | invalidL1StandardBridge (sender : Address)
  | invalidL2StandardBridge (target : B256)
  | invalidRelaySelector (selector : List UInt8)
  | invalidDepositSelector (selector : List UInt8)
  | invalidDataLength
  | unknownDepositType
deriving DecidableEq, Repr

structure DepositContracts where
  optimismPortalAddress : Address
  l1CrossDomainMessenger : Address
  l1StandardBridge : Address
deriving DecidableEq, Repr

def soonDepositEventAbi : List UInt8 := "TransactionDeposited(address,bytes32,uint256,bytes)".toUTF8.data.toList

def ethDepositSelector : List UInt8 := [0x59, 0x6a, 0x37, 0xc5]

def erc20DepositSelector : List UInt8 := [0xf7, 0x3f, 0xb3, 0x9c]

def crossDomainMessengerRelaySelector : List UInt8 := [0xe5, 0xd0, 0xa3, 0xd7]

def soonBridgePubkey : B256 := .ofNat 0x02c806312cb859f1bc25448e39f87aa09857d83ccb4a837df55648e000000000

/-! ## Slices -/

def slice (bytes : List UInt8) (start stop : Nat) : Outcome DepositLogError (List UInt8) :=
  if start ≤ stop ∧ stop ≤ bytes.length then .ok ((bytes.take stop).drop start) else .error .panic

def sliceFixed (n : Nat) (bytes : List UInt8) (start : Nat) : Outcome DepositLogError (FixedBytes n) := do
  let taken ← slice bytes start (start + n)
  if fits : taken.length = n then .ok ⟨taken, fits⟩ else .error .panic

def u256FromBeSlice (bytes : FixedBytes 32) : BitVec 256 := .ofNat 256 (ofBigEndian bytes.1)

/-! ## Address aliases -/

def l1ToL2Offset : Nat := 0x1111000000000000000000000000000000001111

def maxAddressToUint : Nat := 0xffffffffffffffffffffffffffffffffffffffff

def toBytesBe (n : Nat) : List UInt8 := if n = 0 then [0] else Rlp.bigEndian n

def padding0ForAddressData (bytes : List UInt8) : List UInt8 := List.replicate (20 - bytes.length) 0 ++ bytes

def addressFromSlice (bytes : List UInt8) : Outcome DepositLogError Address :=
  if fits : bytes.length = 20 then .ok ⟨bytes, fits⟩ else .error .panic

def applyL1ToL2Alias (l1Address : Address) : Outcome DepositLogError Address :=
  let l2AliasNum := ofBigEndian l1Address.1 + l1ToL2Offset
  let l2AliasNum := if l2AliasNum > maxAddressToUint then l2AliasNum - maxAddressToUint - 1 else l2AliasNum
  addressFromSlice (padding0ForAddressData (toBytesBe l2AliasNum))

def undoL1ToL2Alias (l2Alias : Address) : Outcome DepositLogError Address :=
  let l2AliasNum := ofBigEndian l2Alias.1
  let l2AliasNum := if l2AliasNum < l1ToL2Offset then l2AliasNum + maxAddressToUint + 1 else l2AliasNum
  addressFromSlice (padding0ForAddressData (toBytesBe (l2AliasNum - l1ToL2Offset)))

def addressFromWord (word : B256) : Address := ⟨word.1.drop 12, by simp [word.2]⟩

/-! ## Parsing -/

def EthDepositData.tryFrom (value : List UInt8) : Outcome DepositLogError EthDepositData := do
  let sender ← sliceFixed 20 value 12
  let recipient ← sliceFixed 32 value 32
  let amount ← sliceFixed 32 value 64
  let extraData ← slice value 96 value.length
  return { sender, recipient, amount := u256FromBeSlice amount, extraData := (extraData ++ List.replicate 32 0).take 32 }

def Erc20DepositData.tryFrom (value : List UInt8) : Outcome DepositLogError Erc20DepositData := do
  let l2Contract ← sliceFixed 32 value 0
  let l1Contract ← sliceFixed 20 value 44
  let sender ← sliceFixed 20 value 76
  let recipient ← sliceFixed 32 value 96
  let amount ← sliceFixed 32 value 128
  let _extraData ← slice value 160 value.length
  return { l2Contract, l1Contract, sender, recipient, amount := u256FromBeSlice amount }

def DepositType.tryFrom (data : List UInt8) : Outcome DepositLogError DepositType := do
  let selector ← slice data 0 4
  let data := data.drop 4
  if selector = ethDepositSelector then return .eth (← EthDepositData.tryFrom data)
  else if selector = erc20DepositSelector then return .erc20 (← Erc20DepositData.tryFrom data)
  else .error (.error .unknownDepositType)

structure ExternalData where
  sender : Address
  target : B256
  mint : BitVec 256
  gas : UInt64
  isCreation : Bool
deriving DecidableEq, Repr

def ExternalData.extract (rlp : Rlp) (opaqueData : List UInt8) : Outcome DepositLogError (ExternalData × List UInt8) := do
  if rlp.bytesLength opaqueData < 305 then .error (.error .invalidDataLength)
  else
    let mint ← sliceFixed 32 opaqueData 0
    let _value ← slice opaqueData 32 64
    let gas ← slice opaqueData 64 72
    let isCreation ← slice opaqueData 72 73
    let relaySelector ← slice opaqueData 73 77
    if relaySelector ≠ crossDomainMessengerRelaySelector then .error (.error (.invalidRelaySelector relaySelector))
    else
      let sender ← sliceFixed 20 opaqueData 121
      let target ← sliceFixed 32 opaqueData 141
      let depositSelector ← slice opaqueData 301 305
      if depositSelector ≠ ethDepositSelector ∧ depositSelector ≠ erc20DepositSelector then
        .error (.error (.invalidDepositSelector depositSelector))
      else
        let rest ← slice opaqueData 301 opaqueData.length
        return (⟨sender, target, u256FromBeSlice mint, UInt64.ofNat (ofBigEndian gas), isCreation ≠ [0]⟩, rest)

def UserDeposited.parseFromLog (rlp : Rlp) (l1BlockNum : UInt64) (l1BlockHash : B256) (logIndex : UInt64) (log : Log)
    (expectedBridgeSender expectedRelaySender : Address) : Outcome DepositLogError UserDeposited := do
  let opaqueData ← slice log.data 64 log.data.length
  let senderWord ← Outcome.unwrap log.topics[1]?
  let bridgeSender ← undoL1ToL2Alias (addressFromWord senderWord)
  if bridgeSender ≠ expectedBridgeSender then .error (.error (.invalidDomainMessenger bridgeSender))
  else
    let bridgeTarget ← Outcome.unwrap log.topics[2]?
    if bridgeTarget ≠ soonBridgePubkey then .error (.error (.invalidL2CrossDomainMessenger bridgeTarget))
    else
      let (ext, data) ← ExternalData.extract rlp opaqueData
      if ext.sender ≠ expectedRelaySender then .error (.error (.invalidL1StandardBridge ext.sender))
      else if ext.target ≠ soonBridgePubkey then .error (.error (.invalidL2StandardBridge ext.target))
      else
        let depositType ← DepositType.tryFrom data
        return {
          bridgeSender
          mint := ext.mint
          gas := ext.gas
          isCreation := ext.isCreation
          l1BlockNum
          l1BlockHash
          logIndex
          depositType }

/-! ## The loop over the logs -/

section

variable (prim : Primitives) (contracts : DepositContracts) (l1BlockNum : UInt64) (l1BlockHash : B256)

/-- The deposit of one log. There is no answer where the parsing panics. -/
def depositOfLog (index : UInt64) (log : Log) : Option (Option UserDeposited) :=
  if log.topics.head? ≠ some (prim.keccak256 soonDepositEventAbi) then some none
  else if log.address ≠ contracts.optimismPortalAddress then some none
  else match UserDeposited.parseFromLog prim.toRlp l1BlockNum l1BlockHash index log contracts.l1CrossDomainMessenger
      contracts.l1StandardBridge with
    | .ok deposit => some (some deposit)
    | .error (.error _) => some none
    | .error _ => none

def depositsFrom (globalIndex : UInt64) : List Log → Option (List UserDeposited)
  | [] => some []
  | log :: logs => do
      let deposit ← depositOfLog prim contracts l1BlockNum l1BlockHash globalIndex log
      let rest ← depositsFrom (globalIndex + 1) logs
      return deposit.toList ++ rest

def countedLogs (receipts : List Receipt) : List Log :=
  (receipts.filter fun receipt => receipt.status ≠ .eip658 false).flatMap (·.logs)

def deriveDeposits (receipts : List Receipt) : Option (List UserDeposited) :=
  depositsFrom prim contracts l1BlockNum l1BlockHash 0 (countedLogs receipts)

end

/-! ## The place of a deposit among the logs -/

variable {prim : Primitives} {contracts : DepositContracts} {l1BlockNum : UInt64} {l1BlockHash : B256}

theorem UserDeposited.parseFromLog_place {rlp : Rlp} {index : UInt64} {log : Log} {sender relay : Address}
    {deposit : UserDeposited} (parses : parseFromLog rlp l1BlockNum l1BlockHash index log sender relay = .ok deposit) :
    deposit.l1BlockHash = l1BlockHash ∧ deposit.logIndex = index := by
  simp only [parseFromLog, bind_eq_ok] at parses
  obtain ⟨opaqueData, -, word, -, bridgeSender, -, parses⟩ := parses
  split at parses
  · cases parses
  · obtain ⟨target, -, parses⟩ := bind_eq_ok.mp parses
    split at parses
    · cases parses
    · obtain ⟨⟨ext, data⟩, -, parses⟩ := bind_eq_ok.mp parses
      simp only at parses
      split at parses
      · cases parses
      · split at parses
        · cases parses
        · obtain ⟨depositType, -, parses⟩ := bind_eq_ok.mp parses
          cases parses
          exact ⟨rfl, rfl⟩

theorem depositOfLog_place {index : UInt64} {log : Log} {deposit : UserDeposited}
    (derives : depositOfLog prim contracts l1BlockNum l1BlockHash index log = some (some deposit)) :
    deposit.l1BlockHash = l1BlockHash ∧ deposit.logIndex = index := by
  unfold depositOfLog at derives
  split at derives
  · cases derives
  · split at derives
    · cases derives
    · split at derives
      · rename_i parses
        cases derives
        exact UserDeposited.parseFromLog_place parses
      · cases derives
      · cases derives

theorem depositsFrom_places {start : Nat} {logs : List Log} (few : start + logs.length ≤ 2 ^ 64)
    {deposits : List UserDeposited}
    (derives : depositsFrom prim contracts l1BlockNum l1BlockHash (UInt64.ofNat start) logs = some deposits) :
    (∀ deposit ∈ deposits, deposit.l1BlockHash = l1BlockHash ∧ start ≤ deposit.logIndex.toNat) ∧
      (deposits.map (·.logIndex)).Pairwise (· < ·) := by
  induction logs generalizing start deposits with
  | nil =>
      cases derives
      exact ⟨nofun, List.Pairwise.nil⟩
  | cons log logs ih =>
      simp only [depositsFrom, Option.bind_eq_bind, Option.bind_eq_some_iff] at derives
      obtain ⟨deposit, first, rest, derives, made⟩ := derives
      cases made
      have next : UInt64.ofNat start + 1 = UInt64.ofNat (start + 1) := by simp
      rw [List.length_cons] at few
      rw [next] at derives
      obtain ⟨places, sorted⟩ := ih (by omega) derives
      cases deposit with
      | none =>
          refine ⟨fun deposit member => ?_, sorted⟩
          obtain ⟨hash, later⟩ := places deposit member
          exact ⟨hash, by omega⟩
      | some deposit =>
          obtain ⟨hash, index⟩ := depositOfLog_place first
          have value : deposit.logIndex.toNat = start := by
            rw [index, UInt64.toNat_ofNat', Nat.mod_eq_of_lt (by omega)]
          constructor
          · intro other member
            rcases List.mem_cons.mp member with rfl | member
            · exact ⟨hash, value.ge⟩
            · obtain ⟨hash', later⟩ := places other member
              exact ⟨hash', by omega⟩
          · refine List.Pairwise.cons ?_ sorted
            intro other member
            obtain ⟨deposit', member', rfl⟩ := List.mem_map.mp member
            have later := (places deposit' member').2
            show deposit.logIndex < deposit'.logIndex
            rw [UInt64.lt_iff_toNat_lt]
            omega

theorem depositsFrom_eq {start : Nat} {logs : List Log} {deposits : List UserDeposited}
    (derives : depositsFrom prim contracts l1BlockNum l1BlockHash (UInt64.ofNat start) logs = some deposits) :
    ∃ found, (logs.zipIdx start).mapM (fun (log, index) =>
        depositOfLog prim contracts l1BlockNum l1BlockHash (UInt64.ofNat index) log) = some found ∧
      deposits = found.reduceOption := by
  induction logs generalizing start deposits with
  | nil =>
      cases derives
      exact ⟨[], rfl, rfl⟩
  | cons log logs ih =>
      simp only [depositsFrom, Option.bind_eq_bind, Option.bind_eq_some_iff] at derives
      obtain ⟨deposit, first, rest, derives, made⟩ := derives
      cases made
      have next : UInt64.ofNat start + 1 = UInt64.ofNat (start + 1) := by simp
      rw [next] at derives
      obtain ⟨found, collects, rfl⟩ := ih derives
      refine ⟨deposit :: found, ?_, ?_⟩
      · simp [List.zipIdx_cons, List.mapM_cons, first, collects]
      · cases deposit with
        | none => rfl
        | some deposit => rfl

theorem deriveDeposits_eq {receipts : List Receipt} {deposits : List UserDeposited}
    (derives : deriveDeposits prim contracts l1BlockNum l1BlockHash receipts = some deposits) :
    ∃ found, (countedLogs receipts).zipIdx.mapM (fun (log, index) =>
        depositOfLog prim contracts l1BlockNum l1BlockHash (UInt64.ofNat index) log) = some found ∧
      deposits = found.reduceOption :=
  depositsFrom_eq derives

theorem deriveDeposits_places {receipts : List Receipt} (few : (countedLogs receipts).length ≤ 2 ^ 64)
    {deposits : List UserDeposited} (derives : deriveDeposits prim contracts l1BlockNum l1BlockHash receipts = some deposits) :
    (∀ deposit ∈ deposits, deposit.l1BlockHash = l1BlockHash) ∧ (deposits.map (·.logIndex)).Pairwise (· < ·) := by
  obtain ⟨places, sorted⟩ := @depositsFrom_places prim contracts l1BlockNum l1BlockHash 0 (countedLogs receipts) (by omega)
    deposits derives
  exact ⟨fun deposit member => (places deposit member).1, sorted⟩

end KonaSoon
