import KonaSoon.Derive.L1Stack
import KonaSoon.Lib.InPlace
import KonaSoon.Primitives.DepositLogs

namespace KonaSoon.Derive
open Lib Mpt

/-! ## Updates -/

inductive SystemConfigUpdateKind where
  | batcher
  | gasConfig
  | gasLimit
  | unsafeBlockSigner
  | eip1559
  | operatorFee
deriving DecidableEq, Repr

inductive SystemConfigUpdate where
  | batcher (batcherAddress : Address)
  | gasConfig (scalar overhead : Option (BitVec 256))
  | gasLimit (gasLimit : UInt64)
  | unsafeBlockSigner (unsafeBlockSigner : Address)
  | eip1559 (eip1559Denominator eip1559Elasticity : UInt32)
  | operatorFee (operatorFeeScalar : UInt32) (operatorFeeConstant : UInt64)
deriving DecidableEq, Repr

namespace SystemConfigUpdate

def kind : SystemConfigUpdate → SystemConfigUpdateKind
  | batcher _ => .batcher
  | gasConfig .. => .gasConfig
  | gasLimit _ => .gasLimit
  | unsafeBlockSigner _ => .unsafeBlockSigner
  | eip1559 .. => .eip1559
  | operatorFee .. => .operatorFee

def apply (config : SystemConfig) : SystemConfigUpdate → SystemConfig
  | batcher batcherAddress => { config with batcherAddress }
  | gasConfig .. => config
  | gasLimit _ => config
  | unsafeBlockSigner _ => config
  | eip1559 .. => config
  | operatorFee .. => config

def batcherAddress? : SystemConfigUpdate → Option Address
  | batcher batcherAddress => some batcherAddress
  | _ => none

end SystemConfigUpdate

/-! ## Errors -/

inductive ConfigField where
  | batcherAddress
  | overhead
  | scalar
  | gasLimit
  | eip1559Parameters
  | unsafeBlockSignerAddress
deriving DecidableEq, Repr

def ConfigField.toString : ConfigField → String
  | batcherAddress => "batcher address"
  | overhead => "overhead"
  | scalar => "scalar"
  | gasLimit => "gas limit"
  | eip1559Parameters => "eip1559 parameters"
  | unsafeBlockSignerAddress => "unsafe block signer address"

inductive ConfigUpdateError where
  | invalidDataLen (length : Nat)
  | pointerDecodingError
  | invalidDataPointer (pointer : UInt64)
  | lengthDecodingError
  | invalidDataLength (length : UInt64)
  | decodingError (field : ConfigField)
deriving DecidableEq, Repr

def ConfigUpdateError.toString (log : String) : ConfigUpdateError → String
  | invalidDataLen length => s!"Invalid config update log: invalid data length: {length}"
  | pointerDecodingError => s!"Failed to decode {log}: data pointer"
  | invalidDataPointer pointer => s!"Invalid config update log: invalid data pointer: {pointer}"
  | lengthDecodingError => s!"Failed to decode {log}: data length"
  | invalidDataLength length => s!"Invalid config update log: invalid data length: {length}"
  | decodingError field => s!"Failed to decode {log}: {field.toString}"

inductive LogProcessingError where
  | invalidTopicLen (length : Nat)
  | invalidTopic
  | unsupportedVersion (version : B256)
  | invalidSystemConfigUpdateType (value : UInt64)
deriving DecidableEq, Repr

def hexOf (bytes : List UInt8) : String :=
  .ofList (bytes.flatMap fun byte => [Nat.digitChar (byte.toNat / 16), Nat.digitChar (byte.toNat % 16)])

def LogProcessingError.toString : LogProcessingError → String
  | invalidTopicLen length => s!"Invalid config update log: invalid topic length: {length}"
  | invalidTopic => "Invalid config update log: invalid topic"
  | unsupportedVersion version => s!"Invalid config update log: unsupported version: 0x{hexOf version.1}"
  | invalidSystemConfigUpdateType value => s!"Invalid system config update type: {value}"

inductive SystemConfigUpdateError where
  | logProcessing (e : LogProcessingError)
  | batcher (e : ConfigUpdateError)
  | gasConfig (e : ConfigUpdateError)
  | gasLimit (e : ConfigUpdateError)
  | eip1559 (e : ConfigUpdateError)
  | operatorFee (e : ConfigUpdateError)
  | unsafeBlockSigner (e : ConfigUpdateError)
deriving DecidableEq, Repr

def SystemConfigUpdateError.toString : SystemConfigUpdateError → String
  | logProcessing e => "Log processing error: " ++ e.toString
  | batcher e => "Batcher update error: " ++ e.toString "batcher update log"
  | gasConfig e => "Gas config update error: " ++ e.toString "gas config update log"
  | gasLimit e => "Gas limit update error: " ++ e.toString "gas limit update log"
  | eip1559 e => "EIP-1559 parameter update error: " ++ e.toString "eip1559 parameter update log"
  | operatorFee e => "Operator fee parameter update error: " ++ e.toString "operator fee parameter update log"
  | unsafeBlockSigner e => "Unsafe block signer update error: " ++ e.toString "unsafe block signer update log"

/-! ## Reading a log -/

/-- `abi_decode_validate` of words, which is a library's. -/
structure SolTypes where
  uint64 : FixedBytes 32 → Option UInt64
  uint256 : FixedBytes 32 → Option (BitVec 256)
  address : FixedBytes 32 → Option Address

/-- `keccak256("ConfigUpdate(uint256,uint8,bytes)")` -/
def configUpdateTopic : B256 := .ofNat 0x1d2b0bda21d56b8bd12d4f94ebacffdfb35f5e226f84b461103bb8beab6353be

def configUpdateEventVersion0 : B256 := .ofNat 0

def sized (n : Nat) (data : List UInt8) : Except ConfigUpdateError (FixedBytes n) :=
  if same : data.length = n then .ok ⟨data, same⟩ else .error (.invalidDataLen data.length)

def sliceAt {n : Nat} (width : Nat) (data : FixedBytes n) (start : Nat) (within : start + width ≤ n) : FixedBytes width :=
  ⟨(data.1.drop start).take width, by rw [List.length_take, List.length_drop, data.2]; omega⟩

def decoded {α : Type} (value : Option α) (e : ConfigUpdateError) : Except ConfigUpdateError α :=
  match value with
  | some value => .ok value
  | none => .error e

section

variable (sol : SolTypes)

def checkHead {n : Nat} (within : 64 ≤ n) (length : UInt64) (data : FixedBytes n) : Except ConfigUpdateError Unit := do
  let pointer ← decoded (sol.uint64 (sliceAt 32 data 0 (by omega))) .pointerDecodingError
  if pointer ≠ 32 then .error (.invalidDataPointer pointer)
  else
    let found ← decoded (sol.uint64 (sliceAt 32 data 32 within)) .lengthDecodingError
    if found ≠ length then .error (.invalidDataLength found) else .ok ()

def batcherUpdate (data : List UInt8) : Except ConfigUpdateError SystemConfigUpdate := do
  let data ← sized 96 data
  checkHead sol (by decide) 32 data
  let batcherAddress ← decoded (sol.address (sliceAt 32 data 64 (by decide))) (.decodingError .batcherAddress)
  return .batcher batcherAddress

def gasConfigUpdate (data : List UInt8) : Except ConfigUpdateError SystemConfigUpdate := do
  let data ← sized 128 data
  checkHead sol (by decide) 64 data
  let overhead ← decoded (sol.uint256 (sliceAt 32 data 64 (by decide))) (.decodingError .overhead)
  let scalar ← decoded (sol.uint256 (sliceAt 32 data 96 (by decide))) (.decodingError .scalar)
  return .gasConfig (some scalar) (some overhead)

def gasLimitUpdate (data : List UInt8) : Except ConfigUpdateError SystemConfigUpdate := do
  let data ← sized 96 data
  checkHead sol (by decide) 32 data
  let gasLimit ← decoded (sol.uint256 (sliceAt 32 data 64 (by decide))) (.decodingError .gasLimit)
  if gasLimit.toNat > 2 ^ 64 - 1 then .error (.decodingError .gasLimit)
  else return .gasLimit (.ofNat gasLimit.toNat)

def unsafeBlockSignerUpdate (data : List UInt8) : Except ConfigUpdateError SystemConfigUpdate := do
  let data ← sized 96 data
  checkHead sol (by decide) 32 data
  let signer ← decoded (sol.address (sliceAt 32 data 64 (by decide))) (.decodingError .unsafeBlockSignerAddress)
  return .unsafeBlockSigner signer

def eip1559Update (data : List UInt8) : Except ConfigUpdateError SystemConfigUpdate := do
  let data ← sized 96 data
  checkHead sol (by decide) 32 data
  let params ← decoded (sol.uint64 (sliceAt 32 data 64 (by decide))) (.decodingError .eip1559Parameters)
  return .eip1559 (params >>> 32).toUInt32 params.toUInt32

def operatorFeeUpdate (data : List UInt8) : Except ConfigUpdateError SystemConfigUpdate := do
  let data ← sized 96 data
  checkHead sol (by decide) 32 data
  return .operatorFee (.ofNat (ofBigEndian (sliceAt 4 data 84 (by decide)).1))
    (.ofNat (ofBigEndian (sliceAt 8 data 88 (by decide)).1))

namespace SystemConfigLog

def validateTopic (log : Log) : Except LogProcessingError Unit :=
  if log.topics.length < 3 then .error (.invalidTopicLen log.topics.length)
  else if log.topics[0]? ≠ some configUpdateTopic then .error .invalidTopic
  else .ok ()

def validateVersion (log : Log) : Except LogProcessingError Unit :=
  let version := log.topics.getD 1 configUpdateEventVersion0
  if version ≠ configUpdateEventVersion0 then .error (.unsupportedVersion version) else .ok ()

def updateType (log : Log) : Except LogProcessingError SystemConfigUpdateKind :=
  match log.topics[2]? with
  | none => .error (.invalidTopicLen log.topics.length)
  | some topic =>
      match UInt64.ofNat (ofBigEndian (topic.1.drop 24)) with
      | 0 => .ok .batcher
      | 1 => .ok .gasConfig
      | 2 => .ok .gasLimit
      | 3 => .ok .unsafeBlockSigner
      | 4 => .ok .eip1559
      | 5 => .ok .operatorFee
      | value => .error (.invalidSystemConfigUpdateType value)

def build (log : Log) : Except SystemConfigUpdateError SystemConfigUpdate := do
  (validateTopic log).mapError .logProcessing
  (validateVersion log).mapError .logProcessing
  match ← (updateType log).mapError .logProcessing with
  | .batcher => (batcherUpdate sol log.data).mapError .batcher
  | .gasConfig => (gasConfigUpdate sol log.data).mapError .gasConfig
  | .gasLimit => (gasLimitUpdate sol log.data).mapError .gasLimit
  | .eip1559 => (eip1559Update sol log.data).mapError .eip1559
  | .operatorFee => (operatorFeeUpdate sol log.data).mapError .operatorFee
  | .unsafeBlockSigner => (unsafeBlockSignerUpdate sol log.data).mapError .unsafeBlockSigner

end SystemConfigLog

/-! ## Reading the receipts of a block -/

namespace SystemConfig

def processConfigUpdateLog (config : SystemConfig) (log : Log) :
    SystemConfig × Except SystemConfigUpdateError SystemConfigUpdateKind :=
  match SystemConfigLog.build sol log with
  | .error e => (config, .error e)
  | .ok update => (update.apply config, .ok update.kind)

variable (l1SystemConfigAddress : Address)

def isConfigUpdate (log : Log) : Bool := log.address = l1SystemConfigAddress ∧ log.topics.head? = some configUpdateTopic

def updateWithLogs (config : SystemConfig) : List Log → SystemConfig × Except SystemConfigUpdateError Unit
  | [] => (config, .ok ())
  | log :: logs =>
      if isConfigUpdate l1SystemConfigAddress log then
        match config.processConfigUpdateLog sol log with
        | (config, .error e) => (config, .error e)
        | (config, .ok _) => config.updateWithLogs logs
      else config.updateWithLogs logs

def updateWithReceipts (config : SystemConfig) : List Receipt → SystemConfig × Except SystemConfigUpdateError Unit
  | [] => (config, .ok ())
  | receipt :: receipts =>
      if receipt.status = .eip658 false then config.updateWithReceipts receipts
      else
        match config.updateWithLogs sol l1SystemConfigAddress receipt.logs with
        | (config, .error e) => (config, .error e)
        | (config, .ok ()) => config.updateWithReceipts receipts

def updateForPipeline : UpdateWithReceipts Receipt := fun config receipts =>
  (config.updateWithReceipts sol l1SystemConfigAddress receipts).map id (·.mapError (·.toString))

def configLogs (receipts : List Receipt) : List Log :=
  (countedLogs receipts).filter (isConfigUpdate l1SystemConfigAddress)

variable {sol l1SystemConfigAddress}

theorem updateWithLogs_eq (config : SystemConfig) (logs : List Log) :
    config.updateWithLogs sol l1SystemConfigAddress logs = applyAll (SystemConfigLog.build sol) SystemConfigUpdate.apply config
      (logs.filter (isConfigUpdate l1SystemConfigAddress)) := by
  induction logs generalizing config with
  | nil => rfl
  | cons log logs ih =>
      rw [updateWithLogs]
      by_cases update : isConfigUpdate l1SystemConfigAddress log
      · rw [if_pos update, List.filter_cons_of_pos update, applyAll, processConfigUpdateLog]
        cases SystemConfigLog.build sol log with
        | error e => rfl
        | ok update => exact ih (update.apply config)
      · rw [if_neg update, List.filter_cons_of_neg update, ih]

theorem updateWithReceipts_eq (config : SystemConfig) (receipts : List Receipt) :
    config.updateWithReceipts sol l1SystemConfigAddress receipts = applyAll (SystemConfigLog.build sol)
      SystemConfigUpdate.apply config (configLogs l1SystemConfigAddress receipts) := by
  induction receipts generalizing config with
  | nil => rfl
  | cons receipt receipts ih =>
      rw [updateWithReceipts]
      by_cases failed : receipt.status = .eip658 false
      · have skipped : configLogs l1SystemConfigAddress (receipt :: receipts) = configLogs l1SystemConfigAddress receipts := by
          rw [configLogs, countedLogs, List.filter_cons_of_neg (by simpa using failed)]
          rfl
        rw [if_pos failed, ih, skipped]
      · have counted : configLogs l1SystemConfigAddress (receipt :: receipts) =
            receipt.logs.filter (isConfigUpdate l1SystemConfigAddress) ++ configLogs l1SystemConfigAddress receipts := by
          rw [configLogs, countedLogs, List.filter_cons_of_pos (by simpa using failed), List.flatMap_cons, List.filter_append]
          rfl
        rw [if_neg failed, counted, applyAll_append, updateWithLogs_eq]
        generalize applyAll (SystemConfigLog.build sol) SystemConfigUpdate.apply config
          (receipt.logs.filter (isConfigUpdate l1SystemConfigAddress)) = ends
        obtain ⟨after, e | done⟩ := ends
        · rfl
        · exact ih after

def batcherAfter (current : Address) (updates : List SystemConfigUpdate) : Address :=
  (updates.filterMap SystemConfigUpdate.batcherAddress?).getLast?.getD current

theorem foldl_apply (config : SystemConfig) (updates : List SystemConfigUpdate) :
    updates.foldl SystemConfigUpdate.apply config =
      { config with batcherAddress := batcherAfter config.batcherAddress updates } := by
  induction updates generalizing config with
  | nil => rfl
  | cons update updates ih =>
      rw [List.foldl_cons, ih]
      cases update with
      | batcher batcherAddress =>
          simp only [SystemConfigUpdate.apply, batcherAfter, List.filterMap_cons, SystemConfigUpdate.batcherAddress?,
            List.getLast?_cons, Option.getD_some]
      | _ => rfl

theorem foldl_apply_eq_self_iff {config : SystemConfig} {updates : List SystemConfigUpdate} :
    updates.foldl SystemConfigUpdate.apply config = config ↔ batcherAfter config.batcherAddress updates = config.batcherAddress := by
  rw [foldl_apply]
  constructor
  · intro same
    exact congrArg SystemConfig.batcherAddress same
  · intro same
    rw [same]

end SystemConfig

variable {sol} {l1SystemConfigAddress : Address}

/-- Where a log is refused, the updates of the logs before it leave the batcher as it is. -/
def KeptUntilRefusal (sol : SolTypes) (l1SystemConfigAddress : Address) (config : SystemConfig) (receipts : List Receipt) :
    Prop :=
  ∀ updates e, Refuses (SystemConfigLog.build sol) (SystemConfig.configLogs l1SystemConfigAddress receipts) updates e →
    SystemConfig.batcherAfter config.batcherAddress updates = config.batcherAddress

theorem SystemConfig.updateWithReceipts_atomic_iff {config : SystemConfig} {receipts : List Receipt} :
    (∀ config' e, config.updateWithReceipts sol l1SystemConfigAddress receipts = (config', .error e) → config' = config) ↔
      KeptUntilRefusal sol l1SystemConfigAddress config receipts := by
  rw [updateWithReceipts_eq, applyAll_atomic_iff]
  apply forall_congr'
  intro updates
  apply forall_congr'
  intro e
  rw [foldl_apply_eq_self_iff]

namespace L1Traversal

theorem advanceOrigin_unchanged_iff {provider : L1ChainProvider Receipt} {traversal : L1Traversal} :
    (∀ stop, (traversal.advanceOrigin (SystemConfig.updateForPipeline sol l1SystemConfigAddress) provider).2 = .error stop →
        (traversal.advanceOrigin (SystemConfig.updateForPipeline sol l1SystemConfigAddress) provider).1 = traversal) ↔
      ∀ origin receipts, traversal.nextOrigin provider = .ok (origin, receipts) →
        KeptUntilRefusal sol l1SystemConfigAddress traversal.systemConfig receipts := by
  unfold advanceOrigin
  cases traversal.nextOrigin provider with
  | error stop => exact iff_of_true (fun _ _ => rfl) (fun _ _ found => by cases found)
  | ok found =>
      obtain ⟨origin, receipts⟩ := found
      have atomic := @SystemConfig.updateWithReceipts_atomic_iff sol l1SystemConfigAddress traversal.systemConfig receipts
      have only : (∀ origin' receipts', Except.ok (origin, receipts) = (Except.ok (origin', receipts') : PipelineResult _) →
          KeptUntilRefusal sol l1SystemConfigAddress traversal.systemConfig receipts') ↔
            KeptUntilRefusal sol l1SystemConfigAddress traversal.systemConfig receipts :=
        ⟨fun all => all origin receipts rfl, fun kept _ _ same => by cases same; exact kept⟩
      rw [only, ← atomic]
      simp only [SystemConfig.updateForPipeline]
      generalize traversal.systemConfig.updateWithReceipts sol l1SystemConfigAddress receipts = ends
      obtain ⟨config, e | done⟩ := ends
      · constructor
        · intro unchanged config' e' same
          cases same
          exact congrArg L1Traversal.systemConfig (unchanged _ rfl)
        · intro unchanged stop fails
          have same := unchanged config e rfl
          change { traversal with systemConfig := config } = traversal
          rw [same]
      · refine iff_of_true ?_ ?_
        · intro stop fails
          cases fails
        · intro config' e same
          cases same

end L1Traversal

/-- Updates are applied in the order of their logs. They are all undone by an error if and only if the logs before the
refused one leave the batcher as it is. -/
theorem config_updates_atomic_iff (sol : SolTypes) (l1SystemConfigAddress : Address) (config : SystemConfig)
    (receipts : List Receipt) (provider : L1ChainProvider Receipt) (traversal : L1Traversal) :
    (∀ config', config.updateWithReceipts sol l1SystemConfigAddress receipts = (config', .ok ()) →
      ∃ updates, Decodes (SystemConfigLog.build sol) (SystemConfig.configLogs l1SystemConfigAddress receipts) updates ∧
        config' = updates.foldl SystemConfigUpdate.apply config) ∧
    ((∀ config' e, config.updateWithReceipts sol l1SystemConfigAddress receipts = (config', .error e) → config' = config) ↔
      KeptUntilRefusal sol l1SystemConfigAddress config receipts) ∧
    ((∀ stop, (traversal.advanceOrigin (SystemConfig.updateForPipeline sol l1SystemConfigAddress) provider).2 = .error stop →
        (traversal.advanceOrigin (SystemConfig.updateForPipeline sol l1SystemConfigAddress) provider).1 = traversal) ↔
      ∀ origin receipts, traversal.nextOrigin provider = .ok (origin, receipts) →
        KeptUntilRefusal sol l1SystemConfigAddress traversal.systemConfig receipts) := by
  refine ⟨?_, SystemConfig.updateWithReceipts_atomic_iff, L1Traversal.advanceOrigin_unchanged_iff⟩
  intro config' ok
  rw [SystemConfig.updateWithReceipts_eq] at ok
  rcases applyAll_cases (SystemConfigLog.build sol) SystemConfigUpdate.apply config
      (SystemConfig.configLogs l1SystemConfigAddress receipts) with ⟨updates, decodes, ends⟩ | ⟨updates, e, -, ends⟩
  · rw [ends] at ok
    cases ok
    exact ⟨updates, decodes, rfl⟩
  · rw [ends] at ok
    cases ok

end

/-! ## An update and a kind that is not known -/

def solTypes : SolTypes where
  uint64 word := if word.1.take 24 = List.replicate 24 0 then some (.ofNat (ofBigEndian word.1)) else none
  uint256 word := some (.ofNat 256 (ofBigEndian word.1))
  address word :=
    if word.1.take 12 = List.replicate 12 0 then some ⟨word.1.drop 12, by rw [List.length_drop, word.2]⟩ else none

def configContract : Address := ⟨0x13 :: 0x37 :: List.replicate 18 0, rfl⟩

/-- An update of the given kind, with the address `0xbeef`. -/
def configLog (kind : Nat) : Log where
  address := configContract
  topics := [configUpdateTopic, configUpdateEventVersion0, .ofNat kind]
  data := (bigEndian 32 32).1 ++ (bigEndian 32 32).1 ++ (bigEndian 32 0xbeef).1

def configReceipts : List Receipt := [⟨.eip658 true, [configLog 0, configLog 6]⟩]

theorem length_batcherBefore : (List.replicate 20 (0xBA : UInt8)).length = 20 := rfl

def configBefore : SystemConfig :=
  ⟨⟨List.replicate 20 0xBA, length_batcherBefore⟩, 0, 0, 30000000, none, none, none, none, none, none⟩

def configAfter : SystemConfig := { configBefore with batcherAddress := bigEndian 20 0xbeef }

def configOrigin : BlockInfo := ⟨.ofNat 0x11, 1, .ofNat 0x10, 12⟩

def configProvider : L1ChainProvider Receipt where
  blockInfoByNumber _ := .ok configOrigin
  receiptsByHash _ := .ok configReceipts
  getBlockTransactionsByHash _ := .ok []

/-- The batcher of an origin that was refused stays, and a retry starts with it. -/
theorem refused_log_keeps_batcher :
    configBefore.updateWithReceipts solTypes configContract configReceipts =
      (configAfter, .error (.logProcessing (.invalidSystemConfigUpdateType 6))) ∧
    configAfter ≠ configBefore ∧
    (L1Traversal.advanceOrigin (SystemConfig.updateForPipeline solTypes configContract) configProvider
        ⟨some ⟨.ofNat 0x10, 0, .ofNat 0x9, 0⟩, true, configBefore⟩) =
      (⟨some ⟨.ofNat 0x10, 0, .ofNat 0x9, 0⟩, true, configAfter⟩,
        (PipelineError.systemConfigUpdate "Log processing error: Invalid system config update type: 6").crit) ∧
    ¬ ∀ config' e, configBefore.updateWithReceipts solTypes configContract configReceipts = (config', .error e) →
      config' = configBefore := by
  have ends : configBefore.updateWithReceipts solTypes configContract configReceipts =
      (configAfter, .error (.logProcessing (.invalidSystemConfigUpdateType 6))) := by decide +kernel
  have changed : configAfter ≠ configBefore := by decide +kernel
  refine ⟨ends, changed, by decide +kernel, ?_⟩
  intro atomic
  exact changed (atomic _ _ ends)

end KonaSoon.Derive
