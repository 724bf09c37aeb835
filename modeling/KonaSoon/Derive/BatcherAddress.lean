import KonaSoon.Derive.Forgery

/-!
# The batcher address in a block

The configuration of an L2 block is read back from its first transaction: by the provider of the client program
(`proof/src/l2/chain_provider.rs`) and by the one that asks a node (`l2provider/src/chain_provider.rs`).
-/

namespace KonaSoon.Derive
open Lib Mpt Programs

structure L2Block where
  previousBlockhash : String
  blockhash : String
  parentSlot : UInt64
  blockTime : UInt64
  blockHeight : UInt64
  transactions : List L2Transaction
deriving DecidableEq, Repr

inductive OracleProviderError where
  | fetchBlockInfoFailed (text : String)
  | preimage (text : String)
  | rlp (text : String)
deriving DecidableEq, Repr

inductive L2ChainProviderError where
  | fetchBlockInfoFailed (text : String)
  | fetchBlockWithEntriesFailed (text : String)
deriving DecidableEq, Repr

structure OracleL2ChainProvider where
  getBlockByNumber : UInt64 → Except OracleProviderError L2Block

structure L2BlockFetcher where
  getBlockByNumber : UInt64 → Except L2ChainProviderError L2Block

def l1BlockInfoOf {E : Type} (fetchBlockInfoFailed : String → E) (block : L2Block) : Except E L1BlockInfoInstruction :=
  match block.transactions.head? with
  | none => .error (fetchBlockInfoFailed "No l1 block info tx found")
  | some tx =>
      match tx.transaction.message.instructions.head? with
      | none => .error (fetchBlockInfoFailed "No instruction found")
      | some ix =>
          match L1BlockInfoInstruction.unpack ix.data with
          -- `InvalidInstruction` is the first error of the program.
          | none => .error (fetchBlockInfoFailed "Custom program error: 0x0")
          | some instruction => .ok instruction

def SystemConfig.ofBatcherAddress (batcherAddress : Address) : SystemConfig :=
  ⟨batcherAddress, 0, 0, 0, none, none, none, none, none, none⟩

namespace OracleL2ChainProvider

def getL1BlockInfo (block : L2Block) : Except OracleProviderError L1BlockInfoInstruction :=
  l1BlockInfoOf .fetchBlockInfoFailed block

def batcherAddress (batcherHash : B256) : Address :=
  let addressValue : BitVec 160 := .ofNat 160 (ofBigEndian (batcherHash.1.drop 12))
  bigEndian 20 addressValue.toNat

def systemConfigByNumber (provider : OracleL2ChainProvider) (number : UInt64) :
    Except OracleProviderError SystemConfig := do
  let block ← provider.getBlockByNumber number
  match ← getL1BlockInfo block with
  | .updateL1BlockInfo _ _ _ _ _ batcherHash _ _ _ _ => return .ofBatcherAddress (batcherAddress batcherHash)
  | .createL1BlockInfoAccount => .error (.fetchBlockInfoFailed "Invalid l1 block info instruction")

end OracleL2ChainProvider

namespace L2BlockFetcher

def getL1BlockInfo (block : L2Block) : Except L2ChainProviderError L1BlockInfoInstruction :=
  l1BlockInfoOf .fetchBlockInfoFailed block

def batcherAddress (batcherHash : B256) : Address :=
  let addressValue : BitVec 160 := .ofNat 160 (fromLeBytes (batcherHash.1.take 20))
  bigEndian 20 addressValue.toNat

def systemConfigByNumber (provider : L2BlockFetcher) (number : UInt64) : Except L2ChainProviderError SystemConfig := do
  let block ← provider.getBlockByNumber number
  match ← getL1BlockInfo block with
  | .updateL1BlockInfo _ _ _ _ _ batcherHash _ _ _ _ => return .ofBatcherAddress (batcherAddress batcherHash)
  | .createL1BlockInfoAccount => .error (.fetchBlockInfoFailed "Invalid l1 block info instruction")

end L2BlockFetcher

/-! ## The word that holds the address -/

def batcherWord (address : Address) : B256 := ⟨toLeBytes 32 (addressToHash address).toNat, length_toLeBytes ..⟩

theorem batcherWord_bytes (address : Address) : (batcherWord address).1 = address.1.reverse ++ List.replicate 12 0 := by
  have length : (List.replicate 12 0 ++ address.1).reverse.length = 32 := by simp [address.2]
  have value : (addressToHash address).toNat = fromLeBytes (List.replicate 12 0 ++ address.1).reverse := by
    have bound := fromLeBytes_lt (List.replicate 12 0 ++ address.1).reverse
    rw [length, show (256 : Nat) ^ 32 = 2 ^ 256 by norm_num] at bound
    rw [addressToHash, BitVec.toNat_ofNat, Nat.mod_eq_of_lt bound]
  have written := toLeBytes_fromLeBytes (List.replicate 12 0 ++ address.1).reverse
  rw [length, ← value] at written
  rw [List.reverse_append, List.reverse_replicate] at written
  exact written

theorem bigEndian_ofBigEndian (bytes : FixedBytes 20) :
    bigEndian 20 (BitVec.ofNat 160 (ofBigEndian bytes.1)).toNat = bytes := by
  have length : bytes.1.reverse.length = 20 := by rw [List.length_reverse, bytes.2]
  have bound := fromLeBytes_lt bytes.1.reverse
  have written := toLeBytes_fromLeBytes bytes.1.reverse
  rw [length, show (256 : Nat) ^ 20 = 2 ^ 160 by norm_num] at bound
  rw [length] at written
  apply Subtype.ext
  rw [BitVec.toNat_ofNat, ofBigEndian, Nat.mod_eq_of_lt bound]
  calc (toLeBytes 20 (fromLeBytes bytes.1.reverse)).reverse = bytes.1.reverse.reverse := congrArg List.reverse written
    _ = bytes.1 := List.reverse_reverse bytes.1

theorem L2BlockFetcher.batcherAddress_batcherWord (address : Address) :
    batcherAddress (batcherWord address) = address := by
  have low : (batcherWord address).1.take 20 = address.1.reverse := by
    rw [batcherWord_bytes, List.take_left' (by rw [List.length_reverse, address.2])]
  rw [batcherAddress, low]
  exact bigEndian_ofBigEndian address

theorem OracleL2ChainProvider.batcherAddress_batcherWord (address : Address) :
    (batcherAddress (batcherWord address)).1 = (address.1.take 8).reverse ++ List.replicate 12 0 := by
  have high : (batcherWord address).1.drop 12 = (address.1.take 8).reverse ++ List.replicate 12 0 := by
    rw [batcherWord_bytes, List.drop_append_of_le_length (by rw [List.length_reverse, address.2]; decide),
      List.drop_reverse, address.2]
  have length : ((address.1.take 8).reverse ++ List.replicate 12 0).length = 20 := by simp [address.2]
  rw [batcherAddress, high]
  exact congrArg Subtype.val (bigEndian_ofBigEndian ⟨_, length⟩)

def ReadsBothWays (address : Address) : Prop :=
  (address.1.take 8).reverse = address.1.take 8 ∧ address.1.drop 8 = List.replicate 12 0

instance (address : Address) : Decidable (ReadsBothWays address) := inferInstanceAs (Decidable (_ ∧ _))

theorem OracleL2ChainProvider.batcherAddress_eq_iff (address : Address) :
    batcherAddress (batcherWord address) = address ↔ ReadsBothWays address := by
  have halves : address.1 = address.1.take 8 ++ address.1.drop 8 := (List.take_append_drop 8 address.1).symm
  rw [← Subtype.val_inj, batcherAddress_batcherWord]
  constructor
  · intro same
    obtain ⟨palindrome, zeros⟩ := List.append_inj (same.trans halves) List.length_reverse
    exact ⟨palindrome, zeros.symm⟩
  · rintro ⟨palindrome, zeros⟩
    rw [palindrome, ← zeros, ← halves]

/-! ## From the attributes to the configuration -/

section

variable {Receipt : Type} {derived : DerivedTransactions Receipt} {inputs : EpochInputs} {tx : VersionedTransaction}

theorem l1InfoTx_carries (compiles : derived.solana.CompilesCalls) (creates : derived.l1InfoTx inputs = .ok tx) :
    ∃ ix, tx.message.instructions.head? = some ix ∧ L1BlockInfoInstruction.unpack ix.data = some
      (.updateL1BlockInfo inputs.l1Origin.number inputs.l1Origin.timestamp 0 inputs.l1Origin.hash inputs.sequenceNumber
        (batcherWord inputs.sysConfig.batcherAddress) 0 0 0 true) := by
  obtain ⟨attributes, tried, creates⟩ := bind_eq_ok.mp creates
  cases tried
  obtain ⟨ix, makes, creates⟩ := bind_eq_ok.mp creates
  cases makes
  have calls := sanitizedNativeTransaction_calls compiles (by simp [updateL1BlockInfo]) creates
  obtain ⟨compiled, single, call⟩ := List.map_eq_singleton_iff.mp calls
  refine ⟨compiled, by rw [single]; rfl, ?_⟩
  rw [(Prod.mk.inj call).2]
  exact L1BlockInfoInstruction.unpack_pack (.updateL1BlockInfo inputs.l1Origin.number inputs.l1Origin.timestamp 0
    inputs.l1Origin.hash inputs.sequenceNumber (batcherWord inputs.sysConfig.batcherAddress) 0 0 0 true)

variable {block : L2Block}

theorem l1BlockInfoOf_carries (compiles : derived.solana.CompilesCalls) (creates : derived.l1InfoTx inputs = .ok tx)
    (starts : block.transactions.head?.map L2Transaction.transaction = some tx) {E : Type}
    (fetchBlockInfoFailed : String → E) : l1BlockInfoOf fetchBlockInfoFailed block = .ok
      (.updateL1BlockInfo inputs.l1Origin.number inputs.l1Origin.timestamp 0 inputs.l1Origin.hash inputs.sequenceNumber
        (batcherWord inputs.sysConfig.batcherAddress) 0 0 0 true) := by
  obtain ⟨first, head, rfl⟩ := Option.map_eq_some_iff.mp starts
  obtain ⟨ix, single, unpacks⟩ := l1InfoTx_carries compiles creates
  simp only [l1BlockInfoOf, head, single, unpacks]

/-- The provider that asks a node reads the batcher address that the attributes were built with. The one of the client
program does so for the addresses that read the same from the other end of the word. -/
theorem batcherAddress_survives_iff (compiles : derived.solana.CompilesCalls) (creates : derived.l1InfoTx inputs = .ok tx)
    (starts : block.transactions.head?.map L2Transaction.transaction = some tx) {oracle : OracleL2ChainProvider}
    {fetcher : L2BlockFetcher} {number : UInt64} (served : oracle.getBlockByNumber number = .ok block)
    (fetched : fetcher.getBlockByNumber number = .ok block) :
    fetcher.systemConfigByNumber number = .ok (.ofBatcherAddress inputs.sysConfig.batcherAddress) ∧
    ((fetcher.systemConfigByNumber number = .ok (.ofBatcherAddress inputs.sysConfig.batcherAddress) ∧
        oracle.systemConfigByNumber number = .ok (.ofBatcherAddress inputs.sysConfig.batcherAddress)) ↔
      ReadsBothWays inputs.sysConfig.batcherAddress) ∧
    ((∃ config, fetcher.systemConfigByNumber number = .ok config ∧ oracle.systemConfigByNumber number = .ok config) ↔
      ReadsBothWays inputs.sysConfig.batcherAddress) := by
  have byFetcher : fetcher.systemConfigByNumber number = .ok (.ofBatcherAddress inputs.sysConfig.batcherAddress) := by
    have carried := l1BlockInfoOf_carries compiles creates starts L2ChainProviderError.fetchBlockInfoFailed
    simp only [L2BlockFetcher.systemConfigByNumber, fetched, ok_bind, L2BlockFetcher.getL1BlockInfo, carried,
      L2BlockFetcher.batcherAddress_batcherWord]
    rfl
  have byOracle : oracle.systemConfigByNumber number = .ok (.ofBatcherAddress
      (OracleL2ChainProvider.batcherAddress (batcherWord inputs.sysConfig.batcherAddress))) := by
    have carried := l1BlockInfoOf_carries compiles creates starts OracleProviderError.fetchBlockInfoFailed
    simp only [OracleL2ChainProvider.systemConfigByNumber, served, ok_bind, OracleL2ChainProvider.getL1BlockInfo, carried]
    rfl
  have same : ∀ address address' : Address, SystemConfig.ofBatcherAddress address = .ofBatcherAddress address' ↔
      address = address' := by
    intro address address'
    exact ⟨fun equal => congrArg SystemConfig.batcherAddress equal, fun equal => by rw [equal]⟩
  rw [byFetcher, byOracle]
  refine ⟨rfl, ?_, ?_⟩
  · simp only [Except.ok.injEq, same, OracleL2ChainProvider.batcherAddress_eq_iff, true_and]
  · rw [← OracleL2ChainProvider.batcherAddress_eq_iff, ← same]
    constructor
    · rintro ⟨config, first, second⟩
      cases first
      exact Except.ok.inj second
    · intro agrees
      exact ⟨_, rfl, congrArg Except.ok agrees⟩

end

/-! ## Two addresses -/

namespace Pipeline

def inputsFor (batcherAddress : Address) : EpochInputs := ⟨l1Block, [], .ofBatcherAddress batcherAddress, 1⟩

def infoTxFor (batcherAddress : Address) : VersionedTransaction :=
  let ix := updateL1BlockInfo findProgramAddress 10 100 0 l1Block.hash 1 (batcherWord batcherAddress) 0 0 0 true
  ⟨[hashToSignature infoHash], compileMessage [ix] (some noSigTxPayer) infoHash⟩

def blockFor (batcherAddress : Address) : L2Block :=
  ⟨"11111111111111111111111111111113", "11111111111111111111111111111114", 5, 102, 6,
    [.newFromDerivedTx (infoTxFor batcherAddress)]⟩

def oracleFor (batcherAddress : Address) : OracleL2ChainProvider := ⟨fun _ => .ok (blockFor batcherAddress)⟩

def fetcherFor (batcherAddress : Address) : L2BlockFetcher := ⟨fun _ => .ok (blockFor batcherAddress)⟩

def addressOne : Address := bigEndian 20 1

def mirrored : Address := ⟨[1, 2, 3, 4, 4, 3, 2, 1, 0, 0, 0, 0, 0, 0, 0, 0, 0, 0, 0, 0], rfl⟩

/-- The client program reads the zero address. -/
theorem batcherAddress_lost :
    derived.l1InfoTx (inputsFor addressOne) = .ok (infoTxFor addressOne) ∧
    (fetcherFor addressOne).systemConfigByNumber 6 = .ok (.ofBatcherAddress addressOne) ∧
    (oracleFor addressOne).systemConfigByNumber 6 = .ok (.ofBatcherAddress (bigEndian 20 0)) ∧
    SystemConfig.ofBatcherAddress (bigEndian 20 0) ≠ .ofBatcherAddress addressOne := by
  decide +kernel

theorem batcherAddress_survives_mirrored :
    (fetcherFor mirrored).systemConfigByNumber 6 = .ok (.ofBatcherAddress mirrored) ∧
    (oracleFor mirrored).systemConfigByNumber 6 = .ok (.ofBatcherAddress mirrored) := by
  have creates : derived.l1InfoTx (inputsFor mirrored) = .ok (infoTxFor mirrored) := by decide +kernel
  exact (batcherAddress_survives_iff (compileMessage_calls _ _) creates rfl rfl rfl).2.1.mpr (by decide +kernel)

end Pipeline

end KonaSoon.Derive
