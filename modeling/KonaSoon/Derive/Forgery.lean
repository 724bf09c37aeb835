import KonaSoon.Derive.Attributes
import KonaSoon.Derive.Accepted

namespace KonaSoon.Derive
open Lib Mpt Programs

variable {P F : Type} [NextBatchProvider P] [L2ChainProvider F] {deserialize : BincodeDeserialize}

section

variable {B : Type} [AttributesBuilder B]

/-- Neither the batch that the attributes queue has loaded nor one of those cached before it is forged. -/
def Clean (deserialize : BincodeDeserialize) (queue : AttributesQueue (BatchQueue P F) B) : Prop :=
  CacheClean deserialize queue.prev ∧ ∀ batch, queue.batch = some batch → ¬ Forged deserialize batch.transactions

def Guarded (deserialize : BincodeDeserialize) (queue : AttributesQueue (BatchQueue P F) B) : Call → Prop
  | .nextAttributes parent => queue.batch = none → SearchGuarded deserialize queue.prev parent
  | _ => True

theorem loadBatch_clean {B : Type} {queue : AttributesQueue (BatchQueue P F) B} {parent : L2BlockInfo}
    (clean : Clean deserialize queue) (guarded : Guarded deserialize queue (.nextAttributes parent)) :
    Clean deserialize (queue.loadBatch parent).1 ∧
      ∀ batch, (queue.loadBatch parent).2 = .ok batch → ¬ Forged deserialize batch.transactions := by
  unfold AttributesQueue.loadBatch
  cases pending : queue.batch with
  | some batch =>
      refine ⟨clean, fun batch' loaded => ?_⟩
      cases loaded
      exact clean.2 batch pending
  | none =>
      obtain ⟨cached, returned⟩ := nextBatch_clean clean.1 (guarded pending)
      simp only [AttributesProvider.nextBatch]
      generalize queue.prev.nextBatch parent = result at cached returned
      obtain ⟨prev, e | batch⟩ := result
      · exact ⟨⟨cached, by simp⟩, by simp⟩
      · refine ⟨⟨cached, fun batch' same => ?_⟩, fun batch' loaded => ?_⟩
        · cases same
          exact returned batch rfl
        · cases loaded
          exact returned batch rfl

theorem createNextAttributes_keeps {P : Type} (queue : AttributesQueue P B) (batch : SingleBatch)
    (parent : L2BlockInfo) :
    (queue.createNextAttributes batch parent).1.prev = queue.prev ∧
      (queue.createNextAttributes batch parent).1.batch = queue.batch := by
  unfold AttributesQueue.createNextAttributes
  repeat' split
  all_goals exact ⟨rfl, rfl⟩

theorem nextAttributes_clean {queue : AttributesQueue (BatchQueue P F) B} {parent : L2BlockInfo}
    (clean : Clean deserialize queue) (guarded : Guarded deserialize queue (.nextAttributes parent)) :
    Clean deserialize (queue.nextAttributes parent).1 := by
  obtain ⟨loadedClean, -⟩ := loadBatch_clean clean guarded
  unfold AttributesQueue.nextAttributes
  generalize queue.loadBatch parent = loaded at loadedClean
  obtain ⟨queue', e | batch⟩ := loaded
  · exact loadedClean
  · obtain ⟨prev, pending⟩ := createNextAttributes_keeps queue' batch parent
    simp only
    generalize queue'.createNextAttributes batch parent = created at prev pending
    obtain ⟨queue'', e | attributes⟩ := created
    · exact ⟨prev ▸ loadedClean.1, pending ▸ loadedClean.2⟩
    · exact ⟨prev ▸ loadedClean.1, by simp⟩

theorem call_clean {queue : AttributesQueue (BatchQueue P F) B} (clean : Clean deserialize queue) (call : Call)
    (guarded : Guarded deserialize queue call) : Clean deserialize (queue.call call).1 := by
  cases call with
  | nextAttributes parent => exact nextAttributes_clean clean guarded
  | advanceOrigin => exact clean
  | signal s =>
      have cached : CacheClean deserialize (Stage.signal queue.prev s).1 := signal_clean clean.1
      simp only [AttributesQueue.call, AttributesQueue.signal]
      generalize Stage.signal queue.prev s = result at cached
      obtain ⟨prev, e | ⟨⟩⟩ := result
      · cases s with
        | flushChannel => exact ⟨cached, by simp⟩
        | reset l2SafeHead l1Origin systemConfig => exact ⟨cached, clean.2⟩
        | activation l2SafeHead l1Origin systemConfig => exact ⟨cached, clean.2⟩
      · cases s with
        | flushChannel => exact ⟨cached, by simp⟩
        | reset l2SafeHead l1Origin systemConfig => exact ⟨cached, by simp⟩
        | activation l2SafeHead l1Origin systemConfig => exact ⟨cached, by simp⟩

end

section

variable {L1P L2P Receipt : Type} [ChainProvider L1P Receipt] [SystemConfigProvider L2P]

/-- Attributes that a call returns have the L1 info transaction and the deposits that the builder derives before
the transactions of a batch, and these derived ones are the native transactions among them. -/
def OnlyDerivedNative (deserialize : BincodeDeserialize)
    (queue : AttributesQueue (BatchQueue P F) (StatefulAttributesBuilder L1P L2P Receipt)) (call : Call) : Prop :=
  ∀ returned, (queue.call call).2 = .ok (some returned) →
    ∃ parent batch inputs l1InfoTx, call = .nextAttributes parent ∧ (queue.loadBatch parent).2 = .ok batch ∧
      (queue.builder.epochInputs parent batch.epoch).2 = .ok inputs ∧
      queue.builder.derived.encodedL1InfoTx inputs = .ok l1InfoTx ∧
      returned.attributes.transactions = some (l1InfoTx :: inputs.depositTransactions ++ batch.transactions) ∧
      (l1InfoTx :: inputs.depositTransactions ++ batch.transactions).filter (isNative deserialize) =
        l1InfoTx :: inputs.depositTransactions

theorem loadBatch_builder {P B : Type} [AttributesProvider P] (queue : AttributesQueue P B) (parent : L2BlockInfo) :
    (queue.loadBatch parent).1.builder = queue.builder := by
  unfold AttributesQueue.loadBatch
  repeat' split
  all_goals rfl

theorem nextAttributes_ok {P : Type} [AttributesProvider P]
    {queue : AttributesQueue P (StatefulAttributesBuilder L1P L2P Receipt)} {parent : L2BlockInfo}
    {returned : AttributesWithParent} (returns : (queue.nextAttributes parent).2 = .ok returned) :
    ∃ batch inputs l1InfoTx, (queue.loadBatch parent).2 = .ok batch ∧
      (queue.builder.epochInputs parent batch.epoch).2 = .ok inputs ∧
      queue.builder.derived.encodedL1InfoTx inputs = .ok l1InfoTx ∧
      returned.attributes.transactions = some (l1InfoTx :: inputs.depositTransactions ++ batch.transactions) := by
  have sameBuilder := loadBatch_builder queue parent
  unfold AttributesQueue.nextAttributes at returns
  generalize queue.loadBatch parent = loaded at sameBuilder returns
  obtain ⟨queue', e | batch⟩ := loaded
  · cases returns
  · simp only [AttributesQueue.createNextAttributes, AttributesBuilder.preparePayloadAttributes] at returns sameBuilder
    rw [sameBuilder] at returns
    split at returns
    · cases returns
    · rename_i queue'' attributes creates
      cases returns
      split at creates
      · cases creates
      · split at creates
        · cases creates
        · rename_i after prepared prepares
          obtain ⟨inputs, l1InfoTx, reads, encodes, transactions⟩ :=
            StatefulAttributesBuilder.preparePayloadAttributes_ok prepares
          cases creates
          refine ⟨batch, inputs, l1InfoTx, rfl, by rw [reads], encodes, ?_⟩
          simp only [AttributesQueue.extendAttributes, transactions]

theorem createNextAttributes_derived {P : Type}
    (queue : AttributesQueue P (StatefulAttributesBuilder L1P L2P Receipt)) (batch : SingleBatch) (parent : L2BlockInfo) :
    (queue.createNextAttributes batch parent).1.builder.derived = queue.builder.derived := by
  have derived := queue.builder.preparePayloadAttributes_derived parent batch.epoch
  simp only [AttributesQueue.createNextAttributes, AttributesBuilder.preparePayloadAttributes]
  generalize queue.builder.preparePayloadAttributes parent batch.epoch = result at derived
  obtain ⟨after, e | attributes⟩ := result
  · split
    · rfl
    · exact derived
  · split
    · rfl
    · exact derived

theorem call_derived {P : Type} [AttributesProvider P]
    (queue : AttributesQueue P (StatefulAttributesBuilder L1P L2P Receipt)) (call : Call) :
    (queue.call call).1.builder.derived = queue.builder.derived := by
  cases call with
  | nextAttributes parent =>
      have sameBuilder := loadBatch_builder queue parent
      simp only [AttributesQueue.call, AttributesQueue.nextAttributes]
      generalize queue.loadBatch parent = loaded at sameBuilder
      obtain ⟨queue', e | batch⟩ := loaded
      · exact congrArg _ sameBuilder
      · have derived := (createNextAttributes_derived queue' batch parent).trans (congrArg _ sameBuilder)
        simp only
        generalize queue'.createNextAttributes batch parent = created at derived
        obtain ⟨queue'', e | attributes⟩ := created
        · exact derived
        · exact derived
  | advanceOrigin => rfl
  | signal s =>
      simp only [AttributesQueue.call, AttributesQueue.signal]
      generalize Stage.signal queue.prev s = result
      obtain ⟨prev, e | ⟨⟩⟩ := result
      · cases s <;> rfl
      · cases s <;> rfl

theorem filter_native {derived batch : List (List UInt8)} (native : ∀ tx ∈ derived, isNative deserialize tx)
    (unforged : ¬ Forged deserialize batch) : (derived ++ batch).filter (isNative deserialize) = derived := by
  have none : batch.filter (isNative deserialize) = [] :=
    List.filter_eq_nil_iff.mpr fun tx mem isNative => unforged ⟨tx, mem, isNative⟩
  rw [List.filter_append, List.filter_eq_self.mpr native, none, List.append_nil]

theorem call_onlyDerivedNative
    {queue : AttributesQueue (BatchQueue P F) (StatefulAttributesBuilder L1P L2P Receipt)}
    (clean : Clean deserialize queue) (lawful : queue.builder.derived.Lawful deserialize) (call : Call)
    (guarded : Guarded deserialize queue call) : OnlyDerivedNative deserialize queue call := by
  intro returned returns
  cases call with
  | nextAttributes parent =>
      have succeeds : (queue.nextAttributes parent).2 = .ok returned := by
        simp only [AttributesQueue.call] at returns
        generalize queue.nextAttributes parent = result at returns
        obtain ⟨after, e | attributes⟩ := result
        · cases returns
        · cases returns
          rfl
      obtain ⟨batch, inputs, l1InfoTx, loads, reads, encodes, transactions⟩ := nextAttributes_ok succeeds
      have native : ∀ tx ∈ l1InfoTx :: inputs.depositTransactions, isNative deserialize tx :=
        List.forall_mem_cons.mpr ⟨encodedL1InfoTx_native lawful encodes, epochInputs_native lawful reads⟩
      exact ⟨parent, batch, inputs, l1InfoTx, rfl, loads, reads, encodes, transactions,
        filter_native native ((loadBatch_clean clean guarded).2 batch loads)⟩
  | advanceOrigin =>
      simp only [AttributesQueue.call] at returns
      generalize queue.advanceOrigin = result at returns
      obtain ⟨after, e | ⟨⟩⟩ := result
      · cases returns
      · cases returns
  | signal s =>
      simp only [AttributesQueue.call] at returns
      generalize queue.signal s = result at returns
      obtain ⟨after, e | ⟨⟩⟩ := result
      · cases returns
      · cases returns

/-- Exactly the rules that a batch meets decide whether a forged deposit in it is accepted, and a pipeline that
examines no forged batch that meets them keeps forged deposits out of every block. -/
theorem forgedDeposits_excluded_iff (deserialize : BincodeDeserialize) :
    (∀ (data : BatchWithInclusionBlock) (cfg : SoonRollupConfig) (l1Blocks : List BlockInfo) (l2SafeHead : L2BlockInfo)
      (fetcher : F),
      (Forged deserialize data.batch.transactions → (data.checkBatch cfg l1Blocks l2SafeHead fetcher).2 ≠ some .accept) ↔
        (Forged deserialize data.batch.transactions → ¬ data.MeetsRules cfg l1Blocks l2SafeHead fetcher)) ∧
    ∀ (cfg : SoonRollupConfig) (prev : P) (fetcher : F) (builder : StatefulAttributesBuilder L1P L2P Receipt)
      (calls : List Call), builder.derived.Lawful deserialize →
      Along AttributesQueue.call (Guarded deserialize) (.new (.new cfg prev fetcher) builder) calls →
      Along AttributesQueue.call (OnlyDerivedNative deserialize)
        (.new (BatchQueue.new cfg prev fetcher) builder) calls := by
  constructor
  · intro data cfg l1Blocks l2SafeHead fetcher
    rw [ne_eq, data.checkBatch_accept_iff]
  · intro cfg prev fetcher builder calls lawful guarded
    -- Nothing native is cached or loaded; the builder keeps the libraries it was made with.
    let invariant (queue : AttributesQueue (BatchQueue P F) (StatefulAttributesBuilder L1P L2P Receipt)) : Prop :=
      Clean deserialize queue ∧ queue.builder.derived.Lawful deserialize
    have initial : invariant (.new (.new cfg prev fetcher) builder) :=
      ⟨⟨nofun, nofun⟩, lawful⟩
    refine along_of_invariant invariant (fun queue call holds guarded => ⟨?_, ?_⟩) ?_ initial guarded
    · exact call_clean holds.1 call guarded
    · rw [call_derived]
      exact holds.2
    · exact fun queue call holds guarded => call_onlyDerivedNative holds.1 holds.2 call guarded

end

def messageMetas (instructions : List Instruction) (payer : Option Pubkey) : List AccountMeta :=
  let metas := instructions.flatMap fun ix => .newReadonly ix.programId false :: ix.accounts
  let kind (account : AccountMeta) : Nat := (if account.isSigner then 0 else 2) + if account.isWritable then 0 else 1
  let merged := ((metas.map (·.pubkey)).dedup.filter (some · ≠ payer)).map fun key => (⟨key,
    metas.any fun account => account.pubkey = key && account.isSigner,
    metas.any fun account => account.pubkey = key && account.isWritable⟩ : AccountMeta)
  merged.insertionSort fun a b => kind a < kind b ∨ kind a = kind b ∧ a.pubkey.1 ≤ b.pubkey.1

def compileMessage (instructions : List Instruction) (payer : Option Pubkey) (blockhash : B256) : VersionedMessage :=
  let metas := messageMetas instructions payer
  let keys := payer.toList ++ metas.map (·.pubkey)
  { numRequiredSignatures := .ofNat (payer.toList.length + metas.countP (·.isSigner))
    numReadonlySignedAccounts := .ofNat (metas.countP fun account => account.isSigner && !account.isWritable)
    numReadonlyUnsignedAccounts := .ofNat (metas.countP fun account => !account.isSigner && !account.isWritable)
    staticAccountKeys := keys
    recentBlockhash := blockhash
    instructions := instructions.map fun ix =>
      ⟨.ofNat (keys.idxOf ix.programId), ix.accounts.map fun account => .ofNat (keys.idxOf account.pubkey), ix.data⟩
    addressTableLookups := none }

theorem mem_messageKeys {instructions : List Instruction} {ix : Instruction} (mem : ix ∈ instructions)
    (payer : Option Pubkey) :
    ix.programId ∈ payer.toList ++ (messageMetas instructions payer).map (·.pubkey) := by
  by_cases paid : some ix.programId = payer
  · subst paid
    simp
  · have listed : ix.programId ∈ (instructions.flatMap fun ix =>
        (.newReadonly ix.programId false :: ix.accounts : List AccountMeta)).map (·.pubkey) :=
      List.mem_map.mpr ⟨_, List.mem_flatMap.mpr ⟨ix, mem, List.mem_cons_self⟩, rfl⟩
    refine List.mem_append_right _ (List.mem_map.mpr ⟨_, (List.mem_insertionSort _).mpr (List.mem_map.mpr
      ⟨ix.programId, List.mem_filter.mpr ⟨List.mem_dedup.mpr listed, ?_⟩, rfl⟩), rfl⟩)
    simpa using paid

theorem length_messageKeys_le (instructions : List Instruction) (payer : Option Pubkey) :
    (payer.toList ++ (messageMetas instructions payer).map (·.pubkey)).length ≤
      (instructions.flatMap fun ix => ix.programId :: ix.accounts.map (·.pubkey)).length + 1 := by
  have one : payer.toList.length ≤ 1 := by cases payer <;> simp
  have listed : ((instructions.flatMap fun ix =>
      (.newReadonly ix.programId false :: ix.accounts : List AccountMeta)).map (·.pubkey)).length =
      (instructions.flatMap fun ix => ix.programId :: ix.accounts.map (·.pubkey)).length := by
    simp [List.length_flatMap]
  have fewer : (messageMetas instructions payer).length ≤ ((instructions.flatMap fun ix =>
      (.newReadonly ix.programId false :: ix.accounts : List AccountMeta)).map (·.pubkey)).length := by
    simp only [messageMetas, List.length_insertionSort, List.length_map]
    refine (List.length_filter_le _ _).trans ((List.dedup_sublist _).length_le.trans ?_)
    simp
  simp only [List.length_append, List.length_map] at listed fewer ⊢
  omega

theorem compileMessage_calls (findProgramAddress : FindProgramAddress)
    (sanitize : VersionedTransaction → Except String Unit) :
    Solana.CompilesCalls ⟨findProgramAddress, compileMessage, sanitize⟩ := by
  intro instructions payer blockhash small
  simp only [VersionedMessage.calls, compileMessage, List.map_map]
  refine List.map_congr_left fun ix mem => ?_
  have key := mem_messageKeys mem payer
  have short := length_messageKeys_le instructions payer
  have index := List.idxOf_lt_length_of_mem key
  have fits : (UInt8.ofNat (List.idxOf ix.programId
      (payer.toList ++ (messageMetas instructions payer).map (·.pubkey)))).toNat =
      List.idxOf ix.programId (payer.toList ++ (messageMetas instructions payer).map (·.pubkey)) :=
    UInt8.toNat_ofNat_of_lt' (by rw [UInt8.size]; omega)
  simp only [Function.comp_apply, fits, List.getElem?_idxOf key]

def encodeShortVec {α : Type} (encode : α → List UInt8) (items : List α) : List UInt8 :=
  (if items.length < 128 then [.ofNat items.length] else [.ofNat (items.length % 128 + 128), .ofNat (items.length / 128)]) ++
    items.flatMap encode

def encodeTransaction (tx : VersionedTransaction) : List UInt8 :=
  encodeShortVec id tx.signatures ++
    [tx.message.numRequiredSignatures, tx.message.numReadonlySignedAccounts, tx.message.numReadonlyUnsignedAccounts] ++
    encodeShortVec (·.1) tx.message.staticAccountKeys ++ tx.message.recentBlockhash.1 ++
    encodeShortVec (fun ix => ix.programIdIndex :: encodeShortVec ([·]) ix.accounts ++ encodeShortVec ([·]) ix.data)
      tx.message.instructions

def encodeL2Transaction : L2Transaction → List UInt8
  | .head length tx => toLeBytes 4 0 ++ packU64 length ++ encodeTransaction tx
  | .body tx => toLeBytes 4 1 ++ encodeTransaction tx

def readOneOf (txs : List L2Transaction) : BincodeDeserialize := fun bytes => txs.find? (encodeL2Transaction · = bytes)

def writeOneOf (txs : List L2Transaction) (tx : L2Transaction) : Except String (List UInt8) :=
  if tx ∈ txs then .ok (encodeL2Transaction tx) else .error "the size limit has been reached"

structure Loaded where
  origin : BlockInfo
  batches : List Batch

instance : NextBatchProvider Loaded where
  origin stage := some stage.origin
  advanceOrigin stage := (stage, PipelineError.eof.temp)
  signal stage _ := (stage, .ok ())
  nextBatch stage _ _ := match stage.batches with
    | [] => (stage, PipelineError.eof.temp)
    | batch :: batches => ({ stage with batches }, .ok batch)
  flush stage := stage

structure Chains where
  l1Block : BlockInfo
  config : SystemConfig

instance : ChainProvider Chains Unit where
  blockInfoByHash chains _ := (chains, .ok chains.l1Block)
  receiptsByHash chains _ := (chains, .ok [])

instance : SystemConfigProvider Chains where
  systemConfigByNumber chains _ := (chains, .ok chains.config)

instance : L2ChainProvider Chains where
  l2BlockInfoByNumber chains _ := (chains, .error "block not found")

namespace Pipeline

def l1Block : BlockInfo := ⟨.ofNat 0x11, 10, .ofNat 0x10, 100⟩

def safeHead : L2BlockInfo := ⟨⟨.ofNat 0x21, 5, .ofNat 0x20, 100⟩, l1Block.id, 0⟩

def cfg : SoonRollupConfig := ⟨600, 3600, 2⟩

def chains : Chains := ⟨l1Block, ⟨⟨List.replicate 20 0xBA, rfl⟩, 0, 0, 30000000, none, none, none, none, none, none⟩⟩

def findProgramAddress : FindProgramAddress := fun _ program =>
  if program = l1BlockInfoId then .ofNat 0x42456ac787b7a7bdb992a880ad171cd0d5c66b5b9a9988e8d77e92777b778563
  else .ofNat 0x9c794548209631e043361ffd54dd9509b4764017b6d3d68e03c220adf6168e53

def infoHash : B256 := .ofNat 0x11ca45117a14e8d98881814d93edb6ec32b36f04f44e5204e260c9e6b76806d8

def prim : Primitives :=
  let depositIdHash : B256 := .ofNat 0xc8d233a0ebef7c9a17d2b0b17eea62cca39002a128ccf419119b4a1a1f1e7428
  .tabulated [(l1Block.hash.1 ++ List.replicate 24 0 ++ toBeBytes 1, depositIdHash),
    (List.replicate 24 0 ++ toBeBytes 1 ++ depositIdHash.1, infoHash)]

def infoTx : L2Transaction :=
  let ix := updateL1BlockInfo findProgramAddress 10 100 0 l1Block.hash 1
    ⟨List.replicate 20 0xBA ++ List.replicate 12 0, rfl⟩ 0 0 0 true
  .head 1 ⟨[hashToSignature infoHash], compileMessage [ix] (some noSigTxPayer) infoHash⟩

def user : Pubkey := .ofNat 0xA1

def transferTx : L2Transaction :=
  let ix : Instruction := ⟨systemProgramId, [.new user true, .new (.ofNat 0xB2) false], toLeBytes 4 2 ++ packU64 1000⟩
  .head 1 ⟨[List.replicate 64 7], compileMessage [ix] (some user) (.ofNat 0x33)⟩

def forgedTx : L2Transaction :=
  let deposit := depositEth findProgramAddress ⟨List.replicate 20 1, rfl⟩ ⟨List.replicate 20 0, length_zeroAddress⟩ (10 ^ 18) (10 ^ 18) 0 false
    10 l1Block.hash 0 ⟨List.replicate 20 2, rfl⟩ user (10 ^ 18) (.ofNat 0)
  .body ⟨[List.replicate 64 0], compileMessage deposit.toList (some noSigTxPayer) (.ofNat 0)⟩

def known : List L2Transaction := [infoTx, transferTx, forgedTx]

def derived : DerivedTransactions Unit where
  prim
  solana := ⟨findProgramAddress, compileMessage, fun _ => .ok ()⟩
  deriveDeposits _ _ _ := some []
  updateWithReceipts config _ := .ok config
  bincodeSerialize := writeOneOf known

def single (tx : L2Transaction) : SingleBatch :=
  ⟨safeHead.blockInfo.hash, 10, l1Block.hash, 102, [encodeL2Transaction tx]⟩

def span (tx : L2Transaction) : SpanBatch :=
  ⟨⟨safeHead.blockInfo.hash.1.take 20, rfl⟩, ⟨l1Block.hash.1.take 20, rfl⟩, [⟨10, 102, [encodeL2Transaction tx]⟩]⟩

def loaded (batch : Batch) : AttributesQueue (BatchQueue Loaded Chains) (StatefulAttributesBuilder Chains Chains Unit) :=
  .new (.new cfg ⟨l1Block, [batch]⟩ chains) ⟨cfg, derived, chains, chains⟩

def attributes (tx : L2Transaction) : AttributesWithParent :=
  ⟨⟨102, some [encodeL2Transaction infoTx, encodeL2Transaction tx], some true, some 30000000⟩, safeHead, true⟩

theorem derived_lawful : derived.Lawful (readOneOf known) where
  roundTrip tx bytes writes := by
    have reads : ∀ tx ∈ known, readOneOf known (encodeL2Transaction tx) = some tx := by decide +kernel
    simp only [derived, writeOneOf] at writes
    split at writes
    · rename_i mem
      cases writes
      exact reads tx mem
    · cases writes
  compiles := compileMessage_calls _ _

end Pipeline

section

open Pipeline

/-- A forged deposit in either kind of batch is accepted and comes after the L1 info transaction of the block. -/
theorem checkBatch_accepts_forged_deposit :
    (Forged (readOneOf known) (single forgedTx).transactions ∧
      (single forgedTx).checkBatch cfg [l1Block] safeHead l1Block = .accept ∧
      ((loaded (.single (single forgedTx))).call (.nextAttributes safeHead)).2 = .ok (some (attributes forgedTx))) ∧
    Forged (readOneOf known) (Batch.span (span forgedTx)).transactions ∧
      ((span forgedTx).checkBatch cfg [l1Block] safeHead l1Block chains).2 = some .accept ∧
      ((loaded (.span (span forgedTx))).call (.nextAttributes safeHead)).2 = .ok (some (attributes forgedTx)) := by
  decide +kernel

theorem forgedDeposits_excluded_transfer :
    ((loaded (.single (single transferTx))).call (.nextAttributes safeHead)).2 = .ok (some (attributes transferTx)) ∧
    Along AttributesQueue.call (OnlyDerivedNative (readOneOf known)) (loaded (.single (single transferTx)))
      [.nextAttributes safeHead] := by
  have unforged : ∀ entry ∈ examined ((loaded (.single (single transferTx))).prev.takeIn safeHead).1.cfg
      ((loaded (.single (single transferTx))).prev.takeIn safeHead).1.l1Blocks safeHead
      ((loaded (.single (single transferTx))).prev.takeIn safeHead).1.fetcher
      ((loaded (.single (single transferTx))).prev.takeIn safeHead).1.batches,
      ¬ Forged (readOneOf known) entry.1.batch.transactions := by decide +kernel
  have guarded : Guarded (readOneOf known) (loaded (.single (single transferTx))) (.nextAttributes safeHead) := by
    intro _ _ taken outOfData takes entry mem forged
    rw [takes] at unforged
    exact absurd forged (unforged entry mem)
  have run := (forgedDeposits_excluded_iff (readOneOf known)).2 cfg
    (⟨l1Block, [.single (single transferTx)]⟩ : Loaded) chains ⟨cfg, derived, chains, chains⟩ [.nextAttributes safeHead]
    derived_lawful ⟨guarded, trivial⟩
  exact ⟨by decide +kernel, run⟩

end

end KonaSoon.Derive
