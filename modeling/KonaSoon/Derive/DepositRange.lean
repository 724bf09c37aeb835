import KonaSoon.Derive.SourceHashes
import KonaSoon.Primitives.DepositReads

/-!
# The range of deposits

A log gives the amounts of its deposit as words of 256 bits, and the instruction that is made of the deposit has 128
bits for each. A log that cannot be parsed is passed over, but a deposit whose amounts do not fit stops the attributes
of the block with a critical error.
-/

namespace KonaSoon
open Lib Mpt Programs

theorem mapM_cases {ε α β : Type} (f : α → Except ε β) (xs : List α) :
    ((∀ x ∈ xs, ∃ y, f x = .ok y) ∧ ∃ ys, xs.mapM f = .ok ys) ∨ ∃ x ∈ xs, ∃ e, f x = .error e ∧ xs.mapM f = .error e := by
  induction xs with
  | nil => exact .inl ⟨fun x member => (by cases member), [], rfl⟩
  | cons x xs ih =>
      rw [List.mapM_cons]
      cases first : f x with
      | error e => exact .inr ⟨x, List.mem_cons_self, e, first, rfl⟩
      | ok y =>
          rcases ih with ⟨each, ys, maps⟩ | ⟨x', member, e, fails, stops⟩
          · rw [maps]
            refine .inl ⟨?_, y :: ys, rfl⟩
            intro other member
            rcases List.mem_cons.mp member with rfl | member
            · exact ⟨y, first⟩
            · exact each other member
          · rw [stops]
            exact .inr ⟨x', List.mem_cons_of_mem x member, e, fails, rfl⟩

/-! ## One deposit -/

def UserDeposited.InRange (deposit : UserDeposited) : Prop :=
  match deposit.depositType with
  | .eth data => deposit.mint.toNat < 2 ^ 128 ∧ data.amount.toNat < 2 ^ 128
  | .erc20 data => data.amount.toNat < 2 ^ 128

def UserDeposited.Padded (deposit : UserDeposited) : Prop :=
  ∀ data, deposit.depositType = .eth data → data.extraData.length = 32

theorem tryU128_cases (value : BitVec 256) (e : DepositError) :
    (value.toNat < 2 ^ 128 ∧ ∃ narrow, tryU128 value e = .ok narrow) ∨
      ¬ value.toNat < 2 ^ 128 ∧ tryU128 value e = .error (.error e) := by
  by_cases fits : value.toNat < 2 ^ 128
  · exact .inl ⟨fits, _, if_pos fits⟩
  · exact .inr ⟨fits, if_neg fits⟩

variable {solana : Solana} {prim : Primitives} {deposit : UserDeposited}

theorem UserDeposited.instruction_cases (solana : Solana) (padded : deposit.Padded) :
    (deposit.InRange ∧ ∃ ix, deposit.instruction solana = .ok ix) ∨
      ¬ deposit.InRange ∧ ∃ text, deposit.instruction solana = .error (.error (.parseDepositTxError text)) := by
  obtain ⟨bridgeSender, mint, gas, isCreation, l1BlockNum, l1BlockHash, logIndex, type⟩ := deposit
  cases type with
  | eth data =>
      have size : data.extraData.length = 32 := padded data rfl
      rcases tryU128_cases mint (.parseDepositTxError "Invalid mint") with ⟨mintFits, mint', mintOk⟩ | ⟨large, fails⟩
      · rcases tryU128_cases data.amount (.parseDepositTxError "Invalid amount") with ⟨fits, amount, ok⟩ | ⟨large, fails⟩
        · refine .inl ⟨⟨mintFits, fits⟩, ?_⟩
          simp only [instruction, mintOk, ok, ok_bind, tryBytes32, dif_pos size]
          exact ⟨_, rfl⟩
        · refine .inr ⟨fun both => large both.2, "Invalid amount", ?_⟩
          simp only [instruction, mintOk, fails, ok_bind]
          rfl
      · refine .inr ⟨fun both => large both.1, "Invalid mint", ?_⟩
        simp only [instruction, fails]
        rfl
  | erc20 data =>
      rcases tryU128_cases data.amount (.parseDepositTxError "Invalid amount") with ⟨fits, amount, ok⟩ | ⟨large, fails⟩
      · refine .inl ⟨fits, ?_⟩
        simp only [instruction, ok, ok_bind]
        exact ⟨_, rfl⟩
      · refine .inr ⟨large, "Invalid amount", ?_⟩
        simp only [instruction, fails]
        rfl

/-! ## The deposits of a block -/

variable {contracts : DepositContracts} {l1BlockNum : UInt64} {l1BlockHash : B256}

theorem IsDeposit.padded {index : UInt64} {log : Log} (isDeposit : IsDeposit contracts l1BlockNum l1BlockHash index log deposit) :
    deposit.Padded := by
  intro data type
  have call := isDeposit.call
  rw [type] at call
  cases call with
  | eth _ call =>
      rw [call.extraData, List.length_take, List.length_append, List.length_replicate]
      exact Nat.min_eq_left (Nat.le_add_left 32 _)

theorem mem_depositsFrom_iff {start : Nat} {logs : List Log} {deposits : List UserDeposited}
    (derives : depositsFrom prim contracts l1BlockNum l1BlockHash (UInt64.ofNat start) logs = some deposits) :
    deposit ∈ deposits ↔ ∃ entry ∈ logs.zipIdx start, AnnouncesDeposit prim contracts entry.1 ∧
      IsDeposit contracts l1BlockNum l1BlockHash (UInt64.ofNat entry.2) entry.1 deposit := by
  induction logs generalizing start deposits with
  | nil =>
      cases derives
      exact ⟨fun member => (by cases member), fun ⟨_, member, _⟩ => (by cases member)⟩
  | cons log logs ih =>
      have next : UInt64.ofNat start + 1 = UInt64.ofNat (start + 1) := by simp
      simp only [depositsFrom, Option.bind_eq_bind, Option.bind_eq_some_iff, next] at derives
      obtain ⟨answer, first, rest, derives, made⟩ := derives
      cases made
      rw [List.mem_append, ih derives, List.zipIdx_cons, List.exists_mem_cons_iff]
      apply or_congr_left
      rw [Option.mem_toList]
      rcases @depositOfLog_cases contracts l1BlockNum l1BlockHash prim start log with ⟨found, ok, exact_, -⟩ | ⟨stops, -⟩
      · cases first.symm.trans ok
        exact exact_ deposit
      · rw [stops] at first
        cases first

def DepositsInRange (prim : Primitives) (contracts : DepositContracts) (l1BlockNum : UInt64) (l1BlockHash : B256)
    (receipts : List Receipt) : Prop :=
  ∀ entry ∈ (countedLogs receipts).zipIdx, AnnouncesDeposit prim contracts entry.1 →
    ∀ deposit, IsDeposit contracts l1BlockNum l1BlockHash (UInt64.ofNat entry.2) entry.1 deposit → deposit.InRange

theorem depositsInRange_iff {receipts : List Receipt} {deposits : List UserDeposited}
    (derives : deriveDeposits prim contracts l1BlockNum l1BlockHash receipts = some deposits) :
    DepositsInRange prim contracts l1BlockNum l1BlockHash receipts ↔ ∀ deposit ∈ deposits, deposit.InRange := by
  have members (deposit : UserDeposited) := @mem_depositsFrom_iff prim deposit contracts l1BlockNum l1BlockHash 0
    (countedLogs receipts) deposits derives
  constructor
  · intro inRange deposit member
    obtain ⟨entry, inside, announces, isDeposit⟩ := (members deposit).mp member
    exact inRange entry inside announces deposit isDeposit
  · intro inRange entry inside announces deposit isDeposit
    exact inRange deposit ((members deposit).mpr ⟨entry, inside, announces, isDeposit⟩)

theorem padded_of_mem {receipts : List Receipt} {deposits : List UserDeposited}
    (derives : deriveDeposits prim contracts l1BlockNum l1BlockHash receipts = some deposits) (member : deposit ∈ deposits) :
    deposit.Padded := by
  obtain ⟨entry, -, -, isDeposit⟩ := (@mem_depositsFrom_iff prim deposit contracts l1BlockNum l1BlockHash 0
    (countedLogs receipts) deposits derives).mp member
  exact isDeposit.padded

end KonaSoon

namespace KonaSoon.Derive
open Lib Mpt Programs

/-- What the libraries promise: of the instruction of a deposit a transaction is made, and it is serialized. -/
def DerivedTransactions.Constructs (derived : DerivedTransactions Receipt) : Prop :=
  ∀ (deposit : UserDeposited) (ix : Instruction), deposit.instruction derived.solana = .ok ix →
    ∀ hash, ∃ tx bytes, sanitizedNativeTransaction derived.solana ix hash = .ok tx ∧
      derived.bincodeSerialize (.newFromDerivedTx tx) = .ok bytes

section

variable {derived : DerivedTransactions Receipt} {contracts : DepositContracts}

theorem encodedDepositTx_cases (constructs : derived.Constructs) {deposit : UserDeposited} (padded : deposit.Padded) :
    (deposit.InRange ∧ ∃ bytes, derived.encodedDepositTx deposit = .ok bytes) ∨
      ¬ deposit.InRange ∧
        ∃ text, derived.encodedDepositTx deposit = .error (.error (.depositError (.parseDepositTxError text))) := by
  rcases deposit.instruction_cases derived.solana padded with ⟨inRange, ix, made⟩ | ⟨large, text, fails⟩
  · obtain ⟨tx, bytes, creates, serializes⟩ := constructs deposit ix made (deposit.sourceHash derived.prim)
    have sanitized : deposit.toSanitizedTransaction derived.solana derived.prim = .ok tx := by
      rw [UserDeposited.toSanitizedTransaction, made, ok_bind, creates]
    refine .inl ⟨inRange, bytes, ?_⟩
    simp only [DerivedTransactions.encodedDepositTx, sanitized, DerivedTransactions.sanitizedDerivedTxToBytes, serializes]
  · have stops : deposit.toSanitizedTransaction derived.solana derived.prim = .error (.error (.parseDepositTxError text)) := by
      rw [UserDeposited.toSanitizedTransaction, fails]
      rfl
    refine .inr ⟨large, text, ?_⟩
    simp only [DerivedTransactions.encodedDepositTx, stops]
    rfl

theorem deriveSanitizedDepositTx_cases (reads : derived.deriveDeposits = deriveDeposits derived.prim contracts)
    (constructs : derived.Constructs) {l1BlockNum : UInt64} {l1BlockHash : B256} {receipts : List Receipt}
    {deposits : List UserDeposited}
    (derives : deriveDeposits derived.prim contracts l1BlockNum l1BlockHash receipts = some deposits) :
    (DepositsInRange derived.prim contracts l1BlockNum l1BlockHash receipts ∧
      ∃ txs, derived.deriveSanitizedDepositTx l1BlockNum l1BlockHash receipts = .ok txs) ∨
    ¬ DepositsInRange derived.prim contracts l1BlockNum l1BlockHash receipts ∧
      ∃ text, derived.deriveSanitizedDepositTx l1BlockNum l1BlockHash receipts =
        .error (.error (.depositError (.parseDepositTxError text))) := by
  have encodes : derived.deriveSanitizedDepositTx l1BlockNum l1BlockHash receipts =
      deposits.mapM derived.encodedDepositTx := by
    rw [DerivedTransactions.deriveSanitizedDepositTx, reads, derives]
    rfl
  rw [depositsInRange_iff derives, encodes]
  rcases mapM_cases derived.encodedDepositTx deposits with ⟨each, txs, maps⟩ | ⟨deposit, member, e, fails, stops⟩
  · refine .inl ⟨?_, txs, maps⟩
    intro deposit member
    obtain ⟨bytes, ok⟩ := each deposit member
    rcases encodedDepositTx_cases constructs (padded_of_mem derives member) with ⟨inRange, -⟩ | ⟨-, text, fails⟩
    · exact inRange
    · rw [ok] at fails
      cases fails
  · rcases encodedDepositTx_cases constructs (padded_of_mem derives member) with ⟨-, bytes, ok⟩ | ⟨large, text, fails'⟩
    · rw [ok] at fails
      cases fails
    · refine .inr ⟨fun all => large (all deposit member), text, ?_⟩
      cases fails.symm.trans fails'
      exact stops

end

/-! ## The attributes of a block -/

variable {L1P L2P : Type} [ChainProvider L1P Receipt] [SystemConfigProvider L2P]

namespace StatefulAttributesBuilder

structure FetchesReceipts (builder : StatefulAttributesBuilder L1P L2P Receipt) (l2Parent : L2BlockInfo)
    (epoch : BlockNumHash) (receipts : List Receipt) : Prop where
  differs : l2Parent.l1Origin.number ≠ epoch.number
  config : ∃ sysConfig,
    (SystemConfigProvider.systemConfigByNumber builder.configFetcher l2Parent.blockInfo.number).2 = .ok sysConfig
  info : ∃ l1Origin, (ChainProvider.blockInfoByHash Receipt builder.receiptsFetcher epoch.hash).2 = .ok l1Origin ∧
    l2Parent.l1Origin.hash = l1Origin.parentHash
  fetched : (@ChainProvider.receiptsByHash L1P Receipt _
    (ChainProvider.blockInfoByHash Receipt builder.receiptsFetcher epoch.hash).1 epoch.hash).2 = .ok receipts

variable {builder : StatefulAttributesBuilder L1P L2P Receipt} {l2Parent : L2BlockInfo} {epoch : BlockNumHash}
  {receipts : List Receipt}

theorem epochInputs_cases (fetches : builder.FetchesReceipts l2Parent epoch receipts) :
    (∃ e, builder.derived.deriveSanitizedDepositTx epoch.number epoch.hash receipts = .error e ∧
      (builder.epochInputs l2Parent epoch).2 = .error (e.map fun e => .critical (.badEncoding e))) ∨
    ∃ txs, builder.derived.deriveSanitizedDepositTx epoch.number epoch.hash receipts = .ok txs ∧
      ((∃ inputs, (builder.epochInputs l2Parent epoch).2 = .ok inputs) ∨
        ∃ text, (builder.epochInputs l2Parent epoch).2 = (PipelineError.systemConfigUpdate text).crit) := by
  obtain ⟨differs, ⟨sysConfig, config⟩, ⟨l1Origin, info, follows⟩, fetched⟩ := fetches
  unfold epochInputs
  generalize SystemConfigProvider.systemConfigByNumber builder.configFetcher l2Parent.blockInfo.number = answer at config ⊢
  obtain ⟨configFetcher, result⟩ := answer
  cases config
  simp only [if_pos differs, epochStart]
  generalize ChainProvider.blockInfoByHash Receipt builder.receiptsFetcher epoch.hash = answer at info fetched ⊢
  obtain ⟨receiptsFetcher, result⟩ := answer
  cases info
  simp only [if_neg (not_not.mpr follows)] at fetched ⊢
  generalize @ChainProvider.receiptsByHash L1P Receipt _ receiptsFetcher epoch.hash = answer at fetched ⊢
  obtain ⟨receiptsFetcher', result⟩ := answer
  cases fetched
  simp only
  cases derives : builder.derived.deriveSanitizedDepositTx epoch.number epoch.hash receipts with
  | error e => exact .inl ⟨e, rfl, rfl⟩
  | ok txs =>
      refine .inr ⟨txs, rfl, ?_⟩
      cases builder.derived.updateWithReceipts sysConfig receipts with
      | error text => exact .inr ⟨text, rfl⟩
      | ok sysConfig => exact .inl ⟨_, rfl⟩

omit [ChainProvider L1P Receipt] [SystemConfigProvider L2P] in
theorem encodedL1InfoTx_error {derived : DerivedTransactions Receipt} {inputs : EpochInputs} {e : DepositError} :
    derived.encodedL1InfoTx inputs ≠ .error (.error (.critical (.badEncoding (.depositError e)))) := by
  intro fails
  unfold DerivedTransactions.encodedL1InfoTx at fails
  split at fails
  · rename_i stop _
    cases stop <;> cases fails
  · unfold DerivedTransactions.sanitizedDerivedTxToBytes at fails
    split at fails
    · rename_i tx _ _ stop stops
      split at stops
      · cases stops
      · cases stops
        cases fails
    · cases fails

def HaltedByDeposit (builder : StatefulAttributesBuilder L1P L2P Receipt) (l2Parent : L2BlockInfo) (epoch : BlockNumHash) : Prop :=
  ∃ e, (builder.preparePayloadAttributes l2Parent epoch).2 = .error (.error (.critical (.badEncoding (.depositError e))))

theorem haltedByDeposit_iff (fetches : builder.FetchesReceipts l2Parent epoch receipts) :
    builder.HaltedByDeposit l2Parent epoch ↔
      ∃ e, builder.derived.deriveSanitizedDepositTx epoch.number epoch.hash receipts = .error (.error (.depositError e)) := by
  have cases_ := epochInputs_cases fetches
  unfold HaltedByDeposit preparePayloadAttributes
  generalize builder.epochInputs l2Parent epoch = answer at cases_ ⊢
  obtain ⟨after, result⟩ := answer
  rcases cases_ with ⟨stop, derives, fails⟩ | ⟨txs, derives, ⟨inputs, ok⟩ | ⟨text, fails⟩⟩
  · cases fails
    rw [derives]
    cases stop with
    | error e => simp [Stop.map]
    | panic => simp [Stop.map]
    | outOfFuel => simp [Stop.map]
  · cases ok
    rw [derives]
    refine iff_of_false ?_ (by rintro ⟨e, same⟩; cases same)
    rintro ⟨e, fails⟩
    simp only at fails
    split at fails
    · rename_i stop encodes
      cases fails
      exact encodedL1InfoTx_error encodes
    · cases fails
  · cases fails
    rw [derives]
    exact iff_of_false (by rintro ⟨e, same⟩; cases same) (by rintro ⟨e, same⟩; cases same)

/-- The deposits of a block are all made into transactions, and do not halt the chain, if and only if none of them has
an amount of more than 128 bits. -/
theorem deposits_never_halt_iff {contracts : DepositContracts}
    (reads : builder.derived.deriveDeposits = deriveDeposits builder.derived.prim contracts)
    (constructs : builder.derived.Constructs) {deposits : List UserDeposited}
    (derives : deriveDeposits builder.derived.prim contracts epoch.number epoch.hash receipts = some deposits) :
    ((∃ txs, builder.derived.deriveSanitizedDepositTx epoch.number epoch.hash receipts = .ok txs) ↔
      DepositsInRange builder.derived.prim contracts epoch.number epoch.hash receipts) ∧
    ∀ l2Parent : L2BlockInfo, builder.FetchesReceipts l2Parent epoch receipts →
      (¬ builder.HaltedByDeposit l2Parent epoch ↔
        DepositsInRange builder.derived.prim contracts epoch.number epoch.hash receipts) := by
  rcases deriveSanitizedDepositTx_cases reads constructs derives with ⟨inRange, txs, ok⟩ | ⟨large, text, fails⟩
  · refine ⟨iff_of_true ⟨txs, ok⟩ inRange, ?_⟩
    intro l2Parent fetches
    rw [haltedByDeposit_iff fetches, ok]
    exact iff_of_true (by rintro ⟨e, same⟩; cases same) inRange
  · refine ⟨iff_of_false (by rintro ⟨txs, ok⟩; rw [fails] at ok; cases ok) large, ?_⟩
    intro l2Parent fetches
    rw [haltedByDeposit_iff fetches, fails]
    exact iff_of_false (not_not.mpr ⟨_, rfl⟩) large

end StatefulAttributesBuilder

/-! ## A token with a large supply -/

namespace Pipeline

theorem length_messageMetas_le (ix : Instruction) (payer : Option Pubkey) :
    (messageMetas [ix] payer).length ≤ 1 + ix.accounts.length := by
  unfold messageMetas
  rw [List.length_insertionSort, List.length_map]
  refine (List.length_filter_le _ _).trans ((List.dedup_sublist _).length_le.trans ?_)
  rw [List.length_map, List.flatMap_singleton, List.length_cons]
  omega

theorem archiveDerived_constructs : archiveDerived.Constructs := by
  intro deposit ix made hash
  have few : ix.accounts.length ≤ 9 := by
    unfold UserDeposited.instruction at made
    split at made
    · simp only [bind_eq_ok] at made
      obtain ⟨mint, -, value, -, depositAmount, -, extraData, -, made⟩ := made
      cases made
      exact (show 4 ≤ 9 by decide)
    · simp only [bind_eq_ok] at made
      obtain ⟨amount, -, made⟩ := made
      cases made
      exact Nat.le_refl 9
  have signed : (compileMessage [ix] (some noSigTxPayer) hash).numRequiredSignatures.toNat =
      1 + (messageMetas [ix] (some noSigTxPayer)).countP (·.isSigner) := by
    have metas := length_messageMetas_le ix (some noSigTxPayer)
    have signers := List.countP_le_length (p := fun account : AccountMeta => account.isSigner)
      (l := messageMetas [ix] (some noSigTxPayer))
    exact UInt8.toNat_ofNat_of_lt' (by change 1 + _ < 256; omega)
  have created : ∃ tx, newNativeTransaction archiveDerived.solana [ix] hash = some tx := by
    rw [newNativeTransaction]
    simp only [archiveDerived, signed, Nat.add_comm 1, List.replicate_succ]
    exact ⟨_, rfl⟩
  obtain ⟨tx, created⟩ := created
  refine ⟨tx, encodeL2Transaction (.newFromDerivedTx tx), ?_, rfl⟩
  rw [sanitizedNativeTransaction, created]
  rfl

def tokenLog (amount : Nat) : Log where
  address := contracts.optimismPortalAddress
  topics := [.ofNat 0xe6a61c8a27c2ace3a2c5c1be0459b0169e6f228db83930f82d7c877043c946b7,
    .ofNat 0x1313020202020202020202020202020202021313, soonBridgePubkey]
  data := List.replicate 64 0 ++ List.replicate 72 0 ++ [0] ++ crossDomainMessengerRelaySelector ++ List.replicate 44 0 ++
    contracts.l1StandardBridge.1 ++ soonBridgePubkey.1 ++ List.replicate 128 0 ++ erc20DepositSelector ++
    List.replicate 32 8 ++ List.replicate 12 0 ++ List.replicate 20 6 ++ List.replicate 12 0 ++ List.replicate 20 5 ++
    user.1 ++ (bigEndian 32 amount).1 ++ List.replicate 32 0

def tokenBuilder (amount : Nat) : StatefulAttributesBuilder Archive Chains Receipt :=
  ⟨cfg, archiveDerived, chains, ⟨[(l1Block, []), (nextL1Block, [⟨.eip658 true, [tokenLog amount]⟩])]⟩⟩

/-- The log is read as a deposit, but there is no transaction of it, and no block of this epoch on any attempt. -/
theorem large_deposit_halts :
    (deriveDeposits hashes contracts nextL1Block.number nextL1Block.hash [⟨.eip658 true, [tokenLog (2 ^ 128)]⟩]).isSome ∧
    (¬ ∃ txs, (tokenBuilder (2 ^ 128)).derived.deriveSanitizedDepositTx nextL1Block.number nextL1Block.hash
      [⟨.eip658 true, [tokenLog (2 ^ 128)]⟩] = .ok txs) ∧
    ((tokenBuilder (2 ^ 128)).preparePayloadAttributes safeHead nextL1Block.id).2 =
      .error (.error (.critical (.badEncoding (.depositError (.parseDepositTxError "Invalid amount"))))) := by
  have fails : (tokenBuilder (2 ^ 128)).derived.deriveSanitizedDepositTx nextL1Block.number nextL1Block.hash
      [⟨.eip658 true, [tokenLog (2 ^ 128)]⟩] = .error (.error (.depositError (.parseDepositTxError "Invalid amount"))) := by
    decide +kernel
  refine ⟨by decide +kernel, ?_, by decide +kernel⟩
  rintro ⟨txs, ok⟩
  rw [fails] at ok
  cases ok

theorem deposits_never_halt_largest :
    ¬ (tokenBuilder (2 ^ 128 - 1)).HaltedByDeposit safeHead nextL1Block.id := by
  have derives : deriveDeposits hashes contracts nextL1Block.number nextL1Block.hash
      [⟨.eip658 true, [tokenLog (2 ^ 128 - 1)]⟩] = some [⟨contracts.l1CrossDomainMessenger, 0, 0, false, 11, nextL1Block.hash, 0,
        .erc20 ⟨⟨List.replicate 32 8, rfl⟩, ⟨List.replicate 20 6, rfl⟩, ⟨List.replicate 20 5, rfl⟩, user, 2 ^ 128 - 1⟩⟩] := by
    decide +kernel
  have fetches : (tokenBuilder (2 ^ 128 - 1)).FetchesReceipts safeHead nextL1Block.id
      [⟨.eip658 true, [tokenLog (2 ^ 128 - 1)]⟩] :=
    ⟨by decide, ⟨chains.config, by decide +kernel⟩, ⟨nextL1Block, by decide +kernel, by decide +kernel⟩, by decide +kernel⟩
  have inRange : DepositsInRange hashes contracts nextL1Block.number nextL1Block.hash
      [⟨.eip658 true, [tokenLog (2 ^ 128 - 1)]⟩] := by
    rw [depositsInRange_iff derives]
    intro deposit member
    cases List.mem_singleton.mp member
    exact (show (2 ^ 128 - 1 : BitVec 256).toNat < 2 ^ 128 by decide +kernel)
  exact ((@StatefulAttributesBuilder.deposits_never_halt_iff _ _ _ _ (tokenBuilder (2 ^ 128 - 1)) nextL1Block.id
    [⟨.eip658 true, [tokenLog (2 ^ 128 - 1)]⟩] contracts rfl archiveDerived_constructs _ derives).2 safeHead fetches).mpr inRange

end Pipeline

end KonaSoon.Derive
