import KonaSoon.Programs.BridgeProcessor

namespace KonaSoon.Programs
open Lib Mpt Abi

/-! ## Derived addresses -/

structure Derivation where
  seeds : List (List UInt8)
  program : Pubkey
deriving DecidableEq, Repr

def Derivation.address (findProgramAddress : FindProgramAddress) (derivation : Derivation) : Pubkey :=
  findProgramAddress derivation.seeds derivation.program

def Pda.derivation (pda : Pda) : Derivation := ⟨pda.seeds, withdrawalProgramPubkey⟩

def associatedTokenDerivation (wallet mint : Pubkey) : Derivation :=
  ⟨[wallet.1, splTokenId.1, mint.1], splAssociatedTokenAccountId⟩

def metadataDerivation (mint : Pubkey) : Derivation :=
  ⟨["metadata".toUTF8.data.toList, mplTokenMetadataId.1, mint.1], mplTokenMetadataId⟩

def NoCollision (findProgramAddress : FindProgramAddress) (used : Derivation → Prop) : Prop :=
  ∀ derivation derivation', used derivation → used derivation' →
    derivation.address findProgramAddress = derivation'.address findProgramAddress →
    derivation.seeds.flatten = derivation'.seeds.flatten ∧ derivation.program = derivation'.program

namespace NoCollision

variable {findProgramAddress : FindProgramAddress} {used : Derivation → Prop} (apart : NoCollision findProgramAddress used)
include apart

theorem pda {pda pda' : Pda} (first : used pda.derivation) (second : used pda'.derivation)
    (same : pda.pubkey findProgramAddress = pda'.pubkey findProgramAddress) : pda = pda' :=
  Pda.flatten_seeds_injective (apart _ _ first second same).1

theorem foreign {pda : Pda} {derivation : Derivation} (first : used pda.derivation) (second : used derivation)
    (program : derivation.program ≠ withdrawalProgramPubkey) :
    pda.pubkey findProgramAddress ≠ derivation.address findProgramAddress := by
  intro same
  exact program (apart _ _ first second same).2.symm

end NoCollision

/-! ## What the called programs may change -/

def Guarded (ledger : Ledger) (key : Pubkey) : Prop :=
  (ledger key).owner = withdrawalProgramPubkey ∨ (ledger key).owner = systemProgramId

def Invocation.MayChange (findProgramAddress : FindProgramAddress) (ledger : Ledger) (key : Pubkey) : Invocation → Prop
  | transfer _ _ _ => False
  | allocate target _ => key = target
  | assign target _ => key = target
  | createAssociatedTokenAccount _ wallet mint =>
      key = (associatedTokenDerivation wallet mint).address findProgramAddress ∨ ¬ Guarded ledger key
  | createMetadataAccountV3 metadata _ _ _ _ _ _ _ => key = metadata ∨ ¬ Guarded ledger key
  | _ => ¬ Guarded ledger key

structure Keeps (key : Pubkey) (before after : Ledger) : Prop where
  data : (after key).data = (before key).data
  owner : (after key).owner = (before key).owner

structure Runtime.Lawful (rt : Runtime) : Prop where
  encodes : Abi.Lawful rt.abi.encode
  keeps : ∀ invocation infos signers before after key, rt.invoke invocation infos signers before = .ok after →
    ¬ invocation.MayChange rt.findProgramAddress before key → Keeps key before after
  allocates : ∀ key space infos signers before after, rt.invoke (.allocate key space) infos signers before = .ok after →
    (before key).data = [] ∧ (after key).data = List.replicate space 0 ∧ (after key).owner = (before key).owner
  assigns : ∀ key owner infos signers before after, rt.invoke (.assign key owner) infos signers before = .ok after →
    (after key).data = (before key).data ∧ (after key).owner = owner

theorem Keeps.refl (key : Pubkey) (ledger : Ledger) : Keeps key ledger ledger := ⟨rfl, rfl⟩

theorem Keeps.trans {key : Pubkey} {first second third : Ledger} (one : Keeps key first second)
    (two : Keeps key second third) : Keeps key first third :=
  ⟨two.data.trans one.data, two.owner.trans one.owner⟩

theorem Keeps.guarded {key : Pubkey} {before after : Ledger} (kept : Keeps key before after) (guarded : Guarded before key) :
    Guarded after key := by
  rw [Guarded, kept.owner]
  exact guarded

theorem Ledger.setData_same (ledger : Ledger) (key : Pubkey) (data : List UInt8) :
    ledger.setData key data key = { ledger key with data } := by
  rw [setData, if_pos rfl]

theorem Ledger.setData_keeps (ledger : Ledger) {key other : Pubkey} (apart : other ≠ key) (data : List UInt8) :
    Keeps other ledger (ledger.setData key data) := by
  constructor
  · rw [setData, if_neg apart]
  · rw [setData, if_neg apart]

theorem ofCall_eq_ok {α : Type} {x : Except ProgramError α} {a : α} (ok : ofCall x = .ok a) : x = .ok a := by
  cases x with
  | ok b => exact congrArg Except.ok (Except.ok.inj ok)
  | error e => cases ok

theorem check_eq_ok {holds : Bool} {error : BridgeError} {done : Unit} (ok : check holds error = .ok done) : holds = true := by
  cases holds with
  | true => rfl
  | false => cases ok

section Frames

variable {rt : Runtime} (lawful : rt.Lawful)
include lawful

theorem invokeSigned_keeps {invocation : Invocation} {infos : List AccountMeta} {signers : List Pda} {before after : Ledger}
    (invokes : rt.invokeSigned invocation infos signers before = .ok after) {key : Pubkey}
    (out : ¬ invocation.MayChange rt.findProgramAddress before key) : Keeps key before after :=
  lawful.keeps invocation infos _ before after key (ofCall_eq_ok invokes) out

theorem createAccount_ok {rent : Rent} {payer target systemProgram : AccountMeta} {len : Nat} {owner : Pubkey}
    {payerSigners targetSigners : List Pda} {before after : Ledger}
    (creates : Processor.createAccount rt rent payer target systemProgram len owner payerSigners targetSigners before =
      .ok after) :
    (before target.pubkey).data = [] ∧ (after target.pubkey).data = List.replicate len 0 ∧
      (after target.pubkey).owner = owner ∧ ∀ key, key ≠ target.pubkey → Keeps key before after := by
  simp only [Processor.createAccount, bind_eq_ok] at creates
  obtain ⟨funded, funds, allocated, allocates, assigns⟩ := creates
  have transferred : ∀ key, Keeps key before funded := by
    intro key
    simp only [Processor.payRent] at funds
    split at funds
    · exact invokeSigned_keeps lawful funds (by simp [Invocation.MayChange])
    · cases funds
      exact .refl key _
  obtain ⟨empty, zeros, -⟩ := lawful.allocates _ _ _ _ _ _ (ofCall_eq_ok allocates)
  obtain ⟨same, owned⟩ := lawful.assigns _ _ _ _ _ _ (ofCall_eq_ok assigns)
  refine ⟨(transferred _).data ▸ empty, same.trans zeros, owned, ?_⟩
  intro key other
  exact ((transferred key).trans (invokeSigned_keeps lawful allocates other)).trans (invokeSigned_keeps lawful assigns other)

end Frames

/-! ## One withdrawal -/

inductive IsRecord (abi : EthAbi) (user : Pubkey) (counter : UInt64) : List UInt8 → Prop where
  | eth (config : BridgeConfig) (target : Address) (value : UInt64) (gasLimit : BitVec 128)
      (calldata : FixedBytes ethWithdrawalTransactionCalldataLen)
      (made : calldata.1 = abi.getBridgeEthCalldata config.l1StandardBridge user target (.ofNat 128 value.toNat)
        standardBridgeCallGasLimit counter) :
      IsRecord abi user counter (Processor.withdrawalOf config counter value gasLimit calldata).packIntoSlice
  | spl (config : BridgeConfig) (mint : Pubkey) (remoteToken target : Address) (shares gasLimit : BitVec 128)
      (calldata : FixedBytes splWithdrawalTransactionCalldataLen)
      (made : calldata.1 = abi.getBridgeErc20Calldata config.l1StandardBridge mint remoteToken user target shares
        standardBridgeCallGasLimit counter) :
      IsRecord abi user counter (Processor.withdrawalOf config counter 0 gasLimit calldata).packIntoSlice

theorem nonce_inj {counter counter' : UInt64} (same : BitVec.ofNat 256 counter.toNat = BitVec.ofNat 256 counter'.toNat) :
    counter = counter' := by
  have numbers := congrArg BitVec.toNat same
  rw [BitVec.toNat_ofNat, BitVec.toNat_ofNat, Nat.mod_eq_of_lt (lt_trans counter.toNat_lt (by norm_num)),
    Nat.mod_eq_of_lt (lt_trans counter'.toNat_lt (by norm_num))] at numbers
  exact UInt64.toNat_inj.mp numbers

theorem IsRecord.unique {abi : EthAbi} (lawful : Abi.Lawful abi.encode) {user user' : Pubkey} {counter counter' : UInt64}
    {bytes bytes' : List UInt8} (first : IsRecord abi user counter bytes) (second : IsRecord abi user' counter' bytes')
    (same : bytes = bytes') : user = user' ∧ counter = counter' := by
  cases first with
  | eth config target value gasLimit calldata made =>
      cases second with
      | eth config' target' value' gasLimit' calldata' made' =>
          obtain ⟨nonces, calldatas⟩ := WithdrawalTransaction.packIntoSlice_inj same
          have data : calldata = calldata' := calldatas
          rw [data, made'] at made
          exact ⟨(EthAbi.getBridgeEthCalldata_sender lawful made).symm, nonce_inj nonces⟩
      | spl config' mint remoteToken target' shares gasLimit' calldata' made' =>
          have lengths := congrArg List.length same
          rw [WithdrawalTransaction.length_packIntoSlice, WithdrawalTransaction.length_packIntoSlice] at lengths
          exact absurd lengths (by decide)
  | spl config mint remoteToken target shares gasLimit calldata made =>
      cases second with
      | eth config' target' value' gasLimit' calldata' made' =>
          have lengths := congrArg List.length same
          rw [WithdrawalTransaction.length_packIntoSlice, WithdrawalTransaction.length_packIntoSlice] at lengths
          exact absurd lengths (by decide)
      | spl config' mint' remoteToken' target' shares' gasLimit' calldata' made' =>
          obtain ⟨nonces, calldatas⟩ := WithdrawalTransaction.packIntoSlice_inj same
          have data : calldata = calldata' := calldatas
          rw [data, made'] at made
          exact ⟨(EthAbi.getBridgeErc20Calldata_sender lawful made).symm, nonce_inj nonces⟩

structure Withdrew (rt : Runtime) (payer record : Pubkey) (counter : UInt64) (before after : Ledger) : Prop where
  fits : counter.toNat + 1 < 2 ^ 64
  taken : WithdrawalCounter.unpack (before (rt.pubkey (.userWithdrawalCounter payer))).data = .ok ⟨counter⟩
  left : (after (rt.pubkey (.userWithdrawalCounter payer))).data = (WithdrawalCounter.mk (counter + 1)).packIntoSlice
  counterOwner : (after (rt.pubkey (.userWithdrawalCounter payer))).owner =
    (before (rt.pubkey (.userWithdrawalCounter payer))).owner
  address : record = rt.pubkey (.withdrawalTransaction payer counter)
  fresh : (before record).data = []
  written : IsRecord rt.abi payer counter (after record).data
  recordOwner : (after record).owner = withdrawalProgramPubkey
  others : ∀ key, Guarded before key → key ≠ rt.pubkey (.userWithdrawalCounter payer) → key ≠ record →
    Keeps key before after

theorem takeCounter_ok {rt : Runtime} {userWithdrawalCounter payer : AccountMeta} {before : Ledger} {counter : UInt64}
    {after : Ledger} (takes : Processor.takeCounter rt userWithdrawalCounter payer before = .ok (counter, after)) :
    userWithdrawalCounter.pubkey = rt.pubkey (.userWithdrawalCounter payer.pubkey) ∧ counter.toNat + 1 < 2 ^ 64 ∧
      WithdrawalCounter.unpack (before userWithdrawalCounter.pubkey).data = .ok ⟨counter⟩ ∧
      after = before.setData userWithdrawalCounter.pubkey (WithdrawalCounter.mk (counter + 1)).packIntoSlice := by
  simp only [Processor.takeCounter, bind_eq_ok] at takes
  obtain ⟨_, named, account, unpacks, newCount, counts, data, packs, made⟩ := takes
  cases made
  have next := Outcome.unwrap_eq_ok.mp counts
  unfold checkedAdd at next
  split at next
  · rename_i fits
    cases next
    obtain ⟨-, rfl⟩ := packExact_eq_ok packs
    exact ⟨(of_decide_eq_true (check_eq_ok named)).symm, fits, unpacks, rfl⟩
  · cases next

theorem writeWithdrawal_ok {bridgeConfig withdrawalTransaction : AccountMeta} {calldataLen : Nat}
    {calldataFor : BridgeConfig → List UInt8} {counter value : UInt64} {gasLimit : BitVec 128} {before after : Ledger}
    (writes : Processor.writeWithdrawal bridgeConfig withdrawalTransaction calldataLen calldataFor counter value gasLimit
      before = .ok after) :
    ∃ (config : BridgeConfig) (calldata : FixedBytes calldataLen), calldata.1 = calldataFor config ∧
      after = before.setData withdrawalTransaction.pubkey
        (Processor.withdrawalOf config counter value gasLimit calldata).packIntoSlice := by
  simp only [Processor.writeWithdrawal, bind_eq_ok] at writes
  obtain ⟨config, -, calldata, tries, data, packs, made⟩ := writes
  cases made
  obtain ⟨-, rfl⟩ := packExact_eq_ok packs
  refine ⟨config, calldata, ?_, rfl⟩
  unfold Processor.tryCalldata at tries
  split at tries
  · cases tries
    rfl
  · cases tries

section Instructions

variable {rt : Runtime} (lawful : rt.Lawful)
include lawful

theorem withdrew_of_steps {userWithdrawalCounter payer record rentSysvar systemProgram bridgeConfig : AccountMeta}
    {counter value : UInt64} {before taken paid created after : Ledger} {invocation : Invocation} {infos : List AccountMeta}
    {calldataLen : Nat} {calldataFor : BridgeConfig → List UInt8} {gasLimit : BitVec 128}
    (takes : Processor.takeCounter rt userWithdrawalCounter payer before = .ok (counter, taken))
    (address : record.pubkey = rt.pubkey (.withdrawalTransaction payer.pubkey counter))
    (pays : rt.invokeSigned invocation infos [] taken = .ok paid)
    (out : ∀ key, Guarded taken key → ¬ invocation.MayChange rt.findProgramAddress taken key)
    (creates : Processor.createWithdrawal rt rentSysvar payer record systemProgram calldataLen counter paid = .ok created)
    (writes : Processor.writeWithdrawal bridgeConfig record calldataLen calldataFor counter value gasLimit created = .ok after)
    (records : ∀ (config : BridgeConfig) (calldata : FixedBytes calldataLen), calldata.1 = calldataFor config →
      IsRecord rt.abi payer.pubkey counter (Processor.withdrawalOf config counter value gasLimit calldata).packIntoSlice)
    (apart : rt.pubkey (.userWithdrawalCounter payer.pubkey) ≠ record.pubkey)
    (counterGuarded : Guarded before (rt.pubkey (.userWithdrawalCounter payer.pubkey)))
    (recordGuarded : Guarded before record.pubkey) : Withdrew rt payer.pubkey record.pubkey counter before after := by
  obtain ⟨named, fits, unpacks, rfl⟩ := takeCounter_ok takes
  rw [named] at unpacks pays out
  obtain ⟨config, calldata, made, rfl⟩ := writeWithdrawal_ok writes
  simp only [Processor.createWithdrawal, bind_eq_ok] at creates
  obtain ⟨rent, -, creates⟩ := creates
  obtain ⟨empty, -, owned, kept⟩ := createAccount_ok lawful creates
  -- What the payment and the creation leave as it was.
  have onward : ∀ key, Guarded (before.setData (rt.pubkey (.userWithdrawalCounter payer.pubkey))
      (WithdrawalCounter.mk (counter + 1)).packIntoSlice) key → key ≠ record.pubkey → Keeps key
        (before.setData (rt.pubkey (.userWithdrawalCounter payer.pubkey)) (WithdrawalCounter.mk (counter + 1)).packIntoSlice)
        (created.setData record.pubkey (Processor.withdrawalOf config counter value gasLimit calldata).packIntoSlice) := by
    intro key guarded other
    exact ((invokeSigned_keeps lawful pays (out key guarded)).trans (kept key other)).trans
      (created.setData_keeps other _)
  have counterAfter := onward (rt.pubkey (.userWithdrawalCounter payer.pubkey))
    (by rw [Guarded, Ledger.setData_same]; exact counterGuarded) apart
  have recordKept := before.setData_keeps apart.symm (WithdrawalCounter.mk (counter + 1)).packIntoSlice
  refine ⟨fits, unpacks, ?_, ?_, address, ?_, ?_, ?_, ?_⟩
  · rw [counterAfter.data, Ledger.setData_same]
  · rw [counterAfter.owner, Ledger.setData_same]
  · have paidKept := invokeSigned_keeps lawful pays (out record.pubkey (recordKept.guarded recordGuarded))
    rw [← recordKept.data, ← paidKept.data]
    exact empty
  · rw [Ledger.setData_same]
    exact records config calldata made
  · rw [Ledger.setData_same]
    exact owned
  · intro key guarded notCounter notRecord
    have first := before.setData_keeps notCounter (WithdrawalCounter.mk (counter + 1)).packIntoSlice
    exact first.trans (onward key (first.guarded guarded) notRecord)

theorem withdrawEth_ok {accounts : List AccountMeta} {target : Address} {value gasLimit : BitVec 128} {before after : Ledger}
    (withdraws : Processor.withdrawEth rt accounts target value gasLimit before = .ok after) :
    ∃ payer record counter, accounts[6]?.map (·.pubkey) = some payer ∧ accounts[3]?.map (·.pubkey) = some record ∧
      WithdrawalCounter.unpack (before (rt.pubkey (.userWithdrawalCounter payer))).data = .ok ⟨counter⟩ ∧
      (rt.pubkey (.userWithdrawalCounter payer) ≠ rt.pubkey (.withdrawalTransaction payer counter) →
        Guarded before (rt.pubkey (.userWithdrawalCounter payer)) →
        Guarded before (rt.pubkey (.withdrawalTransaction payer counter)) →
        Withdrew rt payer record counter before after) := by
  simp only [Processor.withdrawEth, bind_eq_ok] at withdraws
  obtain ⟨-, -, withdraws⟩ := withdraws
  split at withdraws
  · rename_i systemProgram rentSysvar userWithdrawalCounter record vault bridgeConfig payer rest
    simp only [bind_eq_ok] at withdraws
    obtain ⟨-, -, ⟨counter, taken⟩, takes, _, named, -, -, amount, -, -, -, paid, pays, created, creates, writes⟩ := withdraws
    have address := (of_decide_eq_true (check_eq_ok named)).symm
    obtain ⟨counterNamed, -, unpacks, -⟩ := takeCounter_ok takes
    refine ⟨payer.pubkey, record.pubkey, counter, rfl, rfl, counterNamed ▸ unpacks, ?_⟩
    rw [← address]
    exact withdrew_of_steps lawful takes address pays (by simp [Invocation.MayChange]) creates writes
      fun config calldata made => .eth config target amount gasLimit calldata made
  · cases withdraws

theorem withdrawSpl_ok {accounts : List AccountMeta} {remoteToken target : Address} {amount gasLimit : BitVec 128}
    {before after : Ledger} (withdraws : Processor.withdrawSpl rt accounts remoteToken target amount gasLimit before = .ok after) :
    ∃ payer record counter, accounts[9]?.map (·.pubkey) = some payer ∧ accounts[4]?.map (·.pubkey) = some record ∧
      WithdrawalCounter.unpack (before (rt.pubkey (.userWithdrawalCounter payer))).data = .ok ⟨counter⟩ ∧
      (rt.pubkey (.userWithdrawalCounter payer) ≠ rt.pubkey (.withdrawalTransaction payer counter) →
        Guarded before (rt.pubkey (.userWithdrawalCounter payer)) →
        Guarded before (rt.pubkey (.withdrawalTransaction payer counter)) →
        Withdrew rt payer record counter before after) := by
  simp only [Processor.withdrawSpl, bind_eq_ok] at withdraws
  obtain ⟨-, -, withdraws⟩ := withdraws
  split at withdraws
  · rename_i systemProgram rentSysvar splTokenProgram userWithdrawalCounter record splTokenOwner splTokenMint token
      bridgeConfig payer rest
    simp only [bind_eq_ok] at withdraws
    obtain ⟨-, -, -, -, ⟨counter, taken⟩, takes, _, named, -, -, -, -, mint, -, whole, -, burned, -, -, -, paid, pays,
      created, creates, shares, -, writes⟩ := withdraws
    have address := (of_decide_eq_true (check_eq_ok named)).symm
    obtain ⟨counterNamed, -, unpacks, -⟩ := takeCounter_ok takes
    refine ⟨payer.pubkey, record.pubkey, counter, rfl, rfl, counterNamed ▸ unpacks, ?_⟩
    rw [← address]
    exact withdrew_of_steps lawful takes address pays (by simp [Invocation.MayChange]) creates writes
      fun config calldata made => .spl config splTokenMint.pubkey remoteToken target shares gasLimit calldata made
  · cases withdraws

structure Opened (rt : Runtime) (user : Pubkey) (before after : Ledger) : Prop where
  fresh : (before (rt.pubkey (.userWithdrawalCounter user))).data = []
  written : (after (rt.pubkey (.userWithdrawalCounter user))).data = (WithdrawalCounter.mk 0).packIntoSlice
  owner : (after (rt.pubkey (.userWithdrawalCounter user))).owner = withdrawalProgramPubkey
  others : ∀ key, key ≠ rt.pubkey (.userWithdrawalCounter user) → Keeps key before after

theorem createUserWithdrawalCounterAccount_ok {accounts : List AccountMeta} {before after : Ledger}
    (opens : Processor.createUserWithdrawalCounterAccount rt accounts before = .ok after) :
    ∃ user, accounts[3]?.map (·.pubkey) = some user ∧ Opened rt user before after := by
  unfold Processor.createUserWithdrawalCounterAccount at opens
  split at opens
  · rename_i systemProgram rentSysvar userWithdrawalCounter payer rest
    simp only [bind_eq_ok] at opens
    obtain ⟨_, named, rent, -, created, creates, data, packs, made⟩ := opens
    cases made
    obtain ⟨-, rfl⟩ := packExact_eq_ok packs
    have address := of_decide_eq_true (check_eq_ok named)
    obtain ⟨empty, -, owned, kept⟩ := createAccount_ok lawful creates
    refine ⟨payer.pubkey, rfl, ?_⟩
    constructor
    · rw [address]
      exact empty
    · rw [address, Ledger.setData_same]
    · rw [address, Ledger.setData_same]
      exact owned
    · intro key other
      rw [address] at other
      exact (kept key other).trans (created.setData_keeps other _)
  · cases opens

section Neutral

variable {accounts : List AccountMeta} {before after : Ledger} {key : Pubkey}

theorem depositEth_keeps {value : BitVec 128} {depositTo : Pubkey}
    (deposits : Processor.depositEth rt accounts value depositTo before = .ok after) : Keeps key before after := by
  unfold Processor.depositEth at deposits
  split at deposits
  · simp only [bind_eq_ok] at deposits
    obtain ⟨-, -, -, -, -, -, rent, -, amount, -, -, -, invokes⟩ := deposits
    exact invokeSigned_keeps lawful invokes (by simp [Invocation.MayChange])
  · cases deposits

omit lawful in
theorem changeBridgeAdmin_keeps {newAdmin : Pubkey}
    (changes : Processor.changeBridgeAdmin rt accounts newAdmin before = .ok after) (other : key ≠ rt.pubkey .bridgeOwner) :
    Keeps key before after := by
  unfold Processor.changeBridgeAdmin at changes
  split at changes
  · simp only [bind_eq_ok] at changes
    obtain ⟨_, checks, data, packs, made⟩ := changes
    cases made
    simp only [Processor.checkAdmin, bind_eq_ok] at checks
    obtain ⟨_, named, -⟩ := checks
    have address := of_decide_eq_true (check_eq_ok named)
    exact before.setData_keeps (address ▸ other) _
  · cases changes

variable (guarded : Guarded before key)
include guarded

theorem createSpl_keeps {remoteToken : Address} {name symbol uri : String} {decimals : UInt8}
    (creates : Processor.createSpl rt accounts remoteToken name symbol uri decimals before = .ok after)
    (notMint : key ≠ rt.pubkey (.splTokenMint remoteToken))
    (notMetadata : key ≠ (metadataDerivation (rt.pubkey (.splTokenMint remoteToken))).address rt.findProgramAddress) :
    Keeps key before after := by
  simp only [Processor.createSpl, bind_eq_ok] at creates
  obtain ⟨-, -, creates⟩ := creates
  split at creates
  · rename_i systemProgram rentSysvar splTokenProgram splTokenOwner splTokenMint vault bridgeOwner admin
      tokenMetadataProgram metadata rest
    simp only [bind_eq_ok] at creates
    obtain ⟨-, -, -, -, -, -, -, -, _, mintNamed, -, -, _, metadataNamed, rent, -, created, creates, initialized, initializes,
      stores⟩ := creates
    have mintAddress := of_decide_eq_true (check_eq_ok mintNamed)
    have metadataAddress := of_decide_eq_true (check_eq_ok metadataNamed)
    rw [← mintAddress] at metadataAddress
    have first := (createAccount_ok lawful creates).2.2.2 key (mintAddress ▸ notMint)
    have second : Keeps key created initialized := invokeSigned_keeps lawful initializes (by
      simpa [Invocation.MayChange] using first.guarded guarded)
    have third : Keeps key initialized after := invokeSigned_keeps lawful stores (by
      simp only [Invocation.MayChange, not_or, not_not]
      exact ⟨metadataAddress ▸ notMetadata, (first.trans second).guarded guarded⟩)
    exact (first.trans second).trans third
  · cases creates

theorem updateSplMetadata_keeps {remoteToken : Address} {name symbol uri : String}
    (updates : Processor.updateSplMetadata rt accounts remoteToken name symbol uri before = .ok after) :
    Keeps key before after := by
  unfold Processor.updateSplMetadata at updates
  split at updates
  · simp only [bind_eq_ok] at updates
    obtain ⟨-, -, -, -, -, -, -, -, invokes⟩ := updates
    exact invokeSigned_keeps lawful invokes (by simpa [Invocation.MayChange] using guarded)
  · cases updates

theorem depositErc20_keeps {localToken : Pubkey} {remoteToken : Address} {recipient : Pubkey} {amount : BitVec 128}
    (deposits : Processor.depositErc20 rt accounts localToken remoteToken recipient amount before = .ok after)
    (notToken : key ≠ (associatedTokenDerivation recipient (rt.pubkey (.splTokenMint remoteToken))).address
      rt.findProgramAddress) : Keeps key before after := by
  unfold Processor.depositErc20 at deposits
  split at deposits
  · rename_i systemProgram splTokenProgram associatedTokenProgram splTokenOwner splTokenMint depositor depositorToken vault
      noSigTxPayer rest
    simp only [bind_eq_ok] at deposits
    obtain ⟨-, -, -, -, -, -, _, depositorNamed, -, -, -, -, -, -, _, mintNamed, opened, opens, mint, -, shares, -, minted, -,
      mints⟩ := deposits
    have mintAddress := of_decide_eq_true (check_eq_ok mintNamed)
    have wallet := (of_decide_eq_true (check_eq_ok depositorNamed)).1
    have first : Keeps key before opened := by
      unfold Processor.openTokenAccount at opens
      split at opens
      · simp only [bind_eq_ok] at opens
        obtain ⟨associated, creates, sets⟩ := opens
        have created : Keeps key before associated := invokeSigned_keeps lawful creates (by
          simp only [Invocation.MayChange, not_or, not_not]
          exact ⟨wallet ▸ mintAddress ▸ notToken, guarded⟩)
        exact created.trans (invokeSigned_keeps lawful sets (by
          simpa [Invocation.MayChange] using created.guarded guarded))
      · simp only [bind_eq_ok] at opens
        obtain ⟨token, -, -, -, made⟩ := opens
        cases made
        exact .refl key _
    exact first.trans (invokeSigned_keeps lawful mints (by simpa [Invocation.MayChange] using first.guarded guarded))
  · cases deposits

end Neutral

end Instructions

/-! ## One instruction -/

def withdrawer (accounts : List AccountMeta) : BridgeInstruction → Option (Pubkey × Pubkey)
  | .withdrawETH _ _ _ => do return ((← accounts[6]?).pubkey, (← accounts[3]?).pubkey)
  | .withdrawSPL _ _ _ _ => do return ((← accounts[9]?).pubkey, (← accounts[4]?).pubkey)
  | _ => none

def withdrawalDerivations (rt : Runtime) (ledger : Ledger) : Option AccountMeta → List Pda
  | none => []
  | some payer =>
      .userWithdrawalCounter payer.pubkey ::
        match WithdrawalCounter.unpack (ledger (rt.pubkey (.userWithdrawalCounter payer.pubkey))).data with
        | .ok account => [.withdrawalTransaction payer.pubkey account.counter]
        | .error _ => []

def derivations (rt : Runtime) (ledger : Ledger) (accounts : List AccountMeta) : BridgeInstruction → List Derivation
  | .depositETH .. => [Pda.vault.derivation]
  | .withdrawETH _ _ _ =>
      (.config :: .vault :: withdrawalDerivations rt ledger accounts[6]?).map Pda.derivation
  | .createSPL remoteToken _ _ _ _ =>
      [.vault, .bridgeOwner, .splTokenOwner remoteToken, .splTokenMint remoteToken].map Pda.derivation ++
        [metadataDerivation (rt.pubkey (.splTokenMint remoteToken))]
  | .depositERC20 _ remoteToken _ recipient _ =>
      [.vault, .splTokenOwner remoteToken, .splTokenMint remoteToken].map Pda.derivation ++
        [associatedTokenDerivation recipient (rt.pubkey (.splTokenMint remoteToken))]
  | .withdrawSPL remoteToken _ _ _ =>
      (.config :: .splTokenOwner remoteToken :: .splTokenMint remoteToken ::
        withdrawalDerivations rt ledger accounts[9]?).map Pda.derivation
  | .changeBridgeAdmin _ => [Pda.bridgeOwner.derivation]
  | .createUserWithdrawalCounterAccount =>
      accounts[3]?.toList.map fun payer => (Pda.userWithdrawalCounter payer.pubkey).derivation
  | .updateSPLMetadata remoteToken _ _ _ =>
      [.bridgeOwner, .splTokenOwner remoteToken].map Pda.derivation ++
        accounts[1]?.toList.map fun mint => metadataDerivation mint.pubkey
  | _ => []

def Pda.OfWithdrawals : Pda → Prop
  | userWithdrawalCounter _ => True
  | withdrawalTransaction _ _ => True
  | _ => False

section Effect

variable {rt : Runtime} (lawful : rt.Lawful) {used : Derivation → Prop} (apart : NoCollision rt.findProgramAddress used)
  {accounts : List AccountMeta} {before after : Ledger}

include apart in
theorem withdrew_of_derived {payer : AccountMeta} {record : Pubkey} {counter : UInt64}
    (within : ∀ pda ∈ withdrawalDerivations rt before (some payer), used pda.derivation)
    (guarded : ∀ pda : Pda, used pda.derivation → pda.OfWithdrawals → Guarded before (rt.pubkey pda))
    (unpacks : WithdrawalCounter.unpack (before (rt.pubkey (.userWithdrawalCounter payer.pubkey))).data = .ok ⟨counter⟩)
    (withdraws : rt.pubkey (.userWithdrawalCounter payer.pubkey) ≠ rt.pubkey (.withdrawalTransaction payer.pubkey counter) →
      Guarded before (rt.pubkey (.userWithdrawalCounter payer.pubkey)) →
      Guarded before (rt.pubkey (.withdrawalTransaction payer.pubkey counter)) → Withdrew rt payer.pubkey record counter before after) :
    used (Pda.userWithdrawalCounter payer.pubkey).derivation ∧ used (Pda.withdrawalTransaction payer.pubkey counter).derivation ∧
      Withdrew rt payer.pubkey record counter before after := by
  rw [withdrawalDerivations, unpacks] at within
  have counterUsed := within (.userWithdrawalCounter payer.pubkey) (by simp)
  have recordUsed := within (.withdrawalTransaction payer.pubkey counter) (by simp)
  refine ⟨counterUsed, recordUsed, withdraws ?_ (guarded _ counterUsed trivial) (guarded _ recordUsed trivial)⟩
  intro same
  exact absurd (apart.pda counterUsed recordUsed same) (by simp)

include lawful apart in
theorem processInstruction_effect {instruction : BridgeInstruction}
    (done : Processor.processInstruction rt accounts before instruction = .ok after)
    (within : ∀ derivation ∈ derivations rt before accounts instruction, used derivation)
    (guarded : ∀ pda : Pda, used pda.derivation → pda.OfWithdrawals → Guarded before (rt.pubkey pda)) :
    (∃ payer record counter, withdrawer accounts instruction = some (payer, record) ∧
      used (Pda.userWithdrawalCounter payer).derivation ∧ used (Pda.withdrawalTransaction payer counter).derivation ∧
      Withdrew rt payer record counter before after) ∨
    (withdrawer accounts instruction = none ∧ ∃ user, used (Pda.userWithdrawalCounter user).derivation ∧
      Opened rt user before after) ∨
    (withdrawer accounts instruction = none ∧ ∀ pda : Pda, used pda.derivation → pda.OfWithdrawals →
      Keeps (rt.pubkey pda) before after) := by
  -- An address of a counter or of a record is no other address that the instruction derives.
  have elsewhere : ∀ pda other : Pda, used pda.derivation → pda.OfWithdrawals → used other.derivation →
      ¬ other.OfWithdrawals → rt.pubkey pda ≠ rt.pubkey other := by
    intro pda other pdaUsed tracked otherUsed untracked same
    exact untracked (apart.pda pdaUsed otherUsed same ▸ tracked)
  cases instruction with
  | createVaultAccount =>
      cases done
      exact .inr (.inr ⟨rfl, fun pda _ _ => .refl _ _⟩)
  | createWithdrawalCounterAccount =>
      cases done
      exact .inr (.inr ⟨rfl, fun pda _ _ => .refl _ _⟩)
  | createBridgeConfigAccount l1CrossDomainMessenger l1StandardBridge =>
      cases done
      exact .inr (.inr ⟨rfl, fun pda _ _ => .refl _ _⟩)
  | depositETH sender recipient mint value gas isCreation l1BlockNum l1BlockHash logIndex depositType depositFrom depositTo
      depositAmount depositExtraData depositL2Contract depositL1Contract =>
      exact .inr (.inr ⟨rfl, fun pda _ _ => depositEth_keeps lawful done⟩)
  | withdrawETH target value gasLimit =>
      obtain ⟨payer, record, counter, sixth, third, unpacks, withdraws⟩ := withdrawEth_ok lawful done
      obtain ⟨payerMeta, payerAt, rfl⟩ := Option.map_eq_some_iff.mp sixth
      obtain ⟨recordMeta, recordAt, rfl⟩ := Option.map_eq_some_iff.mp third
      have derived : ∀ pda ∈ withdrawalDerivations rt before (some payerMeta), used pda.derivation := by
        intro pda mem
        exact within _ (List.mem_map.mpr ⟨pda, by simp [payerAt, mem], rfl⟩)
      refine .inl ⟨payerMeta.pubkey, recordMeta.pubkey, counter, ?_,
        withdrew_of_derived apart derived guarded unpacks withdraws⟩
      simp only [withdrawer, payerAt, recordAt, Option.bind_eq_bind, Option.bind_some, Option.pure_def]
  | withdrawSPL remoteToken recipient amount gasLimit =>
      obtain ⟨payer, record, counter, ninth, fourth, unpacks, withdraws⟩ := withdrawSpl_ok lawful done
      obtain ⟨payerMeta, payerAt, rfl⟩ := Option.map_eq_some_iff.mp ninth
      obtain ⟨recordMeta, recordAt, rfl⟩ := Option.map_eq_some_iff.mp fourth
      have derived : ∀ pda ∈ withdrawalDerivations rt before (some payerMeta), used pda.derivation := by
        intro pda mem
        exact within _ (List.mem_map.mpr ⟨pda, by simp [payerAt, mem], rfl⟩)
      refine .inl ⟨payerMeta.pubkey, recordMeta.pubkey, counter, ?_,
        withdrew_of_derived apart derived guarded unpacks withdraws⟩
      simp only [withdrawer, payerAt, recordAt, Option.bind_eq_bind, Option.bind_some, Option.pure_def]
  | createSPL remoteToken name symbol uri decimals =>
      refine .inr (.inr ⟨rfl, ?_⟩)
      intro pda pdaUsed tracked
      have mintUsed := within (Pda.splTokenMint remoteToken).derivation (by simp [derivations])
      have metadataUsed := within (metadataDerivation (rt.pubkey (.splTokenMint remoteToken))) (by simp [derivations])
      exact createSpl_keeps lawful (guarded pda pdaUsed tracked) done
        (elsewhere pda _ pdaUsed tracked mintUsed (by simp [Pda.OfWithdrawals]))
        (apart.foreign pdaUsed metadataUsed (show mplTokenMetadataId ≠ withdrawalProgramPubkey by decide))
  | depositERC20 localToken remoteToken sender recipient amount =>
      refine .inr (.inr ⟨rfl, ?_⟩)
      intro pda pdaUsed tracked
      have tokenUsed := within (associatedTokenDerivation recipient (rt.pubkey (.splTokenMint remoteToken)))
        (by simp [derivations])
      exact depositErc20_keeps lawful (guarded pda pdaUsed tracked) done
        (apart.foreign pdaUsed tokenUsed (show splAssociatedTokenAccountId ≠ withdrawalProgramPubkey by decide))
  | changeBridgeAdmin newAdmin =>
      refine .inr (.inr ⟨rfl, ?_⟩)
      intro pda pdaUsed tracked
      have ownerUsed := within Pda.bridgeOwner.derivation (by simp [derivations])
      exact changeBridgeAdmin_keeps done (elsewhere pda _ pdaUsed tracked ownerUsed (by simp [Pda.OfWithdrawals]))
  | createUserWithdrawalCounterAccount =>
      obtain ⟨user, third, opened⟩ := createUserWithdrawalCounterAccount_ok lawful done
      obtain ⟨payer, payerAt, rfl⟩ := Option.map_eq_some_iff.mp third
      exact .inr (.inl ⟨rfl, payer.pubkey, within _ (by simp [derivations, payerAt]), opened⟩)
  | updateSPLMetadata remoteToken name symbol uri =>
      refine .inr (.inr ⟨rfl, ?_⟩)
      intro pda pdaUsed tracked
      exact updateSplMetadata_keeps lawful (guarded pda pdaUsed tracked) done

end Effect

/-! ## Runs -/

/-- A withdrawal that succeeded: who made it, the account that it wrote, and what that held before and after. -/
structure Withdrawal where
  user : Pubkey
  account : Pubkey
  before : List UInt8
  bytes : List UInt8
deriving DecidableEq, Repr

structure BridgeRun where
  ledger : Ledger
  log : List Withdrawal

namespace BridgeRun

variable (rt : Runtime)

def start (ledger : Ledger) : BridgeRun := ⟨ledger, []⟩

def made (before after : Ledger) (call : BridgeCall) : List Withdrawal :=
  (((BridgeInstruction.unpack call.input).bind (withdrawer call.accounts)).map fun (user, account) =>
    Withdrawal.mk user account (before account).data (after account).data).toList

def call (run : BridgeRun) (call : BridgeCall) : BridgeRun × Outcome ProgramError Unit :=
  match Processor.execute rt run.ledger call with
  | (after, .ok ()) => (⟨after, run.log ++ made run.ledger after call⟩, .ok ())
  | (after, .error e) => (⟨after, run.log⟩, .error e)

def Derives (used : Derivation → Prop) (run : BridgeRun) (call : BridgeCall) : Prop :=
  ∀ instruction, BridgeInstruction.unpack call.input = some instruction →
    ∀ derivation ∈ derivations rt run.ledger call.accounts instruction, used derivation

def withdrawalsOf (user : Pubkey) (log : List Withdrawal) : Nat := log.countP fun withdrawal => withdrawal.user = user

/-- The counter of a user is not there yet, or it is the number of the withdrawals of the user. -/
def Counts (run : BridgeRun) (user : Pubkey) : Prop :=
  ((run.ledger (rt.pubkey (.userWithdrawalCounter user))).data = [] ∧ withdrawalsOf user run.log = 0) ∨
  ∃ counter : UInt64, (run.ledger (rt.pubkey (.userWithdrawalCounter user))).data =
    (WithdrawalCounter.mk counter).packIntoSlice ∧ counter.toNat = withdrawalsOf user run.log

structure Recorded (used : Derivation → Prop) (run : BridgeRun) (withdrawal : Withdrawal) (counter : UInt64) : Prop where
  address : withdrawal.account = rt.pubkey (.withdrawalTransaction withdrawal.user counter)
  derived : used (Pda.withdrawalTransaction withdrawal.user counter).derivation
  numbered : counter.toNat < withdrawalsOf withdrawal.user run.log
  fresh : withdrawal.before = []
  stored : (run.ledger withdrawal.account).data = withdrawal.bytes
  record : IsRecord rt.abi withdrawal.user counter withdrawal.bytes

structure Inv (used : Derivation → Prop) (run : BridgeRun) : Prop where
  guarded : ∀ pda : Pda, used pda.derivation → pda.OfWithdrawals → Guarded run.ledger (rt.pubkey pda)
  counts : ∀ user, used (Pda.userWithdrawalCounter user).derivation → Counts rt run user
  recorded : ∀ withdrawal ∈ run.log, ∃ counter, Recorded rt used run withdrawal counter
  distinct : (run.log.map Withdrawal.account).Nodup

section

variable {rt : Runtime} {used : Derivation → Prop} {run : BridgeRun}

theorem withdrawalsOf_append_same (user account : Pubkey) (before bytes : List UInt8) (log : List Withdrawal) :
    withdrawalsOf user (log ++ [⟨user, account, before, bytes⟩]) = withdrawalsOf user log + 1 := by
  simp [withdrawalsOf, List.countP_append]

theorem withdrawalsOf_append_other {user other : Pubkey} (apart : other ≠ user) (account : Pubkey)
    (before bytes : List UInt8) (log : List Withdrawal) :
    withdrawalsOf other (log ++ [⟨user, account, before, bytes⟩]) = withdrawalsOf other log := by
  simp [withdrawalsOf, List.countP_append, apart.symm]

theorem withdrawalsOf_le (user : Pubkey) (log later : List Withdrawal) :
    withdrawalsOf user log ≤ withdrawalsOf user (log ++ later) := by
  rw [withdrawalsOf, withdrawalsOf, List.countP_append]
  omega

theorem Recorded.later {withdrawal : Withdrawal} {counter : UInt64} (recorded : Recorded rt used run withdrawal counter)
    {after : Ledger} (kept : Keeps withdrawal.account run.ledger after) (later : List Withdrawal) :
    Recorded rt used ⟨after, run.log ++ later⟩ withdrawal counter :=
  ⟨recorded.address, recorded.derived, recorded.numbered.trans_le (withdrawalsOf_le _ _ _), recorded.fresh,
    kept.data.trans recorded.stored, recorded.record⟩

theorem Counts.later {user : Pubkey} (counts : Counts rt run user) {after : Ledger}
    (kept : Keeps (rt.pubkey (.userWithdrawalCounter user)) run.ledger after) {log : List Withdrawal}
    (same : withdrawalsOf user log = withdrawalsOf user run.log) : Counts rt ⟨after, log⟩ user := by
  rcases counts with ⟨empty, none⟩ | ⟨counter, stored, number⟩
  · exact .inl ⟨kept.data.trans empty, same.trans none⟩
  · exact .inr ⟨counter, kept.data.trans stored, number.trans same.symm⟩

theorem Recorded.kept {withdrawal : Withdrawal} {counter : UInt64} (recorded : Recorded rt used run withdrawal counter)
    {after : Ledger}
    (keeps : ∀ pda : Pda, used pda.derivation → pda.OfWithdrawals → Keeps (rt.pubkey pda) run.ledger after) :
    Keeps withdrawal.account run.ledger after := by
  rw [recorded.address]
  exact keeps _ recorded.derived trivial

theorem Inv.keeps (inv : Inv rt used run) {after : Ledger}
    (keeps : ∀ pda : Pda, used pda.derivation → pda.OfWithdrawals → Keeps (rt.pubkey pda) run.ledger after) :
    Inv rt used ⟨after, run.log⟩ where
  guarded pda derived tracked := (keeps pda derived tracked).guarded (inv.guarded pda derived tracked)
  counts user derived := (inv.counts user derived).later (keeps _ derived trivial) rfl
  recorded withdrawal mem := by
    obtain ⟨counter, recorded⟩ := inv.recorded withdrawal mem
    have later := recorded.later (recorded.kept keeps) []
    rw [List.append_nil] at later
    exact ⟨counter, later⟩
  distinct := inv.distinct

variable (apart : NoCollision rt.findProgramAddress used)
include apart

theorem Inv.opened (inv : Inv rt used run) {user : Pubkey} (derived : used (Pda.userWithdrawalCounter user).derivation)
    {after : Ledger} (opened : Opened rt user run.ledger after) : Inv rt used ⟨after, run.log⟩ := by
  have others : ∀ pda : Pda, used pda.derivation → pda ≠ .userWithdrawalCounter user →
      Keeps (rt.pubkey pda) run.ledger after := by
    intro pda pdaUsed other
    exact opened.others _ fun same => other (apart.pda pdaUsed derived same)
  constructor
  · intro pda pdaUsed tracked
    by_cases same : pda = .userWithdrawalCounter user
    · rw [same]
      exact .inl opened.owner
    · exact (others pda pdaUsed same).guarded (inv.guarded pda pdaUsed tracked)
  · intro other otherUsed
    by_cases same : other = user
    · rw [same]
      refine .inr ⟨0, opened.written, ?_⟩
      rcases inv.counts user derived with ⟨-, none⟩ | ⟨counter, stored, -⟩
      · exact none.symm
      · have length := (WithdrawalCounter.mk counter).length_packIntoSlice
        rw [← stored, opened.fresh] at length
        cases length
    · exact (inv.counts other otherUsed).later (others _ otherUsed (by simp [same])) rfl
  · intro withdrawal mem
    obtain ⟨counter, recorded⟩ := inv.recorded withdrawal mem
    have kept : Keeps withdrawal.account run.ledger after := by
      rw [recorded.address]
      exact others _ recorded.derived (by simp)
    have later := recorded.later kept []
    rw [List.append_nil] at later
    exact ⟨counter, later⟩
  · exact inv.distinct

theorem Inv.withdrew (inv : Inv rt used run) {payer record : Pubkey} {counter : UInt64}
    (counterUsed : used (Pda.userWithdrawalCounter payer).derivation)
    (recordUsed : used (Pda.withdrawalTransaction payer counter).derivation) {after : Ledger}
    (withdrew : Withdrew rt payer record counter run.ledger after) :
    Inv rt used ⟨after, run.log ++ [⟨payer, record, (run.ledger record).data, (after record).data⟩]⟩ := by
  have others : ∀ pda : Pda, used pda.derivation → pda.OfWithdrawals → pda ≠ .userWithdrawalCounter payer →
      pda ≠ .withdrawalTransaction payer counter → Keeps (rt.pubkey pda) run.ledger after := by
    intro pda pdaUsed tracked notCounter notRecord
    refine withdrew.others _ (inv.guarded pda pdaUsed tracked) (fun same => notCounter (apart.pda pdaUsed counterUsed same)) ?_
    rw [withdrew.address]
    exact fun same => notRecord (apart.pda pdaUsed recordUsed same)
  have number : counter.toNat = withdrawalsOf payer run.log := by
    rcases inv.counts payer counterUsed with ⟨empty, -⟩ | ⟨stored, held, number⟩
    · have length := WithdrawalCounter.unpack_length withdrew.taken
      rw [empty] at length
      cases length
    · have unpacks := withdrew.taken
      rw [held, WithdrawalCounter.unpack_packIntoSlice] at unpacks
      cases unpacks
      exact number
  -- An earlier withdrawal of the same user has a smaller number.
  have earlier : ∀ withdrawal ∈ run.log, ∀ earlierCounter, Recorded rt used run withdrawal earlierCounter →
      Pda.withdrawalTransaction withdrawal.user earlierCounter ≠ .withdrawalTransaction payer counter := by
    intro withdrawal mem earlierCounter recorded same
    cases same
    exact absurd recorded.numbered (by rw [number]; exact lt_irrefl _)
  constructor
  · intro pda pdaUsed tracked
    by_cases isCounter : pda = .userWithdrawalCounter payer
    · have guarded := inv.guarded pda pdaUsed tracked
      rw [isCounter] at guarded ⊢
      rw [Guarded, withdrew.counterOwner]
      exact guarded
    · by_cases isRecord : pda = .withdrawalTransaction payer counter
      · rw [isRecord, ← withdrew.address]
        exact .inl withdrew.recordOwner
      · exact (others pda pdaUsed tracked isCounter isRecord).guarded (inv.guarded pda pdaUsed tracked)
  · intro user userUsed
    by_cases same : user = payer
    · rw [same]
      refine .inr ⟨counter + 1, withdrew.left, ?_⟩
      rw [withdrawalsOf_append_same, ← number, UInt64.toNat_add]
      exact Nat.mod_eq_of_lt withdrew.fits
    · exact (inv.counts user userUsed).later (others _ userUsed trivial (by simp [same]) (by simp))
        (withdrawalsOf_append_other same _ _ _ _)
  · intro withdrawal mem
    rcases List.mem_append.mp mem with old | new
    · obtain ⟨earlierCounter, recorded⟩ := inv.recorded withdrawal old
      refine ⟨earlierCounter, recorded.later ?_ _⟩
      rw [recorded.address]
      exact others _ recorded.derived trivial (by simp) (earlier withdrawal old earlierCounter recorded)
    · rw [List.mem_singleton] at new
      subst new
      refine ⟨counter, withdrew.address, recordUsed, ?_, withdrew.fresh, rfl, withdrew.written⟩
      rw [withdrawalsOf_append_same, number]
      exact Nat.lt_succ_self _
  · rw [List.map_append, List.map_singleton, List.nodup_append]
    refine ⟨inv.distinct, List.nodup_singleton _, ?_⟩
    intro account old account' new same
    obtain ⟨withdrawal, mem, rfl⟩ := List.mem_map.mp old
    rw [List.mem_singleton] at new
    obtain ⟨earlierCounter, recorded⟩ := inv.recorded withdrawal mem
    rw [new, recorded.address, withdrew.address] at same
    exact earlier withdrawal mem earlierCounter recorded (apart.pda recorded.derived recordUsed same)

theorem Inv.call_cases (lawful : rt.Lawful) (inv : Inv rt used run) {made : BridgeCall} (within : Derives rt used run made) :
    (run.call rt made).1 = run ∨
    (∃ payer record counter after, used (Pda.userWithdrawalCounter payer).derivation ∧
      used (Pda.withdrawalTransaction payer counter).derivation ∧ Withdrew rt payer record counter run.ledger after ∧
      (run.call rt made).1 = ⟨after, run.log ++ [⟨payer, record, (run.ledger record).data, (after record).data⟩]⟩) ∨
    (∃ user after, used (Pda.userWithdrawalCounter user).derivation ∧ Opened rt user run.ledger after ∧
      (run.call rt made).1 = ⟨after, run.log⟩) ∨
    ∃ after, (∀ pda : Pda, used pda.derivation → pda.OfWithdrawals → Keeps (rt.pubkey pda) run.ledger after) ∧
      (run.call rt made).1 = ⟨after, run.log⟩ := by
  unfold BridgeRun.call Processor.execute
  cases attempted : Processor.attempt rt run.ledger made with
  | error e => exact .inl rfl
  | ok after =>
      simp only [Processor.attempt, Processor.process, bind_eq_ok] at attempted
      obtain ⟨_, ⟨instruction, unpacks, done⟩, -, -, same⟩ := attempted
      cases same
      have read : BridgeInstruction.unpack made.input = some instruction := by
        unfold Processor.orFail at unpacks
        split at unpacks
        · cases unpacks
          assumption
        · cases unpacks
      simp only [BridgeRun.made, read, Option.bind_some]
      rcases processInstruction_effect lawful apart done (within instruction read) inv.guarded with
        ⟨payer, record, counter, withdraws, counterUsed, recordUsed, withdrew⟩ | ⟨none, user, userUsed, opened⟩ | ⟨none, keeps⟩
      · rw [withdraws]
        exact .inr (.inl ⟨payer, record, counter, after, counterUsed, recordUsed, withdrew, rfl⟩)
      · rw [none, Option.map_none, Option.toList_none, List.append_nil]
        exact .inr (.inr (.inl ⟨user, after, userUsed, opened, rfl⟩))
      · rw [none, Option.map_none, Option.toList_none, List.append_nil]
        exact .inr (.inr (.inr ⟨after, keeps, rfl⟩))

theorem Inv.call (lawful : rt.Lawful) (inv : Inv rt used run) {made : BridgeCall} (within : Derives rt used run made) :
    Inv rt used (run.call rt made).1 := by
  rcases inv.call_cases apart lawful within with same | ⟨payer, record, counter, after, counterUsed, recordUsed, withdrew, same⟩ |
    ⟨user, after, userUsed, opened, same⟩ | ⟨after, keeps, same⟩
  · rw [same]
    exact inv
  · rw [same]
    exact inv.withdrew apart counterUsed recordUsed withdrew
  · rw [same]
    exact inv.opened apart userUsed opened
  · rw [same]
    exact inv.keeps keeps

def WritesRecords (rt : Runtime) (used : Derivation → Prop) (run : BridgeRun) (made : BridgeCall) : Prop :=
  ∀ user counter, used (Pda.withdrawalTransaction user counter).derivation →
    ((run.call rt made).1.ledger (rt.pubkey (.withdrawalTransaction user counter))).data ≠
      (run.ledger (rt.pubkey (.withdrawalTransaction user counter))).data →
    ∃ withdrawal, (run.call rt made).1.log = run.log ++ [withdrawal] ∧
      withdrawal.account = rt.pubkey (.withdrawalTransaction user counter)

theorem Inv.writesRecords (lawful : rt.Lawful) (inv : Inv rt used run) {made : BridgeCall} (within : Derives rt used run made) :
    WritesRecords rt used run made := by
  intro user counter derived changed
  rcases inv.call_cases apart lawful within with same | ⟨payer, record, number, after, counterUsed, recordUsed, withdrew, same⟩ |
    ⟨opener, after, userUsed, opened, same⟩ | ⟨after, keeps, same⟩
  · rw [same] at changed
    exact absurd rfl changed
  · rw [same] at changed ⊢
    refine ⟨_, rfl, ?_⟩
    by_contra other
    refine changed (withdrew.others _ (inv.guarded _ derived trivial) ?_ (Ne.symm other)).data
    exact fun equal => absurd (apart.pda derived counterUsed equal) (by simp)
  · rw [same] at changed
    refine absurd (opened.others _ ?_).data changed
    exact fun equal => absurd (apart.pda derived userUsed equal) (by simp)
  · rw [same] at changed
    exact absurd (keeps _ derived trivial).data changed

omit apart in
def Genesis (rt : Runtime) (used : Derivation → Prop) (ledger : Ledger) : Prop :=
  ∀ pda : Pda, used pda.derivation → pda.OfWithdrawals →
    (ledger (rt.pubkey pda)).data = [] ∧ (ledger (rt.pubkey pda)).owner = systemProgramId

omit apart in
theorem Inv.start {ledger : Ledger} (genesis : Genesis rt used ledger) : Inv rt used (start ledger) where
  guarded pda derived tracked := .inr (genesis pda derived tracked).2
  counts user derived := .inl ⟨(genesis _ derived trivial).1, rfl⟩
  recorded withdrawal mem := by cases mem
  distinct := List.nodup_nil

theorem Inv.runs (lawful : rt.Lawful) (inv : Inv rt used run) {calls : List BridgeCall}
    (within : Along (BridgeRun.call rt) (Derives rt used) run calls) :
    Inv rt used (Lib.run (BridgeRun.call rt) run calls) := by
  induction calls generalizing run with
  | nil => exact inv
  | cons made calls ih => exact ih (inv.call apart lawful within.1) within.2

omit apart in
theorem Inv.bytes_nodup (encodes : Abi.Lawful rt.abi.encode) (inv : Inv rt used run) : (run.log.map Withdrawal.bytes).Nodup := by
  refine List.Nodup.map_on ?_ (List.Nodup.of_map _ inv.distinct)
  intro withdrawal mem withdrawal' mem' same
  obtain ⟨counter, recorded⟩ := inv.recorded withdrawal mem
  obtain ⟨counter', recorded'⟩ := inv.recorded withdrawal' mem'
  obtain ⟨users, counters⟩ := recorded.record.unique encodes recorded'.record same
  have accounts : withdrawal.account = withdrawal'.account := by
    rw [recorded.address, recorded'.address, users, counters]
  exact List.inj_on_of_nodup_map inv.distinct mem mem' accounts

end

theorem tryCalldata_ok {len : Nat} {calldata : List UInt8} (fits : calldata.length = len) :
    Processor.tryCalldata len calldata = .ok ⟨calldata, fits⟩ := by
  rw [Processor.tryCalldata, dif_pos fits]

/-- Over every run: a counter is the number of its user's withdrawals; the record of a withdrawal is written once, into
an account without data that no other withdrawal writes, and its bytes are those of no other record; addresses of
different kinds are different; and the calldata always has the length of its field. -/
theorem withdrawals_unique (rt : Runtime) (lawful : rt.Lawful) {used : Derivation → Prop}
    (apart : NoCollision rt.findProgramAddress used) {ledger : Ledger} (genesis : Genesis rt used ledger)
    (calls : List BridgeCall) (within : Along (call rt) (Derives rt used) (start ledger) calls) :
    (∀ user, used (Pda.userWithdrawalCounter user).derivation → Counts rt (run (call rt) (start ledger) calls) user) ∧
    (∀ withdrawal ∈ (run (call rt) (start ledger) calls).log, withdrawal.before = [] ∧
      ((run (call rt) (start ledger) calls).ledger withdrawal.account).data = withdrawal.bytes) ∧
    Along (call rt) (WritesRecords rt used) (start ledger) calls ∧
    ((run (call rt) (start ledger) calls).log.map Withdrawal.account).Nodup ∧
    ((run (call rt) (start ledger) calls).log.map Withdrawal.bytes).Nodup ∧
    (∀ pda pda' : Pda, used pda.derivation → used pda'.derivation → rt.pubkey pda = rt.pubkey pda' → pda = pda') ∧
    (∀ l1StandardBridge sender target value gasLimit counter, ∃ data,
      Processor.tryCalldata ethWithdrawalTransactionCalldataLen
        (rt.abi.getBridgeEthCalldata l1StandardBridge sender target value gasLimit counter) = .ok data) ∧
    ∀ l1StandardBridge localToken remoteToken sender target amount gasLimit counter, ∃ data,
      Processor.tryCalldata splWithdrawalTransactionCalldataLen
        (rt.abi.getBridgeErc20Calldata l1StandardBridge localToken remoteToken sender target amount gasLimit counter) =
          .ok data := by
  have inv := (Inv.start genesis).runs apart lawful within
  refine ⟨inv.counts, ?_, ?_, inv.distinct, inv.bytes_nodup lawful.encodes, fun pda pda' => apart.pda, ?_, ?_⟩
  · intro withdrawal mem
    obtain ⟨counter, recorded⟩ := inv.recorded withdrawal mem
    exact ⟨recorded.fresh, recorded.stored⟩
  · exact along_of_invariant (Inv rt used) (fun run made inv within => inv.call apart lawful within)
      (fun run made inv within => inv.writesRecords apart lawful within) (Inv.start genesis) within
  · intro l1StandardBridge sender target value gasLimit counter
    exact ⟨_, tryCalldata_ok (EthAbi.length_getBridgeEthCalldata lawful.encodes ..)⟩
  · intro l1StandardBridge localToken remoteToken sender target amount gasLimit counter
    exact ⟨_, tryCalldata_ok (EthAbi.length_getBridgeErc20Calldata lawful.encodes ..)⟩

end BridgeRun

/-! ## Two withdrawals -/

namespace Localnet

def user : Pubkey := .ofNat 0xA1

def derived : List Derivation := [Pda.vault, .config, .userWithdrawalCounter user, .withdrawalTransaction user 0,
  .withdrawalTransaction user 1].map Pda.derivation

def addresses : List (Derivation × Pubkey) := derived.zip [
  .ofNat 0x9c794548209631e043361ffd54dd9509b4764017b6d3d68e03c220adf6168e53,
  .ofNat 0x3d911bd4dea6b0a46cc69f6c0e15fad4c84d7fb0f3518f7d4616b6f209869fd0,
  .ofNat 0xf620999a02fa10638b1106fc01c998a0553bfc3a31fd91cf470c82c35ef68643,
  .ofNat 0xddcccee8bacd0b3793fb97b5105aca8beb61174958cc7d7f66d4bcc4dcf3fcd2,
  .ofNat 0xf2156e4562c6964a168c94337e22ff604718047c5586c6bd7d79f1e29bf0fcb3]

/-- `SysvarRent111111111111111111111111111111111`. -/
def sysvarRent : Pubkey := .ofNat 0x06a7d517192c5c51218cc94c3d4af17f58daee089ba1fd44e3dbd98a00000000

def signs (key : Pubkey) (infos : List AccountMeta) (signers : List Pubkey) : Bool :=
  key ∈ signers || infos.any fun info => info.pubkey = key && info.isSigner

def invoke : Invocation → List AccountMeta → List Pubkey → Ledger → Except ProgramError Ledger
  | .transfer source destination lamports, infos, signers, ledger =>
      if signs source infos signers ∧ lamports ≤ (ledger source).lamports then
        .ok fun key =>
          { ledger key with lamports := (ledger key).lamports - (if key = source then lamports else 0) +
              if key = destination then lamports else 0 }
      else .error (.called "insufficient funds for instruction")
  | .allocate target space, infos, signers, ledger =>
      if signs target infos signers ∧ (ledger target).data = [] ∧ (ledger target).owner = systemProgramId then
        .ok (ledger.setData target (List.replicate space 0))
      else .error (.called "an account with the same address already exists")
  | .assign target owner, infos, signers, ledger =>
      if signs target infos signers then
        .ok fun key => if key = target then { ledger target with owner } else ledger key
      else .error (.called "missing required signature for instruction")
  | _, _, _, _ => .error (.called "unsupported program id")

def runtime : Runtime where
  findProgramAddress seeds program := (addresses.lookup ⟨seeds, program⟩).getD (.ofNat 0)
  abi := ⟨Abi.encode, fun bytes =>
    if bytes = "relayMessage(uint256,bytes32,address,uint256,uint256,bytes)".toUTF8.data.toList then
      .ofNat 0x54aa43a31b859bf01b267f1fb4fabd19000d8402c7acb9ffba265f56b0b08fcc
    else .ofNat 0x596a37c5772a5e8ccdaa906c643390d1c209b239669a0f14f0ed855f11f62690⟩
  rentGet := .ok ⟨fun len => .ofNat ((128 + len) * 6960)⟩
  rentFromAccountInfo info _ :=
    if info.pubkey = sysvarRent then .ok ⟨fun len => .ofNat ((128 + len) * 6960)⟩ else .error (.called "invalid argument")
  invoke
  unpackMint _ := .error .invalidAccountData
  unpackTokenAccount _ := .error .invalidAccountData
  verify _ _ _ := .ok ()

def genesis : Ledger := fun key =>
  if key = user then ⟨10 ^ 10, [], systemProgramId⟩
  else if key = runtime.pubkey .config then ⟨10 ^ 7, List.replicate 20 1 ++ List.replicate 20 2, withdrawalProgramPubkey⟩
  else if key = runtime.pubkey .vault then ⟨10 ^ 10, [], withdrawalProgramPubkey⟩
  else ⟨0, [], systemProgramId⟩

def openCounter : BridgeCall :=
  ⟨[.newReadonly systemProgramId false, .newReadonly sysvarRent false,
    .new (runtime.pubkey (.userWithdrawalCounter user)) false, .new user true], [9]⟩

def withdraw (counter : UInt64) : BridgeCall :=
  ⟨[.newReadonly systemProgramId false, .newReadonly sysvarRent false,
    .new (runtime.pubkey (.userWithdrawalCounter user)) false,
    .new (runtime.pubkey (.withdrawalTransaction user counter)) false, .new (runtime.pubkey .vault) false,
    .newReadonly (runtime.pubkey .config) false, .new user true],
    3 :: (List.replicate 20 0xEE ++ (packU128 1000 ++ packU128 500000))⟩

def calls : List BridgeCall := [openCounter, withdraw 0, withdraw 1]

theorem invoke_keeps {invocation : Invocation} {infos : List AccountMeta} {signers : List Pubkey} {before after : Ledger}
    {key : Pubkey} (invokes : invoke invocation infos signers before = .ok after)
    (out : ¬ invocation.MayChange runtime.findProgramAddress before key) : Keeps key before after := by
  cases invocation with
  | transfer source destination lamports =>
      simp only [invoke] at invokes
      split at invokes
      · cases invokes
        exact ⟨rfl, rfl⟩
      · cases invokes
  | allocate target space =>
      simp only [invoke] at invokes
      split at invokes
      · cases invokes
        exact before.setData_keeps out _
      · cases invokes
  | assign target owner =>
      simp only [invoke] at invokes
      split at invokes
      · cases invokes
        have other : key ≠ target := out
        constructor
        · simp only [if_neg other]
        · simp only [if_neg other]
      · cases invokes
  | _ => cases invokes

theorem runtime_lawful : runtime.Lawful where
  encodes := Abi.encode_lawful
  keeps invocation infos signers before after key invokes out := invoke_keeps invokes out
  allocates key space infos signers before after invokes := by
    simp only [runtime, invoke] at invokes
    split at invokes
    · rename_i fits
      cases invokes
      rw [Ledger.setData_same]
      exact ⟨fits.2.1, rfl, rfl⟩
    · cases invokes
  assigns key owner infos signers before after invokes := by
    simp only [runtime, invoke] at invokes
    split at invokes
    · cases invokes
      simp only [if_pos]
      exact ⟨trivial, trivial⟩
    · cases invokes

theorem addresses_apart : NoCollision runtime.findProgramAddress (· ∈ derived) := by
  have each : ∀ derivation ∈ derived, ∀ derivation' ∈ derived,
      derivation.address runtime.findProgramAddress = derivation'.address runtime.findProgramAddress →
      derivation.seeds.flatten = derivation'.seeds.flatten ∧ derivation.program = derivation'.program := by
    decide +kernel
  intro derivation derivation' mem mem'
  exact each derivation mem derivation' mem'

theorem calls_derive : Along (BridgeRun.call runtime) (BridgeRun.Derives runtime (· ∈ derived)) (.start genesis) calls := by
  have opens : BridgeInstruction.unpack openCounter.input = some .createUserWithdrawalCounterAccount := by decide +kernel
  have withdraws : ∀ counter, BridgeInstruction.unpack (withdraw counter).input =
      some (.withdrawETH ⟨List.replicate 20 0xEE, rfl⟩ 1000 500000) := by
    intro counter
    change BridgeInstruction.unpack (3 :: (List.replicate 20 0xEE ++ (packU128 1000 ++ packU128 500000))) = _
    decide +kernel
  refine ⟨?_, ?_, ?_, trivial⟩
  · intro instruction unpacks
    rw [opens] at unpacks
    cases unpacks
    decide +kernel
  · intro instruction unpacks
    rw [withdraws] at unpacks
    cases unpacks
    decide +kernel
  · intro instruction unpacks
    rw [withdraws] at unpacks
    cases unpacks
    decide +kernel

theorem withdrawals_unique_two :
    (run (BridgeRun.call runtime) (.start genesis) calls).log.map Withdrawal.account =
      [runtime.pubkey (.withdrawalTransaction user 0), runtime.pubkey (.withdrawalTransaction user 1)] ∧
    BridgeRun.Counts runtime (run (BridgeRun.call runtime) (.start genesis) calls) user ∧
    ((run (BridgeRun.call runtime) (.start genesis) calls).log.map Withdrawal.bytes).Nodup := by
  have nothing : BridgeRun.Genesis runtime (· ∈ derived) genesis := by
    intro pda mem tracked
    obtain ⟨listed, mem, same⟩ := List.mem_map.mp mem
    cases Pda.flatten_seeds_injective (congrArg (fun derivation => derivation.seeds.flatten) same)
    simp only [List.mem_cons, List.not_mem_nil, or_false] at mem
    rcases mem with rfl | rfl | rfl | rfl | rfl
    · cases tracked
    · cases tracked
    · decide +kernel
    · decide +kernel
    · decide +kernel
  have unique := BridgeRun.withdrawals_unique runtime runtime_lawful addresses_apart nothing calls calls_derive
  exact ⟨by decide +kernel, unique.1 user (by decide +kernel), unique.2.2.2.2.1⟩

end Localnet

end KonaSoon.Programs
