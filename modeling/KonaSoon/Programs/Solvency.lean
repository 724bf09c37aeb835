import KonaSoon.Programs.Withdrawals

namespace KonaSoon.Programs
open Lib Mpt Abi

/-! ## Conversions -/

def rate (decimals : UInt8) : Nat := 10 ^ (9 - decimals.toNat)

theorem rate_pos (decimals : UInt8) : 0 < rate decimals := Nat.pow_pos (by decide)

theorem rate_le (decimals : UInt8) : rate decimals ≤ 10 ^ 9 := Nat.pow_le_pow_right (by decide) (Nat.sub_le 9 _)

theorem checkedPow10_of_le (exponent : UInt8) (small : exponent.toNat ≤ 9) :
    ∃ power, checkedPow10 exponent = .ok power ∧ power.toNat = 10 ^ exponent.toNat := by
  have bound : 10 ^ exponent.toNat < 2 ^ 128 := lt_of_le_of_lt (Nat.pow_le_pow_right (by decide) small) (by norm_num)
  refine ⟨.ofNat 128 (10 ^ exponent.toNat), if_pos bound, ?_⟩
  rw [BitVec.toNat_ofNat, Nat.mod_eq_of_lt bound]

section Decimals

variable {decimals : UInt8} (accepted : decimals ≤ maxTokenDecimal)
include accepted

theorem toNat_sub_decimals : (splShareDecimal - decimals).toNat = 9 - decimals.toNat :=
  UInt8.toNat_sub_of_le _ _ accepted

theorem removeDust_eq (amount : BitVec 128) : removeDust amount decimals splShareDecimal = .ok amount :=
  if_pos accepted

theorem checkedPow10_sub : ∃ power, checkedPow10 (splShareDecimal - decimals) = .ok power ∧ power.toNat = rate decimals := by
  obtain ⟨power, computes, value⟩ := checkedPow10_of_le (splShareDecimal - decimals) (by
    rw [toNat_sub_decimals accepted]
    omega)
  refine ⟨power, computes, ?_⟩
  rw [value, toNat_sub_decimals accepted, rate]

theorem scaleUp {amount : BitVec 128} (fits : amount.toNat * rate decimals < 2 ^ 128) :
    ∃ shares, (checkedPow10 (splShareDecimal - decimals)).bind (checkedMul amount) = .ok shares ∧
      shares.toNat = amount.toNat * rate decimals := by
  obtain ⟨power, computes, value⟩ := checkedPow10_sub accepted
  rw [← value] at fits ⊢
  refine ⟨amount * power, ?_, ?_⟩
  · rw [computes]
    exact if_pos fits
  · rw [BitVec.toNat_mul, Nat.mod_eq_of_lt fits]

theorem convertDecimal_deposit (amount : BitVec 128) : ∃ tokens, convertDecimal amount splShareDecimal decimals = .ok tokens ∧
    tokens.toNat = amount.toNat / rate decimals := by
  unfold convertDecimal
  split
  · obtain ⟨power, computes, value⟩ := checkedPow10_sub accepted
    refine ⟨amount / power, by rw [computes]; rfl, ?_⟩
    rw [BitVec.toNat_udiv, value]
  · rename_i above
    -- A token of nine decimals is a share.
    have nine : decimals = splShareDecimal := UInt8.le_antisymm accepted (UInt8.not_lt.mp above)
    subst nine
    have one : rate splShareDecimal = 1 := rfl
    obtain ⟨shares, scales, value⟩ := scaleUp accepted (show amount.toNat * rate splShareDecimal < 2 ^ 128 by
      rw [one, mul_one]
      exact amount.isLt)
    rw [one, mul_one] at value
    exact ⟨shares, scales, by rw [one, Nat.div_one, value]⟩

theorem convertDecimal_withdrawal (amount : UInt64) :
    ∃ shares, convertDecimal (.ofNat 128 amount.toNat) decimals splShareDecimal = .ok shares ∧
      shares.toNat = amount.toNat * rate decimals := by
  have value : (BitVec.ofNat 128 amount.toNat).toNat = amount.toNat := by
    rw [BitVec.toNat_ofNat, Nat.mod_eq_of_lt (lt_trans amount.toNat_lt (by norm_num))]
  have fits : (BitVec.ofNat 128 amount.toNat).toNat * rate decimals < 2 ^ 128 := by
    rw [value]
    calc amount.toNat * rate decimals ≤ 2 ^ 64 * 10 ^ 9 := Nat.mul_le_mul amount.toNat_lt.le (rate_le decimals)
      _ < 2 ^ 128 := by norm_num
  obtain ⟨shares, scales, total⟩ := scaleUp accepted fits
  refine ⟨shares, ?_, by rw [total, value]⟩
  have below : ¬ decimals > splShareDecimal := UInt8.not_lt.mpr accepted
  rw [convertDecimal, if_neg below]
  exact scales

theorem convertDecimal_back {amount : UInt64} {shares : BitVec 128}
    (converts : convertDecimal (.ofNat 128 amount.toNat) decimals splShareDecimal = .ok shares) :
    convertDecimal shares splShareDecimal decimals = .ok (.ofNat 128 amount.toNat) := by
  obtain ⟨scaled, scales, total⟩ := convertDecimal_withdrawal accepted amount
  rw [converts] at scales
  cases scales
  obtain ⟨tokens, back, value⟩ := convertDecimal_deposit accepted shares
  rw [total, Nat.mul_div_cancel _ (rate_pos decimals)] at value
  rw [back]
  congr 1
  apply BitVec.eq_of_toNat_eq
  rw [value, BitVec.toNat_ofNat, Nat.mod_eq_of_lt (lt_trans amount.toNat_lt (by norm_num))]

end Decimals

theorem orFail_toU64 {amount : BitVec 128} {error : BridgeError} {value : UInt64}
    (fits : Processor.orFail (toU64 amount) error = .ok value) : value.toNat = amount.toNat := by
  unfold toU64 at fits
  split at fits
  · rename_i small
    cases fits
    exact UInt64.toNat_ofNat_of_lt' small
  · cases fits

/-! ## Supply -/

def Invocation.minted (key : Pubkey) : Invocation → Nat
  | mintTo mint _ _ amount => if mint = key then amount.toNat else 0
  | _ => 0

def Invocation.burned (key : Pubkey) : Invocation → Nat
  | burn _ mint _ amount => if mint = key then amount.toNat else 0
  | _ => 0

/-- The token program keeps the supply of a mint equal to what was minted less what was burned. -/
structure Runtime.KeepsSupply (rt : Runtime) : Prop where
  length : ∀ data mint, rt.unpackMint data = .ok mint → data.length = Processor.mintLen
  initializes : ∀ key authority decimals infos signers before after,
    rt.invoke (.initializeMint key authority decimals) infos signers before = .ok after →
    rt.unpackMint (after key).data = .ok ⟨0, decimals⟩
  supply : ∀ invocation infos signers before after key mint,
    rt.invoke invocation infos signers before = .ok after → rt.unpackMint (before key).data = .ok mint →
    ∃ mint', rt.unpackMint (after key).data = .ok mint' ∧ mint'.decimals = mint.decimals ∧
      mint'.supply.toNat + invocation.burned key = mint.supply.toNat + invocation.minted key

def HoldsMint (rt : Runtime) (key : Pubkey) (mint : Mint) (ledger : Ledger) : Prop :=
  rt.unpackMint (ledger key).data = .ok mint

section Supply

variable {rt : Runtime} (keeps : rt.KeepsSupply) {key : Pubkey} {mint : Mint} {before after : Ledger}
include keeps

theorem HoldsMint.invoked (holds : HoldsMint rt key mint before) {invocation : Invocation} {infos : List AccountMeta}
    {signers : List Pda} (invokes : rt.invokeSigned invocation infos signers before = .ok after)
    (mints : invocation.minted key = 0) (burns : invocation.burned key = 0) : HoldsMint rt key mint after := by
  obtain ⟨mint', unpacks, decimals, supply⟩ := keeps.supply _ _ _ _ _ key mint (ofCall_eq_ok invokes) holds
  rw [mints, burns] at supply
  have same : mint' = mint := by
    cases mint'
    cases mint
    cases UInt64.toNat_inj.mp supply
    cases decimals
    rfl
  rw [HoldsMint, unpacks, same]

theorem HoldsMint.written (holds : HoldsMint rt key mint before) {other : Pubkey} {data : List UInt8}
    (length : (before other).data.length ≠ Processor.mintLen) : HoldsMint rt key mint (before.setData other data) := by
  have apart : key ≠ other := by
    rintro rfl
    exact length (keeps.length _ _ holds)
  rw [HoldsMint, (before.setData_keeps apart data).data]
  exact holds

theorem HoldsMint.created (holds : HoldsMint rt key mint before) {rent : Rent} {payer target systemProgram : AccountMeta}
    {len : Nat} {owner : Pubkey} {payerSigners targetSigners : List Pda}
    (creates : Processor.createAccount rt rent payer target systemProgram len owner payerSigners targetSigners before =
      .ok after) : HoldsMint rt key mint after := by
  simp only [Processor.createAccount, bind_eq_ok] at creates
  obtain ⟨funded, funds, allocated, allocates, assigns⟩ := creates
  have first : HoldsMint rt key mint funded := by
    simp only [Processor.payRent] at funds
    split at funds
    · exact holds.invoked keeps funds rfl rfl
    · cases funds
      exact holds
  exact (first.invoked keeps allocates rfl rfl).invoked keeps assigns rfl rfl

theorem HoldsMint.counterTaken (holds : HoldsMint rt key mint before) {userWithdrawalCounter payer : AccountMeta}
    {counter : UInt64} (takes : Processor.takeCounter rt userWithdrawalCounter payer before = .ok (counter, after)) :
    HoldsMint rt key mint after := by
  obtain ⟨-, -, unpacks, rfl⟩ := takeCounter_ok takes
  exact holds.written keeps (by rw [WithdrawalCounter.unpack_length unpacks]; decide)

theorem HoldsMint.withdrawalCreated (holds : HoldsMint rt key mint before)
    {rentSysvar payer record systemProgram : AccountMeta} {calldataLen : Nat} {counter : UInt64}
    (creates : Processor.createWithdrawal rt rentSysvar payer record systemProgram calldataLen counter before = .ok after) :
    HoldsMint rt key mint after := by
  simp only [Processor.createWithdrawal, bind_eq_ok] at creates
  obtain ⟨rent, -, creates⟩ := creates
  exact holds.created keeps creates

theorem HoldsMint.withdrawalWritten (holds : HoldsMint rt key mint before) {bridgeConfig record : AccountMeta}
    {calldataLen : Nat} {calldataFor : BridgeConfig → List UInt8} {counter value : UInt64} {gasLimit : BitVec 128}
    (writes : Processor.writeWithdrawal bridgeConfig record calldataLen calldataFor counter value gasLimit before =
      .ok after) (long : 148 + calldataLen ≠ Processor.mintLen) : HoldsMint rt key mint after := by
  simp only [Processor.writeWithdrawal, bind_eq_ok] at writes
  obtain ⟨config, -, calldata, -, data, packs, made⟩ := writes
  cases made
  exact holds.written keeps (by rw [(packExact_eq_ok packs).1]; exact long)

/-! ## Instructions -/

variable {accounts : List AccountMeta} {token : Address}

theorem createSpl_ok {name symbol uri : String} {decimals : UInt8}
    (creates : Processor.createSpl rt accounts token name symbol uri decimals before = .ok after) :
    decimals ≤ maxTokenDecimal ∧ HoldsMint rt (rt.pubkey (.splTokenMint token)) ⟨0, decimals⟩ after := by
  simp only [Processor.createSpl, bind_eq_ok] at creates
  obtain ⟨_, accepted, creates⟩ := creates
  refine ⟨of_decide_eq_true (check_eq_ok accepted), ?_⟩
  split at creates
  · simp only [bind_eq_ok] at creates
    obtain ⟨-, -, -, -, -, -, -, -, -, -, -, -, -, -, rent, -, created, -, initialized, initializes, stores⟩ := creates
    have holds : HoldsMint rt (rt.pubkey (.splTokenMint token)) ⟨0, decimals⟩ initialized :=
      keeps.initializes _ _ _ _ _ _ _ (ofCall_eq_ok initializes)
    exact holds.invoked keeps stores rfl rfl
  · cases creates

theorem depositErc20_ok {localToken : Pubkey} {recipient : Pubkey} {amount : BitVec 128}
    (accepted : mint.decimals ≤ maxTokenDecimal) (holds : HoldsMint rt key mint before)
    (deposits : Processor.depositErc20 rt accounts localToken token recipient amount before = .ok after) :
    ∃ mint', HoldsMint rt key mint' after ∧ mint'.decimals = mint.decimals ∧
      mint'.supply.toNat = mint.supply.toNat +
        if rt.pubkey (.splTokenMint token) = key then amount.toNat / rate mint.decimals else 0 := by
  unfold Processor.depositErc20 at deposits
  split at deposits
  · rename_i systemProgram splTokenProgram associatedTokenProgram splTokenOwner splTokenMint depositor depositorToken vault
      noSigTxPayer rest
    simp only [bind_eq_ok] at deposits
    obtain ⟨-, -, -, -, -, -, -, -, -, -, -, -, -, -, _, mintNamed, opened, opens, found, unpacks, tokens, converts, minted,
      fits, mints⟩ := deposits
    have mintAddress := of_decide_eq_true (check_eq_ok mintNamed)
    have first : HoldsMint rt key mint opened := by
      unfold Processor.openTokenAccount at opens
      split at opens
      · simp only [bind_eq_ok] at opens
        obtain ⟨associated, creates, sets⟩ := opens
        exact (holds.invoked keeps creates rfl rfl).invoked keeps sets rfl rfl
      · simp only [bind_eq_ok] at opens
        obtain ⟨-, -, -, -, made⟩ := opens
        cases made
        exact holds
    obtain ⟨mint', unpacks', decimals, supply⟩ := keeps.supply _ _ _ _ _ key mint (ofCall_eq_ok mints) first
    refine ⟨mint', unpacks', decimals, ?_⟩
    rw [mintAddress]
    simp only [Invocation.minted, Invocation.burned, add_zero] at supply
    rw [supply]
    by_cases same : splTokenMint.pubkey = key
    · rw [if_pos same, if_pos same]
      -- The mint that is read is the one that is minted.
      have found : found = mint := by
        have read := ofCall_eq_ok unpacks
        rw [same] at read
        exact Except.ok.inj (read.symm.trans first)
      subst found
      obtain ⟨scaled, scales, value⟩ := convertDecimal_deposit accepted amount
      rw [converts] at scales
      cases scales
      rw [← value, orFail_toU64 fits]
    · rw [if_neg same, if_neg same]
  · cases deposits

def splWithdrawal (rt : Runtime) (ledger : Ledger) (token : Address) (amount : BitVec 128) :
    Outcome ProgramError (UInt64 × BitVec 128) := do
  let mint ← ofCall (rt.unpackMint (ledger (rt.pubkey (.splTokenMint token))).data)
  let amount ← removeDust amount mint.decimals splShareDecimal
  let burned ← Processor.orFail (toU64 amount) .invalidWithdrawAmount
  let shares ← convertDecimal (.ofNat 128 burned.toNat) mint.decimals splShareDecimal
  return (burned, shares)

def RecordsShares (rt : Runtime) (token target : Address) (shares gasLimit : BitVec 128) (bytes : List UInt8) : Prop :=
  ∃ (config : BridgeConfig) (payer : Pubkey) (counter : UInt64) (calldata : FixedBytes splWithdrawalTransactionCalldataLen),
    calldata.1 = rt.abi.getBridgeErc20Calldata config.l1StandardBridge (rt.pubkey (.splTokenMint token)) token payer target
      shares standardBridgeCallGasLimit counter ∧
    bytes = (Processor.withdrawalOf config counter 0 gasLimit calldata).packIntoSlice

theorem withdrawSpl_burns {target : Address} {amount gasLimit : BitVec 128} (holds : HoldsMint rt key mint before)
    (withdraws : Processor.withdrawSpl rt accounts token target amount gasLimit before = .ok after) :
    ∃ mint', HoldsMint rt key mint' after ∧ mint'.decimals = mint.decimals ∧
      (rt.pubkey (.splTokenMint token) ≠ key → mint'.supply = mint.supply) ∧
      (rt.pubkey (.splTokenMint token) = key → ∃ burned shares, splWithdrawal rt before token amount = .ok (burned, shares) ∧
        mint'.supply.toNat + burned.toNat = mint.supply.toNat ∧
        convertDecimal (.ofNat 128 burned.toNat) mint.decimals splShareDecimal = .ok shares ∧
        ∃ record, accounts[4]? = some record ∧ RecordsShares rt token target shares gasLimit (after record.pubkey).data) := by
  simp only [Processor.withdrawSpl, bind_eq_ok] at withdraws
  obtain ⟨-, -, withdraws⟩ := withdraws
  split at withdraws
  · rename_i systemProgram rentSysvar splTokenProgram userWithdrawalCounter record splTokenOwner splTokenMint
      payerSplAssociatedToken bridgeConfig payer rest
    simp only [bind_eq_ok] at withdraws
    obtain ⟨-, -, -, -, ⟨counter, taken⟩, takes, -, -, -, -, _, mintNamed, found, unpacks, whole, removes, burned, fits, -, -,
      paid, burns, created, creates, shares, converts, writes⟩ := withdraws
    have mintAddress := of_decide_eq_true (check_eq_ok mintNamed)
    have afterTaken := holds.counterTaken keeps takes
    obtain ⟨mint', held, decimals, supply⟩ := keeps.supply _ _ _ _ _ key mint (ofCall_eq_ok burns) afterTaken
    have afterPaid : HoldsMint rt key mint' paid := held
    have afterWritten := (afterPaid.withdrawalCreated keeps creates).withdrawalWritten keeps writes (by decide)
    simp only [Invocation.minted, Invocation.burned, add_zero] at supply
    refine ⟨mint', afterWritten, decimals, ?_, ?_⟩
    · intro other
      rw [mintAddress] at other
      rw [if_neg other, add_zero] at supply
      exact UInt64.toNat_inj.mp supply
    · intro same
      rw [mintAddress] at same
      rw [if_pos same] at supply
      have foundMint : found = mint := by
        have read := ofCall_eq_ok unpacks
        rw [same] at read
        exact Except.ok.inj (read.symm.trans afterTaken)
      subst foundMint
      refine ⟨burned, shares, ?_, supply, converts, record, rfl, ?_⟩
      · have readBefore : rt.unpackMint (before (rt.pubkey (.splTokenMint token))).data = .ok found := by
          rw [mintAddress, same]
          exact holds
        simp only [splWithdrawal, readBefore, ofCall, ok_bind, removes, fits, converts]
        rfl
      · obtain ⟨config, calldata, made, rfl⟩ := writeWithdrawal_ok writes
        refine ⟨config, payer.pubkey, counter, calldata, ?_, ?_⟩
        · rw [made, mintAddress]
        · rw [Ledger.setData_same]
  · cases withdraws

theorem processInstruction_holds {instruction : BridgeInstruction} (holds : HoldsMint rt key mint before)
    (done : Processor.processInstruction rt accounts before instruction = .ok after)
    (notDeposit : ∀ localToken token sender recipient amount,
      instruction ≠ .depositERC20 localToken token sender recipient amount)
    (notWithdrawal : ∀ token target amount gasLimit, instruction ≠ .withdrawSPL token target amount gasLimit) :
    HoldsMint rt key mint after := by
  cases instruction with
  | createVaultAccount =>
      cases done
      exact holds
  | createWithdrawalCounterAccount =>
      cases done
      exact holds
  | createBridgeConfigAccount l1CrossDomainMessenger l1StandardBridge =>
      cases done
      exact holds
  | depositETH sender recipient mint value gas isCreation l1BlockNum l1BlockHash logIndex depositType depositFrom depositTo
      depositAmount depositExtraData depositL2Contract depositL1Contract =>
      simp only [Processor.processInstruction, Processor.depositEth] at done
      split at done
      · simp only [bind_eq_ok] at done
        obtain ⟨-, -, -, -, -, -, rent, -, amount, -, -, -, invokes⟩ := done
        exact holds.invoked keeps invokes rfl rfl
      · cases done
  | withdrawETH target value gasLimit =>
      simp only [Processor.processInstruction, Processor.withdrawEth, bind_eq_ok] at done
      obtain ⟨-, -, done⟩ := done
      split at done
      · simp only [bind_eq_ok] at done
        obtain ⟨-, -, ⟨counter, taken⟩, takes, -, -, -, -, amount, -, -, -, paid, pays, created, creates, writes⟩ := done
        exact (((holds.counterTaken keeps takes).invoked keeps pays rfl rfl).withdrawalCreated keeps creates).withdrawalWritten
          keeps writes (by decide)
      · cases done
  | createSPL remoteToken name symbol uri decimals =>
      simp only [Processor.processInstruction, Processor.createSpl, bind_eq_ok] at done
      obtain ⟨-, -, done⟩ := done
      split at done
      · simp only [bind_eq_ok] at done
        obtain ⟨-, -, -, -, -, -, -, -, -, -, -, -, -, -, rent, -, created, creates, initialized, initializes, stores⟩ := done
        exact ((holds.created keeps creates).invoked keeps initializes rfl rfl).invoked keeps stores rfl rfl
      · cases done
  | depositERC20 localToken remoteToken sender recipient amount => exact absurd rfl (notDeposit _ _ _ _ _)
  | withdrawSPL remoteToken recipient amount gasLimit => exact absurd rfl (notWithdrawal _ _ _ _)
  | changeBridgeAdmin newAdmin =>
      simp only [Processor.processInstruction, Processor.changeBridgeAdmin] at done
      split at done
      · simp only [bind_eq_ok] at done
        obtain ⟨-, -, data, packs, made⟩ := done
        cases made
        exact holds.written keeps (by rw [(packExact_eq_ok packs).1]; decide)
      · cases done
  | createUserWithdrawalCounterAccount =>
      simp only [Processor.processInstruction, Processor.createUserWithdrawalCounterAccount] at done
      split at done
      · simp only [bind_eq_ok] at done
        obtain ⟨-, -, rent, -, created, creates, data, packs, made⟩ := done
        cases made
        exact (holds.created keeps creates).written keeps (by rw [(packExact_eq_ok packs).1]; decide)
      · cases done
  | updateSPLMetadata remoteToken name symbol uri =>
      simp only [Processor.processInstruction, Processor.updateSplMetadata] at done
      split at done
      · simp only [bind_eq_ok] at done
        obtain ⟨-, -, -, -, -, -, -, -, invokes⟩ := done
        exact holds.invoked keeps invokes rfl rfl
      · cases done

end Supply

/-! ## Runs -/

structure TokenRun where
  ledger : Ledger
  deposited : Nat
  withdrawn : Nat

namespace TokenRun

variable (rt : Runtime) (token : Address)

def start (ledger : Ledger) : TokenRun := ⟨ledger, 0, 0⟩

def depositOf : BridgeInstruction → Nat
  | .depositERC20 _ remoteToken _ _ amount => if remoteToken = token then amount.toNat else 0
  | _ => 0

def withdrawalOf (ledger : Ledger) : BridgeInstruction → Nat
  | .withdrawSPL remoteToken _ amount _ =>
      if remoteToken = token then
        match splWithdrawal rt ledger token amount with
        | .ok (_, shares) => shares.toNat
        | .error _ => 0
      else 0
  | _ => 0

def call (run : TokenRun) (made : BridgeCall) : TokenRun × Outcome ProgramError Unit :=
  match Processor.execute rt run.ledger made with
  | (after, .ok ()) =>
      let instruction := BridgeInstruction.unpack made.input
      (⟨after, run.deposited + (instruction.map (depositOf token)).getD 0,
        run.withdrawn + (instruction.map (withdrawalOf rt token run.ledger)).getD 0⟩, .ok ())
  | (after, .error e) => ({ run with ledger := after }, .error e)

/-- A token that a call deposits or withdraws has another mint, unless it is this one. -/
def Apart (_ : TokenRun) (made : BridgeCall) : Prop :=
  ∀ other, ((∃ localToken sender recipient amount,
        BridgeInstruction.unpack made.input = some (.depositERC20 localToken other sender recipient amount)) ∨
      ∃ target amount gasLimit, BridgeInstruction.unpack made.input = some (.withdrawSPL other target amount gasLimit)) →
    rt.pubkey (.splTokenMint other) = rt.pubkey (.splTokenMint token) → other = token

/-- A withdrawal takes as much from the supply as the shares in its record are worth. -/
def Exact (decimals : UInt8) (run : TokenRun) (made : BridgeCall) : Prop :=
  ∀ target amount gasLimit, BridgeInstruction.unpack made.input = some (.withdrawSPL token target amount gasLimit) →
    (run.call rt token made).2 = .ok () →
    ∃ burned shares supply supply' record, splWithdrawal rt run.ledger token amount = .ok (burned, shares) ∧
      HoldsMint rt (rt.pubkey (.splTokenMint token)) ⟨supply, decimals⟩ run.ledger ∧
      HoldsMint rt (rt.pubkey (.splTokenMint token)) ⟨supply', decimals⟩ (run.call rt token made).1.ledger ∧
      supply'.toNat + burned.toNat = supply.toNat ∧
      convertDecimal shares splShareDecimal decimals = .ok (.ofNat 128 burned.toNat) ∧ made.accounts[4]? = some record ∧
      RecordsShares rt token target shares gasLimit ((run.call rt token made).1.ledger record.pubkey).data

structure Covered (decimals : UInt8) (run : TokenRun) (supply : UInt64) : Prop where
  holds : HoldsMint rt (rt.pubkey (.splTokenMint token)) ⟨supply, decimals⟩ run.ledger
  covered : run.withdrawn + supply.toNat * rate decimals ≤ run.deposited

section

variable {rt : Runtime} (keeps : rt.KeepsSupply) {token : Address} {decimals : UInt8} (accepted : decimals ≤ maxTokenDecimal)
  {run : TokenRun} {supply : UInt64}
include keeps accepted

theorem Covered.deposited (covered : Covered rt token decimals run supply) {accounts : List AccountMeta} {localToken : Pubkey}
    {other sender : Address} {recipient : Pubkey} {amount : BitVec 128} {after : Ledger}
    (apart : rt.pubkey (.splTokenMint other) = rt.pubkey (.splTokenMint token) → other = token)
    (deposits : Processor.depositErc20 rt accounts localToken other recipient amount run.ledger = .ok after) :
    ∃ supply', Covered rt token decimals ⟨after, run.deposited +
      depositOf token (.depositERC20 localToken other sender recipient amount), run.withdrawn⟩ supply' := by
  obtain ⟨⟨supply', decimals'⟩, holds, same, minted⟩ := depositErc20_ok keeps accepted covered.holds deposits
  cases same
  refine ⟨supply', holds, ?_⟩
  have before := covered.covered
  simp only [depositOf] at minted ⊢
  by_cases mine : rt.pubkey (.splTokenMint other) = rt.pubkey (.splTokenMint token)
  · rw [if_pos mine] at minted
    rw [if_pos (apart mine), minted, Nat.add_mul]
    have rounded := Nat.div_mul_le_self amount.toNat (rate decimals)
    omega
  · rw [if_neg mine, add_zero] at minted
    rw [minted]
    omega

theorem Covered.withdrawn (covered : Covered rt token decimals run supply) {accounts : List AccountMeta}
    {other target : Address} {amount gasLimit : BitVec 128} {after : Ledger}
    (apart : rt.pubkey (.splTokenMint other) = rt.pubkey (.splTokenMint token) → other = token)
    (withdraws : Processor.withdrawSpl rt accounts other target amount gasLimit run.ledger = .ok after) :
    ∃ supply', Covered rt token decimals ⟨after, run.deposited,
      run.withdrawn + withdrawalOf rt token run.ledger (.withdrawSPL other target amount gasLimit)⟩ supply' := by
  obtain ⟨⟨supply', decimals'⟩, holds, same, untouched, burns⟩ := withdrawSpl_burns keeps covered.holds withdraws
  cases same
  simp only at untouched burns
  refine ⟨supply', holds, ?_⟩
  have before := covered.covered
  by_cases mine : rt.pubkey (.splTokenMint other) = rt.pubkey (.splTokenMint token)
  · obtain ⟨burned, shares, computes, supplies, converts, -⟩ := burns mine
    cases apart mine
    obtain ⟨scaled, scales, value⟩ := convertDecimal_withdrawal accepted burned
    rw [converts] at scales
    cases scales
    simp only [withdrawalOf, if_pos, computes, value]
    rw [← supplies, Nat.add_mul] at before
    omega
  · have notMine : other ≠ token := fun equal => mine (by rw [equal])
    simp only [withdrawalOf, if_neg notMine, add_zero]
    rw [untouched mine]
    exact before

theorem Covered.call (covered : Covered rt token decimals run supply) {made : BridgeCall} (apart : Apart rt token run made) :
    (∃ supply', Covered rt token decimals (run.call rt token made).1 supply') ∧ Exact rt token decimals run made := by
  unfold Exact TokenRun.call Processor.execute
  cases attempted : Processor.attempt rt run.ledger made with
  | error e => exact ⟨⟨supply, covered⟩, fun _ _ _ _ failed => by cases failed⟩
  | ok after =>
      simp only [Processor.attempt, Processor.process, bind_eq_ok] at attempted
      obtain ⟨_, ⟨instruction, unpacks, done⟩, -, -, same⟩ := attempted
      cases same
      have read : BridgeInstruction.unpack made.input = some instruction := by
        unfold Processor.orFail at unpacks
        split at unpacks
        · cases unpacks
          assumption
        · cases unpacks
      simp only [read, Option.map_some, Option.getD_some]
      constructor
      · have others : ∀ {deposit withdrawal : Nat}, deposit = 0 → withdrawal = 0 →
            HoldsMint rt (rt.pubkey (.splTokenMint token)) ⟨supply, decimals⟩ after → ∃ supply', Covered rt token decimals
              ⟨after, run.deposited + deposit, run.withdrawn + withdrawal⟩ supply' := by
          rintro deposit withdrawal rfl rfl holds
          exact ⟨supply, holds, covered.covered⟩
        cases instruction with
        | depositERC20 localToken other sender recipient amount =>
            exact covered.deposited keeps accepted (apart other (.inl ⟨_, _, _, _, read⟩)) done
        | withdrawSPL other target amount gasLimit =>
            exact covered.withdrawn keeps accepted (apart other (.inr ⟨_, _, _, read⟩)) done
        | _ =>
            refine others rfl rfl (processInstruction_holds keeps covered.holds done ?_ ?_)
            · simp
            · simp
      · intro target amount gasLimit withdrawal _
        cases withdrawal
        obtain ⟨⟨supply', decimals'⟩, holds, same, -, burns⟩ := withdrawSpl_burns keeps covered.holds done
        cases same
        obtain ⟨burned, shares, computes, supplies, converts, record, recordAt, records⟩ := burns rfl
        exact ⟨burned, shares, supply, supply', record, computes, covered.holds, holds, supplies,
          convertDecimal_back accepted converts, recordAt, records⟩

theorem Covered.runs (covered : Covered rt token decimals run supply) {calls : List BridgeCall}
    (apart : Along (TokenRun.call rt token) (Apart rt token) run calls) :
    ∃ supply', Covered rt token decimals (Lib.run (TokenRun.call rt token) run calls) supply' := by
  induction calls generalizing run supply with
  | nil => exact ⟨supply, covered⟩
  | cons made calls ih =>
      obtain ⟨supply', later⟩ := (covered.call keeps accepted apart.1).1
      exact ih later apart.2

end

/-- From the creation of a token on, over every run: the shares in withdrawals are at most the shares deposited, every
withdrawal burns what its shares are worth, and no conversion overflows. -/
theorem solvent (rt : Runtime) (keeps : rt.KeepsSupply) {accounts : List AccountMeta} {token : Address}
    {name symbol uri : String} {decimals : UInt8} {before ledger : Ledger}
    (created : Processor.createSpl rt accounts token name symbol uri decimals before = .ok ledger) (calls : List BridgeCall)
    (apart : Along (call rt token) (Apart rt token) (start ledger) calls) :
    (run (call rt token) (start ledger) calls).withdrawn ≤ (run (call rt token) (start ledger) calls).deposited ∧
    Along (call rt token) (Exact rt token decimals) (start ledger) calls ∧
    (∀ amount, ∃ tokens, convertDecimal amount splShareDecimal decimals = .ok tokens) ∧
    (∀ amount, ∃ whole, removeDust amount decimals splShareDecimal = .ok whole) ∧
    ∀ burned : UInt64, ∃ shares, convertDecimal (.ofNat 128 burned.toNat) decimals splShareDecimal = .ok shares := by
  obtain ⟨accepted, holds⟩ := createSpl_ok keeps created
  have covered : Covered rt token decimals (start ledger) 0 := ⟨holds, by simp [start]⟩
  refine ⟨?_, ?_, ?_, ?_, ?_⟩
  · obtain ⟨supply, later⟩ := covered.runs keeps accepted apart
    exact le_trans (Nat.le_add_right _ _) later.covered
  · refine along_of_invariant (fun run => ∃ supply, Covered rt token decimals run supply) ?_ ?_ ⟨0, covered⟩ apart
    · rintro run made ⟨supply, covered⟩ apart
      exact (covered.call keeps accepted apart).1
    · rintro run made ⟨supply, covered⟩ apart
      exact (covered.call keeps accepted apart).2
  · intro amount
    obtain ⟨tokens, converts, -⟩ := convertDecimal_deposit accepted amount
    exact ⟨tokens, converts⟩
  · intro amount
    exact ⟨amount, removeDust_eq accepted amount⟩
  · intro burned
    obtain ⟨shares, converts, -⟩ := convertDecimal_withdrawal accepted burned
    exact ⟨shares, converts⟩

end TokenRun

/-! ## A deposit and a withdrawal -/

namespace Localnet

def remoteToken : Address := ⟨List.replicate 20 0x11, rfl⟩

def mintKey : Pubkey := .ofNat 0xffecca0005818dbf35ec4281f0600cbf8870433b3392993a4f1318a43dade5d7

def tokenAddresses : List (Derivation × Pubkey) := addresses ++ [
  (Pda.bridgeOwner.derivation, .ofNat 0x583a8e8289909003c05fad59eae1a1a43c57ff2ef8d7b5655e24a4c54a1de848),
  ((Pda.splTokenOwner remoteToken).derivation, .ofNat 0xb083698f0f3986b225469e7e216f17375b87bfb90f5d22e0824cc05d33b6407a),
  ((Pda.splTokenMint remoteToken).derivation, mintKey),
  (associatedTokenDerivation user mintKey, .ofNat 0xe773b1ee5c6efc012910e0c94701a49c105eda1e34b4c236add3d6b071a3bcab),
  (metadataDerivation mintKey, .ofNat 0x719ef36a8b3ce116bdab67620c0f363d0a52af0d17e640c5e2b8b2cc05590703)]

def tokenAddress : FindProgramAddress := fun seeds program => (tokenAddresses.lookup ⟨seeds, program⟩).getD (.ofNat 0)

def mintData (authority : List UInt8) (supply : UInt64) (decimals : UInt8) : List UInt8 :=
  [1, 0, 0, 0] ++ authority ++ packU64 supply ++ [decimals, 1] ++ List.replicate 36 0

def readMint (data : List UInt8) : Except ProgramError Mint :=
  if data.length = 82 ∧ data[45]? = some 1 then
    .ok ⟨.ofNat (fromLeBytes ((data.drop 36).take 8)), data[44]?.getD 0⟩
  else .error .invalidAccountData

def tokenData (mint owner : Pubkey) (amount : UInt64) : List UInt8 :=
  mint.1 ++ owner.1 ++ packU64 amount ++ List.replicate 36 0 ++ [1] ++ List.replicate 56 0

def readAmount (data : List UInt8) : UInt64 := .ofNat (fromLeBytes ((data.drop 64).take 8))

def writeAmount (data : List UInt8) (amount : UInt64) : List UInt8 := data.take 64 ++ packU64 amount ++ data.drop 72

def writeSupply (data : List UInt8) (supply : UInt64) : List UInt8 := data.take 36 ++ packU64 supply ++ data.drop 44

def tokenInvoke : Invocation → List AccountMeta → List Pubkey → Ledger → Except ProgramError Ledger
  | .initializeMint key authority decimals, _, _, ledger =>
      if (ledger key).owner = splTokenId ∧ (ledger key).data = List.replicate 82 0 then
        .ok (ledger.setData key (mintData authority.1 0 decimals))
      else .error (.called "instruction expected an uninitialized account")
  | .mintTo key account owner amount, infos, signers, ledger =>
      match readMint (ledger key).data with
      | .error e => .error e
      | .ok mint =>
          if signs owner infos signers ∧ (ledger account).data.length = 165 ∧
              mint.supply.toNat + amount.toNat < 2 ^ 64 then
            .ok ((ledger.setData key (writeSupply (ledger key).data (mint.supply + amount))).setData account
              (writeAmount (ledger account).data (readAmount (ledger account).data + amount)))
          else .error (.called "operation overflowed")
  | .burn account key authority amount, infos, signers, ledger =>
      match readMint (ledger key).data with
      | .error e => .error e
      | .ok mint =>
          if signs authority infos signers ∧ (ledger account).data.length = 165 ∧ amount ≤ readAmount (ledger account).data ∧
              amount ≤ mint.supply then
            .ok ((ledger.setData key (writeSupply (ledger key).data (mint.supply - amount))).setData account
              (writeAmount (ledger account).data (readAmount (ledger account).data - amount)))
          else .error (.called "insufficient funds")
  | .setCloseAuthority account newAuthority owner, infos, signers, ledger =>
      if signs owner infos signers ∧ (ledger account).data.length = 165 then
        .ok (ledger.setData account ((ledger account).data.take 129 ++ [1, 0, 0, 0] ++ newAuthority.1))
      else .error (.called "owner does not match")
  | .createAssociatedTokenAccount _ wallet mint, _, _, ledger =>
      let account := (associatedTokenDerivation wallet mint).address tokenAddress
      if (ledger account).data = [] then
        .ok fun key => if key = account then ⟨2039280, tokenData mint wallet 0, splTokenId⟩ else ledger key
      else .error (.called "an account with the same address already exists")
  | .createMetadataAccountV3 metadata mint _ _ updateAuthority name symbol uri, _, _, ledger =>
      if (ledger metadata).data = [] then
        .ok fun key =>
          if key = metadata then
            ⟨5616720, [4] ++ updateAuthority.1 ++ mint.1 ++ (name ++ symbol ++ uri).toUTF8.data.toList, mplTokenMetadataId⟩
          else ledger key
      else .error (.called "an account with the same address already exists")
  | invocation, infos, signers, ledger => invoke invocation infos signers ledger

def tokenRuntime : Runtime where
  findProgramAddress := tokenAddress
  abi := ⟨Abi.encode, fun bytes =>
    if bytes = "relayMessage(uint256,bytes32,address,uint256,uint256,bytes)".toUTF8.data.toList then
      .ofNat 0x54aa43a31b859bf01b267f1fb4fabd19000d8402c7acb9ffba265f56b0b08fcc
    else .ofNat 0xf73fb39c8e98598f3d4690d2b90844611cddedee0b1d2041545c66890ff028ca⟩
  rentGet := runtime.rentGet
  rentFromAccountInfo := runtime.rentFromAccountInfo
  invoke := tokenInvoke
  unpackMint := readMint
  unpackTokenAccount data :=
    match takeFixed 32 (data.drop 32) with
    | some (owner, _) => .ok ⟨owner⟩
    | none => .error .invalidAccountData
  verify _ _ _ := .ok ()

theorem readMint_eq_ok {data : List UInt8} {mint : Mint} (reads : readMint data = .ok mint) :
    data.length = 82 ∧ data[45]? = some 1 ∧ mint = ⟨.ofNat (fromLeBytes ((data.drop 36).take 8)), data[44]?.getD 0⟩ := by
  unfold readMint at reads
  split at reads
  · rename_i initialized
    exact ⟨initialized.1, initialized.2, (Except.ok.inj reads).symm⟩
  · cases reads

theorem fromLeBytes_packU64 (value : UInt64) : UInt64.ofNat (fromLeBytes (packU64 value)) = value := by
  rw [packU64, fromLeBytes_toLeBytes, show (256 : Nat) ^ 8 = 2 ^ 64 by rfl, Nat.mod_eq_of_lt value.toNat_lt,
    UInt64.ofNat_toNat]

theorem readMint_supply (first last : List UInt8) (supply : UInt64) (width : first.length = 36) (rest : last.length = 38)
    (initialized : last[1]? = some 1) :
    readMint (first ++ packU64 supply ++ last) = .ok ⟨supply, last[0]?.getD 0⟩ := by
  have eight : (packU64 supply).length = 8 := length_toLeBytes _ _
  have front : (first ++ packU64 supply).length = 44 := by rw [List.length_append, width, eight]
  have amount : ((first ++ packU64 supply ++ last).drop 36).take 8 = packU64 supply := by
    rw [List.append_assoc, List.drop_left' width, List.take_left' eight]
  have at44 : (first ++ packU64 supply ++ last)[44]? = last[0]? := by
    rw [List.getElem?_append_right (by omega), front]
  have at45 : (first ++ packU64 supply ++ last)[45]? = last[1]? := by
    rw [List.getElem?_append_right (by omega), front]
  rw [readMint, if_pos ⟨by rw [List.length_append, front, rest], by rw [at45, initialized]⟩, amount, at44,
    fromLeBytes_packU64]

theorem readMint_mintData (authority : Pubkey) (decimals : UInt8) : readMint (mintData authority.1 0 decimals) = .ok ⟨0, decimals⟩ := by
  have width : ([1, 0, 0, 0] ++ authority.1).length = 36 := by rw [List.length_append, authority.2]; rfl
  have read := readMint_supply _ ([decimals, 1] ++ List.replicate 36 0) 0 width rfl rfl
  rw [← List.append_assoc] at read
  exact read

theorem readMint_writeSupply {data : List UInt8} {mint : Mint} (reads : readMint data = .ok mint) (supply : UInt64) :
    readMint (writeSupply data supply) = .ok ⟨supply, mint.decimals⟩ := by
  obtain ⟨length, initialized, rfl⟩ := readMint_eq_ok reads
  have read := readMint_supply (data.take 36) (data.drop 44) supply (by rw [List.length_take]; omega)
    (by rw [List.length_drop]; omega) (by rw [List.getElem?_drop]; exact initialized)
  rw [List.getElem?_drop] at read
  exact read

theorem readMint_setData {ledger : Ledger} {key other : Pubkey} {mint : Mint} (reads : readMint (ledger key).data = .ok mint)
    (length : (ledger other).data.length ≠ 82) (data : List UInt8) :
    readMint ((ledger.setData other data) key).data = .ok mint := by
  have apart : key ≠ other := by
    rintro rfl
    exact length (readMint_eq_ok reads).1
  rw [(ledger.setData_keeps apart data).data]
  exact reads

theorem readMint_invoke {invocation : Invocation} {infos : List AccountMeta} {signers : List Pubkey} {before after : Ledger}
    {key : Pubkey} {mint : Mint} (invokes : invoke invocation infos signers before = .ok after)
    (reads : readMint (before key).data = .ok mint) : readMint (after key).data = .ok mint := by
  have filled : (before key).data ≠ [] := by
    intro empty
    have length := (readMint_eq_ok reads).1
    rw [empty] at length
    cases length
  cases invocation with
  | transfer source destination lamports =>
      simp only [invoke] at invokes
      split at invokes
      · cases invokes
        exact reads
      · cases invokes
  | allocate target space =>
      simp only [invoke] at invokes
      split at invokes
      · rename_i empty
        cases invokes
        exact readMint_setData reads (by rw [empty.2.1]; decide) _
      · cases invokes
  | assign target owner =>
      simp only [invoke] at invokes
      split at invokes
      · cases invokes
        by_cases same : key = target
        · simp only [if_pos same]
          rw [← same]
          exact reads
        · simp only [if_neg same]
          exact reads
      · cases invokes
  | _ => cases invokes

theorem readMint_moved {before : Ledger} {target account key : Pubkey} {found mint : Mint}
    (finds : readMint (before target).data = .ok found) (token : (before account).data.length = 165)
    (reads : readMint (before key).data = .ok mint) (supply : UInt64) (data : List UInt8) :
    readMint (((before.setData target (writeSupply (before target).data supply)).setData account data) key).data =
      .ok (if target = key then ⟨supply, mint.decimals⟩ else mint) := by
  have apart : account ≠ target := by
    rintro rfl
    rw [(readMint_eq_ok finds).1] at token
    cases token
  have length : ((before.setData target (writeSupply (before target).data supply)) account).data.length ≠ 82 := by
    rw [(before.setData_keeps apart _).data, token]
    decide
  refine readMint_setData ?_ length data
  by_cases same : target = key
  · subst same
    cases Except.ok.inj (finds.symm.trans reads)
    rw [if_pos rfl, Ledger.setData_same]
    exact readMint_writeSupply finds supply
  · rw [if_neg same, (before.setData_keeps (Ne.symm same) _).data]
    exact reads

theorem tokenInvoke_supply {invocation : Invocation} {infos : List AccountMeta} {signers : List Pubkey} {before after : Ledger}
    {key : Pubkey} {mint : Mint} (invokes : tokenInvoke invocation infos signers before = .ok after)
    (reads : readMint (before key).data = .ok mint) : ∃ mint', readMint (after key).data = .ok mint' ∧
      mint'.decimals = mint.decimals ∧ mint'.supply.toNat + invocation.burned key = mint.supply.toNat + invocation.minted key := by
  have filled : (before key).data ≠ [] := by
    intro empty
    have length := (readMint_eq_ok reads).1
    rw [empty] at length
    cases length
  cases invocation with
  | transfer source destination lamports =>
      have system : invoke (.transfer source destination lamports) infos signers before = .ok after := invokes
      exact ⟨mint, readMint_invoke system reads, rfl, rfl⟩
  | allocate target space =>
      have system : invoke (.allocate target space) infos signers before = .ok after := invokes
      exact ⟨mint, readMint_invoke system reads, rfl, rfl⟩
  | assign target owner =>
      have system : invoke (.assign target owner) infos signers before = .ok after := invokes
      exact ⟨mint, readMint_invoke system reads, rfl, rfl⟩
  | updateMetadataAccountV2 metadata updateAuthority name symbol uri => cases invokes
  | initializeMint target authority decimals =>
      simp only [tokenInvoke] at invokes
      split at invokes
      · rename_i uninitialized
        cases invokes
        have apart : key ≠ target := by
          rintro rfl
          have initialized := (readMint_eq_ok reads).2.1
          rw [uninitialized.2] at initialized
          exact absurd initialized (by decide)
        exact ⟨mint, by rw [(before.setData_keeps apart _).data]; exact reads, rfl, rfl⟩
      · cases invokes
  | mintTo target account owner amount =>
      simp only [tokenInvoke] at invokes
      split at invokes
      · cases invokes
      · rename_i found finds
        split at invokes
        · rename_i fits
          cases invokes
          refine ⟨_, readMint_moved finds fits.2.1 reads _ _, ?_⟩
          by_cases same : target = key
          · subst same
            cases Except.ok.inj (finds.symm.trans reads)
            rw [if_pos rfl]
            refine ⟨rfl, ?_⟩
            simp only [Invocation.burned, Invocation.minted, if_pos]
            rw [UInt64.toNat_add, Nat.mod_eq_of_lt fits.2.2, add_zero]
          · rw [if_neg same]
            refine ⟨rfl, ?_⟩
            simp only [Invocation.burned, Invocation.minted, if_neg same]
        · cases invokes
  | burn account target authority amount =>
      simp only [tokenInvoke] at invokes
      split at invokes
      · cases invokes
      · rename_i found finds
        split at invokes
        · rename_i fits
          cases invokes
          refine ⟨_, readMint_moved finds fits.2.1 reads _ _, ?_⟩
          by_cases same : target = key
          · subst same
            cases Except.ok.inj (finds.symm.trans reads)
            rw [if_pos rfl]
            refine ⟨rfl, ?_⟩
            have enough := UInt64.le_iff_toNat_le.mp fits.2.2.2
            simp only [Invocation.burned, Invocation.minted, if_pos]
            rw [UInt64.toNat_sub_of_le _ _ fits.2.2.2]
            omega
          · rw [if_neg same]
            refine ⟨rfl, ?_⟩
            simp only [Invocation.burned, Invocation.minted, if_neg same]
        · cases invokes
  | setCloseAuthority account newAuthority owner =>
      simp only [tokenInvoke] at invokes
      split at invokes
      · rename_i owned
        cases invokes
        exact ⟨mint, readMint_setData reads (by rw [owned.2]; decide) _, rfl, rfl⟩
      · cases invokes
  | createAssociatedTokenAccount funding wallet target =>
      simp only [tokenInvoke] at invokes
      split at invokes
      · rename_i empty
        cases invokes
        have apart : key ≠ (associatedTokenDerivation wallet target).address tokenAddress := fun same => filled (same ▸ empty)
        exact ⟨mint, by simp only [if_neg apart]; exact reads, rfl, rfl⟩
      · cases invokes
  | createMetadataAccountV3 metadata target mintAuthority payer updateAuthority name symbol uri =>
      simp only [tokenInvoke] at invokes
      split at invokes
      · rename_i empty
        cases invokes
        have apart : key ≠ metadata := fun same => filled (same ▸ empty)
        exact ⟨mint, by simp only [if_neg apart]; exact reads, rfl, rfl⟩
      · cases invokes

theorem tokenRuntime_keepsSupply : tokenRuntime.KeepsSupply where
  length data mint reads := (readMint_eq_ok reads).1
  initializes key authority decimals infos signers before after invokes := by
    have system : tokenInvoke (.initializeMint key authority decimals) infos signers before = .ok after := invokes
    simp only [tokenInvoke] at system
    split at system
    · cases system
      rw [Ledger.setData_same]
      exact readMint_mintData authority decimals
    · cases system
  supply invocation infos signers before after key mint invokes reads := tokenInvoke_supply invokes reads

def tokenGenesis : Ledger := fun key =>
  if key = tokenRuntime.pubkey .bridgeOwner then ⟨10 ^ 7, user.1, withdrawalProgramPubkey⟩
  else if key = tokenRuntime.pubkey (.userWithdrawalCounter user) then ⟨10 ^ 7, packU64 0, withdrawalProgramPubkey⟩
  else if key = tokenRuntime.pubkey .vault then ⟨10 ^ 10, [], systemProgramId⟩
  else genesis key

def account (pda : Pda) : AccountMeta := .new (tokenRuntime.pubkey pda) false

def tokenAccount : AccountMeta := .new ((associatedTokenDerivation user mintKey).address tokenAddress) false

def created : Outcome ProgramError Ledger :=
  Processor.createSpl tokenRuntime [.newReadonly systemProgramId false, .newReadonly sysvarRent false,
    .newReadonly splTokenId false, account (.splTokenOwner remoteToken), account (.splTokenMint remoteToken), account .vault,
    account .bridgeOwner, .new user true, .newReadonly mplTokenMetadataId false,
    .new ((metadataDerivation mintKey).address tokenAddress) false] remoteToken "Token" "TKN" "" 6 tokenGenesis

def deposit : BridgeCall :=
  ⟨[.newReadonly systemProgramId false, .newReadonly splTokenId false, .newReadonly splAssociatedTokenAccountId false,
    account (.splTokenOwner remoteToken), account (.splTokenMint remoteToken), .newReadonly user true, tokenAccount,
    account .vault, .newReadonly noSigTxPayer true],
    5 :: (mintKey.1 ++ (remoteToken.1 ++ (List.replicate 20 0xEE ++ (user.1 ++ packU128 2000500))))⟩

def withdrawTokens : BridgeCall :=
  ⟨[.newReadonly systemProgramId false, .newReadonly sysvarRent false, .newReadonly splTokenId false,
    account (.userWithdrawalCounter user), account (.withdrawalTransaction user 0), account (.splTokenOwner remoteToken),
    account (.splTokenMint remoteToken), tokenAccount, account .config, .new user true],
    6 :: (remoteToken.1 ++ (List.replicate 20 0xEE ++ (packU128 1500 ++ packU128 500000)))⟩

def tokenLedger : Ledger := created.toOption.getD tokenGenesis

theorem created_eq : created = .ok tokenLedger := by
  have succeeds : created.isOk = true := by decide +kernel
  unfold tokenLedger
  cases made : created with
  | ok ledger => rfl
  | error e =>
      rw [made] at succeeds
      cases succeeds

theorem calls_apart : Along (TokenRun.call tokenRuntime remoteToken) (TokenRun.Apart tokenRuntime remoteToken)
    (.start tokenLedger) [deposit, withdrawTokens] := by
  have deposits : BridgeInstruction.unpack deposit.input =
      some (.depositERC20 mintKey remoteToken ⟨List.replicate 20 0xEE, rfl⟩ user 2000500) := by decide +kernel
  have withdraws : BridgeInstruction.unpack withdrawTokens.input =
      some (.withdrawSPL remoteToken ⟨List.replicate 20 0xEE, rfl⟩ 1500 500000) := by decide +kernel
  refine ⟨?_, ?_, trivial⟩
  · intro other named _
    rw [deposits] at named
    rcases named with ⟨_, _, _, _, same⟩ | ⟨_, _, _, same⟩
    · cases same
      rfl
    · cases same
  · intro other named _
    rw [withdraws] at named
    rcases named with ⟨_, _, _, _, same⟩ | ⟨_, _, _, same⟩
    · cases same
    · cases same
      rfl

theorem solvent_deposit_withdraw :
    (run (TokenRun.call tokenRuntime remoteToken) (.start tokenLedger) [deposit, withdrawTokens]).deposited = 2000500 ∧
    (run (TokenRun.call tokenRuntime remoteToken) (.start tokenLedger) [deposit, withdrawTokens]).withdrawn = 1500000 ∧
    (run (TokenRun.call tokenRuntime remoteToken) (.start tokenLedger) [deposit, withdrawTokens]).withdrawn ≤
      (run (TokenRun.call tokenRuntime remoteToken) (.start tokenLedger) [deposit, withdrawTokens]).deposited :=
  ⟨by decide +kernel, by decide +kernel,
    (TokenRun.solvent tokenRuntime tokenRuntime_keepsSupply created_eq [deposit, withdrawTokens] calls_apart).1⟩

end Localnet

end KonaSoon.Programs
