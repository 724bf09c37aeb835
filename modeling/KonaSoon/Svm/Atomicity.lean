import KonaSoon.Svm.Executor

namespace KonaSoon.Svm
open Lib Mpt Programs

variable {Transaction Program Limits : Type} {rt : Runtime Transaction Program Limits}

/-! ## The store -/

theorem getAccount_insertDiff (db : AccountsDb Program) (pubkey : Pubkey) (account : Account) :
    (db.insertDiff pubkey account).getAccount = Function.update db.getAccount pubkey (some account) := by
  funext other
  by_cases same : other = pubkey
  · subst same
    simp [AccountsDb.insertDiff, AccountsDb.getAccount]
  · simp [AccountsDb.insertDiff, AccountsDb.getAccount, same]

theorem loadAccount_store (rt : Runtime Transaction Program Limits) (db : AccountsDb Program) (pubkey : Pubkey) :
    (db.loadAccount rt pubkey).1.getAccount = db.getAccount := by
  unfold AccountsDb.loadAccount
  split
  · rfl
  · split
    · split <;> rfl
    · rfl

theorem loadAccount_some (rt : Runtime Transaction Program Limits) (db : AccountsDb Program) (pubkey : Pubkey)
    {loaded : Option Account} (loads : (db.loadAccount rt pubkey).2 = .ok loaded) : loaded = db.getAccount pubkey := by
  unfold AccountsDb.loadAccount at loads
  split at loads
  · rename_i absent
    rw [absent]
    exact (Except.ok.inj loads).symm
  · rename_i account present
    rw [present]
    split at loads
    · split at loads
      · cases loads
      · exact (Except.ok.inj loads).symm
    · exact (Except.ok.inj loads).symm

def Covers (store : Pubkey → Option Account) (fee : UInt64) (payerKey : Option Pubkey) : Prop :=
  ∀ payer, payerKey = some payer → ∃ account, store payer = some account ∧ fee ≤ account.lamports

theorem validateFeePayer_covers {key : Pubkey} {account charged : Account} {index : Nat} {fee : UInt64}
    (validates : validateFeePayer rt key account index fee = .ok charged) :
    account.lamports ≠ 0 ∧ fee ≤ account.lamports ∧ charged = { account with lamports := account.lamports - fee } := by
  unfold validateFeePayer at validates
  split at validates
  · cases validates
  · rename_i funded
    split at validates
    · cases validates
    · split at validates
      · cases validates
      · rename_i rest left
        simp only [Option.bind_eq_some_iff, checkedSub, Option.ite_none_right_eq_some, Option.some.injEq] at left
        obtain ⟨_, ⟨kept, rfl⟩, enough, -⟩ := left
        have covered : fee ≤ account.lamports := by
          rw [UInt64.le_iff_toNat_le, UInt64.toNat_sub_of_le _ _ kept] at enough
          rw [UInt64.le_iff_toNat_le]
          omega
        simp only at validates
        split at validates
        · cases validates
        · exact ⟨funded, covered, (Except.ok.inj validates).symm⟩

section

variable (rentCollects : ∀ key account, (rt.collectRent key account).1.lamports ≤ account.lamports)

include rentCollects

theorem loadKey_spec {message : Message} {fee : UInt64} {state : LoadState Program}
    (covers : Covers state.accounts.getAccount fee state.payerKey) (index : Nat) (key : Pubkey) :
    (loadKey rt message fee state index key).1.accounts.getAccount = state.accounts.getAccount ∧
      Covers state.accounts.getAccount fee (loadKey rt message fee state index key).1.payerKey := by
  unfold loadKey
  split
  · exact ⟨rfl, covers⟩
  · have store := loadAccount_store rt state.accounts key
    have loads : ∀ found, (state.accounts.loadAccount rt key).2 = .ok found → found = state.accounts.getAccount key :=
      fun _ => loadAccount_some rt state.accounts key
    generalize state.accounts.loadAccount rt key = loaded at store loads
    obtain ⟨accounts, _ | found⟩ := loaded
    · exact ⟨store, covers⟩
    · obtain rfl := loads found rfl
      simp only
      split
      · split
        · exact ⟨store, covers⟩
        · rename_i charged validates
          refine ⟨store, fun payer same => ?_⟩
          obtain rfl := Option.some.inj same
          obtain ⟨funded, enough, -⟩ := validateFeePayer_covers validates
          have collects := rentCollects key ((state.accounts.getAccount key).getD defaultAccount)
          cases stored : state.accounts.getAccount key with
          | none =>
              rw [stored] at collects funded
              exact absurd (UInt64.le_antisymm collects (UInt64.zero_le)) funded
          | some account =>
              rw [stored] at collects enough
              exact ⟨account, rfl, UInt64.le_trans enough collects⟩
      · split
        · exact ⟨store, covers⟩
        · exact ⟨store, covers⟩

theorem loadKeys_spec {message : Message} {fee : UInt64} (keys : List Pubkey) (index : Nat)
    {state : LoadState Program} (covers : Covers state.accounts.getAccount fee state.payerKey) :
    (loadKeys rt message fee state index keys).1.accounts.getAccount = state.accounts.getAccount ∧
      Covers state.accounts.getAccount fee (loadKeys rt message fee state index keys).1.payerKey := by
  induction keys generalizing state index with
  | nil => exact ⟨rfl, covers⟩
  | cons key keys ih =>
      obtain ⟨store, covers'⟩ := loadKey_spec rentCollects covers index key
      unfold loadKeys
      generalize loadKey rt message fee state index key = loaded at store covers'
      obtain ⟨next, _ | account⟩ := loaded
      · exact ⟨store, covers'⟩
      · simp only at store covers'
        obtain ⟨later, covered⟩ := ih (index + 1) (store ▸ covers')
        rw [store] at later covered
        simp only
        generalize loadKeys rt message fee next (index + 1) keys = rest at later covered
        obtain ⟨last, _ | accounts⟩ := rest
        · exact ⟨later, covered⟩
        · exact ⟨later, covered⟩

end

theorem programAccounts_store (rt : Runtime Transaction Program Limits) (db : AccountsDb Program)
    (accounts loaders : List (Pubkey × Account)) (programIndex : Nat) :
    (programAccounts rt db accounts loaders programIndex).1.getAccount = db.getAccount := by
  unfold programAccounts
  have store := loadAccount_store rt db (accounts.getD programIndex (systemProgramId, defaultAccount)).2.owner
  generalize accounts.getD programIndex (systemProgramId, defaultAccount) = program at store
  obtain ⟨programId, programAccount⟩ := program
  simp only at store ⊢
  generalize db.loadAccount rt programAccount.owner = loaded at store
  repeat' split
  all_goals first | rfl | exact store

theorem loadPrograms_store (rt : Runtime Transaction Program Limits) (accounts : List (Pubkey × Account))
    (programIndices : List Nat) (db : AccountsDb Program) (loaders : List (Pubkey × Account)) :
    (loadPrograms rt accounts db loaders programIndices).1.getAccount = db.getAccount := by
  induction programIndices generalizing db loaders with
  | nil => rfl
  | cons programIndex rest ih =>
      have store := programAccounts_store rt db accounts loaders programIndex
      unfold loadPrograms
      generalize programAccounts rt db accounts loaders programIndex = first at store
      obtain ⟨next, loaders', _ | indices⟩ := first
      · exact store
      · have later := (ih next loaders').trans store
        simp only
        generalize loadPrograms rt accounts next loaders' rest = second at later
        obtain ⟨last, _ | all⟩ := second
        · exact later
        · exact later

/-! ## Processing -/

/-- Nothing fails once the fee payer has been validated: the remaining accounts and the programs load,
or the transaction is free, the message processor succeeds, and the accounts it leaves may hold what
they hold. -/
def RunsThrough (rt : Runtime Transaction Program Limits) (svm : LiteSVM Program) (message : Message)
    (lamportsPerSignature : UInt64) (limits : Limits) : Prop :=
  let fee := rt.calculateFee message lamportsPerSignature limits
  match loadKeys rt message fee ⟨svm.accounts, none, 0⟩ 0 message.accountKeys with
  | (state, .error _) => state.payerKey = none ∨ fee = 0
  | (state, .ok accounts) => state.payerKey = none ∨
      match loadPrograms rt accounts state.accounts [] message.programIndices with
      | (_, .error _) => fee = 0
      | (db, .ok (loaders, programIndices)) =>
          let processed := rt.processMessage message programIndices db (accounts ++ loaders)
          processed.result = .ok () ∧
            checkAccountsRent rt db message (contextAfter (accounts ++ loaders) processed) = .ok ()

theorem runsThrough_of_unvalidated {svm : LiteSVM Program} {message : Message} {lamportsPerSignature : UInt64}
    {limits : Limits} (unvalidated : (loadKeys rt message (rt.calculateFee message lamportsPerSignature limits)
      ⟨svm.accounts, none, 0⟩ 0 message.accountKeys).1.payerKey = none) :
    RunsThrough rt svm message lamportsPerSignature limits := by
  simp only [RunsThrough]
  generalize loadKeys rt message _ _ 0 message.accountKeys = loaded at unvalidated
  obtain ⟨state, _ | accounts⟩ := loaded
  · exact .inl unvalidated
  · exact .inl unvalidated

def FailsEarly (smooth : Prop) (processed : ProcessResult Program) : Prop :=
  processed.context = none ∧ (∃ e, processed.result = .error e) ∧
    (smooth ↔ processed.payerKey = none ∨ processed.fee = 0)

def HasContext (smooth : Prop) (processed : ProcessResult Program) : Prop :=
  (∃ context, processed.context = some context) ∧ (∃ payer, processed.payerKey = some payer) ∧
    (smooth ↔ processed.result = .ok ())

theorem processTransaction_spec
    (rentCollects : ∀ key account, (rt.collectRent key account).1.lamports ≤ account.lamports)
    (svm : LiteSVM Program) (message : Message) (lamportsPerSignature : UInt64) (limits : Limits) :
    let processed := processTransaction rt svm message lamportsPerSignature limits
    processed.accounts.getAccount = svm.accounts.getAccount ∧
    Covers svm.accounts.getAccount processed.fee processed.payerKey ∧
    (FailsEarly (RunsThrough rt svm message lamportsPerSignature limits) processed ∨
      HasContext (RunsThrough rt svm message lamportsPerSignature limits) processed) := by
  intro processed
  have loads : (loadKeys rt message (rt.calculateFee message lamportsPerSignature limits) ⟨svm.accounts, none, 0⟩ 0
        message.accountKeys).1.accounts.getAccount = svm.accounts.getAccount ∧ _ :=
    loadKeys_spec rentCollects message.accountKeys 0 nofun
  simp only [processed, processTransaction, RunsThrough, FailsEarly, HasContext]
  generalize loadKeys rt message _ _ 0 message.accountKeys = loaded at loads
  obtain ⟨state, _ | accounts⟩ := loaded
  · exact ⟨loads.1, loads.2, .inl ⟨rfl, ⟨_, rfl⟩, Iff.rfl⟩⟩
  · simp only at loads ⊢
    cases validated : state.payerKey with
    | none => exact ⟨loads.1, by simp [Covers], .inl ⟨rfl, ⟨_, rfl⟩, by simp⟩⟩
    | some payer =>
        have programs := loadPrograms_store rt accounts message.programIndices state.accounts []
        rw [validated] at loads
        simp only [Option.isNone_some, Bool.false_eq_true, if_false, reduceCtorEq, false_or]
        generalize loadPrograms rt accounts state.accounts [] message.programIndices = loadedPrograms at programs
        obtain ⟨db, _ | ⟨loaders, programIndices⟩⟩ := loadedPrograms
        · exact ⟨programs.trans loads.1, loads.2, .inl ⟨rfl, ⟨_, rfl⟩, by simp⟩⟩
        · refine ⟨programs.trans loads.1, loads.2, .inr ⟨⟨_, rfl⟩, ⟨payer, rfl⟩, ?_⟩⟩
          simp only
          cases checkAccountsRent rt db message _ with
          | error err => simp
          | ok => simp

/-! ## Atomicity -/

theorem burn_covered {db : AccountsDb Program} {payer : Pubkey} {account : Account} {fee : UInt64}
    (stored : db.getAccount payer = some account) (enough : fee ≤ account.lamports) :
    db.burn false payer fee = .ok (db.insertDiff payer { account with lamports := account.lamports - fee }) := by
  simp [AccountsDb.burn, stored, checkedSub, enough, AccountsDb.addDiffAccount]

def ChargedOnly (before after : Pubkey → Option Account) (fee : UInt64) : Option Pubkey → Prop
  | none => after = before
  | some payer => ∃ account, before payer = some account ∧ fee ≤ account.lamports ∧
      after = Function.update before payer (some { account with lamports := account.lamports - fee })

theorem chargedOnly_refl_iff {store : Pubkey → Option Account} {fee : UInt64} {payerKey : Option Pubkey}
    (covers : Covers store fee payerKey) : ChargedOnly store store fee payerKey ↔ payerKey = none ∨ fee = 0 := by
  cases payerKey with
  | none => simp [ChargedOnly]
  | some payer =>
      obtain ⟨account, stored, enough⟩ := covers payer rfl
      constructor
      · rintro ⟨charged, present, -, same⟩
        have unchanged := congrFun same payer
        rw [Function.update_self, present, Option.some.injEq, Account.mk.injEq] at unchanged
        have same : charged.lamports - fee = charged.lamports - 0 := by rw [UInt64.sub_zero]; exact unchanged.1.symm
        exact .inr ((UInt64.sub_right_inj _).mp same)
      · rintro (absent | rfl)
        · cases absent
        · exact ⟨account, stored, enough, by simp [stored]⟩

def Reaches (rt : Runtime Transaction Program Limits) (svm : LiteSVM Program) (tx : Transaction) (message : Message)
    (lamportsPerSignature : UInt64) (limits : Limits) : Prop :=
  rt.sanitize svm.sigVerify tx = .ok message ∧ maybeBlockhashCheck rt svm message = .ok lamportsPerSignature ∧
    rt.computeBudgetLimits message = .ok limits

theorem Reaches.executeTransaction {svm : LiteSVM Program} {tx : Transaction} {message : Message}
    {lamportsPerSignature : UInt64} {limits : Limits}
    (reaches : Reaches rt svm tx message lamportsPerSignature limits) :
    executeTransaction rt svm tx =
      let processed := processTransaction rt svm message lamportsPerSignature limits
      match processed.context with
      | none => ({ svm with accounts := processed.accounts },
          ⟨[], processed.result, 0, processed.consumedUnits, processed.fee⟩)
      | some context =>
          let checked := checkTxResult processed.accounts processed.result processed.payerKey processed.fee
          ({ svm with accounts := checked.1 },
            ⟨postAccounts message context, checked.2, message.numRequiredSignatures, processed.consumedUnits, processed.fee⟩) := by
  cases context : (processTransaction rt svm message lamportsPerSignature limits).context with
  | none =>
      simp only [Svm.executeTransaction, executeSanitizedTransaction, reaches.1, reaches.2.1, reaches.2.2, context]
  | some found =>
      simp only [Svm.executeTransaction, executeSanitizedTransaction, reaches.1, reaches.2.1, reaches.2.2, context]

/-- A transaction whose processing fails is reported as failed and costs its payer the fee. -/
def FailsAtomically (rt : Runtime Transaction Program Limits) (svm : LiteSVM Program) (tx : Transaction) : Prop :=
  ∀ message lamportsPerSignature limits, Reaches rt svm tx message lamportsPerSignature limits →
    let processed := processTransaction rt svm message lamportsPerSignature limits
    (∃ e, processed.result = .error e) →
      (∃ failed, (sendTransaction rt svm tx).2 = .error failed) ∧
        ChargedOnly svm.accounts.getAccount (sendTransaction rt svm tx).1.accounts.getAccount processed.fee
          processed.payerKey

theorem sendTransaction_failsEarly {smooth : Prop} {svm : LiteSVM Program} {tx : Transaction} {message : Message}
    {lamportsPerSignature : UInt64} {limits : Limits}
    (reaches : Reaches rt svm tx message lamportsPerSignature limits)
    (early : FailsEarly smooth (processTransaction rt svm message lamportsPerSignature limits)) :
    (∃ failed, (sendTransaction rt svm tx).2 = .error failed) ∧
      (sendTransaction rt svm tx).1.accounts =
        (processTransaction rt svm message lamportsPerSignature limits).accounts := by
  obtain ⟨context, ⟨e, fails⟩, -⟩ := early
  simp only [sendTransaction, reaches.executeTransaction, context, fails]
  exact ⟨⟨_, rfl⟩, trivial⟩

theorem sendTransaction_charged {smooth : Prop} {svm : LiteSVM Program} {tx : Transaction} {message : Message}
    {lamportsPerSignature : UInt64} {limits : Limits} {e : TransactionError}
    (reaches : Reaches rt svm tx message lamportsPerSignature limits)
    (has : HasContext smooth (processTransaction rt svm message lamportsPerSignature limits))
    (fails : (processTransaction rt svm message lamportsPerSignature limits).result = .error e)
    (store : (processTransaction rt svm message lamportsPerSignature limits).accounts.getAccount =
      svm.accounts.getAccount)
    (covers : Covers svm.accounts.getAccount (processTransaction rt svm message lamportsPerSignature limits).fee
      (processTransaction rt svm message lamportsPerSignature limits).payerKey) :
    ∃ metadata, (sendTransaction rt svm tx).2 = .ok metadata := by
  obtain ⟨⟨context, hasContext⟩, ⟨payer, validated⟩, -⟩ := has
  obtain ⟨account, stored, enough⟩ := covers payer validated
  rw [← store] at stored
  simp only [sendTransaction, reaches.executeTransaction, hasContext, fails, validated, checkTxResult,
    burn_covered stored enough]
  exact ⟨_, rfl⟩

theorem sendTransaction_failsAtomically_iff
    (rentCollects : ∀ key account, (rt.collectRent key account).1.lamports ≤ account.lamports)
    (svm : LiteSVM Program) (tx : Transaction) :
    FailsAtomically rt svm tx ↔ ∀ message lamportsPerSignature limits,
      Reaches rt svm tx message lamportsPerSignature limits → RunsThrough rt svm message lamportsPerSignature limits := by
  refine forall_congr' fun message => forall_congr' fun lamportsPerSignature => forall_congr' fun limits =>
    imp_congr_right fun reaches => ?_
  obtain ⟨store, covers, early | has⟩ := processTransaction_spec rentCollects svm message lamportsPerSignature limits
  · obtain ⟨failed, unchanged⟩ := sendTransaction_failsEarly reaches early
    simp only [unchanged, store, chargedOnly_refl_iff covers, early.2.2]
    exact ⟨fun atomic => (atomic early.2.1).2, fun free _ => ⟨failed, free⟩⟩
  · rw [has.2.2]
    constructor
    · intro atomic
      cases result : (processTransaction rt svm message lamportsPerSignature limits).result with
      | ok => rfl
      | error e =>
          obtain ⟨⟨failed, reported⟩, -⟩ := atomic ⟨e, result⟩
          obtain ⟨metadata, succeeded⟩ := sendTransaction_charged reaches has result store covers
          rw [succeeded] at reported
          cases reported
    · intro succeeds processed
      rintro ⟨e, fails⟩
      rw [succeeds] at fails
      cases fails

/-! ## A transaction whose second transfer fails -/

def payer : Pubkey := .ofNat 1

def recipient : Pubkey := .ofNat 2

def systemAccountWith (lamports : UInt64) : Account := { defaultAccount with lamports }

def systemProgramAccount : Account := { defaultAccount with lamports := 1, owner := nativeLoader, executable := true }

def twoTransfers : Message where
  accountKeys := [payer, recipient, systemProgramId]
  isWritable index := index < 2
  isInvoked index := index = 2
  isInstructionAccount index := index < 2
  programIndices := [2, 2]
  recentBlockhash := .ofNat 0
  durableNonce := none
  nonceSigners := []
  numRequiredSignatures := 1
  indices_lt := by decide
  writable_lt index writable := by simp at writable; simp; omega

def singleSignature (processed : Processed) : Runtime Message Unit Unit where
  sanitize _ message := .ok message
  computeBudgetLimits _ := .ok ()
  calculateFee _ lamportsPerSignature _ := lamportsPerSignature
  instructionsAccount _ := defaultAccount
  collectRent _ account := (account, 0)
  minimumBalance dataLength := 6960 * (128 + UInt64.ofNat dataLength)
  nonceStateSize := 80
  systemAccountKind account := if account.owner = systemProgramId ∧ account.data.1 = [] then some .system else none
  durableNonceFrom hash := hash
  verifyNonceAccount _ _ := none
  programdataAddress _ := none
  programdataMetadataSize := 45
  loaderV4Offset := 48
  programCacheEntry _ _ _ := none
  slotHistoryAccount found _ := found.getD defaultAccount
  feeRateGovernorAccount _ := defaultAccount
  processMessage _ _ _ _ := processed

def secondTransferFails : Processed :=
  ⟨.error (.instructionError 1), 300, fun
    | 0 => systemAccountWith (10000000 - 5000 - 700)
    | 1 => systemAccountWith 700
    | _ => systemProgramAccount⟩

def storeOf (accounts : List (Pubkey × Account)) : LiteSVM Unit where
  accounts := ⟨fun pubkey => accounts.lookup pubkey, fun _ => none, fun _ => none, none⟩
  sigVerify := false
  blockhashVerify := false
  slot := 3
  leaderSchedule := ⟨[(0, .ofNat 9)], by decide⟩
  lamportsPerSignature := 5000
  signatureCount := 0
  lastHash := .ofNat 0
  validHash _ := none
  validateFeeCollector := false

def fundedStore : LiteSVM Unit :=
  storeOf [(payer, systemAccountWith 10000000), (systemProgramId, systemProgramAccount)]

/-- The payer is charged and the transfer that was done is kept, with no failure reported. -/
theorem sendTransaction_keeps_failed_transfer :
    ¬ FailsAtomically (singleSignature secondTransferFails) fundedStore twoTransfers := by
  intro atomic
  have fails : (processTransaction (singleSignature secondTransferFails) fundedStore twoTransfers 5000 ()).result =
      .error (.instructionError 1) := by decide +kernel
  obtain ⟨⟨failed, reported⟩, -⟩ := atomic twoTransfers 5000 () ⟨rfl, rfl, rfl⟩ ⟨_, fails⟩
  have succeeds : (sendTransaction (singleSignature secondTransferFails) fundedStore twoTransfers).2 =
      .ok ⟨300, 5000⟩ := by decide +kernel
  rw [succeeds] at reported
  cases reported

theorem sendTransaction_failsAtomically_unfunded :
    FailsAtomically (singleSignature secondTransferFails) (storeOf []) twoTransfers := by
  refine (sendTransaction_failsAtomically_iff (fun _ _ => UInt64.le_refl _) (storeOf []) twoTransfers).mpr ?_
  rintro message lamportsPerSignature limits ⟨sanitized, rate, -⟩
  obtain rfl := Except.ok.inj sanitized
  obtain rfl := Except.ok.inj rate
  have early : (loadKeys (singleSignature secondTransferFails) twoTransfers 5000 ⟨(storeOf []).accounts, none, 0⟩ 0
      twoTransfers.accountKeys).1.payerKey = none := by decide +kernel
  exact runsThrough_of_unvalidated early

end KonaSoon.Svm
