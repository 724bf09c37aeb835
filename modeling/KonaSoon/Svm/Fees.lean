import KonaSoon.Svm.Payer

namespace KonaSoon.Svm
open Lib Mpt

variable {Transaction Program Limits : Type} {rt : Runtime Transaction Program Limits}

def reached (rt : Runtime Transaction Program Limits) (svm : LiteSVM Program) (tx : Transaction) :
    Option (Message × UInt64 × Limits) := do
  let message ← (rt.sanitize svm.sigVerify tx).toOption
  let lamportsPerSignature ← (maybeBlockhashCheck rt svm message).toOption
  let limits ← (rt.computeBudgetLimits message).toOption
  some (message, lamportsPerSignature, limits)

def balance (store : Pubkey → Option Account) (pubkey : Pubkey) : Nat := ((store pubkey).map fun a => a.lamports.toNat).getD 0

def debitedFee (rt : Runtime Transaction Program Limits) (svm : LiteSVM Program) (tx : Transaction) : Nat :=
  match reached rt svm tx with
  | none => 0
  | some (message, lamportsPerSignature, limits) =>
      let store := svm.accounts.getAccount
      let processed := processTransaction rt svm message lamportsPerSignature limits
      match processed.payerKey with
      | none => 0
      | some payer =>
          match processed.context.bind fun _ => writtenIndexFrom message payer 0 message.accountKeys with
          | none => balance store payer - balance (sendTransaction rt svm tx).1.accounts.getAccount payer
          | some index =>
              match (loadKeys rt message processed.fee ⟨svm.accounts, none, 0⟩ 0 message.accountKeys).2 with
              | .error _ => 0
              | .ok accounts =>
                  (collected rt store payer).lamports.toNat - balance (fun _ => (accounts[index]?).map Prod.snd) payer

def takesFee (rt : Runtime Transaction Program Limits) (svm : LiteSVM Program) (message : Message)
    (lamportsPerSignature : UInt64) (limits : Limits) : Bool :=
  let fee := rt.calculateFee message lamportsPerSignature limits
  match loadKeys rt message fee ⟨svm.accounts, none, 0⟩ 0 message.accountKeys with
  | (_, .error _) => false
  | (state, .ok accounts) =>
      match state.payerKey with
      | none => false
      | some payer =>
          match loadPrograms rt accounts state.accounts [] message.programIndices with
          | (_, .error _) => false
          | (db, .ok (loaders, programIndices)) =>
              match writtenIndexFrom message payer 0 message.accountKeys with
              | some index => payerIndexFrom message 0 message.accountKeys = some index
              | none =>
                  let processed := rt.processMessage message programIndices db (accounts ++ loaders)
                  !(checkAccountsRent rt db message (contextAfter (accounts ++ loaders) processed)).isOk ||
                    !processed.result.isOk

def strayFee (rt : Runtime Transaction Program Limits) (svm : LiteSVM Program) (tx : Transaction) : Nat :=
  match reached rt svm tx with
  | none => 0
  | some (message, lamportsPerSignature, limits) =>
      if takesFee rt svm message lamportsPerSignature limits then 0
      else (rt.calculateFee message lamportsPerSignature limits).toNat

theorem reached_eq_some_iff {svm : LiteSVM Program} {tx : Transaction} {message : Message}
    {lamportsPerSignature : UInt64} {limits : Limits} :
    reached rt svm tx = some (message, lamportsPerSignature, limits) ↔
      Reaches rt svm tx message lamportsPerSignature limits := by
  unfold reached Reaches
  cases sanitized : rt.sanitize svm.sigVerify tx with
  | error e => simp [Except.toOption]
  | ok m =>
      cases rate : maybeBlockhashCheck rt svm m with
      | error e =>
          simp only [Except.toOption, Option.bind_eq_bind, Option.bind_some, rate, Option.bind_none, reduceCtorEq,
            Except.ok.injEq, false_iff, not_and]
          rintro rfl
          simp [rate]
      | ok lps =>
          cases budget : rt.computeBudgetLimits m with
          | error e =>
              simp only [Except.toOption, Option.bind_eq_bind, Option.bind_some, rate, budget, Option.bind_none,
                reduceCtorEq, Except.ok.injEq, false_iff, not_and]
              rintro rfl
              simp [budget]
          | ok l =>
              simp only [Except.toOption, Option.bind_eq_bind, Option.bind_some, rate, budget, Option.some.injEq,
                Prod.mk.injEq, Except.ok.injEq]
              constructor
              · rintro ⟨rfl, rfl, rfl⟩
                exact ⟨rfl, rate, budget⟩
              · rintro ⟨rfl, rate', budget'⟩
                rw [rate] at rate'
                rw [budget] at budget'
                exact ⟨rfl, Except.ok.inj rate', Except.ok.inj budget'⟩

theorem processTransaction_fee (svm : LiteSVM Program) (message : Message) (lamportsPerSignature : UInt64)
    (limits : Limits) :
    (processTransaction rt svm message lamportsPerSignature limits).fee =
      rt.calculateFee message lamportsPerSignature limits := by
  simp only [processTransaction]
  repeat' split
  all_goals rfl

theorem reportedFee_sendTransaction (svm : LiteSVM Program) (tx : Transaction) :
    reportedFee (sendTransaction rt svm tx).2 = (executeTransaction rt svm tx).2.fee := by
  unfold sendTransaction
  generalize executeTransaction rt svm tx = executed
  obtain ⟨svm, accounts, result, signatures, units, fee⟩ := executed
  cases result with
  | error e => rfl
  | ok => rfl

theorem sendTransaction_unreached {svm : LiteSVM Program} {tx : Transaction} (unreached : reached rt svm tx = none) :
    reportedFee (sendTransaction rt svm tx).2 = 0 := by
  unfold reached at unreached
  rw [reportedFee_sendTransaction]
  simp only [executeTransaction, executeSanitizedTransaction]
  cases sanitized : rt.sanitize svm.sigVerify tx with
  | error e => rfl
  | ok message =>
      cases rate : maybeBlockhashCheck rt svm message with
      | error e => simp only [rate]; rfl
      | ok lamportsPerSignature =>
          cases budget : rt.computeBudgetLimits message with
          | error e => simp only [rate, budget]; rfl
          | ok limits => simp [sanitized, rate, budget, Except.toOption] at unreached

theorem sendTransaction_reportedFee {svm : LiteSVM Program} {tx : Transaction} {message : Message}
    {lamportsPerSignature : UInt64} {limits : Limits}
    (reaches : Reaches rt svm tx message lamportsPerSignature limits) :
    reportedFee (sendTransaction rt svm tx).2 = rt.calculateFee message lamportsPerSignature limits := by
  rw [reportedFee_sendTransaction, reaches.executeTransaction, ← processTransaction_fee svm]
  cases context : (processTransaction rt svm message lamportsPerSignature limits).context with
  | none => simp only [context]
  | some context => simp only [context]

theorem contextAfter_keys (accounts : List (Pubkey × Account)) (processed : Processed) :
    (contextAfter accounts processed).map Prod.fst = accounts.map Prod.fst := by
  calc (contextAfter accounts processed).map Prod.fst
      = (accounts.zipIdx.map Prod.fst).map Prod.fst := by simp only [contextAfter, List.map_map, Function.comp_def]
    _ = accounts.map Prod.fst := by rw [List.zipIdx_map_fst]

theorem sendTransaction_unwritten {svm : LiteSVM Program} {tx : Transaction} {message : Message}
    {lamportsPerSignature : UInt64} {limits : Limits} {payer : Pubkey} {account : Account} {db : AccountsDb Program}
    {result : Except TransactionError Unit} {units fee rentDebit : UInt64} {context : List (Pubkey × Account)}
    (reaches : Reaches rt svm tx message lamportsPerSignature limits)
    (processes : processTransaction rt svm message lamportsPerSignature limits =
      ⟨db, result, units, some context, fee, some payer, rentDebit⟩)
    (unwritten : writtenIndexFrom message payer 0 (context.map Prod.fst) = none)
    (stored : db.getAccount payer = some account) (enough : fee ≤ account.lamports) :
    (sendTransaction rt svm tx).1.accounts.getAccount payer =
      if result.isOk then some account else some { account with lamports := account.lamports - fee } := by
  have kept : ∀ db : AccountsDb Program, (writeBack rt db (postAccounts message context)).getAccount payer =
      db.getAccount payer := by
    intro db
    have back : (writeBack rt db (postAccounts message context)).getAccount payer = _ :=
      writeBack_store message payer context 0 db
    rwa [unwritten] at back
  rw [sendTransaction, reaches.executeTransaction, processes]
  cases result with
  | ok => exact (kept db).trans stored
  | error e =>
      simp only [checkTxResult, burn_covered stored enough]
      exact (kept _).trans (by rw [getAccount_insertDiff, Function.update_self]; rfl)

theorem debitedFee_early {svm : LiteSVM Program} {tx : Transaction} {message : Message}
    {lamportsPerSignature : UInt64} {limits : Limits}
    (reaches : Reaches rt svm tx message lamportsPerSignature limits)
    (context : (processTransaction rt svm message lamportsPerSignature limits).context = none)
    (unchanged : (sendTransaction rt svm tx).1.accounts.getAccount = svm.accounts.getAccount) :
    debitedFee rt svm tx = 0 := by
  simp only [debitedFee, reached_eq_some_iff.mpr reaches, context, Option.bind_none, unchanged, Nat.sub_self]
  split <;> rfl

theorem loadKeys_written {svm : LiteSVM Program} {message : Message} {fee : UInt64} {state : LoadState Program}
    {accounts : List (Pubkey × Account)} {payer : Pubkey} {index : Nat}
    (loads : loadKeys rt message fee ⟨svm.accounts, none, 0⟩ 0 message.accountKeys = (state, .ok accounts))
    (validated : state.payerKey = some payer)
    (written : writtenIndexFrom message payer 0 message.accountKeys = some index) :
    (collected rt svm.accounts.getAccount payer).lamports.toNat -
        balance (fun _ => (accounts[index]?).map Prod.snd) payer =
      if payerIndexFrom message 0 message.accountKeys = some index then fee.toNat else 0 := by
  obtain ⟨rfl, covered⟩ := loadKeys_ok rfl loads
  obtain ⟨ordinary, enough⟩ := covered payer validated
  obtain ⟨offset, rfl, found, writable⟩ := writtenIndexFrom_some written
  rw [Nat.zero_add] at writable ⊢
  simp only [balance, List.getElem?_map, List.getElem?_zipIdx, found, Option.map_some, Option.getD_some, Nat.zero_add,
    loadedAs, ordinary, if_false, writable, if_true, decide_eq_true_eq]
  split
  · rw [UInt64.toNat_sub_of_le _ _ enough]
    exact Nat.sub_sub_self (UInt64.le_iff_toNat_le.mp enough)
  · exact Nat.sub_self _

theorem loadKeys_keys {message : Message} {fee : UInt64} {state last : LoadState Program} {index : Nat}
    {keys : List Pubkey} {accounts : List (Pubkey × Account)} (unpaid : state.payerKey = none)
    (loads : loadKeys rt message fee state index keys = (last, .ok accounts)) : accounts.map Prod.fst = keys := by
  obtain ⟨rfl, -⟩ := loadKeys_ok unpaid loads
  calc _ = (keys.zipIdx index).map Prod.fst := by simp only [List.map_map, Function.comp_def]
    _ = keys := List.zipIdx_map_fst ..

theorem writtenIndexFrom_context {message : Message} {fee : UInt64} {state last : LoadState Program}
    {accounts : List (Pubkey × Account)} (unpaid : state.payerKey = none)
    (loads : loadKeys rt message fee state 0 message.accountKeys = (last, .ok accounts))
    (pubkey : Pubkey) (loaders : List (Pubkey × Account)) (processed : Processed) :
    writtenIndexFrom message pubkey 0 ((contextAfter (accounts ++ loaders) processed).map Prod.fst) =
      writtenIndexFrom message pubkey 0 message.accountKeys := by
  rw [contextAfter_keys, List.map_append, loadKeys_keys unpaid loads]
  refine writtenIndexFrom_append pubkey _ _ fun i le writable => ?_
  have := message.writable_lt i writable
  omega

theorem processTransaction_context {svm : LiteSVM Program} {message : Message}
    {lamportsPerSignature : UInt64} {limits : Limits} {payer : Pubkey} {state : LoadState Program}
    {accounts loaders : List (Pubkey × Account)} {db : AccountsDb Program} {programIndices : List (List Nat)}
    (loads : loadKeys rt message (rt.calculateFee message lamportsPerSignature limits) ⟨svm.accounts, none, 0⟩ 0
      message.accountKeys = (state, .ok accounts))
    (validated : state.payerKey = some payer)
    (programs : loadPrograms rt accounts state.accounts [] message.programIndices =
      (db, .ok (loaders, programIndices))) :
    processTransaction rt svm message lamportsPerSignature limits =
      ⟨db, match checkAccountsRent rt db message (contextAfter (accounts ++ loaders)
          (rt.processMessage message programIndices db (accounts ++ loaders))) with
        | .error err => .error err
        | .ok () => (rt.processMessage message programIndices db (accounts ++ loaders)).result,
        (rt.processMessage message programIndices db (accounts ++ loaders)).consumedUnits,
        some (contextAfter (accounts ++ loaders) (rt.processMessage message programIndices db (accounts ++ loaders))),
        rt.calculateFee message lamportsPerSignature limits, some payer, state.feePayerRentDebit⟩ := by
  cases rent : checkAccountsRent rt db message (contextAfter (accounts ++ loaders)
      (rt.processMessage message programIndices db (accounts ++ loaders))) with
  | error e =>
      simp only [processTransaction, loads, validated, programs, Option.isNone_some, Bool.false_eq_true, if_false, rent]
  | ok =>
      simp only [processTransaction, loads, validated, programs, Option.isNone_some, Bool.false_eq_true, if_false, rent]

theorem debitedFee_context {svm : LiteSVM Program} {tx : Transaction} {message : Message}
    {lamportsPerSignature : UInt64} {limits : Limits} {payer : Pubkey} {state : LoadState Program}
    {accounts loaders : List (Pubkey × Account)} {db : AccountsDb Program} {programIndices : List (List Nat)}
    (reaches : Reaches rt svm tx message lamportsPerSignature limits)
    (loads : loadKeys rt message (rt.calculateFee message lamportsPerSignature limits) ⟨svm.accounts, none, 0⟩ 0
      message.accountKeys = (state, .ok accounts))
    (validated : state.payerKey = some payer)
    (programs : loadPrograms rt accounts state.accounts [] message.programIndices = (db, .ok (loaders, programIndices)))
    (store : (processTransaction rt svm message lamportsPerSignature limits).accounts.getAccount =
      svm.accounts.getAccount)
    (covers : Covers svm.accounts.getAccount (processTransaction rt svm message lamportsPerSignature limits).fee
      (processTransaction rt svm message lamportsPerSignature limits).payerKey) :
    debitedFee rt svm tx =
      if takesFee rt svm message lamportsPerSignature limits then
        (rt.calculateFee message lamportsPerSignature limits).toNat
      else 0 := by
  have processes := processTransaction_context loads validated programs
  simp only [takesFee, loads, validated, programs]
  simp only [debitedFee, reached_eq_some_iff.mpr reaches, processes, Option.bind_some]
  rw [processes] at store covers
  cases written : writtenIndexFrom message payer 0 message.accountKeys with
  | some index =>
      simp only [loads, decide_eq_true_eq]
      exact loadKeys_written loads validated written
  | none =>
      obtain ⟨account, stored, enough⟩ := covers payer rfl
      have after := sendTransaction_unwritten reaches processes
        ((writtenIndexFrom_context rfl loads payer loaders _).trans written) ((congrFun store payer).trans stored) enough
      have charged : account.lamports.toNat -
          (account.lamports - rt.calculateFee message lamportsPerSignature limits).toNat =
          (rt.calculateFee message lamportsPerSignature limits).toNat := by
        rw [UInt64.toNat_sub_of_le _ _ enough]
        exact Nat.sub_sub_self (UInt64.le_iff_toNat_le.mp enough)
      simp only [balance, stored, after]
      cases checkAccountsRent rt db message _ with
      | error e => simpa [Except.isOk, Except.toBool] using charged
      | ok =>
          cases (rt.processMessage message programIndices db (accounts ++ loaders)).result with
          | error e => simpa [Except.isOk, Except.toBool] using charged
          | ok => simp [Except.isOk, Except.toBool]

section

variable (rentCollects : ∀ key account, (rt.collectRent key account).1.lamports ≤ account.lamports)

include rentCollects

theorem debitedFee_reached {svm : LiteSVM Program} {tx : Transaction} {message : Message}
    {lamportsPerSignature : UInt64} {limits : Limits}
    (reaches : Reaches rt svm tx message lamportsPerSignature limits) :
    debitedFee rt svm tx =
      if takesFee rt svm message lamportsPerSignature limits then
        (rt.calculateFee message lamportsPerSignature limits).toNat
      else 0 := by
  obtain ⟨store, covers, outcome⟩ := processTransaction_spec rentCollects svm message lamportsPerSignature limits
  have early : (processTransaction rt svm message lamportsPerSignature limits).context = none → debitedFee rt svm tx = 0 := by
    intro context
    obtain early | ⟨⟨_, has⟩, -⟩ := outcome
    · refine debitedFee_early reaches context ?_
      rw [(sendTransaction_failsEarly reaches early).2, store]
    · rw [context] at has
      cases has
  cases loads : loadKeys rt message (rt.calculateFee message lamportsPerSignature limits) ⟨svm.accounts, none, 0⟩ 0
    message.accountKeys with
  | mk state loaded =>
  cases loaded with
  | error e => rw [early (by simp only [processTransaction, loads]), takesFee, loads]; rfl
  | ok accounts =>
  cases validated : state.payerKey with
  | none =>
      rw [early (by simp [processTransaction, loads, validated])]
      simp [takesFee, loads, validated]
  | some payer =>
  cases programs : loadPrograms rt accounts state.accounts [] message.programIndices with
  | mk db loadedPrograms =>
  cases loadedPrograms with
  | error e =>
      rw [early (by simp [processTransaction, loads, validated, programs])]
      simp [takesFee, loads, validated, programs]
  | ok loadedPrograms =>
  obtain ⟨loaders, programIndices⟩ := loadedPrograms
  exact debitedFee_context reaches loads validated programs store covers

theorem reportedFee_eq_debited_add_stray (svm : LiteSVM Program) (tx : Transaction) :
    (reportedFee (sendTransaction rt svm tx).2).toNat = debitedFee rt svm tx + strayFee rt svm tx := by
  cases reaches : reached rt svm tx with
  | none =>
      rw [sendTransaction_unreached reaches]
      simp [debitedFee, strayFee, reaches]
  | some found =>
      obtain ⟨message, lamportsPerSignature, limits⟩ := found
      have reaches' := reached_eq_some_iff.mp reaches
      rw [sendTransaction_reportedFee reaches', debitedFee_reached rentCollects reaches']
      simp only [strayFee, reaches]
      split
      · rw [Nat.add_zero]
      · rw [Nat.zero_add]

end

def sumOver (rt : Runtime Transaction Program Limits) (value : LiteSVM Program → Transaction → Nat) :
    LiteSVM Program → List Transaction → Nat
  | _, [] => 0
  | svm, tx :: txs => value svm tx + sumOver rt value (sendTransaction rt svm tx).1 txs

def debitedFees (rt : Runtime Transaction Program Limits) (svm : LiteSVM Program) (block : List (List Transaction)) : Nat :=
  sumOver rt (debitedFee rt) svm block.flatten

def strayFees (rt : Runtime Transaction Program Limits) (svm : LiteSVM Program) (block : List (List Transaction)) : Nat :=
  sumOver rt (strayFee rt) svm block.flatten

theorem executeBatchTransactions_append (rt : Runtime Transaction Program Limits) (svm : LiteSVM Program)
    (txs more : List Transaction) :
    executeBatchTransactions rt svm (txs ++ more) =
      let executed := executeBatchTransactions rt svm txs
      let later := executeBatchTransactions rt executed.1 more
      (later.1, executed.2 ++ later.2) := by
  induction txs generalizing svm with
  | nil => rfl
  | cons tx txs ih => simp only [List.cons_append, executeBatchTransactions, ih]

theorem executeBatches_eq_flatten (rt : Runtime Transaction Program Limits) (svm : LiteSVM Program)
    (block : List (List Transaction)) :
    executeBatches rt svm block = executeBatchTransactions rt svm block.flatten := by
  induction block generalizing svm with
  | nil => rfl
  | cons batch batches ih => simp only [List.flatten_cons, executeBatchTransactions_append, executeBatches, ih]

theorem totalFees_toNat (results : List TransactionResult) :
    (totalFees results).toNat = (results.map fun result => (reportedFee result).toNat).sum % 2 ^ 64 := by
  have accumulated : ∀ fees : UInt64, (results.foldl (fun fees result => fees + reportedFee result) fees).toNat =
      (fees.toNat + (results.map fun result => (reportedFee result).toNat).sum) % 2 ^ 64 := by
    induction results with
    | nil =>
        intro fees
        simp [Nat.mod_eq_of_lt fees.toNat_lt]
    | cons result results ih =>
        intro fees
        rw [List.foldl_cons, ih, List.map_cons, List.sum_cons, UInt64.toNat_add]
        omega
  simpa [totalFees] using accumulated 0

theorem reportedFees_eq_debited_add_stray
    (rentCollects : ∀ key account, (rt.collectRent key account).1.lamports ≤ account.lamports)
    (svm : LiteSVM Program) (txs : List Transaction) :
    ((executeBatchTransactions rt svm txs).2.map fun result => (reportedFee result).toNat).sum =
      sumOver rt (debitedFee rt) svm txs + sumOver rt (strayFee rt) svm txs := by
  induction txs generalizing svm with
  | nil => rfl
  | cons tx txs ih =>
      simp only [executeBatchTransactions, List.map_cons, List.sum_cons, sumOver, ih,
        reportedFee_eq_debited_add_stray rentCollects]
      omega

theorem sendTransaction_schedule (rt : Runtime Transaction Program Limits) (svm : LiteSVM Program) (tx : Transaction) :
    (sendTransaction rt svm tx).1.leaderSchedule = svm.leaderSchedule ∧ (sendTransaction rt svm tx).1.slot = svm.slot := by
  simp only [sendTransaction, executeTransaction, executeSanitizedTransaction]
  repeat' split
  all_goals exact ⟨rfl, rfl⟩

theorem executeBatchTransactions_schedule (rt : Runtime Transaction Program Limits) (svm : LiteSVM Program)
    (txs : List Transaction) :
    (executeBatchTransactions rt svm txs).1.leaderSchedule = svm.leaderSchedule ∧
      (executeBatchTransactions rt svm txs).1.slot = svm.slot := by
  induction txs generalizing svm with
  | nil => exact ⟨rfl, rfl⟩
  | cons tx txs ih =>
      obtain ⟨schedule, slot⟩ := sendTransaction_schedule rt svm tx
      simp only [executeBatchTransactions, ih, schedule, slot, and_self]

def mintedFees (svm : LiteSVM Program) (results : List TransactionResult) (leader : Pubkey) : Nat :=
  match collectFees svm results with
  | .ok paid => balance paid.accounts.getAccount leader - balance svm.accounts.getAccount leader
  | .error _ => 0

theorem sealBlock_balance {svm sealed : LiteSVM Program} {results : List TransactionResult} {leader : Pubkey}
    (history : leader ≠ sysvarSlotHistory) (rate : leader ≠ soonFeeRateGovernor)
    (seals : sealBlock rt svm results = .ok sealed) :
    balance sealed.accounts.getAccount leader - balance svm.accounts.getAccount leader =
      mintedFees svm results leader := by
  obtain ⟨paid, pays, made⟩ := bind_eq_ok.mp seals
  cases made
  simp only [mintedFees, pays, balance, updateFeeRateGovernor, updateSlotHistory, updateSysvar, getAccount_insertDiff,
    Function.update_of_ne history, Function.update_of_ne rate]

def MintsDebits (rt : Runtime Transaction Program Limits) (svm : LiteSVM Program) (block : List (List Transaction))
    (leader : Pubkey) : Prop :=
  mintedFees (executeBatches rt svm block).1 (executeBatches rt svm block).2 leader = debitedFees rt svm block

/-- The leader's account can take the lamports: they do not overflow it and, where that is checked, leave it
exempt from rent. -/
def canMint (svm : LiteSVM Program) (leader : Pubkey) (lamports : UInt64) : Bool :=
  (svm.accounts.mint svm.validateFeeCollector leader lamports).isOk

theorem mint_balance {db minted : AccountsDb Program} {check : Bool} {pubkey : Pubkey} {lamports : UInt64}
    (mints : db.mint check pubkey lamports = .ok minted) :
    balance minted.getAccount pubkey = balance db.getAccount pubkey + lamports.toNat := by
  have added : ∀ account, db.addDiffAccount check pubkey account = .ok minted →
      minted = db.insertDiff pubkey account := by
    intro account adds
    unfold AccountsDb.addDiffAccount at adds
    repeat' split at adds
    all_goals first | cases adds; rfl | cases adds
  unfold AccountsDb.mint at mints
  cases stored : db.getAccount pubkey with
  | none =>
      rw [stored] at mints
      obtain rfl := added _ mints
      simp [balance, getAccount_insertDiff, stored]
  | some account =>
      simp only [stored, checkedAdd] at mints
      split at mints
      · rename_i sum fits
        split at fits
        · obtain rfl := Option.some.inj fits
          obtain rfl := added _ mints
          rename_i small
          simpa [balance, getAccount_insertDiff, stored, UInt64.toNat_add] using small
        · cases fits
      · cases mints

theorem mintedFees_eq {svm : LiteSVM Program} {leader : Pubkey} (results : List TransactionResult)
    (leads : svm.leaderSchedule.leaderAtSlot svm.slot = some leader) :
    mintedFees svm results leader =
      if canMint svm leader (totalFees results) then (totalFees results).toNat else 0 := by
  simp only [mintedFees, collectFees, leads]
  by_cases free : 0 < totalFees results
  · rw [if_pos free, canMint]
    cases mints : svm.accounts.mint svm.validateFeeCollector leader (totalFees results) with
    | error e => rfl
    | ok minted =>
        have grown := mint_balance mints
        simp only [bind, Except.bind, pure, Except.pure]
        rw [grown]
        simp [Except.isOk, Except.toBool]
  · have none : totalFees results = 0 := UInt64.le_antisymm (UInt64.not_lt.mp free) UInt64.zero_le
    simp [none, pure, Except.pure]

/-- Sealing mints what was debited exactly when no fee goes astray, up to the wrapping of the sum, and the
leader's account can take it. -/
theorem sealBlock_mintsDebits_iff
    (rentCollects : ∀ key account, (rt.collectRent key account).1.lamports ≤ account.lamports)
    (svm : LiteSVM Program) (block : List (List Transaction)) (leader : Pubkey)
    (leads : svm.leaderSchedule.leaderAtSlot svm.slot = some leader) :
    MintsDebits rt svm block leader ↔
      if canMint (executeBatches rt svm block).1 leader (.ofNat (debitedFees rt svm block + strayFees rt svm block)) then
        strayFees rt svm block % 2 ^ 64 = 0 ∧ debitedFees rt svm block < 2 ^ 64
      else debitedFees rt svm block = 0 := by
  obtain ⟨schedule, slot⟩ := executeBatchTransactions_schedule rt svm block.flatten
  have reported := totalFees_toNat (executeBatches rt svm block).2
  rw [executeBatches_eq_flatten, reportedFees_eq_debited_add_stray rentCollects, ← debitedFees, ← strayFees] at reported
  have fees : totalFees (executeBatchTransactions rt svm block.flatten).2 =
      .ofNat (debitedFees rt svm block + strayFees rt svm block) := by
    rw [← UInt64.toNat_inj, reported, UInt64.toNat_ofNat']
  rw [MintsDebits, executeBatches_eq_flatten, mintedFees_eq _ (by rw [schedule, slot, leads]), reported, fees]
  split
  · omega
  · exact eq_comm

/-- The payer does not exist, and the leader is paid its fee nevertheless. -/
theorem sealBlock_mints_unpaid_fee :
    (storeOf []).leaderSchedule.leaderAtSlot (storeOf []).slot = some (.ofNat 9) ∧
      ¬ MintsDebits (singleSignature secondTransferFails) (storeOf []) [[twoTransfers]] (.ofNat 9) := by
  have minted : mintedFees (executeBatches (singleSignature secondTransferFails) (storeOf []) [[twoTransfers]]).1
      (executeBatches (singleSignature secondTransferFails) (storeOf []) [[twoTransfers]]).2 (.ofNat 9) = 5000 := by
    decide +kernel
  have debited : debitedFees (singleSignature secondTransferFails) (storeOf []) [[twoTransfers]] = 0 := by decide +kernel
  refine ⟨by decide +kernel, fun mints => ?_⟩
  rw [MintsDebits, minted, debited] at mints
  cases mints

def bothTransfersDone : Processed :=
  ⟨.ok (), 300, fun
    | 0 => systemAccountWith (10000000 - 5000 - 1400)
    | 1 => systemAccountWith 1400
    | _ => systemProgramAccount⟩

theorem sealBlock_mintsDebits_transfers :
    MintsDebits (singleSignature bothTransfersDone) fundedStore [[twoTransfers]] (.ofNat 9) := by
  refine (sealBlock_mintsDebits_iff (fun _ _ => UInt64.le_refl _) fundedStore [[twoTransfers]] (.ofNat 9)
    (by decide +kernel)).mpr ?_
  have debited : debitedFees (singleSignature bothTransfersDone) fundedStore [[twoTransfers]] = 5000 := by decide +kernel
  have stray : strayFees (singleSignature bothTransfersDone) fundedStore [[twoTransfers]] = 0 := by decide +kernel
  rw [debited, stray, if_pos (by decide +kernel)]
  exact ⟨rfl, by norm_num⟩

end KonaSoon.Svm
