import KonaSoon.Svm.Requests

namespace KonaSoon.Svm
open Lib Asking Mpt Programs

variable {Transaction Program Limits : Type} (rt : Runtime Transaction Program Limits)

abbrev AccountProvider (E : Type) := List Pubkey → Pubkey → Except E (Option Account)

variable {E : Type}

namespace AccountProvider

/-- `callback.get_account_data(pubkey).ok().flatten()`. -/
def callback (provider : AccountProvider E) : Oracle Pubkey (Option Account) := fun before pubkey =>
  match provider before pubkey with
  | .ok found => found
  | .error _ => none

/-- It answers as `answering` does, or not at all. -/
def MayFail (provider : AccountProvider E) (answering : Oracle Pubkey (Option Account)) : Prop :=
  ∀ before pubkey found, provider before pubkey = .ok found → found = answering before pubkey

end AccountProvider

namespace Requests

def block (svm : LiteSVM Program) (batches : List (List Transaction)) :
    Fetching (Except LiteSVMError (List TransactionResult × UInt64 × (Pubkey → Option Account))) := do
  let (svm, results) ← executeBatches rt svm batches
  let sealed ← sealBlock rt svm results
  return sealed.map fun sealed => (results, sealed.signatureCount, sealed.accounts.accountsDiff)

variable {rt}

theorem run_block_eq (callback : Callback)
    (unasked : ∀ message programIndices (db : AccountsDb Program) callback accounts,
      rt.processMessage message programIndices (db.over callback) accounts =
        rt.processMessage message programIndices db accounts)
    (svm : LiteSVM Program) (batches : List (List Transaction)) :
    run (fun _ => callback) [] (block rt svm batches) =
      (Svm.sealBlock rt (Svm.executeBatches rt (svm.over callback) batches).1
        (Svm.executeBatches rt (svm.over callback) batches).2).map fun sealed =>
          ((Svm.executeBatches rt (svm.over callback) batches).2, sealed.signatureCount, sealed.accounts.accountsDiff) := by
  rw [run_eq_value, executeBatches_value callback unasked]
  unfold block
  rw [value_bind]
  obtain ⟨next, results⟩ := value callback (executeBatches rt svm batches)
  dsimp only [Prod.map, id]
  rw [value_bind, sealBlock_value]
  cases value callback (sealBlock rt next results) with
  | error e => rfl
  | ok sealed => rfl

end Requests

/-- The provider makes the block fail as a whole, or it goes as over `answering`. -/
def FailSafe (svm : LiteSVM Program) (batches : List (List Transaction)) (answering : Oracle Pubkey (Option Account))
    (provider : AccountProvider E) : Prop :=
  (∃ e, run provider.callback [] (Requests.block rt svm batches) = .error e) ∨
    run provider.callback [] (Requests.block rt svm batches) = run answering [] (Requests.block rt svm batches)

variable {rt} {answering : Oracle Pubkey (Option Account)} {provider : AccountProvider E}

theorem callback_ne_iff (may : provider.MayFail answering) (before : List Pubkey) (pubkey : Pubkey) :
    provider.callback before pubkey ≠ answering before pubkey ↔
      (∃ e, provider before pubkey = .error e) ∧ ∃ account, answering before pubkey = some account := by
  unfold AccountProvider.callback
  cases answered : provider before pubkey with
  | ok found =>
      obtain rfl := may before pubkey found answered
      simp
  | error e =>
      cases answering before pubkey with
      | none => simp
      | some account => simp

structure FetchesPayer (rt : Runtime Transaction Program Limits) (svm : LiteSVM Program) (tx : Transaction) (payer : Pubkey)
    (fee : UInt64) : Prop where
  charged : ∃ message lamportsPerSignature limits keys, rt.sanitize svm.sigVerify tx = .ok message ∧
    Requests.maybeBlockhashCheck rt svm message = pure (.ok lamportsPerSignature) ∧
    rt.computeBudgetLimits message = .ok limits ∧ fee = rt.calculateFee message lamportsPerSignature limits ∧
    message.accountKeys = payer :: keys ∧ (¬ message.isInvoked 0 ∨ message.isInstructionAccount 0)
  fetched : payer ≠ sysvarInstructions
  unwritten : svm.accounts.accountsDiff payer = none
  -- Collecting rent does not fund an account that is not there.
  unfunded : (rt.collectRent payer defaultAccount).1.lamports = 0

theorem loadKeys_missing {message : Message} {fee : UInt64} {payer : Pubkey} {keys : List Pubkey} {db : AccountsDb Program}
    (first : ¬ message.isInvoked 0 ∨ message.isInstructionAccount 0) (fetched : payer ≠ sysvarInstructions)
    (unwritten : db.accountsDiff payer = none) (unfunded : (rt.collectRent payer defaultAccount).1.lamports = 0) :
    ∃ state, Begins payer none (.done (state, .error .accountNotFound))
      (Requests.loadKeys rt message fee ⟨db, none, 0⟩ 0 (payer :: keys)) := by
  have refused : validateFeePayer rt payer (rt.collectRent payer defaultAccount).1 0 fee = .error .accountNotFound := by
    rw [validateFeePayer, if_pos unfunded]
  unfold Requests.loadKeys Requests.loadKey Requests.loadAccount Requests.getAccount
  rw [if_neg fetched, unwritten]
  refine ⟨⟨db, none, (rt.collectRent payer defaultAccount).2⟩, _, rfl, ?_⟩
  have charges : (none : Option Pubkey).isNone ∧ (¬ message.isInvoked 0 ∨ message.isInstructionAccount 0) := ⟨rfl, first⟩
  simp only [bind, Asking.bind, pure, Option.getD_none]
  rw [if_pos charges]
  simp only [refused]
  rfl

theorem sendTransaction_missing {svm : LiteSVM Program} {tx : Transaction} {payer : Pubkey} {fee : UInt64}
    (fetches : FetchesPayer rt svm tx payer fee) :
    ∃ svm', Begins payer none (.done (svm', .error ⟨.accountNotFound, ⟨0, fee⟩⟩)) (Requests.sendTransaction rt svm tx) := by
  obtain ⟨⟨message, lamportsPerSignature, limits, keys, sanitized, recent, limited, rfl, named, first⟩, fetched, unwritten,
    unfunded⟩ := fetches
  obtain ⟨state, loads⟩ : ∃ state, Begins payer none (.done (state, .error .accountNotFound)) (Requests.loadKeys rt message
      (rt.calculateFee message lamportsPerSignature limits) ⟨svm.accounts, none, 0⟩ 0 (payer :: keys)) :=
    loadKeys_missing first fetched unwritten unfunded
  refine ⟨{ svm with accounts := state.accounts, signatureCount := svm.signatureCount + UInt8.toUInt64 0 }, ?_⟩
  unfold Requests.sendTransaction Requests.executeTransaction
  rw [sanitized]
  dsimp only
  unfold Requests.executeSanitizedTransaction
  rw [recent, pure_bind]
  dsimp only
  rw [limited]
  dsimp only
  unfold Requests.processTransaction
  rw [named]
  exact ((loads.bind _).bind _).bind _

theorem block_results {oracle : Oracle Pubkey (Option Account)} {svm : LiteSVM Program} {batches : List (List Transaction)}
    {outcome : List TransactionResult × UInt64 × (Pubkey → Option Account)}
    (ok : run oracle [] (Requests.block rt svm batches) = .ok outcome) :
    outcome.1 = (run oracle [] (Requests.executeBatches rt svm batches)).2 := by
  unfold Requests.block at ok
  obtain ⟨after, executed⟩ := exists_run_bind oracle (Requests.executeBatches rt svm batches) []
  rw [executed] at ok
  generalize run oracle [] (Requests.executeBatches rt svm batches) = results at ok ⊢
  obtain ⟨sealedAt, seals⟩ := exists_run_bind oracle (Requests.sealBlock rt results.1 results.2) after
  dsimp only at ok
  rw [seals] at ok
  cases sealed : run oracle after (Requests.sealBlock rt results.1 results.2) with
  | error e =>
      rw [sealed] at ok
      cases ok
  | ok svm =>
      rw [sealed] at ok
      cases ok
      rfl

theorem single_results (oracle : Oracle Pubkey (Option Account)) (svm : LiteSVM Program) (tx : Transaction) :
    (run oracle [] (Requests.executeBatches rt svm [[tx]])).2 = [(run oracle [] (Requests.sendTransaction rt svm tx)).2] := by
  obtain ⟨after, sent⟩ := exists_run_bind oracle (Requests.sendTransaction rt svm tx) []
  have batch : Requests.executeBatches rt svm [[tx]] = Requests.sendTransaction rt svm tx >>= fun sent =>
      pure (sent.1, [sent.2]) := by
    unfold Requests.executeBatches Requests.executeBatchTransactions
    rw [bind_assoc]
    rfl
  rw [batch, sent]
  rfl

/-- A fetch goes wrong exactly if it fails for an account that exists, which is then taken for missing. A block that
makes no such fetch is safe. A transaction whose payer cannot be fetched fails, and a block of one that could be paid
for is not safe, unless it fails as a whole. -/
theorem failedFetches_failSafe (may : provider.MayFail answering) (svm : LiteSVM Program)
    (batches : List (List Transaction)) :
    (∀ (db : AccountsDb Program) before pubkey,
      run provider.callback before (Requests.getAccount db pubkey) ≠ run answering before (Requests.getAccount db pubkey) ↔
        db.accountsDiff pubkey = none ∧ (∃ e, provider before pubkey = .error e) ∧
          ∃ account, answering before pubkey = some account) ∧
    ((∀ request ∈ asked provider.callback [] (Requests.block rt svm batches), ∀ e,
        provider request.1 request.2 = .error e → answering request.1 request.2 = none) →
      FailSafe rt svm batches answering provider) ∧
    ∀ tx payer fee e, FetchesPayer rt svm tx payer fee → provider [] payer = .error e →
      (run provider.callback [] (Requests.sendTransaction rt svm tx)).2 = .error ⟨.accountNotFound, ⟨0, fee⟩⟩ ∧
      ∀ outcome metadata, run provider.callback [] (Requests.block rt svm [[tx]]) = .ok outcome →
        (run answering [] (Requests.sendTransaction rt svm tx)).2 = .ok metadata →
        ¬ FailSafe rt svm [[tx]] answering provider := by
  refine ⟨?_, ?_, ?_⟩
  · intro db before pubkey
    unfold Requests.getAccount
    cases stored : db.accountsDiff pubkey with
    | some account => simp [Asking.run, pure]
    | none =>
        rw [show (none = none ↔ True) by simp, true_and]
        exact callback_ne_iff may before pubkey
  · intro missing
    refine .inr (run_eq_of_asked fun request member => ?_).symm
    by_contra wrong
    obtain ⟨⟨e, failed⟩, account, present⟩ := (callback_ne_iff may request.1 request.2).mp (Ne.symm wrong)
    rw [missing request member e failed] at present
    cases present
  · intro tx payer fee e fetches failed
    obtain ⟨svm', missing⟩ := sendTransaction_missing fetches
    have taken : provider.callback [] payer = none := by
      rw [AccountProvider.callback, failed]
    have refused : (run provider.callback [] (Requests.sendTransaction rt svm tx)).2 =
        .error ⟨.accountNotFound, ⟨0, fee⟩⟩ := by
      rw [missing.run_eq taken]
      rfl
    refine ⟨refused, fun outcome metadata accepted done safe => ?_⟩
    have results := block_results accepted
    rw [single_results, refused] at results
    rcases safe with ⟨e, fails⟩ | same
    · rw [fails] at accepted
      cases accepted
    · rw [same] at accepted
      have others := block_results accepted
      rw [single_results, done, results] at others
      cases others

def fundedAccounts : Oracle Pubkey (Option Account) := fun _ pubkey =>
  [(payer, systemAccountWith 10000000), (systemProgramId, systemProgramAccount)].lookup pubkey

def timesOutAt (unavailable : Pubkey) : AccountProvider String := fun before pubkey =>
  if pubkey = unavailable then .error "timeout" else .ok (fundedAccounts before pubkey)

theorem timesOutAt_mayFail (unavailable : Pubkey) : (timesOutAt unavailable).MayFail fundedAccounts := by
  intro before pubkey found answered
  unfold timesOutAt at answered
  by_cases fails : pubkey = unavailable
  · rw [if_pos fails] at answered
    cases answered
  · rw [if_neg fails] at answered
    exact (Except.ok.inj answered).symm

/-- The block is accepted, and the transaction in it has failed as its payer was taken for missing. -/
theorem failed_payer_fetch_unsafe :
    (timesOutAt payer).MayFail fundedAccounts ∧
    ¬ FailSafe (singleSignature bothTransfersDone) (storeOf []) [[twoTransfers]] fundedAccounts (timesOutAt payer) := by
  have failed : (run (timesOutAt payer).callback [] (Requests.block (singleSignature bothTransfersDone) (storeOf [])
      [[twoTransfers]])).map Prod.fst = .ok [.error ⟨.accountNotFound, ⟨0, 5000⟩⟩] := by decide +kernel
  have done : (run fundedAccounts [] (Requests.block (singleSignature bothTransfersDone) (storeOf [])
      [[twoTransfers]])).map Prod.fst = .ok [.ok ⟨300, 5000⟩] := by decide +kernel
  refine ⟨timesOutAt_mayFail payer, ?_⟩
  rintro (⟨e, fails⟩ | same)
  · rw [fails] at failed
    cases failed
  · rw [same, done] at failed
    cases failed

theorem fetchesPayer_twoTransfers : FetchesPayer (singleSignature bothTransfersDone) (storeOf []) twoTransfers payer 5000 where
  charged := ⟨twoTransfers, 5000, (), [recipient, systemProgramId], rfl, rfl, rfl, rfl, rfl, .inr (by decide)⟩
  fetched := by decide
  unwritten := rfl
  unfunded := rfl

theorem failedFetches_failSafe_twoTransfers :
    FailSafe (singleSignature bothTransfersDone) (storeOf []) [[twoTransfers]] fundedAccounts (timesOutAt recipient) ∧
    (run (timesOutAt payer).callback []
      (Requests.sendTransaction (singleSignature bothTransfersDone) (storeOf []) twoTransfers)).2 =
        .error ⟨.accountNotFound, ⟨0, 5000⟩⟩ := by
  have unpaid := (failedFetches_failSafe (timesOutAt_mayFail payer) (storeOf []) [[twoTransfers]]).2.2 twoTransfers payer 5000
    "timeout" fetchesPayer_twoTransfers (by rw [timesOutAt, if_pos rfl])
  refine ⟨(failedFetches_failSafe (timesOutAt_mayFail recipient) (storeOf []) [[twoTransfers]]).2.1 ?_, unpaid.1⟩
  intro request _ e failed
  unfold timesOutAt at failed
  by_cases same : request.2 = recipient
  · show [(payer, systemAccountWith 10000000), (systemProgramId, systemProgramAccount)].lookup request.2 = none
    rw [same]
    decide +kernel
  · rw [if_neg same] at failed
    cases failed

end KonaSoon.Svm
