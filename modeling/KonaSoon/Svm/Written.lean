import KonaSoon.Svm.Fees

namespace KonaSoon.Svm
open Lib Mpt Programs

variable {Transaction Program Limits : Type} (rt : Runtime Transaction Program Limits)

def namedKeys (sigVerify : Bool) (tx : Transaction) : List Pubkey :=
  match rt.sanitize sigVerify tx with
  | .ok message => message.accountKeys
  | .error _ => []

/-- The keys under which a block may write: those that its transactions name, its leader and the sysvars of the end of
a block. -/
def writtenKeys (svm : LiteSVM Program) (batches : List (List Transaction)) : List Pubkey :=
  batches.flatten.flatMap (namedKeys rt svm.sigVerify) ++
    ((svm.leaderSchedule.leaderAtSlot svm.slot).toList ++ [sysvarSlotHistory, soonFeeRateGovernor])

theorem loadAccount_diff (db : AccountsDb Program) (pubkey : Pubkey) :
    (db.loadAccount rt pubkey).1.accountsDiff = db.accountsDiff := by
  unfold AccountsDb.loadAccount
  split
  · rfl
  · split
    · split <;> rfl
    · rfl

theorem loadKey_diff (message : Message) (fee : UInt64) (state : LoadState Program) (index : Nat) (key : Pubkey) :
    (loadKey rt message fee state index key).1.accounts.accountsDiff = state.accounts.accountsDiff ∧
      ∀ payer, (loadKey rt message fee state index key).1.payerKey = some payer →
        state.payerKey = some payer ∨ payer = key := by
  unfold loadKey
  split
  · exact ⟨rfl, fun _ => .inl⟩
  · have kept := loadAccount_diff rt state.accounts key
    generalize state.accounts.loadAccount rt key = loaded at kept
    obtain ⟨accounts, _ | found⟩ := loaded
    · exact ⟨kept, fun _ => .inl⟩
    · dsimp only at kept ⊢
      split
      · split
        · exact ⟨kept, fun _ => .inl⟩
        · exact ⟨kept, fun payer same => .inr (Option.some.inj same).symm⟩
      · split
        · exact ⟨kept, fun _ => .inl⟩
        · exact ⟨kept, fun _ => .inl⟩

theorem loadKeys_diff (message : Message) (fee : UInt64) (keys : List Pubkey) (state : LoadState Program) (index : Nat) :
    (loadKeys rt message fee state index keys).1.accounts.accountsDiff = state.accounts.accountsDiff ∧
      ∀ payer, (loadKeys rt message fee state index keys).1.payerKey = some payer →
        state.payerKey = some payer ∨ payer ∈ keys := by
  induction keys generalizing state index with
  | nil => exact ⟨rfl, fun _ => .inl⟩
  | cons key keys ih =>
      obtain ⟨kept, first⟩ := loadKey_diff rt message fee state index key
      have front : ∀ payer, (loadKey rt message fee state index key).1.payerKey = some payer →
          state.payerKey = some payer ∨ payer ∈ key :: keys := by
        intro payer same
        rcases first payer same with before | rfl
        · exact .inl before
        · exact .inr List.mem_cons_self
      unfold loadKeys
      generalize loadKey rt message fee state index key = loaded at kept front
      obtain ⟨next, _ | account⟩ := loaded
      · exact ⟨kept, front⟩
      · obtain ⟨keptLater, later⟩ := ih next (index + 1)
        dsimp only at kept front ⊢
        have all : ∀ payer, (loadKeys rt message fee next (index + 1) keys).1.payerKey = some payer →
            state.payerKey = some payer ∨ payer ∈ key :: keys := by
          intro payer same
          rcases later payer same with before | inside
          · exact front payer before
          · exact .inr (List.mem_cons_of_mem key inside)
        generalize loadKeys rt message fee next (index + 1) keys = rest at keptLater all
        obtain ⟨last, _ | accounts⟩ := rest
        · exact ⟨keptLater.trans kept, all⟩
        · exact ⟨keptLater.trans kept, all⟩

theorem programAccounts_diff (db : AccountsDb Program) (accounts loaders : List (Pubkey × Account)) (programIndex : Nat) :
    (programAccounts rt db accounts loaders programIndex).1.accountsDiff = db.accountsDiff := by
  unfold programAccounts
  have kept := loadAccount_diff rt db (accounts.getD programIndex (systemProgramId, defaultAccount)).2.owner
  generalize accounts.getD programIndex (systemProgramId, defaultAccount) = program at kept
  obtain ⟨programId, programAccount⟩ := program
  dsimp only at kept ⊢
  generalize db.loadAccount rt programAccount.owner = loaded at kept
  repeat' split
  all_goals first | rfl | exact kept

theorem loadPrograms_diff (accounts : List (Pubkey × Account)) (programIndices : List Nat) (db : AccountsDb Program)
    (loaders : List (Pubkey × Account)) :
    (loadPrograms rt accounts db loaders programIndices).1.accountsDiff = db.accountsDiff := by
  induction programIndices generalizing db loaders with
  | nil => rfl
  | cons programIndex rest ih =>
      have kept := programAccounts_diff rt db accounts loaders programIndex
      unfold loadPrograms
      generalize programAccounts rt db accounts loaders programIndex = first at kept
      obtain ⟨next, loaders', _ | indices⟩ := first
      · exact kept
      · have later := (ih next loaders').trans kept
        dsimp only
        generalize loadPrograms rt accounts next loaders' rest = second at later
        obtain ⟨last, _ | all⟩ := second
        · exact later
        · exact later

/-- Processing a message writes nothing. The fee payer is one of its keys, and these come first in the context. -/
theorem processTransaction_diff (svm : LiteSVM Program) (message : Message) (lamportsPerSignature : UInt64) (limits : Limits) :
    (processTransaction rt svm message lamportsPerSignature limits).accounts.accountsDiff = svm.accounts.accountsDiff ∧
    (∀ payer, (processTransaction rt svm message lamportsPerSignature limits).payerKey = some payer →
      payer ∈ message.accountKeys) ∧
    ∀ context, (processTransaction rt svm message lamportsPerSignature limits).context = some context →
      ∃ loaders, context.map Prod.fst = message.accountKeys ++ loaders := by
  obtain ⟨kept, payers⟩ := loadKeys_diff rt message (rt.calculateFee message lamportsPerSignature limits)
    message.accountKeys ⟨svm.accounts, none, 0⟩ 0
  have named : ∀ payer, (loadKeys rt message (rt.calculateFee message lamportsPerSignature limits) ⟨svm.accounts, none, 0⟩ 0
      message.accountKeys).1.payerKey = some payer → payer ∈ message.accountKeys :=
    fun payer same => (payers payer same).resolve_left nofun
  unfold processTransaction
  dsimp only at kept ⊢
  cases loads : loadKeys rt message (rt.calculateFee message lamportsPerSignature limits) ⟨svm.accounts, none, 0⟩ 0
    message.accountKeys with
  | mk state result =>
      rw [loads] at kept named
      cases result with
      | error e => exact ⟨kept, named, nofun⟩
      | ok accounts =>
          dsimp only at kept named ⊢
          split
          · exact ⟨kept, named, nofun⟩
          · have programs := loadPrograms_diff rt accounts message.programIndices state.accounts []
            generalize loadPrograms rt accounts state.accounts [] message.programIndices = loaded at programs
            obtain ⟨db, _ | ⟨loaders, programIndices⟩⟩ := loaded
            · exact ⟨programs.trans kept, named, nofun⟩
            · refine ⟨programs.trans kept, named, fun context same => ?_⟩
              cases same
              refine ⟨loaders.map Prod.fst, ?_⟩
              rw [contextAfter_keys, List.map_append, loadKeys_keys rfl loads]

variable {rt}

theorem postAccounts_named {message : Message} {context : List (Pubkey × Account)} {loaders : List Pubkey}
    (keys : context.map Prod.fst = message.accountKeys ++ loaders) :
    ∀ entry ∈ postAccounts message context, entry.1 ∈ message.accountKeys := by
  intro entry member
  obtain ⟨⟨found, i⟩, inside, rfl⟩ := List.mem_map.mp member
  obtain ⟨placed, writable⟩ := List.mem_filter.mp inside
  have at_ := List.mem_zipIdx_iff_getElem?.mp placed
  have named : (context.map Prod.fst)[i]? = some found.1 := by
    rw [List.getElem?_map, at_, Option.map_some]
  rw [keys, List.getElem?_append_left (message.writable_lt i writable)] at named
  exact List.mem_of_getElem? named

section Other

variable {key : Pubkey}

theorem insertDiff_other (db : AccountsDb Program) {pubkey : Pubkey} (other : key ≠ pubkey) (account : Account) :
    (db.insertDiff pubkey account).accountsDiff key = db.accountsDiff key := Function.update_of_ne other _ _

theorem addDiffAccount_other {db after : AccountsDb Program} {check : Bool} {pubkey : Pubkey} {account : Account}
    (other : key ≠ pubkey) (adds : db.addDiffAccount check pubkey account = .ok after) :
    after.accountsDiff key = db.accountsDiff key := by
  unfold AccountsDb.addDiffAccount at adds
  split at adds
  · split at adds
    · cases adds
    · split at adds
      · cases adds
      · cases adds
        exact insertDiff_other db other account
  · cases adds
    exact insertDiff_other db other account

theorem mint_other {db after : AccountsDb Program} {check : Bool} {pubkey : Pubkey} {lamports : UInt64} (other : key ≠ pubkey)
    (mints : db.mint check pubkey lamports = .ok after) : after.accountsDiff key = db.accountsDiff key := by
  unfold AccountsDb.mint at mints
  split at mints
  · split at mints
    · exact addDiffAccount_other other mints
    · cases mints
  · exact addDiffAccount_other other mints

theorem burn_other {db after : AccountsDb Program} {check : Bool} {pubkey : Pubkey} {lamports : UInt64} (other : key ≠ pubkey)
    (burns : db.burn check pubkey lamports = .ok after) : after.accountsDiff key = db.accountsDiff key := by
  unfold AccountsDb.burn at burns
  split at burns
  · split at burns
    · exact addDiffAccount_other other burns
    · cases burns
  · cases burns

theorem writeBack_other (db : AccountsDb Program) {accounts : List (Pubkey × Account)}
    (others : ∀ entry ∈ accounts, entry.1 ≠ key) : (writeBack rt db accounts).accountsDiff key = db.accountsDiff key := by
  induction accounts generalizing db with
  | nil => rfl
  | cons entry accounts ih =>
      refine (ih _ fun later member => others later (List.mem_cons_of_mem entry member)).trans ?_
      exact insertDiff_other db (others entry List.mem_cons_self).symm _

theorem checkTxResult_other (db : AccountsDb Program) (result : Except TransactionError Unit) {payerKey : Option Pubkey}
    (fee : UInt64) (others : ∀ payer, payerKey = some payer → payer ≠ key) :
    (checkTxResult db result payerKey fee).1.accountsDiff key = db.accountsDiff key := by
  unfold checkTxResult
  split
  · rfl
  · split
    · rename_i payer
      split
      · rename_i burns
        exact burn_other (others payer rfl).symm burns
      · rfl
    · rfl

theorem executeSanitizedTransaction_other (svm : LiteSVM Program) {message : Message} (unnamed : key ∉ message.accountKeys) :
    (executeSanitizedTransaction rt svm message).1.accounts.accountsDiff key = svm.accounts.accountsDiff key ∧
      ∀ entry ∈ (executeSanitizedTransaction rt svm message).2.postAccounts, entry.1 ≠ key := by
  unfold executeSanitizedTransaction
  split
  · exact ⟨rfl, List.forall_mem_nil _⟩
  · split
    · exact ⟨rfl, List.forall_mem_nil _⟩
    · rename_i lamportsPerSignature _ _ limits _
      obtain ⟨kept, payers, keys⟩ := processTransaction_diff rt svm message lamportsPerSignature limits
      dsimp only
      split
      · exact ⟨congrFun kept key, List.forall_mem_nil _⟩
      · rename_i context processed
        obtain ⟨loaders, names⟩ := keys context processed
        refine ⟨(checkTxResult_other _ _ _ fun payer same => ?_).trans (congrFun kept key), fun entry member => ?_⟩
        · exact ne_of_mem_of_not_mem (payers payer same) unnamed
        · exact ne_of_mem_of_not_mem (postAccounts_named names entry member) unnamed

theorem sendTransaction_other (svm : LiteSVM Program) {tx : Transaction} (unnamed : key ∉ namedKeys rt svm.sigVerify tx) :
    (sendTransaction rt svm tx).1.accounts.accountsDiff key = svm.accounts.accountsDiff key := by
  have executed : (executeTransaction rt svm tx).1.accounts.accountsDiff key = svm.accounts.accountsDiff key ∧
      ∀ entry ∈ (executeTransaction rt svm tx).2.postAccounts, entry.1 ≠ key := by
    unfold namedKeys at unnamed
    unfold executeTransaction
    cases sanitized : rt.sanitize svm.sigVerify tx with
    | error e => exact ⟨rfl, List.forall_mem_nil _⟩
    | ok message =>
        rw [sanitized] at unnamed
        exact executeSanitizedTransaction_other svm unnamed
  unfold sendTransaction
  generalize executeTransaction rt svm tx = result at executed
  obtain ⟨after, postAccounts, _ | _, signatures, units, fee⟩ := result
  · exact executed.1
  · exact (writeBack_other _ executed.2).trans executed.1

theorem sendTransaction_sigVerify (svm : LiteSVM Program) (tx : Transaction) :
    (sendTransaction rt svm tx).1.sigVerify = svm.sigVerify := by
  simp only [sendTransaction, executeTransaction, executeSanitizedTransaction]
  repeat' split
  all_goals rfl

theorem executeBatchTransactions_other (svm : LiteSVM Program) {txs : List Transaction}
    (unnamed : ∀ tx ∈ txs, key ∉ namedKeys rt svm.sigVerify tx) :
    (executeBatchTransactions rt svm txs).1.accounts.accountsDiff key = svm.accounts.accountsDiff key := by
  induction txs generalizing svm with
  | nil => rfl
  | cons tx txs ih =>
      have first := sendTransaction_other svm (unnamed tx List.mem_cons_self)
      have verify : (sendTransaction rt svm tx).1.sigVerify = svm.sigVerify := sendTransaction_sigVerify svm tx
      refine (ih (sendTransaction rt svm tx).1 fun later member => ?_).trans first
      rw [verify]
      exact unnamed later (List.mem_cons_of_mem tx member)

theorem collectFees_other {svm after : LiteSVM Program} {results : List TransactionResult}
    (others : ∀ leader, svm.leaderSchedule.leaderAtSlot svm.slot = some leader → key ≠ leader)
    (collects : collectFees svm results = .ok after) : after.accounts.accountsDiff key = svm.accounts.accountsDiff key := by
  unfold collectFees at collects
  dsimp only at collects
  split at collects
  · rename_i leader leads
    split at collects
    · obtain ⟨accounts, mints, same⟩ := bind_eq_ok.mp collects
      cases same
      exact mint_other (others leader leads) mints
    · cases collects
      rfl
  · cases collects
    rfl

theorem sealBlock_other {svm sealed : LiteSVM Program} {results : List TransactionResult}
    (others : ∀ leader, svm.leaderSchedule.leaderAtSlot svm.slot = some leader → key ≠ leader)
    (history : key ≠ sysvarSlotHistory) (rate : key ≠ soonFeeRateGovernor) (seals : sealBlock rt svm results = .ok sealed) :
    sealed.accounts.accountsDiff key = svm.accounts.accountsDiff key := by
  obtain ⟨paid, collects, same⟩ := bind_eq_ok.mp seals
  cases same
  have first := collectFees_other others collects
  have second := insertDiff_other paid.accounts history
    (rt.slotHistoryAccount (paid.accounts.getAccount sysvarSlotHistory) paid.slot)
  exact (insertDiff_other _ rate _).trans (second.trans first)

/-- A block writes under no other keys. -/
theorem block_other {svm sealed : LiteSVM Program} {batches : List (List Transaction)}
    (seals : sealBlock rt (executeBatches rt svm batches).1 (executeBatches rt svm batches).2 = .ok sealed)
    (unwritten : key ∉ writtenKeys rt svm batches) : sealed.accounts.accountsDiff key = svm.accounts.accountsDiff key := by
  rw [executeBatches_eq_flatten] at seals
  obtain ⟨schedule, slot⟩ := executeBatchTransactions_schedule rt svm batches.flatten
  simp only [writtenKeys, List.mem_append, List.mem_flatMap, Option.mem_toList, List.mem_cons, List.not_mem_nil, or_false,
    not_or, not_exists, not_and] at unwritten
  obtain ⟨unnamed, notLeader, history, rate⟩ := unwritten
  refine (sealBlock_other (fun leader leads => ?_) history rate seals).trans (executeBatchTransactions_other svm unnamed)
  rw [schedule, slot] at leads
  rintro rfl
  exact notLeader leads

end Other

end KonaSoon.Svm
