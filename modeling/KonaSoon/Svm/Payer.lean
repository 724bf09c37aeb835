import KonaSoon.Svm.Atomicity

namespace KonaSoon.Svm
open Lib Mpt

variable {Transaction Program Limits : Type} {rt : Runtime Transaction Program Limits}

def MayPay (message : Message) (index : Nat) (key : Pubkey) : Prop :=
  key ≠ sysvarInstructions ∧ (¬ message.isInvoked index ∨ message.isInstructionAccount index)

instance (message : Message) (index : Nat) (key : Pubkey) : Decidable (MayPay message index key) :=
  inferInstanceAs (Decidable (_ ∧ _))

def payerIndexFrom (message : Message) : Nat → List Pubkey → Option Nat
  | _, [] => none
  | index, key :: keys => if MayPay message index key then some index else payerIndexFrom message (index + 1) keys

theorem le_of_payerIndexFrom {message : Message} {keys : List Pubkey} {index i : Nat}
    (pays : payerIndexFrom message index keys = some i) : index ≤ i := by
  induction keys generalizing index with
  | nil => cases pays
  | cons key keys ih =>
      rw [payerIndexFrom] at pays
      split at pays
      · exact (Option.some.inj pays).le
      · exact Nat.le_of_succ_le (ih pays)

def writtenIndexFrom (message : Message) (pubkey : Pubkey) : Nat → List Pubkey → Option Nat
  | _, [] => none
  | index, key :: keys => (writtenIndexFrom message pubkey (index + 1) keys).or
      (if message.isWritable index ∧ key = pubkey then some index else none)

theorem writtenIndexFrom_some {message : Message} {pubkey : Pubkey} {keys : List Pubkey} {index i : Nat}
    (written : writtenIndexFrom message pubkey index keys = some i) :
    ∃ offset, i = index + offset ∧ keys[offset]? = some pubkey ∧ message.isWritable i := by
  induction keys generalizing index with
  | nil => cases written
  | cons key keys ih =>
      rw [writtenIndexFrom, Option.or_eq_some_iff] at written
      obtain later | ⟨-, here⟩ := written
      · obtain ⟨offset, rfl, found, writable⟩ := ih later
        exact ⟨offset + 1, by omega, found, writable⟩
      · split at here
        · rename_i matching
          obtain rfl := Option.some.inj here
          exact ⟨0, rfl, congrArg some matching.2, matching.1⟩
        · cases here

theorem writtenIndexFrom_unwritable {message : Message} (pubkey : Pubkey) (keys : List Pubkey) {index : Nat}
    (unwritable : ∀ i, index ≤ i → ¬ message.isWritable i) : writtenIndexFrom message pubkey index keys = none := by
  induction keys generalizing index with
  | nil => rfl
  | cons key keys ih =>
      rw [writtenIndexFrom, ih fun i le => unwritable i (by omega), if_neg fun h => unwritable index le_rfl h.1]
      rfl

theorem writtenIndexFrom_append {message : Message} (pubkey : Pubkey) (keys more : List Pubkey) {index : Nat}
    (unwritable : ∀ i, index + keys.length ≤ i → ¬ message.isWritable i) :
    writtenIndexFrom message pubkey index (keys ++ more) = writtenIndexFrom message pubkey index keys := by
  induction keys generalizing index with
  | nil => exact writtenIndexFrom_unwritable pubkey more unwritable
  | cons key keys ih =>
      rw [List.cons_append, writtenIndexFrom, writtenIndexFrom, ih]
      intro i le
      exact unwritable i (by rw [List.length_cons]; omega)

theorem writeBack_store (message : Message) (pubkey : Pubkey) (context : List (Pubkey × Account)) (index : Nat)
    (db : AccountsDb Program) :
    (writeBack rt db (((context.zipIdx index).filter fun entry => message.isWritable entry.2).map Prod.fst)).getAccount
        pubkey =
      match writtenIndexFrom message pubkey index (context.map Prod.fst) with
      | some i => (context[i - index]?).map fun entry => (rt.collectRent pubkey entry.2).1
      | none => db.getAccount pubkey := by
  induction context generalizing index db with
  | nil => rfl
  | cons entry context ih =>
      obtain ⟨key, account⟩ := entry
      simp only [List.zipIdx_cons, List.map_cons, writtenIndexFrom]
      have later : ∀ i, writtenIndexFrom message pubkey (index + 1) (context.map Prod.fst) = some i →
          context[i - (index + 1)]? = ((key, account) :: context)[i - index]? := by
        intro i written
        obtain ⟨offset, rfl, -⟩ := writtenIndexFrom_some written
        rw [show index + 1 + offset - (index + 1) = offset by omega, show index + 1 + offset - index = offset + 1 by omega]
        rfl
      by_cases writable : message.isWritable index
      · rw [List.filter_cons_of_pos (by simpa using writable), List.map_cons, writeBack, List.foldl_cons]
        refine (ih (index + 1) _).trans ?_
        cases written : writtenIndexFrom message pubkey (index + 1) (context.map Prod.fst) with
        | some i => simp only [Option.some_or, later i written]
        | none =>
            rw [getAccount_insertDiff]
            by_cases same : key = pubkey
            · subst same
              simp [writable]
            · simp [same, Function.update_of_ne (Ne.symm same)]
      · rw [List.filter_cons_of_neg (by simpa using writable)]
        refine (ih (index + 1) db).trans ?_
        cases written : writtenIndexFrom message pubkey (index + 1) (context.map Prod.fst) with
        | some i => simp only [Option.some_or, later i written]
        | none => simp [writable]

def collected (rt : Runtime Transaction Program Limits) (store : Pubkey → Option Account) (key : Pubkey) : Account :=
  (rt.collectRent key ((store key).getD defaultAccount)).1

def loadedAs (rt : Runtime Transaction Program Limits) (message : Message) (fee : UInt64)
    (store : Pubkey → Option Account) (charged : Bool) (index : Nat) (key : Pubkey) : Account :=
  if key = sysvarInstructions then rt.instructionsAccount message
  else if charged then { collected rt store key with lamports := (collected rt store key).lamports - fee }
  else if message.isWritable index then collected rt store key
  else (store key).getD defaultAccount

theorem loadKey_ok {message : Message} {fee : UInt64} {state next : LoadState Program} {index : Nat} {key : Pubkey}
    {account : Account} (loads : loadKey rt message fee state index key = (next, .ok account)) :
    next.accounts.getAccount = state.accounts.getAccount ∧
      account = loadedAs rt message fee state.accounts.getAccount
        (decide (state.payerKey = none ∧ MayPay message index key)) index key ∧
      next.payerKey = (if state.payerKey = none ∧ MayPay message index key then some key else state.payerKey) ∧
      (state.payerKey = none → MayPay message index key →
        fee ≤ (collected rt state.accounts.getAccount key).lamports) := by
  unfold loadKey at loads
  split at loads
  · rename_i special
    cases loads
    simp [loadedAs, MayPay, special]
  · rename_i ordinary
    have store := loadAccount_store rt state.accounts key
    have found : ∀ found, (state.accounts.loadAccount rt key).2 = .ok found → found = state.accounts.getAccount key :=
      fun _ => loadAccount_some rt state.accounts key
    generalize state.accounts.loadAccount rt key = loaded at store found loads
    obtain ⟨accounts, _ | present⟩ := loaded
    · cases loads
    · obtain rfl := found present rfl
      simp only at loads store
      split at loads
      · rename_i pays
        have mayPay : state.payerKey = none ∧ MayPay message index key :=
          ⟨Option.isNone_iff_eq_none.mp pays.1, ordinary, pays.2⟩
        split at loads
        · cases loads
        · rename_i charged validates
          cases loads
          obtain ⟨-, enough, rfl⟩ := validateFeePayer_covers validates
          simp only [mayPay, and_self, decide_true, if_true, loadedAs, ordinary, if_false]
          exact ⟨store, rfl, trivial, fun _ _ => enough⟩
      · rename_i pays
        have mayNot : ¬ (state.payerKey = none ∧ MayPay message index key) :=
          fun ⟨absent, may⟩ => pays ⟨Option.isNone_iff_eq_none.mpr absent, may.2⟩
        split at loads
        · rename_i writable
          cases loads
          simp only [mayNot, decide_false, if_false, loadedAs, ordinary, writable, if_true, Bool.false_eq_true]
          exact ⟨store, rfl, trivial, fun absent may => absurd ⟨absent, may⟩ mayNot⟩
        · rename_i writable
          cases loads
          simp only [mayNot, decide_false, if_false, loadedAs, ordinary, writable, Bool.false_eq_true]
          exact ⟨store, trivial, trivial, fun absent may => absurd ⟨absent, may⟩ mayNot⟩

theorem loadKeys_cons_ok {message : Message} {fee : UInt64} {state last : LoadState Program} {index : Nat} {key : Pubkey}
    {keys : List Pubkey} {accounts : List (Pubkey × Account)}
    (loads : loadKeys rt message fee state index (key :: keys) = (last, .ok accounts)) :
    ∃ next account rest, loadKey rt message fee state index key = (next, .ok account) ∧
      loadKeys rt message fee next (index + 1) keys = (last, .ok rest) ∧ accounts = (key, account) :: rest := by
  rw [loadKeys] at loads
  split at loads
  · cases loads
  · rename_i next account first
    split at loads
    · cases loads
    · rename_i last' rest second
      cases loads
      exact ⟨next, account, rest, first, second, rfl⟩

theorem loadKeys_paid {message : Message} {fee : UInt64} {payer : Pubkey} {last : LoadState Program}
    {keys : List Pubkey} {accounts : List (Pubkey × Account)} {state : LoadState Program} {index : Nat}
    (paid : state.payerKey = some payer) (loads : loadKeys rt message fee state index keys = (last, .ok accounts)) :
    last.payerKey = some payer ∧ accounts = (keys.zipIdx index).map fun entry =>
      (entry.1, loadedAs rt message fee state.accounts.getAccount false entry.2 entry.1) := by
  induction keys generalizing state index accounts with
  | nil =>
      cases loads
      exact ⟨paid, rfl⟩
  | cons key keys ih =>
      obtain ⟨next, account, rest, first, second, rfl⟩ := loadKeys_cons_ok loads
      obtain ⟨store, rfl, payerKey, -⟩ := loadKey_ok first
      simp only [paid, reduceCtorEq, false_and, if_false, decide_false] at payerKey ⊢
      obtain ⟨kept, rfl⟩ := ih payerKey second
      rw [store]
      exact ⟨kept, rfl⟩

theorem loadKeys_ok {message : Message} {fee : UInt64} {last : LoadState Program}
    {keys : List Pubkey} {accounts : List (Pubkey × Account)} {state : LoadState Program} {index : Nat}
    (unpaid : state.payerKey = none) (loads : loadKeys rt message fee state index keys = (last, .ok accounts)) :
    accounts = (keys.zipIdx index).map (fun entry => (entry.1, loadedAs rt message fee state.accounts.getAccount
        (decide (payerIndexFrom message index keys = some entry.2)) entry.2 entry.1)) ∧
      (∀ payer, last.payerKey = some payer → payer ≠ sysvarInstructions ∧
        fee ≤ (collected rt state.accounts.getAccount payer).lamports) := by
  induction keys generalizing state index accounts with
  | nil =>
      cases loads
      refine ⟨rfl, fun payer paid => ?_⟩
      rw [unpaid] at paid
      cases paid
  | cons key keys ih =>
      obtain ⟨next, account, rest, first, second, rfl⟩ := loadKeys_cons_ok loads
      obtain ⟨store, rfl, payerKey, enough⟩ := loadKey_ok first
      rw [payerIndexFrom, List.zipIdx_cons, List.map_cons]
      by_cases pays : MayPay message index key
      · -- This is the payer: the entries after it have larger indices.
        simp only [unpaid, pays, and_self, if_true, decide_true] at payerKey ⊢
        obtain ⟨kept, rfl⟩ := loadKeys_paid payerKey second
        refine ⟨congrArg (List.cons _) (List.map_congr_left fun entry mem => ?_), fun payer paid => ?_⟩
        · have later : index ≠ entry.2 := by
            have := (List.mem_zipIdx mem).1
            omega
          simp [store, later]
        · obtain rfl := Option.some.inj (kept.symm.trans paid)
          exact ⟨pays.1, enough unpaid pays⟩
      · simp only [unpaid, pays, and_false, if_false, decide_false] at payerKey ⊢
        obtain ⟨rfl, covered⟩ := ih payerKey second
        rw [store] at covered ⊢
        refine ⟨?_, covered⟩
        have notHere : payerIndexFrom message (index + 1) keys ≠ some index := by
          intro here
          have := le_of_payerIndexFrom here
          omega
        simp [notHere]

end KonaSoon.Svm
