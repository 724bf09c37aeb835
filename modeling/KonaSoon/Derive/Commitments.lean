import KonaSoon.Derive.L1Stack

namespace KonaSoon.Derive
open Lib Mpt

namespace DAServerSource

variable {Receipt : Type}

/-- One L1 block as the source reads it: its transactions, the batcher in force, and what the DA
server stores under each commitment. -/
structure DataBlock where
  blockRef : BlockInfo
  batchInboxAddress : Address
  batcherAddress : Address
  txs : List L1Transaction
  payload : List UInt8 → List UInt8

def DataBlock.commitments (block : DataBlock) : List (List UInt8) :=
  CalldataSource.batcherInputs block.batchInboxAddress block.batcherAddress block.txs

abbrev Answers (Receipt : Type) := L1ChainProvider Receipt × GetInput

structure MayFail (block : DataBlock) (answers : Answers Receipt) : Prop where
  chain : answers.1.getBlockTransactionsByHash block.blockRef.hash = .ok block.txs ∨
    ∃ e, answers.1.getBlockTransactionsByHash block.blockRef.hash = .error e ∧ e ≠ .temporary .eof
  server : ∀ commitment, answers.2 commitment = .ok (block.payload commitment) ∨
    ∃ e, answers.2 commitment = .error e ∧ e ≠ .temporary .eof

variable (block : DataBlock)

def nextOn (source : DAServerSource) (answers : Answers Receipt) : DAServerSource × PipelineResult (List UInt8) :=
  source.next answers.1 answers.2 block.blockRef block.batcherAddress

/-- What the calls return until one of them returns `Eof`. -/
def payloads (source : DAServerSource) : List (Answers Receipt) → List (List UInt8)
  | [] => []
  | answers :: calls =>
      match source.nextOn block answers with
      | (source, .ok data) => data :: payloads source calls
      | (source, .error e) => if e = .error (.temporary .eof) then [] else payloads source calls

def reachesEof (source : DAServerSource) : List (Answers Receipt) → Bool
  | [] => false
  | answers :: calls =>
      match source.nextOn block answers with
      | (source, .ok _) => reachesEof source calls
      | (source, .error e) => e = .error (.temporary .eof) || reachesEof source calls

def Fetches (source : DAServerSource) (answers : Answers Receipt) : Prop :=
  ∀ commitment, (source.calldataSource.next answers.1 block.blockRef block.batcherAddress).2 = .ok commitment →
    ∃ data, answers.2 commitment = .ok data

def Remaining (source : DAServerSource) (rest : List (List UInt8)) : Prop :=
  (source = new block.batchInboxAddress ∧ rest = block.commitments) ∨
    source = ⟨⟨block.batchInboxAddress, rest, true⟩, []⟩

variable {block} {source : DAServerSource} {rest : List (List UInt8)} {answers : Answers Receipt}

theorem Remaining.data_eq (remaining : Remaining block source rest) : source.data = [] := by
  rcases remaining with ⟨rfl, -⟩ | rfl
  · rfl
  · rfl

theorem loaded_remaining (rest : List (List UInt8)) :
    Remaining block ⟨⟨block.batchInboxAddress, rest, true⟩, []⟩ rest :=
  .inr rfl

def firstOrEof : List (List UInt8) → PipelineResult (List UInt8)
  | [] => PipelineError.eof.temp
  | commitment :: _ => .ok commitment

theorem Remaining.calldata_cases (remaining : Remaining block source rest) (mayFail : MayFail block answers) :
    (∃ e, e ≠ .temporary .eof ∧ answers.1.getBlockTransactionsByHash block.blockRef.hash = .error e ∧
      source.calldataSource.next answers.1 block.blockRef block.batcherAddress =
        (source.calldataSource, .error (.error e))) ∨
    source.calldataSource.next answers.1 block.blockRef block.batcherAddress =
      (⟨block.batchInboxAddress, rest.tail, true⟩, firstOrEof rest) := by
  rcases remaining with ⟨rfl, rfl⟩ | rfl
  · rcases mayFail.chain with loads | ⟨e, fails, other⟩
    · right
      simp only [new, CalldataSource.new, CalldataSource.next, CalldataSource.loadCalldata, loads, Bool.false_eq_true,
        if_false, DataBlock.commitments]
      cases CalldataSource.batcherInputs block.batchInboxAddress block.batcherAddress block.txs <;> rfl
    · left
      exact ⟨e, other, fails, by simp [new, CalldataSource.new, CalldataSource.next, CalldataSource.loadCalldata, fails]⟩
  · right
    cases rest <;> rfl

theorem Remaining.next_nil (remaining : Remaining block source []) (mayFail : MayFail block answers) :
    Fetches block source answers ∧
      ((∃ e, e ≠ .temporary .eof ∧ answers.1.getBlockTransactionsByHash block.blockRef.hash = .error e ∧
          source.nextOn block answers = (source, .error (.error e))) ∨
        source.nextOn block answers = (⟨⟨block.batchInboxAddress, [], true⟩, []⟩, PipelineError.eof.temp)) := by
  have empty := remaining.data_eq
  rcases remaining.calldata_cases mayFail with ⟨e, other, fails, result⟩ | result
  · refine ⟨?_, .inl ⟨e, other, fails, by simp only [nextOn, next, result]⟩⟩
    intro commitment takes
    rw [result] at takes
    cases takes
  · refine ⟨?_, .inr (by simp [nextOn, next, result, empty, firstOrEof, PipelineError.temp])⟩
    intro commitment takes
    rw [result] at takes
    cases takes

theorem Remaining.next_cons {commitment : List UInt8} (remaining : Remaining block source (commitment :: rest))
    (mayFail : MayFail block answers) :
    (∃ e, e ≠ .temporary .eof ∧ answers.1.getBlockTransactionsByHash block.blockRef.hash = .error e ∧
      source.nextOn block answers = (source, .error (.error e)) ∧ Fetches block source answers) ∨
    (answers.2 commitment = .ok (block.payload commitment) ∧ Fetches block source answers ∧
      source.nextOn block answers = (⟨⟨block.batchInboxAddress, rest, true⟩, []⟩, .ok (block.payload commitment))) ∨
    (∃ e, e ≠ .temporary .eof ∧ answers.2 commitment = .error e ∧ ¬ Fetches block source answers ∧
      source.nextOn block answers = (⟨⟨block.batchInboxAddress, rest, true⟩, []⟩, .error (.error e))) := by
  have empty := remaining.data_eq
  rcases remaining.calldata_cases mayFail with ⟨e, other, fails, result⟩ | result
  · refine .inl ⟨e, other, fails, by simp only [nextOn, next, result], ?_⟩
    intro commitment takes
    rw [result] at takes
    cases takes
  · right
    rcases mayFail.server commitment with answered | ⟨e, failed, other⟩
    · refine .inl ⟨answered, ?_, by simp [nextOn, next, result, empty, firstOrEof, loadDaServerData, answered]⟩
      intro commitment' takes
      rw [result] at takes
      cases takes
      exact ⟨_, answered⟩
    · refine .inr ⟨e, other, failed, ?_, by simp [nextOn, next, result, empty, firstOrEof, loadDaServerData, failed]⟩
      intro fetches
      obtain ⟨data, answered⟩ := fetches commitment (by rw [result]; rfl)
      rw [failed] at answered
      cases answered

variable {calls : List (Answers Receipt)}

theorem along_exhausted (mayFail : ∀ answers ∈ calls, MayFail block answers) :
    Along (nextOn block) (Fetches block) ⟨⟨block.batchInboxAddress, [], true⟩, []⟩ calls := by
  induction calls with
  | nil => trivial
  | cons answers calls ih =>
      obtain ⟨here, later⟩ := List.forall_mem_cons.mp mayFail
      obtain ⟨fetched, ⟨e, -, -, result⟩ | result⟩ := (loaded_remaining []).next_nil here
      · refine ⟨fetched, ?_⟩
        rw [result]
        exact ih later
      · refine ⟨fetched, ?_⟩
        rw [result]
        exact ih later

theorem Remaining.length_payloads_le (remaining : Remaining block source rest)
    (mayFail : ∀ answers ∈ calls, MayFail block answers) : (payloads block source calls).length ≤ rest.length := by
  induction calls generalizing source rest with
  | nil => exact Nat.zero_le _
  | cons answers calls ih =>
      obtain ⟨here, later⟩ := List.forall_mem_cons.mp mayFail
      cases rest with
      | nil =>
          rcases (remaining.next_nil here).2 with ⟨e, other, -, result⟩ | result
          · simpa [payloads, result, other] using ih remaining later
          · simp [payloads, result, PipelineError.temp]
      | cons commitment rest =>
          rcases remaining.next_cons here with ⟨e, other, -, result, -⟩ | ⟨-, -, result⟩ | ⟨e, other, -, -, result⟩
          · simpa [payloads, result, other] using ih remaining later
          · simpa [payloads, result] using ih (loaded_remaining rest) later
          · have := ih (loaded_remaining rest) later
            simp only [payloads, result, Stop.error.injEq, other, if_false, List.length_cons]
            omega

theorem Remaining.payloads_of_fetches (remaining : Remaining block source rest)
    (mayFail : ∀ answers ∈ calls, MayFail block answers) (fetches : Along (nextOn block) (Fetches block) source calls) :
    payloads block source calls <+: rest.map block.payload ∧
      (reachesEof block source calls = true → payloads block source calls = rest.map block.payload) := by
  induction calls generalizing source rest with
  | nil => exact ⟨List.nil_prefix, nofun⟩
  | cons answers calls ih =>
      obtain ⟨here, later⟩ := List.forall_mem_cons.mp mayFail
      obtain ⟨fetched, fetches⟩ := fetches
      cases rest with
      | nil =>
          rcases (remaining.next_nil here).2 with ⟨e, other, -, result⟩ | result
          · rw [result] at fetches
            simpa [payloads, reachesEof, result, other] using ih remaining later fetches
          · simp [payloads, result, PipelineError.temp]
      | cons commitment rest =>
          rcases remaining.next_cons here with ⟨e, other, -, result, -⟩ | ⟨-, -, result⟩ | ⟨-, -, -, not, -⟩
          · rw [result] at fetches
            simpa [payloads, reachesEof, result, other] using ih remaining later fetches
          · rw [result] at fetches
            simpa [payloads, reachesEof, result] using ih (loaded_remaining rest) later fetches
          · exact absurd fetched not

theorem Remaining.fetches_of_payloads (remaining : Remaining block source rest)
    (mayFail : ∀ answers ∈ calls, MayFail block answers) (ends : reachesEof block source calls = true)
    (all : payloads block source calls = rest.map block.payload) : Along (nextOn block) (Fetches block) source calls := by
  induction calls generalizing source rest with
  | nil => trivial
  | cons answers calls ih =>
      obtain ⟨here, later⟩ := List.forall_mem_cons.mp mayFail
      cases rest with
      | nil =>
          obtain ⟨fetched, ⟨e, other, -, result⟩ | result⟩ := remaining.next_nil here
          · refine ⟨fetched, ?_⟩
            rw [result]
            exact ih remaining later (by simpa [reachesEof, result, other] using ends)
              (by simpa [payloads, result, other] using all)
          · refine ⟨fetched, ?_⟩
            rw [result]
            exact along_exhausted later
      | cons commitment rest =>
          rcases remaining.next_cons here with ⟨e, other, -, result, fetched⟩ | ⟨-, fetched, result⟩ |
            ⟨e, other, -, -, result⟩
          · refine ⟨fetched, ?_⟩
            rw [result]
            exact ih remaining later (by simpa [reachesEof, result, other] using ends)
              (by simpa [payloads, result, other] using all)
          · refine ⟨fetched, ?_⟩
            rw [result]
            exact ih (loaded_remaining rest) later (by simpa [reachesEof, result] using ends)
              (by simpa [payloads, result] using all)
          · have short := (loaded_remaining rest).length_payloads_le later
            simp only [payloads, result, Stop.error.injEq, other, if_false] at all
            rw [all, List.length_map, List.length_cons] at short
            omega

def Succeeds (block : DataBlock) (answers : Answers Receipt) : Prop :=
  answers.1.getBlockTransactionsByHash block.blockRef.hash = .ok block.txs ∧
    ∀ commitment, answers.2 commitment = .ok (block.payload commitment)

theorem Succeeds.next_cons {commitment : List UInt8} (succeeds : Succeeds block answers)
    (remaining : Remaining block source (commitment :: rest)) (mayFail : MayFail block answers) :
    source.nextOn block answers = (⟨⟨block.batchInboxAddress, rest, true⟩, []⟩, .ok (block.payload commitment)) := by
  rcases remaining.next_cons mayFail with ⟨e, -, fails, -⟩ | ⟨-, -, result⟩ | ⟨e, -, fails, -⟩
  · rw [succeeds.1] at fails
    cases fails
  · exact result
  · rw [succeeds.2] at fails
    cases fails

theorem Remaining.reachesEof_of_succeeds (remaining : Remaining block source rest)
    (mayFail : ∀ answers ∈ calls, MayFail block answers) {good : List (Answers Receipt)} (among : good.Sublist calls)
    (succeeds : ∀ answers ∈ good, Succeeds block answers) (enough : rest.length < good.length) :
    reachesEof block source calls = true := by
  induction among generalizing source rest with
  | slnil => simp at enough
  | @cons good calls answers among ih =>
      obtain ⟨here, later⟩ := List.forall_mem_cons.mp mayFail
      cases rest with
      | nil =>
          rcases (remaining.next_nil here).2 with ⟨e, other, -, result⟩ | result
          · simpa [reachesEof, result, other] using ih remaining later succeeds enough
          · simp [reachesEof, result, PipelineError.temp]
      | cons commitment rest =>
          have fewer : rest.length < good.length := Nat.lt_of_succ_lt enough
          rcases remaining.next_cons here with ⟨e, other, -, result, -⟩ | ⟨-, -, result⟩ | ⟨e, other, -, -, result⟩
          · simpa [reachesEof, result, other] using ih remaining later succeeds enough
          · simpa [reachesEof, result] using ih (loaded_remaining rest) later succeeds fewer
          · simpa [reachesEof, result, other] using ih (loaded_remaining rest) later succeeds fewer
  | @cons_cons good calls answers among ih =>
      obtain ⟨here, later⟩ := List.forall_mem_cons.mp mayFail
      obtain ⟨now, succeeds⟩ := List.forall_mem_cons.mp succeeds
      cases rest with
      | nil =>
          rcases (remaining.next_nil here).2 with ⟨e, -, fails, -⟩ | result
          · rw [now.1] at fails
            cases fails
          · simp [reachesEof, result, PipelineError.temp]
      | cons commitment rest =>
          simpa [reachesEof, now.next_cons remaining here] using
            ih (loaded_remaining rest) later succeeds (Nat.lt_of_succ_lt_succ enough)

/-- A run that reaches the end has returned the payload of every commitment, in order and once, exactly
when no fetch of a payload failed in it; and it does reach the end. -/
theorem payloads_delivered_iff (block : DataBlock) {calls : List (Answers Receipt)}
    (mayFail : ∀ answers ∈ calls, MayFail block answers) :
    (reachesEof block (new block.batchInboxAddress) calls = true →
      (payloads block (new block.batchInboxAddress) calls = block.commitments.map block.payload ↔
        Along (nextOn block) (Fetches block) (new block.batchInboxAddress) calls)) ∧
    (Along (nextOn block) (Fetches block) (new block.batchInboxAddress) calls →
      payloads block (new block.batchInboxAddress) calls <+: block.commitments.map block.payload) ∧
    ∀ good : List (Answers Receipt), good.Sublist calls → (∀ answers ∈ good, Succeeds block answers) →
      block.commitments.length < good.length → reachesEof block (new block.batchInboxAddress) calls = true := by
  have initial : Remaining block (new block.batchInboxAddress) block.commitments := .inl ⟨rfl, rfl⟩
  refine ⟨fun ends => ⟨initial.fetches_of_payloads mayFail ends, fun fetches => ?_⟩, fun fetches => ?_, ?_⟩
  · exact (initial.payloads_of_fetches mayFail fetches).2 ends
  · exact (initial.payloads_of_fetches mayFail fetches).1
  · intro good among succeeds enough
    exact initial.reachesEof_of_succeeds mayFail among succeeds enough

def inboxOf (b : UInt8) : Address := ⟨List.replicate 20 b, List.length_replicate⟩

def twoCommitments : DataBlock where
  blockRef := ⟨.ofNat 1, 1, .ofNat 0, 12⟩
  batchInboxAddress := inboxOf 1
  batcherAddress := inboxOf 2
  txs := [⟨.ofNat 7, inboxOf 2, [10], some (inboxOf 1)⟩, ⟨.ofNat 8, inboxOf 3, [11], some (inboxOf 1)⟩,
    ⟨.ofNat 9, inboxOf 2, [12], some (inboxOf 1)⟩]
  payload commitment := 100 :: commitment

def transient : PipelineErrorKind := .temporary (.provider "timeout")

def steady : Answers Unit where
  fst := ⟨fun _ => .error transient, fun _ => .error transient, fun _ => .ok twoCommitments.txs⟩
  snd commitment := .ok (100 :: commitment)

def chainDown : Answers Unit where
  fst := ⟨fun _ => .error transient, fun _ => .error transient, fun _ => .error transient⟩
  snd := steady.2

def serverDown : Answers Unit := (steady.1, fun _ => .error transient)

theorem steady_mayFail : MayFail twoCommitments steady := ⟨.inl rfl, fun _ => .inl rfl⟩

theorem chainDown_mayFail : MayFail twoCommitments chainDown := ⟨.inr ⟨transient, rfl, nofun⟩, fun _ => .inl rfl⟩

theorem serverDown_mayFail : MayFail twoCommitments serverDown := ⟨.inl rfl, fun _ => .inr ⟨transient, rfl, nofun⟩⟩

theorem payloads_delivered_after_chain_failure :
    payloads twoCommitments (new twoCommitments.batchInboxAddress) [chainDown, steady, steady, chainDown, steady] =
      [[100, 10], [100, 12]] := by
  have mayFail : ∀ answers ∈ [chainDown, steady, steady, chainDown, steady], MayFail twoCommitments answers := by
    simp [steady_mayFail, chainDown_mayFail]
  refine ((payloads_delivered_iff twoCommitments mayFail).1 (by decide +kernel)).mpr ?_
  exact ⟨by simp [Fetches, chainDown, steady], by simp [Fetches, steady], by simp [Fetches, steady],
    by simp [Fetches, chainDown, steady], by simp [Fetches, steady], trivial⟩

theorem failed_fetch_loses_commitment :
    MayFail twoCommitments serverDown ∧ MayFail twoCommitments steady ∧
    reachesEof twoCommitments (new twoCommitments.batchInboxAddress) [serverDown, steady, steady] = true ∧
    payloads twoCommitments (new twoCommitments.batchInboxAddress) [serverDown, steady, steady] = [[100, 12]] ∧
    payloads twoCommitments (new twoCommitments.batchInboxAddress) [serverDown, steady, steady] ≠
      twoCommitments.commitments.map twoCommitments.payload :=
  ⟨serverDown_mayFail, steady_mayFail, by decide +kernel, by decide +kernel, by decide +kernel⟩

end DAServerSource

end KonaSoon.Derive
