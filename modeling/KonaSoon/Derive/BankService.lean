import KonaSoon.Derive.BankQueue

namespace KonaSoon.Derive
open Lib Mpt Da

namespace ChannelBank

variable {P : Type} [NextFrameProvider P] {bank : ChannelBank P} {log : List (ChannelId × BlockInfo)}
  {origin : BlockInfo} {id : ChannelId}

def returned (bank : ChannelBank P) : BankCall → Option (List UInt8)
  | .read => bank.read.2.toOption.join
  | .nextData => bank.nextData.2.toOption.join
  | _ => none

def served (bank : ChannelBank P) (made : BankCall) : Option ChannelId :=
  match bank.returned made with
  | none => none
  | some _ => bank.origin.bind bank.nextReady

def servings : ChannelBank P → List BankCall → List ChannelId
  | _, [] => []
  | bank, made :: calls => (bank.served made).toList ++ servings (bank.call made).1 calls

theorem Ordered.returned_read (inOrder : Ordered log bank) {made : BankCall} {data : List UInt8}
    (returns : bank.returned made = some data) :
    bank.read.2 = .ok (some data) ∧ (bank.call made).1 = bank.read.1 := by
  have fromRead {result : PipelineResult (Option (List UInt8))} (holds : result.toOption.join = some data) :
      result = .ok (some data) := by
    cases result with
    | error e => cases holds
    | ok inner => exact congrArg Except.ok holds
  cases made with
  | read => exact ⟨fromRead returns, rfl⟩
  | nextData =>
      have result := fromRead returns
      rcases inOrder.nextData_cases with ⟨_, -, same, -⟩ | ⟨-, -, same, reads, -⟩ | ⟨_, _, -, -, same, -⟩ |
        ⟨prev, frame, -, -, same, -⟩
      · exact ⟨same ▸ result, congrArg Prod.fst same⟩
      · rw [same, reads] at result
        cases result
      · rw [same] at result
        cases result
      · rw [same] at result
        cases ingested : (ChannelBank.ingestFrame { bank with prev } frame).2 with
        | error stop =>
            rw [ingested] at result
            cases result
        | ok done =>
            rw [ingested] at result
            cases result
  | ingestFrame frame => cases returns
  | prune => cases returns
  | advanceOrigin => cases returns
  | signal s => cases returns

theorem Ordered.returned_served (inOrder : Ordered log bank) {made : BankCall} {data : List UInt8}
    (returns : bank.returned made = some data) : ∃ origin id, bank.origin = some origin ∧
      bank.nextReady origin = some id ∧ bank.served made = some id ∧ bank.Serves id data ∧
      (bank.call made).1 = bank.without id := by
  obtain ⟨reads, after⟩ := inOrder.returned_read returns
  cases here : bank.origin with
  | none =>
      by_cases empty : bank.channelQueue = []
      · rw [read_empty empty] at reads
        cases reads
      · rw [read_noOrigin inOrder.listed here empty] at reads
        cases reads
  | some origin =>
      rcases ChannelBank.read_cases inOrder.listed here with
        ⟨_, -, -, result⟩ | ⟨id, data', -, next, serves, result⟩ | ⟨-, -, result⟩
      · rw [result] at reads
        cases reads
      · rw [result] at reads after
        cases reads
        exact ⟨origin, id, rfl, next, by rw [served, returns, here]; exact next, serves, after⟩
      · rw [result] at reads
        cases reads

theorem Ordered.served_cases (inOrder : Ordered log bank) {made : BankCall} {id : ChannelId}
    (serves : bank.served made = some id) : id ∈ bank.channels ∧ id ∉ (bank.call made).1.channels := by
  cases returns : bank.returned made with
  | none =>
      rw [served, returns] at serves
      cases serves
  | some data =>
      obtain ⟨origin, other, -, -, same, ⟨channel, found, -⟩, after⟩ := inOrder.returned_served returns
      rw [serves] at same
      cases same
      rw [after]
      refine ⟨AList.lookup_isSome.mp (by rw [found]; rfl), ?_⟩
      rw [without, AList.mem_erase]
      exact fun present => present.1 rfl

theorem Moves.origin_of_member {bank bank' : ChannelBank P} {opened : Option (ChannelId × BlockInfo)}
    (moves : Moves bank bank' opened) (listed : Listed bank.channels bank.channelQueue) {id : ChannelId}
    (member : id ∈ bank'.channels) : id ∈ bank.channels ∨ id ∈ opened.toList.map Prod.fst := by
  obtain ⟨openBlock, standing⟩ := (mem_standing moves.listed).mp member
  rcases List.mem_append.mp (moves.ordered.subset standing) with before | opened
  · exact .inl ((mem_standing listed).mpr ⟨openBlock, before⟩)
  · exact .inr (List.mem_map_of_mem opened)

def presence (bank : ChannelBank P) (id : ChannelId) : Nat := if id ∈ bank.channels then 1 else 0

theorem Ordered.served_step (inOrder : Ordered log bank) (made : BankCall) (id : ChannelId) :
    (bank.served made).toList.count id + (bank.call made).1.presence id ≤
      ((bank.opening made).toList.map Prod.fst).count id + bank.presence id := by
  by_cases after : id ∈ (bank.call made).1.channels
  · have notServed : (bank.served made).toList.count id = 0 := by
      rw [List.count_eq_zero, Option.mem_toList]
      exact fun serves => (inOrder.served_cases serves).2 after
    rw [notServed, presence, if_pos after, presence]
    rcases (inOrder.call_moves made).origin_of_member inOrder.listed after with before | opened
    · rw [if_pos before]
      omega
    · have := List.count_pos_iff.mpr opened
      omega
  · rw [presence, if_neg after, Nat.add_zero]
    cases serves : bank.served made with
    | none => exact Nat.zero_le _
    | some other =>
        by_cases same : other = id
        · subst same
          rw [presence, if_pos (inOrder.served_cases serves).1, Option.toList_some, List.count_singleton_self]
          omega
        · rw [Option.toList_some, List.count_singleton, beq_eq_false_iff_ne.mpr same]
          exact Nat.zero_le _

theorem Ordered.served_count (inOrder : Ordered log bank) (calls : List BankCall) (id : ChannelId) :
    (bank.servings calls).count id ≤ ((bank.openings calls).map Prod.fst).count id + bank.presence id := by
  induction calls generalizing log bank with
  | nil => exact Nat.zero_le _
  | cons made calls ih =>
      have first := inOrder.served_step made id
      have rest := ih (inOrder.moved (inOrder.call_moves made))
      rw [servings, openings, List.count_append, List.map_append, List.count_append]
      omega

omit [NextFrameProvider P] in
theorem timedOut_iff (channel : Channel) (fits : channel.openBlock.number.toNat + bank.channelTimeout.toNat < 2 ^ 64) :
    bank.timedOut channel origin = true ↔
      channel.openBlock.number.toNat + bank.channelTimeout.toNat < origin.number.toNat := by
  rw [timedOut, decide_eq_true_iff, UInt64.lt_iff_toNat_lt, UInt64.toNat_add, Nat.mod_eq_of_lt fits]

omit [NextFrameProvider P] in
theorem le_of_ready {channel : Channel} (found : bank.channels.lookup id = some channel)
    (isReady : bank.ready origin id = true) :
    origin.number.toNat ≤ channel.openBlock.number.toNat + bank.channelTimeout.toNat := by
  have inTime : bank.timedOut channel origin = false := by
    simp only [ready, found, Bool.and_eq_true, Bool.not_eq_true'] at isReady
    exact isReady.1
  rw [timedOut, decide_eq_false_iff_not, UInt64.lt_iff_toNat_lt, UInt64.toNat_add, Nat.not_lt] at inTime
  exact inTime.trans (Nat.mod_le _ _)

/-- A bank with an origin, reached by any calls, drops a head that is timed out; else it serves the first
channel in the order of opening that is ready and in time, and only that one; else it has nothing to read
and stays as it is. From there on no channel is served more often than it is opened, and none after its
time. -/
theorem serves_in_order (channelTimeout : UInt64) (prev : P) (calls : List BankCall) {bank : ChannelBank P}
    (reached : run call (new channelTimeout prev) calls = bank) {origin : BlockInfo} (here : bank.origin = some origin) :
    bank.standing.map Prod.fst = bank.channelQueue ∧
      bank.standing.Sublist (latest ((new channelTimeout prev).openings calls)) ∧
      (bank.headTimedOut origin = true →
        ∃ first, bank.channelQueue.head? = some first ∧ bank.read = (bank.without first, .ok none)) ∧
      (bank.headTimedOut origin = false → ∀ id, bank.nextReady origin = some id →
        ∃ data, bank.Serves id data ∧ bank.read = (bank.without id, .ok (some data))) ∧
      (bank.headTimedOut origin = false → bank.nextReady origin = none →
        bank.read = (bank, PipelineError.eof.temp)) ∧
      (∀ id later, (bank.servings later).count id ≤
        ((bank.openings later).map Prod.fst).count id + bank.presence id) ∧
      (∀ made data, bank.returned made = some data → ∃ id channel, bank.served made = some id ∧
        bank.channels.lookup id = some channel ∧ channel.frameData = some data ∧
        origin.number.toNat ≤ channel.openBlock.number.toNat + bank.channelTimeout.toNat) ∧
      ∀ channel : Channel, channel.openBlock.number.toNat + bank.channelTimeout.toNat < 2 ^ 64 →
        (bank.timedOut channel origin = true ↔
          channel.openBlock.number.toNat + bank.channelTimeout.toNat < origin.number.toNat) := by
  have inOrder := ordered_run channelTimeout prev calls
  rw [reached] at inOrder
  refine ⟨standing_ids inOrder.listed, inOrder.ordered, ?_, ?_, ?_, fun id later => inOrder.served_count later id, ?_,
    fun channel fits => timedOut_iff channel fits⟩
  · intro late
    rcases read_cases inOrder.listed here with ⟨first, head, -, result⟩ | ⟨_, _, inTime, -⟩ | ⟨inTime, -⟩
    · exact ⟨first, head, result⟩
    · rw [late] at inTime
      cases inTime
    · rw [late] at inTime
      cases inTime
  · intro inTime id next
    rcases read_cases inOrder.listed here with ⟨_, -, late, -⟩ | ⟨id', data, -, next', serves, result⟩ | ⟨-, none, -⟩
    · rw [inTime] at late
      cases late
    · rw [next] at next'
      cases next'
      exact ⟨data, serves, result⟩
    · rw [next] at none
      cases none
  · intro inTime none
    rcases read_cases inOrder.listed here with ⟨_, -, late, -⟩ | ⟨_, _, -, next, -⟩ | ⟨-, -, result⟩
    · rw [inTime] at late
      cases late
    · rw [none] at next
      cases next
    · exact result
  · intro made data returns
    obtain ⟨origin', id, here', next, serves, ⟨channel, found, holds⟩, -⟩ := inOrder.returned_served returns
    rw [here] at here'
    cases here'
    exact ⟨id, channel, serves, found, holds, le_of_ready found (List.find?_some next)⟩

end ChannelBank

theorem serves_in_order_two_channels :
    (run ChannelBank.call (ChannelBank.new 10 twoChannels) twoPulls).headTimedOut twoChannels.block = false ∧
      ∃ data, (run ChannelBank.call (ChannelBank.new 10 twoChannels) twoPulls).Serves secondChannel data ∧
        (run ChannelBank.call (ChannelBank.new 10 twoChannels) twoPulls).read =
          ((run ChannelBank.call (ChannelBank.new 10 twoChannels) twoPulls).without secondChannel, .ok (some data)) :=
  ⟨by decide, (ChannelBank.serves_in_order 10 twoChannels twoPulls rfl rfl).2.2.2.1 (by decide) secondChannel (by decide)⟩

end KonaSoon.Derive
