import KonaSoon.Derive.BankSize

namespace KonaSoon.Derive
open Lib Mpt Da

/-! ## Openings -/

def latest {κ β : Type} [DecidableEq κ] : List (κ × β) → List (κ × β)
  | [] => []
  | entry :: log => if entry.1 ∈ log.map Prod.fst then latest log else entry :: latest log

theorem latest_append_singleton {κ β : Type} [DecidableEq κ] (log : List (κ × β)) (last : κ × β) :
    latest (log ++ [last]) = (latest log).filter (fun entry => entry.1 ≠ last.1) ++ [last] := by
  induction log with
  | nil => simp [latest]
  | cons entry log ih =>
      have appended : entry.1 ∈ (log ++ [last]).map Prod.fst ↔ entry.1 ∈ log.map Prod.fst ∨ entry.1 = last.1 := by simp
      rw [List.cons_append, latest, latest, ih]
      by_cases later : entry.1 ∈ log.map Prod.fst
      · rw [if_pos (appended.mpr (.inl later)), if_pos later]
      · rw [if_neg later]
        by_cases same : entry.1 = last.1
        · rw [if_pos (appended.mpr (.inr same)), List.filter_cons_of_neg (by simpa using same)]
        · have absent : entry.1 ∉ (log ++ [last]).map Prod.fst := fun member => (appended.mp member).elim later same
          rw [if_neg absent, List.filter_cons_of_pos (by simpa using same), List.cons_append]

namespace ChannelBank

variable {P : Type} {bank : ChannelBank P}

def standing (bank : ChannelBank P) : List (ChannelId × BlockInfo) :=
  bank.channelQueue.filterMap fun id => (bank.channels.lookup id).map fun channel => (id, channel.openBlock)

theorem Listed.lookup {channels : HashMap ChannelId Channel} {queue : List ChannelId} (listed : Listed channels queue)
    {id : ChannelId} (member : id ∈ queue) : ∃ channel, channels.lookup id = some channel :=
  Option.isSome_iff_exists.mp (AList.lookup_isSome.mpr ((listed.same id).mp member))

theorem Listed.erase {channels : HashMap ChannelId Channel} {queue : List ChannelId} (listed : Listed channels queue)
    (id : ChannelId) : Listed (channels.erase id) (queue.erase id) := by
  refine ⟨listed.distinct.erase id, fun other => ?_⟩
  rw [listed.distinct.mem_erase_iff, AList.mem_erase, listed.same]

theorem mem_standing (listed : Listed bank.channels bank.channelQueue) {id : ChannelId} :
    id ∈ bank.channels ↔ ∃ openBlock, (id, openBlock) ∈ bank.standing := by
  constructor
  · intro member
    have queued := (listed.same id).mpr member
    obtain ⟨channel, found⟩ := listed.lookup queued
    exact ⟨channel.openBlock, List.mem_filterMap.mpr ⟨id, queued, by rw [found]; rfl⟩⟩
  · rintro ⟨openBlock, member⟩
    obtain ⟨other, queued, made⟩ := List.mem_filterMap.mp member
    obtain ⟨channel, found, same⟩ := Option.map_eq_some_iff.mp made
    cases same
    exact (listed.same id).mp queued

theorem standing_ids (listed : Listed bank.channels bank.channelQueue) :
    bank.standing.map Prod.fst = bank.channelQueue := by
  have found : ∀ id ∈ bank.channelQueue, ((bank.channels.lookup id).map fun channel => (id, channel.openBlock)).map Prod.fst =
      some id := by
    intro id member
    obtain ⟨channel, found⟩ := listed.lookup member
    rw [found]
    rfl
  rw [standing, List.map_filterMap, List.filterMap_congr found, List.filterMap_some]

theorem standing_sublist {bank bank' : ChannelBank P} (shorter : bank'.channelQueue.Sublist bank.channelQueue)
    (same : ∀ id ∈ bank'.channelQueue,
      (bank'.channels.lookup id).map Channel.openBlock = (bank.channels.lookup id).map Channel.openBlock) :
    bank'.standing.Sublist bank.standing := by
  have entries : ∀ id ∈ bank'.channelQueue, (bank'.channels.lookup id).map (fun channel => (id, channel.openBlock)) =
      (bank.channels.lookup id).map fun channel => (id, channel.openBlock) := by
    intro id member
    have := congrArg (Option.map fun openBlock => (id, openBlock)) (same id member)
    rw [Option.map_map, Option.map_map] at this
    exact this
  rw [standing, List.filterMap_congr entries]
  exact shorter.filterMap _

theorem standing_opened (listed : Listed bank.channels bank.channelQueue) {id : ChannelId} (absent : id ∉ bank.channels)
    (channel : Channel) :
    standing { bank with channels := bank.channels.insert id channel, channelQueue := bank.channelQueue ++ [id] } =
      bank.standing ++ [(id, channel.openBlock)] := by
  have others : ∀ other ∈ bank.channelQueue, ((bank.channels.insert id channel).lookup other).map
      (fun channel => (other, channel.openBlock)) =
      (bank.channels.lookup other).map fun channel => (other, channel.openBlock) := by
    intro other member
    have differs : other ≠ id := fun same => absent (same ▸ (listed.same other).mp member)
    rw [AList.lookup_insert_ne differs]
  rw [standing, List.filterMap_append, List.filterMap_congr others]
  simp [standing, AList.lookup_insert]

variable [NextFrameProvider P]

def opening (bank : ChannelBank P) (made : BankCall) : Option (ChannelId × BlockInfo) :=
  match bank.ingests made with
  | none => none
  | some (before, frame) =>
      match before.origin with
      | none => none
      | some origin => if frame.id ∈ before.channels then none else some (frame.id, origin)

def openings : ChannelBank P → List BankCall → List (ChannelId × BlockInfo)
  | _, [] => []
  | bank, made :: calls => (bank.opening made).toList ++ openings (bank.call made).1 calls

def OriginStays (bank : ChannelBank P) (made : BankCall) : Prop :=
  bank.origin.isSome = true → (bank.call made).1.origin.isSome = true

/-! ## What `read` serves -/

def without (bank : ChannelBank P) (id : ChannelId) : ChannelBank P :=
  { bank with channels := bank.channels.erase id, channelQueue := bank.channelQueue.erase id }

def ready (bank : ChannelBank P) (origin : BlockInfo) (id : ChannelId) : Bool :=
  match bank.channels.lookup id with
  | none => false
  | some channel => !bank.timedOut channel origin && channel.isReady

def nextReady (bank : ChannelBank P) (origin : BlockInfo) : Option ChannelId := bank.channelQueue.find? (bank.ready origin)

def Serves (bank : ChannelBank P) (id : ChannelId) (data : List UInt8) : Prop :=
  ∃ channel, bank.channels.lookup id = some channel ∧ channel.frameData = some data

variable {origin : BlockInfo} {id : ChannelId}

theorem tryReadChannelAtIndex_ready (listed : Listed bank.channels bank.channelQueue) (here : bank.origin = some origin)
    {index : Nat} (at_ : bank.channelQueue[index]? = some id) (isReady : bank.ready origin id = true) :
    ∃ data, bank.Serves id data ∧ bank.tryReadChannelAtIndex index = (bank.without id, .ok data) := by
  obtain ⟨bound, rfl⟩ := List.getElem?_eq_some_iff.mp at_
  obtain ⟨channel, found⟩ := listed.lookup (List.getElem_mem bound)
  have open_ : (bank.timedOut channel origin || !channel.isReady) = false := by
    simpa [ready, found] using isReady
  obtain ⟨data, collected⟩ := Channel.frameData_of_isReady (by simpa using (Bool.or_eq_false_iff.mp open_).2)
  refine ⟨data, ⟨channel, found, collected⟩, ?_⟩
  have erased : bank.channelQueue.eraseIdx index = bank.channelQueue.erase bank.channelQueue[index] :=
    (List.erase_eq_eraseIdx_of_idxOf (listed.distinct.idxOf_getElem index bound)).symm
  simp only [tryReadChannelAtIndex, at_, found, here, open_, Bool.false_eq_true, if_false, collected, erased, without]

theorem tryReadChannelAtIndex_notReady (listed : Listed bank.channels bank.channelQueue) (here : bank.origin = some origin)
    {index : Nat} (at_ : bank.channelQueue[index]? = some id) (notReady : bank.ready origin id = false) :
    bank.tryReadChannelAtIndex index = (bank, PipelineError.eof.temp) := by
  obtain ⟨channel, found⟩ := listed.lookup (List.mem_of_getElem? at_)
  have closed : (bank.timedOut channel origin || !channel.isReady) = true := by
    simpa [ready, found, Bool.or_eq_true, imp_iff_not_or] using notReady
  simp only [tryReadChannelAtIndex, at_, found, here, closed, if_true]

theorem findReady_spec (listed : Listed bank.channels bank.channelQueue) (here : bank.origin = some origin)
    {start count : Nat} (covers : start + count = bank.channelQueue.length) :
    (∀ id, (bank.channelQueue.drop start).find? (bank.ready origin) = some id → ∃ data, bank.Serves id data ∧
      bank.findReady (List.range' start count) = (bank.without id, .ok data)) ∧
    ((bank.channelQueue.drop start).find? (bank.ready origin) = none →
      bank.findReady (List.range' start count) = (bank, PipelineError.eof.temp)) := by
  induction count generalizing start with
  | zero =>
      have done : bank.channelQueue.drop start = [] := List.drop_eq_nil_of_le (by omega)
      rw [done]
      exact ⟨nofun, fun _ => rfl⟩
  | succ count ih =>
      have bound : start < bank.channelQueue.length := by omega
      have at_ : bank.channelQueue[start]? = some bank.channelQueue[start] := List.getElem?_eq_getElem bound
      rw [List.drop_eq_getElem_cons bound, List.range'_succ, List.find?_cons, findReady]
      cases isReady : bank.ready origin bank.channelQueue[start] with
      | true =>
          obtain ⟨data, serves, result⟩ := tryReadChannelAtIndex_ready listed here at_ isReady
          rw [result]
          refine ⟨?_, nofun⟩
          rintro _ ⟨⟩
          exact ⟨data, serves, rfl⟩
      | false =>
          rw [tryReadChannelAtIndex_notReady listed here at_ isReady]
          exact ih (by omega)

theorem read_timedOut (here : bank.origin = some origin) {first : ChannelId} {queue : List ChannelId}
    (queued : bank.channelQueue = first :: queue) {channel : Channel} (found : bank.channels.lookup first = some channel)
    (late : bank.timedOut channel origin = true) : bank.read = (bank.without first, .ok none) := by
  simp only [read, queued, found, here, late, if_true, without, List.erase_cons_head]

theorem read_empty (empty : bank.channelQueue = []) : bank.read = (bank, PipelineError.eof.temp) := by
  simp only [read, empty]

def headTimedOut (bank : ChannelBank P) (origin : BlockInfo) : Bool :=
  match bank.channelQueue.head?.bind bank.channels.lookup with
  | none => false
  | some channel => bank.timedOut channel origin

theorem read_searches (listed : Listed bank.channels bank.channelQueue) (here : bank.origin = some origin)
    (inTime : bank.headTimedOut origin = false) :
    bank.read = ((bank.findReady (List.range' 0 bank.channelQueue.length)).1,
      (bank.findReady (List.range' 0 bank.channelQueue.length)).2.map some) := by
  cases queued : bank.channelQueue with
  | nil => rw [read_empty queued]; rfl
  | cons first queue =>
      obtain ⟨channel, found⟩ := listed.lookup (queued ▸ List.mem_cons_self : first ∈ bank.channelQueue)
      have notLate : bank.timedOut channel origin = false := by
        simpa [headTimedOut, queued, found] using inTime
      simp only [read, queued, found, here, notLate, Bool.false_eq_true, if_false, List.range_eq_range']

theorem read_cases (listed : Listed bank.channels bank.channelQueue) (here : bank.origin = some origin) :
    (∃ first, bank.channelQueue.head? = some first ∧ bank.headTimedOut origin = true ∧
      bank.read = (bank.without first, .ok none)) ∨
    (∃ id data, bank.headTimedOut origin = false ∧ bank.nextReady origin = some id ∧ bank.Serves id data ∧
      bank.read = (bank.without id, .ok (some data))) ∨
    (bank.headTimedOut origin = false ∧ bank.nextReady origin = none ∧ bank.read = (bank, PipelineError.eof.temp)) := by
  cases late : bank.headTimedOut origin with
  | true =>
      cases queued : bank.channelQueue with
      | nil => simp [headTimedOut, queued] at late
      | cons first queue =>
          obtain ⟨channel, found⟩ := listed.lookup (queued ▸ List.mem_cons_self : first ∈ bank.channelQueue)
          have timedOut : bank.timedOut channel origin = true := by
            simpa [headTimedOut, queued, found] using late
          exact .inl ⟨first, rfl, rfl, read_timedOut here queued found timedOut⟩
  | false =>
      obtain ⟨served, nothing⟩ := findReady_spec listed here (Nat.zero_add _)
      rw [read_searches listed here late]
      cases next : bank.nextReady origin with
      | some id =>
          obtain ⟨data, serves, result⟩ := served id next
          rw [result]
          exact .inr (.inl ⟨id, data, rfl, rfl, serves, rfl⟩)
      | none =>
          rw [nothing next]
          exact .inr (.inr ⟨rfl, rfl, rfl⟩)

/-! ## What a call does to the order -/

/-- What one call can do to a bank: it opens a channel of its own origin at the end of the queue or none,
and takes others out. -/
structure Moves (bank bank' : ChannelBank P) (opened : Option (ChannelId × BlockInfo)) : Prop where
  listed : Listed bank'.channels bank'.channelQueue
  sound : ∀ id channel, bank'.channels.lookup id = some channel → channel.Sound
  ordered : bank'.standing.Sublist (bank.standing ++ opened.toList)
  fresh : ∀ id origin, opened = some (id, origin) → id ∉ bank.channels ∧ bank'.origin = some origin

theorem Moves.unopened {bank bank' : ChannelBank P} (listed : Listed bank'.channels bank'.channelQueue)
    (sound : ∀ id channel, bank'.channels.lookup id = some channel → channel.Sound)
    (ordered : bank'.standing.Sublist bank.standing) : Moves bank bank' none where
  listed
  sound
  ordered := by simpa using ordered
  fresh := by
    intro id origin opened
    cases opened

theorem Moves.refl (listed : Listed bank.channels bank.channelQueue)
    (sound : ∀ id channel, bank.channels.lookup id = some channel → channel.Sound) : Moves bank bank none :=
  .unopened listed sound (List.Sublist.refl _)

theorem Moves.trans {bank bank' bank'' : ChannelBank P} {opened : Option (ChannelId × BlockInfo)}
    (first : Moves bank bank' opened) (second : Moves bank' bank'' none) (same : bank''.origin = bank'.origin) :
    Moves bank bank'' opened where
  listed := second.listed
  sound := second.sound
  ordered := by
    have shrinks := second.ordered
    rw [Option.toList_none, List.append_nil] at shrinks
    exact shrinks.trans first.ordered
  fresh id origin opened := by
    rw [same]
    exact first.fresh id origin opened

theorem Moves.without (listed : Listed bank.channels bank.channelQueue)
    (sound : ∀ id channel, bank.channels.lookup id = some channel → channel.Sound) (id : ChannelId) :
    Moves bank (bank.without id) none where
  listed := listed.erase id
  sound other channel found := sound other channel (HashMap.lookup_of_lookup_erase found).2
  ordered := by
    rw [Option.toList_none, List.append_nil]
    refine standing_sublist List.erase_sublist fun other member => ?_
    have differs := (listed.distinct.mem_erase_iff.mp member).1
    rw [ChannelBank.without, AList.lookup_erase_ne differs]
  fresh := nofun

theorem pruneFrom_suffix (channels : HashMap ChannelId Channel) (totalSize : Nat) (queue : List ChannelId) :
    (pruneFrom channels totalSize queue).2.1 <:+ queue := by
  induction queue generalizing channels totalSize with
  | nil => exact List.suffix_refl []
  | cons id queue ih =>
      rw [pruneFrom]
      split
      · split
        · exact List.suffix_cons id queue
        · split
          · exact (ih _ _).trans (List.suffix_cons id queue)
          · exact List.suffix_cons id queue
      · exact List.suffix_refl _

theorem prune_moves (listed : Listed bank.channels bank.channelQueue)
    (sound : ∀ id channel, bank.channels.lookup id = some channel → channel.Sound) :
    bank.prune.2 = .ok () ∧ Moves bank bank.prune.1 none := by
  obtain ⟨ok, listed', -, kept⟩ := pruneFrom_spec listed rfl
  refine ⟨ok, listed', fun id channel found => sound id channel (kept id channel found), ?_, nofun⟩
  rw [Option.toList_none, List.append_nil]
  refine standing_sublist (pruneFrom_suffix _ _ _).sublist fun id member => ?_
  obtain ⟨channel, found⟩ := listed'.lookup member
  have before := kept id channel found
  exact (congrArg _ found).trans (congrArg _ before).symm

theorem openChannel_moves (listed : Listed bank.channels bank.channelQueue)
    (sound : ∀ id channel, bank.channels.lookup id = some channel → channel.Sound) (here : bank.origin = some origin)
    (id : ChannelId) :
    Moves bank (bank.openChannel id origin).1 (if id ∈ bank.channels then none else some (id, origin)) ∧
      (bank.openChannel id origin).1.channels.lookup id = some (bank.openChannel id origin).2 := by
  cases found : bank.channels.lookup id with
  | some channel =>
      have present : id ∈ bank.channels := AList.lookup_isSome.mp (by rw [found]; rfl)
      simp only [openChannel, found, if_pos present]
      exact ⟨.refl listed sound, trivial⟩
  | none =>
      have absent := AList.lookup_eq_none.mp found
      simp only [openChannel, found, if_neg absent]
      refine ⟨⟨listed.opened _ absent, ?_, ?_, ?_⟩, AList.lookup_insert _⟩
      · intro other channel there
        rcases HashMap.lookup_of_lookup_insert there with ⟨-, rfl⟩ | before
        · exact Channel.sound_new id origin
        · exact sound other channel before
      · rw [standing_opened listed absent]
        exact List.Sublist.refl _
      · rintro _ _ ⟨⟩
        exact ⟨absent, here⟩

theorem Moves.stored (listed : Listed bank.channels bank.channelQueue)
    (sound : ∀ id channel, bank.channels.lookup id = some channel → channel.Sound) {id : ChannelId} {channel : Channel}
    (found : bank.channels.lookup id = some channel) (frame : Frame) (origin : BlockInfo) :
    Moves bank { bank with channels := bank.channels.insert id (channel.addFrame frame origin).1 } none where
  listed := listed.insert _ (AList.lookup_isSome.mp (by rw [found]; rfl))
  sound other channel' there := by
    rcases HashMap.lookup_of_lookup_insert there with ⟨-, rfl⟩ | before
    · exact Channel.addFrame_sound (sound id channel found) frame origin
    · exact sound other channel' before
  ordered := by
    rw [Option.toList_none, List.append_nil]
    refine standing_sublist (List.Sublist.refl _) fun other _ => ?_
    by_cases same : other = id
    · rw [same, AList.lookup_insert, found]
      exact congrArg some (Channel.addFrame_openBlock (sound id channel found) frame origin)
    · rw [AList.lookup_insert_ne same]
  fresh := nofun

theorem ingestFrame_moves (bank : ChannelBank P) (listed : Listed bank.channels bank.channelQueue)
    (sound : ∀ id channel, bank.channels.lookup id = some channel → channel.Sound) (here : bank.origin = some origin)
    (frame : Frame) :
    (bank.ingestFrame frame).2 = .ok () ∧
      Moves bank (bank.ingestFrame frame).1 (if frame.id ∈ bank.channels then none else some (frame.id, origin)) := by
  obtain ⟨opened, found⟩ := openChannel_moves listed sound here frame.id
  cases opens : bank.openChannel frame.id origin with
  | mk bank' channel =>
      simp only [opens] at opened found
      cases late : bank'.timedOut channel origin with
      | true =>
          simp only [ingestFrame, here, opens, late, if_true]
          exact ⟨trivial, opened⟩
      | false =>
          have stored := Moves.stored opened.listed opened.sound found frame origin
          rcases Channel.addFrame_cases (opened.sound frame.id channel found) frame origin with
            ⟨e, -, result⟩ | ⟨-, before, result, -⟩
          · rw [result] at stored
            simp only [ingestFrame, here, opens, late, Bool.false_eq_true, if_false, result]
            exact ⟨trivial, opened.trans stored rfl⟩
          · rw [result] at stored
            simp only [ingestFrame, here, opens, late, Bool.false_eq_true, if_false, result]
            obtain ⟨ok, pruned⟩ := prune_moves stored.listed stored.sound
            exact ⟨ok, (opened.trans stored rfl).trans pruned rfl⟩

theorem read_moves (listed : Listed bank.channels bank.channelQueue)
    (sound : ∀ id channel, bank.channels.lookup id = some channel → channel.Sound) (here : bank.origin = some origin) :
    Moves bank bank.read.1 none := by
  rcases read_cases listed here with ⟨first, -, -, result⟩ | ⟨id, data, -, -, -, result⟩ | ⟨-, -, result⟩
  · rw [result]
    exact .without listed sound first
  · rw [result]
    exact .without listed sound id
  · rw [result]
    exact .refl listed sound

structure Ordered (log : List (ChannelId × BlockInfo)) (bank : ChannelBank P) : Prop where
  listed : Listed bank.channels bank.channelQueue
  sound : ∀ id channel, bank.channels.lookup id = some channel → channel.Sound
  ordered : bank.standing.Sublist (latest log)

variable {log : List (ChannelId × BlockInfo)}

theorem read_noOrigin (listed : Listed bank.channels bank.channelQueue) (unset : bank.origin = none)
    (queued : bank.channelQueue ≠ []) : bank.read = (bank, PipelineError.channelProviderEmpty.crit) := by
  cases queue : bank.channelQueue with
  | nil => exact absurd queue queued
  | cons first rest =>
      obtain ⟨channel, found⟩ := listed.lookup (queue ▸ List.mem_cons_self : first ∈ bank.channelQueue)
      simp only [read, queue, found, unset]

theorem Ordered.read_cases (inOrder : Ordered log bank) :
    (∃ data, bank.read.2 = .ok data) ∨ bank.read = (bank, PipelineError.eof.temp) ∨
      (bank.origin = none ∧ bank.channelQueue ≠ [] ∧ bank.read = (bank, PipelineError.channelProviderEmpty.crit)) := by
  by_cases empty : bank.channelQueue = []
  · exact .inr (.inl (read_empty empty))
  · cases here : bank.origin with
    | none => exact .inr (.inr ⟨rfl, empty, read_noOrigin inOrder.listed here empty⟩)
    | some origin =>
        rcases ChannelBank.read_cases inOrder.listed here with
          ⟨_, -, -, result⟩ | ⟨_, data, -, -, -, result⟩ | ⟨-, -, result⟩
        · exact .inl ⟨none, by rw [result]⟩
        · exact .inl ⟨some data, by rw [result]⟩
        · exact .inr (.inl result)

theorem Ordered.read_moves (inOrder : Ordered log bank) : Moves bank bank.read.1 none := by
  by_cases empty : bank.channelQueue = []
  · rw [read_empty empty]
    exact .refl inOrder.listed inOrder.sound
  · cases here : bank.origin with
    | none =>
        rw [read_noOrigin inOrder.listed here empty]
        exact .refl inOrder.listed inOrder.sound
    | some origin => exact ChannelBank.read_moves inOrder.listed inOrder.sound here

theorem Ordered.nextData_cases (inOrder : Ordered log bank) :
    (∃ data, bank.read.2 = .ok data ∧ bank.nextData = bank.read ∧ bank.ingests .nextData = none) ∨
    (bank.origin = none ∧ bank.channelQueue ≠ [] ∧ bank.nextData = bank.read ∧
      bank.read = (bank, PipelineError.channelProviderEmpty.crit) ∧ bank.ingests .nextData = none) ∨
    (∃ prev stop, NextFrameProvider.nextFrame bank.prev = (prev, .error stop) ∧
      bank.read = (bank, PipelineError.eof.temp) ∧
      bank.nextData = ({ bank with prev }, .error stop) ∧ bank.ingests .nextData = none) ∨
    (∃ prev frame, NextFrameProvider.nextFrame bank.prev = (prev, .ok frame) ∧
      bank.read = (bank, PipelineError.eof.temp) ∧
      bank.nextData = (({ bank with prev }.ingestFrame frame).1,
        ({ bank with prev }.ingestFrame frame).2.bind fun () => PipelineError.notEnoughData.temp) ∧
      bank.ingests .nextData = some ({ bank with prev }, frame)) := by
  rcases inOrder.read_cases with ⟨data, reads⟩ | reads | ⟨unset, queued, reads⟩
  · have result : bank.read = (bank.read.1, .ok data) := by rw [← reads]
    refine .inl ⟨data, reads, ?_, ?_⟩
    · rw [nextData, result]
    · rw [ChannelBank.ingests, result]
  · rw [nextData, ChannelBank.ingests, reads]
    dsimp only [PipelineError.temp]
    cases NextFrameProvider.nextFrame bank.prev with
    | mk prev result =>
        cases result with
        | error stop => exact .inr (.inr (.inl ⟨prev, stop, rfl, rfl, rfl, rfl⟩))
        | ok frame => exact .inr (.inr (.inr ⟨prev, frame, rfl, rfl, rfl, rfl⟩))
  · rw [nextData, ChannelBank.ingests, reads]
    exact .inr (.inl ⟨unset, queued, rfl, rfl, rfl⟩)

theorem ingestFrame_noOrigin (unset : bank.origin = none) (frame : Frame) :
    bank.ingestFrame frame = (bank, PipelineError.missingOrigin.crit) := by
  simp only [ingestFrame, unset]

theorem ingest_moves (bank : ChannelBank P) (listed : Listed bank.channels bank.channelQueue)
    (sound : ∀ id channel, bank.channels.lookup id = some channel → channel.Sound) (frame : Frame) :
    Moves bank (bank.ingestFrame frame).1 (match bank.origin with
      | none => none
      | some origin => if frame.id ∈ bank.channels then none else some (frame.id, origin)) := by
  cases here : bank.origin with
  | none =>
      rw [ingestFrame_noOrigin here]
      exact .refl listed sound
  | some origin => exact (ingestFrame_moves bank listed sound here frame).2

theorem Moves.movedPrev {bank' : ChannelBank P} {opened : Option (ChannelId × BlockInfo)} {prev : P}
    (moves : Moves { bank with prev } bank' opened) : Moves bank bank' opened :=
  ⟨moves.listed, moves.sound, moves.ordered, moves.fresh⟩

theorem Ordered.call_moves (inOrder : Ordered log bank) (made : BankCall) :
    Moves bank (bank.call made).1 (bank.opening made) := by
  cases made with
  | ingestFrame frame => exact ingest_moves bank inOrder.listed inOrder.sound frame
  | prune => exact (prune_moves inOrder.listed inOrder.sound).2
  | read => exact inOrder.read_moves
  | nextData =>
      rcases inOrder.nextData_cases with ⟨_, -, result, none⟩ | ⟨-, -, result, -, none⟩ |
        ⟨prev, stop, -, -, result, none⟩ | ⟨prev, frame, -, -, result, some⟩
      · rw [call, opening, result, none]
        exact inOrder.read_moves
      · rw [call, opening, result, none]
        exact inOrder.read_moves
      · rw [call, opening, result, none]
        exact .unopened inOrder.listed inOrder.sound (List.Sublist.refl _)
      · rw [call, opening, result, some]
        exact (ingest_moves { bank with prev } inOrder.listed inOrder.sound frame).movedPrev
  | advanceOrigin => exact .unopened inOrder.listed inOrder.sound (List.Sublist.refl _)
  | signal s =>
      cases signals : Stage.signal bank.prev s with
      | mk prev result =>
          cases result with
          | error e =>
              simp only [call, ChannelBank.signal, signals]
              exact .unopened inOrder.listed inOrder.sound (List.Sublist.refl _)
          | ok done =>
              simp only [call, ChannelBank.signal, signals]
              refine .unopened (sized_new bank.channelTimeout prev).listed ?_ (List.nil_sublist _)
              intro id channel found
              cases found

theorem Ordered.moved (inOrder : Ordered log bank) {bank' : ChannelBank P} {opened : Option (ChannelId × BlockInfo)}
    (moves : Moves bank bank' opened) : Ordered (log ++ opened.toList) bank' where
  listed := moves.listed
  sound := moves.sound
  ordered := by
    apply moves.ordered.trans
    cases opened with
    | none => simpa using inOrder.ordered
    | some entry =>
        obtain ⟨absent, -⟩ := moves.fresh entry.1 entry.2 rfl
        have apart : bank.standing.filter (fun standing => standing.1 ≠ entry.1) = bank.standing := by
          rw [List.filter_eq_self]
          intro standing member
          obtain ⟨id, queued, made⟩ := List.mem_filterMap.mp member
          obtain ⟨channel, found, rfl⟩ := Option.map_eq_some_iff.mp made
          simpa using fun same : id = entry.1 => absent (same ▸ (inOrder.listed.same id).mp queued)
        rw [Option.toList_some, latest_append_singleton, ← apart]
        exact (inOrder.ordered.filter _).append (List.Sublist.refl _)

omit [NextFrameProvider P] in
theorem ordered_new (channelTimeout : UInt64) (prev : P) : Ordered [] (new channelTimeout prev) where
  listed := (sized_new channelTimeout prev).listed
  sound _ _ found := nomatch found
  ordered := List.Sublist.refl []

theorem Ordered.runs (inOrder : Ordered log bank) (calls : List BankCall) :
    Ordered (log ++ bank.openings calls) (run call bank calls) := by
  induction calls generalizing log bank with
  | nil => simpa [openings] using inOrder
  | cons made calls ih =>
      have next := ih (inOrder.moved (inOrder.call_moves made))
      rw [List.append_assoc] at next
      exact next

theorem ordered_run (channelTimeout : UInt64) (prev : P) (calls : List BankCall) :
    Ordered ((new channelTimeout prev).openings calls) (run call (new channelTimeout prev) calls) :=
  (ordered_new channelTimeout prev).runs calls

theorem Ordered.known_run (inOrder : Ordered log bank) (known : bank.channelQueue ≠ [] → bank.origin.isSome = true)
    {calls : List BankCall} (stays : Along call OriginStays bank calls) :
    (run call bank calls).channelQueue ≠ [] → (run call bank calls).origin.isSome = true := by
  induction calls generalizing log bank with
  | nil => exact known
  | cons made calls ih =>
      have moves := inOrder.call_moves made
      apply ih (inOrder.moved moves) ?_ stays.2
      intro queued
      cases opened : bank.opening made with
      | some entry =>
          rw [(moves.fresh entry.1 entry.2 opened).2]
          rfl
      | none =>
          apply stays.1
          apply known
          intro empty
          have nothing : (bank.call made).1.standing = [] := by simpa [standing, empty, opened] using moves.ordered
          rw [← standing_ids moves.listed, nothing] at queued
          exact queued rfl

/-- After any calls, with origins that are not taken away again, the queue lists exactly the channels of the
map, each once and in the order of its opening. So `prune` and `read` find every channel they look for, and
with an origin a failure of `next_data` is that it has not enough data or is the previous stage's. -/
theorem queue_in_step (channelTimeout : UInt64) (prev : P) (calls : List BankCall)
    (stays : Along call OriginStays (new channelTimeout prev) calls) {bank : ChannelBank P}
    (reached : run call (new channelTimeout prev) calls = bank) :
    bank.channelQueue.Nodup ∧ (∀ id, id ∈ bank.channelQueue ↔ id ∈ bank.channels) ∧
      bank.channelQueue.Sublist ((latest ((new channelTimeout prev).openings calls)).map Prod.fst) ∧
      bank.prune.2 = .ok () ∧
      ((∃ data, bank.read.2 = .ok data) ∨ bank.read.2 = PipelineError.eof.temp) ∧
      (bank.origin.isSome = true → bank.OriginStays .nextData → ∀ stop, bank.nextData.2 = .error stop →
        stop = .error (.temporary .notEnoughData) ∨ (NextFrameProvider.nextFrame bank.prev).2 = .error stop) := by
  have inOrder := ordered_run channelTimeout prev calls
  have known := (ordered_new channelTimeout prev).known_run (fun queued => absurd rfl queued) stays
  rw [reached] at inOrder known
  refine ⟨inOrder.listed.distinct, inOrder.listed.same, ?_, (prune_moves inOrder.listed inOrder.sound).1, ?_, ?_⟩
  · rw [← standing_ids inOrder.listed]
    exact inOrder.ordered.map Prod.fst
  · rcases inOrder.read_cases with reads | reads | ⟨unset, queued, -⟩
    · exact .inl reads
    · exact .inr (by rw [reads])
    · rw [unset] at known
      cases known queued
  · intro here stays' stop fails
    rcases inOrder.nextData_cases with ⟨data, reads, result, -⟩ | ⟨unset, -⟩ | ⟨prev', stop', pulls, -, result, -⟩ |
      ⟨prev', frame, pulls, -, result, -⟩
    · rw [result, reads] at fails
      cases fails
    · rw [unset] at here
      cases here
    · rw [result] at fails
      cases fails
      exact .inr (by rw [pulls])
    · cases here' : ChannelBank.origin { bank with prev := prev' } with
      | none =>
          have kept := stays' here
          rw [call, result, ingestFrame_noOrigin here', here'] at kept
          cases kept
      | some origin =>
          have ingested := (ingestFrame_moves { bank with prev := prev' } inOrder.listed inOrder.sound here' frame).1
          rw [result, ingested] at fails
          cases fails
          exact .inl rfl

end ChannelBank

/-! ## Two channels -/

structure Frames where
  block : BlockInfo
  frames : List Frame

instance : NextFrameProvider Frames where
  origin stage := some stage.block
  advanceOrigin stage := ({ stage with block := { stage.block with number := stage.block.number + 1 } }, .ok ())
  signal stage _ := (stage, .ok ())
  nextFrame stage :=
    match stage.frames with
    | [] => (stage, PipelineError.eof.temp)
    | frame :: frames => ({ stage with frames }, .ok frame)

def repeatedId (byte : UInt8) : ChannelId := ⟨List.replicate 16 byte, List.length_replicate⟩

def firstChannel : ChannelId := repeatedId 1

def secondChannel : ChannelId := repeatedId 2

def twoChannels : Frames :=
  ⟨⟨.ofNat 0, 5, .ofNat 0, 0⟩, [⟨firstChannel, 0, [1], false⟩, ⟨secondChannel, 0, [2], true⟩, ⟨firstChannel, 1, [3], true⟩]⟩

def twoPulls : List ChannelBank.BankCall := [.nextData, .nextData]

theorem queue_in_step_two_channels :
    (run ChannelBank.call (ChannelBank.new 10 twoChannels) twoPulls).channelQueue = [firstChannel, secondChannel] ∧
      ∀ id, id ∈ (run ChannelBank.call (ChannelBank.new 10 twoChannels) twoPulls).channelQueue ↔
        id ∈ (run ChannelBank.call (ChannelBank.new 10 twoChannels) twoPulls).channels :=
  ⟨by decide, (ChannelBank.queue_in_step 10 twoChannels twoPulls ⟨fun _ => rfl, fun _ => rfl, trivial⟩ rfl).2.1⟩

end KonaSoon.Derive
