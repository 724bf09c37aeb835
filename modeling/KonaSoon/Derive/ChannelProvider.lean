import KonaSoon.Da.Assembly
import KonaSoon.Derive.BankService
import KonaSoon.Derive.FrameQueue

/-!
# The channel provider

`ChannelProvider` (`derive/src/stages/channel/channel_provider.rs`) chooses between `ChannelBank` and
`ChannelAssembler` (`channel_assembler.rs`), and always chooses the bank. Over the frame queue, the data that it hands
on is that of frames which the data of the previous stage contains.
-/

namespace KonaSoon.Derive
open Lib Mpt Da

structure ChannelConfig where
  channelTimeout : UInt64
  channelSize : UInt64

structure ChannelAssembler (P : Type) where
  cfg : ChannelConfig
  prev : P
  channel : Option Channel

namespace ChannelAssembler

variable {P : Type} [NextFrameProvider P]

def new (cfg : ChannelConfig) (prev : P) : ChannelAssembler P := ⟨cfg, prev, none⟩

def origin (assembler : ChannelAssembler P) : Option BlockInfo := Stage.origin assembler.prev

def isTimedOut (assembler : ChannelAssembler P) : PipelineResult Bool :=
  match assembler.origin with
  | none => PipelineError.missingOrigin.crit
  | some origin => .ok (assembler.channel.elim false fun channel =>
      channel.openBlock.number + assembler.cfg.channelTimeout < origin.number)

def assemble (assembler : ChannelAssembler P) (frame : Frame) (origin : BlockInfo) :
    ChannelAssembler P × PipelineResult (Option (List UInt8)) :=
  match assembler.channel with
  | none => (assembler, PipelineError.notEnoughData.temp)
  | some channel =>
      match channel.addFrame frame origin with
      | (channel, .error (.error _)) => ({ assembler with channel := some channel }, PipelineError.notEnoughData.temp)
      | (channel, .error .panic) => ({ assembler with channel := some channel }, .error .panic)
      | (channel, .error .outOfFuel) => ({ assembler with channel := some channel }, .error .outOfFuel)
      | (channel, .ok ()) =>
          if channel.size > assembler.cfg.channelSize.toNat then
            ({ assembler with channel := none }, PipelineError.notEnoughData.temp)
          else if channel.isReady then
            match channel.frameData with
            | none => ({ assembler with channel := some channel }, PipelineError.channelNotFound.crit)
            | some channelBytes => ({ assembler with channel := none }, .ok (some channelBytes))
          else ({ assembler with channel := some channel }, PipelineError.notEnoughData.temp)

def nextData (assembler : ChannelAssembler P) : ChannelAssembler P × PipelineResult (Option (List UInt8)) :=
  match assembler.origin with
  | none => (assembler, PipelineError.missingOrigin.crit)
  | some origin =>
      match assembler.isTimedOut with
      | .error e => (assembler, .error e)
      | .ok late =>
          let assembler := if late then { assembler with channel := none } else assembler
          match NextFrameProvider.nextFrame assembler.prev with
          | (prev, .error e) => ({ assembler with prev }, .error e)
          | (prev, .ok frame) =>
              let assembler := { assembler with prev }
              -- A frame with number zero starts a channel of its own.
              let assembler := if frame.number = 0 then { assembler with channel := some (Channel.new frame.id origin) } else assembler
              assembler.assemble frame origin

def advanceOrigin (assembler : ChannelAssembler P) : ChannelAssembler P × PipelineResult Unit :=
  let (prev, result) := Stage.advanceOrigin assembler.prev
  ({ assembler with prev }, result)

def signal (assembler : ChannelAssembler P) (s : Signal) : ChannelAssembler P × PipelineResult Unit :=
  match Stage.signal assembler.prev s with
  | (prev, .error e) => ({ assembler with prev }, .error e)
  | (prev, .ok ()) => ({ assembler with prev, channel := none }, .ok ())

end ChannelAssembler

structure ChannelProvider (P : Type) where
  cfg : ChannelConfig
  prev : Option P
  channelBank : Option (ChannelBank P)
  channelAssembler : Option (ChannelAssembler P)

namespace ChannelProvider

section Mux

variable {P : Type} [NextFrameProvider P]

def new (cfg : ChannelConfig) (prev : P) : ChannelProvider P := ⟨cfg, some prev, none, none⟩

def attemptUpdate (provider : ChannelProvider P) : ChannelProvider P :=
  match provider.prev with
  | some prev => { provider with prev := none, channelBank := some (.new provider.cfg.channelTimeout prev) }
  | none => provider

def delegate {α : Type} (assemble : ChannelAssembler P → ChannelAssembler P × PipelineResult α)
    (bank : ChannelBank P → ChannelBank P × PipelineResult α) (provider : ChannelProvider P) :
    ChannelProvider P × PipelineResult α :=
  let provider := provider.attemptUpdate
  match provider.channelAssembler with
  | some channelAssembler =>
      let (channelAssembler, result) := assemble channelAssembler
      ({ provider with channelAssembler := some channelAssembler }, result)
  | none =>
      match provider.channelBank with
      | some channelBank =>
          let (channelBank, result) := bank channelBank
          ({ provider with channelBank := some channelBank }, result)
      | none => (provider, PipelineError.notEnoughData.temp)

def origin (provider : ChannelProvider P) : Option BlockInfo :=
  match provider.channelAssembler with
  | some channelAssembler => channelAssembler.origin
  | none =>
      match provider.channelBank with
      | some channelBank => channelBank.origin
      | none => provider.prev.bind Stage.origin

def advanceOrigin : ChannelProvider P → ChannelProvider P × PipelineResult Unit :=
  delegate ChannelAssembler.advanceOrigin ChannelBank.advanceOrigin

def signal (provider : ChannelProvider P) (s : Signal) : ChannelProvider P × PipelineResult Unit :=
  provider.delegate (·.signal s) (·.signal s)

def nextData : ChannelProvider P → ChannelProvider P × PipelineResult (Option (List UInt8)) :=
  delegate ChannelAssembler.nextData ChannelBank.nextData

def Serving (provider : ChannelProvider P) (bank : ChannelBank P) : Prop :=
  provider.channelAssembler = none ∧ provider.attemptUpdate.channelBank = some bank

omit [NextFrameProvider P] in
theorem serving_new (cfg : ChannelConfig) (prev : P) : Serving (new cfg prev) (.new cfg.channelTimeout prev) := ⟨rfl, rfl⟩

omit [NextFrameProvider P] in
theorem Serving.delegate {α : Type} {provider : ChannelProvider P} {bank : ChannelBank P} (serving : Serving provider bank)
    (assemble : ChannelAssembler P → ChannelAssembler P × PipelineResult α)
    (ask : ChannelBank P → ChannelBank P × PipelineResult α) :
    (provider.delegate assemble ask).2 = (ask bank).2 ∧ Serving (provider.delegate assemble ask).1 (ask bank).1 := by
  obtain ⟨unused, active⟩ := serving
  have updated : provider.attemptUpdate.channelAssembler = none ∧ provider.attemptUpdate.prev = none := by
    unfold attemptUpdate
    cases held : provider.prev with
    | some prev => exact ⟨unused, rfl⟩
    | none => exact ⟨unused, held⟩
  unfold ChannelProvider.delegate
  generalize provider.attemptUpdate = now at updated active
  simp only [updated.1, active]
  refine ⟨trivial, rfl, ?_⟩
  simp only [attemptUpdate, updated.2]

end Mux

end ChannelProvider

/-! ## What the bank holds -/

namespace ChannelBank

section Accounts

variable {P : Type} {bank : ChannelBank P}

def copies (bank : ChannelBank P) (frame : Frame) : Nat := bank.channels.total fun channel => channel.copies frame

def Filed (bank : ChannelBank P) : Prop :=
  ∀ id channel, bank.channels.lookup id = some channel → channel.Filed ∧ channel.id = id

theorem filed_new (channelTimeout : UInt64) (prev : P) : (new channelTimeout prev).Filed := nofun

theorem Filed.without (filed : bank.Filed) (id : ChannelId) : (bank.without id).Filed := fun other channel found =>
  filed other channel (HashMap.lookup_of_lookup_erase found).2

theorem copies_without {id : ChannelId} {channel : Channel} (found : bank.channels.lookup id = some channel) (frame : Frame) :
    (bank.without id).copies frame + channel.copies frame = bank.copies frame :=
  HashMap.total_erase (fun channel => channel.copies frame) found

theorem copies_without_le (id : ChannelId) (frame : Frame) : (bank.without id).copies frame ≤ bank.copies frame :=
  HashMap.total_erase_le _ _ _

theorem pruneFrom_within (channels : HashMap ChannelId Channel) (totalSize : Nat) (queue : List ChannelId) :
    (∀ id channel, (pruneFrom channels totalSize queue).1.lookup id = some channel → channels.lookup id = some channel) ∧
      ∀ size : Channel → Nat, (pruneFrom channels totalSize queue).1.total size ≤ channels.total size := by
  induction queue generalizing channels totalSize with
  | nil => exact ⟨fun _ _ here => here, fun _ => Nat.le_refl _⟩
  | cons id queue ih =>
      rw [pruneFrom]
      split
      · split
        · exact ⟨fun _ _ here => here, fun _ => Nat.le_refl _⟩
        · split
          · rename_i channel _ _
            obtain ⟨kept, less⟩ := ih (channels.erase id) (totalSize - channel.size)
            exact ⟨fun other channel here => (HashMap.lookup_of_lookup_erase (kept other channel here)).2,
              fun size => (less size).trans (HashMap.total_erase_le size channels id)⟩
          · exact ⟨fun other channel here => (HashMap.lookup_of_lookup_erase here).2,
              fun size => HashMap.total_erase_le size channels id⟩
      · exact ⟨fun _ _ here => here, fun _ => Nat.le_refl _⟩

theorem openChannel_accounts (filed : bank.Filed)
    (sound : ∀ id channel, bank.channels.lookup id = some channel → channel.Sound) (id : ChannelId) (origin : BlockInfo) :
    (bank.openChannel id origin).1.Filed ∧ (bank.openChannel id origin).2.Sound ∧
      (bank.openChannel id origin).1.channels.lookup id = some (bank.openChannel id origin).2 ∧
      ∀ frame, (bank.openChannel id origin).1.copies frame = bank.copies frame := by
  unfold openChannel
  cases found : bank.channels.lookup id with
  | some channel => exact ⟨filed, sound id channel found, found, fun _ => rfl⟩
  | none =>
      refine ⟨fun other channel here => ?_, Channel.sound_new id origin, AList.lookup_insert _, fun frame => ?_⟩
      · rcases HashMap.lookup_of_lookup_insert here with ⟨rfl, rfl⟩ | before
        · exact ⟨Channel.filed_new other origin, rfl⟩
        · exact filed other channel before
      · have nothing : (Channel.new id origin).copies frame = 0 := rfl
        rw [copies, HashMap.total_insert, nothing, HashMap.erase_eq_self (AList.lookup_eq_none.mp found), Nat.zero_add, copies]

theorem addFrame_accounts (filed : bank.Filed) {id : ChannelId} {channel : Channel}
    (found : bank.channels.lookup id = some channel) (sound : channel.Sound) (frame : Frame) (origin : BlockInfo) :
    Filed { bank with channels := bank.channels.insert id (channel.addFrame frame origin).1 } ∧
      ∀ other, copies { bank with channels := bank.channels.insert id (channel.addFrame frame origin).1 } other ≤
        bank.copies other + if frame = other then 1 else 0 := by
  obtain ⟨channelFiled, sameId⟩ := filed id channel found
  obtain ⟨after, kept, grows⟩ := Channel.addFrame_filed sound channelFiled frame origin
  refine ⟨fun other channel' here => ?_, fun other => ?_⟩
  · rcases HashMap.lookup_of_lookup_insert here with ⟨rfl, rfl⟩ | before
    · exact ⟨after, kept.trans sameId⟩
    · exact filed other channel' before
  · have total := HashMap.total_erase (fun channel => channel.copies other) found
    have more := grows other
    rw [copies, HashMap.total_insert, copies]
    omega

variable [NextFrameProvider P] {log : List (ChannelId × BlockInfo)}

theorem ingestFrame_accounts (sound : ∀ id channel, bank.channels.lookup id = some channel → channel.Sound)
    (filed : bank.Filed) (frame : Frame) : (bank.ingestFrame frame).1.Filed ∧
      ∀ other, (bank.ingestFrame frame).1.copies other ≤ bank.copies other + if frame = other then 1 else 0 := by
  unfold ingestFrame
  cases bank.origin with
  | none => exact ⟨filed, fun other => Nat.le_add_right _ _⟩
  | some origin =>
      obtain ⟨openedFiled, openedSound, found, same⟩ := openChannel_accounts filed sound frame.id origin
      dsimp only
      generalize bank.openChannel frame.id origin = opened at openedFiled openedSound found same
      obtain ⟨opened, channel⟩ := opened
      dsimp only at openedFiled openedSound found same ⊢
      split
      · exact ⟨openedFiled, fun other => by rw [same]; exact Nat.le_add_right _ _⟩
      · have stored := addFrame_accounts openedFiled found openedSound frame origin
        simp only [same] at stored
        generalize channel.addFrame frame origin = added at stored
        obtain ⟨after, result⟩ := added
        cases result with
        | error stop => cases stop <;> exact stored
        | ok done =>
            obtain ⟨kept, less⟩ := pruneFrom_within (opened.channels.insert frame.id after)
              (size { opened with channels := opened.channels.insert frame.id after }) opened.channelQueue
            exact ⟨fun id channel here => stored.1 id channel (kept id channel here),
              fun other => (less fun channel => channel.copies other).trans (stored.2 other)⟩

theorem Ordered.read_accounts (inOrder : Ordered log bank) (filed : bank.Filed) :
    bank.read.1.prev = bank.prev ∧ bank.read.1.Filed ∧ ∀ other, bank.read.1.copies other ≤ bank.copies other := by
  cases here : bank.origin with
  | none =>
      have same : bank.read.1 = bank := by
        by_cases empty : bank.channelQueue = []
        · rw [read_empty empty]
        · rw [read_noOrigin inOrder.listed here empty]
      rw [same]
      exact ⟨rfl, filed, fun other => Nat.le_refl _⟩
  | some origin =>
      rcases ChannelBank.read_cases inOrder.listed here with ⟨id, -, -, result⟩ | ⟨id, data, -, -, -, result⟩ | ⟨-, -, result⟩
      · rw [result]
        exact ⟨rfl, filed.without id, copies_without_le id⟩
      · rw [result]
        exact ⟨rfl, filed.without id, copies_without_le id⟩
      · rw [result]
        exact ⟨rfl, filed, fun other => Nat.le_refl _⟩

theorem Ordered.nextData_accounts (inOrder : Ordered log bank) (filed : bank.Filed) :
    bank.nextData.1.Filed ∧ ∃ frames,
      (∀ other, frames.count other + bank.nextData.1.copies other ≤ bank.copies other +
        (bank.ingests .nextData).elim 0 fun ingested => if ingested.2 = other then 1 else 0) ∧
      ((bank.returned .nextData = none ∧ frames = []) ∨
        ∃ id data, bank.returned .nextData = some data ∧ Assembles id frames data) := by
  cases returns : bank.returned .nextData with
  | some data =>
      obtain ⟨origin, id, -, next, -, ⟨channel, found, collected⟩, after⟩ := inOrder.returned_served returns
      have left : bank.nextData.1 = bank.without id := after
      obtain ⟨channelFiled, sameId⟩ := filed id channel found
      have ready : channel.isReady = true := by
        have isReady := List.find?_some next
        simp only [ChannelBank.ready, found, Bool.and_eq_true] at isReady
        exact isReady.2
      obtain ⟨frames, assembles, held⟩ := Channel.assembles_of_ready channelFiled ready collected
      rw [left]
      refine ⟨filed.without id, frames, fun other => ?_, .inr ⟨channel.id, data, rfl, assembles⟩⟩
      have total := copies_without found other
      have within := held other
      omega
  | none =>
      have kept : bank.nextData.1.Filed ∧ ∀ other, bank.nextData.1.copies other ≤ bank.copies other +
          (bank.ingests .nextData).elim 0 fun ingested => if ingested.2 = other then 1 else 0 := by
        rcases inOrder.nextData_cases with ⟨data, reads, same, nothing⟩ | ⟨-, -, same, reads, nothing⟩ |
          ⟨prev, stop, -, -, same, nothing⟩ | ⟨prev, frame, -, -, same, ingested⟩
        · rw [same, nothing]
          exact (inOrder.read_accounts filed).2
        · rw [same, reads, nothing]
          exact ⟨filed, fun other => Nat.le_refl _⟩
        · rw [same, nothing]
          exact ⟨filed, fun other => Nat.le_refl _⟩
        · rw [same, ingested]
          exact @ingestFrame_accounts P { bank with prev } _ inOrder.sound filed frame
      exact ⟨kept.1, [], fun other => by rw [List.count_nil, Nat.zero_add]; exact kept.2 other, .inl ⟨rfl, rfl⟩⟩

theorem ingestFrame_prev (bank : ChannelBank P) (frame : Frame) : (bank.ingestFrame frame).1.prev = bank.prev := by
  unfold ingestFrame
  cases bank.origin with
  | none => rfl
  | some origin =>
      have opened : (bank.openChannel frame.id origin).1.prev = bank.prev := by
        unfold openChannel
        split <;> rfl
      dsimp only
      split
      · exact opened
      · split <;> exact opened

end Accounts

section Stock

variable {Q : Type} [FrameQueueProvider Q] {bank : ChannelBank (FrameQueue Q)} {log : List (ChannelId × BlockInfo)}

def stock (bank : ChannelBank (FrameQueue Q)) (frame : Frame) : Nat := bank.copies frame + bank.prev.queue.count frame

omit [FrameQueueProvider Q] in
theorem stock_new (channelTimeout : UInt64) (prev : Q) (frame : Frame) :
    (new channelTimeout (FrameQueue.new prev)).stock frame = 0 := rfl

/-- The data that a call of `next_data` takes from the stage before the frame queue. -/
def pulls (bank : ChannelBank (FrameQueue Q)) : List (List UInt8) :=
  match bank.read.2 with
  | .error (.error (.temporary .eof)) => bank.prev.takes
  | _ => []

theorem queue_of_nextFrame {queue after : FrameQueue Q} {result : PipelineResult Frame}
    (pulled : NextFrameProvider.nextFrame queue = (after, result)) (frame : Frame) :
    result.toOption.toList.count frame + after.queue.count frame =
      queue.queue.count frame + (queue.takes.flatMap framesOf).count frame := by
  have passed : queue.nextFrame.2.toOption.toList ++ queue.nextFrame.1.queue = queue.queue ++ queue.takes.flatMap framesOf :=
    queue.nextFrame_queue
  have same : queue.nextFrame = (after, result) := pulled
  rw [same] at passed
  rw [← List.count_append, ← List.count_append, passed]

theorem Ordered.nextData_stock (inOrder : Ordered log bank) (filed : bank.Filed) :
    bank.nextData.1.Filed ∧ ∃ frames,
      (∀ other, frames.count other + bank.nextData.1.stock other ≤
        bank.stock other + (bank.pulls.flatMap framesOf).count other) ∧
      ((bank.returned .nextData = none ∧ frames = []) ∨
        ∃ id data, bank.returned .nextData = some data ∧ Assembles id frames data) := by
  obtain ⟨after, frames, accounts, handed⟩ := inOrder.nextData_accounts filed
  refine ⟨after, frames, fun other => ?_, handed⟩
  have account := accounts other
  rcases inOrder.nextData_cases with ⟨data, reads, same, nothing⟩ | ⟨-, -, same, reads, nothing⟩ |
    ⟨prev, stop, pulled, reads, same, nothing⟩ | ⟨prev, frame, pulled, reads, same, ingested⟩
  · have before : bank.nextData.1.prev = bank.prev := by
      rw [same]
      exact (inOrder.read_accounts filed).1
    rw [nothing, Option.elim_none] at account
    rw [stock, stock, before]
    omega
  · have before : bank.nextData.1.prev = bank.prev := by rw [same, reads]
    rw [nothing, Option.elim_none] at account
    rw [stock, stock, before]
    omega
  · have before : bank.nextData.1.prev = prev := by rw [same]
    have pulling : bank.pulls = bank.prev.takes := by
      rw [pulls, reads]
      rfl
    have queued := queue_of_nextFrame pulled other
    have none_ : (Except.error stop : PipelineResult Frame).toOption.toList.count other = 0 := rfl
    rw [nothing, Option.elim_none] at account
    rw [stock, stock, before, pulling]
    omega
  · have before : bank.nextData.1.prev = prev := by rw [same, ingestFrame_prev]
    have pulling : bank.pulls = bank.prev.takes := by
      rw [pulls, reads]
      rfl
    have queued := queue_of_nextFrame pulled other
    have one : (Except.ok frame : PipelineResult Frame).toOption.toList.count other = if frame = other then 1 else 0 := by
      simp only [Except.toOption, Option.toList_some, List.count_singleton, beq_iff_eq]
    rw [ingested, Option.elim_some] at account
    dsimp only at account
    rw [stock, stock, before, pulling]
    omega

theorem signal_stock (filed : bank.Filed) (s : Signal) :
    (bank.signal s).1.Filed ∧ ∀ other, (bank.signal s).1.stock other ≤ bank.stock other := by
  have prev : Stage.signal bank.prev s = bank.prev.signal s := rfl
  unfold ChannelBank.signal
  rw [prev, FrameQueue.signal]
  cases Stage.signal bank.prev.prev s with
  | mk prev result =>
      cases result with
      | error e => exact ⟨filed, fun other => Nat.le_refl _⟩
      | ok done => exact ⟨nofun, fun other => Nat.zero_le _⟩

end Stock

end ChannelBank

/-! ## Runs -/

inductive ProviderCall where
  | nextData
  | advanceOrigin
  | signal (s : Signal)

namespace ChannelProvider

variable {Q : Type} [FrameQueueProvider Q] {bank : ChannelBank (FrameQueue Q)} {log : List (ChannelId × BlockInfo)}

def call (provider : ChannelProvider (FrameQueue Q)) :
    ProviderCall → ChannelProvider (FrameQueue Q) × PipelineResult (Option (List UInt8))
  | .nextData => provider.nextData
  | .advanceOrigin => provider.advanceOrigin.map id fun result => result.map fun () => none
  | .signal s => (provider.signal s).map id fun result => result.map fun () => none

def takes (provider : ChannelProvider (FrameQueue Q)) : ProviderCall → List (List UInt8)
  | .nextData => provider.attemptUpdate.channelBank.elim [] ChannelBank.pulls
  | _ => []

def handed : ChannelProvider (FrameQueue Q) → List ProviderCall → List (List UInt8)
  | _, [] => []
  | provider, made :: calls => (provider.call made).2.toOption.join.toList ++ handed (provider.call made).1 calls

def taken : ChannelProvider (FrameQueue Q) → List ProviderCall → List (List UInt8)
  | _, [] => []
  | provider, made :: calls => provider.takes made ++ taken (provider.call made).1 calls

structure Sorted (provider : ChannelProvider (FrameQueue Q)) (bank : ChannelBank (FrameQueue Q))
    (log : List (ChannelId × BlockInfo)) : Prop where
  serving : Serving provider bank
  inOrder : ChannelBank.Ordered log bank
  filed : bank.Filed

omit [FrameQueueProvider Q] in
theorem sorted_new (cfg : ChannelConfig) (prev : Q) :
    Sorted (new cfg (FrameQueue.new prev)) (.new cfg.channelTimeout (FrameQueue.new prev)) [] :=
  ⟨serving_new cfg _, ChannelBank.ordered_new _ _, ChannelBank.filed_new _ _⟩

theorem Sorted.nextData {provider : ChannelProvider (FrameQueue Q)} (sorted : Sorted provider bank log) :
    ∃ bank' log' frames, Sorted provider.nextData.1 bank' log' ∧
      (∀ other, frames.count other + bank'.stock other ≤
        bank.stock other + ((provider.takes .nextData).flatMap framesOf).count other) ∧
      ((provider.nextData.2.toOption.join = none ∧ frames = []) ∨
        ∃ id data, provider.nextData.2.toOption.join = some data ∧ Assembles id frames data) := by
  obtain ⟨result, serving⟩ := sorted.serving.delegate ChannelAssembler.nextData ChannelBank.nextData
  obtain ⟨filed, frames, accounts, handed⟩ := sorted.inOrder.nextData_stock sorted.filed
  have moved := sorted.inOrder.moved (sorted.inOrder.call_moves .nextData)
  have takes : provider.takes .nextData = bank.pulls := by
    rw [ChannelProvider.takes, sorted.serving.2, Option.elim_some]
  refine ⟨bank.nextData.1, _, frames, ⟨serving, moved, filed⟩, by rw [takes]; exact accounts, ?_⟩
  have same : provider.nextData.2.toOption.join = bank.returned .nextData := congrArg (fun r => r.toOption.join) result
  rw [same]
  exact handed

omit [FrameQueueProvider Q] in
theorem Sorted.quiet {α : Type} {provider : ChannelProvider (FrameQueue Q)} (sorted : Sorted provider bank log)
    (assemble : ChannelAssembler (FrameQueue Q) → ChannelAssembler (FrameQueue Q) × PipelineResult α)
    (ask : ChannelBank (FrameQueue Q) → ChannelBank (FrameQueue Q) × PipelineResult α) {log' : List (ChannelId × BlockInfo)}
    (inOrder : ChannelBank.Ordered log' (ask bank).1) (filed : (ask bank).1.Filed)
    (less : ∀ other, (ask bank).1.stock other ≤ bank.stock other) :
    ∃ bank' log', Sorted (provider.delegate assemble ask).1 bank' log' ∧ ∀ other, bank'.stock other ≤ bank.stock other :=
  ⟨(ask bank).1, log', ⟨(sorted.serving.delegate assemble ask).2, inOrder, filed⟩, less⟩

theorem Sorted.call {provider : ChannelProvider (FrameQueue Q)} (sorted : Sorted provider bank log) (made : ProviderCall) :
    ∃ bank' log' frames, Sorted (provider.call made).1 bank' log' ∧
      (∀ other, frames.count other + bank'.stock other ≤
        bank.stock other + ((provider.takes made).flatMap framesOf).count other) ∧
      (((provider.call made).2.toOption.join = none ∧ frames = []) ∨
        ∃ id data, (provider.call made).2.toOption.join = some data ∧ Assembles id frames data) := by
  have silent {result : PipelineResult Unit} :
      (result.map fun () => (none : Option (List UInt8))).toOption.join = none := by
    cases result with
    | error e => rfl
    | ok done => rfl
  cases made with
  | nextData => exact sorted.nextData
  | advanceOrigin =>
      have moved := sorted.inOrder.moved (sorted.inOrder.call_moves .advanceOrigin)
      obtain ⟨bank', log', after, less⟩ := sorted.quiet ChannelAssembler.advanceOrigin ChannelBank.advanceOrigin moved sorted.filed
        fun other => Nat.le_refl (bank.stock other)
      refine ⟨bank', log', [], after, fun other => ?_, .inl ⟨silent, rfl⟩⟩
      have fewer := less other
      rw [List.count_nil]
      omega
  | signal s =>
      have moved := sorted.inOrder.moved (sorted.inOrder.call_moves (.signal s))
      obtain ⟨filed, less⟩ := ChannelBank.signal_stock sorted.filed s
      obtain ⟨bank', log', after, less⟩ := sorted.quiet (·.signal s) (·.signal s) moved filed less
      refine ⟨bank', log', [], after, fun other => ?_, .inl ⟨silent, rfl⟩⟩
      have fewer := less other
      rw [List.count_nil]
      omega

theorem Sorted.run {provider : ChannelProvider (FrameQueue Q)} (sorted : Sorted provider bank log)
    (calls : List ProviderCall) : ∃ assembled : List (List Frame),
      List.Forall₂ (fun frames data => ∃ id, Assembles id frames data) assembled (handed provider calls) ∧
      ∀ frame, assembled.flatten.count frame ≤
        bank.stock frame + ((taken provider calls).flatMap framesOf).count frame := by
  induction calls generalizing provider bank log with
  | nil => exact ⟨[], .nil, fun frame => Nat.zero_le _⟩
  | cons made calls ih =>
      obtain ⟨bank', log', frames, after, accounts, ended⟩ := sorted.call made
      obtain ⟨assembled, assembles, less⟩ := ih after
      have total (frame : Frame) : (frames ++ assembled.flatten).count frame ≤
          bank.stock frame + ((taken provider (made :: calls)).flatMap framesOf).count frame := by
        have account := accounts frame
        have later := less frame
        rw [taken, List.flatMap_append, List.count_append, List.count_append]
        omega
      rcases ended with ⟨nothing, rfl⟩ | ⟨id, data, given, assembles'⟩
      · refine ⟨assembled, ?_, total⟩
        rw [handed, nothing]
        exact assembles
      · refine ⟨frames :: assembled, ?_, total⟩
        rw [handed, given]
        exact .cons ⟨id, assembles'⟩ assembles

/-- In every run the data that is handed on is assembled from frames that the data taken contains, and no frame is
used more often than it is contained, whatever resets there are in between. -/
theorem handed_from_taken (cfg : ChannelConfig) (prev : Q) (calls : List ProviderCall) :
    ∃ assembled : List (List Frame),
      List.Forall₂ (fun frames data => ∃ id, Assembles id frames data) assembled
        (handed (new cfg (FrameQueue.new prev)) calls) ∧
      ∀ frame, assembled.flatten.count frame ≤
        ((taken (new cfg (FrameQueue.new prev)) calls).flatMap framesOf).count frame := by
  obtain ⟨assembled, assembles, less⟩ := (sorted_new cfg prev).run calls
  refine ⟨assembled, assembles, fun frame => (less frame).trans ?_⟩
  rw [ChannelBank.stock_new, Nat.zero_add]

end ChannelProvider

end KonaSoon.Derive
