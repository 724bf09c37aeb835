import KonaSoon.Derive.ChannelBank

namespace KonaSoon.Derive
open Lib Mpt Da

namespace ChannelBank

variable {P : Type} {bank : ChannelBank P}

structure Listed (channels : HashMap ChannelId Channel) (queue : List ChannelId) : Prop where
  distinct : queue.Nodup
  same : ∀ id, id ∈ queue ↔ id ∈ channels

variable {channels : HashMap ChannelId Channel} {queue : List ChannelId}

theorem Listed.tail {id : ChannelId} (listed : Listed channels (id :: queue)) : Listed (channels.erase id) queue := by
  obtain ⟨fresh, distinct⟩ := List.nodup_cons.mp listed.distinct
  refine ⟨distinct, fun other => ?_⟩
  rw [AList.mem_erase, ← listed.same, List.mem_cons]
  constructor
  · intro member
    exact ⟨fun same => fresh (same ▸ member), .inr member⟩
  · rintro ⟨differs, same | member⟩
    · exact absurd same differs
    · exact member

theorem Listed.eraseIdx (listed : Listed channels queue) {index : Nat} {id : ChannelId} (here : queue[index]? = some id) :
    Listed (channels.erase id) (queue.eraseIdx index) := by
  obtain ⟨bound, rfl⟩ := List.getElem?_eq_some_iff.mp here
  refine ⟨listed.distinct.eraseIdx index, fun other => ?_⟩
  rw [← List.erase_eq_eraseIdx_of_idxOf (listed.distinct.idxOf_getElem index bound), listed.distinct.mem_erase_iff,
    AList.mem_erase, listed.same]

theorem Listed.opened (listed : Listed channels queue) {id : ChannelId} (channel : Channel) (absent : id ∉ channels) :
    Listed (channels.insert id channel) (queue ++ [id]) := by
  constructor
  · refine List.nodup_append.mpr ⟨listed.distinct, List.nodup_singleton id, ?_⟩
    rintro a member b last rfl
    rw [List.mem_singleton.mp last] at member
    exact absent ((listed.same id).mp member)
  · intro other
    rw [AList.mem_insert, ← listed.same, List.mem_append, List.mem_singleton, or_comm]

theorem Listed.insert (listed : Listed channels queue) {id : ChannelId} (channel : Channel) (present : id ∈ channels) :
    Listed (channels.insert id channel) queue := by
  refine ⟨listed.distinct, fun other => ?_⟩
  rw [AList.mem_insert, listed.same]
  constructor
  · exact .inr
  · rintro (rfl | member)
    · exact present
    · exact member

theorem pruneFrom_spec {channels' : HashMap ChannelId Channel} {queue' : List ChannelId} {result : PipelineResult Unit}
    (listed : Listed channels queue)
    (prunes : pruneFrom channels (channels.total Channel.size) queue = (channels', queue', result)) :
    result = .ok () ∧ Listed channels' queue' ∧ channels'.total Channel.size ≤ fjordMaxChannelBankSize ∧
      ∀ id channel, channels'.lookup id = some channel → channels.lookup id = some channel := by
  induction queue generalizing channels with
  | nil =>
      have empty : channels.total Channel.size = 0 := by
        have none : channels.values = [] := by
          rw [List.eq_nil_iff_forall_not_mem]
          intro channel member
          obtain ⟨id, here⟩ := HashMap.mem_values.mp member
          have inside : id ∈ channels := AList.lookup_isSome.mp (by rw [here]; rfl)
          exact absurd ((listed.same id).mpr inside) List.not_mem_nil
        rw [HashMap.total, none]
        rfl
      rw [pruneFrom, empty, if_neg (by decide)] at prunes
      cases prunes
      refine ⟨rfl, listed, ?_, fun _ _ here => here⟩
      rw [empty]
      exact Nat.zero_le _
  | cons id queue ih =>
      rw [pruneFrom] at prunes
      split at prunes
      · have inside : id ∈ channels := (listed.same id).mp List.mem_cons_self
        obtain ⟨channel, here⟩ := Option.isSome_iff_exists.mp (AList.lookup_isSome.mpr inside)
        have total := HashMap.total_erase Channel.size here
        have left : channels.total Channel.size - channel.size =
            HashMap.total Channel.size (channels.erase id) := by omega
        simp only [here, if_pos (HashMap.le_total Channel.size here), left] at prunes
        obtain ⟨ok, listed', bound, kept⟩ := ih listed.tail prunes
        refine ⟨ok, listed', bound, ?_⟩
        intro other channel' there
        exact (HashMap.lookup_of_lookup_erase (kept other channel' there)).2
      · rename_i within
        cases prunes
        exact ⟨rfl, listed, Nat.not_lt.mp within, fun _ _ here => here⟩

def held (bank : ChannelBank P) : Nat := bank.channels.total Channel.held

structure Sized (bank : ChannelBank P) : Prop where
  listed : Listed bank.channels bank.channelQueue
  sound : ∀ id channel, bank.channels.lookup id = some channel → channel.Sound ∧ channel.Accounted
  within : bank.held ≤ fjordMaxChannelBankSize

theorem total_size_eq_held (accounted : ∀ id channel, channels.lookup id = some channel → channel.Accounted) :
    channels.total Channel.size = channels.total Channel.held := by
  apply HashMap.total_congr
  intro channel member
  obtain ⟨id, here⟩ := HashMap.mem_values.mp member
  exact accounted id channel here

theorem sized_new (channelTimeout : UInt64) (prev : P) : (new channelTimeout prev).Sized := by
  refine ⟨⟨List.nodup_nil, fun id => ?_⟩, ?_, Nat.zero_le _⟩
  · exact iff_of_false List.not_mem_nil (AList.notMem_empty id)
  · intro id channel here
    cases here

theorem Sized.erase (sized : bank.Sized) {id : ChannelId} {queue : List ChannelId}
    (listed : Listed (bank.channels.erase id) queue) :
    Sized { bank with channels := bank.channels.erase id, channelQueue := queue } where
  listed := listed
  sound other channel here := sized.sound other channel (HashMap.lookup_of_lookup_erase here).2
  within := le_trans (HashMap.total_erase_le Channel.held bank.channels id) sized.within

theorem Sized.prev (sized : bank.Sized) (prev : P) : Sized { bank with prev } := ⟨sized.listed, sized.sound, sized.within⟩

theorem prune_spec (listed : Listed bank.channels bank.channelQueue)
    (sound : ∀ id channel, bank.channels.lookup id = some channel → channel.Sound ∧ channel.Accounted) :
    bank.prune.2 = .ok () ∧ bank.prune.1.Sized := by
  cases prunes : pruneFrom bank.channels bank.size bank.channelQueue with
  | mk channels rest =>
      obtain ⟨queue, result⟩ := rest
      obtain ⟨ok, listed', bound, kept⟩ := pruneFrom_spec listed prunes
      simp only [prune, prunes]
      have sound' : ∀ id channel, channels.lookup id = some channel → channel.Sound ∧ channel.Accounted :=
        fun id channel here => sound id channel (kept id channel here)
      refine ⟨ok, listed', sound', ?_⟩
      rw [held, ← total_size_eq_held fun id channel here => (sound' id channel here).2]
      exact bound

theorem openChannel_spec (sized : bank.Sized) (id : ChannelId) (origin : BlockInfo) :
    (bank.openChannel id origin).1.Sized ∧
      (bank.openChannel id origin).1.channels.lookup id = some (bank.openChannel id origin).2 ∧
      (bank.openChannel id origin).1.channelTimeout = bank.channelTimeout ∧
      (bank.channels.lookup id = some (bank.openChannel id origin).2 ∨
        (bank.openChannel id origin).2 = Channel.new id origin) := by
  cases here : bank.channels.lookup id with
  | some channel =>
      simp only [openChannel, here]
      exact ⟨sized, trivial, trivial, .inl trivial⟩
  | none =>
      have absent := AList.lookup_eq_none.mp here
      simp only [openChannel, here]
      refine ⟨⟨sized.listed.opened _ absent, ?_, ?_⟩, AList.lookup_insert _, trivial, .inr trivial⟩
      · intro other channel there
        rcases HashMap.lookup_of_lookup_insert there with ⟨-, rfl⟩ | before
        · exact ⟨Channel.sound_new id origin, rfl⟩
        · exact sized.sound other channel before
      · have added : (Channel.new id origin).held = 0 := rfl
        rw [held, HashMap.total_insert, added, HashMap.erase_eq_self absent, Nat.zero_add]
        exact sized.within

theorem keepsCount_new (id : ChannelId) (origin : BlockInfo) (frame : Frame) : (Channel.new id origin).KeepsCount frame := by
  rintro _ _ ⟨⟨number, member, -⟩, -⟩
  exact absurd member (AList.notMem_empty number)

variable [NextFrameProvider P]

def KeepsCount (bank : ChannelBank P) (frame : Frame) : Prop :=
  ∀ origin channel, bank.origin = some origin → bank.channels.lookup frame.id = some channel →
    bank.timedOut channel origin = false → channel.KeepsCount frame

theorem ingestFrame_spec (sized : bank.Sized) {frame : Frame} (keeps : bank.KeepsCount frame) :
    (bank.ingestFrame frame).2.Returns ∧ (bank.ingestFrame frame).1.Sized := by
  cases from_ : bank.origin with
  | none =>
      simp only [ingestFrame, from_]
      exact ⟨trivial, sized⟩
  | some origin =>
      obtain ⟨opened, here, timeout, known⟩ := openChannel_spec sized frame.id origin
      cases opens : bank.openChannel frame.id origin with
      | mk bank' channel =>
          simp only [opens] at opened here timeout known
          obtain ⟨sound, accounted⟩ := opened.sound frame.id channel here
          have present : frame.id ∈ bank'.channels := AList.lookup_isSome.mp (by rw [here]; rfl)
          cases late : bank'.timedOut channel origin with
          | true =>
              simp only [ingestFrame, from_, opens, late, if_true]
              exact ⟨trivial, opened⟩
          | false =>
              have counts : channel.KeepsCount frame := by
                rcases known with before | rfl
                · exact keeps origin channel from_ before (by rw [← late, timedOut, timedOut, timeout])
                · exact keepsCount_new _ _ _
              have stored : ∀ id channel', (bank'.channels.insert frame.id (channel.addFrame frame origin).1).lookup id =
                  some channel' → channel'.Sound ∧ channel'.Accounted := by
                intro id channel' there
                rcases HashMap.lookup_of_lookup_insert there with ⟨-, rfl⟩ | before
                · exact ⟨Channel.addFrame_sound sound frame origin,
                    (Channel.addFrame_accounted_iff sound accounted frame origin).mpr counts⟩
                · exact opened.sound id channel' before
              have listed := opened.listed.insert (channel.addFrame frame origin).1 present
              rcases Channel.addFrame_cases sound frame origin with ⟨e, -, result⟩ | ⟨-, before, result, -⟩
              · rw [result] at stored listed
                simp only [ingestFrame, from_, opens, late, Bool.false_eq_true, if_false, result]
                refine ⟨trivial, listed, stored, ?_⟩
                rw [held, HashMap.total_insert, Nat.add_comm, HashMap.total_erase Channel.held here]
                exact opened.within
              · rw [result] at stored listed
                simp only [ingestFrame, from_, opens, late, Bool.false_eq_true, if_false, result]
                obtain ⟨ok, sized'⟩ := @prune_spec P { bank' with
                  channels := bank'.channels.insert frame.id (before.store frame origin) } listed stored
                rw [ok]
                exact ⟨trivial, sized'⟩

theorem tryReadChannelAtIndex_sized (sized : bank.Sized) (index : Nat) : (bank.tryReadChannelAtIndex index).1.Sized := by
  unfold tryReadChannelAtIndex
  split
  · exact sized
  · rename_i channelId at_
    split
    · exact sized
    · split
      · exact sized
      · split
        · exact sized
        · have erased := sized.erase (sized.listed.eraseIdx at_)
          split
          · exact erased
          · exact erased

theorem findReady_sized (sized : bank.Sized) (indices : List Nat) : (bank.findReady indices).1.Sized := by
  induction indices generalizing bank with
  | nil => exact sized
  | cons index indices ih =>
      have tried := tryReadChannelAtIndex_sized sized index
      unfold findReady
      split
      all_goals rw [‹bank.tryReadChannelAtIndex index = _›] at tried
      · exact tried
      · exact ih tried
      · exact tried

theorem read_sized (sized : bank.Sized) : bank.read.1.Sized := by
  unfold read
  split
  · exact sized
  · rename_i first queue queued
    split
    · exact sized
    · split
      · exact sized
      · split
        · exact sized.erase (queued ▸ sized.listed).tail
        · exact findReady_sized sized _

inductive BankCall where
  | ingestFrame (frame : Frame)
  | prune
  | read
  | nextData
  | advanceOrigin
  | signal (s : Signal)

def call (bank : ChannelBank P) : BankCall → ChannelBank P × PipelineResult Unit
  | .ingestFrame frame => bank.ingestFrame frame
  | .prune => bank.prune
  | .read => (bank.read.1, bank.read.2.map fun _ => ())
  | .nextData => (bank.nextData.1, bank.nextData.2.map fun _ => ())
  | .advanceOrigin => bank.advanceOrigin
  | .signal s => bank.signal s

/-- The frame a call hands to `ingest_frame`, and the bank as it is then. -/
def ingests (bank : ChannelBank P) : BankCall → Option (ChannelBank P × Frame)
  | .ingestFrame frame => some (bank, frame)
  | .nextData =>
      match bank.read with
      | (bank, .error (.error (.temporary .eof))) =>
          match NextFrameProvider.nextFrame bank.prev with
          | (prev, .ok frame) => some ({ bank with prev }, frame)
          | _ => none
      | _ => none
  | _ => none

def Counts (bank : ChannelBank P) (made : BankCall) : Prop :=
  ∀ before frame, bank.ingests made = some (before, frame) → before.KeepsCount frame

theorem nextData_sized (sized : bank.Sized) (counts : bank.Counts .nextData) : bank.nextData.1.Sized := by
  have afterRead := read_sized sized
  unfold nextData
  split
  all_goals rw [‹bank.read = _›] at afterRead
  · rename_i bank' reads
    split
    · exact afterRead.prev _
    · rename_i prev frame pulls
      have ingests : bank.ingests .nextData = some ({ bank' with prev }, frame) := by
        simp only [ChannelBank.ingests, reads, pulls]
      exact (ingestFrame_spec (afterRead.prev prev) (counts _ _ ingests)).2
  · exact afterRead
  · exact afterRead

theorem call_sized (sized : bank.Sized) {made : BankCall} (counts : bank.Counts made) : (bank.call made).1.Sized := by
  cases made with
  | ingestFrame frame => exact (ingestFrame_spec sized (counts bank frame rfl)).2
  | prune => exact (prune_spec sized.listed sized.sound).2
  | read => exact read_sized sized
  | nextData => exact nextData_sized sized counts
  | advanceOrigin => exact sized.prev _
  | signal s =>
      simp only [call, signal]
      split
      · exact sized.prev _
      · exact sized_new bank.channelTimeout _

theorem call_along (channelTimeout : UInt64) (prev : P) {calls : List BankCall}
    (counts : Along call Counts (new channelTimeout prev) calls) :
    Along call (fun bank made => (bank.call made).1.Sized ∧ ∀ before frame, bank.ingests made = some (before, frame) →
      (before.ingestFrame frame).2.Returns) (new channelTimeout prev) calls := by
  refine along_of_invariant Sized (fun bank made sized counts => call_sized sized counts) ?_
    (sized_new channelTimeout prev) counts
  intro bank made sized counts
  refine ⟨call_sized sized counts, ?_⟩
  intro before frame ingests
  have sizedBefore : before.Sized := by
    cases made with
    | ingestFrame frame =>
        cases ingests
        exact sized
    | nextData =>
        have afterRead := read_sized sized
        simp only [ChannelBank.ingests] at ingests
        split at ingests
        · rename_i bank' reads
          rw [reads] at afterRead
          split at ingests
          · cases ingests
            exact afterRead.prev _
          · cases ingests
        · cases ingests
    | prune => cases ingests
    | read => cases ingests
    | advanceOrigin => cases ingests
    | signal s => cases ingests
  exact (ingestFrame_spec sizedBefore (counts before frame ingests)).1

/-- No subtraction of a channel goes below zero, and the estimate is the size of the frames held after
every call exactly when no frame closes the channel between two frames that it holds. In every run of
the bank in which this is so of each frame that is stored, what the bank holds after a call is within
its limit. -/
theorem channelSize_accounted :
    (∀ (id : ChannelId) (openBlock : BlockInfo) (frames : List (Frame × BlockInfo)),
      Along Channel.addStep (fun channel added => (channel.addStep added).2.Returns) (Channel.new id openBlock) frames ∧
      (Along Channel.addStep (fun channel added => (channel.addStep added).1.Accounted) (Channel.new id openBlock) frames ↔
        Along Channel.addStep (fun channel added => channel.KeepsCount added.1) (Channel.new id openBlock) frames)) ∧
    ∀ (channelTimeout : UInt64) (prev : P) (calls : List BankCall), Along call Counts (new channelTimeout prev) calls →
      Along call (fun bank made => (∀ channel ∈ (bank.call made).1.channels.values, channel.Accounted) ∧
          (bank.call made).1.held ≤ fjordMaxChannelBankSize ∧
          ∀ before frame, bank.ingests made = some (before, frame) → (before.ingestFrame frame).2.Returns)
        (new channelTimeout prev) calls := by
  refine ⟨fun id openBlock frames => ⟨Channel.along_returns (Channel.sound_new id openBlock) frames,
    Channel.along_accounted_iff id openBlock frames⟩, ?_⟩
  intro channelTimeout prev calls counts
  refine along_mono ?_ (call_along channelTimeout prev counts)
  rintro bank made ⟨sized, returns⟩
  refine ⟨?_, sized.within, returns⟩
  intro channel member
  obtain ⟨id, here⟩ := HashMap.mem_values.mp member
  exact (sized.sound id channel here).2

end ChannelBank

/-- Frames 0 and 2 are held when frame 1 closes the channel: frame 0 is kept and its size is lost. -/
theorem closing_frame_loses_size : ¬ Along Channel.addStep (fun channel added => (channel.addStep added).1.Accounted)
    (Channel.new ⟨List.replicate 16 0, rfl⟩ ⟨.ofNat 0, 0, .ofNat 0, 0⟩)
    [(⟨⟨List.replicate 16 0, rfl⟩, 0, [1, 2, 3], false⟩, ⟨.ofNat 0, 0, .ofNat 0, 0⟩),
      (⟨⟨List.replicate 16 0, rfl⟩, 2, [4], false⟩, ⟨.ofNat 0, 0, .ofNat 0, 0⟩),
      (⟨⟨List.replicate 16 0, rfl⟩, 1, [5, 6], true⟩, ⟨.ofNat 0, 0, .ofNat 0, 0⟩)] := by
  rintro ⟨-, -, closing, -⟩
  exact absurd closing (by decide)

end KonaSoon.Derive
