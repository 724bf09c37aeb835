import KonaSoon.Da.Channel

namespace KonaSoon.Da
open Lib

/-- Frames of one channel, with different numbers, of which the one with the highest number is the last. -/
structure Completes (id : ChannelId) (frames : List Frame) (last : Frame) : Prop where
  oneChannel : ∀ frame ∈ frames, frame.id = id
  distinct : (frames.map Frame.number).Nodup
  member : last ∈ frames
  marked : ∀ frame ∈ frames, frame.isLast = true ↔ frame = last
  highest : ∀ frame ∈ frames, frame.number ≤ last.number

namespace Channel

def entryOf (frame : Frame) : Sigma fun _ : UInt16 => Frame := ⟨frame.number, frame⟩

structure Collected (id : ChannelId) (last : Frame) (seen : List Frame) (channel : Channel) : Prop where
  sameId : channel.id = id
  entries : channel.inputs.entries = seen.map entryOf
  closed : channel.closed = seen.any Frame.isLast
  lastNumber : channel.lastFrameNumber = if channel.closed then last.number else 0
  size : channel.estimatedSize = (seen.map Frame.size).sum
  below : ∀ frame ∈ seen, frame.number ≤ channel.highestFrameNumber
  highest : channel.highestFrameNumber = 0 ∨ ∃ frame ∈ seen, frame.number = channel.highestFrameNumber

variable {id : ChannelId} {last frame : Frame} {seen frames : List Frame} {channel : Channel}

theorem collected_new (openBlock : BlockInfo) : Collected id last [] (new id openBlock) :=
  ⟨rfl, rfl, rfl, rfl, rfl, nofun, .inl rfl⟩

theorem Collected.mem_inputs (collected : Collected id last seen channel) {number : UInt16} :
    number ∈ channel.inputs ↔ ∃ frame ∈ seen, frame.number = number := by
  rw [AList.mem_keys, AList.keys, collected.entries, List.keys, List.map_map, List.mem_map]
  rfl

theorem Collected.addFrame (collected : Collected id last seen channel) (completes : Completes id frames last)
    (member : frame ∈ frames) (within : ∀ earlier ∈ seen, earlier ∈ frames)
    (fresh : ∀ earlier ∈ seen, earlier.number ≠ frame.number) (l1InclusionBlock : BlockInfo) :
    ∃ after, channel.addFrame frame l1InclusionBlock = (after, .ok ()) ∧ Collected id last (frame :: seen) after := by
  have absent : frame.number ∉ channel.inputs := by
    intro inside
    obtain ⟨earlier, here, same⟩ := collected.mem_inputs.mp inside
    exact fresh earlier here same
  have marked : channel.closed = true → last ∈ seen := by
    intro closed
    rw [collected.closed, List.any_eq_true] at closed
    obtain ⟨earlier, here, isLast⟩ := closed
    rwa [← (completes.marked earlier (within earlier here)).mp isLast]
  have differs : channel.closed = true → frame ≠ last := by
    intro closed same
    exact fresh last (marked closed) (same ▸ rfl)
  have accepted : channel.refusal frame = none := by
    refine refusal_eq_none.mpr ⟨(completes.oneChannel frame member).trans collected.sameId.symm, ?_, absent, ?_⟩
    · rintro ⟨isLast, closed⟩
      exact differs closed ((completes.marked frame member).mp isLast)
    · rintro ⟨closed, beyond⟩
      rw [collected.lastNumber, if_pos closed] at beyond
      have same := UInt16.le_antisymm (completes.highest frame member) beyond
      exact fresh last (marked closed) same.symm
  have stored : ∀ before : Channel, before.id = id → before.inputs = channel.inputs →
      before.closed = (frame.isLast || channel.closed) →
      before.lastFrameNumber = (if before.closed then last.number else 0) →
      before.estimatedSize = channel.estimatedSize → before.highestFrameNumber = channel.highestFrameNumber →
      Collected id last (frame :: seen) (before.store frame l1InclusionBlock) := by
    intro before sameId inputs closed lastNumber size highest
    have erased : channel.inputs.erase frame.number = channel.inputs := HashMap.erase_eq_self absent
    refine ⟨sameId, ?_, ?_, lastNumber, ?_, ?_, ?_⟩
    · have consed : (before.store frame l1InclusionBlock).inputs.entries =
          entryOf frame :: (before.inputs.erase frame.number).entries := rfl
      rw [consed, inputs, erased, collected.entries, List.map_cons]
    · rw [List.any_cons, ← collected.closed]
      exact closed
    · rw [List.map_cons, List.sum_cons, Nat.add_comm, ← collected.size, ← size]
      rfl
    · intro other here
      simp only [store, highest]
      split
      · rename_i higher
        rcases List.mem_cons.mp here with rfl | earlier
        · exact UInt16.le_refl _
        · exact UInt16.le_trans (collected.below other earlier) (UInt16.le_of_lt higher)
      · rename_i notHigher
        rcases List.mem_cons.mp here with rfl | earlier
        · exact UInt16.not_lt.mp notHigher
        · exact collected.below other earlier
    · simp only [store, highest]
      split
      · exact .inr ⟨frame, List.mem_cons_self, rfl⟩
      · rcases collected.highest with zero | ⟨earlier, here, number⟩
        · exact .inl zero
        · exact .inr ⟨earlier, List.mem_cons_of_mem frame here, number⟩
  cases isLast : frame.isLast with
  | false =>
      refine ⟨channel.store frame l1InclusionBlock, by simp [Channel.addFrame, accepted, isLast], ?_⟩
      exact stored channel collected.sameId rfl (by simp [isLast]) collected.lastNumber rfl rfl
  | true =>
      have same := (completes.marked frame member).mp isLast
      have top : ¬ frame.number < channel.highestFrameNumber := by
        rcases collected.highest with zero | ⟨earlier, here, number⟩
        · rw [zero]
          exact UInt16.not_lt.mpr UInt16.zero_le
        · rw [← number, same]
          exact UInt16.not_lt.mpr (completes.highest earlier (within earlier here))
      refine ⟨Channel.store { channel with lastFrameNumber := frame.number, closed := true } frame l1InclusionBlock,
        by simp [Channel.addFrame, accepted, isLast, close_of_not_lt top], ?_⟩
      exact stored _ collected.sameId rfl (by simp [isLast]) (by simp [same]) rfl rfl

def AllTaken (channel : Channel) (arrivals : List (Frame × BlockInfo)) : Prop :=
  Along addStep (fun channel added => (channel.addStep added).2 = .ok ()) channel arrivals

theorem Collected.run (completes : Completes id frames last) {arrivals : List (Frame × BlockInfo)}
    (collected : Collected id last seen channel) (all : (arrivals.map Prod.fst ++ seen).Perm frames) :
    channel.AllTaken arrivals ∧ ∃ seen', seen'.Perm frames ∧ Collected id last seen' (Lib.run addStep channel arrivals) := by
  induction arrivals generalizing channel seen with
  | nil => exact ⟨trivial, seen, all, collected⟩
  | cons added arrivals ih =>
      have within : ∀ other ∈ added.1 :: (arrivals.map Prod.fst ++ seen), other ∈ frames := fun other here =>
        all.mem_iff.mp here
      have distinct : ((added.1 :: (arrivals.map Prod.fst ++ seen)).map Frame.number).Nodup :=
        (all.map Frame.number).nodup_iff.mpr completes.distinct
      rw [List.map_cons, List.nodup_cons, List.mem_map] at distinct
      obtain ⟨after, taken, next⟩ := collected.addFrame completes (within added.1 List.mem_cons_self)
        (fun other here => within other (List.mem_cons_of_mem _ (List.mem_append_right _ here)))
        (fun other here same => distinct.1 ⟨other, List.mem_append_right _ here, same⟩) added.2
      have rest : (arrivals.map Prod.fst ++ added.1 :: seen).Perm frames := List.perm_middle.trans all
      obtain ⟨later, seen', perm, final⟩ := ih next rest
      have stepped : channel.addStep added = (after, .ok ()) := taken
      refine ⟨⟨?_, ?_⟩, seen', perm, ?_⟩
      · exact congrArg Prod.snd stepped
      · rw [stepped]
        exact later
      · rw [run_cons, stepped]
        exact final

structure Alike (channel other : Channel) : Prop where
  inputs : ∀ number, channel.inputs.lookup number = other.inputs.lookup number
  closed : channel.closed = other.closed
  lastFrameNumber : channel.lastFrameNumber = other.lastFrameNumber
  highestFrameNumber : channel.highestFrameNumber = other.highestFrameNumber
  size : channel.size = other.size
  isReady : channel.isReady = other.isReady
  frameData : channel.frameData = other.frameData

theorem Collected.highest_le (collected : Collected id last seen channel) {seen' : List Frame} {other : Channel}
    (collected' : Collected id last seen' other) (perm : seen.Perm seen') :
    channel.highestFrameNumber ≤ other.highestFrameNumber := by
  rcases collected.highest with zero | ⟨frame, here, number⟩
  · rw [zero]
    exact UInt16.zero_le
  · rw [← number]
    exact collected'.below frame (perm.mem_iff.mp here)

theorem Collected.alike (collected : Collected id last seen channel) {seen' : List Frame} {other : Channel}
    (collected' : Collected id last seen' other) (perm : seen.Perm seen') : Alike channel other := by
  have entries : channel.inputs.entries.Perm other.inputs.entries := by
    rw [collected.entries, collected'.entries]
    exact perm.map entryOf
  have inputs : ∀ number, channel.inputs.lookup number = other.inputs.lookup number := fun number =>
    AList.perm_lookup entries
  have closed : channel.closed = other.closed := by
    rw [collected.closed, collected'.closed]
    exact perm.any_eq
  have lastFrameNumber : channel.lastFrameNumber = other.lastFrameNumber := by
    rw [collected.lastNumber, collected'.lastNumber, closed]
  have member : ∀ number, number ∈ channel.inputs ↔ number ∈ other.inputs := by
    intro number
    rw [← AList.lookup_isSome, ← AList.lookup_isSome, inputs]
  refine ⟨inputs, closed, lastFrameNumber, ?_, ?_, ?_, ?_⟩
  · exact UInt16.le_antisymm (collected.highest_le collected' perm) (collected'.highest_le collected perm.symm)
  · rw [Channel.size, Channel.size, collected.size, collected'.size]
    exact (perm.map Frame.size).sum_eq
  · simp only [Channel.isReady, closed, lastFrameNumber, entries.length_eq, member]
  · simp only [Channel.frameData, lastFrameNumber, inputs]

/-- The frames of a complete channel are taken in every order and make the same channel; and a frame that is
turned down leaves any channel as it was. -/
theorem arrival_order_irrelevant (id : ChannelId) (openBlock : BlockInfo) :
    (∀ (frames : List Frame) (last : Frame), Completes id frames last → ∀ arrivals arrivals' : List (Frame × BlockInfo),
      (arrivals.map Prod.fst).Perm frames → (arrivals'.map Prod.fst).Perm frames →
      (new id openBlock).AllTaken arrivals ∧ (new id openBlock).AllTaken arrivals' ∧
        Alike (Lib.run addStep (new id openBlock) arrivals) (Lib.run addStep (new id openBlock) arrivals')) ∧
    ∀ (channel : Channel) (frame : Frame) (l1InclusionBlock : BlockInfo) (e : ChannelError),
      (channel.addFrame frame l1InclusionBlock).2 = .error (.error e) →
        (channel.addFrame frame l1InclusionBlock).1 = channel := by
  constructor
  · intro frames last completes arrivals arrivals' perm perm'
    have start : Collected id last [] (new id openBlock) := collected_new openBlock
    rw [← List.append_nil (arrivals.map Prod.fst)] at perm
    rw [← List.append_nil (arrivals'.map Prod.fst)] at perm'
    obtain ⟨taken, seen, all, collected⟩ := start.run completes perm
    obtain ⟨taken', seen', all', collected'⟩ := start.run completes perm'
    exact ⟨taken, taken', collected.alike collected' (all.trans all'.symm)⟩
  · intro channel frame l1InclusionBlock e failed
    unfold Channel.addFrame at failed ⊢
    cases refuses : channel.refusal frame with
    | some e => rfl
    | none =>
        rw [refuses] at failed
        dsimp only at failed
        split at failed
        · cases failed
        · cases failed

def zeroId : ChannelId := bigEndian 16 0

def inclusionBlock : BlockInfo := ⟨bigEndian 32 1, 1, bigEndian 32 0, 12⟩

def firstFrame : Frame := ⟨zeroId, 0, [1, 2], false⟩

def middleFrame : Frame := ⟨zeroId, 1, [3], false⟩

def closingFrame : Frame := ⟨zeroId, 2, [4, 5], true⟩

theorem completes_threeFrames : Completes zeroId [firstFrame, middleFrame, closingFrame] closingFrame := by
  constructor
  · decide
  · decide
  · decide
  · decide
  · decide

theorem arrival_order_three_frames : Completes zeroId [firstFrame, middleFrame, closingFrame] closingFrame ∧
    Alike
      (Lib.run addStep (new zeroId inclusionBlock)
        [(firstFrame, inclusionBlock), (middleFrame, inclusionBlock), (closingFrame, inclusionBlock)])
      (Lib.run addStep (new zeroId inclusionBlock)
        [(closingFrame, inclusionBlock), (firstFrame, inclusionBlock), (middleFrame, inclusionBlock)]) := by
  refine ⟨completes_threeFrames, ?_⟩
  have alike := (arrival_order_irrelevant zeroId inclusionBlock).1 _ _ completes_threeFrames
    [(firstFrame, inclusionBlock), (middleFrame, inclusionBlock), (closingFrame, inclusionBlock)]
    [(closingFrame, inclusionBlock), (firstFrame, inclusionBlock), (middleFrame, inclusionBlock)] (by decide) (by decide)
  exact alike.2.2

end Channel

end KonaSoon.Da
