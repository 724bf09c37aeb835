import KonaSoon.Da.Arrival

/-!
# Channels that are ready

`Channel::is_ready` (`primitives/src/da/channel.rs`) compares the number of frames with that of the last frame plus
one, which is a 16-bit sum. It is exact for every channel whose last frame is not the one with the highest number.
-/

namespace KonaSoon.Da
open Lib

/-- 16-bit addition in a build with or without `overflow-checks`. -/
def addU16 {ε : Type} (overflowChecks : Bool) (a b : UInt16) : Outcome ε UInt16 :=
  if overflowChecks ∧ 2 ^ 16 ≤ a.toNat + b.toNat then .error .panic else .ok (a + b)

namespace Channel

/-- `is_ready` in either kind of build. -/
def isReadyIn (overflowChecks : Bool) (channel : Channel) : Outcome Empty Bool :=
  if !channel.closed then .ok false
  else do
    let count ← addU16 overflowChecks channel.lastFrameNumber 1
    if channel.inputs.entries.length ≠ count.toNat then .ok false
    else .ok ((List.range (channel.lastFrameNumber.toNat + 1)).all fun i => decide (UInt16.ofNat i ∈ channel.inputs))

variable {channel : Channel}

theorem isReadyIn_false (channel : Channel) : channel.isReadyIn false = .ok channel.isReady := by
  simp only [isReadyIn, isReady, addU16, Bool.false_eq_true, false_and, if_false, ok_bind]
  split
  · rfl
  · split <;> rfl

def Complete (channel : Channel) : Prop :=
  channel.closed = true ∧ ∀ number, number ∈ channel.inputs ↔ number ≤ channel.lastFrameNumber

def Ordered (channel : Channel) (frames : List Frame) : Prop :=
  List.Forall₂ (fun i frame => channel.inputs.lookup (UInt16.ofNat i) = some frame)
    (List.range (channel.lastFrameNumber.toNat + 1)) frames

def ReadinessExact (channel : Channel) : Prop :=
  ∀ overflowChecks, ∃ ready, channel.isReadyIn overflowChecks = .ok ready ∧ (ready = true ↔ channel.Complete) ∧
    (ready = true → ∃ frames, channel.Ordered frames ∧ channel.frameData = some (frames.flatMap Frame.data))

def ClosedAtMax (channel : Channel) : Prop := channel.closed = true ∧ channel.lastFrameNumber = 65535

/-! ## Counting -/

def numbersUpTo (last : UInt16) : List UInt16 := (List.range (last.toNat + 1)).map UInt16.ofNat

theorem toNat_ofNat {i : Nat} {last : UInt16} (inside : i ∈ List.range (last.toNat + 1)) : (UInt16.ofNat i).toNat = i := by
  have bound := last.toNat_lt
  rw [List.mem_range] at inside
  rw [UInt16.toNat_ofNat', Nat.mod_eq_of_lt (by omega)]

theorem mem_numbersUpTo {last number : UInt16} : number ∈ numbersUpTo last ↔ number ≤ last := by
  rw [numbersUpTo, List.mem_map, UInt16.le_iff_toNat_le]
  constructor
  · rintro ⟨i, inside, rfl⟩
    rw [toNat_ofNat inside]
    rw [List.mem_range] at inside
    omega
  · intro below
    exact ⟨number.toNat, List.mem_range.mpr (by omega), UInt16.ofNat_toNat⟩

theorem nodup_numbersUpTo (last : UInt16) : (numbersUpTo last).Nodup := by
  refine List.Nodup.map_on ?_ List.nodup_range
  intro i inside j inside' same
  have numbers := congrArg UInt16.toNat same
  rwa [toNat_ofNat inside, toNat_ofNat inside'] at numbers

theorem complete_iff (closed : channel.closed = true) :
    (channel.inputs.entries.length = channel.lastFrameNumber.toNat + 1 ∧
      ∀ number ≤ channel.lastFrameNumber, number ∈ channel.inputs) ↔ channel.Complete := by
  have keys : channel.inputs.keys.length = channel.inputs.entries.length := List.length_map _
  have size : (numbersUpTo channel.lastFrameNumber).length = channel.lastFrameNumber.toNat + 1 := by
    simp [numbersUpTo]
  have nodup : channel.inputs.keys.Nodup := channel.inputs.nodupKeys
  constructor
  · rintro ⟨count, all⟩
    have within : numbersUpTo channel.lastFrameNumber ⊆ channel.inputs.keys := by
      intro number member
      exact AList.mem_keys.mp (all number (mem_numbersUpTo.mp member))
    have same : (numbersUpTo channel.lastFrameNumber).Perm channel.inputs.keys :=
      ((nodup_numbersUpTo _).subperm within).perm_of_length_le (by omega)
    refine ⟨closed, fun number => ?_⟩
    rw [AList.mem_keys, ← same.mem_iff, mem_numbersUpTo]
  · rintro ⟨-, exactly⟩
    have same : channel.inputs.keys.Perm (numbersUpTo channel.lastFrameNumber) := by
      rw [List.perm_ext_iff_of_nodup nodup (nodup_numbersUpTo _)]
      intro number
      rw [mem_numbersUpTo, ← exactly number]
      exact AList.mem_keys.symm
    exact ⟨by rw [← keys, same.length_eq, size], fun number below => (exactly number).mpr below⟩

theorem all_range_iff : ((List.range (channel.lastFrameNumber.toNat + 1)).all fun i =>
    decide (UInt16.ofNat i ∈ channel.inputs)) = true ↔ ∀ number ≤ channel.lastFrameNumber, number ∈ channel.inputs := by
  rw [List.all_eq_true]
  constructor
  · intro all number below
    have here := all number.toNat (List.mem_range.mpr (by
      rw [UInt16.le_iff_toNat_le] at below
      omega))
    rw [UInt16.ofNat_toNat] at here
    exact of_decide_eq_true here
  · intro all i inside
    refine decide_eq_true (all _ (mem_numbersUpTo.mp ?_))
    exact List.mem_map_of_mem inside

theorem frameData_ordered (complete : channel.Complete) :
    ∃ frames, channel.Ordered frames ∧ channel.frameData = some (frames.flatMap Frame.data) := by
  have present : ∀ i ∈ List.range (channel.lastFrameNumber.toNat + 1),
      (channel.inputs.lookup (UInt16.ofNat i)).isSome := by
    intro i inside
    rw [AList.lookup_isSome, complete.2]
    exact mem_numbersUpTo.mp (List.mem_map_of_mem inside)
  have collects : ∀ is : List Nat, (∀ i ∈ is, (channel.inputs.lookup (UInt16.ofNat i)).isSome) → ∃ frames,
      List.Forall₂ (fun i frame => channel.inputs.lookup (UInt16.ofNat i) = some frame) is frames ∧
        is.mapM (fun i => (channel.inputs.lookup (UInt16.ofNat i)).map (·.data)) = some (frames.map Frame.data) := by
    intro is all
    induction is with
    | nil => exact ⟨[], .nil, rfl⟩
    | cons i is ih =>
        obtain ⟨frame, here⟩ := Option.isSome_iff_exists.mp (all i List.mem_cons_self)
        obtain ⟨frames, rest, mapped⟩ := ih fun j member => all j (List.mem_cons_of_mem i member)
        exact ⟨frame :: frames, .cons here rest, by simp [List.mapM_cons, here, mapped]⟩
  obtain ⟨frames, ordered, mapped⟩ := collects _ present
  refine ⟨frames, ordered, ?_⟩
  rw [frameData, mapped]
  rfl

/-! ## Exactness -/

theorem readinessExact_iff : channel.ReadinessExact ↔ ¬ channel.ClosedAtMax := by
  have one : (1 : UInt16).toNat = 1 := rfl
  constructor
  · rintro exactly ⟨closed, last⟩
    obtain ⟨ready, returned, -⟩ := exactly true
    simp [isReadyIn, closed, last, addU16] at returned
    cases returned
  · intro below overflowChecks
    by_cases closed : channel.closed = true
    · have small : channel.lastFrameNumber.toNat + 1 < 2 ^ 16 := by
        by_contra large
        have bound := channel.lastFrameNumber.toNat_lt
        refine below ⟨closed, UInt16.toNat_inj.mp ?_⟩
        have max : (65535 : UInt16).toNat = 65535 := rfl
        omega
      have count : (channel.lastFrameNumber + 1).toNat = channel.lastFrameNumber.toNat + 1 := by
        rw [UInt16.toNat_add, one, Nat.mod_eq_of_lt small]
      have sum : (addU16 overflowChecks channel.lastFrameNumber 1 : Outcome Empty UInt16) =
          .ok (channel.lastFrameNumber + 1) := by
        rw [addU16, one, if_neg (by omega)]
      refine ⟨decide (channel.inputs.entries.length = channel.lastFrameNumber.toNat + 1) &&
        (List.range (channel.lastFrameNumber.toNat + 1)).all fun i => decide (UInt16.ofNat i ∈ channel.inputs), ?_, ?_, ?_⟩
      · simp only [isReadyIn, closed, Bool.not_true, Bool.false_eq_true, if_false, sum, ok_bind, count]
        split
        · rename_i differ
          simp [differ]
        · rename_i same
          simp [not_not.mp same]
      · rw [Bool.and_eq_true, decide_eq_true_iff, all_range_iff, complete_iff closed]
      · rw [Bool.and_eq_true, decide_eq_true_iff, all_range_iff, complete_iff closed]
        exact frameData_ordered
    · have incomplete : ¬ channel.Complete := fun complete => closed complete.1
      exact ⟨false, by simp [isReadyIn, closed], by simp [incomplete], by simp⟩

def ClosesAtMax (channel : Channel) (frame : Frame) : Prop :=
  channel.refusal frame = none ∧ frame.isLast = true ∧ frame.number = 65535

theorem addFrame_closedAtMax_iff (sound : channel.Sound) (before : ¬ channel.ClosedAtMax) (frame : Frame)
    (l1InclusionBlock : BlockInfo) :
    (channel.addFrame frame l1InclusionBlock).1.ClosedAtMax ↔ channel.ClosesAtMax frame := by
  rcases addFrame_cases sound frame l1InclusionBlock with ⟨e, refuses, result⟩ | ⟨accepted, state, result, shape⟩
  · rw [result]
    refine iff_of_false before ?_
    rintro ⟨accepted, -⟩
    rw [accepted] at refuses
    cases refuses
  · rw [result]
    rcases shape with ⟨notLast, rfl⟩ | ⟨last, -, rfl⟩ | ⟨last, -, rfl⟩
    · refine iff_of_false before ?_
      rintro ⟨-, last, -⟩
      rw [last] at notLast
      cases notLast
    · exact ⟨fun after => ⟨accepted, last, after.2⟩, fun closes => ⟨rfl, closes.2.2⟩⟩
    · exact ⟨fun after => ⟨accepted, last, after.2⟩, fun closes => ⟨rfl, closes.2.2⟩⟩

/-- Readiness is exact after every frame of a run as long as no frame closes the channel at the highest number. -/
theorem along_readinessExact_iff (id : ChannelId) (openBlock : BlockInfo) (frames : List (Frame × BlockInfo)) :
    (new id openBlock).ReadinessExact ∧
    (Along addStep (fun channel added => (channel.addStep added).1.ReadinessExact) (new id openBlock) frames ↔
      Along addStep (fun channel added => ¬ channel.ClosesAtMax added.1) (new id openBlock) frames) := by
  have start : ¬ (new id openBlock).ClosedAtMax := by
    rintro ⟨closed, -⟩
    cases closed
  refine ⟨readinessExact_iff.mpr start, ?_⟩
  refine along_iff_of_invariant (fun channel => channel.Sound ∧ ¬ channel.ClosedAtMax) ?_ ?_
    ⟨sound_new id openBlock, start⟩
  · rintro channel added - ⟨sound, before⟩ keeps
    exact ⟨addFrame_sound sound _ _, fun after => keeps ((addFrame_closedAtMax_iff sound before _ _).mp after)⟩
  · rintro channel added - ⟨sound, before⟩
    exact readinessExact_iff.trans (not_congr (addFrame_closedAtMax_iff sound before _ _))

/-! ## A frame of every number -/

def frameAt (i : Nat) : Frame := ⟨zeroId, .ofNat i, [], i = 65535⟩

def everyFrame : List Frame := (List.range ((65535 : UInt16).toNat + 1)).map frameAt

theorem frameAt_isLast {i : Nat} : (frameAt i).isLast = true ↔ i = 65535 := by simp [frameAt]

theorem number_everyFrame : everyFrame.map Frame.number = numbersUpTo 65535 := by
  rw [everyFrame, List.map_map]
  rfl

theorem last_mem_everyFrame : frameAt 65535 ∈ everyFrame :=
  List.mem_map_of_mem (List.mem_range.mpr (Nat.lt_succ_self 65535))

theorem completes_everyFrame : Completes zeroId everyFrame (frameAt 65535) where
  oneChannel := by
    intro frame member
    obtain ⟨i, -, rfl⟩ := List.mem_map.mp member
    rfl
  distinct := by
    rw [number_everyFrame]
    exact nodup_numbersUpTo 65535
  member := last_mem_everyFrame
  marked := by
    intro frame member
    obtain ⟨i, inside, rfl⟩ := List.mem_map.mp member
    constructor
    · intro isLast
      rw [frameAt_isLast.mp isLast]
    · intro same
      rw [same, frameAt_isLast]
  highest := by
    intro frame member
    have number : frame.number ∈ numbersUpTo 65535 := by
      rw [← number_everyFrame]
      exact List.mem_map_of_mem member
    exact mem_numbersUpTo.mp number

theorem complete_of_completes {id : ChannelId} {frames : List Frame} {last : Frame} (completes : Completes id frames last)
    (numbers : frames.map Frame.number = numbersUpTo last.number) (block : BlockInfo) :
    (Lib.run addStep (new id block) (frames.map fun frame => (frame, block))).Complete ∧
      (Lib.run addStep (new id block) (frames.map fun frame => (frame, block))).lastFrameNumber = last.number := by
  have arrivals : ((frames.map fun frame => (frame, block)).map Prod.fst ++ []).Perm frames := by
    simp [Function.comp_def]
  obtain ⟨-, seen, perm, collected⟩ := (collected_new block).run completes arrivals
  generalize Lib.run addStep (new id block) (frames.map fun frame => (frame, block)) = channel at collected ⊢
  have closed : channel.closed = true := by
    rw [collected.closed, List.any_eq_true]
    exact ⟨last, perm.mem_iff.mpr completes.member, (completes.marked last completes.member).mpr rfl⟩
  have lastNumber : channel.lastFrameNumber = last.number := by rw [collected.lastNumber, if_pos closed]
  refine ⟨⟨closed, fun number => ?_⟩, lastNumber⟩
  rw [lastNumber, ← mem_numbersUpTo, ← numbers, List.mem_map, collected.mem_inputs]
  exact exists_congr fun frame => and_congr_left' perm.mem_iff

theorem isReady_of_closedAtMax (complete : channel.Complete) (last : channel.lastFrameNumber = 65535) :
    channel.isReady = false ∧ channel.isReadyIn true = .error .panic ∧ ¬ channel.ReadinessExact := by
  have wraps : ((65535 : UInt16) + 1).toNat = 0 := rfl
  have count := ((complete_iff complete.1).mpr complete).1
  refine ⟨?_, ?_, readinessExact_iff.not.mpr (not_not.mpr ⟨complete.1, last⟩)⟩
  · simp only [isReady, complete.1, Bool.not_true, Bool.false_eq_true, if_false]
    rw [last, wraps, count, if_pos (Nat.succ_ne_zero _)]
  · simp only [isReadyIn, complete.1, Bool.not_true, Bool.false_eq_true, if_false, last]
    rfl

/-- A channel with a frame of every number is complete, but its count of frames is compared with 0. -/
theorem everyFrame_not_ready :
    (Lib.run addStep (new zeroId inclusionBlock) (everyFrame.map fun frame => (frame, inclusionBlock))).Complete ∧
    (Lib.run addStep (new zeroId inclusionBlock) (everyFrame.map fun frame => (frame, inclusionBlock))).isReady = false ∧
    (Lib.run addStep (new zeroId inclusionBlock) (everyFrame.map fun frame => (frame, inclusionBlock))).isReadyIn true =
      .error .panic ∧
    ¬ (Lib.run addStep (new zeroId inclusionBlock)
      (everyFrame.map fun frame => (frame, inclusionBlock))).ReadinessExact := by
  obtain ⟨complete, last⟩ := complete_of_completes completes_everyFrame number_everyFrame inclusionBlock
  exact ⟨complete, isReady_of_closedAtMax complete last⟩

end Channel

end KonaSoon.Da
