import KonaSoon.Lib.Bytes
import KonaSoon.Lib.HashMap
import KonaSoon.Lib.Outcome
import KonaSoon.Primitives.Blocks

/-!
# Frames and channels

A channel collects its frames in any order (`primitives/src/da/frame.rs`, `primitives/src/da/channel.rs`).
Sizes are natural numbers, since what a channel holds at once stays far below the range of `usize`; a
subtraction below zero is the outcome `panic`.
-/

namespace KonaSoon.Da
open Lib

abbrev ChannelId := FixedBytes 16

def frameOverhead : Nat := 200

structure Frame where
  id : ChannelId
  number : UInt16
  data : List UInt8
  isLast : Bool
deriving DecidableEq, Repr

def Frame.size (frame : Frame) : Nat := frame.data.length + frameOverhead

inductive ChannelError where
  | frameIdMismatch
  | channelClosed
  | frameNumberExists (number : Nat)
  | frameBeyondEndFrame (number : Nat)
deriving DecidableEq, Repr

structure Channel where
  id : ChannelId
  openBlock : BlockInfo
  estimatedSize : Nat
  closed : Bool
  highestFrameNumber : UInt16
  lastFrameNumber : UInt16
  inputs : HashMap UInt16 Frame
  highestL1InclusionBlock : BlockInfo

namespace Channel

def new (id : ChannelId) (openBlock : BlockInfo) : Channel where
  id := id
  openBlock := openBlock
  estimatedSize := 0
  closed := false
  highestFrameNumber := 0
  lastFrameNumber := 0
  inputs := ∅
  highestL1InclusionBlock := ⟨.ofNat 0, 0, .ofNat 0, 0⟩

def size (channel : Channel) : Nat := channel.estimatedSize

/-- The closure of `retain` takes the size of each frame off the estimate, whether the frame is kept
or not. -/
def takeOff (size : Nat) (frames : List Frame) : Option Nat :=
  frames.foldlM (fun size frame => if frame.size ≤ size then some (size - frame.size) else none) size

def close (channel : Channel) (number : UInt16) : Option Channel :=
  let channel := { channel with lastFrameNumber := number, closed := true }
  if channel.lastFrameNumber < channel.highestFrameNumber then do
    let estimatedSize ← takeOff channel.estimatedSize channel.inputs.values
    return { channel with
      estimatedSize
      inputs := channel.inputs.retain fun id _ => id < channel.lastFrameNumber
      highestFrameNumber := channel.lastFrameNumber }
  else some channel

def store (channel : Channel) (frame : Frame) (l1InclusionBlock : BlockInfo) : Channel :=
  { channel with
    highestFrameNumber :=
      if frame.number > channel.highestFrameNumber then frame.number else channel.highestFrameNumber
    highestL1InclusionBlock :=
      if channel.highestL1InclusionBlock.number < l1InclusionBlock.number then l1InclusionBlock
      else channel.highestL1InclusionBlock
    estimatedSize := channel.estimatedSize + frame.size
    inputs := channel.inputs.insert frame.number frame }

def refusal (channel : Channel) (frame : Frame) : Option ChannelError :=
  if frame.id ≠ channel.id then some .frameIdMismatch
  else if frame.isLast ∧ channel.closed then some .channelClosed
  else if frame.number ∈ channel.inputs then some (.frameNumberExists frame.number.toNat)
  else if channel.closed ∧ channel.lastFrameNumber ≤ frame.number then some (.frameBeyondEndFrame frame.number.toNat)
  else none

def addFrame (channel : Channel) (frame : Frame) (l1InclusionBlock : BlockInfo) : Channel × Outcome ChannelError Unit :=
  match channel.refusal frame with
  | some e => (channel, .error (.error e))
  | none =>
      match if frame.isLast then channel.close frame.number else some channel with
      | none => ({ channel with lastFrameNumber := frame.number, closed := true }, .error .panic)
      | some channel => (channel.store frame l1InclusionBlock, .ok ())

def isReady (channel : Channel) : Bool :=
  if !channel.closed then false
  else if channel.inputs.entries.length ≠ (channel.lastFrameNumber + 1).toNat then false
  else (List.range (channel.lastFrameNumber.toNat + 1)).all fun i => decide (UInt16.ofNat i ∈ channel.inputs)

def frameData (channel : Channel) : Option (List UInt8) := do
  let parts ← (List.range (channel.lastFrameNumber.toNat + 1)).mapM fun i =>
    (channel.inputs.lookup (UInt16.ofNat i)).map (·.data)
  return parts.flatten

/-! ## What a channel holds -/

def held (channel : Channel) : Nat := channel.inputs.total Frame.size

def Accounted (channel : Channel) : Prop := channel.estimatedSize = channel.held

instance (channel : Channel) : Decidable channel.Accounted :=
  inferInstanceAs (Decidable (channel.estimatedSize = channel.held))

structure Sound (channel : Channel) : Prop where
  accounted : channel.closed = false → channel.Accounted
  below : ∀ number ∈ channel.inputs, number ≤ channel.highestFrameNumber
  highest : channel.highestFrameNumber = 0 ∨ channel.highestFrameNumber ∈ channel.inputs

/-- A closing frame is not taken while the channel holds frames both below and above it. -/
def KeepsCount (channel : Channel) (frame : Frame) : Prop :=
  channel.refusal frame = none → frame.isLast = true →
    ¬ ((∃ number ∈ channel.inputs, number < frame.number) ∧ ∃ number ∈ channel.inputs, frame.number < number)

variable {channel : Channel} {frame : Frame} {l1InclusionBlock : BlockInfo}

theorem takeOff_eq (frames : List Frame) (rest : Nat) : takeOff ((frames.map Frame.size).sum + rest) frames = some rest := by
  induction frames generalizing rest with
  | nil => simp [takeOff]
  | cons frame frames ih =>
      have enough : frame.size ≤ frame.size + (frames.map Frame.size).sum + rest := by omega
      have left : frame.size + (frames.map Frame.size).sum + rest - frame.size = (frames.map Frame.size).sum + rest := by
        omega
      simp only [takeOff, List.map_cons, List.sum_cons, List.foldlM_cons, if_pos enough, left]
      exact ih rest

def pruned (channel : Channel) (number : UInt16) : Channel :=
  { channel with
    lastFrameNumber := number
    closed := true
    estimatedSize := 0
    highestFrameNumber := number
    inputs := channel.inputs.retain fun id _ => id < number }

theorem close_of_lt {number : UInt16} (accounted : channel.Accounted) (lower : number < channel.highestFrameNumber) :
    channel.close number = some (channel.pruned number) := by
  have taken : takeOff channel.estimatedSize channel.inputs.values = some 0 := by
    rw [accounted]
    exact takeOff_eq channel.inputs.values 0
  simp [close, lower, taken, pruned]

theorem close_of_not_lt {number : UInt16} (last : ¬ number < channel.highestFrameNumber) :
    channel.close number = some { channel with lastFrameNumber := number, closed := true } := by
  simp [close, last]

theorem held_store (absent : frame.number ∉ channel.inputs) :
    (channel.store frame l1InclusionBlock).held = channel.held + frame.size := by
  rw [held, store, HashMap.total_insert, HashMap.erase_eq_self absent, Nat.add_comm, held]

theorem accounted_store (absent : frame.number ∉ channel.inputs) :
    (channel.store frame l1InclusionBlock).Accounted ↔ channel.Accounted := by
  rw [Accounted, Accounted, held_store absent, store]
  exact Nat.add_right_cancel_iff

theorem number_mem_store : frame.number ∈ (channel.store frame l1InclusionBlock).inputs :=
  (AList.mem_insert channel.inputs).mpr (.inl rfl)

theorem below_store (below : ∀ number ∈ channel.inputs, number ≤ channel.highestFrameNumber) :
    ∀ number ∈ (channel.store frame l1InclusionBlock).inputs,
      number ≤ (channel.store frame l1InclusionBlock).highestFrameNumber := by
  intro number member
  simp only [store]
  split
  · rename_i higher
    rcases (AList.mem_insert channel.inputs).mp member with rfl | before
    · exact UInt16.le_refl _
    · exact UInt16.le_trans (below number before) (UInt16.le_of_lt higher)
  · rename_i notHigher
    rcases (AList.mem_insert channel.inputs).mp member with rfl | before
    · exact UInt16.not_lt.mp notHigher
    · exact below number before

theorem highest_store (highest : channel.highestFrameNumber = 0 ∨ channel.highestFrameNumber ∈ channel.inputs) :
    (channel.store frame l1InclusionBlock).highestFrameNumber = 0 ∨
      (channel.store frame l1InclusionBlock).highestFrameNumber ∈ (channel.store frame l1InclusionBlock).inputs := by
  simp only [store]
  split
  · exact .inr ((AList.mem_insert channel.inputs).mpr (.inl rfl))
  · rcases highest with none | some
    · exact .inl none
    · exact .inr ((AList.mem_insert channel.inputs).mpr (.inr some))

theorem refusal_eq_none : channel.refusal frame = none ↔ frame.id = channel.id ∧
    ¬ (frame.isLast = true ∧ channel.closed = true) ∧ frame.number ∉ channel.inputs ∧
    ¬ (channel.closed = true ∧ channel.lastFrameNumber ≤ frame.number) := by
  unfold refusal
  split_ifs with other closes exists_ beyond <;> simp_all

theorem mem_pruned {number n : UInt16} : n ∈ (channel.pruned number).inputs ↔ n ∈ channel.inputs ∧ n < number := by
  rw [pruned, HashMap.mem_retain]
  simp only [decide_eq_true_eq, ← AList.lookup_isSome, Option.isSome_iff_exists, exists_and_right]

theorem addFrame_cases (sound : channel.Sound) (frame : Frame) (l1InclusionBlock : BlockInfo) :
    (∃ e, channel.refusal frame = some e ∧ channel.addFrame frame l1InclusionBlock = (channel, .error (.error e))) ∨
    (channel.refusal frame = none ∧ ∃ before,
      channel.addFrame frame l1InclusionBlock = (before.store frame l1InclusionBlock, .ok ()) ∧
      ((frame.isLast = false ∧ before = channel) ∨
        (frame.isLast = true ∧ ¬ frame.number < channel.highestFrameNumber ∧
          before = { channel with lastFrameNumber := frame.number, closed := true }) ∨
        (frame.isLast = true ∧ frame.number < channel.highestFrameNumber ∧ before = channel.pruned frame.number))) := by
  cases refuses : channel.refusal frame with
  | some e => exact .inl ⟨e, rfl, by simp only [addFrame, refuses]⟩
  | none =>
      refine .inr ⟨rfl, ?_⟩
      cases last : frame.isLast with
      | false => exact ⟨channel, by simp [addFrame, refuses, last], .inl ⟨rfl, rfl⟩⟩
      | true =>
          by_cases lower : frame.number < channel.highestFrameNumber
          · have isOpen : channel.closed = false := by
              simpa [last] using (refusal_eq_none.mp refuses).2.1
            exact ⟨_, by simp [addFrame, refuses, last, close_of_lt (sound.accounted isOpen) lower],
              .inr (.inr ⟨rfl, lower, rfl⟩)⟩
          · exact ⟨_, by simp [addFrame, refuses, last, close_of_not_lt lower], .inr (.inl ⟨rfl, lower, rfl⟩)⟩

theorem addFrame_returns (sound : channel.Sound) (frame : Frame) (l1InclusionBlock : BlockInfo) :
    (channel.addFrame frame l1InclusionBlock).2.Returns := by
  rcases addFrame_cases sound frame l1InclusionBlock with ⟨e, -, result⟩ | ⟨-, before, result, -⟩
  · rw [result]
    trivial
  · rw [result]
    trivial

theorem addFrame_sound (sound : channel.Sound) (frame : Frame) (l1InclusionBlock : BlockInfo) :
    (channel.addFrame frame l1InclusionBlock).1.Sound := by
  rcases addFrame_cases sound frame l1InclusionBlock with ⟨e, -, result⟩ | ⟨accepted, before, result, shape⟩
  · rwa [result]
  · have absent := (refusal_eq_none.mp accepted).2.2.1
    rw [result]
    rcases shape with ⟨-, rfl⟩ | ⟨-, -, rfl⟩ | ⟨-, -, rfl⟩
    · exact ⟨fun isOpen => (accounted_store absent).mpr (sound.accounted isOpen), below_store sound.below,
        highest_store sound.highest⟩
    · exact ⟨nofun, below_store sound.below, highest_store sound.highest⟩
    · refine ⟨nofun, below_store ?_, ?_⟩
      · intro number member
        exact UInt16.le_of_lt (mem_pruned.mp member).2
      · -- The closing frame is now the highest one.
        have unchanged : ((channel.pruned frame.number).store frame l1InclusionBlock).highestFrameNumber = frame.number :=
          if_neg (UInt16.lt_irrefl _)
        rw [unchanged]
        exact .inr number_mem_store

theorem addFrame_openBlock (sound : channel.Sound) (frame : Frame) (l1InclusionBlock : BlockInfo) :
    (channel.addFrame frame l1InclusionBlock).1.openBlock = channel.openBlock := by
  rcases addFrame_cases sound frame l1InclusionBlock with ⟨e, -, result⟩ | ⟨-, before, result, shape⟩
  · rw [result]
  · rw [result]
    rcases shape with ⟨-, rfl⟩ | ⟨-, -, rfl⟩ | ⟨-, -, rfl⟩
    all_goals rfl

theorem exists_mapM_eq_some {α β : Type} {f : α → Option β} {as : List α} (all : ∀ a ∈ as, (f a).isSome) :
    ∃ bs, as.mapM f = some bs := by
  induction as with
  | nil => exact ⟨[], rfl⟩
  | cons a as ih =>
      obtain ⟨b, here⟩ := Option.isSome_iff_exists.mp (all a List.mem_cons_self)
      obtain ⟨bs, rest⟩ := ih fun a' member => all a' (List.mem_cons_of_mem a member)
      exact ⟨b :: bs, by simp [List.mapM_cons, here, rest]⟩

theorem frameData_of_isReady (ready : channel.isReady = true) : ∃ data, channel.frameData = some data := by
  have complete : ∀ i ∈ List.range (channel.lastFrameNumber.toNat + 1), UInt16.ofNat i ∈ channel.inputs := by
    unfold isReady at ready
    split_ifs at ready
    intro i member
    exact of_decide_eq_true (List.all_eq_true.mp ready i member)
  obtain ⟨parts, collected⟩ := @exists_mapM_eq_some _ _
    (fun i => (channel.inputs.lookup (UInt16.ofNat i)).map (·.data)) (List.range (channel.lastFrameNumber.toNat + 1)) <| by
      intro i member
      rw [Option.isSome_map]
      exact AList.lookup_isSome.mpr (complete i member)
  refine ⟨parts.flatten, ?_⟩
  rw [frameData, collected]
  rfl

theorem held_pruned_eq_zero {number : UInt16} :
    (channel.pruned number).held = 0 ↔ ¬ ∃ n ∈ channel.inputs, n < number := by
  constructor
  · rintro none ⟨n, member, lower⟩
    obtain ⟨frame, here⟩ := Option.isSome_iff_exists.mp (AList.lookup_isSome.mpr (mem_pruned.mpr ⟨member, lower⟩))
    have := HashMap.le_total Frame.size here
    have positive : 0 < frame.size := by
      unfold Frame.size frameOverhead
      omega
    rw [← held] at this
    omega
  · intro none
    have empty : (channel.pruned number).inputs = ∅ := by
      apply AList.ext
      rw [AList.empty_entries, List.eq_nil_iff_forall_not_mem]
      intro entry member
      have inside : entry.1 ∈ (channel.pruned number).inputs :=
        AList.lookup_isSome.mp (by rw [AList.mem_lookup_iff.mpr member]; rfl)
      exact none ⟨entry.1, mem_pruned.mp inside⟩
    rw [held, empty, HashMap.total_empty]

theorem addFrame_accounted_iff (sound : channel.Sound) (accounted : channel.Accounted) (frame : Frame)
    (l1InclusionBlock : BlockInfo) :
    (channel.addFrame frame l1InclusionBlock).1.Accounted ↔ channel.KeepsCount frame := by
  rcases addFrame_cases sound frame l1InclusionBlock with ⟨e, refuses, result⟩ | ⟨accepted, before, result, shape⟩
  · rw [result]
    refine iff_of_true accounted ?_
    intro accepted
    rw [accepted] at refuses
    cases refuses
  · have absent := (refusal_eq_none.mp accepted).2.2.1
    rw [result]
    rcases shape with ⟨notLast, rfl⟩ | ⟨last, highest, rfl⟩ | ⟨last, lower, rfl⟩
    · refine iff_of_true ((accounted_store absent).mpr accounted) ?_
      intro _ last
      rw [last] at notLast
      cases notLast
    · have counted : (channel.store frame l1InclusionBlock).Accounted := (accounted_store absent).mpr accounted
      refine iff_of_true counted ?_
      rintro _ _ ⟨-, number, member, above⟩
      exact highest (UInt16.lt_of_lt_of_le above (sound.below number member))
    · have absent' : frame.number ∉ (channel.pruned frame.number).inputs := by
        intro member
        exact absent (mem_pruned.mp member).1
      have above : ∃ number ∈ channel.inputs, frame.number < number := by
        rcases sound.highest with zero | member
        · rw [zero] at lower
          exact absurd lower (UInt16.not_lt.mpr (UInt16.zero_le))
        · exact ⟨_, member, lower⟩
      rw [accounted_store absent', Accounted, eq_comm]
      refine held_pruned_eq_zero.trans ?_
      constructor
      · intro none _ _ both
        exact none both.1
      · intro keeps below
        exact keeps accepted last ⟨below, above⟩

/-! ## Runs -/

def addStep (channel : Channel) (added : Frame × BlockInfo) : Channel × Outcome ChannelError Unit :=
  channel.addFrame added.1 added.2

theorem sound_new (id : ChannelId) (openBlock : BlockInfo) : (new id openBlock).Sound :=
  ⟨fun _ => rfl, fun number member => absurd member (AList.notMem_empty number), .inl rfl⟩

theorem along_returns (sound : channel.Sound) (frames : List (Frame × BlockInfo)) :
    Along addStep (fun channel added => (channel.addStep added).2.Returns) channel frames := by
  induction frames generalizing channel with
  | nil => trivial
  | cons added frames ih => exact ⟨addFrame_returns sound _ _, ih (addFrame_sound sound _ _)⟩

theorem along_accounted_iff (id : ChannelId) (openBlock : BlockInfo) (frames : List (Frame × BlockInfo)) :
    Along addStep (fun channel added => (channel.addStep added).1.Accounted) (new id openBlock) frames ↔
      Along addStep (fun channel added => channel.KeepsCount added.1) (new id openBlock) frames := by
  refine along_iff_of_invariant (fun channel => channel.Sound ∧ channel.Accounted) ?_ ?_
    ⟨sound_new id openBlock, rfl⟩
  · rintro channel added - ⟨sound, accounted⟩ keeps
    exact ⟨addFrame_sound sound _ _, (addFrame_accounted_iff sound accounted _ _).mpr keeps⟩
  · rintro channel added - ⟨sound, accounted⟩
    exact addFrame_accounted_iff sound accounted _ _

end Channel

end KonaSoon.Da
