import KonaSoon.Da.Frames
import KonaSoon.Derive.ChannelBank

namespace KonaSoon.Derive
open Lib Mpt Da

class FrameQueueProvider (P : Type) extends Stage P where
  nextData : P → P × PipelineResult (List UInt8)

structure FrameQueue (P : Type) where
  prev : P
  queue : List Frame

/-- The frames of the data of one transaction; there are none where it cannot be parsed. -/
def framesOf (data : List UInt8) : List Frame :=
  match Frame.parseFrames data with
  | .ok frames => frames
  | .error _ => []

namespace FrameQueue

variable {P : Type} [FrameQueueProvider P]

def new (prev : P) : FrameQueue P := ⟨prev, []⟩

def origin (queue : FrameQueue P) : Option BlockInfo := Stage.origin queue.prev

def loadFrames (queue : FrameQueue P) : FrameQueue P × PipelineResult Unit :=
  match queue.queue with
  | _ :: _ => (queue, .ok ())
  | [] =>
      match FrameQueueProvider.nextData queue.prev with
      | (prev, .error e) => ({ queue with prev }, .error e)
      | (prev, .ok data) =>
          match Frame.parseFrames data with
          | .error (.error _) => ({ queue with prev }, .ok ())
          | .error .panic => ({ queue with prev }, .error .panic)
          | .error .outOfFuel => ({ queue with prev }, .error .outOfFuel)
          | .ok frames =>
              let queue : FrameQueue P := ⟨prev, frames⟩
              match queue.origin with
              | none => (queue, PipelineError.missingOrigin.crit)
              | some _ => (queue, .ok ())

def nextFrame (queue : FrameQueue P) : FrameQueue P × PipelineResult Frame :=
  match queue.loadFrames with
  | (queue, .error e) => (queue, .error e)
  | (queue, .ok ()) =>
      match queue.queue with
      | [] => (queue, PipelineError.notEnoughData.temp)
      | first :: later => ({ queue with queue := later }, .ok first)

def advanceOrigin (queue : FrameQueue P) : FrameQueue P × PipelineResult Unit :=
  let (prev, result) := Stage.advanceOrigin queue.prev
  ({ queue with prev }, result)

def signal (queue : FrameQueue P) (s : Signal) : FrameQueue P × PipelineResult Unit :=
  match Stage.signal queue.prev s with
  | (prev, .error e) => ({ queue with prev }, .error e)
  | (prev, .ok ()) => (⟨prev, []⟩, .ok ())

instance : NextFrameProvider (FrameQueue P) where
  origin := origin
  advanceOrigin := advanceOrigin
  signal := signal
  nextFrame := nextFrame

def takes (queue : FrameQueue P) : List (List UInt8) :=
  match queue.queue with
  | _ :: _ => []
  | [] => (FrameQueueProvider.nextData queue.prev).2.toOption.toList

theorem loadFrames_queue (queue : FrameQueue P) :
    queue.loadFrames.1.queue = queue.queue ++ queue.takes.flatMap framesOf := by
  unfold loadFrames takes
  cases held : queue.queue with
  | cons first later =>
      dsimp only
      rw [held, List.flatMap_nil, List.append_nil]
  | nil =>
      dsimp only
      cases FrameQueueProvider.nextData queue.prev with
      | mk prev result =>
          cases result with
          | error e => rfl
          | ok data =>
              rw [Except.toOption, Option.toList_some, List.flatMap_singleton, List.nil_append, framesOf]
              dsimp only
              cases Frame.parseFrames data with
              | error stop => cases stop <;> rfl
              | ok frames =>
                  dsimp only
                  split <;> rfl

theorem nextFrame_queue (queue : FrameQueue P) :
    queue.nextFrame.2.toOption.toList ++ queue.nextFrame.1.queue = queue.queue ++ queue.takes.flatMap framesOf := by
  rw [← loadFrames_queue]
  unfold nextFrame
  cases queue.loadFrames with
  | mk loaded result =>
      cases result with
      | error e => rfl
      | ok done =>
          dsimp only
          cases held : loaded.queue with
          | nil => exact held
          | cons first later => rfl

inductive FrameCall where
  | nextFrame
  | advanceOrigin
  | signal (s : Signal)

def call (queue : FrameQueue P) : FrameCall → FrameQueue P × PipelineResult (Option Frame)
  | .nextFrame => queue.nextFrame.map id fun result => result.map some
  | .advanceOrigin => queue.advanceOrigin.map id fun result => result.map fun () => none
  | .signal s => (queue.signal s).map id fun result => result.map fun () => none

def takesIn (queue : FrameQueue P) : FrameCall → List (List UInt8)
  | .nextFrame => queue.takes
  | .advanceOrigin => []
  | .signal _ => []

def handed : FrameQueue P → List FrameCall → List Frame
  | _, [] => []
  | queue, made :: calls => (queue.call made).2.toOption.join.toList ++ handed (queue.call made).1 calls

def taken : FrameQueue P → List FrameCall → List (List UInt8)
  | _, [] => []
  | queue, made :: calls => queue.takesIn made ++ taken (queue.call made).1 calls

theorem quiet {result : PipelineResult Unit} : (result.map fun () => (none : Option Frame)).toOption.join.toList = [] := by
  cases result <;> rfl

theorem signal_queue (queue : FrameQueue P) (s : Signal) : (queue.signal s).1.queue.Sublist queue.queue := by
  unfold signal
  split
  · exact List.Sublist.refl _
  · exact List.nil_sublist _

theorem call_nextFrame (queue : FrameQueue P) : (queue.call .nextFrame).2.toOption.join.toList ++
    (queue.call .nextFrame).1.queue = queue.queue ++ queue.takes.flatMap framesOf := by
  rw [← nextFrame_queue]
  unfold call
  cases queue.nextFrame with
  | mk after result => cases result <;> rfl

/-- The frames of the data that is taken are handed on in its order, each at most once. None is left out but those
that a signal finds in the queue. -/
theorem handed_in_order (queue : FrameQueue P) (calls : List FrameCall) :
    (handed queue calls ++ (run call queue calls).queue).Sublist (queue.queue ++ (taken queue calls).flatMap framesOf) ∧
    ((∀ s, .signal s ∉ calls) →
      handed queue calls ++ (run call queue calls).queue = queue.queue ++ (taken queue calls).flatMap framesOf) := by
  induction calls generalizing queue with
  | nil =>
      rw [handed, taken, List.flatMap_nil, List.append_nil]
      exact ⟨List.Sublist.refl _, fun _ => rfl⟩
  | cons made calls ih =>
      obtain ⟨within, exactly⟩ := ih (queue.call made).1
      have later (unsignalled : ∀ s, .signal s ∉ made :: calls) : ∀ s, .signal s ∉ calls := fun s member =>
        unsignalled s (List.mem_cons_of_mem made member)
      cases made with
      | nextFrame =>
          have passed := queue.call_nextFrame
          rw [handed, taken, takesIn, run_cons, List.flatMap_append, List.append_assoc, ← List.append_assoc queue.queue,
            ← passed, List.append_assoc]
          refine ⟨within.append_left _, fun unsignalled => ?_⟩
          rw [exactly (later unsignalled)]
      | advanceOrigin =>
          rw [handed, taken, takesIn, run_cons, List.nil_append]
          have same : (queue.call .advanceOrigin).1.queue = queue.queue := rfl
          have nothing : (queue.call .advanceOrigin).2.toOption.join.toList = [] := quiet
          rw [nothing, List.nil_append]
          rw [same] at within exactly
          exact ⟨within, fun unsignalled => exactly (later unsignalled)⟩
      | signal s =>
          rw [handed, taken, takesIn, run_cons, List.nil_append]
          have nothing : (queue.call (.signal s)).2.toOption.join.toList = [] := quiet
          rw [nothing, List.nil_append]
          exact ⟨within.trans ((queue.signal_queue s).append_right _), fun unsignalled =>
            absurd List.mem_cons_self (unsignalled s)⟩

end FrameQueue

end KonaSoon.Derive
