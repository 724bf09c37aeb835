import KonaSoon.Lib.OrderedMap

namespace KonaSoon.Lib

inductive Access (Writer κ β : Type) where
  | read (key : κ) (found : Option β)
  | wrote (writer : Writer) (key : κ) (value : β)
deriving DecidableEq, Repr

section Log

variable {Writer κ β : Type} [LinearOrder κ]

def Access.written (counts : Writer → Bool) (key : κ) : Access Writer κ β → Option β
  | .read _ _ => none
  | .wrote writer k value => if k = key ∧ counts writer then some value else none

def lastWrite (counts : Writer → Bool) (key : κ) (log : List (Access Writer κ β)) : Option β :=
  log.reverse.findSome? (Access.written counts key)

def Current (counts : Writer → Bool) (start : κ → Option β) (log : List (Access Writer κ β)) : Prop :=
  ∀ before key found after, log = before ++ .read key found :: after →
    found = (lastWrite counts key before).or (start key)

variable {counts : Writer → Bool} {start : κ → Option β} {log : List (Access Writer κ β)} {key : κ}

theorem lastWrite_append (first second : List (Access Writer κ β)) :
    lastWrite counts key (first ++ second) = (lastWrite counts key second).or (lastWrite counts key first) := by
  rw [lastWrite, List.reverse_append, List.findSome?_append]
  rfl

theorem lastWrite_concat (access : Access Writer κ β) :
    lastWrite counts key (log ++ [access]) = (access.written counts key).or (lastWrite counts key log) := by
  rw [lastWrite_append]
  cases found : access.written counts key <;> simp [lastWrite, found]

theorem wrote_of_lastWrite {value : β} (last : lastWrite counts key log = some value) :
    ∃ writer, .wrote writer key value ∈ log := by
  obtain ⟨access, member, written⟩ := List.exists_of_findSome?_eq_some last
  cases access with
  | read k found => cases written
  | wrote writer k value' =>
      by_cases here : k = key ∧ counts writer
      · rw [Access.written, if_pos here] at written
        cases written
        exact ⟨writer, here.1 ▸ List.mem_reverse.mp member⟩
      · rw [Access.written, if_neg here] at written
        cases written

theorem current_nil : Current counts start ([] : List (Access Writer κ β)) := by
  intro before key found after split
  cases before <;> cases split

theorem Current.concat (current : Current counts start log) {access : Access Writer κ β}
    (here : ∀ key found, access = .read key found → found = (lastWrite counts key log).or (start key)) :
    Current counts start (log ++ [access]) := by
  intro before key found after split
  rcases List.eq_nil_or_concat after with rfl | ⟨after', last, rfl⟩
  · obtain ⟨rfl, same⟩ := List.append_inj' split rfl
    exact here key found (List.cons.inj same).1
  · rw [List.concat_eq_append, ← List.cons_append, ← List.append_assoc] at split
    exact current before key found after' (List.append_inj' split rfl).1

end Log

structure Overlay (κ β : Type) [LinearOrder κ] where
  below : κ → Option β
  diff : OrderedMap κ β

namespace Overlay

variable {Writer κ β : Type} [LinearOrder κ]

def get (store : Overlay κ β) (key : κ) : Option β := (store.diff.get key).or (store.below key)

def put (store : Overlay κ β) (key : κ) (value : β) : Overlay κ β := { store with diff := store.diff.insert key value }

/-- The store holds what the log has put into it, and what is below is as at the start where the log has put
nothing. -/
structure Follows (counts : Writer → Bool) (start : κ → Option β) (log : List (Access Writer κ β)) (store : Overlay κ β) :
    Prop where
  diff : ∀ key, store.diff.get key = lastWrite counts key log
  below : ∀ key, lastWrite counts key log = none → store.below key = start key

variable {counts : Writer → Bool} {start : κ → Option β} {log : List (Access Writer κ β)} {store : Overlay κ β}

theorem Follows.get (follows : Follows counts start log store) (key : κ) :
    store.get key = (lastWrite counts key log).or (start key) := by
  rw [Overlay.get, follows.diff]
  cases last : lastWrite counts key log with
  | none => exact follows.below key last
  | some value => rfl

theorem Follows.read (follows : Follows counts start log store) (key : κ) (found : Option β) :
    Follows counts start (log ++ [.read key found]) store := by
  have same (other : κ) : lastWrite counts other (log ++ [Access.read key found]) = lastWrite counts other log := by
    rw [lastWrite_concat]
    rfl
  refine ⟨fun other => ?_, fun other unwritten => ?_⟩
  · rw [same, follows.diff]
  · rw [same] at unwritten
    exact follows.below other unwritten

theorem Follows.put (follows : Follows counts start log store) {writer : Writer} (counted : counts writer) (key : κ) (value : β) :
    Follows counts start (log ++ [.wrote writer key value]) (store.put key value) := by
  refine ⟨fun other => ?_, fun other unwritten => ?_⟩
  · rw [Overlay.put, OrderedMap.get_insert, lastWrite_concat, follows.diff, Access.written]
    by_cases same : other = key
    · rw [if_pos same, if_pos ⟨same.symm, counted⟩]
      rfl
    · rw [if_neg same, if_neg fun both => same both.1.symm]
      rfl
  · rw [lastWrite_concat, Option.or_eq_none_iff] at unwritten
    exact follows.below other unwritten.2

end Overlay

end KonaSoon.Lib
