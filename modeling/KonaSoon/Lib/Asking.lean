import Mathlib.Data.List.Basic

namespace KonaSoon.Lib

inductive Asking (Query Answer Result : Type) where
  | done (result : Result)
  | ask (query : Query) (next : Answer → Asking Query Answer Result)

abbrev Oracle (Query Answer : Type) := List Query → Query → Answer

namespace Asking

variable {Query Answer Result Next : Type}

protected def bind : Asking Query Answer Result → (Result → Asking Query Answer Next) → Asking Query Answer Next
  | .done result, next => next result
  | .ask query rest, next => .ask query fun answer => (rest answer).bind next

instance : Monad (Asking Query Answer) where
  pure := .done
  bind := Asking.bind

theorem map_id (computation : Asking Query Answer Result) : id <$> computation = computation := by
  induction computation with
  | done result => rfl
  | ask query next ih => exact congrArg (Asking.ask query) (funext ih)

theorem bind_assoc {Last : Type} (computation : Asking Query Answer Result) (next : Result → Asking Query Answer Next)
    (last : Next → Asking Query Answer Last) :
    computation >>= next >>= last = computation >>= fun result => next result >>= last := by
  induction computation with
  | done result => rfl
  | ask query rest ih => exact congrArg (Asking.ask query) (funext ih)

instance : LawfulMonad (Asking Query Answer) := LawfulMonad.mk' _ map_id (fun _ _ => rfl) bind_assoc

def query (query : Query) : Asking Query Answer Answer := .ask query .done

def value (answers : Query → Answer) : Asking Query Answer Result → Result
  | .done result => result
  | .ask query next => value answers (next (answers query))

def run (oracle : Oracle Query Answer) : List Query → Asking Query Answer Result → Result
  | _, .done result => result
  | before, .ask query next => run oracle (query :: before) (next (oracle before query))

def asked (oracle : Oracle Query Answer) : List Query → Asking Query Answer Result → List (List Query × Query)
  | _, .done _ => []
  | before, .ask query next => (before, query) :: asked oracle (query :: before) (next (oracle before query))

def serve {State : Type} (answer : State → Query → State × Answer) : State → Asking Query Answer Result → State × Result
  | state, .done result => (state, result)
  | state, .ask query next => serve answer (answer state query).1 (next (answer state query).2)

@[simp] theorem value_bind (answers : Query → Answer) (computation : Asking Query Answer Result)
    (next : Result → Asking Query Answer Next) :
    value answers (computation >>= next) = value answers (next (value answers computation)) := by
  induction computation with
  | done result => rfl
  | ask query rest ih => exact ih (answers query)

theorem run_eq_value (answers : Query → Answer) (computation : Asking Query Answer Result) (before : List Query) :
    run (fun _ => answers) before computation = value answers computation := by
  induction computation generalizing before with
  | done result => rfl
  | ask query next ih => exact ih (answers query) (query :: before)

theorem run_eq_of_asked {oracle other : Oracle Query Answer} {computation : Asking Query Answer Result}
    {before : List Query}
    (agree : ∀ question ∈ asked oracle before computation, other question.1 question.2 = oracle question.1 question.2) :
    run other before computation = run oracle before computation := by
  induction computation generalizing before with
  | done result => rfl
  | ask query next ih =>
      have same : other before query = oracle before query := agree (before, query) List.mem_cons_self
      show run other (query :: before) (next (other before query)) =
        run oracle (query :: before) (next (oracle before query))
      rw [same]
      exact ih _ fun question member => agree question (List.mem_cons_of_mem _ member)

def Begins (query : Query) (answer : Answer) (rest computation : Asking Query Answer Result) : Prop :=
  ∃ next, computation = .ask query next ∧ next answer = rest

theorem Begins.bind {query : Query} {answer : Answer} {rest computation : Asking Query Answer Result}
    (begins : Begins query answer rest computation) (next : Result → Asking Query Answer Next) :
    Begins query answer (rest >>= next) (computation >>= next) := by
  obtain ⟨later, rfl, rfl⟩ := begins
  exact ⟨_, rfl, rfl⟩

theorem Begins.run_eq {query : Query} {answer : Answer} {rest computation : Asking Query Answer Result}
    (begins : Begins query answer rest computation) {oracle : Oracle Query Answer} {before : List Query}
    (answers : oracle before query = answer) : run oracle before computation = run oracle (query :: before) rest := by
  obtain ⟨later, rfl, rfl⟩ := begins
  rw [← answers]
  rfl

theorem exists_run_bind (oracle : Oracle Query Answer) (computation : Asking Query Answer Result) (before : List Query) :
    ∃ after, ∀ {Next : Type} (next : Result → Asking Query Answer Next),
      run oracle before (computation >>= next) = run oracle after (next (run oracle before computation)) := by
  induction computation generalizing before with
  | done result => exact ⟨before, fun next => rfl⟩
  | ask query rest ih => exact ih _ (query :: before)

theorem serve_keeps {State : Type} {answer : State → Query → State × Answer} {holds : State → Prop}
    (keeps : ∀ state query, holds state → holds (answer state query).1) (computation : Asking Query Answer Result)
    {state : State} (start : holds state) : holds (computation.serve answer state).1 := by
  induction computation generalizing state with
  | done result => exact start
  | ask query next ih => exact ih _ (keeps state query start)

end Asking

end KonaSoon.Lib
