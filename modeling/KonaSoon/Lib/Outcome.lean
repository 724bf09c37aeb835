import Mathlib

/-!
# Outcomes and runs of state-passing operations

An operation on a mutable value is a function from the value before to the value after and an
outcome. The value after is there on every outcome: an operation that fails part way keeps what it
had already written.
-/

namespace KonaSoon.Lib

/-- Why an operation gave no result: an error it returned, a panic, or a recursion that the fuel did
not cover. -/
inductive Stop (ε : Type) where
  | error (e : ε)
  | panic
  | outOfFuel
deriving DecidableEq, Repr

def Stop.map {ε ε' : Type} (f : ε → ε') : Stop ε → Stop ε'
  | error e => .error (f e)
  | panic => .panic
  | outOfFuel => .outOfFuel

abbrev Outcome (ε α : Type) := Except (Stop ε) α

def Outcome.Returns {ε α : Type} : Outcome ε α → Prop
  | .ok _ => True
  | .error (.error _) => True
  | .error .panic => False
  | .error .outOfFuel => False

def Outcome.unwrap {ε α : Type} : Option α → Outcome ε α
  | some a => .ok a
  | none => .error .panic

def checkedSub (a b : UInt64) : Option UInt64 := if b ≤ a then some (a - b) else none

def checkedAdd (a b : UInt64) : Option UInt64 := if a.toNat + b.toNat < 2 ^ 64 then some (a + b) else none

@[simp] theorem ok_bind {ε α β : Type} (a : α) (f : α → Except ε β) : (Except.ok a >>= f) = f a := rfl

theorem bind_eq_ok {ε α β : Type} {x : Except ε α} {f : α → Except ε β} {b : β} :
    (x >>= f) = .ok b ↔ ∃ a, x = .ok a ∧ f a = .ok b := by
  cases x with
  | error e => exact ⟨nofun, fun ⟨_, ok, _⟩ => nomatch ok⟩
  | ok a => exact ⟨fun ok => ⟨a, rfl, ok⟩, fun ⟨_, same, ok⟩ => by cases same; exact ok⟩

theorem mapError_eq_ok {ε ε' α : Type} {x : Except ε α} {f : ε → ε'} {a : α} : x.mapError f = .ok a ↔ x = .ok a := by
  cases x with
  | error e => exact ⟨nofun, nofun⟩
  | ok b => exact ⟨fun ok => by cases ok; rfl, fun ok => by cases ok; rfl⟩

theorem mapM_mapError_eq_ok {ε ε' α β : Type} {f : α → Except ε β} {change : ε → ε'} {as : List α} {bs : List β} :
    (as.mapM fun a => (f a).mapError change) = .ok bs ↔ as.mapM f = .ok bs := by
  induction as generalizing bs with
  | nil => exact ⟨fun ok => by cases ok; rfl, fun ok => by cases ok; rfl⟩
  | cons a as ih =>
      simp only [List.mapM_cons, bind_eq_ok, mapError_eq_ok, ih]
      exact exists_congr fun first => and_congr_right fun _ => exists_congr fun rest => and_congr_right fun _ =>
        ⟨fun ok => by cases ok; rfl, fun ok => by cases ok; rfl⟩

theorem mem_of_mapM_eq_ok {ε α β : Type} {f : α → Except ε β} {as : List α} {bs : List β} (maps : as.mapM f = .ok bs)
    {b : β} (mem : b ∈ bs) : ∃ a ∈ as, f a = .ok b := by
  induction as generalizing bs with
  | nil =>
      cases maps
      cases mem
  | cons a as ih =>
      simp only [List.mapM_cons, bind_eq_ok] at maps
      obtain ⟨first, ok, rest, maps, made⟩ := maps
      cases made
      cases mem with
      | head => exact ⟨a, List.mem_cons_self, ok⟩
      | tail _ mem =>
          obtain ⟨a', mem', ok'⟩ := ih maps mem
          exact ⟨a', List.mem_cons_of_mem a mem', ok'⟩

theorem Outcome.unwrap_eq_ok {ε α : Type} {value : Option α} {a : α} :
    (Outcome.unwrap value : Outcome ε α) = .ok a ↔ value = some a := by
  cases value with
  | none => exact ⟨nofun, nofun⟩
  | some b => simp [unwrap]

section Runs

variable {σ τ ι ρ : Type}

def run (step : σ → ι → σ × ρ) : σ → List ι → σ
  | s, [] => s
  | s, i :: is => run step (step s i).1 is

/-- What each operation of a list answers, with what `view` shows of the state it leaves. -/
def trace {ν : Type} (step : σ → ι → σ × ρ) (view : σ → ν) : σ → List ι → List (ρ × ν)
  | _, [] => []
  | s, i :: is => ((step s i).2, view (step s i).1) :: trace step view (step s i).1 is

@[simp] theorem run_nil (step : σ → ι → σ × ρ) (s : σ) : run step s [] = s := rfl

@[simp] theorem run_cons (step : σ → ι → σ × ρ) (s : σ) (i : ι) (is : List ι) :
    run step s (i :: is) = run step (step s i).1 is := rfl

theorem run_append (step : σ → ι → σ × ρ) (s : σ) (is js : List ι) :
    run step s (is ++ js) = run step (run step s is) js := by
  induction is generalizing s with
  | nil => rfl
  | cons i is ih => exact ih _

def Along (step : σ → ι → σ × ρ) (condition : σ → ι → Prop) : σ → List ι → Prop
  | _, [] => True
  | s, i :: is => condition s i ∧ Along step condition (step s i).1 is

theorem along_mono {step : σ → ι → σ × ρ} {condition condition' : σ → ι → Prop}
    (weaker : ∀ s i, condition s i → condition' s i) {s : σ} {is : List ι} (meets : Along step condition s is) :
    Along step condition' s is := by
  induction is generalizing s with
  | nil => trivial
  | cons i is ih => exact ⟨weaker s i meets.1, ih meets.2⟩

theorem along_of_invariant {step : σ → ι → σ × ρ} {condition holds : σ → ι → Prop} (invariant : σ → Prop)
    (kept : ∀ s i, invariant s → condition s i → invariant (step s i).1)
    (gives : ∀ s i, invariant s → condition s i → holds s i) {s : σ} (initial : invariant s) {is : List ι}
    (meets : Along step condition s is) : Along step holds s is := by
  induction is generalizing s with
  | nil => trivial
  | cons i is ih => exact ⟨gives s i initial meets.1, ih (kept s i initial meets.1) meets.2⟩

theorem along_iff_of_invariant {step : σ → ι → σ × ρ} {condition holds : σ → ι → Prop} (invariant : σ → Prop)
    {is : List ι} (kept : ∀ s, ∀ i ∈ is, invariant s → condition s i → invariant (step s i).1)
    (gives : ∀ s, ∀ i ∈ is, invariant s → (holds s i ↔ condition s i)) {s : σ} (initial : invariant s) :
    Along step holds s is ↔ Along step condition s is := by
  induction is generalizing s with
  | nil => exact Iff.rfl
  | cons i is ih =>
      have rest := fun t => @ih (fun s j mem => kept s j (List.mem_cons_of_mem i mem))
        (fun s j mem => gives s j (List.mem_cons_of_mem i mem)) t
      have here := gives s i List.mem_cons_self initial
      have next := kept s i List.mem_cons_self initial
      constructor
      · rintro ⟨holdsHere, later⟩
        have meets := here.mp holdsHere
        exact ⟨meets, (rest _ (next meets)).mp later⟩
      · rintro ⟨meets, later⟩
        exact ⟨here.mpr meets, (rest _ (next meets)).mpr later⟩

theorem run_related {step : σ → ι → σ × ρ} {step' : τ → ι → τ × ρ} (related : σ → τ → Prop)
    (kept : ∀ s t i, related s t → related (step s i).1 (step' t i).1) {s : σ} {t : τ} (initial : related s t)
    (is : List ι) : related (run step s is) (run step' t is) := by
  induction is generalizing s t with
  | nil => exact initial
  | cons i is ih => exact ih (kept s t i initial)

theorem trace_simulation {ν : Type} {step : σ → ι → σ × ρ} {step' : τ → ι → τ × ρ}
    {view : σ → ν} {view' : τ → ν} (related : σ → τ → Prop)
    (simulates : ∀ s t i, related s t → related (step s i).1 (step' t i).1 ∧
      (step s i).2 = (step' t i).2 ∧ view (step s i).1 = view' (step' t i).1)
    {s : σ} {t : τ} (initial : related s t) (is : List ι) : trace step view s is = trace step' view' t is := by
  induction is generalizing s t with
  | nil => rfl
  | cons i is ih =>
      obtain ⟨next, answer, shown⟩ := simulates s t i initial
      simp only [trace, answer, shown, ih next]

end Runs

end KonaSoon.Lib
