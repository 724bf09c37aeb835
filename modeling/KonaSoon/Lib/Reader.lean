import KonaSoon.Lib.Bytes
import KonaSoon.Lib.Outcome

/-!
# Readers of byte strings

A reader takes its value from the front of a byte string and leaves the rest. It returns an error where
it checks its input and panics where it slices bytes that are not there. The two kinds of reader are kept
apart: `Checked` ones return on every input, and `Takes n` ones need exactly `n` more bytes.
-/

namespace KonaSoon.Lib

abbrev Reads (ε α : Type) := StateT (List UInt8) (Outcome ε) α

/-! ## Outcomes -/

@[simp] theorem Outcome.returns_ok {ε α : Type} (a : α) : Outcome.Returns (.ok a : Outcome ε α) := trivial

@[simp] theorem Outcome.returns_error {ε α : Type} (e : ε) : Outcome.Returns (.error (.error e) : Outcome ε α) := trivial

@[simp] theorem Outcome.not_returns_panic {ε α : Type} : ¬ Outcome.Returns (.error .panic : Outcome ε α) := id

@[simp] theorem Outcome.unwrap_some {ε α : Type} (a : α) : (Outcome.unwrap (some a) : Outcome ε α) = .ok a := rfl

def Outcome.Ends {ε α : Type} (allowed : Prop) : Outcome ε α → Prop
  | .ok _ => allowed
  | .error (.error _) => True
  | .error .panic => False
  | .error .outOfFuel => False

theorem Outcome.ends_true_iff {ε α : Type} {x : Outcome ε α} : Outcome.Ends True x ↔ Outcome.Returns x := by
  cases x with
  | ok a => exact Iff.rfl
  | error stop => cases stop <;> exact Iff.rfl

theorem Outcome.ends_map {ε α β : Type} {allowed : Prop} {x : Outcome ε α} {f : α → β} :
    Outcome.Ends allowed (x.map f) ↔ Outcome.Ends allowed x := by
  cases x with
  | ok a => exact Iff.rfl
  | error stop => cases stop <;> exact Iff.rfl

theorem Outcome.bind_ends_iff {ε α β : Type} {allowed : Prop} {x : Outcome ε α} {f : α → Outcome ε β} :
    Outcome.Ends allowed (x >>= f) ↔ Outcome.Returns x ∧ ∀ a, x = .ok a → Outcome.Ends allowed (f a) := by
  cases x with
  | ok a => simp
  | error stop =>
      have stopped : (Except.error stop >>= f) = .error stop := rfl
      rw [stopped]
      cases stop with
      | error e => exact ⟨fun _ => ⟨trivial, nofun⟩, fun _ => trivial⟩
      | panic => exact ⟨False.elim, fun both => both.1⟩
      | outOfFuel => exact ⟨False.elim, fun both => both.1⟩

/-! ## 64-bit arithmetic of the two kinds of build -/

/-- Subtraction in a build with or without `overflow-checks`. -/
def subU64 {ε : Type} (overflowChecks : Bool) (a b : UInt64) : Outcome ε UInt64 :=
  if overflowChecks ∧ a < b then .error .panic else .ok (a - b)

def addU64 {ε : Type} (overflowChecks : Bool) (a b : UInt64) : Outcome ε UInt64 :=
  if overflowChecks ∧ 2 ^ 64 ≤ a.toNat + b.toNat then .error .panic else .ok (a + b)

def mulU64 {ε : Type} (overflowChecks : Bool) (a b : UInt64) : Outcome ε UInt64 :=
  if overflowChecks ∧ 2 ^ 64 ≤ a.toNat * b.toNat then .error .panic else .ok (a * b)

theorem subU64_of_le {ε : Type} (overflowChecks : Bool) {a b : UInt64} (within : b ≤ a) :
    (subU64 overflowChecks a b : Outcome ε UInt64) = .ok (a - b) := by
  simp [subU64, UInt64.not_lt.mpr within]

theorem addU64_eq_ok {ε : Type} {overflowChecks : Bool} {a b c : UInt64}
    (ok : (addU64 overflowChecks a b : Outcome ε UInt64) = .ok c) : c = a + b := by
  unfold addU64 at ok
  split at ok
  · cases ok
  · exact (Except.ok.inj ok).symm

theorem mulU64_eq_ok {ε : Type} {overflowChecks : Bool} {a b c : UInt64}
    (ok : (mulU64 overflowChecks a b : Outcome ε UInt64) = .ok c) : c = a * b := by
  unfold mulU64 at ok
  split at ok
  · cases ok
  · exact (Except.ok.inj ok).symm

theorem subU64_eq_ok {ε : Type} {overflowChecks : Bool} {a b c : UInt64}
    (ok : (subU64 overflowChecks a b : Outcome ε UInt64) = .ok c) : c = a - b := by
  unfold subU64 at ok
  split at ok
  · cases ok
  · exact (Except.ok.inj ok).symm

theorem addU64_of_fits {ε : Type} (overflowChecks : Bool) {a b : UInt64} (fits : a.toNat + b.toNat < 2 ^ 64) :
    (addU64 overflowChecks a b : Outcome ε UInt64) = .ok (a + b) :=
  if_neg fun overflows => Nat.not_le.mpr fits overflows.2

theorem mulU64_of_fits {ε : Type} (overflowChecks : Bool) {a b : UInt64} (fits : a.toNat * b.toNat < 2 ^ 64) :
    (mulU64 overflowChecks a b : Outcome ε UInt64) = .ok (a * b) :=
  if_neg fun overflows => Nat.not_le.mpr fits overflows.2

/-! ## Readers -/

namespace Reads

variable {ε α β ι : Type}

def fail (e : ε) : Reads ε α := fun _ => .error (.error e)

def ofOption (e : ε) (decode : List UInt8 → Option (α × List UInt8)) : Reads ε α := fun r =>
  match decode r with
  | none => .error (.error e)
  | some read => .ok read

/-- The next `n` bytes, which the reader does not know to be there. -/
def slice (n : Nat) : Reads ε (FixedBytes n) := fun r => Outcome.unwrap (takeFixed n r)

def unwrap (value : Option α) : Reads ε α := fun r => (Outcome.unwrap value).map (·, r)

def Checked (m : Reads ε α) : Prop := ∀ r, Outcome.Returns (m r)

def Takes (n : Nat) (m : Reads ε α) : Prop :=
  ∀ r, (n ≤ r.length → ∃ a, m r = .ok (a, r.drop n)) ∧ (r.length < n → m r = .error .panic)

theorem bind_apply (m : Reads ε α) (f : α → Reads ε β) (r : List UInt8) :
    (m >>= f) r = (m r >>= fun read => f read.1 read.2) := rfl

theorem bind_ends_iff {allowed : Prop} {m : Reads ε α} {f : α → Reads ε β} {r : List UInt8} :
    Outcome.Ends allowed ((m >>= f) r) ↔
      Outcome.Returns (m r) ∧ ∀ a rest, m r = .ok (a, rest) → Outcome.Ends allowed (f a rest) := by
  rw [bind_apply, Outcome.bind_ends_iff]
  exact and_congr_right fun _ => ⟨fun later a rest ok => later (a, rest) ok, fun later read ok => later read.1 read.2 ok⟩

theorem bind_ok_iff {m : Reads ε α} {f : α → Reads ε β} {r rest' : List UInt8} {b : β} :
    (m >>= f) r = .ok (b, rest') ↔ ∃ a rest, m r = .ok (a, rest) ∧ f a rest = .ok (b, rest') := by
  rw [bind_apply, bind_eq_ok]
  exact ⟨fun ⟨read, ok, later⟩ => ⟨read.1, read.2, ok, later⟩, fun ⟨a, rest, ok, later⟩ => ⟨(a, rest), ok, later⟩⟩

namespace Checked

theorem pure (a : α) : Checked (Pure.pure a : Reads ε α) := fun _ => trivial

theorem fail (e : ε) : Checked (Reads.fail e : Reads ε α) := fun _ => trivial

theorem ofOption (e : ε) (decode : List UInt8 → Option (α × List UInt8)) : Checked (Reads.ofOption e decode) := by
  intro r
  unfold Reads.ofOption
  cases decode r with
  | none => trivial
  | some read => trivial

theorem bind {m : Reads ε α} {f : α → Reads ε β} (first : Checked m) (later : ∀ a, Checked (f a)) :
    Checked (m >>= f) := by
  intro r
  rw [← Outcome.ends_true_iff, bind_ends_iff]
  exact ⟨first r, fun a rest _ => Outcome.ends_true_iff.mpr (later a rest)⟩

theorem mapM {f : ι → Reads ε α} {is : List ι} (each : ∀ i, Checked (f i)) : Checked (is.mapM f) := by
  induction is with
  | nil => exact Checked.pure []
  | cons i is ih =>
      rw [List.mapM_cons]
      exact (each i).bind fun _ => ih.bind fun _ => Checked.pure _

theorem bind_ends {allowed : Prop} {m : Reads ε α} (checked : Checked m) {f : α → Reads ε β} {r : List UInt8} :
    Outcome.Ends allowed ((m >>= f) r) ↔ ∀ a rest, m r = .ok (a, rest) → Outcome.Ends allowed (f a rest) := by
  rw [bind_ends_iff, and_iff_right (checked r)]

end Checked

namespace Takes

theorem pure (a : α) : Takes 0 (Pure.pure a : Reads ε α) :=
  fun _ => ⟨fun _ => ⟨a, rfl⟩, fun short => absurd short (Nat.not_lt_zero _)⟩

theorem slice (n : Nat) : Takes n (Reads.slice n : Reads ε (FixedBytes n)) := by
  intro r
  constructor
  · intro enough
    exact ⟨⟨r.take n, List.length_take_of_le enough⟩, by simp [Reads.slice, takeFixed, enough, Outcome.unwrap]⟩
  · intro short
    simp [Reads.slice, takeFixed, Nat.not_le.mpr short, Outcome.unwrap]

theorem unwrap {value : Option α} (isSome : value.isSome) : Takes 0 (Reads.unwrap value : Reads ε α) := by
  obtain ⟨a, rfl⟩ := Option.isSome_iff_exists.mp isSome
  exact pure a

theorem bind {n k : Nat} {m : Reads ε α} {f : α → Reads ε β} (first : Takes n m) (later : ∀ a, Takes k (f a)) :
    Takes (n + k) (m >>= f) := by
  intro r
  constructor
  · intro enough
    obtain ⟨a, ok⟩ := (first r).1 (by omega)
    obtain ⟨b, ok'⟩ := (later a (r.drop n)).1 (by rw [List.length_drop]; omega)
    exact ⟨b, by rw [bind_apply, ok, ok_bind, ok', List.drop_drop]⟩
  · intro short
    rcases Nat.lt_or_ge r.length n with none | some
    · rw [bind_apply, (first r).2 none]
      rfl
    · obtain ⟨a, ok⟩ := (first r).1 some
      rw [bind_apply, ok, ok_bind]
      exact (later a (r.drop n)).2 (by rw [List.length_drop]; omega)

theorem mapM {n : Nat} {f : ι → Reads ε α} (is : List ι) (each : ∀ i ∈ is, Takes n (f i)) :
    Takes (n * is.length) (is.mapM f) := by
  induction is with
  | nil => exact pure []
  | cons i is ih =>
      rw [List.mapM_cons]
      have later := ih fun j mem => each j (List.mem_cons_of_mem i mem)
      have all := (each i List.mem_cons_self).bind fun a => later.bind fun as => pure (a :: as)
      have length : n + (n * is.length + 0) = n * (i :: is).length := by
        rw [List.length_cons, Nat.mul_succ]
        omega
      exact length ▸ all

theorem bind_ends {allowed : Prop} {n : Nat} {m : Reads ε α} (takes : Takes n m) {f : α → Reads ε β}
    {r : List UInt8} : Outcome.Ends allowed ((m >>= f) r) ↔
      n ≤ r.length ∧ ∀ a, m r = .ok (a, r.drop n) → Outcome.Ends allowed (f a (r.drop n)) := by
  rw [bind_ends_iff]
  rcases Nat.lt_or_ge r.length n with short | enough
  · rw [(takes r).2 short]
    simp [Nat.not_le.mpr short]
  · obtain ⟨a, ok⟩ := (takes r).1 enough
    simp [ok, enough]

end Takes

theorem length_of_mapM {f : ι → Reads ε α} {is : List ι} {r rest : List UInt8} {as : List α}
    (ok : is.mapM f r = .ok (as, rest)) : as.length = is.length := by
  induction is generalizing r as with
  | nil =>
      cases ok
      rfl
  | cons i is ih =>
      rw [List.mapM_cons, bind_ok_iff] at ok
      obtain ⟨a, middle, -, ok⟩ := ok
      rw [bind_ok_iff] at ok
      obtain ⟨later, end_, ok, made⟩ := ok
      cases made
      rw [List.length_cons, List.length_cons, ih ok]

/-! ## Readers of what was written -/

def Parses (m : Reads ε α) (bytes : List UInt8) (a : α) : Prop := ∀ rest, m (bytes ++ rest) = .ok (a, rest)

namespace Parses

theorem pure (a : α) : Parses (Pure.pure a : Reads ε α) [] a := fun _ => rfl

theorem slice {n : Nat} (bytes : FixedBytes n) : Parses (Reads.slice n : Reads ε (FixedBytes n)) bytes.1 bytes := by
  intro rest
  rw [Reads.slice, takeFixed_append]
  rfl

theorem unwrap {value : Option α} {a : α} (found : value = some a) : Parses (Reads.unwrap value : Reads ε α) [] a := by
  intro rest
  rw [found]
  rfl

theorem ofOption (e : ε) {decode : List UInt8 → Option (α × List UInt8)} {bytes : List UInt8} {a : α}
    (decodes : ∀ rest, decode (bytes ++ rest) = some (a, rest)) : Parses (Reads.ofOption e decode) bytes a := by
  intro rest
  rw [Reads.ofOption, decodes]

theorem bind {m : Reads ε α} {f : α → Reads ε β} {bytes bytes' : List UInt8} {a : α} {b : β} (first : Parses m bytes a)
    (later : Parses (f a) bytes' b) : Parses (m >>= f) (bytes ++ bytes') b := by
  intro rest
  rw [bind_apply, List.append_assoc, first, ok_bind, later]

theorem bind_pure {m : Reads ε α} {f : α → β} {bytes : List UInt8} {a : α} (first : Parses m bytes a) :
    Parses (m >>= fun a => Pure.pure (f a)) bytes (f a) := by
  have both : Parses (m >>= fun a => Pure.pure (f a)) (bytes ++ []) (f a) := first.bind (pure (f a))
  rwa [List.append_nil] at both

theorem mapM {κ : Type} {f : ι → Reads ε α} {encode : κ → List UInt8} {value : κ → α} {is : List ι} {items : List κ}
    (each : List.Forall₂ (fun i item => Parses (f i) (encode item) (value item)) is items) :
    Parses (is.mapM f) (items.flatMap encode) (items.map value) := by
  induction each with
  | nil => exact pure []
  | cons first _ ih =>
      rw [List.mapM_cons, List.flatMap_cons, List.map_cons]
      exact first.bind ih.bind_pure

theorem mapM_range {κ : Type} {f : Nat → Reads ε α} {encode : κ → List UInt8} {value : κ → α} {items : List κ}
    (each : ∀ i item, items[i]? = some item → Parses (f i) (encode item) (value item)) :
    Parses ((List.range items.length).mapM f) (items.flatMap encode) (items.map value) := by
  apply mapM
  rw [List.forall₂_iff_get]
  refine ⟨List.length_range, ?_⟩
  intro i _ within
  rw [List.get_eq_getElem, List.getElem_range]
  exact each i _ (List.getElem?_eq_getElem within)

end Parses

end Reads

end KonaSoon.Lib
