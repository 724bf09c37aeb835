import KonaSoon.Lib.Bytes

/-!
# Processes on a reliable byte channel

A link carries bytes in one direction, in order and without loss. What was written is in flight until
it arrives, one byte at a time, and a reader waits until as many bytes as it asked for have arrived.
A process is a program that writes to one link and reads from another.
-/

namespace KonaSoon.Lib

structure Link where
  arrived : List UInt8
  inFlight : List UInt8
deriving DecidableEq, Repr

namespace Link

def empty : Link := ⟨[], []⟩

def unread (link : Link) : List UInt8 := link.arrived ++ link.inFlight

def write (link : Link) (bytes : List UInt8) : Link := { link with inFlight := link.inFlight ++ bytes }

def deliver (link : Link) : Option Link :=
  match link.inFlight with
  | [] => none
  | b :: rest => some ⟨link.arrived ++ [b], rest⟩

def readExact (link : Link) (n : Nat) : Option (FixedBytes n × Link) :=
  (takeFixed n link.arrived).map fun (bytes, rest) => (bytes, { link with arrived := rest })

variable {link link' : Link}

@[simp] theorem unread_write (link : Link) (bytes : List UInt8) : (link.write bytes).unread = link.unread ++ bytes :=
  (List.append_assoc ..).symm

theorem deliver_spec (delivers : link.deliver = some link') :
    link'.unread = link.unread ∧ link'.inFlight.length < link.inFlight.length := by
  unfold deliver at delivers
  split at delivers
  · cases delivers
  · rename_i b rest here
    cases delivers
    simp [unread, here]

theorem readExact_spec {n : Nat} {bytes : FixedBytes n} (reads : link.readExact n = some (bytes, link')) :
    link.unread = bytes.1 ++ link'.unread ∧ link'.inFlight = link.inFlight := by
  obtain ⟨⟨taken, rest⟩, takes, same⟩ := Option.map_eq_some_iff.mp reads
  unfold takeFixed at takes
  split at takes
  · cases takes
    cases same
    simp [unread, ← List.append_assoc]
  · cases takes

theorem le_unread_of_readExact {n : Nat} {bytes : FixedBytes n} (reads : link.readExact n = some (bytes, link')) :
    n ≤ link.unread.length := by
  rw [(readExact_spec reads).1, List.length_append, bytes.2]
  omega

theorem readExact_eq {n : Nat} {bytes : FixedBytes n} {front rest : List UInt8}
    (reads : link.readExact n = some (bytes, link')) (holds : link.unread = front ++ rest) (length : front.length = n) :
    bytes.1 = front ∧ link'.unread = rest := by
  refine List.append_inj ?_ (bytes.2.trans length.symm)
  rw [← holds, (readExact_spec reads).1]

theorem readExact_or_deliver {n : Nat} (enough : n ≤ link.unread.length) :
    (link.readExact n).isSome ∨ link.deliver.isSome := by
  by_cases here : n ≤ link.arrived.length
  · left
    simp [readExact, takeFixed, here]
  · right
    cases flying : link.inFlight with
    | nil =>
        simp only [unread, flying, List.append_nil] at enough
        omega
    | cons b rest => simp [deliver, flying]

end Link

inductive Proc (α : Type) where
  | ret (a : α)
  | write (bytes : List UInt8) (next : Proc α)
  | readExact (n : Nat) (next : FixedBytes n → Proc α)

namespace Proc

variable {α β : Type}

def bind : Proc α → (α → Proc β) → Proc β
  | ret a, f => f a
  | write bytes next, f => write bytes (next.bind f)
  | readExact n next, f => readExact n fun bytes => (next bytes).bind f

instance : Monad Proc where
  pure := ret
  bind := bind

def send (bytes : List UInt8) : Proc Unit := write bytes (ret ())

def receive (n : Nat) : Proc (FixedBytes n) := readExact n ret

@[simp] theorem pure_eq (a : α) : (pure a : Proc α) = ret a := rfl

@[simp] theorem ret_bind (a : α) (f : α → Proc β) : (ret a >>= f) = f a := rfl

@[simp] theorem send_bind (bytes : List UInt8) (f : Unit → Proc β) : (send bytes >>= f) = write bytes (f ()) := rfl

@[simp] theorem receive_bind (n : Nat) (f : FixedBytes n → Proc β) : (receive n >>= f) = readExact n f := rfl

@[simp] theorem write_bind (bytes : List UInt8) (next : Proc α) (f : α → Proc β) :
    (write bytes next >>= f) = write bytes (next >>= f) := rfl

@[simp] theorem readExact_bind (n : Nat) (next : FixedBytes n → Proc α) (f : α → Proc β) :
    (readExact n next >>= f) = readExact n fun bytes => next bytes >>= f := rfl

/-- One action of a process that writes to `out` and reads from `inn`, unless it has returned or waits. -/
def act : Proc α → Link → Link → Option (Proc α × Link × Link)
  | ret _, _, _ => none
  | write bytes next, out, inn => some (next, out.write bytes, inn)
  | readExact n next, out, inn => (inn.readExact n).map fun (bytes, inn) => (next bytes, out, inn)

theorem act_readExact {n : Nat} {next : FixedBytes n → Proc α} {out inn out' inn' : Link} {proc' : Proc α}
    (acts : (readExact n next).act out inn = some (proc', out', inn')) :
    out' = out ∧ ∃ bytes, proc' = next bytes ∧ inn.readExact n = some (bytes, inn') := by
  obtain ⟨⟨bytes, rest⟩, reads, same⟩ := Option.map_eq_some_iff.mp acts
  cases same
  exact ⟨rfl, bytes, rfl, reads⟩

end Proc

end KonaSoon.Lib
