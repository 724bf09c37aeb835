import KonaSoon.Lib.Asking
import KonaSoon.Lib.Channel

/-!
# Calls of one client to services that share a memory

A client calls services, one call after the other, each over the two links of its port. Every service is a task
of its own: it reads a request, works on the memory, writes a response and starts again, until it fails. The parties
and the links take their steps in any order, and no order can be told from the one in which every call is carried out
at once.
-/

namespace KonaSoon.Lib

/-! ## Workers -/

inductive Worker (S α : Type) where
  | ret (a : α)
  | write (bytes : List UInt8) (next : Worker S α)
  | readExact (n : Nat) (next : FixedBytes n → Worker S α)
  | access (update : S → S) (next : S → Worker S α)

namespace Worker

variable {S α β : Type}

protected def bind : Worker S α → (α → Worker S β) → Worker S β
  | ret a, f => f a
  | write bytes next, f => write bytes (next.bind f)
  | readExact n next, f => readExact n fun bytes => (next bytes).bind f
  | access update next, f => access update fun memory => (next memory).bind f

instance : Monad (Worker S) where
  pure := ret
  bind := Worker.bind

def send (bytes : List UInt8) : Worker S Unit := write bytes (ret ())

def receive (n : Nat) : Worker S (FixedBytes n) := readExact n ret

@[simp] theorem pure_eq (a : α) : (pure a : Worker S α) = ret a := rfl

@[simp] theorem ret_bind (a : α) (f : α → Worker S β) : (ret a >>= f) = f a := rfl

@[simp] theorem send_bind (bytes : List UInt8) (f : Unit → Worker S β) : (send bytes >>= f) = write bytes (f ()) := rfl

@[simp] theorem receive_bind (n : Nat) (f : FixedBytes n → Worker S β) : (receive n >>= f) = readExact n f := rfl

@[simp] theorem write_bind (bytes : List UInt8) (next : Worker S α) (f : α → Worker S β) :
    (write bytes next >>= f) = write bytes (next >>= f) := rfl

@[simp] theorem access_bind (update : S → S) (next : S → Worker S α) (f : α → Worker S β) :
    (access update next >>= f) = access update fun memory => next memory >>= f := rfl

/-- One action of a task that writes to `out` and reads from `inn`, unless it has returned or waits. -/
def act : Worker S α → S → Link → Link → Option (Worker S α × S × Link × Link)
  | ret _, _, _, _ => none
  | write bytes next, memory, out, inn => some (next, memory, out.write bytes, inn)
  | readExact n next, memory, out, inn => (inn.readExact n).map fun (bytes, inn) => (next bytes, memory, out, inn)
  | access update next, memory, out, inn => some (next memory, update memory, out, inn)

theorem act_readExact {n : Nat} {next : FixedBytes n → Worker S α} {memory memory' : S} {out inn out' inn' : Link}
    {task' : Worker S α} (acts : (readExact n next).act memory out inn = some (task', memory', out', inn')) :
    memory' = memory ∧ out' = out ∧ ∃ bytes, task' = next bytes ∧ inn.readExact n = some (bytes, inn') := by
  obtain ⟨⟨bytes, rest⟩, reads, same⟩ := Option.map_eq_some_iff.mp acts
  cases same
  exact ⟨rfl, rfl, bytes, rfl, reads⟩

variable {ε : Type}

/-- A run of a service for one request: the number of its actions, what it reads, the memory before and after, what it
writes, whether this is a full response, and how it ends. A full response is written by the last action. -/
inductive Serves : Nat → Worker S (Except ε Unit) → List UInt8 → S → S → List UInt8 → Bool → Except ε Unit → Prop
  | fails (memory : S) (e : ε) : Serves 0 (.ret (.error e)) [] memory memory [] false (.error e)
  | ends {chunk : List UInt8} (memory : S) (result : Except ε Unit) (some : chunk ≠ []) :
      Serves 1 (.write chunk (.ret result)) [] memory memory chunk true result
  | write {k : Nat} {next : Worker S (Except ε Unit)} {inn out : List UInt8} {memory after : S} {full : Bool}
      {result : Except ε Unit} (chunk : List UInt8) (serves : Serves k next inn memory after out full result) :
      Serves (k + 1) (.write chunk next) inn memory after (chunk ++ out) full result
  | readExact {k n : Nat} {next : FixedBytes n → Worker S (Except ε Unit)} {inn out : List UInt8} {memory after : S}
      {full : Bool} {result : Except ε Unit} (bytes : FixedBytes n)
      (serves : Serves k (next bytes) inn memory after out full result) :
      Serves (k + 1) (.readExact n next) (bytes.1 ++ inn) memory after out full result
  | access {k : Nat} {update : S → S} {next : S → Worker S (Except ε Unit)} {inn out : List UInt8} {memory after : S}
      {full : Bool} {result : Except ε Unit}
      (serves : Serves k (next memory) inn (update memory) after out full result) :
      Serves (k + 1) (.access update next) inn memory after out full result

theorem Serves.out_ne_nil {k : Nat} {task : Worker S (Except ε Unit)} {inn out : List UInt8} {memory after : S}
    {result : Except ε Unit} (serves : Serves k task inn memory after out true result) : out ≠ [] := by
  generalize responded : true = full at serves
  induction serves with
  | fails memory e => cases responded
  | ends memory result some => exact some
  | write chunk serves ih => exact fun none => ih responded (List.append_eq_nil_iff.mp none).2
  | readExact bytes serves ih => exact ih responded
  | access serves ih => exact ih responded

end Worker

inductive Accesses (S α : Type) where
  | ret (a : α)
  | access (update : S → S) (next : S → Accesses S α)

namespace Accesses

variable {S α β ε : Type}

protected def bind : Accesses S α → (α → Accesses S β) → Accesses S β
  | ret a, f => f a
  | access update next, f => access update fun memory => (next memory).bind f

instance : Monad (Accesses S) where
  pure := ret
  bind := Accesses.bind

def modifyGet (f : S → S × α) : Accesses S α := access (fun memory => (f memory).1) fun memory => ret (f memory).2

def read (f : S → α) : Accesses S α := access id fun memory => ret (f memory)

def modify (update : S → S) : Accesses S Unit := access update fun _ => ret ()

def run : Accesses S α → S → S × α
  | ret a, memory => (memory, a)
  | access update next, memory => (next memory).run (update memory)

@[simp] theorem run_pure (a : α) (memory : S) : (pure a : Accesses S α).run memory = (memory, a) := rfl

@[simp] theorem run_bind (accesses : Accesses S α) (f : α → Accesses S β) (memory : S) :
    (accesses >>= f).run memory = (f (accesses.run memory).2).run (accesses.run memory).1 := by
  induction accesses generalizing memory with
  | ret a => rfl
  | access update next ih => exact ih memory (update memory)

@[simp] theorem run_modifyGet (f : S → S × α) (memory : S) : (modifyGet f).run memory = f memory := rfl

@[simp] theorem run_read (f : S → α) (memory : S) : (read f).run memory = (memory, f memory) := rfl

@[simp] theorem run_modify (update : S → S) (memory : S) : (modify update).run memory = (update memory, ()) := rfl

def toWorker : Accesses S α → (α → Worker S β) → Worker S β
  | ret a, f => f a
  | access update next, f => .access update fun memory => (next memory).toWorker f

theorem serves {accesses : Accesses S α} {f : α → Worker S (Except ε Unit)} {k : Nat} {inn out : List UInt8}
    {memory after : S} {full : Bool} {result : Except ε Unit}
    (serves : (f (accesses.run memory).2).Serves k inn (accesses.run memory).1 after out full result) :
    ∃ k', (accesses.toWorker f).Serves k' inn memory after out full result := by
  induction accesses generalizing memory with
  | ret a => exact ⟨k, serves⟩
  | access update next ih =>
      obtain ⟨k', serves'⟩ := ih memory serves
      exact ⟨k' + 1, .access serves'⟩

end Accesses

namespace Proc

variable {α : Type}

inductive Calls : Nat → Proc α → List UInt8 → List UInt8 → α → Prop
  | ret (a : α) : Calls 0 (.ret a) [] [] a
  | write {k : Nat} {next : Proc α} {out inn : List UInt8} {a : α} (chunk : List UInt8)
      (calls : Calls k next out inn a) : Calls (k + 1) (.write chunk next) (chunk ++ out) inn a
  | readExact {k n : Nat} {next : FixedBytes n → Proc α} {inn : List UInt8} {a : α} (bytes : FixedBytes n)
      (calls : Calls k (next bytes) [] inn a) : Calls (k + 1) (.readExact n next) [] (bytes.1 ++ inn) a

end Proc

/-! ## Sessions -/

inductive Handled (ε Answer : Type) where
  | answered (answer : Answer) (result : Except ε Unit)
  | failed (e : ε)
deriving DecidableEq, Repr

structure Services (Port Call S ε Answer : Type) where
  port : Call → Port
  proc : Call → Proc Answer
  service : Port → Worker S (Except ε Unit)

inductive Client (Call Answer R : Type) where
  | running (program : Asking Call Answer R)
  | calling (call : Call) (proc : Proc Answer) (next : Answer → Asking Call Answer R)

structure Session (Port Call S ε Answer R : Type) where
  client : Client Call Answer R
  memory : S
  tasks : Port → Worker S (Except ε Unit)
  requests : Port → Link
  responses : Port → Link
  log : List (Call × Answer)

inductive Party (Port : Type) where
  | client
  | service (port : Port)
  | request (port : Port)
  | response (port : Port)
deriving DecidableEq, Repr

def again {S ε : Type} (service : Worker S (Except ε Unit)) : Worker S (Except ε Unit) → Worker S (Except ε Unit)
  | .ret (.ok ()) => service
  | task => task

namespace Session

variable {Port Call S ε Answer R : Type}

def start (services : Services Port Call S ε Answer) (memory : S) (program : Asking Call Answer R) :
    Session Port Call S ε Answer R where
  client := .running program
  memory := memory
  tasks := services.service
  requests _ := .empty
  responses _ := .empty
  log := []

def result (s : Session Port Call S ε Answer R) : Option R :=
  match s.client with
  | .running (.done result) => some result
  | _ => none

def continueWith (s : Session Port Call S ε Answer R) (call : Call) (next : Answer → Asking Call Answer R) :
    Proc Answer → Session Port Call S ε Answer R
  | .ret answer => { s with client := .running (next answer), log := s.log ++ [(call, answer)] }
  | proc => { s with client := .calling call proc next }

variable [DecidableEq Port]

def setLinks (s : Session Port Call S ε Answer R) (port : Port) (request response : Link) :
    Session Port Call S ε Answer R :=
  { s with
    requests := Function.update s.requests port request
    responses := Function.update s.responses port response }

def step (services : Services Port Call S ε Answer) (s : Session Port Call S ε Answer R) :
    Party Port → Option (Session Port Call S ε Answer R)
  | .client =>
      match s.client with
      | .running (.done _) => none
      | .running (.ask call next) => some { s with client := .calling call (services.proc call) next }
      | .calling call proc next =>
          (proc.act (s.requests (services.port call)) (s.responses (services.port call))).map
            fun (proc, request, response) => (s.setLinks (services.port call) request response).continueWith call next proc
  | .service port =>
      ((s.tasks port).act s.memory (s.responses port) (s.requests port)).map fun (task, memory, response, request) =>
        { s.setLinks port request response with
          memory, tasks := Function.update s.tasks port (again (services.service port) task) }
  | .request port => (s.requests port).deliver.map fun request => s.setLinks port request (s.responses port)
  | .response port => (s.responses port).deliver.map fun response => s.setLinks port (s.requests port) response

def Moves (services : Services Port Call S ε Answer) (s s' : Session Port Call S ε Answer R) : Prop :=
  ∃ party, s.step services party = some s'

def Reachable (services : Services Port Call S ε Answer) (memory : S) (program : Asking Call Answer R) :
    Session Port Call S ε Answer R → Prop :=
  Relation.ReflTransGen (Moves services) (start services memory program)

end Session

/-! ## Every call at once -/

structure Course (Port Call S ε Answer R : Type) where
  memory : S
  stopped : Port → Option ε
  log : List (Call × Answer)
  rest : Asking Call Answer R

/-- The services that have stopped once `port` has ended so. -/
def stopAt {Port ε : Type} [DecidableEq Port] (stopped : Port → Option ε) (port : Port) (result : Except ε Unit) :
    Port → Option ε :=
  match result with
  | .ok () => stopped
  | .error e => Function.update stopped port (some e)

section Atomically

variable {Port Call S ε Answer R : Type} [DecidableEq Port]

def atomically (port : Call → Port) (handle : S → Call → S × Handled ε Answer) :
    S → (Port → Option ε) → List (Call × Answer) → Asking Call Answer R → Course Port Call S ε Answer R
  | memory, stopped, log, .done result => ⟨memory, stopped, log, .done result⟩
  | memory, stopped, log, .ask call next =>
      match stopped (port call) with
      | some _ => ⟨memory, stopped, log, .ask call next⟩
      | none =>
          match handle memory call with
          | (memory, .answered answer result) =>
              atomically port handle memory (stopAt stopped (port call) result) (log ++ [(call, answer)]) (next answer)
          | (memory, .failed e) => ⟨memory, stopAt stopped (port call) (.error e), log, .ask call next⟩

end Atomically

/-! ## Exchanges -/

structure Services.Handles {Port Call S ε Answer : Type} (services : Services Port Call S ε Answer)
    (handle : S → Call → S × Handled ε Answer) : Prop where
  waits : ∀ port, ∃ n next, 0 < n ∧ services.service port = .readExact n next
  answers : ∀ {call memory after answer result}, handle memory call = (after, .answered answer result) →
    ∃ k k' out inn, (services.proc call).Calls k out inn answer ∧
      (services.service (services.port call)).Serves k' out memory after inn true result
  fails : ∀ {call memory after e}, handle memory call = (after, .failed e) →
    ∃ k k' out inn answer, (services.proc call).Calls k out inn answer ∧ inn ≠ [] ∧
      (services.service (services.port call)).Serves k' out memory after [] false (.error e)

section Exchanges

variable {S ε Answer : Type}

theorem Services.Handles.calls {Port Call : Type} {services : Services Port Call S ε Answer}
    {handle : S → Call → S × Handled ε Answer} (handles : services.Handles handle) (memory : S) (call : Call) :
    ∃ k out inn answer, (services.proc call).Calls k out inn answer ∧ inn ≠ [] := by
  rcases handled : handle memory call with ⟨after, ⟨answer, result⟩ | ⟨e⟩⟩
  · obtain ⟨k, k', out, inn, calls, serves⟩ := handles.answers handled
    exact ⟨k, out, inn, answer, calls, serves.out_ne_nil⟩
  · obtain ⟨k, k', out, inn, answer, calls, some, -⟩ := handles.fails handled
    exact ⟨k, out, inn, answer, calls, some⟩

theorem Proc.Calls.ne_ret {k : Nat} {proc : Proc Answer} {out inn : List UInt8} {answer : Answer}
    (calls : proc.Calls k out inn answer) (some : inn ≠ []) (a : Answer) : proc ≠ .ret a := by
  rintro rfl
  cases calls
  exact some rfl

/-- Where a service stands that is to leave the memory `after` and end in `result`. -/
inductive Stands (service : Worker S (Except ε Unit)) (after : S) (full : Bool) (result : Except ε Unit) :
    Nat → Worker S (Except ε Unit) → S → List UInt8 → List UInt8 → Prop
  | serving {k : Nat} {task : Worker S (Except ε Unit)} {memory : S} {inn out : List UInt8}
      (serves : task.Serves k inn memory after out full result) : Stands service after full result k task memory inn out
  | served {inn : List UInt8} (read : full = true → inn = []) :
      Stands service after full result 0 (again service (.ret result)) after inn []

inductive Exchange (service : Worker S (Except ε Unit)) (after : S) (full : Bool) (result : Except ε Unit)
    (answer : Answer) (proc : Proc Answer) (task : Worker S (Except ε Unit)) (memory : S) (requests responses : List UInt8) :
    Nat → Prop
  | intro {k k' : Nat} {asking awaited reading replying missing : List UInt8} (calls : proc.Calls k asking awaited answer)
      (stands : Stands service after full result k' task memory reading replying)
      (awaited_eq : awaited = responses ++ (replying ++ missing)) (reading_eq : reading = requests ++ asking)
      (none_missing : missing = [] ↔ full = true) (refused : full = false → ∃ e, result = .error e) :
      Exchange service after full result answer proc task memory requests responses (k + k')

theorem Worker.Serves.again_eq {k : Nat} {task : Worker S (Except ε Unit)} {inn out : List UInt8} {memory after : S}
    {full : Bool} {result : Except ε Unit} (serves : task.Serves k inn memory after out full result)
    (service : Worker S (Except ε Unit)) : again service task = task := by
  cases serves <;> rfl

theorem readExact_front {n : Nat} {bytes taken : FixedBytes n} {link link' : Link} {rest later : List UInt8}
    (reads : link.readExact n = some (taken, link')) (holds : bytes.1 ++ rest = link.unread ++ later) :
    taken = bytes ∧ rest = link'.unread ++ later := by
  rw [(Link.readExact_spec reads).1, List.append_assoc] at holds
  obtain ⟨same, left⟩ := List.append_inj holds (bytes.2.trans taken.2.symm)
  exact ⟨Subtype.ext same.symm, left⟩

namespace Exchange

variable {service : Worker S (Except ε Unit)} {after memory memory' : S} {full : Bool} {result : Except ε Unit}
  {answer : Answer} {rank : Nat} {proc proc' : Proc Answer} {task task' : Worker S (Except ε Unit)}
  {request response request' response' : Link}

theorem client_acts
    (exchange : Exchange service after full result answer proc task memory request.unread response.unread rank)
    (acts : proc.act request response = some (proc', request', response')) :
    ∃ rank' < rank, Exchange service after full result answer proc' task memory request'.unread response'.unread rank' := by
  obtain ⟨calls, stands, awaited_eq, reading_eq, none_missing, refused⟩ := exchange
  rename_i k k' asking awaited reading replying missing
  cases calls with
  | ret a => cases acts
  | @write k next asking awaited a chunk calls =>
      cases acts
      refine ⟨k + k', by omega, .intro calls stands awaited_eq ?_ none_missing refused⟩
      rw [reading_eq, Link.unread_write, List.append_assoc]
  | @readExact k n next awaited a bytes calls =>
      obtain ⟨rfl, taken, rfl, reads⟩ := Proc.act_readExact acts
      obtain ⟨rfl, rest⟩ := readExact_front reads awaited_eq
      exact ⟨k + k', by omega, .intro calls stands rest reading_eq none_missing refused⟩

theorem service_acts (waits : ∃ n next, 0 < n ∧ service = .readExact n next)
    (exchange : Exchange service after full result answer proc task memory request.unread response.unread rank)
    (acts : task.act memory response request = some (task', memory', response', request')) :
    ∃ rank' < rank, Exchange service after full result answer proc (again service task') memory' request'.unread
      response'.unread rank' := by
  obtain ⟨calls, stands, awaited_eq, reading_eq, none_missing, refused⟩ := exchange
  rename_i k k' asking awaited reading replying missing
  cases stands with
  | serving serves =>
      cases serves with
      | fails memory e => cases acts
      | ends memory result some =>
          cases acts
          refine ⟨k + 0, by omega, .intro calls (.served fun _ => rfl) ?_ reading_eq none_missing refused⟩
          rw [awaited_eq, Link.unread_write, List.nil_append, List.append_assoc]
      | @write k' next reading replying memory after full result chunk serves =>
          cases acts
          rw [serves.again_eq]
          refine ⟨k + k', by omega, .intro calls (.serving serves) ?_ reading_eq none_missing refused⟩
          rw [awaited_eq, Link.unread_write, List.append_assoc, List.append_assoc]
      | @readExact k' n next reading replying memory after full result bytes serves =>
          obtain ⟨rfl, rfl, taken, rfl, reads⟩ := Worker.act_readExact acts
          obtain ⟨rfl, rest⟩ := readExact_front reads reading_eq
          rw [serves.again_eq]
          exact ⟨k + k', by omega, .intro calls (.serving serves) awaited_eq rest none_missing refused⟩
      | @access k' update next reading replying memory after full result serves =>
          cases acts
          rw [serves.again_eq]
          exact ⟨k + k', by omega, .intro calls (.serving serves) awaited_eq reading_eq none_missing refused⟩
  | served read =>
      cases result with
      | error e => cases acts
      | ok done =>
          have responded : full = true := by
            cases full with
            | true => rfl
            | false => obtain ⟨e, failed⟩ := refused rfl; cases failed
          obtain ⟨n, next, positive, rfl⟩ := waits
          obtain ⟨-, -, taken, -, reads⟩ := Worker.act_readExact acts
          have enough := Link.le_unread_of_readExact reads
          rw [(List.append_eq_nil_iff.mp (reading_eq.symm.trans (read responded))).1, List.length_nil] at enough
          omega

theorem returned {a : Answer} {requests responses : List UInt8}
    (exchange : Exchange service after full result answer (.ret a) task memory requests responses rank) :
    a = answer ∧ full = true ∧ task = again service (.ret result) ∧ memory = after ∧ requests = [] ∧ responses = [] := by
  obtain ⟨calls, stands, awaited_eq, reading_eq, none_missing, refused⟩ := exchange
  cases calls
  obtain ⟨noResponse, rest⟩ := List.append_eq_nil_iff.mp awaited_eq.symm
  obtain ⟨replied, missing⟩ := List.append_eq_nil_iff.mp rest
  have responded := none_missing.mp missing
  cases stands with
  | serving serves =>
      subst responded
      exact absurd replied serves.out_ne_nil
  | served read =>
      rw [List.append_nil] at reading_eq
      exact ⟨rfl, responded, rfl, rfl, reading_eq.symm.trans (read responded), noResponse⟩

theorem progress
    (exchange : Exchange service after full result answer proc task memory request.unread response.unread rank)
    (running : ∀ a, proc ≠ .ret a) :
    ((proc.act request response).isSome ∨ (task.act memory response request).isSome ∨ request.deliver.isSome ∨
      response.deliver.isSome) ∨ (full = false ∧ memory = after) := by
  obtain ⟨calls, stands, awaited_eq, reading_eq, none_missing, refused⟩ := exchange
  cases calls with
  | ret => exact absurd rfl (running _)
  | write chunk calls => exact .inl (.inl rfl)
  | @readExact k n next awaited a bytes calls =>
      by_cases here : n ≤ response.unread.length
      · left
        rcases Link.readExact_or_deliver here with reads | delivers
        · exact .inl (by simpa [Proc.act] using reads)
        · exact .inr (.inr (.inr delivers))
      · cases stands with
        | served read =>
            cases full with
            | false => exact .inr ⟨rfl, rfl⟩
            | true =>
                have length := congrArg List.length awaited_eq
                simp only [none_missing.mpr rfl, List.append_nil, List.length_append, bytes.2] at length
                omega
        | serving serves =>
            cases serves with
            | fails memory e => exact .inr ⟨rfl, rfl⟩
            | ends memory result some => exact .inl (.inr (.inl rfl))
            | write chunk serves => exact .inl (.inr (.inl rfl))
            | access serves => exact .inl (.inr (.inl rfl))
            | @readExact k' n' next reading replying memory after full result bytes' serves =>
                have enough : n' ≤ request.unread.length := by
                  have length := congrArg List.length reading_eq
                  simp only [List.append_nil, List.length_append, bytes'.2] at length
                  omega
                left
                right
                rcases Link.readExact_or_deliver enough with reads | delivers
                · exact .inl (by simpa [Worker.act] using reads)
                · exact .inr (.inl delivers)

end Exchange

end Exchanges

/-! ## Sessions and their course -/

section Courses

variable {Port Call S ε Answer R : Type} [DecidableEq Port]

def resting (service : Worker S (Except ε Unit)) : Option ε → Worker S (Except ε Unit)
  | none => service
  | some e => .ret (.error e)

theorem stopAt_eq_self {stopped : Port → Option ε} {port : Port} {e : ε} (ends : stopped port = some e) :
    stopAt stopped port (.error e) = stopped := by
  rw [stopAt, ← ends]
  exact Function.update_eq_self ..

theorem stopAt_of_ne (stopped : Port → Option ε) {port other : Port} (differ : other ≠ port) (result : Except ε Unit) :
    stopAt stopped port result other = stopped other := by
  cases result with
  | ok done => rfl
  | error e => exact Function.update_of_ne differ ..

theorem resting_stopAt {stopped : Port → Option ε} {port : Port} (runs : stopped port = none)
    (service : Worker S (Except ε Unit)) (result : Except ε Unit) :
    resting service (stopAt stopped port result port) = again service (.ret result) := by
  cases result with
  | ok done => rw [stopAt, runs]; rfl
  | error e => rw [stopAt, Function.update_self]; rfl

structure Session.Idle (services : Services Port Call S ε Answer) (stopped : Port → Option ε)
    (s : Session Port Call S ε Answer R) (port : Port) : Prop where
  task : s.tasks port = resting (services.service port) (stopped port)
  requests : (s.requests port).unread = []
  responses : (s.responses port).unread = []

structure Session.Between (services : Services Port Call S ε Answer) (handle : S → Call → S × Handled ε Answer)
    (course : Course Port Call S ε Answer R) (program : Asking Call Answer R) (s : Session Port Call S ε Answer R) :
    Prop where
  stopped : ∃ stopped, atomically services.port handle s.memory stopped s.log program = course ∧
    ∀ port, s.Idle services stopped port
  client : s.client = .running program

inductive Session.Within (services : Services Port Call S ε Answer) (handle : S → Call → S × Handled ε Answer)
    (course : Course Port Call S ε Answer R) (call : Call) (next : Answer → Asking Call Answer R) (rank : Nat)
    (s : Session Port Call S ε Answer R) : Prop
  | intro {proc : Proc Answer} {after : S} {full : Bool} {result : Except ε Unit} {answer : Answer}
      {stopped : Port → Option ε} (client : s.client = .calling call proc next) (running : ∀ a, proc ≠ .ret a)
      (answered : full = true → stopped (services.port call) = none ∧
        atomically services.port handle after (stopAt stopped (services.port call) result) (s.log ++ [(call, answer)])
          (next answer) = course)
      (refused : full = false →
        course = ⟨after, stopAt stopped (services.port call) result, s.log, .ask call next⟩)
      (idle : ∀ port, port ≠ services.port call → s.Idle services stopped port)
      (exchange : Exchange (services.service (services.port call)) after full result answer proc
        (s.tasks (services.port call)) s.memory (s.requests (services.port call)).unread
        (s.responses (services.port call)).unread rank)

namespace Session

variable {services : Services Port Call S ε Answer} {handle : S → Call → S × Handled ε Answer}
  {course : Course Port Call S ε Answer R} {program : Asking Call Answer R} {stopped : Port → Option ε} {call : Call}
  {next : Answer → Asking Call Answer R} {rank : Nat} {s s' : Session Port Call S ε Answer R} {port : Port}

theorem deliver_of_unread {link link' : Link} (nothing : link.unread = []) : link.deliver ≠ some link' := by
  intro delivers
  have lower := (Link.deliver_spec delivers).2
  simp [(List.append_eq_nil_iff.mp nothing).2] at lower

theorem Idle.still (handles : services.Handles handle) (idle : s.Idle services stopped port) :
    s.step services (.service port) = none ∧ s.step services (.request port) = none ∧
      s.step services (.response port) = none := by
  refine ⟨?_, ?_, ?_⟩
  · refine Option.map_eq_none_iff.mpr (Option.eq_none_iff_forall_ne_some.mpr fun acted acts => ?_)
    rw [idle.task] at acts
    cases ends : stopped port with
    | some e =>
        rw [ends] at acts
        cases acts
    | none =>
        obtain ⟨n, next, positive, waits⟩ := handles.waits port
        rw [ends, resting, waits] at acts
        obtain ⟨-, -, taken, -, reads⟩ := Worker.act_readExact acts
        have enough := Link.le_unread_of_readExact reads
        rw [idle.requests, List.length_nil] at enough
        omega
  · exact Option.map_eq_none_iff.mpr (Option.eq_none_iff_forall_ne_some.mpr fun link => deliver_of_unread idle.requests)
  · exact Option.map_eq_none_iff.mpr (Option.eq_none_iff_forall_ne_some.mpr fun link => deliver_of_unread idle.responses)

omit [DecidableEq Port] in
theorem Idle.frame (idle : s.Idle services stopped port) (task : s'.tasks port = s.tasks port)
    (requests : s'.requests port = s.requests port) (responses : s'.responses port = s.responses port) :
    s'.Idle services stopped port :=
  ⟨task.trans idle.task, requests ▸ idle.requests, responses ▸ idle.responses⟩

theorem Within.begun (handles : services.Handles handle)
    (leads : atomically services.port handle s.memory stopped s.log (.ask call next) = course)
    (idle : ∀ port, s.Idle services stopped port) :
    ∃ rank, { s with client := .calling call (services.proc call) next }.Within services handle course call next rank := by
  have idle' : ∀ port, { s with client := .calling call (services.proc call) next }.Idle services stopped port :=
    fun port => (idle port).frame rfl rfl rfl
  obtain ⟨task, requests, responses⟩ := idle (services.port call)
  rw [atomically] at leads
  cases ends : stopped (services.port call) with
  | some e =>
      rw [ends] at leads task
      obtain ⟨k, out, inn, answer, calls, awaits⟩ := handles.calls s.memory call
      have exchange : Exchange (services.service (services.port call)) s.memory false (.error e) answer (services.proc call)
          (s.tasks (services.port call)) s.memory (s.requests (services.port call)).unread
          (s.responses (services.port call)).unread (k + 0) := by
        rw [task, requests, responses]
        exact .intro calls (.served (by simp)) rfl rfl (by simpa using awaits) fun _ => ⟨e, rfl⟩
      refine ⟨k + 0, .intro rfl (calls.ne_ret awaits) (by simp) (fun _ => ?_) (fun port _ => idle' port) exchange⟩
      rw [← leads, stopAt_eq_self ends]
  | none =>
      rw [ends] at leads task
      rcases handled : handle s.memory call with ⟨after, ⟨answer, result⟩ | ⟨e⟩⟩
      · rw [handled] at leads
        obtain ⟨k, k', out, inn, calls, serves⟩ := handles.answers handled
        have exchange : Exchange (services.service (services.port call)) after true result answer (services.proc call)
            (s.tasks (services.port call)) s.memory (s.requests (services.port call)).unread
            (s.responses (services.port call)).unread (k + k') := by
          rw [task, requests, responses]
          exact .intro calls (.serving serves) (List.append_nil inn).symm rfl (by simp) (by simp)
        refine ⟨k + k', .intro rfl (calls.ne_ret serves.out_ne_nil) (fun _ => ⟨ends, leads⟩) (by simp)
          (fun port _ => idle' port) exchange⟩
      · rw [handled] at leads
        obtain ⟨k, k', out, inn, answer, calls, awaits, serves⟩ := handles.fails handled
        have exchange : Exchange (services.service (services.port call)) after false (.error e) answer (services.proc call)
            (s.tasks (services.port call)) s.memory (s.requests (services.port call)).unread
            (s.responses (services.port call)).unread (k + k') := by
          rw [task, requests, responses]
          exact .intro calls (.serving serves) rfl rfl (by simpa using awaits) fun _ => ⟨e, rfl⟩
        refine ⟨k + k', .intro rfl (calls.ne_ret awaits) (by simp) (fun _ => leads.symm) (fun port _ => idle' port) exchange⟩

theorem Between.moves (handles : services.Handles handle) (between : s.Between services handle course program)
    (moves : Moves services s s') :
    ∃ call next, program = .ask call next ∧ ∃ rank, s'.Within services handle course call next rank := by
  obtain ⟨⟨stopped, leads, idle⟩, client⟩ := between
  obtain ⟨party, steps⟩ := moves
  cases party with
  | service port => rw [((idle port).still handles).1] at steps; cases steps
  | request port => rw [((idle port).still handles).2.1] at steps; cases steps
  | response port => rw [((idle port).still handles).2.2] at steps; cases steps
  | client =>
      simp only [step, client] at steps
      cases program with
      | done result => cases steps
      | ask call next =>
          cases steps
          exact ⟨call, next, rfl, Within.begun handles leads idle⟩

def flying (s : Session Port Call S ε Answer R) (port : Port) : Nat :=
  (s.requests port).inFlight.length + (s.responses port).inFlight.length

@[simp] theorem requests_setLinks (request response : Link) : (s.setLinks port request response).requests port = request :=
  Function.update_self ..

@[simp] theorem responses_setLinks (request response : Link) : (s.setLinks port request response).responses port = response :=
  Function.update_self ..

@[simp] theorem tasks_setLinks (request response : Link) : (s.setLinks port request response).tasks = s.tasks := rfl

@[simp] theorem memory_setLinks (request response : Link) : (s.setLinks port request response).memory = s.memory := rfl

theorem Idle.setLinks {other : Port} (idle : s.Idle services stopped other) (differ : other ≠ port)
    (request response : Link) : (s.setLinks port request response).Idle services stopped other :=
  idle.frame rfl (Function.update_of_ne differ ..) (Function.update_of_ne differ ..)

theorem Within.moves (handles : services.Handles handle) (within : s.Within services handle course call next rank)
    (moves : Moves services s s') :
    (∃ rank', s'.Within services handle course call next rank' ∧
      Prod.Lex (· < ·) (· < ·) (rank', s'.flying (services.port call)) (rank, s.flying (services.port call))) ∨
    ∃ answer, s'.Between services handle course (next answer) := by
  obtain ⟨client, running, answered, refused, idle, exchange⟩ := within
  rename_i proc after full result answer stopped
  obtain ⟨party, steps⟩ := moves
  cases party with
  | client =>
      simp only [step, client] at steps
      obtain ⟨⟨proc', request, response⟩, acts, rfl⟩ := Option.map_eq_some_iff.mp steps
      obtain ⟨rank', lower, exchange'⟩ := exchange.client_acts acts
      cases proc' with
      | ret a =>
          obtain ⟨rfl, responded, task, rfl, noRequest, noResponse⟩ := exchange'.returned
          obtain ⟨ends, leads⟩ := answered responded
          refine .inr ⟨a, ⟨⟨stopAt stopped (services.port call) result, leads, fun port => ?_⟩, rfl⟩⟩
          by_cases here : port = services.port call
          · subst here
            refine ⟨?_, ?_, ?_⟩
            · rw [resting_stopAt ends]
              exact task
            · simpa [continueWith, setLinks] using noRequest
            · simpa [continueWith, setLinks] using noResponse
          · have idle' := ((idle port here).setLinks here request response)
            refine ⟨?_, idle'.requests, idle'.responses⟩
            rw [stopAt_of_ne stopped here]
            exact idle'.task
      | write bytes rest =>
          refine .inl ⟨rank', .intro rfl nofun answered refused (fun port differ => ?_) ?_, .left _ _ lower⟩
          · exact ((idle port differ).setLinks differ request response).frame rfl rfl rfl
          · simpa [continueWith, setLinks] using exchange'
      | readExact n rest =>
          refine .inl ⟨rank', .intro rfl nofun answered refused (fun port differ => ?_) ?_, .left _ _ lower⟩
          · exact ((idle port differ).setLinks differ request response).frame rfl rfl rfl
          · simpa [continueWith, setLinks] using exchange'
  | service port =>
      by_cases here : port = services.port call
      · subst here
        obtain ⟨⟨task, memory, response, request⟩, acts, rfl⟩ := Option.map_eq_some_iff.mp steps
        obtain ⟨rank', lower, exchange'⟩ := exchange.service_acts (handles.waits _) acts
        refine .inl ⟨rank', .intro client running answered refused (fun port differ => ?_) ?_, .left _ _ lower⟩
        · exact (idle port differ).frame (Function.update_of_ne differ ..) (Function.update_of_ne differ ..)
            (Function.update_of_ne differ ..)
        · simpa [setLinks] using exchange'
      · rw [((idle port here).still handles).1] at steps
        cases steps
  | request port =>
      by_cases here : port = services.port call
      · subst here
        obtain ⟨request, delivers, rfl⟩ := Option.map_eq_some_iff.mp steps
        obtain ⟨same, lower⟩ := Link.deliver_spec delivers
        refine .inl ⟨rank, .intro client running answered refused (fun port differ => (idle port differ).setLinks differ ..) ?_,
          .right _ ?_⟩
        · simpa [same] using exchange
        · simpa [flying] using lower
      · rw [((idle port here).still handles).2.1] at steps
        cases steps
  | response port =>
      by_cases here : port = services.port call
      · subst here
        obtain ⟨response, delivers, rfl⟩ := Option.map_eq_some_iff.mp steps
        obtain ⟨same, lower⟩ := Link.deliver_spec delivers
        refine .inl ⟨rank, .intro client running answered refused (fun port differ => (idle port differ).setLinks differ ..) ?_,
          .right _ ?_⟩
        · simpa [same] using exchange
        · simpa [flying] using lower
      · rw [((idle port here).still handles).2.2] at steps
        cases steps

theorem Within.rests (within : s.Within services handle course call next rank) (stuck : ∀ s', ¬ Moves services s s') :
    s.memory = course.memory ∧ s.log = course.log ∧ course.rest = .ask call next := by
  obtain ⟨client, running, answered, refused, idle, exchange⟩ := within
  rename_i proc after full result answer stopped
  have still : ∀ party, s.step services party = none :=
    fun party => Option.eq_none_iff_forall_ne_some.mpr fun s' steps => stuck s' ⟨party, steps⟩
  rcases exchange.progress running with moves | ⟨unanswered, rfl⟩
  · rcases moves with acts | acts | delivers | delivers
    · have blocked := still .client
      simp only [step, client, Option.map_eq_none_iff] at blocked
      rw [blocked] at acts
      cases acts
    · rw [Option.map_eq_none_iff.mp (still (.service (services.port call)))] at acts
      cases acts
    · rw [Option.map_eq_none_iff.mp (still (.request (services.port call)))] at delivers
      cases delivers
    · rw [Option.map_eq_none_iff.mp (still (.response (services.port call)))] at delivers
      cases delivers
  · rw [refused unanswered]
    exact ⟨rfl, rfl, rfl⟩

theorem Between.rests (between : s.Between services handle course program) (stuck : ∀ s', ¬ Moves services s s') :
    s.memory = course.memory ∧ s.log = course.log ∧ course.rest = program := by
  obtain ⟨⟨stopped, leads, idle⟩, client⟩ := between
  cases program with
  | done result =>
      rw [← leads]
      exact ⟨rfl, rfl, rfl⟩
  | ask call next =>
      refine absurd ?_ (stuck { s with client := .calling call (services.proc call) next })
      refine ⟨.client, ?_⟩
      simp only [step, client]

theorem Within.acc (handles : services.Handles handle)
    (ih : ∀ answer s, s.Between services handle course (next answer) → Acc (fun after before => Moves services before after) s)
    {rank : Nat} {s : Session Port Call S ε Answer R} (within : s.Within services handle course call next rank) :
    Acc (fun after before => Moves services before after) s := by
  constructor
  intro s' moves
  rcases within.moves handles moves with ⟨rank', within', closer⟩ | ⟨answer, between⟩
  · exact within'.acc handles ih
  · exact ih answer s' between
termination_by (rank, s.flying (services.port call))
decreasing_by exact closer

theorem Between.acc (handles : services.Handles handle) (between : s.Between services handle course program) :
    Acc (fun after before => Moves services before after) s := by
  induction program generalizing s with
  | done result =>
      constructor
      intro s' moves
      obtain ⟨call, next, same, -⟩ := between.moves handles moves
      cases same
  | ask call next ih =>
      constructor
      intro s' moves
      obtain ⟨call', next', same, rank, within⟩ := between.moves handles moves
      cases same
      exact within.acc handles fun answer s between => ih answer between

theorem atomically_log (port : Call → Port) (handle : S → Call → S × Handled ε Answer) (memory : S)
    (stopped : Port → Option ε) (log : List (Call × Answer)) (program : Asking Call Answer R) :
    log <+: (atomically port handle memory stopped log program).log := by
  induction program generalizing memory stopped log with
  | done result => exact List.prefix_rfl
  | ask call next ih =>
      rw [atomically]
      split
      · exact List.prefix_rfl
      · split
        · exact (List.prefix_append log _).trans (ih _ _ _ _)
        · exact List.prefix_rfl

/-- What every answer keeps of the memory and makes sure of itself, a whole course makes sure of. -/
theorem atomically_invariant (port : Call → Port) {handle : S → Call → S × Handled ε Answer} (holds : S → Prop)
    (meets : Call → Answer → Prop) (keeps : ∀ memory call, holds memory → holds (handle memory call).1)
    (gives : ∀ memory call answer result, holds memory → (handle memory call).2 = .answered answer result → meets call answer)
    {memory : S} (initial : holds memory) (stopped : Port → Option ε) {log : List (Call × Answer)}
    (before : ∀ entry ∈ log, meets entry.1 entry.2) (program : Asking Call Answer R) :
    holds (atomically port handle memory stopped log program).memory ∧
      ∀ entry ∈ (atomically port handle memory stopped log program).log, meets entry.1 entry.2 := by
  induction program generalizing memory stopped log with
  | done result => exact ⟨initial, before⟩
  | ask call next ih =>
      have after := keeps memory call initial
      have answers := gives memory call
      rw [atomically]
      split
      · exact ⟨initial, before⟩
      · split
        · rename_i handled
          rw [handled] at after answers
          refine ih _ after _ fun entry member => ?_
          rcases List.mem_append.mp member with earlier | here
          · exact before entry earlier
          · obtain rfl := List.mem_singleton.mp here
            exact answers _ _ initial rfl
        · rename_i handled
          rw [handled] at after
          exact ⟨after, before⟩

theorem Between.answered (between : s.Between services handle course program) : s.log <+: course.log := by
  obtain ⟨⟨stopped, leads, -⟩, -⟩ := between
  rw [← leads]
  exact atomically_log ..

theorem Within.answered (within : s.Within services handle course call next rank) : s.log <+: course.log := by
  obtain ⟨-, -, answered, refused, -, -⟩ := within
  rename_i proc after full result answer stopped
  cases full with
  | true =>
      rw [← (answered rfl).2]
      exact (List.prefix_append _ _).trans (atomically_log ..)
  | false => rw [refused rfl]

theorem reachable (handles : services.Handles handle) {memory : S} (reaches : Reachable services memory program s) :
    (∃ program', s.Between services handle (atomically services.port handle memory (fun _ => none) [] program) program') ∨
    ∃ call next rank,
      s.Within services handle (atomically services.port handle memory (fun _ => none) [] program) call next rank := by
  induction reaches with
  | refl => exact .inl ⟨program, ⟨_, rfl, fun port => ⟨rfl, rfl, rfl⟩⟩, rfl⟩
  | tail _ moves ih =>
      rcases ih with ⟨program', between⟩ | ⟨call, next, rank, within⟩
      · obtain ⟨call, next, -, rank, within⟩ := between.moves handles moves
        exact .inr ⟨call, next, rank, within⟩
      · rcases within.moves handles moves with ⟨rank', within', -⟩ | ⟨answer, between⟩
        · exact .inr ⟨call, next, rank', within'⟩
        · exact .inl ⟨next answer, between⟩

end Session

def Asking.ended : Asking Call Answer R → Option R
  | .done result => some result
  | .ask _ _ => none

structure Session.Follows (services : Services Port Call S ε Answer) (memory : S) (program : Asking Call Answer R)
    (course : Course Port Call S ε Answer R) : Prop where
  ends : Acc (fun after before => Moves services before after) (start services memory program)
  answered : ∀ s, Reachable services memory program s → s.log <+: course.log
  rests : ∀ s, Reachable services memory program s → (∀ s', ¬ Moves services s s') →
    s.memory = course.memory ∧ s.log = course.log ∧ s.result = course.rest.ended

theorem Session.exists_rest {services : Services Port Call S ε Answer} {s : Session Port Call S ε Answer R}
    (ends : Acc (fun after before => Moves services before after) s) :
    ∃ last, Relation.ReflTransGen (Moves services) s last ∧ ∀ s', ¬ Moves services last s' := by
  induction ends with
  | intro s _ ih =>
      by_cases stuck : ∀ s', ¬ Moves services s s'
      · exact ⟨s, .refl, stuck⟩
      · obtain ⟨s', moves⟩ := not_forall_not.mp stuck
        obtain ⟨last, reaches, stuck⟩ := ih s' moves
        exact ⟨last, .head moves reaches, stuck⟩

/-- No order of steps can be told from the one in which every call is carried out at once. -/
theorem Services.Handles.follows {services : Services Port Call S ε Answer} {handle : S → Call → S × Handled ε Answer}
    (handles : services.Handles handle) (memory : S) (program : Asking Call Answer R) :
    Session.Follows services memory program (atomically services.port handle memory (fun _ => none) [] program) where
  ends := Session.Between.acc handles ⟨⟨fun _ => none, rfl, fun _ => ⟨rfl, rfl, rfl⟩⟩, rfl⟩
  answered s reaches := by
    rcases Session.reachable handles reaches with ⟨program', between⟩ | ⟨call, next, rank, within⟩
    · exact between.answered
    · exact within.answered
  rests s reaches stuck := by
    rcases Session.reachable handles reaches with ⟨program', between⟩ | ⟨call, next, rank, within⟩
    · obtain ⟨memory, log, rest⟩ := between.rests stuck
      refine ⟨memory, log, ?_⟩
      rw [rest, Session.result, between.client]
      cases program' with
      | done result => rfl
      | ask call next => rfl
    · obtain ⟨memory, log, rest⟩ := within.rests stuck
      obtain ⟨client, -, -, -, -, -⟩ := within
      refine ⟨memory, log, ?_⟩
      rw [rest, Session.result, client]
      rfl

/-- Every session comes to rest. -/
theorem Services.Handles.exists_rest {services : Services Port Call S ε Answer} {handle : S → Call → S × Handled ε Answer}
    (handles : services.Handles handle) (memory : S) (program : Asking Call Answer R) :
    ∃ s, Session.Reachable services memory program s ∧ ∀ s', ¬ Session.Moves services s s' :=
  Session.exists_rest (handles.follows memory program).ends

/-! ## Programs whose calls are all answered -/

inductive Completes (handle : S → Call → S × Handled ε Answer) : S → Asking Call Answer R → S → R → Prop
  | done (memory : S) (result : R) : Completes handle memory (.done result) memory result
  | ask {memory between after : S} {call : Call} {answer : Answer} {next : Answer → Asking Call Answer R} {result : R}
      (answers : handle memory call = (between, .answered answer (.ok ())))
      (completes : Completes handle between (next answer) after result) : Completes handle memory (.ask call next) after result

namespace Completes

variable {R' : Type} {handle : S → Call → S × Handled ε Answer} {memory between after : S}

theorem bind {program : Asking Call Answer R} {next : R → Asking Call Answer R'} {result : R} {result' : R'}
    (first : Completes handle memory program between result) (second : Completes handle between (next result) after result') :
    Completes handle memory (program >>= next) after result' := by
  induction first with
  | done memory result => exact second
  | ask answers completes ih => exact .ask answers (ih second)

theorem bind_ok {E α β : Type} {program : ExceptT E (Asking Call Answer) α} {next : α → ExceptT E (Asking Call Answer) β} {a : α}
    {result : Except E β} (first : Completes handle memory program.run between (.ok a))
    (second : Completes handle between (next a).run after result) : Completes handle memory (program >>= next).run after result :=
  first.bind second

theorem course {program : Asking Call Answer R} {result : R} (completes : Completes handle memory program after result)
    (port : Call → Port) (log : List (Call × Answer)) :
    ∃ log', atomically port handle memory (fun _ => none) log program = ⟨after, fun _ => none, log', .done result⟩ := by
  induction completes generalizing log with
  | done memory result => exact ⟨log, rfl⟩
  | @ask _ _ _ call answer _ _ answers completes ih =>
      obtain ⟨log', course⟩ := ih (log ++ [(call, answer)])
      refine ⟨log', ?_⟩
      rw [atomically, answers]
      exact course

end Completes

end Courses

end KonaSoon.Lib
