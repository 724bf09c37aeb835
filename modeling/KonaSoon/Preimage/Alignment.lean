import KonaSoon.Preimage.Oracle

/-!
# The oracle channel stays in step

A client makes its calls one after the other, and the server of `bin/host/src/server.rs` serves
requests in a loop that it leaves only on an error. The client, the server and the two links take
their steps in any order.
-/

namespace KonaSoon.Preimage
open Lib Mpt

/-! ## The two parties -/

structure Session where
  pending : List Call
  current : Option (Proc Answer)
  answers : List Answer
  server : Proc (PreimageOracleResult Unit)
  toServer : Link
  toClient : Link

inductive Party where
  | client
  | server
  | toServer
  | toClient
deriving DecidableEq, Repr

/-- `start_oracle_server` goes on with the next request unless the last one failed. -/
def serve (f : Preimages) : Proc (PreimageOracleResult Unit) → Proc (PreimageOracleResult Unit)
  | .ret (.ok ()) => nextPreimageRequest f
  | proc => proc

namespace Session

def start (f : Preimages) (calls : List Call) : Session where
  pending := calls
  current := none
  answers := []
  server := nextPreimageRequest f
  toServer := .empty
  toClient := .empty

def resume (s : Session) : Proc Answer → Session
  | .ret answer => { s with current := none, answers := s.answers ++ [answer] }
  | proc => { s with current := some proc }

def step (f : Preimages) (s : Session) : Party → Option Session
  | .client =>
      match s.current, s.pending with
      | none, [] => none
      | none, call :: rest => some { s with pending := rest, current := some call.proc }
      | some proc, _ => (proc.act s.toServer s.toClient).map fun (proc, toServer, toClient) =>
          { s with toServer, toClient }.resume proc
  | .server => (s.server.act s.toClient s.toServer).map fun (proc, toClient, toServer) =>
      { s with server := serve f proc, toServer, toClient }
  | .toServer => s.toServer.deliver.map fun toServer => { s with toServer }
  | .toClient => s.toClient.deliver.map fun toClient => { s with toClient }

def Moves (f : Preimages) (s s' : Session) : Prop := ∃ party, s.step f party = some s'

def Reachable (f : Preimages) (calls : List Call) : Session → Prop := Relation.ReflTransGen (Moves f) (start f calls)

def Aligned (f : Preimages) (s : Session) : Prop :=
  s.toServer.unread = [] ∧ s.toClient.unread = [] ∧ s.server = nextPreimageRequest f

def flying (s : Session) : Nat := s.toServer.inFlight.length + s.toClient.inFlight.length

end Session

open Session

/-- Every answer given is that of its own call, the streams are aligned between any two calls, and
the parties go on until the last call is answered. -/
structure StaysInStep (f : Preimages) (calls : List Call) : Prop where
  answers : ∀ s, Reachable f calls s → s.answers <+: calls.map (·.expected f)
  aligned : ∀ s, Reachable f calls s → s.current = none → s.Aligned f
  ends : Acc (fun after before => Moves f before after) (start f calls)
  answersAll : ∀ s, Reachable f calls s → (∀ s', ¬ Moves f s s') → s.answers = calls.map (·.expected f)

def Call.Reads (f : Preimages) : Call → Prop
  | .get _ => True
  | .getExact key buf => buf.length = (f key).1.length ∨ (f key).1 = []

/-! ## The phases of a call -/

namespace Call

def onLength : Call → Nat → Proc Answer
  | get _, length =>
      if length = 0 then .ret (.got (.ok [])) else .readExact length fun data => .ret (.got (.ok data.1))
  | getExact _ buf, length =>
      if buf.length ≠ length then .ret (.filled (.error (.bufferLengthMismatch length buf.length)) buf)
      else if length = 0 then .ret (.filled (.ok ()) buf)
      else .readExact buf.length fun data => .ret (.filled (.ok ()) data.1)

def awaitLength (call : Call) : Proc Answer := .readExact 8 fun length => call.onLength (ofBigEndian length.1)

theorem proc_eq (call : Call) : call.proc = .write call.key.toRaw.1 call.awaitLength := by
  cases call with
  | get key =>
      simp only [proc, Preimage.get, writeKey, Proc.send_bind, Proc.receive_bind, Proc.pure_eq, Proc.write_bind,
        Proc.readExact_bind, Proc.ret_bind, awaitLength, onLength, Call.key]
      congr 2
      funext length
      split <;> rfl
  | getExact key buf =>
      simp only [proc, Preimage.getExact, writeKey, Proc.send_bind, Proc.receive_bind, Proc.pure_eq, Proc.write_bind,
        Proc.readExact_bind, Proc.ret_bind, awaitLength, onLength, Call.key]
      congr 2
      funext length
      split
      · rfl
      · split <;> rfl

variable {f : Preimages} {call : Call}

theorem onLength_empty (none : (f call.key).1 = []) : call.onLength 0 = .ret (call.expected f) := by
  cases call with
  | get key => simp_all [onLength, expected, Call.key]
  | getExact key buf =>
      cases buf with
      | nil => simp_all [onLength, expected, Call.key]
      | cons b buf => simp_all [onLength, expected, Call.key]

theorem onLength_mismatch (unread : ¬ call.Reads f) :
    (f call.key).1 ≠ [] ∧ call.onLength (f call.key).1.length = .ret (call.expected f) := by
  cases call with
  | get key => exact absurd trivial unread
  | getExact key buf =>
      obtain ⟨differ, some⟩ := not_or.mp unread
      simp [onLength, expected, Call.key, differ, some]

theorem onLength_reads (reads : call.Reads f) (some : (f call.key).1 ≠ []) :
    ∃ n next, call.onLength (f call.key).1.length = .readExact n next ∧ n = (f call.key).1.length ∧
      ∀ data, data.1 = (f call.key).1 → next data = .ret (call.expected f) := by
  have positive : (f call.key).1.length ≠ 0 := by simpa using some
  cases call with
  | get key =>
      refine ⟨_, fun data => .ret (.got (.ok data.1)), by simp [onLength, positive], rfl, ?_⟩
      intro data same
      simp only [expected, same, Call.key]
  | getExact key buf =>
      have same : buf.length = (f key).1.length := by
        rcases reads with same | none
        · exact same
        · exact absurd none some
      refine ⟨_, fun data => .ret (.filled (.ok ()) data.1), ?_, same, ?_⟩
      · simpa [onLength, Call.key, same] using some
      · intro data filled
        simp [expected, same, filled, Call.key]

end Call

def sendValue (value : Bytes) : Proc (PreimageOracleResult Unit) := .write value.1 (.ret (.ok ()))

def announce (value : Bytes) : Proc (PreimageOracleResult Unit) :=
  .write (bigEndian 8 value.1.length).1 (if value.1.length > 0 then sendValue value else .ret (.ok ()))

theorem nextPreimageRequest_eq (f : Preimages) : nextPreimageRequest f = .readExact 32 fun buf =>
    match PreimageKey.tryFrom buf with
    | .error e => .ret (.error e)
    | .ok key => announce (f key) := by
  rfl

inductive Exchange (f : Preimages) (call : Call) :
    Nat → Proc Answer → Proc (PreimageOracleResult Unit) → List UInt8 → List UInt8 → Prop
  | asking : Exchange f call 7 call.proc (nextPreimageRequest f) [] []
  | asked : Exchange f call 6 call.awaitLength (nextPreimageRequest f) call.key.toRaw.1 []
  | fetched : Exchange f call 5 call.awaitLength (announce (f call.key)) [] []
  | announced (some : (f call.key).1 ≠ []) : Exchange f call 4 call.awaitLength (sendValue (f call.key)) []
      (bigEndian 8 (f call.key).1.length).1
  | answered : Exchange f call 3 call.awaitLength (nextPreimageRequest f) []
      ((bigEndian 8 (f call.key).1.length).1 ++ (f call.key).1)
  | reading (some : (f call.key).1 ≠ []) (reads : call.Reads f) :
      Exchange f call 2 (call.onLength (f call.key).1.length) (sendValue (f call.key)) [] []
  | sent (some : (f call.key).1 ≠ []) (reads : call.Reads f) :
      Exchange f call 1 (call.onLength (f call.key).1.length) (nextPreimageRequest f) [] (f call.key).1

namespace Exchange

variable {f : Preimages} {call : Call} {rank : Nat} {proc : Proc Answer} {server : Proc (PreimageOracleResult Unit)}
  {toServer toClient toServer' toClient' : Link}

theorem length_of_announced (f : Preimages) (key : PreimageKey) :
    ofBigEndian (bigEndian 8 (f key).1.length).1 = (f key).1.length :=
  ofBigEndian_bigEndian (lt_trans (f key).2 (by norm_num))

theorem positive {requests responses : List UInt8} (exchange : Exchange f call rank proc server requests responses) :
    0 < rank := by
  cases exchange <;> decide

theorem waits {proc' : Proc (PreimageOracleResult Unit)} (nothing : toServer.unread = []) :
    (nextPreimageRequest f).act toClient toServer ≠ some (proc', toClient', toServer') := by
  intro acts
  rw [nextPreimageRequest_eq] at acts
  obtain ⟨-, bytes, -, reads⟩ := Proc.act_readExact acts
  have := Link.le_unread_of_readExact reads
  simp [nothing] at this

theorem waits_length {proc' : Proc Answer} (nothing : toClient.unread = []) :
    call.awaitLength.act toServer toClient ≠ some (proc', toServer', toClient') := by
  intro acts
  obtain ⟨-, bytes, -, reads⟩ := Proc.act_readExact acts
  have := Link.le_unread_of_readExact reads
  simp [nothing] at this

theorem reads_length {proc' : Proc Answer} {rest : List UInt8}
    (acts : call.awaitLength.act toServer toClient = some (proc', toServer', toClient'))
    (unread : toClient.unread = (bigEndian 8 (f call.key).1.length).1 ++ rest) :
    toServer' = toServer ∧ proc' = call.onLength (f call.key).1.length ∧ toClient'.unread = rest := by
  obtain ⟨rfl, bytes, rfl, reads⟩ := Proc.act_readExact acts
  obtain ⟨same, left⟩ := Link.readExact_eq reads unread (bigEndian 8 _).2
  rw [same, length_of_announced]
  exact ⟨rfl, rfl, left⟩

theorem server_acts {proc' : Proc (PreimageOracleResult Unit)}
    (exchange : Exchange f call rank proc server toServer.unread toClient.unread)
    (acts : server.act toClient toServer = some (proc', toClient', toServer')) :
    ∃ rank' < rank, Exchange f call rank' proc (serve f proc') toServer'.unread toClient'.unread := by
  generalize unreadServer : toServer.unread = requests at exchange
  generalize unreadClient : toClient.unread = responses at exchange
  cases exchange with
  | asking => exact absurd acts (waits unreadServer)
  | answered => exact absurd acts (waits unreadServer)
  | sent => exact absurd acts (waits unreadServer)
  | asked =>
      rw [nextPreimageRequest_eq] at acts
      obtain ⟨rfl, bytes, rfl, reads⟩ := Proc.act_readExact acts
      obtain ⟨same, rest⟩ := Link.readExact_eq reads (by rw [unreadServer, List.append_nil]) call.key.toRaw.2
      rw [Subtype.ext same, PreimageKey.tryFrom_toRaw, rest, unreadClient]
      exact ⟨5, by decide, .fetched⟩
  | fetched =>
      cases acts
      rw [Link.unread_write, unreadClient, unreadServer]
      by_cases some : (f call.key).1 = []
      · refine ⟨3, by decide, ?_⟩
        simpa [some, serve] using @answered f call
      · refine ⟨4, by decide, ?_⟩
        simpa [List.length_pos_iff, some, serve, sendValue] using announced some
  | announced some =>
      cases acts
      rw [Link.unread_write, unreadClient, unreadServer]
      exact ⟨3, by decide, .answered⟩
  | reading some reads =>
      cases acts
      rw [Link.unread_write, unreadClient, unreadServer]
      exact ⟨1, by decide, .sent some reads⟩

theorem client_acts {proc' : Proc Answer}
    (exchange : Exchange f call rank proc server toServer.unread toClient.unread)
    (acts : proc.act toServer toClient = some (proc', toServer', toClient')) :
    (∃ rank' < rank, (∀ answer, proc' ≠ .ret answer) ∧
      Exchange f call rank' proc' server toServer'.unread toClient'.unread) ∨
    (call.Reads f ∧ proc' = .ret (call.expected f) ∧ server = nextPreimageRequest f ∧ toServer'.unread = [] ∧
      toClient'.unread = []) ∨
    (¬ call.Reads f ∧ (∃ answer, proc' = .ret answer) ∧
      ¬ (toClient'.unread = [] ∧ server = nextPreimageRequest f)) := by
  generalize unreadServer : toServer.unread = requests at exchange
  generalize unreadClient : toClient.unread = responses at exchange
  cases exchange with
  | asking =>
      rw [Call.proc_eq] at acts
      cases acts
      rw [Link.unread_write, unreadServer, unreadClient]
      exact .inl ⟨6, by decide, by rintro _ ⟨⟩, .asked⟩
  | asked => exact absurd acts (waits_length unreadClient)
  | fetched => exact absurd acts (waits_length unreadClient)
  | announced some =>
      obtain ⟨rfl, same, rest⟩ := reads_length acts (unreadClient.trans (List.append_nil _).symm)
      rw [same, rest, unreadServer]
      by_cases reads : call.Reads f
      · obtain ⟨n, next, shape, -⟩ := Call.onLength_reads reads some
        refine .inl ⟨2, by decide, ?_, .reading some reads⟩
        rw [shape]
        rintro _ ⟨⟩
      · refine .inr (.inr ⟨reads, ⟨_, (Call.onLength_mismatch reads).2⟩, ?_⟩)
        rintro ⟨-, ⟨⟩⟩
  | answered =>
      obtain ⟨rfl, same, rest⟩ := reads_length acts unreadClient
      rw [same, rest, unreadServer]
      by_cases reads : call.Reads f
      · by_cases some : (f call.key).1 = []
        · refine .inr (.inl ⟨reads, ?_, rfl, rfl, some⟩)
          rw [some, List.length_nil, Call.onLength_empty some]
        · obtain ⟨n, next, shape, -⟩ := Call.onLength_reads reads some
          refine .inl ⟨1, by decide, ?_, .sent some reads⟩
          rw [shape]
          rintro _ ⟨⟩
      · obtain ⟨some, shape⟩ := Call.onLength_mismatch reads
        exact .inr (.inr ⟨reads, ⟨_, shape⟩, fun aligned => some aligned.1⟩)
  | reading some reads =>
      obtain ⟨n, next, shape, length, -⟩ := Call.onLength_reads reads some
      rw [shape] at acts
      obtain ⟨-, bytes, -, read⟩ := Proc.act_readExact acts
      have := Link.le_unread_of_readExact read
      rw [unreadClient, length, List.length_nil, Nat.le_zero] at this
      exact absurd (List.eq_nil_of_length_eq_zero this) some
  | sent some reads =>
      obtain ⟨n, next, shape, length, result⟩ := Call.onLength_reads reads some
      rw [shape] at acts
      obtain ⟨rfl, bytes, rfl, read⟩ := Proc.act_readExact acts
      obtain ⟨same, rest⟩ := Link.readExact_eq read (unreadClient.trans (List.append_nil _).symm) length.symm
      exact .inr (.inl ⟨reads, result bytes same, rfl, unreadServer, rest⟩)

theorem progress (exchange : Exchange f call rank proc server toServer.unread toClient.unread) :
    (proc.act toServer toClient).isSome ∨ (server.act toClient toServer).isSome ∨
      toServer.deliver.isSome ∨ toClient.deliver.isSome := by
  generalize unreadServer : toServer.unread = requests at exchange
  generalize unreadClient : toClient.unread = responses at exchange
  cases exchange with
  | asking => exact .inl (by rw [Call.proc_eq]; rfl)
  | fetched => exact .inr (.inl rfl)
  | announced => exact .inr (.inl rfl)
  | reading => exact .inr (.inl rfl)
  | asked =>
      have enough : 32 ≤ toServer.unread.length := by rw [unreadServer, call.key.toRaw.2]
      rcases Link.readExact_or_deliver enough with reads | delivers
      · exact .inr (.inl (by simpa [nextPreimageRequest_eq, Proc.act] using reads))
      · exact .inr (.inr (.inl delivers))
  | answered =>
      have enough : 8 ≤ toClient.unread.length := by
        rw [unreadClient, List.length_append, (bigEndian 8 _).2]
        omega
      rcases Link.readExact_or_deliver enough with reads | delivers
      · exact .inl (by simpa [Call.awaitLength, Proc.act] using reads)
      · exact .inr (.inr (.inr delivers))
  | sent some reads =>
      obtain ⟨n, next, shape, length, -⟩ := Call.onLength_reads reads some
      have enough : n ≤ toClient.unread.length := by rw [unreadClient, length]
      rcases Link.readExact_or_deliver enough with reads | delivers
      · exact .inl (by simpa [shape, Proc.act] using reads)
      · exact .inr (.inr (.inr delivers))

end Exchange

/-! ## Sessions -/

inductive InStep (f : Preimages) (calls : List Call) : Nat → Nat → Session → Prop
  | idle {done rest : List Call} {toServer toClient : Link} (split : calls = done ++ rest)
      (reads : ∀ call ∈ done, call.Reads f) (noRequest : toServer.unread = []) (noResponse : toClient.unread = []) :
      InStep f calls rest.length 0
        ⟨rest, none, done.map (·.expected f), nextPreimageRequest f, toServer, toClient⟩
  | busy {done rest : List Call} {call : Call} {rank : Nat} {proc : Proc Answer}
      {server : Proc (PreimageOracleResult Unit)} {toServer toClient : Link} (split : calls = done ++ call :: rest)
      (reads : ∀ call ∈ done, call.Reads f)
      (exchange : Exchange f call rank proc server toServer.unread toClient.unread) :
      InStep f calls rest.length rank ⟨rest, some proc, done.map (·.expected f), server, toServer, toClient⟩

namespace InStep

variable {f : Preimages} {calls : List Call} {ahead rank : Nat} {s s' : Session}

def Leads (f : Preimages) (calls : List Call) (ahead rank : Nat) (s s' : Session) : Prop :=
  (∃ ahead' rank', InStep f calls ahead' rank' s' ∧
    Prod.Lex (· < ·) (Prod.Lex (· < ·) (· < ·)) (ahead', rank', s'.flying) (ahead, rank, s.flying)) ∨
  (∃ call ∈ calls, ¬ call.Reads f) ∧ s'.current = none ∧ ¬ s'.Aligned f

theorem leads_client {done rest : List Call} {call : Call} {proc : Proc Answer}
    {server : Proc (PreimageOracleResult Unit)} {toServer toClient : Link} (split : calls = done ++ call :: rest)
    (reads : ∀ call ∈ done, call.Reads f)
    (exchange : Exchange f call rank proc server toServer.unread toClient.unread)
    (steps : step f ⟨rest, some proc, done.map (·.expected f), server, toServer, toClient⟩ .client = some s') :
    Leads f calls rest.length rank ⟨rest, some proc, done.map (·.expected f), server, toServer, toClient⟩ s' := by
  obtain ⟨⟨proc', toServer', toClient'⟩, acts, rfl⟩ := Option.map_eq_some_iff.mp steps
  rcases exchange.client_acts acts with ⟨rank', lower, goesOn, exchange'⟩ |
    ⟨callReads, rfl, rfl, noRequest, noResponse⟩ | ⟨unread, ⟨answer, rfl⟩, misaligned⟩
  · refine .inl ⟨_, rank', ?_, .right _ (.left _ _ lower)⟩
    cases proc' with
    | ret answer => exact absurd rfl (goesOn answer)
    | write bytes next => exact .busy split reads exchange'
    | readExact n next => exact .busy split reads exchange'
  · refine .inl ⟨_, 0, ?_, .right _ (.left _ _ exchange.positive)⟩
    have answered : done.map (·.expected f) ++ [call.expected f] = (done ++ [call]).map (·.expected f) := by simp
    simp only [resume, answered]
    refine .idle (by rw [split, List.append_assoc]; rfl) ?_ noRequest noResponse
    intro other member
    rcases List.mem_append.mp member with before | last
    · exact reads other before
    · rwa [List.mem_singleton.mp last]
  · exact .inr ⟨⟨call, by simp [split], unread⟩, rfl, fun aligned => misaligned aligned.2⟩

theorem leads (inStep : InStep f calls ahead rank s) (moves : Moves f s s') : Leads f calls ahead rank s s' := by
  obtain ⟨party, steps⟩ := moves
  cases party with
  | toServer =>
      obtain ⟨link, delivers, rfl⟩ := Option.map_eq_some_iff.mp steps
      obtain ⟨same, lower⟩ := Link.deliver_spec delivers
      have closer : flying { s with toServer := link } < s.flying := Nat.add_lt_add_right lower _
      refine .inl ⟨ahead, rank, ?_, .right _ (.right _ closer)⟩
      cases inStep with
      | idle split reads noRequest noResponse => exact .idle split reads (same.trans noRequest) noResponse
      | busy split reads exchange => exact .busy split reads (same ▸ exchange)
  | toClient =>
      obtain ⟨link, delivers, rfl⟩ := Option.map_eq_some_iff.mp steps
      obtain ⟨same, lower⟩ := Link.deliver_spec delivers
      have closer : flying { s with toClient := link } < s.flying := Nat.add_lt_add_left lower _
      refine .inl ⟨ahead, rank, ?_, .right _ (.right _ closer)⟩
      cases inStep with
      | idle split reads noRequest noResponse => exact .idle split reads noRequest (same.trans noResponse)
      | busy split reads exchange => exact .busy split reads (same ▸ exchange)
  | server =>
      obtain ⟨⟨proc, toClient, toServer⟩, acts, rfl⟩ := Option.map_eq_some_iff.mp steps
      cases inStep with
      | idle split reads noRequest noResponse => exact absurd acts (Exchange.waits noRequest)
      | busy split reads exchange =>
          obtain ⟨rank', lower, exchange'⟩ := exchange.server_acts acts
          exact .inl ⟨_, rank', .busy split reads exchange', .right _ (.left _ _ lower)⟩
  | client =>
      cases inStep with
      | busy split reads exchange => exact leads_client split reads exchange steps
      | @idle done rest toServer toClient split reads noRequest noResponse =>
          cases rest with
          | nil => cases steps
          | cons call rest =>
              cases steps
              refine .inl ⟨_, 7, .busy split reads ?_, .left _ _ (Nat.lt_succ_self _)⟩
              rw [noRequest, noResponse]
              exact .asking

theorem moves_or_ended (inStep : InStep f calls ahead rank s) : (∃ s', Moves f s s') ∨
    (∀ call ∈ calls, call.Reads f) ∧ s.answers = calls.map (·.expected f) := by
  cases inStep with
  | @idle done rest toServer toClient split reads noRequest noResponse =>
      cases rest with
      | nil =>
          rw [List.append_nil] at split
          rw [split]
          exact .inr ⟨reads, rfl⟩
      | cons call rest => exact .inl ⟨_, .client, rfl⟩
  | busy split reads exchange =>
      left
      rcases exchange.progress with acts | acts | delivers | delivers
      · obtain ⟨_, acts⟩ := Option.isSome_iff_exists.mp acts
        exact ⟨_, .client, Option.map_eq_some_iff.mpr ⟨_, acts, rfl⟩⟩
      · obtain ⟨_, acts⟩ := Option.isSome_iff_exists.mp acts
        exact ⟨_, .server, Option.map_eq_some_iff.mpr ⟨_, acts, rfl⟩⟩
      · obtain ⟨_, delivers⟩ := Option.isSome_iff_exists.mp delivers
        exact ⟨_, .toServer, Option.map_eq_some_iff.mpr ⟨_, delivers, rfl⟩⟩
      · obtain ⟨_, delivers⟩ := Option.isSome_iff_exists.mp delivers
        exact ⟨_, .toClient, Option.map_eq_some_iff.mpr ⟨_, delivers, rfl⟩⟩

theorem initially (f : Preimages) (calls : List Call) : InStep f calls calls.length 0 (start f calls) := by
  refine .idle (List.nil_append calls).symm ?_ rfl rfl
  intro call member
  cases member

theorem reachable (good : ∀ call ∈ calls, call.Reads f) (reaches : Reachable f calls s) :
    ∃ ahead rank, InStep f calls ahead rank s := by
  induction reaches with
  | refl => exact ⟨_, _, initially f calls⟩
  | tail _ moves ih =>
      obtain ⟨ahead, rank, inStep⟩ := ih
      rcases inStep.leads moves with ⟨ahead', rank', inStep', -⟩ | ⟨⟨call, member, unread⟩, -⟩
      · exact ⟨ahead', rank', inStep'⟩
      · exact absurd (good call member) unread

theorem ends (good : ∀ call ∈ calls, call.Reads f) {ahead rank : Nat} {s : Session}
    (inStep : InStep f calls ahead rank s) : Acc (fun after before => Moves f before after) s := by
  constructor
  intro s' moves
  rcases inStep.leads moves with ⟨ahead', rank', inStep', closer⟩ | ⟨⟨call, member, unread⟩, -⟩
  · exact ends good inStep'
  · exact absurd (good call member) unread
termination_by (ahead, rank, s.flying)
decreasing_by exact closer

theorem runs_out {ahead rank : Nat} {s : Session} (inStep : InStep f calls ahead rank s) :
    (∃ s', Relation.ReflTransGen (Moves f) s s' ∧ s'.current = none ∧ ¬ s'.Aligned f) ∨
      ∀ call ∈ calls, call.Reads f := by
  rcases inStep.moves_or_ended with ⟨s', moves⟩ | ⟨good, -⟩
  · rcases inStep.leads moves with ⟨ahead', rank', inStep', closer⟩ | ⟨-, idle, misaligned⟩
    · rcases runs_out inStep' with ⟨last, reaches, idle, misaligned⟩ | good
      · exact .inl ⟨last, .head moves reaches, idle, misaligned⟩
      · exact .inr good
    · exact .inl ⟨s', .single moves, idle, misaligned⟩
  · exact .inr good
termination_by (ahead, rank, s.flying)
decreasing_by exact closer

end InStep

/-- The client and the server stay in step exactly when every `get_exact` is given a buffer of the
length of its preimage, or asks for an empty one. -/
theorem staysInStep_iff (f : Preimages) (calls : List Call) :
    StaysInStep f calls ↔ ∀ call ∈ calls, call.Reads f := by
  constructor
  · intro stays
    rcases (InStep.initially f calls).runs_out with ⟨s, reaches, idle, misaligned⟩ | good
    · exact absurd (stays.aligned s reaches idle) misaligned
    · exact good
  · intro good
    constructor
    case ends => exact (InStep.initially f calls).ends good
    case answers =>
      intro s reaches
      obtain ⟨ahead, rank, inStep⟩ := InStep.reachable good reaches
      cases inStep with
      | idle split => simp [split]
      | busy split => simp [split]
    case aligned =>
      intro s reaches idle
      obtain ⟨ahead, rank, inStep⟩ := InStep.reachable good reaches
      cases inStep with
      | idle split reads noRequest noResponse => exact ⟨noRequest, noResponse, rfl⟩
      | busy => cases idle
    case answersAll =>
      intro s reaches stuck
      obtain ⟨ahead, rank, inStep⟩ := InStep.reachable good reaches
      rcases inStep.moves_or_ended with ⟨s', moves⟩ | ⟨-, all⟩
      · exact absurd moves (stuck s')
      · exact all

theorem reaches_of_foldlM {f : Preimages} {parties : List Party} {s s' : Session}
    (runs : parties.foldlM (step f) s = some s') : Relation.ReflTransGen (Moves f) s s' := by
  induction parties generalizing s with
  | nil =>
      cases runs
      exact .refl
  | cons party parties ih =>
      obtain ⟨next, steps, runs⟩ := Option.bind_eq_some_iff.mp runs
      exact .head ⟨party, steps⟩ (ih runs)

def repeatedKey (b : UInt8) : PreimageKey := ⟨⟨List.replicate 31 b, List.length_replicate⟩, .keccak256⟩

def twoPreimages : Preimages := fun key =>
  if key = repeatedKey 1 then ⟨[0, 0, 0, 0, 0, 0, 0, 1, 7], by decide⟩ else ⟨[8, 9], by decide⟩

def lateParties : List Party :=
  List.flatten [[.client, .client], List.replicate 32 .toServer, [.server, .server], List.replicate 8 .toClient,
    [.client, .server, .client, .client], List.replicate 9 .toClient, [.client, .client]]

theorem getExact_mismatch_shifts_get :
    ¬ StaysInStep twoPreimages [.getExact (repeatedKey 1) [0], .get (repeatedKey 2)] := by
  intro stays
  have answers : (lateParties.foldlM (step twoPreimages) (start twoPreimages
      [.getExact (repeatedKey 1) [0], .get (repeatedKey 2)])).map (·.answers) =
      some [.filled (.error (.bufferLengthMismatch 9 1)) [0], .got (.ok [7])] := by
    decide +kernel
  obtain ⟨s, runs, last⟩ := Option.map_eq_some_iff.mp answers
  have isPrefix := stays.answers s (reaches_of_foldlM runs)
  rw [last] at isPrefix
  have same := List.IsPrefix.eq_of_length isPrefix rfl
  simp [Call.expected, twoPreimages, repeatedKey] at same

end KonaSoon.Preimage
