import KonaSoon.Host.Backend

/-!
# A client and its host

The two tasks of a preimage server (`host/src/server.rs`) with a client that writes hints and asks for preimages over
the two channels between them. A task ends when the backend reports an error. What becomes of the other one once the
server has returned is not modelled: it may go on.
-/

namespace KonaSoon.Host
open Lib Mpt Preimage

abbrev HintText := {text : String // (utf8 text).length < 2 ^ 32}

inductive ClientCall where
  | hint (text : HintText)
  | get (key : PreimageKey)
deriving DecidableEq, Repr

inductive ClientAnswer where
  | acknowledged
  | got (value : List UInt8)
deriving DecidableEq, Repr

inductive HostPort where
  | hints
  | preimages
deriving DecidableEq, Repr

namespace ClientCall

def port : ClientCall → HostPort
  | hint _ => .hints
  | get _ => .preimages

def proc : ClientCall → Proc ClientAnswer
  | hint text => do
      writeHint text.1
      return .acknowledged
  | get key => do
      let result ← Preimage.get key
      match result with
      | .ok value => return .got value
      | .error _ => return .got []

end ClientCall

variable {S R : Type}

/-- `PreimageServer`. -/
def preimageServer (backend : PreimageServerBackend S) :
    Services HostPort ClientCall S (Stop HostError) ClientAnswer where
  port := ClientCall.port
  proc := ClientCall.proc
  service
    | .hints => nextHint backend.routeHint
    | .preimages => nextRequest backend.getPreimage

/-- What the backend makes of a call. A hint is acknowledged even where it is reported as an error. -/
def handle (backend : PreimageServerBackend S) (memory : S) : ClientCall → S × Handled (Stop HostError) ClientAnswer
  | .hint text =>
      match (backend.routeHint text.1).run memory with
      | (memory, .ok ()) => (memory, .answered .acknowledged (.ok ()))
      | (memory, .error (.error e)) => (memory, .answered .acknowledged (.error (.error e)))
      | (memory, .error stop) => (memory, .failed stop)
  | .get key =>
      match (backend.getPreimage key).run memory with
      | (memory, .ok value) => (memory, .answered (.got value.1) (.ok ()))
      | (memory, .error stop) => (memory, .failed stop)

theorem fromUTF8_utf8 (text : String) : String.fromUTF8? ⟨(utf8 text).toArray⟩ = some text := by
  have same : (⟨(utf8 text).toArray⟩ : ByteArray) = text.toByteArray := by
    simp [utf8]
  rw [same, String.fromUTF8?, dif_pos text.isValidUTF8]
  rfl

theorem utf8_length (text : HintText) : ofBigEndian (bigEndian 4 (utf8 text.1).length).1 = (utf8 text.1).length :=
  ofBigEndian_bigEndian text.2

theorem calls_hint (text : HintText) :
    (ClientCall.hint text).proc.Calls 3 ((bigEndian 4 (utf8 text.1).length).1 ++ (utf8 text.1 ++ [])) ([0] ++ [])
      .acknowledged :=
  .write _ (.write _ (.readExact (n := 1) ⟨[0], rfl⟩ (.ret _)))

theorem length_encoded (value : Bytes) : ofBigEndian (bigEndian 8 value.1.length).1 = value.1.length :=
  ofBigEndian_bigEndian (value.2.trans (by norm_num))

def readValue (length : Nat) : Proc ClientAnswer :=
  if length = 0 then return .got []
  else do
    let dataBuffer ← Proc.receive length
    return .got dataBuffer.1

theorem proc_get (key : PreimageKey) :
    (ClientCall.get key).proc = .write key.toRaw.1 (.readExact 8 fun buffer => readValue (ofBigEndian buffer.1)) := by
  simp only [ClientCall.proc, Preimage.get, writeKey, Proc.send_bind, Proc.receive_bind, Proc.pure_eq, Proc.ret_bind,
    Proc.write_bind, Proc.readExact_bind]
  congr
  funext buffer
  unfold readValue
  split <;> rfl

theorem calls_get (key : PreimageKey) (value : Bytes) :
    ∃ k, (ClientCall.get key).proc.Calls k (key.toRaw.1 ++ []) ((bigEndian 8 value.1.length).1 ++ value.1)
      (.got value.1) := by
  rw [proc_get]
  have length := length_encoded value
  by_cases none : value.1.length = 0
  · refine ⟨2, .write _ (.readExact (bigEndian 8 value.1.length) ?_)⟩
    rw [length, none, List.eq_nil_of_length_eq_zero none]
    exact .ret (ClientAnswer.got [])
  · refine ⟨3, .write _ (.readExact (bigEndian 8 value.1.length) ?_)⟩
    rw [length, readValue, if_neg none]
    have calls : (Proc.readExact value.1.length fun dataBuffer => (.ret (.got dataBuffer.1) : Proc ClientAnswer)).Calls 1
        [] (value.1 ++ []) (.got value.1) :=
      .readExact (⟨value.1, rfl⟩ : FixedBytes value.1.length) (.ret _)
    simpa using calls

variable {memory after : S} {k : Nat} {out : List UInt8} {full : Bool} {result : Outcome HostError Unit}

theorem serves_hint (text : HintText) {routeHint : String → Accesses S (Outcome HostError Unit)}
    (serves : (afterRouting ((routeHint text.1).run memory).2).Serves k [] ((routeHint text.1).run memory).1 after out full
      result) :
    ∃ k', (nextHint routeHint).Serves k' ((bigEndian 4 (utf8 text.1).length).1 ++ (utf8 text.1 ++ [])) memory after out full
      result := by
  obtain ⟨k', routes⟩ := Accesses.serves serves
  refine ⟨k' + 1 + 1, .readExact (bigEndian 4 (utf8 text.1).length)
    (.readExact (⟨utf8 text.1, (utf8_length text).symm⟩ : FixedBytes (ofBigEndian _)) ?_)⟩
  simpa only [Worker.bind, fromUTF8_utf8] using routes

theorem serves_get (key : PreimageKey) {getPreimage : PreimageKey → Accesses S (Outcome HostError Bytes)}
    (serves : (sendPreimage ((getPreimage key).run memory).2).Serves k [] ((getPreimage key).run memory).1 after out full
      result) :
    ∃ k', (nextRequest getPreimage).Serves k' (key.toRaw.1 ++ []) memory after out full result := by
  obtain ⟨k', fetches⟩ := Accesses.serves serves
  refine ⟨k' + 1, .readExact key.toRaw ?_⟩
  simpa only [Worker.bind, PreimageKey.tryFrom_toRaw] using fetches

theorem serves_acknowledge (memory : S) (result : Outcome HostError Unit) :
    (acknowledge result).Serves 1 [] memory memory ([0] ++ []) true result :=
  .ends memory result (List.cons_ne_nil 0 [])

theorem bigEndian_ne_nil {n : Nat} (positive : 0 < n) (value : Nat) : (bigEndian n value).1 ≠ [] :=
  List.ne_nil_of_length_pos (by rw [(bigEndian n value).2]; exact positive)

theorem serves_value (memory : S) (value : Bytes) :
    ∃ k, (sendPreimage (.ok value)).Serves k [] memory memory ((bigEndian 8 value.1.length).1 ++ value.1) true (.ok ()) := by
  have sends : (sendPreimage (.ok value) : Worker S (Outcome HostError Unit)) =
      .write (bigEndian 8 value.1.length).1
        (if value.1.length > 0 then .write value.1 (.ret (.ok ())) else .ret (.ok ())) := rfl
  rw [sends]
  by_cases some : value.1.length > 0
  · refine ⟨2, .write _ ?_⟩
    rw [if_pos some]
    exact .ends memory _ (List.ne_nil_of_length_pos some)
  · have none := List.eq_nil_of_length_eq_zero (Nat.eq_zero_of_not_pos some)
    refine ⟨1, ?_⟩
    rw [if_neg some, none, List.append_nil]
    exact .ends memory _ (bigEndian_ne_nil (by norm_num) _)

theorem handles (backend : PreimageServerBackend S) : (preimageServer backend).Handles (handle backend) where
  waits port := by
    cases port with
    | hints => exact ⟨4, _, by norm_num, rfl⟩
    | preimages => exact ⟨32, _, by norm_num, rfl⟩
  answers {call memory after answer result} handled := by
    cases call with
    | hint text =>
        have serves : ∀ {routed}, (backend.routeHint text.1).run memory = (after, routed) →
            (afterRouting routed : Worker S _) = acknowledge result →
            ∃ k', (nextHint backend.routeHint).Serves k' ((bigEndian 4 (utf8 text.1).length).1 ++ (utf8 text.1 ++ [])) memory
              after ([0] ++ []) true result := by
          intro routed routes acknowledges
          refine serves_hint (k := 1) text ?_
          rw [routes, acknowledges]
          exact serves_acknowledge after result
        simp only [handle] at handled
        split at handled
        · rename_i routes
          cases handled
          obtain ⟨k', serves⟩ := serves routes rfl
          exact ⟨_, k', _, _, calls_hint text, serves⟩
        · rename_i routes
          cases handled
          obtain ⟨k', serves⟩ := serves routes rfl
          exact ⟨_, k', _, _, calls_hint text, serves⟩
        · cases handled
    | get key =>
        simp only [handle] at handled
        split at handled
        · rename_i value fetches
          cases handled
          obtain ⟨k, calls⟩ := calls_get key value
          obtain ⟨sends, answers⟩ := serves_value after value
          have serves : ∃ k', (nextRequest backend.getPreimage).Serves k' (key.toRaw.1 ++ []) memory after _ true (.ok ()) :=
            serves_get key (by rw [fetches]; exact answers)
          obtain ⟨k', serves⟩ := serves
          exact ⟨k, k', _, _, calls, serves⟩
        · cases handled
  fails {call memory after e} handled := by
    cases call with
    | hint text =>
        simp only [handle] at handled
        split at handled
        · cases handled
        · cases handled
        · rename_i noError routes
          cases handled
          have stops : (afterRouting (.error e) : Worker S _) = .ret (.error e) := by
            cases e with
            | error error => exact absurd rfl (noError error)
            | panic => rfl
            | outOfFuel => rfl
          have serves : ∃ k', (nextHint backend.routeHint).Serves k' _ memory after [] false (.error e) :=
            serves_hint text (by rw [routes, stops]; exact .fails after e)
          obtain ⟨k', serves⟩ := serves
          exact ⟨_, k', _, _, _, calls_hint text, List.cons_ne_nil 0 [], serves⟩
    | get key =>
        simp only [handle] at handled
        split at handled
        · cases handled
        · rename_i fetches
          cases handled
          have serves : ∃ k', (nextRequest backend.getPreimage).Serves k' _ memory after [] false (.error e) :=
            serves_get key (by rw [fetches]; exact .fails after e)
          obtain ⟨k', serves⟩ := serves
          obtain ⟨k, calls⟩ := calls_get key ⟨[], length_noBytes⟩
          exact ⟨k, k', _, _, _, calls, by simpa using bigEndian_ne_nil (by norm_num) 0, serves⟩

/-- Whatever the backend does and however the parties are scheduled, a client sees and leaves behind what it would if the
host carried out every call at once. -/
theorem session_follows_course (backend : PreimageServerBackend S) (memory : S)
    (program : Asking ClientCall ClientAnswer R) :
    Session.Follows (preimageServer backend) memory program
      (atomically ClientCall.port (handle backend) memory (fun _ => none) [] program) :=
  (handles backend).follows memory program

/-- What every hint and every request keep of the memory, and what is true of every value found, holds along each session. -/
theorem session_invariant {backend : PreimageServerBackend S} (holds : S → Prop) (meets : PreimageKey → Bytes → Prop)
    (routes : ∀ memory hint, holds memory → holds ((backend.routeHint hint).run memory).1)
    (fetches : ∀ memory key, holds memory → holds ((backend.getPreimage key).run memory).1 ∧
      ∀ value, ((backend.getPreimage key).run memory).2 = .ok value → meets key value)
    {memory : S} (initial : holds memory) {program : Asking ClientCall ClientAnswer R}
    {s : Session HostPort ClientCall S (Stop HostError) ClientAnswer R}
    (reaches : Session.Reachable (preimageServer backend) memory program s) {key : PreimageKey} {value : List UInt8}
    (answered : (.get key, .got value) ∈ s.log) : ∃ bytes : Bytes, bytes.1 = value ∧ meets key bytes := by
  have keeps : ∀ memory call, holds memory → holds (handle backend memory call).1 := by
    intro memory call before
    cases call with
    | hint text =>
        have after := routes memory text.1 before
        simp only [handle]
        split <;> rename_i routed <;> rw [routed] at after <;> exact after
    | get key =>
        have after := (fetches memory key before).1
        simp only [handle]
        split <;> rename_i fetched <;> rw [fetched] at after <;> exact after
  have gives : ∀ memory call answer result, holds memory → (handle backend memory call).2 = .answered answer result →
      ∀ key value, call = .get key → answer = .got value → ∃ bytes : Bytes, bytes.1 = value ∧ meets key bytes := by
    rintro memory call answer result before answers key value rfl rfl
    have found := (fetches memory key before).2
    simp only [handle] at answers
    split at answers
    · rename_i bytes fetched
      cases answers
      exact ⟨bytes, rfl, found bytes (congrArg Prod.snd fetched)⟩
    · cases answers
  have follows := (handles backend).follows memory program
  have member := (follows.answered s reaches).subset answered
  have course := Session.atomically_invariant ClientCall.port holds
    (fun call answer => ∀ key value, call = .get key → answer = .got value → ∃ bytes : Bytes, bytes.1 = value ∧ meets key bytes)
    keeps gives initial (fun _ : HostPort => none) (List.forall_mem_nil _) program
  exact course.2 _ member key value rfl rfl

/-- A client whose calls are all answered ends with its result, in every order of steps. -/
theorem session_result {backend : PreimageServerBackend S} {memory after : S} {program : Asking ClientCall ClientAnswer R}
    {result : R} (completes : Completes (handle backend) memory program after result)
    {s : Session HostPort ClientCall S (Stop HostError) ClientAnswer R}
    (reaches : Session.Reachable (preimageServer backend) memory program s)
    (stuck : ∀ s', ¬ Session.Moves (preimageServer backend) s s') : s.memory = after ∧ s.result = some result := by
  obtain ⟨log, course⟩ := completes.course ClientCall.port []
  have rests := ((handles backend).follows memory program).rests s reaches stuck
  have same : (preimageServer backend).port = ClientCall.port := rfl
  rw [same, course] at rests
  exact ⟨rests.1, rests.2.2⟩

/-- A preimage that is fetched for a hint is given to a client that has just written it, whether the hint is fetched at
once or for the request. -/
theorem hinted_get_served {W : Type} {fetchHint : FetchHint W} {proactiveHints : List HintType} {fuel : Nat}
    {holds : HostState W → Prop} (replaces : ∀ host hint, holds host → holds { host with lastHint := some hint })
    {hint : Hint} {key : PreimageKey} {value : Bytes}
    (fetches : ∀ host, holds host →
      ∃ after, (fetchHint hint).run host = (after, .ok ()) ∧ holds after ∧ after.kv.get key.toRaw = some value)
    (right : ∀ host, holds host → ∀ other, host.kv.get key.toRaw = some other → other = value)
    (text : HintText) (encodes : text.1 = hint.encode) {host : HostState W} (initial : holds host) :
    ∃ between after, holds after ∧ after.kv.get key.toRaw = some value ∧
      handle (OnlineHostBackend fetchHint proactiveHints (fuel + 1)) host (.hint text) =
        (between, .answered .acknowledged (.ok ())) ∧
      handle (OnlineHostBackend fetchHint proactiveHints (fuel + 1)) between (.get key) =
        (after, .answered (.got value.1) (.ok ())) := by
  have gets : ∀ {between after : HostState W}, (OnlineHostBackend.getPreimage fetchHint (fuel + 1) key).run between =
      (after, .ok value) → handle (OnlineHostBackend fetchHint proactiveHints (fuel + 1)) between (.get key) =
        (after, .answered (.got value.1) (.ok ())) := by
    intro between after finds
    simp only [handle, OnlineHostBackend, finds]
  obtain ⟨fetched, fetch, kept, found⟩ := fetches host initial
  have routes : (OnlineHostBackend.routeHint fetchHint proactiveHints hint.encode).run host = _ :=
    OnlineHostBackend.routeHint_encode fetch
  by_cases proactive : hint.ty ∈ proactiveHints
  · rw [if_pos proactive] at routes
    refine ⟨fetched, fetched, kept, found, ?_, gets (OnlineHostBackend.getPreimage_found found)⟩
    simp only [handle, OnlineHostBackend, encodes, routes]
  · rw [if_neg proactive] at routes
    have acknowledges : handle (OnlineHostBackend fetchHint proactiveHints (fuel + 1)) host (.hint text) =
        ({ host with lastHint := some hint }, .answered .acknowledged (.ok ())) := by
      simp only [handle, OnlineHostBackend, encodes, routes]
    have hinted := replaces host hint initial
    cases here : host.kv.get key.toRaw with
    | some other =>
        obtain rfl := right host initial other here
        exact ⟨_, _, hinted, here, acknowledges, gets (OnlineHostBackend.getPreimage_found here)⟩
    | none =>
        obtain ⟨after, fetch, kept, found⟩ := fetches _ hinted
        exact ⟨_, after, kept, found, acknowledges, gets (OnlineHostBackend.getPreimage_fetches here rfl fetch found)⟩

end KonaSoon.Host
