import KonaSoon.Host.SingleChain

namespace KonaSoon.Host
open Lib Mpt Preimage

variable {S R : Type}

theorem handle_offline_hint (kv : SplitKeyValueStore) (text : HintText) :
    handle OfflineHostBackend kv (.hint text) = (kv, .answered .acknowledged (.ok ())) := rfl

theorem handle_offline_get {kv : SplitKeyValueStore} {key : PreimageKey} {value : Bytes} (here : kv.get key.toRaw = some value) :
    handle OfflineHostBackend kv (.get key) = (kv, .answered (.got value.1) (.ok ())) := by
  simp only [handle, OfflineHostBackend, Accesses.run_bind, Accesses.run_read, here]
  rfl

theorem completes_offline {backend : PreimageServerBackend S} {kv : SplitKeyValueStore} (program : Asking ClientCall ClientAnswer R)
    {memory after : S} {stopped stopped' : HostPort → Option (Stop HostError)} {log log' : List (ClientCall × ClientAnswer)}
    {result : R} (course : atomically ClientCall.port (handle backend) memory stopped log program = ⟨after, stopped', log', .done result⟩)
    (has : ∀ key value, (ClientCall.get key, ClientAnswer.got value) ∈ log' →
      ∃ bytes : Bytes, bytes.1 = value ∧ kv.get key.toRaw = some bytes) :
    Completes (handle OfflineHostBackend) kv program kv result := by
  induction program generalizing memory stopped log with
  | done last =>
      cases course
      exact .done kv _
  | ask call next ih =>
      rw [atomically] at course
      split at course
      · cases course
      · split at course
        · rename_i between answer ends handled
          have logged : (call, answer) ∈ log' := by
            have kept := Session.atomically_log ClientCall.port (handle backend) between (stopAt stopped call.port ends)
              (log ++ [(call, answer)]) (next answer)
            rw [course] at kept
            exact kept.subset (by simp)
          have rest := ih answer course
          cases call with
          | hint text =>
              have acknowledged : answer = .acknowledged := by
                simp only [handle] at handled
                split at handled <;> cases handled <;> rfl
              rw [acknowledged] at rest
              exact .ask (handle_offline_hint kv text) rest
          | get key =>
              obtain ⟨value, got⟩ : ∃ value, answer = .got value := by
                simp only [handle] at handled
                split at handled <;> cases handled
                exact ⟨_, rfl⟩
              subst got
              obtain ⟨bytes, rfl, here⟩ := has key value logged
              exact .ask (handle_offline_get here) rest
        · cases course

/-- A client that has ended over some host ends so again, offline, over a store that has the preimages it was given. -/
theorem offline_replays {backend : PreimageServerBackend S} {memory : S} {program : Asking ClientCall ClientAnswer R}
    {s : Session HostPort ClientCall S (Stop HostError) ClientAnswer R}
    (reaches : Session.Reachable (preimageServer backend) memory program s)
    (stuck : ∀ s', ¬ Session.Moves (preimageServer backend) s s') {result : R} (ended : s.result = some result)
    {kv : SplitKeyValueStore} (has : ∀ key value, (ClientCall.get key, ClientAnswer.got value) ∈ s.log →
      ∃ bytes : Bytes, bytes.1 = value ∧ kv.get key.toRaw = some bytes)
    {t : Session HostPort ClientCall SplitKeyValueStore (Stop HostError) ClientAnswer R}
    (reachesOffline : Session.Reachable (preimageServer OfflineHostBackend) kv program t)
    (stuckOffline : ∀ t', ¬ Session.Moves (preimageServer OfflineHostBackend) t t') :
    t.memory = kv ∧ t.result = some result := by
  obtain ⟨-, log, rest⟩ := ((handles backend).follows memory program).rests s reaches stuck
  have same : (preimageServer backend).port = ClientCall.port := rfl
  rw [same] at log rest
  cases course : atomically ClientCall.port (handle backend) memory (fun _ => none) [] program with
  | mk after stopped log' last =>
      rw [course] at log rest
      rw [ended] at rest
      cases last with
      | ask call next => cases rest
      | done last =>
          cases rest
          rw [log] at has
          exact session_result (completes_offline program course has) reachesOffline stuckOffline

open SmallHost in
theorem offline_replays_header : ∃ t, Session.Reachable (preimageServer OfflineHostBackend)
    ⟨localInputs config, (∅ : HashMap B256 Bytes).insert headerKey.toRaw header⟩ program t ∧ t.result = some (.got header.1) := by
  obtain ⟨s, reaches, stuck, log, result⟩ := rests
  obtain ⟨t, reachesOffline, stuckOffline⟩ := (handles OfflineHostBackend).exists_rest
    ⟨localInputs config, (∅ : HashMap B256 Bytes).insert headerKey.toRaw header⟩ program
  refine ⟨t, reachesOffline, (offline_replays reaches stuck (result.trans course_ended) ?_ reachesOffline stuckOffline).2⟩
  intro key value member
  rw [log, course_log] at member
  simp only [List.mem_cons, Prod.mk.injEq, ClientCall.get.injEq, ClientAnswer.got.injEq, List.not_mem_nil, or_false,
    reduceCtorEq, false_and, false_or] at member
  obtain ⟨rfl, rfl⟩ := member
  exact ⟨header, rfl, AList.lookup_insert _⟩

end KonaSoon.Host
