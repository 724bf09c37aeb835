import KonaSoon.Lib.HashMap
import KonaSoon.Preimage.Hints
import KonaSoon.Primitives.Account

/-!
# The backends of a host

The stores of a host (`host/src/kv` and `host/src/single/local_kv.rs`), and its two backends: the one that answers from
a store alone (`host/src/backend/offline.rs`), and the one that fetches what a hint asks for once it is missing
(`host/src/backend/online.rs`). The world behind the providers is a state of its own, which every fetch may change.
-/

namespace KonaSoon.Host
open Lib Mpt Preimage

/-! ## Stores -/

/-- What `SingleChainLocalInputs` reads of a `SingleChainHost`. The rollup configuration is there in its serialized
form, unless it could not be read. -/
structure SingleChainHost where
  l1Head : B256
  agreedL2BlockNumber : UInt64
  agreedL2OutputRoot : B256
  claimedL2OutputRoot : B256
  claimedL2BlockNumber : UInt64
  l2ChainId : Option UInt64
  rollupConfig : Option Bytes

def numberBytes (n : UInt64) : Bytes := ⟨toBeBytes n, by rw [length_toBeBytes]; norm_num⟩

/-- `SingleChainLocalInputs::get`. -/
def localInputs (cfg : SingleChainHost) (key : B256) : Option Bytes :=
  match PreimageKey.tryFrom key with
  | .error _ => none
  | .ok preimageKey =>
      match ofBigEndian preimageKey.data.1 with
      | 1 => some cfg.l1Head.toBytes
      | 2 => some cfg.agreedL2OutputRoot.toBytes
      | 3 => some (numberBytes cfg.agreedL2BlockNumber)
      | 4 => some cfg.claimedL2OutputRoot.toBytes
      | 5 => some (numberBytes cfg.claimedL2BlockNumber)
      | 6 => some (numberBytes (cfg.l2ChainId.getD 0))
      | 7 => cfg.rollupConfig
      | _ => none

structure SplitKeyValueStore where
  localStore : B256 → Option Bytes
  remoteStore : HashMap B256 Bytes

namespace SplitKeyValueStore

def get (kv : SplitKeyValueStore) (key : B256) : Option Bytes :=
  match PreimageKeyType.tryFrom (key.1.headD 0) with
  | .error _ => none
  | .ok .local => kv.localStore key
  | .ok _ => kv.remoteStore.lookup key

def set (kv : SplitKeyValueStore) (key : B256) (value : Bytes) : SplitKeyValueStore :=
  { kv with remoteStore := kv.remoteStore.insert key value }

variable {kv : SplitKeyValueStore} {key : PreimageKey}

theorem get_toRaw (notLocal : key.keyType ≠ .local) : kv.get key.toRaw = kv.remoteStore.lookup key.toRaw := by
  obtain ⟨data, keyType⟩ := key
  cases keyType with
  | «local» => exact absurd rfl notLocal
  | _ => rfl

theorem get_local (isLocal : key.keyType = .local) : kv.get key.toRaw = kv.localStore key.toRaw := by
  obtain ⟨data, keyType⟩ := key
  cases isLocal
  rfl

theorem get_set_self (notLocal : key.keyType ≠ .local) (value : Bytes) :
    (kv.set key.toRaw value).get key.toRaw = some value := by
  rw [get_toRaw notLocal]
  exact AList.lookup_insert _

end SplitKeyValueStore

/-! ## Backends -/

/-- `PreimageServerBackend`. -/
structure PreimageServerBackend (S : Type) where
  routeHint : String → Accesses S (Outcome HostError Unit)
  getPreimage : PreimageKey → Accesses S (Outcome HostError Bytes)

def OfflineHostBackend : PreimageServerBackend SplitKeyValueStore where
  routeHint _ := return .ok ()
  getPreimage key := do
    let preimage ← Accesses.read (·.get key.toRaw)
    return preimage.elim (.error (.error .keyNotFound)) .ok

/-- What an `OnlineHostBackend` shares between its tasks, with the world its providers ask. -/
structure HostState (W : Type) where
  providers : W
  kv : SplitKeyValueStore
  lastHint : Option Hint

variable {W : Type}

/-- `HintHandler::fetch_hint`, for the configuration of its host. -/
abbrev FetchHint (W : Type) := Hint → Accesses (HostState W) (Outcome String Unit)

namespace OnlineHostBackend

def routeHint (fetchHint : FetchHint W) (proactiveHints : List HintType) (hint : String) :
    Accesses (HostState W) (Outcome HostError Unit) :=
  match Hint.fromStr hint with
  | .error e => return .error (.error (.hintParseFailed e))
  | .ok parsedHint =>
      if parsedHint.ty ∈ proactiveHints then do
        let value ← fetchHint parsedHint
        match value with
        | .ok () => return .ok ()
        | .error stop => return .error (stop.map .other)
      else do
        Accesses.modify fun host => { host with lastHint := some parsedHint }
        return .ok ()

/-- The loop of `get_preimage`. A fetch that fails is made again, without being counted, so that the loop takes fuel. -/
def prefetch (fetchHint : FetchHint W) (key : PreimageKey) : Nat → Nat → Accesses (HostState W) (Outcome HostError Bytes)
  | 0, _ => return .error .outOfFuel
  | fuel + 1, count => do
      let lastHint ← Accesses.read (·.lastHint)
      match lastHint with
      | none =>
          if count + 1 > 10 then
            return .error (.error (.other "query hint over time"))
          else
            prefetch fetchHint key fuel (count + 1)
      | some hint => do
          let value ← fetchHint hint
          match value with
          | .error (.error _) => prefetch fetchHint key fuel count
          | .error .panic => return .error .panic
          | .error .outOfFuel => return .error .outOfFuel
          | .ok () => do
              let preimage ← Accesses.read (·.kv.get key.toRaw)
              if count + 1 > 10 then
                return .error (.error (.other "query hint over time"))
              else
                match preimage with
                | some preimage => return .ok preimage
                | none => prefetch fetchHint key fuel (count + 1)

def getPreimage (fetchHint : FetchHint W) (fuel : Nat) (key : PreimageKey) :
    Accesses (HostState W) (Outcome HostError Bytes) := do
  let preimage ← Accesses.read (·.kv.get key.toRaw)
  match preimage with
  | some preimage => return .ok preimage
  | none => prefetch fetchHint key fuel 0

end OnlineHostBackend

def OnlineHostBackend (fetchHint : FetchHint W) (proactiveHints : List HintType) (fuel : Nat) :
    PreimageServerBackend (HostState W) where
  routeHint := OnlineHostBackend.routeHint fetchHint proactiveHints
  getPreimage := OnlineHostBackend.getPreimage fetchHint fuel

/-! ## What a backend keeps -/

namespace OnlineHostBackend

variable {fetchHint : FetchHint W} {holds : HostState W → Prop} {host : HostState W}

theorem routeHint_keeps (fetches : ∀ hint host, holds host → holds ((fetchHint hint).run host).1)
    (replaces : ∀ host hint, holds host → holds { host with lastHint := some hint }) (initial : holds host)
    (proactiveHints : List HintType) (hint : String) : holds ((routeHint fetchHint proactiveHints hint).run host).1 := by
  unfold routeHint
  split
  · exact initial
  · rename_i parsedHint _
    split
    · have kept := fetches parsedHint host initial
      rw [Accesses.run_bind]
      split
      · exact kept
      · exact kept
    · exact replaces host parsedHint initial

theorem prefetch_keeps (fetches : ∀ hint host, holds host → holds ((fetchHint hint).run host).1) (key : PreimageKey)
    (fuel count : Nat) (initial : holds host) :
    holds ((prefetch fetchHint key fuel count).run host).1 ∧
      ∀ value, ((prefetch fetchHint key fuel count).run host).2 = .ok value →
        ((prefetch fetchHint key fuel count).run host).1.kv.get key.toRaw = some value := by
  induction fuel generalizing host count with
  | zero => exact ⟨initial, nofun⟩
  | succ fuel ih =>
      rw [prefetch, Accesses.run_bind, Accesses.run_read]
      dsimp only
      split
      · split
        · exact ⟨initial, nofun⟩
        · exact ih (count + 1) initial
      · rename_i hint _
        have kept := fetches hint host initial
        rw [Accesses.run_bind]
        split
        · exact ih count kept
        · exact ⟨kept, nofun⟩
        · exact ⟨kept, nofun⟩
        · rw [Accesses.run_bind, Accesses.run_read]
          dsimp only
          split
          · exact ⟨kept, nofun⟩
          · split
            · rename_i preimage found
              refine ⟨kept, fun value same => ?_⟩
              cases same
              exact found
            · exact ih (count + 1) kept

theorem getPreimage_keeps (fetches : ∀ hint host, holds host → holds ((fetchHint hint).run host).1) (fuel : Nat)
    (key : PreimageKey) (initial : holds host) :
    holds ((getPreimage fetchHint fuel key).run host).1 ∧
      ∀ value, ((getPreimage fetchHint fuel key).run host).2 = .ok value →
        ((getPreimage fetchHint fuel key).run host).1.kv.get key.toRaw = some value := by
  rw [getPreimage, Accesses.run_bind, Accesses.run_read]
  dsimp only
  split
  · rename_i preimage found
    refine ⟨initial, fun value same => ?_⟩
    cases same
    exact found
  · exact prefetch_keeps fetches key fuel 0 initial

theorem routeHint_encode {proactiveHints : List HintType} {hint : Hint} {after : HostState W}
    (fetches : (fetchHint hint).run host = (after, .ok ())) : (routeHint fetchHint proactiveHints hint.encode).run host =
      (if hint.ty ∈ proactiveHints then after else { host with lastHint := some hint }, .ok ()) := by
  have parses := (Hint.fromStr_eq_iff hint.encode hint).mpr hint.spells_encode
  rw [routeHint, parses]
  dsimp only
  split
  · rw [Accesses.run_bind, fetches]
    rfl
  · rfl

theorem getPreimage_found {fuel : Nat} {key : PreimageKey} {value : Bytes} (here : host.kv.get key.toRaw = some value) :
    (getPreimage fetchHint fuel key).run host = (host, .ok value) := by
  rw [getPreimage, Accesses.run_bind, Accesses.run_read, here]
  rfl

theorem getPreimage_fetches {fuel : Nat} {key : PreimageKey} {value : Bytes} {hint : Hint} {after : HostState W}
    (missing : host.kv.get key.toRaw = none) (hinted : host.lastHint = some hint)
    (fetches : (fetchHint hint).run host = (after, .ok ())) (found : after.kv.get key.toRaw = some value) :
    (getPreimage fetchHint (fuel + 1) key).run host = (after, .ok value) := by
  rw [getPreimage, Accesses.run_bind, Accesses.run_read, missing]
  dsimp only
  rw [prefetch, Accesses.run_bind, Accesses.run_read, hinted]
  dsimp only
  rw [Accesses.run_bind, fetches]
  dsimp only
  rw [Accesses.run_bind, Accesses.run_read, found]
  rfl

end OnlineHostBackend

end KonaSoon.Host
