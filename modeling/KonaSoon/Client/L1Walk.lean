import KonaSoon.Client.L1Provider

namespace KonaSoon.Client
open Lib Mpt Preimage Host

structure L1Blocks {Receipt Transaction : Type} (consensus : Consensus Receipt Transaction) where
  head : Nat
  header : Nat → Header
  raw : Nat → Bytes
  decodes (n : Nat) (known : n ≤ head) :
    consensus.decodeHeader (raw n).1 = .ok (header n, consensus.prim.keccak256 (raw n).1)
  number (n : Nat) (known : n ≤ head) : (header n).number.toNat = n
  linked (n : Nat) (known : n < head) : (header (n + 1)).parentHash = consensus.prim.keccak256 (raw n).1

def keyOf (prim : Primitives) (bytes : Bytes) : PreimageKey := .newKeccak256 (prim.keccak256 bytes.1)

def RightIn (prim : Primitives) (known : Set Bytes) (kv : SplitKeyValueStore) : Prop :=
  ∀ bytes ∈ known, ∀ value, kv.get (keyOf prim bytes).toRaw = some value → value = bytes

theorem keyOf_notLocal (prim : Primitives) (bytes : Bytes) : (keyOf prim bytes).keyType ≠ .local := nofun

theorem get_set_keyOf (prim : Primitives) (kv : SplitKeyValueStore) (bytes other : Bytes) :
    (kv.set (keyOf prim bytes).toRaw bytes).get (keyOf prim other).toRaw =
      if keyOf prim other = keyOf prim bytes then some bytes else kv.get (keyOf prim other).toRaw := by
  split
  · rename_i same
    rw [same]
    exact SplitKeyValueStore.get_set_self (keyOf_notLocal prim bytes) bytes
  · rename_i differ
    rw [SplitKeyValueStore.get_toRaw (keyOf_notLocal prim other), SplitKeyValueStore.get_toRaw (keyOf_notLocal prim other)]
    exact AList.lookup_insert_ne fun same => differ (PreimageKey.toRaw_injective same)

theorem get_startingHost {W : Type} (prim : Primitives) (cfg : SingleChainHost) (nodes : W) (bytes : Bytes) :
    (startingHost cfg nodes).kv.get (keyOf prim bytes).toRaw = none := by
  rw [SplitKeyValueStore.get_toRaw (keyOf_notLocal prim bytes)]
  rfl

theorem rightIn_startingHost {W : Type} (prim : Primitives) (known : Set Bytes) (cfg : SingleChainHost) (nodes : W) :
    RightIn prim known (startingHost cfg nodes).kv := by
  intro bytes _ value here
  rw [get_startingHost] at here
  cases here

theorem RightIn.set {prim : Primitives} {known : Set Bytes} (free : Set.InjOn (keyOf prim) known) {kv : SplitKeyValueStore}
    (right : RightIn prim known kv) {bytes : Bytes} (member : bytes ∈ known) :
    RightIn prim known (kv.set (keyOf prim bytes).toRaw bytes) := by
  intro other member' value here
  rw [get_set_keyOf] at here
  split at here
  · rename_i same
    rw [free member' member same]
    exact (Option.some.inj here).symm
  · exact right other member' value here

namespace L1Blocks

variable {Receipt Transaction W : Type} {consensus : Consensus Receipt Transaction} (blocks : L1Blocks consensus)

def hash (n : Nat) : B256 := consensus.prim.keccak256 (blocks.raw n).1

def l1Header (n : Nat) : L1Header := .ofHeader (blocks.header n) (blocks.hash n)

theorem l1Header_number {n : Nat} (known : n ≤ blocks.head) : (blocks.l1Header n).number.toNat = n := blocks.number n known

def raws : Set Bytes := {bytes | ∃ n ≤ blocks.head, blocks.raw n = bytes}

def ServedBy (providers : SingleChainProviders W) : Prop :=
  ∀ nodes n, n ≤ blocks.head → (providers.getRawHeader nodes (blocks.hash n)).2 = .ok (blocks.raw n)

structure Keeps (holds : HostState W → Prop) : Prop where
  replaces : ∀ host hint, holds host → holds { host with lastHint := some hint }
  stores : ∀ host nodes, ∀ n ≤ blocks.head, holds host → holds { host with
    providers := nodes, kv := host.kv.set (keyOf consensus.prim (blocks.raw n)).toRaw (blocks.raw n) }
  right : ∀ host, holds host → RightIn consensus.prim blocks.raws host.kv

theorem keeps_rightIn (free : Set.InjOn (keyOf consensus.prim) blocks.raws) :
    blocks.Keeps fun host : HostState W => RightIn consensus.prim blocks.raws host.kv where
  replaces _ _ right := right
  stores _ _ n known right := right.set free ⟨n, known, rfl⟩
  right _ right := right

end L1Blocks

theorem exactly_self {n : Nat} (bytes : FixedBytes n) : exactly n bytes.1 = some bytes := dif_pos bytes.2

section Reading

variable {Receipt Transaction W : Type} {consensus : Consensus Receipt Transaction} {blocks : L1Blocks consensus}
variable {lib : HandlerLibraries} {cfg : SingleChainHost} {providers : SingleChainProviders W}
variable {proactiveHints : List HintType} {hostFuel : Nat} {holds : HostState W → Prop}

theorem fetches_header (served : blocks.ServedBy providers) (keeps : blocks.Keeps holds) {n : Nat} (known : n ≤ blocks.head)
    (host : HostState W) (before : holds host) :
    ∃ after, (fetchHint lib cfg providers (HintType.l1BlockHeader.withData [(blocks.hash n).1])).run host = (after, .ok ()) ∧
      holds after ∧ after.kv.get (keyOf consensus.prim (blocks.raw n)).toRaw = some (blocks.raw n) := by
  have answers := served host.providers n known
  have data : [(blocks.hash n).1].flatten = (blocks.hash n).1 := List.flatten_singleton
  have fetch : fetchHint lib cfg providers (HintType.l1BlockHeader.withData [(blocks.hash n).1]) =
      request (providers.getRawHeader · (blocks.hash n)) fun rawHeader => .ok [(.newKeccak256 (blocks.hash n), rawHeader)] := by
    simp only [fetchHint, HintType.withData, data, exactly_self]
  refine ⟨_, (congrArg (Accesses.run · host) fetch).trans (request_run answers rfl), ?_, ?_⟩
  · exact keeps.stores host _ n known before
  · exact (get_set_keyOf consensus.prim host.kv (blocks.raw n) (blocks.raw n)).trans (if_pos rfl)

open OracleL1ChainProvider

theorem headerByHash_completes (served : blocks.ServedBy providers) (keeps : blocks.Keeps holds) {n : Nat}
    (known : n ≤ blocks.head) {host : HostState W} (before : holds host) :
    ∃ after, holds after ∧ Completes (handle (singleChainBackend lib cfg providers proactiveHints (hostFuel + 1))) host
      (headerByHash consensus (blocks.hash n)).run after (.ok (blocks.l1Header n)) := by
  obtain ⟨between, after, kept, -, acknowledges, gets⟩ := hinted_get_served keeps.replaces
    (fun host before => fetches_header served keeps known host before)
    (fun host before => keeps.right host before (blocks.raw n) ⟨n, known, rfl⟩)
    (hashHint .l1BlockHeader (blocks.hash n)) rfl before
  have decodes : decodeL1Header consensus (blocks.raw n).1 = .ok (blocks.l1Header n) := by
    rw [decodeL1Header, blocks.decodes n known]
    rfl
  refine ⟨after, kept, .ask acknowledges (.ask gets ?_)⟩
  rw [← decodes]
  exact .done after _

theorem walkBack_completes (served : blocks.ServedBy providers) (keeps : blocks.Keeps holds) {blockNumber : UInt64} {n : Nat}
    (known : n ≤ blocks.head) (atLeast : blockNumber.toNat ≤ n) {fuel : Nat} (enough : n - blockNumber.toNat < fuel)
    {host : HostState W} (before : holds host) :
    ∃ after, holds after ∧ Completes (handle (singleChainBackend lib cfg providers proactiveHints (hostFuel + 1))) host
      (walkBack consensus blockNumber fuel (blocks.l1Header n)).run after (.ok (blocks.l1Header blockNumber.toNat)) := by
  induction fuel generalizing n host with
  | zero => exact absurd enough (Nat.not_lt_zero _)
  | succ fuel ih =>
      have number := blocks.l1Header_number known
      rw [walkBack]
      split
      · rename_i above
        have above : blockNumber.toNat < n := by
          rw [← number]
          exact UInt64.lt_iff_toNat_lt.mp above
        obtain ⟨m, rfl⟩ : ∃ m, n = m + 1 := ⟨n - 1, by omega⟩
        have parent : (blocks.l1Header (m + 1)).parentHash = blocks.hash m := blocks.linked m (by omega)
        obtain ⟨between, kept, first⟩ : ∃ between, holds between ∧
            Completes (handle (singleChainBackend lib cfg providers proactiveHints (hostFuel + 1))) host
              (headerByHash consensus (blocks.hash m)).run between (.ok (blocks.l1Header m)) :=
          headerByHash_completes served keeps (by omega) before
        obtain ⟨after, kept, rest⟩ := ih (n := m) (by omega) (by omega) (by omega) kept
        rw [parent]
        exact ⟨after, kept, first.bind_ok rest⟩
      · rename_i reached
        have same : n = blockNumber.toNat := by
          have := UInt64.lt_iff_toNat_lt.not.mp reached
          omega
        rw [same]
        exact ⟨host, before, .done host _⟩

/-- What `block_info_by_number` gives for a chain of blocks. -/
def blockInfoOf (blocks : L1Blocks consensus) : Option UInt64 → Outcome OracleProviderError BlockInfo
  | none => .error .panic
  | some blockNumber =>
      if blockNumber.toNat ≤ blocks.head then .ok (blocks.l1Header blockNumber.toNat).blockInfo
      else .error (.error (.blockNumberPastHead blockNumber (UInt64.ofNat blocks.head)))

theorem blockInfoByNumber_completes (served : blocks.ServedBy providers) (keeps : blocks.Keeps holds) {fuel : Nat}
    (enough : blocks.head < fuel) (blockNumber : Option UInt64) {host : HostState W} (before : holds host) :
    ∃ after, holds after ∧ Completes (handle (singleChainBackend lib cfg providers proactiveHints (hostFuel + 1))) host
      (blockInfoByNumber consensus (blocks.hash blocks.head) fuel blockNumber).run after (blockInfoOf blocks blockNumber) := by
  obtain ⟨between, kept, first⟩ : ∃ between, holds between ∧
      Completes (handle (singleChainBackend lib cfg providers proactiveHints (hostFuel + 1))) host
        (headerByHash consensus (blocks.hash blocks.head)).run between (.ok (blocks.l1Header blocks.head)) :=
    headerByHash_completes served keeps (le_refl _) before
  have number := blocks.l1Header_number (le_refl _)
  cases blockNumber with
  | none => exact ⟨between, kept, first.bind_ok (.done between _)⟩
  | some blockNumber =>
      by_cases known : blockNumber.toNat ≤ blocks.head
      · have within : ¬ blockNumber > (blocks.l1Header blocks.head).number := by
          rw [gt_iff_lt, UInt64.lt_iff_toNat_lt, number]
          omega
        obtain ⟨after, kept, rest⟩ : ∃ after, holds after ∧
            Completes (handle (singleChainBackend lib cfg providers proactiveHints (hostFuel + 1))) between
              (walkBack consensus blockNumber fuel (blocks.l1Header blocks.head)).run after
              (.ok (blocks.l1Header blockNumber.toNat)) :=
          walkBack_completes served keeps (le_refl _) known (by omega) kept
        refine ⟨after, kept, first.bind_ok ?_⟩
        simp only [if_neg within, blockInfoOf, if_pos known]
        exact rest.bind_ok (.done after _)
      · have past : blockNumber > (blocks.l1Header blocks.head).number := by
          rw [gt_iff_lt, UInt64.lt_iff_toNat_lt, number]
          omega
        have head : UInt64.ofNat blocks.head = (blocks.l1Header blocks.head).number := by
          have same := congrArg UInt64.ofNat number
          rw [UInt64.ofNat_toNat] at same
          exact same.symm
        refine ⟨between, kept, first.bind_ok ?_⟩
        simp only [if_pos past, blockInfoOf, if_neg known, head]
        exact .done between _

/-- In every order of steps, a client that walks back from the head comes to the block of its number, or is told that
there is none. -/
theorem block_info_by_number_served (served : blocks.ServedBy providers)
    (free : Set.InjOn (keyOf consensus.prim) blocks.raws) (nodes : W) {fuel : Nat} (enough : blocks.head < fuel)
    (blockNumber : Option UInt64) {s : Session HostPort ClientCall (HostState W) (Stop HostError) ClientAnswer
      (Outcome OracleProviderError BlockInfo)}
    (reaches : Session.Reachable (preimageServer (singleChainBackend lib cfg providers proactiveHints (hostFuel + 1)))
      (startingHost cfg nodes) (blockInfoByNumber consensus (blocks.hash blocks.head) fuel blockNumber).run s)
    (stuck : ∀ s', ¬ Session.Moves (preimageServer (singleChainBackend lib cfg providers proactiveHints (hostFuel + 1))) s s') :
    s.result = some (blockInfoOf blocks blockNumber) := by
  obtain ⟨after, -, completes⟩ : ∃ after, RightIn consensus.prim blocks.raws after.kv ∧
      Completes (handle (singleChainBackend lib cfg providers proactiveHints (hostFuel + 1))) (startingHost cfg nodes)
        (blockInfoByNumber consensus (blocks.hash blocks.head) fuel blockNumber).run after (blockInfoOf blocks blockNumber) :=
    blockInfoByNumber_completes served (blocks.keeps_rightIn free) enough blockNumber
      (rightIn_startingHost consensus.prim blocks.raws cfg nodes)
  exact (session_result completes reaches stuck).2

end Reading

namespace TwoHeaders

/-- The encoding of a header of the first years, with all that is not read of it empty. -/
def encodeHeader (parent transactionsRoot : B256) (number timestamp : UInt8) : List UInt8 :=
  let zeros : B256 := .ofNat 0
  [0xf9, 0x01, 0xed] ++ 0xa0 :: parent.1 ++ 0xa0 :: zeros.1 ++ 0x94 :: List.replicate 20 0 ++ 0xa0 :: zeros.1 ++
    0xa0 :: transactionsRoot.1 ++ 0xa0 :: zeros.1 ++ [0xb9, 0x01, 0x00] ++ List.replicate 256 0 ++ [0x80, number, 0x80, 0x80, timestamp, 0x80] ++
    0xa0 :: zeros.1 ++ 0x88 :: List.replicate 8 0

def genesisRlp : Bytes := ⟨encodeHeader (.ofNat 0) (.ofNat 0) 0x80 12, by decide +kernel⟩

def firstRlp : Bytes := ⟨encodeHeader (.ofNat 100) (.ofNat 0) 1 24, by decide +kernel⟩

def headers : List (Bytes × Header × B256) :=
  [(genesisRlp, ⟨.ofNat 0, 0, 12, .ofNat 0, .ofNat 0, .ofNat 0⟩, .ofNat 100),
    (firstRlp, ⟨.ofNat 100, 1, 24, .ofNat 0, .ofNat 0, .ofNat 0⟩, .ofNat 101)]

def codecs : Consensus Unit Unit where
  prim := .tabulated (headers.map fun entry => (entry.1.1, entry.2.2))
  decodeHeader bytes := ((headers.map fun entry => (entry.1.1, entry.2)).lookup bytes).elim (.error .inputTooShort) .ok
  decodeReceipt _ := .error .inputTooShort
  decodeTransaction _ := .error .inputTooShort
  displayError _ := "RLP error"

def blocks : L1Blocks codecs where
  head := 1
  header n := ((headers.getD n (firstRlp, ⟨.ofNat 100, 1, 24, .ofNat 0, .ofNat 0, .ofNat 0⟩, .ofNat 101))).2.1
  raw n := ((headers.getD n (firstRlp, ⟨.ofNat 100, 1, 24, .ofNat 0, .ofNat 0, .ofNat 0⟩, .ofNat 101))).1
  decodes n known := by interval_cases n <;> decide +kernel
  number n known := by interval_cases n <;> rfl
  linked n known := by interval_cases n; decide +kernel

def l1Node : SingleChainProviders Unit :=
  { SmallHost.nodes with
    getRawHeader := fun _ hash => ((), ((headers.map fun entry => (entry.2.2, entry.1)).lookup hash).elim (.error "not found") .ok) }

theorem served : blocks.ServedBy l1Node := by
  rintro ⟨⟩ n known
  change n ≤ 1 at known
  interval_cases n <;> decide +kernel

theorem free : Set.InjOn (keyOf codecs.prim) blocks.raws := by
  rintro _ ⟨n, known, rfl⟩ _ ⟨m, known', rfl⟩
  change n ≤ 1 at known
  change m ≤ 1 at known'
  interval_cases n <;> interval_cases m <;> decide +kernel

end TwoHeaders

open TwoHeaders in
theorem block_info_by_number_served_genesis : ∃ s, Session.Reachable
    (preimageServer (singleChainBackend SmallHost.libraries SmallHost.config l1Node [] 1)) (startingHost SmallHost.config ())
    (OracleL1ChainProvider.blockInfoByNumber codecs (blocks.hash 1) 2 (some 0)).run s ∧
    s.result = some (.ok ⟨.ofNat 100, 0, .ofNat 0, 12⟩) := by
  obtain ⟨s, reaches, stuck⟩ := (handles (singleChainBackend SmallHost.libraries SmallHost.config l1Node [] 1)).exists_rest
    (startingHost SmallHost.config ()) (OracleL1ChainProvider.blockInfoByNumber codecs (blocks.hash 1) 2 (some 0)).run
  have answers := block_info_by_number_served served free () (by decide) (some 0) reaches stuck
  refine ⟨s, reaches, answers.trans ?_⟩
  decide +kernel

end KonaSoon.Client
