import KonaSoon.Host.Sessions
import KonaSoon.Mpt.OrderedTrie

/-!
# The host of a single chain

What `SingleChainHintHandler` fetches for each type of hint, and under which keys it stores it
(`host/src/single/handler.rs`, `host/src/backend/util.rs`). The nodes behind the providers answer as they like, and
not always alike. Every preimage that a client is given is nevertheless vouched for in the way of its key.
-/

namespace KonaSoon.Host
open Lib Mpt Preimage

/-! ## Fetching -/

structure OutputRoot where
  stateRoot : B256
  bridgeStorageRoot : B256
  blockHash : B256
deriving DecidableEq, Repr

namespace OutputRoot

def encode (output : OutputRoot) : FixedBytes 128 :=
  ⟨List.replicate 32 0 ++ output.stateRoot.1 ++ output.bridgeStorageRoot.1 ++ output.blockHash.1, by
    simp [output.stateRoot.2, output.bridgeStorageRoot.2, output.blockHash.2]⟩

def encoded (output : OutputRoot) : Bytes := ⟨output.encode.1, by rw [output.encode.2]; norm_num⟩

def hash (prim : Primitives) (output : OutputRoot) : B256 := prim.keccak256 output.encode.1

end OutputRoot

structure TriedAccount where
  account : Option Bytes
  proofs : List Bytes
  withdrawalProofs : List Bytes

/-- `SingleChainProviders`, over the world of the nodes they ask. Blocks and transactions are in their encodings. -/
structure SingleChainProviders (W : Type) where
  getRawHeader : W → B256 → W × Except String Bytes
  getBlockTransactions : W → B256 → W × Except String (Option (Slice Bytes))
  getRawReceipts : W → B256 → W × Except String (Slice Bytes)
  downloadPreimage : W → List UInt8 → W × Except String Bytes
  outputAtBlock : W → UInt64 → W × Except String OutputRoot
  getTriedAccountProof : W → B256 → UInt64 → W × Except String TriedAccount
  getBlockByNumber : W → UInt64 → W × Except String Bytes
  getBankHash : W → UInt64 → W × Except String (Option String)
  getBlockTime : W → UInt64 → W × Except String (Option Int64)

structure HandlerLibraries where
  prim : Primitives
  takeProofNodes : HashBuilder → List Bytes
  bs58Decode : String → Option Bytes
  precompiles : List (Address × (Bytes → UInt64 → Except String Bytes))

def allocate (bytes : List UInt8) : Outcome String Bytes :=
  if fits : bytes.length < 2 ^ 63 then .ok ⟨bytes, fits⟩ else .error .panic

def exactly (n : Nat) (bytes : List UInt8) : Option (FixedBytes n) :=
  if length : bytes.length = n then some ⟨bytes, length⟩ else none

variable {W : Type}

def request {α : Type} (provider : W → W × Except String α) (entries : α → Outcome String (List (PreimageKey × Bytes))) :
    Accesses (HostState W) (Outcome String Unit) := do
  let answer ← Accesses.modifyGet fun host => ({ host with providers := (provider host.providers).1 },
    (provider host.providers).2)
  match answer with
  | .error e => return .error (.error e)
  | .ok answer =>
      match entries answer with
      | .error stop => return .error stop
      | .ok entries => do
          Accesses.modify fun host =>
            { host with kv := entries.foldl (fun kv entry => kv.set entry.1.toRaw entry.2) host.kv }
          return .ok ()

theorem request_run {α : Type} {provider : W → W × Except String α}
    {entries : α → Outcome String (List (PreimageKey × Bytes))} {host : HostState W} {answer : α}
    {made : List (PreimageKey × Bytes)} (answers : (provider host.providers).2 = .ok answer) (makes : entries answer = .ok made) :
    (request provider entries).run host = ({ host with
      providers := (provider host.providers).1
      kv := made.foldl (fun kv entry => kv.set entry.1.toRaw entry.2) host.kv }, .ok ()) := by
  rw [request, Accesses.run_bind, Accesses.run_modifyGet, answers]
  dsimp only
  rw [makes]
  rfl

def emptyString : Bytes := ⟨[0x80], by norm_num⟩

namespace HandlerLibraries

variable (lib : HandlerLibraries)

def nodeEntry (node : Bytes) : PreimageKey × Bytes := (.newKeccak256 (lib.prim.keccak256 node.1), node)

/-- `store_ordered_trie`. -/
def orderedTrieEntries (values : Slice Bytes) : Outcome String (List (PreimageKey × Bytes)) :=
  if values.1 = [] then .ok [(.newKeccak256 lib.prim.emptyRootHash, emptyString)]
  else
    match orderedTrieWithEncoder values id with
    | none => .error .panic
    | some hb => .ok ((lib.takeProofNodes hb).map lib.nodeEntry)

/-- `eth::execute`. -/
def execute (address : List UInt8) (input : Bytes) (gas : UInt64) : Except String Bytes :=
  match lib.precompiles.find? fun precompile => precompile.1.1 = address with
  | some precompile => precompile.2 input gas
  | none => .error "Precompile not accelerated"

def precompileResult (data : List UInt8) : Outcome String Bytes := do
  let input ← allocate (data.drop 28)
  match lib.execute (data.take 20) input (UInt64.ofNat (ofBigEndian ((data.drop 20).take 8))) with
  | .error _ => return ⟨[0], by norm_num⟩
  | .ok rawRes => allocate (1 :: rawRes.1)

def bankHashBytes : Option String → Outcome String Bytes
  | none => .ok ⟨[], length_noBytes⟩
  | some hash => Outcome.unwrap (lib.bs58Decode hash)

end HandlerLibraries

def blockTimeBytes : Option Int64 → Bytes
  | none => ⟨[], length_noBytes⟩
  | some time => numberBytes time.toUInt64

def accountBytes (tried : TriedAccount) : Bytes := tried.account.getD ⟨[], length_noBytes⟩

/-- `SingleChainHintHandler::fetch_hint`. -/
def fetchHint (lib : HandlerLibraries) (cfg : SingleChainHost) (providers : SingleChainProviders W) : FetchHint W := fun hint =>
  match hint.ty with
  | .l1BlockHeader =>
      match exactly 32 hint.data with
      | none => return .error (.error "Invalid hint data length for l1 block header")
      | some hash => request (providers.getRawHeader · hash) fun rawHeader => .ok [(.newKeccak256 hash, rawHeader)]
  | .l1Transactions =>
      match exactly 32 hint.data with
      | none => return .error (.error "Invalid hint data length for l1 transaction")
      | some hash => request (providers.getBlockTransactions · hash) fun block =>
          match block with
          | none => .error (.error "Block not found")
          | some transactions => lib.orderedTrieEntries transactions
  | .l1Receipts =>
      match exactly 32 hint.data with
      | none => return .error (.error "Invalid hint data length for l1 receipts")
      | some hash => request (providers.getRawReceipts · hash) lib.orderedTrieEntries
  | .l1Blob => return .ok ()
  | .daProxyBlob => request (providers.downloadPreimage · hint.data) fun data =>
      .ok [(.newDaProxyBlob lib.prim hint.data, data)]
  | .l1Precompile =>
      if hint.data.length ≥ 28 then
        request (fun nodes => (nodes, .ok ())) fun _ => do
          let inputHash := lib.prim.keccak256 hint.data
          let data ← allocate hint.data
          let result ← lib.precompileResult hint.data
          return [(.newKeccak256 inputHash, data), (.new inputHash .precompile, result)]
      else return .error (.error "Invalid hint data length for l1 precompile")
  | .startingL2Output =>
      match exactly 32 hint.data with
      | none => return .error (.error "Invalid hint data length for starting l2 output")
      | some _ => request (providers.outputAtBlock · cfg.agreedL2BlockNumber) fun output =>
          if output.hash lib.prim = cfg.agreedL2OutputRoot then
            .ok [(.newKeccak256 (output.hash lib.prim), output.encoded)]
          else .error (.error "Output root does not match L2 head.")
  | .l2StateNode => return .ok ()
  | .l2AccountProof =>
      match exactly 40 hint.data with
      | none => return .error (.error "Invalid hint req for L2AccountProof")
      | some data =>
          let blockNumber := UInt64.ofNat (ofBigEndian (data.1.take 8))
          let hashedAddress : B256 := ⟨data.1.drop 8, by rw [List.length_drop, data.2]⟩
          request (providers.getTriedAccountProof · hashedAddress blockNumber) fun tried =>
            .ok ((.newL2AccountProof hashedAddress, accountBytes tried) :: tried.proofs.map lib.nodeEntry ++
              tried.withdrawalProofs.map lib.nodeEntry)
  | .l2BlockData =>
      match exactly 8 hint.data with
      | none => return .error (.error "Invalid hint data length for l2 block data")
      | some data =>
          let blockNumber := UInt64.ofNat (ofBigEndian data.1)
          request (providers.getBlockByNumber · blockNumber) fun block => .ok [(.newBlockSlot lib.prim blockNumber, block)]
  | .l2BankHash =>
      match exactly 8 hint.data with
      | none => return .error (.error "Invalid hint data length for l2 bank hash")
      | some data =>
          let blockNumber := UInt64.ofNat (ofBigEndian data.1)
          request (providers.getBankHash · blockNumber) fun bankHash => do
            let bankHashBytes ← lib.bankHashBytes bankHash
            return [(.newL2BankHash lib.prim blockNumber, bankHashBytes)]
  | .l2BlockTime =>
      match exactly 8 hint.data with
      | none => return .error (.error "Invalid hint data length for l2 block time")
      | some data =>
          let blockNumber := UInt64.ofNat (ofBigEndian data.1)
          request (providers.getBlockTime · blockNumber) fun blockTime =>
            .ok [(.newL2BlockTime lib.prim blockNumber, blockTimeBytes blockTime)]

/-- The backend of a `SingleChainHost`. -/
abbrev singleChainBackend (lib : HandlerLibraries) (cfg : SingleChainHost) (providers : SingleChainProviders W)
    (proactiveHints : List HintType) (fuel : Nat) : PreimageServerBackend (HostState W) :=
  OnlineHostBackend (fetchHint lib cfg providers) proactiveHints fuel

def startingHost (cfg : SingleChainHost) (nodes : W) : HostState W := ⟨nodes, ⟨localInputs cfg, ∅⟩, none⟩

/-! ## What the answers are -/

/-- How an answer is vouched for: by the configuration, by its own hash, or by the node that was asked. -/
inductive Vouched (lib : HandlerLibraries) (cfg : SingleChainHost) (providers : SingleChainProviders W) :
    PreimageKey → Bytes → Prop
  | input {key value} (isLocal : key.keyType = .local) (here : localInputs cfg key.toRaw = some value) :
      Vouched lib cfg providers key value
  | digest (value) : Vouched lib cfg providers (.newKeccak256 (lib.prim.keccak256 value.1)) value
  | header {nodes hash value} (answers : (providers.getRawHeader nodes hash).2 = .ok value) :
      Vouched lib cfg providers (.newKeccak256 hash) value
  | daProxyBlob {nodes commitment value} (answers : (providers.downloadPreimage nodes commitment).2 = .ok value) :
      Vouched lib cfg providers (.newDaProxyBlob lib.prim commitment) value
  | precompile {data value} (executes : lib.precompileResult data = .ok value) :
      Vouched lib cfg providers (.new (lib.prim.keccak256 data) .precompile) value
  | account {nodes hashedAddress blockNumber tried}
      (answers : (providers.getTriedAccountProof nodes hashedAddress blockNumber).2 = .ok tried) :
      Vouched lib cfg providers (.newL2AccountProof hashedAddress) (accountBytes tried)
  | block {nodes blockNumber value} (answers : (providers.getBlockByNumber nodes blockNumber).2 = .ok value) :
      Vouched lib cfg providers (.newBlockSlot lib.prim blockNumber) value
  | bankHash {nodes blockNumber hash value} (answers : (providers.getBankHash nodes blockNumber).2 = .ok hash)
      (decodes : lib.bankHashBytes hash = .ok value) : Vouched lib cfg providers (.newL2BankHash lib.prim blockNumber) value
  | blockTime {nodes blockNumber time} (answers : (providers.getBlockTime nodes blockNumber).2 = .ok time) :
      Vouched lib cfg providers (.newL2BlockTime lib.prim blockNumber) (blockTimeBytes time)

variable {lib : HandlerLibraries} {cfg : SingleChainHost} {providers : SingleChainProviders W}

structure HoldsVouched (lib : HandlerLibraries) (cfg : SingleChainHost) (providers : SingleChainProviders W)
    (host : HostState W) : Prop where
  inputs : host.kv.localStore = localInputs cfg
  vouched : ∀ key value, host.kv.remoteStore.lookup key.toRaw = some value → Vouched lib cfg providers key value

theorem HoldsVouched.of_get {host : HostState W} (holds : HoldsVouched lib cfg providers host) {key : PreimageKey}
    {value : Bytes} (here : host.kv.get key.toRaw = some value) : Vouched lib cfg providers key value := by
  by_cases isLocal : key.keyType = .local
  · rw [SplitKeyValueStore.get_local isLocal, holds.inputs] at here
    exact .input isLocal here
  · rw [SplitKeyValueStore.get_toRaw isLocal] at here
    exact holds.vouched key value here

theorem localStore_foldl (entries : List (PreimageKey × Bytes)) (kv : SplitKeyValueStore) :
    (entries.foldl (fun kv entry => kv.set entry.1.toRaw entry.2) kv).localStore = kv.localStore := by
  induction entries generalizing kv with
  | nil => rfl
  | cons entry entries ih => exact ih _

theorem lookup_foldl {entries : List (PreimageKey × Bytes)} {kv : SplitKeyValueStore} {key : PreimageKey} {value : Bytes}
    (here : (entries.foldl (fun kv entry => kv.set entry.1.toRaw entry.2) kv).remoteStore.lookup key.toRaw = some value) :
    (key, value) ∈ entries ∨ kv.remoteStore.lookup key.toRaw = some value := by
  induction entries generalizing kv with
  | nil => exact .inr here
  | cons entry entries ih =>
      rcases ih here with later | before
      · exact .inl (List.mem_cons_of_mem entry later)
      · rcases HashMap.lookup_of_lookup_insert before with ⟨same, rfl⟩ | before
        · have own := PreimageKey.toRaw_injective same
          subst own
          exact .inl List.mem_cons_self
        · exact .inr before

theorem request_keeps {α : Type} {provider : W → W × Except String α}
    {entries : α → Outcome String (List (PreimageKey × Bytes))}
    (vouches : ∀ nodes answer made, (provider nodes).2 = .ok answer → entries answer = .ok made →
      ∀ entry ∈ made, Vouched lib cfg providers entry.1 entry.2)
    {host : HostState W} (holds : HoldsVouched lib cfg providers host) :
    HoldsVouched lib cfg providers ((request provider entries).run host).1 := by
  have kept : HoldsVouched lib cfg providers { host with providers := (provider host.providers).1 } :=
    ⟨holds.inputs, holds.vouched⟩
  rw [request, Accesses.run_bind, Accesses.run_modifyGet]
  dsimp only
  split
  · exact kept
  · rename_i answer answers
    split
    · exact kept
    · rename_i made makes
      refine ⟨?_, fun key value here => ?_⟩
      · exact (localStore_foldl made _).trans holds.inputs
      · rcases lookup_foldl here with entry | before
        · exact vouches host.providers answer made answers makes _ entry
        · exact holds.vouched key value before

theorem orderedTrieEntries_vouched {values : Slice Bytes} {made : List (PreimageKey × Bytes)}
    (makes : lib.orderedTrieEntries values = .ok made) : ∀ entry ∈ made, Vouched lib cfg providers entry.1 entry.2 := by
  intro entry member
  unfold HandlerLibraries.orderedTrieEntries at makes
  split at makes
  · cases makes
    obtain rfl := List.mem_singleton.mp member
    exact .digest emptyString
  · split at makes
    · cases makes
    · cases makes
      obtain ⟨node, -, rfl⟩ := List.mem_map.mp member
      exact .digest node

theorem vouched_singleton {key : PreimageKey} {value : Bytes} (vouched : Vouched lib cfg providers key value) :
    ∀ entry ∈ [(key, value)], Vouched lib cfg providers entry.1 entry.2 := by
  intro entry member
  obtain rfl := List.mem_singleton.mp member
  exact vouched

theorem fetchHint_keeps (hint : Hint) {host : HostState W} (holds : HoldsVouched lib cfg providers host) :
    HoldsVouched lib cfg providers ((fetchHint lib cfg providers hint).run host).1 := by
  obtain ⟨ty, data⟩ := hint
  cases ty with
  | l1BlockHeader =>
      simp only [fetchHint]
      split
      · exact holds
      · refine request_keeps (fun nodes header made answers makes => ?_) holds
        cases makes
        exact vouched_singleton (.header answers)
  | l1Transactions =>
      simp only [fetchHint]
      split
      · exact holds
      · refine request_keeps (fun nodes block made answers makes => ?_) holds
        split at makes
        · cases makes
        · exact orderedTrieEntries_vouched makes
  | l1Receipts =>
      simp only [fetchHint]
      split
      · exact holds
      · exact request_keeps (fun nodes receipts made answers makes => orderedTrieEntries_vouched makes) holds
  | l1Blob => exact holds
  | daProxyBlob =>
      simp only [fetchHint]
      refine request_keeps (fun nodes blob made answers makes => ?_) holds
      cases makes
      exact vouched_singleton (.daProxyBlob answers)
  | l1Precompile =>
      simp only [fetchHint]
      split
      · refine request_keeps (fun nodes _ made answers makes => ?_) holds
        obtain ⟨input, allocates, makes⟩ := bind_eq_ok.mp makes
        obtain ⟨result, executes, makes⟩ := bind_eq_ok.mp makes
        cases makes
        have same : input.1 = data := by
          unfold allocate at allocates
          split at allocates
          · cases allocates
            rfl
          · cases allocates
        intro entry member
        rcases List.mem_cons.mp member with rfl | member
        · rw [← same]
          exact .digest input
        · obtain rfl := List.mem_singleton.mp member
          exact .precompile executes
      · exact holds
  | startingL2Output =>
      simp only [fetchHint]
      split
      · exact holds
      · refine request_keeps (fun nodes output made answers makes => ?_) holds
        split at makes
        · cases makes
          exact vouched_singleton (.digest output.encoded)
        · cases makes
  | l2StateNode => exact holds
  | l2AccountProof =>
      simp only [fetchHint]
      split
      · exact holds
      · refine request_keeps (fun nodes tried made answers makes => ?_) holds
        cases makes
        intro entry member
        rcases List.mem_append.mp member with account | proof
        · rcases List.mem_cons.mp account with rfl | proof
          · exact .account answers
          · obtain ⟨node, -, rfl⟩ := List.mem_map.mp proof
            exact .digest node
        · obtain ⟨node, -, rfl⟩ := List.mem_map.mp proof
          exact .digest node
  | l2BlockData =>
      simp only [fetchHint]
      split
      · exact holds
      · refine request_keeps (fun nodes block made answers makes => ?_) holds
        cases makes
        exact vouched_singleton (.block answers)
  | l2BankHash =>
      simp only [fetchHint]
      split
      · exact holds
      · refine request_keeps (fun nodes hash made answers makes => ?_) holds
        obtain ⟨bytes, decodes, makes⟩ := bind_eq_ok.mp makes
        cases makes
        exact vouched_singleton (.bankHash answers decodes)
  | l2BlockTime =>
      simp only [fetchHint]
      split
      · exact holds
      · refine request_keeps (fun nodes time made answers makes => ?_) holds
        cases makes
        exact vouched_singleton (.blockTime answers)

/-- In every order of steps, every answer of the host is vouched for. -/
theorem answers_vouched (lib : HandlerLibraries) (cfg : SingleChainHost) (providers : SingleChainProviders W)
    (proactiveHints : List HintType) (fuel : Nat) (nodes : W) {R : Type} (program : Asking ClientCall ClientAnswer R)
    {s : Session HostPort ClientCall (HostState W) (Stop HostError) ClientAnswer R}
    (reaches : Session.Reachable (preimageServer (singleChainBackend lib cfg providers proactiveHints fuel))
      (startingHost cfg nodes) program s) {key : PreimageKey} {value : List UInt8}
    (answered : (.get key, .got value) ∈ s.log) :
    ∃ bytes : Bytes, bytes.1 = value ∧ Vouched lib cfg providers key bytes := by
  have fetches : ∀ hint host, HoldsVouched lib cfg providers host →
      HoldsVouched lib cfg providers ((fetchHint lib cfg providers hint).run host).1 :=
    fun hint host holds => fetchHint_keeps hint holds
  refine session_invariant (HoldsVouched lib cfg providers) (Vouched lib cfg providers) ?_ ?_ ?_ reaches answered
  · intro host hint holds
    exact OnlineHostBackend.routeHint_keeps fetches (fun _ _ holds => ⟨holds.inputs, holds.vouched⟩) holds proactiveHints hint
  · intro host key holds
    obtain ⟨kept, found⟩ := OnlineHostBackend.getPreimage_keeps fetches fuel key holds
    exact ⟨kept, fun value returns => kept.of_get (found value returns)⟩
  · exact ⟨rfl, fun key value here => by simp [startingHost] at here⟩

namespace SmallHost

def libraries : HandlerLibraries := ⟨.tabulated [], fun _ => [], fun _ => none, []⟩

def config : SingleChainHost := ⟨.ofNat 1, 7, .ofNat 2, .ofNat 3, 9, none, none⟩

def header : Bytes := ⟨[0xc0], by norm_num⟩

def nodes : SingleChainProviders Unit where
  getRawHeader _ _ := ((), .ok header)
  getBlockTransactions _ _ := ((), .ok none)
  getRawReceipts _ _ := ((), .error "unavailable")
  downloadPreimage _ _ := ((), .error "unavailable")
  outputAtBlock _ _ := ((), .error "unavailable")
  getTriedAccountProof _ _ _ := ((), .error "unavailable")
  getBlockByNumber _ _ := ((), .error "unavailable")
  getBankHash _ _ := ((), .ok none)
  getBlockTime _ _ := ((), .ok none)

def headerHint : Hint := HintType.l1BlockHeader.withData [(B256.ofNat 5).1]

theorem headerHint_short : (utf8 headerHint.encode).length < 2 ^ 32 := by decide +kernel

def headerKey : PreimageKey := .newKeccak256 (.ofNat 5)

def program : Asking ClientCall ClientAnswer ClientAnswer :=
  .ask (.hint ⟨headerHint.encode, headerHint_short⟩) fun _ => .ask (.get headerKey) .done

end SmallHost

namespace SmallHost

def backend : PreimageServerBackend (HostState Unit) := singleChainBackend libraries config nodes [] 3

def course : Course HostPort ClientCall (HostState Unit) (Stop HostError) ClientAnswer ClientAnswer :=
  atomically ClientCall.port (handle backend) (startingHost config ()) (fun _ => none) [] program

theorem course_log : course.log =
    [(.hint ⟨headerHint.encode, headerHint_short⟩, .acknowledged), (.get headerKey, .got header.1)] := by
  decide +kernel

theorem course_ended : course.rest.ended = some (.got header.1) := by decide +kernel

theorem rests : ∃ s, Session.Reachable (preimageServer backend) (startingHost config ()) program s ∧
    (∀ s', ¬ Session.Moves (preimageServer backend) s s') ∧ s.log = course.log ∧ s.result = course.rest.ended := by
  have follows := (handles backend).follows (startingHost config ()) program
  obtain ⟨s, reaches, stuck⟩ := Session.exists_rest follows.ends
  exact ⟨s, reaches, stuck, (follows.rests s reaches stuck).2⟩

end SmallHost

open SmallHost in
theorem answers_vouched_header : ∃ s, Session.Reachable (preimageServer backend) (startingHost config ()) program s ∧
    ∃ bytes : Bytes, bytes.1 = header.1 ∧ Vouched libraries config nodes headerKey bytes := by
  obtain ⟨s, reaches, -, log, -⟩ := rests
  have answered : (ClientCall.get headerKey, ClientAnswer.got header.1) ∈ s.log := by
    rw [log, course_log]
    simp
  exact ⟨s, reaches, answers_vouched libraries config nodes [] 3 () program reaches answered⟩

end KonaSoon.Host
