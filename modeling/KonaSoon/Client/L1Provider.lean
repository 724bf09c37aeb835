import KonaSoon.Host.SingleChain
import KonaSoon.Mpt.ListWalker
import KonaSoon.Primitives.Blocks

/-!
# The L1 provider of the client

`OracleL1ChainProvider` (`proof/src/l1/chain_provider.rs`) as programs that write hints and ask for preimages. The
provider reads headers by their hashes, walks back from the head of L1, and reads the transactions and the receipts of a
block from the tries below its header.
-/

namespace KonaSoon.Client
open Lib Mpt Preimage Host

/-! ## Programs -/

inductive OracleProviderError where
  | blockNumberPastHead (blockNumber head : UInt64)
  | trieWalker (e : OrderedListWalkerError)
  | rlp (e : RlpError)
deriving DecidableEq, Repr

abbrev OracleProgram (ε α : Type) := ExceptT (Stop ε) (Asking ClientCall ClientAnswer) α

namespace OracleProgram

variable {ε ε' α : Type}

def fail (stop : Stop ε) : OracleProgram ε α := ExceptT.mk (.done (.error stop))

def lift (result : Except (Stop ε) α) : OracleProgram ε α := ExceptT.mk (.done result)

def mapError (f : Stop ε → Stop ε') (program : OracleProgram ε α) : OracleProgram ε' α :=
  ExceptT.mk (program.run >>= fun result => .done (result.mapError f))

def write (text : HintText) : OracleProgram ε Unit := ExceptT.mk (.ask (.hint text) fun _ => .done (.ok ()))

def get (key : PreimageKey) : OracleProgram ε (List UInt8) :=
  ExceptT.mk (.ask (.get key) fun answer =>
    match answer with
    | .got value => .done (.ok value)
    | .acknowledged => .done (.ok []))

end OracleProgram

open OracleProgram

theorem length_withData (ty : HintType) (hash : B256) : (ty.withData [hash.1]).data.length < 2 ^ 20 := by
  rw [HintType.withData, List.flatten_singleton, hash.2]
  norm_num

/-- `HintType::with_data` of one hash, in its encoding. -/
def hashHint (ty : HintType) (hash : B256) : HintText :=
  ⟨(ty.withData [hash.1]).encode, Hint.encode_short _ (length_withData ty hash)⟩

/-! ## The third-party types of L1 -/

structure Header where
  parentHash : B256
  number : UInt64
  timestamp : UInt64
  stateRoot : B256
  transactionsRoot : B256
  receiptsRoot : B256
deriving DecidableEq, Repr

/-- The codecs of `alloy_consensus`. A header comes with its hash, and a transaction without a signer panics. -/
structure Consensus (Receipt Transaction : Type) where
  prim : Primitives
  decodeHeader : List UInt8 → Except RlpError (Header × B256)
  decodeReceipt : List UInt8 → Except RlpError Receipt
  decodeTransaction : List UInt8 → Except RlpError (Option Transaction)
  displayError : OracleProviderError → String

structure L1Header where
  hash : B256
  parentHash : B256
  number : UInt64
  timestamp : UInt64
  stateRoot : B256
  transactionsRoot : B256
  receiptsRoot : B256
deriving DecidableEq, Repr

/-- `From<Header>`. -/
def L1Header.ofHeader (header : Header) (hashSlow : B256) : L1Header where
  hash := hashSlow
  parentHash := header.parentHash
  number := header.number
  timestamp := header.timestamp
  stateRoot := header.stateRoot
  transactionsRoot := header.transactionsRoot
  receiptsRoot := header.receiptsRoot

def L1Header.blockInfo (header : L1Header) : BlockInfo where
  hash := header.hash
  number := header.number
  parentHash := header.parentHash
  timestamp := header.timestamp

/-! ## The provider -/

variable {Receipt Transaction : Type} (consensus : Consensus Receipt Transaction)

namespace OracleL1ChainProvider

def decodeL1Header (headerRlp : List UInt8) : Outcome OracleProviderError L1Header :=
  match consensus.decodeHeader headerRlp with
  | .error e => .error (.error (.rlp e))
  | .ok (header, hashSlow) => .ok (.ofHeader header hashSlow)

def headerByHash (hash : B256) : OracleProgram OracleProviderError L1Header := do
  write (hashHint .l1BlockHeader hash)
  let headerRlp ← get (.newKeccak256 hash)
  lift (decodeL1Header consensus headerRlp)

def blockInfoByHash (hash : B256) : OracleProgram OracleProviderError BlockInfo := do
  let header ← headerByHash consensus hash
  return header.blockInfo

/-- The loop of `block_info_by_number`. -/
def walkBack (blockNumber : UInt64) : Nat → L1Header → OracleProgram OracleProviderError L1Header
  | 0, _ => fail .outOfFuel
  | fuel + 1, header =>
      if header.number > blockNumber then do
        let header ← headerByHash consensus header.parentHash
        walkBack blockNumber fuel header
      else return header

/-- `block_info_by_number`, for a number or a tag. -/
def blockInfoByNumber (l1Head : B256) (fuel : Nat) (blockNumber : Option UInt64) : OracleProgram OracleProviderError BlockInfo := do
  let header ← headerByHash consensus l1Head
  match blockNumber with
  | none => fail .panic
  | some blockNumber =>
      if blockNumber > header.number then
        fail (.error (.blockNumberPastHead blockNumber header.number))
      else do
        let header ← walkBack consensus blockNumber fuel header
        return header.blockInfo

/-! ## Walking its tries -/

def decodeTrieNode (preimage : List UInt8) : Outcome OracleProviderError TrieNode :=
  match TrieNode.decode consensus.prim (TrieNode.decodeFuel preimage) preimage with
  | .ok (node, _) => .ok node
  | .error e => .error (e.map fun e => .rlp e)

def trieNodeByHash (key : B256) : OracleProgram OracleProviderError TrieNode := do
  let preimage ← get (.new key .keccak256)
  lift (decodeTrieNode consensus preimage)

/-- `OrderedListWalker::get_trie_node`, with the provider itself as the fetcher. -/
def getTrieNode (hash : B256) : OracleProgram OrderedListWalkerError TrieNode :=
  mapError (·.map fun e => .trieNode (.provider (consensus.displayError e))) (trieNodeByHash consensus hash)

def fetchChild (fetchLeaves : TrieNode → OracleProgram OrderedListWalkerError (List (Nibbles × Bytes))) :
    TrieNode → OracleProgram OrderedListWalkerError (List (Nibbles × Bytes))
  | .blinded commitment => getTrieNode consensus commitment >>= fetchLeaves
  | node => fetchLeaves node

def fetchItem (fetchLeaves : TrieNode → OracleProgram OrderedListWalkerError (List (Nibbles × Bytes))) :
    TrieNode → OracleProgram OrderedListWalkerError (List (Nibbles × Bytes))
  | .blinded commitment => getTrieNode consensus commitment >>= fetchLeaves
  | .empty => return []
  | item => fetchLeaves item

/-- `OrderedListWalker::fetch_leaves`. -/
def fetchLeaves : Nat → TrieNode → OracleProgram OrderedListWalkerError (List (Nibbles × Bytes))
  | 0, _ => fail .outOfFuel
  | fuel + 1, .branch stack => do
      let leafValues ← stack.mapM (fetchItem consensus (fetchLeaves fuel))
      return leafValues.flatten
  | _ + 1, .leaf pfx value => return [(pfx, value)]
  | fuel + 1, .extension _ node => fetchChild consensus (fetchLeaves fuel) node
  | _ + 1, .empty => return []
  | _ + 1, .blinded _ => fail (.error (.trieNode .invalidNodeType))

/-- The items of `OrderedListWalker::try_new_hydrated` in their order. -/
def hydratedItems (root : B256) (fuel : Nat) : OracleProgram OracleProviderError (List (Nibbles × Bytes)) :=
  mapError (·.map .trieWalker) do
    let rootTrieNode ← getTrieNode consensus root
    let orderedList ← fetchLeaves consensus fuel rootTrieNode
    return OrderedListWalker.placeFirst orderedList

def decodeItems {T : Type} (decode : List UInt8 → Except RlpError T) (items : List (Nibbles × Bytes)) :
    Outcome OracleProviderError (List T) :=
  items.mapM fun item => (decode item.2.1).mapError fun e => .error (.rlp e)

def receiptsByHash (fuel : Nat) (hash : B256) : OracleProgram OracleProviderError (List Receipt) := do
  let header ← headerByHash consensus hash
  write (hashHint .l1Receipts hash)
  let items ← hydratedItems consensus header.receiptsRoot fuel
  lift (decodeItems consensus.decodeReceipt items)

def getBlockTransactionsByHash (fuel : Nat) (hash : B256) : OracleProgram OracleProviderError (List Transaction) := do
  let header ← headerByHash consensus hash
  write (hashHint .l1Transactions hash)
  let items ← hydratedItems consensus header.transactionsRoot fuel
  let transactions ← lift (decodeItems consensus.decodeTransaction items)
  lift (transactions.mapM Outcome.unwrap)

end OracleL1ChainProvider

end KonaSoon.Client
