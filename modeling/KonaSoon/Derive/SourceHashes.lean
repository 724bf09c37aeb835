import KonaSoon.Derive.AttributesOrder

/-!
# The source hashes of derived transactions

The source hash stands in for the recent blockhash of a derived transaction and keeps it from being
repeated. Along a chain of blocks the pair of L1 origin and sequence number never comes back, and the
deposits of an L1 block come only with the first block of its epoch.
-/

namespace KonaSoon
open Lib Mpt

/-! ## What is hashed -/

def depositIdInput (l1BlockHash : B256) (index : UInt64) : List UInt8 := l1BlockHash.1 ++ List.replicate 24 0 ++ toBeBytes index

def domainInput (domain : UInt32) (depositIdHash : B256) : List UInt8 :=
  List.replicate 24 0 ++ toBeBytes domain.toUInt64 ++ depositIdHash.1

theorem depositIdInput_inj {hash hash' : B256} {index index' : UInt64}
    (same : depositIdInput hash index = depositIdInput hash' index') : hash = hash' ∧ index = index' := by
  obtain ⟨front, back⟩ := List.append_inj same (by simp [hash.2, hash'.2])
  obtain ⟨sameHash, -⟩ := List.append_inj front (by rw [hash.2, hash'.2])
  exact ⟨Subtype.ext sameHash, toBeBytes_injective back⟩

theorem domainInput_inj {domain domain' : UInt32} {hash hash' : B256}
    (same : domainInput domain hash = domainInput domain' hash') : domain = domain' ∧ hash = hash' := by
  obtain ⟨front, back⟩ := List.append_inj same (by simp [length_toBeBytes])
  obtain ⟨-, sameDomain⟩ := List.append_inj front rfl
  have widened := congrArg UInt64.toNat (toBeBytes_injective sameDomain)
  rw [UInt32.toNat_toUInt64, UInt32.toNat_toUInt64] at widened
  exact ⟨UInt32.toNat_inj.mp widened, Subtype.ext back⟩

def sourceInputs (prim : Primitives) (domain : UInt32) (l1BlockHash : B256) (index : UInt64) : List (List UInt8) :=
  [depositIdInput l1BlockHash index, domainInput domain (prim.keccak256 (depositIdInput l1BlockHash index))]

theorem sourceHash_inj {prim : Primitives} {inputs : Set (List UInt8)} (collisionFree : Set.InjOn prim.keccak256 inputs)
    {domain domain' : UInt32} {hash hash' : B256} {index index' : UInt64}
    (hashed : ∀ input ∈ sourceInputs prim domain hash index, input ∈ inputs)
    (hashed' : ∀ input ∈ sourceInputs prim domain' hash' index', input ∈ inputs)
    (same : sourceHash prim domain hash index = sourceHash prim domain' hash' index') :
    domain = domain' ∧ hash = hash' ∧ index = index' := by
  have outer : domainInput domain (prim.keccak256 (depositIdInput hash index)) =
      domainInput domain' (prim.keccak256 (depositIdInput hash' index')) :=
    collisionFree (hashed _ (by simp [sourceInputs])) (hashed' _ (by simp [sourceInputs])) same
  obtain ⟨sameDomain, inner⟩ := domainInput_inj outer
  have sameInput : depositIdInput hash index = depositIdInput hash' index' :=
    collisionFree (hashed _ (by simp [sourceInputs])) (hashed' _ (by simp [sourceInputs])) inner
  exact ⟨sameDomain, depositIdInput_inj sameInput⟩

end KonaSoon

namespace KonaSoon.Derive
open Lib Mpt

/-! ## The L1 chain -/

structure HonestChain (chain : List BlockInfo) : Prop where
  linked : chain.IsChain fun block next => next.number.toNat = block.number.toNat + 1 ∧ next.parentHash = block.hash
  distinct : (chain.map (·.hash)).Nodup
  rooted : ∀ first, chain.head? = some first → first.parentHash ∉ chain.map (·.hash)

theorem isChain_predecessor {α : Type} {R : α → α → Prop} {items : List α} (linked : items.IsChain R) {item : α}
    (member : item ∈ items) : items.head? = some item ∨ ∃ before ∈ items, R before item := by
  induction items with
  | nil => cases member
  | cons first rest ih =>
      rcases List.mem_cons.mp member with rfl | later
      · exact .inl rfl
      · cases rest with
        | nil => cases later
        | cons second rest =>
            rw [List.isChain_cons_cons] at linked
            rcases ih linked.2 later with head | ⟨before, inside, related⟩
            · cases head
              exact .inr ⟨first, List.mem_cons_self, linked.1⟩
            · exact .inr ⟨before, List.mem_cons_of_mem first inside, related⟩

variable {chain : List BlockInfo} {block origin : BlockInfo}

theorem HonestChain.eq_of_hash (honest : HonestChain chain) (here : block ∈ chain) (there : origin ∈ chain)
    (same : block.hash = origin.hash) : block = origin :=
  List.inj_on_of_nodup_map honest.distinct here there same

theorem HonestChain.child (honest : HonestChain chain) (here : block ∈ chain) (there : origin ∈ chain)
    (follows : block.parentHash = origin.hash) : block.number.toNat = origin.number.toNat + 1 := by
  rcases isChain_predecessor honest.linked here with first | ⟨before, inside, number, parent⟩
  · exact absurd (List.mem_map.mpr ⟨origin, there, follows.symm⟩) (honest.rooted block first)
  · rw [number, honest.eq_of_hash inside there (parent.symm.trans follows)]

/-! ## A chain of derived blocks -/

variable {L1P L2P : Type} [ChainProvider L1P Receipt] [SystemConfigProvider L2P]

structure DerivedBlock (L1P L2P : Type) where
  builder : StatefulAttributesBuilder L1P L2P Receipt
  parent : L2BlockInfo
  epoch : BlockNumHash

namespace DerivedBlock

/-- The deposit of the L1 attributes, as `prepare_payload_attributes` makes it. -/
def l1Info (block : DerivedBlock L1P L2P) : Option AttributesDeposited :=
  match (block.builder.epochInputs block.parent block.epoch).2 with
  | .error _ => none
  | .ok inputs => (AttributesDeposited.tryFrom inputs.l1Origin inputs.sequenceNumber
      (addressToHash inputs.sysConfig.batcherAddress)).toOption

omit [SystemConfigProvider L2P] in
def deposits (block : DerivedBlock L1P L2P) : List UserDeposited :=
  if block.parent.l1Origin.number = block.epoch.number then []
  else match (@ChainProvider.receiptsByHash L1P Receipt _
      (ChainProvider.blockInfoByHash Receipt block.builder.receiptsFetcher block.epoch.hash).1 block.epoch.hash).2 with
    | .error _ => []
    | .ok receipts => (block.builder.derived.deriveDeposits block.epoch.number block.epoch.hash receipts).getD []

def sourceHashes (prim : Primitives) (block : DerivedBlock L1P L2P) : List B256 :=
  block.l1Info.toList.map (·.sourceHash prim) ++ block.deposits.map (·.sourceHash prim)

/-- Every input of the hash function on the way to the source hashes of a block. -/
def hashed (prim : Primitives) (block : DerivedBlock L1P L2P) : List (List UInt8) :=
  block.l1Info.toList.flatMap (fun info =>
      sourceInputs prim l1InfoDepositSourceDomain info.l1BlockHash info.sequenceNumber) ++
    block.deposits.flatMap fun deposit => sourceInputs prim userDepositSourceDomain deposit.l1BlockHash deposit.logIndex

/-- The next block has this one as its parent, as the L1 info transaction of this one records it. -/
def Follows (block next : DerivedBlock L1P L2P) : Prop :=
  next.parent.blockInfo.number.toNat = block.parent.blockInfo.number.toNat + 1 ∧
    ∃ info, block.l1Info = some info ∧ next.parent.l1Origin = ⟨info.l1BlockNum, info.l1BlockHash⟩ ∧
      next.parent.seqNum = info.sequenceNumber

/-- The answers of the L1 provider are of an honest chain, and a block has fewer logs than there are indices. -/
structure OnChain (chain : List BlockInfo) (block : DerivedBlock L1P L2P) : Prop where
  info : ∀ hash info, (ChainProvider.blockInfoByHash Receipt block.builder.receiptsFetcher hash).2 = .ok info →
    info ∈ chain ∧ info.hash = hash
  logs : ∀ hash receipts, (@ChainProvider.receiptsByHash L1P Receipt _
    (ChainProvider.blockInfoByHash Receipt block.builder.receiptsFetcher hash).1 hash).2 = .ok receipts →
    (countedLogs receipts).length ≤ 2 ^ 64

structure Placed (block : DerivedBlock L1P L2P) (origin l1Origin : BlockInfo) (info : AttributesDeposited) : Prop where
  made : block.l1Info = some info
  number : info.l1BlockNum = l1Origin.number
  hash : info.l1BlockHash = l1Origin.hash
  step : (l1Origin = origin ∧ info.sequenceNumber = block.parent.seqNum + 1 ∧ block.deposits = []) ∨
    l1Origin.number.toNat = origin.number.toNat + 1
  deposits : ∀ deposit ∈ block.deposits, deposit.l1BlockHash = l1Origin.hash
  indices : (block.deposits.map (·.logIndex)).Pairwise (· < ·)

variable {derived : DerivedTransactions Receipt} {contracts : DepositContracts}
  {block : DerivedBlock L1P L2P} {attributes : PayloadAttributes}

theorem placed_of_prepared (honest : HonestChain chain) (onChain : block.OnChain chain)
    (reads : block.builder.derived.deriveDeposits = deriveDeposits block.builder.derived.prim contracts)
    (there : origin ∈ chain) (parent : block.parent.l1Origin = origin.id)
    (prepares : (block.builder.preparePayloadAttributes block.parent block.epoch).2 = .ok attributes) :
    ∃ l1Origin info, l1Origin ∈ chain ∧ block.Placed origin l1Origin info := by
  obtain ⟨inputs, l1InfoTx, prepared, -, -⟩ := StatefulAttributesBuilder.preparePayloadAttributes_ok
    (Prod.ext rfl prepares : block.builder.preparePayloadAttributes block.parent block.epoch = (_, .ok attributes))
  have ok : (block.builder.epochInputs block.parent block.epoch).2 = .ok inputs := by rw [prepared]
  have made : block.l1Info = (AttributesDeposited.tryFrom inputs.l1Origin inputs.sequenceNumber
      (addressToHash inputs.sysConfig.batcherAddress)).toOption := by rw [l1Info, ok]
  rcases StatefulAttributesBuilder.epochInputs_ok ok with ⟨receipts, starts⟩ | continues
  · obtain ⟨inside, hash⟩ := onChain.info _ _ starts.info
    have few := onChain.logs _ _ starts.fetched
    have derives := starts.deposits
    simp only [DerivedTransactions.deriveSanitizedDepositTx, bind_eq_ok, Outcome.unwrap_eq_ok] at derives
    obtain ⟨deposits, derives, -⟩ := derives
    have listed : block.deposits = deposits := by
      simp only [DerivedBlock.deposits, if_neg starts.differs, starts.fetched, derives, Option.getD_some]
    rw [reads] at derives
    obtain ⟨places, sorted⟩ := deriveDeposits_places few derives
    refine ⟨inputs.l1Origin, _, inside, made, rfl, rfl, .inr ?_, ?_, ?_⟩
    · apply honest.child inside there
      rw [← starts.follows, parent]
      rfl
    · intro deposit member
      rw [listed] at member
      rw [places deposit member, hash]
    · rw [listed]
      exact sorted
  · obtain ⟨inside, hash⟩ := onChain.info _ _ continues.info
    have same : inputs.l1Origin = origin := by
      apply honest.eq_of_hash inside there
      rw [hash, ← continues.same, parent]
      rfl
    have none : block.deposits = [] := if_pos (congrArg BlockNumHash.number continues.same)
    refine ⟨inputs.l1Origin, _, inside, made, rfl, rfl, .inl ⟨same, continues.number, none⟩, ?_, ?_⟩
    · rw [none]
      exact List.forall_mem_nil _
    · rw [none]
      exact List.Pairwise.nil

/-- A block whose attributes were prepared with the deposits of `derive_deposits`, over an honest chain. -/
structure Made (chain : List BlockInfo) (contracts : DepositContracts) (prim : Primitives) (block : DerivedBlock L1P L2P) :
    Prop where
  onChain : block.OnChain chain
  hashes : block.builder.derived.prim = prim
  reads : block.builder.derived.deriveDeposits = deriveDeposits prim contracts
  prepared : ∃ attributes, (block.builder.preparePayloadAttributes block.parent block.epoch).2 = .ok attributes

variable {prim : Primitives} {blocks : List (DerivedBlock L1P L2P)}

theorem Made.placed (made : block.Made chain contracts prim) (honest : HonestChain chain) (there : origin ∈ chain)
    (parent : block.parent.l1Origin = origin.id) :
    ∃ l1Origin info, l1Origin ∈ chain ∧ block.Placed origin l1Origin info := by
  obtain ⟨onChain, rfl, reads, attributes, prepares⟩ := made
  exact placed_of_prepared honest onChain reads there parent prepares

theorem Placed.next {before l1Origin : BlockInfo} {info : AttributesDeposited} (placed : block.Placed before l1Origin info)
    {rest : List (DerivedBlock L1P L2P)} (chained : (block :: rest).IsChain Follows) {second : DerivedBlock L1P L2P}
    (head : rest.head? = some second) : second.parent.l1Origin = l1Origin.id ∧
      second.parent.seqNum = info.sequenceNumber ∧
      second.parent.blockInfo.number.toNat = block.parent.blockInfo.number.toNat + 1 := by
  obtain ⟨others, rfl⟩ := List.head?_eq_some_iff.mp head
  obtain ⟨⟨next, info', made', sameOrigin, sameNumber⟩, -⟩ := List.isChain_cons_cons.mp chained
  rw [placed.made] at made'
  cases made'
  refine ⟨?_, sameNumber, next⟩
  rw [sameOrigin, placed.number, placed.hash]
  rfl

theorem placed_later (honest : HonestChain chain) (made : ∀ block ∈ blocks, block.Made chain contracts prim)
    (chained : blocks.IsChain Follows) (there : origin ∈ chain) {seqNum : UInt64} {number : Nat}
    (starts : ∀ first, blocks.head? = some first → first.parent.l1Origin = origin.id ∧ first.parent.seqNum = seqNum ∧
      first.parent.blockInfo.number.toNat = number)
    {index : Nat} (at_ : blocks[index]? = some block) :
    ∃ before l1Origin info, l1Origin ∈ chain ∧ block.Placed before l1Origin info ∧
      block.parent.blockInfo.number.toNat = number + index ∧
      ((l1Origin = origin ∧ info.sequenceNumber = seqNum + UInt64.ofNat (index + 1) ∧ block.deposits = []) ∨
        origin.number.toNat < l1Origin.number.toNat) := by
  induction blocks generalizing origin seqNum number index with
  | nil => cases at_
  | cons first rest ih =>
      obtain ⟨parent, counted, height⟩ := starts first rfl
      obtain ⟨l1Origin, info, inside, placed⟩ := (made first List.mem_cons_self).placed honest there parent
      cases index with
      | zero =>
          cases at_
          refine ⟨origin, l1Origin, info, inside, placed, height, ?_⟩
          rcases placed.step with ⟨same, next, none⟩ | higher
          · exact .inl ⟨same, by rw [next, counted]; rfl, none⟩
          · exact .inr (by omega)
      | succ index =>
          have starts' : ∀ second, rest.head? = some second → second.parent.l1Origin = l1Origin.id ∧
              second.parent.seqNum = info.sequenceNumber ∧ second.parent.blockInfo.number.toNat = number + 1 :=
            fun second head => height ▸ placed.next chained head
          obtain ⟨before, l1Origin', info', inside', placed', height', shape⟩ :=
            ih (fun block member => made block (List.mem_cons_of_mem first member)) chained.tail inside starts' at_
          refine ⟨before, l1Origin', info', inside', placed', by omega, ?_⟩
          rcases shape with ⟨rfl, next, none⟩ | higher
          · rcases placed.step with ⟨rfl, next', -⟩ | above
            · refine .inl ⟨rfl, ?_, none⟩
              rw [next, next', counted, UInt64.add_assoc]
              congr 1
              rw [UInt64.ofNat_add (index + 1) 1, UInt64.add_comm]
              rfl
            · exact .inr (by omega)
          · rcases placed.step with ⟨rfl, -, -⟩ | above
            · exact .inr higher
            · exact .inr (by omega)

/-! ## Distinct keys -/

abbrev SourceKey := UInt32 × B256 × UInt64

def keys (block : DerivedBlock L1P L2P) : List SourceKey :=
  block.l1Info.toList.map (fun info => (l1InfoDepositSourceDomain, info.l1BlockHash, info.sequenceNumber)) ++
    block.deposits.map fun deposit => (userDepositSourceDomain, deposit.l1BlockHash, deposit.logIndex)

theorem domains_differ : userDepositSourceDomain ≠ l1InfoDepositSourceDomain := by decide

theorem sourceHashes_eq (prim : Primitives) (block : DerivedBlock L1P L2P) :
    block.sourceHashes prim = block.keys.map fun key => sourceHash prim key.1 key.2.1 key.2.2 := by
  rw [sourceHashes, keys, List.map_append, List.map_map, List.map_map]
  rfl

theorem hashed_of_key {key : SourceKey} (member : key ∈ block.keys) :
    ∀ input ∈ sourceInputs prim key.1 key.2.1 key.2.2, input ∈ block.hashed prim := by
  intro input listed
  rcases List.mem_append.mp member with fromInfo | fromDeposit
  · obtain ⟨info, inside, rfl⟩ := List.mem_map.mp fromInfo
    exact List.mem_append_left _ (List.mem_flatMap.mpr ⟨info, inside, listed⟩)
  · obtain ⟨deposit, inside, rfl⟩ := List.mem_map.mp fromDeposit
    exact List.mem_append_right _ (List.mem_flatMap.mpr ⟨deposit, inside, listed⟩)

theorem Placed.keys_eq {before l1Origin : BlockInfo} {info : AttributesDeposited}
    (placed : block.Placed before l1Origin info) :
    block.keys = (l1InfoDepositSourceDomain, l1Origin.hash, info.sequenceNumber) ::
      block.deposits.map fun deposit => (userDepositSourceDomain, l1Origin.hash, deposit.logIndex) := by
  rw [keys, placed.made, Option.toList_some, List.map_singleton, List.singleton_append, placed.hash]
  congr 1
  apply List.map_congr_left
  intro deposit member
  rw [placed.deposits deposit member]

theorem Placed.keys_nodup {before l1Origin : BlockInfo} {info : AttributesDeposited}
    (placed : block.Placed before l1Origin info) : block.keys.Nodup := by
  rw [placed.keys_eq, List.nodup_cons]
  constructor
  · intro member
    obtain ⟨deposit, -, same⟩ := List.mem_map.mp member
    exact domains_differ (congrArg Prod.fst same)
  · have indices : (block.deposits.map (·.logIndex)).Nodup := placed.indices.imp fun lower => UInt64.ne_of_lt lower
    have mapped := indices.map (f := fun index => ((userDepositSourceDomain, l1Origin.hash, index) : SourceKey))
      fun index index' same => by simpa using same
    rw [List.map_map] at mapped
    exact mapped

theorem Placed.keys_disjoint (honest : HonestChain chain) {first : DerivedBlock L1P L2P}
    {before before' l1Origin l1Origin' : BlockInfo} {info info' : AttributesDeposited}
    (placed : first.Placed before l1Origin info) (here : l1Origin ∈ chain)
    (placed' : block.Placed before' l1Origin' info') (there : l1Origin' ∈ chain) {steps : Nat} (few : steps + 1 < 2 ^ 64)
    (later : (l1Origin' = l1Origin ∧ info'.sequenceNumber = info.sequenceNumber + UInt64.ofNat (steps + 1) ∧
        block.deposits = []) ∨ l1Origin.number.toNat < l1Origin'.number.toNat) :
    first.keys.Disjoint block.keys := by
  have apart (sameHash : l1Origin.hash = l1Origin'.hash) :
      info'.sequenceNumber = info.sequenceNumber + UInt64.ofNat (steps + 1) ∧ block.deposits = [] := by
    have same := honest.eq_of_hash here there sameHash
    rcases later with ⟨-, counted, none⟩ | higher
    · exact ⟨counted, none⟩
    · rw [same] at higher
      exact absurd higher (Nat.lt_irrefl _)
  rw [placed.keys_eq, placed'.keys_eq]
  intro key member member'
  rcases List.mem_cons.mp member with rfl | fromDeposit
  · rcases List.mem_cons.mp member' with same | deposit
    · obtain ⟨-, sameHash, sameNumber⟩ := by simpa only [Prod.mk.injEq] using same
      have counted := congrArg UInt64.toNat (sameNumber.trans (apart sameHash).1)
      rw [UInt64.toNat_add, UInt64.toNat_ofNat', Nat.mod_eq_of_lt few] at counted
      have bound := info.sequenceNumber.toNat_lt
      omega
    · obtain ⟨deposit, -, same⟩ := List.mem_map.mp deposit
      exact absurd (congrArg Prod.fst same) domains_differ
  · obtain ⟨deposit, -, rfl⟩ := List.mem_map.mp fromDeposit
    rcases List.mem_cons.mp member' with same | deposit'
    · exact absurd (congrArg Prod.fst same) domains_differ
    · obtain ⟨deposit', inside, same⟩ := List.mem_map.mp deposit'
      obtain ⟨-, sameHash, -⟩ := by simpa only [Prod.mk.injEq] using same
      rw [(apart sameHash.symm).2] at inside
      cases inside

theorem keys_distinct (honest : HonestChain chain) (made : ∀ block ∈ blocks, block.Made chain contracts prim)
    (chained : blocks.IsChain Follows)
    (starts : ∀ first, blocks.head? = some first → ∃ origin ∈ chain, first.parent.l1Origin = origin.id) :
    (blocks.flatMap keys).Nodup := by
  induction blocks with
  | nil => exact List.nodup_nil
  | cons first rest ih =>
      obtain ⟨origin, there, parent⟩ := starts first rfl
      obtain ⟨l1Origin, info, inside, placed⟩ := (made first List.mem_cons_self).placed honest there parent
      have made' : ∀ block ∈ rest, block.Made chain contracts prim :=
        fun block member => made block (List.mem_cons_of_mem first member)
      have starts' : ∀ second, rest.head? = some second → second.parent.l1Origin = l1Origin.id ∧
          second.parent.seqNum = info.sequenceNumber ∧
          second.parent.blockInfo.number.toNat = first.parent.blockInfo.number.toNat + 1 :=
        fun second head => placed.next chained head
      rw [List.flatMap_cons, List.nodup_append']
      refine ⟨placed.keys_nodup, ih made' chained.tail ?_, ?_⟩
      · intro second head
        exact ⟨l1Origin, inside, (starts' second head).1⟩
      · intro key member member'
        obtain ⟨block, listed, member'⟩ := List.mem_flatMap.mp member'
        obtain ⟨index, at_⟩ := List.mem_iff_getElem?.mp listed
        obtain ⟨before, l1Origin', info', inside', placed', height, later⟩ :=
          placed_later honest made' chained.tail inside starts' at_
        have bound := block.parent.blockInfo.number.toNat_lt
        exact placed.keys_disjoint honest inside placed' inside' (by omega) later member member'

theorem transactions_eq {block : DerivedBlock L1P L2P} {attributes : PayloadAttributes}
    (prepares : (block.builder.preparePayloadAttributes block.parent block.epoch).2 = .ok attributes) :
    ∃ info tx l1InfoTx depositTxs, block.l1Info = some info ∧
      info.toSanitizedTransaction block.builder.derived.solana block.builder.derived.prim = .ok tx ∧
      block.builder.derived.sanitizedDerivedTxToBytes tx = .ok l1InfoTx ∧
      block.deposits.mapM block.builder.derived.encodedDepositTx = .ok depositTxs ∧
      attributes.transactions = some (l1InfoTx :: depositTxs) := by
  obtain ⟨inputs, l1InfoTx, prepared, encodes, transactions⟩ := StatefulAttributesBuilder.preparePayloadAttributes_ok
    (Prod.ext rfl prepares : block.builder.preparePayloadAttributes block.parent block.epoch = (_, .ok attributes))
  have ok : (block.builder.epochInputs block.parent block.epoch).2 = .ok inputs := by rw [prepared]
  have listed : block.deposits.mapM block.builder.derived.encodedDepositTx = .ok inputs.depositTransactions := by
    rcases StatefulAttributesBuilder.epochInputs_ok ok with ⟨receipts, starts⟩ | continues
    · have derives := starts.deposits
      simp only [DerivedTransactions.deriveSanitizedDepositTx, bind_eq_ok, Outcome.unwrap_eq_ok] at derives
      obtain ⟨deposits, derives, encoded⟩ := derives
      rw [DerivedBlock.deposits, if_neg starts.differs, starts.fetched]
      simp only [derives, Option.getD_some]
      exact encoded
    · rw [DerivedBlock.deposits, if_pos (congrArg BlockNumHash.number continues.same), continues.deposits]
      rfl
  unfold DerivedTransactions.encodedL1InfoTx at encodes
  split at encodes
  · cases encodes
  · rename_i tx creates
    split at encodes
    · cases encodes
    · rename_i serializes
      cases encodes
      obtain ⟨info, tried, creates⟩ := bind_eq_ok.mp creates
      refine ⟨info, tx, l1InfoTx, inputs.depositTransactions, ?_, creates, serializes, listed, transactions⟩
      rw [l1Info, ok]
      simp only [tried]
      rfl

/-- Along every chain of derived blocks over an honest L1 chain, no source hash of an L1 info transaction or of
a user deposit comes twice, and the deposits of one L1 block have different log indices. -/
theorem sourceHashes_distinct (honest : HonestChain chain) (made : ∀ block ∈ blocks, block.Made chain contracts prim)
    (chained : blocks.IsChain Follows)
    (starts : ∀ first, blocks.head? = some first → ∃ origin ∈ chain, first.parent.l1Origin = origin.id)
    (collisionFree : Set.InjOn prim.keccak256 { input | input ∈ blocks.flatMap (hashed prim) }) :
    (blocks.flatMap (sourceHashes prim)).Nodup ∧
      (∀ receipts deposits number hash, (countedLogs receipts).length ≤ 2 ^ 64 →
        deriveDeposits prim contracts number hash receipts = some deposits → (deposits.map (·.logIndex)).Nodup) ∧
      ∀ block ∈ blocks, ∀ attributes, (block.builder.preparePayloadAttributes block.parent block.epoch).2 = .ok attributes →
        ∃ info tx l1InfoTx depositTxs, block.l1Info = some info ∧
          info.toSanitizedTransaction block.builder.derived.solana prim = .ok tx ∧
          block.builder.derived.sanitizedDerivedTxToBytes tx = .ok l1InfoTx ∧
          block.deposits.mapM block.builder.derived.encodedDepositTx = .ok depositTxs ∧
          attributes.transactions = some (l1InfoTx :: depositTxs) := by
  refine ⟨?_, ?_, ?_⟩
  · have keyed : blocks.flatMap (sourceHashes prim) =
        (blocks.flatMap keys).map fun key => sourceHash prim key.1 key.2.1 key.2.2 := by
      rw [List.map_flatMap]
      congr 1
      funext block
      exact sourceHashes_eq prim block
    have covered : ∀ key ∈ blocks.flatMap keys, ∀ input ∈ sourceInputs prim key.1 key.2.1 key.2.2,
        input ∈ blocks.flatMap (hashed prim) := by
      intro key member input listed
      obtain ⟨block, inside, member⟩ := List.mem_flatMap.mp member
      exact List.mem_flatMap.mpr ⟨block, inside, hashed_of_key member input listed⟩
    rw [keyed]
    refine List.Nodup.map_on ?_ (keys_distinct honest made chained starts)
    intro key member key' member' same
    obtain ⟨domain, hash, index⟩ := sourceHash_inj collisionFree (covered key member) (covered key' member') same
    exact Prod.ext domain (Prod.ext hash index)
  · intro receipts deposits number hash few derives
    exact (deriveDeposits_places few derives).2.imp fun lower => UInt64.ne_of_lt lower
  · intro block member attributes prepares
    have hashes := (made block member).hashes
    have transactions := transactions_eq prepares
    rw [hashes] at transactions
    exact transactions

end DerivedBlock

/-! ## Two blocks and a deposit -/

theorem exists_of_isOk {ε α : Type} {result : Except ε α} (ok : result.isOk = true) : ∃ a, result = .ok a := by
  cases result with
  | error e => cases ok
  | ok a => exact ⟨a, rfl⟩

structure Archive where
  blocks : List (BlockInfo × List Receipt)

namespace Archive

def find (archive : Archive) (hash : B256) : Except String (BlockInfo × List Receipt) :=
  match archive.blocks.find? (·.1.hash = hash) with
  | some entry => .ok entry
  | none => .error "block not found"

instance : ChainProvider Archive Receipt where
  blockInfoByHash archive hash := (archive, (archive.find hash).map (·.1))
  receiptsByHash archive hash := (archive, (archive.find hash).map (·.2))

theorem map_eq_ok {α β : Type} {f : α → β} {result : Except String α} {b : β} (maps : result.map f = .ok b) :
    ∃ a, result = .ok a ∧ f a = b := by
  cases result with
  | error text => cases maps
  | ok a => exact ⟨a, rfl, Except.ok.inj maps⟩

theorem find_eq_ok {archive : Archive} {hash : B256} {entry : BlockInfo × List Receipt}
    (finds : archive.find hash = .ok entry) : entry ∈ archive.blocks ∧ entry.1.hash = hash := by
  unfold find at finds
  split at finds
  · rename_i found
    cases finds
    exact ⟨List.mem_of_find?_eq_some found, by simpa using List.find?_some found⟩
  · cases finds

theorem onChain {archive : Archive} (few : ∀ entry ∈ archive.blocks, (countedLogs entry.2).length ≤ 2 ^ 64)
    {L2P : Type} {block : DerivedBlock Archive L2P} (fetches : block.builder.receiptsFetcher = archive) :
    block.OnChain (archive.blocks.map (·.1)) where
  info hash info reads := by
    rw [fetches] at reads
    obtain ⟨entry, finds, rfl⟩ := map_eq_ok reads
    obtain ⟨member, same⟩ := find_eq_ok finds
    exact ⟨List.mem_map_of_mem member, same⟩
  logs hash receipts reads := by
    rw [fetches] at reads
    obtain ⟨entry, finds, rfl⟩ := map_eq_ok reads
    exact few entry (find_eq_ok finds).1

end Archive

namespace Pipeline

def nextL1Block : BlockInfo := ⟨.ofNat 0x12, 11, l1Block.hash, 112⟩

def depositLog : Log where
  address := contracts.optimismPortalAddress
  topics := [.ofNat 0xe6a61c8a27c2ace3a2c5c1be0459b0169e6f228db83930f82d7c877043c946b7,
    .ofNat 0x1313020202020202020202020202020202021313, soonBridgePubkey]
  data := List.replicate 64 0 ++ (bigEndian 32 (10 ^ 18)).1 ++ (bigEndian 32 (10 ^ 18)).1 ++ List.replicate 8 0 ++ [0] ++
    crossDomainMessengerRelaySelector ++ List.replicate 44 0 ++ contracts.l1StandardBridge.1 ++ soonBridgePubkey.1 ++
    List.replicate 128 0 ++ ethDepositSelector ++ List.replicate 12 0 ++ List.replicate 20 5 ++ user.1 ++
    (bigEndian 32 (10 ^ 18)).1 ++ List.replicate 32 0

def archive : Archive where
  blocks := [(l1Block, []), (nextL1Block, [⟨.eip658 false, [depositLog]⟩,
    ⟨.eip658 true, [⟨contracts.l1StandardBridge, [], []⟩, depositLog]⟩])]

def hashes : Primitives :=
  let first : B256 := .ofNat 0xc8d233a0ebef7c9a17d2b0b17eea62cca39002a128ccf419119b4a1a1f1e7428
  let second : B256 := .ofNat 0x1cb7ce0668e72b96f704af9e1445a9dc6f6ac599eec355bfcfe4d3befbb001be
  let deposit : B256 := .ofNat 0x40165e7164257b249280bf839a50283d248062ed7b0e6d8820cb6c506bfcf7d3
  .tabulated [(soonDepositEventAbi, .ofNat 0xe6a61c8a27c2ace3a2c5c1be0459b0169e6f228db83930f82d7c877043c946b7),
    (depositIdInput l1Block.hash 1, first), (domainInput 1 first, infoHash),
    (depositIdInput nextL1Block.hash 0, second),
    (domainInput 1 second, .ofNat 0xe3b4160c2d5882c66c5a78397e3ad7dc72835c09d215c7f90a66822e9b463858),
    (depositIdInput nextL1Block.hash 1, deposit),
    (domainInput 0 deposit, .ofNat 0xde5334dc1a4d8a9bbc60004c8338448660ee05fe05e408f5357d0eba239cd295)]

def archiveDerived : DerivedTransactions Receipt where
  prim := hashes
  solana := ⟨findProgramAddress, compileMessage, fun _ => .ok ()⟩
  deriveDeposits := deriveDeposits hashes contracts
  updateWithReceipts config _ := .ok config
  bincodeSerialize tx := .ok (encodeL2Transaction tx)

def archiveBuilder : StatefulAttributesBuilder Archive Chains Receipt := ⟨cfg, archiveDerived, chains, archive⟩

def twoBlocks : List (DerivedBlock Archive Chains) :=
  [⟨archiveBuilder, safeHead, l1Block.id⟩,
    ⟨archiveBuilder, ⟨⟨.ofNat 0x22, 6, .ofNat 0x21, 102⟩, l1Block.id, 1⟩, nextL1Block.id⟩]

theorem sourceHashes_distinct_two_blocks :
    (twoBlocks.flatMap fun block => block.deposits.map (·.logIndex)) = [1] ∧
    (twoBlocks.flatMap (DerivedBlock.sourceHashes hashes)).Nodup := by
  have honest : HonestChain [l1Block, nextL1Block] :=
    ⟨.cons_cons ⟨by decide, rfl⟩ (.singleton _), by decide +kernel, by decide +kernel⟩
  have few : ∀ entry ∈ archive.blocks, (countedLogs entry.2).length ≤ 2 ^ 64 := by decide +kernel
  have prepares : ∀ block ∈ twoBlocks,
      (block.builder.preparePayloadAttributes block.parent block.epoch).2.isOk = true := by decide +kernel
  have made : ∀ block ∈ twoBlocks, block.Made [l1Block, nextL1Block] contracts hashes := by
    intro block member
    have prepared := exists_of_isOk (prepares block member)
    rcases List.mem_cons.mp member with rfl | member
    · exact ⟨Archive.onChain few rfl, rfl, rfl, prepared⟩
    · cases List.mem_singleton.mp member
      exact ⟨Archive.onChain few rfl, rfl, rfl, prepared⟩
  have info : (twoBlocks.map DerivedBlock.l1Info)[0]? = some (some ⟨10, 100, 0, l1Block.hash, 1,
      addressToHash chains.config.batcherAddress, 0, 0, 0, true⟩) := by decide +kernel
  have chained : twoBlocks.IsChain DerivedBlock.Follows :=
    .cons_cons ⟨by decide, _, by simpa [twoBlocks] using info, rfl, rfl⟩ (.singleton _)
  have collisionFree : ∀ input ∈ twoBlocks.flatMap (DerivedBlock.hashed hashes),
      ∀ input' ∈ twoBlocks.flatMap (DerivedBlock.hashed hashes),
      hashes.keccak256 input = hashes.keccak256 input' → input = input' := by decide +kernel
  refine ⟨by decide +kernel, (DerivedBlock.sourceHashes_distinct honest made chained ?_ ?_).1⟩
  · intro first head
    cases head
    exact ⟨l1Block, List.mem_cons_self, rfl⟩
  · intro input member input' member' same
    exact collisionFree input member input' member' same

end Pipeline

end KonaSoon.Derive
