import KonaSoon.Lib.KeyOrder
import KonaSoon.Mpt.Commitment

/-!
# Ordered tries of lists

`ordered_trie_with_encoder` (`mpt/src/util.rs`) gives the leaves of a list to a third-party builder in the order
of their keys, which are the RLP encodings of the positions. `trieOf` is the trie a Merkle Patricia builder makes
of such leaves.
-/

namespace KonaSoon.Mpt
open Lib

/-! ## Building an ordered trie -/

/-- A slice; its length is a `usize`. -/
abbrev Slice (T : Type) := {items : List T // items.length < 2 ^ 64}

/-- What the third-party builder has been given: the paths whose nodes it is to keep, and the leaves in the order
in which they were added. -/
structure HashBuilder where
  proofRetainer : List Nibbles
  leaves : List (Nibbles × Bytes)

def HashBuilder.addLeaf (hb : HashBuilder) (key : Nibbles) (value : Bytes) : HashBuilder :=
  { hb with leaves := hb.leaves ++ [(key, value)] }

def adjustIndexForRlp (i len : Nat) : Nat :=
  if 0x7f < i then i else if i = 0x7f ∨ i + 1 = len then 0 else i + 1

def indexNibbles (index : Nat) : Nibbles := Nibbles.unpack (Rlp.encodeIndex index)

/-- One turn of the loop of `ordered_trie_with_encoder`. There is no result where the source indexes out of
range. -/
def addItem {T : Type} (items : Slice T) (encode : T → Bytes) (hb : HashBuilder) (i : Nat) : Option HashBuilder :=
  let index := adjustIndexForRlp i items.1.length
  items.1[index]?.map fun item => hb.addLeaf (indexNibbles index) (encode item)

def orderedTrieWithEncoder {T : Type} (items : Slice T) (encode : T → Bytes) : Option HashBuilder :=
  let itemsLen := items.1.length
  let pathNibbles := (List.range itemsLen).map fun i => indexNibbles (adjustIndexForRlp i itemsLen)
  (List.range itemsLen).foldlM (addItem items encode) ⟨pathNibbles, []⟩

theorem adjustIndexForRlp_lt {i len : Nat} (inside : i < len) : adjustIndexForRlp i len < len := by
  unfold adjustIndexForRlp
  split
  · exact inside
  · split <;> omega

theorem below_adjusted {i j len : Nat} (less : i < j) (inside : j < len) (bound : len < 2 ^ 64) :
    Below (Rlp.encodeIndex (adjustIndexForRlp i len)) (Rlp.encodeIndex (adjustIndexForRlp j len)) := by
  rcases Nat.lt_or_ge 0x7f j with large | small
  · have last : adjustIndexForRlp j len = j := if_pos large
    rw [last]
    rcases Nat.lt_or_ge 0x7f i with both | first
    · rw [adjustIndexForRlp, if_pos both]
      exact Rlp.below_encodeIndex_large (by omega) less (by omega)
    · refine Rlp.below_encodeIndex_small_large ?_ (by omega) (by omega)
      unfold adjustIndexForRlp
      split
      · omega
      · split <;> omega
  · have first : adjustIndexForRlp i len = i + 1 := by
      rw [adjustIndexForRlp, if_neg (by omega), if_neg (by omega)]
    rw [first, adjustIndexForRlp, if_neg (by omega)]
    split
    · exact Rlp.below_encodeIndex_zero (by omega) (by omega)
    · exact Rlp.below_encodeIndex_small (by omega) (by omega) (by omega)

theorem byte_irrefl (x : UInt8) : ¬ x < x := by
  rw [UInt8.lt_iff_toNat_lt]
  exact Nat.lt_irrefl _

theorem unpack_append (xs ys : List UInt8) : Nibbles.unpack (xs ++ ys) = Nibbles.unpack xs ++ Nibbles.unpack ys := by
  simp [Nibbles.unpack]

theorem below_unpack {xs ys : List UInt8} (below : Below xs ys) : Below (Nibbles.unpack xs) (Nibbles.unpack ys) := by
  obtain ⟨front, x, y, xs', ys', rfl, rfl, less⟩ := below
  rw [unpack_append, unpack_append, below_append_left byte_irrefl]
  have boundX := x.toNat_lt
  have boundY := y.toNat_lt
  rw [UInt8.lt_iff_toNat_lt] at less
  simp only [Nibbles.unpack, List.flatMap_cons, List.cons_append, List.nil_append, below_cons_cons,
    UInt8.lt_iff_toNat_lt, ← UInt8.toNat_inj, UInt8.toNat_ofNat']
  rcases Nat.lt_or_ge (x.toNat / 16) (y.toNat / 16) with high | same
  · left
    omega
  · right
    refine ⟨by omega, .inl ?_⟩
    omega

def indices (len : Nat) : List Nat := (List.range len).map (adjustIndexForRlp · len)

def listLeaves {T : Type} (items : Slice T) (encode : T → Bytes) : List (Nibbles × Bytes) :=
  (indices items.1.length).filterMap fun index => items.1[index]?.map fun item => (indexNibbles index, encode item)

section Builder

variable {T : Type} (items : Slice T) (encode : T → Bytes)

theorem addItems_ok (order : List Nat) (known : ∀ i ∈ order, adjustIndexForRlp i items.1.length < items.1.length)
    (hb : HashBuilder) : order.foldlM (addItem items encode) hb =
      some { hb with leaves := hb.leaves ++ (order.map (adjustIndexForRlp · items.1.length)).filterMap fun index =>
        items.1[index]?.map fun item => (indexNibbles index, encode item) } := by
  induction order generalizing hb with
  | nil => simp
  | cons i order ih =>
      obtain ⟨item, found⟩ : ∃ item, items.1[adjustIndexForRlp i items.1.length]? = some item :=
        ⟨_, List.getElem?_eq_getElem (known i (by simp))⟩
      have added : addItem items encode hb i =
          some (hb.addLeaf (indexNibbles (adjustIndexForRlp i items.1.length)) (encode item)) := by
        rw [addItem, found]
        rfl
      rw [List.foldlM_cons, added, Option.bind_eq_bind, Option.bind_some, ih fun j member => known j (by simp [member])]
      simp [HashBuilder.addLeaf, found]

theorem orderedTrieWithEncoder_ok : ∃ hb, orderedTrieWithEncoder items encode = some hb ∧
    hb.leaves = listLeaves items encode := by
  refine ⟨_, addItems_ok items encode (List.range items.1.length) ?_ _, ?_⟩
  · intro i member
    exact adjustIndexForRlp_lt (List.mem_range.mp member)
  · simp [listLeaves, indices]

/-- Leaves in strictly increasing order of their keys, none of which is a prefix of another, with values. -/
structure Ascending (leaves : List (Nibbles × Bytes)) : Prop where
  increasing : leaves.Pairwise fun left right => left.1 < right.1 ∧ ¬ left.1 <+: right.1
  valid : ∀ leaf ∈ leaves, leaf.1.Valid
  values : ∀ leaf ∈ leaves, leaf.2.1 ≠ []

theorem mem_listLeaves {leaf : Nibbles × Bytes} (member : leaf ∈ listLeaves items encode) :
    ∃ index < items.1.length, ∃ item ∈ items.1, leaf = (indexNibbles index, encode item) := by
  obtain ⟨index, -, made⟩ := List.mem_filterMap.mp member
  obtain ⟨item, found, rfl⟩ := Option.map_eq_some_iff.mp made
  obtain ⟨inside, rfl⟩ := List.getElem?_eq_some_iff.mp found
  exact ⟨index, inside, _, List.getElem_mem inside, rfl⟩

theorem listLeaves_ascending (sized : ∀ item ∈ items.1, (encode item).1 ≠ []) :
    Ascending (listLeaves items encode) where
  increasing := by
    have order : (indices items.1.length).Pairwise fun left right =>
        Below (Rlp.encodeIndex left) (Rlp.encodeIndex right) := by
      rw [indices, List.pairwise_map]
      refine (List.pairwise_lt_range (n := items.1.length)).imp_of_mem ?_
      intro i j _ there less
      exact below_adjusted less (List.mem_range.mp there) items.2
    rw [listLeaves, List.pairwise_filterMap]
    refine order.imp ?_
    intro left right below leaf made leaf' made'
    obtain ⟨item, -, rfl⟩ := Option.map_eq_some_iff.mp made
    obtain ⟨item', -, rfl⟩ := Option.map_eq_some_iff.mp made'
    exact (below_iff_lt byte_irrefl).mp (below_unpack below)
  valid leaf member := by
    obtain ⟨index, -, item, -, rfl⟩ := mem_listLeaves items encode member
    exact Nibbles.unpack_valid _
  values leaf member := by
    obtain ⟨index, -, item, inside, rfl⟩ := mem_listLeaves items encode member
    exact sized item inside

theorem listLeaves_length_le {leaf : Nibbles × Bytes} (member : leaf ∈ listLeaves items encode) :
    leaf.1.length ≤ 18 := by
  obtain ⟨index, inside, item, -, rfl⟩ := mem_listLeaves items encode member
  have size := Rlp.encodeIndex_length_le (lt_trans inside items.2)
  simp only [indexNibbles, Nibbles.unpack_length]
  omega

end Builder

/-! ## The order of the leaves -/

theorem range'_getElem? {α : Type} (xs : List α) (start count : Nat) :
    (List.range' start count).filterMap (fun i => xs[i]?) = (xs.drop start).take count := by
  induction count generalizing start with
  | zero => simp
  | succ count ih =>
      rw [List.range'_succ, List.filterMap_cons, ih]
      rcases Nat.lt_or_ge start xs.length with inside | outside
      · rw [List.getElem?_eq_getElem inside, List.drop_eq_getElem_cons inside, List.take_succ_cons]
      · rw [List.getElem?_eq_none outside, List.drop_of_length_le outside,
          List.drop_of_length_le (Nat.le_succ_of_le outside)]
        simp

theorem indices_short {len : Nat} (positive : 0 < len) (short : len ≤ 0x80) :
    indices len = List.range' 1 (len - 1) ++ [0] := by
  obtain ⟨len, rfl⟩ : ∃ k, len = k + 1 := ⟨len - 1, by omega⟩
  have last : adjustIndexForRlp len (len + 1) = 0 := by
    rw [adjustIndexForRlp, if_neg (by omega), if_pos (.inr rfl)]
  rw [indices, List.range_succ, List.map_append, List.map_singleton, last, Nat.add_sub_cancel, List.range'_eq_map_range]
  congr 1
  apply List.map_congr_left
  intro i member
  have := List.mem_range.mp member
  rw [adjustIndexForRlp, if_neg (by omega), if_neg (by omega), Nat.add_comm]

theorem range_split (count more : Nat) :
    List.range (count + (1 + more)) = List.range count ++ count :: List.range' (count + 1) more := by
  rw [List.range_eq_range', List.range_eq_range', ← List.range'_append_1, Nat.add_comm 1 more, List.range'_succ]
  simp

theorem indices_long {len : Nat} (long : 0x80 < len) :
    indices len = List.range' 1 0x7f ++ 0 :: List.range' 0x80 (len - 0x80) := by
  have size : len = 0x7f + (1 + (len - 0x80)) := by omega
  have middle : adjustIndexForRlp 0x7f len = 0 := by rw [adjustIndexForRlp, if_neg (by omega), if_pos (.inl rfl)]
  have first : (List.range 0x7f).map (adjustIndexForRlp · len) = List.range' 1 0x7f := by
    rw [List.range'_eq_map_range]
    apply List.map_congr_left
    intro i member
    have := List.mem_range.mp member
    rw [adjustIndexForRlp, if_neg (by omega), if_neg (by omega), Nat.add_comm]
  have last : (List.range' 0x80 (len - 0x80)).map (adjustIndexForRlp · len) = List.range' 0x80 (len - 0x80) := by
    refine (List.map_congr_left ?_).trans (List.map_id _)
    intro i member
    have := (List.mem_range'_1.mp member).1
    exact if_pos (by omega)
  have parts : List.range len = List.range 0x7f ++ 0x7f :: List.range' 0x80 (len - 0x80) := by
    conv_lhs => rw [size]
    exact range_split _ _
  rw [indices, parts, List.map_append, List.map_cons, middle, first, last]

theorem listLeaves_values {T : Type} (items : Slice T) (encode : T → Bytes) :
    (listLeaves items encode).map Prod.snd = (indices items.1.length).filterMap fun i => (items.1.map encode)[i]? := by
  rw [listLeaves, List.map_filterMap]
  congr 1
  funext i
  rw [List.getElem?_map]
  cases items.1[i]? <;> rfl

theorem below_irrefl {xs : List UInt8} : ¬ Below xs xs := fun below => ((below_iff_lt byte_irrefl).mp below).2 List.prefix_rfl

theorem adjustIndexForRlp_injOn {len : Nat} (bound : len < 2 ^ 64) :
    Set.InjOn (adjustIndexForRlp · len) (Set.Iio len) := by
  intro i insideI j insideJ same
  have same : adjustIndexForRlp i len = adjustIndexForRlp j len := same
  rcases Nat.lt_trichotomy i j with less | equal | more
  · have below := below_adjusted less insideJ bound
    rw [same] at below
    exact absurd below below_irrefl
  · exact equal
  · have below := below_adjusted more insideI bound
    rw [same] at below
    exact absurd below below_irrefl

theorem adjustIndexForRlp_surjOn (len : Nat) :
    Set.SurjOn (adjustIndexForRlp · len) (Set.Iio len) (Set.Iio len) := by
  intro index inside
  have inside : index < len := inside
  show ∃ i, i < len ∧ adjustIndexForRlp i len = index
  rcases Nat.lt_or_ge 0x7f index with large | small
  · exact ⟨index, inside, if_pos large⟩
  · cases index with
    | zero =>
        -- The last position of a short list, and position 127 of a long one.
        refine ⟨min 0x7f (len - 1), by omega, ?_⟩
        rw [adjustIndexForRlp, if_neg (by omega), if_pos (by omega)]
    | succ before =>
        refine ⟨before, by omega, ?_⟩
        rw [adjustIndexForRlp, if_neg (by omega), if_neg (by omega)]

theorem below_apart {xs ys : List UInt8} (below : Below xs ys) : xs < ys ∧ ¬ xs <+: ys ∧ ¬ ys <+: xs := by
  obtain ⟨less, apart⟩ := (below_iff_lt byte_irrefl).mp below
  refine ⟨less, apart, ?_⟩
  obtain ⟨front, x, y, xs', ys', rfl, rfl, smaller⟩ := below
  rw [List.prefix_append_right_inj, List.cons_prefix_cons]
  rintro ⟨rfl, -⟩
  exact byte_irrefl y smaller

theorem listLeaves_keys {T : Type} (items : Slice T) (encode : T → Bytes) :
    (listLeaves items encode).map Prod.fst = (indices items.1.length).map indexNibbles := by
  have known : ∀ index ∈ indices items.1.length, index < items.1.length := by
    intro index member
    obtain ⟨i, inside, rfl⟩ := List.mem_map.mp member
    exact adjustIndexForRlp_lt (List.mem_range.mp inside)
  unfold listLeaves
  generalize indices items.1.length = order at known
  induction order with
  | nil => rfl
  | cons index order ih =>
      have here := List.getElem?_eq_getElem (known index List.mem_cons_self)
      rw [List.filterMap_cons, here, Option.map_some, List.map_cons, List.map_cons,
        ih fun later member => known later (List.mem_cons_of_mem _ member)]

/-- The adjusted indices are those of the list, in the order of their keys, and the leaves are added in this order. -/
theorem adjustIndexForRlp_orders {T : Type} (items : Slice T) (encode : T → Bytes) :
    Set.BijOn (adjustIndexForRlp · items.1.length) (Set.Iio items.1.length) (Set.Iio items.1.length) ∧
    (∀ i j, i < j → j < items.1.length →
      Rlp.encodeIndex (adjustIndexForRlp i items.1.length) < Rlp.encodeIndex (adjustIndexForRlp j items.1.length) ∧
      ¬ Rlp.encodeIndex (adjustIndexForRlp i items.1.length) <+: Rlp.encodeIndex (adjustIndexForRlp j items.1.length) ∧
      ¬ Rlp.encodeIndex (adjustIndexForRlp j items.1.length) <+: Rlp.encodeIndex (adjustIndexForRlp i items.1.length)) ∧
    ∃ hb, orderedTrieWithEncoder items encode = some hb ∧
      hb.leaves.map Prod.fst = (List.range items.1.length).map (fun i => indexNibbles (adjustIndexForRlp i items.1.length)) ∧
      (hb.leaves.map Prod.fst).Pairwise fun left right => left < right ∧ ¬ left <+: right ∧ ¬ right <+: left := by
  have below : ∀ i j, i < j → j < items.1.length →
      Below (Rlp.encodeIndex (adjustIndexForRlp i items.1.length)) (Rlp.encodeIndex (adjustIndexForRlp j items.1.length)) :=
    fun i j less inside => below_adjusted less inside items.2
  refine ⟨⟨?_, adjustIndexForRlp_injOn items.2, adjustIndexForRlp_surjOn _⟩, ?_, ?_⟩
  · intro i inside
    exact adjustIndexForRlp_lt inside
  · intro i j less inside
    exact below_apart (below i j less inside)
  · obtain ⟨hb, built, leaves⟩ := orderedTrieWithEncoder_ok items encode
    have keys : hb.leaves.map Prod.fst =
        (List.range items.1.length).map fun i => indexNibbles (adjustIndexForRlp i items.1.length) := by
      rw [leaves, listLeaves_keys, indices, List.map_map]
      rfl
    refine ⟨hb, built, keys, ?_⟩
    rw [keys, List.pairwise_map]
    refine List.pairwise_lt_range.imp_of_mem ?_
    intro i j _ inside less
    exact below_apart (below_unpack (below i j less (List.mem_range.mp inside)))

/-! ## The trie of a list of leaves -/

def commonPrefix : List (Nibbles × Bytes) → Nibbles
  | [] => []
  | leaf :: leaves => leaves.foldl (fun pfx leaf => pfx.take (commonPrefixLength pfx leaf.1)) leaf.1

def strip (count : Nat) (leaves : List (Nibbles × Bytes)) : List (Nibbles × Bytes) :=
  leaves.map fun leaf => (leaf.1.drop count, leaf.2)

def underSlot (n : Nat) (leaves : List (Nibbles × Bytes)) : List (Nibbles × Bytes) :=
  strip 1 (leaves.filter fun leaf => (leaf.1.headD 0).toNat = n)

def merklePatricia : Nat → List (Nibbles × Bytes) → TrieNode
  | _, [] => .empty
  | _, [leaf] => .leaf leaf.1 leaf.2
  | 0, _ :: _ :: _ => .empty
  | depth + 1, first :: second :: rest =>
      let leaves := first :: second :: rest
      let pfx := commonPrefix leaves
      let branch := TrieNode.branch
        ((List.range 16).map (fun n => merklePatricia depth (underSlot n (strip pfx.length leaves))) ++ [.empty])
      if pfx = [] then branch else .extension pfx branch

def longestKey (leaves : List (Nibbles × Bytes)) : Nat := (leaves.map fun leaf => leaf.1.length).foldr max 0

def trieOf (leaves : List (Nibbles × Bytes)) : TrieNode := merklePatricia (longestKey leaves) leaves

namespace TrieNode

mutual

def leafNodes : TrieNode → List (Nibbles × Bytes)
  | .leaf pfx value => [(pfx, value)]
  | .extension _ node => leafNodes node
  | .branch stack => leafNodesOf stack
  | .empty => []
  | .blinded _ => []

def leafNodesOf : List TrieNode → List (Nibbles × Bytes)
  | [] => []
  | node :: stack => leafNodes node ++ leafNodesOf stack

end

theorem leafNodesOf_eq (stack : List TrieNode) : leafNodesOf stack = stack.flatMap leafNodes := by
  induction stack with
  | nil => rfl
  | cons node stack ih => simp [leafNodesOf, ih]

inductive Unblinded : TrieNode → Prop where
  | empty : Unblinded .empty
  | leaf (pfx : Nibbles) (value : Bytes) : Unblinded (.leaf pfx value)
  | extension (pfx : Nibbles) {node : TrieNode} (child : Unblinded node) : Unblinded (.extension pfx node)
  | branch {stack : List TrieNode} (children : ∀ node ∈ stack, Unblinded node) : Unblinded (.branch stack)

theorem Unblinded.not_blinded {node : TrieNode} (unblinded : Unblinded node) : ¬ IsBlinded node := by
  rintro ⟨commitment, rfl⟩
  cases unblinded

end TrieNode

section Spec

variable {leaves : List (Nibbles × Bytes)}

def Diverging (leaves : List (Nibbles × Bytes)) : Prop := leaves.Pairwise fun left right => Below left.1 right.1

theorem Ascending.diverging (ascending : Ascending leaves) : Diverging leaves :=
  ascending.increasing.imp (below_iff_lt byte_irrefl).mpr

theorem foldl_prefix (pfx : Nibbles) (leaves : List (Nibbles × Bytes)) :
    leaves.foldl (fun pfx leaf => pfx.take (commonPrefixLength pfx leaf.1)) pfx <+: pfx ∧
      ∀ leaf ∈ leaves, leaves.foldl (fun pfx leaf => pfx.take (commonPrefixLength pfx leaf.1)) pfx <+: leaf.1 := by
  induction leaves generalizing pfx with
  | nil => exact ⟨List.prefix_refl _, List.forall_mem_nil _⟩
  | cons first leaves ih =>
      obtain ⟨front, later⟩ := ih (pfx.take (commonPrefixLength pfx first.1))
      refine ⟨front.trans (List.take_prefix _ _), ?_⟩
      intro leaf member
      rcases List.mem_cons.mp member with rfl | member
      · exact front.trans (commonPrefixLength_take _ _)
      · exact later leaf member

theorem commonPrefix_prefix {leaf : Nibbles × Bytes} (member : leaf ∈ leaves) : commonPrefix leaves <+: leaf.1 := by
  cases leaves with
  | nil => cases member
  | cons first leaves =>
      obtain ⟨front, later⟩ := foldl_prefix first.1 leaves
      rcases List.mem_cons.mp member with rfl | member
      · exact front
      · exact later leaf member

theorem Diverging.key_ne_nil {first second : Nibbles × Bytes} (diverging : Diverging (first :: second :: leaves))
    {leaf : Nibbles × Bytes} (member : leaf ∈ first :: second :: leaves) : leaf.1 ≠ [] := by
  intro empty
  obtain ⟨least, later⟩ := List.pairwise_cons.mp diverging
  rcases List.mem_cons.mp member with rfl | member
  · have below := least second (by simp)
    rw [empty] at below
    exact not_nil_below _ below
  · have below := least leaf member
    rw [empty] at below
    exact not_below_nil _ below

theorem Diverging.strip_commonPrefix (diverging : Diverging leaves) :
    Diverging (strip (commonPrefix leaves).length leaves) := by
  rw [Diverging, strip, List.pairwise_map]
  refine List.Pairwise.imp_of_mem ?_ diverging
  intro left right here there below
  obtain ⟨leftKey, leftShape⟩ := commonPrefix_prefix here
  obtain ⟨rightKey, rightShape⟩ := commonPrefix_prefix there
  rw [← leftShape, ← rightShape] at below
  simp only [← leftShape, ← rightShape, List.drop_left]
  exact (below_append_left byte_irrefl _).mp below

theorem Diverging.underSlot (diverging : Diverging leaves) (keys : ∀ leaf ∈ leaves, leaf.1 ≠ []) (n : Nat) :
    Diverging (underSlot n leaves) := by
  rw [Diverging, Mpt.underSlot, strip, List.pairwise_map]
  refine List.Pairwise.imp_of_mem ?_ (List.Pairwise.filter _ diverging)
  intro left right here there below
  obtain ⟨inside, leftHead⟩ := List.mem_filter.mp here
  obtain ⟨inside', rightHead⟩ := List.mem_filter.mp there
  obtain ⟨x, xs, leftShape⟩ := List.exists_cons_of_ne_nil (keys left inside)
  obtain ⟨y, ys, rightShape⟩ := List.exists_cons_of_ne_nil (keys right inside')
  simp only [leftShape, rightShape, List.headD_cons, decide_eq_true_eq] at leftHead rightHead
  have same : x = y := UInt8.toNat_inj.mp (leftHead.trans rightHead.symm)
  rw [leftShape, rightShape, below_cons_cons, same] at below
  simp only [leftShape, rightShape, List.drop_succ_cons, List.drop_zero]
  rcases below with less | ⟨-, below⟩
  · exact absurd less (byte_irrefl y)
  · exact below

theorem values_of_slots (diverging : Diverging leaves) (keys : ∀ leaf ∈ leaves, leaf.1 ≠ [])
    (valid : ∀ leaf ∈ leaves, leaf.1.Valid) :
    (List.range 16).flatMap (fun n => (underSlot n leaves).map Prod.snd) = leaves.map Prod.snd := by
  have sorted : leaves.Pairwise fun left right => (left.1.headD 0).toNat ≤ (right.1.headD 0).toNat := by
    refine List.Pairwise.imp_of_mem ?_ diverging
    intro left right here there below
    obtain ⟨x, xs, leftShape⟩ := List.exists_cons_of_ne_nil (keys left here)
    obtain ⟨y, ys, rightShape⟩ := List.exists_cons_of_ne_nil (keys right there)
    rw [leftShape, rightShape, below_cons_cons] at below
    simp only [leftShape, rightShape, List.headD_cons]
    rcases below with less | ⟨same, -⟩
    · exact Nat.le_of_lt (UInt8.lt_iff_toNat_lt.mp less)
    · rw [same]
  have bounded : ∀ leaf ∈ leaves, (leaf.1.headD 0).toNat < 16 := by
    intro leaf member
    obtain ⟨x, xs, shape⟩ := List.exists_cons_of_ne_nil (keys leaf member)
    rw [shape, List.headD_cons]
    exact valid leaf member x (by simp [shape])
  have ranks := congrArg (List.map Prod.snd) (flatMap_ranks sorted bounded)
  rw [List.map_flatMap] at ranks
  rw [← ranks]
  congr 1
  funext n
  simp [underSlot, strip]

structure Represents (node : TrieNode) (leaves : List (Nibbles × Bytes)) : Prop where
  values : node.leafNodes.map Prod.snd = leaves.map Prod.snd
  shaped : node.Shaped
  unblinded : node.Unblinded

theorem represents_branch {slots : Nat → TrieNode} {under : Nat → List (Nibbles × Bytes)}
    (represents : ∀ n, Represents (slots n) (under n))
    (values : (List.range 16).flatMap (fun n => (under n).map Prod.snd) = leaves.map Prod.snd) :
    Represents (.branch ((List.range 16).map slots ++ [.empty])) leaves where
  values := by
    rw [TrieNode.leafNodes, TrieNode.leafNodesOf_eq, List.flatMap_append, List.map_append, List.flatMap_map,
      List.map_flatMap, ← values]
    simp only [fun n => (represents n).values]
    simp [TrieNode.leafNodes]
  shaped := by
    refine .branch (by simp [branchListLength]) ?_
    intro node member
    rcases List.mem_append.mp member with slot | last
    · obtain ⟨n, -, rfl⟩ := List.mem_map.mp slot
      exact (represents n).shaped
    · obtain rfl := List.mem_singleton.mp last
      exact .empty
  unblinded := by
    refine .branch ?_
    intro node member
    rcases List.mem_append.mp member with slot | last
    · obtain ⟨n, -, rfl⟩ := List.mem_map.mp slot
      exact (represents n).unblinded
    · obtain rfl := List.mem_singleton.mp last
      exact .empty

theorem drop_valid {path : Nibbles} (valid : path.Valid) (count : Nat) : Nibbles.Valid (path.drop count) :=
  fun nibble member => valid nibble (List.mem_of_mem_drop member)

theorem mem_strip {count : Nat} {leaf : Nibbles × Bytes} (member : leaf ∈ strip count leaves) :
    ∃ whole ∈ leaves, leaf.1 = whole.1.drop count := by
  obtain ⟨whole, inside, rfl⟩ := List.mem_map.mp member
  exact ⟨whole, inside, rfl⟩

theorem mem_underSlot {n : Nat} {leaf : Nibbles × Bytes} (member : leaf ∈ underSlot n leaves) :
    ∃ whole ∈ leaves, leaf.1 = whole.1.drop 1 := by
  obtain ⟨whole, inside, same⟩ := mem_strip member
  exact ⟨whole, (List.mem_filter.mp inside).1, same⟩

theorem Represents.unstrip {node : TrieNode} {count : Nat} (represents : Represents node (strip count leaves)) :
    Represents node leaves where
  values := represents.values.trans (by simp [strip])
  shaped := represents.shaped
  unblinded := represents.unblinded

theorem represents_merklePatricia {depth : Nat} (short : depth ≤ keyNibbles) (diverging : Diverging leaves)
    (valid : ∀ leaf ∈ leaves, leaf.1.Valid) (within : ∀ leaf ∈ leaves, leaf.1.length ≤ depth) :
    Represents (merklePatricia depth leaves) leaves := by
  induction depth generalizing leaves with
  | zero =>
      match leaves with
      | [] => exact ⟨rfl, .empty, .empty⟩
      | [leaf] =>
          have size := within leaf (by simp)
          exact ⟨rfl, .leaf (by omega) (valid leaf (by simp)), .leaf _ _⟩
      | first :: second :: rest =>
          have size := within first (by simp)
          exact absurd (List.eq_nil_of_length_eq_zero (Nat.le_zero.mp size)) (diverging.key_ne_nil (by simp))
  | succ depth ih =>
      match leaves with
      | [] => exact ⟨rfl, .empty, .empty⟩
      | [leaf] =>
          have size := within leaf (by simp)
          exact ⟨rfl, .leaf (by omega) (valid leaf (by simp)), .leaf _ _⟩
      | first :: second :: rest =>
          have parted := diverging.strip_commonPrefix
          have keys : ∀ leaf ∈ strip (commonPrefix (first :: second :: rest)).length (first :: second :: rest),
              leaf.1 ≠ [] := fun leaf member => Diverging.key_ne_nil parted member
          have lengths : ∀ leaf ∈ strip (commonPrefix (first :: second :: rest)).length (first :: second :: rest),
              leaf.1.Valid ∧ leaf.1.length ≤ depth + 1 := by
            intro leaf member
            obtain ⟨whole, inside, shape⟩ := mem_strip member
            have size := within whole inside
            rw [shape, List.length_drop]
            exact ⟨drop_valid (valid whole inside) _, by omega⟩
          have slots : ∀ n, Represents (merklePatricia depth
              (underSlot n (strip (commonPrefix (first :: second :: rest)).length (first :: second :: rest))))
              (underSlot n (strip (commonPrefix (first :: second :: rest)).length (first :: second :: rest))) := by
            intro n
            refine ih (by omega) (parted.underSlot keys n) ?_ ?_
            · intro leaf member
              obtain ⟨whole, inside, shape⟩ := mem_underSlot member
              rw [shape]
              exact drop_valid (lengths whole inside).1 _
            · intro leaf member
              obtain ⟨whole, inside, shape⟩ := mem_underSlot member
              have size := (lengths whole inside).2
              rw [shape, List.length_drop]
              omega
          have branch := (represents_branch slots
            (values_of_slots parted keys fun leaf member => (lengths leaf member).1)).unstrip
          have front : commonPrefix (first :: second :: rest) <+: first.1 := commonPrefix_prefix (by simp)
          have size := within first (by simp)
          have pfxLength := front.length_le
          rw [merklePatricia]
          split
          · exact branch
          · refine ⟨branch.values, .extension (by omega) ?_ branch.shaped, .extension _ branch.unblinded⟩
            exact fun nibble member => valid first (by simp) nibble (front.subset member)

theorem length_le_longestKey {leaf : Nibbles × Bytes} (member : leaf ∈ leaves) : leaf.1.length ≤ longestKey leaves := by
  induction leaves with
  | nil => cases member
  | cons first leaves ih =>
      simp only [longestKey, List.map_cons, List.foldr_cons] at ih ⊢
      rcases List.mem_cons.mp member with rfl | later
      · exact le_max_left _ _
      · exact (ih later).trans (le_max_right _ _)

theorem longestKey_le {bound : Nat} (keys : ∀ leaf ∈ leaves, leaf.1.length ≤ bound) : longestKey leaves ≤ bound := by
  induction leaves with
  | nil => exact Nat.zero_le _
  | cons first leaves ih =>
      simp only [longestKey, List.map_cons, List.foldr_cons]
      exact max_le (keys first (by simp)) (ih fun leaf member => keys leaf (by simp [member]))

theorem represents_trieOf (ascending : Ascending leaves) (keys : ∀ leaf ∈ leaves, leaf.1.length ≤ keyNibbles) :
    Represents (trieOf leaves) leaves :=
  represents_merklePatricia (longestKey_le keys) ascending.diverging ascending.valid fun _ member =>
    length_le_longestKey member

end Spec

end KonaSoon.Mpt
