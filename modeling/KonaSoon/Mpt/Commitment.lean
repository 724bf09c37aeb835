import KonaSoon.Mpt.Codec
import KonaSoon.Mpt.Delete

/-!
# Commitments

A blinded node is the hash of an encoding of 32 bytes or more. Hiding such subtrees does not change
the hash of a trie, a provider that decodes the committed encodings serves every one of them, and,
as far as the hash function has no collisions, the hash determines the trie.
-/

namespace KonaSoon.Mpt
open Lib

namespace TrieNode

inductive Within (root : TrieNode) : TrieNode → Prop
  | root : Within root root
  | extension {pfx node} (above : Within root (.extension pfx node)) : Within root node
  | branch {stack} (above : Within root (.branch stack)) (i : Nat) : Within root (slot stack i)

theorem Within.canonical {n : Nat} {root node : TrieNode} (canonical : Canonical n root)
    (within : Within root node) : ∃ m ≤ n, Canonical m node := by
  induction within with
  | root => exact ⟨n, le_refl n, canonical⟩
  | extension _ ih =>
      obtain ⟨m, le, above⟩ := ih
      cases above with
      | @extension k pfx stack nonempty valid child => exact ⟨k, by omega, child⟩
  | branch _ i ih =>
      obtain ⟨m, le, above⟩ := ih
      obtain ⟨k, rfl, width, noValue, children, -⟩ := above.branch_inv
      refine ⟨k, by omega, ?_⟩
      rcases Nat.lt_or_ge i 16 with below | beyond
      · exact children i below
      · rw [slot_above width noValue beyond]
        exact .empty

variable (prim : Primitives)

def HashOf (commitment : B256) (full : TrieNode) : Prop :=
  commitment = prim.keccak256 (encode prim full) ∧ 32 ≤ (encode prim full).length

variable {prim}

theorem blind_eq_keccak {node : TrieNode} (clear : ¬ IsBlinded node) :
    blind prim node = prim.keccak256 (encode prim node) := by
  cases node with
  | blinded c => exact absurd ⟨c, rfl⟩ clear
  | _ => rfl

/-! ## Hiding keeps the encoding -/

theorem stackPayloadLength_eq (stack : List TrieNode) : stackPayloadLength prim stack =
    (stack.map fun node => blindedLengthOf prim (length prim node)).sum := by
  induction stack with
  | nil => rfl
  | cons node stack ih => simp [stackPayloadLength, ih, length]

theorem map_eq_of_slots {α : Type} {stack stack' : List TrieNode} (f : TrieNode → α)
    (width : stack.length = stack'.length) (slots : ∀ i, f (slot stack i) = f (slot stack' i)) :
    stack.map f = stack'.map f := by
  apply List.ext_getElem (by simpa using width)
  intro i inside inside'
  have here := slots i
  simp only [List.length_map] at inside inside'
  simpa [slot, List.getD_eq_getElem?_getD, List.getElem?_eq_getElem inside,
    List.getElem?_eq_getElem inside'] using here

def SameChild (prim : Primitives) (node full : TrieNode) : Prop :=
  blindedLengthOf prim (length prim node) = blindedLengthOf prim (length prim full) ∧
    encodeChild prim node = encodeChild prim full

theorem sameChild_of_encode {node full : TrieNode} (lengths : length prim node = length prim full)
    (encodings : encode prim node = encode prim full) (hashes : blind prim node = blind prim full) :
    SameChild prim node full := by
  unfold blind at hashes
  simp only [SameChild, lengths, encodeChild, childEncoding, encodings, true_and] at hashes ⊢
  rw [hashes]

section

variable {Stands : B256 → TrieNode → Prop} {node full : TrieNode}

theorem Reveals.encodings (commits : ∀ {c full}, Stands c full → HashOf prim c full ∧
      length prim full = (encode prim full).length ∧ IsList full)
    (reveals : Reveals Stands node full) :
    SameChild prim node full ∧ blind prim node = blind prim full ∧
      (¬ IsBlinded node → encode prim node = encode prim full) := by
  induction reveals with
  | empty => exact ⟨⟨rfl, rfl⟩, rfl, fun _ => rfl⟩
  | leaf => exact ⟨⟨rfl, rfl⟩, rfl, fun _ => rfl⟩
  | @blinded c full stands =>
      obtain ⟨⟨hash, long⟩, lengths, list⟩ := commits stands
      have clear : ¬ IsBlinded full := by
        rintro ⟨c', rfl⟩
        exact list
      have hashes : blind prim (.blinded c) = blind prim full := by
        rw [blind_eq_keccak clear, ← hash]
        rfl
      have size : length prim (.blinded c) = 33 := bytesLength_b256 prim c
      refine ⟨⟨?_, ?_⟩, hashes, fun not => absurd ⟨c, rfl⟩ not⟩
      · simp [blindedLengthOf, size, lengths, long]
      · unfold encodeChild childEncoding
        rw [if_pos (by omega), if_pos (by omega)]
        exact congrArg (fun hash : B256 => prim.encodeBytes hash.1) hashes
  | @extension pfx node full child ih =>
      obtain ⟨⟨childLength, childBytes⟩, -, -⟩ := ih
      have payloads : payloadLength prim (.extension pfx node) = payloadLength prim (.extension pfx full) := by
        simp only [payloadLength]
        exact congrArg (encodedKeyLength prim pfx + ·) childLength
      have encodings : encode prim (.extension pfx node) = encode prim (.extension pfx full) := by
        unfold encodeChild at childBytes
        simp only [encode, payloads, childBytes]
      have hashes : blind prim (.extension pfx node) = blind prim (.extension pfx full) :=
        congrArg prim.keccak256 encodings
      have lengths : length prim (.extension pfx node) = length prim (.extension pfx full) := by
        simp only [length, lengthOf, payloads]
      exact ⟨sameChild_of_encode lengths encodings hashes, hashes, fun _ => encodings⟩
  | @branch stack fulls width children ih =>
      have payloads : payloadLength prim (.branch stack) = payloadLength prim (.branch fulls) := by
        simp only [payloadLength, stackPayloadLength_eq]
        rw [map_eq_of_slots _ width fun i => (ih i).1.1]
      have encodings : encode prim (.branch stack) = encode prim (.branch fulls) := by
        simp only [encode, payloads, encodeStack_eq]
        rw [map_eq_of_slots _ width fun i => (ih i).1.2]
      have hashes : blind prim (.branch stack) = blind prim (.branch fulls) :=
        congrArg prim.keccak256 encodings
      have lengths : length prim (.branch stack) = length prim (.branch fulls) := by
        simp only [length, lengthOf, payloads]
      exact ⟨sameChild_of_encode lengths encodings hashes, hashes, fun _ => encodings⟩

end

/-! ## The commitments of a trie -/

/-- The commitments under which the nodes of `origin` may be hidden. -/
def CommitsTo (prim : Primitives) (origin : TrieNode) (commitment : B256) (full : TrieNode) : Prop :=
  Within origin full ∧ HashOf prim commitment full

section

variable {origin : TrieNode}

theorem Canonical.isList {n : Nat} {node : TrieNode} (canonical : Canonical n node) (nonempty : node ≠ .empty) :
    IsList node := by
  cases canonical with
  | empty => exact absurd rfl nonempty
  | _ => trivial

theorem ne_empty_of_long {full : TrieNode} (long : 32 ≤ (encode prim full).length) : full ≠ .empty := by
  rintro rfl
  simp [encode] at long

theorem isList_of_long {n : Nat} {node : TrieNode} (canonical : Canonical n node)
    (long : 32 ≤ (encode prim node).length) : IsList node :=
  canonical.isList (ne_empty_of_long long)

theorem commitsTo_commits (canonical : Canonical keyNibbles origin) {c : B256} {full : TrieNode}
    (commits : CommitsTo prim origin c full) : HashOf prim c full ∧
      length prim full = (encode prim full).length ∧ IsList full := by
  obtain ⟨within, hash⟩ := commits
  obtain ⟨m, short, canonical'⟩ := within.canonical canonical
  exact ⟨hash, (encode_length prim (canonical'.shaped short)).symm, isList_of_long canonical' hash.2⟩

theorem reveals_hidden (canonical : Canonical keyNibbles origin) {node : TrieNode} (within : Within origin node)
    (shown : Reveals (CommitsTo prim origin) (shallow prim node) node) :
    Reveals (CommitsTo prim origin) (hidden prim node) node := by
  unfold hidden hiddenAs
  split
  · rename_i long
    obtain ⟨m, short, canonical'⟩ := within.canonical canonical
    rw [← encode_length prim (canonical'.shaped short)] at long
    exact .blinded ⟨within, blind_eq_keccak canonical'.not_blinded, long⟩
  · exact shown

theorem slot_shallowStack (stack : List TrieNode) (i : Nat) :
    slot (shallowStack prim stack) i = hidden prim (slot stack i) := by
  rw [shallowStack_eq]
  rcases Nat.lt_or_ge i stack.length with inside | outside
  · simp [slot, List.getD_eq_getElem?_getD, List.getElem?_eq_getElem inside]
  · rw [slot_outside outside, slot_outside (by simpa using outside)]
    simp [hidden, hiddenAs, length, lengthOf, shallow]

theorem shallow_reveals (canonical : Canonical keyNibbles origin) {n : Nat} {node : TrieNode}
    (nodeCanonical : Canonical n node) (within : Within origin node) :
    Reveals (CommitsTo prim origin) (shallow prim node) node := by
  induction nodeCanonical with
  | empty => exact .empty
  | leaf => exact .leaf
  | extension _ _ _ ih => exact .extension (reveals_hidden canonical within.extension (ih within.extension))
  | @branch m stack width noValue children two ih =>
      refine .branch (by simp [shallowStack_eq]) fun i => ?_
      rw [slot_shallowStack]
      apply reveals_hidden canonical (within.branch i)
      rcases Nat.lt_or_ge i 16 with below | above
      · exact ih i below (within.branch i)
      · rw [slot_above width noValue above]
        exact .empty

theorem shallow_not_blinded {n : Nat} {node : TrieNode} (canonical : Canonical n node) :
    ¬ IsBlinded (shallow prim node) := by
  rintro ⟨c, same⟩
  cases canonical <;> simp [shallow] at same

/-! ## Collisions -/

/-- No two of these encodings, nor one of them and that of the empty node, have the same hash. -/
def CollisionFree (prim : Primitives) (nodes : Set TrieNode) : Prop :=
  Set.InjOn prim.keccak256 ({[0x80]} ∪ Set.image (encode prim) nodes)

theorem encode_ne_empty {n : Nat} (short : n ≤ keyNibbles) {node : TrieNode} (canonical : Canonical n node)
    (list : IsList node) : encode prim node ≠ [0x80] := by
  intro same
  have header := decodeHeader_encode prim (canonical.shaped short) list []
  have empty := prim.decodeHeader_bytes [] [] (by simp)
  rw [prim.encodeBytes_nil] at empty
  rw [same, empty] at header
  simp at header

theorem hash_ne_empty {nodes : Set TrieNode} (free : CollisionFree prim nodes) {n : Nat} (short : n ≤ keyNibbles)
    {node : TrieNode} (canonical : Canonical n node) (list : IsList node) (member : node ∈ nodes) :
    prim.keccak256 (encode prim node) ≠ prim.emptyRootHash := by
  intro same
  exact encode_ne_empty short canonical list
    (free (Or.inr (Set.mem_image_of_mem _ member)) (Or.inl rfl) same)

def nodes (origin : TrieNode) : Set TrieNode := {node | Within origin node}

theorem hidden_eq_encode {nodes : Set TrieNode} (free : CollisionFree prim nodes)
    {left right leftOrigin rightOrigin : TrieNode} (leftCanonical : Canonical keyNibbles leftOrigin)
    (rightCanonical : Canonical keyNibbles rightOrigin) (leftWithin : Within leftOrigin left)
    (rightWithin : Within rightOrigin right) (leftMember : left ∈ nodes) (rightMember : right ∈ nodes)
    (same : hidden prim left = hidden prim right) : encode prim left = encode prim right := by
  obtain ⟨m, short, canonical⟩ := leftWithin.canonical leftCanonical
  obtain ⟨m', short', canonical'⟩ := rightWithin.canonical rightCanonical
  unfold hidden hiddenAs at same
  split at same <;> split at same
  · have hashes := TrieNode.blinded.inj same
    rw [blind_eq_keccak canonical.not_blinded, blind_eq_keccak canonical'.not_blinded] at hashes
    exact free (Or.inr (Set.mem_image_of_mem _ leftMember))
      (Or.inr (Set.mem_image_of_mem _ rightMember)) hashes
  · exact absurd ⟨_, same.symm⟩ (shallow_not_blinded canonical')
  · exact absurd ⟨_, same⟩ (shallow_not_blinded canonical)
  · rw [← encode_shallow, same, encode_shallow]

theorem shallow_eq_of_encode {n m : Nat} {left right : TrieNode} (canonical : Canonical n left)
    (canonical' : Canonical m right) (short : n ≤ keyNibbles) (short' : m ≤ keyNibbles)
    (same : encode prim left = encode prim right) : shallow prim left = shallow prim right := by
  have decodes := decodesBack prim (canonical.shaped short) [] _ (le_refl _)
  have decodes' := decodesBack prim (canonical'.shaped short') [] _ (le_refl _)
  rw [same, decodes'] at decodes
  exact (Prod.mk.inj (Except.ok.inj decodes)).1.symm

theorem encode_injective {leftOrigin rightOrigin : TrieNode} (leftCanonical : Canonical keyNibbles leftOrigin)
    (rightCanonical : Canonical keyNibbles rightOrigin)
    (free : CollisionFree prim (nodes leftOrigin ∪ nodes rightOrigin)) {n m : Nat} {left right : TrieNode}
    (canonical : Canonical n left) (canonical' : Canonical m right) (short : n ≤ keyNibbles) (short' : m ≤ keyNibbles)
    (leftWithin : Within leftOrigin left) (rightWithin : Within rightOrigin right)
    (same : encode prim left = encode prim right) : left = right := by
  -- Equal encodings decode to equal nodes with their large children hidden; without collisions these agree too.
  have shown := shallow_eq_of_encode canonical canonical' short short' same
  induction canonical generalizing m right with
  | empty =>
      cases canonical' with
      | empty => rfl
      | _ => simp [shallow] at shown
  | leaf =>
      cases canonical' with
      | leaf => simpa [shallow] using shown
      | _ => simp [shallow] at shown
  | @extension k pfx stack nonempty valid child ih =>
      cases canonical' with
      | @extension k' pfx' stack' nonempty' valid' child' =>
          simp only [shallow, TrieNode.extension.injEq] at shown
          obtain ⟨rfl, sameChild⟩ := shown
          have encodings := hidden_eq_encode free leftCanonical rightCanonical leftWithin.extension
            rightWithin.extension (Or.inl leftWithin.extension) (Or.inr rightWithin.extension) sameChild
          rw [ih child' (by omega) (by omega) leftWithin.extension rightWithin.extension encodings
            (shallow_eq_of_encode child child' (by omega) (by omega) encodings)]
      | _ => simp [shallow] at shown
  | @branch k stack width noValue children two ih =>
      cases canonical' with
      | @branch k' stack' width' noValue' children' two' =>
          simp only [shallow, TrieNode.branch.injEq] at shown
          congr 1
          apply stack_ext (width.trans width'.symm)
          intro i
          rcases Nat.lt_or_ge i 16 with below | above
          · have sameChild := congrArg (slot · i) shown
            simp only [slot_shallowStack] at sameChild
            have encodings := hidden_eq_encode free leftCanonical rightCanonical (leftWithin.branch i)
              (rightWithin.branch i) (Or.inl (leftWithin.branch i)) (Or.inr (rightWithin.branch i)) sameChild
            exact ih i below (children' i below) (by omega) (by omega) (leftWithin.branch i) (rightWithin.branch i)
              encodings (shallow_eq_of_encode (children i below) (children' i below) (by omega) (by omega) encodings)
          · rw [slot_above width noValue above, slot_above width' noValue' above]
      | _ => simp [shallow] at shown

theorem blind_injective {left right : TrieNode} (canonical : Canonical keyNibbles left)
    (canonical' : Canonical keyNibbles right) (free : CollisionFree prim (nodes left ∪ nodes right))
    (same : blind prim left = blind prim right) : left = right := by
  rw [blind_eq_keccak canonical.not_blinded, blind_eq_keccak canonical'.not_blinded] at same
  have encodings := free (Or.inr (Set.mem_image_of_mem _ (Or.inl .root)))
    (Or.inr (Set.mem_image_of_mem _ (Or.inr .root))) same
  exact encode_injective canonical canonical' free canonical canonical' (le_refl _) (le_refl _) .root .root encodings

theorem commitsTo_unique {origin left right : TrieNode} (canonical : Canonical keyNibbles origin)
    (free : CollisionFree prim (nodes origin)) (leftWithin : Within origin left) (rightWithin : Within origin right)
    (same : prim.keccak256 (encode prim left) = prim.keccak256 (encode prim right)) : left = right := by
  obtain ⟨n, short, leftCanonical⟩ := leftWithin.canonical canonical
  obtain ⟨m, short', rightCanonical⟩ := rightWithin.canonical canonical
  have encodings := free (Or.inr (Set.mem_image_of_mem _ leftWithin)) (Or.inr (Set.mem_image_of_mem _ rightWithin)) same
  have both : CollisionFree prim (nodes origin ∪ nodes origin) := by rwa [Set.union_self]
  exact encode_injective canonical canonical both leftCanonical rightCanonical short short' leftWithin rightWithin
    encodings

end

/-! ## Honest providers -/

def decodePreimage (prim : Primitives) (preimage : List UInt8) : Except String TrieNode :=
  match decode prim (decodeFuel preimage) preimage with
  | .ok (node, _) => .ok node
  | .error _ => .error "failed to decode trie node"

/-- `TrieNodeProvider`: a provider over a table of preimages. -/
def trieNodeProvider (prim : Primitives) (preimages : List (B256 × List UInt8)) : TrieProvider where
  trieNodeByHash key := match preimages.lookup key with
    | some preimage => decodePreimage prim preimage
    | none => .error "key not found in trie"
  bankHash _ := .ok (B256.ofNat 0)
  blockTime _ := .ok 0

/-- The provider decodes the encoding behind every commitment under which a node of `origin` may be
hidden. -/
def Honest (prim : Primitives) (fetcher : TrieProvider) (origin : TrieNode) : Prop :=
  ∀ node, Within origin node → (node = origin ∨ 32 ≤ (encode prim node).length) →
    fetcher.trieNodeByHash (prim.keccak256 (encode prim node)) = decodePreimage prim (encode prim node)

/-- A trie with any of its nodes replaced by their hashes: the root, or nodes that a parent would not
hold inline. -/
inductive Blinding (prim : Primitives) (origin : TrieNode) : TrieNode → Prop
  | root : Blinding prim origin (.blinded (prim.keccak256 (encode prim origin)))
  | inner {node} (reveals : Reveals (HashOf prim) node origin) : Blinding prim origin node

section

variable {origin : TrieNode} {fetcher : TrieProvider} {hinter : TrieHinter}

theorem decodePreimage_encode {node : TrieNode} (shaped : Shaped node) :
    decodePreimage prim (encode prim node) = .ok (shallow prim node) := by
  have decodes := decodesBack prim shaped [] (decodeFuel (encode prim node)) (by unfold decodeFuel; omega)
  rw [List.append_nil] at decodes
  rw [decodePreimage, decodes]

theorem unblind_commitment {n : Nat} (short : n ≤ keyNibbles) {full : TrieNode} (canonical : Canonical n full)
    (nonempty : full ≠ .empty) (within : Within origin full) (free : CollisionFree prim (nodes origin))
    (fetched : fetcher.trieNodeByHash (prim.keccak256 (encode prim full)) = decodePreimage prim (encode prim full)) :
    unblind prim fetcher (.blinded (prim.keccak256 (encode prim full))) = (shallow prim full, .ok ()) := by
  rw [unblind, if_neg (hash_ne_empty free short canonical (canonical.isList nonempty) within), fetched,
    decodePreimage_encode (canonical.shaped short)]

theorem serves_of_honest (canonical : Canonical keyNibbles origin) (honest : Honest prim fetcher origin)
    (hints : ∀ hash slot, hinter.hintAccountProof hash slot = .ok ())
    (free : CollisionFree prim (nodes origin)) : Serves prim fetcher hinter (CommitsTo prim origin) where
  nonempty := by
    rintro c full ⟨-, -, long⟩
    exact ne_empty_of_long long
  reveal := by
    rintro c full ⟨within, rfl, long⟩
    obtain ⟨m, short, fullCanonical⟩ := within.canonical canonical
    exact ⟨shallow prim full,
      unblind_commitment short fullCanonical (ne_empty_of_long long) within free (honest full within (.inr long)),
      shallow_reveals canonical fullCanonical within, shallow_not_blinded fullCanonical⟩
  hint := fun _ => hints

theorem unblind_root (canonical : Canonical keyNibbles origin) (honest : Honest prim fetcher origin)
    (free : CollisionFree prim (nodes origin)) :
    unblind prim fetcher (.blinded (prim.keccak256 (encode prim origin))) = (shallow prim origin, .ok ()) := by
  by_cases empty : origin = .empty
  · subst empty
    simp [unblind, encode, Primitives.emptyRootHash, shallow]
  · exact unblind_commitment (le_refl _) canonical empty .root free (honest origin .root (.inl rfl))

theorem Reveals.within {node full : TrieNode} (reveals : Reveals (HashOf prim) node full)
    (within : Within origin full) : Reveals (CommitsTo prim origin) node full := by
  induction reveals with
  | empty => exact .empty
  | leaf => exact .leaf
  | extension _ ih => exact .extension (ih within.extension)
  | branch width _ ih => exact .branch width fun i => ih i (within.branch i)
  | blinded hash => exact .blinded ⟨within, hash⟩

end

end TrieNode

end KonaSoon.Mpt
