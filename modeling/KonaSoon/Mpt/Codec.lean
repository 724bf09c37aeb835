import KonaSoon.Mpt.Encoding
import KonaSoon.Mpt.Partial

namespace KonaSoon.Mpt
open Lib

/-! ## Paths -/

theorem encodePathLeaf_shape (path : Nibbles) (valid : path.Valid) (isLeaf : Bool) :
    ∃ head tail, encodePathLeaf path isLeaf = head :: tail ∧ tail.length = path.length / 2 ∧
      head.toNat / 16 = (if isLeaf then 2 else 0) + path.length % 2 ∧
      unpackPathToNibbles
        (if head.toNat / 16 % 2 = 1 then some (UInt8.ofNat (head.toNat % 16)) else none) tail = path := by
  rcases Nat.mod_two_eq_zero_or_one path.length with even | odd
  · have half : path.length = 2 * (path.length / 2) := by omega
    have first : (UInt8.ofNat ((if isLeaf then 2 else 0) * 16)).toNat = (if isLeaf then 2 else 0) * 16 := by
      cases isLeaf <;> rfl
    refine ⟨_, _, by rw [encodePathLeaf, if_neg (by omega)], Nibbles.pack_length path _ half, ?_, ?_⟩
    · rw [first]
      cases isLeaf <;> simp [even]
    · rw [first, if_neg (by cases isLeaf <;> simp)]
      exact Nibbles.unpack_pack path valid _ half
  · match path, odd with
    | first :: rest, odd =>
        have half : rest.length = 2 * (rest.length / 2) := by
          simp only [List.length_cons] at odd
          omega
        have bound : first.toNat < 16 := valid first (by simp)
        have restValid : Nibbles.Valid rest := fun x member => valid x (by simp [member])
        have head : (UInt8.ofNat (((if isLeaf then 2 else 0) + 1) * 16 + first.toNat)).toNat =
            ((if isLeaf then 2 else 0) + 1) * 16 + first.toNat := by
          cases isLeaf <;> simp <;> omega
        refine ⟨_, _, by rw [encodePathLeaf, if_pos odd, List.headD_cons, List.tail_cons], ?_, ?_, ?_⟩
        · rw [Nibbles.pack_length rest _ half, List.length_cons]
          omega
        · rw [head, odd]
          cases isLeaf <;> simp <;> omega
        · have kind : (((if isLeaf then 2 else 0) + 1) * 16 + first.toNat) / 16 % 2 = 1 := by
            cases isLeaf <;> simp <;> omega
          have low : (((if isLeaf then 2 else 0) + 1) * 16 + first.toNat) % 16 = first.toNat := by
            cases isLeaf <;> simp <;> omega
          rw [head, if_pos kind, low, UInt8.ofNat_toNat]
          simp [unpackPathToNibbles, Nibbles.unpack_pack rest restValid _ half]

namespace TrieNode

variable (prim : Primitives)

/-- Nodes of any nesting whose keys are those of a trie and whose branches have all of their slots. -/
inductive Shaped : TrieNode → Prop where
  | empty : Shaped .empty
  | blinded (commitment : B256) : Shaped (.blinded commitment)
  | leaf {pfx : Nibbles} {value : Bytes} (short : pfx.length ≤ keyNibbles) (valid : pfx.Valid) :
      Shaped (.leaf pfx value)
  | extension {pfx : Nibbles} {node : TrieNode} (short : pfx.length ≤ keyNibbles) (valid : pfx.Valid)
      (child : Shaped node) : Shaped (.extension pfx node)
  | branch {stack : List TrieNode} (width : stack.length = branchListLength)
      (children : ∀ node ∈ stack, Shaped node) : Shaped (.branch stack)

theorem forall_mem_stack {stack : List TrieNode} {P : TrieNode → Prop} (empty : P .empty)
    (width : stack.length = branchListLength) (noValue : slot stack 16 = .empty)
    (slots : ∀ i < 16, P (slot stack i)) : ∀ node ∈ stack, P node := by
  intro node member
  obtain ⟨i, inside, rfl⟩ := List.getElem_of_mem member
  have here : slot stack i = stack[i] := by
    simp [slot, List.getD_eq_getElem?_getD, List.getElem?_eq_getElem inside]
  rw [← here]
  rcases Nat.lt_or_ge i 16 with below | above
  · exact slots i below
  · rw [slot_above width noValue above]
    exact empty

theorem Canonical.shaped {n : Nat} {node : TrieNode} (canonical : Canonical n node) (short : n ≤ keyNibbles) :
    Shaped node := by
  induction canonical with
  | empty => exact .empty
  | leaf pathLength valid => exact .leaf (pathLength ▸ short) valid
  | extension nonempty valid child ih => exact .extension (by omega) valid (ih (by omega))
  | branch width noValue children two ih =>
      exact .branch width (forall_mem_stack .empty width noValue fun i below => ih i below (by omega))

/-! ## Lengths -/

theorem bytesLength_eq (bytes : List UInt8) (bound : bytes.length < 2 ^ 64) :
    (prim.encodeBytes bytes).length = prim.bytesLength bytes :=
  prim.encodeBytes_length bytes bound

theorem bytesLength_pos (bytes : List UInt8) : 0 < prim.bytesLength bytes := by
  have := prim.lengthOfLength_pos bytes.length
  unfold Rlp.bytesLength
  split <;> omega

theorem bytesLength_b256 (hash : B256) : prim.bytesLength hash.1 = 33 := by
  have notSelf : Rlp.selfEncoded hash.1 = false := by
    match hash with
    | ⟨[_], size⟩ => simp at size
    | ⟨[], _⟩ => rfl
    | ⟨_ :: _ :: _, _⟩ => rfl
  simp [Rlp.bytesLength, notSelf, hash.2, prim.lengthOfLength_short 32 (by norm_num)]

theorem encodedKeyLength_eq {path : Nibbles} (valid : path.Valid) (short : path.length ≤ keyNibbles)
    (isLeaf : Bool) : (prim.encodeBytes (encodePathLeaf path isLeaf)).length = encodedKeyLength prim path := by
  obtain ⟨head, tail, shape, tailLength, kind, -⟩ := encodePathLeaf_shape path valid isLeaf
  have total : (head :: tail).length = path.length / 2 + 1 := by simp [tailLength]
  unfold keyNibbles at short
  rw [shape, bytesLength_eq prim _ (by rw [total]; omega), encodedKeyLength]
  cases tail with
  | nil =>
      have own : Rlp.selfEncoded [head] = true := by
        have : head.toNat < 0x80 := by cases isLeaf <;> simp at kind <;> omega
        simpa [Rlp.selfEncoded] using this
      simp only [List.length_nil] at tailLength
      simp [Rlp.bytesLength, own, ← tailLength]
  | cons b tail =>
      have apart : path.length / 2 + 1 ≠ 1 := by
        simp only [List.length_cons] at tailLength
        omega
      rw [Rlp.bytesLength, total, if_pos apart]
      simp [Rlp.selfEncoded, Nat.add_comm]

theorem encodedKeyLength_le (path : Nibbles) (short : path.length ≤ keyNibbles) :
    encodedKeyLength prim path ≤ 34 := by
  unfold keyNibbles at short
  have := prim.lengthOfLength_short (path.length / 2 + 1) (by omega)
  simp only [encodedKeyLength]
  split <;> omega

theorem blindedLengthOf_le (length : Nat) : blindedLengthOf prim length ≤ 33 := by
  have := prim.lengthOfLength_short 32 (by norm_num)
  unfold blindedLengthOf
  split <;> omega

theorem stackPayloadLength_le (stack : List TrieNode) :
    stackPayloadLength prim stack ≤ 33 * stack.length := by
  induction stack with
  | nil => simp [stackPayloadLength]
  | cons node stack ih =>
      have := blindedLengthOf_le prim (lengthOf prim node (payloadLength prim node))
      simp only [stackPayloadLength, List.length_cons]
      omega

theorem payloadLength_lt {node : TrieNode} (shaped : Shaped node) : payloadLength prim node < 2 ^ 64 := by
  cases shaped with
  | empty => simp [payloadLength]
  | blinded commitment => simp [payloadLength]
  | @leaf pfx value short valid =>
      have key := encodedKeyLength_le prim pfx short
      have header := prim.lengthOfLength_le value.1.length (by have := value.2; omega)
      have fits := value.2
      simp only [payloadLength, Rlp.bytesLength]
      split <;> omega
  | @extension pfx node short valid child =>
      have key := encodedKeyLength_le prim pfx short
      have := blindedLengthOf_le prim (lengthOf prim node (payloadLength prim node))
      simp only [payloadLength]
      omega
  | @branch stack width children =>
      have := stackPayloadLength_le prim stack
      simp only [payloadLength]
      rw [width, branchListLength] at this
      omega

/-! ## Hiding large children -/

def hiddenAs (node shown : TrieNode) : TrieNode :=
  if 32 ≤ length prim node then .blinded (blind prim node) else shown

mutual

def shallow : TrieNode → TrieNode
  | .extension pfx node => .extension pfx (hiddenAs prim node (shallow node))
  | .branch stack => .branch (shallowStack stack)
  | .empty => .empty
  | .blinded commitment => .blinded commitment
  | .leaf pfx value => .leaf pfx value

def shallowStack : List TrieNode → List TrieNode
  | [] => []
  | node :: stack => hiddenAs prim node (shallow node) :: shallowStack stack

end

def hidden (node : TrieNode) : TrieNode := hiddenAs prim node (shallow prim node)

theorem shallowStack_eq (stack : List TrieNode) : shallowStack prim stack = stack.map (hidden prim) := by
  induction stack with
  | nil => rfl
  | cons node stack ih => simp [shallowStack, ih, hidden]

def encodeChild (node : TrieNode) : List UInt8 := childEncoding prim node (encode prim node)

theorem encodeStack_eq (stack : List TrieNode) :
    encodeStack prim stack = (stack.map (encodeChild prim)).flatten := by
  induction stack with
  | nil => rfl
  | cons node stack ih => simp [encodeStack, ih, encodeChild]

/-! Hiding large children changes neither the lengths nor the bytes of a node. -/

theorem length_hidden {node : TrieNode} (shown : length prim (shallow prim node) = length prim node) :
    blindedLengthOf prim (length prim (hidden prim node)) = blindedLengthOf prim (length prim node) := by
  unfold hidden hiddenAs
  split
  · rename_i long
    have size : length prim (.blinded (blind prim node)) = 33 := bytesLength_b256 prim _
    rw [size, blindedLengthOf, blindedLengthOf, if_pos long, if_pos (by norm_num)]
  · rw [shown]

theorem length_shallow_of_payload {node : TrieNode}
    (payloads : payloadLength prim (shallow prim node) = payloadLength prim node) :
    length prim (shallow prim node) = length prim node := by
  rw [length, payloads, length]
  cases node <;> rfl

mutual

theorem payloadLength_shallow (node : TrieNode) :
    payloadLength prim (shallow prim node) = payloadLength prim node := by
  match node with
  | .empty => rfl
  | .blinded commitment => rfl
  | .leaf pfx value => rfl
  | .extension pfx node =>
      have inner := length_hidden prim (length_shallow_of_payload prim (payloadLength_shallow node))
      simp only [shallow, payloadLength]
      exact congrArg (encodedKeyLength prim pfx + ·) inner
  | .branch stack => exact stackPayloadLength_shallow stack

theorem stackPayloadLength_shallow (stack : List TrieNode) :
    stackPayloadLength prim (shallowStack prim stack) = stackPayloadLength prim stack := by
  match stack with
  | [] => rfl
  | node :: stack =>
      have inner := length_hidden prim (length_shallow_of_payload prim (payloadLength_shallow node))
      simp only [shallowStack, stackPayloadLength, stackPayloadLength_shallow stack]
      exact congrArg (· + stackPayloadLength prim stack) inner

end

theorem length_shallow (node : TrieNode) : length prim (shallow prim node) = length prim node :=
  length_shallow_of_payload prim (payloadLength_shallow prim node)

theorem encodeChild_hidden {node : TrieNode} (shown : encode prim (shallow prim node) = encode prim node) :
    encodeChild prim (hidden prim node) = encodeChild prim node := by
  unfold hidden hiddenAs
  split
  · rename_i long
    have size : length prim (.blinded (blind prim node)) = 33 := bytesLength_b256 prim _
    rw [encodeChild, encodeChild, childEncoding, childEncoding, if_pos long, if_pos (by omega)]
    rfl
  · rename_i small
    rw [encodeChild, encodeChild, childEncoding, childEncoding, length_shallow, if_neg small, if_neg small, shown]

mutual

theorem encode_shallow (node : TrieNode) : encode prim (shallow prim node) = encode prim node := by
  match node with
  | .empty => rfl
  | .blinded commitment => rfl
  | .leaf pfx value => rfl
  | .extension pfx node =>
      have payloads := payloadLength_shallow prim (.extension pfx node)
      have inner := encodeChild_hidden prim (encode_shallow node)
      simp only [shallow] at payloads
      simp only [shallow, encode, payloads]
      exact congrArg (fun child => _ ++ (_ ++ child)) inner
  | .branch stack =>
      have payloads := payloadLength_shallow prim (.branch stack)
      simp only [shallow] at payloads
      simp only [shallow, encode, payloads, encodeStack_shallow stack]

theorem encodeStack_shallow (stack : List TrieNode) :
    encodeStack prim (shallowStack prim stack) = encodeStack prim stack := by
  match stack with
  | [] => rfl
  | node :: stack =>
      have inner := encodeChild_hidden prim (encode_shallow node)
      simp only [shallowStack, encodeStack, encodeStack_shallow stack]
      exact congrArg (· ++ encodeStack prim stack) inner

end

theorem blind_shallow (node : TrieNode) : blind prim (shallow prim node) = blind prim node := by
  rw [blind, encode_shallow, blind]
  cases node <;> rfl

/-! ## Encoded lengths -/

def payload : TrieNode → List UInt8
  | .leaf pfx value => prim.encodeBytes (encodePathLeaf pfx true) ++ prim.encodeBytes value.1
  | .extension pfx node => prim.encodeBytes (encodePathLeaf pfx false) ++ encodeChild prim node
  | .branch stack => encodeStack prim stack
  | _ => []

def IsList : TrieNode → Prop
  | .empty => False
  | .blinded _ => False
  | _ => True

theorem encode_eq_payload {node : TrieNode} (list : IsList node) :
    encode prim node = prim.encodeHeader ⟨true, payloadLength prim node⟩ ++ payload prim node := by
  cases node <;> first | exact list.elim | rfl

theorem encodeChild_length {node : TrieNode} (encoded : (encode prim node).length = length prim node) :
    (encodeChild prim node).length = blindedLengthOf prim (length prim node) := by
  have short := prim.lengthOfLength_short 32 (by norm_num)
  unfold encodeChild childEncoding blindedLengthOf
  split
  · have size := (blindOf prim node (encode prim node)).2
    rw [bytesLength_eq prim _ (by omega), bytesLength_b256]
    omega
  · exact encoded

theorem encode_length_of_payload {node : TrieNode} (shaped : Shaped node)
    (lengths : IsList node → (payload prim node).length = payloadLength prim node) :
    (encode prim node).length = length prim node := by
  have bound := payloadLength_lt prim shaped
  by_cases list : IsList node
  · rw [encode_eq_payload prim list, List.length_append, prim.encodeHeader_length _ bound, lengths list]
    cases node <;> first | exact list.elim | rfl
  · cases shaped with
    | empty => rfl
    | blinded commitment =>
        have size := commitment.2
        exact bytesLength_eq prim commitment.1 (by omega)
    | _ => exact absurd trivial list

theorem payload_length {node : TrieNode} (shaped : Shaped node) (list : IsList node) :
    (payload prim node).length = payloadLength prim node := by
  induction shaped with
  | empty => exact list.elim
  | blinded commitment => exact list.elim
  | @leaf pfx value short valid =>
      have fits := value.2
      simp only [payload, payloadLength, List.length_append, encodedKeyLength_eq prim valid short,
        bytesLength_eq prim value.1 (by omega)]
  | @extension pfx node short valid child ih =>
      have inner := encode_length_of_payload prim child ih
      simp only [payload, payloadLength, List.length_append, encodedKeyLength_eq prim valid short,
        encodeChild_length prim inner]
      rfl
  | @branch stack width children ih =>
      have lengths : ∀ node ∈ stack, (encode prim node).length = length prim node := fun node member =>
        encode_length_of_payload prim (children node member) (ih node member)
      simp only [payload, payloadLength]
      clear width children ih list
      induction stack with
      | nil => rfl
      | cons node stack ih =>
          have head := encodeChild_length prim (lengths node (by simp))
          simp only [encodeStack, stackPayloadLength, List.length_append,
            ih fun node member => lengths node (by simp [member])]
          exact congrArg (· + stackPayloadLength prim stack) head

theorem encode_length {node : TrieNode} (shaped : Shaped node) :
    (encode prim node).length = length prim node :=
  encode_length_of_payload prim shaped (payload_length prim shaped)

/-! ## Elements of a list -/

def IsItem (item : List UInt8) : Prop :=
  0 < item.length ∧ ∃ header, ∀ rest, ∃ body,
    prim.decodeHeader (item ++ rest) = .ok (header, body ++ rest) ∧ body.length = header.payloadLength

theorem encodeBytes_item {bytes : List UInt8} (bound : bytes.length < 2 ^ 64) :
    IsItem prim (prim.encodeBytes bytes) :=
  ⟨by rw [bytesLength_eq prim _ bound]; exact bytesLength_pos prim bytes,
    _, fun rest => ⟨bytes, prim.decodeHeader_bytes bytes rest bound, rfl⟩⟩

theorem decodeHeader_encode {node : TrieNode} (shaped : Shaped node) (list : IsList node) (rest : List UInt8) :
    prim.decodeHeader (encode prim node ++ rest) =
      .ok (⟨true, payloadLength prim node⟩, payload prim node ++ rest) := by
  have lengths := payload_length prim shaped list
  have bound := payloadLength_lt prim shaped
  rw [encode_eq_payload prim list, List.append_assoc, ← lengths]
  exact prim.decodeHeader_list _ _ (by omega)

theorem encode_item {node : TrieNode} (shaped : Shaped node) : IsItem prim (encode prim node) := by
  by_cases list : IsList node
  · refine ⟨?_, _, fun rest => ⟨_, decodeHeader_encode prim shaped list rest, payload_length prim shaped list⟩⟩
    have header := prim.encodeHeader_length ⟨true, payloadLength prim node⟩ (payloadLength_lt prim shaped)
    have positive := prim.lengthOfLength_pos (payloadLength prim node)
    rw [encode_eq_payload prim list, List.length_append]
    simp only at header
    omega
  · cases shaped with
    | empty =>
        have item : IsItem prim (prim.encodeBytes []) := encodeBytes_item prim (by simp)
        simpa [encode, prim.encodeBytes_nil] using item
    | blinded commitment =>
        have size := commitment.2
        exact encodeBytes_item prim (by omega)
    | _ => exact absurd trivial list

theorem encodeChild_item {node : TrieNode} (shaped : Shaped node) : IsItem prim (encodeChild prim node) := by
  unfold encodeChild childEncoding
  split
  · have size := (blindOf prim node (encode prim node)).2
    exact encodeBytes_item prim (by omega)
  · exact encode_item prim shaped

theorem countElements_items (items : List (List UInt8)) (all : ∀ item ∈ items, IsItem prim item)
    (rest : List UInt8) (fuel : Nat) (enough : items.flatten.length < fuel) :
    countElements prim rest.length fuel (items.flatten ++ rest) = .ok items.length := by
  induction items generalizing fuel with
  | nil =>
      obtain ⟨fuel, rfl⟩ : ∃ k, fuel = k + 1 := ⟨fuel - 1, by simp at enough; omega⟩
      simp [countElements]
  | cons item items ih =>
      obtain ⟨fuel, rfl⟩ : ∃ k, fuel = k + 1 := ⟨fuel - 1, by omega⟩
      obtain ⟨positive, header, decodes⟩ := all item (by simp)
      obtain ⟨body, decoded, bodyLength⟩ := decodes (items.flatten ++ rest)
      simp only [List.flatten_cons, List.length_append] at enough
      have more : rest.length < (item ++ (items.flatten ++ rest)).length := by
        simp only [List.length_append]
        omega
      have skip : advance (body ++ (items.flatten ++ rest)) header.payloadLength = .ok (items.flatten ++ rest) := by
        simp [advance, ← bodyLength]
      have tail := ih (fun item member => all item (by simp [member])) fuel (by omega)
      rw [List.flatten_cons, List.append_assoc, countElements, if_pos more, decoded]
      simp only [fromRlp, ok_bind, skip, tail, List.length_cons]
      rfl

theorem listElementLength_items {node : TrieNode} (shaped : Shaped node) (list : IsList node) (items : List (List UInt8)) (shape : payload prim node = items.flatten)
    (all : ∀ item ∈ items, IsItem prim item) (rest : List UInt8) :
    rlpListElementLength prim (encode prim node ++ rest) = .ok items.length := by
  have header := decodeHeader_encode prim shaped list rest
  have lengths := payload_length prim shaped list
  have fits : payloadLength prim node ≤ (payload prim node ++ rest).length := by simp [lengths]
  have after : (payload prim node ++ rest).length - payloadLength prim node = rest.length := by simp [lengths]
  simp only [rlpListElementLength, header, fromRlp, ok_bind, if_true, fits, after]
  rw [shape]
  apply countElements_items prim items all
  simp only [List.length_append]
  omega

/-! ## Round trip -/

theorem decode_hash (hash : B256) (rest : List UInt8) (fuel : Nat) :
    decode prim (fuel + 1) (prim.encodeBytes hash.1 ++ rest) = .ok (.blinded hash, rest) := by
  have size := hash.2
  have header := prim.decodeHeader_bytes hash.1 rest (by omega)
  have bytes := prim.decodeBytes_encodeBytes hash.1 rest (by omega)
  simp only [decode, header, bytes, fromRlp, ok_bind, toB256, size, dif_pos]
  rfl

def DecodesBack (node : TrieNode) : Prop :=
  ∀ rest fuel, 3 * (encode prim node).length + 1 ≤ fuel →
    decode prim fuel (encode prim node ++ rest) = .ok (shallow prim node, rest)

def ChildDecodes (node : TrieNode) : Prop :=
  ∀ rest fuel, 3 * (encodeChild prim node).length + 1 ≤ fuel →
    decode prim fuel (encodeChild prim node ++ rest) = .ok (hidden prim node, rest)

variable {prim} in
theorem DecodesBack.child {node : TrieNode} (decodes : DecodesBack prim node) : ChildDecodes prim node := by
  intro rest fuel enough
  unfold encodeChild childEncoding hidden hiddenAs at *
  split
  · obtain ⟨fuel, rfl⟩ : ∃ k, fuel = k + 1 := ⟨fuel - 1, by omega⟩
    exact decode_hash prim _ rest fuel
  · rename_i small
    rw [if_neg small] at enough
    exact decodes rest fuel enough

theorem decodesBack_empty : DecodesBack prim .empty := by
  intro rest fuel enough
  obtain ⟨fuel, rfl⟩ : ∃ k, fuel = k + 1 := ⟨fuel - 1, by omega⟩
  have header := prim.decodeHeader_bytes [] rest (by simp)
  rw [prim.encodeBytes_nil] at header
  have one := prim.lengthOfLength_short 0 (by norm_num)
  simp only [List.cons_append, List.nil_append, List.length_nil] at header
  simp [encode, decode, header, fromRlp, one, advance, shallow, pure, Except.pure]

theorem decodeStack_encodeStack (stack : List TrieNode) (items : ∀ node ∈ stack, IsItem prim (encodeChild prim node))
    (decodes : ∀ node ∈ stack, ChildDecodes prim node) (fuel : Nat)
    (enough : 3 * (encodeStack prim stack).length + 2 ≤ fuel) :
    decodeStack prim fuel (encodeStack prim stack) = .ok (shallowStack prim stack) := by
  induction stack generalizing fuel with
  | nil =>
      obtain ⟨fuel, rfl⟩ : ∃ k, fuel = k + 1 := ⟨fuel - 1, by omega⟩
      simp [encodeStack, decodeStack, shallowStack]
  | cons node stack ih =>
      obtain ⟨fuel, rfl⟩ : ∃ k, fuel = k + 1 := ⟨fuel - 1, by omega⟩
      obtain ⟨positive, -⟩ := items node (by simp)
      change 3 * (encodeChild prim node ++ encodeStack prim stack).length + 2 ≤ fuel + 1 at enough
      rw [List.length_append] at enough
      have head := decodes node (by simp) (encodeStack prim stack) fuel (by omega)
      have tail := ih (fun node member => items node (by simp [member]))
        (fun node member => decodes node (by simp [member])) fuel (by omega)
      change decodeStack prim (fuel + 1) (encodeChild prim node ++ encodeStack prim stack) = _
      obtain ⟨b, bytes, shape⟩ : ∃ b bytes, encodeChild prim node ++ encodeStack prim stack = b :: bytes := by
        cases h : encodeChild prim node with
        | nil => simp [h] at positive
        | cons b bytes => exact ⟨b, _, rfl⟩
      rw [shape] at head ⊢
      simp only [decodeStack, head, tail, ok_bind]
      rfl

theorem decode_two {node : TrieNode} (shaped : Shaped node) (list : IsList node) {first second : List UInt8} (shape : payload prim node = first ++ second)
    (firstItem : IsItem prim first) (secondItem : IsItem prim second) (rest : List UInt8) (fuel : Nat) :
    decode prim (fuel + 1) (encode prim node ++ rest) =
      asUnexpectedList (tryDecodeLeafOrExtensionPayload prim fuel (first ++ (second ++ rest))) := by
  have header := decodeHeader_encode prim shaped list rest
  have count := listElementLength_items prim shaped list [first, second] (by simpa using shape)
    (by simp [firstItem, secondItem]) rest
  have headerLength := prim.encodeHeader_length ⟨true, payloadLength prim node⟩
    (payloadLength_lt prim shaped)
  have skip : advance (encode prim node ++ rest) (prim.lengthOfLength (payloadLength prim node)) =
      .ok (first ++ (second ++ rest)) := by
    simp only at headerLength
    rw [encode_eq_payload prim list, List.append_assoc, ← headerLength, shape, List.append_assoc]
    simp [advance]
  simp only [decode, header, count, skip, fromRlp, ok_bind, if_true, List.length_cons, List.length_nil,
    branchListLength]
  rfl

theorem decodesBack {node : TrieNode} (shaped : Shaped node) : DecodesBack prim node := by
  induction shaped with
  | empty => exact decodesBack_empty prim
  | blinded commitment =>
      intro rest fuel enough
      obtain ⟨fuel, rfl⟩ : ∃ k, fuel = k + 1 := ⟨fuel - 1, by omega⟩
      exact decode_hash prim commitment rest fuel
  | @leaf pfx value short valid =>
      have shaped : Shaped (.leaf pfx value) := .leaf short valid
      intro rest fuel enough
      have positive := (encode_item prim shaped).1
      obtain ⟨fuel, rfl⟩ : ∃ k, fuel = k + 3 := ⟨fuel - 3, by omega⟩
      obtain ⟨head, tail, shape, tailLength, kind, unpacks⟩ := encodePathLeaf_shape pfx valid true
      have pathBound : (encodePathLeaf pfx true).length < 2 ^ 64 := by
        unfold keyNibbles at short
        rw [shape, List.length_cons, tailLength]
        omega
      have fits := value.2
      have valueBound : value.1.length < 2 ^ 64 := by omega
      rw [decode_two prim shaped trivial rfl (encodeBytes_item prim pathBound) (encodeBytes_item prim valueBound)]
      have path := prim.decodeBytes_encodeBytes _ (prim.encodeBytes value.1 ++ rest) pathBound
      have bytes := prim.decodeBytes_encodeBytes value.1 rest valueBound
      have known : ¬ 3 < head.toNat / 16 := by simp only [if_true] at kind; omega
      have isLeaf : ¬ head.toNat / 16 < 2 := by simp only [if_true] at kind; omega
      rw [shape] at path ⊢
      simp only [tryDecodeLeafOrExtensionPayload, path, bytes, fromRlp, asRlpError, ok_bind, known, isLeaf,
        if_false, toBytes, fits, dif_pos, unpacks]
      rfl
  | @extension pfx node short valid child ih =>
      have shaped : Shaped (.extension pfx node) := .extension short valid child
      intro rest fuel enough
      have positive := (encode_item prim shaped).1
      obtain ⟨fuel, rfl⟩ : ∃ k, fuel = k + 3 := ⟨fuel - 3, by omega⟩
      obtain ⟨head, tail, shape, tailLength, kind, unpacks⟩ := encodePathLeaf_shape pfx valid false
      have pathBound : (encodePathLeaf pfx false).length < 2 ^ 64 := by
        unfold keyNibbles at short
        rw [shape, List.length_cons, tailLength]
        omega
      have childItem := encodeChild_item prim child
      rw [decode_two prim shaped trivial rfl (encodeBytes_item prim pathBound) childItem]
      have path := prim.decodeBytes_encodeBytes _ (encodeChild prim node ++ rest) pathBound
      have smaller : 3 * (encodeChild prim node).length + 1 ≤ fuel + 1 := by
        have list : IsList (.extension pfx node) := trivial
        rw [encode_eq_payload prim list] at enough
        simp only [payload, List.length_append] at enough
        have := (encodeBytes_item prim pathBound).1
        omega
      have inner := ih.child rest (fuel + 1) smaller
      have known : ¬ 3 < head.toNat / 16 := by simp only [Bool.false_eq_true, if_false] at kind; omega
      have isExtension : head.toNat / 16 < 2 := by simp only [Bool.false_eq_true, if_false] at kind; omega
      rw [shape] at path ⊢
      simp only [tryDecodeLeafOrExtensionPayload, path, inner, fromRlp, asRlpError, ok_bind, known, isExtension,
        if_false, if_true, unpacks]
      rfl
  | @branch stack width children ih =>
      have shaped : Shaped (.branch stack) := .branch width children
      intro rest fuel enough
      have positive := (encode_item prim shaped).1
      obtain ⟨fuel, rfl⟩ : ∃ k, fuel = k + 3 := ⟨fuel - 3, by omega⟩
      have items : ∀ node ∈ stack, IsItem prim (encodeChild prim node) := fun node member =>
        encodeChild_item prim (children node member)
      have decodes : ∀ node ∈ stack, ChildDecodes prim node := fun node member => (ih node member).child
      have header := decodeHeader_encode prim shaped trivial rest
      have lengths := payload_length prim shaped trivial
      have count := listElementLength_items prim shaped trivial (stack.map (encodeChild prim))
        (encodeStack_eq prim stack) (by simpa using items) rest
      have smaller : 3 * (encodeStack prim stack).length + 2 ≤ fuel + 2 := by
        have list : IsList (.branch stack) := trivial
        rw [encode_eq_payload prim list] at enough
        have headerLength := prim.encodeHeader_length ⟨true, payloadLength prim (.branch stack)⟩
          (payloadLength_lt prim shaped)
        have := prim.lengthOfLength_pos (payloadLength prim (.branch stack))
        simp only [payload, List.length_append] at enough headerLength
        omega
      have inner := decodeStack_encodeStack prim stack items decodes (fuel + 2) smaller
      have whole : decodeListPayload prim (encode prim (.branch stack) ++ rest) =
          .ok (encodeStack prim stack, rest) := by
        simp only [decodeListPayload, header, fromRlp, ok_bind, if_true, ← lengths]
        simp [payload, pure, Except.pure]
      simp only [decode, header, count, whole, inner, fromRlp, ok_bind, if_true, List.length_map, width]
      rfl

/-! ## The codec -/

def blindLarge (node : TrieNode) : TrieNode :=
  if 32 ≤ (encode prim node).length then .blinded (blind prim node) else node

def blindChildren : TrieNode → TrieNode
  | .extension pfx node => .extension pfx (blindLarge prim node)
  | .branch stack => .branch (stack.map (blindLarge prim))
  | node => node

theorem small_of_blindedLengthOf {length : Nat} (small : blindedLengthOf prim length < 32) : length < 32 := by
  have := prim.lengthOfLength_pos 32
  unfold blindedLengthOf at small
  split at small <;> omega

mutual

theorem shallow_of_small (node : TrieNode) (small : length prim node < 32) : shallow prim node = node := by
  match node with
  | .empty => rfl
  | .blinded commitment => rfl
  | .leaf pfx value => rfl
  | .extension pfx node =>
      have inner : length prim node < 32 := by
        apply small_of_blindedLengthOf prim
        simp only [length, lengthOf, payloadLength] at small ⊢
        omega
      have large : ¬ 32 ≤ length prim node := by omega
      rw [shallow, hiddenAs, if_neg large, shallow_of_small node inner]
  | .branch stack =>
      have inner : stackPayloadLength prim stack < 32 := by
        simp only [length, lengthOf, payloadLength] at small
        omega
      rw [shallow, shallowStack_of_small stack inner]

theorem shallowStack_of_small (stack : List TrieNode) (small : stackPayloadLength prim stack < 32) :
    shallowStack prim stack = stack := by
  match stack with
  | [] => rfl
  | node :: stack =>
      rw [stackPayloadLength] at small
      have inner : length prim node < 32 := small_of_blindedLengthOf prim (by unfold length; omega)
      have large : ¬ 32 ≤ length prim node := by omega
      rw [shallowStack, hiddenAs, if_neg large, shallow_of_small node inner, shallowStack_of_small stack (by omega)]

end

theorem hidden_eq_blindLarge {node : TrieNode} (shaped : Shaped node) : hidden prim node = blindLarge prim node := by
  unfold hidden hiddenAs blindLarge
  rw [encode_length prim shaped]
  split
  · rfl
  · exact shallow_of_small prim node (by omega)

theorem shallow_eq_blindChildren {node : TrieNode} (shaped : Shaped node) :
    shallow prim node = blindChildren prim node := by
  cases shaped with
  | empty => rfl
  | blinded commitment => rfl
  | leaf short valid => rfl
  | extension short valid child => exact congrArg (TrieNode.extension _) (hidden_eq_blindLarge prim child)
  | branch width children =>
      rw [shallow, shallowStack_eq, blindChildren]
      exact congrArg TrieNode.branch
        (List.map_congr_left fun node member => hidden_eq_blindLarge prim (children node member))

/-- The lengths that a node is encoded with are those of its bytes, and decoding them gives the node with its
large children blinded, which has the same hash. -/
theorem codec_roundTrip {node : TrieNode} (shaped : Shaped node) (rest : List UInt8) :
    (encode prim node).length = length prim node ∧
      (IsList node → ∃ payload, encode prim node = prim.encodeHeader ⟨true, payloadLength prim node⟩ ++ payload ∧
        payload.length = payloadLength prim node) ∧
      (∀ fuel, decodeFuel (encode prim node) ≤ fuel →
        decode prim fuel (encode prim node ++ rest) = .ok (blindChildren prim node, rest)) ∧
      blind prim (blindChildren prim node) = blind prim node := by
  refine ⟨encode_length prim shaped, ?_, ?_, ?_⟩
  · intro list
    exact ⟨payload prim node, encode_eq_payload prim list, payload_length prim shaped list⟩
  · intro fuel enough
    rw [← shallow_eq_blindChildren prim shaped]
    exact decodesBack prim shaped rest fuel (by unfold decodeFuel at enough; omega)
  · rw [← shallow_eq_blindChildren prim shaped, blind_shallow]

def largeLeaf : TrieNode := .leaf [1, 2, 3] ⟨List.replicate 40 7, by decide⟩

def smallLeaf : TrieNode := .leaf [4, 5] ⟨[9], by decide⟩

def mixedBranch : TrieNode := .branch (largeLeaf :: smallLeaf :: List.replicate 15 .empty)

theorem mixedBranch_shaped : Shaped mixedBranch := by
  refine .branch (by decide) ?_
  intro node member
  simp only [List.mem_cons, List.mem_replicate] at member
  rcases member with rfl | rfl | ⟨-, rfl⟩
  · exact .leaf (by decide) (by simp [Nibbles.Valid])
  · exact .leaf (by decide) (by simp [Nibbles.Valid])
  · exact .empty

def mixedPrimitives : Primitives := .tabulated [(encode (.tabulated []) largeLeaf, .ofNat 0x1234)]

theorem codec_roundTrip_mixedBranch :
    Shaped mixedBranch ∧
      decode mixedPrimitives (decodeFuel (encode mixedPrimitives mixedBranch)) (encode mixedPrimitives mixedBranch ++ [0xC0]) =
        .ok (.branch (.blinded (.ofNat 0x1234) :: smallLeaf :: List.replicate 15 .empty), [0xC0]) := by
  have decodes := (codec_roundTrip mixedPrimitives mixedBranch_shaped [0xC0]).2.2.1 _ (le_refl _)
  have hash : blind mixedPrimitives largeLeaf = .ofNat 0x1234 := by decide +kernel
  have large : blindLarge mixedPrimitives largeLeaf = .blinded (blind mixedPrimitives largeLeaf) :=
    if_pos (by decide +kernel)
  have small : blindLarge mixedPrimitives smallLeaf = smallLeaf := if_neg (by decide +kernel)
  have none : blindLarge mixedPrimitives .empty = .empty := if_neg (by decide +kernel)
  refine ⟨mixedBranch_shaped, decodes.trans ?_⟩
  simp only [mixedBranch, blindChildren, List.map_cons, List.map_replicate, large, small, none, hash]

end TrieNode

end KonaSoon.Mpt
