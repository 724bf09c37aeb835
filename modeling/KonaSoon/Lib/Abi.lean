import KonaSoon.Lib.Bytes

namespace KonaSoon.Lib.Abi

inductive Token where
  | fixedBytes (bytes : FixedBytes 32)
  | address (bytes : FixedBytes 20)
  | uint (value : BitVec 256)
  | bytes (bytes : List UInt8)
deriving DecidableEq, Repr

inductive Kind where
  | fixedBytes
  | address
  | uint
  | bytes
deriving DecidableEq, Repr

def Token.kind : Token → Kind
  | fixedBytes _ => .fixedBytes
  | address _ => .address
  | uint _ => .uint
  | bytes _ => .bytes

def Token.Fits : Token → Prop
  | bytes content => content.length < 2 ^ 32
  | _ => True

def padded (length : Nat) : Nat := (length + 31) / 32 * 32

def Token.tailLength : Token → Nat
  | bytes content => 32 + padded content.length
  | _ => 0

def encodedLength (tokens : List Token) : Nat := (tokens.map fun token => 32 + token.tailLength).sum

/-- What is known of an encoder: the length of what it writes, and that arguments of the same kinds are told
apart by it. -/
structure Lawful (encode : List Token → List UInt8) : Prop where
  length : ∀ tokens, (∀ token ∈ tokens, token.Fits) → (encode tokens).length = encodedLength tokens
  injective : ∀ tokens tokens', (∀ token ∈ tokens, token.Fits) → (∀ token ∈ tokens', token.Fits) →
    tokens.map Token.kind = tokens'.map Token.kind → encode tokens = encode tokens' → tokens = tokens'

def word (value : Nat) : List UInt8 := (bigEndian 32 value).1

def padRight (bytes : List UInt8) : List UInt8 := bytes ++ List.replicate (padded bytes.length - bytes.length) 0

def Token.head (offset : Nat) : Token → List UInt8
  | fixedBytes content => content.1
  | address content => List.replicate 12 0 ++ content.1
  | uint value => word value.toNat
  | bytes _ => word offset

def Token.tail : Token → List UInt8
  | bytes content => word content.length ++ padRight content
  | _ => []

def heads : Nat → List Token → List UInt8
  | _, [] => []
  | offset, token :: tokens => token.head offset ++ heads (offset + token.tailLength) tokens

def encode (tokens : List Token) : List UInt8 := heads (32 * tokens.length) tokens ++ tokens.flatMap Token.tail

theorem length_word (value : Nat) : (word value).length = 32 := (bigEndian 32 value).2

theorem word_inj {value value' : Nat} (fits : value < 2 ^ 256) (fits' : value' < 2 ^ 256) (same : word value = word value') :
    value = value' := by
  have bound : (256 : Nat) ^ 32 = 2 ^ 256 := by norm_num
  rw [← bound] at fits fits'
  calc value = ofBigEndian (word value) := (ofBigEndian_bigEndian fits).symm
    _ = ofBigEndian (word value') := congrArg ofBigEndian same
    _ = value' := ofBigEndian_bigEndian fits'

theorem length_padRight (bytes : List UInt8) : (padRight bytes).length = padded bytes.length := by
  have wide : bytes.length ≤ padded bytes.length := by
    unfold padded
    omega
  rw [padRight, List.length_append, List.length_replicate]
  omega

theorem padRight_inj {bytes bytes' : List UInt8} (length : bytes.length = bytes'.length)
    (same : padRight bytes = padRight bytes') : bytes = bytes' :=
  (List.append_inj same length).1

theorem Token.length_head (offset : Nat) (token : Token) : (token.head offset).length = 32 := by
  cases token with
  | fixedBytes content => exact content.2
  | address content => rw [head, List.length_append, List.length_replicate, content.2]
  | uint value => exact length_word _
  | bytes content => exact length_word _

theorem Token.length_tail (token : Token) : token.tail.length = token.tailLength := by
  cases token with
  | bytes content => rw [tail, List.length_append, length_word, length_padRight, tailLength]
  | fixedBytes content => rfl
  | address content => rfl
  | uint value => rfl

theorem length_heads (offset : Nat) (tokens : List Token) : (heads offset tokens).length = 32 * tokens.length := by
  induction tokens generalizing offset with
  | nil => rfl
  | cons token tokens ih =>
      rw [heads, List.length_append, token.length_head, ih, List.length_cons]
      omega

theorem length_encode (tokens : List Token) : (encode tokens).length = encodedLength tokens := by
  rw [encode, List.length_append, length_heads]
  induction tokens with
  | nil => rfl
  | cons token tokens ih =>
      simp only [encodedLength, List.map_cons, List.sum_cons, List.flatMap_cons, List.length_append, token.length_tail,
        List.length_cons] at ih ⊢
      omega

theorem heads_tails_inj {tokens tokens' : List Token} (fits : ∀ token ∈ tokens, token.Fits)
    (fits' : ∀ token ∈ tokens', token.Fits) (kinds : tokens.map Token.kind = tokens'.map Token.kind) {offset offset' : Nat}
    (sameHeads : heads offset tokens = heads offset' tokens')
    (sameTails : tokens.flatMap Token.tail = tokens'.flatMap Token.tail) : tokens = tokens' := by
  induction tokens generalizing tokens' offset offset' with
  | nil =>
      cases tokens' with
      | nil => rfl
      | cons token' tokens' => cases kinds
  | cons token tokens ih =>
      cases tokens' with
      | nil => cases kinds
      | cons token' tokens' =>
          obtain ⟨kind, kinds⟩ := List.cons.inj kinds
          obtain ⟨head, sameHeads⟩ := List.append_inj sameHeads (by rw [Token.length_head, Token.length_head])
          have fit := fits token List.mem_cons_self
          have fit' := fits' token' List.mem_cons_self
          have later : token = token' → tokens.flatMap Token.tail = tokens'.flatMap Token.tail →
              token :: tokens = token' :: tokens' := by
            intro first rest
            rw [first, ih (fun t mem => fits t (List.mem_cons_of_mem _ mem))
              (fun t mem => fits' t (List.mem_cons_of_mem _ mem)) kinds sameHeads rest]
          cases token with
          | fixedBytes content =>
              cases token' with
              | fixedBytes content' => exact later (congrArg Token.fixedBytes (Subtype.ext head)) sameTails
              | _ => cases kind
          | address content =>
              cases token' with
              | address content' =>
                  exact later (congrArg Token.address (Subtype.ext (List.append_cancel_left head))) sameTails
              | _ => cases kind
          | uint value =>
              cases token' with
              | uint value' =>
                  have values := word_inj value.isLt value'.isLt head
                  exact later (congrArg Token.uint (BitVec.eq_of_toNat_eq values)) sameTails
              | _ => cases kind
          | bytes content =>
              cases token' with
              | bytes content' =>
                  simp only [List.flatMap_cons, Token.tail, List.append_assoc] at sameTails
                  obtain ⟨lengths, sameTails⟩ := List.append_inj sameTails (by rw [length_word, length_word])
                  have length : content.length = content'.length :=
                    word_inj (lt_trans fit (by norm_num)) (lt_trans fit' (by norm_num)) lengths
                  obtain ⟨contents, sameTails⟩ := List.append_inj sameTails (by
                    rw [length_padRight, length_padRight, length])
                  exact later (congrArg Token.bytes (padRight_inj length contents)) sameTails
              | _ => cases kind

theorem encode_lawful : Lawful encode where
  length tokens _ := length_encode tokens
  injective tokens tokens' fits fits' kinds same := by
    have lengths : tokens.length = tokens'.length := by
      rw [← List.length_map (f := Token.kind), kinds, List.length_map]
    obtain ⟨sameHeads, sameTails⟩ := List.append_inj same (by rw [length_heads, length_heads, lengths])
    exact heads_tails_inj fits fits' kinds sameHeads sameTails

end KonaSoon.Lib.Abi
