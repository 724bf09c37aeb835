import Mathlib

/-!
# Recursive length prefix encoding

`Rlp` is what a user of an RLP library may rely on: the header and byte string codecs together with
the laws that tie a decoder to its encoder. `Rlp.standard` is the published format and shows that
the laws can be met. Payload lengths are those of a 64-bit machine.
-/

namespace KonaSoon.Lib

inductive RlpError where
  | overflow
  | leadingZero
  | inputTooShort
  | nonCanonicalSingleByte
  | nonCanonicalSize
  | unexpectedLength
  | unexpectedString
  | unexpectedList
  | custom (text : String)
deriving DecidableEq, Repr

structure Rlp.Header where
  list : Bool
  payloadLength : Nat
deriving DecidableEq, Repr

def Rlp.selfEncoded : List UInt8 → Bool
  | [b] => b.toNat < 0x80
  | _ => false

structure Rlp where
  encodeHeader : Rlp.Header → List UInt8
  decodeHeader : List UInt8 → Except RlpError (Rlp.Header × List UInt8)
  encodeBytes : List UInt8 → List UInt8
  decodeBytes : List UInt8 → Except RlpError (List UInt8 × List UInt8)
  lengthOfLength : Nat → Nat
  lengthOfLength_short : ∀ n, n < 56 → lengthOfLength n = 1
  lengthOfLength_pos : ∀ n, 0 < lengthOfLength n
  lengthOfLength_le : ∀ n, n < 2 ^ 64 → lengthOfLength n ≤ 9
  encodeHeader_length : ∀ h, h.payloadLength < 2 ^ 64 →
    (encodeHeader h).length = lengthOfLength h.payloadLength
  decodeHeader_list : ∀ payload rest, payload.length < 2 ^ 64 →
    decodeHeader (encodeHeader ⟨true, payload.length⟩ ++ (payload ++ rest)) =
      .ok (⟨true, payload.length⟩, payload ++ rest)
  decodeHeader_bytes : ∀ bytes rest, bytes.length < 2 ^ 64 →
    decodeHeader (encodeBytes bytes ++ rest) = .ok (⟨false, bytes.length⟩, bytes ++ rest)
  decodeBytes_encodeBytes : ∀ bytes rest, bytes.length < 2 ^ 64 →
    decodeBytes (encodeBytes bytes ++ rest) = .ok (bytes, rest)
  encodeBytes_nil : encodeBytes [] = [0x80]
  encodeBytes_length : ∀ bytes, bytes.length < 2 ^ 64 → (encodeBytes bytes).length =
    if Rlp.selfEncoded bytes then 1 else lengthOfLength bytes.length + bytes.length

namespace Rlp

def bytesLength (rlp : Rlp) (bytes : List UInt8) : Nat :=
  if selfEncoded bytes then 1 else rlp.lengthOfLength bytes.length + bytes.length

/-! ## The published format -/

def bigEndian (n : Nat) : List UInt8 := ((Nat.digits 256 n).map UInt8.ofNat).reverse

def ofBigEndian (bytes : List UInt8) : Nat := Nat.ofDigits 256 (bytes.reverse.map UInt8.toNat)

theorem ofBigEndian_bigEndian (n : Nat) : ofBigEndian (bigEndian n) = n := by
  have digits : ((Nat.digits 256 n).map UInt8.ofNat).map UInt8.toNat = Nat.digits 256 n := by
    rw [List.map_map, List.map_congr_left (g := id), List.map_id]
    intro d member
    have bound : d < 256 := Nat.digits_lt_base (by norm_num) member
    simp [Nat.mod_eq_of_lt bound]
  rw [ofBigEndian, bigEndian, List.reverse_reverse, digits, Nat.ofDigits_digits]

theorem bigEndian_length_le {n : Nat} (bound : n < 2 ^ 64) : (bigEndian n).length ≤ 8 := by
  have : n < 256 ^ 8 := by simpa using bound
  simpa [bigEndian] using (Nat.digits_length_le_iff (b := 256) (by norm_num) n).mpr this

theorem bigEndian_head {n : Nat} (positive : n ≠ 0) :
    ∃ b bytes, bigEndian n = b :: bytes ∧ b ≠ 0 := by
  have nonempty : Nat.digits 256 n ≠ [] := Nat.digits_ne_nil_iff_ne_zero.mpr positive
  refine ⟨UInt8.ofNat ((Nat.digits 256 n).getLast nonempty),
    ((Nat.digits 256 n).dropLast.map UInt8.ofNat).reverse, ?_, ?_⟩
  · conv_lhs => rw [bigEndian, ← List.dropLast_append_getLast nonempty]
    simp
  · have last := Nat.getLast_digit_ne_zero 256 positive
    have bound : (Nat.digits 256 n).getLast nonempty < 256 :=
      Nat.digits_lt_base (by norm_num) (List.getLast_mem nonempty)
    intro zero
    have := congrArg UInt8.toNat zero
    simp [Nat.mod_eq_of_lt bound] at this
    exact last this

def standardEncodeHeader (h : Header) : List UInt8 :=
  if h.payloadLength < 56 then
    [UInt8.ofNat ((if h.list then 0xc0 else 0x80) + h.payloadLength)]
  else
    UInt8.ofNat ((if h.list then 0xf7 else 0xb7) + (bigEndian h.payloadLength).length) ::
      bigEndian h.payloadLength

def standardEncodeBytes (bytes : List UInt8) : List UInt8 :=
  if selfEncoded bytes then bytes else standardEncodeHeader ⟨false, bytes.length⟩ ++ bytes

/-- The payload length of a long header, in the `size` bytes that follow its first byte. -/
def decodeLong (size : Nat) (buf : List UInt8) : Except RlpError (Nat × List UInt8) :=
  if buf.length < size then .error .inputTooShort
  else if (buf.take size).head? = some 0 then .error .leadingZero
  else if ofBigEndian (buf.take size) < 56 then .error .nonCanonicalSize
  else .ok (ofBigEndian (buf.take size), buf.drop size)

def standardDecodeHeader : List UInt8 → Except RlpError (Header × List UInt8)
  | [] => .error .inputTooShort
  | b :: rest => do
      let (header, buf) ←
        if b.toNat < 0x80 then .ok ((⟨false, 1⟩ : Header), b :: rest)
        else if b.toNat < 0xb8 then
          if b.toNat = 0x81 ∧ (rest.head?.any fun c => c.toNat < 0x80) then
            .error .nonCanonicalSingleByte
          else .ok (⟨false, b.toNat - 0x80⟩, rest)
        else if b.toNat < 0xc0 then
          (decodeLong (b.toNat - 0xb7) rest).map fun (n, buf) => (⟨false, n⟩, buf)
        else if b.toNat < 0xf8 then .ok (⟨true, b.toNat - 0xc0⟩, rest)
        else (decodeLong (b.toNat - 0xf7) rest).map fun (n, buf) => (⟨true, n⟩, buf)
      if buf.length < header.payloadLength then .error .inputTooShort else .ok (header, buf)

def standardDecodeBytes (buf : List UInt8) : Except RlpError (List UInt8 × List UInt8) := do
  let (header, rest) ← standardDecodeHeader buf
  if header.list then .error .unexpectedList
  else .ok (rest.take header.payloadLength, rest.drop header.payloadLength)

def standardLengthOfLength (n : Nat) : Nat := if n < 56 then 1 else 1 + (bigEndian n).length

theorem decodeLong_bigEndian {n : Nat} (long : 56 ≤ n) (rest : List UInt8) :
    decodeLong (bigEndian n).length (bigEndian n ++ rest) = .ok (n, rest) := by
  obtain ⟨b, bytes, shape, nonzero⟩ := bigEndian_head (n := n) (by omega)
  have head : (bigEndian n).head? ≠ some 0 := by simpa [shape] using nonzero
  have value := ofBigEndian_bigEndian n
  simp only [decodeLong, List.length_append, List.take_left, List.drop_left, value, head, if_false]
  rw [if_neg (by omega), if_neg (by omega)]

theorem standardDecodeHeader_encode (h : Header) (tail : List UInt8)
    (bound : h.payloadLength < 2 ^ 64) (covers : h.payloadLength ≤ tail.length)
    (canonical : h.list = false → h.payloadLength = 1 → tail.head?.any (fun c => c.toNat < 0x80) = false) :
    standardDecodeHeader (standardEncodeHeader h ++ tail) = .ok (h, tail) := by
  obtain ⟨list, n⟩ := h
  simp only at bound covers canonical
  have short : ¬ tail.length < n := by omega
  by_cases small : n < 56
  · cases list with
    | false =>
        have first : (UInt8.ofNat (0x80 + n)).toNat = 0x80 + n := by simp; omega
        have single : ¬ (0x80 + n = 0x81 ∧ tail.head?.any (fun c => c.toNat < 0x80) = true) := by
          rintro ⟨one, any⟩
          simp [canonical rfl (by omega)] at any
        simp only [standardEncodeHeader, small, if_true, Bool.false_eq_true, if_false,
          List.cons_append, List.nil_append, standardDecodeHeader, first, bind, Except.bind]
        rw [if_neg (by omega), if_pos (by omega), if_neg single, Nat.add_sub_cancel_left]
        simp [short]
    | true =>
        have first : (UInt8.ofNat (0xc0 + n)).toNat = 0xc0 + n := by simp; omega
        simp only [standardEncodeHeader, small, if_true, List.cons_append, List.nil_append,
          standardDecodeHeader, first, bind, Except.bind]
        rw [if_neg (by omega), if_neg (by omega), if_neg (by omega), if_pos (by omega)]
        simp [short]
  · have size := bigEndian_length_le bound
    obtain ⟨b, bytes, shape, -⟩ := bigEndian_head (n := n) (by omega)
    have nonempty : 0 < (bigEndian n).length := by simp [shape]
    have long := decodeLong_bigEndian (n := n) (by omega) tail
    cases list with
    | false =>
        have first : (UInt8.ofNat (0xb7 + (bigEndian n).length)).toNat = 0xb7 + (bigEndian n).length := by
          simp; omega
        simp only [standardEncodeHeader, small, Bool.false_eq_true, if_false,
          List.cons_append, standardDecodeHeader, first, bind, Except.bind]
        rw [if_neg (by omega), if_neg (by omega), if_pos (by omega), Nat.add_sub_cancel_left, long]
        simp [Except.map, short]
    | true =>
        have first : (UInt8.ofNat (0xf7 + (bigEndian n).length)).toNat = 0xf7 + (bigEndian n).length := by
          simp; omega
        simp only [standardEncodeHeader, small, if_true, if_false, List.cons_append,
          standardDecodeHeader, first, bind, Except.bind]
        rw [if_neg (by omega), if_neg (by omega), if_neg (by omega), if_neg (by omega),
          Nat.add_sub_cancel_left, long]
        simp [Except.map, short]

theorem standardDecodeHeader_bytes (bytes rest : List UInt8) (bound : bytes.length < 2 ^ 64) :
    standardDecodeHeader (standardEncodeBytes bytes ++ rest) =
      .ok (⟨false, bytes.length⟩, bytes ++ rest) := by
  by_cases own : selfEncoded bytes = true
  · match bytes, own with
    | [b], own =>
        have small : b.toNat < 0x80 := by simpa [selfEncoded] using own
        simp [standardEncodeBytes, own, standardDecodeHeader, small, bind, Except.bind]
  · rw [standardEncodeBytes, if_neg own, List.append_assoc]
    apply standardDecodeHeader_encode _ _ bound (by simp)
    intro _ one
    match bytes, one, own with
    | [b], _, own => simpa [selfEncoded] using own

theorem standardEncodeHeader_length (h : Header) :
    (standardEncodeHeader h).length = standardLengthOfLength h.payloadLength := by
  unfold standardEncodeHeader standardLengthOfLength
  split <;> simp [Nat.add_comm]

def standard : Rlp where
  encodeHeader := standardEncodeHeader
  decodeHeader := standardDecodeHeader
  encodeBytes := standardEncodeBytes
  decodeBytes := standardDecodeBytes
  lengthOfLength := standardLengthOfLength
  lengthOfLength_short n short := by simp [standardLengthOfLength, short]
  lengthOfLength_pos n := by unfold standardLengthOfLength; split <;> omega
  lengthOfLength_le n bound := by
    have := bigEndian_length_le bound
    unfold standardLengthOfLength
    split <;> omega
  encodeHeader_length h _ := standardEncodeHeader_length h
  decodeHeader_list payload rest bound :=
    standardDecodeHeader_encode _ _ bound (by simp) (by simp)
  decodeHeader_bytes := standardDecodeHeader_bytes
  decodeBytes_encodeBytes bytes rest bound := by
    simp [standardDecodeBytes, standardDecodeHeader_bytes bytes rest bound, bind, Except.bind]
  encodeBytes_nil := by decide
  encodeBytes_length bytes _ := by
    unfold standardEncodeBytes
    split
    · rename_i own
      match bytes, own with
      | [_], _ => rfl
    · simp [standardEncodeHeader_length]

/-- The payload of a list lies within the bytes of its header: a decoder checks this before it returns one. -/
def HeaderFits (rlp : Rlp) : Prop :=
  ∀ buf header rest, rlp.decodeHeader buf = .ok (header, rest) → header.list →
    header.payloadLength + rlp.lengthOfLength header.payloadLength ≤ buf.length

/-- A decoder reads from the front of its input, and only what a header announces and holds. Lengths are read in
their shortest form, so the bytes of a list header are known from its payload length. -/
structure Exact (rlp : Rlp) : Prop where
  fits : ∀ {buf header after}, rlp.decodeHeader buf = .ok (header, after) →
    header.payloadLength ≤ after.length
  list : ∀ {buf header after}, rlp.decodeHeader buf = .ok (header, after) → header.list →
    rlp.lengthOfLength header.payloadLength ≤ buf.length ∧
      after = buf.drop (rlp.lengthOfLength header.payloadLength)
  string : ∀ {buf header after}, rlp.decodeHeader buf = .ok (header, after) → header.list = false →
    (after = buf ∧ header.payloadLength = 1) ∨
      (rlp.lengthOfLength header.payloadLength ≤ buf.length ∧
        after = buf.drop (rlp.lengthOfLength header.payloadLength))
  bytes : ∀ buf, rlp.decodeBytes buf = rlp.decodeHeader buf >>= fun (header, after) =>
    if header.list then .error .unexpectedList
    else .ok (after.take header.payloadLength, after.drop header.payloadLength)

theorem Exact.headerFits {rlp : Rlp} (reads : rlp.Exact) : rlp.HeaderFits := by
  intro buf header after ok list
  have fits := reads.fits ok
  obtain ⟨inside, same⟩ := reads.list ok list
  rw [same, List.length_drop] at fits
  omega

theorem bigEndian_ofBigEndian {bytes : List UInt8} (head : bytes.head? ≠ some 0) :
    bigEndian (ofBigEndian bytes) = bytes := by
  have digits : Nat.digits 256 (Nat.ofDigits 256 (bytes.reverse.map UInt8.toNat)) = bytes.reverse.map UInt8.toNat := by
    apply Nat.digits_ofDigits 256 (by norm_num)
    · intro d member
      obtain ⟨byte, -, rfl⟩ := List.mem_map.mp member
      exact byte.toNat_lt
    · intro nonempty zero
      rw [List.getLast_map, List.getLast_reverse] at zero
      apply head
      rw [List.head?_eq_some_head (by simpa using nonempty)]
      exact congrArg some (UInt8.toNat_inj.mp zero)
  rw [bigEndian, ofBigEndian, digits, List.map_map, ← List.map_reverse, List.reverse_reverse]
  exact (List.map_congr_left fun byte _ => UInt8.ofNat_toNat).trans (List.map_id _)

theorem decodeLong_exact {size n : Nat} {buf rest : List UInt8} (ok : decodeLong size buf = .ok (n, rest)) :
    standardLengthOfLength n = 1 + size ∧ size ≤ buf.length ∧ rest = buf.drop size := by
  unfold decodeLong at ok
  split at ok
  · cases ok
  · split at ok
    · cases ok
    · split at ok
      · cases ok
      · rename_i enough head long
        cases ok
        have length : (buf.take size).length = size := List.length_take_of_le (Nat.not_lt.mp enough)
        refine ⟨?_, Nat.not_lt.mp enough, rfl⟩
        rw [standardLengthOfLength, if_neg long, bigEndian_ofBigEndian head, length]

theorem standardDecodeHeader_ok {buf after : List UInt8} {header : Header}
    (ok : standardDecodeHeader buf = .ok (header, after)) :
    header.payloadLength ≤ after.length ∧
      ((header.list = false ∧ after = buf ∧ header.payloadLength = 1) ∨
        (standardLengthOfLength header.payloadLength ≤ buf.length ∧
          after = buf.drop (standardLengthOfLength header.payloadLength))) := by
  cases buf with
  | nil => cases ok
  | cons b bytes =>
      simp only [standardDecodeHeader, bind, Except.bind] at ok
      have short : ∀ n < 56, standardLengthOfLength n ≤ (b :: bytes).length ∧
          bytes = (b :: bytes).drop (standardLengthOfLength n) := by
        intro n small
        rw [standardLengthOfLength, if_pos small]
        exact ⟨by simp, rfl⟩
      have long : ∀ size n rest, decodeLong size bytes = .ok (n, rest) →
          standardLengthOfLength n ≤ (b :: bytes).length ∧ rest = (b :: bytes).drop (standardLengthOfLength n) := by
        intro size n rest read
        obtain ⟨lengths, inside, rfl⟩ := decodeLong_exact read
        rw [lengths, Nat.add_comm]
        exact ⟨by simpa using inside, rfl⟩
      split at ok
      · split at ok
        · cases ok
        · rename_i enough
          cases ok
          exact ⟨Nat.not_lt.mp enough, .inl ⟨rfl, rfl, rfl⟩⟩
      · split at ok
        · split at ok
          · cases ok
          · split at ok
            · cases ok
            · rename_i enough
              cases ok
              exact ⟨Nat.not_lt.mp enough, .inr (short _ (by simp only; omega))⟩
        · split at ok
          · cases found : decodeLong (b.toNat - 0xb7) bytes with
            | error e =>
                rw [found] at ok
                cases ok
            | ok entry =>
                simp only [found, Except.map] at ok
                split at ok
                · cases ok
                · rename_i enough
                  cases ok
                  exact ⟨Nat.not_lt.mp enough, .inr (long _ _ _ found)⟩
          · split at ok
            · split at ok
              · cases ok
              · rename_i enough
                cases ok
                exact ⟨Nat.not_lt.mp enough, .inr (short _ (by simp only; omega))⟩
            · cases found : decodeLong (b.toNat - 0xf7) bytes with
              | error e =>
                  rw [found] at ok
                  cases ok
              | ok entry =>
                  simp only [found, Except.map] at ok
                  split at ok
                  · cases ok
                  · rename_i enough
                    cases ok
                    exact ⟨Nat.not_lt.mp enough, .inr (long _ _ _ found)⟩

theorem standard_exact : standard.Exact where
  fits ok := (standardDecodeHeader_ok ok).1
  list {buf header after} ok isList := by
    rcases (standardDecodeHeader_ok ok).2 with ⟨string, -⟩ | read
    · rw [string] at isList
      cases isList
    · exact read
  string {buf header after} ok _ := by
    rcases (standardDecodeHeader_ok ok).2 with ⟨-, single⟩ | read
    · exact .inl single
    · exact .inr read
  bytes buf := rfl

theorem standard_headerFits : standard.HeaderFits := standard_exact.headerFits

/-! ## Lists of single bytes -/

def standardEncodeByte (b : UInt8) : List UInt8 := standardEncodeBytes (if b = 0 then [] else [b])

def standardEncodeVec (bytes : List UInt8) : List UInt8 :=
  standardEncodeHeader ⟨true, (bytes.flatMap standardEncodeByte).length⟩ ++ bytes.flatMap standardEncodeByte

def decodeItems : List UInt8 → Except RlpError (List UInt8)
  | [] => .ok []
  | b :: rest =>
      if b = 0 then .error .leadingZero
      else if b.toNat < 0x80 then (decodeItems rest).map (b :: ·)
      else if b = 0x80 then (decodeItems rest).map (0 :: ·)
      else if b = 0x81 then
        match rest with
        | [] => .error .inputTooShort
        | c :: rest => if c.toNat < 0x80 then .error .nonCanonicalSingleByte else (decodeItems rest).map (c :: ·)
      else if b.toNat < 0xc0 then .error .overflow
      else .error .unexpectedList

def standardDecodeVec (buf : List UInt8) : Except RlpError (List UInt8) := do
  let (header, rest) ← standardDecodeHeader buf
  if header.list then decodeItems (rest.take header.payloadLength) else .error .unexpectedString

theorem standardEncodeByte_eq (b : UInt8) :
    standardEncodeByte b = if b = 0 then [0x80] else if b.toNat < 0x80 then [b] else [0x81, b] := by
  unfold standardEncodeByte
  by_cases zero : b = 0
  · simp only [zero, if_true]
    decide
  · by_cases small : b.toNat < 0x80
    · simp [zero, small, standardEncodeBytes, selfEncoded]
    · simp [zero, small, standardEncodeBytes, selfEncoded, standardEncodeHeader]

theorem map_cons_eq_ok {b : UInt8} {decoded : Except RlpError (List UInt8)} {bytes : List UInt8} :
    decoded.map (b :: ·) = .ok bytes ↔ ∃ later, bytes = b :: later ∧ decoded = .ok later := by
  cases decoded with
  | error e => simp [Except.map]
  | ok later => simp [Except.map, eq_comm]

theorem decodeItems_encode (bytes : List UInt8) : decodeItems (bytes.flatMap standardEncodeByte) = .ok bytes := by
  induction bytes with
  | nil => rfl
  | cons b bytes ih =>
      rw [List.flatMap_cons, standardEncodeByte_eq]
      by_cases zero : b = 0
      · rw [if_pos zero, List.singleton_append, decodeItems.eq_def]
        simp [zero, ih, Except.map]
      · by_cases small : b.toNat < 0x80
        · rw [if_neg zero, if_pos small, List.singleton_append, decodeItems.eq_def]
          simp [zero, small, ih, Except.map]
        · rw [if_neg zero, if_neg small, List.cons_append, decodeItems.eq_def]
          simp [small, ih, Except.map]

theorem encode_of_decodeItems {payload bytes : List UInt8} (ok : decodeItems payload = .ok bytes) :
    payload = bytes.flatMap standardEncodeByte := by
  fun_induction decodeItems payload generalizing bytes with
  | case1 => cases ok; rfl
  | case2 => cases ok
  | case3 b rest nonzero small ih =>
      obtain ⟨later, rfl, read⟩ := map_cons_eq_ok.mp ok
      rw [List.flatMap_cons, standardEncodeByte_eq, if_neg nonzero, if_pos small, ← ih read]
      rfl
  | case4 rest nonzero large ih =>
      obtain ⟨later, rfl, read⟩ := map_cons_eq_ok.mp ok
      rw [List.flatMap_cons, standardEncodeByte_eq, if_pos rfl, ← ih read]
      rfl
  | case5 => cases ok
  | case6 => cases ok
  | case7 c rest large _ _ _ ih =>
      obtain ⟨later, rfl, read⟩ := map_cons_eq_ok.mp ok
      have nonzero : c ≠ 0 := by
        rintro rfl
        exact large (by decide)
      rw [List.flatMap_cons, standardEncodeByte_eq, if_neg nonzero, if_neg large, ← ih read]
      rfl
  | case8 => cases ok
  | case9 => cases ok

theorem encode_of_decodeLong {size n : Nat} {buf rest : List UInt8} (ok : decodeLong size buf = .ok (n, rest)) :
    buf = bigEndian n ++ rest ∧ (bigEndian n).length = size ∧ 56 ≤ n := by
  unfold decodeLong at ok
  split at ok
  · cases ok
  · split at ok
    · cases ok
    · split at ok
      · cases ok
      · rename_i enough head long
        cases ok
        rw [bigEndian_ofBigEndian head]
        exact ⟨(List.take_append_drop size buf).symm, List.length_take_of_le (Nat.not_lt.mp enough),
          Nat.not_lt.mp long⟩

theorem ofNat_add_sub {b : UInt8} {k : Nat} (le : k ≤ b.toNat) : UInt8.ofNat (k + (b.toNat - k)) = b := by
  rw [Nat.add_sub_cancel' le, UInt8.ofNat_toNat]

theorem encode_of_standardDecodeHeader {buf after : List UInt8} {n : Nat}
    (ok : standardDecodeHeader buf = .ok (⟨true, n⟩, after)) :
    buf = standardEncodeHeader ⟨true, n⟩ ++ after := by
  cases buf with
  | nil => cases ok
  | cons b bytes =>
      have byte := b.toNat_lt
      simp only [standardDecodeHeader, bind, Except.bind] at ok
      split at ok
      · split at ok <;> cases ok
      · split at ok
        · split at ok
          · cases ok
          · split at ok <;> cases ok
        · split at ok
          · cases found : decodeLong (b.toNat - 0xb7) bytes with
            | error e => 
                rw [found] at ok
                cases ok
            | ok entry =>
                simp only [found, Except.map] at ok
                split at ok <;> cases ok
          · split at ok
            · rename_i above below
              split at ok
              · cases ok
              · simp only [Except.ok.injEq, Prod.mk.injEq, Header.mk.injEq, true_and] at ok
                obtain ⟨rfl, rfl⟩ := ok
                have small : b.toNat - 0xc0 < 56 := by omega
                simp [standardEncodeHeader, small, ofNat_add_sub (Nat.not_lt.mp above)]
            · rename_i above
              cases found : decodeLong (b.toNat - 0xf7) bytes with
              | error e => 
                rw [found] at ok
                cases ok
              | ok entry =>
                  obtain ⟨size, rest⟩ := entry
                  simp only [found, Except.map] at ok
                  split at ok
                  · cases ok
                  · cases ok
                    obtain ⟨rfl, length, long⟩ := encode_of_decodeLong found
                    have same : UInt8.ofNat (0xf7 + (bigEndian n).length) = b := by
                      rw [length]
                      exact ofNat_add_sub (by omega)
                    simp only [standardEncodeHeader, if_neg (Nat.not_lt.mpr long), if_true, same, List.cons_append]

theorem standardDecodeVec_iff {buf bytes : List UInt8} (bound : buf.length < 2 ^ 64) :
    standardDecodeVec buf = .ok bytes ↔ ∃ rest, buf = standardEncodeVec bytes ++ rest := by
  constructor
  · intro ok
    cases header : standardDecodeHeader buf with
    | error e => simp [standardDecodeVec, header, bind, Except.bind] at ok
    | ok read =>
        obtain ⟨⟨isList, n⟩, after⟩ := read
        simp only [standardDecodeVec, header, bind, Except.bind] at ok
        cases isList with
        | false => cases ok
        | true =>
            have payload := encode_of_decodeItems ok
            have length : (after.take n).length = n := List.length_take_of_le (standardDecodeHeader_ok header).1
            refine ⟨after.drop n, ?_⟩
            rw [standardEncodeVec, ← payload, length, List.append_assoc, List.take_append_drop]
            exact encode_of_standardDecodeHeader header
  · rintro ⟨rest, rfl⟩
    have inside : (bytes.flatMap standardEncodeByte).length < 2 ^ 64 := by
      rw [standardEncodeVec, List.length_append, List.length_append] at bound
      omega
    rw [standardDecodeVec, standardEncodeVec, List.append_assoc,
      standardDecodeHeader_encode _ _ inside (by simp) (by simp)]
    simp only [bind, Except.bind, if_true, List.take_left]
    exact decodeItems_encode bytes

end Rlp

end KonaSoon.Lib
