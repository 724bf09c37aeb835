import KonaSoon.Mpt.Codec

/-!
# Decoding hostile preimages

`TrieNode::decode` counts the items of a list by skipping from header to header, and then reads the key and the
value or child of a list of two from the bytes behind its header without a bound. An item may end after its list,
and an empty key is indexed. `decode_safe_iff` says on which preimages neither happens.
-/

namespace KonaSoon.Mpt
open Lib

namespace TrieNode

variable (prim : Primitives)

/-! ## What is at the front of a buffer -/

structure ListAt (buf : List UInt8) (count payloadLength : Nat) (after : List UInt8) : Prop where
  header : prim.decodeHeader buf = .ok (⟨true, payloadLength⟩, after)
  counted : rlpListElementLength prim buf = .ok count

structure KeyedAt (buf : List UInt8) (payloadLength : Nat) (after key second : List UInt8) : Prop
    extends ListAt prim buf 2 payloadLength after where
  key : prim.decodeBytes after = .ok (key, second)

def nodePath (head : UInt8) (tail : List UInt8) : Nibbles :=
  unpackPathToNibbles (if head.toNat / 16 % 2 = 1 then some (UInt8.ofNat (head.toNat % 16)) else none) tail

def IsExtensionKey (head : UInt8) : Prop := head.toNat / 16 < 2

def IsLeafKey (head : UInt8) : Prop := ¬ head.toNat / 16 < 2 ∧ ¬ 3 < head.toNat / 16

variable {prim} {buf after key second rest : List UInt8} {payloadLength : Nat} {head : UInt8} {tail : List UInt8}

def extend (path : Nibbles) (result : Outcome RlpError (TrieNode × List UInt8)) : Outcome RlpError (TrieNode × List UInt8) :=
  asUnexpectedList (asRlpError result >>= fun (node, rest) => .ok (.extension path node, rest))

theorem extend_eq_ok {path : Nibbles} {result : Outcome RlpError (TrieNode × List UInt8)} {node : TrieNode} :
    extend path result = .ok (node, rest) ↔ ∃ child, result = .ok (child, rest) ∧ node = .extension path child := by
  constructor
  · intro made
    rcases result with (e | _ | _) | ⟨child, left⟩
    · cases made
    · cases made
    · cases made
    · cases made
      exact ⟨child, rfl, rfl⟩
  · rintro ⟨child, rfl, rfl⟩
    rfl

theorem extend_eq_panic {path : Nibbles} {result : Outcome RlpError (TrieNode × List UInt8)} :
    extend path result = .error .panic ↔ result = .error .panic := by
  rcases result with (e | _ | _) | ⟨child, left⟩ <;> simp [extend, asRlpError, asUnexpectedList, bind, Except.bind]

theorem extend_eq_outOfFuel {path : Nibbles} {result : Outcome RlpError (TrieNode × List UInt8)} :
    extend path result = .error .outOfFuel ↔ result = .error .outOfFuel := by
  rcases result with (e | _ | _) | ⟨child, left⟩ <;> simp [extend, asRlpError, asUnexpectedList, bind, Except.bind]

section Reading

variable (reads : prim.Exact)

include reads

theorem header_shorter {header : Rlp.Header} (ok : prim.decodeHeader buf = .ok (header, after)) :
    (after.drop header.payloadLength).length < buf.length ∧ after.length ≤ buf.length := by
  have fits := reads.fits ok
  have positive := prim.lengthOfLength_pos header.payloadLength
  rw [List.length_drop]
  cases kind : header.list with
  | true =>
      obtain ⟨inside, same⟩ := reads.list ok kind
      have := congrArg List.length same
      rw [List.length_drop] at this
      omega
  | false =>
      rcases reads.string ok kind with ⟨rfl, one⟩ | ⟨inside, same⟩
      · omega
      · have := congrArg List.length same
        rw [List.length_drop] at this
        omega

theorem ListAt.shorter {count : Nat} (list : ListAt prim buf count payloadLength after) : after.length < buf.length := by
  obtain ⟨inside, same⟩ := reads.list list.header rfl
  have positive := prim.lengthOfLength_pos payloadLength
  have := congrArg List.length same
  rw [List.length_drop] at this
  simp only at inside this
  omega

theorem ListAt.skip {count : Nat} (list : ListAt prim buf count payloadLength after) :
    advance buf (prim.lengthOfLength payloadLength) = .ok after := by
  obtain ⟨inside, same⟩ := reads.list list.header rfl
  rw [advance, if_pos inside, ← same]

theorem decodeBytes_shorter {bytes : List UInt8} (ok : prim.decodeBytes buf = .ok (bytes, rest)) :
    rest.length < buf.length ∧ bytes.length ≤ buf.length := by
  rw [reads.bytes, bind_eq_ok] at ok
  obtain ⟨⟨header, after⟩, read, ok⟩ := ok
  obtain ⟨shorter, inside⟩ := header_shorter reads read
  have fits := reads.fits read
  simp only at ok
  split at ok
  · cases ok
  · cases ok
    refine ⟨shorter, le_trans ?_ inside⟩
    exact List.length_take_le' _ _

theorem KeyedAt.shorter (keyed : KeyedAt prim buf payloadLength after key second) : second.length + 2 ≤ buf.length := by
  have first := keyed.toListAt.shorter reads
  have next := (decodeBytes_shorter reads keyed.key).1
  omega

/-! Counting the items of a list neither panics nor runs on. -/

theorem countElements_returns (lenAfterConsume fuel : Nat) (enough : buf.length < fuel) :
    (∃ e, countElements prim lenAfterConsume fuel buf = .error (.error e)) ∨
      ∃ count, countElements prim lenAfterConsume fuel buf = .ok count := by
  induction fuel generalizing buf with
  | zero => omega
  | succ fuel ih =>
      rw [countElements]
      split
      · cases read : prim.decodeHeader buf with
        | error e => exact .inl ⟨e, rfl⟩
        | ok found =>
            obtain ⟨header, after⟩ := found
            have fits := reads.fits read
            have shorter := (header_shorter reads read).1
            simp only [fromRlp, ok_bind, advance, if_pos fits]
            rcases @ih (after.drop header.payloadLength) (by omega) with ⟨e, fails⟩ | ⟨count, counts⟩
            · exact .inl ⟨e, by rw [fails]; rfl⟩
            · exact .inr ⟨count + 1, by rw [counts]; rfl⟩
      · exact .inr ⟨0, rfl⟩

theorem rlpListElementLength_returns (ok : prim.decodeHeader buf = .ok (⟨true, payloadLength⟩, after)) :
    (∃ e, rlpListElementLength prim buf = .error (.error e)) ∨ ∃ count, ListAt prim buf count payloadLength after := by
  have fits : payloadLength ≤ after.length := reads.fits ok
  have same : rlpListElementLength prim buf =
      countElements prim (after.length - payloadLength) (after.length + 1) after := by
    simp only [rlpListElementLength, ok, fromRlp, ok_bind, if_true, if_pos fits]
  rcases countElements_returns reads (after.length - payloadLength) (after.length + 1) (Nat.lt_succ_self _) with
    ⟨e, fails⟩ | ⟨count, counts⟩
  · exact .inl ⟨e, same.trans fails⟩
  · exact .inr ⟨count, ok, same.trans counts⟩

/-! ## One level of decoding -/

theorem decode_empty (ok : prim.decodeHeader buf = .ok (⟨false, 0⟩, after)) (fuel : Nat) :
    decode prim (fuel + 1) buf = .ok (.empty, after) := by
  have skip : advance buf (prim.lengthOfLength 0) = .ok after := by
    rcases reads.string ok rfl with ⟨-, one⟩ | ⟨inside, same⟩
    · cases one
    · rw [advance, if_pos inside, ← same]
  simp only [decode, ok, fromRlp, ok_bind, Bool.false_eq_true, if_false, if_true, skip]
  rfl

theorem decode_blinded {commitment : B256} (ok : prim.decodeHeader buf = .ok (⟨false, 32⟩, after))
    (hash : commitment.1 = after.take 32) (fuel : Nat) :
    decode prim (fuel + 1) buf = .ok (.blinded commitment, after.drop 32) := by
  have bytes : prim.decodeBytes buf = .ok (commitment.1, after.drop 32) := by
    rw [reads.bytes, ok, hash]
    rfl
  simp only [decode, ok, fromRlp, ok_bind, bytes, toB256, dif_pos commitment.2]
  rfl

theorem decode_keyed (keyed : KeyedAt prim buf payloadLength after key second) (fuel : Nat) :
    decode prim (fuel + 1) buf = asUnexpectedList (tryDecodeLeafOrExtensionPayload prim fuel after) := by
  have skip := keyed.toListAt.skip reads
  simp only [decode, keyed.header, keyed.counted, fromRlp, ok_bind, if_true, skip]
  rfl

theorem decode_emptyKey (keyed : KeyedAt prim buf payloadLength after [] second) (fuel : Nat) :
    decode prim (fuel + 2) buf = .error .panic := by
  rw [decode_keyed reads keyed, tryDecodeLeafOrExtensionPayload, keyed.key]
  rfl

theorem decode_leaf (keyed : KeyedAt prim buf payloadLength after (head :: tail) second) (isLeaf : IsLeafKey head)
    {value : Bytes} (read : prim.decodeBytes second = .ok (value.1, rest)) (fuel : Nat) :
    decode prim (fuel + 2) buf = .ok (.leaf (nodePath head tail) value, rest) := by
  rw [decode_keyed reads keyed, tryDecodeLeafOrExtensionPayload, keyed.key]
  simp only [fromRlp, asRlpError, ok_bind, if_neg isLeaf.1, if_neg isLeaf.2, read, toBytes, dif_pos value.2]
  rfl

theorem decode_extension (keyed : KeyedAt prim buf payloadLength after (head :: tail) second)
    (isExtension : IsExtensionKey head) (fuel : Nat) :
    decode prim (fuel + 2) buf = extend (nodePath head tail) (decode prim fuel second) := by
  unfold IsExtensionKey at isExtension
  have known : ¬ 3 < head.toNat / 16 := by omega
  have path : asRlpError (fromRlp (.ok (head :: tail, second))) = .ok (head :: tail, second) := rfl
  rw [decode_keyed reads keyed, tryDecodeLeafOrExtensionPayload, keyed.key, path]
  simp only [ok_bind, if_neg known, if_pos isExtension]
  rfl

omit reads in
theorem decode_branch (list : ListAt prim buf branchListLength payloadLength after) (fuel : Nat) :
    decode prim (fuel + 1) buf = decodeStack prim fuel (after.take payloadLength) >>= fun stack =>
      .ok (.branch stack, after.drop payloadLength) := by
  have payload : decodeListPayload prim buf = .ok (after.take payloadLength, after.drop payloadLength) := by
    simp only [decodeListPayload, list.header, fromRlp, ok_bind, if_true]
    rfl
  simp only [decode, list.header, list.counted, payload, fromRlp, ok_bind, if_true]
  rfl

end Reading

inductive Front (prim : Primitives) (buf : List UInt8) : Prop where
  | rejected (e : RlpError) (fails : ∀ fuel, decode prim (fuel + 2) buf = .error (.error e))
  | empty {after : List UInt8} (header : prim.decodeHeader buf = .ok (⟨false, 0⟩, after))
  | blinded {after : List UInt8} (commitment : B256) (header : prim.decodeHeader buf = .ok (⟨false, 32⟩, after))
      (hash : commitment.1 = after.take 32)
  | emptyKey {payloadLength : Nat} {after second : List UInt8}
      (keyed : KeyedAt prim buf payloadLength after [] second)
  | leaf {payloadLength : Nat} {after second rest tail : List UInt8} {head : UInt8} (value : Bytes)
      (keyed : KeyedAt prim buf payloadLength after (head :: tail) second) (isLeaf : IsLeafKey head)
      (read : prim.decodeBytes second = .ok (value.1, rest))
  | extension {payloadLength : Nat} {after second tail : List UInt8} {head : UInt8}
      (keyed : KeyedAt prim buf payloadLength after (head :: tail) second) (isExtension : IsExtensionKey head)
  | branch {payloadLength : Nat} {after : List UInt8} (list : ListAt prim buf branchListLength payloadLength after)

theorem front_string {payloadLength : Nat} (reads : prim.Exact)
    (ok : prim.decodeHeader buf = .ok (⟨false, payloadLength⟩, after)) : Front prim buf := by
  have fits : payloadLength ≤ after.length := reads.fits ok
  by_cases none : payloadLength = 0
  · subst none
    exact .empty ok
  · by_cases hash : payloadLength = 32
    · subst hash
      exact .blinded ⟨after.take 32, List.length_take_of_le fits⟩ ok rfl
    · refine .rejected .unexpectedLength fun fuel => ?_
      simp only [decode, ok, fromRlp, ok_bind, Bool.false_eq_true, if_false, none, hash]

theorem front_keyed (reads : prim.Exact) (bound : buf.length < 2 ^ 63)
    (keyed : KeyedAt prim buf payloadLength after key second) : Front prim buf := by
  cases key with
  | nil => exact .emptyKey keyed
  | cons head tail =>
      by_cases isExtension : IsExtensionKey head
      · exact .extension keyed isExtension
      · by_cases unknown : 3 < head.toNat / 16
        · refine .rejected .unexpectedList fun fuel => ?_
          rw [decode_keyed reads keyed, tryDecodeLeafOrExtensionPayload, keyed.key]
          simp only [fromRlp, asRlpError, ok_bind, if_pos unknown]
          rfl
        · have isLeaf : IsLeafKey head := ⟨isExtension, unknown⟩
          cases read : prim.decodeBytes second with
          | error e =>
              refine .rejected .unexpectedList fun fuel => ?_
              rw [decode_keyed reads keyed, tryDecodeLeafOrExtensionPayload, keyed.key]
              simp only [fromRlp, asRlpError, ok_bind, if_neg isLeaf.1, if_neg isLeaf.2, read]
              rfl
          | ok found =>
              obtain ⟨value, rest⟩ := found
              have shorter := keyed.shorter reads
              have inside := (decodeBytes_shorter reads read).2
              exact .leaf ⟨value, by omega⟩ keyed isLeaf read

theorem front (reads : prim.Exact) (bound : buf.length < 2 ^ 63) : Front prim buf := by
  cases ok : prim.decodeHeader buf with
  | error e =>
      refine .rejected e fun fuel => ?_
      simp only [decode, ok, fromRlp]
      rfl
  | ok found =>
      obtain ⟨⟨_ | _, payloadLength⟩, after⟩ := found
      · exact front_string reads ok
      · rcases rlpListElementLength_returns reads ok with ⟨e, fails⟩ | ⟨count, list⟩
        · refine .rejected e fun fuel => ?_
          simp only [decode, ok, fails, fromRlp, ok_bind, if_true]
          rfl
        · by_cases branch : count = branchListLength
          · subst branch
            exact .branch list
          · by_cases two : count = 2
            · subst two
              cases read : prim.decodeBytes after with
              | error e =>
                  refine .rejected .unexpectedList fun fuel => ?_
                  simp only [decode, ok, list.counted, fromRlp, ok_bind, if_true, if_neg branch, list.skip reads,
                    tryDecodeLeafOrExtensionPayload, read]
                  rfl
              | ok found =>
                  obtain ⟨key, second⟩ := found
                  exact front_keyed reads bound ⟨list, read⟩
            · refine .rejected .unexpectedLength fun fuel => ?_
              simp only [decode, ok, list.counted, fromRlp, ok_bind, if_true, if_neg branch, if_neg two]

/-! ## Termination -/

def Settled (prim : Primitives) (buf : List UInt8) : Prop :=
  ∃ result, (∀ fuel, 2 * buf.length + 2 ≤ fuel → decode prim fuel buf = result) ∧ result ≠ .error .outOfFuel ∧
    ∀ node rest, result = .ok (node, rest) → rest.length < buf.length

def StackSettled (prim : Primitives) (buf : List UInt8) : Prop :=
  ∃ result, (∀ fuel, 2 * buf.length + 3 ≤ fuel → decodeStack prim fuel buf = result) ∧ result ≠ .error .outOfFuel

theorem settled_of_result {result : Outcome RlpError (TrieNode × List UInt8)}
    (same : ∀ fuel, decode prim (fuel + 2) buf = result) (stops : result ≠ .error .outOfFuel)
    (shorter : ∀ node rest, result = .ok (node, rest) → rest.length < buf.length) : Settled prim buf := by
  refine ⟨result, ?_, stops, shorter⟩
  intro fuel enough
  obtain ⟨fuel, rfl⟩ : ∃ k, fuel = k + 2 := ⟨fuel - 2, by omega⟩
  exact same fuel

theorem settled_of_shorter (reads : prim.Exact) (bound : buf.length < 2 ^ 63)
    (shorter : ∀ buf' : List UInt8, buf'.length < buf.length → Settled prim buf' ∧ StackSettled prim buf') :
    Settled prim buf := by
  cases front reads bound with
  | rejected e fails => exact settled_of_result fails (by simp) (by simp)
  | empty header =>
      apply settled_of_result (fun fuel => decode_empty reads header (fuel + 1)) (by simp)
      intro node rest made
      cases made
      simpa using (header_shorter reads header).1
  | blinded commitment header hash =>
      apply settled_of_result (fun fuel => decode_blinded reads header hash (fuel + 1)) (by simp)
      intro node rest made
      cases made
      simpa using (header_shorter reads header).1
  | emptyKey keyed => exact settled_of_result (fun fuel => decode_emptyKey reads keyed fuel) (by simp) (by simp)
  | leaf value keyed isLeaf read =>
      apply settled_of_result (fun fuel => decode_leaf reads keyed isLeaf read fuel) (by simp)
      intro node rest made
      cases made
      have first := keyed.shorter reads
      have second := (decodeBytes_shorter reads read).1
      omega
  | @extension payloadLength after second tail head keyed isExtension =>
      have inside := keyed.shorter reads
      obtain ⟨⟨result, same, stops, smaller⟩, -⟩ := shorter second (by omega)
      refine ⟨extend (nodePath head tail) result, ?_, fun ends => stops (extend_eq_outOfFuel.mp ends), ?_⟩
      · intro fuel enough
        obtain ⟨fuel, rfl⟩ : ∃ k, fuel = k + 2 := ⟨fuel - 2, by omega⟩
        rw [decode_extension reads keyed isExtension, same fuel (by omega)]
      · intro node rest made
        obtain ⟨child, found, -⟩ := extend_eq_ok.mp made
        have := smaller child rest found
        omega
  | @branch payloadLength after list =>
      have inside := list.shorter reads
      have taken : (after.take payloadLength).length ≤ after.length := List.length_take_le' _ _
      obtain ⟨-, result, same, stops⟩ := shorter (after.take payloadLength) (by omega)
      refine ⟨result >>= fun stack => .ok (.branch stack, after.drop payloadLength), ?_, ?_, ?_⟩
      · intro fuel enough
        obtain ⟨fuel, rfl⟩ : ∃ k, fuel = k + 1 := ⟨fuel - 1, by omega⟩
        rw [decode_branch list, same fuel (by omega)]
      · cases result with
        | error stop => exact fun same => stops (congrArg Except.error (Except.error.inj same))
        | ok stack => simp [bind, Except.bind]
      · intro node rest made
        cases result with
        | error stop => cases made
        | ok stack =>
            cases made
            exact (header_shorter reads list.header).1

theorem decodeStack_cons (nonempty : buf ≠ []) (fuel : Nat) :
    decodeStack prim (fuel + 1) buf = decode prim fuel buf >>= fun (node, rest) =>
      decodeStack prim fuel rest >>= fun stack => .ok (node :: stack) := by
  cases buf with
  | nil => exact absurd rfl nonempty
  | cons b buf => rfl

theorem stackSettled_of_shorter (here : Settled prim buf)
    (shorter : ∀ buf' : List UInt8, buf'.length < buf.length → StackSettled prim buf') : StackSettled prim buf := by
  by_cases nonempty : buf = []
  · subst nonempty
    refine ⟨.ok [], ?_, by simp⟩
    intro fuel enough
    obtain ⟨fuel, rfl⟩ : ∃ k, fuel = k + 1 := ⟨fuel - 1, by omega⟩
    rfl
  · obtain ⟨result, same, stops, smaller⟩ := here
    have unfolds : ∀ fuel, 2 * buf.length + 2 ≤ fuel → decodeStack prim (fuel + 1) buf =
        result >>= fun (node, rest) => decodeStack prim fuel rest >>= fun stack => .ok (node :: stack) := by
      intro fuel enough
      rw [decodeStack_cons nonempty, same fuel enough]
    rcases result with stop | ⟨node, rest⟩
    · refine ⟨.error stop, ?_, ?_⟩
      · intro fuel enough
        obtain ⟨fuel, rfl⟩ : ∃ k, fuel = k + 1 := ⟨fuel - 1, by omega⟩
        exact unfolds fuel (by omega)
      · intro same
        cases same
        exact stops rfl
    · have less := smaller node rest rfl
      obtain ⟨stack, later, stops⟩ := shorter rest less
      refine ⟨stack >>= fun stack => .ok (node :: stack), ?_, ?_⟩
      · intro fuel enough
        obtain ⟨fuel, rfl⟩ : ∃ k, fuel = k + 1 := ⟨fuel - 1, by omega⟩
        rw [unfolds fuel (by omega), ← later fuel (by omega)]
        rfl
      · cases stack with
        | error stop => exact fun same => stops (congrArg Except.error (Except.error.inj same))
        | ok stack => simp [bind, Except.bind]

theorem settled (reads : prim.Exact) (bound : buf.length < 2 ^ 63) : Settled prim buf ∧ StackSettled prim buf := by
  induction size : buf.length using Nat.strong_induction_on generalizing buf with
  | h n ih =>
      have shorter : ∀ buf' : List UInt8, buf'.length < buf.length → Settled prim buf' ∧ StackSettled prim buf' :=
        fun buf' less => ih buf'.length (by omega) (by omega) rfl
      have here := settled_of_shorter reads bound shorter
      exact ⟨here, stackSettled_of_shorter here fun buf' less => (shorter buf' less).2⟩

def decoded (prim : Primitives) (buf : List UInt8) : Outcome RlpError (TrieNode × List UInt8) :=
  decode prim (decodeFuel buf) buf

def decodedStack (prim : Primitives) (buf : List UInt8) : Outcome RlpError (List TrieNode) :=
  decodeStack prim (decodeFuel buf) buf

section Decoded

variable (reads : prim.Exact) (bound : buf.length < 2 ^ 63)

include reads bound

theorem decode_eq_decoded {fuel : Nat} (enough : 2 * buf.length + 2 ≤ fuel) : decode prim fuel buf = decoded prim buf := by
  obtain ⟨⟨result, same, -⟩, -⟩ := settled reads bound
  rw [decoded, same fuel enough, same _ (by unfold decodeFuel; omega)]

theorem decodeStack_eq_decodedStack {fuel : Nat} (enough : 2 * buf.length + 3 ≤ fuel) :
    decodeStack prim fuel buf = decodedStack prim buf := by
  obtain ⟨-, result, same, -⟩ := settled reads bound
  rw [decodedStack, same fuel enough, same _ (by unfold decodeFuel; omega)]

theorem decoded_stops : decoded prim buf ≠ .error .outOfFuel := by
  obtain ⟨⟨result, same, stops, -⟩, -⟩ := settled reads bound
  rw [decoded, same _ (by unfold decodeFuel; omega)]
  exact stops

theorem decoded_shorter {node : TrieNode} (ok : decoded prim buf = .ok (node, rest)) : rest.length < buf.length := by
  obtain ⟨⟨result, same, -, shorter⟩, -⟩ := settled reads bound
  rw [decoded, same _ (by unfold decodeFuel; omega)] at ok
  exact shorter node rest ok

theorem decoded_extension (keyed : KeyedAt prim buf payloadLength after (head :: tail) second)
    (isExtension : IsExtensionKey head) :
    decoded prim buf = extend (nodePath head tail) (decoded prim second) := by
  have shorter := keyed.shorter reads
  rw [← decode_eq_decoded reads bound (Nat.le_refl _), decode_extension reads keyed isExtension,
    decode_eq_decoded reads (by omega) (by omega)]

theorem decoded_branch (list : ListAt prim buf branchListLength payloadLength after) :
    decoded prim buf = decodedStack prim (after.take payloadLength) >>= fun stack =>
      .ok (.branch stack, after.drop payloadLength) := by
  have shorter := list.shorter reads
  have taken : (after.take payloadLength).length ≤ after.length := List.length_take_le' _ _
  rw [← decode_eq_decoded reads bound (Nat.le_refl _), decode_branch list,
    decodeStack_eq_decodedStack reads (by omega) (by omega)]

theorem decodedStack_of_error {stop : Stop RlpError} (nonempty : buf ≠ []) (stops : decoded prim buf = .error stop) :
    decodedStack prim buf = .error stop := by
  rw [← decodeStack_eq_decodedStack reads bound (Nat.le_refl _), decodeStack_cons nonempty,
    decode_eq_decoded reads bound (Nat.le_refl _), stops]
  rfl

theorem decodedStack_cons {node : TrieNode} (nonempty : buf ≠ []) (ok : decoded prim buf = .ok (node, rest)) :
    decodedStack prim buf = decodedStack prim rest >>= fun stack => .ok (node :: stack) := by
  have shorter := decoded_shorter reads bound ok
  have later : decodeStack prim (2 * buf.length + 2) rest = decodedStack prim rest :=
    decodeStack_eq_decodedStack reads (by omega) (by omega)
  rw [← decodeStack_eq_decodedStack reads bound (Nat.le_refl _), decodeStack_cons nonempty,
    decode_eq_decoded reads bound (Nat.le_refl _), ok, ← later]
  rfl

end Decoded

theorem decodedStack_nil : decodedStack prim [] = .ok [] := rfl

/-! ## Reading within bounds -/

def Chain (Read : TrieNode → List UInt8 → List UInt8 → Prop) : List TrieNode → List UInt8 → List UInt8 → Prop
  | [], buf, rest => buf = rest
  | node :: stack, buf, rest => ∃ next, Read node buf next ∧ Chain Read stack next rest

mutual

def ReadWithin (prim : Primitives) : TrieNode → List UInt8 → List UInt8 → Prop
  | .empty, buf, rest => prim.decodeHeader buf = .ok (⟨false, 0⟩, rest)
  | .blinded commitment, buf, rest => ∃ after, prim.decodeHeader buf = .ok (⟨false, 32⟩, after) ∧
      commitment.1 = after.take 32 ∧ rest = after.drop 32
  | .leaf path value, buf, rest => ∃ payloadLength after head tail second,
      KeyedAt prim buf payloadLength after (head :: tail) second ∧ IsLeafKey head ∧ path = nodePath head tail ∧
        prim.decodeBytes second = .ok (value.1, rest) ∧ rest = after.drop payloadLength
  | .extension path node, buf, rest => ∃ payloadLength after head tail second,
      KeyedAt prim buf payloadLength after (head :: tail) second ∧ IsExtensionKey head ∧ path = nodePath head tail ∧
        ReadWithin prim node second rest ∧ rest = after.drop payloadLength
  | .branch stack, buf, rest => ∃ payloadLength after, ListAt prim buf branchListLength payloadLength after ∧
      StackWithin prim stack (after.take payloadLength) [] ∧ rest = after.drop payloadLength

def StackWithin (prim : Primitives) : List TrieNode → List UInt8 → List UInt8 → Prop
  | [], buf, rest => buf = rest
  | node :: stack, buf, rest => ∃ next, ReadWithin prim node buf next ∧ StackWithin prim stack next rest

end

theorem stackWithin_eq_chain (stack : List TrieNode) : StackWithin prim stack = Chain (ReadWithin prim) stack := by
  induction stack with
  | nil => rfl
  | cons node stack ih =>
      funext buf rest
      simp only [StackWithin, Chain, ih]

def OneItem (prim : Primitives) (buf rest : List UInt8) : Prop :=
  ∃ header after, prim.decodeHeader buf = .ok (header, after) ∧ header.payloadLength ≤ after.length ∧
    rest = after.drop header.payloadLength

theorem ReadWithin.oneItem (reads : prim.Exact) {node : TrieNode} (within : ReadWithin prim node buf rest) :
    OneItem prim buf rest := by
  have item : ∀ {header after}, prim.decodeHeader buf = .ok (header, after) → rest = after.drop header.payloadLength →
      OneItem prim buf rest := fun ok ends => ⟨_, _, ok, reads.fits ok, ends⟩
  cases node with
  | empty => exact item within rfl
  | blinded commitment =>
      obtain ⟨after, ok, -, ends⟩ := within
      exact item ok ends
  | leaf path value =>
      obtain ⟨payloadLength, after, head, tail, second, keyed, -, -, -, ends⟩ := within
      exact item keyed.header ends
  | extension path node =>
      obtain ⟨payloadLength, after, head, tail, second, keyed, -, -, -, ends⟩ := within
      exact item keyed.header ends
  | branch stack =>
      obtain ⟨payloadLength, after, list, -, ends⟩ := within
      exact item list.header ends

theorem OneItem.shorter (reads : prim.Exact) (item : OneItem prim buf rest) : rest.length < buf.length := by
  obtain ⟨header, after, ok, -, rfl⟩ := item
  exact (header_shorter reads ok).1

mutual

theorem decoded_of_readWithin (reads : prim.Exact) (node : TrieNode) {buf rest : List UInt8} (bound : buf.length < 2 ^ 63)
    (within : ReadWithin prim node buf rest) : decoded prim buf = .ok (node, rest) := by
  match node with
  | .empty => exact decode_empty reads within _
  | .blinded commitment =>
      obtain ⟨after, ok, hash, rfl⟩ := within
      exact decode_blinded reads ok hash _
  | .leaf path value =>
      obtain ⟨payloadLength, after, head, tail, second, keyed, isLeaf, rfl, read, -⟩ := within
      rw [← decode_eq_decoded reads bound (Nat.le_refl _)]
      exact decode_leaf reads keyed isLeaf read _
  | .extension path node =>
      obtain ⟨payloadLength, after, head, tail, second, keyed, isExtension, rfl, child, -⟩ := within
      have shorter := keyed.shorter reads
      rw [decoded_extension reads bound keyed isExtension, extend_eq_ok]
      exact ⟨node, decoded_of_readWithin reads node (by omega) child, rfl⟩
  | .branch stack =>
      obtain ⟨payloadLength, after, list, children, rfl⟩ := within
      have shorter := list.shorter reads
      have taken : (after.take payloadLength).length ≤ after.length := List.length_take_le' _ _
      rw [decoded_branch reads bound list, decodedStack_of_stackWithin reads stack (by omega) children, decodedStack_nil]
      simp

theorem decodedStack_of_stackWithin (reads : prim.Exact) (stack : List TrieNode) {buf rest : List UInt8}
    (bound : buf.length < 2 ^ 63) (within : StackWithin prim stack buf rest) :
    decodedStack prim buf = decodedStack prim rest >>= fun later => .ok (stack ++ later) := by
  match stack with
  | [] =>
      cases within
      cases decodedStack prim buf with
      | error stop => rfl
      | ok later => rfl
  | node :: stack =>
      obtain ⟨next, first, later⟩ := within
      have ok := decoded_of_readWithin reads node bound first
      have shorter := decoded_shorter reads bound ok
      have nonempty : buf ≠ [] := by
        rintro rfl
        simp at shorter
      rw [decodedStack_cons reads bound nonempty ok, decodedStack_of_stackWithin reads stack (by omega) later]
      cases decodedStack prim rest with
      | error stop => rfl
      | ok later => rfl

end

/-! ## Where a keyed node ends -/

theorem header_suffix (reads : prim.Exact) {header : Rlp.Header} (ok : prim.decodeHeader buf = .ok (header, after)) :
    after <:+ buf := by
  cases kind : header.list with
  | true =>
      rw [(reads.list ok kind).2]
      exact List.drop_suffix _ _
  | false =>
      rcases reads.string ok kind with ⟨rfl, -⟩ | ⟨-, same⟩
      · exact List.suffix_refl _
      · rw [same]
        exact List.drop_suffix _ _

theorem OneItem.suffix (reads : prim.Exact) (item : OneItem prim buf rest) : rest <:+ buf := by
  obtain ⟨header, after, ok, -, rfl⟩ := item
  exact (List.drop_suffix _ _).trans (header_suffix reads ok)

theorem oneItem_of_decodeBytes (reads : prim.Exact) {bytes : List UInt8} (ok : prim.decodeBytes buf = .ok (bytes, rest)) :
    OneItem prim buf rest := by
  rw [reads.bytes, bind_eq_ok] at ok
  obtain ⟨⟨header, after⟩, read, ok⟩ := ok
  simp only at ok
  split at ok
  · cases ok
  · cases ok
    exact ⟨header, after, read, reads.fits read, rfl⟩

theorem countElements_item {lenAfterConsume fuel count : Nat} (item : OneItem prim buf rest)
    (counts : countElements prim lenAfterConsume (fuel + 1) buf = .ok (count + 1)) :
    countElements prim lenAfterConsume fuel rest = .ok count := by
  obtain ⟨header, after, ok, fits, rfl⟩ := item
  rw [countElements] at counts
  split at counts
  · simp only [ok, fromRlp, ok_bind, advance, if_pos fits, bind_eq_ok] at counts
    obtain ⟨later, counts, made⟩ := counts
    cases made
    exact counts
  · cases counts

theorem KeyedAt.ends (reads : prim.Exact) (keyed : KeyedAt prim buf payloadLength after key second)
    (item : OneItem prim second rest) (inside : ¬ rest.length < (after.drop payloadLength).length) :
    rest = after.drop payloadLength := by
  have first := oneItem_of_decodeBytes reads keyed.key
  have fits : payloadLength ≤ after.length := reads.fits keyed.header
  have counts : countElements prim (after.length - payloadLength) (after.length + 1) after = .ok 2 := by
    have counted := keyed.counted
    simpa only [rlpListElementLength, keyed.header, fromRlp, ok_bind, if_true, if_pos fits] using counted
  have shorter := first.shorter reads
  obtain ⟨fuel, long⟩ : ∃ fuel, after.length = fuel + 1 := ⟨after.length - 1, by omega⟩
  have later := countElements_item first counts
  rw [long] at later
  have last := countElements_item item later
  obtain ⟨fuel, rfl⟩ : ∃ k, fuel = k + 1 := by
    have := item.shorter reads
    exact ⟨fuel - 1, by omega⟩
  have reached : ¬ after.length - payloadLength < rest.length := by
    intro more
    rw [long] at more
    rw [countElements, if_pos more] at last
    simp only [bind_eq_ok] at last
    obtain ⟨_, -, _, -, _, -, made⟩ := last
    cases made
  have suffix : rest <:+ after := (item.suffix reads).trans (first.suffix reads)
  have same : rest.length = (after.drop payloadLength).length := by
    rw [List.length_drop] at inside ⊢
    omega
  exact (List.suffix_of_suffix_length_le suffix (List.drop_suffix _ _) (Nat.le_of_eq same)).eq_of_length same

/-! ## The places that decoding comes to -/

inductive Visits (prim : Primitives) (Read : TrieNode → List UInt8 → List UInt8 → Prop) :
    List UInt8 → List UInt8 → Prop where
  | here (buf : List UInt8) : Visits prim Read buf buf
  | extension {buf after second tail found : List UInt8} {payloadLength : Nat} {head : UInt8}
      (keyed : KeyedAt prim buf payloadLength after (head :: tail) second) (isExtension : IsExtensionKey head)
      (later : Visits prim Read second found) : Visits prim Read buf found
  | branch {buf after next found : List UInt8} {payloadLength : Nat} {stack : List TrieNode}
      (list : ListAt prim buf branchListLength payloadLength after)
      (chain : Chain Read stack (after.take payloadLength) next) (more : next ≠ [])
      (later : Visits prim Read next found) : Visits prim Read buf found

/-- The recursive calls of `decode`. -/
def Calls (prim : Primitives) : List UInt8 → List UInt8 → Prop :=
  Visits prim fun node buf rest => decoded prim buf = .ok (node, rest)

def EmptyKey (prim : Primitives) (buf : List UInt8) : Prop :=
  ∃ payloadLength after second, KeyedAt prim buf payloadLength after [] second

def PastEnd (prim : Primitives) (buf : List UInt8) : Prop :=
  ∃ payloadLength after head tail second rest, KeyedAt prim buf payloadLength after (head :: tail) second ∧
    rest.length < (after.drop payloadLength).length ∧
    ((IsLeafKey head ∧ ∃ value, prim.decodeBytes second = .ok (value, rest)) ∨
      (IsExtensionKey head ∧ ∃ node, ReadWithin prim node second rest))

/-- Nothing that is reached by reading nodes within bounds has an empty key or goes past its end. -/
def Clean (prim : Primitives) (buf : List UInt8) : Prop :=
  ∀ found, Visits prim (ReadWithin prim) buf found → ¬ EmptyKey prim found ∧ ¬ PastEnd prim found

/-- `decode` returns, takes one complete item if it returns a node, and no node that it decodes on the way has an
element that lies beyond the end of its list. -/
structure Safe (prim : Primitives) (buf : List UInt8) : Prop where
  returns : ∀ fuel, decodeFuel buf ≤ fuel → (decode prim fuel buf).Returns
  consumes : ∀ fuel, decodeFuel buf ≤ fuel → ∀ node rest, decode prim fuel buf = .ok (node, rest) → OneItem prim buf rest
  within : ∀ found, Calls prim buf found → ∀ node rest, decoded prim found = .ok (node, rest) →
    ReadWithin prim node found rest

theorem Clean.extension (clean : Clean prim buf) (keyed : KeyedAt prim buf payloadLength after (head :: tail) second)
    (isExtension : IsExtensionKey head) : Clean prim second :=
  fun found visits => clean found (.extension keyed isExtension visits)

theorem Clean.branch (clean : Clean prim buf) (list : ListAt prim buf branchListLength payloadLength after)
    {stack : List TrieNode} {next : List UInt8} (chain : Chain (ReadWithin prim) stack (after.take payloadLength) next)
    (more : next ≠ []) : Clean prim next :=
  fun found visits => clean found (.branch list chain more visits)

theorem Chain.snoc {Read : TrieNode → List UInt8 → List UInt8 → Prop} {stack : List TrieNode} {node : TrieNode}
    {next : List UInt8} (chain : Chain Read stack buf next) (read : Read node next rest) :
    Chain Read (stack ++ [node]) buf rest := by
  induction stack generalizing buf with
  | nil =>
      cases chain
      exact ⟨rest, read, rfl⟩
  | cons first stack ih =>
      obtain ⟨middle, here, later⟩ := chain
      exact ⟨middle, here, ih later⟩

/-! ## Clean input is decoded safely -/

def Sound (prim : Primitives) (buf : List UInt8) : Prop :=
  (∃ e, decoded prim buf = .error (.error e)) ∨
    ∃ node rest, decoded prim buf = .ok (node, rest) ∧ ReadWithin prim node buf rest

theorem decodedStack_sound (reads : prim.Exact) (bound : buf.length < 2 ^ 63) (clean : Clean prim buf)
    (list : ListAt prim buf branchListLength payloadLength after)
    (shorter : ∀ buf' : List UInt8, buf'.length < buf.length → Clean prim buf' → Sound prim buf')
    {stack : List TrieNode} {next : List UInt8} (inside : next.length < buf.length)
    (chain : Chain (ReadWithin prim) stack (after.take payloadLength) next) :
    (∃ e, decodedStack prim next = .error (.error e)) ∨
      ∃ later, decodedStack prim next = .ok later ∧ Chain (ReadWithin prim) later next [] := by
  -- on the length of what is left of the payload
  induction size : next.length using Nat.strong_induction_on generalizing next stack with
  | h n ih =>
      by_cases more : next = []
      · subst more
        exact .inr ⟨[], decodedStack_nil, rfl⟩
      · have fits : next.length < 2 ^ 63 := by omega
        rcases shorter next inside (clean.branch list chain more) with ⟨e, fails⟩ | ⟨node, rest, ok, within⟩
        · exact .inl ⟨e, decodedStack_of_error reads fits more fails⟩
        · have less := decoded_shorter reads fits ok
          rw [decodedStack_cons reads fits more ok]
          rcases ih rest.length (by omega) (by omega) (chain.snoc within) rfl with ⟨e, fails⟩ | ⟨later, ok, tail⟩
          · exact .inl ⟨e, by rw [fails]; rfl⟩
          · exact .inr ⟨node :: later, by rw [ok]; rfl, rest, within, tail⟩

theorem sound_of_clean (reads : prim.Exact) (bound : buf.length < 2 ^ 63) (clean : Clean prim buf) : Sound prim buf := by
  induction size : buf.length using Nat.strong_induction_on generalizing buf with
  | h n ih =>
      have shorter : ∀ buf' : List UInt8, buf'.length < buf.length → Clean prim buf' → Sound prim buf' :=
        fun buf' less clean' => ih buf'.length (by omega) (by omega) clean' rfl
      have runs : ∀ {result}, (∀ fuel, decode prim (fuel + 2) buf = result) → decoded prim buf = result := fun same =>
        (decode_eq_decoded reads bound (Nat.le_refl _)).symm.trans (same _)
      obtain ⟨keys, ends⟩ := clean buf (.here buf)
      cases front reads bound with
      | rejected e fails => exact .inl ⟨e, runs fails⟩
      | empty header => exact .inr ⟨_, _, runs fun fuel => decode_empty reads header (fuel + 1), header⟩
      | blinded commitment header hash =>
          exact .inr ⟨_, _, runs fun fuel => decode_blinded reads header hash (fuel + 1), _, header, hash, rfl⟩
      | emptyKey keyed => exact absurd ⟨_, _, _, keyed⟩ keys
      | leaf value keyed isLeaf read =>
          have inside := fun past => ends ⟨_, _, _, _, _, _, keyed, past, .inl ⟨isLeaf, _, read⟩⟩
          exact .inr ⟨_, _, runs fun fuel => decode_leaf reads keyed isLeaf read fuel, _, _, _, _, _, keyed, isLeaf, rfl,
            read, keyed.ends reads (oneItem_of_decodeBytes reads read) inside⟩
      | @extension payloadLength after second tail head keyed isExtension =>
          have less := keyed.shorter reads
          have unfolds := decoded_extension reads bound keyed isExtension
          rcases shorter _ (by omega) (clean.extension keyed isExtension) with ⟨e, fails⟩ | ⟨child, rest, ok, within⟩
          · exact .inl ⟨.unexpectedList, by rw [unfolds, fails]; rfl⟩
          · have inside := fun past => ends ⟨_, _, _, _, _, _, keyed, past, .inr ⟨isExtension, _, within⟩⟩
            exact .inr ⟨.extension (nodePath head tail) child, rest, by rw [unfolds, ok]; rfl, payloadLength, after, head,
              tail, second, keyed, isExtension, rfl, within, keyed.ends reads (within.oneItem reads) inside⟩
      | @branch payloadLength after list =>
          have less := list.shorter reads
          have taken : (after.take payloadLength).length ≤ after.length := List.length_take_le' _ _
          have unfolds := decoded_branch reads bound list
          have start : Chain (ReadWithin prim) [] (after.take payloadLength) (after.take payloadLength) := rfl
          rcases decodedStack_sound reads bound clean list shorter (by omega) start with ⟨e, fails⟩ | ⟨stack, ok, children⟩
          · exact .inl ⟨e, by rw [unfolds, fails]; rfl⟩
          · refine .inr ⟨.branch stack, _, by rw [unfolds, ok]; rfl, payloadLength, after, list, ?_, rfl⟩
            rw [stackWithin_eq_chain]
            exact children

theorem Clean.readWithin (reads : prim.Exact) (bound : buf.length < 2 ^ 63) (clean : Clean prim buf) {node : TrieNode}
    (ok : decoded prim buf = .ok (node, rest)) : ReadWithin prim node buf rest := by
  rcases sound_of_clean reads bound clean with ⟨e, fails⟩ | ⟨node', rest', found, within⟩
  · rw [fails] at ok
    cases ok
  · rw [found] at ok
    cases ok
    exact within

theorem Clean.chain (reads : prim.Exact) (bound : buf.length < 2 ^ 63) (clean : Clean prim buf)
    (list : ListAt prim buf branchListLength payloadLength after) {stack later : List TrieNode} {next next' : List UInt8}
    (inside : next.length < buf.length) (before : Chain (ReadWithin prim) stack (after.take payloadLength) next)
    (chain : Chain (fun node buf rest => decoded prim buf = .ok (node, rest)) later next next') :
    next'.length < buf.length ∧ Chain (ReadWithin prim) later next next' := by
  induction later generalizing stack next with
  | nil =>
      cases chain
      exact ⟨inside, rfl⟩
  | cons node later ih =>
      obtain ⟨middle, ok, chain⟩ := chain
      have fits : next.length < 2 ^ 63 := by omega
      have less := decoded_shorter reads fits ok
      have more : next ≠ [] := by
        rintro rfl
        simp at less
      have within := (clean.branch list before more).readWithin reads fits ok
      obtain ⟨inside', later'⟩ := ih (by omega) (before.snoc within) chain
      exact ⟨inside', middle, within, later'⟩

theorem Clean.calls (reads : prim.Exact) {found : List UInt8} (calls : Calls prim buf found) (bound : buf.length < 2 ^ 63)
    (clean : Clean prim buf) : found.length < 2 ^ 63 ∧ Clean prim found := by
  induction calls with
  | here buf => exact ⟨bound, clean⟩
  | extension keyed isExtension later ih =>
      have less := keyed.shorter reads
      exact ih (by omega) (clean.extension keyed isExtension)
  | @branch buf after next found payloadLength stack list chain more later ih =>
      have less := list.shorter reads
      have taken : (after.take payloadLength).length ≤ after.length := List.length_take_le' _ _
      have start : Chain (ReadWithin prim) [] (after.take payloadLength) (after.take payloadLength) := rfl
      obtain ⟨inside, within⟩ := clean.chain reads bound list (by omega) start chain
      exact ih (by omega) (clean.branch list within more)

theorem Clean.safe (reads : prim.Exact) (bound : buf.length < 2 ^ 63) (clean : Clean prim buf) : Safe prim buf where
  returns fuel enough := by
    rw [decode_eq_decoded reads bound (by unfold decodeFuel at enough; omega)]
    rcases sound_of_clean reads bound clean with ⟨e, fails⟩ | ⟨node, rest, ok, -⟩
    · rw [fails]
      trivial
    · rw [ok]
      trivial
  consumes fuel enough node rest ok := by
    rw [decode_eq_decoded reads bound (by unfold decodeFuel at enough; omega)] at ok
    exact (clean.readWithin reads bound ok).oneItem reads
  within found calls node rest ok := by
    obtain ⟨fits, clean'⟩ := clean.calls reads calls bound
    exact clean'.readWithin reads fits ok

/-! ## Safe input is clean -/

theorem Safe.no_panic (safe : Safe prim buf) : decoded prim buf ≠ .error .panic := by
  intro panics
  have returns := safe.returns _ (Nat.le_refl _)
  rw [decoded] at panics
  rw [panics] at returns
  exact returns

theorem safe_of_calls (reads : prim.Exact) (bound : buf.length < 2 ^ 63) (runs : decoded prim buf ≠ .error .panic)
    (within : ∀ found, Calls prim buf found → ∀ node rest, decoded prim found = .ok (node, rest) →
      ReadWithin prim node found rest) : Safe prim buf where
  returns fuel enough := by
    rw [decode_eq_decoded reads bound (by unfold decodeFuel at enough; omega)]
    have stops := decoded_stops reads bound
    rcases result : decoded prim buf with (e | _ | _) | read
    · trivial
    · exact runs result
    · exact stops result
    · trivial
  consumes fuel enough node rest ok := by
    rw [decode_eq_decoded reads bound (by unfold decodeFuel at enough; omega)] at ok
    exact (within buf (.here buf) node rest ok).oneItem reads
  within := within

theorem Safe.extension (reads : prim.Exact) (bound : buf.length < 2 ^ 63) (safe : Safe prim buf)
    (keyed : KeyedAt prim buf payloadLength after (head :: tail) second) (isExtension : IsExtensionKey head) :
    Safe prim second := by
  have less := keyed.shorter reads
  refine safe_of_calls reads (by omega) ?_ fun found calls => safe.within found (.extension keyed isExtension calls)
  intro panics
  apply safe.no_panic
  rw [decoded_extension reads bound keyed isExtension, extend_eq_panic]
  exact panics

theorem chain_decoded (reads : prim.Exact) {stack : List TrieNode} {next : List UInt8} (bound : buf.length < 2 ^ 63)
    (chain : Chain (ReadWithin prim) stack buf next) :
    Chain (fun node buf rest => decoded prim buf = .ok (node, rest)) stack buf next ∧ next.length ≤ buf.length := by
  induction stack generalizing buf with
  | nil =>
      cases chain
      exact ⟨rfl, Nat.le_refl _⟩
  | cons node stack ih =>
      obtain ⟨middle, read, chain⟩ := chain
      have less := (read.oneItem reads).shorter reads
      obtain ⟨later, inside⟩ := ih (by omega) chain
      exact ⟨⟨middle, decoded_of_readWithin reads node bound read, later⟩, by omega⟩

theorem Safe.branch (reads : prim.Exact) (bound : buf.length < 2 ^ 63) (safe : Safe prim buf)
    (list : ListAt prim buf branchListLength payloadLength after) {stack : List TrieNode} {next : List UInt8}
    (chain : Chain (ReadWithin prim) stack (after.take payloadLength) next) (more : next ≠ []) : Safe prim next := by
  have less := list.shorter reads
  have taken : (after.take payloadLength).length ≤ after.length := List.length_take_le' _ _
  obtain ⟨calls, inside⟩ := chain_decoded reads (by omega) chain
  refine safe_of_calls reads (by omega) ?_ fun found later => safe.within found (.branch list calls more later)
  intro panics
  apply safe.no_panic
  rw [← stackWithin_eq_chain] at chain
  rw [decoded_branch reads bound list, decodedStack_of_stackWithin reads stack (by omega) chain,
    decodedStack_of_error reads (by omega) more panics]
  rfl

theorem Safe.not_pastEnd (reads : prim.Exact) (bound : buf.length < 2 ^ 63) (safe : Safe prim buf) : ¬ PastEnd prim buf := by
  rintro ⟨payloadLength, after, head, tail, second, rest, keyed, past, kind⟩
  have less := keyed.shorter reads
  have ok : ∃ node, decoded prim buf = .ok (node, rest) := by
    rcases kind with ⟨isLeaf, value, read⟩ | ⟨isExtension, node, within⟩
    · have fits := (decodeBytes_shorter reads read).2
      refine ⟨.leaf (nodePath head tail) ⟨value, by omega⟩, ?_⟩
      rw [← decode_eq_decoded reads bound (Nat.le_refl _)]
      exact decode_leaf reads keyed isLeaf read _
    · exact ⟨_, by rw [decoded_extension reads bound keyed isExtension,
        decoded_of_readWithin reads node (by omega) within]; rfl⟩
  obtain ⟨node, ok⟩ := ok
  obtain ⟨header, after', read, -, ends⟩ := (safe.within buf (.here buf) node rest ok).oneItem reads
  rw [keyed.header] at read
  cases read
  rw [ends] at past
  exact absurd past (Nat.lt_irrefl _)

theorem Safe.clean (reads : prim.Exact) (bound : buf.length < 2 ^ 63) (safe : Safe prim buf) : Clean prim buf := by
  intro found visits
  induction visits with
  | here buf =>
      refine ⟨?_, safe.not_pastEnd reads bound⟩
      rintro ⟨payloadLength, after, second, keyed⟩
      exact safe.no_panic ((decode_eq_decoded reads bound (Nat.le_refl _)).symm.trans (decode_emptyKey reads keyed _))
  | extension keyed isExtension later ih =>
      have less := keyed.shorter reads
      exact ih (by omega) (safe.extension reads bound keyed isExtension)
  | @branch buf after next found payloadLength stack list chain more later ih =>
      have less := list.shorter reads
      have taken : (after.take payloadLength).length ≤ after.length := List.length_take_le' _ _
      have inside := (chain_decoded reads (by omega) chain).2
      exact ih (by omega) (safe.branch reads bound list chain more)

/-- Decoding a preimage is safe exactly if no list of two items that is reached within bounds has an empty key, or
a value or child that ends after it. -/
theorem decode_safe_iff (reads : prim.Exact) (preimage : Bytes) : Safe prim preimage.1 ↔ Clean prim preimage.1 := by
  have bound := preimage.2
  exact ⟨fun safe => safe.clean reads bound, fun clean => clean.safe reads bound⟩

namespace Hostile

def plain : Primitives := .tabulated []

theorem reads : plain.Exact := Rlp.standard_exact

def leaf : Bytes := ⟨[0xC2, 0x20, 0x07], by decide⟩

def emptyKey : Bytes := ⟨[0xC2, 0x80, 0x80], by decide⟩

def pastEnd : Bytes := ⟨[0xC2, 0x20, 0x81, 0xFF], by decide⟩

theorem leaf_keyed {payloadLength : Nat} {after key second : List UInt8}
    (keyed : KeyedAt plain leaf.1 payloadLength after key second) :
    payloadLength = 2 ∧ after = [0x20, 0x07] ∧ key = [0x20] ∧ second = [0x07] := by
  have header : plain.decodeHeader leaf.1 = .ok (⟨true, 2⟩, [0x20, 0x07]) := by decide +kernel
  have first : plain.decodeBytes [0x20, 0x07] = .ok ([0x20], [0x07]) := by decide +kernel
  have same := keyed.header
  rw [header] at same
  cases same
  have read := keyed.key
  rw [first] at read
  cases read
  exact ⟨rfl, rfl, rfl, rfl⟩

theorem leaf_clean : Clean plain leaf.1 := by
  intro found visits
  cases visits with
  | here =>
      constructor
      · rintro ⟨payloadLength, after, second, keyed⟩
        obtain ⟨-, -, key, -⟩ := leaf_keyed keyed
        cases key
      · rintro ⟨payloadLength, after, head, tail, second, rest, keyed, past, -⟩
        obtain ⟨rfl, rfl, -, -⟩ := leaf_keyed keyed
        cases past
  | extension keyed isExtension later =>
      obtain ⟨-, -, key, -⟩ := leaf_keyed keyed
      cases key
      exact absurd isExtension (by unfold IsExtensionKey; decide)
  | branch list chain more later =>
      have counted : rlpListElementLength plain leaf.1 = .ok 2 := by decide +kernel
      rw [list.counted] at counted
      cases counted

theorem decode_safe_iff_leaf : plain.Exact ∧ Clean plain leaf.1 ∧ Safe plain leaf.1 :=
  ⟨reads, leaf_clean, (decode_safe_iff reads leaf).mpr leaf_clean⟩

/-- An empty key makes `decode` panic, and the value of a leaf is read from beyond the end of its list. -/
theorem decode_unsafe :
    decoded plain emptyKey.1 = .error .panic ∧ ¬ Safe plain emptyKey.1 ∧
      decoded plain pastEnd.1 = .ok (.leaf [] ⟨[0xFF], by decide⟩, []) ∧
      OneItem plain pastEnd.1 [0xFF] ∧ ¬ OneItem plain pastEnd.1 [] ∧ ¬ Safe plain pastEnd.1 := by
  have header : plain.decodeHeader pastEnd.1 = .ok (⟨true, 2⟩, [0x20, 0x81, 0xFF]) := by decide +kernel
  have panics : decoded plain emptyKey.1 = .error .panic := by rfl
  have decodes : decoded plain pastEnd.1 = .ok (.leaf [] ⟨[0xFF], by decide⟩, []) := by rfl
  have more : ¬ OneItem plain pastEnd.1 [] := by
    rintro ⟨_, _, ok, -, ends⟩
    rw [header] at ok
    cases ok
    cases ends
  refine ⟨panics, fun safe => safe.no_panic panics, decodes, ⟨_, _, header, by decide, rfl⟩, more, ?_⟩
  intro safe
  exact more (safe.consumes _ (Nat.le_refl _) _ _ decodes)

end Hostile

end TrieNode

end KonaSoon.Mpt
