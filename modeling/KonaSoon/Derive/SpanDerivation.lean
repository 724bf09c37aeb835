import KonaSoon.Derive.ChannelReader

namespace KonaSoon.Derive
open Lib Mpt

namespace RawSpanBatch

variable {codecs : Codecs} {overflowChecks : Bool} {raw : RawSpanBatch}

def originStep (originBits : SpanBatchBits) (i : Nat) : UInt64 := if originBits.isSet i then 1 else 0

structure CountsUp (originBits : SpanBatchBits) (n : Nat) (last : UInt64) (origins : List UInt64) : Prop where
  blocks : origins.length = n
  ends : 0 < n → origins.getLast? = some last
  steps : ∀ i previous epoch, origins[i]? = some previous → origins[i + 1]? = some epoch →
    epoch = previous + originStep originBits (i + 1)

theorem blockOriginNums_countsUp {originBits : SpanBatchBits} {n : Nat} {l1OriginNumber : UInt64} {origins : List UInt64}
    (ok : blockOriginNums overflowChecks originBits n l1OriginNumber = .ok origins) :
    CountsUp originBits n l1OriginNumber origins := by
  induction n generalizing l1OriginNumber origins with
  | zero =>
      cases ok
      exact ⟨rfl, fun positive => absurd positive (Nat.lt_irrefl 0), by simp⟩
  | succ n ih =>
      rw [blockOriginNums] at ok
      cases found : originBits.getBit n with
      | none =>
          rw [found] at ok
          cases ok
      | some bit =>
          rw [found] at ok
          obtain ⟨earlier, counted, before, rest, made⟩ : ∃ earlier,
              (if bit = 1 ∧ 0 < n then subU64 overflowChecks l1OriginNumber 1 else .ok l1OriginNumber) =
                (.ok earlier : Outcome SpanBatchError UInt64) ∧
              ∃ before, blockOriginNums overflowChecks originBits n earlier = .ok before ∧
                before ++ [l1OriginNumber] = origins := by
            by_cases changes : bit = 1 ∧ 0 < n
            · simp only [if_pos changes, bind_eq_ok] at ok ⊢
              obtain ⟨earlier, counted, before, rest, made⟩ := ok
              exact ⟨earlier, counted, before, rest, Except.ok.inj made⟩
            · simp only [if_neg changes, ok_bind, bind_eq_ok] at ok ⊢
              obtain ⟨before, rest, made⟩ := ok
              exact ⟨l1OriginNumber, rfl, before, rest, Except.ok.inj made⟩
          subst made
          have up := ih rest
          refine ⟨by simp [up.blocks], by simp, ?_⟩
          intro i previous epoch here next
          rcases Nat.lt_or_ge (i + 1) n with inside | beyond
          · rw [List.getElem?_append_left (by rw [up.blocks]; omega)] at here next
            exact up.steps i previous epoch here next
          · -- The step to the last block, from the last of the blocks before it.
            have last : i + 1 = n := by
              have := (List.getElem?_eq_some_iff.mp next).1
              rw [List.length_append, up.blocks, List.length_singleton] at this
              omega
            subst last
            rw [List.getElem?_append_left (by rw [up.blocks]; omega)] at here
            rw [List.getElem?_append_right (by rw [up.blocks]), up.blocks, Nat.sub_self] at next
            cases next
            have ends := up.ends (Nat.succ_pos i)
            rw [List.getLast?_eq_getElem?, up.blocks, Nat.add_sub_cancel, here] at ends
            cases ends
            by_cases changes : bit = 1
            · have set : originBits.isSet (i + 1) := by simp [SpanBatchBits.isSet, found, changes]
              rw [if_pos ⟨changes, Nat.succ_pos i⟩] at counted
              rw [subU64_eq_ok counted, originStep, if_pos set, UInt64.sub_add_cancel]
            · have clear : ¬ originBits.isSet (i + 1) := by simp [SpanBatchBits.isSet, found, changes]
              rw [if_neg (fun both => changes both.1)] at counted
              cases counted
              rw [originStep, if_neg clear, UInt64.add_zero]

theorem takeTxs_eq_ok {envelopedTxs transactions : List (List UInt8)} {txIdx count : Nat}
    (ok : ((List.range count).mapM fun k => Outcome.unwrap envelopedTxs[txIdx + k]? :
      Outcome SpanBatchError (List (List UInt8))) = .ok transactions) :
    transactions = (envelopedTxs.drop txIdx).take count ∧ transactions.length = count := by
  induction count generalizing transactions with
  | zero =>
      cases ok
      exact ⟨rfl, rfl⟩
  | succ count ih =>
      rw [List.range_succ, List.mapM_append] at ok
      simp only [bind_eq_ok] at ok
      obtain ⟨earlier, taken, last, lastOk, made⟩ := ok
      obtain ⟨rfl, length⟩ := ih taken
      rw [List.mapM_cons] at lastOk
      simp only [bind_eq_ok, Outcome.unwrap_eq_ok] at lastOk
      obtain ⟨tx, found, none, noneOk, lastMade⟩ := lastOk
      cases noneOk
      cases lastMade
      cases made
      refine ⟨?_, by simp [length]⟩
      rw [List.take_add_one, List.getElem?_drop, found]
      rfl

theorem elementsFrom_succ_eq_ok {blockTime genesisTime : UInt64} {origins : List UInt64} {envelopedTxs : List (List UInt8)}
    {remaining i txIdx : Nat} {batches : List SpanBatchElement}
    (ok : raw.elementsFrom overflowChecks blockTime genesisTime origins envelopedTxs (remaining + 1) i txIdx = .ok batches) :
    ∃ count epochNum later, raw.payload.blockTxCounts[i]? = some count ∧ origins[i]? = some epochNum ∧
      ((envelopedTxs.drop txIdx).take count.toNat).length = count.toNat ∧
      raw.elementsFrom overflowChecks blockTime genesisTime origins envelopedTxs remaining (i + 1) (txIdx + count.toNat) =
        .ok later ∧
      batches = ⟨epochNum, genesisTime + raw.head.relTimestamp + blockTime * UInt64.ofNat i,
        (envelopedTxs.drop txIdx).take count.toNat⟩ :: later := by
  simp only [elementsFrom, bind_eq_ok, Outcome.unwrap_eq_ok] at ok
  obtain ⟨count, counted, transactions, taken, epochNum, named, start, added, elapsed, multiplied, timestamp, timed, later,
    rest, made⟩ := ok
  cases made
  obtain ⟨rfl, length⟩ := takeTxs_eq_ok taken
  cases addU64_eq_ok added
  cases mulU64_eq_ok multiplied
  cases addU64_eq_ok timed
  exact ⟨count, epochNum, later, counted, named, length, rest, rfl⟩

structure Made (raw : RawSpanBatch) (blockTime genesisTime : UInt64) (origins : List UInt64)
    (envelopedTxs : List (List UInt8)) (remaining i txIdx : Nat) (batches : List SpanBatchElement) : Prop where
  blocks : batches.length = remaining
  epochs : ∀ k element, batches[k]? = some element → origins[i + k]? = some element.epochNum
  times : ∀ k element, batches[k]? = some element →
    element.timestamp = genesisTime + raw.head.relTimestamp + blockTime * UInt64.ofNat (i + k)
  sizes : batches.map (fun element => element.transactions.length) =
    ((raw.payload.blockTxCounts.drop i).take remaining).map UInt64.toNat
  transactions : batches.flatMap (·.transactions) =
    (envelopedTxs.drop txIdx).take (((raw.payload.blockTxCounts.drop i).take remaining).map UInt64.toNat).sum

theorem elementsFrom_made {blockTime genesisTime : UInt64} {origins : List UInt64} {envelopedTxs : List (List UInt8)}
    {remaining i txIdx : Nat} {batches : List SpanBatchElement}
    (ok : raw.elementsFrom overflowChecks blockTime genesisTime origins envelopedTxs remaining i txIdx = .ok batches) :
    Made raw blockTime genesisTime origins envelopedTxs remaining i txIdx batches := by
  induction remaining generalizing i txIdx batches with
  | zero =>
      cases ok
      exact ⟨rfl, by simp, by simp, by simp, by simp⟩
  | succ remaining ih =>
      obtain ⟨count, epochNum, later, counted, named, length, rest, rfl⟩ := elementsFrom_succ_eq_ok ok
      have made := ih rest
      obtain ⟨inside, rfl⟩ := List.getElem?_eq_some_iff.mp counted
      have counts : (raw.payload.blockTxCounts.drop i).take (remaining + 1) =
          raw.payload.blockTxCounts[i] :: (raw.payload.blockTxCounts.drop (i + 1)).take remaining := by
        rw [List.drop_eq_getElem_cons inside, List.take_succ_cons]
      refine ⟨by simp [made.blocks], ?_, ?_, ?_, ?_⟩
      · intro k element here
        cases k with
        | zero =>
            cases here
            exact named
        | succ k =>
            have place : i + (k + 1) = i + 1 + k := by omega
            rw [place]
            exact made.epochs k element here
      · intro k element here
        cases k with
        | zero =>
            cases here
            rfl
        | succ k =>
            have place : i + (k + 1) = i + 1 + k := by omega
            rw [place]
            exact made.times k element here
      · rw [counts, List.map_cons, List.map_cons, made.sizes, length]
      · rw [counts, List.map_cons, List.sum_cons, List.flatMap_cons, made.transactions, List.take_add, List.drop_drop]

theorem derive_eq_ok {blockTime genesisTime chainId : UInt64} {batch : SpanBatch}
    (ok : raw.derive codecs overflowChecks blockTime genesisTime chainId = .ok batch) :
    ∃ origins envelopedTxs, CountsUp raw.payload.originBits raw.payload.blockCount.toNat raw.head.l1OriginNum origins ∧
      raw.payload.txs.fullTxs codecs chainId = .ok envelopedTxs ∧
      Made raw blockTime genesisTime origins envelopedTxs raw.payload.blockCount.toNat 0 0 batch.batches ∧
      0 < raw.payload.blockCount.toNat := by
  unfold derive at ok
  split at ok
  · cases ok
  · rename_i blocks
    simp only [bind_eq_ok] at ok
    obtain ⟨origins, originsOk, envelopedTxs, txsOk, batches, elementsOk, made⟩ := ok
    cases made
    refine ⟨origins, envelopedTxs, blockOriginNums_countsUp originsOk, txsOk, elementsFrom_made elementsOk, ?_⟩
    rw [Nat.pos_iff_ne_zero]
    intro zero
    exact blocks (UInt64.toNat.inj zero)

theorem decode_shaped {r rest : List UInt8} (decoded : decode codecs overflowChecks r = .ok (raw, rest)) : raw.Shaped := by
  simp only [decode_eq_groups, decodeGroups, Reads.bind_ok_iff] at decoded
  obtain ⟨opening, r₁, -, hashChecks, r₂, -, counts, r₃, countsOk, signed, r₄, signedOk, columns, r₅, columnsOk, made⟩ :=
    decoded
  cases made
  exact assemble_shaped (decodeCounts_decoded countsOk) signedOk columnsOk

structure Reconstructs (codecs : Codecs) (raw : RawSpanBatch) (blockTime genesisTime chainId : UInt64) (batch : SpanBatch) :
    Prop where
  blocks : batch.batches.length = raw.payload.blockCount.toNat
  ends : batch.batches.getLast?.map (·.epochNum) = some raw.head.l1OriginNum
  steps : ∀ i previous element, batch.batches[i]? = some previous → batch.batches[i + 1]? = some element →
    element.epochNum.toNat = previous.epochNum.toNat + if raw.payload.originBits.isSet (i + 1) then 1 else 0
  times : ∀ i element, batch.batches[i]? = some element →
    element.timestamp.toNat = genesisTime.toNat + raw.head.relTimestamp.toNat + blockTime.toNat * i
  sizes : batch.batches.map (fun element => element.transactions.length) = raw.payload.blockTxCounts.map UInt64.toNat
  transactions : raw.payload.txs.fullTxs codecs chainId = .ok (batch.batches.flatMap (·.transactions))

theorem Made.ends {blockTime genesisTime : UInt64} {origins : List UInt64} {envelopedTxs : List (List UInt8)}
    {batches : List SpanBatchElement} {n : Nat} {last : UInt64}
    (made : Made raw blockTime genesisTime origins envelopedTxs n 0 0 batches)
    (up : CountsUp raw.payload.originBits n last origins) (blocks : 0 < n) :
    batches.getLast?.map (·.epochNum) = some last := by
  have inside : batches.length - 1 < batches.length := by
    rw [made.blocks]
    omega
  have element := made.epochs _ _ (List.getElem?_eq_getElem inside)
  have ends := up.ends blocks
  rw [List.getLast?_eq_getElem?, up.blocks, ← made.blocks] at ends
  rw [Nat.zero_add, ends] at element
  rw [List.getLast?_eq_getElem?, List.getElem?_eq_getElem inside, Option.map_some, ← Option.some.inj element]

theorem Made.steps {blockTime genesisTime : UInt64} {origins : List UInt64} {envelopedTxs : List (List UInt8)}
    {batches : List SpanBatchElement} {n : Nat} {last : UInt64}
    (made : Made raw blockTime genesisTime origins envelopedTxs n 0 0 batches)
    (up : CountsUp raw.payload.originBits n last origins) {i : Nat} {previous element : SpanBatchElement}
    (here : batches[i]? = some previous) (next : batches[i + 1]? = some element) :
    element.epochNum = previous.epochNum + originStep raw.payload.originBits (i + 1) := by
  have before := made.epochs i previous here
  have after := made.epochs (i + 1) element next
  rw [Nat.zero_add] at before after
  exact up.steps i _ _ before after

theorem toNat_originStep (originBits : SpanBatchBits) (i : Nat) :
    (originStep originBits i).toNat = if originBits.isSet i then 1 else 0 := by
  unfold originStep
  split
  · rfl
  · rfl

/-- With enough blocks before the last origin no epoch is below zero. The induction counts down from the last block. -/
theorem CountsUp.toNat_epoch {originBits : SpanBatchBits} {n : Nat} {last : UInt64} {origins : List UInt64}
    (up : CountsUp originBits n last origins) (enough : originChanges originBits n ≤ last.toNat) (k : Nat) :
    ∀ i epoch, i + k + 1 = n → origins[i]? = some epoch →
      epoch.toNat + originChanges originBits n = last.toNat + originChanges originBits (i + 1) := by
  induction k with
  | zero =>
      intro i epoch place here
      have ends := up.ends (by omega)
      rw [List.getLast?_eq_getElem?, up.blocks, show n - 1 = i by omega, here] at ends
      cases ends
      rw [show i + 1 = n by omega]
  | succ k ih =>
      intro i epoch place here
      obtain ⟨next, there⟩ : ∃ next, origins[i + 1]? = some next :=
        ⟨_, List.getElem?_eq_getElem (by rw [up.blocks]; omega)⟩
      have later := ih (i + 1) next (by omega) there
      have step := congrArg UInt64.toNat (up.steps i epoch next here there)
      have changes := originChanges_succ originBits (i + 1)
      have bound := epoch.toNat_lt
      have bound' := next.toNat_lt
      rw [UInt64.toNat_add, toNat_originStep] at step
      by_cases set : originBits.isSet (i + 1)
      · rw [if_pos ⟨Nat.succ_pos i, set⟩] at changes
        rw [if_pos set] at step
        omega
      · rw [if_neg (fun both => set both.2)] at changes
        rw [if_neg set, Nat.add_zero, Nat.mod_eq_of_lt bound] at step
        omega

theorem derive_ok_reconstructs {blockTime genesisTime chainId : UInt64} (shaped : raw.Shaped)
    (enough : originChanges raw.payload.originBits raw.payload.blockCount.toNat ≤ raw.head.l1OriginNum.toNat)
    (fits : raw.TimesFit blockTime genesisTime) {batch : SpanBatch}
    (ok : raw.derive codecs overflowChecks blockTime genesisTime chainId = .ok batch) :
    Reconstructs codecs raw blockTime genesisTime chainId batch := by
  obtain ⟨origins, envelopedTxs, up, txsOk, made, blocks⟩ := derive_eq_ok ok
  have every : raw.payload.blockTxCounts.take raw.payload.blockCount.toNat = raw.payload.blockTxCounts := by
    rw [← shaped.perBlock, List.take_length]
  refine ⟨made.blocks, made.ends up blocks, ?_, ?_, ?_, ?_⟩
  · intro i previous element here next
    have inside : i + 1 < raw.payload.blockCount.toNat := by
      rw [← made.blocks]
      exact (List.getElem?_eq_some_iff.mp next).1
    have before := made.epochs i previous here
    have after := made.epochs (i + 1) element next
    rw [Nat.zero_add] at before after
    have counted := up.toNat_epoch enough (raw.payload.blockCount.toNat - i - 1) i _ (by omega) before
    have counted' := up.toNat_epoch enough (raw.payload.blockCount.toNat - i - 2) (i + 1) _ (by omega) after
    have changes := originChanges_succ raw.payload.originBits (i + 1)
    simp only [Nat.succ_pos, true_and] at changes
    omega
  · intro i element here
    have within : i < raw.payload.blockCount.toNat := by
      rw [← made.blocks]
      exact (List.getElem?_eq_some_iff.mp here).1
    have time := fits.time within
    have small : (UInt64.ofNat i).toNat = i :=
      UInt64.toNat_ofNat_of_lt' (Nat.lt_trans within raw.payload.blockCount.toNat_lt)
    rw [made.times i element here, Nat.zero_add, UInt64.toNat_add, UInt64.toNat_add, UInt64.toNat_mul]
    rw [small] at time ⊢
    rw [Nat.mod_eq_of_lt (by omega : genesisTime.toNat + raw.head.relTimestamp.toNat < 2 ^ 64),
      Nat.mod_eq_of_lt (by omega : blockTime.toNat * i < 2 ^ 64), Nat.mod_eq_of_lt time]
  · rw [made.sizes, List.drop_zero, every]
  · have length : envelopedTxs.length = (raw.payload.blockTxCounts.map UInt64.toNat).sum := by
      rcases fullTxs_cases codecs shaped chainId with ⟨txs, same, length, -⟩ | ⟨e, failed, -⟩
      · rw [txsOk] at same
        cases same
        rw [length, shaped.sum]
      · rw [txsOk] at failed
        cases failed
    rw [made.transactions, List.drop_zero, List.drop_zero, every, ← length, List.take_length, txsOk]

/-- A span batch that has been decoded is derived without a panic, and to the span that it stands for. -/
theorem derive_reconstructs (codecs : Codecs) (overflowChecks : Bool) (r rest : List UInt8) (raw : RawSpanBatch)
    (blockTime genesisTime chainId : UInt64) (decoded : decode codecs overflowChecks r = .ok (raw, rest))
    (enough : originChanges raw.payload.originBits raw.payload.blockCount.toNat ≤ raw.head.l1OriginNum.toNat)
    (fits : raw.TimesFit blockTime genesisTime) :
    Outcome.Returns (raw.derive codecs overflowChecks blockTime genesisTime chainId) ∧
      ∀ batch, raw.derive codecs overflowChecks blockTime genesisTime chainId = .ok batch →
        Reconstructs codecs raw blockTime genesisTime chainId batch := by
  have shaped := decode_shaped decoded
  refine ⟨?_, fun batch ok => derive_ok_reconstructs shaped enough fits ok⟩
  rcases derive_cases codecs overflowChecks shaped enough fits chainId with ⟨batch, ok, -⟩ | ⟨e, failed, -⟩
  · rw [ok]
    trivial
  · rw [failed]
    trivial

theorem length_plainRecipient : (List.replicate 20 (0x11 : UInt8)).length = 20 := List.length_replicate

def plainRecipient : Address := ⟨List.replicate 20 0x11, length_plainRecipient⟩

/-- A legacy transaction of one wei for a gas price of one, for nonces of a single byte. -/
def plainTxBytes (nonce : UInt64) : List UInt8 :=
  [0xdf, if nonce = 0 then 0x80 else nonce.toUInt8, 0x01, 0x82, 0x52, 0x08, 0x94] ++ plainRecipient.1 ++
    [0x01, 0x80, 0x1b, 0x01, 0x01]

def plainCodecs : Codecs :=
  { BatchReader.sampleCodecs with
    legacy := fun bytes => if bytes = [0xc3, 0x01, 0x01, 0x80] then .ok ⟨1, 1, []⟩ else .error .inputTooShort
    encode2718 := fun envelope =>
      match envelope.tx with
      | .legacy tx => plainTxBytes tx.nonce
      | _ => [] }

def oneWord : List UInt8 := List.replicate 31 0 ++ [1]

def twoBlockBytes : List UInt8 :=
  [5, 9] ++ List.replicate 40 0 ++ [2, 2, 2, 1, 0, 0] ++ (List.replicate 6 oneWord).flatten ++
    (List.replicate 3 plainRecipient.1).flatten ++ (List.replicate 3 [0xc3, 0x01, 0x01, 0x80]).flatten ++ [0, 1, 2] ++
    (List.replicate 3 [0x88, 0xa4, 0x01]).flatten ++ [0]

/-- Two blocks with two transactions and one, the second block with a later origin than the first. -/
def twoBlocks : RawSpanBatch :=
  ⟨⟨5, 9, ⟨List.replicate 20 0, length_zeroAddress⟩, ⟨List.replicate 20 0, length_zeroAddress⟩⟩, 2, ⟨[2]⟩, [2, 1], 3,
    ⟨[0]⟩, List.replicate 3 ⟨1, 1, false⟩, [0, 1, 2], List.replicate 3 21000, List.replicate 3 plainRecipient,
    List.replicate 3 [0xc3, 0x01, 0x01, 0x80], ⟨[0]⟩, List.replicate 3 .legacy, 3⟩

theorem derive_reconstructs_twoBlocks :
    RawSpanBatch.decode plainCodecs true twoBlockBytes = .ok (twoBlocks, []) ∧
    ∃ batch, twoBlocks.derive plainCodecs true 2 100 1 = .ok batch ∧
      batch.batches.map (·.transactions) = [[plainTxBytes 0, plainTxBytes 1], [plainTxBytes 2]] ∧
      Reconstructs plainCodecs twoBlocks 2 100 1 batch := by
  have decoded : RawSpanBatch.decode plainCodecs true twoBlockBytes = .ok (twoBlocks, []) := by decide +kernel
  have derived : twoBlocks.derive plainCodecs true 2 100 1 =
      .ok ⟨⟨List.replicate 20 0, rfl⟩, ⟨List.replicate 20 0, rfl⟩,
        [⟨8, 105, [plainTxBytes 0, plainTxBytes 1]⟩, ⟨9, 107, [plainTxBytes 2]⟩]⟩ := by
    decide +kernel
  have enough : originChanges twoBlocks.payload.originBits twoBlocks.payload.blockCount.toNat ≤
      twoBlocks.head.l1OriginNum.toNat := by
    decide +kernel
  have fits : twoBlocks.TimesFit 2 100 := by
    unfold TimesFit
    decide +kernel
  exact ⟨decoded, _, derived, rfl,
    (derive_reconstructs plainCodecs true twoBlockBytes [] twoBlocks 2 100 1 decoded enough fits).2 _ derived⟩

end RawSpanBatch

end KonaSoon.Derive
