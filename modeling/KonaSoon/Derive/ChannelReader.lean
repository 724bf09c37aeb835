import KonaSoon.Derive.SpanBounds

/-!
# Reading the batches of a channel

`BatchReader` (`derive/src/stages/channel/channel_reader.rs`) decompresses one chunk of a channel after the other
and decodes the batch in it. A chunk is anything that somebody posted, so the question is which chunks stop the
reader with a panic.
-/

namespace KonaSoon.Derive
open Lib Mpt

def zlibDeflateCompressionMethod : UInt8 := 8

def zlibReservedCompressionMethod : UInt8 := 15

/-- `decompress_to_vec_zlib`: the output and how much of the input it came from. -/
abbrev Inflate := List UInt8 → Option (List UInt8 × Nat)

def Inflate.Consumes (inflate : Inflate) : Prop :=
  ∀ input output consumed, inflate input = some (output, consumed) → 0 < consumed ∧ consumed ≤ input.length

structure BatchReader where
  data : Option (List UInt8)
  cursor : Nat
  maxRlpBytesPerChannel : Nat
deriving DecidableEq, Repr

namespace BatchReader

def new (data : List UInt8) (maxRlpBytesPerChannel : Nat) : BatchReader := ⟨some data, 0, maxRlpBytesPerChannel⟩

def isZlib (compressedData : List UInt8) : Bool :=
  compressedData.head?.any fun compressionType =>
    compressionType &&& 0x0F = zlibDeflateCompressionMethod || compressionType &&& 0x0F = zlibReservedCompressionMethod

def nextChunk (codecs : Codecs) (overflowChecks : Bool) (reader : BatchReader) (decompressed : List UInt8)
    (consumed : Nat) : BatchReader × Outcome Empty (Option Batch) :=
  if reader.maxRlpBytesPerChannel < decompressed.length then (reader, .ok none)
  else match Batch.decode codecs overflowChecks decompressed with
    | .error (.error _) => (reader, .ok none)
    | .error .panic => (reader, .error .panic)
    | .error .outOfFuel => (reader, .error .outOfFuel)
    | .ok (.single batch) => ({ reader with cursor := reader.cursor + consumed }, .ok (some (.single batch)))
    -- `unimplemented!("span batch is not supported yet")`
    | .ok (.span _) => (reader, .error .panic)

def nextBatch (codecs : Codecs) (inflate : Inflate) (overflowChecks : Bool) (reader : BatchReader) :
    BatchReader × Outcome Empty (Option Batch) :=
  match reader.data with
  | none => (reader, .ok none)
  | some channelData =>
      if channelData.length < reader.cursor then (reader, .error .panic)
      else if isZlib (channelData.drop reader.cursor) then
        match inflate (channelData.drop reader.cursor) with
        | none => (reader, .ok none)
        | some (decompressed, consumed) => reader.nextChunk codecs overflowChecks decompressed consumed
      else (reader, .ok none)

end BatchReader

/-! ## Which batches decode -/

namespace Batch

variable {codecs : Codecs}

/-- Batches that decode or fail to without a panic or an overflow: all but those of an unknown type and span
batches that break off inside a slice or announce too many origin changes. -/
def InBounds (codecs : Codecs) (bytes : List UInt8) : Prop :=
  ∀ first r, bytes = first :: r → first = 0 ∨ first = 1 ∧ RawSpanBatch.InBounds codecs r

def Readable (codecs : Codecs) (bytes : List UInt8) : Prop :=
  ∀ first r, bytes = first :: r → first = 0 ∨ first = 1 ∧ RawSpanBatch.Refused codecs r

theorem ends_mapError {ε ε' α : Type} {allowed : Prop} (f : ε → ε') {x : Outcome ε α} :
    Outcome.Ends allowed (mapError f x) ↔ Outcome.Ends allowed x := by
  cases x with
  | ok a => exact Iff.rfl
  | error stop => cases stop <;> exact Iff.rfl

def spanOf (codecs : Codecs) (overflowChecks : Bool) (r : List UInt8) : Outcome PipelineEncodingError SpanBatch :=
  mapError .spanBatchError (((RawSpanBatch.decode codecs overflowChecks >>=
    RawSpanBatch.deriveRead codecs overflowChecks) r).map (·.1))

theorem decode_span (overflowChecks : Bool) (r : List UInt8) :
    decode codecs overflowChecks (1 :: r) = (spanOf codecs overflowChecks r).map .span := by
  rw [spanOf, Reads.bind_apply]
  change mapError PipelineEncodingError.spanBatchError (RawSpanBatch.decode codecs overflowChecks r >>= fun read =>
    (read.1.derive codecs overflowChecks 0 0 0).map Batch.span) = _
  cases decoded : RawSpanBatch.decode codecs overflowChecks r with
  | error stop => rfl
  | ok read =>
      simp only [ok_bind, RawSpanBatch.deriveRead, StateT.lift]
      cases derived : read.1.derive codecs overflowChecks 0 0 0 with
      | error stop => rfl
      | ok batch => rfl

theorem decode_single (codecs : Codecs) (overflowChecks : Bool) (r : List UInt8) :
    (∃ batch, decode codecs overflowChecks (0 :: r) = .ok (.single batch)) ∨
    (∃ e, decode codecs overflowChecks (0 :: r) = .error (.error e)) := by
  change (∃ batch, ((codecs.singleBatch r).map Batch.single).mapError _ = _) ∨
    (∃ e, ((codecs.singleBatch r).map Batch.single).mapError _ = _)
  cases codecs.singleBatch r with
  | ok batch => exact .inl ⟨batch, rfl⟩
  | error e => exact .inr ⟨.alloyRlpError e, rfl⟩

theorem decode_unknown (overflowChecks : Bool) {first : UInt8} (r : List UInt8) (single : first ≠ 0) (span : first ≠ 1) :
    decode codecs overflowChecks (first :: r) = .error .panic := by
  simp only [decode, BatchType.ofByte, if_neg single, if_neg span]
  rfl

theorem spanOf_ends_iff (fits : codecs.rlp.HeaderFits) {allowed : Prop} {r : List UInt8} :
    (∀ overflowChecks, Outcome.Ends allowed (spanOf codecs overflowChecks r)) ↔
      RawSpanBatch.Tolerated codecs allowed r := by
  simp only [spanOf, ends_mapError, Outcome.ends_map]
  exact ⟨fun ends => RawSpanBatch.tolerated_of_ends fits (ends true), RawSpanBatch.ends_of_tolerated fits⟩

theorem decode_returns_iff (fits : codecs.rlp.HeaderFits) (bytes : List UInt8) :
    (∀ overflowChecks, Outcome.Returns (decode codecs overflowChecks bytes)) ↔ InBounds codecs bytes := by
  cases bytes with
  | nil => exact ⟨fun _ _ _ same => (List.cons_ne_nil _ _ same.symm).elim, fun _ _ => trivial⟩
  | cons first r =>
      have only : InBounds codecs (first :: r) ↔ first = 0 ∨ first = 1 ∧ RawSpanBatch.InBounds codecs r := by
        constructor
        · intro inBounds
          exact inBounds first r rfl
        · intro inBounds first' r' same
          cases same
          exact inBounds
      rw [only]
      by_cases single : first = 0
      · subst single
        refine ⟨fun _ => .inl rfl, fun _ overflowChecks => ?_⟩
        rcases decode_single codecs overflowChecks r with ⟨batch, ok⟩ | ⟨e, failed⟩
        · rw [ok]
          trivial
        · rw [failed]
          trivial
      · by_cases span : first = 1
        · subst span
          simp only [single, false_or, true_and, decode_span]
          rw [RawSpanBatch.InBounds, ← spanOf_ends_iff fits]
          simp only [← Outcome.ends_true_iff, Outcome.ends_map]
        · simp only [single, span, false_or, false_and, iff_false]
          intro returns
          have panics := returns true
          rw [decode_unknown true r single span] at panics
          exact panics

end Batch

/-! ## Runs of the reader -/

namespace BatchReader

variable {codecs : Codecs} {inflate : Inflate}

theorem nextChunk_returns_iff (fits : codecs.rlp.HeaderFits) (reader : BatchReader) {decompressed : List UInt8}
    (small : decompressed.length ≤ reader.maxRlpBytesPerChannel) (consumed : Nat) :
    (∀ overflowChecks, Outcome.Returns (reader.nextChunk codecs overflowChecks decompressed consumed).2) ↔
      Batch.Readable codecs decompressed := by
  have fitting : ¬ reader.maxRlpBytesPerChannel < decompressed.length := Nat.not_lt.mpr small
  simp only [nextChunk, if_neg fitting]
  cases decompressed with
  | nil => exact ⟨fun _ _ _ same => (List.cons_ne_nil _ _ same.symm).elim, fun _ _ => trivial⟩
  | cons first r =>
      have only : Batch.Readable codecs (first :: r) ↔ first = 0 ∨ first = 1 ∧ RawSpanBatch.Refused codecs r := by
        constructor
        · intro readable
          exact readable first r rfl
        · intro readable first' r' same
          cases same
          exact readable
      rw [only]
      by_cases single : first = 0
      · subst single
        refine ⟨fun _ => .inl rfl, fun _ overflowChecks => ?_⟩
        rcases Batch.decode_single codecs overflowChecks r with ⟨batch, ok⟩ | ⟨e, failed⟩
        · rw [ok]
          trivial
        · rw [failed]
          trivial
      · by_cases span : first = 1
        · subst span
          simp only [single, false_or, true_and, Batch.decode_span]
          rw [RawSpanBatch.Refused, ← Batch.spanOf_ends_iff fits]
          refine forall_congr' fun overflowChecks => ?_
          -- a span batch that decodes is what the reader does not support
          cases Batch.spanOf codecs overflowChecks r with
          | ok batch => exact Iff.rfl
          | error stop => cases stop <;> exact Iff.rfl
        · simp only [single, span, false_or, false_and, iff_false]
          intro returns
          have panics := returns true
          rw [Batch.decode_unknown true r single span] at panics
          exact panics

/-- The chunk at the cursor, if the reader gets to decode it, holds a batch that it can take. -/
def Meets (codecs : Codecs) (inflate : Inflate) (reader : BatchReader) : Prop :=
  ∀ channelData decompressed consumed, reader.data = some channelData → isZlib (channelData.drop reader.cursor) →
    inflate (channelData.drop reader.cursor) = some (decompressed, consumed) →
    decompressed.length ≤ reader.maxRlpBytesPerChannel → Batch.Readable codecs decompressed

def Holds (codecs : Codecs) (inflate : Inflate) (length : Nat) (reader : BatchReader) : Prop :=
  (∀ overflowChecks, Outcome.Returns (reader.nextBatch codecs inflate overflowChecks).2) ∧
    (reader.nextBatch codecs inflate false).1.cursor ≤ length

def Within (data : List UInt8) (reader : BatchReader) : Prop := reader.data = some data ∧ reader.cursor ≤ data.length

theorem nextBatch_within (consumes : inflate.Consumes) {data : List UInt8} {reader : BatchReader}
    (within : Within data reader) (overflowChecks : Bool) :
    Within data (reader.nextBatch codecs inflate overflowChecks).1 := by
  obtain ⟨holds, inside⟩ := within
  simp only [nextBatch, holds, if_neg (Nat.not_lt.mpr inside)]
  split
  · split
    · exact ⟨holds, inside⟩
    · rename_i decompressed consumed inflated
      have bound := (consumes _ _ _ inflated).2
      rw [List.length_drop] at bound
      unfold nextChunk
      split
      · exact ⟨holds, inside⟩
      · split
        · exact ⟨holds, inside⟩
        · exact ⟨holds, inside⟩
        · exact ⟨holds, inside⟩
        · exact ⟨holds, by simp only; omega⟩
        · exact ⟨holds, inside⟩
  · exact ⟨holds, inside⟩

theorem nextBatch_returns_iff (fits : codecs.rlp.HeaderFits) {data : List UInt8} {reader : BatchReader}
    (within : Within data reader) :
    (∀ overflowChecks, Outcome.Returns (reader.nextBatch codecs inflate overflowChecks).2) ↔
      reader.Meets codecs inflate := by
  obtain ⟨holds, inside⟩ := within
  simp only [nextBatch, Meets, holds, if_neg (Nat.not_lt.mpr inside)]
  by_cases zlib : isZlib (data.drop reader.cursor)
  · cases inflated : inflate (data.drop reader.cursor) with
    | none =>
        constructor
        · intro _ channelData decompressed consumed same _ inflated'
          cases same
          rw [inflated] at inflated'
          cases inflated'
        · intro _ overflowChecks
          simp [zlib]
    | some read =>
        simp only [zlib, if_true]
        by_cases small : read.1.length ≤ reader.maxRlpBytesPerChannel
        · rw [nextChunk_returns_iff fits reader small read.2]
          constructor
          · intro readable channelData decompressed consumed same _ inflated' _
            cases same
            rw [inflated] at inflated'
            cases inflated'
            exact readable
          · intro readable
            exact readable data read.1 read.2 rfl zlib inflated small
        · constructor
          · intro _ channelData decompressed consumed same _ inflated' small'
            cases same
            rw [inflated] at inflated'
            cases inflated'
            exact absurd small' small
          · intro _ overflowChecks
            simp [nextChunk, Nat.not_le.mp small]
  · constructor
    · intro _ channelData decompressed consumed same zlib'
      cases same
      exact absurd zlib' zlib
    · intro _ overflowChecks
      simp [zlib]

/-- Reading a channel never stops in a panic, an overflow or a slice out of range, and never leaves the channel,
exactly as long as every chunk it comes to holds a batch that it can take; and decoding a batch returns exactly
if the batch is in bounds. -/
theorem reading_returns_iff (codecs : Codecs) (fits : codecs.rlp.HeaderFits) (inflate : Inflate)
    (consumes : inflate.Consumes) (data : List UInt8) (maxRlpBytesPerChannel calls : Nat) :
    (Along (fun reader (_ : Unit) => reader.nextBatch codecs inflate false)
        (fun reader _ => reader.Holds codecs inflate data.length) (new data maxRlpBytesPerChannel)
        (List.replicate calls ()) ↔
      Along (fun reader (_ : Unit) => reader.nextBatch codecs inflate false)
        (fun reader _ => reader.Meets codecs inflate) (new data maxRlpBytesPerChannel) (List.replicate calls ())) ∧
    ∀ bytes, (∀ overflowChecks, Outcome.Returns (Batch.decode codecs overflowChecks bytes)) ↔
      Batch.InBounds codecs bytes := by
  refine ⟨?_, Batch.decode_returns_iff fits⟩
  refine along_iff_of_invariant (Within data) ?_ ?_ ⟨rfl, Nat.zero_le _⟩
  · intro reader _ _ within _
    exact nextBatch_within consumes within false
  · intro reader _ _ within
    rw [Holds, nextBatch_returns_iff fits within]
    exact and_iff_left (nextBatch_within consumes within false).2

/-! ## Channels -/

/-- `unsigned_varint::decode::u64`: seven bits a byte, lowest first, with no zero byte at the end. -/
def varintU64 (i : Nat) (n : UInt64) : List UInt8 → Option (UInt64 × List UInt8)
  | [] => none
  | b :: rest =>
      let n := n ||| ((b &&& 0x7F).toUInt64 <<< UInt64.ofNat (7 * i))
      if b &&& 0x80 = 0 then if b = 0 ∧ 0 < i then none else some (n, rest)
      else if i = 9 then none
      else varintU64 (i + 1) n rest

theorem length_zeroHash : (List.replicate 32 (0 : UInt8)).length = 32 := List.length_replicate

def emptyBatch : SingleBatch :=
  ⟨⟨List.replicate 32 0, length_zeroHash⟩, 0, ⟨List.replicate 32 0, length_zeroHash⟩, 0, []⟩

/-- The RLP of `emptyBatch`. -/
def emptyBatchBytes : List UInt8 :=
  [0xf8, 0x45, 0xa0] ++ List.replicate 32 0 ++ [0x80, 0xa0] ++ List.replicate 32 0 ++ [0x80, 0xc0]

def sampleCodecs : Codecs where
  rlp := Rlp.standard
  varintU64 := varintU64 0 0
  singleBatch bytes := if bytes = emptyBatchBytes then .ok emptyBatch else .error .inputTooShort
  legacy _ := .error .inputTooShort
  eip2930 _ := .error .inputTooShort
  eip1559 _ := .error .inputTooShort
  eip7702 _ := .error .inputTooShort
  signatureHash _ := ⟨List.replicate 32 0, length_zeroHash⟩
  encode2718 _ := []

def batchChunk : List UInt8 := [120, 156, 99, 248, 225, 186, 128, 129, 0, 104, 32, 172, 226, 0, 0, 172, 174, 4, 62]

def cutSpanChunk : List UInt8 := [120, 156, 99, 4, 0, 0, 2, 0, 2]

def unknownChunk : List UInt8 := [120, 156, 99, 2, 0, 0, 3, 0, 3]

def cutPrefixChunk : List UInt8 := [120, 156, 99, 100, 96, 0, 0, 0, 6, 0, 2]

def sampleInflate : Inflate := fun input =>
  if input = batchChunk ++ cutSpanChunk then some (0 :: emptyBatchBytes, batchChunk.length)
  else if input = cutSpanChunk then some ([1], cutSpanChunk.length)
  else if input = unknownChunk then some ([2], unknownChunk.length)
  else if input = cutPrefixChunk then some ([1, 0, 0], cutPrefixChunk.length)
  else none

theorem sampleInflate_consumes : sampleInflate.Consumes := by
  intro input output consumed inflated
  unfold sampleInflate at inflated
  split at inflated
  · rename_i same
    cases inflated
    subst same
    decide
  · split at inflated
    · rename_i same
      cases inflated
      subst same
      decide
    · split at inflated
      · rename_i same
        cases inflated
        subst same
        decide
      · split at inflated
        · rename_i same
          cases inflated
          subst same
          decide
        · cases inflated

theorem meets_batchChunk : (new (batchChunk ++ cutSpanChunk) 1000).Meets sampleCodecs sampleInflate := by
  intro channelData decompressed consumed same _ inflated _
  cases same
  have output : sampleInflate ((batchChunk ++ cutSpanChunk).drop 0) = some (0 :: emptyBatchBytes, batchChunk.length) := by
    decide +kernel
  rw [new, output] at inflated
  cases inflated
  intro first r same
  cases same
  exact .inl rfl

theorem meets_cutSpanChunk :
    BatchReader.Meets sampleCodecs sampleInflate ⟨some (batchChunk ++ cutSpanChunk), batchChunk.length, 1000⟩ := by
  intro channelData decompressed consumed same _ inflated _
  cases same
  have output : sampleInflate ((batchChunk ++ cutSpanChunk).drop batchChunk.length) = some ([1], cutSpanChunk.length) := by
    decide +kernel
  rw [output] at inflated
  cases inflated
  intro first r same
  cases same
  refine .inr ⟨rfl, fun opening r₁ read => ?_⟩
  have failed : RawSpanBatch.decodeOpening sampleCodecs [] = .error (.error (.decoding .relativeTimestamp)) := rfl
  rw [failed] at read
  cases read

theorem nextBatch_batchChunk : (new (batchChunk ++ cutSpanChunk) 1000).nextBatch sampleCodecs sampleInflate false =
    (⟨some (batchChunk ++ cutSpanChunk), batchChunk.length, 1000⟩, .ok (some (.single emptyBatch))) := by
  decide +kernel

theorem nextBatch_cutSpanChunk :
    nextBatch sampleCodecs sampleInflate false ⟨some (batchChunk ++ cutSpanChunk), batchChunk.length, 1000⟩ =
      (⟨some (batchChunk ++ cutSpanChunk), batchChunk.length, 1000⟩, .ok none) := by
  decide +kernel

theorem reading_returns_two_chunks : sampleCodecs.rlp.HeaderFits ∧ sampleInflate.Consumes ∧
    Along (fun reader (_ : Unit) => reader.nextBatch sampleCodecs sampleInflate false)
      (fun reader _ => reader.Holds sampleCodecs sampleInflate (batchChunk ++ cutSpanChunk).length)
      (new (batchChunk ++ cutSpanChunk) 1000) (List.replicate 3 ()) := by
  refine ⟨Rlp.standard_headerFits, sampleInflate_consumes,
    (reading_returns_iff sampleCodecs Rlp.standard_headerFits sampleInflate sampleInflate_consumes
      (batchChunk ++ cutSpanChunk) 1000 3).1.mpr ?_⟩
  refine ⟨meets_batchChunk, ?_⟩
  simp only [nextBatch_batchChunk]
  refine ⟨meets_cutSpanChunk, ?_⟩
  simp only [nextBatch_cutSpanChunk]
  exact ⟨meets_cutSpanChunk, trivial⟩

/-- A batch of an unknown type, and a span batch cut off in its prefix, each stop the reader in a panic. -/
theorem posted_chunk_panics :
    ¬ Along (fun reader (_ : Unit) => reader.nextBatch sampleCodecs sampleInflate false)
      (fun reader _ => reader.Holds sampleCodecs sampleInflate unknownChunk.length) (new unknownChunk 1000) [()] ∧
    ¬ Along (fun reader (_ : Unit) => reader.nextBatch sampleCodecs sampleInflate false)
      (fun reader _ => reader.Holds sampleCodecs sampleInflate cutPrefixChunk.length) (new cutPrefixChunk 1000) [()] ∧
    Batch.decode sampleCodecs false [2] = .error .panic := by
  have unknown : ((new unknownChunk 1000).nextBatch sampleCodecs sampleInflate false).2 = .error .panic := by
    decide +kernel
  have cut : ((new cutPrefixChunk 1000).nextBatch sampleCodecs sampleInflate false).2 = .error .panic := by
    decide +kernel
  refine ⟨?_, ?_, by decide +kernel⟩
  · rintro ⟨⟨returns, -⟩, -⟩
    have stops := returns false
    rw [unknown] at stops
    exact stops
  · rintro ⟨⟨returns, -⟩, -⟩
    have stops := returns false
    rw [cut] at stops
    exact stops

end BatchReader

end KonaSoon.Derive
