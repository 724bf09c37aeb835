import KonaSoon.Derive.ChannelProvider
import KonaSoon.Derive.ChannelReader

/-!
# The channel reader

The stage `ChannelReader` (`derive/src/stages/channel/channel_reader.rs`), which reads the batches of one channel after
the other. Over the stages before it, every batch that it hands on stands in a channel of frames from L1.
-/

namespace KonaSoon.Derive
open Lib Mpt Da

class ChannelReaderProvider (P : Type) extends Stage P where
  nextData : P → P × PipelineResult (Option (List UInt8))

instance {P : Type} [NextFrameProvider P] : ChannelReaderProvider (ChannelProvider P) where
  origin := ChannelProvider.origin
  advanceOrigin := ChannelProvider.advanceOrigin
  signal := ChannelProvider.signal
  nextData := ChannelProvider.nextData

inductive ReaderStop where
  | channelReaderEmpty
  | failed (stop : Stop PipelineErrorKind)
deriving DecidableEq, Repr

structure ChannelReader (P : Type) where
  prev : P
  nextBatch : Option BatchReader
  cfg : ChannelConfig

namespace ChannelReader

section Stage

variable {P : Type} [ChannelReaderProvider P] (codecs : Codecs) (inflate : Inflate) (overflowChecks : Bool)

def new (prev : P) (cfg : ChannelConfig) : ChannelReader P := ⟨prev, none, cfg⟩

def nextChannel (reader : ChannelReader P) : ChannelReader P := { reader with nextBatch := none }

def setBatchReader (reader : ChannelReader P) : ChannelReader P × Except ReaderStop BatchReader :=
  match reader.nextBatch with
  | some batchReader => (reader, .ok batchReader)
  | none =>
      match ChannelReaderProvider.nextData reader.prev with
      | (prev, .error e) => ({ reader with prev }, .error (.failed e))
      | (prev, .ok none) => ({ reader with prev }, .error .channelReaderEmpty)
      | (prev, .ok (some channel)) =>
          let batchReader := BatchReader.new channel reader.cfg.channelSize.toNat
          ({ reader with prev, nextBatch := some batchReader }, .ok batchReader)

def readBatch (reader : ChannelReader P) : ChannelReader P × Except ReaderStop Batch :=
  match reader.setBatchReader with
  | (reader, .error e) => (reader.nextChannel, .error e)
  | (reader, .ok batchReader) =>
      match batchReader.nextBatch codecs inflate overflowChecks with
      | (batchReader, .ok (some batch)) => ({ reader with nextBatch := some batchReader }, .ok batch)
      | (_, .ok none) => (reader.nextChannel, .error (.failed (.error (.temporary .notEnoughData))))
      | (_, .error .panic) => (reader, .error (.failed .panic))
      | (_, .error .outOfFuel) => (reader, .error (.failed .outOfFuel))

def flush (reader : ChannelReader P) : ChannelReader P := reader.nextChannel

def advanceOrigin (reader : ChannelReader P) : ChannelReader P × PipelineResult Unit :=
  let (prev, result) := Stage.advanceOrigin reader.prev
  ({ reader with prev }, result)

def signal (reader : ChannelReader P) : Signal → ChannelReader P × PipelineResult Unit
  | .flushChannel => (reader.nextChannel, .ok ())
  | s =>
      match Stage.signal reader.prev s with
      | (prev, .error e) => ({ reader with prev }, .error e)
      | (prev, .ok ()) => ({ reader with prev, nextBatch := none }, .ok ())

end Stage

/-! ## Runs -/

inductive ReaderCall where
  | nextBatch
  | flush
  | advanceOrigin
  | signal (s : Signal)

variable {Q : Type} [FrameQueueProvider Q] (codecs : Codecs) (inflate : Inflate) (overflowChecks : Bool)

abbrev OverFrames (Q : Type) := ChannelReader (ChannelProvider (FrameQueue Q))

def call (reader : OverFrames Q) : ReaderCall → OverFrames Q × Except ReaderStop (Option Batch)
  | .nextBatch => (reader.readBatch codecs inflate overflowChecks).map id fun result => result.map some
  | .flush => (reader.flush, .ok none)
  | .advanceOrigin =>
      reader.advanceOrigin.map id fun result => (result.mapError ReaderStop.failed).map fun () => none
  | .signal s => (reader.signal s).map id fun result => (result.mapError ReaderStop.failed).map fun () => none

def asks (reader : OverFrames Q) : ReaderCall → List ProviderCall
  | .nextBatch => if reader.nextBatch.isSome then [] else [.nextData]
  | .flush => []
  | .advanceOrigin => [.advanceOrigin]
  | .signal .flushChannel => []
  | .signal s => [.signal s]

def asked : OverFrames Q → List ReaderCall → List ProviderCall
  | _, [] => []
  | reader, made :: calls => reader.asks made ++ asked (reader.call codecs inflate overflowChecks made).1 calls

def handed : OverFrames Q → List ReaderCall → List Batch
  | _, [] => []
  | reader, made :: calls =>
      (reader.call codecs inflate overflowChecks made).2.toOption.join.toList ++
        handed (reader.call codecs inflate overflowChecks made).1 calls

def Reads : BatchReader → List Batch → Prop
  | _, [] => True
  | reader, batch :: batches => ∃ after, reader.nextBatch codecs inflate overflowChecks = (after, .ok (some batch)) ∧
      Reads after batches

variable {codecs inflate overflowChecks}

structure Partitions (codecs : Codecs) (inflate : Inflate) (overflowChecks : Bool) (reader : OverFrames Q)
    (calls : List ReaderCall) (first : List Batch) (rest : List (List Batch)) : Prop where
  batches : handed codecs inflate overflowChecks reader calls = first ++ rest.flatten
  current : first = [] ∨ ∃ batchReader, reader.nextBatch = some batchReader ∧
    Reads codecs inflate overflowChecks batchReader first
  later : List.Forall₂ (fun data batches => Reads codecs inflate overflowChecks
      (.new data reader.cfg.channelSize.toNat) batches)
    (ChannelProvider.handed reader.prev (asked codecs inflate overflowChecks reader calls)) rest

theorem Partitions.first_eq_nil {reader : OverFrames Q} {calls : List ReaderCall} {first : List Batch}
    {rest : List (List Batch)} (partitions : Partitions codecs inflate overflowChecks reader calls first rest)
    (idle : reader.nextBatch = none) : first = [] := by
  rcases partitions.current with nothing | ⟨batchReader, active, -⟩
  · exact nothing
  · rw [idle] at active
    cases active

theorem Partitions.quiet {reader after : OverFrames Q} {made : ReaderCall} {calls : List ReaderCall} {first : List Batch}
    {rest : List (List Batch)} {result : Except ReaderStop (Option Batch)}
    (called : reader.call codecs inflate overflowChecks made = (after, result)) (nothing : result.toOption.join = none)
    (cfg : after.cfg = reader.cfg) (current : after.nextBatch = none ∨ after.nextBatch = reader.nextBatch)
    (given : ChannelProvider.handed reader.prev (reader.asks made ++ asked codecs inflate overflowChecks after calls) =
      ChannelProvider.handed after.prev (asked codecs inflate overflowChecks after calls))
    (partitions : Partitions codecs inflate overflowChecks after calls first rest) :
    Partitions codecs inflate overflowChecks reader (made :: calls) first rest where
  batches := by
    rw [handed, called, nothing]
    exact partitions.batches
  current := by
    rcases current with idle | same
    · exact .inl (partitions.first_eq_nil idle)
    · rw [← same]
      exact partitions.current
  later := by
    rw [asked, called, given, ← cfg]
    exact partitions.later

theorem Partitions.reads {reader : OverFrames Q} {calls : List ReaderCall} {first : List Batch} {rest : List (List Batch)}
    (partitions : Partitions codecs inflate overflowChecks reader calls first rest) {batchReader : BatchReader}
    (current : reader.nextBatch = none ∨ reader.nextBatch = some batchReader) :
    Reads codecs inflate overflowChecks batchReader first := by
  rcases partitions.current with rfl | ⟨active, there, reads⟩
  · trivial
  · rcases current with idle | same
    · rw [there] at idle
      cases idle
    · rw [there] at same
      cases same
      exact reads

theorem handed_nextData {provider prev : ChannelProvider (FrameQueue Q)} {result : PipelineResult (Option (List UInt8))}
    (given : ChannelReaderProvider.nextData provider = (prev, result)) (calls : List ProviderCall) :
    ChannelProvider.handed provider (.nextData :: calls) = result.toOption.join.toList ++ ChannelProvider.handed prev calls := by
  have called : provider.call .nextData = (prev, result) := given
  rw [ChannelProvider.handed, called]

theorem call_nextBatch {reader ready : OverFrames Q} {batchReader : BatchReader}
    (set_ : reader.setBatchReader = (ready, .ok batchReader)) :
    (∃ later batch, batchReader.nextBatch codecs inflate overflowChecks = (later, .ok (some batch)) ∧
      reader.call codecs inflate overflowChecks .nextBatch = ({ ready with nextBatch := some later }, .ok (some batch))) ∨
    ∃ after result, reader.call codecs inflate overflowChecks .nextBatch = (after, result) ∧ result.toOption.join = none ∧
      after.prev = ready.prev ∧ after.cfg = ready.cfg ∧ (after.nextBatch = none ∨ after.nextBatch = ready.nextBatch) := by
  simp only [call, readBatch, set_]
  cases batchReader.nextBatch codecs inflate overflowChecks with
  | mk later result =>
      cases result with
      | ok found =>
          cases found with
          | some batch => exact .inl ⟨later, batch, rfl, rfl⟩
          | none => exact .inr ⟨_, _, rfl, rfl, rfl, rfl, .inl rfl⟩
      | error stop =>
          cases stop with
          | error e => cases e
          | panic => exact .inr ⟨_, _, rfl, rfl, rfl, rfl, .inr rfl⟩
          | outOfFuel => exact .inr ⟨_, _, rfl, rfl, rfl, rfl, .inr rfl⟩

theorem call_unset {reader after : OverFrames Q} {e : ReaderStop} (set_ : reader.setBatchReader = (after, .error e)) :
    reader.call codecs inflate overflowChecks .nextBatch = (after.nextChannel, .error e) := by
  simp only [call, readBatch, set_]
  rfl

theorem partitions_active {reader : OverFrames Q} {calls : List ReaderCall}
    (ih : ∀ after : OverFrames Q, ∃ first rest, Partitions codecs inflate overflowChecks after calls first rest)
    {batchReader : BatchReader} (active : reader.nextBatch = some batchReader) :
    ∃ first rest, Partitions codecs inflate overflowChecks reader (.nextBatch :: calls) first rest := by
  have asking : reader.asks .nextBatch = [] := by
    rw [asks, active]
    rfl
  have set_ : reader.setBatchReader = (reader, .ok batchReader) := by rw [setBatchReader, active]
  rcases call_nextBatch set_ with ⟨later, batch, made, called⟩ | ⟨after, result, called, nothing, prev, cfg, current⟩
  · obtain ⟨first, rest, partitions⟩ := ih { reader with nextBatch := some later }
    refine ⟨batch :: first, rest, ?_, .inr ⟨batchReader, active, later, made, partitions.reads (.inr rfl)⟩, ?_⟩
    · rw [handed, called, partitions.batches]
      rfl
    · rw [asked, called, asking]
      exact partitions.later
  · obtain ⟨first, rest, partitions⟩ := ih after
    exact ⟨first, rest, partitions.quiet called nothing cfg current (by rw [asking, prev]; rfl)⟩

theorem partitions_idle {reader : OverFrames Q} {calls : List ReaderCall}
    (ih : ∀ after : OverFrames Q, ∃ first rest, Partitions codecs inflate overflowChecks after calls first rest)
    (idle : reader.nextBatch = none) :
    ∃ first rest, Partitions codecs inflate overflowChecks reader (.nextBatch :: calls) first rest := by
  have asking : reader.asks .nextBatch = [.nextData] := by
    rw [asks, idle]
    rfl
  cases given : ChannelReaderProvider.nextData reader.prev with
  | mk prev found =>
      have unset {e : ReaderStop} (nothing : found.toOption.join = none)
          (set_ : reader.setBatchReader = ({ reader with prev }, .error e)) :
          ∃ first rest, Partitions codecs inflate overflowChecks reader (.nextBatch :: calls) first rest := by
        obtain ⟨first, rest, partitions⟩ := ih ({ reader with prev } : OverFrames Q).nextChannel
        refine ⟨first, rest, partitions.quiet (call_unset set_) rfl rfl (.inl rfl) ?_⟩
        rw [asking, List.singleton_append, handed_nextData given, nothing]
        rfl
      cases found with
      | error e => exact unset rfl (by rw [setBatchReader, idle, given])
      | ok channel =>
          cases channel with
          | none => exact unset rfl (by rw [setBatchReader, idle, given])
          | some data =>
              have set_ : reader.setBatchReader =
                  ({ reader with prev, nextBatch := some (.new data reader.cfg.channelSize.toNat) },
                    .ok (.new data reader.cfg.channelSize.toNat)) := by rw [setBatchReader, idle, given]
              rcases call_nextBatch set_ with ⟨later, batch, made, called⟩ | ⟨after, result, called, nothing, same, cfg, current⟩
              · obtain ⟨first, rest, partitions⟩ := ih { reader with prev, nextBatch := some later }
                refine ⟨[], (batch :: first) :: rest, ?_, .inl rfl, ?_⟩
                · rw [handed, called, partitions.batches]
                  rfl
                · rw [asked, called, asking, List.singleton_append, handed_nextData given]
                  exact .cons ⟨later, made, partitions.reads (.inr rfl)⟩ partitions.later
              · obtain ⟨first, rest, partitions⟩ := ih after
                have same' : after.prev = prev := same
                have cfg' : after.cfg = reader.cfg := cfg
                refine ⟨[], first :: rest, ?_, .inl rfl, ?_⟩
                · rw [handed, called, nothing, partitions.batches]
                  rfl
                · have later := partitions.later
                  rw [cfg', same'] at later
                  rw [asked, called, asking, List.singleton_append, handed_nextData given]
                  exact .cons (partitions.reads current) later

theorem silent {ε : Type} (result : Except ε Unit) : (result.map fun () => (none : Option Batch)).toOption.join = none := by
  cases result with
  | error e => rfl
  | ok done => rfl

theorem handed_signal (provider : ChannelProvider (FrameQueue Q)) (s : Signal) (calls : List ProviderCall) :
    ChannelProvider.handed provider (.signal s :: calls) = ChannelProvider.handed (provider.signal s).1 calls := by
  rw [ChannelProvider.handed, ChannelProvider.call]
  cases provider.signal s with
  | mk after result => cases result <;> rfl

theorem handed_advanceOrigin (provider : ChannelProvider (FrameQueue Q)) (calls : List ProviderCall) :
    ChannelProvider.handed provider (.advanceOrigin :: calls) = ChannelProvider.handed provider.advanceOrigin.1 calls := by
  rw [ChannelProvider.handed, ChannelProvider.call]
  cases provider.advanceOrigin with
  | mk after result => cases result <;> rfl

theorem signal_forwarded (reader : OverFrames Q) {s : Signal} (forwarded : s ≠ .flushChannel) :
    (reader.signal s).1.prev = (ChannelProvider.signal reader.prev s).1 ∧ (reader.signal s).1.cfg = reader.cfg ∧
      ((reader.signal s).1.nextBatch = none ∨ (reader.signal s).1.nextBatch = reader.nextBatch) := by
  unfold signal
  split
  · exact absurd rfl forwarded
  · cases answered : Stage.signal reader.prev s with
    | mk prev result =>
        have before : (ChannelProvider.signal reader.prev s).1 = prev := congrArg Prod.fst answered
        cases result with
        | error e => exact ⟨before.symm, rfl, .inr rfl⟩
        | ok done => exact ⟨before.symm, rfl, .inl rfl⟩

theorem partitions (reader : OverFrames Q) (calls : List ReaderCall) :
    ∃ first rest, Partitions codecs inflate overflowChecks reader calls first rest := by
  induction calls generalizing reader with
  | nil => exact ⟨[], [], rfl, .inl rfl, .nil⟩
  | cons made calls ih =>
      cases made with
      | nextBatch =>
          cases current : reader.nextBatch with
          | some batchReader => exact partitions_active ih current
          | none => exact partitions_idle ih current
      | flush =>
          obtain ⟨first, rest, partitions⟩ := ih reader.nextChannel
          exact ⟨first, rest, partitions.quiet rfl rfl rfl (.inl rfl) rfl⟩
      | advanceOrigin =>
          obtain ⟨first, rest, partitions⟩ := ih reader.advanceOrigin.1
          exact ⟨first, rest, partitions.quiet rfl (silent _) rfl (.inr rfl) (handed_advanceOrigin reader.prev _)⟩
      | signal s =>
          obtain ⟨first, rest, partitions⟩ := ih (reader.signal s).1
          by_cases flushes : s = .flushChannel
          · subst flushes
            exact ⟨first, rest, partitions.quiet rfl rfl rfl (.inl rfl) rfl⟩
          · obtain ⟨prev, cfg, current⟩ := reader.signal_forwarded flushes
            have called : reader.call codecs inflate overflowChecks (.signal s) = ((reader.signal s).1,
                ((reader.signal s).2.mapError ReaderStop.failed).map fun () => none) := rfl
            have asking : reader.asks (.signal s) = [.signal s] := by
              rw [asks]
              exact flushes
            refine ⟨first, rest, partitions.quiet called (silent _) cfg current ?_⟩
            rw [asking, List.singleton_append, handed_signal, prev]

/-- In every run the batches that are handed on are read, channel after channel, from data that is assembled from
frames of the data taken from L1, and no frame is used more often than it is there. -/
theorem batches_from_taken (codecs : Codecs) (inflate : Inflate) (overflowChecks : Bool) (cfg : ChannelConfig) (prev : Q)
    (calls : List ReaderCall) : ∃ (assembled : List (List Frame)) (channels : List (List UInt8)) (batches : List (List Batch)),
      handed codecs inflate overflowChecks (new (.new cfg (.new prev)) cfg) calls = batches.flatten ∧
      List.Forall₂ (fun data read => Reads codecs inflate overflowChecks (.new data cfg.channelSize.toNat) read)
        channels batches ∧
      List.Forall₂ (fun frames data => ∃ id, Assembles id frames data) assembled channels ∧
      ∀ frame, assembled.flatten.count frame ≤
        ((ChannelProvider.taken (.new cfg (.new prev))
          (asked codecs inflate overflowChecks (new (.new cfg (.new prev)) cfg) calls)).flatMap framesOf).count frame := by
  obtain ⟨first, rest, reads⟩ : ∃ first rest, Partitions codecs inflate overflowChecks
    (new (.new cfg (FrameQueue.new prev)) cfg) calls first rest := partitions _ calls
  have idle : first = [] := reads.first_eq_nil rfl
  obtain ⟨assembled, assembles, less⟩ := (ChannelProvider.sorted_new cfg prev).run
    (asked codecs inflate overflowChecks (new (.new cfg (.new prev)) cfg) calls)
  refine ⟨assembled, _, rest, ?_, reads.later, assembles, fun frame => (less frame).trans ?_⟩
  · rw [reads.batches, idle, List.nil_append]
  · rw [ChannelBank.stock_new, Nat.zero_add]

end ChannelReader

end KonaSoon.Derive
