import KonaSoon.Da.Channel
import KonaSoon.Lib.Reader
import KonaSoon.Lib.Sequence

/-!
# Parsing of frames

`Frame::encode`, `Frame::decode` and `Frame::parse_frames` (`primitives/src/da/frame.rs`). A slice or an index out
of range is the outcome `panic`. A frame takes at least `baseFrameLen` bytes, so the length of the data is fuel
enough for the loop.
-/

namespace KonaSoon.Da
open Lib

def derivationVersion0 : UInt8 := 0

def baseFrameLen : Nat := 16 + 2 + 4 + 1

def maxFrameLen : Nat := 10 * 1024 * 1024

inductive FrameDecodingError where
  | dataTooLarge (size : Nat)
  | dataTooShort (size : Nat)
  | invalidId
  | invalidNumber
  | invalidDataLength
deriving DecidableEq, Repr

inductive FrameParseError where
  | frameDecodingError (e : FrameDecodingError)
  | noFrames
  | unsupportedVersion
  | dataLengthMismatch
  | noFramesDecoded
deriving DecidableEq, Repr

def tryInto {ε : Type} (n : Nat) (bytes : List UInt8) (e : ε) : Outcome ε (FixedBytes n) :=
  if fits : bytes.length = n then .ok ⟨bytes, fits⟩ else .error (.error e)

namespace Frame

def encode (frame : Frame) : List UInt8 :=
  frame.id.1 ++ ((bigEndian 2 frame.number.toNat).1 ++ ((bigEndian 4 frame.data.length).1 ++
    (frame.data ++ [if frame.isLast then 1 else 0])))

def decode (encoded : List UInt8) : Outcome FrameDecodingError (Nat × Frame) :=
  if encoded.length < baseFrameLen then .error (.error (.dataTooShort encoded.length))
  else do
    let id ← tryInto 16 (← Outcome.unwrap (sliceTo encoded 16)) .invalidId
    let number ← tryInto 2 (← Outcome.unwrap (sliceRange encoded 16 18)) .invalidNumber
    let dataLen ← tryInto 4 (← Outcome.unwrap (sliceRange encoded 18 22)) .invalidDataLength
    let dataLen := ofBigEndian dataLen.1
    if maxFrameLen < dataLen ∨ encoded.length - (baseFrameLen - 1) ≤ dataLen then .error (.error (.dataTooLarge dataLen))
    else do
      let data ← Outcome.unwrap (sliceRange encoded 22 (22 + dataLen))
      let isLast ← Outcome.unwrap encoded[22 + dataLen]?
      .ok (baseFrameLen + dataLen, ⟨id, .ofNat (ofBigEndian number.1), data, isLast = 1⟩)

/-- The loop of `parse_frames`, from an offset on and with the frames before it. -/
def parseLoop (data : List UInt8) : Nat → Nat → List Frame → Outcome FrameParseError (Nat × List Frame)
  | 0, _, _ => .error .outOfFuel
  | fuel + 1, offset, frames =>
      if offset < data.length then do
        let rest ← Outcome.unwrap (sliceFrom data offset)
        let (frameLength, frame) ← (decode rest).mapError (Stop.map .frameDecodingError)
        parseLoop data fuel (offset + frameLength) (frames ++ [frame])
      else .ok (offset, frames)

def parseFrames : List UInt8 → Outcome FrameParseError (List Frame)
  | [] => .error (.error .noFrames)
  | version :: data =>
      if version ≠ derivationVersion0 then .error (.error .unsupportedVersion)
      else do
        let (offset, frames) ← parseLoop data (data.length + 1) 0 []
        if offset ≠ data.length then .error (.error .dataLengthMismatch)
        else if frames = [] then .error (.error .noFramesDecoded)
        else .ok frames

end Frame

/-! ## Frames as they are written -/

structure RawFrame where
  id : ChannelId
  number : UInt16
  data : List UInt8
  flag : UInt8
deriving DecidableEq, Repr

namespace RawFrame

def bytes (raw : RawFrame) : List UInt8 :=
  raw.id.1 ++ ((bigEndian 2 raw.number.toNat).1 ++ ((bigEndian 4 raw.data.length).1 ++ (raw.data ++ [raw.flag])))

/-- Every byte but 1 is read as `false`. -/
def frame (raw : RawFrame) : Frame := ⟨raw.id, raw.number, raw.data, raw.flag = 1⟩

theorem length_bytes (raw : RawFrame) : raw.bytes.length = baseFrameLen + raw.data.length := by
  simp only [bytes, List.length_append, raw.id.2, (bigEndian 2 raw.number.toNat).2,
    (bigEndian 4 raw.data.length).2, List.length_singleton, baseFrameLen]
  omega

end RawFrame

namespace Frame

theorem tryInto_fixed {ε : Type} {n : Nat} (bytes : FixedBytes n) (e : ε) : tryInto n bytes.1 e = .ok bytes :=
  dif_pos bytes.2

theorem decode_fields (id : FixedBytes 16) (number : FixedBytes 2) (size : FixedBytes 4) {tail : List UInt8}
    (nonempty : tail ≠ []) : decode (id.1 ++ (number.1 ++ (size.1 ++ tail))) =
      if maxFrameLen < ofBigEndian size.1 ∨ tail.length ≤ ofBigEndian size.1 then
        .error (.error (.dataTooLarge (ofBigEndian size.1)))
      else (Outcome.unwrap tail[ofBigEndian size.1]?).map fun flag => (baseFrameLen + ofBigEndian size.1,
        ⟨id, .ofNat (ofBigEndian number.1), tail.take (ofBigEndian size.1), flag = 1⟩) := by
  have positive : 0 < tail.length := List.length_pos_iff.mpr nonempty
  have length : (id.1 ++ (number.1 ++ (size.1 ++ tail))).length = 22 + tail.length := by
    simp only [List.length_append, id.2, number.2, size.2]
    omega
  have idSlice : sliceTo (id.1 ++ (number.1 ++ (size.1 ++ tail))) 16 = some id.1 := by
    have slice := sliceTo_append id.1 (number.1 ++ (size.1 ++ tail))
    rwa [id.2] at slice
  have numberSlice : sliceRange (id.1 ++ (number.1 ++ (size.1 ++ tail))) 16 18 = some number.1 :=
    sliceRange_append id.2 (by rw [number.2])
  have sizeSlice : sliceRange (id.1 ++ (number.1 ++ (size.1 ++ tail))) 18 22 = some size.1 := by
    rw [← List.append_assoc]
    exact sliceRange_append (by rw [List.length_append, id.2, number.2]) (by rw [size.2])
  have long : ¬ (id.1 ++ (number.1 ++ (size.1 ++ tail))).length < baseFrameLen := by
    rw [length, baseFrameLen]
    omega
  have room : 22 + tail.length - (baseFrameLen - 1) = tail.length := by
    simp only [baseFrameLen]
    omega
  rw [decode, if_neg long]
  simp only [idSlice, numberSlice, sizeSlice, Outcome.unwrap_some, ok_bind, tryInto_fixed, length, room]
  split
  · rfl
  · rename_i fits
    have front : (id.1 ++ (number.1 ++ size.1)).length = 22 := by
      simp only [List.length_append, id.2, number.2, size.2]
    have regroup : id.1 ++ (number.1 ++ (size.1 ++ tail)) = (id.1 ++ (number.1 ++ size.1)) ++ tail := by
      simp only [List.append_assoc]
    have dataSlice : sliceRange (id.1 ++ (number.1 ++ (size.1 ++ tail))) 22 (22 + ofBigEndian size.1) =
        some (tail.take (ofBigEndian size.1)) := by
      rw [regroup]
      nth_rewrite 1 [← List.take_append_drop (ofBigEndian size.1) tail]
      exact sliceRange_append front (by rw [List.length_take]; omega)
    have flagIndex : (id.1 ++ (number.1 ++ (size.1 ++ tail)))[22 + ofBigEndian size.1]? = tail[ofBigEndian size.1]? := by
      rw [regroup, List.getElem?_append_right (by omega), front]
      congr 1
      omega
    rw [dataSlice, flagIndex, Outcome.unwrap_some, ok_bind]
    cases tail[ofBigEndian size.1]? with
    | none => rfl
    | some flag => rfl

theorem exists_fields {encoded : List UInt8} (long : ¬ encoded.length < baseFrameLen) :
    ∃ (id : FixedBytes 16) (number : FixedBytes 2) (size : FixedBytes 4) (tail : List UInt8),
      tail ≠ [] ∧ encoded = id.1 ++ (number.1 ++ (size.1 ++ tail)) := by
  unfold baseFrameLen at long
  refine ⟨⟨encoded.take 16, ?_⟩, ⟨(encoded.drop 16).take 2, ?_⟩, ⟨(encoded.drop 18).take 4, ?_⟩, encoded.drop 22, ?_, ?_⟩
  · rw [List.length_take]
    omega
  · rw [List.length_take, List.length_drop]
    omega
  · rw [List.length_take, List.length_drop]
    omega
  · rw [← List.length_pos_iff, List.length_drop]
    omega
  · have third : (encoded.drop 18).take 4 ++ encoded.drop 22 = encoded.drop 18 := by
      have whole := List.take_append_drop 4 (encoded.drop 18)
      rwa [List.drop_drop] at whole
    have second : (encoded.drop 16).take 2 ++ encoded.drop 18 = encoded.drop 16 := by
      have whole := List.take_append_drop 2 (encoded.drop 16)
      rwa [List.drop_drop] at whole
    rw [third, second, List.take_append_drop]

theorem decode_bytes {raw : RawFrame} (sized : raw.data.length ≤ maxFrameLen) (rest : List UInt8) :
    decode (raw.bytes ++ rest) = .ok (baseFrameLen + raw.data.length, raw.frame) := by
  have small : raw.data.length < 256 ^ 4 := by
    unfold maxFrameLen at sized
    omega
  have numberSmall : raw.number.toNat < 256 ^ 2 := by
    have := raw.number.toNat_lt
    omega
  have shape : raw.bytes ++ rest = raw.id.1 ++ ((bigEndian 2 raw.number.toNat).1 ++
      ((bigEndian 4 raw.data.length).1 ++ (raw.data ++ raw.flag :: rest))) := by
    simp [RawFrame.bytes]
  rw [shape, decode_fields _ _ _ (by simp), ofBigEndian_bigEndian small, ofBigEndian_bigEndian numberSmall, if_neg]
  · simp [Outcome.unwrap, Except.map, RawFrame.frame]
  · simp only [List.length_append, List.length_cons]
    omega

theorem decode_eq_ok {encoded : List UInt8} {length : Nat} {frame : Frame} (ok : decode encoded = .ok (length, frame)) :
    ∃ (raw : RawFrame) (rest : List UInt8), encoded = raw.bytes ++ rest ∧ raw.data.length ≤ maxFrameLen ∧
      frame = raw.frame ∧ length = raw.bytes.length := by
  by_cases short : encoded.length < baseFrameLen
  · rw [decode, if_pos short] at ok
    cases ok
  · obtain ⟨id, number, size, tail, nonempty, rfl⟩ := exists_fields short
    rw [decode_fields id number size nonempty] at ok
    split at ok
    · cases ok
    · rename_i fits
      have inside : ofBigEndian size.1 < tail.length := by omega
      rw [List.getElem?_eq_getElem inside, Outcome.unwrap_some] at ok
      cases ok
      have width : (tail.take (ofBigEndian size.1)).length = ofBigEndian size.1 := List.length_take_of_le (by omega)
      have numberBack : (UInt16.ofNat (ofBigEndian number.1)).toNat = ofBigEndian number.1 := by
        have := ofBigEndian_lt number
        simp
        omega
      refine ⟨⟨id, .ofNat (ofBigEndian number.1), tail.take (ofBigEndian size.1), tail[ofBigEndian size.1]⟩,
        tail.drop (ofBigEndian size.1 + 1), ?_, ?_, rfl, ?_⟩
      · simp only [RawFrame.bytes, numberBack, width, bigEndian_ofBigEndian, List.append_assoc]
        congr 3
        rw [List.singleton_append, List.getElem_cons_drop, List.take_append_drop]
      · simp only [width]
        omega
      · rw [RawFrame.length_bytes, width]

theorem decode_returns (encoded : List UInt8) : (decode encoded).Returns := by
  by_cases short : encoded.length < baseFrameLen
  · rw [decode, if_pos short]
    trivial
  · obtain ⟨id, number, size, tail, nonempty, rfl⟩ := exists_fields short
    rw [decode_fields id number size nonempty]
    split
    · trivial
    · rename_i fits
      have inside : ofBigEndian size.1 < tail.length := by omega
      rw [List.getElem?_eq_getElem inside]
      trivial

/-! ## The loop -/

theorem parseLoop_bytes {raws : List RawFrame} (sized : ∀ raw ∈ raws, raw.data.length ≤ maxFrameLen)
    (front : List UInt8) (frames : List Frame) {fuel : Nat} (enough : raws.length < fuel) :
    parseLoop (front ++ raws.flatMap RawFrame.bytes) fuel front.length frames =
      .ok ((front ++ raws.flatMap RawFrame.bytes).length, frames ++ raws.map RawFrame.frame) := by
  induction raws generalizing front frames fuel with
  | nil =>
      obtain ⟨fuel, rfl⟩ : ∃ k, fuel = k + 1 := ⟨fuel - 1, by omega⟩
      simp [parseLoop]
  | cons raw raws ih =>
      obtain ⟨fuel, rfl⟩ : ∃ k, fuel = k + 1 := ⟨fuel - 1, by omega⟩
      have later := ih (fun raw' member => sized raw' (List.mem_cons_of_mem raw member)) (front ++ raw.bytes)
        (frames ++ [raw.frame]) (by simpa using enough)
      have here : front.length < (front ++ (raw.bytes ++ raws.flatMap RawFrame.bytes)).length := by
        simp only [List.length_append, RawFrame.length_bytes, baseFrameLen]
        omega
      simp only [List.append_assoc, List.length_append, RawFrame.length_bytes] at later
      rw [List.flatMap_cons, parseLoop, if_pos here, sliceFrom_append, Outcome.unwrap_some, ok_bind,
        decode_bytes (sized raw List.mem_cons_self)]
      simp only [Except.mapError, ok_bind, List.length_append, RawFrame.length_bytes, later, List.map_cons,
        List.singleton_append]

theorem parseLoop_eq_ok {data : List UInt8} {fuel offset stop : Nat} {frames all : List Frame}
    (within : offset ≤ data.length) (ok : parseLoop data fuel offset frames = .ok (stop, all)) :
    stop = data.length ∧ ∃ raws : List RawFrame, (∀ raw ∈ raws, raw.data.length ≤ maxFrameLen) ∧
      data.drop offset = raws.flatMap RawFrame.bytes ∧ all = frames ++ raws.map RawFrame.frame := by
  induction fuel generalizing offset frames with
  | zero => cases ok
  | succ fuel ih =>
      rw [parseLoop] at ok
      split at ok
      · rename_i inside
        rw [sliceFrom, if_pos within, Outcome.unwrap_some, ok_bind] at ok
        cases decoded : decode (data.drop offset) with
        | error stop =>
            rw [decoded] at ok
            cases ok
        | ok result =>
            obtain ⟨length, frame⟩ := result
            obtain ⟨raw, rest, shape, sized, rfl, rfl⟩ := decode_eq_ok decoded
            rw [decoded] at ok
            have lengths := congrArg List.length shape
            rw [List.length_drop, List.length_append] at lengths
            obtain ⟨stops, raws, allSized, remaining, collected⟩ := ih (by omega) ok
            refine ⟨stops, raw :: raws, ?_, ?_, ?_⟩
            · rintro raw' (_ | ⟨_, member⟩)
              · exact sized
              · exact allSized raw' member
            · rw [List.flatMap_cons, ← remaining, ← List.drop_drop, shape, List.drop_left]
            · rw [collected, List.map_cons, List.append_assoc, List.singleton_append]
      · cases ok
        exact ⟨by omega, [], by simp, by simp only [List.flatMap_nil, List.drop_eq_nil_iff]; omega, by simp⟩

theorem parseLoop_returns {data : List UInt8} {fuel offset : Nat} {frames : List Frame} (within : offset ≤ data.length)
    (enough : data.length - offset < fuel) : (parseLoop data fuel offset frames).Returns := by
  induction fuel generalizing offset frames with
  | zero => omega
  | succ fuel ih =>
      rw [parseLoop]
      split
      · rename_i inside
        rw [sliceFrom, if_pos within, Outcome.unwrap_some, ok_bind]
        have returns := decode_returns (data.drop offset)
        cases decoded : decode (data.drop offset) with
        | error stop =>
            rw [decoded] at returns
            cases stop with
            | error e => trivial
            | panic => exact returns.elim
            | outOfFuel => exact returns.elim
        | ok result =>
            obtain ⟨length, frame⟩ := result
            obtain ⟨raw, rest, shape, -, rfl, rfl⟩ := decode_eq_ok decoded
            have lengths := congrArg List.length shape
            rw [List.length_drop, List.length_append] at lengths
            have positive : 0 < raw.bytes.length := by
              rw [RawFrame.length_bytes, baseFrameLen]
              omega
            exact ih (by omega) (by omega)
      · trivial

theorem parseFrames_returns (encoded : List UInt8) : (parseFrames encoded).Returns := by
  cases encoded with
  | nil => trivial
  | cons version data =>
      rw [parseFrames]
      split
      · trivial
      · rw [← Outcome.ends_true_iff, Outcome.bind_ends_iff]
        refine ⟨parseLoop_returns (Nat.zero_le _) (by omega), ?_⟩
        rintro ⟨offset, frames⟩ -
        simp only
        split
        · trivial
        · split <;> trivial

theorem parseFrames_eq_ok_iff {encoded : List UInt8} {frames : List Frame} : parseFrames encoded = .ok frames ↔
    ∃ raws : List RawFrame, raws ≠ [] ∧ (∀ raw ∈ raws, raw.data.length ≤ maxFrameLen) ∧
      encoded = derivationVersion0 :: raws.flatMap RawFrame.bytes ∧ frames = raws.map RawFrame.frame := by
  constructor
  · intro ok
    cases encoded with
    | nil => cases ok
    | cons version data =>
        rw [parseFrames] at ok
        split at ok
        · cases ok
        · rename_i supported
          obtain ⟨⟨offset, parsed⟩, loop, ok⟩ := bind_eq_ok.mp ok
          obtain ⟨-, raws, sized, shape, rfl⟩ := parseLoop_eq_ok (Nat.zero_le _) loop
          simp only [List.nil_append] at ok
          split at ok
          · cases ok
          · split at ok
            · cases ok
            · rename_i nonempty
              cases ok
              exact ⟨raws, by simpa using nonempty, sized, by rw [← shape, List.drop_zero, not_not.mp supported], rfl⟩
  · rintro ⟨raws, nonempty, sized, rfl, rfl⟩
    have count : raws.length < (raws.flatMap RawFrame.bytes).length + 1 := by
      have atLeast : raws.length ≤ (raws.flatMap RawFrame.bytes).length := by
        clear nonempty sized
        induction raws with
        | nil => simp
        | cons raw raws ih =>
            rw [List.flatMap_cons, List.length_append, List.length_cons, RawFrame.length_bytes, baseFrameLen]
            omega
      omega
    have loop := parseLoop_bytes sized [] [] count
    rw [List.nil_append, List.length_nil] at loop
    rw [parseFrames, if_neg (not_not.mpr rfl), loop, ok_bind]
    simp [nonempty]

/-! ## The grammar -/

def Grammatical (encoded : List UInt8) (frames : List Frame) : Prop :=
  frames ≠ [] ∧ (∀ frame ∈ frames, frame.data.length ≤ maxFrameLen) ∧
    encoded = derivationVersion0 :: frames.flatMap encode

def Exact (encoded : List UInt8) : Prop := ∀ frames, parseFrames encoded = .ok frames ↔ Grammatical encoded frames

def FlagOutOfRange (encoded : List UInt8) : Prop :=
  ∃ raws : List RawFrame, raws ≠ [] ∧ (∀ raw ∈ raws, raw.data.length ≤ maxFrameLen) ∧
    encoded = derivationVersion0 :: raws.flatMap RawFrame.bytes ∧ ∃ raw ∈ raws, 1 < raw.flag

def raw (frame : Frame) : RawFrame := ⟨frame.id, frame.number, frame.data, if frame.isLast then 1 else 0⟩

theorem bytes_raw (frame : Frame) : frame.raw.bytes = frame.encode := rfl

theorem frame_raw (frame : Frame) : frame.raw.frame = frame := by
  obtain ⟨id, number, data, isLast⟩ := frame
  cases isLast <;> rfl

theorem raw_frame_iff (raw : RawFrame) : raw.frame.raw = raw ↔ ¬ 1 < raw.flag := by
  obtain ⟨id, number, data, flag⟩ := raw
  have binary : (if flag = 1 then (1 : UInt8) else 0) = flag ↔ ¬ 1 < flag := by
    revert flag
    decide +kernel
  simp only [RawFrame.frame, Frame.raw, decide_eq_true_eq, RawFrame.mk.injEq, true_and]
  exact binary

theorem encode_frame_length (raw : RawFrame) : raw.frame.encode.length = raw.bytes.length := by
  rw [← bytes_raw, RawFrame.length_bytes, RawFrame.length_bytes]
  rfl

theorem encode_frame_eq_iff (raw : RawFrame) : raw.frame.encode = raw.bytes ↔ ¬ 1 < raw.flag := by
  rw [← raw_frame_iff]
  constructor
  · intro same
    have flags : raw.frame.encode.getLast? = raw.bytes.getLast? := by rw [same]
    obtain ⟨id, number, data, flag⟩ := raw
    simp only [encode, RawFrame.bytes, ← List.append_assoc, List.getLast?_append, List.getLast?_singleton,
      Option.some_or, Option.some.injEq] at flags
    simp only [RawFrame.frame, Frame.raw] at flags ⊢
    rw [flags]
  · intro same
    rw [← bytes_raw, same]

theorem grammatical_iff {encoded : List UInt8} {frames : List Frame} : Grammatical encoded frames ↔
    frames.map raw ≠ [] ∧ (∀ spelled ∈ frames.map raw, spelled.data.length ≤ maxFrameLen) ∧
      encoded = derivationVersion0 :: (frames.map raw).flatMap RawFrame.bytes := by
  have bytes : (frames.map raw).flatMap RawFrame.bytes = frames.flatMap encode := by
    rw [List.flatMap_map]
    rfl
  rw [Grammatical, bytes, List.forall_mem_map]
  simp only [ne_eq, List.map_eq_nil_iff]
  exact Iff.rfl

theorem parseFrames_of_grammatical {encoded : List UInt8} {frames : List Frame} (grammatical : Grammatical encoded frames) :
    parseFrames encoded = .ok frames := by
  obtain ⟨nonempty, sized, shape⟩ := grammatical_iff.mp grammatical
  refine parseFrames_eq_ok_iff.mpr ⟨frames.map raw, nonempty, sized, shape, ?_⟩
  rw [List.map_map]
  exact (List.map_id' frames).symm.trans (List.map_congr_left fun frame _ => (frame_raw frame).symm)

theorem flags_of_flatMap_eq {raws : List RawFrame}
    (same : (raws.map RawFrame.frame).flatMap encode = raws.flatMap RawFrame.bytes) : ∀ raw ∈ raws, ¬ 1 < raw.flag := by
  induction raws with
  | nil => simp
  | cons raw raws ih =>
      rw [List.map_cons, List.flatMap_cons, List.flatMap_cons] at same
      obtain ⟨here, later⟩ := List.append_inj same (encode_frame_length raw)
      intro raw' member
      cases member with
      | head => exact (encode_frame_eq_iff raw).mp here
      | tail _ member => exact ih later raw' member

theorem exact_iff (encoded : List UInt8) : Exact encoded ↔ ¬ FlagOutOfRange encoded := by
  constructor
  · rintro agrees ⟨raws, nonempty, sized, shape, raw, member, outside⟩
    have parsed := parseFrames_eq_ok_iff.mpr ⟨raws, nonempty, sized, shape, rfl⟩
    obtain ⟨-, -, again⟩ := (agrees _).mp parsed
    have same := (List.cons.inj (again.symm.trans shape)).2
    exact flags_of_flatMap_eq same raw member outside
  · intro inRange frames
    refine ⟨fun parsed => ?_, parseFrames_of_grammatical⟩
    obtain ⟨raws, nonempty, sized, shape, rfl⟩ := parseFrames_eq_ok_iff.mp parsed
    have back : (raws.map RawFrame.frame).map Frame.raw = raws := by
      rw [List.map_map]
      refine (List.map_congr_left fun raw member => ?_).trans (List.map_id' raws)
      exact (raw_frame_iff raw).mpr fun outside => inRange ⟨raws, nonempty, sized, shape, raw, member, outside⟩
    rw [grammatical_iff, back]
    exact ⟨nonempty, sized, shape⟩

/-- `parse_frames` accepts exactly the grammar where every final byte is 0 or 1. -/
theorem parseFrames_exact_iff (encoded : List UInt8) :
    (parseFrames encoded).Returns ∧
    (Exact encoded ↔ ¬ FlagOutOfRange encoded) ∧
    (∀ frames : List Frame, frames ≠ [] → (∀ frame ∈ frames, frame.data.length ≤ maxFrameLen) →
      parseFrames (derivationVersion0 :: frames.flatMap encode) = .ok frames) ∧
    (∀ other frames, ¬ FlagOutOfRange encoded → ¬ FlagOutOfRange other → parseFrames encoded = .ok frames →
      parseFrames other = .ok frames → encoded = other) := by
  refine ⟨parseFrames_returns encoded, exact_iff encoded, ?_, ?_⟩
  · intro frames nonempty sized
    exact parseFrames_of_grammatical ⟨nonempty, sized, rfl⟩
  · intro other frames inRange otherInRange parsed otherParsed
    obtain ⟨-, -, shape⟩ := ((exact_iff encoded).mpr inRange frames).mp parsed
    obtain ⟨-, -, otherShape⟩ := ((exact_iff other).mpr otherInRange frames).mp otherParsed
    exact shape.trans otherShape.symm

def twoFrames : List Frame :=
  [⟨⟨List.replicate 16 7, List.length_replicate⟩, 0, [0x0a, 0x0b], false⟩,
    ⟨⟨List.replicate 16 7, List.length_replicate⟩, 1, [0x0c], true⟩]

theorem parseFrames_exact_twoFrames :
    parseFrames (derivationVersion0 :: twoFrames.flatMap encode) = .ok twoFrames :=
  (parseFrames_exact_iff []).2.2.1 twoFrames (List.cons_ne_nil _ _) (by decide)

def emptyFrame : Frame := ⟨⟨List.replicate 16 0, List.length_replicate⟩, 0, [], false⟩

/-- The same frame is read where its final byte is 2. -/
theorem parseFrames_not_exact :
    parseFrames (derivationVersion0 :: RawFrame.bytes { emptyFrame.raw with flag := 2 }) = .ok [emptyFrame] ∧
    derivationVersion0 :: RawFrame.bytes { emptyFrame.raw with flag := 2 } ≠
      derivationVersion0 :: [emptyFrame].flatMap encode ∧
    ¬ Exact (derivationVersion0 :: RawFrame.bytes { emptyFrame.raw with flag := 2 }) := by
  have parsed : parseFrames (derivationVersion0 :: RawFrame.bytes { emptyFrame.raw with flag := 2 }) =
      .ok [emptyFrame] := by decide +kernel
  have differ : derivationVersion0 :: RawFrame.bytes { emptyFrame.raw with flag := 2 } ≠
      derivationVersion0 :: [emptyFrame].flatMap encode := by decide +kernel
  exact ⟨parsed, differ, fun agrees => differ ((agrees _).mp parsed).2.2⟩

end Frame

end KonaSoon.Da
