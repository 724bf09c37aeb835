import KonaSoon.Da.Readiness

namespace KonaSoon.Lib.HashMap

variable {κ β : Type} [DecidableEq κ]

theorem lookups_erase {map : HashMap κ β} {key : κ} {keys : List κ} (fresh : key ∉ keys) {values : List β}
    (found : List.Forall₂ (fun key value => map.lookup key = some value) keys values) :
    List.Forall₂ (fun other value => (map.erase key).lookup other = some value) keys values := by
  induction found with
  | nil => exact .nil
  | cons here later ih =>
      rw [List.mem_cons, not_or] at fresh
      refine .cons ?_ (ih fresh.2)
      rw [AList.lookup_erase_ne (Ne.symm fresh.1)]
      exact here

theorem sum_le_total (size : β → Nat) {map : HashMap κ β} {keys : List κ} (distinct : keys.Nodup) {values : List β}
    (found : List.Forall₂ (fun key value => map.lookup key = some value) keys values) :
    (values.map size).sum ≤ map.total size := by
  induction keys generalizing map values with
  | nil =>
      cases found
      exact Nat.zero_le _
  | cons key keys ih =>
      obtain ⟨fresh, distinct⟩ := List.nodup_cons.mp distinct
      obtain ⟨value, values, here, later, rfl⟩ := List.forall₂_cons_left_iff.mp found
      have total := total_erase size here
      have bound := ih distinct (lookups_erase fresh later)
      rw [List.map_cons, List.sum_cons]
      omega

theorem lookup_of_lookup_retain {keep : κ → β → Bool} {map : HashMap κ β} {key : κ} {value : β}
    (here : (map.retain keep).lookup key = some value) : map.lookup key = some value :=
  AList.mem_lookup_iff.mpr (List.mem_of_mem_filter (AList.mem_lookup_iff.mp here))

omit [DecidableEq κ] in
theorem total_retain_le (size : β → Nat) (keep : κ → β → Bool) (map : HashMap κ β) :
    (map.retain keep).total size ≤ map.total size :=
  ((List.filter_sublist.map _).map size).sum_le_sum fun _ _ => Nat.zero_le _

end KonaSoon.Lib.HashMap

namespace KonaSoon.Da
open Lib

structure Assembles (id : ChannelId) (frames : List Frame) (data : List UInt8) : Prop where
  oneChannel : ∀ frame ∈ frames, frame.id = id
  numbers : frames.map (fun frame => frame.number.toNat) = List.range frames.length
  marked : ∀ frame ∈ frames, frame.isLast = true ↔ frame.number.toNat + 1 = frames.length
  data : data = frames.flatMap Frame.data

namespace Channel

def copies (channel : Channel) (frame : Frame) : Nat := channel.inputs.total fun held => if held = frame then 1 else 0

def Filed (channel : Channel) : Prop :=
  ∀ number frame, channel.inputs.lookup number = some frame → frame.number = number ∧ frame.id = channel.id ∧
    (frame.isLast = true ↔ channel.closed = true ∧ number = channel.lastFrameNumber)

variable {channel : Channel} {frame : Frame} {l1InclusionBlock : BlockInfo}

theorem filed_new (id : ChannelId) (openBlock : BlockInfo) : (new id openBlock).Filed := nofun

theorem store_filed (filed : channel.Filed) (sameId : frame.id = channel.id)
    (marked : frame.isLast = true ↔ channel.closed = true ∧ frame.number = channel.lastFrameNumber) :
    (channel.store frame l1InclusionBlock).Filed := by
  intro number held here
  rcases HashMap.lookup_of_lookup_insert here with ⟨rfl, rfl⟩ | before
  · exact ⟨rfl, sameId, marked⟩
  · exact filed number held before

theorem store_copies (channel : Channel) (frame other : Frame) (l1InclusionBlock : BlockInfo) :
    (channel.store frame l1InclusionBlock).copies other ≤ channel.copies other + if frame = other then 1 else 0 := by
  rw [copies, store, HashMap.total_insert, Nat.add_comm]
  exact Nat.add_le_add_right (HashMap.total_erase_le _ _ _) _

theorem closed_filed (filed : channel.Filed) (unclosed : channel.closed = false) {inputs : HashMap UInt16 Frame}
    {number : UInt16} (absent : number ∉ channel.inputs)
    (within : ∀ other held, inputs.lookup other = some held → channel.inputs.lookup other = some held)
    {estimatedSize : Nat} {highestFrameNumber : UInt16} :
    Filed { channel with lastFrameNumber := number, closed := true, estimatedSize, highestFrameNumber, inputs } := by
  intro other held here
  have before := within other held here
  obtain ⟨numbered, sameId, marked⟩ := filed other held before
  refine ⟨numbered, sameId, ?_⟩
  rw [marked, unclosed]
  refine iff_of_false (fun closed => nomatch closed.1) fun last => absent ?_
  have same : other = number := last.2
  rw [← same]
  exact AList.lookup_isSome.mp (by rw [before]; rfl)

theorem addFrame_filed (sound : channel.Sound) (filed : channel.Filed) (frame : Frame) (l1InclusionBlock : BlockInfo) :
    (channel.addFrame frame l1InclusionBlock).1.Filed ∧ (channel.addFrame frame l1InclusionBlock).1.id = channel.id ∧
      ∀ other, (channel.addFrame frame l1InclusionBlock).1.copies other ≤
        channel.copies other + if frame = other then 1 else 0 := by
  rcases addFrame_cases sound frame l1InclusionBlock with ⟨e, refuses, result⟩ | ⟨accepted, before, result, shape⟩
  · rw [result]
    exact ⟨filed, rfl, fun other => Nat.le_add_right _ _⟩
  · obtain ⟨sameId, unclosed, absent, inside⟩ := refusal_eq_none.mp accepted
    rw [result]
    rcases shape with ⟨notLast, rfl⟩ | ⟨last, -, rfl⟩ | ⟨last, -, rfl⟩
    · refine ⟨store_filed filed sameId ?_, rfl, fun other => store_copies _ frame other l1InclusionBlock⟩
      rw [notLast]
      exact iff_of_false Bool.false_ne_true fun closing => inside ⟨closing.1, closing.2 ▸ UInt16.le_refl _⟩
    · have isOpen : channel.closed = false := by simpa [last] using unclosed
      exact ⟨store_filed (closed_filed filed isOpen absent fun _ _ here => here) sameId (iff_of_true last ⟨rfl, rfl⟩), rfl,
        fun other => store_copies _ frame other l1InclusionBlock⟩
    · have isOpen : channel.closed = false := by simpa [last] using unclosed
      refine ⟨store_filed (closed_filed filed isOpen absent fun _ _ => HashMap.lookup_of_lookup_retain) sameId
        (iff_of_true last ⟨rfl, rfl⟩), rfl, fun other => ?_⟩
      exact (store_copies _ frame other l1InclusionBlock).trans
        (Nat.add_le_add_right (HashMap.total_retain_le _ _ _) _)

theorem count_eq_sum (frames : List Frame) (frame : Frame) :
    frames.count frame = (frames.map fun held => if held = frame then 1 else 0).sum := by
  induction frames with
  | nil => rfl
  | cons first frames ih => simp [List.count_cons, ih, Nat.add_comm]

theorem frameData_ordered_of_some {data : List UInt8} (collected : channel.frameData = some data) :
    ∃ frames, channel.Ordered frames ∧ data = frames.flatMap Frame.data := by
  have collects : ∀ (is : List Nat) (parts : List (List UInt8)),
      is.mapM (fun i => (channel.inputs.lookup (UInt16.ofNat i)).map (·.data)) = some parts → ∃ frames,
        List.Forall₂ (fun i frame => channel.inputs.lookup (UInt16.ofNat i) = some frame) is frames ∧
          parts = frames.map Frame.data := by
    intro is
    induction is with
    | nil =>
        intro parts mapped
        cases mapped
        exact ⟨[], .nil, rfl⟩
    | cons i is ih =>
        intro parts mapped
        rw [List.mapM_cons, Option.bind_eq_bind, Option.bind_eq_some_iff] at mapped
        obtain ⟨part, here, mapped⟩ := mapped
        rw [Option.bind_eq_bind, Option.bind_eq_some_iff] at mapped
        obtain ⟨later, mapped, made⟩ := mapped
        cases made
        obtain ⟨frame, found, rfl⟩ := Option.map_eq_some_iff.mp here
        obtain ⟨frames, ordered, rfl⟩ := ih later mapped
        exact ⟨frame :: frames, .cons found ordered, rfl⟩
  unfold frameData at collected
  obtain ⟨parts, mapped, made⟩ := Option.bind_eq_some_iff.mp collected
  cases made
  obtain ⟨frames, ordered, rfl⟩ := collects _ parts mapped
  exact ⟨frames, ordered, rfl⟩

theorem assembles_of_ready (filed : channel.Filed) (ready : channel.isReady = true) {data : List UInt8}
    (collected : channel.frameData = some data) :
    ∃ frames, Assembles channel.id frames data ∧ ∀ frame, frames.count frame ≤ channel.copies frame := by
  have closed : channel.closed = true := by
    unfold isReady at ready
    split_ifs at ready with isOpen
    simpa using isOpen
  obtain ⟨frames, ordered, rfl⟩ := frameData_ordered_of_some collected
  have found : List.Forall₂ (fun number frame => channel.inputs.lookup number = some frame)
      (numbersUpTo channel.lastFrameNumber) frames := List.forall₂_map_left_iff.mpr ordered
  have numbers : numbersUpTo channel.lastFrameNumber = frames.map Frame.number := by
    rw [← List.forall₂_eq_eq_eq, List.forall₂_map_right_iff]
    exact found.imp fun number frame here => (filed number frame here).1.symm
  have held : ∀ frame ∈ frames, channel.inputs.lookup frame.number = some frame := by
    have under : List.Forall₂ (fun frame number => channel.inputs.lookup frame.number = some frame ∧ True) frames
        (numbersUpTo channel.lastFrameNumber) := found.flip.imp fun frame number here => by
      rw [(filed number frame here).1]
      exact ⟨here, trivial⟩
    exact ((List.forall₂_and_left frames _).mp under).1
  have size : frames.length = channel.lastFrameNumber.toNat + 1 := by
    have same := congrArg List.length numbers
    rw [List.length_map, numbersUpTo, List.length_map, List.length_range] at same
    exact same.symm
  refine ⟨frames, ⟨fun frame member => (filed _ frame (held frame member)).2.1, ?_, fun frame member => ?_, rfl⟩,
    fun frame => ?_⟩
  · have composed : frames.map (fun frame => frame.number.toNat) = (frames.map Frame.number).map UInt16.toNat := by
      rw [List.map_map]
      rfl
    rw [composed, ← numbers, size, numbersUpTo, List.map_map]
    exact (List.map_congr_left fun i inside => toNat_ofNat inside).trans (List.map_id _)
  · rw [(filed _ frame (held frame member)).2.2, size, Nat.add_right_cancel_iff, UInt16.toNat_inj]
    exact and_iff_right closed
  · rw [count_eq_sum]
    exact HashMap.sum_le_total _ (nodup_numbersUpTo _) found

end Channel

end KonaSoon.Da
