import KonaSoon.Derive.Attributes

/-!
# The derivation pipeline

`DerivationPipeline` (`derive/src/pipeline/core.rs`) and the loop in which the driver steps it until it has
attributes (`produce_payload` in `protocol/driver/src/pipeline.rs`). The cache of the oracle, which the driver
flushes after a reorg, is no part of the stages.
-/

namespace KonaSoon.Derive
open Lib Mpt

class ConfigProvider (L : Type) where
  systemConfigByNumber : L → UInt64 → L × Except (String × PipelineErrorKind) SystemConfig

def Signal.withSystemConfig (systemConfig : SystemConfig) : Signal → Signal
  | .reset l2SafeHead l1Origin _ => .reset l2SafeHead l1Origin (some systemConfig)
  | .activation l2SafeHead l1Origin _ => .activation l2SafeHead l1Origin (some systemConfig)
  | .flushChannel => .flushChannel

inductive StepResult where
  | preparedAttributes
  | advancedOrigin
  | originAdvanceErr (e : PipelineErrorKind)
  | stepFailed (e : PipelineErrorKind)
deriving DecidableEq, Repr

structure DerivationPipeline (P B L : Type) where
  attributes : AttributesQueue P B
  prepared : List AttributesWithParent
  l2ChainProvider : L

inductive Turn where
  | again
  | returned (result : Except PipelineErrorKind AttributesWithParent)
  | panicked
deriving DecidableEq, Repr

theorem AttributesQueue.nextAttributes_parent {P B : Type} [AttributesProvider P] [AttributesBuilder B]
    {queue : AttributesQueue P B} {parent : L2BlockInfo} {attributes : AttributesWithParent}
    (returns : (queue.nextAttributes parent).2 = .ok attributes) : attributes.parent = parent := by
  unfold AttributesQueue.nextAttributes at returns
  split at returns
  · cases returns
  · split at returns
    · cases returns
    · cases returns
      rfl

namespace DerivationPipeline

variable {P B L : Type} [AttributesProvider P] [AttributesBuilder B] [ConfigProvider L]

def new (attributes : AttributesQueue P B) (l2ChainProvider : L) : DerivationPipeline P B L :=
  ⟨attributes, [], l2ChainProvider⟩

def origin (pipeline : DerivationPipeline P B L) : Option BlockInfo := Stage.origin pipeline.attributes.prev

/-- There is no result where a stage panics. -/
def step (pipeline : DerivationPipeline P B L) (cursor : L2BlockInfo) : DerivationPipeline P B L × Option StepResult :=
  match pipeline.attributes.nextAttributes cursor with
  | (attributes, .ok prepared) =>
      ({ pipeline with attributes, prepared := pipeline.prepared ++ [prepared] }, some .preparedAttributes)
  | (attributes, .error (.error (.temporary .eof))) =>
      match attributes.advanceOrigin with
      | (attributes, .ok ()) => ({ pipeline with attributes }, some .advancedOrigin)
      | (attributes, .error (.error e)) => ({ pipeline with attributes }, some (.originAdvanceErr e))
      | (attributes, .error _) => ({ pipeline with attributes }, none)
  | (attributes, .error (.error e)) => ({ pipeline with attributes }, some (.stepFailed e))
  | (attributes, .error _) => ({ pipeline with attributes }, none)

def signalStages (pipeline : DerivationPipeline P B L) (l2SafeHead : L2BlockInfo) (s : Signal) :
    DerivationPipeline P B L × PipelineResult Unit :=
  match ConfigProvider.systemConfigByNumber pipeline.l2ChainProvider l2SafeHead.blockInfo.number with
  | (l2ChainProvider, .error (text, _)) => ({ pipeline with l2ChainProvider }, (PipelineError.provider text).temp)
  | (l2ChainProvider, .ok systemConfig) =>
      match pipeline.attributes.signal (s.withSystemConfig systemConfig) with
      | (attributes, .error (.error (.temporary .eof))) => ({ pipeline with attributes, l2ChainProvider }, .ok ())
      | (attributes, result) => ({ pipeline with attributes, l2ChainProvider }, result)

def signal (pipeline : DerivationPipeline P B L) (s : Signal) : DerivationPipeline P B L × PipelineResult Unit :=
  match s with
  | .reset l2SafeHead _ _ | .activation l2SafeHead _ _ => pipeline.signalStages l2SafeHead s
  | .flushChannel =>
      let (attributes, result) := pipeline.attributes.signal s
      ({ pipeline with attributes }, result)

def sendReset (pipeline : DerivationPipeline P B L) (e : ResetError) (l2SafeHead : L2BlockInfo) :
    DerivationPipeline P B L × PipelineResult Unit :=
  match ConfigProvider.systemConfigByNumber pipeline.l2ChainProvider l2SafeHead.blockInfo.number with
  | (l2ChainProvider, .error (_, kind)) => ({ pipeline with l2ChainProvider }, .error (.error kind))
  | (l2ChainProvider, .ok systemConfig) =>
      let pipeline := { pipeline with l2ChainProvider }
      match pipeline.origin with
      | none => (pipeline, PipelineError.missingOrigin.crit)
      | some l1Origin =>
          if e = .holoceneActivation then pipeline.signal (.activation l2SafeHead l1Origin (some systemConfig))
          else pipeline.signal (.reset l2SafeHead l1Origin (some systemConfig))

def next (pipeline : DerivationPipeline P B L) : DerivationPipeline P B L × Turn :=
  match pipeline.prepared with
  | [] => (pipeline, .again)
  | first :: prepared => ({ pipeline with prepared }, .returned (.ok first))

def afterError (pipeline : DerivationPipeline P B L) (l2SafeHead : L2BlockInfo) :
    PipelineErrorKind → DerivationPipeline P B L × Turn
  | .temporary _ => (pipeline, .again)
  | .reset e =>
      match pipeline.sendReset e l2SafeHead with
      | (pipeline, .ok ()) => pipeline.next
      | (pipeline, .error (.error e)) => (pipeline, .returned (.error e))
      | (pipeline, .error _) => (pipeline, .panicked)
  | .critical e => (pipeline, .returned (.error (.critical e)))

/-- One turn of the loop of `produce_payload`. -/
def turn (pipeline : DerivationPipeline P B L) (l2SafeHead : L2BlockInfo) : DerivationPipeline P B L × Turn :=
  match pipeline.step l2SafeHead with
  | (pipeline, none) => (pipeline, .panicked)
  | (pipeline, some .preparedAttributes) => pipeline.next
  | (pipeline, some .advancedOrigin) =>
      match pipeline.origin with
      | none => (pipeline, .returned (.error (.critical .missingOrigin)))
      | some _ => pipeline.next
  | (pipeline, some (.originAdvanceErr e)) => pipeline.afterError l2SafeHead e
  | (pipeline, some (.stepFailed e)) => pipeline.afterError l2SafeHead e

omit [AttributesProvider P] [AttributesBuilder B] [ConfigProvider L] in
theorem next_of_empty {pipeline : DerivationPipeline P B L} (empty : pipeline.prepared = []) :
    pipeline.next = (pipeline, .again) := by
  unfold next
  rw [empty]

omit [AttributesProvider P] [AttributesBuilder B] [ConfigProvider L] in
theorem next_of_single {pipeline : DerivationPipeline P B L} {attributes : AttributesWithParent}
    (waiting : pipeline.prepared = [attributes]) :
    pipeline.next = ({ pipeline with prepared := [] }, .returned (.ok attributes)) := by
  unfold next
  rw [waiting]

omit [ConfigProvider L] in
theorem step_prepared {pipeline : DerivationPipeline P B L} (empty : pipeline.prepared = []) (cursor : L2BlockInfo) :
    (∃ attributes, attributes.parent = cursor ∧ (pipeline.step cursor).1.prepared = [attributes] ∧
      (pipeline.step cursor).2 = some .preparedAttributes) ∨
    (pipeline.step cursor).1.prepared = [] ∧ (pipeline.step cursor).2 ≠ some .preparedAttributes := by
  unfold step
  split
  · rename_i attributes prepared made
    exact .inl ⟨prepared, AttributesQueue.nextAttributes_parent (congrArg Prod.snd made), by rw [empty]; rfl, rfl⟩
  · split
    · exact .inr ⟨empty, nofun⟩
    · exact .inr ⟨empty, nofun⟩
    · exact .inr ⟨empty, nofun⟩
  · exact .inr ⟨empty, nofun⟩
  · exact .inr ⟨empty, nofun⟩

omit [AttributesBuilder B] in
theorem signalStages_prepared (pipeline : DerivationPipeline P B L) (l2SafeHead : L2BlockInfo) (s : Signal) :
    (pipeline.signalStages l2SafeHead s).1.prepared = pipeline.prepared := by
  unfold signalStages
  split
  · rfl
  · split
    · rfl
    · rfl

omit [AttributesBuilder B] in
theorem signal_prepared (pipeline : DerivationPipeline P B L) (s : Signal) : (pipeline.signal s).1.prepared = pipeline.prepared := by
  cases s with
  | reset l2SafeHead l1Origin systemConfig => exact pipeline.signalStages_prepared l2SafeHead _
  | activation l2SafeHead l1Origin systemConfig => exact pipeline.signalStages_prepared l2SafeHead _
  | flushChannel => rfl

omit [AttributesBuilder B] in
theorem sendReset_prepared (pipeline : DerivationPipeline P B L) (e : ResetError) (l2SafeHead : L2BlockInfo) :
    (pipeline.sendReset e l2SafeHead).1.prepared = pipeline.prepared := by
  unfold sendReset
  split
  · rfl
  · dsimp only
    split
    · rfl
    · split
      · exact signal_prepared _ _
      · exact signal_prepared _ _

omit [AttributesBuilder B] in
theorem afterError_prepared {pipeline : DerivationPipeline P B L} (empty : pipeline.prepared = []) (l2SafeHead : L2BlockInfo)
    (e : PipelineErrorKind) : (pipeline.afterError l2SafeHead e).1.prepared = [] ∧
      ∀ attributes, (pipeline.afterError l2SafeHead e).2 ≠ .returned (.ok attributes) := by
  cases e with
  | temporary e => exact ⟨empty, nofun⟩
  | critical e => exact ⟨empty, nofun⟩
  | reset e =>
      have kept := pipeline.sendReset_prepared e l2SafeHead
      rw [empty] at kept
      unfold afterError
      dsimp only
      split
      · rename_i after sent
        rw [sent] at kept
        rw [next_of_empty kept]
        exact ⟨kept, nofun⟩
      · rename_i after e sent
        rw [sent] at kept
        exact ⟨kept, nofun⟩
      · rename_i after stop sent
        rw [sent] at kept
        exact ⟨kept, nofun⟩

/-- No attributes wait between two turns, and those that a turn returns are made for its safe head. -/
theorem turn_prepared {pipeline : DerivationPipeline P B L} (empty : pipeline.prepared = []) (l2SafeHead : L2BlockInfo) :
    (pipeline.turn l2SafeHead).1.prepared = [] ∧
      ∀ attributes, (pipeline.turn l2SafeHead).2 = .returned (.ok attributes) → attributes.parent = l2SafeHead := by
  have stepped := step_prepared empty l2SafeHead
  unfold turn
  generalize pipeline.step l2SafeHead = result at stepped
  obtain ⟨after, ended⟩ := result
  rcases stepped with ⟨attributes, parent, waiting, prepared⟩ | ⟨nothing, unprepared⟩
  · cases prepared
    dsimp only at waiting ⊢
    rw [next_of_single waiting]
    refine ⟨rfl, fun returned same => ?_⟩
    cases same
    exact parent
  · have fails (e : PipelineErrorKind) : (after.afterError l2SafeHead e).1.prepared = [] ∧
        ∀ attributes, (after.afterError l2SafeHead e).2 = .returned (.ok attributes) → attributes.parent = l2SafeHead :=
      ⟨(afterError_prepared nothing l2SafeHead e).1,
        fun attributes same => absurd same ((afterError_prepared nothing l2SafeHead e).2 attributes)⟩
    cases ended with
    | none => exact ⟨nothing, nofun⟩
    | some result =>
        cases result with
        | preparedAttributes => exact absurd rfl unprepared
        | advancedOrigin =>
            dsimp only
            split
            · exact ⟨nothing, nofun⟩
            · rw [next_of_empty nothing]
              exact ⟨nothing, nofun⟩
        | originAdvanceErr e => exact fails e
        | stepFailed e => exact fails e

end DerivationPipeline

end KonaSoon.Derive
