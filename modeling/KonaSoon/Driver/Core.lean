import KonaSoon.Derive.Driver
import KonaSoon.Driver.Cursor
import KonaSoon.State.OverlayReads
import KonaSoon.Svm.Machine

/-!
# The driver

The loop of `advance_to_target` (`protocol/driver/src/core.rs`) over the derivation pipeline and the executor. The
safe head stays the same while a payload is produced, so a turn of `produce_payload` is a turn of this loop.
-/

namespace KonaSoon.Driver
open Lib Mpt Derive State

class DriverPipeline (P : Type) where
  turn : P → L2BlockInfo → P × Turn
  origin : P → Option BlockInfo

instance {A B L : Type} [AttributesProvider A] [AttributesBuilder B] [ConfigProvider L] :
    DriverPipeline (DerivationPipeline A B L) where
  turn := DerivationPipeline.turn
  origin := DerivationPipeline.origin

inductive DriverError where
  | pipeline (e : PipelineErrorKind)
  | executor (e : ExecutorError)
deriving DecidableEq, Repr

/-- How a turn of the driver's loop ends. A panic is also a recursion that the fuel did not cover. -/
inductive DriverTurn where
  | again (target : Option UInt64)
  | returned (result : Except DriverError (L2BlockInfo × B256))
  | panicked
deriving DecidableEq, Repr

end KonaSoon.Driver

namespace KonaSoon
open Driver State

structure Driver (P Report : Type) where
  cursor : PipelineCursor
  executor : KonaExecutor
  pipeline : P
  safeHeadArtifacts : Option (BlockBuildingOutcome Report × List (List UInt8))

end KonaSoon

namespace KonaSoon.Driver
open Lib Mpt Derive State

variable {P Svm L2Transaction Report : Type}

def new (cursor : PipelineCursor) (executor : KonaExecutor) (pipeline : P) : Driver P Report :=
  ⟨cursor, executor, pipeline, none⟩

section Turns

variable [DriverPipeline P] (vm : Vm Svm L2Transaction Report) (prim : Primitives) (fuel : Nat)

def advanceCursor (driver : Driver P Report) (target : Option UInt64) (outcome : BlockBuildingOutcome Report)
    (attributes : PayloadAttributes) : Driver P Report × DriverTurn :=
  match DriverPipeline.origin driver.pipeline with
  | none => (driver, .returned (.error (.pipeline (.critical .missingOrigin))))
  | some origin =>
      match driver.executor.computeOutputRoot prim with
      | .error (.error e) => (driver, .returned (.error (.executor e)))
      | .error _ => (driver, .panicked)
      | .ok outputRoot =>
          let tipCursor : TipCursor := ⟨outcome.blockInfo,
            ⟨outcome.blockInfo.blockInfo, outcome.stateRoot, outcome.withdrawRoot⟩, outputRoot⟩
          match driver.cursor.advance origin tipCursor with
          | none => (driver, .panicked)
          | some cursor =>
              ({ driver with cursor, safeHeadArtifacts := some (outcome, attributes.transactions.getD []) }, .again target)

def execute (driver : Driver P Report) (target : Option UInt64) (hosts : State.Host × State.Host) (tipCursor : TipCursor)
    (attributes : PayloadAttributes) : Driver P Report × DriverTurn :=
  match (driver.executor.updateSafeHead hosts.1 tipCursor.l2SafeHeadHeader).executePayload vm prim fuel hosts.2
    attributes.transactions with
  | (executor, .error (.error _)) => ({ driver with executor }, .again target)
  | (executor, .error _) => ({ driver with executor }, .panicked)
  | (executor, .ok outcome) => advanceCursor prim { driver with executor } target outcome attributes

def derive (driver : Driver P Report) (target : Option UInt64) (hosts : State.Host × State.Host) (tipCursor : TipCursor) :
    Driver P Report × DriverTurn :=
  match DriverPipeline.turn driver.pipeline tipCursor.l2SafeHead with
  | (pipeline, .again) => ({ driver with pipeline }, .again target)
  | (pipeline, .panicked) => ({ driver with pipeline }, .panicked)
  | (pipeline, .returned (.error (.critical .endOfSource))) =>
      ({ driver with pipeline }, .again (target.map fun _ => tipCursor.l2SafeHead.blockInfo.number))
  | (pipeline, .returned (.error e)) => ({ driver with pipeline }, .returned (.error (.pipeline e)))
  | (pipeline, .returned (.ok attributes)) =>
      execute vm prim fuel { driver with pipeline } target hosts tipCursor attributes.attributes

def reached (target : Option UInt64) (tipCursor : TipCursor) : Bool :=
  target.any fun number => number ≤ tipCursor.l2SafeHead.blockInfo.number

def turn (driver : Driver P Report) (target : Option UInt64) (hosts : State.Host × State.Host) : Driver P Report × DriverTurn :=
  match driver.cursor.tip with
  | none => (driver, .panicked)
  | some tipCursor =>
      if reached target tipCursor then (driver, .returned (.ok (tipCursor.l2SafeHead, tipCursor.l2SafeHeadOutputRoot)))
      else derive vm prim fuel driver target hosts tipCursor

/-- The loop for as many turns as there are hosts, the ones of the new safe head and of the payload. -/
def advanceToTarget (driver : Driver P Report) (target : Option UInt64) :
    List (State.Host × State.Host) → Driver P Report × DriverTurn
  | [] => (driver, .again target)
  | hosts :: later =>
      match turn vm prim fuel driver target hosts with
      | (driver, .again target) => advanceToTarget driver target later
      | ended => ended

end Turns

/-! ## Where the driver starts -/

section Sync

variable {L1 L2 ε : Type}

end Sync

/-! ## What a turn does -/

def tipOf (prim : Primitives) (outcome : BlockBuildingOutcome Report) : TipCursor :=
  ⟨outcome.blockInfo, ⟨outcome.blockInfo.blockInfo, outcome.stateRoot, outcome.withdrawRoot⟩,
    StatelessL2Builder.outputRoot prim outcome.stateRoot outcome.withdrawRoot outcome.blockInfo.blockInfo.hash⟩

section Steps

variable [DriverPipeline P] (vm : Vm Svm L2Transaction Report) (prim : Primitives) (fuel : Nat)

/-- The states that a pipeline comes to in its turns, whatever the safe heads are. -/
inductive Turned (start : P) : P → Prop where
  | start : Turned start start
  | turn {pipeline : P} (turned : Turned start pipeline) (l2SafeHead : L2BlockInfo) :
      Turned start (DriverPipeline.turn pipeline l2SafeHead).1

theorem Turned.trans {first middle last : P} (before : Turned first middle) (after : Turned middle last) : Turned first last := by
  induction after with
  | start => exact before
  | turn _ l2SafeHead ih => exact ih.turn l2SafeHead

theorem turned_once {pipeline after : P} {l2SafeHead : L2BlockInfo} {ended : Turn}
    (made : DriverPipeline.turn pipeline l2SafeHead = (after, ended)) : Turned pipeline after := by
  have once := (Turned.start : Turned pipeline pipeline).turn l2SafeHead
  rw [made] at once
  exact once

/-- A block on a parent: the executor made it of attributes that the pipeline of the run gave for the parent, at that
origin. -/
inductive Extends (start : P) (parent : TipCursor) : BlockInfo × TipCursor → Prop where
  | block {pipeline after : P} {attributes : AttributesWithParent} {executor built : KonaExecutor}
      {hosts : State.Host × State.Host} {outcome : BlockBuildingOutcome Report} {origin : BlockInfo}
      (turned : Turned start pipeline)
      (given : DriverPipeline.turn pipeline parent.l2SafeHead = (after, .returned (.ok attributes)))
      (executed : (executor.updateSafeHead hosts.1 parent.l2SafeHeadHeader).executePayload vm prim fuel hosts.2
        attributes.attributes.transactions = (built, .ok outcome))
      (at_ : DriverPipeline.origin after = some origin) : Extends start parent (origin, tipOf prim outcome)

theorem Extends.earlier {vm : Vm Svm L2Transaction Report} {prim : Primitives} {fuel : Nat} {start later : P}
    {parent : TipCursor} {block : BlockInfo × TipCursor} (turned : Turned start later)
    (extends_ : Extends vm prim fuel later parent block) : Extends vm prim fuel start parent block := by
  obtain ⟨after, given, executed, at_⟩ := extends_
  exact .block (turned.trans after) given executed at_

/-- Nothing is derived. The pipeline may have taken a turn. -/
structure Unmoved (driver after : Driver P Report) : Prop where
  cursor : after.cursor = driver.cursor
  artifacts : after.safeHeadArtifacts = driver.safeHeadArtifacts
  turned : Turned driver.pipeline after.pipeline

def Short (driver : Driver P Report) (target : Option UInt64) : Prop :=
  ∀ tipCursor, driver.cursor.tip = some tipCursor → reached target tipCursor = false

/-- All that a turn can do. -/
inductive Steps (driver : Driver P Report) (target : Option UInt64) : Driver P Report → DriverTurn → Prop where
  | reached {tipCursor : TipCursor} {number : UInt64} (tip : driver.cursor.tip = some tipCursor) (wanted : target = some number)
      (far : number ≤ tipCursor.l2SafeHead.blockInfo.number) :
      Steps driver target driver (.returned (.ok (tipCursor.l2SafeHead, tipCursor.l2SafeHeadOutputRoot)))
  | waited {after : Driver P Report} (short : Short driver target) (unmoved : Unmoved driver after) :
      Steps driver target after (.again target)
  | exhausted {after : Driver P Report} {tipCursor : TipCursor} (tip : driver.cursor.tip = some tipCursor)
      (short : Short driver target) (unmoved : Unmoved driver after)
      (ends : DriverPipeline.turn driver.pipeline tipCursor.l2SafeHead =
        (after.pipeline, .returned (.error (.critical .endOfSource)))) :
      Steps driver target after (.again (target.map fun _ => tipCursor.l2SafeHead.blockInfo.number))
  | extended {after : Driver P Report} {tipCursor : TipCursor} {origin : BlockInfo} {outcome : BlockBuildingOutcome Report}
      {transactions : List (List UInt8)} (tip : driver.cursor.tip = some tipCursor) (short : Short driver target)
      (extends_ : Extends vm prim fuel driver.pipeline tipCursor (origin, tipOf prim outcome))
      (turned : Turned driver.pipeline after.pipeline)
      (advanced : driver.cursor.advance origin (tipOf prim outcome) = some after.cursor)
      (artifacts : after.safeHeadArtifacts = some (outcome, transactions)) : Steps driver target after (.again target)
  | failed {after : Driver P Report} (e : DriverError) (short : Short driver target) (unmoved : Unmoved driver after) :
      Steps driver target after (.returned (.error e))
  | panicked {after : Driver P Report} (short : Short driver target) (unmoved : Unmoved driver after) :
      Steps driver target after .panicked

end Steps

section Cases

variable [DriverPipeline P] {vm : Vm Svm L2Transaction Report} {prim : Primitives} {fuel : Nat}

theorem executePayload_built {executor built : KonaExecutor} {host : State.Host} {transactions : Option (List (List UInt8))}
    {outcome : BlockBuildingOutcome Report}
    (executed : executor.executePayload vm prim fuel host transactions = (built, .ok outcome)) :
    ∃ builder diffAccounts, executor.inner = some builder ∧
      builder.execute vm host transactions = .ok (outcome.blockInfo, outcome.report, diffAccounts) ∧
      built.computeOutputRoot prim = .ok (tipOf prim outcome).l2SafeHeadOutputRoot := by
  cases inner : executor.inner with
  | none =>
      simp only [KonaExecutor.executePayload, inner] at executed
      cases executed
  | some builder =>
      have split := @KonaExecutor.executePayload_some _ _ _ vm prim fuel _ _ inner host transactions
      rw [executed] at split
      obtain ⟨left, result⟩ := split
      obtain ⟨diffAccounts, db, ran, -, -, trieDb⟩ := StatelessL2Builder.buildBlock_built (Prod.ext rfl result.symm)
      have after : built.inner = some (builder.buildBlock vm prim fuel host transactions).1 := congrArg KonaExecutor.inner left
      refine ⟨builder, diffAccounts, rfl, ran, ?_⟩
      simp only [KonaExecutor.computeOutputRoot, after, StatelessL2Builder.computeOutputRoot, trieDb,
        TrieDB.setParentBlockHeader, tipOf]

theorem advanceCursor_steps {driver before : Driver P Report} {target : Option UInt64} {tipCursor : TipCursor}
    {outcome : BlockBuildingOutcome Report} {attributes : PayloadAttributes} (unmoved : Unmoved before driver)
    (tip : before.cursor.tip = some tipCursor) (short : Short before target)
    (root : driver.executor.computeOutputRoot prim = .ok (tipOf prim outcome).l2SafeHeadOutputRoot)
    (extends_ : ∀ origin, DriverPipeline.origin driver.pipeline = some origin →
      Extends vm prim fuel before.pipeline tipCursor (origin, tipOf prim outcome)) :
    Steps vm prim fuel before target (advanceCursor prim driver target outcome attributes).1
      (advanceCursor prim driver target outcome attributes).2 := by
  unfold advanceCursor
  cases at_ : DriverPipeline.origin driver.pipeline with
  | none => exact .failed _ short unmoved
  | some origin =>
      rw [root]
      dsimp only
      rw [unmoved.cursor]
      cases advanced : before.cursor.advance origin (tipOf prim outcome) with
      | none =>
          simp only [tipOf] at advanced
          simp only [tipOf, advanced]
          exact .panicked short unmoved
      | some cursor =>
          have now := advanced
          simp only [tipOf] at now
          simp only [tipOf, now]
          exact .extended tip short (extends_ origin at_) unmoved.turned advanced rfl

theorem execute_steps {driver before : Driver P Report} {target : Option UInt64} (hosts : State.Host × State.Host)
    {tipCursor : TipCursor} {attributes : AttributesWithParent} (unmoved : Unmoved before driver)
    (tip : before.cursor.tip = some tipCursor) (short : Short before target)
    (given : DriverPipeline.turn before.pipeline tipCursor.l2SafeHead = (driver.pipeline, .returned (.ok attributes))) :
    Steps vm prim fuel before target (execute vm prim fuel driver target hosts tipCursor attributes.attributes).1
      (execute vm prim fuel driver target hosts tipCursor attributes.attributes).2 := by
  unfold execute
  cases executed : (driver.executor.updateSafeHead hosts.1 tipCursor.l2SafeHeadHeader).executePayload vm prim fuel hosts.2
    attributes.attributes.transactions with
  | mk executor result =>
      have still : Unmoved before { driver with executor } := ⟨unmoved.cursor, unmoved.artifacts, unmoved.turned⟩
      cases result with
      | ok outcome =>
          obtain ⟨-, -, -, -, root⟩ := executePayload_built executed
          exact advanceCursor_steps still tip short root fun origin at_ => .block .start given executed at_
      | error stop =>
          cases stop with
          | error e => exact .waited short still
          | panic => exact .panicked short still
          | outOfFuel => exact .panicked short still

theorem turn_steps (driver : Driver P Report) (target : Option UInt64) (hosts : State.Host × State.Host) :
    Steps vm prim fuel driver target (turn vm prim fuel driver target hosts).1 (turn vm prim fuel driver target hosts).2 := by
  unfold turn
  cases tip : driver.cursor.tip with
  | none =>
      have short : Short driver target := fun tipCursor here => by rw [tip] at here; cases here
      exact .panicked short ⟨rfl, rfl, .start⟩
  | some tipCursor =>
      dsimp only
      split
      · rename_i far
        obtain ⟨number, wanted, far⟩ : ∃ number, target = some number ∧ number ≤ tipCursor.l2SafeHead.blockInfo.number := by
          simpa [reached, Option.any_eq_true] using far
        exact .reached tip wanted far
      · rename_i notFar
        have short : Short driver target := by
          intro other here
          cases tip.symm.trans here
          rwa [Bool.not_eq_true] at notFar
        unfold derive
        cases made : DriverPipeline.turn driver.pipeline tipCursor.l2SafeHead with
        | mk pipeline ended =>
            have unmoved : Unmoved driver { driver with pipeline } := ⟨rfl, rfl, turned_once made⟩
            split
            · rename_i same
              cases same
              exact .waited short unmoved
            · rename_i same
              cases same
              exact .panicked short unmoved
            · rename_i same
              cases same
              exact .exhausted tip short unmoved made
            · rename_i same
              cases same
              exact .failed _ short unmoved
            · rename_i same
              cases same
              exact execute_steps hosts unmoved tip short made

end Cases

/-! ## What a run derives -/

def Numbered (vm : Vm Svm L2Transaction Report) : Prop :=
  ∀ setup svm block after blockInfo report, vm.finishInit setup = .ok svm →
    vm.executeBlock svm block = .ok (after, blockInfo, report) → blockInfo.blockInfo.number = setup.parentSlot + 1

def Rising (history : PipelineCursor.History) : Prop := (PipelineCursor.numbers history).Pairwise (· ≤ ·)

/-- The run has taken the pipeline to a state in which it had no more payloads for the safe head, and left it there. -/
def SourceEnds [DriverPipeline P] (start last : P) (l2SafeHead : L2BlockInfo) : Prop :=
  ∃ pipeline, Turned start pipeline ∧
    DriverPipeline.turn pipeline l2SafeHead = (last, .returned (.error (.critical .endOfSource)))

def TipCursor.Agrees (tipCursor : TipCursor) : Prop :=
  tipCursor.l2SafeHeadHeader.blockInfo.number = tipCursor.l2SafeHead.blockInfo.number

def lastBlock (first : BlockInfo × TipCursor) (history : PipelineCursor.History) : BlockInfo × TipCursor :=
  history.getLast?.getD first

section Runs

variable [DriverPipeline P] {vm : Vm Svm L2Transaction Report} {prim : Primitives} {fuel : Nat}

theorem execute_numbered (numbered : Numbered vm) {host : State.Host} {builder : StatelessL2Builder}
    {transactions : Option (List (List UInt8))} {executed : L2BlockInfo × Report × AccountPairs}
    (ok : builder.execute vm host transactions = .ok executed) : executed.1.blockInfo.number = builder.parentSlot + 1 := by
  unfold StatelessL2Builder.execute at ok
  simp only [bind_eq_ok] at ok
  obtain ⟨_, _, _, _, _, _, svm, started, _, _, ⟨after, blockInfo, report⟩, ran, same⟩ := ok
  cases same
  exact numbered _ _ _ _ _ _ (mapError_eq_ok.mp started) (mapError_eq_ok.mp ran)

theorem Extends.number (numbered : Numbered vm) {start : P} {parent : TipCursor} {block : BlockInfo × TipCursor}
    (extends_ : Extends vm prim fuel start parent block) :
    block.2.l2SafeHead.blockInfo.number = parent.l2SafeHeadHeader.blockInfo.number + 1 ∧ block.2.Agrees := by
  obtain ⟨-, -, executed, -⟩ := extends_
  rename_i executor built hosts outcome origin
  obtain ⟨builder, diffAccounts, inner, ran, -⟩ := executePayload_built executed
  have slot : parent.l2SafeHeadHeader.blockInfo.number = builder.parentSlot := by
    cases inner
    rfl
  refine ⟨?_, rfl⟩
  rw [slot]
  exact execute_numbered numbered ran

/-- What the driver has derived after some turns, with the target that the loop has now. -/
structure Derived [DriverPipeline P] (vm : Vm Svm L2Transaction Report) (prim : Primitives) (fuel : Nat) (start : P)
    (fresh : PipelineCursor) (first : BlockInfo × TipCursor) (target : Option UInt64) (history : PipelineCursor.History)
    (driver : Driver P Report) (current : Option UInt64) : Prop where
  cursor : fresh.advanceAll (first :: history) = some driver.cursor
  artifacts : driver.safeHeadArtifacts.map (fun artifacts => tipOf prim artifacts.1) = history.getLast?.map Prod.snd
  turned : Turned start driver.pipeline
  chain : Rising (first :: history) →
    (first :: history).IsChain fun parent block => Extends vm prim fuel start parent.2 block
  bounded : Rising (first :: history) → history ≠ [] → ∀ number, target = some number →
    (lastBlock first history).2.l2SafeHead.blockInfo.number ≤ number
  halts : current = target ∨ ∃ tipCursor, driver.cursor.tip = some tipCursor ∧
    SourceEnds start driver.pipeline tipCursor.l2SafeHead ∧ target.isSome ∧
    current = some tipCursor.l2SafeHead.blockInfo.number

theorem getLast?_first (first : BlockInfo × TipCursor) (history : PipelineCursor.History) :
    (first :: history).getLast? = some (lastBlock first history) := by
  rw [lastBlock, List.getLast?_cons]

theorem lastBlock_append (first block : BlockInfo × TipCursor) (history : PipelineCursor.History) :
    lastBlock first (history ++ [block]) = block := by
  rw [lastBlock, List.getLast?_concat, Option.getD_some]

theorem Rising.before {first block : BlockInfo × TipCursor} {history : PipelineCursor.History}
    (rising : Rising (first :: (history ++ [block]))) : Rising (first :: history) := by
  have front : PipelineCursor.numbers (first :: history) <+: PipelineCursor.numbers (first :: (history ++ [block])) :=
    PipelineCursor.numbers_before (List.prefix_append (first :: history) [block])
  exact List.Pairwise.sublist front.sublist rising

theorem lastBlock_agrees {start : P} {first : BlockInfo × TipCursor} (agrees : first.2.Agrees)
    {history : PipelineCursor.History} (numbered : Numbered vm)
    (chain : (first :: history).IsChain fun parent block => Extends vm prim fuel start parent.2 block) :
    (lastBlock first history).2.Agrees := by
  rcases List.eq_nil_or_concat history with rfl | ⟨sofar, last, rfl⟩
  · exact agrees
  · rw [List.concat_eq_append] at chain ⊢
    rw [lastBlock_append]
    have linked := (List.isChain_append.mp (by rwa [← List.cons_append] at chain)).2.2
    exact (Extends.number numbered (linked _ (getLast?_first first sofar) last rfl)).2

theorem succ_le_of_lt {a b : UInt64} (less : a < b) : a + 1 ≤ b := by
  have below := UInt64.lt_iff_toNat_lt.mp less
  have bound := b.toNat_lt
  have one : (1 : UInt64).toNat = 1 := rfl
  rw [UInt64.le_iff_toNat_le, UInt64.toNat_add, one, Nat.mod_eq_of_lt (by omega)]
  omega

variable {start : P} {fresh : PipelineCursor} {first : BlockInfo × TipCursor} {target current : Option UInt64}
  {history : PipelineCursor.History} {driver after : Driver P Report}

namespace Derived

theorem tip (derived : Derived vm prim fuel start fresh first target history driver current) {channelTimeout : UInt64}
    {origin : BlockInfo} (made : PipelineCursor.new channelTimeout origin = some fresh) (rising : Rising (first :: history)) :
    driver.cursor.tip = some (lastBlock first history).2 := by
  obtain ⟨now, run, -, last⟩ := PipelineCursor.advanceAll_tip made rising
  rw [derived.cursor] at run
  cases run
  exact (last _ (getLast?_first first history)).1

/-- Once the target is lowered, the loop is at its end. -/
theorem running (derived : Derived vm prim fuel start fresh first target history driver current) (short : Short driver current) :
    current = target := by
  rcases derived.halts with same | ⟨halted, tip, -, -, lowered⟩
  · exact same
  · have far := short halted tip
    rw [lowered] at far
    simp [reached] at far

theorem same (derived : Derived vm prim fuel start fresh first target history driver current) (short : Short driver current)
    (unmoved : Unmoved driver after) : Derived vm prim fuel start fresh first target history after current where
  cursor := by rw [unmoved.cursor]; exact derived.cursor
  artifacts := by rw [unmoved.artifacts]; exact derived.artifacts
  turned := derived.turned.trans unmoved.turned
  chain := derived.chain
  bounded := derived.bounded
  halts := .inl (derived.running short)

theorem exhausted (derived : Derived vm prim fuel start fresh first target history driver current) {tipCursor : TipCursor}
    (tip : driver.cursor.tip = some tipCursor) (short : Short driver current) (unmoved : Unmoved driver after)
    (ends : DriverPipeline.turn driver.pipeline tipCursor.l2SafeHead =
      (after.pipeline, .returned (.error (.critical .endOfSource)))) :
    Derived vm prim fuel start fresh first target history after (current.map fun _ => tipCursor.l2SafeHead.blockInfo.number) := by
  refine { derived.same short unmoved with halts := ?_ }
  rw [derived.running short]
  cases target with
  | none => exact .inl rfl
  | some number =>
      rw [← unmoved.cursor] at tip
      exact .inr ⟨tipCursor, tip, ⟨driver.pipeline, derived.turned, ends⟩, rfl, rfl⟩

theorem extended (derived : Derived vm prim fuel start fresh first target history driver current) (numbered : Numbered vm)
    {channelTimeout : UInt64} {origin : BlockInfo} (made : PipelineCursor.new channelTimeout origin = some fresh)
    (agrees : first.2.Agrees) {tipCursor : TipCursor} {block : BlockInfo × TipCursor} {outcome : BlockBuildingOutcome Report}
    {transactions : List (List UInt8)} (tip : driver.cursor.tip = some tipCursor) (short : Short driver current)
    (is_ : block.2 = tipOf prim outcome) (extends_ : Extends vm prim fuel driver.pipeline tipCursor block)
    (turned : Turned driver.pipeline after.pipeline) (advanced : driver.cursor.advance block.1 block.2 = some after.cursor)
    (artifacts : after.safeHeadArtifacts = some (outcome, transactions)) :
    Derived vm prim fuel start fresh first target (history ++ [block]) after current := by
  have unhalted : current = target := derived.running short
  have parent (rising : Rising (first :: (history ++ [block]))) : tipCursor = (lastBlock first history).2 :=
    Option.some.inj (tip.symm.trans (derived.tip made rising.before))
  have chain (rising : Rising (first :: (history ++ [block]))) :
      (first :: history ++ [block]).IsChain fun parent block => Extends vm prim fuel start parent.2 block := by
    apply List.isChain_append.mpr
    refine ⟨derived.chain rising.before, List.isChain_singleton block, fun last isLast next isNext => ?_⟩
    rw [getLast?_first] at isLast
    cases isLast
    cases isNext
    rw [← parent rising]
    exact extends_.earlier derived.turned
  refine ⟨?_, ?_, derived.turned.trans turned, chain, fun rising _ number wanted => ?_, .inl unhalted⟩
  · rw [← List.cons_append, PipelineCursor.advanceAll_append, derived.cursor]
    exact advanced
  · rw [artifacts, List.getLast?_concat, Option.map_some, Option.map_some, is_]
  · have below : tipCursor.l2SafeHead.blockInfo.number < number := by
      simpa [reached, unhalted, wanted] using short tipCursor tip
    have agree : tipCursor.Agrees := by
      rw [parent rising]
      exact lastBlock_agrees agrees numbered (derived.chain rising.before)
    rw [lastBlock_append, (extends_.number numbered).1, agree]
    exact succ_le_of_lt below

theorem run (numbered : Numbered vm) {channelTimeout : UInt64} {origin : BlockInfo}
    (made : PipelineCursor.new channelTimeout origin = some fresh) (agrees : first.2.Agrees)
    (derived : Derived vm prim fuel start fresh first target history driver current) (hosts : List (State.Host × State.Host)) :
    ∃ history' current', Derived vm prim fuel start fresh first target history'
        (advanceToTarget vm prim fuel driver current hosts).1 current' ∧
      ∀ head root, (advanceToTarget vm prim fuel driver current hosts).2 = .returned (.ok (head, root)) →
        ∃ tipCursor number, (advanceToTarget vm prim fuel driver current hosts).1.cursor.tip = some tipCursor ∧
          current' = some number ∧ number ≤ tipCursor.l2SafeHead.blockInfo.number ∧ head = tipCursor.l2SafeHead ∧
          root = tipCursor.l2SafeHeadOutputRoot := by
  induction hosts generalizing history driver current with
  | nil => exact ⟨history, current, derived, nofun⟩
  | cons given later ih =>
      have step : Steps vm prim fuel driver current (turn vm prim fuel driver current given).1
        (turn vm prim fuel driver current given).2 := turn_steps driver current given
      unfold advanceToTarget
      generalize turn vm prim fuel driver current given = turned at step
      obtain ⟨after, ended⟩ := turned
      cases step with
      | reached tip wanted far =>
          refine ⟨history, current, derived, fun head root returned => ?_⟩
          cases returned
          exact ⟨_, _, tip, wanted, far, rfl, rfl⟩
      | waited short unmoved => exact ih (derived.same short unmoved)
      | exhausted tip short unmoved ends => exact ih (derived.exhausted tip short unmoved ends)
      | extended tip short extends_ turned advanced artifacts =>
          exact ih (derived.extended numbered made agrees tip short rfl extends_ turned advanced artifacts)
      | failed e short unmoved => exact ⟨history, current, derived.same short unmoved, nofun⟩
      | panicked short unmoved => exact ⟨history, current, derived.same short unmoved, nofun⟩

theorem initial {cursor : PipelineCursor} (started : fresh.advance first.1 first.2 = some cursor) (executor : KonaExecutor)
    (pipeline : P) (target : Option UInt64) :
    Derived vm prim fuel pipeline fresh first target [] (Driver.new cursor executor pipeline) target where
  cursor := by
    have alone := PipelineCursor.advanceAll_append fresh [] first
    rw [List.nil_append] at alone
    rw [alone]
    exact started
  artifacts := rfl
  turned := .start
  chain _ := List.isChain_singleton first
  bounded _ nonempty := absurd rfl nonempty
  halts := .inl rfl

end Derived

end Runs

/-! ## Over the derivation pipeline -/

section Derivation

variable {A B L : Type} [AttributesProvider A] [AttributesBuilder B] [ConfigProvider L]
variable {vm : Vm Svm L2Transaction Report} {prim : Primitives} {fuel : Nat}

theorem Turned.prepared {attributes : AttributesQueue A B} {l2ChainProvider : L} {pipeline : DerivationPipeline A B L}
    (turned : Turned (DerivationPipeline.new attributes l2ChainProvider) pipeline) : pipeline.prepared = [] := by
  induction turned with
  | start => rfl
  | turn _ l2SafeHead empty => exact (DerivationPipeline.turn_prepared empty l2SafeHead).1

/-- Every block is executed from attributes that the derivation pipeline made for the safe head below it. -/
theorem Extends.made_for {attributes : AttributesQueue A B} {l2ChainProvider : L} {parent : TipCursor}
    {block : BlockInfo × TipCursor}
    (extends_ : Extends vm prim fuel (DerivationPipeline.new attributes l2ChainProvider) parent block) :
    ∃ (payload : AttributesWithParent) (executor built : KonaExecutor) (hosts : State.Host × State.Host)
      (outcome : BlockBuildingOutcome Report), payload.parent = parent.l2SafeHead ∧
      (executor.updateSafeHead hosts.1 parent.l2SafeHeadHeader).executePayload vm prim fuel hosts.2
        payload.attributes.transactions = (built, .ok outcome) ∧
      block.2 = tipOf prim outcome := by
  obtain ⟨turned, given, executed, -⟩ := extends_
  rename_i pipeline after payload executor built hosts outcome origin
  have made := (DerivationPipeline.turn_prepared turned.prepared parent.l2SafeHead).2 payload (congrArg Prod.snd given)
  exact ⟨payload, executor, built, hosts, outcome, made, executed, rfl⟩

end Derivation

theorem machine_numbered {Program Limits : Type} (lib : KonaSoon.Svm.MachineLibraries Program Limits) : Numbered lib.vm :=
  fun _ _ _ _ _ _ started executes => KonaSoon.Svm.executeBlock_numbered started executes

/-! ## A run of two blocks -/

structure Listed where
  ends : List Turn
  at_ : BlockInfo

instance : DriverPipeline Listed where
  turn pipeline _ :=
    match pipeline.ends with
    | [] => (pipeline, .returned (.error (.critical .endOfSource)))
    | first :: later => ({ pipeline with ends := later }, first)
  origin pipeline := some pipeline.at_

end KonaSoon.Driver
