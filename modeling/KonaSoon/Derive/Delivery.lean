import KonaSoon.Derive.L1Stack

namespace KonaSoon.Derive
open Lib Mpt

variable {Receipt : Type}

inductive StackCall (Receipt : Type) where
  | nextData (provider : L1ChainProvider Receipt)
  | advanceOrigin (provider : L1ChainProvider Receipt)
  | signal (s : Signal)

structure Delivery where
  stage : L1Retrieval
  taken : List (BlockInfo × Address)
  pending : Option (BlockInfo × Address)
  returned : List (List UInt8)

namespace Delivery

def start (systemConfig : SystemConfig) (batchInboxAddress : Address) : Delivery where
  stage := .new (.new systemConfig) (.new batchInboxAddress)
  taken := []
  pending := some (⟨.ofNat 0, 0, .ofNat 0, 0⟩, systemConfig.batcherAddress)
  returned := []

def visited (d : Delivery) : List (BlockInfo × Address) := d.taken ++ d.pending.toList

def takes (d : Delivery) : Bool := d.stage.next.isNone && !d.stage.prev.done

def call (updateWithReceipts : UpdateWithReceipts Receipt) (d : Delivery) :
    StackCall Receipt → Delivery × PipelineResult (Option (List UInt8))
  | .nextData provider =>
      let (stage, result) := d.stage.nextData provider
      let d := { d with
        stage
        taken := if d.takes then d.visited else d.taken
        pending := if d.takes then none else d.pending }
      match result with
      | .ok data => ({ d with returned := d.returned ++ [data] }, .ok (some data))
      | .error e => (d, .error e)
  | .advanceOrigin provider =>
      let (stage, result) := d.stage.advanceOrigin updateWithReceipts provider
      match result with
      | .ok () => ({ d with
          stage, taken := d.visited, pending := stage.prev.block.map (·, stage.prev.batcherAddr) }, .ok none)
      | .error e => ({ d with stage }, .error e)
  | .signal s =>
      let (stage, result) := d.stage.signal s
      match s, result with
      | .flushChannel, _ => ({ d with stage }, result.map fun () => none)
      | _, .ok () => (⟨stage, (stage.prev.block.map (·, stage.prev.batcherAddr)).toList, none, []⟩, .ok none)
      | _, .error e => ({ d with stage }, .error e)

end Delivery

abbrev L1Blocks := B256 → List L1Transaction

def L1ChainProvider.MayFail (blocks : L1Blocks) (provider : L1ChainProvider Receipt) : Prop :=
  ∀ hash, provider.getBlockTransactionsByHash hash = .ok (blocks hash) ∨
    ∃ e, provider.getBlockTransactionsByHash hash = .error e ∧ e ≠ .temporary .eof

namespace Delivery

variable (blocks : L1Blocks) (batchInboxAddress : Address)

def due (visits : List (BlockInfo × Address)) : List (List UInt8) :=
  visits.flatMap fun (block, batcher) => CalldataSource.batcherInputs batchInboxAddress batcher (blocks block.hash)

/-- What was returned is the beginning of what is due for the visited blocks, and when the call found
the end of the data it is all that is due for the blocks taken. A call is not held up by anything but
its provider. -/
def Exact (updateWithReceipts : UpdateWithReceipts Receipt) (d : Delivery) (made : StackCall Receipt) : Prop :=
  let (after, result) := d.call updateWithReceipts made
  after.returned <+: due blocks batchInboxAddress after.visited ∧
    ∀ provider, made = .nextData provider →
      (result = PipelineError.eof.temp → after.returned = due blocks batchInboxAddress after.taken) ∧
      ((∀ hash, provider.getBlockTransactionsByHash hash = .ok (blocks hash)) →
        result = PipelineError.eof.temp ∨ ∃ data, result = .ok (some data))

def Orderly (d : Delivery) : StackCall Receipt → Prop
  -- The block that the traversal stage hands over has not been taken before.
  | .nextData _ => d.takes = true → d.pending ≠ none
  -- The origin moves on only once the data of the current block is loaded.
  | .advanceOrigin provider => (∃ e, d.stage.prev.nextOrigin provider = .error e) ∨
      d.pending = none ∧ (d.stage.next = none ∨ d.stage.provider.isOpen = true)
  | .signal .flushChannel => True
  -- No block is in the middle of being read.
  | .signal (.reset _ _ systemConfig) | .signal (.activation _ _ systemConfig) =>
      systemConfig ≠ none ∧ d.stage.provider.isOpen = false

end Delivery

namespace L1Retrieval

variable {blocks : L1Blocks} {provider : L1ChainProvider Receipt} {stage : L1Retrieval} {block : BlockInfo}

def remaining (blocks : L1Blocks) (stage : L1Retrieval) (block : BlockInfo) : List (List UInt8) :=
  if stage.provider.isOpen then stage.provider.calldata
  else CalldataSource.batcherInputs stage.provider.batchInboxAddress stage.prev.batcherAddr (blocks block.hash)

theorem nextData_reading (reads : stage.next = some block) (mayFail : provider.MayFail blocks) :
    (stage.provider.isOpen = false ∧ ∃ e, e ≠ .temporary .eof ∧
      provider.getBlockTransactionsByHash block.hash = .error e ∧ stage.nextData provider = (stage, .error (.error e))) ∨
    (stage.remaining blocks block = [] ∧
      stage.nextData provider =
        ({ stage with provider := stage.provider.clear, next := none }, PipelineError.eof.temp)) ∨
    (∃ data rest, stage.remaining blocks block = data :: rest ∧
      stage.nextData provider =
        ({ stage with provider := { stage.provider with calldata := rest, isOpen := true } }, .ok data)) := by
  cases isOpen : stage.provider.isOpen with
  | true =>
      right
      cases left : stage.provider.calldata with
      | nil =>
          refine .inl ⟨by simp [remaining, isOpen, left], ?_⟩
          simp [nextData, takeBlock, reads, CalldataSource.next, CalldataSource.loadCalldata, isOpen, left,
            PipelineError.temp]
      | cons data rest =>
          refine .inr ⟨data, rest, by simp [remaining, isOpen, left], ?_⟩
          simp [nextData, takeBlock, reads, CalldataSource.next, CalldataSource.loadCalldata, isOpen, left]
  | false =>
      rcases mayFail block.hash with loads | ⟨e, fails, other⟩
      · right
        cases left : stage.remaining blocks block with
        | nil =>
            refine .inl ⟨rfl, ?_⟩
            simp only [remaining, isOpen, Bool.false_eq_true, if_false] at left
            simp [nextData, takeBlock, reads, CalldataSource.next, CalldataSource.loadCalldata, isOpen, loads, left,
              PipelineError.temp, CalldataSource.clear]
        | cons data rest =>
            refine .inr ⟨data, rest, rfl, ?_⟩
            simp only [remaining, isOpen, Bool.false_eq_true, if_false] at left
            simp [nextData, takeBlock, reads, CalldataSource.next, CalldataSource.loadCalldata, isOpen, loads, left]
      · left
        refine ⟨rfl, e, other, fails, ?_⟩
        obtain ⟨prev, source, next⟩ := stage
        simp only at reads isOpen
        simp [nextData, takeBlock, reads, CalldataSource.next, CalldataSource.loadCalldata, isOpen, fails, other]

theorem nextData_done (idle : stage.next = none) (done : stage.prev.done = true) :
    stage.nextData provider = (stage, PipelineError.eof.temp) := by
  obtain ⟨prev, source, next⟩ := stage
  simp only at idle done
  simp [nextData, takeBlock, idle, L1Traversal.nextL1Block, done, PipelineError.temp]

theorem nextData_takes (idle : stage.next = none) (fresh : stage.prev.done = false) (at_ : stage.prev.block = some block) :
    stage.nextData provider =
      nextData provider { stage with prev := { stage.prev with done := true }, next := some block } := by
  simp [nextData, takeBlock, idle, L1Traversal.nextL1Block, fresh, at_, L1Traversal.batcherAddr]

end L1Retrieval

namespace Delivery

variable {blocks : L1Blocks} {batchInboxAddress : Address} {updateWithReceipts : UpdateWithReceipts Receipt}
  {d : Delivery}

theorem due_append (front back : List (BlockInfo × Address)) : due blocks batchInboxAddress (front ++ back) =
    due blocks batchInboxAddress front ++ due blocks batchInboxAddress back :=
  List.flatMap_append

theorem due_singleton (block : BlockInfo) (batcher : Address) : due blocks batchInboxAddress [(block, batcher)] =
    CalldataSource.batcherInputs batchInboxAddress batcher (blocks block.hash) := by
  simp [due]

structure Settled (blocks : L1Blocks) (batchInboxAddress : Address) (d : Delivery) : Prop where
  inbox : d.stage.provider.batchInboxAddress = batchInboxAddress
  pending : ∀ block batcher, d.pending = some (block, batcher) →
    d.stage.prev.block = some block ∧ d.stage.prev.batcherAddr = batcher ∧ d.stage.prev.done = false
  idle : d.stage.next = none → d.stage.provider.isOpen = false ∧ d.returned = due blocks batchInboxAddress d.taken
  reading : ∀ block, d.stage.next = some block →
    d.returned ++ d.stage.remaining blocks block = due blocks batchInboxAddress d.taken
  unread : d.stage.next ≠ none → d.stage.provider.isOpen = false → d.pending = none

namespace Settled

theorem returned_prefix (settled : Settled blocks batchInboxAddress d) :
    d.returned <+: due blocks batchInboxAddress d.visited := by
  have taken : d.returned <+: due blocks batchInboxAddress d.taken := by
    cases next : d.stage.next with
    | none => rw [(settled.idle next).2]
    | some block => exact ⟨_, settled.reading block next⟩
  exact taken.trans (by rw [visited, due_append]; exact List.prefix_append _ _)

theorem read {block : BlockInfo} {provider : L1ChainProvider Receipt} (settled : Settled blocks batchInboxAddress d)
    (reads : d.stage.next = some block) (mayFail : provider.MayFail blocks) :
    Settled blocks batchInboxAddress (d.call updateWithReceipts (.nextData provider)).1 ∧
      Exact blocks batchInboxAddress updateWithReceipts d (.nextData provider) := by
  have stays : d.takes = false := by simp [takes, reads]
  have total := settled.reading block reads
  rcases L1Retrieval.nextData_reading reads mayFail with ⟨closed, e, other, fails, result⟩ | ⟨left, result⟩ |
    ⟨data, rest, left, result⟩
  · have made : d.call updateWithReceipts (.nextData provider) = (d, .error (.error e)) := by
      simp [call, result, stays]
    rw [Exact, made]
    refine ⟨settled, settled.returned_prefix, ?_⟩
    rintro provider ⟨⟩
    refine ⟨?_, fun answers => ?_⟩
    · intro eof
      cases eof
      exact absurd rfl other
    · rw [answers] at fails
      cases fails
  · have made : d.call updateWithReceipts (.nextData provider) =
        ({ d with stage := { d.stage with provider := d.stage.provider.clear, next := none } },
          PipelineError.eof.temp) := by
      simp [call, result, stays, PipelineError.temp]
    rw [left, List.append_nil] at total
    have settled' : Settled blocks batchInboxAddress
        { d with stage := { d.stage with provider := d.stage.provider.clear, next := none } } :=
      ⟨settled.inbox, settled.pending, fun _ => ⟨rfl, total⟩, nofun, fun reads => absurd rfl reads⟩
    rw [Exact, made]
    refine ⟨settled', settled'.returned_prefix, ?_⟩
    rintro provider ⟨⟩
    exact ⟨fun _ => total, fun _ => .inl rfl⟩
  · have made : d.call updateWithReceipts (.nextData provider) =
        ({ d with
          stage := { d.stage with provider := { d.stage.provider with calldata := rest, isOpen := true } }
          returned := d.returned ++ [data] }, .ok (some data)) := by
      simp [call, result, stays]
    have settled' : Settled blocks batchInboxAddress
        { d with
          stage := { d.stage with provider := { d.stage.provider with calldata := rest, isOpen := true } }
          returned := d.returned ++ [data] } := by
      refine ⟨settled.inbox, settled.pending, ?_, ?_, nofun⟩
      · intro idle
        rw [idle] at reads
        cases reads
      · intro block' _
        rw [left] at total
        simpa [L1Retrieval.remaining] using total
    rw [Exact, made]
    refine ⟨settled', settled'.returned_prefix, ?_⟩
    rintro provider ⟨⟩
    exact ⟨nofun, fun _ => .inr ⟨data, rfl⟩⟩

theorem nextData {provider : L1ChainProvider Receipt} (settled : Settled blocks batchInboxAddress d)
    (mayFail : provider.MayFail blocks) (orderly : d.Orderly (.nextData provider)) :
    Settled blocks batchInboxAddress (d.call updateWithReceipts (.nextData provider)).1 ∧
      Exact blocks batchInboxAddress updateWithReceipts d (.nextData provider) := by
  cases next : d.stage.next with
  | some block => exact settled.read next mayFail
  | none =>
      obtain ⟨closed, all⟩ := settled.idle next
      cases done : d.stage.prev.done with
      | true =>
          have stays : d.takes = false := by simp [takes, done]
          have made : d.call updateWithReceipts (.nextData provider) = (d, PipelineError.eof.temp) := by
            simp [call, L1Retrieval.nextData_done next done, stays, PipelineError.temp]
          rw [Exact, made]
          refine ⟨settled, settled.returned_prefix, ?_⟩
          rintro provider ⟨⟩
          exact ⟨fun _ => all, fun _ => .inl rfl⟩
      | false =>
          have taking : d.takes = true := by simp [takes, next, done]
          obtain ⟨⟨block, batcher⟩, waiting⟩ := Option.ne_none_iff_exists'.mp (orderly taking)
          obtain ⟨at_, rfl, -⟩ := settled.pending block batcher waiting
          -- Handing the block over does not read any of it.
          let handed : Delivery :=
            ⟨{ d.stage with prev := { d.stage.prev with done := true }, next := some block }, d.visited, none, d.returned⟩
          have same : d.call updateWithReceipts (.nextData provider) =
              handed.call updateWithReceipts (.nextData provider) := by
            simp only [call, L1Retrieval.nextData_takes next done at_, taking, handed]
            simp [takes]
          have settled' : Settled blocks batchInboxAddress handed := by
            refine ⟨settled.inbox, nofun, nofun, ?_, fun _ _ => rfl⟩
            rintro block' ⟨⟩
            simp only [handed, L1Retrieval.remaining, closed, Bool.false_eq_true, if_false, visited, waiting,
              Option.toList_some, due_append, due_singleton, ← all, settled.inbox]
            rfl
          have result : Settled blocks batchInboxAddress (handed.call updateWithReceipts (.nextData provider)).1 ∧
              Exact blocks batchInboxAddress updateWithReceipts handed (.nextData provider) := settled'.read rfl mayFail
          rw [Exact] at result ⊢
          rw [same]
          exact result

theorem advanceOrigin {provider : L1ChainProvider Receipt} (settled : Settled blocks batchInboxAddress d)
    (orderly : d.Orderly (.advanceOrigin provider)) :
    Settled blocks batchInboxAddress (d.call updateWithReceipts (.advanceOrigin provider)).1 := by
  cases origin : d.stage.prev.nextOrigin provider with
  | error e =>
      simpa [call, L1Retrieval.advanceOrigin, L1Traversal.advanceOrigin, origin] using settled
  | ok found =>
      obtain ⟨nextL1Origin, receipts⟩ := found
      obtain ⟨taken, loaded⟩ : d.pending = none ∧ (d.stage.next = none ∨ d.stage.provider.isOpen = true) := by
        rcases orderly with ⟨e, fails⟩ | loaded
        · rw [origin] at fails
          cases fails
        · exact loaded
      have reading : ∀ (prev : L1Traversal) block, d.stage.next = some block →
          d.returned ++ L1Retrieval.remaining blocks { d.stage with prev } block =
            due blocks batchInboxAddress d.taken := by
        intro prev block reads
        have isOpen : d.stage.provider.isOpen = true := by
          rcases loaded with idle | isOpen
          · rw [idle] at reads
            cases reads
          · exact isOpen
        simpa [L1Retrieval.remaining, isOpen] using settled.reading block reads
      cases updates : updateWithReceipts d.stage.prev.systemConfig receipts with
      | mk systemConfig result =>
          cases result with
          | error text =>
              simp only [call, L1Retrieval.advanceOrigin, L1Traversal.advanceOrigin, origin, updates, PipelineError.crit]
              refine ⟨settled.inbox, ?_, settled.idle, reading _, fun _ _ => taken⟩
              intro block batcher waiting
              rw [taken] at waiting
              cases waiting
          | ok done =>
              simp only [call, L1Retrieval.advanceOrigin, L1Traversal.advanceOrigin, origin, updates]
              have visits : d.visited = d.taken := by simp [visited, taken]
              rw [visits]
              refine ⟨settled.inbox, ?_, settled.idle, reading _, ?_⟩
              · intro block batcher waiting
                cases waiting
                exact ⟨rfl, rfl, rfl⟩
              · intro reads closed
                rcases loaded with idle | isOpen
                · exact absurd idle reads
                · rw [isOpen] at closed
                  cases closed

theorem signal {s : Signal} (settled : Settled blocks batchInboxAddress d)
    (orderly : d.Orderly (.signal s : StackCall Receipt)) :
    Settled blocks batchInboxAddress (d.call updateWithReceipts (.signal s)).1 := by
  have reset : ∀ (l1Origin : BlockInfo) (systemConfig : SystemConfig), d.stage.provider.isOpen = false →
      Settled blocks batchInboxAddress ⟨{ d.stage with prev := ⟨some l1Origin, false, systemConfig⟩, next := some l1Origin },
        [(l1Origin, systemConfig.batcherAddress)], none, []⟩ := by
    intro l1Origin systemConfig closed
    refine ⟨settled.inbox, nofun, nofun, ?_, fun _ _ => rfl⟩
    rintro block ⟨⟩
    simp [L1Retrieval.remaining, closed, settled.inbox, due_singleton, L1Traversal.batcherAddr]
  cases s with
  | flushChannel => exact settled
  | reset l2SafeHead l1Origin systemConfig =>
      obtain ⟨given, closed⟩ := orderly
      obtain ⟨systemConfig, rfl⟩ := Option.ne_none_iff_exists'.mp given
      exact reset l1Origin systemConfig closed
  | activation l2SafeHead l1Origin systemConfig =>
      obtain ⟨given, closed⟩ := orderly
      obtain ⟨systemConfig, rfl⟩ := Option.ne_none_iff_exists'.mp given
      exact reset l1Origin systemConfig closed

theorem start (blocks : L1Blocks) (systemConfig : SystemConfig) (batchInboxAddress : Address) :
    Settled blocks batchInboxAddress (start systemConfig batchInboxAddress) := by
  refine ⟨rfl, ?_, fun _ => ⟨rfl, rfl⟩, nofun, fun reads => absurd rfl reads⟩
  rintro block batcher ⟨⟩
  exact ⟨rfl, rfl, rfl⟩

theorem call {made : StackCall Receipt} (settled : Settled blocks batchInboxAddress d)
    (mayFail : ∀ provider, made = .nextData provider → provider.MayFail blocks) (orderly : d.Orderly made) :
    Settled blocks batchInboxAddress (d.call updateWithReceipts made).1 ∧
      Exact blocks batchInboxAddress updateWithReceipts d made := by
  cases made with
  | nextData provider => exact settled.nextData (mayFail provider rfl) orderly
  | advanceOrigin provider =>
      have settled' : Settled blocks batchInboxAddress (d.call updateWithReceipts (.advanceOrigin provider)).1 :=
        settled.advanceOrigin orderly
      exact ⟨settled', settled'.returned_prefix, nofun⟩
  | signal s =>
      have settled' : Settled blocks batchInboxAddress (d.call updateWithReceipts (.signal s)).1 :=
        settled.signal orderly
      exact ⟨settled', settled'.returned_prefix, nofun⟩

theorem run {calls : List (StackCall Receipt)} (settled : Settled blocks batchInboxAddress d)
    (mayFail : ∀ provider, .nextData provider ∈ calls → provider.MayFail blocks)
    (orderly : Along (Delivery.call updateWithReceipts) Orderly d calls) :
    Along (Delivery.call updateWithReceipts) (Exact blocks batchInboxAddress updateWithReceipts) d calls := by
  induction calls generalizing d with
  | nil => trivial
  | cons made calls ih =>
      have here : ∀ provider, made = .nextData provider → provider.MayFail blocks := by
        rintro provider rfl
        exact mayFail provider List.mem_cons_self
      obtain ⟨settled', exactly⟩ := settled.call here orderly.1
      exact ⟨exactly, ih settled' (fun provider later => mayFail provider (List.mem_cons_of_mem _ later)) orderly.2⟩

end Settled

/-- In every orderly run the data of each visited block is returned in order and once, and nothing
else is, whatever the providers of the calls fail to answer. -/
theorem delivered_once (blocks : L1Blocks) (updateWithReceipts : UpdateWithReceipts Receipt)
    (systemConfig : SystemConfig) (batchInboxAddress : Address) {calls : List (StackCall Receipt)}
    (mayFail : ∀ provider, .nextData provider ∈ calls → provider.MayFail blocks)
    (orderly : Along (call updateWithReceipts) Orderly (start systemConfig batchInboxAddress) calls) :
    Along (call updateWithReceipts) (Exact blocks batchInboxAddress updateWithReceipts)
      (start systemConfig batchInboxAddress) calls :=
  (Settled.start blocks systemConfig batchInboxAddress).run mayFail orderly

theorem length_addressOf (b : UInt8) : (List.replicate 20 b).length = 20 := List.length_replicate

def addressOf (b : UInt8) : Address := ⟨List.replicate 20 b, length_addressOf b⟩

def twoBlocks : L1Blocks := fun hash =>
  if hash = .ofNat 1 then
    [⟨.ofNat 7, addressOf 2, [10], some (addressOf 1)⟩, ⟨.ofNat 8, addressOf 2, [11], some (addressOf 1)⟩]
  else [⟨.ofNat 9, addressOf 2, [12], some (addressOf 1)⟩]

def firstBlock : BlockInfo := ⟨.ofNat 1, 5, .ofNat 0, 60⟩

def secondBlock : BlockInfo := ⟨.ofNat 2, 6, .ofNat 1, 72⟩

def answering : L1ChainProvider Unit := ⟨fun _ => .ok secondBlock, fun _ => .ok [], fun hash => .ok (twoBlocks hash)⟩

def batcherConfig : SystemConfig := ⟨addressOf 2, 0, 0, 0, none, none, none, none, none, none⟩

def noUpdate : UpdateWithReceipts Unit := fun config _ => (config, .ok ())

def resetTo (block : BlockInfo) : StackCall Unit :=
  .signal (.reset ⟨⟨.ofNat 0, 0, .ofNat 0, 0⟩, block.id, 0⟩ block (some batcherConfig))

theorem answering_mayFail : answering.MayFail twoBlocks := fun _ => .inl rfl

theorem delivered_once_two_blocks :
    Along (call noUpdate) (Exact twoBlocks (addressOf 1) noUpdate) (start batcherConfig (addressOf 1))
      [resetTo firstBlock, .nextData answering, .nextData answering, .nextData answering, .advanceOrigin answering,
        .nextData answering, .nextData answering] := by
  apply delivered_once
  · intro provider member
    simp [resetTo] at member
    rw [member]
    exact answering_mayFail
  · refine ⟨⟨nofun, rfl⟩, ?_, ?_, ?_, ?_, ?_, ?_, trivial⟩
    · exact fun takes => absurd takes (by decide)
    · exact fun takes => absurd takes (by decide)
    · exact fun takes => absurd takes (by decide)
    · exact .inr ⟨by decide, .inl (by decide)⟩
    · exact fun _ => nofun
    · exact fun takes => absurd takes (by decide)

/-- A reset while the first block is being read: its second item is returned for the second block. -/
theorem reset_returns_stale_data : answering.MayFail twoBlocks ∧
    ¬ Along (call noUpdate) (Exact twoBlocks (addressOf 1) noUpdate) (start batcherConfig (addressOf 1))
      [resetTo firstBlock, .nextData answering, resetTo secondBlock, .nextData answering] := by
  refine ⟨answering_mayFail, ?_⟩
  rintro ⟨-, -, -, ⟨begins, -⟩, -⟩
  exact absurd begins (by decide +kernel)

end Delivery

end KonaSoon.Derive
