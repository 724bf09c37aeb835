import KonaSoon.State.Executor

namespace KonaSoon.State
open Lib Mpt

variable {Svm L2Transaction Report : Type} (vm : Vm Svm L2Transaction Report) (prim : Primitives) (fuel : Nat)

namespace KonaExecutor

def attempt (executor : KonaExecutor) (host : Host) (header : L2BlockHeader) (transactions : Option (List (List UInt8))) :
    ExecutorResult (BlockBuildingOutcome Report) × ExecutorResult B256 :=
  let (executor, result) := (executor.updateSafeHead host header).executePayload vm prim fuel host transactions
  (result, executor.computeOutputRoot prim)

def LeavesNoTrace (executor : KonaExecutor) (host : Host) (failed : Option (List (List UInt8))) : Prop :=
  ∀ host' header later, (executor.executePayload vm prim fuel host failed).1.attempt vm prim fuel host' header later =
    executor.attempt vm prim fuel host' header later

def ReachesTries (executor : KonaExecutor) (host : Host) (transactions : Option (List (List UInt8))) : Prop :=
  ∃ builder executed, executor.inner = some builder ∧ builder.execute vm host transactions = .ok executed

variable {vm prim fuel} {executor : KonaExecutor} {host : Host} {transactions : Option (List (List UInt8))}

theorem executePayload_unreached (early : ¬ executor.ReachesTries vm host transactions) :
    (executor.executePayload vm prim fuel host transactions).1 = executor := by
  obtain ⟨config, inner⟩ := executor
  cases inner with
  | none => rfl
  | some builder =>
      cases executed : builder.execute vm host transactions with
      | error stop =>
          have inner : (⟨config, some builder⟩ : KonaExecutor).inner = some builder := rfl
          rw [(executePayload_some inner host transactions).1, StatelessL2Builder.buildBlock_of_error executed]
      | ok executed' => exact absurd ⟨builder, executed', rfl, executed⟩ early

end KonaExecutor

section

variable {prim fuel}

theorem modifiedAccounts_eq_nil {raw : OrderedMap Pubkey Account} {diff : AccountPairs}
    (nothing : ∀ entry ∈ diff, raw.get entry.1 = some entry.2) : modifiedAccounts raw diff = [] := by
  apply List.filter_eq_nil_iff.mpr
  intro entry member
  simp [nothing entry member]

theorem worldStates_nil (db : TrieDB) (lastSlot : Nat) :
    (db.worldStates prim fuel [] lastSlot).2 =
      .ok (TrieNode.blind prim db.rootNode, TrieNode.blind prim db.withdrawalNode) := rfl

theorem extend_ne_of_fails {accountsDiff : OrderedMap Pubkey Account} {diff : AccountPairs}
    (distinct : (diff.map Prod.fst).Nodup) {db : TrieDB} {lastSlot : Nat} {stop : Stop TrieDBError}
    (fails : (db.worldStates prim fuel (modifiedAccounts accountsDiff diff) lastSlot).2 = .error stop) :
    StatelessL2Builder.extend accountsDiff diff ≠ accountsDiff := by
  intro same
  have nothing : ∀ entry ∈ diff, accountsDiff.get entry.1 = some entry.2 := by
    intro entry member
    have written : (StatelessL2Builder.extend accountsDiff diff).get entry.1 = some entry.2 := by
      unfold StatelessL2Builder.extend
      rw [get_merged]
      exact overridden_mem distinct member
    rwa [same] at written
  rw [modifiedAccounts_eq_nil nothing, worldStates_nil] at fails
  cases fails

end

namespace KonaExecutor

variable {vm prim fuel}

/-- A payload that fails leaves no trace if it fails before the tries; after that, the accounts it wrote stay. -/
theorem failed_payload_trace (executor : KonaExecutor) (host : Host) (failed : Option (List (List UInt8)))
    (e : ExecutorError) (fails : (executor.executePayload vm prim fuel host failed).2 = .error (.error e)) :
    (¬ executor.ReachesTries vm host failed → executor.LeavesNoTrace vm prim fuel host failed) ∧
    (executor.ReachesTries vm host failed ↔ ∃ builder after, executor.inner = some builder ∧
      (executor.executePayload vm prim fuel host failed).1.inner = some after ∧
      after.accountsDiff ≠ builder.accountsDiff) := by
  constructor
  · intro early host' header later
    rw [executePayload_unreached early]
  · constructor
    · rintro ⟨builder, ⟨blockInfo, report, diffAccounts⟩, inner, executed⟩
      obtain ⟨left, result⟩ := executePayload_some inner host failed
      obtain ⟨written, ⟨roots, -, built⟩ | ⟨stop, updates, -⟩⟩ :=
        @StatelessL2Builder.buildBlock_of_ok _ _ _ vm prim fuel _ _ _ _ _ _ executed
      · rw [result, built] at fails
        cases fails
      · refine ⟨builder, _, inner, congrArg KonaExecutor.inner left, ?_⟩
        rw [written]
        exact extend_ne_of_fails (StatelessL2Builder.execute_distinct executed) updates
    · rintro ⟨builder, after, inner, left, differs⟩
      by_contra early
      rw [executePayload_unreached early, inner] at left
      cases left
      exact differs rfl

end KonaExecutor

def closedSystemAccount : Account := { systemAccount with lamports := 0 }

/-- Every block closes the account of `alice`; a transaction is any list of bytes but the empty one. -/
def closingVm : Vm Unit (List UInt8) Unit where
  finishInit _ := .ok ()
  deserialize bytes := if bytes = [] then .error "unexpected end of file" else .ok bytes
  executeBlock _ _ := .ok ((), ⟨⟨.ofNat 1, 1, .ofNat 0, 0⟩, ⟨0, .ofNat 0⟩, 0⟩, ())
  exportDiffAccounts _ := [(alice, closedSystemAccount)]
  distinct _ := by simp

/-- A host that knows the trie with the account of `alice`, and one that does not answer. -/
def aliceHost : Host :=
  ⟨{ emptyProvider with trieNodeByHash := fun _ => .ok aliceLeaf }, noopTrieHinter⟩

def silentHost : Host := ⟨{ emptyProvider with trieNodeByHash := fun _ => .error "timeout" }, noopTrieHinter⟩

def aliceHeader : L2BlockHeader :=
  ⟨⟨.ofNat 0, 0, .ofNat 0, 0⟩, TrieNode.blind (.tabulated accountDigests) aliceLeaf, emptyRoot⟩

def onAliceTrie : KonaExecutor := (⟨⟨some (.ofNat 0), []⟩, none⟩ : KonaExecutor).updateSafeHead aliceHost aliceHeader

def stateRootOf {Report : Type} (result : ExecutorResult (BlockBuildingOutcome Report)) : Option B256 :=
  result.toOption.map (·.stateRoot)

/-- The block fails as the trie cannot be read. On the next attempt its account counts as one that the trie has
already, and stays in it. -/
theorem failed_payload_leaves_trace : ¬ ∀ e,
    (onAliceTrie.executePayload closingVm (.tabulated accountDigests) enoughFuel silentHost (some [[1]])).2 =
      .error (.error e) →
    onAliceTrie.LeavesNoTrace closingVm (.tabulated accountDigests) enoughFuel silentHost (some [[1]]) := by
  intro holds
  have fails : (onAliceTrie.executePayload closingVm (.tabulated accountDigests) enoughFuel silentHost (some [[1]])).2 =
      .error (.error (.trieDBError (.trieNode (.provider "timeout")))) := by decide +kernel
  have same := congrArg (fun attempted => stateRootOf attempted.1)
    (holds _ fails aliceHost aliceHeader (some [[1]]))
  have kept : stateRootOf ((onAliceTrie.executePayload closingVm (.tabulated accountDigests) enoughFuel silentHost
      (some [[1]])).1.attempt closingVm (.tabulated accountDigests) enoughFuel aliceHost aliceHeader (some [[1]])).1 =
      some aliceHeader.accountRoot := by decide +kernel
  have deleted : stateRootOf (onAliceTrie.attempt closingVm (.tabulated accountDigests) enoughFuel aliceHost aliceHeader
      (some [[1]])).1 = some emptyRoot := by decide +kernel
  have differ : aliceHeader.accountRoot ≠ emptyRoot := by decide +kernel
  exact differ (Option.some.inj (kept.symm.trans (same.trans deleted)))

theorem undecodable_payload_traceless :
    (onAliceTrie.executePayload closingVm (.tabulated accountDigests) enoughFuel aliceHost (some [[]])).2 =
      .error (.error (.fraudInitError "unexpected end of file")) ∧
    onAliceTrie.LeavesNoTrace closingVm (.tabulated accountDigests) enoughFuel aliceHost (some [[]]) := by
  have fails : (onAliceTrie.executePayload closingVm (.tabulated accountDigests) enoughFuel aliceHost (some [[]])).2 =
      .error (.error (.fraudInitError "unexpected end of file")) := by decide +kernel
  refine ⟨fails, (KonaExecutor.failed_payload_trace onAliceTrie aliceHost (some [[]]) _ fails).1 ?_⟩
  rintro ⟨builder, executed, inner, reached⟩
  cases inner
  cases reached

end KonaSoon.State
