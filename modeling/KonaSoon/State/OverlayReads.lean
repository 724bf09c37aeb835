import KonaSoon.State.Overlay

namespace KonaSoon.State
open Lib Mpt

namespace StatelessL2Builder

variable {Svm L2Transaction Report : Type} (vm : Vm Svm L2Transaction Report)

/-- The accounts that `build_block` hands to `world_states`. -/
def handedAccounts (host : Host) (builder : StatelessL2Builder) (transactions : Option (List (List UInt8))) :
    AccountPairs :=
  match builder.execute vm host transactions with
  | .error _ => []
  | .ok (_, _, diffAccounts) => modifiedAccounts builder.accountsDiff diffAccounts

variable {vm} {prim : Primitives} {fuel : Nat} {host : Host} {builder after : StatelessL2Builder}
  {transactions : Option (List (List UInt8))} {outcome : BlockBuildingOutcome Report}

theorem buildBlock_built (built : builder.buildBlock vm prim fuel host transactions = (after, .ok outcome)) :
    ∃ diffAccounts db, builder.execute vm host transactions = .ok (outcome.blockInfo, outcome.report, diffAccounts) ∧
      (builder.trieDb.answering host).worldStates prim fuel (builder.handedAccounts vm host transactions)
        builder.parentSlot.toNat = (db, .ok (outcome.stateRoot, outcome.withdrawRoot)) ∧
      after.accountsDiff = extend builder.accountsDiff diffAccounts ∧
      after.trieDb =
        db.setParentBlockHeader ⟨outcome.blockInfo.blockInfo, outcome.stateRoot, outcome.withdrawRoot⟩ := by
  unfold buildBlock at built
  unfold handedAccounts
  cases executed : builder.execute vm host transactions with
  | error stop =>
      rw [executed] at built
      cases built
  | ok value =>
      obtain ⟨blockInfo, report, diffAccounts⟩ := value
      rw [executed] at built
      dsimp only at built
      generalize updated : (builder.trieDb.answering host).worldStates prim fuel
        (modifiedAccounts builder.accountsDiff diffAccounts) builder.parentSlot.toNat = states at built
      obtain ⟨db, stop | roots⟩ := states
      · cases built
      · cases built
        exact ⟨diffAccounts, db, rfl, rfl, rfl, rfl⟩

theorem extend_entries (accounts : OrderedMap Pubkey Account) : (extend .empty accounts.entries).get = accounts.get := by
  unfold extend
  rw [get_merged]
  funext pubkey
  cases here : accounts.get pubkey with
  | none =>
      rw [overridden_other]
      · rfl
      · intro written member same
        have found := (accounts.mem_entries_iff written.1 written.2).mp member
        rw [same, here] at found
        cases found
  | some account => exact overridden_mem accounts.keys_nodup ((accounts.mem_entries_iff pubkey account).mpr here)

end StatelessL2Builder

/-- What a run has come to: the accounts after each block, with its number and the last one first, and the calls of
all blocks. -/
structure Progress where
  executor : KonaExecutor
  history : List (UInt64 × AccountMap)
  log : AccountLog

section

variable (prim : Primitives) (codec : AccountCodec)

/-- The host answers with the account after the block it is asked for or, where it has kept an answer, after an
earlier one. An account that was closed in the run may be gone. -/
def Answers (progress : Progress) (db : TrieDB) : Prop :=
  ∀ pubkey, (∃ block ∈ progress.history, db.getAccountData prim codec pubkey = .ok (block.2 pubkey)) ∨
    ((∃ account, lastWrite anyone pubkey progress.log = some account ∧ account.lamports = 0) ∧
      db.getAccountData prim codec pubkey = .ok none)

variable (stateOrigin withdrawalOrigin : TrieNode) (involved : Set Pubkey)

structure Commits (start : AccountMap) (parent : L2BlockHeader) : Prop where
  known : ∀ pubkey account, start pubkey = some account → pubkey ∈ involved
  state : ∃ contents, TrieNode.Shows prim stateOrigin contents (.blinded parent.accountRoot) ∧
    Lists prim (stateEntry prim) start contents
  withdrawal : ∃ contents, TrieNode.Shows prim withdrawalOrigin contents (.blinded parent.widthdrawRoot)

variable {Svm L2Transaction Transaction TransactionResult Report : Type}
  (client : Client Svm L2Transaction Transaction TransactionResult Report) (fuel : Nat) (parent : L2BlockHeader)

/-- A block that is built: on the parent if it is the first one, and on any header after that. -/
structure Builds (before : Progress) (host : Host) (header : L2BlockHeader) (transactions : Option (List (List UInt8)))
    (after : KonaExecutor) (outcome : BlockBuildingOutcome (Report × AccountLog)) : Prop where
  first : before.executor.inner = none → header = parent
  built : (before.executor.updateSafeHead host header).executePayload (client.vm prim codec) prim fuel host transactions =
    (after, .ok outcome)
  sources : Sources prim host.fetcher host.hinter stateOrigin withdrawalOrigin involved
  answers : ∀ builder, (before.executor.updateSafeHead host header).inner = some builder →
    Answers prim codec before (builder.trieDb.answering host)
  within : ∀ writer pubkey account, .wrote writer pubkey account ∈ outcome.report.2 → pubkey ∈ involved

def Progress.next (start : AccountMap) (before : Progress) (after : KonaExecutor)
    (outcome : BlockBuildingOutcome (Report × AccountLog)) : Progress where
  executor := after
  history := (outcome.blockInfo.blockInfo.number, accountsAfter start (before.log ++ outcome.report.2)) :: before.history
  log := before.log ++ outcome.report.2

inductive Run (start : AccountMap) (config : ExecutorConfig) : Progress → Prop where
  | start : Run start config ⟨⟨config, none⟩, [(parent.blockInfo.number, start)], []⟩
  | block {before : Progress} {host : Host} {header : L2BlockHeader} {transactions : Option (List (List UInt8))}
      {after : KonaExecutor} {outcome : BlockBuildingOutcome (Report × AccountLog)} (run : Run start config before)
      (builds : Builds prim codec stateOrigin withdrawalOrigin involved client fuel parent before host header transactions
        after outcome) : Run start config (before.next start after outcome)

end

structure StatelessL2Builder.Carries (prim : Primitives) (stateOrigin withdrawalOrigin : TrieNode) (start : AccountMap)
    (log : AccountLog) (builder : StatelessL2Builder) : Prop where
  diff : ∀ pubkey, builder.accountsDiff.get pubkey = lastWrite anyone pubkey log
  state : ∃ contents, TrieNode.Shows prim stateOrigin contents builder.trieDb.rootNode ∧
    Lists prim (stateEntry prim) (accountsAfter start log) contents
  withdrawal : ∃ contents, TrieNode.Shows prim withdrawalOrigin contents builder.trieDb.withdrawalNode

section

variable {prim : Primitives} {codec : AccountCodec} {stateOrigin withdrawalOrigin : TrieNode} {involved : Set Pubkey}
  {start : AccountMap} {log later : AccountLog} {pubkey : Pubkey}

theorem accountsAfter_of_unwritten (unwritten : lastWrite anyone pubkey log = none) :
    accountsAfter start log pubkey = start pubkey := by
  rw [accountsAfter, unwritten, Option.none_or]

theorem accountsAfter_of_written {account : Account} (written : lastWrite anyone pubkey log = some account) :
    accountsAfter start log pubkey = some account := by
  rw [accountsAfter, written, Option.some_or]

theorem unwritten_before (unwritten : lastWrite anyone pubkey (log ++ later) = none) :
    lastWrite anyone pubkey log = none := by
  rw [lastWrite_append, Option.or_eq_none_iff] at unwritten
  exact unwritten.2

theorem Answers.unwritten {progress : Progress} {db : TrieDB} (answers : Answers prim codec progress db)
    (same : ∀ block ∈ progress.history, ∀ pubkey, lastWrite anyone pubkey progress.log = none →
      block.2 pubkey = start pubkey)
    (unwritten : lastWrite anyone pubkey progress.log = none) :
    db.getAccountData prim codec pubkey = .ok (start pubkey) := by
  rcases answers pubkey with ⟨block, member, answer⟩ | ⟨⟨account, written, -⟩, -⟩
  · rw [answer, same block member pubkey unwritten]
  · rw [unwritten] at written
    cases written

structure NewlyWritten (log later : AccountLog) (accounts : AccountPairs) : Prop where
  distinct : (accounts.map Prod.fst).Nodup
  spec : ∀ pubkey account, (pubkey, account) ∈ accounts ↔
    lastWrite anyone pubkey (log ++ later) = some account ∧ lastWrite anyone pubkey log ≠ some account

theorem modifiedAccounts_newlyWritten {raw exported : OrderedMap Pubkey Account} {diffAccounts : AccountPairs}
    (before : ∀ pubkey, raw.get pubkey = lastWrite anyone pubkey log)
    (after : ∀ pubkey, exported.get pubkey = lastWrite anyone pubkey (log ++ later))
    (perm : diffAccounts.Perm exported.entries) : NewlyWritten log later (modifiedAccounts raw diffAccounts) where
  distinct := by
    have distinct : (diffAccounts.map Prod.fst).Nodup := (perm.map Prod.fst).nodup_iff.mpr exported.keys_nodup
    exact distinct.sublist (List.filter_sublist.map Prod.fst)
  spec pubkey account := by
    unfold modifiedAccounts
    rw [List.mem_filter, perm.mem_iff, exported.mem_entries_iff, after, decide_eq_true_eq, before]

namespace NewlyWritten

variable {handed : AccountPairs} (newly : NewlyWritten log later handed)

include newly

theorem of_changed (changed : accountsAfter start (log ++ later) pubkey ≠ accountsAfter start log pubkey) :
    ∃ account, accountsAfter start (log ++ later) pubkey = some account ∧ (pubkey, account) ∈ handed := by
  cases written : lastWrite anyone pubkey (log ++ later) with
  | none =>
      rw [accountsAfter_of_unwritten written, accountsAfter_of_unwritten (unwritten_before written)] at changed
      exact absurd rfl changed
  | some account =>
      have now : accountsAfter start (log ++ later) pubkey = some account := accountsAfter_of_written written
      refine ⟨account, now, (newly.spec pubkey account).mpr ⟨written, fun before => ?_⟩⟩
      rw [now, accountsAfter_of_written before] at changed
      exact changed rfl

theorem overridden_eq : overridden (accountsAfter start log) handed = accountsAfter start (log ++ later) := by
  funext pubkey
  by_cases written : ∃ account, (pubkey, account) ∈ handed
  · obtain ⟨account, member⟩ := written
    rw [accountsAfter_of_written ((newly.spec pubkey account).mp member).1]
    exact overridden_mem newly.distinct member
  · rw [overridden_other]
    · by_contra changed
      obtain ⟨account, -, member⟩ := newly.of_changed (Ne.symm changed)
      exact written ⟨account, member⟩
    · rintro ⟨other, account⟩ member rfl
      exact written ⟨account, member⟩

theorem within (within : ∀ writer pubkey account, .wrote writer pubkey account ∈ later → pubkey ∈ involved) :
    ∀ written ∈ handed, written.1 ∈ involved := by
  rintro ⟨pubkey, account⟩ member
  obtain ⟨now, before⟩ := (newly.spec pubkey account).mp member
  rw [lastWrite_append] at now
  cases here : lastWrite anyone pubkey later with
  | none =>
      rw [here, Option.none_or] at now
      exact absurd now before
  | some account' =>
      obtain ⟨writer, wrote⟩ := wrote_of_lastWrite here
      exact within writer pubkey account' wrote

end NewlyWritten

end

section

variable {Svm L2Transaction Transaction TransactionResult Report : Type} {prim : Primitives} {codec : AccountCodec}
  {stateOrigin withdrawalOrigin : TrieNode} {involved : Set Pubkey}
  {client : Client Svm L2Transaction Transaction TransactionResult Report} {fuel : Nat} {start : AccountMap}
  {parent : L2BlockHeader} {config : ExecutorConfig}

structure Progress.Inv (prim : Primitives) (stateOrigin withdrawalOrigin : TrieNode) (involved : Set Pubkey)
    (start : AccountMap) (parent : L2BlockHeader) (progress : Progress) : Prop where
  current : Current anyone start progress.log
  known : ∀ pubkey account, accountsAfter start progress.log pubkey = some account → pubkey ∈ involved
  unwritten : ∀ block ∈ progress.history, ∀ pubkey, lastWrite anyone pubkey progress.log = none →
    block.2 pubkey = start pubkey
  fresh : progress.executor.inner = none → progress.log = [] ∧ progress.history = [(parent.blockInfo.number, start)]
  carries : ∀ builder, progress.executor.inner = some builder →
    builder.Carries prim stateOrigin withdrawalOrigin start progress.log ∧
    ∃ earlier, progress.history =
      (builder.trieDb.parentBlockHeader.blockInfo.number, accountsAfter start progress.log) :: earlier

theorem Progress.Inv.updateSafeHead {progress : Progress}
    (inv : progress.Inv prim stateOrigin withdrawalOrigin involved start parent)
    (commits : Commits prim stateOrigin withdrawalOrigin involved start parent) (host : Host) {header : L2BlockHeader}
    (first : progress.executor.inner = none → header = parent) :
    ∃ builder, (progress.executor.updateSafeHead host header).inner = some builder ∧
      builder.Carries prim stateOrigin withdrawalOrigin start progress.log ∧
      builder.accountsDiff = StatelessL2Builder.extend .empty builder.lastAccountsDiff ∧
      ∃ earlier, progress.history =
        (builder.trieDb.parentBlockHeader.blockInfo.number, accountsAfter start progress.log) :: earlier := by
  refine ⟨_, rfl, ?_⟩
  cases inner : progress.executor.inner with
  | none =>
      obtain ⟨nothing, history⟩ := inv.fresh inner
      obtain rfl := first inner
      have same : accountsAfter start progress.log = start := by
        rw [nothing]
        rfl
      refine ⟨⟨fun pubkey => ?_, ?_, ?_⟩, rfl, [], ?_⟩
      · rw [nothing]
        rfl
      · rw [same]
        exact commits.state
      · exact commits.withdrawal
      · rw [same]
        exact history
  | some builder =>
      obtain ⟨carries, earlier, history⟩ := inv.carries builder inner
      refine ⟨⟨fun pubkey => ?_, carries.state, carries.withdrawal⟩, rfl, earlier, history⟩
      rw [← carries.diff]
      exact congrFun (StatelessL2Builder.extend_entries builder.accountsDiff) pubkey

theorem extend_exported {raw exported : OrderedMap Pubkey Account} {diffAccounts : AccountPairs} {log later : AccountLog}
    (before : ∀ pubkey, raw.get pubkey = lastWrite anyone pubkey log)
    (after : ∀ pubkey, exported.get pubkey = lastWrite anyone pubkey (log ++ later))
    (perm : diffAccounts.Perm exported.entries) (pubkey : Pubkey) :
    (StatelessL2Builder.extend raw diffAccounts).get pubkey = lastWrite anyone pubkey (log ++ later) := by
  have distinct : (diffAccounts.map Prod.fst).Nodup := (perm.map Prod.fst).nodup_iff.mpr exported.keys_nodup
  unfold StatelessL2Builder.extend
  rw [get_merged]
  cases written : lastWrite anyone pubkey (log ++ later) with
  | none =>
      rw [overridden_other, before]
      · exact unwritten_before written
      · rintro ⟨other, account⟩ member rfl
        have found := (exported.mem_entries_iff other account).mp (perm.mem_iff.mp member)
        rw [after, written] at found
        cases found
  | some account =>
      have member : (pubkey, account) ∈ diffAccounts :=
        perm.mem_iff.mpr ((exported.mem_entries_iff pubkey account).mpr ((after pubkey).trans written))
      exact overridden_mem distinct member

theorem Builds.spec {before : Progress} {host : Host} {header : L2BlockHeader} {transactions : Option (List (List UInt8))}
    {after : KonaExecutor} {outcome : BlockBuildingOutcome (Report × AccountLog)}
    (builds : Builds prim codec stateOrigin withdrawalOrigin involved client fuel parent before host header transactions after
      outcome) (commits : Commits prim stateOrigin withdrawalOrigin involved start parent)
    (inv : before.Inv prim stateOrigin withdrawalOrigin involved start parent) :
    Current anyone start (before.log ++ outcome.report.2) ∧
    ∃ builder later db, (before.executor.updateSafeHead host header).inner = some builder ∧ after.inner = some later ∧
      builder.Carries prim stateOrigin withdrawalOrigin start before.log ∧
      (∃ earlier, before.history =
        (builder.trieDb.parentBlockHeader.blockInfo.number, accountsAfter start before.log) :: earlier) ∧
      NewlyWritten before.log outcome.report.2 (builder.handedAccounts (client.vm prim codec) host transactions) ∧
      (builder.trieDb.answering host).worldStates prim fuel
        (builder.handedAccounts (client.vm prim codec) host transactions) builder.parentSlot.toNat =
          (db, .ok (outcome.stateRoot, outcome.withdrawRoot)) ∧
      (∀ pubkey, later.accountsDiff.get pubkey = lastWrite anyone pubkey (before.log ++ outcome.report.2)) ∧
      later.trieDb =
        db.setParentBlockHeader ⟨outcome.blockInfo.blockInfo, outcome.stateRoot, outcome.withdrawRoot⟩ := by
  obtain ⟨builder, inner, carries, started, history⟩ := inv.updateSafeHead commits host builds.first
  obtain ⟨left, result⟩ :=
    @KonaExecutor.executePayload_some _ _ _ (client.vm prim codec) prim fuel _ _ inner host transactions
  rw [builds.built] at left result
  generalize built : builder.buildBlock (client.vm prim codec) prim fuel host transactions = block at left result
  obtain ⟨later, result'⟩ := block
  obtain rfl : .ok outcome = result' := result
  obtain ⟨diffAccounts, db, executed, updated, accountsDiff, trieDb⟩ := StatelessL2Builder.buildBlock_built built
  have sound : (AccountsDb.init prim codec (builder.trieDb.answering host) builder.lastAccountsDiff).Sound start
      before.log := by
    have answers := builds.answers builder inner
    refine ⟨⟨fun pubkey => ?_, fun pubkey unwritten => ?_⟩, ?_⟩
    · show (StatelessL2Builder.extend .empty builder.lastAccountsDiff).get pubkey = _
      rw [← started, carries.diff]
      exact congrArg (lastWrite anyone pubkey) (List.append_nil before.log).symm
    · have unwritten : lastWrite anyone pubkey before.log = none := unwritten_before unwritten
      show ((builder.trieDb.answering host).getAccountData prim codec pubkey).toOption.join = start pubkey
      rw [answers.unwritten inv.unwritten unwritten]
      rfl
    · exact (List.append_nil before.log).symm ▸ inv.current
  obtain ⟨accounts, logged, closed, perm⟩ := client.execute_sound sound executed
  have follows := closed.follows.diff
  have current := closed.current
  rw [logged] at follows current
  have handed : builder.handedAccounts (client.vm prim codec) host transactions =
      modifiedAccounts builder.accountsDiff diffAccounts := by
    unfold StatelessL2Builder.handedAccounts
    rw [executed]
  refine ⟨current, builder, later, db, inner, congrArg KonaExecutor.inner left, carries, history, ?_, updated, ?_, trieDb⟩
  · rw [handed]
    exact modifiedAccounts_newlyWritten carries.diff follows perm
  · rw [accountsDiff]
    exact extend_exported carries.diff follows perm

def KeepsOthers (prim : Primitives) (stateOrigin withdrawalOrigin : TrieNode) (handed : AccountPairs)
    (before after : TrieDB) : Prop :=
  ∃ state withdrawals state' withdrawals',
    TrieNode.Shows prim stateOrigin state before.rootNode ∧
    TrieNode.Shows prim withdrawalOrigin withdrawals before.withdrawalNode ∧
    TrieNode.Shows prim stateOrigin state' after.rootNode ∧
    TrieNode.Shows prim withdrawalOrigin withdrawals' after.withdrawalNode ∧
    ∀ key, (∀ written ∈ handed, keyOf prim written.1 ≠ key) → state' key = state key ∧ withdrawals' key = withdrawals key

theorem worldStates_handed {host : Host} (sources : Sources prim host.fetcher host.hinter stateOrigin withdrawalOrigin involved)
    (enough : enoughFuel ≤ fuel) {before log : AccountLog} {builder : StatelessL2Builder}
    (carries : builder.Carries prim stateOrigin withdrawalOrigin start before)
    (known : ∀ pubkey account, accountsAfter start before pubkey = some account → pubkey ∈ involved)
    {handed : AccountPairs} (newly : NewlyWritten before log handed)
    (within : ∀ writer pubkey account, .wrote writer pubkey account ∈ log → pubkey ∈ involved) {lastSlot : Nat} {db : TrieDB}
    {roots : B256 × B256}
    (updated : (builder.trieDb.answering host).worldStates prim fuel handed lastSlot = (db, .ok roots)) :
    KeepsOthers prim stateOrigin withdrawalOrigin handed builder.trieDb db ∧
    (∃ contents, TrieNode.Shows prim stateOrigin contents db.rootNode ∧
      Lists prim (stateEntry prim) (accountsAfter start (before ++ log)) contents) ∧
    ∃ contents, TrieNode.Shows prim withdrawalOrigin contents db.withdrawalNode := by
  obtain ⟨state, root, lists⟩ := carries.state
  obtain ⟨withdrawals, withdrawal⟩ := carries.withdrawal
  have tracks : Tracks prim stateOrigin withdrawalOrigin host.fetcher host.hinter state withdrawals
      (builder.trieDb.answering host) := ⟨root, withdrawal, rfl, rfl⟩
  have isDiff : IsDiff involved handed := ⟨newly.distinct, newly.within within⟩
  have keys := keys_distinct sources.injective isDiff.1 isDiff.2
  have updates := updateAccounts_updates sources.state sources.withdrawal enough tracks lastSlot keys
  obtain ⟨left, returns⟩ : db = ((builder.trieDb.answering host).updateAccounts prim fuel handed lastSlot).1 ∧
      ((builder.trieDb.answering host).updateAccounts prim fuel handed lastSlot).2 = .ok () := by
    unfold TrieDB.worldStates at updated
    generalize (builder.trieDb.answering host).updateAccounts prim fuel handed lastSlot = result at updated
    obtain ⟨db', stop | done⟩ := result
    · cases updated
    · cases updated
      exact ⟨rfl, rfl⟩
  have next := updates.tracks_of_ok returns
  rw [← left] at next
  refine ⟨⟨state, withdrawals, _, _, root, withdrawal, next.root, next.withdrawal, ?_⟩, ⟨_, next.root, ?_⟩, _, next.withdrawal⟩
  · intro key other
    have apart : ∀ hashed ∈ handed.map (TrieDB.hashAccount prim), hashed.key ≠ key := by
      intro hashed member
      obtain ⟨written, inside, rfl⟩ := List.mem_map.mp member
      exact other written inside
    exact ⟨updateEach_other state apart, updateEach_other withdrawals apart⟩
  · rw [← newly.overridden_eq]
    exact (lists_overridden sources.injective lists known isDiff.1 isDiff.2 _).mpr fun _ _ => rfl

theorem Run.inv (commits : Commits prim stateOrigin withdrawalOrigin involved start parent) (enough : enoughFuel ≤ fuel)
    {progress : Progress}
    (run : Run prim codec stateOrigin withdrawalOrigin involved client fuel parent start config progress) :
    progress.Inv prim stateOrigin withdrawalOrigin involved start parent := by
  induction run with
  | start =>
      refine ⟨current_nil, commits.known, ?_, fun _ => ⟨rfl, rfl⟩, fun builder inner => ?_⟩
      · intro block member pubkey _
        rw [List.mem_singleton.mp member]
      · cases inner
  | @block before host header transactions after outcome _ builds inv =>
      obtain ⟨current, builder, later, db, inner, left, carries, -, newly, updated, diff, trieDb⟩ := builds.spec commits inv
      obtain ⟨-, state, withdrawal⟩ := worldStates_handed builds.sources enough carries inv.known newly builds.within updated
      have known : ∀ pubkey account, accountsAfter start (before.log ++ outcome.report.2) pubkey = some account →
          pubkey ∈ involved := by
        rw [← newly.overridden_eq]
        exact overridden_known inv.known (newly.within builds.within)
      refine ⟨current, known, ?_, fun none_ => ?_, fun builder' inner' => ?_⟩
      · intro block member pubkey unwritten
        rcases List.mem_cons.mp member with rfl | member
        · exact accountsAfter_of_unwritten unwritten
        · exact inv.unwritten block member pubkey (unwritten_before unwritten)
      · cases left.symm.trans none_
      · cases left.symm.trans inner'
        refine ⟨⟨diff, ?_, ?_⟩, before.history, ?_⟩
        · rw [trieDb]
          exact state
        · rw [trieDb]
          exact withdrawal
        · rw [trieDb]
          rfl

/-- In a run of blocks that are built, a read finds the account that was last written in the run, and otherwise the
one at the start. The accounts that a block changes are handed to the tries, which keep all others. -/
theorem overlay_reads_current (commits : Commits prim stateOrigin withdrawalOrigin involved start parent)
    (enough : enoughFuel ≤ fuel) {before : Progress}
    (run : Run prim codec stateOrigin withdrawalOrigin involved client fuel parent start config before) {host : Host}
    {header : L2BlockHeader} {transactions : Option (List (List UInt8))} {after : KonaExecutor}
    {outcome : BlockBuildingOutcome (Report × AccountLog)}
    (builds : Builds prim codec stateOrigin withdrawalOrigin involved client fuel parent before host header transactions after
      outcome) :
    Current anyone start (before.log ++ outcome.report.2) ∧
    ∃ builder later db, (before.executor.updateSafeHead host header).inner = some builder ∧ after.inner = some later ∧
      (∃ earlier, before.history =
        (builder.trieDb.parentBlockHeader.blockInfo.number, accountsAfter start before.log) :: earlier) ∧
      (builder.trieDb.answering host).worldStates prim fuel
        (builder.handedAccounts (client.vm prim codec) host transactions) builder.parentSlot.toNat =
          (db, .ok (outcome.stateRoot, outcome.withdrawRoot)) ∧
      (∀ pubkey, accountsAfter start (before.log ++ outcome.report.2) pubkey ≠ accountsAfter start before.log pubkey →
        ∃ account, accountsAfter start (before.log ++ outcome.report.2) pubkey = some account ∧
          (pubkey, account) ∈ builder.handedAccounts (client.vm prim codec) host transactions) ∧
      KeepsOthers prim stateOrigin withdrawalOrigin (builder.handedAccounts (client.vm prim codec) host transactions)
        builder.trieDb later.trieDb := by
  have inv := run.inv commits enough
  obtain ⟨current, builder, later, db, inner, left, carries, history, newly, updated, -, trieDb⟩ := builds.spec commits inv
  obtain ⟨keeps, -⟩ := worldStates_handed builds.sources enough carries inv.known newly builds.within updated
  refine ⟨current, builder, later, db, inner, left, history, updated, fun pubkey => newly.of_changed, ?_⟩
  rw [trieDb]
  exact keeps

end

/-- Every block pays its fees to `alice`, and its transactions read that account. -/
def feesClient : Client UInt64 (List UInt8) (List UInt8) Unit Unit where
  finishInit _ parentSlot _ _ _ := .done (.ok (parentSlot + 1))
  deserialize bytes := if bytes = [] then .error "unexpected end of file" else .ok bytes
  toRaw block := some [block]
  sendTransaction svm _ := .ask (.getAccount alice) fun _ => .done (svm, ())
  sealBlock svm _ _ := .ask (.addDiffAccount alice bridgeAccount) fun _ =>
    .done (.ok (⟨⟨.ofNat 1, svm, .ofNat 0, 0⟩, ⟨0, .ofNat 0⟩, 0⟩, ()))
  iterate := id
  iterate_perm _ := .rfl

instance reportDecidableEq : DecidableEq (Unit × AccountLog) := inferInstance

def emptyHost : Host := ⟨emptyProvider, noopTrieHinter⟩

def unusedCodec : AccountCodec := ⟨fun _ => .error .unexpectedString, fun _ => none, fun _ => "unexpected string"⟩

def feesConfig : ExecutorConfig := ⟨some (.ofNat 0), []⟩

def firstHeader : L2BlockHeader := emptyDb.parentBlockHeader

def feesBlock (executor : KonaExecutor) (header : L2BlockHeader) :
    KonaExecutor × ExecutorResult (BlockBuildingOutcome (Unit × AccountLog)) :=
  (executor.updateSafeHead emptyHost header).executePayload (feesClient.vm (.tabulated accountDigests) unusedCodec)
    (.tabulated accountDigests) enoughFuel emptyHost (some [[1]])

def feesOutcome (number : UInt64) (found : Option Account) : BlockBuildingOutcome (Unit × AccountLog) where
  blockInfo := ⟨⟨.ofNat 1, number, .ofNat 0, 0⟩, ⟨0, .ofNat 0⟩, 0⟩
  stateRoot := .ofNat 0x4ab93299a6e08920997c8e4101df1564b35ba59af7b5043bb8c42d765675a4cf
  withdrawRoot := .ofNat 0xcf538717e27d57ab1c1cbc329f386aadb3065fb7f80dc6e6809d3b2c75da7210
  report := ((), [.read alice found, .wrote .block alice bridgeAccount])

def secondHeader : L2BlockHeader :=
  ⟨(feesOutcome 1 none).blockInfo.blockInfo, (feesOutcome 1 none).stateRoot, (feesOutcome 1 none).withdrawRoot⟩

def feesStart : Progress := ⟨⟨feesConfig, none⟩, [(firstHeader.blockInfo.number, fun _ => none)], []⟩

def afterFees : Progress :=
  feesStart.next (fun _ => none) (feesBlock feesStart.executor firstHeader).1 (feesOutcome 1 none)

theorem emptyCommits : Commits (.tabulated accountDigests) .empty .empty {alice} (fun _ => none) firstHeader :=
  ⟨nothing_known, ⟨_, emptyDb_tracks.root, nothing_listed _⟩, _, emptyDb_tracks.withdrawal⟩

theorem emptyHost_answers {progress : Progress} (number : UInt64) (old : (number, fun _ => none) ∈ progress.history) {db : TrieDB} :
    Answers (.tabulated accountDigests) unusedCodec progress (db.answering emptyHost) :=
  fun _ => .inl ⟨_, old, rfl⟩

theorem feesOutcome_within {number : UInt64} {found : Option Account} :
    ∀ writer pubkey account, .wrote writer pubkey account ∈ (feesOutcome number found).report.2 →
      pubkey ∈ ({alice} : Set Pubkey) := by
  intro writer pubkey account member
  rcases List.mem_cons.mp member with same | member
  · cases same
  · cases List.mem_singleton.mp member
    rfl

theorem feesStart_builds : Builds (.tabulated accountDigests) unusedCodec .empty .empty {alice} feesClient enoughFuel firstHeader
    feesStart emptyHost firstHeader (some [[1]]) (feesBlock feesStart.executor firstHeader).1 (feesOutcome 1 none) where
  first _ := rfl
  built := by
    have ends : (feesBlock feesStart.executor firstHeader).2 = .ok (feesOutcome 1 none) := by decide +kernel
    exact Prod.ext rfl ends
  sources := emptySources
  answers _ _ := emptyHost_answers 0 List.mem_cons_self
  within := feesOutcome_within

theorem afterFees_run : Run (.tabulated accountDigests) unusedCodec .empty .empty {alice} feesClient enoughFuel firstHeader
    (fun _ => none) feesConfig afterFees := .block .start feesStart_builds

theorem afterFees_builds : Builds (.tabulated accountDigests) unusedCodec .empty .empty {alice} feesClient enoughFuel firstHeader
    afterFees emptyHost secondHeader (some [[1]]) (feesBlock afterFees.executor secondHeader).1
    (feesOutcome 2 (some bridgeAccount)) where
  first none_ := by cases none_
  built := by
    have ends : (feesBlock afterFees.executor secondHeader).2 = .ok (feesOutcome 2 (some bridgeAccount)) := by
      decide +kernel
    exact Prod.ext rfl ends
  sources := emptySources
  answers _ _ := emptyHost_answers 0 (List.mem_cons_of_mem _ List.mem_cons_self)
  within := feesOutcome_within

/-- The second block finds the fees of the first one, which no transaction has written. -/
theorem reads_fees_of_block :
    Commits (.tabulated accountDigests) .empty .empty {alice} (fun _ => none) firstHeader ∧
    Run (.tabulated accountDigests) unusedCodec .empty .empty {alice} feesClient enoughFuel firstHeader (fun _ => none) feesConfig
      afterFees ∧
    Builds (.tabulated accountDigests) unusedCodec .empty .empty {alice} feesClient enoughFuel firstHeader afterFees emptyHost
      secondHeader (some [[1]]) (feesBlock afterFees.executor secondHeader).1 (feesOutcome 2 (some bridgeAccount)) ∧
    ¬ Current transactionsOnly (fun _ => none) (afterFees.log ++ (feesOutcome 2 (some bridgeAccount)).report.2) := by
  refine ⟨emptyCommits, afterFees_run, afterFees_builds, fun current => ?_⟩
  have found := current afterFees.log alice (some bridgeAccount) [.wrote .block alice bridgeAccount] rfl
  have unwritten : lastWrite transactionsOnly alice afterFees.log = none := by decide +kernel
  rw [unwritten] at found
  cases found

theorem overlay_reads_current_fees :
    Current anyone (fun _ => none) (afterFees.log ++ (feesOutcome 2 (some bridgeAccount)).report.2) :=
  (overlay_reads_current emptyCommits (le_refl enoughFuel) afterFees_run afterFees_builds).1

end KonaSoon.State
