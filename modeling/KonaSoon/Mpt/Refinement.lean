import KonaSoon.Mpt.History

namespace KonaSoon.Mpt
open Lib

namespace TrieNode

variable {prim : Primitives} {fetcher : TrieProvider} {hinter : TrieHinter} {origin node full : TrieNode}
  {contents : Contents} {fuel : Nat}

/-- The trie `full`, at some point of a run that started with `origin` blinded, is seen as `node`. -/
def SeenAs (prim : Primitives) (origin full node : TrieNode) : Prop :=
  Reveals (CommitsTo prim origin) node full ∨
    node = .blinded (prim.keccak256 (encode prim origin)) ∧ full = origin

theorem Blinding.seenAs (blinding : Blinding prim origin node) : SeenAs prim origin origin node := by
  cases blinding with
  | root => exact .inr ⟨rfl, rfl⟩
  | inner reveals => exact .inl (reveals.within .root)

section

variable (canonical : Canonical keyNibbles origin)

include canonical

theorem Reveals.blind_eq (reveals : Reveals (CommitsTo prim origin) node full) : blind prim node = blind prim full :=
  (reveals.encodings (commitsTo_commits canonical)).2.1

theorem SeenAs.blind_eq (seen : SeenAs prim origin full node) : blind prim node = blind prim full := by
  rcases seen with reveals | ⟨rfl, rfl⟩
  · exact reveals.blind_eq canonical
  · exact (blind_eq_keccak canonical.not_blinded).symm

end

theorem Reveals.unique (canonical : Canonical keyNibbles origin) (free : CollisionFree prim (nodes origin))
    {full' : TrieNode} (reveals : Reveals (CommitsTo prim origin) node full)
    (reveals' : Reveals (CommitsTo prim origin) node full') : full = full' := by
  induction reveals generalizing full' with
  | empty => cases reveals'; rfl
  | leaf => cases reveals'; rfl
  | extension _ ih =>
      cases reveals' with
      | extension child' => rw [ih child']
  | branch width _ ih =>
      cases reveals' with
      | branch width' children' => rw [stack_ext (width.symm.trans width') fun i => ih i (children' i)]
  | blinded stands =>
      cases reveals' with
      | blinded stands' =>
          exact commitsTo_unique canonical free stands.1 stands'.1 (stands.2.1.symm.trans stands'.2.1)

theorem SeenAs.unique (canonical : Canonical keyNibbles origin) (free : CollisionFree prim (nodes origin))
    {full' : TrieNode} (seen : SeenAs prim origin full node) (seen' : SeenAs prim origin full' node) :
    full = full' := by
  rcases seen with reveals | ⟨rfl, rfl⟩ <;> rcases seen' with reveals' | ⟨root, rfl⟩
  · exact reveals.unique canonical free reveals'
  · subst root
    cases reveals with
    | blinded stands => exact commitsTo_unique canonical free stands.1 .root stands.2.1.symm
  · cases reveals' with
    | blinded stands => exact commitsTo_unique canonical free .root stands.1 stands.2.1
  · rfl

theorem applyOp_blinded {c : B256} (unblinds : unblind prim fetcher (.blinded c) = (node, .ok ()))
    (clear : ¬ IsBlinded node) (op : TrieOp) :
    applyOp prim fetcher hinter (fuel + 1) (.blinded c) op = applyOp prim fetcher hinter fuel node op := by
  cases op with
  | openKey key => simp only [applyOp, openPath, unblinds]
  | insert key value => simp only [applyOp, insert, unblinds]
  | delete key lastSlot => simp only [applyOp, delete, unblinds]
  | unblind =>
      simp only [applyOp, unblinds]
      cases node with
      | blinded c => exact absurd ⟨c, rfl⟩ clear
      | _ => rfl

section

variable (canonical : Canonical keyNibbles origin) (honest : Honest prim fetcher origin)
  (hints : ∀ hash slot, hinter.hintAccountProof hash slot = .ok ()) (free : CollisionFree prim (nodes origin))

include canonical honest hints free

theorem SeenAs.simulates (seen : SeenAs prim origin full node) (represents : Represents full contents)
    (enough : enoughFuel ≤ fuel) (op : TrieOp) :
    Simulates (CommitsTo prim origin) (applyOp prim fetcher hinter fuel node op) (contents.step op) := by
  have serves := serves_of_honest canonical honest hints free
  rcases seen with reveals | ⟨rfl, rfl⟩
  · exact applyOp_simulates serves represents reveals (Nat.le_of_succ_le enough) op
  · obtain ⟨fuel, rfl⟩ : ∃ k, fuel = k + 1 := ⟨fuel - 1, by unfold enoughFuel at enough; omega⟩
    rw [applyOp_blinded (unblind_root canonical honest free) (shallow_not_blinded canonical)]
    exact applyOp_simulates serves represents (shallow_reveals canonical canonical .root)
      (Nat.le_of_succ_le_succ enough) op

end

theorem Reveals.part {Stands : B256 → TrieNode → Prop} (reveals : Reveals Stands node full) {part : TrieNode}
    (within : Within node part) : ∃ full', Reveals Stands part full' := by
  induction within with
  | root => exact ⟨full, reveals⟩
  | extension _ ih =>
      obtain ⟨full', above⟩ := ih
      cases above with
      | extension child => exact ⟨_, child⟩
  | branch _ i ih =>
      obtain ⟨full', above⟩ := ih
      cases above with
      | branch width children => exact ⟨_, children i⟩

theorem within_childless {part : TrieNode} (noExtension : ∀ pfx child, node ≠ .extension pfx child)
    (noBranch : ∀ stack, node ≠ .branch stack) (within : Within node part) : part = node := by
  induction within with
  | root => rfl
  | extension _ ih => exact absurd ih.symm (noExtension _ _)
  | branch _ i ih => exact absurd ih.symm (noBranch _)

theorem SeenAs.unblind_part (canonical : Canonical keyNibbles origin) (honest : Honest prim fetcher origin)
    (free : CollisionFree prim (nodes origin)) (seen : SeenAs prim origin full node) {part : TrieNode}
    (within : Within node part) :
    (unblind prim fetcher part).2 = .ok () ∧ blind prim (unblind prim fetcher part).1 = blind prim part := by
  rcases seen with reveals | ⟨rfl, rfl⟩
  · have serves : Serves prim fetcher noopTrieHinter (CommitsTo prim origin) :=
      serves_of_honest canonical honest (fun _ _ => rfl) free
    obtain ⟨full', shown⟩ := reveals.part within
    obtain ⟨part', unblinds, shown', -⟩ := unblind_spec serves shown
    rw [unblinds]
    exact ⟨rfl, (shown'.blind_eq canonical).trans (shown.blind_eq canonical).symm⟩
  · obtain rfl := within_childless (by simp) (by simp) within
    rw [unblind_root canonical honest free]
    refine ⟨rfl, ?_⟩
    rw [(shallow_reveals canonical canonical .root).blind_eq canonical, blind_eq_keccak canonical.not_blinded]
    rfl

def Alongside (prim : Primitives) (origin node full : TrieNode) : Prop :=
  SeenAs prim origin full node ∧ ∃ contents, Represents full contents

section

variable (canonical : Canonical keyNibbles origin) (honest : Honest prim fetcher origin)
  (hints : ∀ hash slot, hinter.hintAccountProof hash slot = .ok ()) (free : CollisionFree prim (nodes origin))

include canonical honest hints free

theorem Alongside.step (enough : enoughFuel ≤ fuel) (alongside : Alongside prim origin node full) (op : TrieOp) :
    Alongside prim origin (applyOp prim fetcher hinter fuel node op).1 (applyOp prim fetcher hinter fuel full op).1 ∧
      (applyOp prim fetcher hinter fuel node op).2 = (applyOp prim fetcher hinter fuel full op).2 ∧
      (applyOp prim fetcher hinter fuel node op).2.Returns := by
  obtain ⟨seen, contents, represents⟩ := alongside
  obtain ⟨full', next, reveals, answers⟩ := seen.simulates canonical honest hints free represents enough op
  obtain ⟨next', answers'⟩ := applyOp_represents prim fetcher hinter represents enough op
  rw [next.unique next'] at reveals
  refine ⟨⟨.inl reveals, _, next'⟩, answers.trans answers'.symm, ?_⟩
  rw [answers]
  exact Contents.step_returns contents op

theorem Alongside.run (enough : enoughFuel ≤ fuel) (alongside : Alongside prim origin node full) (ops : List TrieOp) :
    Alongside prim origin (run (applyOp prim fetcher hinter fuel) node ops)
      (run (applyOp prim fetcher hinter fuel) full ops) :=
  run_related (Alongside prim origin)
    (fun _ _ op alongside => (alongside.step canonical honest hints free enough op).1) alongside ops

theorem Alongside.trace_eq (enough : enoughFuel ≤ fuel) (alongside : Alongside prim origin node full) (ops : List TrieOp) :
    trace (applyOp prim fetcher hinter fuel) (blind prim) node ops =
      trace (applyOp prim fetcher hinter fuel) (blind prim) full ops := by
  refine trace_simulation (Alongside prim origin) (fun part full op alongside => ?_) alongside ops
  obtain ⟨next, answers, -⟩ := alongside.step canonical honest hints free enough op
  exact ⟨next, answers, next.1.blind_eq canonical⟩

end

/-- Any blinding of a trie answers every run as the trie itself does, with the same root after every
call, and comes to an end in every call. -/
theorem blinding_refines (history : List TrieOp) (builder : TrieProvider) (builderHinter : TrieHinter)
    (enough : enoughFuel ≤ fuel) (isOrigin : origin = after prim builder builderHinter fuel history)
    (blinding : Blinding prim origin node) (honest : Honest prim fetcher origin)
    (hints : ∀ hash slot, hinter.hintAccountProof hash slot = .ok ()) (free : CollisionFree prim (nodes origin)) :
    blind prim node = blind prim origin ∧
    (∀ ops, trace (applyOp prim fetcher hinter fuel) (blind prim) node ops =
      trace (applyOp prim fetcher hinter fuel) (blind prim) origin ops) ∧
    (∀ ops op, (applyOp prim fetcher hinter fuel (run (applyOp prim fetcher hinter fuel) node ops) op).2.Returns) ∧
    (∀ ops (key : Key), blind prim (openPath prim fetcher fuel (run (applyOp prim fetcher hinter fuel) node ops) key.1).1 =
      blind prim (run (applyOp prim fetcher hinter fuel) node ops)) ∧
    (∀ ops part, Within (run (applyOp prim fetcher hinter fuel) node ops) part →
      (unblind prim fetcher part).2 = .ok () ∧ blind prim (unblind prim fetcher part).1 = blind prim part) := by
  have represents : Represents origin (lastWritten history) :=
    isOrigin ▸ after_represents prim builder builderHinter enough history
  have canonical := represents.1
  have start : Alongside prim origin node origin := ⟨blinding.seenAs, _, represents⟩
  have reached := start.run canonical honest hints free enough
  refine ⟨start.1.blind_eq canonical, start.trace_eq canonical honest hints free enough, ?_, ?_, ?_⟩
  · intro ops op
    exact ((reached ops).step canonical honest hints free enough op).2.2
  · intro ops key
    obtain ⟨seen, contents, current⟩ := reached ops
    obtain ⟨full', next, reveals, -⟩ := seen.simulates canonical honest hints free current enough (.openKey key)
    have opened := reveals.blind_eq canonical
    rw [next.unique current, ← seen.blind_eq canonical] at opened
    exact opened
  · intro ops part within
    exact (reached ops).1.unblind_part canonical honest free within

theorem within_twoLeaves (within : Within twoLeaves node) :
    node = twoLeaves ∨ node = .leaf stem one ∨ node = .leaf stem two ∨ node = .empty := by
  induction within with
  | root => exact .inl rfl
  | extension _ ih => simp [twoLeaves] at ih
  | @branch stack _ i ih =>
      obtain rfl : stack = [.leaf stem one, .leaf stem two] ++ List.replicate 15 .empty := by
        simpa [twoLeaves] using ih
      match i with
      | 0 => exact .inr (.inl rfl)
      | 1 => exact .inr (.inr (.inl rfl))
      | i + 2 => exact .inr (.inr (.inr (slot_replicate 15 i)))

theorem collisionFree_twoLeaves : CollisionFree (.tabulated digests) (nodes twoLeaves) := by
  have apart : ∀ x ∈ digests, ∀ y ∈ digests,
      (Primitives.tabulated digests).keccak256 x.1 = (Primitives.tabulated digests).keccak256 y.1 → x.1 = y.1 := by
    decide +kernel
  have listed : ∀ bytes ∈ ({[0x80]} ∪ Set.image (encode (.tabulated digests)) (nodes twoLeaves) : Set (List UInt8)),
      ∃ x ∈ digests, bytes = x.1 := by
    rintro bytes (rfl | ⟨node, within, rfl⟩)
    · exact ⟨_, .head _, rfl⟩
    · rcases within_twoLeaves within with rfl | rfl | rfl | rfl
      · exact ⟨_, .tail _ (.tail _ (.tail _ (.head _))), by decide +kernel⟩
      · exact ⟨_, .tail _ (.head _), by decide +kernel⟩
      · exact ⟨_, .tail _ (.tail _ (.head _)), by decide +kernel⟩
      · exact ⟨_, .head _, rfl⟩
  intro x memberX y memberY same
  obtain ⟨x, inX, rfl⟩ := listed x memberX
  obtain ⟨y, inY, rfl⟩ := listed y memberY
  exact apart x inX y inY same

def preimages : List (B256 × List UInt8) := digests.map Prod.swap

theorem honest_twoLeaves : Honest (.tabulated digests) (trieNodeProvider (.tabulated digests) preimages) twoLeaves := by
  have looksUp : ∀ preimage, preimages.lookup ((Primitives.tabulated digests).keccak256 preimage) = some preimage →
      (trieNodeProvider (.tabulated digests) preimages).trieNodeByHash
        ((Primitives.tabulated digests).keccak256 preimage) = decodePreimage (.tabulated digests) preimage := by
    intro preimage found
    simp only [trieNodeProvider, found]
  intro node within hideable
  apply looksUp
  rcases within_twoLeaves within with rfl | rfl | rfl | rfl <;> decide +kernel

theorem blinding_refines_collapse :
    (trace (applyOp (.tabulated digests) (trieNodeProvider (.tabulated digests) preimages) noopTrieHinter enoughFuel)
        (blind (.tabulated digests)) (.branch ([.blinded leafHash, .leaf stem two] ++ List.replicate 15 .empty))
        [.delete rightKey 0, .openKey leftKey]).map Prod.fst =
      [.updated (.ok ()), .opened (.ok (some one))] := by
  have reveals : Reveals (HashOf (.tabulated digests))
      (.branch ([.blinded leafHash, .leaf stem two] ++ List.replicate 15 .empty)) twoLeaves := by
    refine .branch rfl fun i => ?_
    match i with
    | 0 => exact .blinded (by unfold HashOf; decide +kernel)
    | 1 => exact .leaf
    | i + 2 =>
        change Reveals _ (slot (List.replicate 15 .empty) i) (slot (List.replicate 15 .empty) i)
        rw [slot_replicate]
        exact .empty
  have hints : ∀ hash slot, noopTrieHinter.hintAccountProof hash slot = .ok () := fun _ _ => rfl
  have facts := blinding_refines [.insert leftKey one, .insert rightKey two] noopTrieProvider noopTrieHinter
    (le_refl enoughFuel) rfl (.inner reveals) honest_twoLeaves hints collisionFree_twoLeaves
  rw [facts.2.1]
  decide +kernel

structure Backed (prim : Primitives) (fetcher : TrieProvider) (hinter : TrieHinter) (origin : TrieNode) : Prop where
  canonical : Canonical keyNibbles origin
  honest : Honest prim fetcher origin
  hints : ∀ hash slot, hinter.hintAccountProof hash slot = .ok ()
  free : CollisionFree prim (nodes origin)

def Shows (prim : Primitives) (origin : TrieNode) (contents : Contents) (node : TrieNode) : Prop :=
  ∃ full, SeenAs prim origin full node ∧ Represents full contents

section

variable (backed : Backed prim fetcher hinter origin) (enough : enoughFuel ≤ fuel) (shows : Shows prim origin contents node)

include backed enough shows

theorem Shows.step (op : TrieOp) :
    Shows prim origin (contents.step op).1 (applyOp prim fetcher hinter fuel node op).1 ∧
      (applyOp prim fetcher hinter fuel node op).2 = (contents.step op).2 := by
  obtain ⟨full, seen, represents⟩ := shows
  obtain ⟨full', next, reveals, answers⟩ :=
    seen.simulates backed.canonical backed.honest backed.hints backed.free represents enough op
  exact ⟨⟨full', .inl reveals, next⟩, answers⟩

theorem Shows.insert (key : Key) (value : Bytes) :
    (TrieNode.insert prim fetcher fuel node key.1 value).2 = .ok () ∧
      Shows prim origin (Function.update contents key (some value))
        (TrieNode.insert prim fetcher fuel node key.1 value).1 := by
  obtain ⟨next, answers⟩ := shows.step backed enough (.insert key value)
  exact ⟨Answer.updated.inj answers, next⟩

theorem Shows.delete_present {key : Key} (present : contents key ≠ none) (lastSlot : Nat) :
    (TrieNode.delete prim fetcher hinter lastSlot fuel node key.1 []).2 = .ok () ∧
      Shows prim origin (Function.update contents key none)
        (TrieNode.delete prim fetcher hinter lastSlot fuel node key.1 []).1 := by
  obtain ⟨next, answers⟩ := shows.step backed enough (.delete key lastSlot)
  simp only [Contents.step, if_neg present] at next answers
  exact ⟨Answer.updated.inj answers, next⟩

theorem Shows.delete_absent {key : Key} (absent : contents key = none) (lastSlot : Nat) :
    (TrieNode.delete prim fetcher hinter lastSlot fuel node key.1 []).2 = .error (.error .keyNotFound) := by
  obtain ⟨-, answers⟩ := shows.step backed enough (.delete key lastSlot)
  simp only [Contents.step, if_pos absent] at answers
  exact Answer.updated.inj answers

end

end TrieNode

end KonaSoon.Mpt
