import KonaSoon.Mpt.Refinement

namespace KonaSoon.Mpt
open Lib

namespace TrieNode

variable {prim : Primitives} {fetcher : TrieProvider} {hinter : TrieHinter} {Stands : B256 → TrieNode → Prop}
  {origin node full : TrieNode} {contents : Contents} {fuel : Nat}

theorem insert_fails (answers : Answers prim fetcher Stands) {path : Nibbles} {value : Bytes} {e : TrieNodeError}
    (reveals : Reveals Stands node full) (failed : (insert prim fetcher fuel node path value).2 = .error (.error e)) :
    Reveals Stands (insert prim fetcher fuel node path value).1 full := by
  induction fuel generalizing node full path with
  | zero => cases failed
  | succ fuel ih =>
      cases reveals with
      | empty => cases failed
      | @leaf pfx leafValue =>
          unfold insert at failed
          split at failed
          · cases failed
          · split at failed <;> cases failed
      | @extension pfx node full child =>
          unfold insert at failed ⊢
          simp only at failed ⊢
          split at failed
          · split at failed
            · rename_i shared _ rest _
              rw [if_pos shared]
              exact .extension (ih child failed)
            · cases failed
          · split at failed <;> cases failed
      | @branch stack fulls width children =>
          cases path with
          | nil => cases failed
          | cons nibble rest =>
              unfold insert at failed ⊢
              cases lookup : stack[nibble.toNat]? with
              | none =>
                  rw [lookup] at failed
                  cases failed
              | some child =>
                  simp only [lookup] at failed ⊢
                  have here : slot stack nibble.toNat = child := by
                    simp [slot, List.getD_eq_getElem?_getD, lookup]
                  have shown := ih (here ▸ children nibble.toNat) failed
                  simpa only [set_slot] using reveals_set width children shown nibble.toNat
      | @blinded c full stands =>
          unfold insert at failed ⊢
          rcases answers.reveal stands with ⟨node, unblinds, shown, -⟩ | ⟨e, fails⟩
          · simp only [unblinds] at failed ⊢
            exact ih shown failed
          · simp only [fails]
            exact .blinded stands

inductive Cut : TrieNode → Nibbles → Prop
  | empty {path : Nibbles} : Cut .empty path
  | branch {stack : List TrieNode} {nibble : UInt8} {rest : Nibbles} (inside : nibble.toNat < stack.length)
      (child : Cut (slot stack nibble.toNat) rest) : Cut (.branch stack) (nibble :: rest)
  | extension {pfx rest : Nibbles} {child : TrieNode} (nonempty : pfx ≠ []) (more : rest ≠ []) (below : Cut child rest) :
      Cut (.extension pfx child) (pfx ++ rest)

theorem Cut.delete {path : Nibbles} (cut : Cut node path) (enough : path.length < fuel) (lastSlot : Nat)
    (walked : Nibbles) :
    (TrieNode.delete prim fetcher hinter lastSlot fuel node path walked).2 = .error (.error .keyNotFound) := by
  induction cut generalizing fuel walked with
  | empty =>
      obtain ⟨fuel, rfl⟩ : ∃ k, fuel = k + 1 := ⟨fuel - 1, by omega⟩
      rfl
  | @branch stack nibble rest inside child ih =>
      obtain ⟨fuel, rfl⟩ : ∃ k, fuel = k + 1 := ⟨fuel - 1, by omega⟩
      have absent := @ih fuel (by simpa using enough) (walked ++ [nibble])
      rw [TrieNode.delete, getElem?_eq_slot inside]
      simp only
      generalize TrieNode.delete prim fetcher hinter lastSlot fuel _ rest _ = deleted at absent
      obtain ⟨node, result⟩ := deleted
      subst absent
      rfl
  | @extension pfx rest child nonempty more below ih =>
      obtain ⟨fuel, rfl⟩ : ∃ k, fuel = k + 1 := ⟨fuel - 1, by omega⟩
      have positive : 0 < pfx.length := List.length_pos_iff.mpr nonempty
      have remaining : 0 < rest.length := List.length_pos_iff.mpr more
      rw [List.length_append] at enough
      have absent := @ih fuel (by omega) (walked ++ pfx)
      have notAll : pfx.length ≠ (pfx ++ rest).length := by
        rw [List.length_append]
        omega
      simp only [TrieNode.delete, commonPrefixLength_front, Nat.lt_irrefl, if_false, if_neg notAll, sliceFrom_append]
      generalize TrieNode.delete prim fetcher hinter lastSlot fuel child rest _ = deleted at absent
      obtain ⟨node, result⟩ := deleted
      subst absent
      rfl

theorem unblind_error {stop : Stop TrieNodeError} (failed : (unblind prim fetcher node).2 = .error stop) :
    ∃ e, unblind prim fetcher node = (node, .error (.error (.provider e))) := by
  cases node with
  | blinded commitment =>
      by_cases empty : commitment = prim.emptyRootHash
      · simp [unblind, if_pos empty] at failed
      · cases fetched : fetcher.trieNodeByHash commitment with
        | ok node => simp [unblind, if_neg empty, fetched] at failed
        | error e => exact ⟨e, by simp [unblind, if_neg empty, fetched]⟩
  | _ => cases failed

theorem collapse_unrevealed (fuel : Nat) {stack : List TrieNode} {commitment : B256} {index lastSlot : Nat} {walked : Nibbles}
    (single : nonEmptyChildren stack = [(.blinded commitment, index)])
    (unrevealed : Unrevealed prim fetcher hinter lastSlot walked commitment index)
    (fits : walked.length + 1 ≤ keyNibbles) :
    ∃ e, collapseIfPossible prim fetcher hinter lastSlot (fuel + 1) (.branch stack) walked =
      (.branch stack, .error (.error e)) := by
  obtain ⟨hash, hinted⟩ := hintedKey_isSome fits index
  have member : (.blinded commitment, index) ∈ nonEmptyChildren stack := by
    rw [single]
    exact .head _
  have child := slot_of_mem member
  rw [collapseIfPossible, single]
  simp only [hinted]
  cases hint : hinter.hintAccountProof hash lastSlot with
  | error e => exact ⟨_, rfl⟩
  | ok done =>
      rcases unrevealed with ⟨hash', e, hinted', failed⟩ | ⟨stop, failed⟩
      · rw [hinted] at hinted'
        cases hinted'
        rw [hint] at failed
        cases failed
      · obtain ⟨e, failed⟩ := unblind_error failed
        simp only [failed]
        rw [← child, set_slot]
        exact ⟨_, rfl⟩

theorem delete_leaf {rest walked : Nibbles} {value : Bytes} {lastSlot : Nat}
    (leaf : unblind prim fetcher node = (.leaf rest value, .ok ())) :
    delete prim fetcher hinter lastSlot (fuel + 2) node rest walked = (.empty, .ok ()) := by
  cases node with
  | blinded commitment =>
      rw [delete, leaf]
      simp [delete]
  | leaf pfx value =>
      cases leaf
      simp [delete]
  | _ => cases leaf

theorem Reveals.of_leaf {pfx : Nibbles} {value : Bytes} (reveals : Reveals Stands (.leaf pfx value) full) :
    full = .leaf pfx value := by
  cases reveals
  rfl

theorem Reveals.of_empty (answers : Answers prim fetcher Stands) (reveals : Reveals Stands node .empty) :
    node = .empty := by
  cases reveals with
  | empty => rfl
  | blinded stands => exact absurd rfl (answers.nonempty stands)

theorem Stranded.delete (answers : Answers prim fetcher Stands) {n lastSlot : Nat} {path walked : Nibbles}
    (stranded : Stranded prim fetcher hinter lastSlot node path walked) (canonical : Canonical n full)
    (reveals : Reveals Stands node full) (pathLength : path.length = n)
    (fits : walked.length + n = keyNibbles) (enough : 2 * n + 1 ≤ fuel) (enoughBlinded : IsBlinded node → 2 * n + 2 ≤ fuel) :
    ∃ cut e, TrieNode.delete prim fetcher hinter lastSlot fuel node path walked = (cut, .error (.error e)) ∧
      Cut cut path ∧ ∃ value, Holds full path value := by
  induction stranded generalizing full n fuel with
  | @here stack nibble rest walked value commitment index leaf single unrevealed =>
      obtain ⟨fuel, rfl⟩ : ∃ k, fuel = k + 3 := ⟨fuel - 3, by simp only [List.length_cons] at pathLength; omega⟩
      have inside : nibble.toNat < stack.length := by
        apply lt_length_of_slot
        intro empty
        rw [empty] at leaf
        cases leaf
      cases reveals with
      | @branch _ fulls width children =>
          have held : slot fulls nibble.toNat = .leaf rest value := by
            rcases unblind_cases answers (children nibble.toNat) with ⟨shown, unblinds, reveals, -⟩ | ⟨⟨c, e, -, failed⟩, -⟩
            · rw [leaf] at unblinds
              cases unblinds
              exact reveals.of_leaf
            · rw [leaf] at failed
              cases (Prod.mk.inj failed).2
          obtain ⟨e, collapsed⟩ := collapse_unrevealed (fuel + 1) single unrevealed (by
            simp only [List.length_cons] at pathLength
            omega)
          refine ⟨.branch (stack.set nibble.toNat .empty), e, ?_, .branch ?_ ?_, value, .branch ?_⟩
          · rw [TrieNode.delete, getElem?_eq_slot inside]
            simp only [delete_leaf leaf, collapsed]
          · rwa [List.length_set]
          · rw [slot_set_self inside]
            exact .empty
          · rw [held]
            exact .leaf
  | @branch stack nibble rest walked child ih =>
      obtain ⟨fuel, rfl⟩ : ∃ k, fuel = k + 1 := ⟨fuel - 1, by omega⟩
      have inside : nibble.toNat < stack.length := by
        apply lt_length_of_slot
        intro empty
        rw [empty] at child
        cases child
      cases reveals with
      | @branch _ fulls width children =>
          cases canonical with
          | @branch m _ fullWidth noValue fullChildren two =>
              have below : nibble.toNat < 16 := by
                by_contra above
                have shown := children nibble.toNat
                rw [slot_above fullWidth noValue (Nat.le_of_not_lt above)] at shown
                rcases shown.of_empty answers with empty
                rw [empty] at child
                cases child
              obtain ⟨cut, e, deletes, ends, value, holds⟩ := @ih _ fuel _ (fullChildren nibble.toNat below)
                (children nibble.toNat) (by simpa using pathLength) (by
                  rw [List.length_append, List.length_singleton]
                  omega) (by omega) fun _ => by omega
              refine ⟨.branch (stack.set nibble.toNat cut), e, ?_, .branch ?_ ?_, value, .branch holds⟩
              · simp only [TrieNode.delete, getElem?_eq_slot inside, deletes]
              · rwa [List.length_set]
              · rwa [slot_set_self inside]
  | @extension pfx rest walked child below ih =>
      obtain ⟨fuel, rfl⟩ : ∃ k, fuel = k + 1 := ⟨fuel - 1, by omega⟩
      cases reveals with
      | @extension _ _ full shown =>
          cases canonical with
          | @extension m _ stack nonempty valid branch =>
              have positive : 0 < pfx.length := List.length_pos_iff.mpr nonempty
              have restLength : rest.length = m := by simpa using pathLength
              obtain ⟨k, rfl, -⟩ := branch.branch_inv
              obtain ⟨cut, e, deletes, ends, value, holds⟩ := @ih _ fuel _ branch shown restLength (by
                rw [List.length_append]
                omega) (by omega) fun _ => by omega
              have notAll : pfx.length ≠ (pfx ++ rest).length := by
                rw [List.length_append]
                omega
              refine ⟨.extension pfx cut, e, ?_, .extension nonempty ?_ ends, value, .extension holds⟩
              · simp only [TrieNode.delete, commonPrefixLength_front, Nat.lt_irrefl, if_false, if_neg notAll,
                  sliceFrom_append, deletes]
              · intro none
                rw [none] at restLength
                cases restLength
  | @blinded commitment shown path walked unblinds inner ih =>
      obtain ⟨fuel, rfl⟩ : ∃ k, fuel = k + 1 := ⟨fuel - 1, by omega⟩
      rcases unblind_cases answers reveals with ⟨node, unblinds', reveals', clear⟩ | ⟨⟨c, e, -, failed⟩, -⟩
      · rw [unblinds] at unblinds'
        cases unblinds'
        have bound := enoughBlinded ⟨_, rfl⟩
        rw [TrieNode.delete, unblinds]
        exact ih canonical reveals' pathLength fits (by omega) fun blinded => absurd blinded clear
      · rw [unblinds] at failed
        cases failed

/-- As `Honest`, or with an error for any of the nodes. -/
def HonestOrFails (prim : Primitives) (fetcher : TrieProvider) (origin : TrieNode) : Prop :=
  ∀ node, Within origin node → (node = origin ∨ 32 ≤ (encode prim node).length) →
    fetcher.trieNodeByHash (prim.keccak256 (encode prim node)) = decodePreimage prim (encode prim node) ∨
      ∃ e, fetcher.trieNodeByHash (prim.keccak256 (encode prim node)) = .error e

/-- If the attempt fails, the root is as before, and every run that starts with the same call and a working provider
goes on as if there had been no attempt. -/
def Harmless (prim : Primitives) (attempt retry : TrieNode → TrieOp → TrieNode × Answer) (node : TrieNode)
    (op : TrieOp) : Prop :=
  ∀ e, (attempt node op).2 = .updated (.error (.error e)) →
    blind prim (attempt node op).1 = blind prim node ∧
      ∀ ops, trace retry (blind prim) (attempt node op).1 (op :: ops) = trace retry (blind prim) node (op :: ops)

section

variable (canonical : Canonical keyNibbles origin) (mayFail : HonestOrFails prim fetcher origin)
  (free : CollisionFree prim (nodes origin))

include canonical mayFail free

theorem answers_of_honestOrFails : Answers prim fetcher (CommitsTo prim origin) where
  nonempty := by
    rintro c full ⟨-, -, long⟩
    exact ne_empty_of_long long
  reveal := by
    rintro c full ⟨within, rfl, long⟩
    obtain ⟨m, short, fullCanonical⟩ := within.canonical canonical
    rcases mayFail full within (.inr long) with fetched | ⟨e, failed⟩
    · exact .inl ⟨shallow prim full, unblind_commitment short fullCanonical (ne_empty_of_long long) within free fetched,
        shallow_reveals canonical fullCanonical within, shallow_not_blinded fullCanonical⟩
    · have list := fullCanonical.isList (ne_empty_of_long long)
      exact .inr ⟨.provider e, by rw [unblind, if_neg (hash_ne_empty free short fullCanonical list within), failed]⟩

theorem unblind_root_cases : unblind prim fetcher (.blinded (prim.keccak256 (encode prim origin))) =
      (shallow prim origin, .ok ()) ∨
    ∃ e, unblind prim fetcher (.blinded (prim.keccak256 (encode prim origin))) =
      (.blinded (prim.keccak256 (encode prim origin)), .error (.error e)) := by
  by_cases empty : origin = .empty
  · subst empty
    left
    simp [unblind, encode, Primitives.emptyRootHash, shallow]
  · rcases mayFail origin .root (.inl rfl) with fetched | ⟨e, failed⟩
    · exact .inl (unblind_commitment (le_refl _) canonical empty .root free fetched)
    · have list := canonical.isList empty
      exact .inr ⟨.provider e, by rw [unblind, if_neg (hash_ne_empty free (le_refl _) canonical list .root), failed]⟩

theorem SeenAs.insert_fails (seen : SeenAs prim origin full node) {path : Nibbles} {value : Bytes} {e : TrieNodeError}
    (failed : (insert prim fetcher fuel node path value).2 = .error (.error e)) :
    SeenAs prim origin full (insert prim fetcher fuel node path value).1 := by
  have answers := answers_of_honestOrFails canonical mayFail free
  rcases seen with reveals | ⟨rfl, rfl⟩
  · exact .inl (TrieNode.insert_fails answers reveals failed)
  · cases fuel with
    | zero => cases failed
    | succ fuel =>
        unfold insert at failed ⊢
        rcases unblind_root_cases canonical mayFail free with unblinds | ⟨e, fails⟩
        · simp only [unblinds] at failed ⊢
          exact .inl (TrieNode.insert_fails answers (shallow_reveals canonical canonical .root) failed)
        · simp only [fails]
          exact .inr ⟨rfl, rfl⟩

theorem SeenAs.delete_fails (seen : SeenAs prim origin full node) (fullCanonical : Canonical keyNibbles full)
    (enough : enoughFuel ≤ fuel) {key : Key} {lastSlot : Nat} {e : TrieNodeError}
    (safe : ¬ Stranded prim fetcher hinter lastSlot node key.1 [])
    (failed : (delete prim fetcher hinter lastSlot fuel node key.1 []).2 = .error (.error e)) :
    SeenAs prim origin full (delete prim fetcher hinter lastSlot fuel node key.1 []).1 := by
  have answers := answers_of_honestOrFails canonical mayFail free
  have fromRevealed : ∀ {node : TrieNode} {fuel : Nat}, Reveals (CommitsTo prim origin) node full →
      2 * keyNibbles + 2 ≤ fuel → ¬ Stranded prim fetcher hinter lastSlot node key.1 [] →
      (delete prim fetcher hinter lastSlot fuel node key.1 []).2 = .error (.error e) →
      Reveals (CommitsTo prim origin) (delete prim fetcher hinter lastSlot fuel node key.1 []).1 full := by
    intro node fuel reveals enough safe failed
    rcases delete_returns answers fullCanonical node key.1 [] lastSlot fuel reveals key.2.1 key.2.2
      (fun _ => by simp) enough safe with (⟨-, full', ok, -⟩ | ⟨-, -, shown⟩) | ⟨-, -, shown⟩
    · rw [ok] at failed
      cases failed
    · exact shown
    · exact shown
  unfold enoughFuel at enough
  rcases seen with reveals | ⟨rfl, rfl⟩
  · exact .inl (fromRevealed reveals (by omega) safe failed)
  · obtain ⟨fuel, rfl⟩ : ∃ k, fuel = k + 1 := ⟨fuel - 1, by omega⟩
    unfold delete at failed ⊢
    rcases unblind_root_cases canonical mayFail free with unblinds | ⟨e, fails⟩
    · simp only [unblinds] at failed ⊢
      exact .inl (fromRevealed (shallow_reveals canonical canonical .root) (by omega)
        (fun stranded => safe (.blinded unblinds stranded)) failed)
    · simp only [fails]
      exact .inr ⟨rfl, rfl⟩

theorem SeenAs.stranded (seen : SeenAs prim origin full node) (fullCanonical : Canonical keyNibbles full)
    (enough : enoughFuel ≤ fuel) {key : Key} {lastSlot : Nat}
    (stranded : Stranded prim fetcher hinter lastSlot node key.1 []) :
    ∃ cut e, delete prim fetcher hinter lastSlot fuel node key.1 [] = (cut, .error (.error e)) ∧ Cut cut key.1 ∧
      ∃ value, Holds full key.1 value := by
  have answers := answers_of_honestOrFails canonical mayFail free
  unfold enoughFuel at enough
  rcases seen with reveals | ⟨rfl, rfl⟩
  · exact stranded.delete answers fullCanonical reveals key.2.1 (by simp) (by omega) fun _ => by omega
  · obtain ⟨fuel, rfl⟩ : ∃ k, fuel = k + 1 := ⟨fuel - 1, by omega⟩
    cases stranded with
    | blinded unblinds inner =>
        rcases unblind_root_cases canonical mayFail free with unblinds' | ⟨e, fails⟩
        · rw [unblinds] at unblinds'
          cases unblinds'
          rw [delete, unblinds]
          exact inner.delete answers fullCanonical (shallow_reveals canonical canonical .root) key.2.1 (by simp)
            (by omega) fun blinded => absurd blinded (shallow_not_blinded canonical)
        · rw [unblinds] at fails
          cases (Prod.mk.inj fails).2

end

variable (hinter) in
/-- A failed insertion is harmless. A failed deletion is harmless unless the failure is in revealing the last child of
the branch from which the leaf has been removed. -/
theorem failed_update_harmless_iff {working : TrieProvider} {workingHinter : TrieHinter}
    (backed : Backed prim working workingHinter origin) (mayFail : HonestOrFails prim fetcher origin)
    (shows : Shows prim origin contents node) (enough : enoughFuel ≤ fuel) :
    (∀ key value, Harmless prim (applyOp prim fetcher hinter fuel) (applyOp prim working workingHinter fuel) node
      (.insert key value)) ∧
    ∀ key lastSlot, Harmless prim (applyOp prim fetcher hinter fuel) (applyOp prim working workingHinter fuel) node
      (.delete key lastSlot) ↔ ¬ Stranded prim fetcher hinter lastSlot node key.1 [] := by
  obtain ⟨full, seen, represents⟩ := shows
  obtain ⟨canonical, honest, hints, free⟩ := backed
  have traces : ∀ {node}, SeenAs prim origin full node → ∀ ops,
      trace (applyOp prim working workingHinter fuel) (blind prim) node ops =
        trace (applyOp prim working workingHinter fuel) (blind prim) full ops :=
    fun seen => Alongside.trace_eq canonical honest hints free enough ⟨seen, _, represents⟩
  have unchanged : ∀ {after}, SeenAs prim origin full after → ∀ op, blind prim after = blind prim node ∧
      ∀ ops, trace (applyOp prim working workingHinter fuel) (blind prim) after (op :: ops) =
        trace (applyOp prim working workingHinter fuel) (blind prim) node (op :: ops) :=
    fun seen' op => ⟨(seen'.blind_eq canonical).trans (seen.blind_eq canonical).symm,
      fun ops => (traces seen' _).trans (traces seen _).symm⟩
  refine ⟨fun key value e failed => ?_, fun key lastSlot => ⟨fun harmless stranded => ?_, fun safe e failed => ?_⟩⟩
  · exact unchanged (seen.insert_fails canonical mayFail free (Answer.updated.inj failed)) _
  · obtain ⟨cut, e, deletes, ends, value, holds⟩ := seen.stranded canonical mayFail free represents.1 enough stranded
    have failed : applyOp prim fetcher hinter fuel node (.delete key lastSlot) = (cut, .updated (.error (.error e))) := by
      simp [applyOp, deletes]
    have again := (harmless e (by rw [failed])).2 []
    have long : key.1.length < fuel := by
      rw [key.2.1]
      unfold enoughFuel at enough
      omega
    have absent : (delete prim working workingHinter lastSlot fuel cut key.1 []).2 = .error (.error .keyNotFound) :=
      ends.delete long lastSlot []
    have present : contents key ≠ none := by
      rw [(represents.2 key value).mp holds]
      simp
    have deleted := (Shows.delete_present ⟨canonical, honest, hints, free⟩ enough ⟨full, seen, represents⟩ present lastSlot).1
    rw [failed] at again
    have answers := congrArg (fun run => run.map Prod.fst) again
    simp [trace, applyOp, absent, deleted] at answers
  · exact unchanged (seen.delete_fails canonical mayFail free represents.1 enough safe (Answer.updated.inj failed)) _

def unavailable : TrieProvider :=
  ⟨fun _ => .error "unavailable", fun _ => .error "unavailable", fun _ => .error "unavailable"⟩

/-- `twoLeaves` with its second leaf blinded. -/
def leftShown : TrieNode := .branch ([.leaf stem one, .blinded leafHash'] ++ List.replicate 15 .empty)

theorem represents_twoLeaves : Represents twoLeaves (lastWritten [.insert leftKey one, .insert rightKey two]) := by
  have built : after (.tabulated digests) noopTrieProvider noopTrieHinter enoughFuel
      [.insert leftKey one, .insert rightKey two] = twoLeaves := rfl
  rw [← built]
  exact after_represents (.tabulated digests) noopTrieProvider noopTrieHinter (le_refl enoughFuel) _

theorem shows_leftShown : Shows (.tabulated digests) twoLeaves (lastWritten [.insert leftKey one, .insert rightKey two])
    leftShown := by
  have reveals : Reveals (HashOf (.tabulated digests)) leftShown twoLeaves := by
    refine .branch rfl fun i => ?_
    match i with
    | 0 => exact .leaf
    | 1 => exact .blinded (by unfold HashOf; decide +kernel)
    | i + 2 =>
        change Reveals _ (slot (List.replicate 15 .empty) i) (slot (List.replicate 15 .empty) i)
        rw [slot_replicate]
        exact .empty
  exact ⟨twoLeaves, Blinding.seenAs (.inner reveals), represents_twoLeaves⟩

theorem backed_twoLeaves : Backed (.tabulated digests) (trieNodeProvider (.tabulated digests) preimages) noopTrieHinter
    twoLeaves where
  canonical := represents_twoLeaves.1
  honest := honest_twoLeaves
  hints _ _ := rfl
  free := collisionFree_twoLeaves

/-- The deletion of the first leaf has removed it when the second one cannot be revealed. -/
theorem failed_delete_harmful : Shows (.tabulated digests) twoLeaves
      (lastWritten [.insert leftKey one, .insert rightKey two]) leftShown ∧
    ¬ Harmless (.tabulated digests) (applyOp (.tabulated digests) unavailable noopTrieHinter enoughFuel)
      (applyOp (.tabulated digests) (trieNodeProvider (.tabulated digests) preimages) noopTrieHinter enoughFuel) leftShown
      (.delete leftKey 0) := by
  refine ⟨shows_leftShown, fun harmless => ?_⟩
  have again := (harmless (.provider "unavailable") (by decide +kernel)).2 []
  exact absurd again (by decide +kernel)

theorem failed_update_harmless_leftShown :
    (∀ key value, Harmless (.tabulated digests) (applyOp (.tabulated digests) unavailable noopTrieHinter enoughFuel)
      (applyOp (.tabulated digests) (trieNodeProvider (.tabulated digests) preimages) noopTrieHinter enoughFuel) leftShown
      (.insert key value)) ∧
    Harmless (.tabulated digests) (applyOp (.tabulated digests) unavailable noopTrieHinter enoughFuel)
      (applyOp (.tabulated digests) (trieNodeProvider (.tabulated digests) preimages) noopTrieHinter enoughFuel) leftShown
      (.delete rightKey 0) := by
  have facts := failed_update_harmless_iff noopTrieHinter backed_twoLeaves
    (fun _ _ _ => .inr ⟨_, rfl⟩ : HonestOrFails (.tabulated digests) unavailable twoLeaves) shows_leftShown
    (le_refl enoughFuel)
  refine ⟨facts.1, (facts.2 rightKey 0).mpr fun stranded => ?_⟩
  have nonempty : leafHash' ≠ (Primitives.tabulated digests).emptyRootHash := by decide +kernel
  have fails : unblind (.tabulated digests) unavailable (.blinded leafHash') =
      (.blinded leafHash', .error (.error (.provider "unavailable"))) := by
    rw [unblind, if_neg nonempty]
    rfl
  have below : ∀ path walked, ¬ Stranded (.tabulated digests) unavailable noopTrieHinter 0 (.blinded leafHash') path walked := by
    intro path walked stranded
    cases stranded with
    | blinded unblinds inner =>
        rw [fails] at unblinds
        cases (Prod.mk.inj unblinds).2
  have path : rightKey.1 = 1 :: stem := rfl
  rw [path, leftShown] at stranded
  cases stranded with
  | here leaf single unrevealed =>
      have shown : slot ([.leaf stem one, .blinded leafHash'] ++ List.replicate 15 .empty) (1 : UInt8).toNat =
          .blinded leafHash' := rfl
      rw [shown, fails] at leaf
      cases (Prod.mk.inj leaf).2
  | branch child => exact below _ _ child

end TrieNode

end KonaSoon.Mpt
