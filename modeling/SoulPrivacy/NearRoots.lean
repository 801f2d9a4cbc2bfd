import SoulPrivacy.NearEpochs
import SoulPrivacy.RingBuffer

/-!
# The known roots of the NEAR pool

The tree has had as many roots as leaves, and one more. The contract writes them around in
a mapping of a hundred places, which starts out empty but for the root of the empty tree,
and looks for a root backwards from the latest. What it finds are the last hundred roots
(`RootsHold.isKnownRoot_iff`); the text of zeros alone is rejected before it looks.

So a spend made for the latest root finds it known until a hundred more leaves are inserted
(`known_roots_of_run`), and each spend inserts two.
-/

namespace NearPool

open AppendTree (rootHistory)
open RingBuffer (InMapping scanMapping)

variable {AccountId : Type} {keccak256 : Bytes → Bytes32}

/-- The roots a tree over some leaves has had. -/
def treeRoots (keccak256 : Bytes → Bytes32) (leaves : List String) : List String :=
  rootHistory (poseidonHashHex keccak256) ZERO_HASH TREE_DEPTH leaves

/-- **The state keeps the end of the history of its tree.** -/
structure RootsHold (keccak256 : Bytes → Bytes32) (leaves : List String)
    (s : State AccountId) : Prop where
  tree : TreeHolds keccak256 leaves s
  history : InMapping none ROOT_HISTORY_SIZE s.roots s.currentRootIndex
    ((treeRoots keccak256 leaves).map some)

theorem rootsHold_new (governance : AccountId) (domainChainId domainAppId : BitVec 32)
    (blockHeight : ℕ) :
    RootsHold keccak256 [] (new keccak256 governance domainChainId domainAppId blockHeight) where
  tree := treeHolds_new governance domainChainId domainAppId blockHeight
  history := by
    have hholds : TreeHolds keccak256 []
        (new keccak256 governance domainChainId domainAppId blockHeight) := treeHolds_new ..
    have hlatest := hholds.latest
    have hroots : treeRoots keccak256 [] = [treeRoot keccak256 []] := rfl
    rw [hroots, ← hlatest]
    refine InMapping.init (by decide) (fun i hi => ?_) rfl
    unfold new
    dsimp only
    exact Function.update_of_ne hi ..

/-- **An insertion extends the history by its root.** -/
theorem RootsHold.inserted {leaves : List String} {s : State AccountId}
    (h : RootsHold keccak256 leaves s) (hroom : s.nextLeafIndex < 2 ^ TREE_DEPTH)
    (leaf : String) :
    RootsHold keccak256 (leaves ++ [leaf]) (NearPool.inserted keccak256 leaf s) where
  tree := h.tree.inserted hroom leaf
  history := by
    have hlatest := (h.tree.inserted hroom leaf).latest
    have hnew : (NearPool.inserted keccak256 leaf s).roots
        = Function.update s.roots ((s.currentRootIndex + 1) % ROOT_HISTORY_SIZE)
          (some (getLatestRoot (NearPool.inserted keccak256 leaf s))) := by
      unfold getLatestRoot NearPool.inserted
      dsimp only
      rw [Function.update_self, Option.getD_some]
    unfold treeRoots
    rw [AppendTree.rootHistory_append, List.map_append, hnew, hlatest]
    exact h.history.push _

theorem RootsHold.of_eq {leaves : List String} {s s' : State AccountId}
    (h : RootsHold keccak256 leaves s) (hindex : s'.nextLeafIndex = s.nextLeafIndex)
    (hfilled : s'.filledSubtrees = s.filledSubtrees) (hroots : s'.roots = s.roots)
    (hcurrent : s'.currentRootIndex = s.currentRootIndex) : RootsHold keccak256 leaves s' where
  tree := h.tree.of_eq hindex hfilled hroots hcurrent
  history := hroots ▸ hcurrent ▸ h.history

/-- The balance does not matter. -/
theorem RootsHold.withBalance {leaves : List String} {s : State AccountId}
    (h : RootsHold keccak256 leaves s) (balance : BitVec 128) :
    RootsHold keccak256 leaves { s with poolBalance := balance } :=
  h.of_eq rfl rfl rfl rfl

variable [DecidableEq AccountId]

/-- **A step extends the history by the roots of its leaves.** -/
theorem RootsHold.step {leaves : List String} {s s' : State AccountId} {c : Call AccountId}
    (h : RootsHold keccak256 leaves s) (hstep : NearPool.step keccak256 c s = .ok s') :
    RootsHold keccak256 (leaves ++ c.method.inserts) s' := by
  have hsame := h
  rw [← List.append_nil leaves] at hsame
  have hspend : ∀ {proof : String} {c : HexProof.Spend}, Spends keccak256 s proof c →
      RootsHold keccak256 (leaves ++ [c.outputCommitments.1, c.outputCommitments.2])
        (afterSpend keccak256 s c) := by
    intro proof c hspends
    have hspent : RootsHold keccak256 leaves (spentTwo s c.nullifiers) :=
      h.of_eq rfl rfl rfl rfl
    have htwo := (hspent.inserted (Nat.lt_of_succ_lt hspends.room) c.outputCommitments.1).inserted
      hspends.room c.outputCommitments.2
    rwa [List.append_assoc] at htwo
  obtain ⟨promises, heffect⟩ := step_effect hstep
  cases heffect with
  | @deposit _ commitment _ _ room _ =>
    have hrecorded : RootsHold keccak256 leaves (recorded s commitment) :=
      h.of_eq rfl rfl rfl rfl
    exact (hrecorded.inserted room commitment).withBalance _
  | transfer _ spends => exact hspend spends
  | withdraw _ _ _ spends => exact (hspend spends).withBalance _
  | setAuthorizedRelayer _ _ => exact hsame.of_eq rfl rfl rfl rfl
  | finalizeEpoch _ _ => exact hsame.of_eq rfl rfl rfl rfl
  | syncEpochRoot _ _ => exact hsame.of_eq rfl rfl rfl rfl

/-- **Every run keeps the end of the history.** -/
theorem rootsHold_of_run {tr : List (State AccountId × Call AccountId)} {s : State AccountId}
    (h : RunFrom keccak256 tr s) : RootsHold keccak256 (insertedIn tr) s := by
  obtain ⟨governance, domainChainId, domainAppId, blockHeight, hrun⟩ := h
  refine hrun.invariant (I := fun tr s => RootsHold keccak256 (insertedIn tr) s)
    (rootsHold_new governance domainChainId domainAppId blockHeight) ?_
  intro tr s c s' hholds _ hstep
  rw [insertedIn_snoc]
  exact hholds.step hstep

omit [DecidableEq AccountId] in
theorem searchRoots_eq (roots : ℕ → Option String) (root : String) (n idx : ℕ) :
    searchRoots roots root n idx
      = scanMapping (· == some root) ROOT_HISTORY_SIZE roots n idx := by
  induction n generalizing idx with
  | zero => rfl
  | succ n ih =>
    unfold searchRoots scanMapping
    by_cases hfound : roots idx = some root
    · rw [if_pos hfound, if_pos (beq_iff_eq.mpr hfound)]
    · have hmissed : ¬ (roots idx == some root) = true := fun h => hfound (beq_iff_eq.mp h)
      rw [if_neg hfound, if_neg hmissed, ih]

omit [DecidableEq AccountId] in
/-- **A root is known when it is one of the last hundred.** -/
theorem RootsHold.isKnownRoot_iff {leaves : List String} {s : State AccountId}
    (h : RootsHold keccak256 leaves s) (root : String) :
    isKnownRoot s root = true ↔
      root ≠ ZERO_HASH
        ∧ root ∈ (treeRoots keccak256 leaves).drop (leaves.length + 1 - ROOT_HISTORY_SIZE) := by
  unfold isKnownRoot
  by_cases hzero : root = ZERO_HASH
  · rw [if_pos hzero]
    exact iff_of_false Bool.false_ne_true (fun hand => hand.1 hzero)
  · have hscan := h.history.scan_iff (Option.some_ne_none root)
    rw [List.length_map, treeRoots, AppendTree.length_rootHistory, ← List.map_drop,
      List.mem_map_of_injective (Option.some_injective String)] at hscan
    rw [if_neg hzero, searchRoots_eq, hscan]
    exact (and_iff_right hzero).symm

theorem rootsHold_of_runs {s s' : State AccountId}
    {tr tr' : List (State AccountId × Call AccountId)} (h : RunFrom keccak256 tr s)
    (h' : Run (step keccak256) (fun _ _ => True) s tr' s') :
    RootsHold keccak256 (insertedIn tr ++ insertedIn tr') s' := by
  refine h'.invariant (I := fun tr' s' =>
    RootsHold keccak256 (insertedIn tr ++ insertedIn tr') s') ?_ ?_
  · have hholds := rootsHold_of_run h
    rwa [← List.append_nil (insertedIn tr)] at hholds
  · intro tr' s c s' hholds _ hstep
    rw [insertedIn_snoc, ← List.append_assoc]
    exact hholds.step hstep

/-- The root of a prefix is one of the last, if not much came after it. -/
theorem treeRoot_mem_drop (leaves new : List String) (hnew : new.length < ROOT_HISTORY_SIZE) :
    treeRoot keccak256 leaves ∈ (treeRoots keccak256 (leaves ++ new)).drop
      ((leaves ++ new).length + 1 - ROOT_HISTORY_SIZE) := by
  have hlen : (treeRoots keccak256 (leaves ++ new)).length = (leaves ++ new).length + 1 :=
    AppendTree.length_rootHistory ..
  rw [List.length_append] at hlen ⊢
  refine List.mem_drop_iff_getElem.mpr
    ⟨leaves.length - (leaves.length + new.length + 1 - ROOT_HISTORY_SIZE), by omega, ?_⟩
  unfold treeRoots rootHistory
  rw [List.getElem_map, List.getElem_range]
  have hindex : leaves.length + new.length + 1 - ROOT_HISTORY_SIZE
      + (leaves.length - (leaves.length + new.length + 1 - ROOT_HISTORY_SIZE))
      = leaves.length := by omega
  rw [hindex, List.take_left]
  rfl

/-- **The NEAR pool shows the tree over its leaves and knows the last hundred of its
roots.** So a spend that was made for the latest root finds it known until a hundred more
leaves are inserted. -/
theorem known_roots_of_run {tr tr' : List (State AccountId × Call AccountId)}
    {s s' : State AccountId} (h : RunFrom keccak256 tr s)
    (h' : Run (step keccak256) (fun _ _ => True) s tr' s') :
    getLatestRoot s = treeRoot keccak256 (insertedIn tr)
      ∧ (∀ root, isKnownRoot s root = true ↔
        root ≠ ZERO_HASH
          ∧ root ∈ (treeRoots keccak256 (insertedIn tr)).drop
            ((insertedIn tr).length + 1 - ROOT_HISTORY_SIZE))
      ∧ (getLatestRoot s ≠ ZERO_HASH → (insertedIn tr').length < ROOT_HISTORY_SIZE →
        isKnownRoot s' (getLatestRoot s) = true) := by
  have hholds := rootsHold_of_run h
  refine ⟨hholds.tree.latest, hholds.isKnownRoot_iff, fun hzero hnew => ?_⟩
  refine ((rootsHold_of_runs h h').isKnownRoot_iff _).mpr ⟨hzero, ?_⟩
  rw [hholds.tree.latest]
  exact treeRoot_mem_drop (insertedIn tr) (insertedIn tr') hnew

/-- One leaf, and the epoch closed after it. -/
theorem known_roots_of_leaf :
    ∃ s s' : State String, s'.currentEpochId = 1
      ∧ getLatestRoot s = treeRoot hostKeccak256 ["ab"]
      ∧ (getLatestRoot s ≠ ZERO_HASH → isKnownRoot s' (getLatestRoot s) = true) := by
  obtain ⟨s, s', hstep, hstep', hcurrent⟩ : ∃ s s' : State String,
      step hostKeccak256 ⟨⟨"alice", 5, 8⟩, .deposit "ab"⟩ govPool = .ok s
        ∧ step hostKeccak256 ⟨⟨"gov", 0, 9⟩, .finalizeEpoch⟩ s = .ok s'
        ∧ s'.currentEpochId = 1 :=
    ⟨_, _, rfl, step_finalizeEpoch_eq_ok.mpr ⟨rfl, rfl, _, rfl, rfl, rfl⟩, rfl⟩
  have hrun : RunFrom hostKeccak256 _ s := ⟨"gov", 1313, 1, 7, Run.nil.snoc trivial hstep⟩
  have hrun' : Run (step hostKeccak256) (fun _ _ => True) s _ s' := Run.nil.snoc trivial hstep'
  obtain ⟨hlatest, -, hknown⟩ := known_roots_of_run hrun hrun'
  exact ⟨s, s', hcurrent, hlatest, fun hzero => hknown hzero (Nat.zero_lt_succ 99)⟩

end NearPool
