import SoulPrivacy.LumoraSpec
import SoulPrivacy.HashTree

/-!
# Merkle membership in the coprocessor's circuits

At each level of a path both circuits compute the hash of the running node
and the sibling in either order, and then assign the selected one to a cell
of a region of its own. The comment beside it gives the selection as a
formula in the path bit, but no gate is enabled in that region and nothing is
copied to it. The next level starts from whatever the cell holds.

With a gadget that computes a hash exactly, the circuits are therefore
satisfied by any path of any leaf, up to any root: what is left of the
statement is an opening of the public nullifiers and commitments
(`TransferWitness.Opens`, `WithdrawWitness.Opens`), in which the root does not
occur. Membership holds of all satisfying assignments only where there are
none.
-/

namespace Lumora

open Halo2

variable (H : Fp → Fp → Fp)

/-- A hash as a relation. -/
def graph : HashRel := fun left right out => out = H left right

/-- The commitment of a note. -/
def noteCommitment (note : Note) : Fp := H (H note.secret note.nonce) note.value

/-- The nullifier of a note under a domain. -/
def noteNullifier (note : Note) (chainId appId : Fp) : Fp :=
  H (H note.secret (noteCommitment H note)) (H chainId appId)

variable {H}

theorem commits_graph {note : Note} {cm : Fp} :
    Commits (graph H) note cm ↔ cm = noteCommitment H note := by
  constructor
  · rintro ⟨inner, rfl, rfl⟩
    rfl
  · rintro rfl
    exact ⟨_, rfl, rfl⟩

theorem nullifies_graph {secret cm domainHash nul : Fp} :
    Nullifies (graph H) secret cm domainHash nul ↔ nul = H (H secret cm) domainHash := by
  constructor
  · rintro ⟨inner, rfl, rfl⟩
    rfl
  · rintro rfl
    exact ⟨_, rfl, rfl⟩

/-! ## The statement -/

/-- The side and the sibling of a level. -/
def MerkleLevel.step (level : MerkleLevel) : Bool × Fp :=
  (decide (level.pathBit = 1), level.pathElem)

variable (H)

/-- **The next node is the hash in the order of a boolean path bit.** -/
def MerkleLevel.Follows (current : Fp) (level : MerkleLevel) : Prop :=
  level.pathBit = 0 ∧ level.selected = H current level.pathElem
    ∨ level.pathBit = 1 ∧ level.selected = H level.pathElem current

/-- Each level of a path follows from the one below it. -/
def FollowsPath : Fp → List MerkleLevel → Prop
  | _, [] => True
  | current, level :: levels => level.Follows H current ∧ FollowsPath level.selected levels

/-- **Membership of a leaf**, along a path: its levels follow, and the root is
the one computed from the leaf. -/
structure Membership (leaf : Fp) (levels : List MerkleLevel) (root : Fp) : Prop where
  follows : FollowsPath H leaf levels
  root_eq : root = HashTree.climb H (levels.map MerkleLevel.step) leaf

/-- **Membership in the transfer circuit**: both inputs are under the public
root, in every satisfying assignment. -/
def TransferMembership (hash : Gadget) (inst : ℕ → Fp) : Prop :=
  ∀ regions cells, Satisfies (transfer hash inst) regions cells →
    Membership H cells.inCommitment0 cells.path0 (inst 0)
      ∧ Membership H cells.inCommitment1 cells.path1 (inst 0)

/-- **Membership in the withdraw circuit.** -/
def WithdrawMembership (hash : Gadget) (inst : ℕ → Fp) : Prop :=
  ∀ regions cells, Satisfies (withdraw hash inst) regions cells →
    Membership H cells.commitment cells.path (inst 0)

variable {H}

theorem MerkleLevel.Follows.selected_eq {current : Fp} {level : MerkleLevel}
    (h : level.Follows H current) :
    level.selected = HashTree.combine H level.step.1 level.step.2 current := by
  rcases h with ⟨hbit, hsel⟩ | ⟨hbit, hsel⟩
  · have hleft : level.step.1 = false := by
      show decide (level.pathBit = 1) = false
      rw [hbit]
      exact decide_eq_false zero_ne_one
    rw [hsel, hleft]
    rfl
  · have hright : level.step.1 = true := decide_eq_true hbit
    rw [hsel, hright]
    rfl

/-- **The selection as the comment has it**:
`result = bit * hash_rl + (1-bit) * hash_lr`. -/
def MerkleLevel.Selects (level : MerkleLevel) : Prop :=
  level.selected = level.pathBit * level.hashRl + (1 - level.pathBit) * level.hashLr

theorem MerkleLevel.Checked.follows {current : Fp} {level : MerkleLevel}
    (h : level.Checked (graph H) current) (hsel : level.Selects) : level.Follows H current := by
  have hlr : level.hashLr = H current level.pathElem := h.lr
  have hrl : level.hashRl = H level.pathElem current := h.rl
  rcases h.pathBit with hbit | hbit
  · refine Or.inl ⟨hbit, ?_⟩
    rw [hsel, hbit, zero_mul, zero_add, sub_zero, one_mul, hlr]
  · refine Or.inr ⟨hbit, ?_⟩
    rw [hsel, hbit, one_mul, sub_self, zero_mul, add_zero, hrl]

/-- **The missing gate is all that is missing**: a path that the circuits
check, with the selection of the comment at each level, is one of the
leaf. -/
theorem PathChecked.membership {depth : ℕ} {leaf root : Fp} {levels : List MerkleLevel}
    (h : PathChecked (graph H) depth leaf levels root)
    (hsel : ∀ level ∈ levels, level.Selects) : Membership H leaf levels root := by
  induction h with
  | nil => exact ⟨trivial, rfl⟩
  | cons hlevel _ ih =>
    obtain ⟨hhead, htail⟩ := List.forall_mem_cons.mp hsel
    have hfollows := hlevel.follows hhead
    have hrest := ih htail
    refine ⟨⟨hfollows, hrest.follows⟩, ?_⟩
    rw [hrest.root_eq, hfollows.selected_eq]
    rfl

/-! ## Forged paths -/

variable (H)

/-- A level with both hashes as they are, and any cell selected. -/
def skippedLevel (current selected : Fp) : MerkleLevel :=
  ⟨0, 0, H current 0, H 0 current, selected⟩

/-- A path of any leaf to any root. -/
def forgedPath : ℕ → Fp → Fp → List MerkleLevel
  | 0, _, _ => []
  | depth + 1, current, root => skippedLevel H current root :: forgedPath depth root root

/-- A path of any leaf to any root whose first level selects neither hash. -/
def strayPath (depth : ℕ) (leaf root : Fp) : List MerkleLevel :=
  skippedLevel H leaf (H leaf 0 + 1) :: forgedPath H depth (H leaf 0 + 1) root

variable {H}

theorem skippedLevel_checked (current selected : Fp) :
    (skippedLevel H current selected).Checked (graph H) current :=
  ⟨zero_mul _, rfl, rfl⟩

theorem forgedPath_checked (depth : ℕ) (leaf root : Fp) :
    PathChecked (graph H) (depth + 1) leaf (forgedPath H (depth + 1) leaf root) root := by
  induction depth generalizing leaf with
  | zero => exact PathChecked.cons (skippedLevel_checked leaf root) PathChecked.nil
  | succ depth ih => exact PathChecked.cons (skippedLevel_checked leaf root) (ih root)

theorem strayPath_checked (depth : ℕ) (leaf root : Fp) :
    PathChecked (graph H) (depth + 2) leaf (strayPath H (depth + 1) leaf root) root :=
  PathChecked.cons (skippedLevel_checked leaf _) (forgedPath_checked depth _ root)

theorem not_followsPath_strayPath (depth : ℕ) (leaf root : Fp) :
    ¬ FollowsPath H leaf (strayPath H depth leaf root) := by
  rintro ⟨⟨-, hsel⟩ | ⟨hbit, -⟩, -⟩
  · have hself : H leaf 0 + 1 = H leaf 0 := hsel
    exact one_ne_zero (add_eq_left.mp hself)
  · exact zero_ne_one hbit

/-! ## Openings -/

/-- What the private inputs of a transfer are, less the paths. -/
structure TransferWitness where
  in0 : Note
  in1 : Note
  out0 : Note
  out1 : Note
  chainId : Fp
  appId : Fp

/-- **The public inputs are opened**: rows one to four of the instance
column. -/
structure TransferWitness.Opens (H : Fp → Fp → Fp) (inst : ℕ → Fp) (w : TransferWitness) :
    Prop where
  conserved : w.in0.value + w.in1.value = w.out0.value + w.out1.value
  nullifier0 : noteNullifier H w.in0 w.chainId w.appId = inst 1
  nullifier1 : noteNullifier H w.in1 w.chainId w.appId = inst 2
  outCommitment0 : noteCommitment H w.out0 = inst 3
  outCommitment1 : noteCommitment H w.out1 = inst 4

/-- What the private inputs of a withdrawal are, less the path. -/
structure WithdrawWitness where
  input : Note
  change : Note
  chainId : Fp
  appId : Fp

/-- **The public inputs are opened**: rows one to three of the instance
column. -/
structure WithdrawWitness.Opens (H : Fp → Fp → Fp) (inst : ℕ → Fp) (w : WithdrawWitness) :
    Prop where
  split : w.input.value = inst 2 + w.change.value
  nullifier : noteNullifier H w.input w.chainId w.appId = inst 1
  changeCommitment : noteCommitment H w.change = inst 3

/-- The cells of an opening and two paths. -/
def TransferWitness.cells (H : Fp → Fp → Fp) (inst : ℕ → Fp) (w : TransferWitness)
    (path0 path1 : List MerkleLevel) : TransferCells where
  in0 := w.in0
  inCommitment0 := noteCommitment H w.in0
  in1 := w.in1
  inCommitment1 := noteCommitment H w.in1
  out0 := w.out0
  outCommitment0 := noteCommitment H w.out0
  out1 := w.out1
  outCommitment1 := noteCommitment H w.out1
  chainId := w.chainId
  appId := w.appId
  domainHash := H w.chainId w.appId
  nullifier0 := noteNullifier H w.in0 w.chainId w.appId
  nullifier1 := noteNullifier H w.in1 w.chainId w.appId
  path0 := path0
  merkleRoot0 := inst 0
  path1 := path1
  merkleRoot1 := inst 0

/-- The cells of an opening and a path. -/
def WithdrawWitness.cells (H : Fp → Fp → Fp) (inst : ℕ → Fp) (w : WithdrawWitness)
    (path : List MerkleLevel) : WithdrawCells where
  input := w.input
  commitment := noteCommitment H w.input
  withdraw := inst 2
  chainId := w.chainId
  appId := w.appId
  domainHash := H w.chainId w.appId
  nullifier := noteNullifier H w.input w.chainId w.appId
  change := w.change
  changeCommitment := noteCommitment H w.change
  path := path
  merkleRoot := inst 0

/-- **An opening is satisfied with any paths to the root.** -/
theorem TransferWitness.Opens.checked {inst : ℕ → Fp} {w : TransferWitness}
    (h : w.Opens H inst) {path0 path1 : List MerkleLevel}
    (hpath0 : PathChecked (graph H) TREE_DEPTH (noteCommitment H w.in0) path0 (inst 0))
    (hpath1 : PathChecked (graph H) TREE_DEPTH (noteCommitment H w.in1) path1 (inst 0)) :
    (w.cells H inst path0 path1).Checked (graph H) inst where
  inCommitment0 := commits_graph.mpr rfl
  inCommitment1 := commits_graph.mpr rfl
  outCommitment0 := commits_graph.mpr rfl
  conserved := h.conserved
  outCommitment1 := commits_graph.mpr rfl
  domain := rfl
  nullifier0 := nullifies_graph.mpr rfl
  nullifier1 := nullifies_graph.mpr rfl
  path0 := hpath0
  path1 := hpath1
  inst0 := rfl
  inst0' := rfl
  inst1 := h.nullifier0
  inst2 := h.nullifier1
  inst3 := h.outCommitment0
  inst4 := h.outCommitment1

theorem WithdrawWitness.Opens.checked {inst : ℕ → Fp} {w : WithdrawWitness}
    (h : w.Opens H inst) {path : List MerkleLevel}
    (hpath : PathChecked (graph H) TREE_DEPTH (noteCommitment H w.input) path (inst 0)) :
    (w.cells H inst path).Checked (graph H) inst where
  commitment := commits_graph.mpr rfl
  split := h.split
  domain := rfl
  nullifier := nullifies_graph.mpr rfl
  changeCommitment := commits_graph.mpr rfl
  path := hpath
  inst0 := rfl
  inst1 := h.nullifier
  inst2 := rfl
  inst3 := h.changeCommitment

theorem TransferCells.Checked.exists_opens {inst : ℕ → Fp} {cells : TransferCells}
    (h : cells.Checked (graph H) inst) : ∃ w : TransferWitness, w.Opens H inst := by
  have hcm0 := commits_graph.mp h.inCommitment0
  have hcm1 := commits_graph.mp h.inCommitment1
  have hdomain : cells.domainHash = H cells.chainId cells.appId := h.domain
  refine ⟨⟨cells.in0, cells.in1, cells.out0, cells.out1, cells.chainId, cells.appId⟩,
    h.conserved, ?_, ?_, ?_, ?_⟩
  · rw [← h.inst1, nullifies_graph.mp h.nullifier0, hcm0, hdomain]
    rfl
  · rw [← h.inst2, nullifies_graph.mp h.nullifier1, hcm1, hdomain]
    rfl
  · rw [← h.inst3, commits_graph.mp h.outCommitment0]
  · rw [← h.inst4, commits_graph.mp h.outCommitment1]

theorem WithdrawCells.Checked.exists_opens {inst : ℕ → Fp} {cells : WithdrawCells}
    (h : cells.Checked (graph H) inst) : ∃ w : WithdrawWitness, w.Opens H inst := by
  have hcm := commits_graph.mp h.commitment
  have hdomain : cells.domainHash = H cells.chainId cells.appId := h.domain
  refine ⟨⟨cells.input, cells.change, cells.chainId, cells.appId⟩, ?_, ?_, ?_⟩
  · rw [← h.inst2]
    exact h.split
  · rw [← h.inst1, nullifies_graph.mp h.nullifier, hcm, hdomain]
    rfl
  · rw [← h.inst3, commits_graph.mp h.changeCommitment]

/-! ## Soundness -/

section

variable {hash : Gadget} (hhash : Exact hash H)

include hhash

/-- **All that the transfer circuit proves**: no leaf is under the root. -/
theorem transfer_satisfiable_iff (inst : ℕ → Fp) :
    Satisfiable (transfer hash inst) ↔ ∃ w : TransferWitness, w.Opens H inst := by
  rw [(transfer_spec (R := graph H) hhash inst).satisfiable_iff]
  constructor
  · rintro ⟨cells, h⟩
    exact h.exists_opens
  · rintro ⟨w, h⟩
    exact ⟨_, h.checked (forgedPath_checked _ _ _) (forgedPath_checked _ _ _)⟩

/-- **All that the withdraw circuit proves.** -/
theorem withdraw_satisfiable_iff (inst : ℕ → Fp) :
    Satisfiable (withdraw hash inst) ↔ ∃ w : WithdrawWitness, w.Opens H inst := by
  rw [(withdraw_spec (R := graph H) hhash inst).satisfiable_iff]
  constructor
  · rintro ⟨cells, h⟩
    exact h.exists_opens
  · rintro ⟨w, h⟩
    exact ⟨_, h.checked (forgedPath_checked _ _ _)⟩

/-- **The root is not bound**: with another root in its place the public
inputs are accepted as well. -/
theorem transfer_any_root {inst : ℕ → Fp} (h : Satisfiable (transfer hash inst)) (root : Fp) :
    Satisfiable (transfer hash (Function.update inst 0 root)) := by
  obtain ⟨w, hw⟩ := (transfer_satisfiable_iff hhash inst).mp h
  exact (transfer_satisfiable_iff hhash _).mpr
    ⟨w, hw.conserved, hw.nullifier0, hw.nullifier1, hw.outCommitment0, hw.outCommitment1⟩

theorem withdraw_any_root {inst : ℕ → Fp} (h : Satisfiable (withdraw hash inst)) (root : Fp) :
    Satisfiable (withdraw hash (Function.update inst 0 root)) := by
  obtain ⟨w, hw⟩ := (withdraw_satisfiable_iff hhash inst).mp h
  exact (withdraw_satisfiable_iff hhash _).mpr
    ⟨w, hw.split, hw.nullifier, hw.changeCommitment⟩

theorem not_transferMembership {inst : ℕ → Fp} {w : TransferWitness} (h : w.Opens H inst) :
    ¬ TransferMembership H hash inst := by
  intro hmember
  -- the second input may well be where it says; the first strays at once
  obtain ⟨regions, hs⟩ := (transfer_spec (R := graph H) hhash inst).exists_satisfies
    (h.checked (strayPath_checked 30 _ _) (forgedPath_checked 31 _ _))
  exact not_followsPath_strayPath 31 _ _ (hmember _ _ hs).1.follows

theorem not_withdrawMembership {inst : ℕ → Fp} {w : WithdrawWitness} (h : w.Opens H inst) :
    ¬ WithdrawMembership H hash inst := by
  intro hmember
  obtain ⟨regions, hs⟩ := (withdraw_spec (R := graph H) hhash inst).exists_satisfies
    (h.checked (strayPath_checked 30 _ _))
  exact not_followsPath_strayPath 31 _ _ (hmember _ _ hs).follows

/-- **Membership holds only of public inputs without an opening**, and those
no assignment satisfies. -/
theorem membership_iff_no_opening (inst : ℕ → Fp) :
    (TransferMembership H hash inst ↔ ¬ ∃ w : TransferWitness, w.Opens H inst)
      ∧ (WithdrawMembership H hash inst ↔ ¬ ∃ w : WithdrawWitness, w.Opens H inst) := by
  refine ⟨⟨?_, ?_⟩, ⟨?_, ?_⟩⟩
  · rintro hmember ⟨w, hw⟩
    exact not_transferMembership hhash hw hmember
  · intro hnone regions cells hs
    exact absurd ((transfer_satisfiable_iff hhash inst).mp ⟨regions, cells, hs⟩) hnone
  · rintro hmember ⟨w, hw⟩
    exact not_withdrawMembership hhash hw hmember
  · intro hnone regions cells hs
    exact absurd ((withdraw_satisfiable_iff hhash inst).mp ⟨regions, cells, hs⟩) hnone

end

/-- A hash that tells its inputs apart. -/
def weightedHash (left right : Fp) : Fp := left + 2 * right

theorem membership_iff_no_opening_weighted :
    (TransferMembership weightedHash (idealHash weightedHash) (fun row => (row : Fp))
        ↔ ¬ ∃ w : TransferWitness, w.Opens weightedHash (fun row => (row : Fp)))
      ∧ (WithdrawMembership weightedHash (idealHash weightedHash) (fun row => (row : Fp))
        ↔ ¬ ∃ w : WithdrawWitness, w.Opens weightedHash (fun row => (row : Fp))) :=
  membership_iff_no_opening (idealHash_exact weightedHash) _

/-- The public inputs of empty notes under the root one. Their root is
zero. -/
def emptyNotes (row : ℕ) : Fp := if row = 0 then 1 else 0

/-- **A forged root**: empty notes under it, in both circuits. -/
theorem forged_root :
    ¬ TransferMembership weightedHash (idealHash weightedHash) emptyNotes
      ∧ ¬ WithdrawMembership weightedHash (idealHash weightedHash) emptyNotes := by
  have hcm : noteCommitment weightedHash ⟨0, 0, 0⟩ = 0 := by decide
  have hnul : noteNullifier weightedHash ⟨0, 0, 0⟩ 0 0 = 0 := by decide
  constructor
  · exact not_transferMembership (w := ⟨⟨0, 0, 0⟩, ⟨0, 0, 0⟩, ⟨0, 0, 0⟩, ⟨0, 0, 0⟩, 0, 0⟩)
      (idealHash_exact weightedHash) ⟨rfl, hnul, hnul, hcm, hcm⟩
  · exact not_withdrawMembership (w := ⟨⟨0, 0, 0⟩, ⟨0, 0, 0⟩, 0, 0⟩)
      (idealHash_exact weightedHash) ⟨(add_zero 0).symm, hnul, hcm⟩

end Lumora
