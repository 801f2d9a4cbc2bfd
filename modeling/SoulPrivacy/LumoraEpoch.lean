import SoulPrivacy.LumoraMerkle

/-!
# The epoch circuit

The layers of the circuit are those of the tree over its slots
(`iterate_parents`), so with an exact gadget the new root is the hash of the
previous one and the root of the slots (`epochRoot_sound`). That root is an
inner cell: the public inputs are the two epoch roots, the number of the
epoch and the number of its nullifiers.

The last two are instance cells that meet no other constraint. The number of
nullifiers is what the prover says it is (`epochRoot_any_count`).
-/

namespace Lumora

open Halo2

variable {H : Fp → Fp → Fp}

/-! ## The layers of the tree -/

/-- The parents of a layer, as hashes. -/
def parents (H : Fp → Fp → Fp) (layer : List Fp) : List Fp :=
  (List.range (layer.length / 2)).map fun pairIdx =>
    H (layer.getD (pairIdx * 2) 0) (layer.getD (pairIdx * 2 + 1) 0)

theorem getD_map_range (f : ℕ → Fp) {n i : ℕ} (h : i < n) :
    ((List.range n).map f).getD i 0 = f i := by
  have hlen : i < ((List.range n).map f).length := by
    rw [List.length_map, List.length_range]
    exact h
  rw [List.getD_eq_getElem _ _ hlen, List.getElem_map, List.getElem_range]

/-- **The parents of a layer of nodes are the nodes above.** -/
theorem parents_nodes (leaf : ℕ → Fp) (k m : ℕ) :
    parents H ((List.range (2 * m)).map (HashTree.node H leaf k))
      = (List.range m).map (HashTree.node H leaf (k + 1)) := by
  unfold parents
  rw [List.length_map, List.length_range, Nat.mul_div_cancel_left m (by decide)]
  refine List.map_congr_left fun i hi => ?_
  have hlt := List.mem_range.mp hi
  rw [getD_map_range _ (by omega), getD_map_range _ (by omega), HashTree.node_succ,
    Nat.mul_comm i 2]

theorem iterate_parents (leaf : ℕ → Fp) (depth k : ℕ) :
    (parents H)^[depth] ((List.range (2 ^ depth)).map (HashTree.node H leaf k))
      = [HashTree.node H leaf (k + depth) 0] := by
  induction depth generalizing k with
  | zero => rfl
  | succ depth ih =>
    rw [Function.iterate_succ_apply, pow_succ, Nat.mul_comm, parents_nodes, ih (k + 1),
      Nat.add_right_comm]
    rfl

/-- A list is the row of its padded leaves. -/
theorem eq_map_padded (slots : List Fp) :
    slots = (List.range slots.length).map (HashTree.node H (HashTree.padded 0 slots) 0) := by
  refine List.ext_getElem (by rw [List.length_map, List.length_range]) fun i hi _ => ?_
  rw [List.getElem_map, List.getElem_range]
  exact (List.getD_eq_getElem slots 0 hi).symm

/-- **The last layer is the root of the slots.** -/
theorem iterate_parents_slots {slots : List Fp} (h : slots.length = EPOCH_BATCH_SIZE) :
    (parents H)^[EPOCH_TREE_DEPTH] slots = [HashTree.root H 0 EPOCH_TREE_DEPTH slots] := by
  have hrow := iterate_parents (H := H) (HashTree.padded 0 slots) EPOCH_TREE_DEPTH 0
  rw [show 2 ^ EPOCH_TREE_DEPTH = slots.length from h.symm, ← eq_map_padded,
    Nat.zero_add] at hrow
  exact hrow

/-! ## What the circuit checks -/

/-- **What the epoch circuit checks**, with the instance column. -/
structure EpochCells.Checked (H : Fp → Fp → Fp) (inst : ℕ → Fp) (cells : EpochCells) :
    Prop where
  length : cells.nullifiers.length = EPOCH_BATCH_SIZE
  batchRoot : cells.batchRoot = HashTree.root H 0 EPOCH_TREE_DEPTH cells.nullifiers
  newEpochRoot : cells.newEpochRoot = H cells.prevEpochRoot cells.batchRoot
  inst0 : cells.prevEpochRoot = inst 0
  inst1 : cells.newEpochRoot = inst 1
  inst2 : cells.epochNumber = inst 2
  inst3 : cells.nullifierCount = inst 3

theorem leaves_spec :
    Spec ((List.range EPOCH_BATCH_SIZE).mapM fun _ => assignCell)
      (fun leaves => leaves.length = EPOCH_BATCH_SIZE) := by
  refine (Spec.mapM (fun _ => assignCell_spec) _).congr fun leaves => ?_
  rw [List.forall₂_iff_zip, List.length_range]
  constructor
  · rintro ⟨hlen, -⟩
    exact hlen.symm
  · intro hlen
    exact ⟨hlen.symm, fun _ => trivial⟩

section

variable {hash : Gadget} (hhash : Exact hash H)

include hhash

theorem nextLayer_spec (layer : List Fp) :
    Spec (nextLayer hash layer) (fun next => next = parents H layer) :=
  Spec.mapM_eq (fun pairIdx => hhash (layer.getD (pairIdx * 2) 0)
    (layer.getD (pairIdx * 2 + 1) 0)) _

theorem buildTree_spec (depth : ℕ) (layer : List Fp) :
    Spec (buildTree hash depth layer) (fun top => top = (parents H)^[depth] layer) := by
  induction depth generalizing layer with
  | zero => exact Spec.pure layer
  | succ depth ih =>
    refine ((nextLayer_spec hhash layer).bind fun next => ih next).congr fun top => ?_
    rw [exists_eq_left, Function.iterate_succ_apply]

/-- **The constraints of the epoch circuit.** -/
theorem epochRoot_spec (inst : ℕ → Fp) :
    Spec (epochRoot hash inst) (fun cells => cells.Checked H inst) := by
  refine (leaves_spec.bind fun leaves => (buildTree_spec hhash EPOCH_TREE_DEPTH leaves).bind
    fun layer => (Spec.lift layer.head?).bind fun batchRoot =>
    assignCell_spec.bind fun prevRoot => (hhash prevRoot batchRoot).bind fun newRoot =>
    assignPair_spec.bind fun metadata =>
    (Spec.constrainInstance prevRoot inst 0).bind fun _ =>
    (Spec.constrainInstance newRoot inst 1).bind fun _ =>
    (Spec.constrainInstance metadata.1 inst 2).bind fun _ =>
    (Spec.constrainInstance metadata.2 inst 3).bind fun _ =>
    Spec.pure (⟨leaves, batchRoot, prevRoot, newRoot, metadata.1, metadata.2⟩ :
      EpochCells)).congr fun cells => ?_
  constructor
  · rintro ⟨leaves, hlen, layer, rfl, batchRoot, hbatch, prevRoot, -, newRoot, hnew,
      metadata, -, -, h0, -, h1, -, h2, -, h3, rfl⟩
    rw [iterate_parents_slots hlen, List.head?_cons] at hbatch
    exact ⟨hlen, (Option.some.inj hbatch).symm, hnew, h0, h1, h2, h3⟩
  · intro h
    refine ⟨_, h.length, _, rfl, cells.batchRoot, ?_, _, trivial, _, h.newEpochRoot,
      (cells.epochNumber, cells.nullifierCount), trivial, (), h.inst0, (), h.inst1, (),
      h.inst2, (), h.inst3, rfl⟩
    rw [iterate_parents_slots h.length, List.head?_cons, h.batchRoot]

/-- **The number of nullifiers is not bound**: with another number in its
place the public inputs are accepted as well. -/
theorem epochRoot_any_count {inst : ℕ → Fp} (h : Satisfiable (epochRoot hash inst))
    (count : Fp) : Satisfiable (epochRoot hash (Function.update inst 3 count)) := by
  obtain ⟨cells, hc⟩ := (epochRoot_spec hhash inst).satisfiable_iff.mp h
  exact (epochRoot_spec hhash _).satisfiable_iff.mpr
    ⟨{ cells with nullifierCount := count }, hc.length, hc.batchRoot, hc.newEpochRoot,
      hc.inst0, hc.inst1, hc.inst2, rfl⟩

/-- **The new epoch root is the hash of the previous one and the root of the
slots**, and the number of the epoch is the published one. -/
theorem epochRoot_sound (inst : ℕ → Fp) (regions : List (Region Column Fp))
    (cells : EpochCells) (hs : Satisfies (epochRoot hash inst) regions cells) :
    cells.nullifiers.length = EPOCH_BATCH_SIZE
      ∧ inst 0 = cells.prevEpochRoot
      ∧ inst 1 = H (inst 0) (HashTree.root H 0 EPOCH_TREE_DEPTH cells.nullifiers)
      ∧ inst 2 = cells.epochNumber := by
  have h := (epochRoot_spec hhash inst).of_satisfies hs
  refine ⟨h.length, h.inst0.symm, ?_, h.inst2.symm⟩
  rw [← h.inst1, h.newEpochRoot, h.inst0, h.batchRoot]

end

/-! ## A run of the circuit -/

/-- Slots with one nullifier. -/
def oneSlot : List Fp := 1 :: List.replicate 63 0

/-- Cells for these slots, that state no nullifier. -/
def oneSlotCells : EpochCells where
  nullifiers := oneSlot
  batchRoot := HashTree.root weightedHash 0 EPOCH_TREE_DEPTH oneSlot
  prevEpochRoot := 0
  newEpochRoot := weightedHash 0 (HashTree.root weightedHash 0 EPOCH_TREE_DEPTH oneSlot)
  epochNumber := 0
  nullifierCount := 0

/-- Their public inputs. -/
def oneSlotInst (row : ℕ) : Fp :=
  [oneSlotCells.prevEpochRoot, oneSlotCells.newEpochRoot, oneSlotCells.epochNumber,
    oneSlotCells.nullifierCount].getD row 0

theorem exists_oneSlot : ∃ regions,
    Satisfies (epochRoot (idealHash weightedHash) oneSlotInst) regions oneSlotCells :=
  (epochRoot_spec (idealHash_exact weightedHash) oneSlotInst).exists_satisfies
    ⟨rfl, rfl, rfl, rfl, rfl, rfl, rfl⟩

theorem epochRoot_sound_oneSlot : ∃ regions,
    Satisfies (epochRoot (idealHash weightedHash) oneSlotInst) regions oneSlotCells
      ∧ oneSlotCells.nullifiers.length = EPOCH_BATCH_SIZE
      ∧ oneSlotInst 0 = oneSlotCells.prevEpochRoot
      ∧ oneSlotInst 1 = weightedHash (oneSlotInst 0)
        (HashTree.root weightedHash 0 EPOCH_TREE_DEPTH oneSlotCells.nullifiers)
      ∧ oneSlotInst 2 = oneSlotCells.epochNumber := by
  obtain ⟨regions, hs⟩ := exists_oneSlot
  exact ⟨regions, hs,
    epochRoot_sound (idealHash_exact weightedHash) oneSlotInst regions oneSlotCells hs⟩

/-- **The specification with five public values**: the root of the slots among
them, and the number of the slots that are not zero. -/
structure EpochCells.Specified (H : Fp → Fp → Fp) (inst : ℕ → Fp) (cells : EpochCells) :
    Prop where
  nullifierRoot : ∃ row < 4, inst row = HashTree.root H 0 EPOCH_TREE_DEPTH cells.nullifiers
  cumulativeRoot :
    inst 1 = H (inst 0) (HashTree.root H 0 EPOCH_TREE_DEPTH cells.nullifiers)
  count : inst 3 = ((cells.nullifiers.filter fun slot => slot ≠ 0).length : Fp)
  epochNumber : inst 2 = cells.epochNumber

theorem root_oneSlot : HashTree.root weightedHash 0 EPOCH_TREE_DEPTH oneSlot = 1 := by
  decide +kernel

/-- **A root that is not published**: it is one, and the public inputs of
these slots are zero, two, zero and zero. -/
theorem unpublished_root :
    ¬ ∀ regions cells,
      Satisfies (epochRoot (idealHash weightedHash) oneSlotInst) regions cells →
        cells.Specified weightedHash oneSlotInst := by
  intro h
  obtain ⟨regions, hs⟩ := exists_oneSlot
  obtain ⟨row, hrow, heq⟩ := (h _ _ hs).nullifierRoot
  have hroot : oneSlotInst row = 1 := heq.trans root_oneSlot
  have hnew : oneSlotInst 1 = 2 := by
    show weightedHash 0 (HashTree.root weightedHash 0 EPOCH_TREE_DEPTH oneSlot) = 2
    rw [root_oneSlot]
    decide
  interval_cases row
  · exact absurd hroot (by decide)
  · exact absurd (hnew.symm.trans hroot) (by decide)
  · exact absurd hroot (by decide)
  · exact absurd hroot (by decide)

end Lumora
