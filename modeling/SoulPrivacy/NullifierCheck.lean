import SoulPrivacy.Circuits
import SoulPrivacy.EpochRoots
import SoulPrivacy.FreeHash

/-!
# The inclusion circuit (`circuits/nullifier_check`)

The circuit climbs 32 levels from the nullifier. The tree of an epoch has
as many levels as its list needs, so a nullifier of an epoch can be proved
when that is 32, which takes more than `2^31` nullifiers
(`checkComplete_iff`). In a lower tree a path of 32 would have to reach the
root some other way, and for a hash that is free on the tree there is
none.
-/

namespace Circuit

open Bn254 (Element toField)
open EpochManager (Storage Call Hashes Deployed RegistersOpen registered getEpochRoot)

variable (P : Poseidon)

/-- `main` of the inclusion circuit. -/
def nullifierCheck (epochRoot nullifier : Element) (path : Fin TREE_DEPTH → Element)
    (indices : Fin TREE_DEPTH → BitVec 1) : Except String Unit := do
  let computedRoot := computeMerkleRoot P nullifier path indices
  assert (computedRoot = epochRoot) "Nullifier not in epoch tree"

/-- The leaves of the tree of an epoch, as the circuit has them. -/
def epochLeaf (nullifiers : List Bytes32) (i : ℕ) : Element :=
  toField (HashTree.padded 0 nullifiers i)

/-- **The hash has no collision in the tree of an epoch.** -/
def TreeCollisionFree (nullifiers : List Bytes32) : Prop :=
  HashTree.Separates P.hash2 (· = ·) (HashTree.nodePairs P.hash2 (epochLeaf nullifiers)
    (Nat.clog 2 nullifiers.length) 0)

/-- **Every nullifier of an epoch can be proved in the circuit**, against
the root that a manager with the same hash has stored when it finalized the
epoch. -/
def CheckComplete (nullifiers : List Bytes32) : Prop :=
  ∀ (P : Poseidon) (H : Hashes), H.poseidon = P.onWords → TreeCollisionFree P nullifiers →
    ∀ (s₀ : Storage) (tr : List (Storage × Call)) (s : Storage) (e : ℕ), Deployed s₀ →
      Run (EpochManager.step H) RegistersOpen s₀ tr s → (s.epochs e).finalized = true →
      registered e tr = nullifiers →
      ∀ nullifier ∈ nullifiers, ∃ path indices,
        nullifierCheck P (toField (getEpochRoot s e)) (toField nullifier) path indices
          = .ok ()

variable {P}

/-! ## The tree in the circuit -/

/-- A node of the contracts' tree is one of the circuit's. -/
theorem toField_node (leaf : ℕ → Uint256) (k i : ℕ) :
    toField (HashTree.node P.onWords leaf k i)
      = HashTree.node P.hash2 (fun j => toField (leaf j)) k i := by
  induction k generalizing i with
  | zero => rfl
  | succ k ih =>
    rw [HashTree.node_succ, HashTree.node_succ, Poseidon.onWords, Bn254.toField_ofField, ih,
      ih]

/-- The root a manager has stored. -/
theorem toField_getEpochRoot {H : Hashes} (hhash : H.poseidon = P.onWords) {s₀ s : Storage}
    (hdeployed : Deployed s₀) {tr : List (Storage × Call)}
    (hrun : Run (EpochManager.step H) RegistersOpen s₀ tr s) {e : ℕ}
    (hfin : (s.epochs e).finalized = true) :
    toField (getEpochRoot s e)
      = FreeHash.eval P.hash2 (FreeHash.nodeTerm (epochLeaf (registered e tr))
          (Nat.clog 2 (registered e tr).length) 0) := by
  have hcomplete := EpochManager.complete_of_run hdeployed hrun
  rw [getEpochRoot, hcomplete.roots e hfin, hcomplete.lists e, hhash,
    FreeHash.eval_nodeTerm]
  exact toField_node _ _ _

/-- The nullifiers are leaves. -/
theorem exists_epochLeaf {nullifiers : List Bytes32} {nullifier : Bytes32}
    (hmem : nullifier ∈ nullifiers) :
    FreeHash.AtDepth (.of (toField nullifier)) (Nat.clog 2 nullifiers.length)
      (FreeHash.nodeTerm (epochLeaf nullifiers) (Nat.clog 2 nullifiers.length) 0) := by
  obtain ⟨i, hi, rfl⟩ := List.mem_iff_getElem.mp hmem
  have hfits := hi.trans_le (Nat.le_pow_clog Nat.one_lt_two nullifiers.length)
  have hleaf := FreeHash.atDepth_leaf (epochLeaf nullifiers)
    (Nat.clog 2 nullifiers.length) i
  rwa [Nat.div_eq_of_lt hfits, epochLeaf, HashTree.padded_of_lt 0 hi] at hleaf

/-- **What the circuit accepts**: a path of its depth to the root. -/
theorem nullifierCheck_iff {epochRoot nullifier : Element} :
    (∃ path indices, nullifierCheck P epochRoot nullifier path indices = .ok ()) ↔
      ∃ p : List (Bool × Element), p.length = TREE_DEPTH
        ∧ HashTree.climb P.hash2 p nullifier = epochRoot := by
  unfold nullifierCheck
  simp only [assert_eq_ok, computeMerkleRoot_eq_climb]
  constructor
  · rintro ⟨path, indices, hclimb⟩
    refine ⟨sides path indices, ?_, hclimb⟩
    rw [sides, List.length_map, List.length_finRange]
  · rintro ⟨p, hlen, hclimb⟩
    obtain ⟨path, indices, hsides⟩ := exists_sides_eq hlen
    exact ⟨path, indices, hsides ▸ hclimb⟩

/-! ## Completeness -/

/-- **In a tree of 32 levels, every nullifier can be proved.** -/
theorem checkComplete_of_clog {nullifiers : List Bytes32}
    (hdepth : Nat.clog 2 nullifiers.length = TREE_DEPTH) : CheckComplete nullifiers := by
  rintro P H hhash - s₀ tr s e hdeployed hrun hfin rfl nullifier hmem
  rw [nullifierCheck_iff, toField_getEpochRoot hhash hdeployed hrun hfin, ← hdepth]
  exact FreeHash.exists_climb_of_atDepth P.hash2 (exists_epochLeaf hmem)

/-- **In a tree of another height, none can**, for some hash without a
collision in it. -/
theorem exists_unprovable_tree {nullifiers : List Bytes32}
    (hdepth : Nat.clog 2 nullifiers.length ≠ TREE_DEPTH)
    (hmax : nullifiers.length ≤ 2 ^ 64) :
    ∃ (P : Poseidon) (H : Hashes) (tr : List (Storage × Call)) (s : Storage),
      H.poseidon = P.onWords ∧ TreeCollisionFree P nullifiers
        ∧ Run (EpochManager.step H) RegistersOpen EpochManager.toyManager tr s
        ∧ (s.epochs 0).finalized = true ∧ registered 0 tr = nullifiers
        ∧ ∀ nullifier ∈ nullifiers, ∀ path indices,
          nullifierCheck P (toField (getEpochRoot s 0)) (toField nullifier) path indices
            ≠ .ok () := by
  let t := FreeHash.nodeTerm (epochLeaf nullifiers) (Nat.clog 2 nullifiers.length) 0
  have hcard : 2 * t.length ≤ Nat.card Element := by
    have hle : Nat.clog 2 nullifiers.length ≤ 64 := Nat.clog_le_of_le_pow hmax
    have hlen : t.length ≤ 2 ^ 64 := by
      rw [FreeHash.length_nodeTerm]
      exact Nat.pow_le_pow_right Nat.two_pos hle
    rw [Nat.card_zmod]
    exact (Nat.mul_le_mul_left 2 hlen).trans (by decide)
  -- a hash that keeps apart all that is hashed in the tree
  obtain ⟨hash, garbage, hfree⟩ := FreeHash.exists_freeOn t hcard
  let P : Poseidon := ⟨hash, fun _ _ _ => 0⟩
  let H : Hashes := { EpochManager.toyHashes with poseidon := P.onWords }
  obtain ⟨tr, s, hrun, hfin, hreg⟩ := EpochManager.exists_finalizedEpoch H nullifiers
  refine ⟨P, H, tr, s, rfl, hfree.separates, hrun, hfin, hreg, ?_⟩
  intro nullifier hmem path indices hok
  obtain ⟨p, hlen, hclimb⟩ := nullifierCheck_iff.mp ⟨path, indices, hok⟩
  rw [toField_getEpochRoot (P := P) rfl ⟨1, 0, 10, 7, rfl⟩ hrun hfin, hreg] at hclimb
  -- so a path to the root is as long as its leaf is deep
  have hleaf := exists_epochLeaf hmem
  have hsub : FreeHash.Subterm (.of (toField nullifier)) t := ⟨_, hleaf⟩
  have hat := (hfree.exists_climb_iff hsub (FreeHash.Subterm.refl t) TREE_DEPTH).mp
    ⟨p, hlen, hclimb⟩
  exact hdepth (FreeHash.atDepth_nodeTerm hat).symm

end Circuit
