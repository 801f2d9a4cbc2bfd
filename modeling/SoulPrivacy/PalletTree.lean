import SoulPrivacy.AppendTree
import SoulPrivacy.PalletEffect
import SoulPrivacy.RingBuffer

/-!
# The tree of the pallet

The tree of the pallet has the depth it is configured with, and a history of
roots of the size it is configured with. Its loop is the climb of a tree that
leaves are appended to (`foldl_insertStep`), and its roots are kept in a ring.

`TreeHolds` is what the storage has of the tree over some leaves. It is true of
the genesis and each insertion extends it by its leaf, so the pallet keeps the
tree (`keeps_tree`) up to the depth for which the power of two fits.
-/

namespace PrivacyPoolPallet

open AppendTree (Appending climbStep climbTo rootHistory)
open RingBuffer (InMapping scanMapping)

variable {AccountId L : Type} (R : Runtime AccountId L)

/-- `insert_leaf`, `get_latest_root` and `is_known_root`. -/
def treeProgram : AppendTree.Program H256 Error Storage where
  insertLeaf := insertLeaf R
  latestRoot s := some (getLatestRoot s)
  isKnownRoot s root := .ok (isKnownRoot R s root)
  treeFull := .treeFull

/-! ## The loops -/

theorem zeroHash_eq (level : ℕ) :
    zeroHash R level = HashTree.emptyNode R.poseidonHash 0 level := by
  induction level with
  | zero => rfl
  | succ level ih => rw [zeroHash, HashTree.emptyNode, ih]

/-- The state of the loop, as that of the climb. -/
def Climb.toClimb (st : Climb) : AppendTree.Climb H256 :=
  ⟨st.currentIndex, st.currentHash, st.filledSubtrees⟩

theorem toClimb_insertStep (st : Climb) (level : ℕ) :
    climbStep R.poseidonHash 0 st.toClimb level = (insertStep R st level).toClimb := by
  unfold climbStep insertStep Climb.toClimb
  rw [zeroHash_eq]
  dsimp only
  split <;> rfl

/-- **The loop of an insertion is the climb.** -/
theorem foldl_insertStep (index : ℕ) (leaf : H256) (filled : ℕ → H256) (depth : ℕ) :
    ((List.range depth).foldl (insertStep R) ⟨index, leaf, filled⟩).toClimb
      = climbTo R.poseidonHash 0 index leaf filled depth :=
  (List.foldl_hom Climb.toClimb (toClimb_insertStep R)).symm

/-- The loop of the genesis ends with the empty tree. -/
theorem foldl_genesisStep (filled : ℕ → H256) (depth : ℕ) :
    ((List.range depth).foldl (genesisStep R) (filled, 0)).2
      = HashTree.emptyNode R.poseidonHash 0 depth := by
  induction depth with
  | zero => rfl
  | succ depth ih =>
    rw [List.range_succ, List.foldl_append, HashTree.emptyNode, ← ih]
    rfl

theorem genesis_roots : (genesis R).roots
    = Function.update (fun _ => 0) 0 (HashTree.emptyNode R.poseidonHash 0 R.treeDepth) := by
  rw [← foldl_genesisStep R (fun _ => 0)]
  rfl

/-- **The search for a root is a scan** of the ring. -/
theorem searchRoots_eq (roots : ℕ → H256) (historySize : ℕ) (root : H256) (n idx : ℕ) :
    searchRoots roots historySize root n idx
      = scanMapping (· == root) historySize roots n idx := by
  induction n generalizing idx with
  | zero => rfl
  | succ n ih =>
    rw [searchRoots, scanMapping, ih]
    exact if_congr beq_iff_eq.symm rfl rfl

variable {R}

/-- The capacity of a tree that is not too deep. -/
theorem maxLeaves_eq (hdepth : R.treeDepth ≤ 63) : maxLeaves R = 2 ^ R.treeDepth :=
  Nat.mod_eq_of_lt (Nat.pow_lt_pow_right Nat.one_lt_two (Nat.lt_succ_of_le hdepth))

/-! ## The storage over the leaves -/

/-- **The storage holds the tree over some leaves.** -/
structure TreeHolds (R : Runtime AccountId L) (leaves : List H256) (s : Storage) : Prop where
  tree : Appending R.poseidonHash 0 R.treeDepth leaves s.nextLeafIndex s.filledSubtrees
  history : InMapping 0 R.rootHistorySize s.roots s.currentRootIndex
    (rootHistory R.poseidonHash 0 R.treeDepth leaves)

theorem treeHolds_genesis (hsize : 0 < R.rootHistorySize) : TreeHolds R [] (genesis R) where
  tree := Appending.nil _ _ _ _
  history := by
    rw [AppendTree.rootHistory_nil, genesis_roots]
    exact InMapping.init hsize (fun i hi => Function.update_of_ne hi _ _)
      (Function.update_self ..)

/-- **An insertion extends the leaves by one.** -/
theorem TreeHolds.inserted {leaves : List H256} {s : Storage} (h : TreeHolds R leaves s)
    (hroom : leaves.length < 2 ^ R.treeDepth) (leaf : H256) :
    TreeHolds R (leaves ++ [leaf]) (inserted R leaf s) := by
  have hclimb := foldl_insertStep R s.nextLeafIndex leaf s.filledSubtrees R.treeDepth
  constructor
  · have happend := h.tree.append leaf
    rwa [← hclimb] at happend
  · rw [AppendTree.rootHistory_append, ← h.tree.root hroom leaf, ← hclimb]
    exact h.history.push _

/-- The latest root is that of the tree over the leaves. -/
theorem TreeHolds.getLatestRoot_eq {leaves : List H256} {s : Storage}
    (h : TreeHolds R leaves s) :
    getLatestRoot s = HashTree.root R.poseidonHash 0 R.treeDepth leaves := by
  obtain ⟨earlier, heq⟩ :=
    AppendTree.exists_rootHistory_eq R.poseidonHash 0 R.treeDepth leaves
  exact (heq ▸ h.history).getElem

/-- **A root is known when it is one of the last.** -/
theorem TreeHolds.isKnownRoot_iff {leaves : List H256} {s : Storage} (h : TreeHolds R leaves s)
    {root : H256} (hroot : root ≠ 0) :
    isKnownRoot R s root = true ↔ root ∈ (rootHistory R.poseidonHash 0 R.treeDepth leaves).drop
      (leaves.length + 1 - R.rootHistorySize) := by
  unfold isKnownRoot
  rw [if_neg hroot, searchRoots_eq, h.history.scan_iff hroot, AppendTree.length_rootHistory]

/-- **What a storage that holds a tree shows.** -/
theorem TreeHolds.shows {leaves : List H256} {s : Storage} (h : TreeHolds R leaves s)
    (hdepth : R.treeDepth ≤ 63) :
    (treeProgram R).Shows R.poseidonHash 0 R.treeDepth R.rootHistorySize leaves s where
  latestRoot := congrArg some h.getLatestRoot_eq
  full hlen leaf := by
    have hfull : insertLeaf R leaf s = .error .treeFull := by
      unfold insertLeaf
      rw [revertIf_bind_of_pos]
      rw [maxLeaves_eq hdepth, h.tree.nextIndex, hlen]
    exact ⟨hfull, AppendTree.Program.after_of_error hfull⟩
  known root hroot := by
    refine congrArg Except.ok ?_
    rw [← Bool.coe_iff_coe, decide_eq_true_iff]
    exact h.isKnownRoot_iff hroot

/-- **The pallet keeps the tree** of its depth, and as many roots as its
history is long. -/
theorem keeps_tree (hdepth : R.treeDepth ≤ 63) (hsize : 1 ≤ R.rootHistorySize) :
    (treeProgram R).Keeps R.poseidonHash 0 R.treeDepth R.rootHistorySize (fun _ => True)
      (genesis R) := by
  refine AppendTree.Program.keeps_of_relation (TreeHolds R) (treeHolds_genesis hsize)
    (fun {leaves s leaf} h hroom _ => ?_) (fun h => h.shows hdepth)
  refine ⟨s.nextLeafIndex, inserted R leaf s, insertLeaf_eq_ok.mpr ⟨?_, ?_, rfl⟩,
    h.inserted hroom leaf⟩
  · rwa [maxLeaves_eq hdepth, h.tree.nextIndex]
  · exact Nat.ne_of_gt hsize

end PrivacyPoolPallet
