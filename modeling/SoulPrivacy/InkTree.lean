import SoulPrivacy.InkEffect
import SoulPrivacy.SparseTree

/-!
# The tree of the ink! pool

The pool keeps all nodes of its tree in a table and reads a node that was never
written as `ZERO_VALUE`, whatever its height. So its root is that of a tree that
leaves out what is empty (`TreeHolds.root`), and not the one the other pools
compute, where an empty subtree is hashed from empty leaves. The two are the same
exactly when no more than one of the 2^32 leaves is missing
(`currentRoot_eq_root_iff`).
-/

namespace InkPool

open HashTree (nodePairs padded Separates)
open SparseTree (sparseNode sparsePairs)

variable {keccak256 : Bytes → Bytes32} {build : Build}

/-! ## What the table holds -/

/-- **The table over some leaves**: the nodes with a leaf below them. -/
def stored (keccak256 : Bytes → Bytes32) (ls : List Bytes32) (p : ℕ × ℕ) : Option Bytes32 :=
  if p.1 ≤ TREE_DEPTH ∧ p.2 * 2 ^ p.1 < ls.length then
    some (sparseNode (poseidonHash keccak256) ZERO_VALUE ls p.1 p.2)
  else none

/-- A node that is looked up. -/
theorem getD_stored (ls : List Bytes32) {k : ℕ} (hk : k ≤ TREE_DEPTH) (i : ℕ) :
    (stored keccak256 ls (k, i)).getD ZERO_VALUE
      = sparseNode (poseidonHash keccak256) ZERO_VALUE ls k i := by
  unfold stored
  by_cases hlt : i * 2 ^ k < ls.length
  · rw [if_pos ⟨hk, hlt⟩, Option.getD_some]
  · rw [if_neg (fun h => hlt h.2), Option.getD_none, SparseTree.sparseNode_of_le (not_lt.mp hlt)]

/-- A new leaf changes its ancestors only, … -/
theorem stored_append (ls : List Bytes32) (cm : Bytes32) {p : ℕ × ℕ}
    (hp : p.2 ≠ ls.length / 2 ^ p.1) :
    stored keccak256 (ls ++ [cm]) p = stored keccak256 ls p := by
  unfold stored
  rw [List.length_append, List.length_singleton, SparseTree.sparseNode_append ls cm p.1 p.2 hp]
  exact if_congr (and_congr_right (fun _ => SparseTree.lt_append_iff hp)) rfl rfl

/-- … which are there then. -/
theorem stored_ancestor (ls : List Bytes32) (cm : Bytes32) {k : ℕ} (hk : k ≤ TREE_DEPTH) :
    stored keccak256 (ls ++ [cm]) (k, ls.length / 2 ^ k)
      = some (sparseNode (poseidonHash keccak256) ZERO_VALUE (ls ++ [cm]) k
        (ls.length / 2 ^ k)) :=
  if_pos ⟨hk, SparseTree.ancestor_lt ls cm k⟩

/-! ## The loop -/

/-- **What the loop of `update_tree` has done below some height**, on the way up
from a new leaf. -/
structure Climbed (keccak256 : Bytes → Bytes32) (ls : List Bytes32) (cm : Bytes32) (k : ℕ)
    (st : Climb) : Prop where
  index : st.index = ls.length / 2 ^ k
  hash : st.currentHash = sparseNode (poseidonHash keccak256) ZERO_VALUE (ls ++ [cm]) k
    (ls.length / 2 ^ k)
  done : ∀ p : ℕ × ℕ, p.1 ≤ k → st.nodes p = stored keccak256 (ls ++ [cm]) p
  rest : ∀ p : ℕ × ℕ, k < p.1 → st.nodes p = stored keccak256 ls p

/-- At first only the leaf is written. -/
theorem climbed_zero {ls : List Bytes32} {nodes : ℕ × ℕ → Option Bytes32} (cm : Bytes32)
    (h : ∀ p, nodes p = stored keccak256 ls p) :
    Climbed keccak256 ls cm 0
      ⟨cm, ls.length, Function.update nodes (0, ls.length) (some cm)⟩ := by
  have hleaf : sparseNode (poseidonHash keccak256) ZERO_VALUE (ls ++ [cm]) 0 ls.length = cm := by
    show padded ZERO_VALUE (ls ++ [cm]) ls.length = cm
    rw [HashTree.padded_of_lt ZERO_VALUE (by simp), List.getElem_concat_length rfl]
  have hdiv : ls.length / 2 ^ 0 = ls.length := Nat.div_one _
  refine ⟨hdiv.symm, by rw [hdiv, hleaf], fun p hp => ?_, fun p hp => ?_⟩
  · obtain ⟨j, i⟩ := p
    obtain rfl : j = 0 := Nat.le_zero.mp hp
    have hstored : stored keccak256 (ls ++ [cm]) (0, ls.length / 2 ^ 0) = _ :=
      stored_ancestor ls cm (Nat.zero_le TREE_DEPTH)
    rw [hdiv, hleaf] at hstored
    show Function.update nodes (0, ls.length) (some cm) (0, i) = _
    by_cases hi : i = ls.length
    · rw [hi, Function.update_self, hstored]
    · rw [Function.update_of_ne (fun heq => hi (congrArg Prod.snd heq)), h,
        stored_append ls cm (hdiv.symm ▸ hi)]
  · show Function.update nodes (0, ls.length) (some cm) p = _
    rw [Function.update_of_ne (fun heq => Nat.ne_of_gt hp (congrArg Prod.fst heq)), h]

/-- **One level up.** -/
theorem Climbed.step {ls : List Bytes32} {cm : Bytes32} {k : ℕ} {st : Climb}
    (h : Climbed keccak256 ls cm k st) (hk : k < TREE_DEPTH) :
    Climbed keccak256 ls cm (k + 1) (updateStep keccak256 st k) := by
  have hdiv : ls.length / 2 ^ (k + 1) = ls.length / 2 ^ k / 2 := by
    rw [pow_succ, ← Nat.div_div_eq_div_mul]
  -- a sibling is not an ancestor of the new leaf, so it is as it was
  have hsibling : ∀ i, i ≠ ls.length / 2 ^ k → (st.nodes (k, i)).getD ZERO_VALUE
      = sparseNode (poseidonHash keccak256) ZERO_VALUE ls k i := by
    intro i hi
    rw [h.done (k, i) le_rfl, getD_stored _ hk.le, SparseTree.sparseNode_append ls cm k i hi]
  have hhash : (updateStep keccak256 st k).currentHash
      = sparseNode (poseidonHash keccak256) ZERO_VALUE (ls ++ [cm]) (k + 1)
        (ls.length / 2 ^ k / 2) := by
    unfold updateStep
    dsimp only
    rw [h.index, h.hash]
    by_cases heven : ls.length / 2 ^ k % 2 = 0
    · rw [if_pos heven, hsibling _ (Nat.succ_ne_self _), SparseTree.sparseNode_ancestor_even _ _
        heven]
    · have hne : ls.length / 2 ^ k - 1 ≠ ls.length / 2 ^ k := by
        generalize ls.length / 2 ^ k = m at heven
        omega
      rw [if_neg heven, hsibling _ hne, SparseTree.sparseNode_ancestor_odd _ _ heven]
  have hnodes : (updateStep keccak256 st k).nodes = Function.update st.nodes
      (k + 1, ls.length / 2 ^ k / 2) (some (updateStep keccak256 st k).currentHash) := by
    unfold updateStep
    dsimp only
    rw [h.index]
  refine ⟨?_, by rw [hhash, hdiv], fun p hp => ?_, fun p hp => ?_⟩
  · rw [hdiv, ← h.index]
    rfl
  · rw [hnodes, hhash, ← hdiv]
    obtain ⟨j, i⟩ := p
    by_cases hj : j = k + 1
    · obtain rfl := hj
      by_cases hi : i = ls.length / 2 ^ (k + 1)
      · rw [hi, Function.update_self, stored_ancestor ls cm hk]
      · rw [Function.update_of_ne (fun heq => hi (congrArg Prod.snd heq)),
          h.rest _ (Nat.lt_succ_self k), stored_append ls cm hi]
    · rw [Function.update_of_ne (fun heq => hj (congrArg Prod.fst heq)),
        h.done _ (Nat.le_of_lt_succ (lt_of_le_of_ne hp hj))]
  · rw [hnodes, Function.update_of_ne (fun heq => Nat.ne_of_gt hp (congrArg Prod.fst heq)),
      h.rest p (Nat.lt_of_succ_lt hp)]

/-- **The whole loop.** -/
theorem climbed_foldl {ls : List Bytes32} {cm : Bytes32} {st : Climb}
    (h : Climbed keccak256 ls cm 0 st) {k : ℕ} (hk : k ≤ TREE_DEPTH) :
    Climbed keccak256 ls cm k ((List.range k).foldl (updateStep keccak256) st) := by
  induction k with
  | zero => exact h
  | succ k ih =>
    rw [List.range_succ, List.foldl_append, List.foldl_cons, List.foldl_nil]
    exact (ih (Nat.le_of_succ_le hk)).step hk

/-! ## Runs -/

/-- **The pool holds the tree over some leaves**, as long as they fit into it. -/
structure TreeHolds (keccak256 : Bytes → Bytes32) (ls : List Bytes32) (s : State) : Prop where
  index : s.nextLeafIndex = BitVec.ofNat 32 ls.length
  nodes : ls.length ≤ 2 ^ TREE_DEPTH → ∀ p, s.nodes p = stored keccak256 ls p
  root : ls.length ≤ 2 ^ TREE_DEPTH →
    s.currentRoot = sparseNode (poseidonHash keccak256) ZERO_VALUE ls TREE_DEPTH 0

theorem TreeHolds.of_sameTree {ls : List Bytes32} {s s' : State} (h : TreeHolds keccak256 ls s)
    (hsame : SameTree s s') : TreeHolds keccak256 ls s' where
  index := hsame.nextLeafIndex.trans h.index
  nodes := fun hle p => (congrFun hsame.nodes p).trans (h.nodes hle p)
  root := fun hle => hsame.currentRoot.trans (h.root hle)

/-- The pool of the constructor holds the tree without leaves. -/
theorem treeHolds_new (env : Env) (epochDuration : BitVec 32) :
    TreeHolds keccak256 [] (new env epochDuration) where
  index := rfl
  nodes := fun _ _ => (if_neg (fun h => Nat.not_lt_zero _ h.2)).symm
  root := fun _ => (SparseTree.sparseNode_of_le (Nat.zero_le _)).symm

/-- The index of the next leaf, while there is room for it. -/
theorem TreeHolds.toNat_index {ls : List Bytes32} {s : State} (h : TreeHolds keccak256 ls s)
    (hlt : ls.length < 2 ^ TREE_DEPTH) : s.nextLeafIndex.toNat = ls.length := by
  rw [h.index, BitVec.toNat_ofNat]
  exact Nat.mod_eq_of_lt hlt

/-- **A new leaf is appended.** -/
theorem TreeHolds.inserted {ls : List Bytes32} {s : State} (h : TreeHolds keccak256 ls s)
    (cm : Bytes32) : TreeHolds keccak256 (ls ++ [cm]) (InkPool.inserted keccak256 s cm) := by
  have hclimbed : (ls ++ [cm]).length ≤ 2 ^ TREE_DEPTH →
      Climbed keccak256 ls cm TREE_DEPTH (climbed keccak256 s cm) := by
    intro hle
    rw [List.length_append, List.length_singleton] at hle
    unfold climbed
    rw [h.toNat_index hle]
    exact climbed_foldl (climbed_zero cm (h.nodes (Nat.le_of_succ_le hle))) le_rfl
  refine ⟨?_, fun hle p => ?_, fun hle => ?_⟩
  · rw [nextLeafIndex_inserted, h.index, List.length_append, List.length_singleton,
      BitVec.ofNat_add]
    rfl
  · rw [nodes_inserted]
    by_cases hp : p.1 ≤ TREE_DEPTH
    · exact (hclimbed hle).done p hp
    · refine ((hclimbed hle).rest p (not_le.mp hp)).trans ?_
      unfold stored
      rw [if_neg (fun h => hp h.1), if_neg (fun h => hp h.1)]
  · have hzero : ls.length / 2 ^ TREE_DEPTH = 0 := by
      rw [List.length_append, List.length_singleton] at hle
      exact Nat.div_eq_of_lt hle
    rw [currentRoot_inserted, (hclimbed hle).hash, hzero]

/-- Several are appended one after the other. -/
theorem TreeHolds.insertedAll {ls : List Bytes32} {s : State} (h : TreeHolds keccak256 ls s)
    (cms : List Bytes32) :
    TreeHolds keccak256 (ls ++ cms) (InkPool.insertedAll keccak256 s cms) := by
  induction cms generalizing ls s with
  | nil =>
    rw [List.append_nil]
    exact h
  | cons cm cms ih =>
    rw [List.append_cons]
    exact ih (h.inserted cm)

/-- **Every run holds the tree over the commitments inserted in it.** -/
theorem treeHolds_of_run {tr : List (State × Call)} {s : State}
    (h : RunFrom keccak256 build tr s) : TreeHolds keccak256 (insertedIn tr) s := by
  obtain ⟨env, epochDuration, hrun⟩ := h
  refine hrun.invariant (I := fun tr s => TreeHolds keccak256 (insertedIn tr) s)
    (treeHolds_new env epochDuration) ?_
  intro tr s c s' hholds _ hstep
  obtain ⟨payments, heffect⟩ := step_effect hstep
  rw [insertedIn_snoc]
  exact (hholds.insertedAll c.message.inserts).of_sameTree heffect.sameTree

/-! ## The tree of the other pools -/

/-- The pairs that are hashed in the tree of the pool and in that of the others. -/
def pairsOf (keccak256 : Bytes → Bytes32) (ls : List Bytes32) : List (Bytes32 × Bytes32) :=
  sparsePairs (poseidonHash keccak256) ZERO_VALUE ls TREE_DEPTH 0
    ++ nodePairs (poseidonHash keccak256) (padded ZERO_VALUE ls) TREE_DEPTH 0

/-- What is hashed for two nodes … -/
def poseidonText (p : Bytes32 × Bytes32) : Bytes :=
  RustString.asBytes "Poseidon" ++ Bytes32.toBytes p.1 ++ Bytes32.toBytes p.2

/-- … determines them. -/
theorem poseidonText_injective : Function.Injective poseidonText := by
  intro p q h
  unfold poseidonText at h
  simp only [List.append_assoc, List.append_cancel_left_eq, Bytes32.toBytes_append_inj,
    Bytes32.toBytes_inj] at h
  exact Prod.ext h.1 h.2

/-- **Any function of two nodes is hashed by some function of bytes.** -/
theorem exists_poseidonHash_eq (hash : Bytes32 → Bytes32 → Bytes32) :
    ∃ keccak256, poseidonHash keccak256 = hash := by
  refine ⟨Function.extend poseidonText (fun p : Bytes32 × Bytes32 => hash p.1 p.2) (fun _ => 0),
    funext fun left => funext fun right => ?_⟩
  exact poseidonText_injective.extend_apply (fun p => hash p.1 p.2) _ (left, right)

/-- A hash that counts along the right side. -/
def count (_ right : Bytes32) : Bytes32 := right + 1

theorem emptyNode_count (k : ℕ) : HashTree.emptyNode count 0 k = BitVec.ofNat 256 k := by
  induction k with
  | zero => rfl
  | succ k ih =>
    rw [HashTree.emptyNode, ih, BitVec.ofNat_add]
    rfl

/-- The padded tree over fewer than 2^32 leaves, on the right side. -/
theorem root_count {ls : List Bytes32} (hle : ls.length ≤ 2 ^ 31) :
    HashTree.root count ZERO_VALUE TREE_DEPTH ls = 32 := by
  have hright : HashTree.node count (padded ZERO_VALUE ls) 31 1 = BitVec.ofNat 256 31 := by
    refine (HashTree.node_eq_emptyNode count 31 1 (fun j hj => ?_)).trans (emptyNode_count 31)
    exact HashTree.padded_of_length_le ZERO_VALUE (hle.trans (by rwa [Nat.one_mul] at hj))
  show HashTree.node count (padded ZERO_VALUE ls) (31 + 1) 0 = 32
  rw [HashTree.node_succ, hright]
  rfl

/-- **A pair of the empty tree** is the same node twice. -/
theorem exists_of_mem_pairsOf_nil {keccak256 : Bytes → Bytes32}
    (hhash : poseidonHash keccak256 = count) :
    ∀ p ∈ pairsOf keccak256 [], ∃ j < 32, p = (BitVec.ofNat 256 j, BitVec.ofNat 256 j) := by
  intro p hp
  obtain hp | hp := List.mem_append.mp hp
  · exact absurd hp List.not_mem_nil
  · obtain ⟨j, m, hj, rfl⟩ := HashTree.exists_of_mem_nodePairs _ _ _ _ p hp
    refine ⟨j, hj, ?_⟩
    have hnode : ∀ i, HashTree.node count (padded ZERO_VALUE []) j i = BitVec.ofNat 256 j :=
      fun i => (HashTree.node_eq_emptyNode count j i (fun _ _ => rfl)).trans (emptyNode_count j)
    rw [hhash, hnode, hnode]

end InkPool
