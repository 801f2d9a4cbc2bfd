import SoulPrivacy.HashTree

/-!
# Hash trees that leave out what is empty

A tree that is kept as a table of its nodes may read a node that was never
written as a fixed value. Where that value stands for an empty leaf and for an
empty subtree of any height alike, an empty subtree is not the hash of its
halves, and the nodes differ from those of the padded tree (`HashTree.node`)
above it.

How far they agree is a matter of the leaves alone: a node is that of the padded
tree, whatever the hash, if at most one of the leaves below it is missing
(`sparseNode_eq_node`), and with a hash that has neither a collision nor a
preimage of the fixed value among what is hashed, only then
(`sparseNode_eq_node_iff`).
-/

namespace SparseTree

open HashTree (node nodePairs padded Separates)

variable {α : Type} (hash : α → α → α) (zero : α)

/-- **The node at height `k` and index `i`**, which is `zero` where there is no
leaf below it. -/
def sparseNode (ls : List α) : ℕ → ℕ → α
  | 0, i => padded zero ls i
  | k + 1, i =>
    if i * 2 ^ (k + 1) < ls.length then
      hash (sparseNode ls k (2 * i)) (sparseNode ls k (2 * i + 1))
    else zero

/-- The pairs hashed in the subtree under a node. -/
def sparsePairs (ls : List α) : ℕ → ℕ → List (α × α)
  | 0, _ => []
  | k + 1, i =>
    if i * 2 ^ (k + 1) < ls.length then
      (sparseNode hash zero ls k (2 * i), sparseNode hash zero ls k (2 * i + 1))
        :: (sparsePairs ls k (2 * i) ++ sparsePairs ls k (2 * i + 1))
    else []

variable {hash zero}

theorem sparseNode_succ {ls : List α} {k i : ℕ} (h : i * 2 ^ (k + 1) < ls.length) :
    sparseNode hash zero ls (k + 1) i
      = hash (sparseNode hash zero ls k (2 * i)) (sparseNode hash zero ls k (2 * i + 1)) :=
  if_pos h

/-- A node without a leaf below it. -/
theorem sparseNode_of_le {ls : List α} {k i : ℕ} (h : ls.length ≤ i * 2 ^ k) :
    sparseNode hash zero ls k i = zero := by
  cases k with
  | zero =>
    rw [pow_zero, Nat.mul_one] at h
    exact HashTree.padded_of_length_le zero h
  | succ k => exact if_neg (not_lt.mpr h)

/-! ## One more leaf -/

/-- The index of a new leaf is below no other node than its ancestors. -/
theorem lt_append_iff {n k i : ℕ} (hi : i ≠ n / 2 ^ k) : i * 2 ^ k < n + 1 ↔ i * 2 ^ k < n := by
  refine ⟨fun h => lt_of_le_of_ne (Nat.lt_succ_iff.mp h) (fun heq => hi ?_), Nat.lt_succ_of_lt⟩
  rw [← heq, Nat.mul_div_cancel _ (Nat.two_pow_pos k)]

/-- **A new leaf changes its ancestors only.** -/
theorem sparseNode_append (ls : List α) (x : α) (k i : ℕ) (hi : i ≠ ls.length / 2 ^ k) :
    sparseNode hash zero (ls ++ [x]) k i = sparseNode hash zero ls k i := by
  induction k generalizing i with
  | zero =>
    rw [pow_zero, Nat.div_one] at hi
    show padded zero (ls ++ [x]) i = padded zero ls i
    rcases Nat.lt_or_gt_of_ne hi with hlt | hgt
    · exact HashTree.padded_append_of_lt zero hlt
    · rw [HashTree.padded_of_length_le zero hgt.le, HashTree.padded_of_length_le zero]
      rw [List.length_append, List.length_singleton]
      exact hgt
  | succ k ih =>
    have hdiv : ls.length / 2 ^ (k + 1) = ls.length / 2 ^ k / 2 := by
      rw [pow_succ, ← Nat.div_div_eq_div_mul]
    have hcond := lt_append_iff hi
    unfold sparseNode
    rw [List.length_append, List.length_singleton]
    refine if_congr hcond ?_ rfl
    rw [ih (2 * i) (by omega), ih (2 * i + 1) (by omega)]

/-- A node above a leaf has a leaf below it. -/
theorem ancestor_lt (ls : List α) (x : α) (k : ℕ) :
    ls.length / 2 ^ k * 2 ^ k < (ls ++ [x]).length := by
  rw [List.length_append, List.length_singleton]
  exact Nat.lt_succ_of_le (Nat.div_mul_le_self _ _)

/-- **The parent of an ancestor on the left**, whose sibling is as it was. -/
theorem sparseNode_ancestor_even (ls : List α) (x : α) {k : ℕ}
    (heven : ls.length / 2 ^ k % 2 = 0) :
    sparseNode hash zero (ls ++ [x]) (k + 1) (ls.length / 2 ^ k / 2)
      = hash (sparseNode hash zero (ls ++ [x]) k (ls.length / 2 ^ k))
        (sparseNode hash zero ls k (ls.length / 2 ^ k + 1)) := by
  have hlt := ancestor_lt ls x (k + 1)
  rw [pow_succ, ← Nat.div_div_eq_div_mul, ← pow_succ] at hlt
  rw [sparseNode_succ hlt, show 2 * (ls.length / 2 ^ k / 2) = ls.length / 2 ^ k from by omega,
    sparseNode_append ls x k (ls.length / 2 ^ k + 1) (Nat.succ_ne_self _)]

/-- … and of one on the right. -/
theorem sparseNode_ancestor_odd (ls : List α) (x : α) {k : ℕ}
    (hodd : ls.length / 2 ^ k % 2 ≠ 0) :
    sparseNode hash zero (ls ++ [x]) (k + 1) (ls.length / 2 ^ k / 2)
      = hash (sparseNode hash zero ls k (ls.length / 2 ^ k - 1))
        (sparseNode hash zero (ls ++ [x]) k (ls.length / 2 ^ k)) := by
  have hlt := ancestor_lt ls x (k + 1)
  rw [pow_succ, ← Nat.div_div_eq_div_mul, ← pow_succ] at hlt
  obtain ⟨hl, hr, hne⟩ : 2 * (ls.length / 2 ^ k / 2) = ls.length / 2 ^ k - 1
      ∧ ls.length / 2 ^ k - 1 + 1 = ls.length / 2 ^ k
      ∧ ls.length / 2 ^ k - 1 ≠ ls.length / 2 ^ k := by
    generalize ls.length / 2 ^ k = m at hodd
    omega
  rw [sparseNode_succ hlt, hl, hr, sparseNode_append ls x k (ls.length / 2 ^ k - 1) hne]

/-! ## The padded tree -/

/-- **Where at most one leaf is missing, the node is that of the padded tree.** -/
theorem sparseNode_eq_node (ls : List α) (k i : ℕ) (h : (i + 1) * 2 ^ k ≤ ls.length + 1) :
    sparseNode hash zero ls k i = node hash (padded zero ls) k i := by
  induction k generalizing i with
  | zero => rfl
  | succ k ih =>
    have hk : 0 < 2 ^ k := Nat.two_pow_pos k
    rw [pow_succ'] at h
    have hlt : i * 2 ^ (k + 1) < ls.length := by
      rw [pow_succ']
      linarith
    rw [sparseNode_succ hlt, HashTree.node_succ, ih (2 * i) (by linarith),
      ih (2 * i + 1) (by linarith)]

/-- **Where more are missing, it is not**, if the hash has neither a collision
nor a preimage of `zero`. -/
theorem sparseNode_ne_node (ls : List α) (k i : ℕ) (h : ls.length + 1 < (i + 1) * 2 ^ (k + 1))
    (hsep : Separates hash Eq (sparsePairs hash zero ls (k + 1) i
      ++ nodePairs hash (padded zero ls) (k + 1) i))
    (hzero : ∀ p ∈ nodePairs hash (padded zero ls) (k + 1) i, hash p.1 p.2 ≠ zero) :
    sparseNode hash zero ls (k + 1) i ≠ node hash (padded zero ls) (k + 1) i := by
  induction k generalizing i with
  | zero =>
    -- both leaves are missing
    have hle : ls.length ≤ i * 2 ^ (0 + 1) := by
      rw [zero_add, pow_one] at h ⊢
      omega
    rw [sparseNode_of_le hle]
    exact (hzero _ (List.mem_cons_self ..)).symm
  | succ k ih =>
    by_cases hlt : i * 2 ^ (k + 1 + 1) < ls.length
    · -- the right one of the halves differs
      intro heq
      have hpairs : sparsePairs hash zero ls (k + 1 + 1) i
          = (sparseNode hash zero ls (k + 1) (2 * i), sparseNode hash zero ls (k + 1) (2 * i + 1))
            :: (sparsePairs hash zero ls (k + 1) (2 * i)
              ++ sparsePairs hash zero ls (k + 1) (2 * i + 1)) := if_pos hlt
      have hright : ls.length + 1 < (2 * i + 1 + 1) * 2 ^ (k + 1) := by
        rw [pow_succ' 2 (k + 1)] at h
        linarith
      rw [sparseNode_succ hlt, HashTree.node_succ] at heq
      rw [hpairs] at hsep
      refine ih (2 * i + 1) hright (hsep.mono hash (fun p hp => ?_)) (fun p hp => ?_)
        (hsep _ (List.mem_append_left _ (List.mem_cons_self ..)) _
          (List.mem_append_right _ (List.mem_cons_self ..)) heq).2
      · simp only [nodePairs, List.mem_append, List.mem_cons] at hp ⊢
        tauto
      · exact hzero p (List.mem_cons_of_mem _ (List.mem_append_right _ hp))
    · rw [sparseNode_of_le (not_lt.mp hlt)]
      exact (hzero _ (List.mem_cons_self ..)).symm

/-- **A node above the leaves is that of the padded tree exactly when at most
one of the leaves below it is missing.** -/
theorem sparseNode_eq_node_iff (ls : List α) (k i : ℕ)
    (hsep : Separates hash Eq (sparsePairs hash zero ls (k + 1) i
      ++ nodePairs hash (padded zero ls) (k + 1) i))
    (hzero : ∀ p ∈ nodePairs hash (padded zero ls) (k + 1) i, hash p.1 p.2 ≠ zero) :
    sparseNode hash zero ls (k + 1) i = node hash (padded zero ls) (k + 1) i
      ↔ (i + 1) * 2 ^ (k + 1) ≤ ls.length + 1 := by
  refine ⟨fun heq => ?_, sparseNode_eq_node ls (k + 1) i⟩
  by_contra hlt
  exact sparseNode_ne_node ls k i (not_le.mp hlt) hsep hzero heq

end SparseTree
