import SoulPrivacy.HashTree
import SoulPrivacy.Solidity

/-!
# The root of an epoch (`EpochManager._computeNullifierRoot`)

The nullifiers of an epoch are copied to an array of the least power of
two that holds them, and the array is reduced level by level in place:
entry `i` is overwritten with the hash of the entries `2i` and `2i + 1`,
which are read before any of the writes that reach them. Every access is
checked against the bounds, as the language does; an access outside them
is `none`.

The result is the root of the binary tree over the padded list
(`computeNullifierRoot_eq`), so no access is outside the bounds. The
special cases fit in: an empty epoch has the zero root and an epoch of one
nullifier has that nullifier for its root.
-/

namespace EpochManager

/-- The loop of `_nextPowerOfTwo`. -/
def doubleUntil (x p : ℕ) (hp : 0 < p) : ℕ :=
  if p < x then doubleUntil x (2 * p) (Nat.mul_pos Nat.two_pos hp) else p
termination_by x - p

/-- `_nextPowerOfTwo`. -/
def nextPowerOfTwo (x : ℕ) : ℕ :=
  if x ≤ 2 then 2 else doubleUntil x 1 Nat.one_pos

variable (hash : Uint256 → Uint256 → Uint256)

/-- One pass of the inner loop. -/
def reduceEntry (layer : List Bytes32) (i : ℕ) : Option (List Bytes32) := do
  let left ← layer[2 * i]?
  let right ← layer[2 * i + 1]?
  some (layer.set i (hash left right))

/-- The inner loop, up to `half`. -/
def reduceLayer (half : ℕ) (layer : List Bytes32) : Option (List Bytes32) :=
  (List.range half).foldlM (reduceEntry hash) layer

/-- The outer loop. -/
def reduceAll (n : ℕ) (layer : List Bytes32) : Option (List Bytes32) :=
  if 1 < n then do
    let layer ← reduceLayer hash (n / 2) layer
    reduceAll (n / 2) layer
  else some layer

/-- `_computeNullifierRoot`. -/
def computeNullifierRoot (nullifiers : List Bytes32) : Option Bytes32 :=
  let count := nullifiers.length
  if count = 0 then some 0
  else if count = 1 then nullifiers[0]?
  else do
    let n := nextPowerOfTwo count
    let layer := nullifiers ++ List.replicate (n - count) 0
    let layer ← reduceAll hash n layer
    layer[0]?

/-- **The reference**: the root of the least binary tree that holds the
list. -/
def merkleRoot (nullifiers : List Bytes32) : Bytes32 :=
  HashTree.root hash 0 (Nat.clog 2 nullifiers.length) nullifiers

theorem merkleRoot_nil : merkleRoot hash [] = 0 := rfl

theorem merkleRoot_singleton (n : Bytes32) : merkleRoot hash [n] = n := by
  unfold merkleRoot
  rw [List.length_singleton, Nat.clog_one_right]
  rfl

theorem merkleRoot_pair (a b : Bytes32) : merkleRoot hash [a, b] = hash a b := by
  unfold merkleRoot
  rw [show Nat.clog 2 [a, b].length = 1 from Nat.clog_eq_one le_rfl le_rfl]
  rfl

theorem merkleRoot_four (a b c d : Bytes32) :
    merkleRoot hash [a, b, c, d] = hash (hash a b) (hash c d) := by
  unfold merkleRoot
  rw [show Nat.clog 2 [a, b, c, d].length = 2 from Nat.clog_pow 2 2 Nat.one_lt_two]
  rfl

/-! ## The size of the array -/

/-- Doubling from a power of two that is not too large stops at the least
that is large enough. -/
theorem doubleUntil_two_pow (x j : ℕ) (hj : j ≤ Nat.clog 2 x) :
    doubleUntil x (2 ^ j) (Nat.two_pow_pos j) = 2 ^ Nat.clog 2 x := by
  rw [doubleUntil]
  split
  · rename_i hlt
    have hj' : j < Nat.clog 2 x := (Nat.lt_clog_iff_pow_lt Nat.one_lt_two).mpr hlt
    have ih := doubleUntil_two_pow x (j + 1) hj'
    simpa only [pow_succ'] using ih
  · rename_i hge
    have hle : Nat.clog 2 x ≤ j := Nat.clog_le_of_le_pow (not_lt.mp hge)
    rw [le_antisymm hj hle]
termination_by Nat.clog 2 x - j

/-- **`_nextPowerOfTwo` is the least power of two that is large enough**,
from two on. -/
theorem nextPowerOfTwo_eq {x : ℕ} (hx : 2 ≤ x) :
    nextPowerOfTwo x = 2 ^ Nat.clog 2 x := by
  unfold nextPowerOfTwo
  split
  · rename_i hle
    rw [Nat.clog_eq_one hx hle, pow_one]
  · exact doubleUntil_two_pow x 0 (Nat.zero_le _)

/-! ## The reduction -/

/-- **The inner loop in the middle**: the first `m` entries are hashes of
pairs, the others are still as they were. -/
theorem reduceLayer_spec {layer : List Bytes32} {f : ℕ → Bytes32} {m half : ℕ}
    (hm : m ≤ half) (hf : ∀ j, j < 2 * half → layer[j]? = some (f j)) :
    ∃ layer', reduceLayer hash m layer = some layer'
      ∧ ∀ j, j < 2 * half → layer'[j]?
        = some (if j < m then hash (f (2 * j)) (f (2 * j + 1)) else f j) := by
  induction m with
  | zero => exact ⟨layer, rfl, fun j hj => by rw [hf j hj, if_neg (Nat.not_lt_zero j)]⟩
  | succ m ih =>
    obtain ⟨layer', hrun, hspec⟩ := ih (Nat.le_of_succ_le hm)
    have hleft : layer'[2 * m]? = some (f (2 * m)) := by
      rw [hspec _ (by omega), if_neg (by omega)]
    have hright : layer'[2 * m + 1]? = some (f (2 * m + 1)) := by
      rw [hspec _ (by omega), if_neg (by omega)]
    have hlen : m < layer'.length := by
      have hsome := hspec m (by omega)
      exact (List.getElem?_eq_some_iff.mp hsome).1
    refine ⟨layer'.set m (hash (f (2 * m)) (f (2 * m + 1))), ?_, fun j hj => ?_⟩
    · unfold reduceLayer at hrun ⊢
      rw [List.range_succ, List.foldlM_append, hrun]
      show (reduceEntry hash layer' m >>= fun l => some l) = _
      rw [reduceEntry, hleft, hright]
      rfl
    · rw [List.getElem?_set]
      split
      · rename_i heq
        rw [if_pos (by omega), heq]
      · rename_i hne
        rw [hspec j hj]
        congr 1
        refine if_congr ?_ rfl rfl
        exact ⟨fun h => Nat.lt_succ_of_lt h, fun h => by omega⟩

/-- **The outer loop climbs the tree**: from the nodes of one height to
the root above them. -/
theorem reduceAll_spec {leaf : ℕ → Bytes32} (k : ℕ) {height : ℕ}
    {layer : List Bytes32}
    (h : ∀ j, j < 2 ^ k → layer[j]? = some (HashTree.node hash leaf height j)) :
    ∃ layer', reduceAll hash (2 ^ k) layer = some layer'
      ∧ layer'[0]? = some (HashTree.node hash leaf (height + k) 0) := by
  induction k generalizing height layer with
  | zero =>
    refine ⟨layer, ?_, h 0 Nat.one_pos⟩
    rw [reduceAll, pow_zero, if_neg (lt_irrefl 1)]
  | succ k ih =>
    have hhalf : 2 ^ (k + 1) / 2 = 2 ^ k := by rw [pow_succ, Nat.mul_div_cancel _ Nat.two_pos]
    obtain ⟨layer₁, hrun, hspec⟩ := reduceLayer_spec hash (le_refl (2 ^ k))
      (fun j hj => h j (by rwa [pow_succ']))
    have hnodes : ∀ j, j < 2 ^ k →
        layer₁[j]? = some (HashTree.node hash leaf (height + 1) j) := by
      intro j hj
      rw [hspec j (by omega), if_pos hj, HashTree.node_succ]
    obtain ⟨layer₂, hrest, hroot⟩ := ih hnodes
    refine ⟨layer₂, ?_, ?_⟩
    · rw [reduceAll, if_pos (Nat.one_lt_two_pow (Nat.succ_ne_zero k)), hhalf, hrun]
      exact hrest
    · rw [hroot, Nat.add_right_comm, Nat.add_assoc]

/-- **The root of an epoch is the root of the tree over its nullifiers**,
and no access on the way is outside the bounds. -/
theorem computeNullifierRoot_eq (nullifiers : List Bytes32) :
    computeNullifierRoot hash nullifiers = some (merkleRoot hash nullifiers) := by
  unfold computeNullifierRoot
  dsimp only
  split
  · rename_i h0
    rw [List.eq_nil_of_length_eq_zero h0, merkleRoot_nil]
  split
  · rename_i h1
    obtain ⟨n, rfl⟩ := List.length_eq_one_iff.mp h1
    rw [merkleRoot_singleton]
    rfl
  · rename_i h0 h1
    have h2 : 2 ≤ nullifiers.length := by omega
    have hfits := Nat.le_pow_clog Nat.one_lt_two nullifiers.length
    rw [nextPowerOfTwo_eq h2]
    have hlayer : ∀ j, j < 2 ^ Nat.clog 2 nullifiers.length →
        (nullifiers ++ List.replicate
            (2 ^ Nat.clog 2 nullifiers.length - nullifiers.length) 0)[j]?
          = some (HashTree.node hash (HashTree.padded 0 nullifiers) 0 j) := by
      intro j hj
      rw [HashTree.node_zero]
      by_cases hlt : j < nullifiers.length
      · rw [List.getElem?_append_left hlt, HashTree.padded_of_lt _ hlt,
          List.getElem?_eq_getElem hlt]
      · rw [not_lt] at hlt
        rw [List.getElem?_append_right hlt, HashTree.padded_of_length_le _ hlt,
          List.getElem?_replicate, if_pos (by omega)]
    obtain ⟨layer, hrun, hroot⟩ := reduceAll_spec hash _ hlayer
    rw [hrun]
    show layer[0]? = _
    rw [hroot, Nat.zero_add]
    rfl

end EpochManager
