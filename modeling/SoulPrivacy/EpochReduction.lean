import Mathlib.Order.Bounds.Basic
import SoulPrivacy.NullifierRoot
import SoulPrivacy.PoseidonHasher
import SoulPrivacy.SolidityLoop

/-!
# The reduction of an epoch, in place (`EpochManager._computeNullifierRoot`)

The root of an epoch is computed in one array. The pass over a layer writes
entry `i` after it has read the entries `2i` and `2i + 1`, so at the time an
entry is read nothing has been written at or after it: the write index never
overtakes the read index, and that alone makes the pass the same as one into
a second array (`reduceLayer_spec`).

Here the code is followed down to its words: the counters are 256-bit and
checked, the arrays are checked, and each loop has only as many rounds as it
is given. With a power of two as the size that is no restriction
(`computeNullifierRootWord_eq`). The one loop that words can keep from ending
is that of `_nextPowerOfTwo`, which doubles by a shift: past `2^255` the shift
leaves zero, and it never stops (`nextPowerOfTwoWord_stuck`). No array has as
many entries.
-/

namespace EpochManager

variable (hash : Uint256 → Uint256 → Uint256)

/-! ## The code on words -/

/-- `_nextPowerOfTwo`, on words. -/
def nextPowerOfTwoWord (fuel : ℕ) (x : Uint256) : Except Panic Uint256 :=
  if x ≤ 2 then .ok 2
  else whileLoop (fun p => decide (p < x)) (fun p => .ok (p <<< 1)) fuel 1

/-- A round of the loop that copies the leaves. -/
def copyLeaf (nullifiers : List Bytes32) (i : Uint256) (layer : List Bytes32) :
    Except Panic (List Bytes32) := do
  let leaf ← load nullifiers i
  store layer i leaf

/-- A round of the inner loop, on words. -/
def reduceEntryWord (i : Uint256) (layer : List Bytes32) : Except Panic (List Bytes32) := do
  let l ← checkedMul Panic.arithmetic 2 i
  let left ← load layer l
  let m ← checkedMul Panic.arithmetic 2 i
  let r ← checkedAdd Panic.arithmetic m 1
  let right ← load layer r
  store layer i (hash left right)

/-- A round of the outer loop, on words. -/
def halveLayer (fuel : ℕ) (p : Uint256 × List Bytes32) :
    Except Panic (Uint256 × List Bytes32) := do
  let half := p.1 / 2
  let layer ← forLoop half (reduceEntryWord hash) fuel p.2
  .ok (half, layer)

/-- The outer loop, on words. -/
def reduceAllWord (fuel : ℕ) (n : Uint256) (layer : List Bytes32) :
    Except Panic (List Bytes32) := do
  let last ← whileLoop (fun p => decide (1 < p.1)) (halveLayer hash fuel) fuel (n, layer)
  .ok last.2

/-- **`_computeNullifierRoot`, on words**, with `fuel` rounds for each loop. -/
def computeNullifierRootWord (fuel : ℕ) (nullifiers : List Bytes32) :
    Except Panic Bytes32 :=
  let count : Uint256 := BitVec.ofNat 256 nullifiers.length
  if count = 0 then .ok 0
  else if count = 1 then load nullifiers 0
  else do
    let n ← nextPowerOfTwoWord fuel count
    let layer := List.replicate n.toNat (0 : Bytes32)
    let layer ← forLoop count (copyLeaf nullifiers) fuel layer
    let layer ← reduceAllWord hash fuel n layer
    load layer 0

/-! ## The size of the array -/

/-- A shift by one doubles. -/
theorem ofNat_shiftLeft_one (n : ℕ) :
    BitVec.ofNat 256 n <<< 1 = BitVec.ofNat 256 (2 * n) := by
  apply BitVec.eq_of_toNat_eq
  rw [BitVec.toNat_shiftLeft, BitVec.toNat_ofNat, BitVec.toNat_ofNat, Nat.shiftLeft_eq,
    pow_one, Nat.mod_mul_mod, Nat.mul_comm]

/-- The word of a power of two has at most its highest bit. -/
theorem toNat_ofNat_two_pow_le (j : ℕ) : (BitVec.ofNat 256 (2 ^ j)).toNat ≤ 2 ^ 255 := by
  rw [BitVec.toNat_ofNat]
  by_cases hj : j ≤ 255
  · exact (Nat.mod_le _ _).trans (Nat.pow_le_pow_right Nat.two_pos hj)
  · have hdvd : 2 ^ 256 ∣ 2 ^ j := pow_dvd_pow 2 (by omega)
    rw [Nat.mod_eq_zero_of_dvd hdvd]
    exact Nat.zero_le _

/-- Comparing small numbers as words. -/
theorem decide_ofNat_lt_ofNat {a b : ℕ} (ha : a < 2 ^ 256) (hb : b < 2 ^ 256) :
    decide (BitVec.ofNat 256 a < BitVec.ofNat 256 b) = decide (a < b) := by
  rw [decide_ofNat_lt ha, toNat_ofNat_of_lt hb]

/-- **`_nextPowerOfTwo` ends on every size up to `2^255`**, in no more rounds
than the exponent of what it returns. -/
theorem nextPowerOfTwoWord_eq {x fuel : ℕ} (h2 : 2 ≤ x) (hx : x ≤ 2 ^ 255)
    (hfuel : Nat.clog 2 x ≤ fuel) :
    nextPowerOfTwoWord fuel (BitVec.ofNat 256 x)
      = .ok (BitVec.ofNat 256 (2 ^ Nat.clog 2 x)) := by
  have hword : x < 2 ^ 256 := lt_of_le_of_lt hx (Nat.pow_lt_pow_right Nat.one_lt_two (by omega))
  have hexp : Nat.clog 2 x ≤ 255 := Nat.clog_le_of_le_pow hx
  have hpow : ∀ j ≤ Nat.clog 2 x, 2 ^ j < 2 ^ 256 := fun j hj =>
    Nat.pow_lt_pow_right Nat.one_lt_two (by omega)
  unfold nextPowerOfTwoWord
  split
  · rename_i hle
    rw [BitVec.le_def, toNat_ofNat_of_lt hword] at hle
    have hone : Nat.clog 2 x = 1 := Nat.clog_eq_one h2 hle
    rw [hone]
    rfl
  · -- with `n` doublings to go the size is `n` powers below the last
    have hrounds : ∀ n p, (∃ j, j + n = Nat.clog 2 x ∧ p = BitVec.ofNat 256 (2 ^ j)) →
        decide (p < BitVec.ofNat 256 x) = true →
        ∃ m p', m < n ∧ (Except.ok (p <<< 1) : Except Panic Uint256) = .ok p'
          ∧ ∃ j, j + m = Nat.clog 2 x ∧ p' = BitVec.ofNat 256 (2 ^ j) := by
      rintro n _ ⟨j, hj, rfl⟩ hguard
      rw [decide_ofNat_lt_ofNat (hpow j (by omega)) hword, decide_eq_true_iff,
        ← Nat.lt_clog_iff_pow_lt Nat.one_lt_two] at hguard
      exact ⟨n - 1, _, by omega, rfl, j + 1, by omega, by rw [ofNat_shiftLeft_one, pow_succ']⟩
    obtain ⟨m, _, hrun, ⟨j, hj, rfl⟩, hexit⟩ :=
      whileLoop_total hrounds hfuel (s := 1) ⟨0, Nat.zero_add _, rfl⟩
    rw [decide_ofNat_lt_ofNat (hpow j (by omega)) hword, decide_eq_false_iff_not, not_lt] at hexit
    have hlast : Nat.clog 2 x ≤ j := Nat.clog_le_of_le_pow hexit
    rw [hrun, show j = Nat.clog 2 x from by omega]

/-- **… and on no larger one**: the word it doubles becomes zero and stays it. -/
theorem nextPowerOfTwoWord_stuck {x : Uint256} (hx : 2 ^ 255 < x.toNat) (fuel : ℕ) :
    nextPowerOfTwoWord fuel x = .error .outOfFuel := by
  have hguard : ∀ j, decide (BitVec.ofNat 256 (2 ^ j) < x) = true := fun j =>
    decide_eq_true (BitVec.lt_def.mpr ((toNat_ofNat_two_pow_le j).trans_lt hx))
  have hstuck : ∀ (fuel j : ℕ),
      whileLoop (fun p => decide (p < x)) (fun p => .ok (p <<< 1)) fuel
        (BitVec.ofNat 256 (2 ^ j)) = .error .outOfFuel := by
    intro fuel
    induction fuel with
    | zero =>
      intro j
      rw [whileLoop, if_pos (hguard j)]
    | succ fuel ih =>
      intro j
      rw [whileLoop, if_pos (hguard j), ofNat_shiftLeft_one, ← pow_succ']
      exact ih (j + 1)
  unfold nextPowerOfTwoWord
  rw [if_neg]
  · exact hstuck fuel 0
  · rw [BitVec.le_def, not_le]
    exact lt_trans (by decide) hx

/-! ## The loops -/

/-- **The leaves are copied to the front of the array**, whose rest stays
zero. -/
theorem copyLeaves_eq {nullifiers : List Bytes32} {n fuel : ℕ}
    (hlen : nullifiers.length ≤ n) (hword : nullifiers.length < 2 ^ 256)
    (hfuel : nullifiers.length ≤ fuel) :
    forLoop (BitVec.ofNat 256 nullifiers.length) (copyLeaf nullifiers) fuel
        (List.replicate n 0)
      = .ok (nullifiers ++ List.replicate (n - nullifiers.length) 0) := by
  have hbound := toNat_ofNat_of_lt hword
  have hround : ∀ i < (BitVec.ofNat 256 nullifiers.length).toNat, ∀ layer : List Bytes32,
      layer = nullifiers.take i ++ List.replicate (n - i) 0 →
      ∃ layer', copyLeaf nullifiers (BitVec.ofNat 256 i) layer = .ok layer'
        ∧ layer' = nullifiers.take (i + 1) ++ List.replicate (n - (i + 1)) 0 := by
    rintro i hi _ rfl
    rw [hbound] at hi
    have htake : (nullifiers.take i).length = i := List.length_take_of_le hi.le
    have hrest : n - i = n - (i + 1) + 1 := by omega
    have hinside : i < (nullifiers.take i ++ List.replicate (n - i) (0 : Bytes32)).length := by
      rw [List.length_append, htake, List.length_replicate]
      omega
    refine ⟨_, ?_, rfl⟩
    unfold copyLeaf
    rw [load_ofNat (by omega) (List.getElem?_eq_getElem hi)]
    show store _ _ _ = _
    rw [store_ofNat (by omega) hinside, List.set_append_right _ _ htake.le, htake,
      Nat.sub_self, hrest, List.replicate_succ, List.set_cons_zero,
      List.take_succ_eq_append_getElem hi, List.append_assoc, List.singleton_append]
  obtain ⟨_, hrun, rfl⟩ := forLoop_total hround (hbound.trans_le hfuel)
    (s := List.replicate n 0) rfl
  rw [hrun, hbound, List.take_length]

/-- **A pass over words is a pass over numbers**: what a round computes there
it computes here, and it writes inside the array since it has read further
on. -/
theorem reduceEntryWord_of_reduceEntry {layer layer' : List Bytes32} {i : ℕ}
    (hi : 2 * i + 1 < 2 ^ 256) (h : reduceEntry hash layer i = some layer') :
    reduceEntryWord hash (BitVec.ofNat 256 i) layer = .ok layer' := by
  obtain ⟨left, hleft, h⟩ := Option.bind_eq_some_iff.mp h
  obtain ⟨right, hright, h⟩ := Option.bind_eq_some_iff.mp h
  cases h
  have hlt : 2 * i < layer.length := (List.getElem?_eq_some_iff.mp hleft).1
  have hmul : checkedMul Panic.arithmetic 2 (BitVec.ofNat 256 i)
      = .ok (BitVec.ofNat 256 (2 * i)) :=
    checkedMul_ofNat _ (a := 2) (by norm_num) (by omega) (by omega)
  have hadd : checkedAdd Panic.arithmetic (BitVec.ofNat 256 (2 * i)) 1
      = .ok (BitVec.ofNat 256 (2 * i + 1)) := checkedAdd_ofNat _ hi
  unfold reduceEntryWord
  rw [hmul]
  show (load layer _ >>= _) = _
  rw [load_ofNat (by omega) hleft]
  show (checkedAdd Panic.arithmetic (BitVec.ofNat 256 (2 * i)) 1 >>= _) = _
  rw [hadd]
  show (load layer _ >>= _) = _
  rw [load_ofNat hi hright]
  exact store_ofNat (by omega) (by omega) _

/-- The powers of two that are words. -/
theorem two_pow_lt_word {n : ℕ} (h : n ≤ 255) : 2 ^ n < 2 ^ 256 :=
  Nat.pow_lt_pow_right Nat.one_lt_two (by omega)

/-- The guard of the outer loop. -/
theorem decide_one_lt_two_pow {n : ℕ} (h : n ≤ 255) :
    decide ((1 : Uint256) < BitVec.ofNat 256 (2 ^ n)) = decide (1 < 2 ^ n) :=
  decide_ofNat_lt_ofNat (a := 1) (by norm_num) (two_pow_lt_word h)

/-- A round of the outer loop is a pass over the lower half. -/
theorem halveLayer_eq {m fuel : ℕ} (hm : m < 255) (hfuel : 2 ^ m ≤ fuel)
    {layer layer' : List Bytes32} (h : reduceLayer hash (2 ^ m) layer = some layer') :
    halveLayer hash fuel (BitVec.ofNat 256 (2 ^ (m + 1)), layer)
      = .ok (BitVec.ofNat 256 (2 ^ m), layer') := by
  have hbound := toNat_ofNat_of_lt (two_pow_lt_word hm.le)
  have hhalf : BitVec.ofNat 256 (2 ^ (m + 1)) / 2 = BitVec.ofNat 256 (2 ^ m) := by
    apply BitVec.eq_of_toNat_eq
    rw [BitVec.toNat_udiv, toNat_ofNat_of_lt (two_pow_lt_word hm), hbound]
    show 2 ^ (m + 1) / 2 = 2 ^ m
    rw [pow_succ, Nat.mul_div_cancel _ Nat.two_pos]
  have hpass : forLoop (BitVec.ofNat 256 (2 ^ m)) (reduceEntryWord hash) fuel layer
      = .ok layer' := by
    refine forLoop_of_foldlM (f := reduceEntry hash) (fun i hi s s' hs => ?_) ?_ ?_
    · rw [hbound] at hi
      have hdouble := two_pow_lt_word hm
      rw [pow_succ] at hdouble
      exact reduceEntryWord_of_reduceEntry hash (by omega) hs
    · rw [hbound]
      exact hfuel
    · rw [hbound]
      exact h
  unfold halveLayer
  dsimp only
  rw [hhalf, hpass]
  rfl

/-- **The outer loop on words**, for a power of two as the size. -/
theorem reduceAllWord_eq {k fuel : ℕ} (hk : k ≤ 255) (hfuel : 2 ^ k ≤ fuel)
    {layer result : List Bytes32} (h : reduceAll hash (2 ^ k) layer = some result) :
    reduceAllWord hash fuel (BitVec.ofNat 256 (2 ^ k)) layer = .ok result := by
  -- `n` is the height of the tree that is left
  have hrounds : ∀ n (p : Uint256 × List Bytes32),
      (n ≤ k ∧ p.1 = BitVec.ofNat 256 (2 ^ n) ∧ reduceAll hash (2 ^ n) p.2 = some result) →
      decide (1 < p.1) = true →
      ∃ m p', m < n ∧ halveLayer hash fuel p = .ok p'
        ∧ m ≤ k ∧ p'.1 = BitVec.ofNat 256 (2 ^ m) ∧ reduceAll hash (2 ^ m) p'.2 = some result := by
    rintro n ⟨_, layer⟩ ⟨hn, rfl, hrest⟩ hguard
    have hone : 1 < 2 ^ n :=
      of_decide_eq_true ((decide_one_lt_two_pow (by omega)).symm.trans hguard)
    obtain ⟨m, rfl⟩ := Nat.exists_eq_succ_of_ne_zero (Nat.one_lt_two_pow_iff.mp hone)
    rw [reduceAll, if_pos hone, Nat.pow_succ, Nat.mul_div_cancel _ Nat.two_pos] at hrest
    obtain ⟨layer', hlayer, hrest⟩ := Option.bind_eq_some_iff.mp hrest
    have hfuel' : 2 ^ m ≤ fuel := (Nat.pow_le_pow_right Nat.two_pos (by omega)).trans hfuel
    exact ⟨m, _, Nat.lt_succ_self m, halveLayer_eq hash (by omega) hfuel' hlayer, by omega,
      rfl, hrest⟩
  obtain ⟨n, ⟨_, last⟩, hrun, ⟨hn, rfl, hrest⟩, hexit⟩ :=
    whileLoop_total hrounds ((Nat.lt_two_pow_self).le.trans hfuel)
      (s := (BitVec.ofNat 256 (2 ^ k), layer)) ⟨le_rfl, rfl, h⟩
  have hlast : ¬ 1 < 2 ^ n :=
    of_decide_eq_false ((decide_one_lt_two_pow (by omega)).symm.trans hexit)
  rw [reduceAll, if_neg hlast] at hrest
  unfold reduceAllWord
  rw [hrun]
  exact congrArg Except.ok (Option.some.inj hrest)

/-! ## The root -/

/-- **The code on words computes what the code on numbers does**, and its
loops end within the size of the array. -/
theorem computeNullifierRootWord_eq {nullifiers : List Bytes32} {r : Bytes32} {fuel : ℕ}
    (hlen : nullifiers.length ≤ 2 ^ 255) (hfuel : nextPowerOfTwo nullifiers.length ≤ fuel)
    (h : computeNullifierRoot hash nullifiers = some r) :
    computeNullifierRootWord hash fuel nullifiers = .ok r := by
  have hword : nullifiers.length < 2 ^ 256 := hlen.trans_lt (two_pow_lt_word le_rfl)
  have hcount : ∀ c < 2 ^ 256,
      BitVec.ofNat 256 nullifiers.length = BitVec.ofNat 256 c ↔ nullifiers.length = c := by
    intro c hc
    rw [← BitVec.toNat_inj, toNat_ofNat_of_lt hword, toNat_ofNat_of_lt hc]
  have hzero : BitVec.ofNat 256 nullifiers.length = (0 : Uint256) ↔ nullifiers.length = 0 :=
    hcount 0 (by norm_num)
  have hone : BitVec.ofNat 256 nullifiers.length = (1 : Uint256) ↔ nullifiers.length = 1 :=
    hcount 1 (by norm_num)
  unfold computeNullifierRoot at h
  unfold computeNullifierRootWord
  dsimp only at h ⊢
  by_cases h0 : nullifiers.length = 0
  · rw [if_pos h0] at h
    rw [if_pos (hzero.mpr h0)]
    exact congrArg Except.ok (Option.some.inj h)
  rw [if_neg h0] at h
  rw [if_neg (mt hzero.mp h0)]
  by_cases h1 : nullifiers.length = 1
  · rw [if_pos h1] at h
    rw [if_pos (hone.mpr h1)]
    exact load_ofNat (by norm_num) h
  rw [if_neg h1] at h
  rw [if_neg (mt hone.mp h1)]
  have h2 : 2 ≤ nullifiers.length := by omega
  have hexp : Nat.clog 2 nullifiers.length ≤ 255 := Nat.clog_le_of_le_pow hlen
  have hfits : nullifiers.length ≤ 2 ^ Nat.clog 2 nullifiers.length :=
    Nat.le_pow_clog Nat.one_lt_two _
  rw [nextPowerOfTwo_eq h2] at h hfuel
  obtain ⟨layer, hreduce, hroot⟩ := Option.bind_eq_some_iff.mp h
  rw [nextPowerOfTwoWord_eq h2 hlen (Nat.lt_two_pow_self.le.trans hfuel)]
  show (forLoop _ _ fuel (List.replicate (BitVec.ofNat 256 _).toNat 0) >>= _) = _
  rw [toNat_ofNat_of_lt (two_pow_lt_word hexp), copyLeaves_eq hfits hword (hfits.trans hfuel)]
  show (reduceAllWord hash fuel _ _ >>= _) = _
  rw [reduceAllWord_eq hash hexp hfuel hreduce]
  exact load_ofNat (by norm_num) hroot

/-- **The root of an epoch is that of the recursive tree over its padded
nullifiers**, for every list of two or more. The array has the least power of
two that holds them, and on words every loop ends and no access panics. -/
theorem computeNullifierRoot_eq_splitRoot (nullifiers : List Bytes32)
    (h2 : 2 ≤ nullifiers.length) :
    ∃ k, nextPowerOfTwo nullifiers.length = 2 ^ k
      ∧ IsLeast {n | (∃ j, n = 2 ^ j) ∧ nullifiers.length ≤ n} (2 ^ k)
      ∧ computeNullifierRoot hash nullifiers
        = some (HashTree.splitRoot hash 0 k
            (nullifiers ++ List.replicate (2 ^ k - nullifiers.length) 0))
      ∧ (nullifiers.length ≤ 2 ^ 255 → ∀ fuel, 2 ^ k ≤ fuel →
          computeNullifierRootWord hash fuel nullifiers
            = .ok (HashTree.splitRoot hash 0 k
                (nullifiers ++ List.replicate (2 ^ k - nullifiers.length) 0))) := by
  have hsize := nextPowerOfTwo_eq h2
  have hroot : HashTree.splitRoot hash 0 (Nat.clog 2 nullifiers.length)
      (nullifiers ++ List.replicate (2 ^ Nat.clog 2 nullifiers.length - nullifiers.length) 0)
        = merkleRoot hash nullifiers := by
    rw [HashTree.splitRoot_eq_root, HashTree.root_append_replicate]
    rfl
  refine ⟨Nat.clog 2 nullifiers.length, hsize, ⟨⟨⟨_, rfl⟩, ?_⟩, ?_⟩, ?_, ?_⟩
  · exact Nat.le_pow_clog Nat.one_lt_two _
  · rintro _ ⟨⟨j, rfl⟩, hle⟩
    exact Nat.pow_le_pow_right Nat.two_pos (Nat.clog_le_of_le_pow hle)
  · rw [hroot]
    exact computeNullifierRoot_eq hash nullifiers
  · intro hlen fuel hfuel
    rw [hroot]
    exact computeNullifierRootWord_eq hash hlen (hsize.trans_le hfuel)
      (computeNullifierRoot_eq hash nullifiers)

/-- Three nullifiers are the leaves of a tree of four. -/
theorem computeNullifierRoot_eq_splitRoot_three :
    computeNullifierRootWord PoseidonHasher.hash 4 [1, 2, 3]
      = .ok (PoseidonHasher.hash (PoseidonHasher.hash 1 2) (PoseidonHasher.hash 3 0)) := by
  obtain ⟨k, -, hleast, -, hword⟩ :=
    computeNullifierRoot_eq_splitRoot PoseidonHasher.hash [1, 2, 3] (by decide)
  have hle : k ≤ 2 :=
    (Nat.pow_le_pow_iff_right Nat.one_lt_two).mp (hleast.2 ⟨⟨2, rfl⟩, by decide⟩)
  have hge : 1 < k :=
    (Nat.pow_lt_pow_iff_right Nat.one_lt_two).mp (lt_of_lt_of_le (by decide) hleast.1.2)
  obtain rfl : k = 2 := le_antisymm hle hge
  exact hword (by decide) 4 le_rfl

end EpochManager
