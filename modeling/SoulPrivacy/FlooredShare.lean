import Mathlib.Algebra.Order.Ring.Int
import Mathlib.Order.Bounds.Basic
import Mathlib.Tactic.Linarith
import Mathlib.Tactic.LinearCombination
import Mathlib.Tactic.Ring

/-!
# Values of which twice a floored share is taken

Of a value `u`, the share `u * p / m` is taken twice, rounded down each time.
What is left (`rest`) goes up or down by one from a value to the next, as the
share is less than a half; but it never goes down in two steps
(`rest_le_rest_add`).

The least value of which more than `2 * g` is left is therefore not simply
the one where the exact line passes `2 * g`. The exact line passes at a value
of which as much is left as should be if and only if the remainder of the
division there is between a half and a step below one, and no step took the
share up just before (`isLeast_iff`).
-/

namespace FlooredShare

/-- **What is left of a value.** -/
def rest (p m u : ℤ) : ℤ := u - 2 * (u * p / m)

variable {p m u : ℤ}

/-- The share goes up by one at most in a step, and also in two. -/
theorem share_add_two_le (hm : 2 * p < m) (hpos : 0 < m) (u : ℤ) :
    (u + 2) * p / m ≤ u * p / m + 1 := by
  have hfloor := Int.lt_ediv_add_one_mul_self (u * p) hpos
  refine Int.lt_add_one_iff.mp (Int.ediv_lt_of_lt_mul hpos ?_)
  linarith

theorem share_le_add_one (hp : 0 ≤ p) (hpos : 0 < m) (u : ℤ) :
    u * p / m ≤ (u + 1) * p / m :=
  Int.ediv_le_ediv hpos (by linarith)

/-- **What is left never goes down in two steps.** -/
theorem rest_le_rest_add_two (hm : 2 * p < m) (hpos : 0 < m) (u : ℤ) :
    rest p m u ≤ rest p m (u + 2) := by
  have hshare := share_add_two_le hm hpos u
  unfold rest
  linarith

theorem rest_le_rest_add (hm : 2 * p < m) (hpos : 0 < m) (u : ℤ) (k : ℕ) :
    rest p m u ≤ rest p m (u + 2 * k) := by
  induction k with
  | zero => simp
  | succ k ih =>
    have hstep := rest_le_rest_add_two hm hpos (u + 2 * k)
    have heq : u + 2 * ((k + 1 : ℕ) : ℤ) = u + 2 * k + 2 := by
      push_cast
      ring
    rw [heq]
    exact ih.trans hstep

/-- No more is left of a value than of one that is some double steps up. -/
theorem rest_le_of_eq_add (hm : 2 * p < m) (hpos : 0 < m) {u w g : ℤ} {k : ℕ}
    (hw : w = u + 2 * k) (hle : rest p m w ≤ g) : rest p m u ≤ g := by
  rw [hw] at hle
  exact (rest_le_rest_add hm hpos u k).trans hle

/-- **What is left goes up by one or down by one.** -/
theorem rest_add_one (hp : 0 ≤ p) (hm : 2 * p < m) (hpos : 0 < m) (u : ℤ) :
    rest p m (u + 1) = rest p m u + 1 ∨ rest p m (u + 1) = rest p m u - 1 := by
  have hlow := share_le_add_one hp hpos u
  have hnext := share_le_add_one hp hpos (u + 1)
  have htwo := share_add_two_le hm hpos u
  rw [show u + 1 + 1 = u + 2 by ring] at hnext
  unfold rest
  omega

/-- The share where the remainder is known. -/
theorem share_eq {f r : ℤ} (heq : u * p = m * f + r) (hr : 0 ≤ r) (hlt : r < m) :
    u * p / m = f := by
  rw [heq, Int.add_comm, Int.add_mul_ediv_left _ _ (by omega), Int.ediv_eq_zero_of_lt hr hlt,
    zero_add]

/-- Where the exact line passes. -/
theorem bounds {g v : ℤ} (hd : 0 < m - 2 * p) (hv : v = g * 2 * m / (m - 2 * p)) :
    (m - 2 * p) * v ≤ g * 2 * m ∧ g * 2 * m < (m - 2 * p) * (v + 1) := by
  have hle := Int.mul_ediv_self_le (x := g * 2 * m) hd.ne'
  have hlt := Int.lt_mul_ediv_self_add (x := g * 2 * m) hd
  rw [← hv] at hle hlt
  exact ⟨hle, by linarith⟩

/-- **Of the least value, one more than `2 * g` is left**, of the one before
`2 * g`, and of the one before that one less. -/
theorem rest_of_isLeast {g v : ℤ} (hp : 0 ≤ p) (hm : 2 * p < m) (hpos : 0 < m)
    (hv : 2 ≤ v) (h : IsLeast { u | 0 ≤ u ∧ 2 * g < rest p m u } v) :
    rest p m v = 2 * g + 1 ∧ rest p m (v - 1) = 2 * g ∧ rest p m (v - 2) = 2 * g - 1 := by
  obtain ⟨⟨-, hgt⟩, hmin⟩ := h
  have hbefore : ∀ u, 0 ≤ u → u < v → rest p m u ≤ 2 * g := fun u hu hlt =>
    not_lt.mp (fun hgt => not_le_of_gt hlt (hmin ⟨hu, hgt⟩))
  have h1 := hbefore (v - 1) (by omega) (by omega)
  have h2 := hbefore (v - 2) (by omega) (by omega)
  have hstep1 := rest_add_one hp hm hpos (v - 1)
  have hstep2 := rest_add_one hp hm hpos (v - 2)
  rw [show v - 1 + 1 = v by ring] at hstep1
  rw [show v - 2 + 1 = v - 1 by ring] at hstep2
  omega

/-- More than nothing is left of a value of 2 at least, where the exact line
passes there. -/
theorem two_le_of_isLeast {g v : ℤ} (hp : 0 ≤ p) (hm : 2 * p < m) (hg : 0 ≤ g)
    (hv : v = g * 2 * m / (m - 2 * p)) (h : 0 ≤ v ∧ 2 * g < rest p m v) : 2 ≤ v := by
  obtain ⟨hv0, hgt⟩ := h
  unfold rest at hgt
  by_contra hsmall
  obtain rfl | hone : v = 0 ∨ v = 1 := by omega
  · rw [zero_mul, Int.zero_ediv] at hgt
    omega
  · rw [hone, one_mul, Int.ediv_eq_zero_of_lt hp (by omega)] at hgt
    have hzero : g = 0 := by omega
    rw [hzero, zero_mul, zero_mul, Int.zero_ediv] at hv
    omega

/-- The exact line at a value, by the share and the remainder there. -/
theorem line_eq {g v f r : ℤ} (hvalue : v = 2 * (g + f) + 1) (hdiv : v * p = m * f + r) :
    (m - 2 * p) * v = g * 2 * m + m - 2 * r := by
  linear_combination m * hvalue - 2 * hdiv

/-- Where the remainder is in its range, the exact line passes. -/
theorem eq_of_remainder {g v f r : ℤ} (hd : 0 < m - 2 * p)
    (hv : v = g * 2 * m / (m - 2 * p)) (hr : r = p * (2 * (g + f) + 1) - m * f)
    (hhalf : m ≤ 2 * r) (hone : r + p < m) : v = 2 * (g + f) + 1 := by
  obtain ⟨hle, hlt⟩ := bounds hd hv
  have hline := line_eq (p := p) (m := m) (r := r) (rfl : 2 * (g + f) + 1 = 2 * (g + f) + 1)
    (by rw [hr]; ring)
  have hbelow : v < 2 * (g + f) + 1 + 1 := by
    refine lt_of_mul_lt_mul_left (a := m - 2 * p) ?_ hd.le
    linarith
  have habove : 2 * (g + f) + 1 < v + 1 := by
    refine lt_of_mul_lt_mul_left (a := m - 2 * p) ?_ hd.le
    linarith
  omega

/-- **Where the remainder is in its range, the value is the least one.** The
last two before it have no more than `2 * g` left, and so has each of the
others, which are two steps apart from one of them. -/
theorem isLeast_of_remainder {g v f r : ℤ} (hp : 0 ≤ p) (hm : 2 * p < m) (hpos : 0 < m)
    (hg : 0 ≤ g) (hf : 0 ≤ f) (hv : v = 2 * (g + f) + 1) (hr : r = p * v - m * f)
    (htwo : 2 * p ≤ r) (hone : r + p < m) : IsLeast { u | 0 ≤ u ∧ 2 * g < rest p m u } v := by
  have hshare : v * p / m = f := share_eq (r := r) (by rw [hr]; ring) (by omega) (by omega)
  have hshare1 : (v - 1) * p / m = f :=
    share_eq (r := r - p) (by rw [hr]; ring) (by omega) (by omega)
  have hshare2 : (v - 2) * p / m = f :=
    share_eq (r := r - 2 * p) (by rw [hr]; ring) (by omega) (by omega)
  have hrest1 : rest p m (v - 1) ≤ 2 * g := by
    unfold rest
    omega
  have hrest2 : rest p m (v - 2) ≤ 2 * g := by
    unfold rest
    omega
  refine ⟨⟨by omega, by unfold rest; omega⟩, fun u hu => ?_⟩
  obtain ⟨hu, hgt⟩ := hu
  by_contra hlt
  obtain ⟨k, hk | hk⟩ : ∃ k : ℕ, v - 1 = u + 2 * k ∨ v - 2 = u + 2 * k := by
    refine ⟨((v - 1 - u) / 2).toNat, ?_⟩
    omega
  · exact absurd hgt (not_lt.mpr (rest_le_of_eq_add hm hpos hk hrest1))
  · exact absurd hgt (not_lt.mpr (rest_le_of_eq_add hm hpos hk hrest2))

/-- **At the least value**, where the exact line passes, the remainder is in
its range. -/
theorem remainder_of_isLeast {g v : ℤ} (hp : 0 ≤ p) (hm : 2 * p < m) (hg : 0 ≤ g)
    (hv : v = g * 2 * m / (m - 2 * p)) (h : IsLeast { u | 0 ≤ u ∧ 2 * g < rest p m u } v) :
    ∃ f r, 0 ≤ f ∧ r = p * (2 * (g + f) + 1) - m * f ∧ m ≤ 2 * r ∧ 2 * p ≤ r ∧ r + p < m := by
  have hpos : 0 < m := by omega
  have hd : 0 < m - 2 * p := by omega
  have hv2 := two_le_of_isLeast hp hm hg hv h.1
  obtain ⟨hrest, -, hrest2⟩ := rest_of_isLeast hp hm hpos hv2 h
  have hvalue : v = 2 * (g + v * p / m) + 1 := by
    unfold rest at hrest
    omega
  have hshare2 : (v - 2) * p / m = v * p / m := by
    unfold rest at hrest hrest2
    omega
  have hdiv : v * p = m * (v * p / m) + v * p % m := (Int.mul_ediv_add_emod (v * p) m).symm
  have hlow := Int.ediv_mul_le ((v - 2) * p) hpos.ne'
  rw [hshare2] at hlow
  have hline := line_eq hvalue hdiv
  obtain ⟨hle, hlt⟩ := bounds hd hv
  refine ⟨v * p / m, v * p % m, Int.ediv_nonneg (mul_nonneg (by omega) hp) hpos.le, ?_, ?_, ?_,
    ?_⟩
  · rw [← hvalue]
    linarith
  · linarith
  · linarith
  · linarith

/-- **Where the exact line passes is the least value of which more than
`2 * g` is left** if and only if the remainder there is in its range. -/
theorem isLeast_iff {g v : ℤ} (hp : 0 ≤ p) (hm : 2 * p < m) (hg : 0 ≤ g)
    (hv : v = g * 2 * m / (m - 2 * p)) :
    IsLeast { u | 0 ≤ u ∧ 2 * g < rest p m u } v
      ↔ ∃ f r, 0 ≤ f ∧ r = p * (2 * (g + f) + 1) - m * f ∧ m ≤ 2 * r ∧ 2 * p ≤ r ∧ r + p < m := by
  have hpos : 0 < m := by omega
  have hd : 0 < m - 2 * p := by omega
  refine ⟨remainder_of_isLeast hp hm hg hv, ?_⟩
  rintro ⟨f, r, hf, hr, hhalf, htwo, hone⟩
  have hvalue := eq_of_remainder hd hv hr hhalf hone
  exact isLeast_of_remainder hp hm hpos hg hf hvalue (by rw [hvalue]; exact hr) htwo hone

end FlooredShare
