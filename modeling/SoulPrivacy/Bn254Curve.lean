import Mathlib.Algebra.QuadraticAlgebra.Basic
import Mathlib.AlgebraicGeometry.EllipticCurve.Affine.Point
import Mathlib.FieldTheory.Finite.Basic
import Mathlib.NumberTheory.LegendreSymbol.Basic
import SoulPrivacy.Bn254Scalar

/-!
# The curve BN254 and its precompiled contracts

The points of `y² = x³ + 3` over the integers modulo `q` are the first group of the
pairing. The second is the part of order `r` of the twist `y² = x³ + 3 / (9 + u)`, over
the field extended by a root `u` of `-1`. The points of both are those of Mathlib, with
its addition; what is added here is how they are written as words. The point at infinity
is a pair of zeros, and every other point its coordinates, which must be below `q`.

The three precompiled contracts decode their input so, fail where there is no such
point, and else compute in the groups. The pairing itself is a parameter.
-/

namespace Bn254

open PrimeCertificate

/-- **The order of the base field.** -/
def q : ℕ :=
  21888242871839275222246405745257275088696311157297823662689037894645226208583

/-! ## Primality -/

theorem prime_11465965001 : Nat.Prime 11465965001 :=
  prime_of_order 34 3 4 [2, 5, 7, 327599]
    ⟨by norm_num, by norm_num, by norm_num, by norm_num⟩
    (by decide) (by decide) (by decide) (by decide) (by decide)

theorem prime_173171039 : Nat.Prime 173171039 :=
  prime_of_order 28 13 1 [2, 73, 89, 13327]
    ⟨by norm_num, by norm_num, by norm_num, by norm_num⟩
    (by decide) (by decide) (by decide) (by decide) (by decide)

theorem prime_1263766531 : Nat.Prime 1263766531 :=
  prime_of_order 31 10 1 [2, 3, 5, 13, 911, 3557]
    ⟨by norm_num, by norm_num, by norm_num, by norm_num, by norm_num, by norm_num⟩
    (by decide) (by decide) (by decide) (by decide) (by decide)

theorem prime_35385462869 : Nat.Prime 35385462869 :=
  prime_of_order 36 2 2 [2, 7, 1263766531] ⟨by norm_num, by norm_num, prime_1263766531⟩
    (by decide) (by decide) (by decide) (by decide) (by decide)

theorem prime_2480874801745591 : Nat.Prime 2480874801745591 :=
  prime_of_order 52 6 2 [2, 3, 5, 19, 41, 35385462869]
    ⟨by norm_num, by norm_num, by norm_num, by norm_num, by norm_num, prime_35385462869⟩
    (by decide) (by decide) (by decide) (by decide) (by decide)

theorem prime_13427688667394608761327070753331941386769 :
    Nat.Prime 13427688667394608761327070753331941386769 :=
  prime_of_order 134 17 4 [2, 3, 7, 11, 1853641, 4562087, 173171039, 2480874801745591]
    ⟨by norm_num, by norm_num, by norm_num, by norm_num, by norm_num, by norm_num,
      prime_173171039, prime_2480874801745591⟩
    (by decide) (by decide) (by decide) (by decide +kernel) (by decide +kernel)

theorem q_prime : q.Prime :=
  prime_of_order 254 3 2 [2, 3, 13, 29, 67, 229, 311, 983, 11003, 405928799, 11465965001,
      13427688667394608761327070753331941386769]
    ⟨by norm_num, by norm_num, by norm_num, by norm_num, by norm_num, by norm_num,
      by norm_num, by norm_num, by norm_num, prime_405928799, prime_11465965001,
      prime_13427688667394608761327070753331941386769⟩
    (by decide) (by decide) (by decide) (by decide +kernel) (by decide +kernel)

instance : Fact q.Prime := ⟨q_prime⟩

/-! ## The fields -/

/-- The base field. -/
abbrev Base : Type := ZMod q

/-- A small number is not zero in the base field. -/
theorem natCast_ne_zero {n : ℕ} (hpos : 0 < n) (hlt : n < q) : (n : Base) ≠ 0 := by
  intro h
  exact absurd (Nat.le_of_dvd hpos ((ZMod.natCast_eq_zero_iff n q).mp h)) (not_le.mpr hlt)

/-- Minus one is no square there. -/
theorem sq_ne_neg_one (x : Base) : x ^ 2 ≠ -1 + 0 * x := by
  rw [zero_mul, add_zero]
  intro h
  have hthree : q % 4 ≠ 3 := ZMod.mod_four_ne_three_of_sq_eq_neg_one h
  exact hthree (by decide)

instance : Fact (∀ x : Base, x ^ 2 ≠ -1 + 0 * x) := ⟨sq_ne_neg_one⟩

/-- **The field of the twist**: `a + b u` with `u² = -1`. -/
abbrev Extension : Type := QuadraticAlgebra Base (-1) 0

end Bn254

/-! ## Short curves -/

/-- **A curve `y² = x³ + b`** without singular points. -/
structure ShortCurve (F : Type) [Field F] where
  b : F
  two_ne_zero : (2 : F) ≠ 0
  three_ne_zero : (3 : F) ≠ 0
  b_ne_zero : b ≠ 0

namespace ShortCurve

variable {F : Type} [Field F] [DecidableEq F] (W : ShortCurve F)

/-- The curve, in the form that Mathlib has its points for. -/
def curve : WeierstrassCurve.Affine F := ⟨0, 0, 0, 0, W.b⟩

/-- Its points, with the point at infinity. -/
abbrev Point : Type := W.curve.Point

omit [DecidableEq F] in
theorem equation_iff (x y : F) : W.curve.Equation x y ↔ y ^ 2 = x ^ 3 + W.b := by
  rw [WeierstrassCurve.Affine.equation_iff]
  simp [curve]

omit [DecidableEq F] in
theorem discriminant_ne_zero : W.curve.Δ ≠ 0 := by
  have hΔ : W.curve.Δ = -(2 ^ 4 * 3 ^ 3 * W.b ^ 2) := by
    simp only [WeierstrassCurve.Δ, WeierstrassCurve.b₂, WeierstrassCurve.b₄,
      WeierstrassCurve.b₆, WeierstrassCurve.b₈, curve]
    ring
  rw [hΔ]
  exact neg_ne_zero.mpr (mul_ne_zero (mul_ne_zero (pow_ne_zero 4 W.two_ne_zero)
    (pow_ne_zero 3 W.three_ne_zero)) (pow_ne_zero 2 W.b_ne_zero))

omit [DecidableEq F] in
theorem nonsingular_iff (x y : F) : W.curve.Nonsingular x y ↔ y ^ 2 = x ^ 3 + W.b := by
  rw [← W.equation_iff]
  exact (W.curve.equation_iff_nonsingular_of_Δ_ne_zero W.discriminant_ne_zero).symm

/-- **The point with given coordinates**, if there is one. The pair of zeros is the point
at infinity. -/
def point (x y : F) : Option W.Point :=
  if x = 0 ∧ y = 0 then some 0
  else if h : y ^ 2 = x ^ 3 + W.b then some (.some x y ((W.nonsingular_iff x y).mpr h))
  else none

@[simp] theorem point_zero : W.point 0 0 = some 0 := if_pos ⟨rfl, rfl⟩

/-- The coordinates of a point that is not the one at infinity are its own. -/
theorem point_some {x y : F} (h : W.curve.Nonsingular x y) :
    W.point x y = some (.some x y h) := by
  have hequation := (W.nonsingular_iff x y).mp h
  have hne : ¬(x = 0 ∧ y = 0) := by
    rintro ⟨rfl, rfl⟩
    rw [zero_pow (Nat.succ_ne_zero 1), zero_pow (Nat.succ_ne_zero 2), zero_add] at hequation
    exact W.b_ne_zero hequation.symm
  unfold point
  rw [if_neg hne, dif_pos hequation]

/-- **The negated ordinate is that of the negated point.** -/
theorem point_neg (x y : F) : W.point x (-y) = (W.point x y).map (fun P => -P) := by
  by_cases hzero : x = 0 ∧ y = 0
  · obtain ⟨rfl, rfl⟩ := hzero
    rw [neg_zero, point_zero, Option.map_some, neg_zero]
  by_cases h : y ^ 2 = x ^ 3 + W.b
  · have hxy := (W.nonsingular_iff x y).mpr h
    have hneg : W.curve.Nonsingular x (-y) := by
      rw [W.nonsingular_iff, neg_sq]
      exact h
    rw [W.point_some hxy, W.point_some hneg, Option.map_some,
      WeierstrassCurve.Affine.Point.neg_some]
    congr 2
    simp [WeierstrassCurve.Affine.negY, curve]
  · have hnone : ¬(-y) ^ 2 = x ^ 3 + W.b := by
      rw [neg_sq]
      exact h
    have hzero' : ¬(x = 0 ∧ -y = 0) := by
      rw [neg_eq_zero]
      exact hzero
    unfold point
    rw [if_neg hzero, dif_neg h, if_neg hzero', dif_neg hnone]
    rfl

end ShortCurve

namespace Bn254

/-! ## The groups -/

theorem two_ne_zero : (2 : Base) ≠ 0 := natCast_ne_zero Nat.two_pos (by decide)

theorem three_ne_zero : (3 : Base) ≠ 0 := natCast_ne_zero (Nat.succ_pos 2) (by decide)

/-- The curve `y² = x³ + 3`. -/
def g1 : ShortCurve Base where
  b := 3
  two_ne_zero := two_ne_zero
  three_ne_zero := three_ne_zero
  b_ne_zero := three_ne_zero

/-- **The first group.** -/
abbrev G1 : Type := g1.Point

theorem re_natCast_ne_zero {n : ℕ} (h : (n : Base) ≠ 0) : (n : Extension) ≠ 0 := by
  intro hzero
  exact h (congrArg QuadraticAlgebra.re hzero)

/-- The twist `y² = x³ + 3 / (9 + u)`. -/
def twist : ShortCurve Extension where
  b := 3 / ⟨((9 : ℕ) : Base), 1⟩
  two_ne_zero := re_natCast_ne_zero (n := 2) two_ne_zero
  three_ne_zero := re_natCast_ne_zero (n := 3) three_ne_zero
  b_ne_zero := by
    refine div_ne_zero (re_natCast_ne_zero (n := 3) three_ne_zero) (fun h => ?_)
    exact one_ne_zero (congrArg QuadraticAlgebra.im h)

/-- **The second group**: the points of the twist whose order divides `r`. -/
def G2 : AddSubgroup twist.Point := (nsmulAddMonoidHom (α := twist.Point) r).ker

/-! ## Points as words -/

/-- The element of the base field that a word is. -/
def element (w : Uint256) : Option Base :=
  if w.toNat < q then some (w.toNat : Base) else none

/-- The word of an element. -/
def word (x : Base) : Uint256 := BitVec.ofNat 256 x.val

@[simp] theorem element_word (x : Base) : element (word x) = some x := by
  have hlt : x.val < q := ZMod.val_lt x
  have hval : (word x).toNat = x.val := by
    unfold word
    rw [BitVec.toNat_ofNat]
    exact Nat.mod_eq_of_lt (hlt.trans (by decide))
  unfold element
  rw [hval, if_pos hlt, ZMod.natCast_zmod_val]

/-- **The point of the first group** with the coordinates `x` and `y`. -/
def decodeG1 (x y : Uint256) : Option G1 := do
  let x ← element x
  let y ← element y
  g1.point x y

/-- The words of a point. -/
def encodeG1 : G1 → Uint256 × Uint256
  | .zero => (0, 0)
  | .some x y _ => (word x, word y)

/-- A word below `q` is an element. -/
theorem element_of_lt {w : Uint256} (h : w.toNat < q) : element w = some (w.toNat : Base) :=
  if_pos h

@[simp] theorem element_zero : element 0 = some 0 := by
  rw [element_of_lt (by decide)]
  exact congrArg some Nat.cast_zero

/-- A pair of zeros is the point at infinity. -/
theorem decodeG1_zero : decodeG1 0 0 = some 0 := by
  unfold decodeG1
  rw [element_zero]
  exact g1.point_zero

/-- **What is written down is read back.** -/
@[simp] theorem decodeG1_encodeG1 (P : G1) :
    decodeG1 (encodeG1 P).1 (encodeG1 P).2 = some P := by
  cases P with
  | zero => exact decodeG1_zero
  | some x y h =>
    show (do
      let x ← element (word x)
      let y ← element (word y)
      g1.point x y) = _
    rw [element_word, element_word]
    exact g1.point_some h

/-- The point `(1, 2)`. -/
def generator : G1 := .some 1 2 ((g1.nonsingular_iff 1 2).mpr (by decide))

theorem decodeG1_generator : decodeG1 1 2 = some generator := by
  unfold decodeG1
  rw [element_of_lt (by decide), element_of_lt (by decide)]
  show g1.point ((1 : ℕ) : Base) ((2 : ℕ) : Base) = some generator
  rw [Nat.cast_one, Nat.cast_two]
  exact g1.point_some _

/-- A word modulo `q` is an element, that of the word itself. -/
theorem element_mod {m : Uint256} (hm : m.toNat = q) (w : Uint256) :
    element (w % m) = some (w.toNat : Base) := by
  have hmod : (w % m).toNat = w.toNat % q := by
    rw [BitVec.toNat_umod, hm]
  unfold element
  rw [hmod, if_pos (Nat.mod_lt _ (by decide)), ZMod.natCast_mod]

/-- **The ordinate that is missing to `q` is that of the negated point**, also where it
is `q` itself. -/
theorem decodeG1_neg {m : Uint256} (hm : m.toNat = q) (x : Uint256) {y n : Uint256}
    (hn : n.toNat + y.toNat = q) :
    decodeG1 x (n % m) = (decodeG1 x (y % m)).map (fun P => -P) := by
  have hneg : (n.toNat : Base) = -(y.toNat : Base) := by
    rw [eq_neg_iff_add_eq_zero, ← Nat.cast_add, hn]
    exact ZMod.natCast_self q
  unfold decodeG1
  rw [element_mod hm, element_mod hm, hneg]
  cases element x with
  | none => rfl
  | some x => exact g1.point_neg x _

/-- The element `re + im u` of the extension. -/
def extension (re im : Uint256) : Option Extension := do
  let re ← element re
  let im ← element im
  some ⟨re, im⟩

/-- **The point of the second group** with given coordinates, each a real and an
imaginary part. -/
def decodeG2 (x y : Uint256 × Uint256) : Option G2 := do
  let x ← extension x.1 x.2
  let y ← extension y.1 y.2
  let P ← twist.point x y
  if h : r • P = 0 then some ⟨P, h⟩ else none

/-- Zeros are the point at infinity. -/
theorem decodeG2_zero : decodeG2 (0, 0) (0, 0) = some 0 := by
  have hzero : extension 0 0 = some 0 := by
    unfold extension
    rw [element_zero]
    rfl
  unfold decodeG2
  rw [hzero]
  simp only [Option.bind_eq_bind, Option.bind_some, twist.point_zero]
  rw [dif_pos (smul_zero r)]
  rfl

/-! ## The precompiled contracts -/

/-- The addition, `0x06`. -/
def ecAdd (x1 y1 x2 y2 : Uint256) : Option (Uint256 × Uint256) := do
  let P ← decodeG1 x1 y1
  let Q ← decodeG1 x2 y2
  some (encodeG1 (P + Q))

/-- The scalar multiplication, `0x07`. -/
def ecMul (x y scalar : Uint256) : Option (Uint256 × Uint256) := do
  let P ← decodeG1 x y
  some (encodeG1 (scalar.toNat • P))

/-- **The sum of what is decoded**, written down. -/
theorem ecAdd_eq_some {x1 y1 x2 y2 : Uint256} {w : Uint256 × Uint256} :
    ecAdd x1 y1 x2 y2 = some w ↔
      ∃ P, decodeG1 x1 y1 = some P ∧ ∃ Q, decodeG1 x2 y2 = some Q ∧ encodeG1 (P + Q) = w := by
  simp [ecAdd, Option.bind_eq_some_iff]

/-- The multiple of what is decoded, written down. -/
theorem ecMul_eq_some {x y scalar : Uint256} {w : Uint256 × Uint256} :
    ecMul x y scalar = some w ↔
      ∃ P, decodeG1 x y = some P ∧ encodeG1 (scalar.toNat • P) = w := by
  simp [ecMul, Option.bind_eq_some_iff]

/-- The input of the pairing: six words a pair, the imaginary parts first. -/
def decodePairs : List Uint256 → Option (List (G1 × G2))
  | [] => some []
  | x :: y :: xIm :: xRe :: yIm :: yRe :: rest => do
    let P ← decodeG1 x y
    let Q ← decodeG2 (xRe, xIm) (yRe, yIm)
    let pairs ← decodePairs rest
    some ((P, Q) :: pairs)
  | _ => none

/-- **Pairs are decoded one by one.** -/
theorem decodePairs_cons_eq_some {x y xIm xRe yIm yRe : Uint256} {rest : List Uint256}
    {l : List (G1 × G2)} :
    decodePairs (x :: y :: xIm :: xRe :: yIm :: yRe :: rest) = some l ↔
      ∃ P, decodeG1 x y = some P ∧ ∃ Q, decodeG2 (xRe, xIm) (yRe, yIm) = some Q ∧
        ∃ pairs, decodePairs rest = some pairs ∧ (P, Q) :: pairs = l := by
  simp [decodePairs, Option.bind_eq_some_iff]

variable {GT : Type} [CommGroup GT] [DecidableEq GT]

/-- A pairing, with values in a group that is written multiplicatively. -/
def pair (e : G1 →+ G2 →+ Additive GT) (P : G1) (Q : G2) : GT := (e P Q).toMul

/-- **The product of pairings**, `0x08`: one if it is the neutral element. -/
def pairing (e : G1 →+ G2 →+ Additive GT) (input : List Uint256) : Option Uint256 := do
  let pairs ← decodePairs input
  some (if (pairs.map (fun p => pair e p.1 p.2)).prod = 1 then 1 else 0)

/-- **The contract answers one for a product that is neutral**, and only then. -/
theorem pairing_eq_one (e : G1 →+ G2 →+ Additive GT) (input : List Uint256) :
    pairing e input = some 1 ↔
      ∃ l, decodePairs input = some l ∧ (l.map (fun p => pair e p.1 p.2)).prod = 1 := by
  unfold pairing
  simp only [Option.bind_eq_bind, Option.bind_eq_some_iff, Option.some.injEq]
  refine exists_congr (fun l => and_congr_right (fun _ => ?_))
  split
  · rename_i hprod
    exact iff_of_true rfl hprod
  · rename_i hprod
    exact iff_of_false (by decide) hprod

omit [DecidableEq GT] in
theorem pair_neg (e : G1 →+ G2 →+ Additive GT) (P : G1) (Q : G2) :
    pair e (-P) Q = (pair e P Q)⁻¹ := by
  unfold pair
  rw [map_neg]
  rfl

omit [DecidableEq GT] in
theorem pair_zero (e : G1 →+ G2 →+ Additive GT) (P : G1) : pair e P 0 = 1 := by
  unfold pair
  rw [map_zero]
  rfl

end Bn254
