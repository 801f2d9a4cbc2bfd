import Mathlib.Algebra.Field.ZMod
import Mathlib.FieldTheory.Finite.Basic
import Mathlib.LinearAlgebra.Matrix.Determinant.Basic
import Mathlib.LinearAlgebra.Matrix.NonsingularInverse
import SoulPrivacy.Poseidon

/-!
# The Poseidon permutation over a field is one

A round adds constants, raises to the fifth power and multiplies by a matrix.
Adding is always one to one. The fifth power is, when five has no factor in
common with the order of the group of units (`pow_injective_of_coprime`), and
multiplying is when the determinant is not zero (`mix_injective`). A partial
round leaves two values as they are before the matrix, which does no harm. So
rounds are one to one, and so are as many as one likes (`permute_injective`);
on a finite field the permutation is a bijection (`permute_bijective`).

The values that are computed on the way can be kept along with each value
(`Arith.traced`). What is true of every sum and every product is then true of
all of them, again by relating two arithmetics.
-/

namespace Poseidon

/-! ## Rounds over a field -/

section Field

variable {F : Type} [Field F]

/-- The arithmetic of a ring. -/
def ringArith (F : Type) [Ring F] : Arith F := ⟨(· + ·), (· * ·)⟩

/-- The state as a vector. -/
def State.toVec (s : State F) : Fin 3 → F := ![s.s0, s.s1, s.s2]

/-- The matrix of the constants. -/
def Params.toMatrix (P : Params F) : Matrix (Fin 3) (Fin 3) F :=
  Matrix.of ![P.matrix.s0.toVec, P.matrix.s1.toVec, P.matrix.s2.toVec]

omit [Field F] in
theorem State.toVec_injective : Function.Injective (State.toVec (F := F)) := by
  intro s t h
  obtain ⟨s0, s1, s2⟩ := s
  obtain ⟨t0, t1, t2⟩ := t
  have h0 : s0 = t0 := congrFun h 0
  have h1 : s1 = t1 := congrFun h 1
  have h2 : s2 = t2 := congrFun h 2
  rw [h0, h1, h2]

variable {P : Params F}

/-- The matrix times the state, as a vector. -/
theorem toVec_mix (s : State F) :
    (mix (ringArith F) P s).toVec = P.toMatrix.mulVec s.toVec := by
  funext i
  fin_cases i <;> simp [mix, row, ringArith, State.toVec, Params.toMatrix, Matrix.mulVec,
    dotProduct, Fin.sum_univ_three]

/-- **The matrix is one to one** when its determinant is not zero. -/
theorem mix_injective (hdet : P.toMatrix.det ≠ 0) :
    Function.Injective (mix (ringArith F) P) := by
  have hunit : IsUnit P.toMatrix :=
    (Matrix.isUnit_iff_isUnit_det _).mpr (isUnit_iff_ne_zero.mpr hdet)
  intro s t h
  have hvec := congrArg State.toVec h
  rw [toVec_mix, toVec_mix] at hvec
  exact State.toVec_injective (Matrix.mulVec_injective_of_isUnit hunit hvec)

/-- A constant and the fifth power. -/
theorem sbox_eq (x : F) : sbox (ringArith F) x = x ^ 5 := by
  show x * x * (x * x) * x = x ^ 5
  ring

theorem sbox_add_inj (hpow : Function.Injective (fun x : F => x ^ 5)) {x y c : F}
    (h : sbox (ringArith F) ((ringArith F).add x c) = sbox (ringArith F) ((ringArith F).add y c)) :
    x = y := by
  rw [sbox_eq, sbox_eq] at h
  exact add_right_cancel (hpow h)

/-- **A full round is one to one.** -/
theorem fullRound_injective (hpow : Function.Injective (fun x : F => x ^ 5))
    (hdet : P.toMatrix.det ≠ 0) (rc : State F) :
    Function.Injective (fun s => fullRound (ringArith F) P s rc) := by
  rintro ⟨s0, s1, s2⟩ ⟨t0, t1, t2⟩ h
  obtain ⟨h0, h1, h2⟩ := State.mk.inj (mix_injective hdet h)
  have h0' : s0 = t0 := sbox_add_inj hpow h0
  have h1' : s1 = t1 := sbox_add_inj hpow h1
  have h2' : s2 = t2 := sbox_add_inj hpow h2
  rw [h0', h1', h2']

/-- **A partial round is one to one.** -/
theorem partialRound_injective (hpow : Function.Injective (fun x : F => x ^ 5))
    (hdet : P.toMatrix.det ≠ 0) (rc : F) :
    Function.Injective (fun s => partialRound (ringArith F) P s rc) := by
  rintro ⟨s0, s1, s2⟩ ⟨t0, t1, t2⟩ h
  obtain ⟨h0, h1, h2⟩ := State.mk.inj (mix_injective hdet h)
  have h0' : s0 = t0 := sbox_add_inj hpow h0
  have h1' : s1 = t1 := h1
  have h2' : s2 = t2 := h2
  rw [h0', h1', h2']

/-- Steps that are one to one are so one after another. -/
theorem foldl_injective {S C : Type} {f : S → C → S}
    (hf : ∀ c, Function.Injective (fun s => f s c)) (cs : List C) :
    Function.Injective (fun s => cs.foldl f s) := by
  induction cs with
  | nil => exact fun _ _ h => h
  | cons c cs ih => exact ih.comp (hf c)

/-- **The permutation is one to one.** -/
theorem permute_injective (hpow : Function.Injective (fun x : F => x ^ 5))
    (hdet : P.toMatrix.det ≠ 0) : Function.Injective (permute (ringArith F) P) := by
  have hfirst := foldl_injective (fullRound_injective hpow hdet) P.first
  have hmiddle := foldl_injective (partialRound_injective hpow hdet) P.middle
  have hlast := foldl_injective (fullRound_injective hpow hdet) P.last
  exact hlast.comp (hmiddle.comp hfirst)

/-- **On a finite field it is a bijection.** -/
theorem permute_bijective [Finite F] (hpow : Function.Injective (fun x : F => x ^ 5))
    (hdet : P.toMatrix.det ≠ 0) : Function.Bijective (permute (ringArith F) P) := by
  have hfinite : Finite (State F) := Finite.of_injective State.toVec State.toVec_injective
  exact Finite.injective_iff_bijective.mp (permute_injective hpow hdet)

/-- **A power is one to one on a finite field** when its exponent has no factor
in common with the number of units. -/
theorem pow_injective_of_coprime [Finite F] {n : ℕ} (hn : n ≠ 0)
    (hcoprime : (Nat.card Fˣ).Coprime n) : Function.Injective (fun x : F => x ^ n) := by
  intro x y h
  have hxy : x ^ n = y ^ n := h
  by_cases hx : x = 0
  · rw [hx, zero_pow hn] at hxy
    rw [hx, eq_zero_of_pow_eq_zero hxy.symm]
  · have hy : y ≠ 0 := fun hy => hx (by
      rw [hy, zero_pow hn] at hxy
      exact eq_zero_of_pow_eq_zero hxy)
    have hunits : powCoprime hcoprime (Units.mk0 x hx) = powCoprime hcoprime (Units.mk0 y hy) :=
      Units.ext hxy
    exact congrArg Units.val ((powCoprime hcoprime).injective hunits)

end Field

/-! ## The values on the way -/

/-- A value with the values that were computed for it. -/
structure Traced (W : Type) where
  value : W
  past : List W

variable {W : Type}

/-- **The arithmetic that keeps what it computes.** -/
def Arith.traced (A : Arith W) : Arith (Traced W) where
  add a b := ⟨A.add a.value b.value, A.add a.value b.value :: (a.past ++ b.past)⟩
  mul a b := ⟨A.mul a.value b.value, A.mul a.value b.value :: (a.past ++ b.past)⟩

/-- A constant, for which nothing is computed. -/
def Traced.constant (c : W) : Traced W := ⟨c, []⟩

/-- A value to start with. -/
def Traced.start (x : W) : Traced W := ⟨x, [x]⟩

/-- A value, and what its computation passed through. -/
def Traced.Passed (p : W → Prop) (x : W) (t : Traced W) : Prop :=
  t.value = x ∧ ∀ v ∈ t.past, p v

/-- A new value passes through its own and those of its two parts. -/
theorem Traced.Passed.join {p : W → Prop} {a b c : W} {x y : Traced W} (ha : Passed p a x)
    (hb : Passed p b y) (hc : p c) : Passed p c ⟨c, c :: (x.past ++ y.past)⟩ := by
  refine ⟨rfl, fun v hv => ?_⟩
  rcases List.mem_cons.mp hv with rfl | hv
  · exact hc
  · exact (List.mem_append.mp hv).elim (ha.2 v) (hb.2 v)

/-- **What is true of all sums and products is true on the way**, if it is
true of the values to start with. -/
theorem permute_traced {A : Arith W} (P : Params W) {p : W → Prop} (hadd : ∀ a b, p (A.add a b))
    (hmul : ∀ a b, p (A.mul a b)) {s : State W} (h0 : p s.s0) (h1 : p s.s1) (h2 : p s.s2) :
    State.Related (Traced.Passed p) (permute A P s)
      (permute A.traced (P.map Traced.constant) (s.map Traced.start)) := by
  have hA : A.Related A.traced (Traced.Passed p) := by
    constructor
    · rintro a b x y ⟨rfl, ha⟩ ⟨rfl, hb⟩
      exact Traced.Passed.join ⟨rfl, ha⟩ ⟨rfl, hb⟩ (hadd _ _)
    · rintro a b x y ⟨rfl, ha⟩ ⟨rfl, hb⟩
      exact Traced.Passed.join ⟨rfl, ha⟩ ⟨rfl, hb⟩ (hmul _ _)
  have hstart : ∀ x, p x → Traced.Passed p x (Traced.start x) := fun x hx =>
    ⟨rfl, fun v hv => by rwa [List.mem_singleton.mp hv]⟩
  exact permute_related hA (Params.related_map (fun _ => ⟨rfl, nofun⟩) P)
    ⟨hstart _ h0, hstart _ h1, hstart _ h2⟩

end Poseidon
