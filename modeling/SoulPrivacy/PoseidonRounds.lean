import Mathlib.Data.Set.Function
import SoulPrivacy.Bn254Scalar
import SoulPrivacy.PoseidonAgreement
import SoulPrivacy.PoseidonBijection

/-!
# The rounds of the Poseidon hash are one to one (`PoseidonHasher._permute`)

The contract returns the first word of a state of three. The other two are as
good as lost, so the hash can have collisions; the state itself has none. Words
below the modulus are the elements of the field, one each, and on them the
rounds are those of a permutation over the field. It is one to one because five
does not divide `r - 1`, and because the determinant of the matrix is not zero
modulo `r`.

The words that are computed on the way are all below the modulus, since each is
a sum or a product reduced by it. The constants are not computed, and one of
them is above.
-/

namespace PoseidonHasher

open Bn254 (toField Element)
open Poseidon (ringArith Traced)
open PoseidonAgreement (wordArith params toState)

local instance : Fact Bn254.r.Prime := ⟨Bn254.r_prime⟩

/-- **The rounds of `_permute`**, before it takes the first word. -/
def rounds (state : State) : State :=
  lastRC.foldl fullRound
    (getPartialRoundConstants.foldl partialRound (firstRC.foldl fullRound state))

example : firstRC.length = 4 ∧ getPartialRoundConstants.length = 57 ∧ lastRC.length = 4 := by
  decide

/-- The permutation returns the first word of the state the rounds leave. -/
theorem permute_eq_rounds (state : State) : permute state = (rounds state).s0 := by
  unfold permute rounds
  rfl

/-- The words of the state are below the modulus. -/
structure State.Below (s : State) : Prop where
  s0 : s.s0.toNat < Bn254.r
  s1 : s.s1.toNat < Bn254.r
  s2 : s.s2.toNat < Bn254.r

/-- The field elements of a state. -/
def State.toField (s : State) : Poseidon.State Element := (toState s).map Bn254.toField

/-- The words below the modulus are told apart by their elements. -/
theorem State.Below.eq_of_toField_eq {s t : State} (hs : s.Below) (ht : t.Below)
    (h : s.toField = t.toField) : s = t := by
  obtain ⟨s0, s1, s2⟩ := s
  obtain ⟨t0, t1, t2⟩ := t
  obtain ⟨h0, h1, h2⟩ := Poseidon.State.mk.inj h
  have h0' : s0 = t0 := (Bn254.toField_eq_iff.mp h0).eq_of_lt hs.s0 ht.s0
  have h1' : s1 = t1 := (Bn254.toField_eq_iff.mp h1).eq_of_lt hs.s1 ht.s1
  have h2' : s2 = t2 := (Bn254.toField_eq_iff.mp h2).eq_of_lt hs.s2 ht.s2
  rw [h0', h1', h2']

/-! ## Words and elements -/

theorem addmod_lt (a b : Uint256) : (addmod a b FIELD_MODULUS).toNat < Bn254.r :=
  toNat_addmod_lt a b FIELD_MODULUS_ne_zero

theorem toNat_mulmod (a b : Uint256) :
    (mulmod a b FIELD_MODULUS).toNat = a.toNat * b.toNat % Bn254.r :=
  PoseidonAgreement.toNat_ofNat_mod _ (by decide)

theorem mulmod_lt (a b : Uint256) : (mulmod a b FIELD_MODULUS).toNat < Bn254.r := by
  rw [toNat_mulmod]
  exact Nat.mod_lt _ (by decide)

theorem toField_addmod (a b : Uint256) :
    toField (addmod a b FIELD_MODULUS) = toField a + toField b := by
  have hvalue : (addmod a b FIELD_MODULUS).toNat = (a.toNat + b.toNat) % Bn254.r :=
    PoseidonAgreement.toNat_ofNat_mod _ (by decide)
  unfold Bn254.toField
  rw [hvalue, ZMod.natCast_mod, Nat.cast_add]

theorem toField_mulmod (a b : Uint256) :
    toField (mulmod a b FIELD_MODULUS) = toField a * toField b := by
  unfold Bn254.toField
  rw [toNat_mulmod, ZMod.natCast_mod, Nat.cast_mul]

/-- **The words compute as the field does.** -/
theorem wordArith_related : (wordArith FIELD_MODULUS).Related (ringArith Element)
    (fun a x => toField a = x) where
  add := by
    rintro a b _ _ rfl rfl
    exact toField_addmod a b
  mul := by
    rintro a b _ _ rfl rfl
    exact toField_mulmod a b

theorem toState_rounds (s : State) :
    toState (rounds s) = Poseidon.permute (wordArith FIELD_MODULUS) params (toState s) := by
  unfold rounds Poseidon.permute
  rw [PoseidonAgreement.foldl_fullRound, PoseidonAgreement.foldl_partialRound,
    PoseidonAgreement.foldl_fullRound]
  rfl

/-- **The rounds, over the field.** -/
theorem toField_rounds (s : State) :
    (rounds s).toField
      = Poseidon.permute (ringArith Element) (params.map toField) s.toField := by
  have hrelated := Poseidon.permute_related wordArith_related
    (Poseidon.Params.related_map (fun _ => rfl) params)
    (s := toState s) (t := s.toField) ⟨rfl, rfl, rfl⟩
  unfold State.toField
  rw [toState_rounds]
  exact hrelated.map_eq (fun h => h)

/-- **The rounds end below the modulus**, wherever they start. -/
theorem rounds_below (s : State) : (rounds s).Below := by
  -- the last of the four closing rounds ends with the matrix
  exact ⟨mdsRow_lt _ _ _ _, mdsRow_lt _ _ _ _, mdsRow_lt _ _ _ _⟩

/-! ## Why they are one to one -/

/-- **Five does not divide `r - 1`.** -/
theorem pow_five_injective : Function.Injective (fun x : Element => x ^ 5) := by
  refine Poseidon.pow_injective_of_coprime (by norm_num) ?_
  rw [Nat.card_eq_fintype_card, ZMod.card_units]
  decide

/-- The product of three words. -/
def product (a b c : Uint256) : ℕ := a.toNat * b.toNat * c.toNat

/-- The positive part of the determinant … -/
def detPositive : ℕ :=
  product MDS_00 MDS_11 MDS_22 + product MDS_01 MDS_12 MDS_20 + product MDS_02 MDS_10 MDS_21

/-- … and the negative one. -/
def detNegative : ℕ :=
  product MDS_00 MDS_12 MDS_21 + product MDS_01 MDS_10 MDS_22 + product MDS_02 MDS_11 MDS_20

theorem det_eq : (params.map toField).toMatrix.det
    = ((detPositive : ℕ) : Element) - ((detNegative : ℕ) : Element) := by
  rw [Matrix.det_fin_three]
  show toField MDS_00 * toField MDS_11 * toField MDS_22
      - toField MDS_00 * toField MDS_12 * toField MDS_21
      - toField MDS_01 * toField MDS_10 * toField MDS_22
      + toField MDS_01 * toField MDS_12 * toField MDS_20
      + toField MDS_02 * toField MDS_10 * toField MDS_21
      - toField MDS_02 * toField MDS_11 * toField MDS_20 = _
  unfold Bn254.toField detPositive detNegative product
  push_cast
  ring

/-- **The determinant of the matrix is not zero.** -/
theorem det_ne_zero : (params.map toField).toMatrix.det ≠ 0 := by
  have hne : ¬ detPositive ≡ detNegative [MOD Bn254.r] := by decide
  rw [det_eq, sub_ne_zero]
  exact fun h => hne ((ZMod.natCast_eq_natCast_iff _ _ _).mp h)

/-! ## The permutation -/

/-- The field permutation is a bijection. -/
theorem permute_field_bijective :
    Function.Bijective (Poseidon.permute (ringArith Element) (params.map toField)) :=
  Poseidon.permute_bijective pow_five_injective det_ne_zero

/-- **The values `_permute` computes**, for each word of its state: the sums
and products of all the rounds, and the words it starts with. -/
def trace (s : State) : Poseidon.State (Traced Uint256) :=
  Poseidon.permute (wordArith FIELD_MODULUS).traced (params.map Traced.constant)
    ((toState s).map Traced.start)

/-- They lead to what the rounds leave, and all of them are below the modulus. -/
theorem trace_passed {s : State} (hs : s.Below) :
    Poseidon.State.Related (Traced.Passed (fun v => v.toNat < Bn254.r)) (toState (rounds s))
      (trace s) := by
  rw [toState_rounds]
  exact Poseidon.permute_traced params addmod_lt mulmod_lt hs.s0 hs.s1 hs.s2

/-- Below the modulus the rounds tell states apart. -/
theorem rounds_inj {s t : State} (hs : s.Below) (ht : t.Below) (h : rounds s = rounds t) :
    s = t := by
  have hfield := congrArg State.toField h
  rw [toField_rounds, toField_rounds] at hfield
  exact hs.eq_of_toField_eq ht (permute_field_bijective.injective hfield)

/-- **The rounds permute the states of field elements.** -/
theorem rounds_bijOn : Set.BijOn rounds {s | s.Below} {s | s.Below} := by
  have hword : Finite Uint256 := Bytes32.finite
  have hstate : Finite State := by
    refine Finite.of_injective (fun s : State => (s.s0, s.s1, s.s2)) (fun s t h => ?_)
    have hwords : s.s0 = t.s0 ∧ s.s1 = t.s1 ∧ s.s2 = t.s2 := by simpa using h
    cases s
    cases t
    rw [State.mk.injEq]
    exact hwords
  refine (Set.Finite.injOn_iff_bijOn_of_mapsTo (Set.toFinite _) (fun s _ => rounds_below s)).mp ?_
  exact fun s hs t ht h => rounds_inj hs ht h

/-- **The permutation of the contract is injective, and stays in the field.**
Distinct states of field elements are taken to distinct ones, and every word
that is computed on the way is below the modulus. -/
theorem rounds_injective_below :
    (∀ s t : State, s.Below → t.Below → rounds s = rounds t → s = t)
      ∧ (∀ s : State, (rounds s).Below)
      ∧ ∀ s : State, s.Below →
          (trace s).map Traced.value = toState (rounds s)
            ∧ ∀ v, v ∈ (trace s).s0.past ∨ v ∈ (trace s).s1.past ∨ v ∈ (trace s).s2.past →
                v.toNat < Bn254.r := by
  refine ⟨fun s t hs ht h => rounds_inj hs ht h, rounds_below, fun s hs => ⟨?_, ?_⟩⟩
  · have h := trace_passed hs
    show (⟨(trace s).s0.value, (trace s).s1.value, (trace s).s2.value⟩ : Poseidon.State Uint256)
      = toState (rounds s)
    rw [h.s0.1, h.s1.1, h.s2.1]
  · rintro v (hv | hv | hv)
    · exact (trace_passed hs).s0.2 v hv
    · exact (trace_passed hs).s1.2 v hv
    · exact (trace_passed hs).s2.2 v hv

/-- Two states that only differ in the order of their words. -/
theorem rounds_injective_below_swap : rounds ⟨0, 1, 2⟩ ≠ rounds ⟨0, 2, 1⟩ := by
  intro h
  have hsame := rounds_injective_below.1 ⟨0, 1, 2⟩ ⟨0, 2, 1⟩
    ⟨by decide, by decide, by decide⟩ ⟨by decide, by decide, by decide⟩ h
  exact absurd (congrArg State.s1 hsame) (by decide)

end PoseidonHasher
