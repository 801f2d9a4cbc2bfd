import SoulPrivacy.PrimeCertificate
import Mathlib.FieldTheory.Finite.Basic
import Mathlib.GroupTheory.OrderOfElement

/-!
# The base field of Pallas

The integers modulo `p` are a field (`p_prime`, by a certificate for each
large prime that the test of `p` asks for). Five does not divide `p - 1`, so
raising to the fifth power is a permutation of the field, and each element is
a power of any exponent that is a power of five (`exists_pow_eq`).
-/

namespace Pallas

open PrimeCertificate

/-- The order of the field. -/
def p : ℕ := 0x40000000000000000000000000000000224698fc094cf91b992d30ed00000001

/-! ## Primality -/

theorem prime_417677162933 : Nat.Prime 417677162933 :=
  prime_of_order 39 2 2 [2, 59, 1973, 897019]
    ⟨by norm_num, by norm_num, by norm_num, by norm_num⟩
    (by decide) (by decide) (by decide) (by decide) (by decide)

theorem prime_539204044132271846773 : Nat.Prime 539204044132271846773 :=
  prime_of_order 69 5 5 [2, 3, 89, 14923, 417677162933]
    ⟨by norm_num, by norm_num, by norm_num, by norm_num, prime_417677162933⟩
    (by decide) (by decide) (by decide) (by decide +kernel) (by decide +kernel)

theorem prime_41655379 : Nat.Prime 41655379 :=
  prime_of_order 26 2 1 [2, 3, 6942563] ⟨by norm_num, by norm_num, by norm_num⟩
    (by decide) (by decide) (by decide) (by decide) (by decide)

theorem prime_22160661629 : Nat.Prime 22160661629 :=
  prime_of_order 35 3 2 [2, 7, 19, 41655379]
    ⟨by norm_num, by norm_num, by norm_num, prime_41655379⟩
    (by decide) (by decide) (by decide) (by decide) (by decide)

theorem prime_325086459374267 : Nat.Prime 325086459374267 :=
  prime_of_order 49 2 1 [2, 509, 413527, 772231]
    ⟨by norm_num, by norm_num, by norm_num, by norm_num⟩
    (by decide) (by decide) (by decide) (by decide) (by decide)

theorem prime_8999194758858563409123804352480028797519453 :
    Nat.Prime 8999194758858563409123804352480028797519453 :=
  prime_of_order 143 2 4 [2, 3, 11, 2531, 115603, 1197907, 22160661629, 325086459374267]
    ⟨by norm_num, by norm_num, by norm_num, by norm_num, by norm_num, by norm_num,
      prime_22160661629, prime_325086459374267⟩
    (by decide) (by decide) (by decide) (by decide +kernel) (by decide +kernel)

theorem p_prime : p.Prime :=
  prime_of_order 255 5 32 [2, 3, 463, 539204044132271846773,
      8999194758858563409123804352480028797519453]
    ⟨by norm_num, by norm_num, by norm_num, prime_539204044132271846773,
      prime_8999194758858563409123804352480028797519453⟩
    (by decide) (by decide) (by decide) (by decide +kernel) (by decide +kernel)

instance : Fact p.Prime := ⟨p_prime⟩

/-! ## Powers -/

/-- **Each element is a power of any exponent prime to `p - 1`.** -/
theorem exists_pow_eq {n : ℕ} (hn : (p - 1).Coprime n) (hpos : n ≠ 0) (y : ZMod p) :
    ∃ x : ZMod p, x ^ n = y := by
  rcases eq_or_ne y 0 with rfl | hy
  · exact ⟨0, zero_pow hpos⟩
  · have hcard : (Nat.card (ZMod p)ˣ).Coprime n := by
      rw [Nat.card_eq_fintype_card, ZMod.card_units]
      exact hn
    -- a power prime to the order of the group of units permutes it
    obtain ⟨x, hx⟩ := (powCoprime hcard).surjective (Units.mk0 y hy)
    refine ⟨x, ?_⟩
    rw [← Units.val_pow_eq_pow_val]
    exact congrArg Units.val hx

end Pallas
