import Mathlib.NumberTheory.LucasPrimality
import Mathlib.Tactic.NormNum.Prime
import Mathlib.Tactic.Ring

/-!
# Certificates of primality

Lucas' test shows that `p` is a prime from an element whose order modulo
`p` is `p - 1`, given the primes that divide `p - 1`. The powers it asks for
are computed by repeated squaring (`powMod`), so that the test of a number of
the size of a field is a computation of the kernel.
-/

namespace PrimeCertificate

/-- **A power modulo `m`**, over the binary digits of the exponent, as many
as `digits`. -/
def powMod (m : ℕ) : ℕ → ℕ → ℕ → ℕ
  | 0, _, _ => 1
  | digits + 1, a, n => a ^ (n % 2) * powMod m digits (a * a % m) (n / 2) % m

theorem powMod_modEq (m : ℕ) {digits n : ℕ} (a : ℕ) (hn : n < 2 ^ digits) :
    powMod m digits a n ≡ a ^ n [MOD m] := by
  induction digits generalizing a n with
  | zero =>
    rw [show n = 0 from Nat.lt_one_iff.mp hn, pow_zero]
    rfl
  | succ digits ih =>
    have hhalf : n / 2 < 2 ^ digits := by
      rw [pow_succ] at hn
      exact Nat.div_lt_of_lt_mul (by rwa [Nat.mul_comm])
    calc powMod m (digits + 1) a n
        ≡ a ^ (n % 2) * powMod m digits (a * a % m) (n / 2) [MOD m] := Nat.mod_modEq _ _
      _ ≡ a ^ (n % 2) * (a * a % m) ^ (n / 2) [MOD m] := (ih _ hhalf).mul_left _
      _ ≡ a ^ (n % 2) * (a * a) ^ (n / 2) [MOD m] :=
        ((Nat.mod_modEq _ _).pow _).mul_left _
      _ = a ^ n := by
        rw [← pow_two, ← pow_mul, ← pow_add, Nat.mod_add_div]

/-- A power computed so is one in the integers modulo `m` when it is
computed to one. -/
theorem pow_eq_one_iff {m digits n a : ℕ} (hm : 1 < m) (hn : n < 2 ^ digits) :
    (a : ZMod m) ^ n = 1 ↔ powMod m digits a n % m = 1 := by
  rw [← Nat.cast_pow, ← Nat.cast_one, ZMod.natCast_eq_natCast_iff]
  unfold Nat.ModEq
  rw [Nat.mod_eq_of_lt hm, powMod_modEq m a hn]

/-- **Lucas' test**: `qs` are primes, `p - 1` divides a power of their
product, and `a` has order `p - 1`. -/
theorem prime_of_order {p : ℕ} (digits a k : ℕ) (qs : List ℕ) (hqs : qs.Forall Nat.Prime)
    (hp : 1 < p) (hdigits : p ≤ 2 ^ digits) (hdvd : p - 1 ∣ qs.prod ^ k)
    (hone : powMod p digits a (p - 1) % p = 1)
    (hne : ∀ q ∈ qs, powMod p digits a ((p - 1) / q) % p ≠ 1) : p.Prime := by
  have hlt : p - 1 < 2 ^ digits := by omega
  refine lucas_primality p a ((pow_eq_one_iff hp hlt).mpr hone) fun q hq hqdvd heq => ?_
  -- a prime that divides `p - 1` is one of the list
  have hqprod : q ∣ qs.prod := hq.dvd_of_dvd_pow (hqdvd.trans hdvd)
  obtain ⟨r, hr, hqr⟩ := (Prime.dvd_prod_iff hq.prime).mp hqprod
  obtain rfl := (Nat.prime_dvd_prime_iff_eq hq (List.forall_iff_forall_mem.mp hqs r hr)).mp hqr
  exact hne q hr ((pow_eq_one_iff hp ((Nat.div_le_self _ _).trans_lt hlt)).mp heq)

end PrimeCertificate
