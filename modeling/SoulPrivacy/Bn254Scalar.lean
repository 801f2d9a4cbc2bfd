import SoulPrivacy.Bn254
import SoulPrivacy.PrimeCertificate

/-!
# The scalar field of BN254 is a field

The order of the scalar field is a prime (`r_prime`, by a certificate for each
of the larger primes that divide its predecessor), so its elements are a field.
-/

namespace Bn254

open PrimeCertificate

theorem prime_405928799 : Nat.Prime 405928799 :=
  prime_of_order 29 22 1 [2, 11, 3691, 4999]
    ⟨by norm_num, by norm_num, by norm_num, by norm_num⟩
    (by decide) (by decide) (by decide) (by decide) (by decide)

theorem prime_12048837557 : Nat.Prime 12048837557 :=
  prime_of_order 34 2 2 [2, 7, 661, 93001]
    ⟨by norm_num, by norm_num, by norm_num, by norm_num⟩
    (by decide) (by decide) (by decide) (by decide) (by decide)

theorem prime_5156902474397 : Nat.Prime 5156902474397 :=
  prime_of_order 43 2 2 [2, 107, 12048837557] ⟨by norm_num, by norm_num, prime_12048837557⟩
    (by decide) (by decide) (by decide) (by decide) (by decide)

theorem prime_1670836401704629 : Nat.Prime 1670836401704629 :=
  prime_of_order 51 2 4 [2, 3, 5156902474397] ⟨by norm_num, by norm_num, prime_5156902474397⟩
    (by decide) (by decide) (by decide) (by decide) (by decide)

theorem prime_639533339 : Nat.Prime 639533339 :=
  prime_of_order 30 2 1 [2, 229, 853, 1637]
    ⟨by norm_num, by norm_num, by norm_num, by norm_num⟩
    (by decide) (by decide) (by decide) (by decide) (by decide)

theorem prime_65865678001877903 : Nat.Prime 65865678001877903 :=
  prime_of_order 56 5 1 [2, 83, 379, 1637, 639533339]
    ⟨by norm_num, by norm_num, by norm_num, by norm_num, prime_639533339⟩
    (by decide) (by decide) (by decide) (by decide) (by decide)

theorem prime_13818364434197438864469338081 : Nat.Prime 13818364434197438864469338081 :=
  prime_of_order 94 3 5 [2, 5, 823, 1593227, 65865678001877903]
    ⟨by norm_num, by norm_num, by norm_num, by norm_num, prime_65865678001877903⟩
    (by decide) (by decide) (by decide) (by decide +kernel) (by decide +kernel)

/-- **The order of the scalar field is a prime.** -/
theorem r_prime : r.Prime :=
  prime_of_order 254 5 28 [2, 3, 13, 29, 983, 11003, 237073, 405928799, 1670836401704629,
      13818364434197438864469338081]
    ⟨by norm_num, by norm_num, by norm_num, by norm_num, by norm_num, by norm_num,
      by norm_num, prime_405928799, prime_1670836401704629,
      prime_13818364434197438864469338081⟩
    (by decide) (by decide) (by decide) (by decide +kernel) (by decide +kernel)

end Bn254
