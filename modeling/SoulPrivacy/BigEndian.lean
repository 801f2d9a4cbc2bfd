import Mathlib.Data.BitVec
import Mathlib.Tactic.Ring

/-!
# Big-endian numbers

The `k` bytes of a number, most significant first (`beBytes`). Cutting them
in two cuts the number with a division (`beBytes_add`), and below `256 ^ k`
the bytes tell which number it is (`beBytes_inj`).
-/

/-- **The last `k` bytes of a number**, most significant first. -/
def beBytes : ℕ → ℕ → List (BitVec 8)
  | 0, _ => []
  | k + 1, n => beBytes k (n / 256) ++ [BitVec.ofNat 8 n]

@[simp] theorem length_beBytes (k n : ℕ) : (beBytes k n).length = k := by
  induction k generalizing n with
  | zero => rfl
  | succ k ih => rw [beBytes, List.length_append, ih, List.length_singleton]

/-- **The first bytes are those of the quotient.** -/
theorem beBytes_add (j k n : ℕ) :
    beBytes (j + k) n = beBytes j (n / 256 ^ k) ++ beBytes k n := by
  induction k generalizing n with
  | zero => rw [Nat.add_zero, pow_zero, Nat.div_one, beBytes, List.append_nil]
  | succ k ih =>
    rw [← Nat.add_assoc, beBytes, ih, beBytes, List.append_assoc, Nat.div_div_eq_div_mul,
      pow_succ']

/-- What stands above the last `k` bytes does not show in them. -/
theorem beBytes_mul_pow_add (k m n : ℕ) : beBytes k (m * 256 ^ k + n) = beBytes k n := by
  induction k generalizing n with
  | zero => rfl
  | succ k ih =>
    have hsplit : m * 256 ^ (k + 1) + n = 256 * (m * 256 ^ k) + n := by
      rw [pow_succ]
      ring
    have hquot : (256 * (m * 256 ^ k) + n) / 256 = m * 256 ^ k + n / 256 :=
      Nat.mul_add_div (Nat.succ_pos 255) _ _
    have hbyte : BitVec.ofNat 8 (256 * (m * 256 ^ k) + n) = BitVec.ofNat 8 n := by
      apply BitVec.eq_of_toNat_eq
      rw [BitVec.toNat_ofNat, BitVec.toNat_ofNat]
      exact Nat.mul_add_mod 256 _ _
    rw [beBytes, beBytes, hsplit, hquot, ih, hbyte]

/-- **Bytes behind one another** are those of one number. -/
theorem beBytes_append (j k m : ℕ) {n : ℕ} (hn : n < 256 ^ k) :
    beBytes j m ++ beBytes k n = beBytes (j + k) (m * 256 ^ k + n) := by
  have hquot : (m * 256 ^ k + n) / 256 ^ k = m := by
    rw [Nat.add_comm, Nat.add_mul_div_right _ _ (Nat.pow_pos (Nat.succ_pos 255)),
      Nat.div_eq_of_lt hn, Nat.zero_add]
  rw [beBytes_add, hquot, beBytes_mul_pow_add]

/-- The bytes one by one. -/
theorem beBytes_eq_map (k n : ℕ) :
    beBytes k n = (List.range k).map (fun i => BitVec.ofNat 8 (n / 256 ^ (k - 1 - i))) := by
  induction k generalizing n with
  | zero => rfl
  | succ k ih =>
    rw [beBytes, ih, List.range_succ, List.map_append, List.map_singleton]
    refine congrArg₂ (· ++ ·) (List.map_congr_left (fun i hi => ?_)) ?_
    · have hpow : k + 1 - 1 - i = k - 1 - i + 1 := by
        have hlt := List.mem_range.mp hi
        omega
      rw [hpow, pow_succ', Nat.div_div_eq_div_mul]
    · rw [Nat.add_sub_cancel, Nat.sub_self, pow_zero, Nat.div_one]

/-- **The bytes tell the number.** -/
theorem beBytes_inj {k m n : ℕ} (hm : m < 256 ^ k) (hn : n < 256 ^ k)
    (h : beBytes k m = beBytes k n) : m = n := by
  induction k generalizing m n with
  | zero => rw [Nat.lt_one_iff.mp hm, Nat.lt_one_iff.mp hn]
  | succ k ih =>
    obtain ⟨hfront, hlast⟩ := List.append_inj' h rfl
    have hlast' : m % 256 = n % 256 := by
      have hbyte := congrArg BitVec.toNat (List.singleton_inj.mp hlast)
      rwa [BitVec.toNat_ofNat, BitVec.toNat_ofNat] at hbyte
    have hquot : m / 256 = n / 256 :=
      ih (Nat.div_lt_of_lt_mul (by rwa [← pow_succ']))
        (Nat.div_lt_of_lt_mul (by rwa [← pow_succ'])) hfront
    rw [← Nat.div_add_mod m 256, ← Nat.div_add_mod n 256, hquot, hlast']

/-- Words of the same width with the same bytes. -/
theorem beBytes_toNat_inj {k w : ℕ} (hw : w ≤ 8 * k) {a b : BitVec w}
    (h : beBytes k a.toNat = beBytes k b.toNat) : a = b := by
  have hpow : 2 ^ w ≤ 256 ^ k := by
    rw [show 256 = 2 ^ 8 by rfl, ← pow_mul]
    exact Nat.pow_le_pow_right Nat.two_pos hw
  exact BitVec.eq_of_toNat_eq
    (beBytes_inj (a.isLt.trans_le hpow) (b.isLt.trans_le hpow) h)

/-! ## Reading them back -/

/-- **The number that some bytes are.** -/
def beNat (bytes : List (BitVec 8)) : ℕ := bytes.foldl (fun n b => 256 * n + b.toNat) 0

theorem beNat_append_singleton (bytes : List (BitVec 8)) (b : BitVec 8) :
    beNat (bytes ++ [b]) = 256 * beNat bytes + b.toNat := by
  unfold beNat
  rw [List.foldl_append]
  rfl

/-- **The last bytes of a number are its remainder.** -/
theorem beNat_beBytes (k n : ℕ) : beNat (beBytes k n) = n % 256 ^ k := by
  induction k generalizing n with
  | zero => rw [pow_zero, Nat.mod_one]; rfl
  | succ k ih =>
    have hsplit : n % 256 ^ (k + 1) = n % 256 + 256 * (n / 256 % 256 ^ k) := by
      rw [pow_succ', Nat.mod_mul]
    rw [beBytes, beNat_append_singleton, ih, BitVec.toNat_ofNat, hsplit]
    exact Nat.add_comm _ _

/-- **The number that some bytes are** has these bytes. -/
theorem beBytes_beNat (bytes : List (BitVec 8)) : beBytes bytes.length (beNat bytes) = bytes := by
  induction bytes using List.reverseRecOn with
  | nil => rfl
  | append_singleton front b ih =>
    have hb : b.toNat < 256 := b.isLt
    have hquot : (256 * beNat front + b.toNat) / 256 = beNat front := by omega
    have hlast : BitVec.ofNat 8 (256 * beNat front + b.toNat) = b := by
      apply BitVec.eq_of_toNat_eq
      rw [BitVec.toNat_ofNat]
      omega
    rw [List.length_append, List.length_singleton, beBytes, beNat_append_singleton, hquot, hlast,
      ih]

theorem beNat_lt (bytes : List (BitVec 8)) : beNat bytes < 256 ^ bytes.length := by
  have hmod := beNat_beBytes bytes.length (beNat bytes)
  rw [beBytes_beNat] at hmod
  rw [hmod]
  exact Nat.mod_lt _ (Nat.pow_pos (Nat.succ_pos 255))
