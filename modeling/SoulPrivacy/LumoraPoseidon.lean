import SoulPrivacy.LumoraCircuits
import Mathlib.Tactic.Ring

/-!
# What the Poseidon chip constrains

The chip enables its gates at 65 rows and returns the second state cell of
the row after them. A full round ties each state cell to the one above it,
without the matrix; a partial round ties the first cell only. So the second
cell is tied over the first four rows and over the last four, and nothing
ties the row where the partial rounds end to the row where they begin.

What is left of the chip is that its output is the fourth iterate of the
fifth power of some value, and the fifth power is a permutation of the field:
each element is an output, whatever the inputs are (`hash_spec`). No
constants make a permutation of that, and the output is not even a function
of the inputs.
-/

namespace Lumora

open Halo2 PoseidonConfig

/-- The arithmetic of the field. -/
def fieldArith : Poseidon.Arith Fp := ⟨fun a b => a + b, fun a b => a * b⟩

/-- **The hash the chip is named after**: the second value of the permutation
of zero and the inputs. -/
def poseidonHash (P : Poseidon.Params Fp) (left right : Fp) : Fp :=
  (Poseidon.permute fieldArith P ⟨0, left, right⟩).s1

/-! ## The gates -/

theorem sbox_eq_pow (x : Fp) : sbox x = x ^ 5 := by
  show x * x * (x * x) * x = x ^ 5
  ring

/-- A full round raises each cell to the fifth power, and no more. -/
theorem fullRound_iff {region : Region Column Fp} {row : ℕ} :
    (∀ v ∈ configure.fullRound region row, v = 0)
      ↔ ∀ i, region (.state i) (row + 1) = region (.state i) row ^ 5 := by
  show (∀ v ∈ (List.finRange 3).map (fun i =>
    region (.state i) (row + 1) - sbox (region (.state i) row + 0)), v = 0) ↔ _
  rw [List.forall_mem_map]
  constructor
  · intro h i
    have hi := h i (List.mem_finRange i)
    rw [add_zero, sbox_eq_pow] at hi
    exact sub_eq_zero.mp hi
  · intro h i _
    rw [add_zero, sbox_eq_pow]
    exact sub_eq_zero.mpr (h i)

/-- A partial round says nothing about two of the three cells. -/
theorem partialRound_iff {region : Region Column Fp} {row : ℕ} :
    (∀ v ∈ configure.partialRound region row, v = 0)
      ↔ region (.state 0) (row + 1) = region (.state 0) row ^ 5 := by
  show (∀ v ∈ [region (.state 0) (row + 1) - sbox (region (.state 0) row + 0)], v = 0) ↔ _
  rw [List.forall_mem_singleton, add_zero, sbox_eq_pow]
  exact sub_eq_zero

/-- **The constraints of the chip, in its region.** -/
theorem hashRegion_eq_some {left right out : Fp} {region : Region Column Fp} :
    configure.hashRegion left right region = some out
      ↔ region (.state 1) 0 = left ∧ region (.state 2) 0 = right
        ∧ (∀ row < 4, ∀ i, region (.state i) (0 + row + 1) = region (.state i) (0 + row) ^ 5)
        ∧ (∀ row < 57, region (.state 0) (4 + row + 1) = region (.state 0) (4 + row) ^ 5)
        ∧ (∀ row < 4, ∀ i, region (.state i) (61 + row + 1) = region (.state i) (61 + row) ^ 5)
        ∧ region (.state 1) 65 = out := by
  unfold PoseidonConfig.hashRegion
  simp only [Option.bind_eq_bind, Option.bind_eq_some_iff, copyAdvice_eq_some,
    enableRows_eq_some, fullRound_iff, partialRound_iff]
  constructor
  · rintro ⟨-, hleft, -, hright, _, ⟨hfirst, rfl⟩, _, ⟨hmiddle, rfl⟩, _, ⟨hlast, rfl⟩, hout⟩
    exact ⟨hleft, hright, hfirst, hmiddle, hlast, Option.some.inj hout⟩
  · rintro ⟨hleft, hright, hfirst, hmiddle, hlast, hout⟩
    exact ⟨(), hleft, (), hright, _, ⟨hfirst, rfl⟩, _, ⟨hmiddle, rfl⟩, _, ⟨hlast, rfl⟩,
      congrArg some hout⟩

/-! ## The outputs -/

/-- A column that starts with `a` and starts again with `b` where the partial
rounds end. -/
def restart (a b : Fp) (row : ℕ) : Fp :=
  if row ≤ 4 then a ^ 5 ^ row else b ^ 5 ^ (row - 61)

theorem restart_first (a b : Fp) {row : ℕ} (h : row < 4) :
    restart a b (row + 1) = restart a b row ^ 5 := by
  unfold restart
  rw [if_pos (by omega), if_pos (by omega), ← pow_mul, ← pow_succ]

theorem restart_last (a b : Fp) (row : ℕ) :
    restart a b (61 + row + 1) = restart a b (61 + row) ^ 5 := by
  unfold restart
  rw [if_neg (by omega), if_neg (by omega), ← pow_mul, ← pow_succ,
    show 61 + row + 1 - 61 = row + 1 by omega, show 61 + row - 61 = row by omega]

theorem restart_zero (row : ℕ) : restart 0 0 row = 0 := by
  unfold restart
  rw [zero_pow (pow_ne_zero row (by decide)), zero_pow (pow_ne_zero (row - 61) (by decide)),
    ite_self]

/-- **A region with given inputs and any fourth iterate as its output.** -/
def forgedRegion (left right x : Fp) : Region Column Fp
  | .state 0, row => restart 0 0 row
  | .state 1, row => restart left x row
  | .state 2, row => restart right 0 row
  | _, _ => 0

theorem hashRegion_forgedRegion (left right x : Fp) :
    configure.hashRegion left right (forgedRegion left right x) = some (x ^ 5 ^ 4) := by
  -- the gates of the first rows, of the partial rounds, and of the last rows
  refine hashRegion_eq_some.mpr ⟨pow_one left, pow_one right, ?_, ?_, ?_, rfl⟩
  · intro row hrow i
    rw [Nat.zero_add]
    fin_cases i
    · exact restart_first 0 0 hrow
    · exact restart_first left x hrow
    · exact restart_first right 0 hrow
  · intro row _
    show restart 0 0 (4 + row + 1) = restart 0 0 (4 + row) ^ 5
    rw [restart_zero, restart_zero, zero_pow (by decide)]
  · intro row _ i
    fin_cases i
    · exact restart_last 0 0 row
    · exact restart_last left x row
    · exact restart_last right 0 row

theorem satisfies_hash {left right out : Fp} {region : Region Column Fp}
    (h : configure.hashRegion left right region = some out) :
    Satisfies (configure.hash left right) [region] out := by
  show (configure.hashRegion left right region).map (fun out => (out, [])) = some (out, [])
  rw [h, Option.map_some]

/-- **The chip checks nothing of its output.** -/
theorem hash_spec (left right : Fp) : Spec (configure.hash left right) (fun _ => True) := by
  -- each element is the value of some `x` after the last four rounds
  refine Spec.assignRegion fun out => iff_true_intro ?_
  obtain ⟨x, hx⟩ := Pallas.exists_pow_eq (n := 5 ^ 4) (by decide +kernel) (by decide) out
  refine ⟨forgedRegion left right x, ?_⟩
  rw [hashRegion_forgedRegion, hx]

/-! ## Soundness of the gadget -/

/-- **The output is the hash of the inputs**, in every satisfying
assignment. -/
def ComputesHash (P : Poseidon.Params Fp) (left right : Fp) : Prop :=
  ∀ regions out, Satisfies (configure.hash left right) regions out →
    out = poseidonHash P left right

/-- Each element is an output for all inputs. -/
theorem exists_output (left right out : Fp) :
    ∃ regions, Satisfies (configure.hash left right) regions out :=
  (hash_spec left right).exists_satisfies trivial

theorem not_determines_output (left right : Fp) :
    ¬ Determines (configure.hash left right) id :=
  (hash_spec left right).not_determines trivial trivial (zero_ne_one (α := Fp))

/-- The output of a hash would be determined by its inputs. -/
theorem ComputesHash.determines {P : Poseidon.Params Fp} {left right : Fp}
    (h : ComputesHash P left right) : Determines (configure.hash left right) id :=
  fun _ _ _ _ hout hout' => (h _ _ hout).trans (h _ _ hout').symm

/-- **The gadget is sound for no inputs and no constants**: it accepts each
element as the output. -/
theorem gadget_never_sound (P : Poseidon.Params Fp) (left right : Fp) :
    ¬ ComputesHash P left right ∧ ¬ Determines (configure.hash left right) id
      ∧ ∀ out, ∃ regions, Satisfies (configure.hash left right) regions out :=
  ⟨fun h => not_determines_output left right h.determines, not_determines_output left right,
    exists_output left right⟩

/-- With the constants of the chip a full round forgets its state. -/
theorem fullRound_params (s rc : Poseidon.State Fp) :
    Poseidon.fullRound fieldArith configure.params s rc = ⟨0, 0, 0⟩ := by
  have hrow (t : Poseidon.State Fp) : Poseidon.row fieldArith ⟨0, 0, 0⟩ t = 0 := by
    show 0 * t.s0 + 0 * t.s1 + 0 * t.s2 = 0
    ring
  unfold Poseidon.fullRound Poseidon.mix
  rw [Poseidon.State.mk.injEq]
  exact ⟨hrow _, hrow _, hrow _⟩

theorem poseidonHash_params (left right : Fp) :
    poseidonHash configure.params left right = 0 := by
  unfold poseidonHash Poseidon.permute
  rw [show configure.params.last = List.replicate 4 ⟨0, 0, 0⟩ from rfl]
  rw [List.replicate_succ', List.foldl_concat, fullRound_params]

/-- **An output that is not the hash**, of one and two under the constants of
the chip. -/
theorem forged_output : ¬ ComputesHash configure.params 1 2 := by
  intro h
  have heq := h _ _ (satisfies_hash (hashRegion_forgedRegion 1 2 1))
  rw [poseidonHash_params, one_pow] at heq
  exact one_ne_zero heq

end Lumora
