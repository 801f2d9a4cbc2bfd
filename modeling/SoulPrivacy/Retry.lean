import Mathlib.Algebra.Order.Group.Nat

/-!
# Attempts that are repeated

Something that may fail is tried until it goes through, or until there is no
attempt left. There are two ways this ends (`run_cases`): after the first
attempt that goes through, or after the last with its error. Once the first
attempt of a kind is known, what is said of the first is said of it
(`forall_first_iff`).
-/

namespace Retry

variable {ε α : Type}

/-- The attempt fails. -/
def Fails (x : Except ε α) : Prop := ∃ e, x = .error e

/-- **Attempts from number `i` on**, until one goes through and with at most `n`
after the first: what the last of them gave, and how many were before it. -/
def run (attempt : ℕ → Except ε α) : ℕ → ℕ → Except ε α × ℕ
  | 0, i => (attempt i, 0)
  | n + 1, i =>
    match attempt i with
    | .ok a => (.ok a, 0)
    | .error _ => ((run attempt n (i + 1)).1, (run attempt n (i + 1)).2 + 1)

variable {attempt : ℕ → Except ε α}

theorem run_of_ok {n i : ℕ} {a : α} (h : attempt i = .ok a) : run attempt n i = (.ok a, 0) := by
  cases n with
  | zero => rw [run, h]
  | succ n => rw [run, h]

theorem run_zero_of_error {i : ℕ} {e : ε} (h : attempt i = .error e) :
    run attempt 0 i = (.error e, 0) := by
  rw [run, h]

theorem run_succ_of_error {n i : ℕ} {e : ε} (h : attempt i = .error e) :
    run attempt (n + 1) i
      = ((run attempt n (i + 1)).1, (run attempt n (i + 1)).2 + 1) := by
  rw [run, h]

/-- **The two ways it ends**: with the first attempt that goes through, or with
the error of the last. -/
theorem run_cases (attempt : ℕ → Except ε α) (n i : ℕ) :
    (∃ k ≤ n, (∀ j < k, Fails (attempt (i + j)))
        ∧ ∃ a, attempt (i + k) = .ok a ∧ run attempt n i = (.ok a, k))
      ∨ ((∀ j ≤ n, Fails (attempt (i + j)))
        ∧ ∃ e, attempt (i + n) = .error e ∧ run attempt n i = (.error e, n)) := by
  induction n generalizing i with
  | zero =>
    cases h : attempt i with
    | ok a => exact Or.inl ⟨0, le_rfl, nofun, a, h, run_of_ok h⟩
    | error e =>
      refine Or.inr ⟨fun j hj => ?_, e, rfl, run_zero_of_error h⟩
      rw [Nat.le_zero.mp hj]
      exact ⟨e, h⟩
  | succ n ih =>
    cases h : attempt i with
    | ok a => exact Or.inl ⟨0, Nat.zero_le _, nofun, a, h, run_of_ok h⟩
    | error e =>
      -- an attempt after the first is one from the next number on
      have hshift : ∀ j, i + 1 + j = i + (j + 1) := fun j => by
        rw [Nat.add_assoc, Nat.add_comm 1 j]
      have hfails : ∀ m, (∀ j < m, Fails (attempt (i + 1 + j))) →
          ∀ j < m + 1, Fails (attempt (i + j)) := by
        intro m hm j hj
        cases j with
        | zero => exact ⟨e, h⟩
        | succ j =>
          rw [← hshift]
          exact hm j (Nat.lt_of_succ_lt_succ hj)
      rcases ih (i + 1) with ⟨k, hk, hbefore, a, hok, hrun⟩ | ⟨hall, e', herror, hrun⟩
      · refine Or.inl ⟨k + 1, Nat.succ_le_succ hk, hfails k hbefore, a, ?_, ?_⟩
        · rw [← hshift, hok]
        · rw [run_succ_of_error h, hrun]
      · have hlast := hfails (n + 1) (fun j hj => hall j (Nat.le_of_lt_succ hj))
        refine Or.inr ⟨fun j hj => hlast j (Nat.lt_succ_of_le hj), e', ?_, ?_⟩
        · rw [← hshift, herror]
        · rw [run_succ_of_error h, hrun]

/-! ## The first of a kind -/

section First

variable {p q : ℕ → Prop} {k n : ℕ}

/-- What is said of the first below a bound, when it is known. -/
theorem forall_first_iff (hk : p k) (hbefore : ∀ j < k, ¬ p j) :
    (∀ i < n, p i → (∀ j < i, ¬ p j) → q i) ↔ (k < n → q k) := by
  constructor
  · exact fun h hkn => h k hkn hk hbefore
  · intro h i hin hi hbeforei
    rcases Nat.lt_trichotomy i k with hik | rfl | hki
    · exact absurd hi (hbefore i hik)
    · exact h hin
    · exact absurd hk (hbeforei k hki)

/-- There is one below a bound when the first is. -/
theorem exists_lt_iff (hk : p k) (hbefore : ∀ j < k, ¬ p j) : (∃ i < n, p i) ↔ k < n := by
  constructor
  · rintro ⟨i, hin, hi⟩
    exact Nat.lt_of_le_of_lt (not_lt.mp fun hik => hbefore i hik hi) hin
  · exact fun hkn => ⟨k, hkn, hk⟩

end First

end Retry
