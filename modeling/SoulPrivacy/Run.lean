import SoulPrivacy.KeyedReceiver
import Mathlib.Logic.Relation

/-!
# Runs of a state machine that may refuse

A machine is a function that takes a call and a state and either refuses
or gives the next state. A refused call leaves the state as it was, so a
run is the sequence of the calls that went through. The trace keeps each
of them with the state it was made in, and `allowed` is a side condition
on the calls of the run: the runs of a machine as such are those of the
condition that always holds.

`Run.invariant` is the induction every safety result about a run goes
through. Where a property of the states breaks with the first call of some
kind, `Run.throughout_iff` says so: the property holds in every state of the
run exactly when each call is of the other kind. The kind of a call may
depend on the calls before it (`Run.throughout_iff_eachAfter`).
-/

variable {σ Call ε : Type}

/-- **The runs of a machine from `s₀`**: the calls that went through, each
with the state it was made in, and the state they lead to. -/
inductive Run (step : Call → σ → Except ε σ) (allowed : σ → Call → Prop)
    (s₀ : σ) : List (σ × Call) → σ → Prop
  | nil : Run step allowed s₀ [] s₀
  | snoc {tr : List (σ × Call)} {s s' : σ} {c : Call} :
      Run step allowed s₀ tr s → allowed s c → step c s = .ok s' →
        Run step allowed s₀ (tr ++ [(s, c)]) s'

namespace Run

variable {step : Call → σ → Except ε σ} {allowed : σ → Call → Prop} {s₀ : σ}

/-- **What holds at the start and is kept by each allowed call holds
throughout the run.** -/
theorem invariant {I : List (σ × Call) → σ → Prop} (init : I [] s₀)
    (next : ∀ tr s c s', I tr s → allowed s c → step c s = .ok s' →
      I (tr ++ [(s, c)]) s')
    {tr : List (σ × Call)} {s : σ} (h : Run step allowed s₀ tr s) :
    I tr s := by
  induction h with
  | nil => exact init
  | snoc _ hc hs ih => exact next _ _ _ _ ih hc hs

/-- A run under a condition is a run under any weaker one. -/
theorem mono {allowed' : σ → Call → Prop}
    (himp : ∀ s c, allowed s c → allowed' s c)
    {tr : List (σ × Call)} {s : σ} (h : Run step allowed s₀ tr s) :
    Run step allowed' s₀ tr s := by
  induction h with
  | nil => exact Run.nil
  | snoc _ hc hs ih => exact Run.snoc ih (himp _ _ hc) hs

/-! ## Properties of all the states of a run -/

/-- **A property holds in every state of a run**, each taken with the calls
made before it. -/
def Throughout (P : List (σ × Call) → σ → Prop) (tr : List (σ × Call)) (s : σ) : Prop :=
  P tr s ∧ ∀ tr₁ p tr₂, tr = tr₁ ++ p :: tr₂ → P tr₁ p.1

theorem throughout_nil {P : List (σ × Call) → σ → Prop} {s : σ} :
    Throughout P [] s ↔ P [] s := by
  refine and_iff_left_iff_imp.mpr (fun _ tr₁ p tr₂ heq => ?_)
  exact absurd heq.symm (List.append_ne_nil_of_right_ne_nil tr₁ (List.cons_ne_nil p tr₂))

/-- The states of a longer run are those of the run and the last one. -/
theorem throughout_snoc {P : List (σ × Call) → σ → Prop} {tr : List (σ × Call)} {s s' : σ}
    {c : Call} :
    Throughout P (tr ++ [(s, c)]) s' ↔ Throughout P tr s ∧ P (tr ++ [(s, c)]) s' := by
  constructor
  · rintro ⟨hlast, hall⟩
    refine ⟨⟨hall tr (s, c) [] rfl, fun tr₁ p tr₂ heq => ?_⟩, hlast⟩
    exact hall tr₁ p (tr₂ ++ [(s, c)]) (by rw [heq, List.append_assoc, List.cons_append])
  · rintro ⟨⟨hs, hall⟩, hlast⟩
    refine ⟨hlast, fun tr₁ p tr₂ heq => ?_⟩
    rcases List.eq_nil_or_concat tr₂ with rfl | ⟨tr₃, q, rfl⟩
    · obtain ⟨rfl, hp⟩ := List.append_inj' heq rfl
      cases hp
      exact hs
    · rw [List.concat_eq_append, ← List.cons_append, ← List.append_assoc] at heq
      exact hall tr₁ p tr₃ (List.append_inj' heq rfl).1

/-- **A property that breaks with the first call that is not good** holds throughout
a run exactly when all of its calls are good: as long as they are, it is kept. -/
theorem throughout_iff {P : List (σ × Call) → σ → Prop} (good : σ → Call → Prop)
    (init : P [] s₀)
    (next : ∀ tr s c s', P tr s → allowed s c → step c s = .ok s' →
      (P (tr ++ [(s, c)]) s' ↔ good s c))
    {tr : List (σ × Call)} {s : σ} (h : Run step allowed s₀ tr s) :
    Throughout P tr s ↔ ∀ p ∈ tr, good p.1 p.2 := by
  induction h with
  | nil =>
    exact iff_of_true (throughout_nil.mpr init) (fun _ hp => absurd hp List.not_mem_nil)
  | @snoc tr s s' c _ hc hs ih =>
    rw [throughout_snoc, List.forall_mem_append, List.forall_mem_singleton, ← ih]
    exact and_congr_right (fun hall => next tr s c s' hall.1 hc hs)

/-- **… where it depends on the calls before it** which calls are good. -/
theorem throughout_iff_eachAfter {P : List (σ × Call) → σ → Prop}
    (good : List (σ × Call) → σ → Call → Prop) (init : P [] s₀)
    (next : ∀ tr s c s', P tr s → allowed s c → step c s = .ok s' →
      (P (tr ++ [(s, c)]) s' ↔ good tr s c))
    {tr : List (σ × Call)} {s : σ} (h : Run step allowed s₀ tr s) :
    Throughout P tr s ↔ EachAfter (fun before p => good before p.1 p.2) tr := by
  induction h with
  | nil => exact iff_of_true (throughout_nil.mpr init) EachAfter.nil
  | @snoc tr s s' c _ hc hs ih =>
    rw [throughout_snoc, EachAfter.append_singleton_iff, ← ih]
    exact and_congr_right (fun hall => next tr s c s' hall.1 hc hs)

/-- Two properties in every state. -/
theorem throughout_and_iff {P Q : List (σ × Call) → σ → Prop} {tr : List (σ × Call)} {s : σ} :
    Throughout (fun tr s => P tr s ∧ Q tr s) tr s ↔ Throughout P tr s ∧ Throughout Q tr s := by
  constructor
  · rintro ⟨hlast, hall⟩
    exact ⟨⟨hlast.1, fun tr₁ p tr₂ heq => (hall tr₁ p tr₂ heq).1⟩,
      ⟨hlast.2, fun tr₁ p tr₂ heq => (hall tr₁ p tr₂ heq).2⟩⟩
  · rintro ⟨⟨hP, hallP⟩, ⟨hQ, hallQ⟩⟩
    exact ⟨⟨hP, hQ⟩, fun tr₁ p tr₂ heq => ⟨hallP tr₁ p tr₂ heq, hallQ tr₁ p tr₂ heq⟩⟩

end Run
