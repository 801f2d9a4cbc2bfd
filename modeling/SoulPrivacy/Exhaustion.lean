import SoulPrivacy.Run

/-!
# Runs that use something up

Where each allowed call takes something from a weight of the states that matter (`I`), a run
is no longer than the weight it started with, whatever calls it is made of
(`Run.length_add_le`). It can be prolonged until no call goes through any more
(`Run.exists_stuck`). What holds of every state where nothing goes through is then where all
runs lead, if they only go on.
-/

variable {σ Call ε : Type} {step : Call → σ → Except ε σ} {allowed : σ → Call → Prop}

namespace Run

/-- A call before a run. -/
theorem cons {s₀ s₁ s : σ} {c : Call} {tr : List (σ × Call)} (hc : allowed s₀ c)
    (hstep : step c s₀ = .ok s₁) (h : Run step allowed s₁ tr s) :
    Run step allowed s₀ ((s₀, c) :: tr) s := by
  induction h with
  | nil => exact Run.nil.snoc hc hstep
  | snoc _ hc' hstep' ih => exact ih.snoc hc' hstep'

/-- A run that goes on. -/
theorem append {s₀ s₁ s : σ} {tr tr' : List (σ × Call)} (h : Run step allowed s₀ tr s₁)
    (h' : Run step allowed s₁ tr' s) : Run step allowed s₀ (tr ++ tr') s := by
  induction h' with
  | nil => rwa [List.append_nil]
  | snoc _ hc hstep ih =>
    rw [← List.append_assoc]
    exact ih.snoc hc hstep

/-- Calls that all go through are a run. -/
theorem exists_of_foldlM {calls : List Call} {s₀ s : σ} (hall : ∀ s c, allowed s c)
    (h : calls.foldlM (fun s c => step c s) s₀ = .ok s) :
    ∃ tr, Run step allowed s₀ tr s ∧ tr.map Prod.snd = calls := by
  induction calls generalizing s₀ with
  | nil =>
    obtain rfl := Except.ok.inj h
    exact ⟨[], .nil, rfl⟩
  | cons c calls ih =>
    rw [List.foldlM_cons] at h
    cases hstep : step c s₀ with
    | error e =>
      rw [hstep] at h
      cases h
    | ok s₁ =>
      rw [hstep] at h
      obtain ⟨tr, hrun, hcalls⟩ := ih h
      exact ⟨(s₀, c) :: tr, hrun.cons (hall s₀ c) hstep, congrArg (c :: ·) hcalls⟩

/-- **Nothing goes through any more.** -/
def Stuck (step : Call → σ → Except ε σ) (allowed : σ → Call → Prop) (s : σ) : Prop :=
  ∀ c s', allowed s c → step c s ≠ .ok s'

variable {I : σ → Prop} {weight : σ → ℕ}

/-- **A run is no longer than what it can use up.** -/
theorem length_add_le
    (hlt : ∀ s c s', I s → allowed s c → step c s = .ok s' → I s' ∧ weight s' < weight s)
    {s₀ s : σ} (h₀ : I s₀) {tr : List (σ × Call)} (h : Run step allowed s₀ tr s) :
    I s ∧ tr.length + weight s ≤ weight s₀ := by
  induction h with
  | nil => exact ⟨h₀, (Nat.zero_add _).le⟩
  | @snoc tr s s' c _ hc hstep ih =>
    obtain ⟨hs', hless⟩ := hlt s c s' ih.1 hc hstep
    refine ⟨hs', ?_⟩
    have hle := ih.2
    rw [List.length_append, List.length_singleton]
    omega

/-- **It can go on until nothing goes through.** -/
theorem exists_stuck
    (hlt : ∀ s c s', I s → allowed s c → step c s = .ok s' → I s' ∧ weight s' < weight s)
    {s₀ : σ} (h₀ : I s₀) : ∃ tr s, Run step allowed s₀ tr s ∧ Stuck step allowed s := by
  induction hw : weight s₀ using Nat.strong_induction_on generalizing s₀ with
  | _ w ih =>
    by_cases hstuck : Stuck step allowed s₀
    · exact ⟨[], s₀, .nil, hstuck⟩
    · unfold Stuck at hstuck
      push Not at hstuck
      obtain ⟨c, s₁, hc, hstep⟩ := hstuck
      obtain ⟨h₁, hless⟩ := hlt s₀ c s₁ h₀ hc hstep
      obtain ⟨tr, s, hrun, hend⟩ := ih (weight s₁) (hw ▸ hless) h₁ rfl
      exact ⟨_, s, hrun.cons hc hstep, hend⟩

end Run
