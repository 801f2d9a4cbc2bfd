import SoulPrivacy.CallStack

/-!
# Going on from a configuration

What holds from now on, in a machine whose frames may revert, depends on the frames
that are open now: when one of them reverts, everything since it was opened is
undone, and with it what was to hold. `Onward` are the runs from a configuration in
which the frames that are open there may return and do not revert. The frames that
are opened on the way may do either.

Above the frames that were open, such a run is a run of the machine from an empty
stack (`Step.above`). So an invariant that asks nothing of the open handovers holds
along it as soon as it holds at the start (`Onward.holds`).
-/

namespace CallStack

variable {σ Call Cont Event ε : Type}

/-- **The runs that go on from a configuration**, to another one and the frames that
were open and have not returned yet. -/
inductive Onward (M : Contract σ Call Cont Event ε) (allowed : σ → Call → Prop)
    (c : Config σ (Receipt Call Cont Event) Cont) :
    Config σ (Receipt Call Cont Event) Cont →
      List (Frame σ (Receipt Call Cont Event) Cont) → Prop
  | start : Onward M allowed c c c.stack
  /-- A step above these frames. -/
  | step {d d' base} : Onward M allowed c d base → Step M allowed d d' → base <:+ d'.stack →
      Onward M allowed c d' base
  /-- The innermost of them returns, and its entry point ends. -/
  | returned {d s' saved atSend k base evs} :
      Onward M allowed c d (.code saved atSend k :: base) →
      d.stack = .code saved atSend k :: base →
      M.resume k true d.now.state = .ok (s', evs) →
      Onward M allowed c ⟨⟨s', d.now.trace ++ [.resumed k evs]⟩, base⟩ base
  /-- … or it is foreign code and returns. -/
  | guestReturn {d saved base} : Onward M allowed c d (.guest saved :: base) →
      d.stack = .guest saved :: base → Onward M allowed c ⟨d.now, base⟩ base

variable {M : Contract σ Call Cont Event ε} {allowed : σ → Call → Prop}
variable {c d d' : Config σ (Receipt Call Cont Event) Cont}
variable {base : List (Frame σ (Receipt Call Cont Event) Cont)}

/-- Going on is running. -/
theorem Onward.reflTransGen (h : Onward M allowed c d base) :
    Relation.ReflTransGen (Step M allowed) c d := by
  induction h with
  | start => exact .refl
  | step _ hstep _ ih => exact ih.tail hstep
  | @returned d s' saved atSend k base evs _ hstack hresume ih =>
    obtain ⟨⟨s, tr⟩, stk⟩ := d
    cases hstack
    exact ih.tail (.returned hresume)
  | @guestReturn d saved base _ hstack ih =>
    obtain ⟨p, stk⟩ := d
    cases hstack
    exact ih.tail .guestReturn

/-- A step with some of the calls is a step. -/
theorem Step.any (h : Step M allowed c d) : Step M (fun _ _ => True) c d := by
  cases h with
  | call _ he => exact .call trivial he
  | handover _ he hsend => exact .handover trivial he hsend
  | uncovered _ he hsend hr => exact .uncovered trivial he hsend hr
  | returned hr => exact .returned hr
  | failed hr => exact .failed hr
  | reverted => exact .reverted
  | guestOpen => exact .guestOpen
  | guestReturn => exact .guestReturn
  | guestRevert => exact .guestRevert
  | outside ho => exact .outside ho
  | tick ht => exact .tick ht

/-- What is reachable stays so. -/
theorem Onward.reachable {s₀ : σ} (h : Onward M allowed c d base)
    (hreach : Reachable M (fun _ _ => True) s₀ c) : Reachable M (fun _ _ => True) s₀ d :=
  hreach.trans (Relation.ReflTransGen.mono (fun _ _ => Step.any) _ _ h.reflTransGen)

/-- A frame that is popped while the others stay is above them. -/
theorem exists_cons_of_suffix {α : Type} {f : α} {fs stk base : List α}
    (h : fs ++ base = f :: stk) (hbase : base <:+ stk) :
    ∃ fs', fs = f :: fs' ∧ stk = fs' ++ base := by
  cases fs with
  | nil =>
    rw [show base = f :: stk from h] at hbase
    exact absurd hbase.length_le (Nat.not_succ_le_self _)
  | cons f' fs' =>
    obtain ⟨rfl, hstk⟩ := List.cons.inj h
    exact ⟨fs', rfl, hstk.symm⟩

/-- **Above the frames that stay, a step is a step**, whatever they are. -/
theorem Step.above {p : Checkpoint σ (Receipt Call Cont Event)}
    {fs : List (Frame σ (Receipt Call Cont Event) Cont)} (hs : Step M allowed c d)
    (hc : c = ⟨p, fs ++ base⟩) (hbase : base <:+ d.stack) :
    ∃ fs', d.stack = fs' ++ base ∧ Step M allowed ⟨p, fs⟩ ⟨d.now, fs'⟩ := by
  cases hs with
  | call ha he =>
    cases hc
    exact ⟨fs, rfl, .call ha he⟩
  | handover ha he hsend =>
    cases hc
    exact ⟨_, rfl, .handover ha he hsend⟩
  | uncovered ha he hsend hr =>
    cases hc
    exact ⟨fs, rfl, .uncovered ha he hsend hr⟩
  | guestOpen =>
    cases hc
    exact ⟨_, rfl, .guestOpen⟩
  | outside ho =>
    cases hc
    exact ⟨fs, rfl, .outside ho⟩
  | tick ht =>
    obtain ⟨rfl, hnil⟩ := Config.mk.inj hc
    obtain ⟨rfl, rfl⟩ := List.append_eq_nil_iff.mp hnil.symm
    exact ⟨[], rfl, .tick ht⟩
  | returned hr =>
    obtain ⟨rfl, hstack⟩ := Config.mk.inj hc
    obtain ⟨fs', rfl, hstk⟩ := exists_cons_of_suffix hstack.symm hbase
    exact ⟨fs', hstk, .returned hr⟩
  | failed hr =>
    obtain ⟨-, hstack⟩ := Config.mk.inj hc
    obtain ⟨fs', rfl, hstk⟩ := exists_cons_of_suffix hstack.symm hbase
    exact ⟨fs', hstk, .failed hr⟩
  | reverted =>
    obtain ⟨-, hstack⟩ := Config.mk.inj hc
    obtain ⟨fs', rfl, hstk⟩ := exists_cons_of_suffix hstack.symm hbase
    exact ⟨fs', hstk, .reverted⟩
  | guestReturn =>
    obtain ⟨rfl, hstack⟩ := Config.mk.inj hc
    obtain ⟨fs', rfl, hstk⟩ := exists_cons_of_suffix hstack.symm hbase
    exact ⟨fs', hstk, .guestReturn⟩
  | guestRevert =>
    obtain ⟨-, hstack⟩ := Config.mk.inj hc
    obtain ⟨fs', rfl, hstk⟩ := exists_cons_of_suffix hstack.symm hbase
    exact ⟨fs', hstk, .guestRevert⟩

section Induction

variable {I J : Checkpoint σ (Receipt Call Cont Event) → Prop}

/-- **An invariant holds from then on**, and at every checkpoint that a revert of a
frame opened since then could go back to. -/
theorem Onward.sound (hinv : Invariant M allowed (fun _ => I) (fun _ _ => J)) (hinit : I c.now)
    (h : Onward M allowed c d base) :
    ∃ fs, d.stack = fs ++ base ∧ Sound (fun _ => I) (fun _ _ => J) d.now fs := by
  induction h with
  | start => exact ⟨[], rfl, hinit⟩
  | @step d d' base _ hstep hbase ih =>
    obtain ⟨fs, hstack, hsound⟩ := ih
    have hd : d = ⟨d.now, fs ++ base⟩ := by rw [← hstack]
    obtain ⟨fs', hstack', hstep'⟩ := hstep.above hd hbase
    exact ⟨fs', hstack', hinv.step hsound hstep'⟩
  | @returned d s' saved atSend k base evs _ _ hresume ih =>
    obtain ⟨fs, -, hsound⟩ := ih
    have hnow := @Invariant.resume_true _ _ _ _ _ _ _ _ _ hinv [] _ _ _ _ hsound.current hresume
    exact ⟨[], rfl, hnow⟩
  | guestReturn _ _ ih =>
    obtain ⟨fs, -, hsound⟩ := ih
    exact ⟨[], rfl, hsound.current⟩

/-- **An invariant holds from then on.** -/
theorem Onward.holds (hinv : Invariant M allowed (fun _ => I) (fun _ _ => J)) (hinit : I c.now)
    (h : Onward M allowed c d base) : I d.now := by
  obtain ⟨fs, -, hsound⟩ := h.sound hinv hinit
  exact hsound.current

end Induction

end CallStack
