import SoulPrivacy.CallStack
import SoulPrivacy.Solidity

/-!
# Computed runs

A run in which nothing reverts is determined by its calls, by where they return, and by
what happens between the transactions. Where the calls that are allowed can be decided
(`Player`), such a run can be computed (`Player.run`), and what it computes is a run of
the machine (`Player.exists_of_run`).
-/

namespace CallStack

variable {σ Call Cont Event ε τ : Type}

/-- **What it takes to compute a run**: to decide which calls are allowed, and to know
what may happen between transactions. -/
structure Player (M : Contract σ Call Cont Event ε) (allowed : σ → Call → Prop) (τ : Type) where
  permits : σ → Call → Bool
  allowed_of_permits : ∀ {s c}, permits s c = true → allowed s c
  wait : τ → σ → Option σ
  tick_of_wait : ∀ {t s s'}, wait t s = some s' → M.tick s s'

/-- A step of a run that nothing reverts. -/
inductive Move (Call τ : Type) where
  | call (c : Call)
  | back
  | wait (t : τ)

namespace Player

variable {M : Contract σ Call Cont Event ε} {allowed : σ → Call → Prop}
variable (P : Player M allowed τ)

/-- The configuration after a call, from what its first part gave. -/
def afterEnter (p : Config σ (Receipt Call Cont Event) Cont) (c : Call) :
    σ × List Event × Option Cont → Option (Config σ (Receipt Call Cont Event) Cont)
  | (s, evs, none) => some ⟨⟨s, p.now.trace ++ [.entered c evs]⟩, p.stack⟩
  | (s, evs, some k) => (M.send k s).map fun s' =>
      ⟨⟨s', p.now.trace ++ [.entered c evs]⟩,
        .code p.now ⟨s, p.now.trace ++ [.entered c evs]⟩ k :: p.stack⟩

/-- The configuration after a move, if the machine can make it. -/
def apply (p : Config σ (Receipt Call Cont Event) Cont) :
    Move Call τ → Option (Config σ (Receipt Call Cont Event) Cont)
  | .call c =>
    if P.permits p.now.state c = true then
      (M.enter c p.now.state).toOption.bind (afterEnter (M := M) p c)
    else none
  | .back =>
    match p.stack with
    | .code _ _ k :: rest =>
      (M.resume k true p.now.state).toOption.map fun (s, evs) =>
        ⟨⟨s, p.now.trace ++ [.resumed k evs]⟩, rest⟩
    | _ => none
  | .wait t =>
    match p.stack with
    | [] => (P.wait t p.now.state).map fun s => ⟨⟨s, p.now.trace⟩, []⟩
    | _ => none

/-- The configuration after a list of moves. -/
def run (p : Config σ (Receipt Call Cont Event) Cont) (moves : List (Move Call τ)) :
    Option (Config σ (Receipt Call Cont Event) Cont) :=
  moves.foldlM P.apply p

variable {P}

theorem toOption_eq_some {α : Type} {x : Except ε α} {a : α} (h : x.toOption = some a) :
    x = .ok a := by
  cases x with
  | ok b => exact congrArg Except.ok (Option.some.inj h)
  | error e => cases h

/-- A computed move is a step of the machine. -/
theorem step_of_apply {p p' : Config σ (Receipt Call Cont Event) Cont} {m : Move Call τ}
    (h : P.apply p m = some p') : Step M allowed p p' := by
  obtain ⟨⟨s, tr⟩, stk⟩ := p
  cases m with
  | call c =>
    rw [apply, Option.ite_none_right_eq_some] at h
    obtain ⟨hpermits, h⟩ := h
    obtain ⟨⟨s', evs, k⟩, he, h⟩ := Option.bind_eq_some_iff.mp h
    cases k with
    | none =>
      cases h
      exact .call (P.allowed_of_permits hpermits) (toOption_eq_some he)
    | some k =>
      obtain ⟨s'', hsend, rfl⟩ := Option.map_eq_some_iff.mp h
      exact .handover (P.allowed_of_permits hpermits) (toOption_eq_some he) hsend
  | back =>
    rw [apply] at h
    split at h
    · rename_i hstack
      obtain rfl : stk = _ := hstack
      obtain ⟨⟨s', evs⟩, hr, rfl⟩ := Option.map_eq_some_iff.mp h
      exact .returned (toOption_eq_some hr)
    · cases h
  | wait t =>
    rw [apply] at h
    split at h
    · rename_i hstack
      obtain rfl : stk = [] := hstack
      obtain ⟨s', hwait, rfl⟩ := Option.map_eq_some_iff.mp h
      exact .tick (P.tick_of_wait hwait)
    · cases h

/-- **A computed run is a run of the machine.** -/
theorem steps_of_run {p p' : Config σ (Receipt Call Cont Event) Cont}
    {moves : List (Move Call τ)} (h : P.run p moves = some p') :
    Relation.ReflTransGen (Step M allowed) p p' := by
  induction moves generalizing p with
  | nil =>
    cases h
    exact .refl
  | cons m moves ih =>
    obtain ⟨p₁, hfirst, hrest⟩ := Option.bind_eq_some_iff.mp h
    exact .head (step_of_apply hfirst) (ih hrest)

/-- **What a computed run shows is reached.** -/
theorem exists_of_run (P : Player M allowed τ) (p : Config σ (Receipt Call Cont Event) Cont)
    (moves : List (Move Call τ)) (shows : Config σ (Receipt Call Cont Event) Cont → Bool)
    (h : (P.run p moves).any shows = true) :
    ∃ p', Relation.ReflTransGen (Step M allowed) p p' ∧ shows p' = true := by
  obtain ⟨p', hrun, hshows⟩ := (Option.any_eq_true shows _).mp h
  exact ⟨p', steps_of_run hrun, hshows⟩

end Player

end CallStack
