import Mathlib.Data.List.Basic
import Mathlib.Logic.Relation

/-!
# Contracts that hand over control

An entry point of a contract runs to its end, or up to the one point
where it sends value to another account and with it hands over control.
Until that account returns, it may call the contract again, through any
account, and those calls may hand over control in turn. Any frame may
revert, which takes the state back to where it was when the frame was
opened, with everything nested in it.

`Contract` is what the machine needs to know of a contract: the two parts
of an entry point, before and after the handover, the sending of the
value between them, and what the rest of the world may do to the state.
A configuration is the current state, the trace of what is in effect, and
the stack of open frames, each with the checkpoint a revert goes back to.
A frame of the contract's own code also keeps the checkpoint from before
the value was sent, since a failing recipient undoes the sending but not
the first part. Frames of foreign code, `guest`, stand for a caller that
makes several calls and may undo them together.

`Invariant.holds` is the induction: it is enough to look at the parts of
each entry point and at the sending. Reverts and nestings take care of
themselves, because the checkpoints satisfy the invariant as well.
-/

namespace CallStack

/-- **A contract**: the parts of its entry points, and the moves of the
world around it. -/
structure Contract (σ Call Cont Event ε : Type) where
  /-- An entry point up to the handover, if it has one. -/
  enter : Call → σ → Except ε (σ × List Event × Option Cont)
  /-- The sending of value; `none` when the balance does not cover it. -/
  send : Cont → σ → Option σ
  /-- The rest of the entry point, told whether the recipient returned. -/
  resume : Cont → Bool → σ → Except ε (σ × List Event)
  /-- What other accounts may do at any time. -/
  outside : σ → σ → Prop
  /-- What may happen between transactions. -/
  tick : σ → σ → Prop

/-- What is in effect: the first part of a call, or the rest of it. -/
inductive Receipt (Call Cont Event : Type) where
  | entered (c : Call) (events : List Event)
  | resumed (k : Cont) (events : List Event)

/-- A point a revert goes back to. -/
structure Checkpoint (σ ρ : Type) where
  state : σ
  trace : List ρ

/-- An open frame: suspended code of the contract, or foreign code. -/
inductive Frame (σ ρ Cont : Type) where
  | code (saved atSend : Checkpoint σ ρ) (k : Cont)
  | guest (saved : Checkpoint σ ρ)

/-- A configuration of the machine. -/
structure Config (σ ρ Cont : Type) where
  now : Checkpoint σ ρ
  stack : List (Frame σ ρ Cont)

variable {σ Call Cont Event ε : Type}

/-- The handovers that are open, innermost first. -/
def conts {ρ : Type} : List (Frame σ ρ Cont) → List Cont
  | [] => []
  | .code _ _ k :: rest => k :: conts rest
  | .guest _ :: rest => conts rest

/-- **One step of the machine.** `allowed` is a side condition on the
calls made. -/
inductive Step (M : Contract σ Call Cont Event ε) (allowed : σ → Call → Prop) :
    Config σ (Receipt Call Cont Event) Cont →
      Config σ (Receipt Call Cont Event) Cont → Prop
  /-- A call without a handover. -/
  | call {s s' tr stk c evs} : allowed s c → M.enter c s = .ok (s', evs, none) →
      Step M allowed ⟨⟨s, tr⟩, stk⟩ ⟨⟨s', tr ++ [.entered c evs]⟩, stk⟩
  /-- A call up to its handover. -/
  | handover {s s' s'' tr stk c evs k} : allowed s c →
      M.enter c s = .ok (s', evs, some k) → M.send k s' = some s'' →
      Step M allowed ⟨⟨s, tr⟩, stk⟩
        ⟨⟨s'', tr ++ [.entered c evs]⟩,
          .code ⟨s, tr⟩ ⟨s', tr ++ [.entered c evs]⟩ k :: stk⟩
  /-- A call whose sending is not covered, so that control stays. -/
  | uncovered {s s' s'' tr stk c evs evs' k} : allowed s c →
      M.enter c s = .ok (s', evs, some k) → M.send k s' = none →
      M.resume k false s' = .ok (s'', evs') →
      Step M allowed ⟨⟨s, tr⟩, stk⟩
        ⟨⟨s'', tr ++ [.entered c evs] ++ [.resumed k evs']⟩, stk⟩
  /-- The recipient returns and the entry point ends. -/
  | returned {s s' tr saved atSend stk k evs} : M.resume k true s = .ok (s', evs) →
      Step M allowed ⟨⟨s, tr⟩, .code saved atSend k :: stk⟩
        ⟨⟨s', tr ++ [.resumed k evs]⟩, stk⟩
  /-- The recipient reverts and the entry point ends nevertheless. -/
  | failed {p saved atSend s' stk k evs} :
      M.resume k false atSend.state = .ok (s', evs) →
      Step M allowed ⟨p, .code saved atSend k :: stk⟩
        ⟨⟨s', atSend.trace ++ [.resumed k evs]⟩, stk⟩
  /-- The entry point reverts after the handover. -/
  | reverted {p saved atSend stk k} :
      Step M allowed ⟨p, .code saved atSend k :: stk⟩ ⟨saved, stk⟩
  /-- Foreign code opens a frame of its own. -/
  | guestOpen {p stk} : Step M allowed ⟨p, stk⟩ ⟨p, .guest p :: stk⟩
  /-- … and returns from it. -/
  | guestReturn {p saved stk} :
      Step M allowed ⟨p, .guest saved :: stk⟩ ⟨p, stk⟩
  /-- … or reverts it. -/
  | guestRevert {p saved stk} :
      Step M allowed ⟨p, .guest saved :: stk⟩ ⟨saved, stk⟩
  /-- Another account moves. -/
  | outside {s s' tr stk} : M.outside s s' →
      Step M allowed ⟨⟨s, tr⟩, stk⟩ ⟨⟨s', tr⟩, stk⟩
  /-- Time passes between transactions. -/
  | tick {s s' tr} : M.tick s s' →
      Step M allowed ⟨⟨s, tr⟩, []⟩ ⟨⟨s', tr⟩, []⟩

/-- **The configurations a contract gets into** from an initial state. -/
def Reachable (M : Contract σ Call Cont Event ε) (allowed : σ → Call → Prop)
    (s₀ : σ) (c : Config σ (Receipt Call Cont Event) Cont) : Prop :=
  Relation.ReflTransGen (Step M allowed) ⟨⟨s₀, []⟩, []⟩ c

/-- **An invariant of a contract**: `I` between the parts of the entry
points, knowing the open handovers, and `J` where an entry point has done
its first part and is about to send. -/
structure Invariant (M : Contract σ Call Cont Event ε) (allowed : σ → Call → Prop)
    (I : List Cont → Checkpoint σ (Receipt Call Cont Event) → Prop)
    (J : Cont → List Cont → Checkpoint σ (Receipt Call Cont Event) → Prop) :
    Prop where
  enter_done : ∀ {ks p c s' evs}, I ks p → allowed p.state c →
    M.enter c p.state = .ok (s', evs, none) →
      I ks ⟨s', p.trace ++ [.entered c evs]⟩
  enter_send : ∀ {ks p c s' evs k}, I ks p → allowed p.state c →
    M.enter c p.state = .ok (s', evs, some k) →
      J k ks ⟨s', p.trace ++ [.entered c evs]⟩
  send : ∀ {ks p k s'}, J k ks p → M.send k p.state = some s' →
    I (k :: ks) ⟨s', p.trace⟩
  resume_true : ∀ {ks p k s' evs}, I (k :: ks) p →
    M.resume k true p.state = .ok (s', evs) →
      I ks ⟨s', p.trace ++ [.resumed k evs]⟩
  resume_false : ∀ {ks p k s' evs}, J k ks p →
    M.resume k false p.state = .ok (s', evs) →
      I ks ⟨s', p.trace ++ [.resumed k evs]⟩
  outside : ∀ {ks p s'}, I ks p → M.outside p.state s' → I ks ⟨s', p.trace⟩
  tick : ∀ {p s'}, I [] p → M.tick p.state s' → I [] ⟨s', p.trace⟩

section Induction

variable {M : Contract σ Call Cont Event ε} {allowed : σ → Call → Prop}
variable {I : List Cont → Checkpoint σ (Receipt Call Cont Event) → Prop}
variable {J : Cont → List Cont → Checkpoint σ (Receipt Call Cont Event) → Prop}

/-- The invariant at the current point and at every checkpoint below. -/
def Sound (I : List Cont → Checkpoint σ (Receipt Call Cont Event) → Prop)
    (J : Cont → List Cont → Checkpoint σ (Receipt Call Cont Event) → Prop) :
    Checkpoint σ (Receipt Call Cont Event) →
      List (Frame σ (Receipt Call Cont Event) Cont) → Prop
  | p, [] => I [] p
  | p, .code saved atSend k :: rest =>
    I (k :: conts rest) p ∧ J k (conts rest) atSend ∧ Sound I J saved rest
  | p, .guest saved :: rest => I (conts rest) p ∧ Sound I J saved rest

theorem Sound.current {p : Checkpoint σ (Receipt Call Cont Event)}
    {stk : List (Frame σ (Receipt Call Cont Event) Cont)} (h : Sound I J p stk) :
    I (conts stk) p := by
  cases stk with
  | nil => exact h
  | cons f rest =>
    cases f with
    | code saved atSend k => exact h.1
    | guest saved => exact h.1

/-- The checkpoints do not depend on the current point. -/
theorem Sound.replace {p p' : Checkpoint σ (Receipt Call Cont Event)}
    {stk : List (Frame σ (Receipt Call Cont Event) Cont)} (h : Sound I J p stk)
    (hI : I (conts stk) p') : Sound I J p' stk := by
  cases stk with
  | nil => exact hI
  | cons f rest =>
    cases f with
    | code saved atSend k => exact ⟨hI, h.2⟩
    | guest saved => exact ⟨hI, h.2⟩

/-- **One step keeps the invariant everywhere.** -/
theorem Invariant.step (hinv : Invariant M allowed I J)
    {c c' : Config σ (Receipt Call Cont Event) Cont}
    (h : Sound I J c.now c.stack) (hs : Step M allowed c c') :
    Sound I J c'.now c'.stack := by
  cases hs with
  | call ha he => exact h.replace (hinv.enter_done h.current ha he)
  | handover ha he hsend =>
    have hJ := hinv.enter_send h.current ha he
    exact ⟨hinv.send hJ hsend, hJ, h⟩
  | uncovered ha he _ hr =>
    exact h.replace (hinv.resume_false (hinv.enter_send h.current ha he) hr)
  | returned hr =>
    obtain ⟨hI, -, hrest⟩ := h
    exact hrest.replace (hinv.resume_true hI hr)
  | failed hr =>
    obtain ⟨-, hJ, hrest⟩ := h
    exact hrest.replace (hinv.resume_false hJ hr)
  | reverted => exact h.2.2
  | guestOpen => exact ⟨h.current, h⟩
  | guestReturn => exact h.2.replace h.1
  | guestRevert => exact h.2
  | outside ho => exact h.replace (hinv.outside h.current ho)
  | tick ht => exact hinv.tick h ht

/-- **An invariant holds in every configuration**, and at every checkpoint
a revert could go back to. -/
theorem Invariant.sound (hinv : Invariant M allowed I J) {s₀ : σ}
    (hinit : I [] ⟨s₀, []⟩) {c : Config σ (Receipt Call Cont Event) Cont}
    (h : Reachable M allowed s₀ c) : Sound I J c.now c.stack := by
  induction h with
  | refl => exact hinit
  | tail _ hs ih => exact hinv.step ih hs

/-- **An invariant holds in every configuration.** -/
theorem Invariant.holds (hinv : Invariant M allowed I J) {s₀ : σ}
    (hinit : I [] ⟨s₀, []⟩) {c : Config σ (Receipt Call Cont Event) Cont}
    (h : Reachable M allowed s₀ c) : I (conts c.stack) c.now :=
  (hinv.sound hinit h).current

end Induction

end CallStack
