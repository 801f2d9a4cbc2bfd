import SoulPrivacy.CallStack

/-!
# What a trace says of the state

A part of the state that each receipt changes in a way of its own, and nothing else
changes, can be read off the trace (`Projection`). So the trace tells in which such
part each of its calls was made, and a property of the calls and the parts they are
made in is one of the trace (`Along`). Frames that revert take the receipts away
together with what they changed.
-/

namespace CallStack

section Along

variable {π ρ : Type} {next : π → ρ → π} {P Q R : π → ρ → Prop}

/-- **A property of each receipt and the part it finds**, along a trace that starts
with a given part. -/
def Along (next : π → ρ → π) (P : π → ρ → Prop) : π → List ρ → Prop
  | _, [] => True
  | part, receipt :: trace => P part receipt ∧ Along next P (next part receipt) trace

theorem along_append_singleton {part : π} {trace : List ρ} {receipt : ρ} :
    Along next P part (trace ++ [receipt])
      ↔ Along next P part trace ∧ P (trace.foldl next part) receipt := by
  induction trace generalizing part with
  | nil => exact and_comm
  | cons first trace ih =>
    show P part first ∧ Along next P _ (trace ++ [receipt]) ↔ _
    rw [ih, ← and_assoc]
    rfl

/-- Two properties that agree where a third one holds. -/
theorem Along.congr {part : π} {trace : List ρ} (h : Along next R part trace)
    (hiff : ∀ part receipt, R part receipt → (P part receipt ↔ Q part receipt)) :
    Along next P part trace ↔ Along next Q part trace := by
  induction trace generalizing part with
  | nil => exact Iff.rfl
  | cons receipt trace ih => exact and_congr (hiff part receipt h.1) (ih h.2)

/-- A property of the receipts alone. -/
theorem Along.forall_mem {P : ρ → Prop} {part : π} {trace : List ρ}
    (h : Along next (fun _ => P) part trace) : ∀ receipt ∈ trace, P receipt := by
  induction trace generalizing part with
  | nil => exact fun _ hmem => absurd hmem List.not_mem_nil
  | cons first trace ih => exact List.forall_mem_cons.mpr ⟨h.1, ih h.2⟩

end Along

variable {σ Call Cont Event ε π : Type}

/-- **A part of the state that can be read off the trace**, with a property of each
receipt. -/
structure Projection (M : Contract σ Call Cont Event ε) (part : σ → π)
    (next : π → Receipt Call Cont Event → π)
    (P : π → Receipt Call Cont Event → Prop) : Prop where
  enter : ∀ {s c s' evs k}, M.enter c s = .ok (s', evs, k) →
    part s' = next (part s) (.entered c evs) ∧ P (part s) (.entered c evs)
  send : ∀ {s k s'}, M.send k s = some s' → part s' = part s
  resume : ∀ {s k success s' evs}, M.resume k success s = .ok (s', evs) →
    part s' = next (part s) (.resumed k evs) ∧ P (part s) (.resumed k evs)
  outside : ∀ {s s'}, M.outside s s' → part s' = part s
  tick : ∀ {s s'}, M.tick s s' → part s' = part s

variable {M : Contract σ Call Cont Event ε} {allowed : σ → Call → Prop} {part : σ → π}
variable {next : π → Receipt Call Cont Event → π} {P : π → Receipt Call Cont Event → Prop}

/-- The part of a state is the one its trace leads to, and every receipt had the
property. -/
structure ReadOff (part : σ → π) (next : π → Receipt Call Cont Event → π)
    (P : π → Receipt Call Cont Event → Prop) (first : π)
    (p : Checkpoint σ (Receipt Call Cont Event)) : Prop where
  part_eq : part p.state = p.trace.foldl next first
  along : Along next P first p.trace

/-- One more receipt. -/
theorem ReadOff.snoc {first : π} {p : Checkpoint σ (Receipt Call Cont Event)}
    (hp : ReadOff part next P first p) {s' : σ} {receipt : Receipt Call Cont Event}
    (h : part s' = next (part p.state) receipt ∧ P (part p.state) receipt) :
    ReadOff part next P first ⟨s', p.trace ++ [receipt]⟩ := by
  rw [hp.part_eq] at h
  refine ⟨?_, along_append_singleton.mpr ⟨hp.along, h.2⟩⟩
  dsimp only
  rw [h.1, List.foldl_append]
  rfl

/-- What leaves the part alone. -/
theorem ReadOff.of_eq {first : π} {p : Checkpoint σ (Receipt Call Cont Event)}
    (hp : ReadOff part next P first p) {s' : σ} (h : part s' = part p.state) :
    ReadOff part next P first ⟨s', p.trace⟩ :=
  ⟨h.trans hp.part_eq, hp.along⟩

/-- **The part is read off throughout.** -/
theorem Projection.invariant (h : Projection M part next P)
    (allowed : σ → Call → Prop) (first : π) :
    Invariant M allowed (fun _ => ReadOff part next P first)
      (fun _ _ => ReadOff part next P first) where
  enter_done hp _ he := hp.snoc (h.enter he)
  enter_send hp _ he := hp.snoc (h.enter he)
  send hp hs := hp.of_eq (h.send hs)
  resume_true hp hr := hp.snoc (h.resume hr)
  resume_false hp hr := hp.snoc (h.resume hr)
  outside hp ho := hp.of_eq (h.outside ho)
  tick hp ht := hp.of_eq (h.tick ht)

/-- **In every configuration, the trace tells the part of the state**, and every
receipt in it had the property in the part it found. -/
theorem Projection.holds (h : Projection M part next P) {s₀ : σ}
    {c : Config σ (Receipt Call Cont Event) Cont} (hreach : Reachable M allowed s₀ c) :
    ReadOff part next P (part s₀) c.now :=
  (h.invariant allowed (part s₀)).holds ⟨rfl, trivial⟩ hreach

end CallStack
