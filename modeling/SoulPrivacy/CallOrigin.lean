import SoulPrivacy.CallStack
import SoulPrivacy.KeyedReceiver

/-!
# The configuration a call was made in

A trace records which calls are in effect, not the states they were made in. But every
call of a trace was made somewhere: in a configuration the machine gets into, whose
trace is what comes before (`exists_entered`). So what is known of all configurations is
known of the state each call was made in, reverts notwithstanding.

The proof is an invariant that says of a checkpoint no more than that the machine gets
there (`reached`). It can be taken together with any other one whose steps need this.
-/

namespace CallStack

variable {σ Call Cont Event ε : Type} {M : Contract σ Call Cont Event ε}
variable {allowed : σ → Call → Prop} {s₀ : σ}

/-- **A call whose sending fails**, whether it is not covered or the recipient reverts. -/
theorem steps_of_resume_false {s s' s'' : σ} {tr : List (Receipt Call Cont Event)}
    {stk : List (Frame σ (Receipt Call Cont Event) Cont)} {c : Call} {evs evs' : List Event}
    {k : Cont} (ha : allowed s c) (he : M.enter c s = .ok (s', evs, some k))
    (hr : M.resume k false s' = .ok (s'', evs')) :
    Relation.ReflTransGen (Step M allowed) ⟨⟨s, tr⟩, stk⟩
      ⟨⟨s'', tr ++ [.entered c evs] ++ [.resumed k evs']⟩, stk⟩ := by
  cases hsend : M.send k s' with
  | none => exact .single (.uncovered ha he hsend hr)
  | some sent => exact (Relation.ReflTransGen.single (.handover ha he hsend)).tail (.failed hr)

/-- Foreign code above the innermost handover may return, … -/
theorem steps_of_conts_cons {p : Checkpoint σ (Receipt Call Cont Event)}
    {stk : List (Frame σ (Receipt Call Cont Event) Cont)} {k : Cont} {ks : List Cont}
    (h : conts stk = k :: ks) :
    ∃ saved atSend rest, conts rest = ks ∧
      Relation.ReflTransGen (Step M allowed) ⟨p, stk⟩ ⟨p, .code saved atSend k :: rest⟩ := by
  induction stk with
  | nil => cases h
  | cons f stk ih =>
    cases f with
    | code saved atSend k' =>
      obtain ⟨rfl, rfl⟩ := List.cons.inj h
      exact ⟨saved, atSend, stk, rfl, .refl⟩
    | guest saved =>
      obtain ⟨saved', atSend, rest, hrest, hsteps⟩ := ih h
      exact ⟨saved', atSend, rest, hrest, .head .guestReturn hsteps⟩

/-- … and all of it when there is no handover. -/
theorem steps_of_conts_nil {p : Checkpoint σ (Receipt Call Cont Event)}
    {stk : List (Frame σ (Receipt Call Cont Event) Cont)} (h : conts stk = []) :
    Relation.ReflTransGen (Step M allowed) ⟨p, stk⟩ ⟨p, []⟩ := by
  induction stk with
  | nil => exact .refl
  | cons f stk ih =>
    cases f with
    | code saved atSend k' => cases h
    | guest saved => exact .head .guestReturn (ih h)

variable (M allowed s₀)

/-- **The machine gets to a checkpoint**, with some handovers open. -/
def Reached (ks : List Cont) (p : Checkpoint σ (Receipt Call Cont Event)) : Prop :=
  ∃ stk, conts stk = ks ∧ Reachable M allowed s₀ ⟨p, stk⟩

/-- It gets to where an entry point is about to send: it goes on from there, whether the
sending succeeds or not. -/
def Sending (k : Cont) (ks : List Cont) (p : Checkpoint σ (Receipt Call Cont Event)) : Prop :=
  (∀ s', M.send k p.state = some s' → Reached M allowed s₀ (k :: ks) ⟨s', p.trace⟩)
    ∧ ∀ s' evs, M.resume k false p.state = .ok (s', evs) →
      Reached M allowed s₀ ks ⟨s', p.trace ++ [.resumed k evs]⟩

/-- **The machine gets where it gets.** -/
theorem reached :
    Invariant M allowed (Reached M allowed s₀) (Sending M allowed s₀) where
  enter_done := by
    rintro ks ⟨s, tr⟩ c s' evs ⟨stk, hstk, h⟩ ha he
    exact ⟨stk, hstk, h.tail (.call ha he)⟩
  enter_send := by
    rintro ks ⟨s, tr⟩ c s' evs k ⟨stk, rfl, h⟩ ha he
    refine ⟨fun s'' hs => ?_, fun s'' evs' hr => ?_⟩
    · exact ⟨.code ⟨s, tr⟩ ⟨s', tr ++ [.entered c evs]⟩ k :: stk, rfl,
        h.tail (.handover ha he hs)⟩
    · exact ⟨stk, rfl, h.trans (steps_of_resume_false ha he hr)⟩
  send := fun hJ hs => hJ.1 _ hs
  resume_true := by
    rintro ks ⟨s, tr⟩ k s' evs ⟨stk, hstk, h⟩ hr
    obtain ⟨saved, atSend, rest, hrest, hsteps⟩ := steps_of_conts_cons hstk
    exact ⟨rest, hrest, (h.trans hsteps).tail (.returned hr)⟩
  resume_false := fun hJ hr => hJ.2 _ _ hr
  outside := by
    rintro ks ⟨s, tr⟩ s' ⟨stk, hstk, h⟩ ho
    exact ⟨stk, hstk, h.tail (.outside ho)⟩
  tick := by
    rintro ⟨s, tr⟩ s' ⟨stk, hstk, h⟩ ht
    exact ⟨[], rfl, (h.trans (steps_of_conts_nil hstk)).tail (.tick ht)⟩

/-- **Where a call was made**: in a configuration with a given trace, where it was allowed
and went through. -/
def EnteredAfter (before : List (Receipt Call Cont Event)) :
    Receipt Call Cont Event → Prop
  | .entered c evs => ∃ p s' k, Reachable M allowed s₀ p ∧ p.now.trace = before
      ∧ allowed p.now.state c ∧ M.enter c p.now.state = .ok (s', evs, k)
  | .resumed _ _ => True

variable {M allowed s₀}

/-- A call that goes through now. -/
theorem Reached.entered {ks : List Cont} {p : Checkpoint σ (Receipt Call Cont Event)}
    (h : Reached M allowed s₀ ks p) {c : Call} {s' : σ} {evs : List Event} {k : Option Cont}
    (ha : allowed p.state c) (he : M.enter c p.state = .ok (s', evs, k)) :
    EnteredAfter M allowed s₀ p.trace (.entered c evs) := by
  obtain ⟨stk, -, hreach⟩ := h
  exact ⟨⟨p, stk⟩, s', k, hreach, rfl, ha, he⟩

theorem entered_invariant :
    Invariant M allowed
      (fun ks p => Reached M allowed s₀ ks p ∧ EachAfter (EnteredAfter M allowed s₀) p.trace)
      (fun k ks p => Sending M allowed s₀ k ks p
        ∧ EachAfter (EnteredAfter M allowed s₀) p.trace) where
  enter_done h ha he := ⟨(reached M allowed s₀).enter_done h.1 ha he,
    (EachAfter.append_singleton_iff _ _).mpr ⟨h.2, h.1.entered ha he⟩⟩
  enter_send h ha he := ⟨(reached M allowed s₀).enter_send h.1 ha he,
    (EachAfter.append_singleton_iff _ _).mpr ⟨h.2, h.1.entered ha he⟩⟩
  send h hs := ⟨(reached M allowed s₀).send h.1 hs, h.2⟩
  resume_true h hr := ⟨(reached M allowed s₀).resume_true h.1 hr,
    (EachAfter.append_singleton_iff _ _).mpr ⟨h.2, trivial⟩⟩
  resume_false h hr := ⟨(reached M allowed s₀).resume_false h.1 hr,
    (EachAfter.append_singleton_iff _ _).mpr ⟨h.2, trivial⟩⟩
  outside h ho := ⟨(reached M allowed s₀).outside h.1 ho, h.2⟩
  tick h ht := ⟨(reached M allowed s₀).tick h.1 ht, h.2⟩

/-- **Every call of a trace was made in a configuration the machine gets into**, the trace
of which is what comes before it. -/
theorem exists_entered {d : Config σ (Receipt Call Cont Event) Cont}
    (h : Reachable M allowed s₀ d) {early late : List (Receipt Call Cont Event)} {c : Call}
    {evs : List Event} (htrace : d.now.trace = early ++ .entered c evs :: late) :
    ∃ p s' k, Reachable M allowed s₀ p ∧ p.now.trace = early ∧ allowed p.now.state c
      ∧ M.enter c p.now.state = .ok (s', evs, k) :=
  (entered_invariant.holds ⟨⟨[], rfl, .refl⟩, EachAfter.nil⟩ h).2 early _ late htrace

end CallStack
