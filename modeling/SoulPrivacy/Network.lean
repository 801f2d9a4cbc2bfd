import Mathlib.Logic.Function.Basic
import SoulPrivacy.CallOrigin
import SoulPrivacy.Solidity

/-!
# Contracts that call one another

A contract that hands over control (`CallStack.Contract`) knows nothing of who takes it.
In a `Network` some of the accounts that may take it are contracts as well, with code of
their own: a call that goes to one of them has to run there next, under the address of
the contract that makes it, and no call under one of their addresses comes from anywhere
else. `Network.machine` is the one contract they make together, so that reverts and
nestings need no second treatment. Its state says where control is (`Control`).

Two facts make up the use of it. What happens in a network is, for each of its
contracts, what may happen to that contract alone (`Network.reachable_part`): the frames
of the others are frames of foreign code to it. So whatever is known of a contract alone
holds of it in a network. And a call that does not come from outside was made by the
contract that ran just before, in a state that contract could be in
(`Network.called`). This is what ties the contracts together.
-/

namespace CallStack

/-! ## Elements of one member of a family -/

section Family

variable {ι : Type} [DecidableEq ι] {α : ι → Type}

/-- An element as one of a given member, if it is. -/
def ofMember (i : ι) (x : Σ j, α j) : Option (α i) :=
  if h : x.1 = i then some (h ▸ x.2) else none

theorem ofMember_self {i : ι} (a : α i) : ofMember i ⟨i, a⟩ = some a := dif_pos rfl

theorem ofMember_of_ne {i j : ι} (h : j ≠ i) (a : α j) : ofMember i ⟨j, a⟩ = none :=
  dif_neg h

theorem ofMember_eq_some {i : ι} {x : Σ j, α j} {a : α i} :
    ofMember i x = some a ↔ x = ⟨i, a⟩ := by
  obtain ⟨j, b⟩ := x
  by_cases h : j = i
  · subst h
    rw [ofMember_self, Option.some.injEq, Sigma.mk.injEq]
    exact ⟨fun hab => ⟨rfl, heq_of_eq hab⟩, fun hab => eq_of_heq hab.2⟩
  · rw [ofMember_of_ne h]
    exact iff_of_false (fun hnone => nomatch hnone) (fun heq => h (congrArg Sigma.fst heq))

theorem filterMap_ofMember_self {i : ι} (l : List (α i)) :
    (l.map (Sigma.mk i)).filterMap (ofMember i) = l := by
  rw [List.filterMap_map]
  exact (List.filterMap_congr fun a _ => ofMember_self a).trans List.filterMap_some

end Family

/-! ## Networks -/

/-- **Where control is** in a network: with an account outside, at a call that has to run
next, or at the end of such a call. -/
inductive Control (C : Type) where
  | away
  | due (next : C → Bool)
  | done

namespace Control

variable {C : Type}

/-- Whether a call that starts here was made in the network. -/
def isDue : Control C → Bool
  | due _ => true
  | _ => false

/-- Where control is when an entry point has ended. -/
def ended (owed : Bool) : Control C := if owed = true then done else away

/-- The calls that may come next. -/
def Admits (foreign : C → Prop) : Control C → C → Prop
  | away, c => foreign c
  | due next, c => next c = true
  | done, _ => False

theorem ended_ne_due {owed : Bool} {next : C → Bool} : ended owed ≠ due next := by
  intro h
  unfold ended at h
  split at h
  · cases h
  · cases h

end Control

/-- A suspended entry point, and whether its call had been made in the network. -/
structure Owed (K : Type) where
  cont : K
  owed : Bool

section Networks

variable {ι : Type} [DecidableEq ι] {σ Call Cont Event ε : ι → Type}

/-- The states of all contracts of a network, and where control is. -/
structure NetState (σ Call : ι → Type) where
  parts : ∀ i, σ i
  control : Control (Σ i, Call i)

/-- **Contracts that call one another.** -/
structure Network (σ Call Cont Event ε : ι → Type) where
  contract : ∀ i, Contract (σ i) (Call i) (Cont i) (Event i) (ε i)
  /-- The side condition on the calls of each. -/
  allowed : ∀ i, σ i → Call i → Prop
  /-- Whether a call comes from an account outside. -/
  foreign : (Σ i, Call i) → Prop
  /-- Where a handover takes control; `none` when the contract called reverts. -/
  route : ∀ i, Cont i → Option (Control (Σ i, Call i))
  /-- What may happen between transactions, to all contracts at once. -/
  tick : (∀ i, σ i) → (∀ i, σ i) → Prop
  tick_each : ∀ {s s'}, tick s s' → ∀ i, (contract i).tick (s i) (s' i)

namespace Network

/-- What is in effect in a network. -/
abbrev NetReceipt (Call Cont Event : ι → Type) :=
  Receipt (Σ i, Call i) (Owed (Σ i, Cont i)) (Σ i, Event i)

/-- A configuration of a network. -/
abbrev NetConfig (σ Call Cont Event : ι → Type) :=
  Config (NetState σ Call) (NetReceipt Call Cont Event) (Owed (Σ i, Cont i))

variable (N : Network σ Call Cont Event ε)

/-- **The contract they make together.** An entry point that has handed over control goes
on only if no call is due. -/
def machine : Contract (NetState σ Call) (Σ i, Call i) (Owed (Σ i, Cont i)) (Σ i, Event i)
    (Option (Σ i, ε i)) where
  enter c s :=
    ((N.contract c.1).enter c.2 (s.parts c.1)).mapError (fun e => some ⟨c.1, e⟩) |>.map
      fun (part, evs, k) =>
        (⟨Function.update s.parts c.1 part, .ended s.control.isDue⟩,
          evs.map (Sigma.mk c.1), k.map (⟨⟨c.1, ·⟩, s.control.isDue⟩))
  send k s :=
    ((N.contract k.cont.1).send k.cont.2 (s.parts k.cont.1)).bind fun part =>
      (N.route k.cont.1 k.cont.2).map fun control =>
        ⟨Function.update s.parts k.cont.1 part, control⟩
  resume k success s :=
    if success = true ∧ s.control.isDue = true then .error none
    else
      ((N.contract k.cont.1).resume k.cont.2 success (s.parts k.cont.1)).mapError
        (fun e => some ⟨k.cont.1, e⟩) |>.map fun (part, evs) =>
          (⟨Function.update s.parts k.cont.1 part, .ended k.owed⟩,
            evs.map (Sigma.mk k.cont.1))
  outside s s' := ∃ i part, (N.contract i).outside (s.parts i) part
    ∧ s' = ⟨Function.update s.parts i part, s.control⟩
  tick s s' := N.tick s.parts s'.parts ∧ s'.control = s.control

/-- The calls a network may take. -/
def Allowed (s : NetState σ Call) (c : Σ i, Call i) : Prop :=
  N.allowed c.1 (s.parts c.1) c.2 ∧ s.control.Admits N.foreign c

/-- **The configurations a network gets into**, with control outside at first. -/
def Reachable (s₀ : ∀ i, σ i) (c : NetConfig σ Call Cont Event) : Prop :=
  CallStack.Reachable N.machine N.Allowed ⟨s₀, .away⟩ c

/-! ## What the parts of the machine do -/

variable {N} {s s' : NetState σ Call}

theorem enter_eq_ok {i : ι} {a : Call i} {evs : List (Σ i, Event i)}
    {k : Option (Owed (Σ i, Cont i))} (h : N.machine.enter ⟨i, a⟩ s = .ok (s', evs, k)) :
    ∃ part evs' k', (N.contract i).enter a (s.parts i) = .ok (part, evs', k')
      ∧ s' = ⟨Function.update s.parts i part, .ended s.control.isDue⟩
      ∧ evs = evs'.map (Sigma.mk i) ∧ k = k'.map (⟨⟨i, ·⟩, s.control.isDue⟩) := by
  obtain ⟨⟨part, evs', k'⟩, he, heq⟩ := Except.map_eq_ok.mp h
  cases heq
  exact ⟨part, evs', k', Except.mapError_eq_ok.mp he, rfl, rfl, rfl⟩

theorem send_eq_some {k : Owed (Σ i, Cont i)} (h : N.machine.send k s = some s') :
    ∃ part control, (N.contract k.cont.1).send k.cont.2 (s.parts k.cont.1) = some part
      ∧ N.route k.cont.1 k.cont.2 = some control
      ∧ s' = ⟨Function.update s.parts k.cont.1 part, control⟩ := by
  obtain ⟨part, hsend, h⟩ := Option.bind_eq_some_iff.mp h
  obtain ⟨control, hroute, rfl⟩ := Option.map_eq_some_iff.mp h
  exact ⟨part, control, hsend, hroute, rfl⟩

theorem resume_eq_ok {k : Owed (Σ i, Cont i)} {success : Bool} {evs : List (Σ i, Event i)}
    (h : N.machine.resume k success s = .ok (s', evs)) :
    ∃ part evs', (N.contract k.cont.1).resume k.cont.2 success (s.parts k.cont.1)
        = .ok (part, evs')
      ∧ s' = ⟨Function.update s.parts k.cont.1 part, .ended k.owed⟩
      ∧ evs = evs'.map (Sigma.mk k.cont.1) := by
  simp only [machine] at h
  split at h
  · cases h
  · obtain ⟨⟨part, evs'⟩, he, heq⟩ := Except.map_eq_ok.mp h
    cases heq
    exact ⟨part, evs', Except.mapError_eq_ok.mp he, rfl, rfl⟩

/-! ## One contract of a network -/

section Part

variable (i : ι)

/-- What a receipt says of one contract, … -/
def receiptPart : NetReceipt Call Cont Event → Option (Receipt (Call i) (Cont i) (Event i))
  | .entered c evs => (ofMember i c).map (.entered · (evs.filterMap (ofMember i)))
  | .resumed k evs => (ofMember i k.cont).map (.resumed · (evs.filterMap (ofMember i)))

/-- … and a trace. -/
def tracePart (trace : List (NetReceipt Call Cont Event)) :
    List (Receipt (Call i) (Cont i) (Event i)) := trace.filterMap (receiptPart i)

def checkpointPart (p : Checkpoint (NetState σ Call) (NetReceipt Call Cont Event)) :
    Checkpoint (σ i) (Receipt (Call i) (Cont i) (Event i)) :=
  ⟨p.state.parts i, tracePart i p.trace⟩

/-- A frame of another contract is one of foreign code. -/
def framePart : Frame (NetState σ Call) (NetReceipt Call Cont Event) (Owed (Σ i, Cont i)) →
    Frame (σ i) (Receipt (Call i) (Cont i) (Event i)) (Cont i)
  | .code saved atSend k =>
    match ofMember i k.cont with
    | some k => .code (checkpointPart i saved) (checkpointPart i atSend) k
    | none => .guest (checkpointPart i saved)
  | .guest saved => .guest (checkpointPart i saved)

def configPart (c : NetConfig σ Call Cont Event) :
    Config (σ i) (Receipt (Call i) (Cont i) (Event i)) (Cont i) :=
  ⟨checkpointPart i c.now, c.stack.map (framePart i)⟩

end Part

theorem tracePart_append (i : ι) (trace trace' : List (NetReceipt Call Cont Event)) :
    tracePart i (trace ++ trace') = tracePart i trace ++ tracePart i trace' :=
  List.filterMap_append

section Receipts

variable {i j : ι}

theorem receiptPart_entered (a : Call i) (evs : List (Σ i, Event i)) :
    receiptPart i (.entered ⟨i, a⟩ evs : NetReceipt Call Cont Event)
      = some (.entered a (evs.filterMap (ofMember i))) := by
  show (ofMember i ⟨i, a⟩).map (Receipt.entered · _) = _
  rw [ofMember_self]
  rfl

/-- A call of the contract, with what comes after it. -/
theorem tracePart_cons_entered (a : Call i) (evs : List (Σ i, Event i))
    (late : List (NetReceipt Call Cont Event)) :
    tracePart i (.entered ⟨i, a⟩ evs :: late)
      = .entered a (evs.filterMap (ofMember i)) :: tracePart i late :=
  List.filterMap_cons_some (receiptPart_entered a evs)

theorem mem_tracePart_of_entered {a : Call i} {evs : List (Σ i, Event i)}
    {trace : List (NetReceipt Call Cont Event)} (h : .entered ⟨i, a⟩ evs ∈ trace) :
    .entered a (evs.filterMap (ofMember i)) ∈ tracePart i trace :=
  List.mem_filterMap.mpr ⟨_, h, receiptPart_entered a evs⟩

/-- **A call in the trace of a contract is one in the trace of the network**, after what it
is after there. -/
theorem exists_of_tracePart {trace : List (NetReceipt Call Cont Event)}
    {early late : List (Receipt (Call i) (Cont i) (Event i))} {a : Call i}
    {evs : List (Event i)} (h : tracePart i trace = early ++ .entered a evs :: late) :
    ∃ before evs' after, trace = before ++ .entered ⟨i, a⟩ evs' :: after
      ∧ tracePart i before = early ∧ tracePart i after = late := by
  obtain ⟨before, rest, rfl, hbefore, hrest⟩ := List.filterMap_eq_append_iff.mp h
  obtain ⟨skipped, r, after, rfl, hskipped, hr, hafter⟩ := List.filterMap_eq_cons_iff.mp hrest
  cases r with
  | entered c evs' =>
    obtain ⟨c', hc', heq⟩ := Option.map_eq_some_iff.mp hr
    cases heq
    obtain rfl := ofMember_eq_some.mp hc'
    refine ⟨before ++ skipped, evs', after, (List.append_assoc _ _ _).symm, ?_, hafter⟩
    rw [tracePart_append, show tracePart i before = early from hbefore,
      show tracePart i skipped = [] from List.filterMap_eq_nil_iff.mpr hskipped,
      List.append_nil]
  | resumed k evs' =>
    obtain ⟨k', -, heq⟩ := Option.map_eq_some_iff.mp hr
    cases heq

theorem tracePart_entered (a : Call i) (evs : List (Event i)) :
    tracePart i ([.entered ⟨i, a⟩ (evs.map (Sigma.mk i))] : List (NetReceipt Call Cont Event))
      = [.entered a evs] := by
  rw [tracePart_cons_entered, filterMap_ofMember_self]
  rfl

theorem tracePart_entered_of_ne (h : j ≠ i) (a : Call j) (evs : List (Σ i, Event i)) :
    tracePart i ([.entered ⟨j, a⟩ evs] : List (NetReceipt Call Cont Event)) = [] := by
  refine List.filterMap_cons_none ?_
  show (ofMember i ⟨j, a⟩).map (Receipt.entered · _) = _
  rw [ofMember_of_ne h]
  rfl

theorem tracePart_resumed (k : Cont i) (owed : Bool) (evs : List (Event i)) :
    tracePart i
        ([.resumed ⟨⟨i, k⟩, owed⟩ (evs.map (Sigma.mk i))] : List (NetReceipt Call Cont Event))
      = [.resumed k evs] := by
  refine List.filterMap_cons_some (b := Receipt.resumed k evs) ?_
  show (ofMember i ⟨i, k⟩).map (Receipt.resumed · _) = _
  rw [ofMember_self, filterMap_ofMember_self]
  rfl

theorem tracePart_resumed_of_ne (h : j ≠ i) (k : Cont j) (owed : Bool)
    (evs : List (Σ i, Event i)) :
    tracePart i ([.resumed ⟨⟨j, k⟩, owed⟩ evs] : List (NetReceipt Call Cont Event)) = [] := by
  refine List.filterMap_cons_none ?_
  show (ofMember i ⟨j, k⟩).map (Receipt.resumed · _) = _
  rw [ofMember_of_ne h]
  rfl

theorem exists_mem_of_tracePart {a : Call i} {evs : List (Event i)}
    {trace : List (NetReceipt Call Cont Event)} (h : .entered a evs ∈ tracePart i trace) :
    ∃ evs', .entered ⟨i, a⟩ evs' ∈ trace := by
  obtain ⟨early, late, hsplit⟩ := List.append_of_mem h
  obtain ⟨before, evs', after, rfl, -, -⟩ := exists_of_tracePart hsplit
  exact ⟨evs', List.mem_append_right _ List.mem_cons_self⟩

/-! ## What a part of the machine is to one contract -/

variable {parts : ∀ i, σ i} {control : Control (Σ i, Call i)}
variable {trace : List (NetReceipt Call Cont Event)}

/-- A checkpoint of the contract that runs, … -/
theorem checkpointPart_entered (part : σ i) (a : Call i) (evs : List (Event i)) :
    checkpointPart i ⟨⟨Function.update parts i part, control⟩,
        trace ++ [.entered ⟨i, a⟩ (evs.map (Sigma.mk i))]⟩
      = ⟨part, tracePart i trace ++ [.entered a evs]⟩ := by
  unfold checkpointPart
  rw [tracePart_append, tracePart_entered]
  dsimp only
  rw [Function.update_self]

/-- … and of another one, that does not. -/
theorem checkpointPart_entered_of_ne (h : j ≠ i) (part : σ j) (a : Call j)
    (evs : List (Σ i, Event i)) :
    checkpointPart i
        ⟨⟨Function.update parts j part, control⟩, trace ++ [.entered ⟨j, a⟩ evs]⟩
      = ⟨parts i, tracePart i trace⟩ := by
  unfold checkpointPart
  rw [tracePart_append, tracePart_entered_of_ne h, List.append_nil]
  dsimp only
  rw [Function.update_of_ne h.symm]

theorem checkpointPart_resumed (part : σ i) (k : Cont i) (owed : Bool) (evs : List (Event i)) :
    checkpointPart i ⟨⟨Function.update parts i part, control⟩,
        trace ++ [.resumed ⟨⟨i, k⟩, owed⟩ (evs.map (Sigma.mk i))]⟩
      = ⟨part, tracePart i trace ++ [.resumed k evs]⟩ := by
  unfold checkpointPart
  rw [tracePart_append, tracePart_resumed]
  dsimp only
  rw [Function.update_self]

theorem checkpointPart_resumed_of_ne (h : j ≠ i) (part : σ j) (k : Cont j) (owed : Bool)
    (evs : List (Σ i, Event i)) :
    checkpointPart i
        ⟨⟨Function.update parts j part, control⟩, trace ++ [.resumed ⟨⟨j, k⟩, owed⟩ evs]⟩
      = ⟨parts i, tracePart i trace⟩ := by
  unfold checkpointPart
  rw [tracePart_append, tracePart_resumed_of_ne h, List.append_nil]
  dsimp only
  rw [Function.update_of_ne h.symm]

theorem checkpointPart_update (part : σ i) :
    checkpointPart i ⟨⟨Function.update parts i part, control⟩, trace⟩
      = ⟨part, tracePart i trace⟩ := by
  unfold checkpointPart
  dsimp only
  rw [Function.update_self]

theorem checkpointPart_update_of_ne (h : j ≠ i) (part : σ j) :
    checkpointPart i ⟨⟨Function.update parts j part, control⟩, trace⟩
      = ⟨parts i, tracePart i trace⟩ := by
  unfold checkpointPart
  dsimp only
  rw [Function.update_of_ne h.symm]

variable {saved atSend : Checkpoint (NetState σ Call) (NetReceipt Call Cont Event)}

theorem framePart_self (k : Cont i) (owed : Bool) :
    framePart i (.code saved atSend ⟨⟨i, k⟩, owed⟩)
      = .code (checkpointPart i saved) (checkpointPart i atSend) k := by
  unfold framePart
  dsimp only
  rw [ofMember_self]

theorem framePart_of_ne (h : j ≠ i) (k : Cont j) (owed : Bool) :
    framePart i (.code saved atSend ⟨⟨j, k⟩, owed⟩) = .guest (checkpointPart i saved) := by
  unfold framePart
  dsimp only
  rw [ofMember_of_ne h]

end Receipts

/-! ## A network is each of its contracts -/

/-- **A call does nothing to the contracts that are not called**, up to its handover. -/
def Aligned (stack : List (Frame (NetState σ Call) (NetReceipt Call Cont Event)
    (Owed (Σ i, Cont i)))) : Prop :=
  ∀ saved atSend j k owed, .code saved atSend ⟨⟨j, k⟩, owed⟩ ∈ stack →
    ∀ i, j ≠ i → checkpointPart i atSend = checkpointPart i saved

theorem Aligned.tail {f : Frame (NetState σ Call) (NetReceipt Call Cont Event)
      (Owed (Σ i, Cont i))}
    {stack : List (Frame (NetState σ Call) (NetReceipt Call Cont Event) (Owed (Σ i, Cont i)))}
    (h : Aligned (f :: stack)) : Aligned stack :=
  fun saved atSend j k owed hmem => h saved atSend j k owed (List.mem_cons_of_mem _ hmem)

theorem Aligned.step {c c' : NetConfig σ Call Cont Event} (h : Aligned c.stack)
    (hs : Step N.machine N.Allowed c c') : Aligned c'.stack := by
  cases hs with
  | call _ _ => exact h
  | @handover s s' s'' tr stk a evs k _ he hsend =>
    obtain ⟨j, a⟩ := a
    obtain ⟨part, evs', k', hpart, rfl, rfl, hk⟩ := enter_eq_ok he
    obtain ⟨k₀, rfl, rfl⟩ := Option.map_eq_some_iff.mp hk.symm
    intro saved atSend j' k owed hmem i hne
    obtain heq | hold := List.mem_cons.mp hmem
    · cases heq
      exact checkpointPart_entered_of_ne hne part a _
    · exact h saved atSend j' k owed hold i hne
  | uncovered _ _ _ _ => exact h
  | returned _ => exact h.tail
  | failed _ => exact h.tail
  | reverted => exact h.tail
  | guestOpen =>
    intro saved atSend j k owed hmem
    obtain heq | hold := List.mem_cons.mp hmem
    · cases heq
    · exact h saved atSend j k owed hold
  | guestReturn => exact h.tail
  | guestRevert => exact h.tail
  | outside _ => exact h
  | tick _ => exact h

section Step

variable {i j : ι} {c c' : NetConfig σ Call Cont Event}

/-- A contract alone, with its side condition. -/
abbrev PartStep (N : Network σ Call Cont Event ε) (i : ι) :
    Config (σ i) (Receipt (Call i) (Cont i) (Event i)) (Cont i) →
      Config (σ i) (Receipt (Call i) (Cont i) (Event i)) (Cont i) → Prop :=
  Step (N.contract i) (N.allowed i)

/-- A call of another contract that is over. -/
theorem checkpointPart_enter_of_ne (h : j ≠ i) {s s' : NetState σ Call}
    {tr : List (NetReceipt Call Cont Event)} {a : Call j}
    {evs : List (Σ i, Event i)} {k : Option (Owed (Σ i, Cont i))}
    (he : N.machine.enter ⟨j, a⟩ s = .ok (s', evs, k)) :
    checkpointPart i ⟨s', tr ++ [.entered ⟨j, a⟩ evs]⟩ = checkpointPart i ⟨s, tr⟩ := by
  obtain ⟨part, evs', k', -, rfl, rfl, -⟩ := enter_eq_ok he
  exact checkpointPart_entered_of_ne h part a _

/-- The rest of an entry point of another contract. -/
theorem checkpointPart_resume_of_ne {s s' : NetState σ Call} {k : Owed (Σ i, Cont i)}
    (h : k.cont.1 ≠ i) {tr : List (NetReceipt Call Cont Event)} {success : Bool}
    {evs : List (Σ i, Event i)} (hr : N.machine.resume k success s = .ok (s', evs)) :
    checkpointPart i ⟨s', tr ++ [.resumed k evs]⟩ = checkpointPart i ⟨s, tr⟩ := by
  obtain ⟨part, evs', -, rfl, rfl⟩ := resume_eq_ok hr
  obtain ⟨⟨j, k⟩, owed⟩ := k
  exact checkpointPart_resumed_of_ne h part k owed _

/-- **A step of a network, to one of its contracts**: a step of it, two of them, or
none. -/
theorem part_of_step (hc : Aligned c.stack) (hs : Step N.machine N.Allowed c c') (i : ι) :
    Relation.ReflTransGen (PartStep N i) (configPart i c) (configPart i c') := by
  cases hs with
  | @call s s' tr stk a evs ha he =>
    obtain ⟨j, a⟩ := a
    by_cases hji : j = i
    · subst hji
      obtain ⟨part, evs', k', hpart, rfl, rfl, hk⟩ := enter_eq_ok he
      obtain rfl := Option.map_eq_none_iff.mp hk.symm
      refine .single ?_
      unfold configPart
      dsimp only
      rw [checkpointPart_entered]
      exact .call ha.1 hpart
    · unfold configPart
      dsimp only
      rw [checkpointPart_enter_of_ne hji he]
  | @handover s s' s'' tr stk a evs k ha he hsend =>
    obtain ⟨j, a⟩ := a
    obtain ⟨part, evs', k', hpart, rfl, rfl, hk⟩ := enter_eq_ok he
    obtain ⟨k₀, rfl, rfl⟩ := Option.map_eq_some_iff.mp hk.symm
    obtain ⟨part', control, hsent, -, rfl⟩ := send_eq_some hsend
    dsimp only at hsent
    rw [Function.update_self] at hsent
    by_cases hji : j = i
    · subst hji
      refine .single ?_
      unfold configPart
      dsimp only
      rw [List.map_cons, framePart_self, checkpointPart_entered, checkpointPart_entered]
      exact .handover ha.1 hpart hsent
    · refine .single ?_
      unfold configPart
      dsimp only
      rw [List.map_cons, framePart_of_ne hji, checkpointPart_entered_of_ne hji]
      rw [Function.update_of_ne (Ne.symm hji)]
      exact .guestOpen
  | @uncovered s s' s'' tr stk a evs evs' k ha he _ hr =>
    obtain ⟨j, a⟩ := a
    by_cases hji : j = i
    · subst hji
      obtain ⟨part, evs₀, k', hpart, rfl, rfl, hk⟩ := enter_eq_ok he
      obtain ⟨k₀, rfl, rfl⟩ := Option.map_eq_some_iff.mp hk.symm
      obtain ⟨part', evs₁, hpart', rfl, rfl⟩ := resume_eq_ok hr
      dsimp only at hpart'
      rw [Function.update_self] at hpart'
      unfold configPart
      dsimp only
      rw [checkpointPart_resumed, tracePart_append, tracePart_entered]
      exact steps_of_resume_false ha.1 hpart hpart'
    · have hk : k.cont.1 ≠ i := by
        obtain ⟨part, evs₀, k', -, rfl, -, hk⟩ := enter_eq_ok he
        obtain ⟨k₀, -, rfl⟩ := Option.map_eq_some_iff.mp hk.symm
        exact hji
      unfold configPart
      dsimp only
      rw [checkpointPart_resume_of_ne hk hr, checkpointPart_enter_of_ne hji he]
  | @returned s s' tr saved atSend stk k evs hr =>
    obtain ⟨⟨j, k⟩, owed⟩ := k
    by_cases hji : j = i
    · subst hji
      obtain ⟨part, evs', hpart, rfl, rfl⟩ := resume_eq_ok hr
      refine .single ?_
      unfold configPart
      dsimp only
      rw [List.map_cons, framePart_self, checkpointPart_resumed]
      exact .returned hpart
    · refine .single ?_
      unfold configPart
      dsimp only
      rw [List.map_cons, framePart_of_ne hji, checkpointPart_resume_of_ne hji hr]
      exact .guestReturn
  | @failed p saved atSend s' stk k evs hr =>
    obtain ⟨⟨j, k⟩, owed⟩ := k
    by_cases hji : j = i
    · subst hji
      obtain ⟨part, evs', hpart, rfl, rfl⟩ := resume_eq_ok hr
      refine .single ?_
      unfold configPart
      dsimp only
      rw [List.map_cons, framePart_self, checkpointPart_resumed]
      exact .failed hpart
    · have hback := hc saved atSend j k owed List.mem_cons_self i hji
      refine .single ?_
      unfold configPart
      dsimp only
      rw [List.map_cons, framePart_of_ne hji, checkpointPart_resume_of_ne hji hr]
      rw [show checkpointPart i ⟨atSend.state, atSend.trace⟩ = checkpointPart i saved from hback]
      exact .guestRevert
  | @reverted p saved atSend stk k =>
    obtain ⟨⟨j, k⟩, owed⟩ := k
    by_cases hji : j = i
    · subst hji
      refine .single ?_
      unfold configPart
      rw [List.map_cons, framePart_self]
      exact .reverted
    · refine .single ?_
      unfold configPart
      rw [List.map_cons, framePart_of_ne hji]
      exact .guestRevert
  | guestOpen => exact .single .guestOpen
  | guestReturn => exact .single .guestReturn
  | guestRevert => exact .single .guestRevert
  | outside ho =>
    obtain ⟨j, part, hpart, rfl⟩ := ho
    by_cases hji : j = i
    · subst hji
      refine .single ?_
      unfold configPart
      rw [checkpointPart_update]
      exact .outside hpart
    · unfold configPart
      dsimp only
      rw [checkpointPart_update_of_ne hji]
      exact .refl
  | tick ht => exact .single (.tick (N.tick_each ht.1 i))

end Step

section Runs

variable {s₀ : ∀ i, σ i} {c : NetConfig σ Call Cont Event}

/-- **Each contract of a network is that contract**: to it, a run of the network is a run
of its own. -/
theorem reachable_part (h : N.Reachable s₀ c) (i : ι) :
    CallStack.Reachable (N.contract i) (N.allowed i) (s₀ i) (configPart i c) := by
  have hboth : Aligned c.stack ∧
      CallStack.Reachable (N.contract i) (N.allowed i) (s₀ i) (configPart i c) := by
    induction h with
    | refl => exact ⟨fun _ _ _ _ _ hmem => absurd hmem List.not_mem_nil, .refl⟩
    | tail _ hs ih => exact ⟨ih.1.step hs, ih.2.trans (part_of_step ih.1 hs i)⟩
  exact hboth.2

/-! ## Who makes a call -/

/-- **A contract of the network has just made a call**: the trace ends with the entry
point that makes it, which ran in a configuration the network gets into. -/
def CalledFrom (N : Network σ Call Cont Event ε) (s₀ : ∀ i, σ i)
    (trace : List (NetReceipt Call Cont Event)) (next : (Σ i, Call i) → Bool) : Prop :=
  ∃ p i a evs part evs' k, N.Reachable s₀ p ∧ trace = p.now.trace ++ [.entered ⟨i, a⟩ evs]
    ∧ N.Allowed p.now.state ⟨i, a⟩
    ∧ (N.contract i).enter a (p.now.state.parts i) = .ok (part, evs', some k)
    ∧ N.route i k = some (.due next)

theorem calledFrom_invariant :
    Invariant N.machine N.Allowed
      (fun ks p => Reached N.machine N.Allowed ⟨s₀, .away⟩ ks p
        ∧ ∀ next, p.state.control = .due next → N.CalledFrom s₀ p.trace next)
      (fun k ks p => Sending N.machine N.Allowed ⟨s₀, .away⟩ k ks p
        ∧ ∀ next, N.route k.cont.1 k.cont.2 = some (.due next) →
          N.CalledFrom s₀ p.trace next) where
  enter_done := by
    rintro ks p ⟨i, a⟩ s' evs h ha he
    refine ⟨(reached _ _ _).enter_done h.1 ha he, fun next hdue => ?_⟩
    obtain ⟨part, evs', k', -, rfl, -, -⟩ := enter_eq_ok he
    exact absurd hdue Control.ended_ne_due
  enter_send := by
    rintro ks p ⟨i, a⟩ s' evs k h ha he
    refine ⟨(reached _ _ _).enter_send h.1 ha he, fun next hroute => ?_⟩
    obtain ⟨part, evs', k', hpart, -, -, hk⟩ := enter_eq_ok he
    obtain ⟨k₀, rfl, rfl⟩ := Option.map_eq_some_iff.mp hk.symm
    obtain ⟨stk, -, hreach⟩ := h.1
    exact ⟨⟨p, stk⟩, i, a, evs, part, evs', k₀, hreach, rfl, ha, hpart, hroute⟩
  send := by
    rintro ks p k s' h hs
    refine ⟨(reached _ _ _).send h.1 hs, fun next hdue => ?_⟩
    obtain ⟨part, control, -, hroute, rfl⟩ := send_eq_some hs
    exact h.2 next (hroute.trans (congrArg some hdue))
  resume_true := by
    rintro ks p k s' evs h hr
    refine ⟨(reached _ _ _).resume_true h.1 hr, fun next hdue => ?_⟩
    obtain ⟨part, evs', -, rfl, -⟩ := resume_eq_ok hr
    exact absurd hdue Control.ended_ne_due
  resume_false := by
    rintro ks p k s' evs h hr
    refine ⟨(reached _ _ _).resume_false h.1 hr, fun next hdue => ?_⟩
    obtain ⟨part, evs', -, rfl, -⟩ := resume_eq_ok hr
    exact absurd hdue Control.ended_ne_due
  outside := by
    rintro ks p s' h ho
    refine ⟨(reached _ _ _).outside h.1 ho, ?_⟩
    obtain ⟨i, part, -, rfl⟩ := ho
    exact h.2
  tick := by
    rintro p s' h ht
    refine ⟨(reached _ _ _).tick h.1 ht, fun next hdue => ?_⟩
    exact h.2 next (ht.2.symm.trans hdue)

/-- **A call comes from outside, or from the contract of the network that ran just
before.** -/
theorem called (h : N.Reachable s₀ c) {early late : List (NetReceipt Call Cont Event)}
    {a : Σ i, Call i} {evs : List (Σ i, Event i)}
    (htrace : c.now.trace = early ++ .entered a evs :: late) :
    N.foreign a ∨ ∃ next, next a = true ∧ N.CalledFrom s₀ early next := by
  obtain ⟨p, s', k, hreach, rfl, ha, -⟩ := exists_entered h htrace
  have hdue := (calledFrom_invariant.holds
    ⟨⟨[], rfl, .refl⟩, fun _ hdue => nomatch hdue⟩ hreach).2
  have hadmits := ha.2
  cases hcontrol : p.now.state.control with
  | away =>
    rw [hcontrol] at hadmits
    exact .inl hadmits
  | due next =>
    rw [hcontrol] at hadmits
    exact .inr ⟨next, hadmits, hdue next hcontrol⟩
  | done =>
    rw [hcontrol] at hadmits
    exact hadmits.elim

end Runs

end Network

end Networks

end CallStack
