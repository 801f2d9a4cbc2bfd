import SoulPrivacy.CallStack
import SoulPrivacy.Solidity

/-!
# Contracts that may call themselves

A wallet or a timelock makes calls that its users chose: any target, any
value, any calldata. While such a call runs, the target may call back. And
the target may be the contract itself; then one of its own entry points
runs next, with the contract as the sender, and this is the only way in
which the contract is its own caller.

`Body` is what is needed to know of such a contract: its entry points, its
address, and what its dispatcher makes of calldata. `Body.machine` is the
`CallStack.Contract` it makes. Its state says where control is (`Control`):
with other accounts, which may call as they like but not under the
contract's address; inside the contract, at an entry point it has called
and that has to run next; or at the end of that entry point, where nothing
is left but to return. A frame remembers which of the two to go back to.

`Keeps.holds` is the induction rule. It leaves the balance out, which a
call of one's own does not change.
-/

namespace SelfCall

/-- The message of a call, and the time of its block. -/
structure Msg where
  sender : Address
  value : Uint256
  timestamp : Uint256
  sender_ne_zero : sender ≠ 0

/-- A call of an entry point. -/
structure Call (Entry : Type) where
  msg : Msg
  entry : Entry

/-- What a dispatcher makes of calldata: an entry point that may write, one
that only reads, or a revert. -/
inductive Dispatched (Entry : Type) where
  | run (entry : Entry)
  | nothing
  | revert

/-- A call a contract makes, with what it has to know afterwards. -/
structure Outgoing (K : Type) where
  target : Address
  value : Uint256
  data : Bytes
  rest : K

/-- **Where control is.** -/
inductive Control (Entry : Type) where
  | outside
  | inside (entry : Entry) (value : Uint256)
  | finished
  deriving DecidableEq

/-- A suspended entry point: the call it made, and whether the contract had
itself been its caller. -/
structure Cont (K : Type) where
  call : Outgoing K
  own : Bool

/-- The state of the machine. -/
structure State (σ Entry : Type) where
  storage : σ
  balance : ℕ
  now : Uint256
  control : Control Entry

variable {σ Entry K Event ε : Type}

namespace Control

/-- Whether an entry point that starts here was called by the contract. -/
def own : Control Entry → Bool
  | inside _ _ => true
  | _ => false

/-- Where control is when an entry point has ended. -/
def ended (own : Bool) : Control Entry := if own = true then finished else outside

/-- Whether the call made may return here. -/
def returnable : Control Entry → Bool
  | inside _ _ => false
  | _ => true

/-- **The calls that may come next.** -/
def Admits (self : Address) : Control Entry → Call Entry → Prop
  | outside, c => c.msg.sender ≠ self
  | inside entry value, c =>
    c.msg.sender = self ∧ c.msg.value = value ∧ c.entry = entry
  | finished, _ => False

theorem ended_ne_inside {own : Bool} {entry : Entry} {value : Uint256} :
    (ended own : Control Entry) ≠ inside entry value := by
  intro h
  unfold ended at h
  split at h
  · cases h
  · cases h

end Control

/-- **A contract that makes calls its users chose.** -/
structure Body (σ Entry K Event ε : Type) where
  /-- The contract's address. -/
  self : Address
  self_ne_zero : self ≠ 0
  /-- An entry point up to the call it makes, if it makes one. -/
  enter : Msg → Entry → σ → Except ε (σ × List Event × Option (Outgoing K))
  /-- The rest of the entry point, after a call that succeeded. -/
  finish : K → σ → Except ε (σ × List Event)
  /-- The error after a call that failed. -/
  callFailed : ε
  /-- The contract's dispatcher. -/
  decode : Bytes → Dispatched Entry

namespace Body

variable (B : Body σ Entry K Event ε)

/-- Where a call takes control; `none` when the dispatcher reverts. -/
def handOver (out : Outgoing K) : Option (Control Entry) :=
  if out.target = B.self then
    match B.decode out.data with
    | .run entry => some (.inside entry out.value)
    | .nothing => some .finished
    | .revert => none
  else some .outside

/-- **The machine of the contract.** Ether the contract sends to itself
stays where it is. -/
def machine : CallStack.Contract (State σ Entry) (Call Entry) (Cont K) Event ε where
  enter c s := (B.enter c.msg c.entry s.storage).map fun (storage, evs, out) =>
    ({ s with
        storage
        balance := if c.msg.sender = B.self then s.balance
          else s.balance + c.msg.value.toNat
        control := .ended s.control.own },
      evs, out.map (⟨·, s.control.own⟩))
  send k s :=
    if k.call.value.toNat ≤ s.balance then
      (B.handOver k.call).map fun control =>
        { s with
          balance := if k.call.target = B.self then s.balance
            else s.balance - k.call.value.toNat
          control }
    else none
  resume k success s :=
    if success = true ∧ s.control.returnable = true then
      (B.finish k.call.rest s.storage).map fun (storage, evs) =>
        ({ s with storage, control := .ended k.own }, evs)
    else .error B.callFailed
  outside s s' := ∃ balance, s.balance ≤ balance ∧ s' = { s with balance }
  tick s s' := ∃ now, s.now ≤ now ∧ s' = { s with now }

/-- The calls the machine may take, with a side condition on the storage. -/
def Allowed (side : σ → Call Entry → Prop) (s : State σ Entry) (c : Call Entry) : Prop :=
  s.control.Admits B.self c ∧ c.msg.timestamp = s.now ∧ side s.storage c

/-- A state right after deployment, whatever ether was there before. -/
def start (storage : σ) (balance : ℕ) (now : Uint256) : State σ Entry :=
  ⟨storage, balance, now, .outside⟩

/-! ## What the parts of the machine do -/

variable {B}

theorem enter_eq_ok {c : Call Entry} {s s' : State σ Entry} {evs : List Event}
    {k : Option (Cont K)} (h : B.machine.enter c s = .ok (s', evs, k)) :
    ∃ out, B.enter c.msg c.entry s.storage = .ok (s'.storage, evs, out) ∧
      s'.now = s.now ∧ s'.control = .ended s.control.own ∧
      k = out.map (⟨·, s.control.own⟩) := by
  obtain ⟨⟨storage, evs', out⟩, he, heq⟩ := Except.map_eq_ok.mp h
  cases heq
  exact ⟨out, he, rfl, rfl, rfl⟩

theorem send_eq_some {k : Cont K} {s s' : State σ Entry}
    (h : B.machine.send k s = some s') :
    B.handOver k.call = some s'.control ∧ s'.storage = s.storage ∧ s'.now = s.now := by
  simp only [machine] at h
  split at h
  · obtain ⟨control, hctl, rfl⟩ := Option.map_eq_some_iff.mp h
    exact ⟨hctl, rfl, rfl⟩
  · cases h

/-- Control is inside the contract only after a call of the contract. -/
theorem handOver_eq_inside {out : Outgoing K} {entry : Entry} {value : Uint256}
    (h : B.handOver out = some (.inside entry value)) :
    out.target = B.self ∧ B.decode out.data = .run entry := by
  unfold handOver at h
  split at h
  · rename_i htarget
    split at h
    · rename_i entry' hdecode
      cases h
      exact ⟨htarget, hdecode⟩
    · cases h
    · cases h
  · cases h

theorem resume_eq_ok {k : Cont K} {success : Bool} {s s' : State σ Entry}
    {evs : List Event} (h : B.machine.resume k success s = .ok (s', evs)) :
    success = true ∧ s.control.returnable = true ∧
      B.finish k.call.rest s.storage = .ok (s'.storage, evs) ∧
      s'.now = s.now ∧ s'.control = .ended k.own := by
  simp only [machine] at h
  split at h
  · rename_i hc
    obtain ⟨⟨storage, evs'⟩, he, heq⟩ := Except.map_eq_ok.mp h
    cases heq
    exact ⟨hc.1, hc.2, he, rfl, rfl⟩
  · cases h

end Body

/-! ## The induction rule -/

/-- What is in effect. -/
abbrev Receipt (Entry K Event : Type) := CallStack.Receipt (Call Entry) (Cont K) Event

/-- **A property the parts of the entry points keep**: of where control is,
the suspended entry points, the storage, the time and the trace. -/
structure Keeps (B : Body σ Entry K Event ε) (side : σ → Call Entry → Prop)
    (I : Control Entry → List (Cont K) → σ → Uint256 → List (Receipt Entry K Event) →
      Prop) : Prop where
  enter : ∀ {ctl ks s now tr c s' evs}, I ctl ks s now tr → ctl.Admits B.self c →
    c.msg.timestamp = now → side s c → B.enter c.msg c.entry s = .ok (s', evs, none) →
      I (.ended ctl.own) ks s' now (tr ++ [.entered c evs])
  enterCall : ∀ {ctl ks s now tr c s' evs out ctl'}, I ctl ks s now tr →
    ctl.Admits B.self c → c.msg.timestamp = now → side s c →
    B.enter c.msg c.entry s = .ok (s', evs, some out) → B.handOver out = some ctl' →
      I ctl' (⟨out, ctl.own⟩ :: ks) s' now (tr ++ [.entered c evs])
  finish : ∀ {ctl ks s now tr k s' evs}, I ctl (k :: ks) s now tr →
    B.finish k.call.rest s = .ok (s', evs) →
      I (.ended k.own) ks s' now (tr ++ [.resumed k evs])
  tick : ∀ {ctl s now tr now'}, I ctl [] s now tr → now ≤ now' → I ctl [] s now' tr

variable {B : Body σ Entry K Event ε} {side : σ → Call Entry → Prop}
variable {I : Control Entry → List (Cont K) → σ → Uint256 → List (Receipt Entry K Event) →
  Prop}

/-- Such a property is an invariant of the machine. About to call, it is
known of every place the call may take control. -/
theorem Keeps.invariant (h : Keeps B side I) :
    CallStack.Invariant B.machine (B.Allowed side)
      (fun ks p => I p.state.control ks p.state.storage p.state.now p.trace)
      (fun k ks p => ∀ ctl, B.handOver k.call = some ctl →
        I ctl (k :: ks) p.state.storage p.state.now p.trace) where
  enter_done := by
    intro ks p c s' evs hI ha he
    obtain ⟨out, henter, hnow, hctl, hk⟩ := Body.enter_eq_ok he
    obtain rfl := Option.map_eq_none_iff.mp hk.symm
    show I s'.control ks s'.storage s'.now _
    rw [hnow, hctl]
    exact h.enter hI ha.1 ha.2.1 ha.2.2 henter
  enter_send := by
    intro ks p c s' evs k hI ha he ctl' hctl'
    obtain ⟨out, henter, hnow, -, hk⟩ := Body.enter_eq_ok he
    obtain ⟨out', rfl, rfl⟩ := Option.map_eq_some_iff.mp hk.symm
    show I ctl' _ s'.storage s'.now _
    rw [hnow]
    exact h.enterCall hI ha.1 ha.2.1 ha.2.2 henter hctl'
  send := by
    intro ks p k s' hJ hs
    obtain ⟨hctl, hstorage, hnow⟩ := Body.send_eq_some hs
    show I s'.control _ s'.storage s'.now _
    rw [hstorage, hnow]
    exact hJ _ hctl
  resume_true := by
    intro ks p k s' evs hI hr
    obtain ⟨-, -, hfinish, hnow, hctl⟩ := Body.resume_eq_ok hr
    show I s'.control ks s'.storage s'.now _
    rw [hnow, hctl]
    exact h.finish hI hfinish
  resume_false := by
    intro ks p k s' evs _ hr
    obtain ⟨hfalse, -⟩ := Body.resume_eq_ok hr
    cases hfalse
  outside := by
    rintro ks p s' hI ⟨balance, -, rfl⟩
    exact hI
  tick := by
    rintro p s' hI ⟨now, hle, rfl⟩
    exact h.tick hI hle

/-- **What the parts keep holds in every configuration.** -/
theorem Keeps.holds (h : Keeps B side I) {storage : σ} {balance : ℕ} {now : Uint256}
    (hinit : I .outside [] storage now [])
    {c : CallStack.Config (State σ Entry) (Receipt Entry K Event) (Cont K)}
    (hc : CallStack.Reachable B.machine (B.Allowed side)
      (Body.start storage balance now) c) :
    I c.now.state.control (CallStack.conts c.stack) c.now.state.storage c.now.state.now
      c.now.trace :=
  h.invariant.holds hinit hc

/-! ## Computed runs -/

instance (self : Address) (ctl : Control Entry) (c : Call Entry) [DecidableEq Entry] :
    Decidable (ctl.Admits self c) := by
  cases ctl <;> unfold Control.Admits <;> infer_instance

/-- A step of a run that nothing reverts: a call, the return of the call
under way, or, between transactions, a wait until a later block. -/
inductive Move (Entry : Type) where
  | call (c : Call Entry)
  | back
  | wait (now : Uint256)

/-- A configuration of the machine. -/
abbrev Config (σ Entry K Event : Type) :=
  CallStack.Config (State σ Entry) (Receipt Entry K Event) (Cont K)

namespace Body

variable [DecidableEq Entry] (B : Body σ Entry K Event ε)

/-- The configuration after a call, from what its first part gave. -/
def afterEnter (p : Config σ Entry K Event) (c : Call Entry) :
    State σ Entry × List Event × Option (Cont K) → Option (Config σ Entry K Event)
  | (s, evs, none) => some ⟨⟨s, p.now.trace ++ [.entered c evs]⟩, p.stack⟩
  | (s, evs, some k) => (B.machine.send k s).map fun s' =>
      ⟨⟨s', p.now.trace ++ [.entered c evs]⟩,
        .code p.now ⟨s, p.now.trace ++ [.entered c evs]⟩ k :: p.stack⟩

/-- The configuration after a move, if the machine can make it. -/
def apply (p : Config σ Entry K Event) : Move Entry → Option (Config σ Entry K Event)
  | .call c =>
    if p.now.state.control.Admits B.self c ∧ c.msg.timestamp = p.now.state.now then
      (B.machine.enter c p.now.state).toOption.bind (B.afterEnter p c)
    else none
  | .back =>
    match p.stack with
    | .code _ _ k :: rest =>
      (B.machine.resume k true p.now.state).toOption.map fun (s, evs) =>
        ⟨⟨s, p.now.trace ++ [.resumed k evs]⟩, rest⟩
    | _ => none
  | .wait now =>
    match p.stack with
    | [] =>
      if p.now.state.now ≤ now then
        some ⟨⟨{ p.now.state with now }, p.now.trace⟩, []⟩
      else none
    | _ => none

/-- The configuration after a list of moves. -/
def run (p : Config σ Entry K Event) (moves : List (Move Entry)) :
    Option (Config σ Entry K Event) :=
  moves.foldlM B.apply p

variable {B}

theorem toOption_eq_some {α : Type} {x : Except ε α} {a : α} :
    x.toOption = some a ↔ x = .ok a := by
  cases x <;> simp [Except.toOption]

/-- A computed move is a step of the machine. -/
theorem step_of_apply {side : σ → Call Entry → Prop} {p p' : Config σ Entry K Event}
    {m : Move Entry} (hside : ∀ c, m = .call c → side p.now.state.storage c)
    (h : B.apply p m = some p') : CallStack.Step B.machine (B.Allowed side) p p' := by
  obtain ⟨⟨s, tr⟩, stk⟩ := p
  cases m with
  | call c =>
    simp only [apply] at h
    split at h
    · rename_i hadm
      have hallowed : B.Allowed side s c := ⟨hadm.1, hadm.2, hside c rfl⟩
      obtain ⟨⟨s', evs, k⟩, he, h⟩ := Option.bind_eq_some_iff.mp h
      cases k with
      | none =>
        cases h
        exact .call hallowed (toOption_eq_some.mp he)
      | some k =>
        obtain ⟨s'', hsend, rfl⟩ := Option.map_eq_some_iff.mp h
        exact .handover hallowed (toOption_eq_some.mp he) hsend
    · cases h
  | back =>
    simp only [apply] at h
    split at h
    · obtain ⟨⟨s', evs⟩, hr, rfl⟩ := Option.map_eq_some_iff.mp h
      exact .returned (toOption_eq_some.mp hr)
    · cases h
  | wait now =>
    simp only [apply] at h
    split at h
    · split at h
      · rename_i hle
        cases h
        exact .tick ⟨now, hle, rfl⟩
      · cases h
    · cases h

/-- **A computed run is a run of the machine**, as long as the condition on
its calls does not depend on the storage. -/
theorem steps_of_run {side : σ → Call Entry → Prop} {p p' : Config σ Entry K Event}
    {moves : List (Move Entry)} (hside : ∀ c, .call c ∈ moves → ∀ s, side s c)
    (h : B.run p moves = some p') :
    Relation.ReflTransGen (CallStack.Step B.machine (B.Allowed side)) p p' := by
  induction moves generalizing p with
  | nil =>
    cases h
    exact .refl
  | cons m moves ih =>
    obtain ⟨p₁, hfirst, hrest⟩ := Option.bind_eq_some_iff.mp h
    refine .head (step_of_apply (fun c hc => ?_) hfirst) (ih (fun c hc => ?_) hrest)
    · exact hside c (hc ▸ List.mem_cons_self) _
    · exact hside c (List.mem_cons_of_mem m hc)

/-- **What a computed run shows is reached.** -/
theorem exists_of_run {side : σ → Call Entry → Prop} {p : Config σ Entry K Event}
    {moves : List (Move Entry)} {P : Config σ Entry K Event → Bool}
    (hside : ∀ c, .call c ∈ moves → ∀ s, side s c)
    (h : (B.run p moves).any P = true) :
    ∃ p', Relation.ReflTransGen (CallStack.Step B.machine (B.Allowed side)) p p' ∧
      P p' = true := by
  obtain ⟨p', hrun, hP⟩ := (Option.any_eq_true P _).mp h
  exact ⟨p', steps_of_run hside hrun, hP⟩

end Body

end SelfCall
