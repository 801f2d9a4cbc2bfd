import SoulPrivacy.CallRun
import SoulPrivacy.GovernedPool
import SoulPrivacy.MultiSigRecord
import SoulPrivacy.PoolSolvency
import SoulPrivacy.Projection
import SoulPrivacy.TimelockDiscipline

/-!
# What a change of the pool has behind it

The wallet is meant to be the admin of the timelock, the timelock the governance of the
pool. What each of the three guarantees alone says little about the pool: the timelock
does what its admin asks, and the pool what its governance asks. In the network the three
make, whatever the timelock asks of the pool is a transaction it executes, and whatever
the wallet asks of the timelock a proposal it performs (`byTimelock`, `byWallet`). So as
long as the two offices are held by them, **every change of the pool that only governance
may make has been voted on twice, with a delay in between** (`changes_vetted`): a first
proposal had the timelock queue the change, a second one had it executed, each signed by
as many owners as it required, and at least an hour apart.
-/

/-- What no element changes, a fold does not. -/
theorem List.foldl_eq_of_forall {α β : Type*} {f : β → α → β} {b : β} {l : List α}
    (h : ∀ a ∈ l, f b a = b) : l.foldl f b = b := by
  induction l with
  | nil => rfl
  | cons a l ih =>
    rw [List.foldl_cons, h a List.mem_cons_self]
    exact ih (fun a' ha' => h a' (List.mem_cons_of_mem a ha'))

/-! ## Governance of the pool -/

namespace PrivacyPool

/-- The entry points that only governance may use. -/
def Entry.governed : Entry → Bool
  | .setEpochManager _ => true
  | .setGovernance _ => true
  | .setComplianceOracle _ => true
  | .enableFixedDenominations _ => true
  | .disableFixedDenominations => true
  | .setGuardian _ => true
  | _ => false

/-- Who governs the pool after a receipt. -/
def governanceBy (governance : Address) : CallStack.Receipt Call Cont Event → Address
  | .entered ⟨_, .setGovernance governance'⟩ _ => governance'
  | _ => governance

/-- Who a governed entry point is called by. -/
def CalledByGovernance (governance : Address) : CallStack.Receipt Call Cont Event → Prop
  | .entered c _ => c.entry.governed = true → c.msg.sender = governance
  | .resumed _ _ => True

variable {X : Type} {E : Interfaces X}

/-- **The trace tells who governs**, and only governance has used its entry points. -/
theorem governance_projection :
    CallStack.Projection (machine E) (fun w => w.pool.governance) governanceBy
      CalledByGovernance where
  enter := by
    intro w c w' evs k he
    obtain ⟨-, heff⟩ := enter_effect he
    obtain ⟨msg, entry⟩ := c
    cases heff
    case setEpochManager auth => exact ⟨rfl, fun _ => auth⟩
    case setGovernance auth => exact ⟨rfl, fun _ => auth⟩
    case setComplianceOracle auth => exact ⟨rfl, fun _ => auth⟩
    case enableFixedDenominations auth => exact ⟨rfl, fun _ => auth⟩
    case disableFixedDenominations auth => exact ⟨rfl, fun _ => auth⟩
    case setGuardian auth => exact ⟨rfl, fun _ => auth⟩
    all_goals exact ⟨rfl, fun hgoverned => Bool.noConfusion hgoverned⟩
  send := by
    intro w k w' hs
    obtain ⟨-, rfl⟩ := send_eq_some hs
    rfl
  resume := by
    intro w k success w' evs hr
    obtain ⟨-, rfl⟩ := resume_eq_ok hr
    exact ⟨rfl, trivial⟩
  outside := fun ho => congrArg Storage.governance ho.2.2.1
  tick := fun ht => congrArg Storage.governance ht.2.2.1

/-- The first governance stays until it names another one. -/
theorem governance_of_forall {governance : Address}
    {trace : List (CallStack.Receipt Call Cont Event)}
    (h : ∀ msg governance' evs, .entered ⟨msg, .setGovernance governance'⟩ evs ∉ trace) :
    trace.foldl governanceBy governance = governance := by
  refine List.foldl_eq_of_forall (fun r hr => ?_)
  unfold governanceBy
  split
  · exact absurd hr (h _ _ _)
  · rfl

end PrivacyPool

/-! ## The timelock -/

namespace GovernanceTimelock

/-- **The timelock makes a call only in executing a transaction**, for its admin. -/
theorem Effect.executes_of_call {d : Deployment} {msg : SelfCall.Msg} {s s' : Storage}
    {entry : Entry} {call : SelfCall.Outgoing Transaction}
    (h : Effect d msg s entry s' (some call)) :
    ∃ tx, entry = .executeTransaction tx ∧ msg.sender = s.admin
      ∧ call = ⟨tx.target, tx.value, tx.data, tx⟩ := by
  cases h
  case executeTransaction tx auth queued ready fresh => exact ⟨tx, rfl, auth, rfl⟩

/-- The admin is the first one until another one accepts. -/
theorem adminAfter_of_forall {admin : Address} {trace : Trace}
    (h : ∀ msg evs, .entered ⟨msg, .acceptAdmin⟩ evs ∉ trace) :
    adminAfter admin trace = admin := by
  refine List.foldl_eq_of_forall (fun r hr => ?_)
  unfold adminBy
  split
  · exact absurd hr (h _ _)
  · rfl

/-- **The discipline, in every run from a constructor.** -/
theorem disciplined_of_constructor {d : Deployment} {admin : Address} {delay : Uint256}
    {s : Storage} (hs : constructor admin delay = .ok s) {balance : ℕ} {now : Uint256}
    {c : Config} (hc : CallStack.Reachable (body d).machine ((body d).Allowed fun _ _ => True)
      (SelfCall.Body.start s balance now) c) (hfree : CollisionFree d.keccak256 c.now.trace) :
    Disciplined d admin delay c.now.state.control c.now.state.storage c.now.state.now
      c.now.trace := by
  exact (disciplined_keeps d admin delay).holds (fun _ => Disciplined.init hs now) hc hfree

end GovernanceTimelock

namespace CallStack

/-- A property along a trace, at one of its receipts. -/
theorem Along.of_append {π ρ : Type} {next : π → ρ → π} {P : π → ρ → Prop} {part : π}
    {early late : List ρ} {receipt : ρ} (h : Along next P part (early ++ receipt :: late)) :
    P (early.foldl next part) receipt := by
  induction early generalizing part with
  | nil => exact h.1
  | cons first early ih => exact ih h.2

end CallStack

namespace Governance

open SelfCall (Msg)
open CallStack.Network (tracePart)

variable {X : Type} {d : Deployment X} {s₀ : ∀ i, StateOf X i} {c : Deployment.Config X}

/-! ## What the trace says of each -/

def walletTrace (trace : Deployment.Trace) : List MultiSigGovernance.Receipt :=
  tracePart Party.wallet trace

def timelockTrace (trace : Deployment.Trace) : GovernanceTimelock.Trace :=
  tracePart Party.timelock trace

def poolTrace (trace : Deployment.Trace) :
    List (CallStack.Receipt PrivacyPool.Call PrivacyPool.Cont PrivacyPool.Event) :=
  tracePart Party.pool trace

/-! ## Who asked -/

/-- **Whatever comes from one of the three was asked by it**: the entry point that ran just
before hands over to the target, with the calldata. -/
theorem asked (h : d.network.Reachable s₀ c) {early late : Deployment.Trace} {a : AnyCall}
    {evs : List (Σ i, EventOf i)} (htrace : c.now.trace = early ++ .entered a evs :: late)
    {i : Party} (hsender : sender a = d.address i) :
    ∃ p b evs' part evs'' k, d.network.Reachable s₀ p
      ∧ early = p.now.trace ++ [.entered ⟨i, b⟩ evs']
      ∧ (d.contract i).enter b (p.now.state.parts i) = .ok (part, evs'', some k)
      ∧ (outgoing i k).1 = d.address a.1
      ∧ d.decode a.1 (outgoing i k).2.2 = .run (entryOf a.1 a.2) := by
  obtain hforeign | ⟨next, hnext, p, j, b, evs', part, evs'', k, hp, hearly, -, henter,
    hroute⟩ := CallStack.Network.called h htrace
  · exact absurd hsender (hforeign i)
  obtain ⟨target, entry, htarget, hdecode, rfl⟩ := Deployment.deliver_eq_due hroute
  obtain ⟨hcaller, -, hentry⟩ := Deployment.runs_eq_true.mp hnext
  obtain rfl := d.address_injective (hcaller.symm.trans hsender)
  obtain ⟨i', a⟩ := a
  cases hentry
  exact ⟨p, b, evs', part, evs'', k, hp, hearly, henter, htarget, hdecode⟩

/-- **Whatever the wallet asks for is a proposal it performs.** -/
theorem byWallet (h : d.network.Reachable s₀ c) {early late : Deployment.Trace} {a : AnyCall}
    {evs : List (Σ i, EventOf i)} (htrace : c.now.trace = early ++ .entered a evs :: late)
    (hsender : sender a = d.wallet.self) :
    ∃ p msg id evs', d.network.Reachable s₀ p
      ∧ early = p.now.trace ++ [.entered ⟨.wallet, ⟨msg, .executeProposal id⟩⟩ evs']
      ∧ MultiSigGovernance.Open (p.now.state.parts .wallet).storage id
      ∧ ((p.now.state.parts .wallet).storage.proposals id).requiredThreshold
        ≤ ((p.now.state.parts .wallet).storage.proposals id).confirmationCount
      ∧ ((p.now.state.parts .wallet).storage.proposals id).target = d.address a.1
      ∧ d.decode a.1 ((p.now.state.parts .wallet).storage.proposals id).data
        = .run (entryOf a.1 a.2) := by
  obtain ⟨p, ⟨msg, entry⟩, evs', part, evs'', k, hp, hearly, henter, htarget, hdecode⟩ :=
    asked h htrace (i := .wallet) hsender
  obtain ⟨out, hout, -, -, hk⟩ := SelfCall.Body.enter_eq_ok henter
  obtain ⟨out', rfl, rfl⟩ := Option.map_eq_some_iff.mp hk.symm
  obtain ⟨id, heq, hopen, henough, rfl⟩ :=
    (MultiSigGovernance.enter_effect hout).performs_of_call
  obtain rfl : entry = .executeProposal id := heq
  exact ⟨p, msg, id, evs', hp, hearly, hopen, henough, htarget, hdecode⟩

/-- **Whatever the timelock asks for is a transaction it executes**, for its admin. -/
theorem byTimelock (h : d.network.Reachable s₀ c) {early late : Deployment.Trace}
    {a : AnyCall} {evs : List (Σ i, EventOf i)}
    (htrace : c.now.trace = early ++ .entered a evs :: late)
    (hsender : sender a = d.timelock.self) :
    ∃ p msg tx evs', d.network.Reachable s₀ p
      ∧ early = p.now.trace ++ [.entered ⟨.timelock, ⟨msg, .executeTransaction tx⟩⟩ evs']
      ∧ msg.sender = (p.now.state.parts .timelock).storage.admin
      ∧ tx.target = d.address a.1 ∧ d.decode a.1 tx.data = .run (entryOf a.1 a.2) := by
  obtain ⟨p, ⟨msg, entry⟩, evs', part, evs'', k, hp, hearly, henter, htarget, hdecode⟩ :=
    asked h htrace (i := .timelock) hsender
  obtain ⟨out, hout, -, -, hk⟩ := SelfCall.Body.enter_eq_ok henter
  obtain ⟨out', rfl, rfl⟩ := Option.map_eq_some_iff.mp hk.symm
  obtain ⟨tx, heq, hauth, rfl⟩ :=
    (GovernanceTimelock.enter_effect hout).executes_of_call
  obtain rfl : entry = .executeTransaction tx := heq
  exact ⟨p, msg, tx, evs', hp, hearly, hauth, htarget, hdecode⟩

/-! ## Resolutions of the wallet -/

/-- **The wallet resolved to have the timelock do something**: a proposal of it asks for
that, and as many owners as it requires have signed it. -/
structure Resolved (d : Deployment X) (first : Address → Bool)
    (wallet : MultiSigGovernance.Storage) (trace : List MultiSigGovernance.Receipt)
    (id : Uint256) (entry : GovernanceTimelock.Entry) : Prop where
  target : (wallet.proposals id).target = d.timelock.self
  data : d.timelock.decode (wallet.proposals id).data = .run entry
  pending : (wallet.proposals id).executed = false
  required : 1 ≤ (wallet.proposals id).requiredThreshold.toNat
  signers : ∃ signers : Finset Address,
    (wallet.proposals id).requiredThreshold.toNat ≤ signers.card
      ∧ ∀ a ∈ signers, MultiSigGovernance.SignedBy first trace id a

/-- **The wallet had the timelock do something** at a time: after some trace, it performed
a proposal that is resolved there, and the timelock did what it asks for. -/
def HadDone (d : Deployment X) (s₀ : ∀ i, StateOf X i) (before trace : Deployment.Trace)
    (id : Uint256) (entry : GovernanceTimelock.Entry) (time : Uint256) : Prop :=
  ∃ p msg own evs evs', d.network.Reachable s₀ p ∧ p.now.trace = before
    ∧ trace = before ++ [.entered ⟨.wallet, ⟨msg, .executeProposal id⟩⟩ evs,
      .entered ⟨.timelock, ⟨own, entry⟩⟩ evs']
    ∧ own.sender = d.wallet.self ∧ own.timestamp = time
    ∧ Resolved d (s₀ .wallet).storage.isOwner (p.now.state.parts .wallet).storage
      (walletTrace before) id entry

variable {delay : Uint256}

/-- The wallet alone, in a run of the three. -/
theorem wallet_recorded (hsetup : d.Setup delay s₀) (h : d.network.Reachable s₀ c) :
    MultiSigGovernance.WellFormed (c.now.state.parts .wallet).storage
      ∧ MultiSigGovernance.Recorded (s₀ .wallet).storage.isOwner
        (c.now.state.parts .wallet).storage (walletTrace c.now.trace) := by
  obtain ⟨owners, threshold, storage, balance, now, hconstruct, hstart⟩ := hsetup.wallet
  have hpart := CallStack.Network.reachable_part h .wallet
  rw [hstart] at hpart ⊢
  exact (MultiSigGovernance.recorded_keeps d.wallet storage.isOwner).holds
    (MultiSigGovernance.recorded_of_constructor hconstruct) hpart

/-- The timelock alone. -/
theorem timelock_disciplined (hsetup : d.Setup delay s₀) (h : d.network.Reachable s₀ c)
    (hfree : GovernanceTimelock.CollisionFree d.timelock.keccak256
      (timelockTrace c.now.trace)) :
    GovernanceTimelock.Disciplined d.timelock d.wallet.self delay
      (c.now.state.parts .timelock).control (c.now.state.parts .timelock).storage
      (c.now.state.parts .timelock).now (timelockTrace c.now.trace) := by
  obtain ⟨storage, balance, now, hconstruct, hstart⟩ := hsetup.timelock
  have hpart := CallStack.Network.reachable_part h .timelock
  rw [hstart] at hpart
  exact GovernanceTimelock.disciplined_of_constructor hconstruct hpart hfree

/-- **What the wallet asks of the timelock is resolved.** -/
theorem hadDone (hsetup : d.Setup delay s₀) (h : d.network.Reachable s₀ c)
    {early late : Deployment.Trace} {own : Msg} {entry : GovernanceTimelock.Entry}
    {evs : List (Σ i, EventOf i)}
    (htrace : c.now.trace = early ++ .entered ⟨.timelock, ⟨own, entry⟩⟩ evs :: late)
    (hsender : own.sender = d.wallet.self) :
    ∃ before id, HadDone d s₀ before
      (early ++ [.entered ⟨.timelock, ⟨own, entry⟩⟩ evs]) id entry own.timestamp := by
  obtain ⟨p, msg, id, evs', hp, rfl, hopen, henough, htarget, hdecode⟩ :=
    byWallet h htrace hsender
  obtain ⟨hwf, hrecorded⟩ := wallet_recorded hsetup hp
  refine ⟨p.now.trace, id, p, msg, own, evs', evs, hp, rfl, ?_, hsender, rfl, htarget, hdecode,
    hopen.pending, hrecorded.required id hopen.lt, hrecorded.exists_signers hwf henough⟩
  rw [List.append_assoc]
  rfl

/-! ## Changes of the pool -/

/-- A proposal that was performed before is another one. -/
theorem ne_of_hadDone (hsetup : d.Setup delay s₀) {before queued between trace :
      Deployment.Trace} {id id' : Uint256} {entry entry' : GovernanceTimelock.Entry}
    {t t' : Uint256} (h : HadDone d s₀ before queued id entry t)
    (h' : HadDone d s₀ (queued ++ between) trace id' entry' t') : id ≠ id' := by
  obtain ⟨-, msg, own, evs, evs', -, -, rfl, -⟩ := h
  obtain ⟨p', -, -, -, -, hp', hbefore', -, -, -, hresolved⟩ := h'
  rintro rfl
  have hmem : .entered ⟨.wallet, ⟨msg, .executeProposal id⟩⟩ evs ∈ p'.now.trace := by
    rw [hbefore', List.append_assoc]
    exact List.mem_append_right _ List.mem_cons_self
  have hexecuted := (wallet_recorded hsetup hp').2.performed msg id _
    (CallStack.Network.mem_tracePart_of_entered hmem)
  rw [hresolved.pending] at hexecuted
  cases hexecuted

/-- The wallet is the admin as long as no other one has accepted. -/
theorem adminAfter_timelockTrace {trace : Deployment.Trace}
    (h : ∀ own evs, .entered ⟨.timelock, ⟨own, .acceptAdmin⟩⟩ evs ∉ trace) (admin : Address) :
    GovernanceTimelock.adminAfter admin (timelockTrace trace) = admin := by
  refine GovernanceTimelock.adminAfter_of_forall (fun own evs hmem => ?_)
  obtain ⟨evs', hmem'⟩ := CallStack.Network.exists_mem_of_tracePart hmem
  exact h own evs' hmem'

/-- The timelock governs as long as it has not named another one. -/
theorem governance_poolTrace {trace : Deployment.Trace}
    (h : ∀ msg a evs, .entered ⟨.pool, ⟨msg, .setGovernance a⟩⟩ evs ∉ trace)
    (governance : Address) :
    (poolTrace trace).foldl PrivacyPool.governanceBy governance = governance := by
  refine PrivacyPool.governance_of_forall (fun msg a evs hmem => ?_)
  obtain ⟨evs', hmem'⟩ := CallStack.Network.exists_mem_of_tracePart hmem
  exact h msg a evs' hmem'

/-- A governed entry point of the pool is called by the timelock. -/
theorem sender_of_governed (hsetup : d.Setup delay s₀) (h : d.network.Reachable s₀ c)
    {early late : Deployment.Trace} {call : PrivacyPool.Call} {evs : List (Σ i, EventOf i)}
    (htrace : c.now.trace = early ++ .entered ⟨.pool, call⟩ evs :: late)
    (hgoverned : call.entry.governed = true)
    (hgovernance : ∀ msg a evs, .entered ⟨.pool, ⟨msg, .setGovernance a⟩⟩ evs ∉ early) :
    call.msg.sender = d.timelock.self := by
  have hpart := CallStack.Network.reachable_part h .pool
  have halong := (PrivacyPool.governance_projection.holds hpart).along
  have hsplit : poolTrace c.now.trace
      = poolTrace early ++ .entered call (evs.filterMap (CallStack.ofMember Party.pool)) ::
        poolTrace late := by
    unfold poolTrace
    rw [htrace, CallStack.Network.tracePart_append, CallStack.Network.tracePart_cons_entered]
  rw [show (CallStack.Network.configPart Party.pool c).now.trace = _ from hsplit] at halong
  have hcaller : call.msg.sender
      = (poolTrace early).foldl PrivacyPool.governanceBy (s₀ .pool).pool.governance :=
    halong.of_append hgoverned
  rw [hcaller, governance_poolTrace hgovernance, hsetup.pool]

/-- What is hashed before is hashed. -/
theorem collisionFree_of_append {keccak256 : Bytes → Bytes32} {trace trace' : Deployment.Trace}
    (h : GovernanceTimelock.CollisionFree keccak256 (timelockTrace (trace ++ trace'))) :
    GovernanceTimelock.CollisionFree keccak256 (timelockTrace trace) := by
  unfold timelockTrace at h
  rw [CallStack.Network.tracePart_append] at h
  exact h.of_append

/-- **What was done before the wallet's proposal comes before it.** -/
theorem exists_between {before trace early after : Deployment.Trace} {id : Uint256}
    {entry : GovernanceTimelock.Entry} {t : Uint256} {a a' : CallOf .timelock}
    {evs evs' : List (Σ i, EventOf i)}
    (h : HadDone d s₀ before (trace ++ [.entered ⟨.timelock, a'⟩ evs']) id entry t)
    (htrace : trace = early ++ .entered ⟨.timelock, a⟩ evs :: after) :
    ∃ between rest, before = early ++ [.entered ⟨.timelock, a⟩ evs] ++ between
      ∧ after = between ++ rest := by
  obtain ⟨-, msg, own, evs₁, evs₂, -, -, heq, -⟩ := h
  have hpair : trace ++ [.entered ⟨.timelock, a'⟩ evs']
      = before ++ [.entered ⟨.wallet, ⟨msg, .executeProposal id⟩⟩ evs₁]
        ++ [.entered ⟨.timelock, ⟨own, entry⟩⟩ evs₂] := by
    rw [heq, List.append_assoc]
    rfl
  obtain ⟨hsplit, -⟩ := List.append_inj' hpair rfl
  rw [htrace] at hsplit
  -- the last receipt is one of the wallet, so it is not the one of the timelock
  induction after using List.reverseRecOn with
  | nil =>
    obtain ⟨-, hlast⟩ := List.append_inj' hsplit rfl
    cases hlast
  | append_singleton between r =>
    rw [← List.cons_append, ← List.append_assoc] at hsplit
    obtain ⟨hbefore, -⟩ := List.append_inj' hsplit rfl
    refine ⟨between, [r], ?_, rfl⟩
    rw [← hbefore, List.append_assoc]
    rfl

/-- **A transaction the timelock executes was queued by the rule**, in the trace of the
three as well. -/
theorem exists_queued (hsetup : d.Setup delay s₀) (h : d.network.Reachable s₀ c)
    (hfree : GovernanceTimelock.CollisionFree d.timelock.keccak256
      (timelockTrace c.now.trace))
    {early late : Deployment.Trace} {own : Msg} {tx : GovernanceTimelock.Transaction}
    {evs : List (Σ i, EventOf i)}
    (htrace : c.now.trace = early ++ .entered ⟨.timelock, ⟨own, .executeTransaction tx⟩⟩ evs ::
      late)
    (hadmin : ∀ own evs, .entered ⟨.timelock, ⟨own, .acceptAdmin⟩⟩ evs ∉ early) :
    ∃ before msg evs' after,
      early = before ++ .entered ⟨.timelock, ⟨msg, .queueTransaction tx⟩⟩ evs' :: after
      ∧ msg.sender = d.wallet.self
      ∧ msg.timestamp.toNat + GovernanceTimelock.MINIMUM_DELAY.toNat ≤ own.timestamp.toNat
      ∧ own.timestamp.toNat ≤ tx.eta.toNat + GovernanceTimelock.GRACE_PERIOD.toNat
      ∧ ∀ r ∈ timelockTrace after, ¬ GovernanceTimelock.Cancels tx r := by
  have hdisc := timelock_disciplined hsetup h hfree
  have hsplit : timelockTrace c.now.trace
      = timelockTrace early ++ .entered ⟨own, .executeTransaction tx⟩
        (evs.filterMap (CallStack.ofMember Party.timelock)) :: timelockTrace late := by
    unfold timelockTrace
    rw [htrace, CallStack.Network.tracePart_append, CallStack.Network.tracePart_cons_entered]
  obtain ⟨⟨e, msg, evs', l, heq, hsender, hdelay, hmin, hlate⟩, hgrace⟩ :=
    hdisc.obeys _ _ _ hsplit own tx _ rfl
  obtain ⟨before, evs'', after, rfl, rfl, rfl⟩ := CallStack.Network.exists_of_tracePart heq
  have hbefore : ∀ own evs, .entered ⟨.timelock, ⟨own, .acceptAdmin⟩⟩ evs ∉ before :=
    fun own evs hmem => hadmin own evs (List.mem_append_left _ hmem)
  refine ⟨before, msg, evs'', after, rfl, ?_, ?_, hgrace, hlate⟩
  · exact hsender.trans (adminAfter_timelockTrace hbefore _)
  · exact (Nat.add_le_add_left (BitVec.le_def.mp hmin) _).trans hdelay

/-- **Every change of the pool that only governance may make has been resolved twice.** In
every run of the three in which the timelock still governs the pool and the wallet is
still its admin: the wallet performed a proposal by which the timelock queued the change;
at least an hour later, and with no cancellation in between, it performed another one by
which the timelock executed it; and behind both are the signatures of as many owners as
they required. -/
theorem changes_vetted (hsetup : d.Setup delay s₀) (h : d.network.Reachable s₀ c)
    (hfree : GovernanceTimelock.CollisionFree d.timelock.keccak256
      (timelockTrace c.now.trace))
    {early late : Deployment.Trace} {call : PrivacyPool.Call} {evs : List (Σ i, EventOf i)}
    (htrace : c.now.trace = early ++ .entered ⟨.pool, call⟩ evs :: late)
    (hgoverned : call.entry.governed = true)
    (hgovernance : ∀ msg a evs, .entered ⟨.pool, ⟨msg, .setGovernance a⟩⟩ evs ∉ early)
    (hadmin : ∀ own evs, .entered ⟨.timelock, ⟨own, .acceptAdmin⟩⟩ evs ∉ early) :
    ∃ tx before queued between id id' t t',
      tx.target = d.pool ∧ d.decodePool tx.data = .run call.entry
      ∧ HadDone d s₀ before queued id (.queueTransaction tx) t
      ∧ HadDone d s₀ (queued ++ between) early id' (.executeTransaction tx) t'
      ∧ id ≠ id' ∧ (∀ r ∈ timelockTrace between, ¬ GovernanceTimelock.Cancels tx r)
      ∧ t.toNat + GovernanceTimelock.MINIMUM_DELAY.toNat ≤ t'.toNat
      ∧ t'.toNat ≤ tx.eta.toNat + GovernanceTimelock.GRACE_PERIOD.toNat := by
  -- the pool is called by the timelock, which executes a transaction
  obtain ⟨p, own, tx, evs₁, hp, rfl, hown, htarget, hdecode⟩ :=
    byTimelock h htrace (sender_of_governed hsetup h htrace hgoverned hgovernance)
  have hadmin' : ∀ own evs, .entered ⟨.timelock, ⟨own, .acceptAdmin⟩⟩ evs ∉ p.now.trace :=
    fun own evs hmem => hadmin own evs (List.mem_append_left _ hmem)
  have hexecution : c.now.trace = p.now.trace ++
      .entered ⟨.timelock, ⟨own, .executeTransaction tx⟩⟩ evs₁ ::
        .entered ⟨.pool, call⟩ evs :: late := by
    rw [htrace, List.append_assoc]
    rfl
  -- its admin, the wallet, had queued it
  obtain ⟨b, msg, evs₂, after, hqueued, hmsg, hdelay, hgrace, hkept⟩ :=
    exists_queued hsetup h hfree hexecution hadmin'
  obtain ⟨before, id, hfirst⟩ := hadDone hsetup hp hqueued hmsg
  obtain hfree' := collisionFree_of_append (hexecution ▸ hfree)
  have hwallet : own.sender = d.wallet.self := by
    rw [hown, (timelock_disciplined hsetup hp hfree').admin_eq]
    exact adminAfter_timelockTrace hadmin' _
  -- and has it executed, by another proposal
  obtain ⟨before', id', hsecond⟩ := hadDone hsetup h hexecution hwallet
  obtain ⟨between, rest, rfl, rfl⟩ := exists_between hsecond hqueued
  refine ⟨tx, before, _, between, id, id', msg.timestamp, own.timestamp, htarget, hdecode,
    hfirst, hsecond, ne_of_hadDone hsetup hfirst hsecond, fun r hr => hkept r ?_, hdelay,
    hgrace⟩
  unfold timelockTrace at hr ⊢
  rw [CallStack.Network.tracePart_append]
  exact List.mem_append_left _ hr

/-! ## A sample -/

section Sample

/-- The calls the three take can be decided. -/
instance allowedDecidable (d : Deployment X) :
    ∀ i s a, Decidable (d.network.allowed i s a)
  | .wallet, s, a => inferInstanceAs (Decidable (s.control.Admits d.wallet.self a
      ∧ a.msg.timestamp = s.now ∧ True))
  | .timelock, s, a => inferInstanceAs (Decidable (s.control.Admits d.timelock.self a
      ∧ a.msg.timestamp = s.now ∧ True))
  | .pool, _, _ => inferInstanceAs (Decidable True)

instance foreignDecidable (d : Deployment X) (a : AnyCall) :
    Decidable (d.network.foreign a) :=
  decidable_of_iff (sender a ≠ d.wallet.self ∧ sender a ≠ d.timelock.self ∧ sender a ≠ d.pool)
    ⟨fun h i => by cases i; exacts [h.1, h.2.1, h.2.2],
      fun h => ⟨h .wallet, h .timelock, h .pool⟩⟩

instance admitsDecidable (d : Deployment X) (a : AnyCall) :
    ∀ control : CallStack.Control AnyCall, Decidable (control.Admits d.network.foreign a)
  | .away => foreignDecidable d a
  | .due next => inferInstanceAs (Decidable (next a = true))
  | .done => inferInstanceAs (Decidable False)

/-- The three, at a later time. -/
def later (now : Uint256) (s : ∀ i, StateOf X i) : ∀ i, StateOf X i
  | .wallet => { s .wallet with now }
  | .timelock => { s .timelock with now }
  | .pool => { s .pool with block := ⟨(s .pool).block.number, now.toNat⟩ }

def player (d : Deployment X) :
    CallStack.Player d.network.machine d.network.Allowed Uint256 where
  permits s a := decide (d.network.allowed a.1 (s.parts a.1) a.2
    ∧ s.control.Admits d.network.foreign a)
  allowed_of_permits := by
    intro s a h
    have hboth := of_decide_eq_true h
    exact hboth
  wait now s :=
    if (s.parts .wallet).now ≤ now ∧ (s.parts .timelock).now ≤ now
        ∧ (s.parts .pool).block.timestamp ≤ now.toNat then
      some ⟨later now s.parts, s.control⟩
    else none
  tick_of_wait := by
    intro now s s' h
    obtain ⟨⟨hwallet, htimelock, hpool⟩, h⟩ := Option.ite_none_right_eq_some.mp h
    cases h
    exact ⟨⟨now, hwallet, rfl, htimelock, rfl, ⟨le_rfl, hpool, rfl, rfl, rfl⟩, rfl⟩, rfl⟩

/-- `setGuardian(0x9)` of the pool, when the hour is over. -/
def change : GovernanceTimelock.Transaction where
  target := 0x300
  value := 0
  data := [0x8a, 0x0d, 0xac, 0x4a] ++ Bytes32.toBytes 9
  eta := 3600

/-- The calldata that has the timelock queue it, … -/
def queueChange : Bytes := [0x8e, 0x36, 0x1c, 0xdf] ++ change.encode

/-- … and execute it. -/
def executeChange : Bytes := [0x06, 0xa4, 0x1d, 0x09] ++ change.encode

-- the accounts of the sample, none of them zero
theorem walletSelf_ne_zero : (0x100 : Address) ≠ 0 := by decide
theorem timelockSelf_ne_zero : (0x200 : Address) ≠ 0 := by decide
theorem ownerOne_ne_zero : (1 : Address) ≠ 0 := by decide
theorem ownerTwo_ne_zero : (2 : Address) ≠ 0 := by decide

/-- The three, with what their dispatchers make of these calls. -/
def sample : Deployment Unit where
  wallet := ⟨0x100, walletSelf_ne_zero, fun _ => .revert⟩
  timelock :=
    { self := 0x200
      self_ne_zero := timelockSelf_ne_zero
      decode := fun data =>
        if data = queueChange then .run (.queueTransaction change)
        else if data = executeChange then .run (.executeTransaction change)
        else .revert
      keccak256 := fun bytes =>
        if bytes = change.encode then
          0x741208d850e70bda4332c69f320139bfae1053d1120bae2dd3095c09830ad561
        else 0 }
  pool := 0x300
  decodePool data := if data = change.data then .run (.setGuardian 9) else .revert
  interfaces := PrivacyPool.permissive Unit
  wallet_ne_timelock := by decide
  wallet_ne_pool := by decide
  timelock_ne_pool := by decide

/-- Two owners of two, a delay of an hour, and a pool that the timelock governs. -/
def sampleStart : ∀ i, StateOf Unit i
  | .wallet => SelfCall.Body.start
      ⟨[1, 2], Function.update (Function.update (fun _ => false) 1 true) 2 true, 2, 0,
        fun _ => MultiSigGovernance.Proposal.blank, fun _ _ => false⟩ 0 0
  | .timelock => SelfCall.Body.start ⟨0x100, 0, 3600,
      fun _ => GovernanceTimelock.QueuedTransaction.blank, fun _ => false⟩ 0 0
  | .pool => ⟨⟨0, 0⟩, 0, PrivacyPool.construct (PrivacyPool.permissive Unit).hash 0x200 0 1 1 7
      0, ()⟩

/-- The offices are taken. -/
theorem sample_setup : sample.Setup 3600 sampleStart where
  wallet := ⟨[1, 2], 2, _, 0, 0, rfl, rfl⟩
  timelock := ⟨_, 0, 0, rfl, rfl⟩
  pool := rfl

/-- One owner proposes a call of the timelock, the other one confirms it, and it is
performed. -/
def resolve (id now : Uint256) (data : Bytes) : List (CallStack.Move AnyCall Uint256) :=
  [.call ⟨.wallet, ⟨⟨1, 0, now, ownerOne_ne_zero⟩, .submitProposal 0x200 0 data⟩⟩,
    .call ⟨.wallet, ⟨⟨2, 0, now, ownerTwo_ne_zero⟩, .confirmProposal id⟩⟩,
    .call ⟨.wallet, ⟨⟨1, 0, now, ownerOne_ne_zero⟩, .executeProposal id⟩⟩]

/-- The wallet has the change queued and, an hour later, executed. -/
def sampleMoves : List (CallStack.Move AnyCall Uint256) :=
  resolve 0 0 queueChange ++
    [.call ⟨.timelock, ⟨⟨0x100, 0, 0, walletSelf_ne_zero⟩, .queueTransaction change⟩⟩, .back,
      .wait 3600] ++
    resolve 1 3600 executeChange ++
    [.call ⟨.timelock, ⟨⟨0x100, 0, 3600, walletSelf_ne_zero⟩, .executeTransaction change⟩⟩,
      .call ⟨.pool, ⟨⟨0x200, 0, timelockSelf_ne_zero⟩, .setGuardian 9⟩⟩]

/-- Whether a trace ends with a change of the pool that only governance may make. -/
def endsGoverned (trace : Deployment.Trace) : Bool :=
  match trace.getLast? with
  | some (.entered ⟨.pool, call⟩ _) => call.entry.governed
  | _ => false

/-- Whether a receipt leaves both offices with who holds them. -/
def keepsOffices : CallStack.Network.NetReceipt CallOf ContOf EventOf → Bool
  | .entered ⟨.pool, ⟨_, .setGovernance _⟩⟩ _ => false
  | .entered ⟨.timelock, ⟨_, .acceptAdmin⟩⟩ _ => false
  | _ => true

theorem exists_of_endsGoverned {trace : Deployment.Trace} (h : endsGoverned trace = true) :
    ∃ early call evs, trace = early ++ [.entered ⟨.pool, call⟩ evs]
      ∧ call.entry.governed = true := by
  unfold endsGoverned at h
  split at h
  · rename_i call evs hlast
    obtain ⟨early, rfl⟩ := List.getLast?_eq_some_iff.mp hlast
    exact ⟨early, call, evs, rfl, h⟩
  · cases h

/-- The guardian is replaced as the wallet has resolved. -/
theorem changes_vetted_guardian :
    ∃ c early call evs, sample.network.Reachable sampleStart c
      ∧ c.now.trace = early ++ [.entered ⟨.pool, call⟩ evs] ∧ call.entry.governed = true
      ∧ ∃ tx before queued between id id' t t',
        tx.target = sample.pool ∧ sample.decodePool tx.data = .run call.entry
        ∧ HadDone sample sampleStart before queued id (.queueTransaction tx) t
        ∧ HadDone sample sampleStart (queued ++ between) early id' (.executeTransaction tx) t'
        ∧ id ≠ id' ∧ t.toNat + GovernanceTimelock.MINIMUM_DELAY.toNat ≤ t'.toNat := by
  obtain ⟨c, hsteps, hshows⟩ := CallStack.Player.exists_of_run (player sample)
    ⟨⟨⟨sampleStart, .away⟩, []⟩, []⟩ sampleMoves
    (fun c => decide ((timelockTrace c.now.trace).flatMap GovernanceTimelock.hashed
        = [change, change])
      && (endsGoverned c.now.trace && c.now.trace.dropLast.all keepsOffices))
    (by decide +kernel)
  rw [Bool.and_eq_true, Bool.and_eq_true, decide_eq_true_eq] at hshows
  obtain ⟨hhashed, hends, hkeeps⟩ := hshows
  obtain ⟨early, call, evs, htrace, hgoverned⟩ := exists_of_endsGoverned hends
  rw [htrace, List.dropLast_concat, List.all_eq_true] at hkeeps
  have hfree : GovernanceTimelock.CollisionFree sample.timelock.keccak256
      (timelockTrace c.now.trace) := by
    intro tx htx tx' htx' _
    rw [hhashed] at htx htx'
    have heq : ∀ t ∈ [change, change], t = change := by simp
    rw [heq tx htx, heq tx' htx']
  obtain ⟨tx, before, queued, between, id, id', t, t', htarget, hdecode, hfirst, hsecond, hne,
    -, hdelay, -⟩ := changes_vetted sample_setup hsteps hfree htrace hgoverned
      (fun msg a evs hmem => nomatch hkeeps _ hmem) (fun own evs hmem => nomatch hkeeps _ hmem)
  exact ⟨c, early, call, evs, hsteps, htrace, hgoverned, tx, before, queued, between, id, id',
    t, t', htarget, hdecode, hfirst, hsecond, hne, hdelay⟩

end Sample

end Governance
