import SoulPrivacy.GovernanceTimelock
import SoulPrivacy.MultiSigGovernance
import SoulPrivacy.Network
import SoulPrivacy.PrivacyPool

/-!
# The pool under its governance (`MultiSigGovernance`, `GovernanceTimelock`, `PrivacyPool`)

The wallet is the admin of the timelock, and the timelock the governance of the pool
(`Setup`, which is what the verification of a deployment checks). The three call one
another: a proposal of the wallet and a transaction of the timelock may have any target,
and a payout of the pool any recipient. So they make a `CallStack.Network`, in which a
call of one of the three addresses runs the code that is there, and each of the three is
the machine it is alone.

What the deployment fixes is a parameter (`Deployment`): the three addresses, and what
each dispatcher makes of calldata. The contracts the pool itself calls remain those of
`PrivacyPool.Interfaces`.
-/

namespace Governance

open SelfCall (Dispatched)

deriving instance DecidableEq for PrivacyPool.Entry

/-- The contracts. -/
inductive Party where
  | wallet
  | timelock
  | pool
  deriving DecidableEq

/-! ## What belongs to each -/

/-- The states, … -/
abbrev StateOf (X : Type) : Party → Type
  | .wallet => SelfCall.State MultiSigGovernance.Storage MultiSigGovernance.Entry
  | .timelock => SelfCall.State GovernanceTimelock.Storage GovernanceTimelock.Entry
  | .pool => PrivacyPool.World X

/-- … the calls, … -/
abbrev CallOf : Party → Type
  | .wallet => SelfCall.Call MultiSigGovernance.Entry
  | .timelock => SelfCall.Call GovernanceTimelock.Entry
  | .pool => PrivacyPool.Call

/-- … the entry points, … -/
abbrev EntryOf : Party → Type
  | .wallet => MultiSigGovernance.Entry
  | .timelock => GovernanceTimelock.Entry
  | .pool => PrivacyPool.Entry

/-- … the suspended entry points, … -/
abbrev ContOf : Party → Type
  | .wallet => SelfCall.Cont Uint256
  | .timelock => SelfCall.Cont GovernanceTimelock.Transaction
  | .pool => PrivacyPool.Cont

/-- … the events … -/
abbrev EventOf : Party → Type
  | .wallet => MultiSigGovernance.Event
  | .timelock => GovernanceTimelock.Event
  | .pool => PrivacyPool.Event

/-- … and the errors. -/
abbrev ErrorOf : Party → Type
  | .wallet => MultiSigGovernance.Error
  | .timelock => GovernanceTimelock.Error
  | .pool => PrivacyPool.Error

/-- A call of one of the three. -/
abbrev AnyCall := Σ i, CallOf i

/-- Who makes a call, … -/
def sender : AnyCall → Address
  | ⟨.wallet, c⟩ => c.msg.sender
  | ⟨.timelock, c⟩ => c.msg.sender
  | ⟨.pool, c⟩ => c.msg.sender

/-- … the ether sent with it … -/
def value : AnyCall → Uint256
  | ⟨.wallet, c⟩ => c.msg.value
  | ⟨.timelock, c⟩ => c.msg.value
  | ⟨.pool, c⟩ => c.msg.value

/-- … and what it runs. -/
def entryOf : ∀ i, CallOf i → EntryOf i
  | .wallet, c => c.entry
  | .timelock, c => c.entry
  | .pool, c => c.entry

/-- Entry points are compared by what they are and their arguments. -/
def entryDecEq : ∀ i, DecidableEq (EntryOf i)
  | .wallet => inferInstanceAs (DecidableEq MultiSigGovernance.Entry)
  | .timelock => inferInstanceAs (DecidableEq GovernanceTimelock.Entry)
  | .pool => inferInstanceAs (DecidableEq PrivacyPool.Entry)

local instance : ∀ i, DecidableEq (EntryOf i) := entryDecEq

/-- Who is paid by a handover of the pool. -/
def payee : PrivacyPool.Cont → Address
  | .withdraw _ recipient _ _ => recipient
  | .reclaim payee _ => payee

/-- The target of a handover, the ether and the calldata. A payout has none. -/
def outgoing : ∀ i, ContOf i → Address × Uint256 × Bytes
  | .wallet, k => (k.call.target, k.call.value, k.call.data)
  | .timelock, k => (k.call.target, k.call.value, k.call.data)
  | .pool, k => (payee k, k.value, [])

/-- **A deployment of the three**, at addresses of their own. -/
structure Deployment (X : Type) where
  wallet : MultiSigGovernance.Deployment
  timelock : GovernanceTimelock.Deployment
  pool : Address
  decodePool : Bytes → Dispatched PrivacyPool.Entry
  interfaces : PrivacyPool.Interfaces X
  wallet_ne_timelock : wallet.self ≠ timelock.self
  wallet_ne_pool : wallet.self ≠ pool
  timelock_ne_pool : timelock.self ≠ pool

namespace Deployment

variable {X : Type} (d : Deployment X)

/-- The address of a contract. -/
def address : Party → Address
  | .wallet => d.wallet.self
  | .timelock => d.timelock.self
  | .pool => d.pool

/-- No two of them are one account. -/
theorem address_injective : Function.Injective d.address := by
  intro i j h
  cases i <;> cases j
  case wallet.wallet | timelock.timelock | pool.pool => rfl
  case wallet.timelock => exact absurd h d.wallet_ne_timelock
  case wallet.pool => exact absurd h d.wallet_ne_pool
  case timelock.wallet => exact absurd h.symm d.wallet_ne_timelock
  case timelock.pool => exact absurd h d.timelock_ne_pool
  case pool.wallet => exact absurd h.symm d.wallet_ne_pool
  case pool.timelock => exact absurd h.symm d.timelock_ne_pool

/-! ## Where a call goes -/

/-- What the dispatcher of a contract makes of calldata. -/
def decode : ∀ i, Bytes → Dispatched (EntryOf i)
  | .wallet => d.wallet.decode
  | .timelock => d.timelock.decode
  | .pool => d.decodePool

/-- The contract at an address. -/
def partyAt (a : Address) : Option Party :=
  if a = d.wallet.self then some .wallet
  else if a = d.timelock.self then some .timelock
  else if a = d.pool then some .pool
  else none

/-- The call of an entry point as another contract makes it. -/
def runs (caller : Address) (ether : Uint256) (e : Σ i, EntryOf i) (c : AnyCall) : Bool :=
  sender c = caller && value c = ether && (⟨c.1, entryOf c.1 c.2⟩ : Σ i, EntryOf i) = e

theorem runs_eq_true {caller : Address} {ether : Uint256} {e : Σ i, EntryOf i} {c : AnyCall} :
    runs caller ether e c = true
      ↔ sender c = caller ∧ value c = ether ∧ (⟨c.1, entryOf c.1 c.2⟩ : Σ i, EntryOf i) = e := by
  unfold runs
  rw [Bool.and_eq_true, Bool.and_eq_true, decide_eq_true_eq, decide_eq_true_eq,
    decide_eq_true_eq, and_assoc]

/-- **Where a call goes**: to an entry point of the contract at its target, which has to
run; to one that only reads; or to an account that is none of the three. -/
def deliver (caller target : Address) (ether : Uint256) (data : Bytes) :
    Option (CallStack.Control AnyCall) :=
  match d.partyAt target with
  | none => some .away
  | some i =>
    match d.decode i data with
    | .run entry => some (.due (runs caller ether ⟨i, entry⟩))
    | .nothing => some .done
    | .revert => none

/-- Where a handover goes. -/
def route (i : Party) (k : ContOf i) : Option (CallStack.Control AnyCall) :=
  d.deliver (d.address i) (outgoing i k).1 (outgoing i k).2.1 (outgoing i k).2.2

/-! ## The network -/

def contract : ∀ i, CallStack.Contract (StateOf X i) (CallOf i) (ContOf i) (EventOf i)
    (ErrorOf i)
  | .wallet => (MultiSigGovernance.body d.wallet).machine
  | .timelock => (GovernanceTimelock.body d.timelock).machine
  | .pool => PrivacyPool.machine d.interfaces

def allowed : ∀ i, StateOf X i → CallOf i → Prop
  | .wallet => (MultiSigGovernance.body d.wallet).Allowed fun _ _ => True
  | .timelock => (GovernanceTimelock.body d.timelock).Allowed fun _ _ => True
  | .pool => fun _ _ => True

/-- Between transactions a block ends, and all contracts see the time of the next. -/
def Tick (s s' : ∀ i, StateOf X i) : Prop :=
  ∃ now : Uint256, (s .wallet).now ≤ now ∧ s' .wallet = { s .wallet with now }
    ∧ (s .timelock).now ≤ now ∧ s' .timelock = { s .timelock with now }
    ∧ PrivacyPool.Tick (s .pool) (s' .pool) ∧ (s' .pool).block.timestamp = now.toNat

/-- **The three contracts, calling one another.** -/
def network : CallStack.Network (StateOf X) CallOf ContOf EventOf ErrorOf where
  contract := d.contract
  allowed := d.allowed
  foreign c := ∀ i, sender c ≠ d.address i
  route := d.route
  tick := Tick
  tick_each := by
    rintro s s' ⟨now, hwallet, hwallet', htimelock, htimelock', hpool, -⟩ i
    cases i with
    | wallet => exact ⟨now, hwallet, hwallet'⟩
    | timelock => exact ⟨now, htimelock, htimelock'⟩
    | pool => exact hpool

/-- **The offices are taken**: the wallet is new, it is the admin of a new timelock with
some delay, and the timelock is the governance of the pool. -/
structure Setup (delay : Uint256) (s : ∀ i, StateOf X i) : Prop where
  wallet : ∃ owners threshold storage balance now,
    MultiSigGovernance.constructor owners threshold = .ok storage
      ∧ s .wallet = SelfCall.Body.start storage balance now
  timelock : ∃ storage balance now,
    GovernanceTimelock.constructor d.wallet.self delay = .ok storage
      ∧ s .timelock = SelfCall.Body.start storage balance now
  pool : (s .pool).pool.governance = d.timelock.self

/-- A configuration of the three. -/
abbrev Config (X : Type) := CallStack.Network.NetConfig (StateOf X) CallOf ContOf EventOf

/-- What is in effect. -/
abbrev Trace := List (CallStack.Network.NetReceipt CallOf ContOf EventOf)

/-! ## Who is called -/

variable {d}

theorem partyAt_eq_some {a : Address} {i : Party} (h : d.partyAt a = some i) :
    a = d.address i := by
  unfold partyAt at h
  split at h
  · rename_i heq
    cases h
    exact heq
  · split at h
    · rename_i heq
      cases h
      exact heq
    · split at h
      · rename_i heq
        cases h
        exact heq
      · cases h

/-- **A call that is due** is the one its target and calldata say, made by its caller. -/
theorem deliver_eq_due {caller target : Address} {ether : Uint256} {data : Bytes}
    {next : AnyCall → Bool} (h : d.deliver caller target ether data = some (.due next)) :
    ∃ i entry, target = d.address i ∧ d.decode i data = .run entry
      ∧ next = runs caller ether ⟨i, entry⟩ := by
  unfold deliver at h
  split at h
  · cases h
  · rename_i i hparty
    split at h
    · rename_i entry hdecode
      cases h
      exact ⟨i, entry, partyAt_eq_some hparty, hdecode, rfl⟩
    · cases h
    · cases h

end Deployment

end Governance
