import SoulPrivacy.Abi
import SoulPrivacy.SelfCall

/-!
# The timelock (`GovernanceTimelock.sol`)

The storage of the timelock and its entry points, and the machine they make
of it (`SelfCall.Body`). The admin queues a transaction, waits for its
delay, and executes it; `setPendingAdmin` and `setDelay` may only be called
by the timelock itself, so they have to be queued like anything else.

A transaction is known by the hash of its encoding. The hash function is a
parameter (`Deployment`), like the address of the timelock and what its
dispatcher makes of calldata. The encoding is the compiler's
(`Transaction.encode`), and it tells the transaction
(`Transaction.encode_inj`), so that only the hash function could confuse
two of them.
-/

namespace GovernanceTimelock

open SelfCall (Msg Call Outgoing Dispatched)

/-- What is queued: the arguments of `queueTransaction`. -/
structure Transaction where
  target : Address
  value : Uint256
  data : Bytes
  eta : Uint256
  deriving DecidableEq

/-- `QueuedTransaction`. -/
structure QueuedTransaction extends Transaction where
  executed : Bool
  cancelled : Bool

/-- What a mapping reads before any write. -/
def QueuedTransaction.blank : QueuedTransaction := ⟨⟨0, 0, [], 0⟩, false, false⟩

/-- **The storage of the timelock.** -/
structure Storage where
  admin : Address
  pendingAdmin : Address
  delay : Uint256
  queuedTransactions : Bytes32 → QueuedTransaction
  isQueued : Bytes32 → Bool

/-- `GRACE_PERIOD`, 14 days. -/
def GRACE_PERIOD : Uint256 := 1209600

/-- `MINIMUM_DELAY`, one hour. -/
def MINIMUM_DELAY : Uint256 := 3600

/-- `MAXIMUM_DELAY`, 30 days. -/
def MAXIMUM_DELAY : Uint256 := 2592000

inductive Error where
  | unauthorized
  | invalidDelay
  | transactionAlreadyQueued
  | transactionNotQueued
  | transactionNotReady
  | transactionStale
  | transactionAlreadyExecuted
  | transactionCancelledError
  | executionFailed
  /-- An arithmetic panic. -/
  | panic
  /-- Ether sent to an entry point that is not payable. -/
  | nonPayable
  deriving DecidableEq

inductive Event where
  | transactionQueued (txHash : Bytes32) (tx : Transaction)
  | transactionExecuted (txHash : Bytes32) (target : Address) (value : Uint256)
      (data : Bytes)
  | transactionCancelled (txHash : Bytes32)
  | delayUpdated (oldDelay newDelay : Uint256)
  | adminTransferInitiated (newAdmin : Address)
  | adminTransferred (oldAdmin newAdmin : Address)

inductive Entry where
  | queueTransaction (tx : Transaction)
  | executeTransaction (tx : Transaction)
  | cancelTransaction (tx : Transaction)
  | setPendingAdmin (pendingAdmin : Address)
  | acceptAdmin
  | setDelay (delay : Uint256)
  | receive
  deriving DecidableEq

/-! ## The hash of a transaction -/

/-- `abi.encode(target, value, data, eta)`: four words, of which the third is
the place of `data`, and then `data`. -/
def Transaction.encode (tx : Transaction) : Bytes :=
  Bytes32.toBytes tx.target.toWord ++ (Bytes32.toBytes tx.value ++
    (Bytes32.toBytes 0x80 ++ (Bytes32.toBytes tx.eta ++
      (beBytes 32 tx.data.length ++ (tx.data ++ Abi.padding tx.data.length)))))

/-- **The encoding tells the transaction.** -/
theorem Transaction.encode_inj {tx tx' : Transaction} (h : tx.encode = tx'.encode) :
    tx = tx' := by
  obtain ⟨htarget, h⟩ := Bytes32.toBytes_append_inj.mp h
  obtain ⟨hvalue, h⟩ := Bytes32.toBytes_append_inj.mp h
  obtain ⟨-, h⟩ := Bytes32.toBytes_append_inj.mp h
  obtain ⟨heta, h⟩ := Bytes32.toBytes_append_inj.mp h
  have hdata := Abi.tail_inj h
  have haddress : tx.target = tx'.target := by
    refine BitVec.eq_of_toNat_eq ?_
    rw [← Address.toNat_toWord, ← Address.toNat_toWord, htarget]
  cases tx
  cases tx'
  cases haddress
  cases hvalue
  cases hdata
  cases heta
  rfl

/-! ## The entry points -/

/-- `if (_delay < MINIMUM_DELAY || _delay > MAXIMUM_DELAY) revert`. -/
def checkDelay (delay : Uint256) : Except Error Unit :=
  revertIf (delay < MINIMUM_DELAY ∨ MAXIMUM_DELAY < delay) .invalidDelay

/-- The constructor. -/
def constructor (admin : Address) (delay : Uint256) : Except Error Storage := do
  checkDelay delay
  return ⟨admin, 0, delay, fun _ => QueuedTransaction.blank, fun _ => false⟩

/-- What an entry point leaves: the storage, the events and, if it makes
one, its call. -/
abbrev Outcome := Storage × List Event × Option (Outgoing Transaction)

section Entries

variable (keccak256 : Bytes → Bytes32) (msg : Msg) (s : Storage)

/-- `onlyAdmin`. -/
def onlyAdmin : Except Error Unit := revertIf (msg.sender ≠ s.admin) .unauthorized

/-- `_computeTxHash`. -/
def computeTxHash (tx : Transaction) : Bytes32 := keccak256 tx.encode

def queueTransaction (tx : Transaction) : Except Error Outcome := do
  onlyAdmin msg s
  let earliest ← checkedAdd .panic msg.timestamp s.delay
  revertIf (tx.eta < earliest) .transactionNotReady
  let txHash := computeTxHash keccak256 tx
  revertIf (s.isQueued txHash = true) .transactionAlreadyQueued
  return ({ s with
      queuedTransactions := Function.update s.queuedTransactions txHash
        { tx with executed := false, cancelled := false }
      isQueued := Function.update s.isQueued txHash true },
    [.transactionQueued txHash tx], none)

/-- `executeTransaction`, up to the call of the target. -/
def executeTransaction (tx : Transaction) : Except Error Outcome := do
  onlyAdmin msg s
  let txHash := computeTxHash keccak256 tx
  revertIf (s.isQueued txHash = false) .transactionNotQueued
  let qtx := s.queuedTransactions txHash
  revertIf (qtx.executed = true) .transactionAlreadyExecuted
  revertIf (qtx.cancelled = true) .transactionCancelledError
  revertIf (msg.timestamp < qtx.eta) .transactionNotReady
  let latest ← checkedAdd .panic qtx.eta GRACE_PERIOD
  revertIf (latest < msg.timestamp) .transactionStale
  return ({ s with
      queuedTransactions := Function.update s.queuedTransactions txHash
        { qtx with executed := true }
      isQueued := Function.update s.isQueued txHash false },
    [], some ⟨tx.target, tx.value, tx.data, tx⟩)

def cancelTransaction (tx : Transaction) : Except Error Outcome := do
  onlyAdmin msg s
  let txHash := computeTxHash keccak256 tx
  revertIf (s.isQueued txHash = false) .transactionNotQueued
  return ({ s with
      queuedTransactions := Function.update s.queuedTransactions txHash
        { s.queuedTransactions txHash with cancelled := true }
      isQueued := Function.update s.isQueued txHash false },
    [.transactionCancelled txHash], none)

end Entries

section Administration

variable (self : Address) (msg : Msg) (s : Storage)

/-- `onlyTimelock`. -/
def onlyTimelock : Except Error Unit := revertIf (msg.sender ≠ self) .unauthorized

def setPendingAdmin (pendingAdmin : Address) : Except Error Outcome := do
  onlyTimelock self msg
  return ({ s with pendingAdmin }, [.adminTransferInitiated pendingAdmin], none)

def acceptAdmin : Except Error Outcome := do
  revertIf (msg.sender ≠ s.pendingAdmin) .unauthorized
  return ({ s with admin := s.pendingAdmin, pendingAdmin := 0 },
    [.adminTransferred s.admin s.pendingAdmin], none)

def setDelay (delay : Uint256) : Except Error Outcome := do
  onlyTimelock self msg
  checkDelay delay
  return ({ s with delay }, [.delayUpdated s.delay delay], none)

end Administration

/-! ## The machine -/

/-- What a deployment fixes: the address of the timelock, what its dispatcher
makes of calldata, and the hash function. -/
structure Deployment where
  self : Address
  self_ne_zero : self ≠ 0
  decode : Bytes → Dispatched Entry
  keccak256 : Bytes → Bytes32

/-- The entry points that are not payable. -/
def nonPayable (msg : Msg) (body : Except Error Outcome) : Except Error Outcome := do
  revertIf (msg.value ≠ 0) .nonPayable
  body

/-- **A call of the timelock**, up to the call it makes. -/
def enter (d : Deployment) (msg : Msg) (entry : Entry) (s : Storage) :
    Except Error Outcome :=
  match entry with
  | .queueTransaction tx => nonPayable msg (queueTransaction d.keccak256 msg s tx)
  | .executeTransaction tx => nonPayable msg (executeTransaction d.keccak256 msg s tx)
  | .cancelTransaction tx => nonPayable msg (cancelTransaction d.keccak256 msg s tx)
  | .setPendingAdmin pendingAdmin => nonPayable msg (setPendingAdmin d.self msg s pendingAdmin)
  | .acceptAdmin => nonPayable msg (acceptAdmin msg s)
  | .setDelay delay => nonPayable msg (setDelay d.self msg s delay)
  | .receive => .ok (s, [], none)

/-- **The timelock.** After the call of a transaction only the event is
left. -/
def body (d : Deployment) : SelfCall.Body Storage Entry Transaction Event Error where
  self := d.self
  self_ne_zero := d.self_ne_zero
  enter := enter d
  finish tx s := .ok (s, [.transactionExecuted (computeTxHash d.keccak256 tx) tx.target
    tx.value tx.data])
  callFailed := .executionFailed
  decode := d.decode

/-- A configuration of the timelock. -/
abbrev Config := SelfCall.Config Storage Entry Transaction Event

/-- What is in effect. -/
abbrev Trace := List (SelfCall.Receipt Entry Transaction Event)

/-- **The runs of a timelock** that a constructor has set up with an admin
and a delay. -/
def Reachable (d : Deployment) (admin : Address) (delay : Uint256) (c : Config) : Prop :=
  ∃ s balance now, constructor admin delay = .ok s ∧
    CallStack.Reachable (body d).machine ((body d).Allowed fun _ _ => True)
      (SelfCall.Body.start s balance now) c

end GovernanceTimelock
