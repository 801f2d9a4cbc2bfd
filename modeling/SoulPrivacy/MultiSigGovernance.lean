import SoulPrivacy.SelfCall

/-!
# The multi-signature wallet (`MultiSigGovernance.sol`)

The storage of the wallet and its entry points, and the machine they make
of it (`SelfCall.Body`). `executeProposal` performs the call of a proposal,
and the operations on owners and threshold may only be called by the wallet
itself, so they run inside an `executeProposal`. They are in the model as
they are in the source, checks on the sender included; that the wallet is
its own caller only there is a matter of the machine.

What the compiler adds is written out: checked arithmetic, the limit on the
length of an array in storage, and that only `receive` takes ether. The
dispatcher, which finds the entry point in the calldata of a proposal, is a
parameter (`Deployment`), and so is the address of the wallet.
-/

namespace MultiSigGovernance

open SelfCall (Msg Call Outgoing Dispatched)

/-- `Proposal`. -/
structure Proposal where
  target : Address
  value : Uint256
  data : Bytes
  confirmationCount : Uint256
  requiredThreshold : Uint256
  executed : Bool

/-- What a mapping reads before any write. -/
def Proposal.blank : Proposal := ⟨0, 0, [], 0, 0, false⟩

/-- **The storage of the wallet.** -/
structure Storage where
  owners : List Address
  isOwner : Address → Bool
  threshold : Uint256
  proposalCount : Uint256
  proposals : Uint256 → Proposal
  hasConfirmed : Uint256 → Address → Bool

/-- The storage before the constructor. -/
def Storage.blank : Storage :=
  ⟨[], fun _ => false, 0, 0, fun _ => Proposal.blank, fun _ _ => false⟩

inductive Error where
  | notOwner
  | notSelf
  | invalidThreshold
  | duplicateOwner
  | ownerNotFound
  | minimumOneOwner
  | proposalAlreadyExecuted
  | proposalNotFound
  | alreadyConfirmed
  | notConfirmed
  | insufficientConfirmations
  | executionFailed
  /-- An arithmetic panic, or an array that is too long. -/
  | panic
  /-- Ether sent to an entry point that is not payable. -/
  | nonPayable
  deriving DecidableEq

inductive Event where
  | proposalSubmitted (proposalId : Uint256) (proposer target : Address)
      (value : Uint256) (data : Bytes)
  | proposalConfirmed (proposalId : Uint256) (owner : Address)
  | confirmationRevoked (proposalId : Uint256) (owner : Address)
  | proposalExecuted (proposalId : Uint256)
  | ownerAdded (owner : Address)
  | ownerRemoved (owner : Address)
  | thresholdChanged (oldThreshold newThreshold : Uint256)

inductive Entry where
  | submitProposal (target : Address) (value : Uint256) (data : Bytes)
  | confirmProposal (proposalId : Uint256)
  | revokeConfirmation (proposalId : Uint256)
  | executeProposal (proposalId : Uint256)
  | addOwner (owner : Address)
  | removeOwner (owner : Address)
  | changeThreshold (threshold : Uint256)
  | receive
  deriving DecidableEq

/-! ## The constructor -/

/-- `owners.push`: an array in storage holds at most `2 ^ 64` elements. -/
def push (owners : List Address) (owner : Address) : Except Error (List Address) := do
  revertIf (2 ^ 64 ≤ owners.length) .panic
  return owners ++ [owner]

/-- One round of the constructor's loop. -/
def construct (s : Storage) (owner : Address) : Except Error Storage := do
  revertIf (owner = 0) .ownerNotFound
  revertIf (s.isOwner owner = true) .duplicateOwner
  let owners ← push s.owners owner
  return { s with owners, isOwner := Function.update s.isOwner owner true }

/-- The constructor. -/
def constructor (owners : List Address) (threshold : Uint256) : Except Error Storage := do
  revertIf (owners.length = 0) .minimumOneOwner
  revertIf (threshold = 0 ∨ owners.length < threshold.toNat) .invalidThreshold
  let s ← owners.foldlM construct Storage.blank
  return { s with threshold }

/-! ## The entry points -/

section Entries

variable (msg : Msg) (s : Storage)

/-- `onlyOwner`. -/
def onlyOwner : Except Error Unit := revertIf (s.isOwner msg.sender = false) .notOwner

/-- `proposalExists`. -/
def proposalExists (proposalId : Uint256) : Except Error Unit :=
  revertIf (s.proposalCount ≤ proposalId) .proposalNotFound

/-- What an entry point leaves: the storage, the events and, if it makes
one, its call. -/
abbrev Outcome := Storage × List Event × Option (Outgoing Uint256)

def submitProposal (target : Address) (value : Uint256) (data : Bytes) :
    Except Error Outcome := do
  onlyOwner msg s
  let proposalId := s.proposalCount
  let proposalCount ← checkedAdd .panic s.proposalCount 1
  return ({ s with
      proposalCount
      proposals := Function.update s.proposals proposalId
        { target, value, data, confirmationCount := 1,
          requiredThreshold := s.threshold, executed := false }
      hasConfirmed := Function.update s.hasConfirmed proposalId
        (Function.update (s.hasConfirmed proposalId) msg.sender true) },
    [.proposalSubmitted proposalId msg.sender target value data,
      .proposalConfirmed proposalId msg.sender], none)

def confirmProposal (proposalId : Uint256) : Except Error Outcome := do
  onlyOwner msg s
  proposalExists s proposalId
  let p := s.proposals proposalId
  revertIf (p.executed = true) .proposalAlreadyExecuted
  revertIf (s.hasConfirmed proposalId msg.sender = true) .alreadyConfirmed
  let confirmationCount ← checkedAdd .panic p.confirmationCount 1
  return ({ s with
      hasConfirmed := Function.update s.hasConfirmed proposalId
        (Function.update (s.hasConfirmed proposalId) msg.sender true)
      proposals := Function.update s.proposals proposalId { p with confirmationCount } },
    [.proposalConfirmed proposalId msg.sender], none)

def revokeConfirmation (proposalId : Uint256) : Except Error Outcome := do
  onlyOwner msg s
  proposalExists s proposalId
  let p := s.proposals proposalId
  revertIf (p.executed = true) .proposalAlreadyExecuted
  revertIf (s.hasConfirmed proposalId msg.sender = false) .notConfirmed
  let confirmationCount ← checkedSub .panic p.confirmationCount 1
  return ({ s with
      hasConfirmed := Function.update s.hasConfirmed proposalId
        (Function.update (s.hasConfirmed proposalId) msg.sender false)
      proposals := Function.update s.proposals proposalId { p with confirmationCount } },
    [.confirmationRevoked proposalId msg.sender], none)

/-- `executeProposal`, up to the call of the target. -/
def executeProposal (proposalId : Uint256) : Except Error Outcome := do
  onlyOwner msg s
  proposalExists s proposalId
  let p := s.proposals proposalId
  revertIf (p.executed = true) .proposalAlreadyExecuted
  revertIf (p.confirmationCount < p.requiredThreshold) .insufficientConfirmations
  return ({ s with
      proposals := Function.update s.proposals proposalId { p with executed := true } },
    [], some ⟨p.target, p.value, p.data, proposalId⟩)

end Entries

/-! ## Self-governance -/

section Governance

variable (self : Address) (msg : Msg) (s : Storage)

/-- `onlySelf`. -/
def onlySelf : Except Error Unit := revertIf (msg.sender ≠ self) .notSelf

def addOwner (owner : Address) : Except Error Outcome := do
  onlySelf self msg
  revertIf (owner = 0) .ownerNotFound
  revertIf (s.isOwner owner = true) .duplicateOwner
  let owners ← push s.owners owner
  return ({ s with owners, isOwner := Function.update s.isOwner owner true },
    [.ownerAdded owner], none)

/-- The loop of `removeOwner` from index `i`, with `n` rounds to go: at the
first index that holds the owner, the last element is put there, and the
array popped. -/
def swapAndPop (owner : Address) (owners : List Address) : (i n : ℕ) → List Address
  | _, 0 => owners
  | i, n + 1 =>
    if owners[i]? = some owner then
      (owners.set i (owners.getLast?.getD 0)).dropLast
    else swapAndPop owner owners (i + 1) n

/-- `removeOwner`. -/
def removeOwner (owner : Address) : Except Error Outcome := do
  onlySelf self msg
  revertIf (s.isOwner owner = false) .ownerNotFound
  revertIf (s.owners.length ≤ 1) .minimumOneOwner
  let owners := swapAndPop owner s.owners 0 s.owners.length
  let s := { s with owners, isOwner := Function.update s.isOwner owner false }
  if owners.length < s.threshold.toNat then
    let threshold := BitVec.ofNat 256 owners.length
    return ({ s with threshold },
      [.thresholdChanged s.threshold threshold, .ownerRemoved owner], none)
  else return (s, [.ownerRemoved owner], none)

def changeThreshold (threshold : Uint256) : Except Error Outcome := do
  onlySelf self msg
  revertIf (threshold = 0 ∨ s.owners.length < threshold.toNat) .invalidThreshold
  return ({ s with threshold }, [.thresholdChanged s.threshold threshold], none)

end Governance

/-! ## The machine -/

/-- What a deployment fixes: the address of the wallet, and what its
dispatcher makes of calldata. -/
structure Deployment where
  self : Address
  self_ne_zero : self ≠ 0
  decode : Bytes → Dispatched Entry

/-- The entry points that are not payable. -/
def nonPayable (msg : Msg) (body : Except Error Outcome) : Except Error Outcome := do
  revertIf (msg.value ≠ 0) .nonPayable
  body

/-- **A call of the wallet**, up to the call it makes. -/
def enter (self : Address) (msg : Msg) (entry : Entry) (s : Storage) :
    Except Error Outcome :=
  match entry with
  | .submitProposal target value data => nonPayable msg (submitProposal msg s target value data)
  | .confirmProposal proposalId => nonPayable msg (confirmProposal msg s proposalId)
  | .revokeConfirmation proposalId => nonPayable msg (revokeConfirmation msg s proposalId)
  | .executeProposal proposalId => nonPayable msg (executeProposal msg s proposalId)
  | .addOwner owner => nonPayable msg (addOwner self msg s owner)
  | .removeOwner owner => nonPayable msg (removeOwner self msg s owner)
  | .changeThreshold threshold => nonPayable msg (changeThreshold self msg s threshold)
  | .receive => .ok (s, [], none)

/-- **The wallet.** After the call of a proposal only the event is left. -/
def body (d : Deployment) : SelfCall.Body Storage Entry Uint256 Event Error where
  self := d.self
  self_ne_zero := d.self_ne_zero
  enter := enter d.self
  finish proposalId s := .ok (s, [.proposalExecuted proposalId])
  callFailed := .executionFailed
  decode := d.decode

/-- A configuration of the wallet. -/
abbrev Config := SelfCall.Config Storage Entry Uint256 Event

/-- **The runs of a wallet**, after a constructor that went through; `side`
is a condition on the calls made. -/
def Reachable (d : Deployment) (side : Storage → Call Entry → Prop) (c : Config) : Prop :=
  ∃ owners threshold s balance now, constructor owners threshold = .ok s ∧
    CallStack.Reachable (body d).machine ((body d).Allowed side)
      (SelfCall.Body.start s balance now) c

end MultiSigGovernance
