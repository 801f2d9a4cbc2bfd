import SoulPrivacy.BigEndian
import SoulPrivacy.Solidity

/-!
# The compliance oracle (`ComplianceOracle.sol`)

The oracle keeps two blocklists, of addresses and of commitments, and answers
`checkCompliance` for the pools that ask. Both the nullifiers and the outputs of a
transaction are looked up in the list of the commitments, as the words they are. The
list of the commitments has no way out: an address can be unblocked, a commitment
cannot (`Entry.blocks_mono`).

The contract that verifies viewing-key proofs is a parameter: given its address, the
proof and the public inputs, a `staticcall` of it fails (`none`) or returns some
bytes.
-/

namespace ComplianceOracle

/-- **The storage of the oracle.** -/
structure Storage where
  governance : Address
  blocked : Address → Bool
  blockedCommitments : Bytes32 → Bool
  authorizedAuditors : Address → Bool
  policyVersion : Uint256
  complianceEnabled : Bool
  enhancedDueDiligenceThreshold : Uint256
  viewingKeyVerifier : Address

/-- The errors of the oracle. -/
inductive Error where
  /-- `"ComplianceOracle: not governance"`. -/
  | notGovernance
  /-- `"ComplianceOracle: proof too short"`. -/
  | proofTooShort
  /-- `"ComplianceOracle: zero address"`. -/
  | zeroAddress
  /-- An arithmetic panic. -/
  | panic
  /-- `abi.decode` of a word that is no `bool`. -/
  | decode
  deriving DecidableEq

/-- The events of the oracle. -/
inductive Event where
  | addressBlocked (account : Address) (reason : String)
  | addressUnblocked (account : Address)
  | commitmentBlocked (commitment : Bytes32) (reason : String)
  | auditorAdded (auditor : Address)
  | auditorRemoved (auditor : Address)
  | policyUpdated (newVersion : Uint256)
  | complianceToggled (enabled : Bool)
  | viewingKeyVerifierUpdated (verifier : Address)
  deriving DecidableEq

/-- The constructor. -/
def construct (sender : Address) : Storage where
  governance := sender
  blocked := fun _ => false
  blockedCommitments := fun _ => false
  authorizedAuditors := fun _ => false
  policyVersion := 1
  complianceEnabled := true
  enhancedDueDiligenceThreshold := 0
  viewingKeyVerifier := 0

/-! ## The compliance check -/

/-- `abi.decode(result, (bool))`. -/
def decodeBool (result : Bytes) : Except Error Bool :=
  match beNat (result.take 32) with
  | 0 => .ok false
  | 1 => .ok true
  | _ => .error .decode

/-- The part of `checkCompliance` for a proof that a verifier is there for. -/
def checkViewingKeyProof (verify : Address → Bytes → Bytes → Option Bytes)
    (nullifiers outputCommitments : Bytes32 × Bytes32) (viewingKeyProof : Bytes)
    (s : Storage) : Except Error Bool := do
  revertIf (viewingKeyProof.length < 33) .proofTooShort
  let auditorKeyHash := viewingKeyProof.take 32
  let zkProof := viewingKeyProof.drop 32
  let publicInputs := nullifiers.1.toBytes ++ nullifiers.2.toBytes
    ++ outputCommitments.1.toBytes ++ outputCommitments.2.toBytes ++ auditorKeyHash
  match verify s.viewingKeyVerifier zkProof publicInputs with
  | none => .ok false
  | some result => if result.length < 32 then .ok false else decodeBool result

/-- **`checkCompliance`.** -/
def checkCompliance (verify : Address → Bytes → Bytes → Option Bytes)
    (nullifiers outputCommitments : Bytes32 × Bytes32) (viewingKeyProof : Bytes)
    (s : Storage) : Except Error Bool :=
  if s.complianceEnabled = false then .ok true
  else if s.blockedCommitments nullifiers.1 = true
      ∨ s.blockedCommitments nullifiers.2 = true then .ok false
  else if s.blockedCommitments outputCommitments.1 = true
      ∨ s.blockedCommitments outputCommitments.2 = true then .ok false
  else if 0 < viewingKeyProof.length then
    if s.viewingKeyVerifier ≠ 0 then
      checkViewingKeyProof verify nullifiers outputCommitments viewingKeyProof s
    else .ok true
  else .ok true

/-- `isBlocked`. -/
def isBlocked (account : Address) (s : Storage) : Bool := s.blocked account

/-- **What is compliant has no blocked word**, neither as a nullifier nor as an
output, while checking is enabled. -/
theorem unblocked_of_checkCompliance {verify : Address → Bytes → Bytes → Option Bytes}
    {nullifiers outputCommitments : Bytes32 × Bytes32} {viewingKeyProof : Bytes}
    {s : Storage} (henabled : s.complianceEnabled = true)
    (h : checkCompliance verify nullifiers outputCommitments viewingKeyProof s = .ok true) :
    ∀ word ∈ [nullifiers.1, nullifiers.2, outputCommitments.1, outputCommitments.2],
      s.blockedCommitments word = false := by
  unfold checkCompliance at h
  rw [henabled, if_neg Bool.false_ne_true.symm] at h
  split at h
  · cases h
  · rename_i hnullifiers
    split at h
    · cases h
    · rename_i houtputs
      simp only [not_or, Bool.not_eq_true] at hnullifiers houtputs
      simp only [List.mem_cons, List.not_mem_nil, or_false, forall_eq_or_imp, forall_eq]
      exact ⟨hnullifiers.1, hnullifiers.2, houtputs⟩

/-- … and without a verifier for viewing keys, that is all it takes. -/
theorem checkCompliance_of_unblocked {verify : Address → Bytes → Bytes → Option Bytes}
    {nullifiers outputCommitments : Bytes32 × Bytes32} {viewingKeyProof : Bytes}
    {s : Storage} (hverifier : s.viewingKeyVerifier = 0)
    (h : ∀ word ∈ [nullifiers.1, nullifiers.2, outputCommitments.1, outputCommitments.2],
      s.blockedCommitments word = false) :
    checkCompliance verify nullifiers outputCommitments viewingKeyProof s = .ok true := by
  simp only [List.mem_cons, List.not_mem_nil, or_false, forall_eq_or_imp, forall_eq] at h
  obtain ⟨hn₁, hn₂, ho₁, ho₂⟩ := h
  unfold checkCompliance
  simp [hverifier, hn₁, hn₂, ho₁, ho₂]

/-! ## Governance -/

/-- `onlyGovernance`. -/
def onlyGovernance (sender : Address) (s : Storage) : Except Error Unit :=
  revertIf (sender ≠ s.governance) .notGovernance

/-- `blockAddress`. -/
def blockAddress (sender account : Address) (reason : String) (s : Storage) :
    Except Error (Storage × List Event) := do
  onlyGovernance sender s
  .ok ({ s with blocked := Function.update s.blocked account true },
    [.addressBlocked account reason])

/-- `unblockAddress`. -/
def unblockAddress (sender account : Address) (s : Storage) :
    Except Error (Storage × List Event) := do
  onlyGovernance sender s
  .ok ({ s with blocked := Function.update s.blocked account false },
    [.addressUnblocked account])

/-- **`blockCommitment`.** -/
def blockCommitment (sender : Address) (commitment : Bytes32) (reason : String)
    (s : Storage) : Except Error (Storage × List Event) := do
  onlyGovernance sender s
  .ok ({ s with blockedCommitments := Function.update s.blockedCommitments commitment true },
    [.commitmentBlocked commitment reason])

/-- `addAuditor`. -/
def addAuditor (sender auditor : Address) (s : Storage) :
    Except Error (Storage × List Event) := do
  onlyGovernance sender s
  .ok ({ s with authorizedAuditors := Function.update s.authorizedAuditors auditor true },
    [.auditorAdded auditor])

/-- `removeAuditor`. -/
def removeAuditor (sender auditor : Address) (s : Storage) :
    Except Error (Storage × List Event) := do
  onlyGovernance sender s
  .ok ({ s with authorizedAuditors := Function.update s.authorizedAuditors auditor false },
    [.auditorRemoved auditor])

/-- `setComplianceEnabled`. -/
def setComplianceEnabled (sender : Address) (enabled : Bool) (s : Storage) :
    Except Error (Storage × List Event) := do
  onlyGovernance sender s
  .ok ({ s with complianceEnabled := enabled }, [.complianceToggled enabled])

/-- `setEDDThreshold`. -/
def setEDDThreshold (sender : Address) (threshold : Uint256) (s : Storage) :
    Except Error (Storage × List Event) := do
  onlyGovernance sender s
  .ok ({ s with enhancedDueDiligenceThreshold := threshold }, [])

/-- `updatePolicy`. -/
def updatePolicy (sender : Address) (s : Storage) :
    Except Error (Storage × List Event) := do
  onlyGovernance sender s
  let policyVersion ← checkedAdd .panic s.policyVersion 1
  .ok ({ s with policyVersion := policyVersion }, [.policyUpdated policyVersion])

/-- `transferGovernance`. -/
def transferGovernance (sender newGovernance : Address) (s : Storage) :
    Except Error (Storage × List Event) := do
  onlyGovernance sender s
  revertIf (newGovernance = 0) .zeroAddress
  .ok ({ s with governance := newGovernance }, [])

/-- `setViewingKeyVerifier`. -/
def setViewingKeyVerifier (sender verifier : Address) (s : Storage) :
    Except Error (Storage × List Event) := do
  onlyGovernance sender s
  .ok ({ s with viewingKeyVerifier := verifier }, [.viewingKeyVerifierUpdated verifier])

/-! ## Calls -/

/-- The entry points that write, with their arguments. -/
inductive Entry where
  | blockAddress (account : Address) (reason : String)
  | unblockAddress (account : Address)
  | blockCommitment (commitment : Bytes32) (reason : String)
  | addAuditor (auditor : Address)
  | removeAuditor (auditor : Address)
  | setComplianceEnabled (enabled : Bool)
  | setEDDThreshold (threshold : Uint256)
  | updatePolicy
  | transferGovernance (newGovernance : Address)
  | setViewingKeyVerifier (verifier : Address)

/-- A call of the oracle. -/
structure Call where
  sender : Address
  entry : Entry

/-- A call with the events it emits. -/
def exec (c : Call) (s : Storage) : Except Error (Storage × List Event) :=
  match c.entry with
  | .blockAddress account reason => blockAddress c.sender account reason s
  | .unblockAddress account => unblockAddress c.sender account s
  | .blockCommitment commitment reason => blockCommitment c.sender commitment reason s
  | .addAuditor auditor => addAuditor c.sender auditor s
  | .removeAuditor auditor => removeAuditor c.sender auditor s
  | .setComplianceEnabled enabled => setComplianceEnabled c.sender enabled s
  | .setEDDThreshold threshold => setEDDThreshold c.sender threshold s
  | .updatePolicy => updatePolicy c.sender s
  | .transferGovernance newGovernance => transferGovernance c.sender newGovernance s
  | .setViewingKeyVerifier verifier => setViewingKeyVerifier c.sender verifier s

/-- Whether checking is enabled after a call. -/
def Entry.enables : Entry → Bool → Bool
  | .setComplianceEnabled enabled, _ => enabled
  | _, enabled => enabled

/-- The commitments that are blocked after a call. -/
def Entry.blocks : Entry → (Bytes32 → Bool) → Bytes32 → Bool
  | .blockCommitment commitment _, blocked => Function.update blocked commitment true
  | _, blocked => blocked

/-- **What a successful call did to the policy**: it came from governance, and the
switch and the list of the commitments are as its arguments say. -/
structure Effect (c : Call) (s s' : Storage) : Prop where
  auth : c.sender = s.governance
  complianceEnabled : s'.complianceEnabled = c.entry.enables s.complianceEnabled
  blockedCommitments : s'.blockedCommitments = c.entry.blocks s.blockedCommitments

/-- A body behind `onlyGovernance`. -/
theorem onlyGovernance_bind_eq_ok {α : Type} {sender : Address} {s : Storage}
    {f : Unit → Except Error α} {a : α} :
    (onlyGovernance sender s >>= f) = .ok a ↔ sender = s.governance ∧ f () = .ok a := by
  unfold onlyGovernance
  rw [revertIf_bind_eq_ok, not_not]

/-- **Every call that goes through has this effect.** -/
theorem exec_effect {c : Call} {s s' : Storage} {evs : List Event}
    (h : exec c s = .ok (s', evs)) : Effect c s s' := by
  obtain ⟨sender, entry⟩ := c
  cases entry
  case updatePolicy =>
    obtain ⟨hauth, h⟩ := onlyGovernance_bind_eq_ok.mp h
    obtain ⟨policyVersion, -, h⟩ := (Except.bind_eq_ok _ _ _).mp h
    cases h
    exact ⟨hauth, rfl, rfl⟩
  case transferGovernance newGovernance =>
    obtain ⟨hauth, h⟩ := onlyGovernance_bind_eq_ok.mp h
    obtain ⟨-, h⟩ := (revertIf_bind_eq_ok _ _ _ _).mp h
    cases h
    exact ⟨hauth, rfl, rfl⟩
  all_goals
    obtain ⟨hauth, h⟩ := onlyGovernance_bind_eq_ok.mp h
    cases h
    exact ⟨hauth, rfl, rfl⟩

/-- A commitment stays blocked. -/
theorem Entry.blocks_mono (entry : Entry) {blocked : Bytes32 → Bool} {commitment : Bytes32}
    (h : blocked commitment = true) : entry.blocks blocked commitment = true := by
  cases entry
  case blockCommitment other reason =>
    exact (update_true_eq_true blocked other commitment).mpr (Or.inl h)
  all_goals exact h

end ComplianceOracle
