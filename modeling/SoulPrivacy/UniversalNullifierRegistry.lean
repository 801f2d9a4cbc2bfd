import SoulPrivacy.Run
import SoulPrivacy.Solidity

/-!
# The nullifier registry (`UniversalNullifierRegistry.sol`)

The hub records, chain by chain and epoch by epoch, the roots the bridge
adapters submit, and marks a nullifier as spent on a chain when it is
shown to be under one of that chain's roots. Roots may be aggregated into
a snapshot by anyone.

A call is the sender, the block time and the entry point with its
arguments; it reverts, or gives the new storage and the events. Epoch ids
and times are naturals.
-/

namespace UniversalNullifierRegistry

/-- `ChainRegistration`. -/
structure ChainRegistration where
  chainId : Uint256
  name : String
  bridgeAdapter : Address
  latestEpochId : ℕ
  latestEpochRoot : Bytes32
  lastUpdatedAt : ℕ
  active : Bool
  deriving DecidableEq

/-- What a mapping reads where no chain was registered. -/
def ChainRegistration.absent : ChainRegistration := ⟨0, "", 0, 0, 0, 0, false⟩

/-- `GlobalEpochSnapshot`. -/
structure GlobalEpochSnapshot where
  snapshotId : ℕ
  aggregatedRoot : Bytes32
  timestamp : ℕ
  chainCount : ℕ
  deriving DecidableEq

/-- **The storage of the registry.** -/
structure Storage where
  governance : Address
  chains : Uint256 → ChainRegistration
  registeredChainIds : List Uint256
  epochRoots : Uint256 → ℕ → Bytes32
  snapshots : List GlobalEpochSnapshot
  globalRoot : Bytes32
  nullifierSpentGlobal : Uint256 → Bytes32 → Bool

/-- The errors of the registry. -/
inductive Error where
  | unauthorized
  | chainNotRegistered (chainId : Uint256)
  | chainAlreadyRegistered (chainId : Uint256)
  | chainInactive (chainId : Uint256)
  | epochAlreadyRecorded (chainId : Uint256) (epochId : ℕ)
  | invalidEpochSequence (chainId : Uint256) (expected received : ℕ)
  | nullifierAlreadyReported (chainId : Uint256) (nullifier : Bytes32)
  | invalidInclusionProof
  deriving DecidableEq

/-- The events of the registry. -/
inductive Event where
  | chainRegistered (chainId : Uint256) (name : String) (bridgeAdapter : Address)
  | chainDeactivated (chainId : Uint256)
  | epochRootReceived (chainId : Uint256) (epochId : ℕ) (nullifierRoot : Bytes32)
      (nullifierCount : Uint256)
  | globalSnapshotCreated (snapshotId : ℕ) (aggregatedRoot : Bytes32) (chainCount : ℕ)
  | nullifierReportedSpent (chainId : Uint256) (nullifier : Bytes32)
  deriving DecidableEq

/-- `MAX_PROOF_DEPTH`. -/
def MAX_PROOF_DEPTH : ℕ := 32

/-- The constructor. -/
def construct (governance : Address) : Storage where
  governance := governance
  chains := fun _ => ChainRegistration.absent
  registeredChainIds := []
  epochRoots := fun _ _ => 0
  snapshots := []
  globalRoot := 0
  nullifierSpentGlobal := fun _ _ => false

variable (hash : Uint256 → Uint256 → Uint256)

/-! ## Entry points -/

/-- `onlyGovernance`. -/
def onlyGovernance (sender : Address) (s : Storage) : Except Error Unit :=
  revertIf (sender ≠ s.governance) .unauthorized

/-- `onlyAuthorizedBridge`. -/
def onlyAuthorizedBridge (sender : Address) (chainId : Uint256) (s : Storage) :
    Except Error Unit := do
  let reg := s.chains chainId
  revertIf (reg.active = false) (.chainInactive chainId)
  revertIf (sender ≠ reg.bridgeAdapter ∧ sender ≠ s.governance) .unauthorized

/-- `registerChain`. -/
def registerChain (sender : Address) (timestamp : ℕ) (chainId : Uint256) (name : String)
    (bridgeAdapter : Address) (s : Storage) : Except Error (Storage × List Event) := do
  onlyGovernance sender s
  revertIf ((s.chains chainId).active = true) (.chainAlreadyRegistered chainId)
  .ok ({ s with
      chains := Function.update s.chains chainId
        ⟨chainId, name, bridgeAdapter, 0, 0, timestamp, true⟩
      registeredChainIds := s.registeredChainIds ++ [chainId] },
    [.chainRegistered chainId name bridgeAdapter])

/-- `deactivateChain`. -/
def deactivateChain (sender : Address) (chainId : Uint256) (s : Storage) :
    Except Error (Storage × List Event) := do
  onlyGovernance sender s
  revertIf ((s.chains chainId).active = false) (.chainInactive chainId)
  .ok ({ s with
      chains := Function.update s.chains chainId
        { s.chains chainId with active := false } },
    [.chainDeactivated chainId])

/-- `updateBridgeAdapter`. -/
def updateBridgeAdapter (sender : Address) (chainId : Uint256) (newAdapter : Address)
    (s : Storage) : Except Error (Storage × List Event) := do
  onlyGovernance sender s
  revertIf ((s.chains chainId).chainId = 0) (.chainNotRegistered chainId)
  .ok ({ s with
      chains := Function.update s.chains chainId
        { s.chains chainId with bridgeAdapter := newAdapter } }, [])

/-- The check of the sequence in `submitEpochRoot`: the first submission
must be for epoch 0, any other for the one after the latest. -/
def checkSequence (chainId : Uint256) (epochId : ℕ) (reg : ChainRegistration) :
    Except Error Unit :=
  if reg.latestEpochRoot = 0 ∧ reg.latestEpochId = 0 then
    revertIf (epochId ≠ 0) (.invalidEpochSequence chainId 0 epochId)
  else
    revertIf (epochId ≠ reg.latestEpochId + 1)
      (.invalidEpochSequence chainId (reg.latestEpochId + 1) epochId)

/-- `submitEpochRoot`. -/
def submitEpochRoot (sender : Address) (timestamp : ℕ) (chainId : Uint256) (epochId : ℕ)
    (nullifierRoot : Bytes32) (nullifierCount : Uint256) (s : Storage) :
    Except Error (Storage × List Event) := do
  onlyAuthorizedBridge sender chainId s
  let reg := s.chains chainId
  checkSequence chainId epochId reg
  revertIf (s.epochRoots chainId epochId ≠ 0) (.epochAlreadyRecorded chainId epochId)
  .ok ({ s with
      epochRoots := Function.update s.epochRoots chainId
        (Function.update (s.epochRoots chainId) epochId nullifierRoot)
      chains := Function.update s.chains chainId { reg with
        latestEpochId := epochId
        latestEpochRoot := nullifierRoot
        lastUpdatedAt := timestamp } },
    [.epochRootReceived chainId epochId nullifierRoot nullifierCount])

/-- The body of the loop of `createGlobalSnapshot`. -/
def aggregate (chains : Uint256 → ChainRegistration) (acc : Bytes32 × ℕ)
    (cid : Uint256) : Bytes32 × ℕ :=
  if (chains cid).active = true ∧ (chains cid).latestEpochRoot ≠ 0 then
    (hash acc.1 (chains cid).latestEpochRoot, acc.2 + 1)
  else acc

/-- `createGlobalSnapshot`. -/
def createGlobalSnapshot (timestamp : ℕ) (s : Storage) :
    Except Error (Storage × List Event) :=
  let p := s.registeredChainIds.foldl (aggregate hash s.chains) (0, 0)
  let snapshotId := s.snapshots.length
  .ok ({ s with
      snapshots := s.snapshots ++ [⟨snapshotId, p.1, timestamp, p.2⟩]
      globalRoot := p.1 },
    [.globalSnapshotCreated snapshotId p.1 p.2])

/-- The loop of `_verifyInclusion`, along the path; `none` is the early
`false` of an index that is neither 0 nor 1. -/
def climbProof (current : Bytes32) : List (Uint256 × Bytes32) → Option Bytes32
  | [] => some current
  | (index, sibling) :: rest =>
    if 1 < index then none
    else if index = 0 then climbProof (hash current sibling) rest
    else climbProof (hash sibling current) rest

/-- `_verifyInclusion`. -/
def verifyInclusion (leaf root : Bytes32) (proof : List Bytes32)
    (pathIndices : List Uint256) : Bool :=
  if proof.length ≠ pathIndices.length then false
  else if proof.length = 0 then false
  else if MAX_PROOF_DEPTH < proof.length then false
  else match climbProof hash leaf (pathIndices.zip proof) with
    | none => false
    | some current => current == root

/-- `reportNullifierSpent`. -/
def reportNullifierSpent (chainId : Uint256) (nullifier : Bytes32) (epochId : ℕ)
    (proof : List Bytes32) (pathIndices : List Uint256) (s : Storage) :
    Except Error (Storage × List Event) := do
  revertIf ((s.chains chainId).chainId = 0) (.chainNotRegistered chainId)
  revertIf (s.nullifierSpentGlobal chainId nullifier = true)
    (.nullifierAlreadyReported chainId nullifier)
  let epochRoot := s.epochRoots chainId epochId
  revertIf (epochRoot = 0) .invalidInclusionProof
  revertIf (verifyInclusion hash nullifier epochRoot proof pathIndices = false)
    .invalidInclusionProof
  .ok ({ s with
      nullifierSpentGlobal := Function.update s.nullifierSpentGlobal chainId
        (Function.update (s.nullifierSpentGlobal chainId) nullifier true) },
    [.nullifierReportedSpent chainId nullifier])

/-- `isNullifierSpentGlobally`. -/
def isNullifierSpentGlobally (s : Storage) (nullifier : Bytes32) : Bool × Uint256 :=
  match s.registeredChainIds.find? (fun cid => s.nullifierSpentGlobal cid nullifier) with
  | some cid => (true, cid)
  | none => (false, 0)

/-- `getChainLatestEpoch`. -/
def getChainLatestEpoch (s : Storage) (chainId : Uint256) : ℕ × Bytes32 :=
  ((s.chains chainId).latestEpochId, (s.chains chainId).latestEpochRoot)

/-! ## The machine -/

/-- The entry points, with their arguments. -/
inductive Entry where
  | registerChain (chainId : Uint256) (name : String) (bridgeAdapter : Address)
  | deactivateChain (chainId : Uint256)
  | updateBridgeAdapter (chainId : Uint256) (newAdapter : Address)
  | submitEpochRoot (chainId : Uint256) (epochId : ℕ) (nullifierRoot : Bytes32)
      (nullifierCount : Uint256)
  | createGlobalSnapshot
  | reportNullifierSpent (chainId : Uint256) (nullifier : Bytes32) (epochId : ℕ)
      (proof : List Bytes32) (pathIndices : List Uint256)
  deriving DecidableEq

/-- A call, with `msg.sender` and `block.timestamp`. -/
structure Call where
  sender : Address
  timestamp : ℕ
  entry : Entry

/-- A call with the events it emits. -/
def exec (c : Call) (s : Storage) : Except Error (Storage × List Event) :=
  match c.entry with
  | .registerChain chainId name bridgeAdapter =>
    registerChain c.sender c.timestamp chainId name bridgeAdapter s
  | .deactivateChain chainId => deactivateChain c.sender chainId s
  | .updateBridgeAdapter chainId newAdapter =>
    updateBridgeAdapter c.sender chainId newAdapter s
  | .submitEpochRoot chainId epochId nullifierRoot nullifierCount =>
    submitEpochRoot c.sender c.timestamp chainId epochId nullifierRoot nullifierCount s
  | .createGlobalSnapshot => createGlobalSnapshot hash c.timestamp s
  | .reportNullifierSpent chainId nullifier epochId proof pathIndices =>
    reportNullifierSpent hash chainId nullifier epochId proof pathIndices s

/-- A call as a step of the machine. -/
def step (c : Call) (s : Storage) : Except Error Storage :=
  (exec hash c s).map Prod.fst

/-! ## What a call does -/

/-- **What a successful call did.** -/
inductive Effect (c : Call) (s : Storage) : Storage → Prop
  | registerChain {chainId : Uint256} {name : String} {bridgeAdapter : Address}
      (entry_eq : c.entry = .registerChain chainId name bridgeAdapter)
      (auth : c.sender = s.governance) (inactive : (s.chains chainId).active = false) :
      Effect c s { s with
        chains := Function.update s.chains chainId
          ⟨chainId, name, bridgeAdapter, 0, 0, c.timestamp, true⟩
        registeredChainIds := s.registeredChainIds ++ [chainId] }
  | deactivateChain {chainId : Uint256} (entry_eq : c.entry = .deactivateChain chainId)
      (auth : c.sender = s.governance) (active : (s.chains chainId).active = true) :
      Effect c s { s with
        chains := Function.update s.chains chainId
          { s.chains chainId with active := false } }
  | updateBridgeAdapter {chainId : Uint256} {newAdapter : Address}
      (entry_eq : c.entry = .updateBridgeAdapter chainId newAdapter)
      (auth : c.sender = s.governance) (registered : (s.chains chainId).chainId ≠ 0) :
      Effect c s { s with
        chains := Function.update s.chains chainId
          { s.chains chainId with bridgeAdapter := newAdapter } }
  | submitEpochRoot {chainId : Uint256} {epochId : ℕ} {nullifierRoot : Bytes32}
      {nullifierCount : Uint256}
      (entry_eq : c.entry = .submitEpochRoot chainId epochId nullifierRoot nullifierCount)
      (active : (s.chains chainId).active = true)
      (auth : c.sender = (s.chains chainId).bridgeAdapter ∨ c.sender = s.governance)
      (sequence : checkSequence chainId epochId (s.chains chainId) = .ok ())
      (unrecorded : s.epochRoots chainId epochId = 0) :
      Effect c s { s with
        epochRoots := Function.update s.epochRoots chainId
          (Function.update (s.epochRoots chainId) epochId nullifierRoot)
        chains := Function.update s.chains chainId { s.chains chainId with
          latestEpochId := epochId
          latestEpochRoot := nullifierRoot
          lastUpdatedAt := c.timestamp } }
  | createGlobalSnapshot (entry_eq : c.entry = .createGlobalSnapshot) :
      Effect c s { s with
        snapshots := s.snapshots ++ [⟨s.snapshots.length,
          (s.registeredChainIds.foldl (aggregate hash s.chains) (0, 0)).1, c.timestamp,
          (s.registeredChainIds.foldl (aggregate hash s.chains) (0, 0)).2⟩]
        globalRoot := (s.registeredChainIds.foldl (aggregate hash s.chains) (0, 0)).1 }
  | reportNullifierSpent {chainId : Uint256} {nullifier : Bytes32} {epochId : ℕ}
      {proof : List Bytes32} {pathIndices : List Uint256}
      (entry_eq :
        c.entry = .reportNullifierSpent chainId nullifier epochId proof pathIndices)
      (registered : (s.chains chainId).chainId ≠ 0)
      (unreported : s.nullifierSpentGlobal chainId nullifier = false)
      (recorded : s.epochRoots chainId epochId ≠ 0)
      (included : verifyInclusion hash nullifier (s.epochRoots chainId epochId) proof
        pathIndices = true) :
      Effect c s { s with
        nullifierSpentGlobal := Function.update s.nullifierSpentGlobal chainId
          (Function.update (s.nullifierSpentGlobal chainId) nullifier true) }

variable {hash}

theorem onlyGovernance_eq_ok {sender : Address} {s : Storage} {u : Unit} :
    onlyGovernance sender s = .ok u ↔ sender = s.governance := by
  simp [onlyGovernance]

/-- A chain's submitters are its bridge adapter and governance, while it
is active. -/
theorem onlyAuthorizedBridge_eq_ok {sender : Address} {chainId : Uint256} {s : Storage}
    {u : Unit} :
    onlyAuthorizedBridge sender chainId s = .ok u ↔
      (s.chains chainId).active = true ∧
        (sender = (s.chains chainId).bridgeAdapter ∨ sender = s.governance) := by
  unfold onlyAuthorizedBridge
  rw [revertIf_bind_eq_ok, revertIf_eq_ok, not_and_or, not_not, not_not, Bool.not_eq_false]

/-- **When a submission goes through.** -/
theorem submitEpochRoot_isOk {sender : Address} {timestamp : ℕ} {chainId : Uint256}
    {epochId : ℕ} {nullifierRoot : Bytes32} {nullifierCount : Uint256} {s : Storage} :
    (∃ s', step hash ⟨sender, timestamp,
        .submitEpochRoot chainId epochId nullifierRoot nullifierCount⟩ s = .ok s') ↔
      onlyAuthorizedBridge sender chainId s = .ok ()
        ∧ checkSequence chainId epochId (s.chains chainId) = .ok ()
        ∧ s.epochRoots chainId epochId = 0 := by
  constructor
  · rintro ⟨s', h⟩
    obtain ⟨r, hr, -⟩ := Except.map_eq_ok.mp h
    obtain ⟨hauth, hr⟩ := (Except.unit_bind_eq_ok _ _ _).mp hr
    obtain ⟨hseq, hr⟩ := (Except.unit_bind_eq_ok _ _ _).mp hr
    obtain ⟨hnew, -⟩ := (revertIf_bind_eq_ok _ _ _ _).mp hr
    exact ⟨hauth, hseq, not_not.mp hnew⟩
  · rintro ⟨hauth, hseq, hnew⟩
    have hrun : ∃ r, submitEpochRoot sender timestamp chainId epochId nullifierRoot
        nullifierCount s = .ok r :=
      ⟨_, (Except.unit_bind_eq_ok _ _ _).mpr ⟨hauth,
        (Except.unit_bind_eq_ok _ _ _).mpr ⟨hseq,
          (revertIf_bind_eq_ok _ _ _ _).mpr ⟨not_not.mpr hnew, rfl⟩⟩⟩⟩
    obtain ⟨r, hr⟩ := hrun
    exact ⟨r.1, Except.map_eq_ok.mpr ⟨r, hr, rfl⟩⟩

/-- **When a report goes through.** Anyone may make it, at any time. -/
theorem reportNullifierSpent_isOk {sender : Address} {timestamp : ℕ}
    {chainId : Uint256} {nullifier : Bytes32} {epochId : ℕ} {proof : List Bytes32}
    {pathIndices : List Uint256} {s : Storage} :
    (∃ s', step hash ⟨sender, timestamp,
        .reportNullifierSpent chainId nullifier epochId proof pathIndices⟩ s = .ok s') ↔
      (s.chains chainId).chainId ≠ 0
        ∧ s.nullifierSpentGlobal chainId nullifier = false
        ∧ s.epochRoots chainId epochId ≠ 0
        ∧ verifyInclusion hash nullifier (s.epochRoots chainId epochId) proof
            pathIndices = true := by
  constructor
  · rintro ⟨s', h⟩
    obtain ⟨r, hr, -⟩ := Except.map_eq_ok.mp h
    obtain ⟨hreg, hr⟩ := (revertIf_bind_eq_ok _ _ _ _).mp hr
    obtain ⟨hnew, hr⟩ := (revertIf_bind_eq_ok _ _ _ _).mp hr
    obtain ⟨hrec, hr⟩ := (revertIf_bind_eq_ok _ _ _ _).mp hr
    obtain ⟨hinc, -⟩ := (revertIf_bind_eq_ok _ _ _ _).mp hr
    exact ⟨hreg, Bool.eq_false_of_not_eq_true hnew, hrec,
      Bool.eq_true_of_not_eq_false hinc⟩
  · rintro ⟨hreg, hnew, hrec, hinc⟩
    have hrun : ∃ r, reportNullifierSpent hash chainId nullifier epochId proof
        pathIndices s = .ok r :=
      ⟨_, (revertIf_bind_eq_ok _ _ _ _).mpr ⟨hreg,
        (revertIf_bind_eq_ok _ _ _ _).mpr ⟨by rw [hnew]; exact nofun,
          (revertIf_bind_eq_ok _ _ _ _).mpr ⟨hrec,
            (revertIf_bind_eq_ok _ _ _ _).mpr ⟨by rw [hinc]; exact nofun, rfl⟩⟩⟩⟩⟩
    obtain ⟨r, hr⟩ := hrun
    exact ⟨r.1, Except.map_eq_ok.mpr ⟨r, hr, rfl⟩⟩

/-- **What a successful call did.** -/
theorem step_effect {c : Call} {s s' : Storage} (h : step hash c s = .ok s') :
    Effect hash c s s' := by
  obtain ⟨r, hr, rfl⟩ := Except.map_eq_ok.mp h
  obtain ⟨sender, timestamp, entry⟩ := c
  unfold exec at hr
  cases entry <;> dsimp only at hr
  case registerChain =>
    obtain ⟨hauth, hr⟩ := (Except.unit_bind_eq_ok _ _ _).mp hr
    obtain ⟨hinactive, hr⟩ := (revertIf_bind_eq_ok _ _ _ _).mp hr
    cases hr
    exact .registerChain rfl (onlyGovernance_eq_ok.mp hauth)
      (Bool.eq_false_of_not_eq_true hinactive)
  case deactivateChain =>
    obtain ⟨hauth, hr⟩ := (Except.unit_bind_eq_ok _ _ _).mp hr
    obtain ⟨hactive, hr⟩ := (revertIf_bind_eq_ok _ _ _ _).mp hr
    cases hr
    exact .deactivateChain rfl (onlyGovernance_eq_ok.mp hauth)
      (Bool.eq_true_of_not_eq_false hactive)
  case updateBridgeAdapter =>
    obtain ⟨hauth, hr⟩ := (Except.unit_bind_eq_ok _ _ _).mp hr
    obtain ⟨hreg, hr⟩ := (revertIf_bind_eq_ok _ _ _ _).mp hr
    cases hr
    exact .updateBridgeAdapter rfl (onlyGovernance_eq_ok.mp hauth) hreg
  case submitEpochRoot =>
    obtain ⟨hauth, hr⟩ := (Except.unit_bind_eq_ok _ _ _).mp hr
    obtain ⟨hseq, hr⟩ := (Except.unit_bind_eq_ok _ _ _).mp hr
    obtain ⟨hnew, hr⟩ := (revertIf_bind_eq_ok _ _ _ _).mp hr
    cases hr
    obtain ⟨hactive, hsender⟩ := onlyAuthorizedBridge_eq_ok.mp hauth
    exact .submitEpochRoot rfl hactive hsender hseq (not_not.mp hnew)
  case createGlobalSnapshot =>
    cases hr
    exact .createGlobalSnapshot rfl
  case reportNullifierSpent =>
    obtain ⟨hreg, hr⟩ := (revertIf_bind_eq_ok _ _ _ _).mp hr
    obtain ⟨hnew, hr⟩ := (revertIf_bind_eq_ok _ _ _ _).mp hr
    obtain ⟨hrec, hr⟩ := (revertIf_bind_eq_ok _ _ _ _).mp hr
    obtain ⟨hinc, hr⟩ := (revertIf_bind_eq_ok _ _ _ _).mp hr
    cases hr
    exact .reportNullifierSpent rfl hreg (Bool.eq_false_of_not_eq_true hnew) hrec
      (Bool.eq_true_of_not_eq_false hinc)

/-! ## The ids of registered chains -/

/-- A chain that is active or has a recorded root goes by its own id. -/
def Identified (s : Storage) : Prop :=
  ∀ chainId, (s.chains chainId).active = true ∨ (∃ e, s.epochRoots chainId e ≠ 0) →
    (s.chains chainId).chainId = chainId

/-- Only a registration sets an id. -/
theorem Identified.update {s : Storage} (h : Identified s) {chainId : Uint256}
    {reg : ChainRegistration} {epochRoots : Uint256 → ℕ → Bytes32}
    (hid : reg.chainId = chainId)
    (hroots : ∀ cid, cid ≠ chainId → epochRoots cid = s.epochRoots cid) :
    Identified { s with
      chains := Function.update s.chains chainId reg
      epochRoots := epochRoots } := by
  intro cid hcid
  dsimp only at hcid ⊢
  by_cases heq : cid = chainId
  · rw [heq, Function.update_self]
    exact hid
  · rw [Function.update_of_ne heq, hroots cid heq] at hcid
    rw [Function.update_of_ne heq]
    exact h cid hcid

/-- **Every chain with a recorded root is registered under its id.** -/
theorem identified_of_run {allowed : Storage → Call → Prop} {governance : Address}
    {tr : List (Storage × Call)} {s : Storage}
    (hrun : Run (step hash) allowed (construct governance) tr s) : Identified s := by
  refine hrun.invariant (I := fun _ s => Identified s) ?_ ?_
  · rintro chainId (hactive | ⟨e, he⟩)
    · cases hactive
    · exact absurd rfl he
  · intro tr s c s' h _ hs
    cases step_effect hs with
    | registerChain => exact h.update rfl (fun _ _ => rfl)
    | deactivateChain _ _ active => exact h.update (h _ (Or.inl active)) (fun _ _ => rfl)
    | @updateBridgeAdapter chainId =>
      intro cid hcid
      dsimp only at hcid ⊢
      by_cases heq : cid = chainId
      · rw [heq, Function.update_self] at hcid ⊢
        exact h chainId hcid
      · rw [Function.update_of_ne heq] at hcid ⊢
        exact h cid hcid
    | submitEpochRoot _ active =>
      exact h.update (h _ (Or.inl active)) (fun _ hne => Function.update_of_ne hne ..)
    | createGlobalSnapshot => exact h
    | reportNullifierSpent => exact h

end UniversalNullifierRegistry
