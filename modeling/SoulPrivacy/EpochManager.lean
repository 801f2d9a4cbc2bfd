import SoulPrivacy.NullifierRoot
import SoulPrivacy.Run

/-!
# The epoch manager (`EpochManager.sol`)

Nullifiers are registered in the current epoch. `finalizeEpoch` fixes the
root of the current epoch and leaves it current; `startNewEpoch` fixes it
if that was not done yet, and moves on.

A call is the sender, the block time and the entry point with its
arguments. It reverts, or gives the new storage and the events. Times,
counters and the ids of the local epochs are naturals; the one addition
that can leave 256 bits, of a time and the epoch duration, keeps its
check.
-/

namespace EpochManager

/-- `Epoch`. -/
structure Epoch where
  startTime : ℕ
  endTime : ℕ
  nullifierRoot : Bytes32
  nullifierCount : ℕ
  finalized : Bool
  deriving DecidableEq

/-- `RemoteRoot`. -/
structure RemoteRoot where
  sourceChainId : Uint256
  epochId : Uint256
  nullifierRoot : Bytes32
  receivedAt : ℕ
  deriving DecidableEq

/-- **The storage of the epoch manager**, with its two immutables. -/
structure Storage where
  currentEpochId : ℕ
  epochDuration : ℕ
  domainChainId : Uint256
  epochs : ℕ → Epoch
  epochNullifiers : ℕ → List Bytes32
  remoteRoots : Bytes32 → RemoteRoot
  localNullifiers : Bytes32 → Bool
  authorizedPools : Address → Bool
  authorizedBridges : Address → Bool
  governance : Address

/-- The errors of the epoch manager. -/
inductive Error where
  | unauthorized
  | epochAlreadyFinalized
  | epochNotReady
  | invalidRemoteRoot
  /-- An arithmetic or bounds panic. -/
  | panic
  deriving DecidableEq

/-- The events of the epoch manager. -/
inductive Event where
  | epochStarted (epochId startTime : ℕ)
  | epochFinalized (epochId : ℕ) (nullifierRoot : Bytes32) (nullifierCount : ℕ)
  | remoteEpochRootReceived (sourceChainId epochId : Uint256) (nullifierRoot : Bytes32)
  deriving DecidableEq

/-- What the two hash functions of the contract are. -/
structure Hashes where
  poseidon : Uint256 → Uint256 → Uint256
  keccak256 : Bytes → Bytes32

variable (H : Hashes)

/-! ## Entry points -/

/-- An epoch that starts now. -/
def newEpoch (timestamp epochDuration : ℕ) : Except Error Epoch := do
  revertIf (2 ^ 256 ≤ timestamp + epochDuration) .panic
  .ok ⟨timestamp, timestamp + epochDuration, 0, 0, false⟩

/-- The constructor. -/
def construct (sender : Address) (timestamp epochDuration : ℕ)
    (domainChainId : Uint256) : Except Error Storage := do
  let first ← newEpoch timestamp epochDuration
  .ok {
    currentEpochId := 0
    epochDuration := epochDuration
    domainChainId := domainChainId
    epochs := Function.update (fun _ => ⟨0, 0, 0, 0, false⟩) 0 first
    epochNullifiers := fun _ => []
    remoteRoots := fun _ => ⟨0, 0, 0, 0⟩
    localNullifiers := fun _ => false
    authorizedPools := fun _ => false
    authorizedBridges := fun _ => false
    governance := sender }

/-- `onlyGovernance`. -/
def onlyGovernance (sender : Address) (s : Storage) : Except Error Unit :=
  revertIf (sender ≠ s.governance) .unauthorized

/-- `onlyAuthorizedPool`. -/
def onlyAuthorizedPool (sender : Address) (s : Storage) : Except Error Unit :=
  revertIf (s.authorizedPools sender = false) .unauthorized

/-- `onlyAuthorizedBridge`. -/
def onlyAuthorizedBridge (sender : Address) (s : Storage) : Except Error Unit :=
  revertIf (s.authorizedBridges sender = false) .unauthorized

/-- `_finalizeEpochInternal`. -/
def finalizeEpochInternal (timestamp epochId : ℕ) (s : Storage) :
    Except Error (Storage × List Event) := do
  let epoch := s.epochs epochId
  revertIf (epoch.finalized = true) .epochAlreadyFinalized
  let root ← orRevert .panic (computeNullifierRoot H.poseidon (s.epochNullifiers epochId))
  .ok ({ s with
      epochs := Function.update s.epochs epochId { epoch with
        nullifierRoot := root
        endTime := timestamp
        finalized := true } },
    [.epochFinalized epochId root epoch.nullifierCount])

/-- The start of `startNewEpoch`: the current epoch is finalized, unless it
already is. -/
def closeCurrent (timestamp : ℕ) (s : Storage) : Except Error (Storage × List Event) :=
  if (s.epochs s.currentEpochId).finalized = false
  then finalizeEpochInternal H timestamp s.currentEpochId s
  else .ok (s, [])

/-- … and its end. -/
def advance (timestamp : ℕ) (s : Storage) : Except Error (Storage × List Event) := do
  let epoch ← newEpoch timestamp s.epochDuration
  .ok ({ s with
      currentEpochId := s.currentEpochId + 1
      epochs := Function.update s.epochs (s.currentEpochId + 1) epoch },
    [.epochStarted (s.currentEpochId + 1) timestamp])

/-- `startNewEpoch`. -/
def startNewEpoch (timestamp : ℕ) (s : Storage) :
    Except Error (Storage × List Event) := do
  let current := s.epochs s.currentEpochId
  revertIf (timestamp < current.endTime) .epochNotReady
  let p ← closeCurrent H timestamp s
  let q ← advance timestamp p.1
  .ok (q.1, p.2 ++ q.2)

/-- `finalizeEpoch`. -/
def finalizeEpoch (timestamp : ℕ) (s : Storage) :
    Except Error (Storage × List Event) :=
  finalizeEpochInternal H timestamp s.currentEpochId s

/-- `registerNullifier`. -/
def registerNullifier (sender : Address) (nullifier : Bytes32) (s : Storage) :
    Except Error (Storage × List Event) := do
  onlyAuthorizedPool sender s
  let current := s.currentEpochId
  let epoch := s.epochs current
  .ok ({ s with
      localNullifiers := Function.update s.localNullifiers nullifier true
      epochNullifiers := Function.update s.epochNullifiers current
        (s.epochNullifiers current ++ [nullifier])
      epochs := Function.update s.epochs current
        { epoch with nullifierCount := epoch.nullifierCount + 1 } },
    [])

/-- `keccak256(abi.encodePacked(sourceChainId, epochId))`. -/
def remoteKey (sourceChainId epochId : Uint256) : Bytes32 :=
  H.keccak256 (Bytes32.toBytes sourceChainId ++ Bytes32.toBytes epochId)

/-- `receiveRemoteEpochRoot`. -/
def receiveRemoteEpochRoot (sender : Address) (timestamp : ℕ)
    (sourceChainId epochId : Uint256) (nullifierRoot : Bytes32) (s : Storage) :
    Except Error (Storage × List Event) := do
  onlyAuthorizedBridge sender s
  revertIf (nullifierRoot = 0) .invalidRemoteRoot
  .ok ({ s with
      remoteRoots := Function.update s.remoteRoots (remoteKey H sourceChainId epochId)
        ⟨sourceChainId, epochId, nullifierRoot, timestamp⟩ },
    [.remoteEpochRootReceived sourceChainId epochId nullifierRoot])

/-- `isNullifierSpentGlobal`. -/
def isNullifierSpentGlobal (s : Storage) (nullifier : Bytes32) : Bool :=
  s.localNullifiers nullifier

/-- `getEpochRoot`. -/
def getEpochRoot (s : Storage) (epochId : ℕ) : Bytes32 :=
  (s.epochs epochId).nullifierRoot

/-- `getRemoteEpochRoot`. -/
def getRemoteEpochRoot (s : Storage) (sourceChainId epochId : Uint256) : Bytes32 :=
  (s.remoteRoots (remoteKey H sourceChainId epochId)).nullifierRoot

/-- An entry point that only governance may call. -/
def governed (sender : Address) (s s' : Storage) :
    Except Error (Storage × List Event) := do
  onlyGovernance sender s
  .ok (s', [])

/-- `authorizePool`. -/
def authorizePool (sender pool : Address) (s : Storage) :=
  governed sender s
    { s with authorizedPools := Function.update s.authorizedPools pool true }

/-- `revokePool`. -/
def revokePool (sender pool : Address) (s : Storage) :=
  governed sender s
    { s with authorizedPools := Function.update s.authorizedPools pool false }

/-- `authorizeBridge`. -/
def authorizeBridge (sender bridge : Address) (s : Storage) :=
  governed sender s
    { s with authorizedBridges := Function.update s.authorizedBridges bridge true }

/-- `revokeBridge`. -/
def revokeBridge (sender bridge : Address) (s : Storage) :=
  governed sender s
    { s with authorizedBridges := Function.update s.authorizedBridges bridge false }

/-- `setGovernance`. -/
def setGovernance (sender governance : Address) (s : Storage) :=
  governed sender s { s with governance := governance }

/-! ## The machine -/

/-- The entry points, with their arguments. -/
inductive Entry where
  | startNewEpoch
  | finalizeEpoch
  | registerNullifier (nullifier : Bytes32)
  | receiveRemoteEpochRoot (sourceChainId epochId : Uint256) (nullifierRoot : Bytes32)
  | authorizePool (pool : Address)
  | revokePool (pool : Address)
  | authorizeBridge (bridge : Address)
  | revokeBridge (bridge : Address)
  | setGovernance (governance : Address)
  deriving DecidableEq

/-- A call, with `msg.sender` and `block.timestamp`. -/
structure Call where
  sender : Address
  timestamp : ℕ
  entry : Entry

/-- A call with the events it emits. -/
def exec (c : Call) (s : Storage) : Except Error (Storage × List Event) :=
  match c.entry with
  | .startNewEpoch => startNewEpoch H c.timestamp s
  | .finalizeEpoch => finalizeEpoch H c.timestamp s
  | .registerNullifier nullifier => registerNullifier c.sender nullifier s
  | .receiveRemoteEpochRoot sourceChainId epochId nullifierRoot =>
    receiveRemoteEpochRoot H c.sender c.timestamp sourceChainId epochId nullifierRoot s
  | .authorizePool pool => authorizePool c.sender pool s
  | .revokePool pool => revokePool c.sender pool s
  | .authorizeBridge bridge => authorizeBridge c.sender bridge s
  | .revokeBridge bridge => revokeBridge c.sender bridge s
  | .setGovernance governance => setGovernance c.sender governance s

/-- A call as a step of the machine. -/
def step (c : Call) (s : Storage) : Except Error Storage :=
  (exec H c s).map Prod.fst

/-! ## What a call does to the epochs

Everything about the local epochs follows from which of the four entry
points that touch them was called (`Effect`). -/

/-- An epoch finalized at a time, with a root. -/
def finalizedAt (timestamp : ℕ) (epoch : Epoch) (root : Bytes32) : Epoch :=
  { epoch with nullifierRoot := root, endTime := timestamp, finalized := true }

/-- **What a successful call did to the local epochs.** -/
inductive Effect (c : Call) (s : Storage) : Storage → Prop
  | register {nullifier : Bytes32} {s' : Storage}
      (entry_eq : c.entry = .registerNullifier nullifier)
      (auth : s.authorizedPools c.sender = true)
      (current : s'.currentEpochId = s.currentEpochId)
      (epochs : s'.epochs = Function.update s.epochs s.currentEpochId
        { s.epochs s.currentEpochId with
          nullifierCount := (s.epochs s.currentEpochId).nullifierCount + 1 })
      (lists : s'.epochNullifiers = Function.update s.epochNullifiers s.currentEpochId
        (s.epochNullifiers s.currentEpochId ++ [nullifier])) : Effect c s s'
  | finalize {s' : Storage} (entry_eq : c.entry = .finalizeEpoch)
      (opened : (s.epochs s.currentEpochId).finalized = false)
      (current : s'.currentEpochId = s.currentEpochId)
      (epochs : s'.epochs = Function.update s.epochs s.currentEpochId
        (finalizedAt c.timestamp (s.epochs s.currentEpochId)
          (merkleRoot H.poseidon (s.epochNullifiers s.currentEpochId))))
      (lists : s'.epochNullifiers = s.epochNullifiers) : Effect c s s'
  | start {s' : Storage} (closed : ℕ → Epoch) (entry_eq : c.entry = .startNewEpoch)
      (ready : (s.epochs s.currentEpochId).endTime ≤ c.timestamp)
      (closing : if (s.epochs s.currentEpochId).finalized = true then closed = s.epochs
        else closed = Function.update s.epochs s.currentEpochId
          (finalizedAt c.timestamp (s.epochs s.currentEpochId)
            (merkleRoot H.poseidon (s.epochNullifiers s.currentEpochId))))
      (current : s'.currentEpochId = s.currentEpochId + 1)
      (epochs : s'.epochs = Function.update closed (s.currentEpochId + 1)
        ⟨c.timestamp, c.timestamp + s.epochDuration, 0, 0, false⟩)
      (lists : s'.epochNullifiers = s.epochNullifiers) : Effect c s s'
  | other {s' : Storage} (entry_ne : ∀ nullifier, c.entry ≠ .registerNullifier nullifier)
      (current : s'.currentEpochId = s.currentEpochId) (epochs : s'.epochs = s.epochs)
      (lists : s'.epochNullifiers = s.epochNullifiers) : Effect c s s'

variable {H}

/-- An epoch that is not finalized can be: its root is that of its list. -/
theorem finalizeEpochInternal_of_open {epochId : ℕ} {s : Storage}
    (hopen : (s.epochs epochId).finalized = false) (timestamp : ℕ) :
    finalizeEpochInternal H timestamp epochId s
      = .ok ({ s with
          epochs := Function.update s.epochs epochId (finalizedAt timestamp
            (s.epochs epochId) (merkleRoot H.poseidon (s.epochNullifiers epochId))) },
        [.epochFinalized epochId (merkleRoot H.poseidon (s.epochNullifiers epochId))
          (s.epochs epochId).nullifierCount]) := by
  unfold finalizeEpochInternal
  dsimp only
  rw [hopen, computeNullifierRoot_eq]
  rfl

/-- … and only such an epoch. -/
theorem finalizeEpochInternal_eq_ok {timestamp epochId : ℕ} {s : Storage}
    {r : Storage × List Event} (h : finalizeEpochInternal H timestamp epochId s = .ok r) :
    (s.epochs epochId).finalized = false ∧
      r.1 = { s with
        epochs := Function.update s.epochs epochId (finalizedAt timestamp
          (s.epochs epochId) (merkleRoot H.poseidon (s.epochNullifiers epochId))) } := by
  have hopen : (s.epochs epochId).finalized = false :=
    Bool.eq_false_of_not_eq_true ((revertIf_bind_eq_ok _ _ _ _).mp h).1
  rw [finalizeEpochInternal_of_open hopen] at h
  cases h
  exact ⟨hopen, rfl⟩

/-- **The root of an epoch that was just finalized** is that of its
list. -/
theorem getEpochRoot_of_finalized {timestamp epochId : ℕ} {s s' : Storage}
    {evs : List Event} (h : finalizeEpochInternal H timestamp epochId s = .ok (s', evs)) :
    getEpochRoot s' epochId = merkleRoot H.poseidon (s.epochNullifiers epochId) := by
  obtain ⟨-, hs'⟩ := finalizeEpochInternal_eq_ok h
  have hepoch : s'.epochs epochId = finalizedAt timestamp (s.epochs epochId)
      (merkleRoot H.poseidon (s.epochNullifiers epochId)) := by
    rw [show s' = _ from hs']
    exact Function.update_self ..
  rw [getEpochRoot, hepoch]
  rfl

theorem newEpoch_eq_ok {timestamp duration : ℕ} {epoch : Epoch}
    (h : newEpoch timestamp duration = .ok epoch) :
    epoch = ⟨timestamp, timestamp + duration, 0, 0, false⟩ := by
  unfold newEpoch at h
  obtain ⟨-, h⟩ := (revertIf_bind_eq_ok _ _ _ _).mp h
  cases h
  rfl

/-- Starting an epoch closes the current one, if that was not done yet. -/
theorem startNewEpoch_effect {c : Call} {s : Storage} {r : Storage × List Event}
    (hc : c.entry = .startNewEpoch) (h : startNewEpoch H c.timestamp s = .ok r) :
    Effect H c s r.1 := by
  unfold startNewEpoch at h
  obtain ⟨hready, h⟩ := (revertIf_bind_eq_ok _ _ _ _).mp h
  obtain ⟨p, hp, h⟩ := (Except.bind_eq_ok _ _ _).mp h
  obtain ⟨q, hq, h⟩ := (Except.bind_eq_ok _ _ _).mp h
  unfold advance at hq
  obtain ⟨epoch, hepoch, hq⟩ := (Except.bind_eq_ok _ _ _).mp hq
  obtain rfl := newEpoch_eq_ok hepoch
  cases hq
  cases h
  unfold closeCurrent at hp
  split at hp
  · rename_i hopen
    obtain ⟨-, hp⟩ := finalizeEpochInternal_eq_ok hp
    rw [hp]
    exact .start _ hc (not_lt.mp hready) (by rw [hopen]; exact rfl) rfl rfl rfl
  · rename_i hclosed
    cases hp
    refine .start s.epochs hc (not_lt.mp hready) ?_ rfl rfl rfl
    rw [if_pos (Bool.eq_true_of_not_eq_false hclosed)]

/-- Governance does not touch the epochs. -/
theorem governed_effect {c : Call} {s s' : Storage} {r : Storage × List Event}
    (h : governed c.sender s s' = .ok r)
    (hc : ∀ nullifier, c.entry ≠ .registerNullifier nullifier)
    (hcurrent : s'.currentEpochId = s.currentEpochId) (hepochs : s'.epochs = s.epochs)
    (hlists : s'.epochNullifiers = s.epochNullifiers) : Effect H c s r.1 := by
  unfold governed at h
  obtain ⟨-, h⟩ := (Except.unit_bind_eq_ok _ _ _).mp h
  cases h
  exact .other hc hcurrent hepochs hlists

/-- **What a successful call did.** -/
theorem step_effect {c : Call} {s s' : Storage} (h : step H c s = .ok s') :
    Effect H c s s' := by
  unfold step at h
  obtain ⟨r, hr, rfl⟩ := Except.map_eq_ok.mp h
  obtain ⟨sender, timestamp, entry⟩ := c
  unfold exec at hr
  cases entry <;> dsimp only at hr
  case startNewEpoch => exact startNewEpoch_effect rfl hr
  case finalizeEpoch =>
    obtain ⟨hopen, hs⟩ := finalizeEpochInternal_eq_ok hr
    rw [hs]
    exact .finalize rfl hopen rfl rfl rfl
  case registerNullifier nullifier =>
    unfold registerNullifier onlyAuthorizedPool at hr
    obtain ⟨hauth, hr⟩ := (revertIf_bind_eq_ok _ _ _ _).mp hr
    cases hr
    exact .register rfl (Bool.eq_true_of_not_eq_false hauth) rfl rfl rfl
  case receiveRemoteEpochRoot sourceChainId epochId nullifierRoot =>
    unfold receiveRemoteEpochRoot at hr
    obtain ⟨-, hr⟩ := (Except.unit_bind_eq_ok _ _ _).mp hr
    obtain ⟨-, hr⟩ := (revertIf_bind_eq_ok _ _ _ _).mp hr
    cases hr
    exact .other nofun rfl rfl rfl
  all_goals exact governed_effect hr nofun rfl rfl rfl

/-- **Anyone can finalize the current epoch** while it is open. -/
theorem step_finalizeEpoch {s : Storage}
    (hopen : (s.epochs s.currentEpochId).finalized = false) (sender : Address)
    (timestamp : ℕ) :
    ∃ s', step H ⟨sender, timestamp, .finalizeEpoch⟩ s = .ok s'
      ∧ s'.currentEpochId = s.currentEpochId
      ∧ s'.epochs s.currentEpochId = finalizedAt timestamp (s.epochs s.currentEpochId)
          (merkleRoot H.poseidon (s.epochNullifiers s.currentEpochId)) := by
  have hfin := finalizeEpochInternal_of_open (H := H) hopen timestamp
  refine ⟨_, congrArg (Except.map Prod.fst) hfin, rfl, ?_⟩
  exact Function.update_self ..

end EpochManager
