import SoulPrivacy.Abi
import SoulPrivacy.Run
import SoulPrivacy.RustStrings

/-!
# The ink! pool (`ink/privacy-pool/lib.rs`)

The pool for chains that run Wasm, on words of 32 bytes. A message gives the new
state with the payments it makes, or an error, and then leaves everything as it
was.

Its integers have fixed width, and what happens when one overflows is not fixed
by the source: a contract compiled with overflow checks panics, and one compiled
without them wraps. `Build` says which, and everything below is about both.

The host's `keccak256` is a parameter.
-/

namespace InkPool

open RustString (asBytes)

/-- `TREE_DEPTH`. -/
def TREE_DEPTH : ℕ := 32

/-- `ROOT_HISTORY_SIZE`. -/
def ROOT_HISTORY_SIZE : ℕ := 100

/-- `ZERO_VALUE`. -/
def ZERO_VALUE : Bytes32 := 0

/-- `MIN_COMMIT_DELAY`. -/
def MIN_COMMIT_DELAY : ℕ := 2

/-- `MAX_COMMIT_DELAY`. -/
def MAX_COMMIT_DELAY : ℕ := 100

/-- An account, by its 32 bytes. -/
abbrev AccountId := BitVec 256

/-- A `Balance`. -/
abbrev Balance := BitVec 128

/-- `EpochInfo`. -/
structure EpochInfo where
  epochId : BitVec 32
  root : Bytes32
  finalized : Bool
  blockFinalized : BitVec 32
  deriving DecidableEq

/-- `CommitRecord`. -/
structure CommitRecord where
  depositor : AccountId
  blockNumber : BitVec 32
  revealed : Bool
  deriving DecidableEq

/-- **The contract**, `PrivacyPool`. -/
structure State where
  governance : AccountId
  leaves : Bytes32 → Option (BitVec 32)
  nodes : ℕ × ℕ → Option Bytes32
  nextLeafIndex : BitVec 32
  rootHistory : ℕ → Option Bytes32
  rootHistoryCursor : ℕ
  currentRoot : Bytes32
  nullifiers : Bytes32 → Option Bool
  currentEpoch : BitVec 32
  epochs : BitVec 32 → Option EpochInfo
  epochDuration : BitVec 32
  epochStartBlock : BitVec 32
  remoteRoots : BitVec 32 × BitVec 32 → Option Bytes32
  poolBalance : Balance
  paused : Bool
  pendingCommits : Bytes32 → Option CommitRecord

/-- `Error`, and the ways to fail without one. -/
inductive Error where
  | duplicateCommitment
  | treeFull
  | invalidProof
  | nullifierAlreadySpent
  | unknownRoot
  | zeroAmount
  | insufficientFunds
  | epochAlreadyFinalized
  | notGovernance
  | poolPaused
  | duplicateCommit
  | commitNotFound
  | revealTooEarly
  | commitExpired
  | alreadyRevealed
  | notDepositor
  | commitNotExpired
  | zeroAddress
  /-- A message that is not `payable` was sent a value. -/
  | paidUnpayableMessage
  /-- `unwrap` of nothing. -/
  | unwrapNone
  /-- Arithmetic that overflows where that is checked. -/
  | overflow
  deriving DecidableEq

/-- What the host tells about a message, and whether a payment it makes is
taken. -/
structure Env where
  caller : AccountId
  blockNumber : BitVec 32
  transferredValue : Balance
  accepts : Bool

/-- `transfer(recipient, amount)`. -/
structure Payment where
  recipient : AccountId
  amount : Balance
  deriving DecidableEq

/-! ## Arithmetic of fixed width -/

/-- **How the contract is compiled**: with overflow checks or without. -/
inductive Build where
  | checked
  | wrapping
  deriving DecidableEq

/-- `x + y`. -/
def Build.add {w : ℕ} (build : Build) (x y : BitVec w) : Except Error (BitVec w) := do
  revertIf (build = .checked ∧ 2 ^ w ≤ x.toNat + y.toNat) .overflow
  .ok (x + y)

/-- `x << n`, where the bits of `n` beyond the width are dropped. -/
def Build.shl (build : Build) (x : BitVec 32) (n : ℕ) : Except Error (BitVec 32) := do
  revertIf (build = .checked ∧ 32 ≤ n) .overflow
  .ok (x <<< (n % 32))

/-- `x.saturating_sub(y)`. -/
def saturatingSub (x y : BitVec 32) : ℕ := x.toNat - y.toNat

variable (keccak256 : Bytes → Bytes32) (build : Build)

/-! ## Proofs -/

/-- What is hashed for the binding. -/
def transcript (nullifiers outputCommitments : Bytes32 × Bytes32) (body : Bytes) : Bytes :=
  asBytes "Halo2-IPA-bind" ++ (Bytes32.toBytes nullifiers.1 ++ Bytes32.toBytes nullifiers.2
    ++ Bytes32.toBytes outputCommitments.1 ++ Bytes32.toBytes outputCommitments.2) ++ body

/-- `verify_proof_structure`. -/
def verifyProofStructure (proof : Bytes) (nullifiers outputCommitments : Bytes32 × Bytes32) :
    Except Error Unit := do
  revertIf (proof.length < 192) .invalidProof
  revertIf (4096 < proof.length) .invalidProof
  revertIf (proof.length % 32 ≠ 0) .invalidProof
  revertIf (proof.all (· == 0) = true) .invalidProof
  revertIf (nullifiers.1 = nullifiers.2) .invalidProof
  revertIf (nullifiers.1 = 0 ∨ nullifiers.2 = 0) .invalidProof
  revertIf (outputCommitments.1 = 0 ∨ outputCommitments.2 = 0) .invalidProof
  let binding := proof.take 32
  let body := proof.drop 32
  revertIf (body.length < 160 ∨ (body.length - 96) % 64 ≠ 0) .invalidProof
  let expectedBinding := keccak256 (transcript nullifiers outputCommitments body)
  revertIf (binding ≠ Bytes32.toBytes expectedBinding) .invalidProof

/-! ## The tree -/

/-- The hash of two nodes. -/
def poseidonHash (left right : Bytes32) : Bytes32 :=
  keccak256 (asBytes "Poseidon" ++ Bytes32.toBytes left ++ Bytes32.toBytes right)

/-- What the loop of `update_tree` carries from level to level. -/
structure Climb where
  currentHash : Bytes32
  index : ℕ
  nodes : ℕ × ℕ → Option Bytes32

/-- The body of the loop of `update_tree`. A sibling that was never written is
`ZERO_VALUE`, at every level. -/
def updateStep (st : Climb) (level : ℕ) : Climb :=
  let currentHash :=
    if st.index % 2 = 0 then
      poseidonHash keccak256 st.currentHash
        ((st.nodes (level, st.index + 1)).getD ZERO_VALUE)
    else
      poseidonHash keccak256 ((st.nodes (level, st.index - 1)).getD ZERO_VALUE)
        st.currentHash
  { currentHash := currentHash
    index := st.index / 2
    nodes := Function.update st.nodes (level + 1, st.index / 2) (some currentHash) }

/-- `update_tree`. -/
def updateTree (leafIndex : BitVec 32) (leafHash : Bytes32) (s : State) : State :=
  let st := (List.range TREE_DEPTH).foldl (updateStep keccak256)
    ⟨leafHash, leafIndex.toNat, s.nodes⟩
  { s with
    nodes := st.nodes
    currentRoot := st.currentHash }

/-- `push_root`. -/
def pushRoot (root : Bytes32) (s : State) : State :=
  { s with
    rootHistory := Function.update s.rootHistory s.rootHistoryCursor (some root)
    rootHistoryCursor := (s.rootHistoryCursor + 1) % ROOT_HISTORY_SIZE }

/-- `is_known_root`. -/
def isKnownRoot (s : State) (root : Bytes32) : Bool :=
  root == s.currentRoot
    || (List.range ROOT_HISTORY_SIZE).any (fun i => s.rootHistory i == some root)

/-- What all messages with a new leaf do with it. -/
def insertLeaf (commitment : Bytes32) (s : State) : Except Error State := do
  let leafIndex := s.nextLeafIndex
  let s : State := { s with
    leaves := Function.update s.leaves commitment (some leafIndex)
    nodes := Function.update s.nodes (0, leafIndex.toNat) (some commitment) }
  let s := updateTree keccak256 leafIndex commitment s
  let nextLeafIndex ← build.add leafIndex 1
  .ok { s with nextLeafIndex := nextLeafIndex }

/-- `if leaf_index >= (1u32 << TREE_DEPTH)`. -/
def checkCapacity (s : State) : Except Error Unit := do
  let capacity ← build.shl 1 TREE_DEPTH
  revertIf (capacity ≤ s.nextLeafIndex) .treeFull

/-- The body of the loop over the outputs of a transfer. -/
def insertOutput (cm : Bytes32) (s : State) : Except Error State := do
  revertIf ((s.leaves cm).isSome = true) .duplicateCommitment
  insertLeaf keccak256 build cm s

/-- The body of the loop over the outputs of a withdrawal. -/
def insertChange (cm : Bytes32) (s : State) : Except Error State :=
  if cm ≠ 0 then insertOutput keccak256 build cm s else .ok s

/-- The loop that marks the nullifiers. -/
def markSpent (nullifiers : Bytes32 × Bytes32) (s : State) : State :=
  { s with
    nullifiers := Function.update (Function.update s.nullifiers nullifiers.1 (some true))
      nullifiers.2 (some true) }

/-- The loop that looks them up. -/
def anySpent (nullifiers : Bytes32 × Bytes32) (s : State) : Bool :=
  (s.nullifiers nullifiers.1).getD false || (s.nullifiers nullifiers.2).getD false

/-! ## Messages -/

/-- `new`. -/
def new (env : Env) (epochDuration : BitVec 32) : State where
  governance := env.caller
  leaves := fun _ => none
  nodes := fun _ => none
  nextLeafIndex := 0
  rootHistory := fun _ => none
  rootHistoryCursor := 0
  currentRoot := ZERO_VALUE
  nullifiers := fun _ => none
  currentEpoch := 0
  epochs := Function.update (fun _ => none) 0 (some ⟨0, ZERO_VALUE, false, 0⟩)
  epochDuration := epochDuration
  epochStartBlock := env.blockNumber
  remoteRoots := fun _ => none
  poolBalance := 0
  paused := false
  pendingCommits := fun _ => none

/-- `deposit`. -/
def deposit (env : Env) (commitment : Bytes32) (s : State) : Except Error State := do
  revertIf (s.paused = true) .poolPaused
  let value := env.transferredValue
  revertIf (value = 0) .zeroAmount
  revertIf ((s.leaves commitment).isSome = true) .duplicateCommitment
  checkCapacity build s
  let s ← insertLeaf keccak256 build commitment s
  let poolBalance ← build.add s.poolBalance value
  let s : State := { s with poolBalance := poolBalance }
  .ok (pushRoot s.currentRoot s)

/-- `transfer`. -/
def transfer (proof : Bytes) (merkleRoot : Bytes32)
    (nullifiers outputCommitments : Bytes32 × Bytes32) (s : State) : Except Error State := do
  revertIf (s.paused = true) .poolPaused
  revertIf (isKnownRoot s merkleRoot = false) .unknownRoot
  revertIf (anySpent nullifiers s = true) .nullifierAlreadySpent
  verifyProofStructure keccak256 proof nullifiers outputCommitments
  let s := markSpent nullifiers s
  let s ← insertOutput keccak256 build outputCommitments.1 s
  let s ← insertOutput keccak256 build outputCommitments.2 s
  .ok (pushRoot s.currentRoot s)

/-- `withdraw`. -/
def withdraw (env : Env) (proof : Bytes) (merkleRoot : Bytes32)
    (nullifiers outputCommitments : Bytes32 × Bytes32) (recipient : AccountId)
    (amount : Balance) (s : State) : Except Error (State × Payment) := do
  revertIf (s.paused = true) .poolPaused
  revertIf (isKnownRoot s merkleRoot = false) .unknownRoot
  revertIf (anySpent nullifiers s = true) .nullifierAlreadySpent
  -- neither the root nor the recipient nor the amount is verified with the proof
  verifyProofStructure keccak256 proof nullifiers outputCommitments
  revertIf (s.poolBalance < amount) .insufficientFunds
  let s := markSpent nullifiers s
  let s ← insertChange keccak256 build outputCommitments.1 s
  let s ← insertChange keccak256 build outputCommitments.2 s
  let s : State := { s with poolBalance := s.poolBalance - amount }
  let s := pushRoot s.currentRoot s
  revertIf (env.accepts = false) .insufficientFunds
  .ok (s, ⟨recipient, amount⟩)

/-- `finalize_epoch`. -/
def finalizeEpoch (env : Env) (s : State) : Except Error State := do
  revertIf (env.caller ≠ s.governance) .notGovernance
  let epochId := s.currentEpoch
  let epoch ← orRevert .unwrapNone (s.epochs epochId)
  revertIf (epoch.finalized = true) .epochAlreadyFinalized
  let epochs := Function.update s.epochs epochId
    (some ⟨epochId, s.currentRoot, true, env.blockNumber⟩)
  let nextEpoch ← build.add epochId 1
  .ok { s with
    currentEpoch := nextEpoch
    epochStartBlock := env.blockNumber
    epochs := Function.update epochs nextEpoch (some ⟨nextEpoch, ZERO_VALUE, false, 0⟩) }

/-- `sync_remote_root`. -/
def syncRemoteRoot (env : Env) (chainId epochId : BitVec 32) (root : Bytes32) (s : State) :
    Except Error State := do
  revertIf (env.caller ≠ s.governance) .notGovernance
  .ok { s with remoteRoots := Function.update s.remoteRoots (chainId, epochId) (some root) }

/-- `commit_deposit`. -/
def commitDeposit (env : Env) (commitHash : Bytes32) (s : State) : Except Error State := do
  revertIf (s.paused = true) .poolPaused
  revertIf ((s.pendingCommits commitHash).isSome = true) .duplicateCommit
  let value := env.transferredValue
  revertIf (value = 0) .zeroAmount
  let poolBalance ← build.add s.poolBalance value
  .ok { s with
    pendingCommits := Function.update s.pendingCommits commitHash
      (some ⟨env.caller, env.blockNumber, false⟩)
    poolBalance := poolBalance }

/-- `reveal_deposit`. Nothing relates `commitment` to `commitHash`. -/
def revealDeposit (env : Env) (commitHash commitment : Bytes32) (s : State) :
    Except Error State := do
  let record ← orRevert .commitNotFound (s.pendingCommits commitHash)
  revertIf (record.depositor ≠ env.caller) .notDepositor
  revertIf (record.revealed = true) .alreadyRevealed
  let elapsed := saturatingSub env.blockNumber record.blockNumber
  revertIf (elapsed < MIN_COMMIT_DELAY) .revealTooEarly
  revertIf (MAX_COMMIT_DELAY < elapsed) .commitExpired
  revertIf ((s.leaves commitment).isSome = true) .duplicateCommitment
  let s : State := { s with
    pendingCommits := Function.update s.pendingCommits commitHash
      (some ⟨record.depositor, record.blockNumber, true⟩) }
  checkCapacity build s
  let s ← insertLeaf keccak256 build commitment s
  .ok (pushRoot s.currentRoot s)

/-- `reclaim_expired_commit`. Nothing is paid. -/
def reclaimExpiredCommit (env : Env) (commitHash : Bytes32) (s : State) :
    Except Error State := do
  let record ← orRevert .commitNotFound (s.pendingCommits commitHash)
  revertIf (record.revealed = true) .alreadyRevealed
  let elapsed := saturatingSub env.blockNumber record.blockNumber
  revertIf (elapsed ≤ MAX_COMMIT_DELAY) .commitNotExpired
  .ok { s with
    pendingCommits := Function.update s.pendingCommits commitHash
      (some ⟨record.depositor, record.blockNumber, true⟩) }

/-- `pause` and `unpause`. -/
def setPaused (paused : Bool) (env : Env) (s : State) : Except Error State := do
  revertIf (env.caller ≠ s.governance) .notGovernance
  .ok { s with paused := paused }

/-- `pause`. -/
def pause : Env → State → Except Error State := setPaused true

/-- `unpause`. -/
def unpause : Env → State → Except Error State := setPaused false

/-- `transfer_governance`. -/
def transferGovernance (env : Env) (newGovernance : AccountId) (s : State) :
    Except Error State := do
  revertIf (env.caller ≠ s.governance) .notGovernance
  revertIf (newGovernance = 0) .zeroAddress
  .ok { s with governance := newGovernance }

/-! ## The machine -/

/-- The messages that change the state, with their arguments. -/
inductive Message where
  | deposit (commitment : Bytes32)
  | transfer (proof : Bytes) (merkleRoot : Bytes32)
      (nullifiers outputCommitments : Bytes32 × Bytes32)
  | withdraw (proof : Bytes) (merkleRoot : Bytes32)
      (nullifiers outputCommitments : Bytes32 × Bytes32) (recipient : AccountId)
      (amount : Balance)
  | finalizeEpoch
  | syncRemoteRoot (chainId epochId : BitVec 32) (root : Bytes32)
  | commitDeposit (commitHash : Bytes32)
  | revealDeposit (commitHash commitment : Bytes32)
  | reclaimExpiredCommit (commitHash : Bytes32)
  | pause
  | unpause
  | transferGovernance (newGovernance : AccountId)
  deriving DecidableEq

/-- Whether a value may be sent with a message, `#[ink(message, payable)]`. -/
def Message.payable : Message → Bool
  | .deposit _ => true
  | .commitDeposit _ => true
  | _ => false

/-- What a message does, once its value is accepted. -/
def run (env : Env) (message : Message) (s : State) : Except Error (State × List Payment) :=
  match message with
  | .deposit commitment => (deposit keccak256 build env commitment s).map (·, [])
  | .transfer proof merkleRoot nullifiers outputCommitments =>
    (transfer keccak256 build proof merkleRoot nullifiers outputCommitments s).map (·, [])
  | .withdraw proof merkleRoot nullifiers outputCommitments recipient amount =>
    (withdraw keccak256 build env proof merkleRoot nullifiers outputCommitments recipient
      amount s).map (fun r => (r.1, [r.2]))
  | .finalizeEpoch => (finalizeEpoch build env s).map (·, [])
  | .syncRemoteRoot chainId epochId root => (syncRemoteRoot env chainId epochId root s).map (·, [])
  | .commitDeposit commitHash => (commitDeposit build env commitHash s).map (·, [])
  | .revealDeposit commitHash commitment =>
    (revealDeposit keccak256 build env commitHash commitment s).map (·, [])
  | .reclaimExpiredCommit commitHash => (reclaimExpiredCommit env commitHash s).map (·, [])
  | .pause => (pause env s).map (·, [])
  | .unpause => (unpause env s).map (·, [])
  | .transferGovernance newGovernance => (transferGovernance env newGovernance s).map (·, [])

/-- A message, with what the host tells about it. -/
structure Call where
  env : Env
  message : Message

/-- **A call of the contract.** -/
def exec (c : Call) (s : State) : Except Error (State × List Payment) := do
  revertIf (c.message.payable = false ∧ c.env.transferredValue ≠ 0) .paidUnpayableMessage
  run keccak256 build c.env c.message s

/-- A step of the machine. -/
def step (c : Call) (s : State) : Except Error State := (exec keccak256 build c s).map Prod.fst

/-- **The runs of the contract from its constructor.** -/
def RunFrom (tr : List (State × Call)) (s : State) : Prop :=
  ∃ env epochDuration, Run (step keccak256 build) (fun _ _ => True) (new env epochDuration) tr s

/-- **The states the contract gets into.** -/
def Reachable (s : State) : Prop := ∃ tr, RunFrom keccak256 build tr s

end InkPool
