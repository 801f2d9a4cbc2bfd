import SoulPrivacy.CallStack
import SoulPrivacy.MerkleTree

/-!
# The privacy pool (`PrivacyPool.sol`, `EmergencyPause.sol`)

The storage of the pool, its entry points, and the machine they make of
it. An entry point is a function of the message, its arguments and the
world; it reverts with the contract's error, or gives the new world and
the events it emitted. `withdraw` and `reclaimExpiredCommit` send ether
and with it hand over control, so each comes in two parts
(`CallStack.Contract`).

The contracts the pool talks to – the verifier, the epoch manager, the
compliance oracle – are a parameter (`Interfaces`), with a state of their
own that only they read. They may revert and they may answer anything;
they do not call the pool. So are the two hash functions.

Each entry point has one spec lemma, which says all a successful call
did: the guards that did not fire and the world it left.
-/

namespace PrivacyPool

/-- A `bytes32[2]` argument. -/
abbrev Pair := Bytes32 × Bytes32

/-- `CommitRecord`. -/
structure CommitRecord where
  depositor : Address
  value : Uint256
  blockNumber : ℕ
  revealed : Bool
  deriving DecidableEq

/-- What `delete` leaves, and what a mapping reads before any write. -/
def CommitRecord.deleted : CommitRecord := ⟨0, 0, 0, false⟩

/-- `MIN_COMMIT_DELAY`, in blocks. -/
def MIN_COMMIT_DELAY : ℕ := 2

/-- `MAX_COMMIT_DELAY`, in blocks. -/
def MAX_COMMIT_DELAY : ℕ := 100

/-- `MAX_PAUSE_DURATION`, seven days in seconds. -/
def MAX_PAUSE_DURATION : ℕ := 7 * 24 * 60 * 60

/-- `_NOT_ENTERED` and `_ENTERED`, the two values of the reentrancy
guard's `_status`. -/
inductive Status where
  | notEntered
  | entered
  deriving DecidableEq

/-- The storage of `EmergencyPause`. -/
structure EmergencyPause where
  paused : Bool
  guardian : Address
  lastPauseTime : ℕ
  pauseCount : ℕ

/-- **The storage of the pool**, with its two immutables. -/
structure Storage extends EmergencyPause where
  tree : MerkleTree.TreeData
  epochManager : Address
  domainChainId : Uint256
  domainAppId : Uint256
  nullifierSpent : Bytes32 → Bool
  commitmentExists : Bytes32 → Bool
  poolBalance : Uint256
  governance : Address
  complianceOracle : Address
  fixedDenominationsEnabled : Bool
  allowedDenomination : Uint256 → Bool
  denominationTiers : List Uint256
  pendingCommits : Bytes32 → CommitRecord
  status : Status

/-- The errors of the pool and of what it inherits and calls. -/
inductive Error where
  | invalidDeposit
  | invalidProof
  | nullifierAlreadySpent (nullifier : Bytes32)
  | unknownMerkleRoot
  | insufficientPoolBalance
  | invalidWithdrawAmount
  | commitmentAlreadyExists
  | unauthorized
  | transferFailed
  | complianceCheckFailed
  | duplicateCommit
  | notDepositor
  | alreadyRevealed
  | revealTooEarly
  | commitExpired
  | commitNotExpired
  | invalidDenomination
  | domainMismatch
  | invalidOutputCommitment
  | contractPaused
  | contractNotPaused
  | notGuardianOrGovernance
  | notGovernance
  /-- `"ReentrancyGuard: reentrant call"`. -/
  | reentrantCall
  /-- A revert of the tree library. -/
  | tree (e : MerkleTree.Error)
  /-- An arithmetic panic. -/
  | panic
  /-- A contract the pool called reverted. -/
  | external
  /-- Ether sent to an entry point that is not payable. -/
  | nonPayable
  deriving DecidableEq

/-- The events of the pool. -/
inductive Event where
  | deposit (commitment : Bytes32) (leafIndex : ℕ) (amount : Uint256) (timestamp : ℕ)
  | transfer (nullifiers outputCommitments : Pair) (newRoot : Bytes32)
  | withdrawal (nullifiers : Pair) (recipient : Address) (amount : Uint256)
      (newRoot : Bytes32)
  | depositCommitted (commitHash : Bytes32) (depositor : Address) (value : Uint256)
  | depositRevealed (commitment : Bytes32) (value : Uint256)
  | commitReclaimed (commitHash : Bytes32) (depositor : Address) (value : Uint256)
  | paused (account : Address) (reason : String)
  | unpaused (account : Address)
  | guardianUpdated (oldGuardian newGuardian : Address)
  deriving DecidableEq

/-- `msg.sender` and `msg.value`. No call comes from the zero address. -/
structure Msg where
  sender : Address
  value : Uint256
  sender_ne_zero : sender ≠ 0

/-- `block.number` and `block.timestamp`. -/
structure Block where
  number : ℕ
  timestamp : ℕ

/-- **The world the pool runs in**: the block, the ether the pool holds,
its storage, and the state of all other contracts. -/
structure World (X : Type) where
  block : Block
  balance : ℕ
  pool : Storage
  others : X

/-- **What the pool calls and does not contain**: the other contracts,
each free to revert (`none`), and the two hash functions. `moves` is what
the other contracts may do on their own. -/
structure Interfaces (X : Type) where
  verifyTransferProof : X → Bytes → List Uint256 → Option Bool
  verifyWithdrawProof : X → Bytes → List Uint256 → Option Bool
  registerNullifier : Address → X → Bytes32 → Option X
  checkCompliance : Address → X → Pair → Pair → Bytes → Option Bool
  isBlocked : Address → X → Address → Option Bool
  keccak256 : Bytes → Bytes32
  hash : Uint256 → Uint256 → Uint256
  moves : X → X → Prop

/-- The pool after its constructor. -/
def construct (hash : Uint256 → Uint256 → Uint256)
    (sender epochManager : Address) (domainChainId domainAppId : Uint256)
    (guardian complianceOracle : Address) : Storage where
  paused := false
  guardian := guardian
  lastPauseTime := 0
  pauseCount := 0
  tree := MerkleTree.fresh hash
  epochManager := epochManager
  domainChainId := domainChainId
  domainAppId := domainAppId
  nullifierSpent := fun _ => false
  commitmentExists := fun _ => false
  poolBalance := 0
  governance := sender
  complianceOracle := complianceOracle
  fixedDenominationsEnabled := false
  allowedDenomination := fun _ => false
  denominationTiers := []
  pendingCommits := fun _ => CommitRecord.deleted
  status := .notEntered

variable {X : Type} (E : Interfaces X)

/-- The same world with another pool storage. -/
def World.withPool (w : World X) (pool : Storage) : World X := { w with pool := pool }

@[simp] theorem World.pool_withPool (w : World X) (pool : Storage) :
    (w.withPool pool).pool = pool := rfl

/-! ## Shared parts of the entry points -/

/-- `whenNotPaused`. -/
def whenNotPaused (pool : Storage) : Except Error Unit :=
  revertIf (pool.paused = true) .contractPaused

/-- `onlyGovernance`. -/
def onlyGovernance (msg : Msg) (pool : Storage) : Except Error Unit :=
  revertIf (msg.sender ≠ pool.governance) .unauthorized

/-- The check of `nonReentrant`; the body then runs with the guard set. -/
def nonReentrant (pool : Storage) : Except Error Unit :=
  revertIf (pool.status = .entered) .reentrantCall

/-- `_checkDenomination`. -/
def checkDenomination (pool : Storage) (amount : Uint256) : Except Error Unit :=
  revertIf (pool.fixedDenominationsEnabled = true ∧ pool.allowedDenomination amount = false)
    .invalidDenomination

/-- `_validateOutputCommitments`. -/
def validateOutputCommitments (outputs : Pair) : Except Error Unit := do
  revertIf (outputs.1 = 0 ∨ outputs.2 = 0) .invalidOutputCommitment
  revertIf (outputs.1 = outputs.2) .invalidOutputCommitment

/-- `_checkCompliance`. -/
def checkCompliance (w : World X) (nullifiers outputs : Pair) (proof : Bytes) :
    Except Error Unit :=
  if w.pool.complianceOracle = 0 then .ok ()
  else do
    let compliant ← orRevert .external
      (E.checkCompliance w.pool.complianceOracle w.others nullifiers outputs proof)
    revertIf (compliant = false) .complianceCheckFailed

/-- The check of the recipient in `withdraw`. -/
def checkRecipient (w : World X) (recipient : Address) : Except Error Unit :=
  if w.pool.complianceOracle = 0 then .ok ()
  else do
    let blocked ← orRevert .external
      (E.isBlocked w.pool.complianceOracle w.others recipient)
    revertIf (blocked = true) .complianceCheckFailed

/-- The report of a nullifier to the epoch manager, if there is one. -/
def reportNullifier (nullifier : Bytes32) (w : World X) : Except Error X :=
  if w.pool.epochManager = 0 then .ok w.others
  else orRevert .external (E.registerNullifier w.pool.epochManager w.others nullifier)

/-- The body of the loop of `_checkAndSpendNullifiers`. -/
def spendNullifier (nullifier : Bytes32) (w : World X) : Except Error (World X) := do
  revertIf (w.pool.nullifierSpent nullifier = true) (.nullifierAlreadySpent nullifier)
  let pool := { w.pool with
    nullifierSpent := Function.update w.pool.nullifierSpent nullifier true }
  let others ← reportNullifier E nullifier (w.withPool pool)
  .ok { w with pool := pool, others := others }

/-- `_checkAndSpendNullifiers`. -/
def checkAndSpendNullifiers (nullifiers : Pair) (w : World X) :
    Except Error (World X) := do
  let w ← spendNullifier E nullifiers.1 w
  spendNullifier E nullifiers.2 w

/-- `_tree.insert`. -/
def insertLeaf (tree : MerkleTree.TreeData) (leaf : Uint256) :
    Except Error (MerkleTree.TreeData × ℕ × Uint256) :=
  (MerkleTree.insert E.hash tree leaf).mapError .tree

/-- `_buildTransferPublicInputs`. -/
def buildTransferPublicInputs (merkleRoot : Bytes32) (nullifiers outputs : Pair)
    (chainId appId : Uint256) : List Uint256 :=
  [merkleRoot, nullifiers.1, nullifiers.2, outputs.1, outputs.2, chainId, appId]

/-- `_buildWithdrawPublicInputs`. -/
def buildWithdrawPublicInputs (merkleRoot : Bytes32) (nullifiers outputs : Pair)
    (exitValue : Uint256) (recipient : Address) : List Uint256 :=
  [merkleRoot, nullifiers.1, nullifiers.2, outputs.1, outputs.2, exitValue,
    recipient.setWidth 256]

/-- `keccak256(abi.encodePacked(commitment, salt))`. -/
def commitHashOf (commitment salt : Bytes32) : Bytes32 :=
  E.keccak256 (Bytes32.toBytes commitment ++ Bytes32.toBytes salt)

/-! ## Commit and reveal -/

/-- `commitDeposit`. -/
def commitDeposit (msg : Msg) (commitHash : Bytes32) (w : World X) :
    Except Error (World X × List Event) := do
  whenNotPaused w.pool
  revertIf (msg.value = 0) .invalidDeposit
  checkDenomination w.pool msg.value
  revertIf ((w.pool.pendingCommits commitHash).depositor ≠ 0) .duplicateCommit
  let record : CommitRecord := ⟨msg.sender, msg.value, w.block.number, false⟩
  .ok (w.withPool { w.pool with
      pendingCommits := Function.update w.pool.pendingCommits commitHash record },
    [.depositCommitted commitHash msg.sender msg.value])

/-- `revealDeposit`. -/
def revealDeposit (msg : Msg) (commitment salt : Bytes32) (w : World X) :
    Except Error (World X × List Event) := do
  whenNotPaused w.pool
  let commitHash := commitHashOf E commitment salt
  let record := w.pool.pendingCommits commitHash
  revertIf (record.depositor ≠ msg.sender) .notDepositor
  revertIf (record.revealed = true) .alreadyRevealed
  revertIf (w.block.number < record.blockNumber + MIN_COMMIT_DELAY) .revealTooEarly
  revertIf (w.block.number > record.blockNumber + MAX_COMMIT_DELAY) .commitExpired
  revertIf (w.pool.commitmentExists commitment = true) .commitmentAlreadyExists
  let ins ← insertLeaf E w.pool.tree commitment
  let poolBalance ← checkedAdd .panic w.pool.poolBalance record.value
  .ok (w.withPool { w.pool with
      pendingCommits := Function.update w.pool.pendingCommits commitHash
        { record with revealed := true }
      commitmentExists := Function.update w.pool.commitmentExists commitment true
      tree := ins.1
      poolBalance := poolBalance },
    [.depositRevealed commitment record.value,
      .deposit commitment ins.2.1 record.value w.block.timestamp])

/-! ## Deposit -/

/-- `deposit`. -/
def deposit (msg : Msg) (commitment : Bytes32) (amount : Uint256) (w : World X) :
    Except Error (World X × List Event) := do
  whenNotPaused w.pool
  revertIf (amount = 0 ∨ msg.value ≠ amount) .invalidDeposit
  revertIf (w.pool.commitmentExists commitment = true) .commitmentAlreadyExists
  checkDenomination w.pool amount
  let ins ← insertLeaf E w.pool.tree commitment
  let poolBalance ← checkedAdd .panic w.pool.poolBalance amount
  .ok (w.withPool { w.pool with
      commitmentExists := Function.update w.pool.commitmentExists commitment true
      tree := ins.1
      poolBalance := poolBalance },
    [.deposit commitment ins.2.1 amount w.block.timestamp])

/-! ## Transfer -/

/-- `transfer`. -/
def transfer (proof : Bytes) (merkleRoot : Bytes32) (nullifiers outputs : Pair)
    (domainChainId domainAppId : Uint256) (w : World X) :
    Except Error (World X × List Event) := do
  whenNotPaused w.pool
  revertIf (domainChainId ≠ w.pool.domainChainId ∨ domainAppId ≠ w.pool.domainAppId)
    .domainMismatch
  revertIf (MerkleTree.isKnownRoot w.pool.tree merkleRoot = false) .unknownMerkleRoot
  validateOutputCommitments outputs
  checkCompliance E w nullifiers outputs proof
  let w ← checkAndSpendNullifiers E nullifiers w
  let publicInputs :=
    buildTransferPublicInputs merkleRoot nullifiers outputs domainChainId domainAppId
  let valid ← orRevert .external (E.verifyTransferProof w.others proof publicInputs)
  revertIf (valid = false) .invalidProof
  let ins1 ← insertLeaf E w.pool.tree outputs.1
  let ins2 ← insertLeaf E ins1.1 outputs.2
  .ok (w.withPool { w.pool with tree := ins2.1 },
    [.transfer nullifiers outputs ins2.2.2])

/-! ## Withdraw and reclaim -/

/-- What an entry point still has to do after it handed over control. -/
inductive Cont where
  | withdraw (nullifiers : Pair) (recipient : Address) (exitValue : Uint256)
      (newRoot : Bytes32)
  | reclaim (payee : Address) (refundValue : Uint256)

/-- The ether sent with a handover. -/
def Cont.value : Cont → Uint256
  | .withdraw _ _ exitValue _ => exitValue
  | .reclaim _ refundValue => refundValue

/-- `withdraw` up to the payout. -/
def withdraw (proof : Bytes) (merkleRoot : Bytes32) (nullifiers outputs : Pair)
    (recipient : Address) (exitValue : Uint256) (w : World X) :
    Except Error (World X × Cont) := do
  whenNotPaused w.pool
  nonReentrant w.pool
  let w := w.withPool { w.pool with status := .entered }
  revertIf (exitValue = 0) .invalidWithdrawAmount
  revertIf (w.pool.poolBalance.toNat < exitValue.toNat) .insufficientPoolBalance
  revertIf (MerkleTree.isKnownRoot w.pool.tree merkleRoot = false) .unknownMerkleRoot
  validateOutputCommitments outputs
  checkCompliance E w nullifiers outputs proof
  checkRecipient E w recipient
  let w ← checkAndSpendNullifiers E nullifiers w
  let publicInputs :=
    buildWithdrawPublicInputs merkleRoot nullifiers outputs exitValue recipient
  let valid ← orRevert .external (E.verifyWithdrawProof w.others proof publicInputs)
  revertIf (valid = false) .invalidProof
  let ins1 ← insertLeaf E w.pool.tree outputs.1
  let ins2 ← insertLeaf E ins1.1 outputs.2
  let poolBalance ← checkedSub .panic w.pool.poolBalance exitValue
  .ok (w.withPool { w.pool with tree := ins2.1, poolBalance := poolBalance },
    .withdraw nullifiers recipient exitValue ins2.2.2)

/-- `reclaimExpiredCommit` up to the refund. -/
def reclaimExpiredCommit (msg : Msg) (commitHash : Bytes32) (w : World X) :
    Except Error (World X × List Event × Cont) := do
  nonReentrant w.pool
  let w := w.withPool { w.pool with status := .entered }
  let record := w.pool.pendingCommits commitHash
  revertIf (record.depositor ≠ msg.sender) .notDepositor
  revertIf (record.revealed = true) .alreadyRevealed
  revertIf (w.block.number ≤ record.blockNumber + MAX_COMMIT_DELAY) .commitNotExpired
  .ok (w.withPool { w.pool with
      pendingCommits :=
        Function.update w.pool.pendingCommits commitHash CommitRecord.deleted },
    [.commitReclaimed commitHash msg.sender record.value],
    .reclaim msg.sender record.value)

/-- The payout: the value leaves if the balance covers it. -/
def send (k : Cont) (w : World X) : Option (World X) :=
  if k.value.toNat ≤ w.balance then some { w with balance := w.balance - k.value.toNat }
  else none

/-- The rest of `withdraw` and of `reclaimExpiredCommit`. -/
def resume (k : Cont) (success : Bool) (w : World X) :
    Except Error (World X × List Event) := do
  revertIf (success = false) .transferFailed
  let w := w.withPool { w.pool with status := .notEntered }
  match k with
  | .withdraw nullifiers recipient exitValue newRoot =>
    .ok (w, [.withdrawal nullifiers recipient exitValue newRoot])
  | .reclaim _ _ => .ok (w, [])

/-! ## Governance and the emergency pause -/

/-- `setEpochManager`. -/
def setEpochManager (msg : Msg) (epochManager : Address) (pool : Storage) :
    Except Error Storage := do
  onlyGovernance msg pool
  .ok { pool with epochManager := epochManager }

/-- `setGovernance`. -/
def setGovernance (msg : Msg) (governance : Address) (pool : Storage) :
    Except Error Storage := do
  onlyGovernance msg pool
  .ok { pool with governance := governance }

/-- `setComplianceOracle`. -/
def setComplianceOracle (msg : Msg) (complianceOracle : Address) (pool : Storage) :
    Except Error Storage := do
  onlyGovernance msg pool
  .ok { pool with complianceOracle := complianceOracle }

/-- `enableFixedDenominations`: the old tiers are cleared, then the new
ones set. -/
def enableFixedDenominations (msg : Msg) (denominations : List Uint256)
    (pool : Storage) : Except Error Storage := do
  onlyGovernance msg pool
  let cleared := pool.denominationTiers.foldl
    (fun allowed d => Function.update allowed d false) pool.allowedDenomination
  let allowed := denominations.foldl
    (fun allowed d => Function.update allowed d true) cleared
  .ok { pool with
    allowedDenomination := allowed
    denominationTiers := denominations
    fixedDenominationsEnabled := true }

/-- `disableFixedDenominations`. -/
def disableFixedDenominations (msg : Msg) (pool : Storage) : Except Error Storage := do
  onlyGovernance msg pool
  .ok { pool with fixedDenominationsEnabled := false }

/-- `pause`. -/
def pause (msg : Msg) (reason : String) (block : Block) (pool : Storage) :
    Except Error (Storage × List Event) := do
  revertIf (msg.sender ≠ pool.guardian ∧ msg.sender ≠ pool.governance)
    .notGuardianOrGovernance
  revertIf (pool.paused = true) .contractPaused
  .ok ({ pool with
      paused := true
      lastPauseTime := block.timestamp
      pauseCount := pool.pauseCount + 1 },
    [.paused msg.sender reason])

/-- `unpause`: governance at any time, anyone once the pause has lasted
`MAX_PAUSE_DURATION`. -/
def unpause (msg : Msg) (block : Block) (pool : Storage) :
    Except Error (Storage × List Event) := do
  revertIf (pool.paused = false) .contractNotPaused
  revertIf (msg.sender ≠ pool.governance ∧
    block.timestamp < pool.lastPauseTime + MAX_PAUSE_DURATION) .notGovernance
  .ok ({ pool with paused := false }, [.unpaused msg.sender])

/-- `setGuardian`. -/
def setGuardian (msg : Msg) (newGuardian : Address) (pool : Storage) :
    Except Error (Storage × List Event) := do
  revertIf (msg.sender ≠ pool.governance) .notGovernance
  .ok ({ pool with guardian := newGuardian },
    [.guardianUpdated pool.guardian newGuardian])

/-! ## The machine -/

/-- The entry points, with their arguments. -/
inductive Entry where
  | commitDeposit (commitHash : Bytes32)
  | revealDeposit (commitment salt : Bytes32)
  | reclaimExpiredCommit (commitHash : Bytes32)
  | deposit (commitment : Bytes32) (amount : Uint256)
  | transfer (proof : Bytes) (merkleRoot : Bytes32) (nullifiers outputs : Pair)
      (domainChainId domainAppId : Uint256)
  | withdraw (proof : Bytes) (merkleRoot : Bytes32) (nullifiers outputs : Pair)
      (recipient : Address) (exitValue : Uint256)
  | setEpochManager (epochManager : Address)
  | setGovernance (governance : Address)
  | setComplianceOracle (complianceOracle : Address)
  | enableFixedDenominations (denominations : List Uint256)
  | disableFixedDenominations
  | pause (reason : String)
  | unpause
  | setGuardian (newGuardian : Address)

/-- A call of the pool. -/
structure Call where
  msg : Msg
  entry : Entry

/-- The entry points that take ether. -/
def Entry.payable : Entry → Bool
  | .commitDeposit _ => true
  | .deposit _ _ => true
  | _ => false

/-- The value of a call reaches the pool before its code runs. -/
def credit (msg : Msg) (w : World X) : World X :=
  { w with balance := w.balance + msg.value.toNat }

/-- An entry point that only writes the pool's storage. -/
def onStorage (w : World X) (r : Except Error Storage) :
    Except Error (World X × List Event × Option Cont) := do
  let pool ← r
  .ok (w.withPool pool, [], none)

/-- … and one that emits events as well. -/
def onStorageEmit (w : World X) (r : Except Error (Storage × List Event)) :
    Except Error (World X × List Event × Option Cont) := do
  let p ← r
  .ok (w.withPool p.1, p.2, none)

/-- An entry point without a handover. -/
def toEnd (r : Except Error (World X × List Event)) :
    Except Error (World X × List Event × Option Cont) := do
  let p ← r
  .ok (p.1, p.2, none)

/-- The body of an entry point, up to its handover if it has one. -/
def body (msg : Msg) (entry : Entry) (w : World X) :
    Except Error (World X × List Event × Option Cont) :=
  match entry with
  | .commitDeposit commitHash => toEnd (commitDeposit msg commitHash w)
  | .revealDeposit commitment salt => toEnd (revealDeposit E msg commitment salt w)
  | .reclaimExpiredCommit commitHash => do
    let p ← reclaimExpiredCommit msg commitHash w
    .ok (p.1, p.2.1, some p.2.2)
  | .deposit commitment amount => toEnd (deposit E msg commitment amount w)
  | .transfer proof merkleRoot nullifiers outputs domainChainId domainAppId =>
    toEnd (transfer E proof merkleRoot nullifiers outputs domainChainId domainAppId w)
  | .withdraw proof merkleRoot nullifiers outputs recipient exitValue => do
    let p ← withdraw E proof merkleRoot nullifiers outputs recipient exitValue w
    .ok (p.1, [], some p.2)
  | .setEpochManager a => onStorage w (setEpochManager msg a w.pool)
  | .setGovernance a => onStorage w (setGovernance msg a w.pool)
  | .setComplianceOracle a => onStorage w (setComplianceOracle msg a w.pool)
  | .enableFixedDenominations ds => onStorage w (enableFixedDenominations msg ds w.pool)
  | .disableFixedDenominations => onStorage w (disableFixedDenominations msg w.pool)
  | .pause reason => onStorageEmit w (pause msg reason w.block w.pool)
  | .unpause => onStorageEmit w (unpause msg w.block w.pool)
  | .setGuardian a => onStorageEmit w (setGuardian msg a w.pool)

/-- A call: the value is credited, unless the entry point does not take
any, and the body runs. -/
def enter (c : Call) (w : World X) :
    Except Error (World X × List Event × Option Cont) := do
  revertIf (c.entry.payable = false ∧ c.msg.value ≠ 0) .nonPayable
  body E c.msg c.entry (credit c.msg w)

/-- What other accounts may do to the world at any time: move the other
contracts, and force ether on the pool. -/
def Outside (w w' : World X) : Prop :=
  (w.others = w'.others ∨ E.moves w.others w'.others) ∧ w.balance ≤ w'.balance
    ∧ w'.pool = w.pool ∧ w'.block = w.block

/-- Between transactions the block moves on. -/
def Tick (w w' : World X) : Prop :=
  w.block.number ≤ w'.block.number ∧ w.block.timestamp ≤ w'.block.timestamp
    ∧ w'.pool = w.pool ∧ w'.balance = w.balance ∧ w'.others = w.others

/-- **The pool as a machine.** -/
def machine : CallStack.Contract (World X) Call Cont Event Error where
  enter := enter E
  send := send
  resume := resume
  outside := Outside E
  tick := Tick

/-- A world in which the pool has just been deployed. -/
def Deployed (w : World X) : Prop :=
  ∃ sender epochManager domainChainId domainAppId guardian complianceOracle,
    w.pool = construct E.hash sender epochManager domainChainId domainAppId guardian
      complianceOracle

end PrivacyPool
