import SoulPrivacy.HexProof
import SoulPrivacy.LinearRoots
import SoulPrivacy.Run

/-!
# The NEAR pool (`near/contracts/privacy-pool/src/lib.rs`)

A pool that holds its words as texts and hashes texts of any length, with the
one hash function of the host (`keccak256`, a parameter). A method either
panics – and then leaves everything as it was – or gives the new state and the
transfers it asks for, which are made later.

The maps of the contract have prefixes that keep their entries apart, so each is
a mapping of its own here.
-/

namespace NearPool

open HexProof (verifyProofBinding)
open RustString (asBytes)

/-- `TREE_DEPTH`. -/
def TREE_DEPTH : ℕ := 32

/-- `ROOT_HISTORY_SIZE`. -/
def ROOT_HISTORY_SIZE : ℕ := 100

/-- `MAX_NULLIFIERS_PER_EPOCH`. -/
def MAX_NULLIFIERS_PER_EPOCH : ℕ := 10000

/-- `EpochInfo`. -/
structure EpochInfo where
  startBlock : ℕ
  endBlock : Option ℕ
  nullifierRoot : String
  nullifierCount : BitVec 32
  finalized : Bool
  deriving DecidableEq

/-- **The contract**, `PrivacyPool`. Of the maps to `true` the keys are kept. -/
structure State (AccountId : Type) where
  nextLeafIndex : ℕ
  filledSubtrees : ℕ → Option String
  roots : ℕ → Option String
  currentRootIndex : ℕ
  nullifierSpent : String → Bool
  commitmentExists : String → Bool
  poolBalance : BitVec 128
  currentEpochId : ℕ
  epochs : ℕ → Option EpochInfo
  epochNullifiers : ℕ → Option (List String)
  remoteEpochRoots : String → Option String
  governance : AccountId
  authorizedRelayer : Option AccountId
  domainChainId : BitVec 32
  domainAppId : BitVec 32

/-- The panics, by their messages. -/
inductive Error where
  /-- A method that is not `#[payable]` was sent a deposit. -/
  | doesNotAcceptDeposit
  | depositMustBeNonZero
  | commitmentAlreadyExists
  | exactlyTwoNullifiersRequired
  | exactlyTwoOutputsRequired
  | withdrawalMustBeNonZero
  | insufficientPoolBalance
  | unknownMerkleRoot
  | nullifierAlreadySpent (nullifier : String)
  | epochNullifierOverflow
  | invalidProof
  | merkleTreeIsFull
  | onlyGovernanceCanSetRelayer
  | onlyGovernanceCanFinalize
  | epochNotFound
  | epochAlreadyFinalized
  | onlyAuthorizedCanSync
  | nullifierRootEmpty
  /-- An index outside of a list. -/
  | outOfBounds
  /-- A sum of fixed width. -/
  | overflow
  deriving DecidableEq

/-- What the host tells about a call. -/
structure Context (AccountId : Type) where
  predecessor : AccountId
  attachedDeposit : BitVec 128
  blockHeight : ℕ

/-- `Promise::new(_).transfer(_)`. -/
structure Promise (AccountId : Type) where
  receiver : AccountId
  amount : BitVec 128
  deriving DecidableEq

variable (keccak256 : Bytes → Bytes32)

/-! ## Hashes -/

/-- `poseidon_hash_hex`. -/
def poseidonHashHex (left right : String) : String :=
  Bytes32.toHex (keccak256 (asBytes "Poseidon" ++ asBytes left ++ asBytes right))

/-- `zero_hash`. -/
def zeroHash : ℕ → String
  | 0 => ZERO_HASH
  | level + 1 => poseidonHashHex keccak256 (zeroHash level) (zeroHash level)

/-! ## The tree -/

/-- What the loop of `insert_leaf` carries from level to level. -/
structure Climb where
  currentIndex : ℕ
  currentHash : String
  filledSubtrees : ℕ → Option String

/-- The body of the loop of `insert_leaf`. -/
def insertStep (st : Climb) (level : ℕ) : Climb :=
  if st.currentIndex % 2 = 0 then
    { currentIndex := st.currentIndex / 2
      currentHash := poseidonHashHex keccak256 st.currentHash (zeroHash keccak256 level)
      filledSubtrees := Function.update st.filledSubtrees level (some st.currentHash) }
  else
    { currentIndex := st.currentIndex / 2
      currentHash := poseidonHashHex keccak256 ((st.filledSubtrees level).getD ZERO_HASH)
        st.currentHash
      filledSubtrees := st.filledSubtrees }

variable {AccountId : Type}

/-- What `insert_leaf` writes. -/
def inserted (leafHex : String) (s : State AccountId) : State AccountId :=
  let st := (List.range TREE_DEPTH).foldl (insertStep keccak256)
    ⟨s.nextLeafIndex, leafHex, s.filledSubtrees⟩
  let newRootIdx := (s.currentRootIndex + 1) % ROOT_HISTORY_SIZE
  { s with
    filledSubtrees := st.filledSubtrees
    roots := Function.update s.roots newRootIdx (some st.currentHash)
    currentRootIndex := newRootIdx
    nextLeafIndex := s.nextLeafIndex + 1 }

/-- `insert_leaf`. -/
def insertLeaf (leafHex : String) (s : State AccountId) :
    Except Error (ℕ × State AccountId) := do
  revertIf (2 ^ TREE_DEPTH ≤ s.nextLeafIndex) .merkleTreeIsFull
  .ok (s.nextLeafIndex, inserted keccak256 leafHex s)

/-- The loop of `is_known_root`. -/
def searchRoots (roots : ℕ → Option String) (root : String) : ℕ → ℕ → Bool
  | 0, _ => false
  | n + 1, idx =>
    if roots idx = some root then true
    else searchRoots roots root n (if idx = 0 then ROOT_HISTORY_SIZE - 1 else idx - 1)

/-- `is_known_root`. -/
def isKnownRoot (s : State AccountId) (root : String) : Bool :=
  if root = ZERO_HASH then false
  else searchRoots s.roots root ROOT_HISTORY_SIZE s.currentRootIndex

/-- `get_latest_root`. -/
def getLatestRoot (s : State AccountId) : String :=
  (s.roots s.currentRootIndex).getD ZERO_HASH

/-- The body of the loop of `check_and_spend_nullifiers`. -/
def spendStep (st : (String → Bool) × List String) (nullifier : String) :
    Except Error ((String → Bool) × List String) := do
  revertIf (st.1 nullifier = true) (.nullifierAlreadySpent nullifier)
  revertIf (MAX_NULLIFIERS_PER_EPOCH ≤ st.2.length) .epochNullifierOverflow
  .ok (Function.update st.1 nullifier true, st.2 ++ [nullifier])

/-- `check_and_spend_nullifiers`. -/
def checkAndSpendNullifiers (nullifiers : List String) (s : State AccountId) :
    Except Error (State AccountId) := do
  let epochNuls := (s.epochNullifiers s.currentEpochId).getD []
  let st ← nullifiers.foldlM spendStep (s.nullifierSpent, epochNuls)
  .ok { s with
    nullifierSpent := st.1
    epochNullifiers := Function.update s.epochNullifiers s.currentEpochId (some st.2) }

/-! ## Methods -/

/-- The body of the loop of `new`. -/
def newStep (st : (ℕ → Option String) × String) (level : ℕ) : (ℕ → Option String) × String :=
  (Function.update st.1 level (some st.2), poseidonHashHex keccak256 st.2 st.2)

/-- `new`. -/
def new (governance : AccountId) (domainChainId domainAppId : BitVec 32) (blockHeight : ℕ) :
    State AccountId :=
  let st := (List.range TREE_DEPTH).foldl (newStep keccak256) (fun _ => none, ZERO_HASH)
  { nextLeafIndex := 0
    filledSubtrees := st.1
    roots := Function.update (fun _ => none) 0 (some st.2)
    currentRootIndex := 0
    nullifierSpent := fun _ => false
    commitmentExists := fun _ => false
    poolBalance := 0
    currentEpochId := 0
    epochs := Function.update (fun _ => none) 0 (some ⟨blockHeight, none, ZERO_HASH, 0, false⟩)
    epochNullifiers := Function.update (fun _ => none) 0 (some [])
    remoteEpochRoots := fun _ => none
    governance := governance
    authorizedRelayer := none
    domainChainId := domainChainId
    domainAppId := domainAppId }

/-- `deposit`. -/
def deposit (ctx : Context AccountId) (commitment : String) (s : State AccountId) :
    Except Error (State AccountId) := do
  let amount := ctx.attachedDeposit
  revertIf (amount = 0) .depositMustBeNonZero
  revertIf (s.commitmentExists commitment = true) .commitmentAlreadyExists
  let s : State AccountId := { s with
    commitmentExists := Function.update s.commitmentExists commitment true }
  let (_, s) ← insertLeaf keccak256 commitment s
  revertIf (2 ^ 128 ≤ s.poolBalance.toNat + amount.toNat) .overflow
  .ok { s with poolBalance := s.poolBalance + amount }

/-- What `transfer` and `withdraw` both do. -/
def spend (proof merkleRoot : String) (nullifiers outputCommitments : List String)
    (s : State AccountId) : Except Error (State AccountId) := do
  revertIf (isKnownRoot s merkleRoot = false) .unknownMerkleRoot
  let s ← checkAndSpendNullifiers nullifiers s
  revertIf (verifyProofBinding keccak256 proof merkleRoot nullifiers outputCommitments = false)
    .invalidProof
  let output₁ ← orRevert .outOfBounds outputCommitments[0]?
  let (_, s) ← insertLeaf keccak256 output₁ s
  let output₂ ← orRevert .outOfBounds outputCommitments[1]?
  let (_, s) ← insertLeaf keccak256 output₂ s
  .ok s

/-- `transfer`. -/
def transfer (proof merkleRoot : String) (nullifiers outputCommitments : List String)
    (s : State AccountId) : Except Error (State AccountId) := do
  revertIf (nullifiers.length ≠ 2) .exactlyTwoNullifiersRequired
  revertIf (outputCommitments.length ≠ 2) .exactlyTwoOutputsRequired
  spend keccak256 proof merkleRoot nullifiers outputCommitments s

/-- `withdraw`. -/
def withdraw (proof merkleRoot : String) (nullifiers outputCommitments : List String)
    (recipient : AccountId) (exitValue : BitVec 128) (s : State AccountId) :
    Except Error (State AccountId × Promise AccountId) := do
  revertIf (nullifiers.length ≠ 2) .exactlyTwoNullifiersRequired
  revertIf (outputCommitments.length ≠ 2) .exactlyTwoOutputsRequired
  revertIf (exitValue = 0) .withdrawalMustBeNonZero
  revertIf (s.poolBalance < exitValue) .insufficientPoolBalance
  -- neither the recipient nor the amount is verified with the proof
  let s ← spend keccak256 proof merkleRoot nullifiers outputCommitments s
  .ok ({ s with poolBalance := s.poolBalance - exitValue }, ⟨recipient, exitValue⟩)

variable [DecidableEq AccountId]

/-- `set_authorized_relayer`. -/
def setAuthorizedRelayer (ctx : Context AccountId) (relayer : Option AccountId)
    (s : State AccountId) : Except Error (State AccountId) := do
  revertIf (ctx.predecessor ≠ s.governance) .onlyGovernanceCanSetRelayer
  .ok { s with authorizedRelayer := relayer }

/-- `finalize_epoch`. -/
def finalizeEpoch (ctx : Context AccountId) (s : State AccountId) :
    Except Error (State AccountId) := do
  revertIf (ctx.predecessor ≠ s.governance) .onlyGovernanceCanFinalize
  let epochId := s.currentEpochId
  let epoch ← orRevert .epochNotFound (s.epochs epochId)
  revertIf (epoch.finalized = true) .epochAlreadyFinalized
  let nullifiers := (s.epochNullifiers epochId).getD []
  let closed : EpochInfo := { epoch with
    nullifierRoot := computeNullifierRoot (poseidonHashHex keccak256) nullifiers
    nullifierCount := BitVec.ofNat 32 nullifiers.length
    endBlock := some ctx.blockHeight
    finalized := true }
  .ok { s with
    epochs := Function.update (Function.update s.epochs epochId (some closed)) (epochId + 1)
      (some ⟨ctx.blockHeight, none, ZERO_HASH, 0, false⟩)
    currentEpochId := epochId + 1
    epochNullifiers := Function.update s.epochNullifiers (epochId + 1) (some []) }

/-- `sync_epoch_root`. -/
def syncEpochRoot (ctx : Context AccountId) (sourceChainId : BitVec 32) (epochId : ℕ)
    (nullifierRoot : String) (s : State AccountId) : Except Error (State AccountId) := do
  revertIf (ctx.predecessor ≠ s.governance ∧ some ctx.predecessor ≠ s.authorizedRelayer)
    .onlyAuthorizedCanSync
  revertIf (nullifierRoot.isEmpty = true) .nullifierRootEmpty
  let key := toString sourceChainId.toNat ++ ":" ++ toString epochId
  .ok { s with remoteEpochRoots := Function.update s.remoteEpochRoots key (some nullifierRoot) }

/-! ## The machine -/

/-- The methods that change the state, with their arguments. -/
inductive Method (AccountId : Type) where
  | deposit (commitment : String)
  | transfer (proof merkleRoot : String) (nullifiers outputCommitments : List String)
  | withdraw (proof merkleRoot : String) (nullifiers outputCommitments : List String)
      (recipient : AccountId) (exitValue : BitVec 128)
  | setAuthorizedRelayer (relayer : Option AccountId)
  | finalizeEpoch
  | syncEpochRoot (sourceChainId : BitVec 32) (epochId : ℕ) (nullifierRoot : String)

/-- A call of a method. Only a deposit may have money attached. -/
def exec (ctx : Context AccountId) (method : Method AccountId) (s : State AccountId) :
    Except Error (State AccountId × List (Promise AccountId)) :=
  match method with
  | .deposit commitment => do
    let s ← deposit keccak256 ctx commitment s
    .ok (s, [])
  | .transfer proof merkleRoot nullifiers outputCommitments => do
    revertIf (ctx.attachedDeposit ≠ 0) .doesNotAcceptDeposit
    let s ← transfer keccak256 proof merkleRoot nullifiers outputCommitments s
    .ok (s, [])
  | .withdraw proof merkleRoot nullifiers outputCommitments recipient exitValue => do
    revertIf (ctx.attachedDeposit ≠ 0) .doesNotAcceptDeposit
    let (s, promise) ← withdraw keccak256 proof merkleRoot nullifiers outputCommitments
      recipient exitValue s
    .ok (s, [promise])
  | .setAuthorizedRelayer relayer => do
    revertIf (ctx.attachedDeposit ≠ 0) .doesNotAcceptDeposit
    let s ← setAuthorizedRelayer ctx relayer s
    .ok (s, [])
  | .finalizeEpoch => do
    revertIf (ctx.attachedDeposit ≠ 0) .doesNotAcceptDeposit
    let s ← finalizeEpoch keccak256 ctx s
    .ok (s, [])
  | .syncEpochRoot sourceChainId epochId nullifierRoot => do
    revertIf (ctx.attachedDeposit ≠ 0) .doesNotAcceptDeposit
    let s ← syncEpochRoot ctx sourceChainId epochId nullifierRoot s
    .ok (s, [])

/-- A method with its context. -/
structure Call (AccountId : Type) where
  ctx : Context AccountId
  method : Method AccountId

/-- A step of the machine. -/
def step (c : Call AccountId) (s : State AccountId) : Except Error (State AccountId) :=
  (exec keccak256 c.ctx c.method s).map Prod.fst

/-- **The states the contract gets into.** -/
def Reachable (s : State AccountId) : Prop :=
  ∃ governance domainChainId domainAppId blockHeight tr,
    Run (step keccak256) (fun _ _ => True)
      (new keccak256 governance domainChainId domainAppId blockHeight) tr s

end NearPool
