import SoulPrivacy.CosmWasmPoseidon
import SoulPrivacy.HexProof
import SoulPrivacy.LinearRoots
import SoulPrivacy.Run

/-!
# The CosmWasm pool (`cosmwasm/contracts/privacy-pool/src/contract.rs`)

A pool that holds its words as texts. The two hashes it calls are parameters
(`Crypto`): the one of the tree works on words, and is called on texts that may
not be readable, which is a panic. A message either fails – with an error of
the contract or with a panic – and then leaves everything as it was, or gives
the new state and the payments to be made.

The three settings of the tree and of the epochs are taken as they are from the
message the contract is instantiated with.
-/

namespace CosmWasmPool

open HexProof (verifyProofBinding)

/-- **The hashes the contract calls**: its Poseidon hash, on words, and
SHA-256. -/
structure Crypto where
  hash : Uint256 → Uint256 → Uint256
  sha256 : Bytes → Bytes32

/-- `Config`. -/
structure Config where
  treeDepth : BitVec 32
  epochDuration : BitVec 64
  maxNullifiersPerEpoch : BitVec 32
  rootHistorySize : BitVec 32
  domainChainId : BitVec 32
  domainAppId : BitVec 32
  governance : String
  acceptedDenom : String
  authorizedRelayer : Option String
  deriving DecidableEq

/-- `EpochInfo`. -/
structure EpochInfo where
  startHeight : ℕ
  endHeight : Option ℕ
  nullifierRoot : String
  nullifierCount : ℕ
  finalized : Bool
  deriving DecidableEq

/-- **The storage of the contract.** -/
structure State where
  config : Config
  nextLeafIndex : ℕ
  filledSubtrees : ℕ → Option String
  roots : ℕ → Option String
  currentRootIndex : ℕ
  nullifierSpent : String → Bool
  commitmentExists : String → Bool
  poolBalance : BitVec 128
  currentEpochId : ℕ
  epochs : ℕ → Option EpochInfo
  epochNullifiers : ℕ → Option (List String)
  remoteEpochRoots : BitVec 32 → ℕ → Option String

/-- The ways a message fails: `ContractError`, and the panics. -/
inductive Error where
  /-- `StdError`, of an entry that is not there. -/
  | std
  | unauthorized
  | zeroDeposit
  | commitmentAlreadyExists
  | treeFull
  | invalidProof
  | nullifierAlreadySpent (nullifier : String)
  | unknownMerkleRoot
  | insufficientPoolBalance
  | zeroWithdrawal
  | epochAlreadyFinalized
  | epochNullifierOverflow
  | invalidNullifierRoot
  /-- A text that `hex_to_32` cannot read. -/
  | unreadable
  /-- A power, a sum or a difference of fixed width. -/
  | overflow
  | underflow
  | divisionByZero
  /-- The sum of `Uint128`. -/
  | balanceOverflow
  deriving DecidableEq

/-- `Coin`. -/
structure Coin where
  denom : String
  amount : BitVec 128
  deriving DecidableEq

/-- `MessageInfo`. -/
structure MessageInfo where
  sender : String
  funds : List Coin

/-- `BankMsg::Send`. -/
structure BankMsg where
  toAddress : String
  amount : List Coin
  deriving DecidableEq

/-- `InstantiateMsg`. -/
structure InstantiateMsg where
  treeDepth : BitVec 32
  epochDuration : BitVec 64
  maxNullifiersPerEpoch : BitVec 32
  rootHistorySize : BitVec 32
  domainChainId : BitVec 32
  domainAppId : BitVec 32
  governance : String
  acceptedDenom : String

/-- `ExecuteMsg`. -/
inductive ExecuteMsg where
  | deposit (commitment : String)
  | transfer (proof merkleRoot : String) (nullifiers outputCommitments : String × String)
  | withdraw (proof merkleRoot : String) (nullifiers outputCommitments : String × String)
      (recipient : String) (exitValue : BitVec 128)
  | finalizeEpoch
  | syncEpochRoot (sourceChainId : BitVec 32) (epochId : ℕ) (nullifierRoot : String)
  | updateGovernance (newGovernance : String)
  | setAuthorizedRelayer (relayer : Option String)

variable (C : Crypto)

/-! ## Hashes -/

/-- `poseidon_hash_hex`. -/
def poseidonHashHex (left right : String) : Except Error String :=
  orRevert .unreadable (CosmWasmPoseidon.hashHex C.hash left right)

/-- `zero_hash`. -/
def zeroHash : ℕ → Except Error String
  | 0 => .ok ZERO_HASH
  | level + 1 => do
    let z ← zeroHash level
    poseidonHashHex C z z

/-- `compute_nullifier_root`, whose hashes may panic. -/
def nullifierRootOf : List String → Except Error String
  | [] => .ok ZERO_HASH
  | first :: rest => rest.foldlM (poseidonHashHex C) first

/-! ## The tree -/

/-- What the loop of `insert_leaf` carries from level to level. -/
structure Climb where
  currentIndex : ℕ
  currentHash : String
  filledSubtrees : ℕ → Option String

/-- The body of the loop of `insert_leaf`. -/
def insertStep (st : Climb) (level : ℕ) : Except Error Climb :=
  if st.currentIndex % 2 = 0 then do
    let zero ← zeroHash C level
    let currentHash ← poseidonHashHex C st.currentHash zero
    .ok ⟨st.currentIndex / 2, currentHash,
      Function.update st.filledSubtrees level (some st.currentHash)⟩
  else do
    let sibling ← orRevert .std (st.filledSubtrees level)
    let currentHash ← poseidonHashHex C sibling st.currentHash
    .ok ⟨st.currentIndex / 2, currentHash, st.filledSubtrees⟩

/-- `2u64.pow(_)`. -/
def powTwo (n : ℕ) : Except Error ℕ := if n < 64 then .ok (2 ^ n) else .error .overflow

/-- `(CURRENT_ROOT_INDEX + 1) % root_history_size`. -/
def nextRootIndex (s : State) : Except Error ℕ := do
  revertIf (2 ^ 32 ≤ s.currentRootIndex + 1) .overflow
  revertIf (s.config.rootHistorySize = 0) .divisionByZero
  .ok ((s.currentRootIndex + 1) % s.config.rootHistorySize.toNat)

/-- `insert_leaf`. -/
def insertLeaf (leafHex : String) (s : State) : Except Error (ℕ × State) := do
  let maxLeaves ← powTwo s.config.treeDepth.toNat
  revertIf (maxLeaves ≤ s.nextLeafIndex) .treeFull
  let st ← (List.range s.config.treeDepth.toNat).foldlM (insertStep C)
    ⟨s.nextLeafIndex, leafHex, s.filledSubtrees⟩
  let newIdx ← nextRootIndex s
  revertIf (2 ^ 64 ≤ s.nextLeafIndex + 1) .overflow
  .ok (s.nextLeafIndex, { s with
    filledSubtrees := st.filledSubtrees
    roots := Function.update s.roots newIdx (some st.currentHash)
    currentRootIndex := newIdx
    nextLeafIndex := s.nextLeafIndex + 1 })

/-- The loop of `is_known_root`. -/
def searchRoots (roots : ℕ → Option String) (historySize : BitVec 32) (root : String) :
    ℕ → ℕ → Except Error Bool
  | 0, _ => .ok false
  | n + 1, idx =>
    if roots idx = some root then .ok true
    else if idx = 0 then do
      revertIf (historySize = 0) .underflow
      searchRoots roots historySize root n (historySize.toNat - 1)
    else searchRoots roots historySize root n (idx - 1)

/-- `is_known_root`. -/
def isKnownRoot (s : State) (root : String) : Except Error Bool :=
  if root = ZERO_HASH then .ok false
  else searchRoots s.roots s.config.rootHistorySize root s.config.rootHistorySize.toNat
    s.currentRootIndex

/-- The latest root, as it is looked up for a query; `none` when it is not
there. -/
def latestRoot (s : State) : Option String := s.roots s.currentRootIndex

/-- The body of the loop of `check_and_spend_nullifiers`. -/
def checkAndSpendNullifier (s : State) (nullifier : String) : Except Error State := do
  revertIf (s.nullifierSpent nullifier = true) (.nullifierAlreadySpent nullifier)
  let epochNuls ← orRevert .std (s.epochNullifiers s.currentEpochId)
  revertIf (s.config.maxNullifiersPerEpoch.toNat ≤ epochNuls.length) .epochNullifierOverflow
  .ok { s with
    nullifierSpent := Function.update s.nullifierSpent nullifier true
    epochNullifiers := Function.update s.epochNullifiers s.currentEpochId
      (some (epochNuls ++ [nullifier])) }

/-- `check_and_spend_nullifiers`. -/
def checkAndSpendNullifiers (nullifiers : String × String) (s : State) :
    Except Error State := do
  let s ← checkAndSpendNullifier s nullifiers.1
  checkAndSpendNullifier s nullifiers.2

/-! ## Messages -/

/-- The body of the loop of `instantiate`. -/
def instantiateStep (st : (ℕ → Option String) × String) (level : ℕ) :
    Except Error ((ℕ → Option String) × String) := do
  let currentZero ← poseidonHashHex C st.2 st.2
  .ok (Function.update st.1 level (some st.2), currentZero)

/-- The state a contract starts from, with the levels of its tree. -/
def initial (height : ℕ) (msg : InstantiateMsg) (st : (ℕ → Option String) × String) :
    State where
  config := {
    treeDepth := msg.treeDepth
    epochDuration := msg.epochDuration
    maxNullifiersPerEpoch := msg.maxNullifiersPerEpoch
    rootHistorySize := msg.rootHistorySize
    domainChainId := msg.domainChainId
    domainAppId := msg.domainAppId
    governance := msg.governance
    acceptedDenom := msg.acceptedDenom
    authorizedRelayer := none }
  nextLeafIndex := 0
  filledSubtrees := st.1
  roots := Function.update (fun _ => none) 0 (some st.2)
  currentRootIndex := 0
  nullifierSpent := fun _ => false
  commitmentExists := fun _ => false
  poolBalance := 0
  currentEpochId := 0
  epochs := Function.update (fun _ => none) 0 (some ⟨height, none, ZERO_HASH, 0, false⟩)
  epochNullifiers := Function.update (fun _ => none) 0 (some [])
  remoteEpochRoots := fun _ _ => none

/-- `instantiate`. -/
def instantiate (height : ℕ) (msg : InstantiateMsg) : Except Error State := do
  let st ← (List.range msg.treeDepth.toNat).foldlM (instantiateStep C)
    (fun _ => none, ZERO_HASH)
  .ok (initial height msg st)

/-- The amount sent in a denomination. -/
def amountIn (denom : String) (funds : List Coin) : BitVec 128 :=
  ((funds.find? (fun c => c.denom == denom)).map Coin.amount).getD 0

/-- `execute_deposit`. -/
def executeDeposit (info : MessageInfo) (commitment : String) (s : State) :
    Except Error (State × List BankMsg) := do
  let amount := amountIn s.config.acceptedDenom info.funds
  revertIf (amount = 0) .zeroDeposit
  revertIf (s.commitmentExists commitment = true) .commitmentAlreadyExists
  let s : State := { s with
    commitmentExists := Function.update s.commitmentExists commitment true }
  let (_, s) ← insertLeaf C commitment s
  revertIf (2 ^ 128 ≤ s.poolBalance.toNat + amount.toNat) .balanceOverflow
  .ok ({ s with poolBalance := s.poolBalance + amount }, [])

/-- `execute_transfer`. -/
def executeTransfer (proof merkleRoot : String) (nullifiers outputCommitments : String × String)
    (s : State) : Except Error (State × List BankMsg) := do
  let known ← isKnownRoot s merkleRoot
  revertIf (known = false) .unknownMerkleRoot
  let s ← checkAndSpendNullifiers nullifiers s
  revertIf (verifyProofBinding C.sha256 proof merkleRoot [nullifiers.1, nullifiers.2]
    [outputCommitments.1, outputCommitments.2] = false) .invalidProof
  let (_, s) ← insertLeaf C outputCommitments.1 s
  let (_, s) ← insertLeaf C outputCommitments.2 s
  .ok (s, [])

/-- `execute_withdraw`. -/
def executeWithdraw (proof merkleRoot : String) (nullifiers outputCommitments : String × String)
    (recipient : String) (exitValue : BitVec 128) (s : State) :
    Except Error (State × List BankMsg) := do
  revertIf (exitValue = 0) .zeroWithdrawal
  revertIf (s.poolBalance < exitValue) .insufficientPoolBalance
  let known ← isKnownRoot s merkleRoot
  revertIf (known = false) .unknownMerkleRoot
  let s ← checkAndSpendNullifiers nullifiers s
  -- neither the recipient nor the amount is verified with the proof
  revertIf (verifyProofBinding C.sha256 proof merkleRoot [nullifiers.1, nullifiers.2]
    [outputCommitments.1, outputCommitments.2] = false) .invalidProof
  let (_, s) ← insertLeaf C outputCommitments.1 s
  let (_, s) ← insertLeaf C outputCommitments.2 s
  let rest := if exitValue ≤ s.poolBalance then s.poolBalance - exitValue else 0
  .ok ({ s with poolBalance := rest },
    [⟨recipient, [⟨s.config.acceptedDenom, exitValue⟩]⟩])

/-- `execute_finalize_epoch`. -/
def executeFinalizeEpoch (height : ℕ) (info : MessageInfo) (s : State) :
    Except Error (State × List BankMsg) := do
  revertIf (info.sender ≠ s.config.governance) .unauthorized
  let epochId := s.currentEpochId
  let epoch ← orRevert .std (s.epochs epochId)
  revertIf (epoch.finalized = true) .epochAlreadyFinalized
  let nullifiers ← orRevert .std (s.epochNullifiers epochId)
  let nullifierRoot ← nullifierRootOf C nullifiers
  let closed : EpochInfo := { epoch with
    nullifierRoot := nullifierRoot
    nullifierCount := nullifiers.length
    endHeight := some height
    finalized := true }
  .ok ({ s with
    epochs := Function.update (Function.update s.epochs epochId (some closed)) (epochId + 1)
      (some ⟨height, none, ZERO_HASH, 0, false⟩)
    currentEpochId := epochId + 1
    epochNullifiers := Function.update s.epochNullifiers (epochId + 1) (some []) }, [])

/-- `execute_sync_epoch_root`. -/
def executeSyncEpochRoot (info : MessageInfo) (sourceChainId : BitVec 32) (epochId : ℕ)
    (nullifierRoot : String) (s : State) : Except Error (State × List BankMsg) := do
  revertIf (info.sender ≠ s.config.governance
    ∧ some info.sender ≠ s.config.authorizedRelayer) .unauthorized
  revertIf (nullifierRoot.isEmpty = true) .invalidNullifierRoot
  let synced := Function.update (s.remoteEpochRoots sourceChainId) epochId (some nullifierRoot)
  .ok ({ s with
    remoteEpochRoots := Function.update s.remoteEpochRoots sourceChainId synced }, [])

/-- `execute_update_governance`. -/
def executeUpdateGovernance (info : MessageInfo) (newGovernance : String) (s : State) :
    Except Error (State × List BankMsg) := do
  revertIf (info.sender ≠ s.config.governance) .unauthorized
  .ok ({ s with config := { s.config with governance := newGovernance } }, [])

/-- `execute_set_authorized_relayer`. -/
def executeSetAuthorizedRelayer (info : MessageInfo) (relayer : Option String) (s : State) :
    Except Error (State × List BankMsg) := do
  revertIf (info.sender ≠ s.config.governance) .unauthorized
  .ok ({ s with config := { s.config with authorizedRelayer := relayer } }, [])

/-- `execute`. -/
def execute (height : ℕ) (info : MessageInfo) (msg : ExecuteMsg) (s : State) :
    Except Error (State × List BankMsg) :=
  match msg with
  | .deposit commitment => executeDeposit C info commitment s
  | .transfer proof merkleRoot nullifiers outputCommitments =>
    executeTransfer C proof merkleRoot nullifiers outputCommitments s
  | .withdraw proof merkleRoot nullifiers outputCommitments recipient exitValue =>
    executeWithdraw C proof merkleRoot nullifiers outputCommitments recipient exitValue s
  | .finalizeEpoch => executeFinalizeEpoch C height info s
  | .syncEpochRoot sourceChainId epochId nullifierRoot =>
    executeSyncEpochRoot info sourceChainId epochId nullifierRoot s
  | .updateGovernance newGovernance => executeUpdateGovernance info newGovernance s
  | .setAuthorizedRelayer relayer => executeSetAuthorizedRelayer info relayer s

/-! ## The machine -/

/-- A message with its sender and its block. -/
structure Call where
  height : ℕ
  info : MessageInfo
  msg : ExecuteMsg

/-- A step of the machine. -/
def step (c : Call) (s : State) : Except Error State :=
  (execute C c.height c.info c.msg s).map Prod.fst

/-- **The runs of a contract** that was instantiated with a message. -/
def RunFrom (height : ℕ) (msg : InstantiateMsg) (allowed : State → Call → Prop)
    (tr : List (State × Call)) (s : State) : Prop :=
  ∃ s₀, instantiate C height msg = .ok s₀ ∧ Run (step C) allowed s₀ tr s

/-- **The states a contract gets into.** -/
def Reachable (s : State) : Prop := ∃ height msg tr, RunFrom C height msg (fun _ _ => True) tr s

end CosmWasmPool
