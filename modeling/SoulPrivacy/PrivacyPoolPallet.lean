import SoulPrivacy.LinearRoots
import SoulPrivacy.PalletVerifier
import SoulPrivacy.Run

/-!
# The Substrate pallet (`pallets/privacy-pool/src/lib.rs`)

A pool as a runtime module. What it takes from the runtime is a parameter
(`Runtime`): its constants, the transfers of the currency, and the two hash
functions. An extrinsic either fails, and then leaves everything as it was,
or gives the new state and its events.

A world is the storage of the pallet and the ledger of the currency.
Nothing is assumed of the ledger here, and other modules may change it
between two extrinsics.
-/

namespace PrivacyPoolPallet

open PalletVerifier (TransferPublicInputs WithdrawPublicInputs)

/-- `ExistenceRequirement`. -/
inductive ExistenceRequirement where
  | keepAlive
  | allowDeath
  deriving DecidableEq

/-- **What the pallet is configured with**, its `Config` and the functions
it calls. A transfer of the currency that fails is `none`. -/
structure Runtime (AccountId L : Type) where
  treeDepth : ℕ
  maxNullifiersPerEpoch : ℕ
  rootHistorySize : ℕ
  paraId : BitVec 32
  appId : BitVec 32
  /-- `PalletId::get().into_account_truncating()`. -/
  poolAccount : AccountId
  transferCurrency : AccountId → AccountId → BitVec 128 → ExistenceRequirement → L → Option L
  poseidonHash : H256 → H256 → H256
  blake2_256 : Bytes → H256

/-- `EpochInfo`. -/
structure EpochInfo where
  startBlock : ℕ
  endBlock : Option ℕ
  nullifierRoot : H256
  nullifierCount : ℕ
  finalized : Bool
  deriving DecidableEq

/-- **The storage of the pallet.** -/
structure Storage where
  nextLeafIndex : ℕ
  filledSubtrees : ℕ → H256
  roots : ℕ → H256
  currentRootIndex : ℕ
  nullifierSpent : H256 → Bool
  commitmentExists : H256 → Bool
  poolBalance : BitVec 128
  currentEpochId : ℕ
  epochs : ℕ → Option EpochInfo
  epochNullifiers : ℕ → List H256
  remoteEpochRoots : BitVec 32 → ℕ → Option H256

/-- The storage and the ledger. -/
structure World (L : Type) where
  pallet : Storage
  ledger : L

/-- The errors of the pallet. -/
inductive Error where
  | zeroDeposit
  | commitmentAlreadyExists
  | treeFull
  | invalidProof
  | nullifierAlreadySpent
  | unknownMerkleRoot
  | insufficientPoolBalance
  | zeroWithdrawal
  | epochNotReady
  | epochAlreadyFinalized
  | epochNullifierOverflow
  | transferFailed
  | invalidNullifierRoot
  /-- `DispatchError::BadOrigin`. -/
  | badOrigin
  /-- An arithmetic panic. -/
  | panic
  deriving DecidableEq

/-- The events of the pallet. -/
inductive Event (AccountId : Type) where
  | deposited (commitment : H256) (leafIndex : ℕ) (amount : BitVec 128)
  | transferred (nullifiers outputCommitments : H256 × H256) (newRoot : H256)
  | withdrawn (nullifiers : H256 × H256) (recipient : AccountId) (amount : BitVec 128)
      (newRoot : H256)
  | epochFinalized (epochId : ℕ) (nullifierRoot : H256) (nullifierCount : ℕ)
  | remoteEpochRootReceived (sourceParaId : BitVec 32) (epochId : ℕ) (nullifierRoot : H256)

/-- Who an extrinsic comes from. -/
inductive Origin (AccountId : Type) where
  | root
  | signed (who : AccountId)
  | none

variable {AccountId L : Type} (R : Runtime AccountId L)

/-- `ensure_signed`. -/
def ensureSigned : Origin AccountId → Except Error AccountId
  | .signed who => .ok who
  | _ => .error .badOrigin

/-- `ensure_root`. -/
def ensureRoot : Origin AccountId → Except Error Unit
  | .root => .ok ()
  | _ => .error .badOrigin

/-! ## The tree -/

/-- `zero_hash`. -/
def zeroHash : ℕ → H256
  | 0 => 0
  | level + 1 => R.poseidonHash (zeroHash level) (zeroHash level)

/-- What the loop of `insert_leaf` carries from level to level. -/
structure Climb where
  currentIndex : ℕ
  currentHash : H256
  filledSubtrees : ℕ → H256

/-- The body of the loop of `insert_leaf`. -/
def insertStep (st : Climb) (level : ℕ) : Climb :=
  if st.currentIndex % 2 = 0 then
    { currentIndex := st.currentIndex / 2
      currentHash := R.poseidonHash st.currentHash (zeroHash R level)
      filledSubtrees := Function.update st.filledSubtrees level st.currentHash }
  else
    { currentIndex := st.currentIndex / 2
      currentHash := R.poseidonHash (st.filledSubtrees level) st.currentHash
      filledSubtrees := st.filledSubtrees }

/-- What `insert_leaf` writes. -/
def inserted (leaf : H256) (s : Storage) : Storage :=
  let st := (List.range R.treeDepth).foldl (insertStep R)
    ⟨s.nextLeafIndex, leaf, s.filledSubtrees⟩
  let newRootIndex := (s.currentRootIndex + 1) % R.rootHistorySize
  { s with
    filledSubtrees := st.filledSubtrees
    roots := Function.update s.roots newRootIndex st.currentHash
    currentRootIndex := newRootIndex
    nextLeafIndex := s.nextLeafIndex + 1 }

/-- `2u64.pow(T::TreeDepth::get())`, which wraps. -/
def maxLeaves : ℕ := 2 ^ R.treeDepth % 2 ^ 64

/-- `insert_leaf`. A history of size zero makes the remainder panic. -/
def insertLeaf (leaf : H256) (s : Storage) : Except Error (ℕ × Storage) := do
  revertIf (maxLeaves R ≤ s.nextLeafIndex) .treeFull
  revertIf (R.rootHistorySize = 0) .panic
  .ok (s.nextLeafIndex, inserted R leaf s)

/-- The loop of `is_known_root`. -/
def searchRoots (roots : ℕ → H256) (historySize : ℕ) (root : H256) : ℕ → ℕ → Bool
  | 0, _ => false
  | n + 1, idx =>
    if roots idx = root then true
    else searchRoots roots historySize root n (if idx = 0 then historySize - 1 else idx - 1)

/-- `is_known_root`. -/
def isKnownRoot (s : Storage) (root : H256) : Bool :=
  if root = 0 then false
  else searchRoots s.roots R.rootHistorySize root R.rootHistorySize s.currentRootIndex

/-- `get_latest_root`. -/
def getLatestRoot (s : Storage) : H256 := s.roots s.currentRootIndex

/-- The body of the loop of `check_and_spend_nullifiers`. -/
def checkAndSpendNullifier (s : Storage) (nullifier : H256) : Except Error Storage := do
  revertIf (s.nullifierSpent nullifier = true) .nullifierAlreadySpent
  let nuls := s.epochNullifiers s.currentEpochId
  revertIf (R.maxNullifiersPerEpoch ≤ nuls.length) .epochNullifierOverflow
  .ok { s with
    nullifierSpent := Function.update s.nullifierSpent nullifier true
    epochNullifiers := Function.update s.epochNullifiers s.currentEpochId
      (nuls ++ [nullifier]) }

/-- `check_and_spend_nullifiers`. -/
def checkAndSpendNullifiers (nullifiers : H256 × H256) (s : Storage) :
    Except Error Storage := do
  let s ← checkAndSpendNullifier R s nullifiers.1
  checkAndSpendNullifier R s nullifiers.2

/-! ## Extrinsics -/

/-- `saturating_add` of `u128`. -/
def saturatingAdd (a b : BitVec 128) : BitVec 128 :=
  if a.toNat + b.toNat < 2 ^ 128 then a + b else BitVec.allOnes 128

/-- `saturating_sub` of `u128`. -/
def saturatingSub (a b : BitVec 128) : BitVec 128 := if b ≤ a then a - b else 0

/-- `deposit`. -/
def deposit (origin : Origin AccountId) (commitment : H256) (amount : BitVec 128)
    (w : World L) : Except Error (World L × List (Event AccountId)) := do
  let who ← ensureSigned origin
  revertIf (amount = 0) .zeroDeposit
  revertIf (w.pallet.commitmentExists commitment = true) .commitmentAlreadyExists
  let ledger ← orRevert .transferFailed
    (R.transferCurrency who R.poolAccount amount .keepAlive w.ledger)
  let s : Storage := { w.pallet with
    commitmentExists := Function.update w.pallet.commitmentExists commitment true }
  let (leafIndex, s) ← insertLeaf R commitment s
  .ok (⟨{ s with poolBalance := saturatingAdd s.poolBalance amount }, ledger⟩,
    [.deposited commitment leafIndex amount])

/-- `transfer`. -/
def transfer (origin : Origin AccountId) (proof : Bytes) (merkleRoot : H256)
    (nullifiers outputCommitments : H256 × H256) (w : World L) :
    Except Error (World L × List (Event AccountId)) := do
  let _ ← ensureSigned origin
  revertIf (isKnownRoot R w.pallet merkleRoot = false) .unknownMerkleRoot
  let s ← checkAndSpendNullifiers R nullifiers w.pallet
  let publicInputs : TransferPublicInputs :=
    ⟨merkleRoot, nullifiers, outputCommitments, R.paraId, R.appId⟩
  revertIf (PalletVerifier.verifyTransfer R.blake2_256 proof publicInputs = false)
    .invalidProof
  let (_, s) ← insertLeaf R outputCommitments.1 s
  let (_, s) ← insertLeaf R outputCommitments.2 s
  .ok (⟨s, w.ledger⟩, [.transferred nullifiers outputCommitments (getLatestRoot s)])

/-- `withdraw`. -/
def withdraw (origin : Origin AccountId) (proof : Bytes) (merkleRoot : H256)
    (nullifiers outputCommitments : H256 × H256) (recipient : AccountId)
    (exitValue : BitVec 128) (w : World L) :
    Except Error (World L × List (Event AccountId)) := do
  let _ ← ensureSigned origin
  revertIf (exitValue = 0) .zeroWithdrawal
  revertIf (w.pallet.poolBalance < exitValue) .insufficientPoolBalance
  revertIf (isKnownRoot R w.pallet merkleRoot = false) .unknownMerkleRoot
  let s ← checkAndSpendNullifiers R nullifiers w.pallet
  -- the recipient is not among the public inputs
  let publicInputs : WithdrawPublicInputs :=
    ⟨merkleRoot, nullifiers, outputCommitments, exitValue⟩
  revertIf (PalletVerifier.verifyWithdraw R.blake2_256 proof publicInputs = false)
    .invalidProof
  let (_, s) ← insertLeaf R outputCommitments.1 s
  let (_, s) ← insertLeaf R outputCommitments.2 s
  let ledger ← orRevert .transferFailed
    (R.transferCurrency R.poolAccount recipient exitValue .allowDeath w.ledger)
  .ok (⟨{ s with poolBalance := saturatingSub s.poolBalance exitValue }, ledger⟩,
    [.withdrawn nullifiers recipient exitValue (getLatestRoot s)])

/-- `finalize_epoch`. -/
def finalizeEpoch (origin : Origin AccountId) (blockNumber : ℕ) (w : World L) :
    Except Error (World L × List (Event AccountId)) := do
  ensureRoot origin
  let s := w.pallet
  let epochId := s.currentEpochId
  let epoch ← orRevert .epochNotReady (s.epochs epochId)
  revertIf (epoch.finalized = true) .epochAlreadyFinalized
  let nullifiers := s.epochNullifiers epochId
  let nullifierRoot := computeNullifierRoot R.poseidonHash nullifiers
  let count := nullifiers.length
  let closed : EpochInfo := { epoch with
    nullifierRoot := nullifierRoot
    nullifierCount := count
    endBlock := some blockNumber
    finalized := true }
  let newEpoch : EpochInfo := ⟨blockNumber, none, 0, 0, false⟩
  .ok ({ w with pallet := { s with
      epochs := Function.update (Function.update s.epochs epochId (some closed))
        (epochId + 1) (some newEpoch)
      currentEpochId := epochId + 1 } },
    [.epochFinalized epochId nullifierRoot count])

/-- `sync_epoch_root`. -/
def syncEpochRoot (origin : Origin AccountId) (sourceParaId : BitVec 32) (epochId : ℕ)
    (nullifierRoot : H256) (w : World L) :
    Except Error (World L × List (Event AccountId)) := do
  ensureRoot origin
  revertIf (nullifierRoot = 0) .invalidNullifierRoot
  .ok ({ w with pallet := { w.pallet with
      remoteEpochRoots := Function.update w.pallet.remoteEpochRoots sourceParaId
        (Function.update (w.pallet.remoteEpochRoots sourceParaId) epochId
          (some nullifierRoot)) } },
    [.remoteEpochRootReceived sourceParaId epochId nullifierRoot])

/-! ## The machine -/

/-- The body of the loop of the genesis. -/
def genesisStep (st : (ℕ → H256) × H256) (level : ℕ) : (ℕ → H256) × H256 :=
  (Function.update st.1 level st.2, R.poseidonHash st.2 st.2)

/-- The storage at genesis. -/
def genesis : Storage :=
  let st := (List.range R.treeDepth).foldl (genesisStep R) (fun _ => 0, 0)
  { nextLeafIndex := 0
    filledSubtrees := st.1
    roots := Function.update (fun _ => 0) 0 st.2
    currentRootIndex := 0
    nullifierSpent := fun _ => false
    commitmentExists := fun _ => false
    poolBalance := 0
    currentEpochId := 0
    epochs := Function.update (fun _ => none) 0 (some ⟨0, none, 0, 0, false⟩)
    epochNullifiers := fun _ => []
    remoteEpochRoots := fun _ _ => none }

/-- The extrinsics, with their arguments. -/
inductive Extrinsic (AccountId : Type) where
  | deposit (commitment : H256) (amount : BitVec 128)
  | transfer (proof : Bytes) (merkleRoot : H256) (nullifiers outputCommitments : H256 × H256)
  | withdraw (proof : Bytes) (merkleRoot : H256) (nullifiers outputCommitments : H256 × H256)
      (recipient : AccountId) (exitValue : BitVec 128)
  | finalizeEpoch
  | syncEpochRoot (sourceParaId : BitVec 32) (epochId : ℕ) (nullifierRoot : H256)

/-- An extrinsic with its origin and its block. -/
structure Call (AccountId : Type) where
  origin : Origin AccountId
  blockNumber : ℕ
  extrinsic : Extrinsic AccountId

/-- An extrinsic with the events it deposits. -/
def exec (c : Call AccountId) (w : World L) :
    Except Error (World L × List (Event AccountId)) :=
  match c.extrinsic with
  | .deposit commitment amount => deposit R c.origin commitment amount w
  | .transfer proof merkleRoot nullifiers outputCommitments =>
    transfer R c.origin proof merkleRoot nullifiers outputCommitments w
  | .withdraw proof merkleRoot nullifiers outputCommitments recipient exitValue =>
    withdraw R c.origin proof merkleRoot nullifiers outputCommitments recipient exitValue w
  | .finalizeEpoch => finalizeEpoch R c.origin c.blockNumber w
  | .syncEpochRoot sourceParaId epochId nullifierRoot =>
    syncEpochRoot c.origin sourceParaId epochId nullifierRoot w

/-- What happens: an extrinsic, or a change of the ledger by others. -/
inductive Action (AccountId L : Type) where
  | call (c : Call AccountId)
  | ledger (l : L)

/-- A step of the machine. -/
def step : Action AccountId L → World L → Except Error (World L)
  | .call c, w => (exec R c w).map Prod.fst
  | .ledger l, w => .ok { w with ledger := l }

/-- **The worlds the pallet gets into.** -/
def Reachable (w : World L) : Prop :=
  ∃ l tr, Run (step R) (fun _ _ => True) ⟨genesis R, l⟩ tr w

end PrivacyPoolPallet
