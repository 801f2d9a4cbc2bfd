import SoulPrivacy.PrivacyPool

/-!
# What a successful call of the pool did

`Effect` lists, entry point by entry point, what a call that did not
revert says: the guards that did not fire, the world it left, the events
it emitted and, for the two that hand over control, what is left to do.
`enter_effect` is the inversion of the entry points, and the only place
where their bodies are unfolded: every invariant of the pool is proved by
cases on the effect.
-/

namespace PrivacyPool

variable {X : Type} (E : Interfaces X)

/-- The storage after `_checkAndSpendNullifiers`. -/
def spent (pool : Storage) (nullifiers : Pair) : Storage :=
  { pool with
    nullifierSpent :=
      Function.update (Function.update pool.nullifierSpent nullifiers.1 true)
        nullifiers.2 true }

/-- What `_checkAndSpendNullifiers` asks of the two nullifiers: neither
was spent before, and they differ. -/
structure Fresh (pool : Storage) (nullifiers : Pair) : Prop where
  fst : pool.nullifierSpent nullifiers.1 = false
  snd : pool.nullifierSpent nullifiers.2 = false
  ne : nullifiers.1 ≠ nullifiers.2

/-- The tree after the two outputs of a transfer or a withdrawal. -/
def InsertTwo (tree tree' : MerkleTree.TreeData) (outputs : Pair)
    (newRoot : Uint256) : Prop :=
  ∃ tree₁ index₁ root₁ index₂,
    MerkleTree.insert E.hash tree outputs.1 = .ok (tree₁, index₁, root₁)
      ∧ MerkleTree.insert E.hash tree₁ outputs.2 = .ok (tree', index₂, newRoot)

/-- The two nullifiers are reported to the epoch manager, if there is
one. -/
def Reported (w : World X) (nullifiers : Pair) (others : X) : Prop :=
  if w.pool.epochManager = 0 then others = w.others
  else ∃ others₁, E.registerNullifier w.pool.epochManager w.others nullifiers.1
      = some others₁
    ∧ E.registerNullifier w.pool.epochManager others₁ nullifiers.2 = some others

/-- **What a successful call did**, in the world its value is already
credited to. -/
inductive Effect (msg : Msg) (w : World X) :
    Entry → World X → List Event → Option Cont → Prop
  | commitDeposit {commitHash : Bytes32} (running : w.pool.paused = false)
      (value_ne : msg.value ≠ 0)
      (denomination : w.pool.fixedDenominationsEnabled = true →
        w.pool.allowedDenomination msg.value = true)
      (free : (w.pool.pendingCommits commitHash).depositor = 0) :
      Effect msg w (.commitDeposit commitHash)
        (w.withPool { w.pool with
          pendingCommits := Function.update w.pool.pendingCommits commitHash
            ⟨msg.sender, msg.value, w.block.number, false⟩ })
        [.depositCommitted commitHash msg.sender msg.value] none
  | revealDeposit {commitment salt : Bytes32} {tree : MerkleTree.TreeData}
      {index : ℕ} {root poolBalance : Uint256} {record : CommitRecord}
      (running : w.pool.paused = false)
      (record_eq : w.pool.pendingCommits (commitHashOf E commitment salt) = record)
      (depositor : record.depositor = msg.sender) (unrevealed : record.revealed = false)
      (early : record.blockNumber + MIN_COMMIT_DELAY ≤ w.block.number)
      (late : w.block.number ≤ record.blockNumber + MAX_COMMIT_DELAY)
      (new : w.pool.commitmentExists commitment = false)
      (ins : MerkleTree.insert E.hash w.pool.tree commitment = .ok (tree, index, root))
      (balance : checkedAdd Error.panic w.pool.poolBalance record.value
        = .ok poolBalance) :
      Effect msg w (.revealDeposit commitment salt)
        (w.withPool { w.pool with
          pendingCommits := Function.update w.pool.pendingCommits
            (commitHashOf E commitment salt) { record with revealed := true }
          commitmentExists := Function.update w.pool.commitmentExists commitment true
          tree := tree
          poolBalance := poolBalance })
        [.depositRevealed commitment record.value,
          .deposit commitment index record.value w.block.timestamp] none
  | reclaimExpiredCommit {commitHash : Bytes32} {record : CommitRecord}
      (guard : w.pool.status = .notEntered)
      (record_eq : w.pool.pendingCommits commitHash = record)
      (depositor : record.depositor = msg.sender) (unrevealed : record.revealed = false)
      (expired : record.blockNumber + MAX_COMMIT_DELAY < w.block.number) :
      Effect msg w (.reclaimExpiredCommit commitHash)
        (w.withPool { w.pool with
          status := .entered
          pendingCommits :=
            Function.update w.pool.pendingCommits commitHash CommitRecord.deleted })
        [.commitReclaimed commitHash msg.sender record.value]
        (some (.reclaim msg.sender record.value))
  | deposit {commitment : Bytes32} {amount : Uint256} {tree : MerkleTree.TreeData}
      {index : ℕ} {root poolBalance : Uint256}
      (running : w.pool.paused = false) (amount_ne : amount ≠ 0)
      (value_eq : msg.value = amount)
      (new : w.pool.commitmentExists commitment = false)
      (denomination : w.pool.fixedDenominationsEnabled = true →
        w.pool.allowedDenomination amount = true)
      (ins : MerkleTree.insert E.hash w.pool.tree commitment = .ok (tree, index, root))
      (balance : checkedAdd Error.panic w.pool.poolBalance amount = .ok poolBalance) :
      Effect msg w (.deposit commitment amount)
        (w.withPool { w.pool with
          commitmentExists := Function.update w.pool.commitmentExists commitment true
          tree := tree
          poolBalance := poolBalance })
        [.deposit commitment index amount w.block.timestamp] none
  | transfer {proof : Bytes} {merkleRoot : Bytes32} {nullifiers outputs : Pair}
      {domainChainId domainAppId : Uint256} {tree : MerkleTree.TreeData}
      {newRoot : Uint256} {others : X}
      (running : w.pool.paused = false)
      (chain : domainChainId = w.pool.domainChainId)
      (app : domainAppId = w.pool.domainAppId)
      (known : MerkleTree.isKnownRoot w.pool.tree merkleRoot = true)
      (outputs_ok : validateOutputCommitments outputs = .ok ())
      (compliant : checkCompliance E w nullifiers outputs proof = .ok ())
      (fresh : Fresh w.pool nullifiers) (reported : Reported E w nullifiers others)
      (verified : E.verifyTransferProof others proof
        (buildTransferPublicInputs merkleRoot nullifiers outputs domainChainId
          domainAppId) = some true)
      (ins : InsertTwo E w.pool.tree tree outputs newRoot) :
      Effect msg w
        (.transfer proof merkleRoot nullifiers outputs domainChainId domainAppId)
        { w with
          pool := { spent w.pool nullifiers with tree := tree }
          others := others }
        [.transfer nullifiers outputs newRoot] none
  | withdraw {proof : Bytes} {merkleRoot : Bytes32} {nullifiers outputs : Pair}
      {recipient : Address} {exitValue : Uint256} {tree : MerkleTree.TreeData}
      {newRoot poolBalance : Uint256} {others : X}
      (running : w.pool.paused = false) (guard : w.pool.status = .notEntered)
      (exit_ne : exitValue ≠ 0)
      (known : MerkleTree.isKnownRoot w.pool.tree merkleRoot = true)
      (outputs_ok : validateOutputCommitments outputs = .ok ())
      (compliant : checkCompliance E w nullifiers outputs proof = .ok ())
      (unblocked : checkRecipient E w recipient = .ok ())
      (fresh : Fresh w.pool nullifiers) (reported : Reported E w nullifiers others)
      (verified : E.verifyWithdrawProof others proof
        (buildWithdrawPublicInputs merkleRoot nullifiers outputs exitValue recipient)
          = some true)
      (ins : InsertTwo E w.pool.tree tree outputs newRoot)
      (balance : checkedSub Error.panic w.pool.poolBalance exitValue
        = .ok poolBalance) :
      Effect msg w
        (.withdraw proof merkleRoot nullifiers outputs recipient exitValue)
        { w with
          pool := { spent w.pool nullifiers with
            status := .entered
            tree := tree
            poolBalance := poolBalance }
          others := others }
        [] (some (.withdraw nullifiers recipient exitValue newRoot))
  | setEpochManager {a : Address} (auth : msg.sender = w.pool.governance) :
      Effect msg w (.setEpochManager a)
        (w.withPool { w.pool with epochManager := a }) [] none
  | setGovernance {a : Address} (auth : msg.sender = w.pool.governance) :
      Effect msg w (.setGovernance a)
        (w.withPool { w.pool with governance := a }) [] none
  | setComplianceOracle {a : Address} (auth : msg.sender = w.pool.governance) :
      Effect msg w (.setComplianceOracle a)
        (w.withPool { w.pool with complianceOracle := a }) [] none
  | enableFixedDenominations {ds : List Uint256}
      (auth : msg.sender = w.pool.governance) :
      Effect msg w (.enableFixedDenominations ds)
        (w.withPool { w.pool with
          allowedDenomination := ds.foldl (fun allowed d => Function.update allowed d true)
            (w.pool.denominationTiers.foldl
              (fun allowed d => Function.update allowed d false)
              w.pool.allowedDenomination)
          denominationTiers := ds
          fixedDenominationsEnabled := true }) [] none
  | disableFixedDenominations (auth : msg.sender = w.pool.governance) :
      Effect msg w .disableFixedDenominations
        (w.withPool { w.pool with fixedDenominationsEnabled := false }) [] none
  | pause {reason : String}
      (auth : msg.sender = w.pool.guardian ∨ msg.sender = w.pool.governance)
      (running : w.pool.paused = false) :
      Effect msg w (.pause reason)
        (w.withPool { w.pool with
          paused := true
          lastPauseTime := w.block.timestamp
          pauseCount := w.pool.pauseCount + 1 })
        [.paused msg.sender reason] none
  | unpause (paused : w.pool.paused = true)
      (auth : msg.sender = w.pool.governance
        ∨ w.pool.lastPauseTime + MAX_PAUSE_DURATION ≤ w.block.timestamp) :
      Effect msg w .unpause
        (w.withPool { w.pool with paused := false }) [.unpaused msg.sender] none
  | setGuardian {a : Address} (auth : msg.sender = w.pool.governance) :
      Effect msg w (.setGuardian a)
        (w.withPool { w.pool with guardian := a })
        [.guardianUpdated w.pool.guardian a] none

/-! ## Inverting the shared parts -/

variable {E}

theorem insertLeaf_eq_ok {tree : MerkleTree.TreeData} {leaf : Uint256}
    {r : MerkleTree.TreeData × ℕ × Uint256} :
    insertLeaf E tree leaf = .ok r ↔ MerkleTree.insert E.hash tree leaf = .ok r := by
  unfold insertLeaf
  exact Except.mapError_eq_ok

theorem whenNotPaused_eq_ok {pool : Storage} {u : Unit} :
    whenNotPaused pool = .ok u ↔ pool.paused = false := by
  simp [whenNotPaused]

theorem onlyGovernance_eq_ok {msg : Msg} {pool : Storage} {u : Unit} :
    onlyGovernance msg pool = .ok u ↔ msg.sender = pool.governance := by
  simp [onlyGovernance]

theorem nonReentrant_eq_ok {pool : Storage} {u : Unit} :
    nonReentrant pool = .ok u ↔ pool.status = .notEntered := by
  cases h : pool.status <;> simp [nonReentrant, h]

theorem checkDenomination_eq_ok {pool : Storage} {amount : Uint256} {u : Unit} :
    checkDenomination pool amount = .ok u ↔
      (pool.fixedDenominationsEnabled = true →
        pool.allowedDenomination amount = true) := by
  simp [checkDenomination]

/-- A report to the epoch manager reads the storage only for its
address. -/
theorem reportNullifier_eq_ok {nullifier : Bytes32} {w : World X} {others : X} :
    reportNullifier E nullifier w = .ok others ↔
      if w.pool.epochManager = 0 then others = w.others
      else E.registerNullifier w.pool.epochManager w.others nullifier = some others := by
  unfold reportNullifier
  split
  · simp [eq_comm]
  · exact orRevert_eq_ok ..

/-- **What spending a nullifier did.** -/
theorem spendNullifier_eq_ok {nullifier : Bytes32} {w w' : World X} :
    spendNullifier E nullifier w = .ok w' ↔
      w.pool.nullifierSpent nullifier = false ∧
        ∃ others, reportNullifier E nullifier w = .ok others ∧
          w' = { w with
            pool := { w.pool with
              nullifierSpent := Function.update w.pool.nullifierSpent nullifier true }
            others := others } := by
  unfold spendNullifier
  rw [revertIf_bind_eq_ok, Except.bind_eq_ok]
  refine and_congr (by simp) (exists_congr (fun others => and_congr ?_ ?_))
  · rw [reportNullifier_eq_ok, reportNullifier_eq_ok]
    rfl
  · rw [Except.ok.injEq, eq_comm]

/-- **What spending both nullifiers did**: both were unspent, they differ,
both are spent now, both were reported, and nothing else changed. -/
theorem checkAndSpendNullifiers_eq_ok {nullifiers : Pair} {w w' : World X} :
    checkAndSpendNullifiers E nullifiers w = .ok w' ↔
      Fresh w.pool nullifiers ∧ ∃ others, Reported E w nullifiers others ∧
        w' = { w with pool := spent w.pool nullifiers, others := others } := by
  unfold checkAndSpendNullifiers Reported
  rw [Except.bind_eq_ok]
  constructor
  · rintro ⟨w₁, h₁, h₂⟩
    obtain ⟨hfst, others₁, hrep₁, rfl⟩ := spendNullifier_eq_ok.mp h₁
    obtain ⟨hsnd, others₂, hrep₂, rfl⟩ := spendNullifier_eq_ok.mp h₂
    have hne : nullifiers.1 ≠ nullifiers.2 := by
      intro heq
      simp [heq] at hsnd
    refine ⟨⟨hfst, ?_, hne⟩, others₂, ?_, rfl⟩
    · simpa [Function.update_of_ne hne.symm] using hsnd
    · rw [reportNullifier_eq_ok] at hrep₁ hrep₂
      split
      · rename_i h0
        rw [if_pos h0] at hrep₁ hrep₂
        exact hrep₂.trans hrep₁
      · rename_i h0
        rw [if_neg h0] at hrep₁ hrep₂
        exact ⟨others₁, hrep₁, hrep₂⟩
  · rintro ⟨⟨hfst, hsnd, hne⟩, others, hrep, rfl⟩
    have hsnd' : Function.update w.pool.nullifierSpent nullifiers.1 true nullifiers.2
        = false := (Function.update_of_ne hne.symm _ _).trans hsnd
    split at hrep
    · rename_i h0
      refine ⟨_, spendNullifier_eq_ok.mpr ⟨hfst, w.others, ?_, rfl⟩,
        spendNullifier_eq_ok.mpr ⟨hsnd', others, ?_, rfl⟩⟩
      · exact reportNullifier_eq_ok.mpr ((if_pos h0).mpr rfl)
      · exact reportNullifier_eq_ok.mpr ((if_pos h0).mpr hrep)
    · rename_i h0
      obtain ⟨others₁, hrep₁, hrep₂⟩ := hrep
      refine ⟨_, spendNullifier_eq_ok.mpr ⟨hfst, others₁, ?_, rfl⟩,
        spendNullifier_eq_ok.mpr ⟨hsnd', others, ?_, rfl⟩⟩
      · exact reportNullifier_eq_ok.mpr ((if_neg h0).mpr hrep₁)
      · exact reportNullifier_eq_ok.mpr ((if_neg h0).mpr hrep₂)

/-- The compliance check reads the storage only for the address of the
oracle. -/
theorem checkCompliance_congr {w w' : World X} (nullifiers outputs : Pair)
    (proof : Bytes) (horacle : w'.pool.complianceOracle = w.pool.complianceOracle)
    (hothers : w'.others = w.others) :
    checkCompliance E w' nullifiers outputs proof
      = checkCompliance E w nullifiers outputs proof := by
  unfold checkCompliance
  rw [horacle, hothers]

theorem checkRecipient_congr {w w' : World X} (recipient : Address)
    (horacle : w'.pool.complianceOracle = w.pool.complianceOracle)
    (hothers : w'.others = w.others) :
    checkRecipient E w' recipient = checkRecipient E w recipient := by
  unfold checkRecipient
  rw [horacle, hothers]

/-! ## Inverting the entry points -/

/-- The guards and writes of `transfer`. -/
theorem transfer_effect {msg : Msg} {proof : Bytes} {merkleRoot : Bytes32}
    {nullifiers outputs : Pair} {domainChainId domainAppId : Uint256}
    {w : World X} {r : World X × List Event}
    (h : transfer E proof merkleRoot nullifiers outputs domainChainId domainAppId w
      = .ok r) :
    Effect E msg w
      (.transfer proof merkleRoot nullifiers outputs domainChainId domainAppId)
      r.1 r.2 none := by
  unfold transfer at h
  obtain ⟨hrun, h⟩ := (Except.unit_bind_eq_ok _ _ _).mp h
  obtain ⟨hdom, h⟩ := (revertIf_bind_eq_ok _ _ _ _).mp h
  obtain ⟨hknown, h⟩ := (revertIf_bind_eq_ok _ _ _ _).mp h
  obtain ⟨hout, h⟩ := (Except.unit_bind_eq_ok _ _ _).mp h
  obtain ⟨hcomp, h⟩ := (Except.unit_bind_eq_ok _ _ _).mp h
  obtain ⟨w₁, hspend, h⟩ := (Except.bind_eq_ok _ _ _).mp h
  obtain ⟨valid, hver, h⟩ := (Except.bind_eq_ok _ _ _).mp h
  obtain ⟨hvalid, h⟩ := (revertIf_bind_eq_ok _ _ _ _).mp h
  obtain ⟨ins1, hins1, h⟩ := (Except.bind_eq_ok _ _ _).mp h
  obtain ⟨ins2, hins2, h⟩ := (Except.bind_eq_ok _ _ _).mp h
  obtain ⟨hfresh, others, hrep, rfl⟩ := checkAndSpendNullifiers_eq_ok.mp hspend
  rw [not_or, not_not, not_not] at hdom
  rw [orRevert_eq_ok, Bool.eq_true_of_not_eq_false hvalid] at hver
  cases h
  exact .transfer (whenNotPaused_eq_ok.mp hrun) hdom.1 hdom.2
    (Bool.eq_true_of_not_eq_false hknown) hout hcomp hfresh hrep hver
    ⟨_, _, _, _, insertLeaf_eq_ok.mp hins1, insertLeaf_eq_ok.mp hins2⟩

/-- The guards and writes of `withdraw`, up to the payout. -/
theorem withdraw_effect {msg : Msg} {proof : Bytes} {merkleRoot : Bytes32}
    {nullifiers outputs : Pair} {recipient : Address} {exitValue : Uint256}
    {w : World X} {r : World X × Cont}
    (h : withdraw E proof merkleRoot nullifiers outputs recipient exitValue w = .ok r) :
    Effect E msg w (.withdraw proof merkleRoot nullifiers outputs recipient exitValue)
      r.1 [] (some r.2) := by
  unfold withdraw at h
  obtain ⟨hrun, h⟩ := (Except.unit_bind_eq_ok _ _ _).mp h
  obtain ⟨hguard, h⟩ := (Except.unit_bind_eq_ok _ _ _).mp h
  obtain ⟨hexit, h⟩ := (revertIf_bind_eq_ok _ _ _ _).mp h
  obtain ⟨-, h⟩ := (revertIf_bind_eq_ok _ _ _ _).mp h
  obtain ⟨hknown, h⟩ := (revertIf_bind_eq_ok _ _ _ _).mp h
  obtain ⟨hout, h⟩ := (Except.unit_bind_eq_ok _ _ _).mp h
  obtain ⟨hcomp, h⟩ := (Except.unit_bind_eq_ok _ _ _).mp h
  obtain ⟨hrec, h⟩ := (Except.unit_bind_eq_ok _ _ _).mp h
  obtain ⟨w₁, hspend, h⟩ := (Except.bind_eq_ok _ _ _).mp h
  obtain ⟨valid, hver, h⟩ := (Except.bind_eq_ok _ _ _).mp h
  obtain ⟨hvalid, h⟩ := (revertIf_bind_eq_ok _ _ _ _).mp h
  obtain ⟨ins1, hins1, h⟩ := (Except.bind_eq_ok _ _ _).mp h
  obtain ⟨ins2, hins2, h⟩ := (Except.bind_eq_ok _ _ _).mp h
  obtain ⟨poolBalance, hbal, h⟩ := (Except.bind_eq_ok _ _ _).mp h
  obtain ⟨hfresh, others, hrep, rfl⟩ := checkAndSpendNullifiers_eq_ok.mp hspend
  rw [orRevert_eq_ok, Bool.eq_true_of_not_eq_false hvalid] at hver
  -- both checks were made with the guard set, which they do not read
  replace hcomp : checkCompliance E w nullifiers outputs proof = .ok () :=
    (checkCompliance_congr nullifiers outputs proof rfl rfl).symm.trans hcomp
  replace hrec : checkRecipient E w recipient = .ok () :=
    (checkRecipient_congr recipient rfl rfl).symm.trans hrec
  cases h
  exact .withdraw (whenNotPaused_eq_ok.mp hrun) (nonReentrant_eq_ok.mp hguard) hexit
    (Bool.eq_true_of_not_eq_false hknown) hout hcomp hrec ⟨hfresh.1, hfresh.2, hfresh.3⟩
    hrep hver ⟨_, _, _, _, insertLeaf_eq_ok.mp hins1, insertLeaf_eq_ok.mp hins2⟩ hbal

/-- The guards and writes of `deposit`. -/
theorem deposit_effect {msg : Msg} {commitment : Bytes32} {amount : Uint256}
    {w : World X} {r : World X × List Event}
    (h : deposit E msg commitment amount w = .ok r) :
    Effect E msg w (.deposit commitment amount) r.1 r.2 none := by
  unfold deposit at h
  obtain ⟨hrun, h⟩ := (Except.unit_bind_eq_ok _ _ _).mp h
  obtain ⟨hamount, h⟩ := (revertIf_bind_eq_ok _ _ _ _).mp h
  obtain ⟨hnew, h⟩ := (revertIf_bind_eq_ok _ _ _ _).mp h
  obtain ⟨hden, h⟩ := (Except.unit_bind_eq_ok _ _ _).mp h
  obtain ⟨ins, hins, h⟩ := (Except.bind_eq_ok _ _ _).mp h
  obtain ⟨poolBalance, hbal, h⟩ := (Except.bind_eq_ok _ _ _).mp h
  rw [not_or, not_not] at hamount
  cases h
  exact .deposit (whenNotPaused_eq_ok.mp hrun) hamount.1 hamount.2
    (Bool.eq_false_of_not_eq_true hnew) (checkDenomination_eq_ok.mp hden)
    (insertLeaf_eq_ok.mp hins) hbal

/-- The guards and writes of `commitDeposit`. -/
theorem commitDeposit_effect {msg : Msg} {commitHash : Bytes32} {w : World X}
    {r : World X × List Event} (h : commitDeposit msg commitHash w = .ok r) :
    Effect E msg w (.commitDeposit commitHash) r.1 r.2 none := by
  unfold commitDeposit at h
  obtain ⟨hrun, h⟩ := (Except.unit_bind_eq_ok _ _ _).mp h
  obtain ⟨hvalue, h⟩ := (revertIf_bind_eq_ok _ _ _ _).mp h
  obtain ⟨hden, h⟩ := (Except.unit_bind_eq_ok _ _ _).mp h
  obtain ⟨hfree, h⟩ := (revertIf_bind_eq_ok _ _ _ _).mp h
  rw [not_not] at hfree
  cases h
  exact .commitDeposit (whenNotPaused_eq_ok.mp hrun) hvalue
    (checkDenomination_eq_ok.mp hden) hfree

/-- The guards and writes of `revealDeposit`. -/
theorem revealDeposit_effect {msg : Msg} {commitment salt : Bytes32} {w : World X}
    {r : World X × List Event} (h : revealDeposit E msg commitment salt w = .ok r) :
    Effect E msg w (.revealDeposit commitment salt) r.1 r.2 none := by
  unfold revealDeposit at h
  obtain ⟨hrun, h⟩ := (Except.unit_bind_eq_ok _ _ _).mp h
  obtain ⟨hdep, h⟩ := (revertIf_bind_eq_ok _ _ _ _).mp h
  obtain ⟨hrev, h⟩ := (revertIf_bind_eq_ok _ _ _ _).mp h
  obtain ⟨hearly, h⟩ := (revertIf_bind_eq_ok _ _ _ _).mp h
  obtain ⟨hlate, h⟩ := (revertIf_bind_eq_ok _ _ _ _).mp h
  obtain ⟨hnew, h⟩ := (revertIf_bind_eq_ok _ _ _ _).mp h
  obtain ⟨ins, hins, h⟩ := (Except.bind_eq_ok _ _ _).mp h
  obtain ⟨poolBalance, hbal, h⟩ := (Except.bind_eq_ok _ _ _).mp h
  rw [not_not] at hdep
  cases h
  exact .revealDeposit (whenNotPaused_eq_ok.mp hrun) rfl hdep
    (Bool.eq_false_of_not_eq_true hrev) (not_lt.mp hearly) (not_lt.mp hlate)
    (Bool.eq_false_of_not_eq_true hnew) (insertLeaf_eq_ok.mp hins) hbal

/-- The guards and writes of `reclaimExpiredCommit`, up to the refund. -/
theorem reclaimExpiredCommit_effect {msg : Msg} {commitHash : Bytes32} {w : World X}
    {r : World X × List Event × Cont}
    (h : reclaimExpiredCommit msg commitHash w = .ok r) :
    Effect E msg w (.reclaimExpiredCommit commitHash) r.1 r.2.1 (some r.2.2) := by
  unfold reclaimExpiredCommit at h
  obtain ⟨hguard, h⟩ := (Except.unit_bind_eq_ok _ _ _).mp h
  obtain ⟨hdep, h⟩ := (revertIf_bind_eq_ok _ _ _ _).mp h
  obtain ⟨hrev, h⟩ := (revertIf_bind_eq_ok _ _ _ _).mp h
  obtain ⟨hexp, h⟩ := (revertIf_bind_eq_ok _ _ _ _).mp h
  rw [not_not] at hdep
  cases h
  exact .reclaimExpiredCommit (nonReentrant_eq_ok.mp hguard) rfl hdep
    (Bool.eq_false_of_not_eq_true hrev) (not_le.mp hexp)

/-- The entry points that only governance may call. -/
theorem governed_effect {msg : Msg} {pool pool' pool'' : Storage}
    (h : (do onlyGovernance msg pool; Except.ok pool') = Except.ok pool'') :
    msg.sender = pool.governance ∧ pool'' = pool' := by
  obtain ⟨hauth, h⟩ := (Except.unit_bind_eq_ok _ _ _).mp h
  cases h
  exact ⟨onlyGovernance_eq_ok.mp hauth, rfl⟩

theorem pause_effect {msg : Msg} {reason : String} {w : World X}
    {r : Storage × List Event} (h : pause msg reason w.block w.pool = .ok r) :
    Effect E msg w (.pause reason) (w.withPool r.1) r.2 none := by
  unfold pause at h
  obtain ⟨hauth, h⟩ := (revertIf_bind_eq_ok _ _ _ _).mp h
  obtain ⟨hrun, h⟩ := (revertIf_bind_eq_ok _ _ _ _).mp h
  cases h
  refine .pause ?_ (Bool.eq_false_of_not_eq_true hrun)
  rwa [not_and_or, not_not, not_not] at hauth

theorem unpause_effect {msg : Msg} {w : World X} {r : Storage × List Event}
    (h : unpause msg w.block w.pool = .ok r) :
    Effect E msg w .unpause (w.withPool r.1) r.2 none := by
  unfold unpause at h
  obtain ⟨hpaused, h⟩ := (revertIf_bind_eq_ok _ _ _ _).mp h
  obtain ⟨hauth, h⟩ := (revertIf_bind_eq_ok _ _ _ _).mp h
  cases h
  refine .unpause (Bool.eq_true_of_not_eq_false hpaused) ?_
  rwa [not_and_or, not_not, not_lt] at hauth

theorem setGuardian_effect {msg : Msg} {a : Address} {w : World X}
    {r : Storage × List Event} (h : setGuardian msg a w.pool = .ok r) :
    Effect E msg w (.setGuardian a) (w.withPool r.1) r.2 none := by
  unfold setGuardian at h
  obtain ⟨hauth, h⟩ := (revertIf_bind_eq_ok _ _ _ _).mp h
  rw [not_not] at hauth
  cases h
  exact .setGuardian hauth

/-- **What a successful call did.** -/
theorem enter_effect {c : Call} {w w' : World X} {evs : List Event}
    {k : Option Cont} (h : enter E c w = .ok (w', evs, k)) :
    (c.entry.payable = false → c.msg.value = 0) ∧
      Effect E c.msg (credit c.msg w) c.entry w' evs k := by
  obtain ⟨msg, entry⟩ := c
  unfold enter at h
  obtain ⟨hpay, h⟩ := (revertIf_bind_eq_ok _ _ _ _).mp h
  refine ⟨fun hnp => by_contra (fun hv => hpay ⟨hnp, hv⟩), ?_⟩
  unfold body at h
  cases entry <;> dsimp only at h ⊢
  case commitDeposit =>
    obtain ⟨r, hr, h⟩ := (Except.bind_eq_ok _ _ _).mp h
    cases h
    exact commitDeposit_effect hr
  case revealDeposit =>
    obtain ⟨r, hr, h⟩ := (Except.bind_eq_ok _ _ _).mp h
    cases h
    exact revealDeposit_effect hr
  case reclaimExpiredCommit =>
    obtain ⟨r, hr, h⟩ := (Except.bind_eq_ok _ _ _).mp h
    cases h
    exact reclaimExpiredCommit_effect hr
  case deposit =>
    obtain ⟨r, hr, h⟩ := (Except.bind_eq_ok _ _ _).mp h
    cases h
    exact deposit_effect hr
  case transfer =>
    obtain ⟨r, hr, h⟩ := (Except.bind_eq_ok _ _ _).mp h
    cases h
    exact transfer_effect hr
  case withdraw =>
    obtain ⟨r, hr, h⟩ := (Except.bind_eq_ok _ _ _).mp h
    cases h
    exact withdraw_effect hr
  case pause =>
    obtain ⟨r, hr, h⟩ := (Except.bind_eq_ok _ _ _).mp h
    cases h
    exact pause_effect hr
  case unpause =>
    obtain ⟨r, hr, h⟩ := (Except.bind_eq_ok _ _ _).mp h
    cases h
    exact unpause_effect hr
  case setGuardian =>
    obtain ⟨r, hr, h⟩ := (Except.bind_eq_ok _ _ _).mp h
    cases h
    exact setGuardian_effect hr
  all_goals
    obtain ⟨pool, hr, h⟩ := (Except.bind_eq_ok _ _ _).mp h
    cases h
    obtain ⟨hauth, rfl⟩ := governed_effect hr
  case setEpochManager => exact .setEpochManager hauth
  case setGovernance => exact .setGovernance hauth
  case setComplianceOracle => exact .setComplianceOracle hauth
  case enableFixedDenominations => exact .enableFixedDenominations hauth
  case disableFixedDenominations => exact .disableFixedDenominations hauth

/-- **What the rest of an entry point did**: the guard is released, and
nothing else changed. -/
theorem resume_eq_ok {k : Cont} {success : Bool} {w w' : World X}
    {evs : List Event} (h : resume k success w = .ok (w', evs)) :
    success = true ∧ w' = w.withPool { w.pool with status := .notEntered } := by
  unfold resume at h
  obtain ⟨hs, h⟩ := (revertIf_bind_eq_ok _ _ _ _).mp h
  refine ⟨Bool.eq_true_of_not_eq_false hs, ?_⟩
  cases k <;> (cases h; rfl)

/-- **What the sending did**: the balance covered the value and went down
by it. -/
theorem send_eq_some {k : Cont} {w w' : World X} (h : send k w = some w') :
    k.value.toNat ≤ w.balance
      ∧ w' = { w with balance := w.balance - k.value.toNat } := by
  unfold send at h
  split at h
  · rename_i hle
    exact ⟨hle, (Option.some.inj h).symm⟩
  · cases h

end PrivacyPool
