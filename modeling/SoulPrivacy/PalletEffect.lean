import SoulPrivacy.PrivacyPoolPallet

/-!
# What a successful extrinsic of the pallet did

`Effect` lists, extrinsic by extrinsic, what one that did not fail says: the
checks that passed, and the world it left. `exec_effect` is the inversion of
the extrinsics, and what is proved about the runs of the pallet is proved by
cases on the effect.
-/

namespace PrivacyPoolPallet

open PalletVerifier

variable {AccountId L : Type} {R : Runtime AccountId L}

/-! ## What the parts of an extrinsic do -/

theorem ensureSigned_eq_ok {origin : Origin AccountId} {who : AccountId} :
    ensureSigned origin = .ok who ↔ origin = .signed who := by
  cases origin with
  | root => exact ⟨nofun, nofun⟩
  | none => exact ⟨nofun, nofun⟩
  | signed a =>
    constructor
    · intro h
      cases h
      rfl
    · intro h
      cases h
      rfl

theorem insertLeaf_eq_ok {leaf : H256} {s : Storage} {r : ℕ × Storage} :
    insertLeaf R leaf s = .ok r ↔
      s.nextLeafIndex < maxLeaves R ∧ R.rootHistorySize ≠ 0
        ∧ (s.nextLeafIndex, inserted R leaf s) = r := by
  unfold insertLeaf
  rw [revertIf_bind_eq_ok, revertIf_bind_eq_ok, not_le]
  refine and_congr_right (fun _ => and_congr_right (fun _ => ?_))
  exact ⟨Except.ok.inj, congrArg _⟩

/-- The latest root is the one just computed. -/
theorem getLatestRoot_inserted (leaf : H256) (s : Storage) :
    getLatestRoot (inserted R leaf s)
      = ((List.range R.treeDepth).foldl (insertStep R)
          ⟨s.nextLeafIndex, leaf, s.filledSubtrees⟩).currentHash :=
  Function.update_self ..

/-- The storage with one more nullifier spent. -/
def spentOne (s : Storage) (nullifier : H256) : Storage :=
  { s with
    nullifierSpent := Function.update s.nullifierSpent nullifier true
    epochNullifiers := Function.update s.epochNullifiers s.currentEpochId
      (s.epochNullifiers s.currentEpochId ++ [nullifier]) }

theorem checkAndSpendNullifier_eq_ok {s s' : Storage} {nullifier : H256} :
    checkAndSpendNullifier R s nullifier = .ok s' ↔
      s.nullifierSpent nullifier = false
        ∧ (s.epochNullifiers s.currentEpochId).length < R.maxNullifiersPerEpoch
        ∧ spentOne s nullifier = s' := by
  unfold checkAndSpendNullifier
  rw [revertIf_bind_eq_ok, revertIf_bind_eq_ok, not_le, Bool.not_eq_true]
  refine and_congr_right (fun _ => and_congr_right (fun _ => ?_))
  exact ⟨Except.ok.inj, congrArg _⟩

/-- **Two nullifiers that can be spent**: they are new and differ, and the
epoch has room for both. -/
structure Spendable (R : Runtime AccountId L) (s : Storage) (nullifiers : H256 × H256) :
    Prop where
  fst : s.nullifierSpent nullifiers.1 = false
  snd : s.nullifierSpent nullifiers.2 = false
  ne : nullifiers.1 ≠ nullifiers.2
  room : (s.epochNullifiers s.currentEpochId).length + 1 < R.maxNullifiersPerEpoch

/-- … and the storage after they were. -/
def spentTwo (s : Storage) (nullifiers : H256 × H256) : Storage :=
  spentOne (spentOne s nullifiers.1) nullifiers.2

theorem checkAndSpendNullifiers_eq_ok {nullifiers : H256 × H256} {s s' : Storage} :
    checkAndSpendNullifiers R nullifiers s = .ok s' ↔
      Spendable R s nullifiers ∧ spentTwo s nullifiers = s' := by
  have hlist : ((spentOne s nullifiers.1).epochNullifiers
      (spentOne s nullifiers.1).currentEpochId).length
        = (s.epochNullifiers s.currentEpochId).length + 1 := by
    unfold spentOne
    dsimp only
    rw [Function.update_self, List.length_append, List.length_singleton]
  have hspent : (spentOne s nullifiers.1).nullifierSpent nullifiers.2 = false ↔
      s.nullifierSpent nullifiers.2 = false ∧ nullifiers.1 ≠ nullifiers.2 := by
    rw [← Bool.not_eq_true, ← Bool.not_eq_true, spentOne, update_true_eq_true, not_or,
      ne_comm]
  unfold checkAndSpendNullifiers
  simp only [Except.bind_eq_ok, checkAndSpendNullifier_eq_ok]
  constructor
  · rintro ⟨_, ⟨h₁, -, rfl⟩, h₂, hroom, hs⟩
    obtain ⟨h₂, hne⟩ := hspent.mp h₂
    exact ⟨⟨h₁, h₂, hne, by rwa [hlist] at hroom⟩, hs⟩
  · rintro ⟨⟨h₁, h₂, hne, hroom⟩, hs⟩
    exact ⟨_, ⟨h₁, Nat.lt_of_succ_lt hroom, rfl⟩, hspent.mpr ⟨h₂, hne⟩, by rwa [hlist], hs⟩

/-- **The latest root is known.** -/
theorem isKnownRoot_getLatestRoot {s : Storage} (hsize : R.rootHistorySize ≠ 0)
    (hroot : getLatestRoot s ≠ 0) : isKnownRoot R s (getLatestRoot s) = true := by
  obtain ⟨n, hn⟩ := Nat.exists_eq_succ_of_ne_zero hsize
  unfold isKnownRoot
  rw [if_neg hroot, hn]
  exact if_pos rfl

/-- **What a deposit needs and does.** -/
theorem deposit_eq_ok {origin : Origin AccountId} {commitment : H256}
    {amount : BitVec 128} {w : World L} {r : World L × List (Event AccountId)} :
    deposit R origin commitment amount w = .ok r ↔
      ∃ who ledger, origin = .signed who ∧ amount ≠ 0
        ∧ w.pallet.commitmentExists commitment ≠ true
        ∧ R.transferCurrency who R.poolAccount amount .keepAlive w.ledger = some ledger
        ∧ w.pallet.nextLeafIndex < maxLeaves R ∧ R.rootHistorySize ≠ 0
        ∧ (⟨{ inserted R commitment { w.pallet with
              commitmentExists :=
                Function.update w.pallet.commitmentExists commitment true } with
            poolBalance := saturatingAdd w.pallet.poolBalance amount }, ledger⟩,
          [.deposited commitment w.pallet.nextLeafIndex amount]) = r := by
  unfold deposit
  simp only [Except.bind_eq_ok, revertIf_eq_ok, orRevert_eq_ok, ensureSigned_eq_ok,
    insertLeaf_eq_ok]
  constructor
  · rintro ⟨who, hwho, -, hamount, -, hnew, ledger, hpaid, _, ⟨hroom, hsize, rfl⟩, hr⟩
    exact ⟨who, ledger, hwho, hamount, hnew, hpaid, hroom, hsize, Except.ok.inj hr⟩
  · rintro ⟨who, ledger, hwho, hamount, hnew, hpaid, hroom, hsize, hr⟩
    exact ⟨who, hwho, (), hamount, (), hnew, ledger, hpaid, _, ⟨hroom, hsize, rfl⟩,
      congrArg _ hr⟩

/-! ## The effect of an extrinsic -/

/-- The storage after the two outputs were inserted. -/
def insertedTwo (R : Runtime AccountId L) (outputs : H256 × H256) (s : Storage) : Storage :=
  inserted R outputs.2 (inserted R outputs.1 s)

/-- The epoch after it was finalized. -/
def closedEpoch (R : Runtime AccountId L) (epoch : EpochInfo) (nullifiers : List H256)
    (blockNumber : ℕ) : EpochInfo :=
  { epoch with
    nullifierRoot := computeNullifierRoot R.poseidonHash nullifiers
    nullifierCount := nullifiers.length
    endBlock := some blockNumber
    finalized := true }

/-- An epoch that was just started. -/
def openEpoch (blockNumber : ℕ) : EpochInfo := ⟨blockNumber, none, 0, 0, false⟩

/-- **What a successful extrinsic did.** -/
inductive Effect (R : Runtime AccountId L) (w : World L) :
    Call AccountId → World L → Prop
  | deposit {who : AccountId} {blockNumber : ℕ} {commitment : H256} {amount : BitVec 128}
      {ledger : L} (amount_ne : amount ≠ 0)
      (fresh : w.pallet.commitmentExists commitment ≠ true)
      (paid : R.transferCurrency who R.poolAccount amount .keepAlive w.ledger = some ledger)
      (room : w.pallet.nextLeafIndex < maxLeaves R) (history : R.rootHistorySize ≠ 0) :
      Effect R w ⟨.signed who, blockNumber, .deposit commitment amount⟩
        ⟨{ inserted R commitment { w.pallet with
            commitmentExists :=
              Function.update w.pallet.commitmentExists commitment true } with
          poolBalance := saturatingAdd w.pallet.poolBalance amount }, ledger⟩
  | transfer {who : AccountId} {blockNumber : ℕ} {proof : Bytes} {merkleRoot : H256}
      {nullifiers outputs : H256 × H256} (known : isKnownRoot R w.pallet merkleRoot = true)
      (spendable : Spendable R w.pallet nullifiers)
      (verified : verifyTransfer R.blake2_256 proof
        ⟨merkleRoot, nullifiers, outputs, R.paraId, R.appId⟩ = true)
      (room : w.pallet.nextLeafIndex + 1 < maxLeaves R) (history : R.rootHistorySize ≠ 0) :
      Effect R w ⟨.signed who, blockNumber, .transfer proof merkleRoot nullifiers outputs⟩
        ⟨insertedTwo R outputs (spentTwo w.pallet nullifiers), w.ledger⟩
  | withdraw {who : AccountId} {blockNumber : ℕ} {proof : Bytes} {merkleRoot : H256}
      {nullifiers outputs : H256 × H256} {recipient : AccountId} {exitValue : BitVec 128}
      {ledger : L} (exit_ne : exitValue ≠ 0) (balance : exitValue ≤ w.pallet.poolBalance)
      (known : isKnownRoot R w.pallet merkleRoot = true)
      (spendable : Spendable R w.pallet nullifiers)
      (verified : verifyWithdraw R.blake2_256 proof
        ⟨merkleRoot, nullifiers, outputs, exitValue⟩ = true)
      (room : w.pallet.nextLeafIndex + 1 < maxLeaves R) (history : R.rootHistorySize ≠ 0)
      (paid : R.transferCurrency R.poolAccount recipient exitValue .allowDeath w.ledger
        = some ledger) :
      Effect R w ⟨.signed who, blockNumber,
          .withdraw proof merkleRoot nullifiers outputs recipient exitValue⟩
        ⟨{ insertedTwo R outputs (spentTwo w.pallet nullifiers) with
          poolBalance := saturatingSub w.pallet.poolBalance exitValue }, ledger⟩
  | finalizeEpoch {blockNumber : ℕ} {epoch : EpochInfo}
      (current : w.pallet.epochs w.pallet.currentEpochId = some epoch)
      (running : epoch.finalized = false) :
      Effect R w ⟨.root, blockNumber, .finalizeEpoch⟩
        { w with pallet := { w.pallet with
          epochs := Function.update
            (Function.update w.pallet.epochs w.pallet.currentEpochId
              (some (closedEpoch R epoch (w.pallet.epochNullifiers w.pallet.currentEpochId)
                blockNumber)))
            (w.pallet.currentEpochId + 1) (some (openEpoch blockNumber))
          currentEpochId := w.pallet.currentEpochId + 1 } }
  | syncEpochRoot {blockNumber : ℕ} {sourceParaId : BitVec 32} {epochId : ℕ}
      {nullifierRoot : H256} (root_ne : nullifierRoot ≠ 0) :
      Effect R w ⟨.root, blockNumber, .syncEpochRoot sourceParaId epochId nullifierRoot⟩
        { w with pallet := { w.pallet with
          remoteEpochRoots := Function.update w.pallet.remoteEpochRoots sourceParaId
            (Function.update (w.pallet.remoteEpochRoots sourceParaId) epochId
              (some nullifierRoot)) } }

theorem ensureRoot_eq_ok {origin : Origin AccountId} {u : Unit} :
    ensureRoot origin = .ok u ↔ origin = .root := by
  cases origin with
  | root => exact ⟨fun _ => rfl, fun _ => rfl⟩
  | signed a => exact ⟨nofun, nofun⟩
  | none => exact ⟨nofun, nofun⟩

/-- **The inversion of the extrinsics.** -/
theorem exec_effect {c : Call AccountId} {w w' : World L} {events : List (Event AccountId)}
    (h : exec R c w = .ok (w', events)) : Effect R w c w' := by
  obtain ⟨origin, blockNumber, extrinsic⟩ := c
  cases extrinsic with
  | deposit commitment amount =>
    obtain ⟨who, ledger, rfl, hamount, hnew, hpaid, hroom, hsize, hw⟩ := deposit_eq_ok.mp h
    cases hw
    exact .deposit hamount hnew hpaid hroom hsize
  | transfer proof merkleRoot nullifiers outputs =>
    change transfer R origin proof merkleRoot nullifiers outputs w = _ at h
    unfold transfer at h
    simp only [Except.bind_eq_ok, revertIf_eq_ok, ensureSigned_eq_ok,
      checkAndSpendNullifiers_eq_ok, insertLeaf_eq_ok, Bool.not_eq_false] at h
    obtain ⟨who, rfl, -, hknown, _, ⟨hspendable, rfl⟩, -, hverify, _, ⟨-, hsize, rfl⟩, _,
      ⟨hroom, -, rfl⟩, hw⟩ := h
    cases hw
    exact .transfer hknown hspendable hverify hroom hsize
  | withdraw proof merkleRoot nullifiers outputs recipient exitValue =>
    change withdraw R origin proof merkleRoot nullifiers outputs recipient exitValue w = _
      at h
    unfold withdraw at h
    simp only [Except.bind_eq_ok, revertIf_eq_ok, orRevert_eq_ok, ensureSigned_eq_ok,
      checkAndSpendNullifiers_eq_ok, insertLeaf_eq_ok, Bool.not_eq_false,
      BitVec.not_lt] at h
    obtain ⟨who, rfl, -, hexit, -, hbalance, -, hknown, _, ⟨hspendable, rfl⟩, -, hverify,
      _, ⟨-, hsize, rfl⟩, _, ⟨hroom, -, rfl⟩, ledger, hpaid, hw⟩ := h
    cases hw
    exact .withdraw hexit hbalance hknown hspendable hverify hroom hsize hpaid
  | finalizeEpoch =>
    change finalizeEpoch R origin blockNumber w = _ at h
    unfold finalizeEpoch at h
    simp only [Except.bind_eq_ok, revertIf_eq_ok, orRevert_eq_ok, ensureRoot_eq_ok] at h
    obtain ⟨-, rfl, epoch, hepoch, -, hrunning, hw⟩ := h
    cases hw
    exact .finalizeEpoch hepoch (Bool.not_eq_true _ ▸ hrunning)
  | syncEpochRoot sourceParaId epochId nullifierRoot =>
    change syncEpochRoot origin sourceParaId epochId nullifierRoot w = _ at h
    unfold syncEpochRoot at h
    simp only [Except.bind_eq_ok, revertIf_eq_ok, ensureRoot_eq_ok] at h
    obtain ⟨-, rfl, -, hroot, hw⟩ := h
    cases hw
    exact .syncEpochRoot hroot

/-- **What a step of the machine did.** -/
theorem step_effect {c : Call AccountId} {w w' : World L}
    (h : step R (.call c) w = .ok w') : Effect R w c w' := by
  obtain ⟨⟨w'', events⟩, hexec, rfl⟩ := Except.map_eq_ok.mp h
  exact exec_effect hexec

end PrivacyPoolPallet
