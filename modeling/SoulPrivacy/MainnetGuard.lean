import SoulPrivacy.PalletSolvency

/-!
# The mainnet guard of the pallet

As long as `TESTNET_ONLY` is set the verifier only checks formats and a tag that
anyone can compute, and a guard is to keep it from moving value on a main network.
The guard stands in `verify_transfer` alone. It does what it is there for: no
transfer ever succeeds under a guarded id. But `verify_withdraw` asks for no chain id
at all, and a withdrawal goes through wherever it would on a test network
(`guarded_iff`).
-/

namespace PrivacyPoolPallet

open PalletVerifier

variable {AccountId L : Type}

/-! ## Extrinsics that may fail -/

variable (R : Runtime AccountId L)

/-- What an action leaves: an extrinsic that fails leaves the world as it was. -/
def attempt (a : Action AccountId L) (w : World L) : World L :=
  match step R a w with
  | .ok w' => w'
  | .error _ => w

/-- **The actions of a sequence**, each with the world it finds. -/
def attempted (w : World L) : List (Action AccountId L) → List (World L × Action AccountId L)
  | [] => []
  | a :: rest => (w, a) :: attempted (attempt R a w) rest

/-- Every world that is found is one that a run leads to. -/
theorem exists_run_of_mem_attempted {w : World L} {actions : List (Action AccountId L)}
    {p : World L × Action AccountId L} (h : p ∈ attempted R w actions) :
    ∃ tr, Run (step R) (fun _ _ => True) w tr p.1 := by
  suffices hfrom : ∀ w₀ tr, Run (step R) (fun _ _ => True) w₀ tr w →
      ∃ tr', Run (step R) (fun _ _ => True) w₀ tr' p.1 from hfrom w [] Run.nil
  intro w₀
  induction actions generalizing w with
  | nil => exact absurd h List.not_mem_nil
  | cons a rest ih =>
    intro tr hrun
    rcases List.mem_cons.mp h with rfl | h
    · exact ⟨tr, hrun⟩
    · unfold attempt at h
      split at h
      · rename_i w' hstep
        exact ih h _ (hrun.snoc trivial hstep)
      · exact ih h tr hrun

/-! ## The guard -/

/-- Transfers and withdrawals. -/
def Action.IsSpend : Action AccountId L → Prop
  | .call ⟨_, _, .transfer _ _ _ _⟩ => True
  | .call ⟨_, _, .withdraw _ _ _ _ _ _⟩ => True
  | _ => False

/-- **Nothing leaves the pool**: no transfer and no withdrawal succeeds, and no other
action lowers the recorded balance. -/
def Guarded (steps : List (World L × Action AccountId L)) : Prop :=
  ∀ p ∈ steps, ∀ w', step R p.2 p.1 = .ok w' →
    ¬ p.2.IsSpend ∧ p.1.pallet.poolBalance ≤ w'.pallet.poolBalance

/-- **A withdrawal that passes**: it is signed, the state covers it, its public inputs
are well-formed, and the proof carries their tag. -/
def Passes (w : World L) : Action AccountId L → Prop
  | .call ⟨.signed _, _, .withdraw proof merkleRoot nullifiers outputs recipient exitValue⟩ =>
    let c : WithdrawCall AccountId := ⟨merkleRoot, nullifiers, outputs, recipient, exitValue⟩
    Covers R w c ∧ c.inputs.WellFormed
      ∧ Bound R.blake2_256 proof (encodeWithdrawInputs c.inputs)
  | _ => False

variable {R}

theorem le_saturatingAdd (a b : BitVec 128) : a ≤ saturatingAdd a b := by
  unfold saturatingAdd
  split
  · rename_i hlt
    rw [BitVec.le_def, BitVec.toNat_add, Nat.mod_eq_of_lt hlt]
    exact Nat.le_add_right _ _
  · rw [BitVec.le_def, BitVec.toNat_allOnes]
    exact Nat.le_pred_of_lt a.isLt

/-- **No transfer is accepted under a guarded id.** -/
theorem verifyTransfer_guarded (hmainnet : isMainnetChain R.paraId = true)
    {proof : Bytes} {merkleRoot : H256} {nullifiers outputs : H256 × H256}
    {appId : BitVec 32} :
    verifyTransfer R.blake2_256 proof ⟨merkleRoot, nullifiers, outputs, R.paraId, appId⟩
      ≠ true := by
  intro hverified
  have htestnet := (verifyTransfer_iff.mp hverified).1.testnet
  exact absurd hmainnet (Bool.eq_false_iff.mp htestnet)

/-- What passes succeeds. -/
theorem Passes.succeeds {w : World L} {a : Action AccountId L} (h : Passes R w a) :
    a.IsSpend ∧ ∃ w', step R a w = .ok w' := by
  unfold Passes at h
  split at h
  · rename_i who blockNumber proof merkleRoot nullifiers outputs recipient exitValue
    obtain ⟨hcovers, hwf, hbound⟩ := h
    obtain ⟨r, hr⟩ := withdraw_isOk.mpr
      ⟨⟨who, rfl⟩, hcovers, verifyWithdraw_iff.mpr ⟨hwf, hbound⟩⟩
    exact ⟨trivial, r.1, congrArg (Except.map Prod.fst) hr⟩
  · exact h.elim

/-- **Nothing else takes value out**, under a guarded id. -/
theorem guarded_step (hmainnet : isMainnetChain R.paraId = true) {w w' : World L}
    {a : Action AccountId L} (hpasses : ¬ Passes R w a) (hstep : step R a w = .ok w') :
    ¬ a.IsSpend ∧ w.pallet.poolBalance ≤ w'.pallet.poolBalance := by
  cases a with
  | ledger l =>
    cases hstep
    exact ⟨not_false, BitVec.le_refl _⟩
  | call c =>
    cases step_effect hstep with
    | deposit => exact ⟨not_false, le_saturatingAdd _ _⟩
    | transfer _ _ verified => exact absurd verified (verifyTransfer_guarded hmainnet)
    | withdraw _ balance known spendable verified room history paid =>
      have hverified := verifyWithdraw_iff.mp verified
      exact absurd ⟨⟨balance, known, spendable, room, history, _, paid⟩, hverified⟩ hpasses
    | finalizeEpoch => exact ⟨not_false, BitVec.le_refl _⟩
    | syncEpochRoot => exact ⟨not_false, BitVec.le_refl _⟩

/-- The id plays no part in the tree, -/
theorem inserted_paraId (paraId : BitVec 32) (leaf : H256) (s : Storage) :
    inserted { R with paraId := paraId } leaf s = inserted R leaf s := by
  have hzero : zeroHash { R with paraId := paraId } = zeroHash R := by
    funext level
    induction level with
    | zero => rfl
    | succ level ih => rw [zeroHash, ih, zeroHash]
  have hstep : insertStep { R with paraId := paraId } = insertStep R := by
    funext st level
    rw [insertStep, hzero, insertStep]
  rw [inserted, hstep, inserted]

/-- … and none in a deposit, -/
theorem deposit_paraId (paraId : BitVec 32) (origin : Origin AccountId) (commitment : H256)
    (amount : BitVec 128) (w : World L) :
    deposit { R with paraId := paraId } origin commitment amount w
      = deposit R origin commitment amount w := by
  unfold deposit insertLeaf
  simp only [inserted_paraId]
  rfl

/-- … nor in a withdrawal. -/
theorem withdraw_paraId (paraId : BitVec 32) (origin : Origin AccountId) (proof : Bytes)
    (merkleRoot : H256) (nullifiers outputs : H256 × H256) (recipient : AccountId)
    (exitValue : BitVec 128) (w : World L) :
    withdraw { R with paraId := paraId } origin proof merkleRoot nullifiers outputs recipient
        exitValue w
      = withdraw R origin proof merkleRoot nullifiers outputs recipient exitValue w := by
  unfold withdraw insertLeaf
  simp only [inserted_paraId]
  rfl

/-- The runtime of a parachain with a guarded id. -/
def mainnetRuntime (blake2_256 : Bytes → H256) : Runtime ℕ (ℕ → ℕ) :=
  { smallRuntime blake2_256 with paraId := 1284 }

theorem isMainnetChain_mainnetRuntime (blake2_256 : Bytes → H256) :
    isMainnetChain (mainnetRuntime blake2_256).paraId = true := rfl

/-- A withdrawal of 95 of the hundred that were deposited. -/
def takeNinetyFive (blake2_256 : Bytes → H256) (origin : Origin ℕ) : Action ℕ (ℕ → ℕ) :=
  .call ⟨origin, 2, .withdraw (proofNinetyFive blake2_256) withdrawNinetyFive.merkleRoot
    withdrawNinetyFive.nullifiers withdrawNinetyFive.outputCommitments
    withdrawNinetyFive.recipient withdrawNinetyFive.exitValue⟩

/-- What succeeds leaves its world. -/
theorem attempt_of_step {a : Action AccountId L} {w w' : World L} (h : step R a w = .ok w') :
    attempt R a w = w' := by
  rw [attempt, h]

/-- **A deposit and a withdrawal with a proof that its sender made**, on a main
network and whatever the hash. -/
theorem exists_withdrawal (blake2_256 : Bytes → H256) :
    ∃ actions, ∃ p ∈ attempted (mainnetRuntime blake2_256)
        ⟨genesis (mainnetRuntime blake2_256), firstBalances⟩ actions,
      p.2.IsSpend ∧ ∃ w', step (mainnetRuntime blake2_256) p.2 p.1 = .ok w' := by
  obtain ⟨origin, r, hwithdraw⟩ := accepts_withdrawNinetyFive blake2_256
  have hdeposit : step (mainnetRuntime blake2_256) (.call depositHundred)
      ⟨genesis (mainnetRuntime blake2_256), firstBalances⟩ = .ok (afterDeposit blake2_256) := by
    rw [← step_depositHundred blake2_256]
    exact congrArg (Except.map Prod.fst)
      (deposit_paraId (R := smallRuntime blake2_256) 1284 (.signed 1) 7 100
        ⟨genesis (smallRuntime blake2_256), firstBalances⟩)
  have hstep : step (mainnetRuntime blake2_256) (takeNinetyFive blake2_256 origin)
      (afterDeposit blake2_256) = .ok r.1 :=
    congrArg (Except.map Prod.fst)
      ((withdraw_paraId (R := smallRuntime blake2_256) 1284 ..).trans hwithdraw)
  refine ⟨[.call depositHundred, takeNinetyFive blake2_256 origin],
    (afterDeposit blake2_256, takeNinetyFive blake2_256 origin), ?_, trivial, r.1, hstep⟩
  rw [attempted, attempted, attempt_of_step hdeposit]
  exact List.mem_cons_of_mem _ List.mem_cons_self

end PrivacyPoolPallet
