import SoulPrivacy.PoseidonAgreement
import SoulPrivacy.WithdrawBinding

/-!
# Solvency of the pallet

The pallet records what it owes in `PoolBalance`, and keeps the money in an
account of the currency. A withdrawal may kill that account: the currency
takes away what is left there when it is less than the existential deposit,
and the record does not change with it.

So the account covers the record as long as no withdrawal leaves a remainder
that is too small, other than when nothing is left to cover
(`solvent_of_run`), and the first withdrawal that does breaks it
(`solvent_withdraw_iff`). Neither the amounts nor the recipients matter
otherwise.
-/

namespace PrivacyPoolPallet

open PalletVerifier

variable {AccountId L : Type}

/-- **What the pallet relies on of the currency**, for the free balances and
an existential deposit. -/
structure CurrencyLaws
    (transferCurrency : AccountId → AccountId → BitVec 128 → ExistenceRequirement → L → Option L)
    (free : L → AccountId → ℕ) (existentialDeposit : ℕ) : Prop where
  /-- An account that pays itself is left as it is. -/
  self {a : AccountId} {value : BitVec 128} {existence : ExistenceRequirement} {l l' : L} :
    transferCurrency a a value existence l = some l' → free l' a = free l a
  /-- The destination gets the value. -/
  destination {a b : AccountId} {value : BitVec 128} {existence : ExistenceRequirement}
    {l l' : L} : a ≠ b → transferCurrency a b value existence l = some l' →
      free l' b = free l b + value.toNat
  /-- A sender that may be killed and has too little left has nothing left. -/
  source {a b : AccountId} {value : BitVec 128} {l l' : L} : value ≠ 0 → a ≠ b →
    transferCurrency a b value .allowDeath l = some l' →
      free l' a = if free l a - value.toNat < existentialDeposit then 0
        else free l a - value.toNat

section Runs

variable {R : Runtime AccountId L} {free : L → AccountId → ℕ} {existentialDeposit : ℕ}

/-- **The account of the pool covers what it records.** -/
def Solvent (R : Runtime AccountId L) (free : L → AccountId → ℕ) (w : World L) : Prop :=
  w.pallet.poolBalance.toNat ≤ free w.ledger R.poolAccount

/-- **What may be left of the account**: as much as keeps it alive, unless
nothing is recorded any more, or the payment goes to the account itself. -/
def LeavesEnough (R : Runtime AccountId L) (free : L → AccountId → ℕ)
    (existentialDeposit : ℕ) (w : World L) (recipient : AccountId) (exitValue : BitVec 128) :
    Prop :=
  recipient = R.poolAccount ∨ exitValue = w.pallet.poolBalance
    ∨ existentialDeposit ≤ free w.ledger R.poolAccount - exitValue.toNat

/-- **The actions that keep the account covered.** The account of the pool
does not deposit into it, and others do not take from it. -/
def KeepsReserve (R : Runtime AccountId L) (free : L → AccountId → ℕ)
    (existentialDeposit : ℕ) (w : World L) : Action AccountId L → Prop
  | .call ⟨origin, _, .deposit _ _⟩ => origin ≠ .signed R.poolAccount
  | .call ⟨_, _, .withdraw _ _ _ _ recipient exitValue⟩ =>
    LeavesEnough R free existentialDeposit w recipient exitValue
  | .call ⟨_, _, .transfer _ _ _ _⟩ => True
  | .call ⟨_, _, .finalizeEpoch⟩ => True
  | .call ⟨_, _, .syncEpochRoot _ _ _⟩ => True
  | .ledger l => free w.ledger R.poolAccount ≤ free l R.poolAccount

theorem toNat_saturatingAdd_le (a b : BitVec 128) :
    (saturatingAdd a b).toNat ≤ a.toNat + b.toNat := by
  unfold saturatingAdd
  split
  · rw [BitVec.toNat_add]
    exact Nat.mod_le _ _
  · rename_i hlt
    exact (BitVec.isLt _).le.trans (not_lt.mp hlt)

theorem toNat_saturatingSub {a b : BitVec 128} (h : b ≤ a) :
    (saturatingSub a b).toNat = a.toNat - b.toNat := by
  unfold saturatingSub
  rw [if_pos h, BitVec.toNat_sub_of_le h]

/-- A withdrawal to others leaves the account covered when it leaves
enough. -/
theorem solvent_after_iff (hR : CurrencyLaws R.transferCurrency free existentialDeposit)
    {w w' : World L} (hsolvent : Solvent R free w) {recipient : AccountId}
    {exitValue : BitVec 128} (hexit : exitValue ≠ 0)
    (hbalance : exitValue ≤ w.pallet.poolBalance)
    (hpaid : R.transferCurrency R.poolAccount recipient exitValue .allowDeath w.ledger
      = some w'.ledger)
    (hrecord : w'.pallet.poolBalance = saturatingSub w.pallet.poolBalance exitValue) :
    Solvent R free w' ↔ LeavesEnough R free existentialDeposit w recipient exitValue := by
  have hle : exitValue.toNat ≤ w.pallet.poolBalance.toNat := hbalance
  unfold Solvent at *
  unfold LeavesEnough
  rw [hrecord, toNat_saturatingSub hbalance]
  by_cases hself : recipient = R.poolAccount
  · subst hself
    rw [hR.self hpaid]
    exact iff_of_true ((Nat.sub_le _ _).trans hsolvent) (Or.inl rfl)
  · rw [hR.source hexit (Ne.symm hself) hpaid, or_iff_right hself, ← BitVec.toNat_inj]
    split
    · omega
    · omega

/-- **When a withdrawal keeps the pool solvent.** -/
theorem solvent_withdraw_iff (hR : CurrencyLaws R.transferCurrency free existentialDeposit)
    {w w' : World L} (hsolvent : Solvent R free w) {origin : Origin AccountId}
    {blockNumber : ℕ} {proof : Bytes} {merkleRoot : H256} {nullifiers outputs : H256 × H256}
    {recipient : AccountId} {exitValue : BitVec 128}
    (h : step R (.call ⟨origin, blockNumber,
      .withdraw proof merkleRoot nullifiers outputs recipient exitValue⟩) w = .ok w') :
    Solvent R free w' ↔ LeavesEnough R free existentialDeposit w recipient exitValue := by
  cases step_effect h with
  | withdraw exit_ne balance _ _ _ _ _ paid =>
    exact solvent_after_iff hR hsolvent exit_ne balance paid rfl

/-- **A step that keeps the reserve keeps the pool solvent.** -/
theorem solvent_step (hR : CurrencyLaws R.transferCurrency free existentialDeposit)
    {w w' : World L} {a : Action AccountId L} (hsolvent : Solvent R free w)
    (hkeeps : KeepsReserve R free existentialDeposit w a) (h : step R a w = .ok w') :
    Solvent R free w' := by
  cases a with
  | ledger l =>
    cases h
    exact hsolvent.trans hkeeps
  | call c =>
    cases step_effect h with
    | deposit _ _ paid _ _ =>
      have hne := fun heq => hkeeps (congrArg Origin.signed heq)
      unfold Solvent at *
      rw [hR.destination hne paid]
      exact (toNat_saturatingAdd_le _ _).trans (Nat.add_le_add_right hsolvent _)
    | transfer _ _ _ _ _ => exact hsolvent
    | withdraw _ _ _ _ _ _ _ _ => exact (solvent_withdraw_iff hR hsolvent h).mpr hkeeps
    | finalizeEpoch _ _ => exact hsolvent
    | syncEpochRoot _ => exact hsolvent

/-- **The pool is solvent in every run that leaves enough at each
withdrawal**, whatever the existential deposit is. -/
theorem solvent_of_run (hR : CurrencyLaws R.transferCurrency free existentialDeposit)
    {l₀ : L} {tr : List (World L × Action AccountId L)} {w : World L}
    (h : Run (step R) (KeepsReserve R free existentialDeposit) ⟨genesis R, l₀⟩ tr w) :
    w.pallet.poolBalance.toNat ≤ free w.ledger R.poolAccount :=
  h.invariant (I := fun _ w => Solvent R free w) (Nat.zero_le _)
    (fun _ _ _ _ hsolvent hkeeps hstep => solvent_step hR hsolvent hkeeps hstep)

end Runs

/-! ## A withdrawal that leaves dust -/

/-- Transfers of a currency whose accounts are free balances only. -/
def transferBalances (existentialDeposit source dest : ℕ) (value : BitVec 128)
    (existence : ExistenceRequirement) (free : ℕ → ℕ) : Option (ℕ → ℕ) :=
  if value = 0 ∨ source = dest then some free
  else if free source < value.toNat ∨ free dest + value.toNat < existentialDeposit then none
  else if free source - value.toNat < existentialDeposit ∧ existence = .keepAlive then none
  else
    let rest := free source - value.toNat
    let remainder := if rest < existentialDeposit then 0 else rest
    some (Function.update (Function.update free source remainder) dest
      (free dest + value.toNat))

/-- What a transfer between two accounts that went through did. -/
theorem transferBalances_eq_some {existentialDeposit source dest : ℕ} {value : BitVec 128}
    {existence : ExistenceRequirement} {free free' : ℕ → ℕ} (hvalue : value ≠ 0)
    (hne : source ≠ dest)
    (h : transferBalances existentialDeposit source dest value existence free = some free') :
    free' dest = free dest + value.toNat ∧
      free' source = if free source - value.toNat < existentialDeposit then 0
        else free source - value.toNat := by
  unfold transferBalances at h
  rw [if_neg (not_or.mpr ⟨hvalue, hne⟩)] at h
  split at h
  · cases h
  · split at h
    · cases h
    · cases h
      exact ⟨Function.update_self .., by rw [Function.update_of_ne hne, Function.update_self]⟩

/-- These transfers are as the pallet relies on them to be. -/
theorem transferBalances_laws (existentialDeposit : ℕ) :
    CurrencyLaws (transferBalances existentialDeposit) (fun free a => free a)
      existentialDeposit where
  self h := by
    unfold transferBalances at h
    rw [if_pos (Or.inr rfl)] at h
    cases h
    rfl
  destination {a b value existence free free'} hne h := by
    by_cases hvalue : value = 0
    · subst hvalue
      unfold transferBalances at h
      rw [if_pos (Or.inl rfl)] at h
      cases h
      rfl
    · exact (transferBalances_eq_some hvalue hne h).1
  source hvalue hne h := (transferBalances_eq_some hvalue hne h).2

/-- A runtime with an existential deposit of ten. Its pool has the account 0. -/
def smallRuntime (blake2_256 : Bytes → H256) : Runtime ℕ (ℕ → ℕ) where
  treeDepth := 2
  maxNullifiersPerEpoch := 2
  rootHistorySize := 2
  paraId := 1000
  appId := 1
  poolAccount := 0
  transferCurrency := transferBalances 10
  poseidonHash := PalletPoseidon.poseidonHash
  blake2_256 := blake2_256

/-- Account 1 has a thousand at first. -/
def firstBalances : ℕ → ℕ := fun a => if a = 1 then 1000 else 0

/-- … and deposits a hundred. -/
def depositHundred : Call ℕ := ⟨.signed 1, 1, .deposit 7 100⟩

/-- The world after that. -/
def afterDeposit (blake2_256 : Bytes → H256) : World (ℕ → ℕ) where
  pallet := { inserted (smallRuntime blake2_256) 7 { genesis (smallRuntime blake2_256) with
      commitmentExists := Function.update (fun _ => false) 7 true } with
    poolBalance := saturatingAdd 0 100 }
  ledger := Function.update (Function.update firstBalances 1 900) 0 100

theorem step_depositHundred (blake2_256 : Bytes → H256) :
    step (smallRuntime blake2_256) (.call depositHundred)
      ⟨genesis (smallRuntime blake2_256), firstBalances⟩ = .ok (afterDeposit blake2_256) := by
  let R := smallRuntime blake2_256
  have hpaid : transferBalances 10 1 0 100 .keepAlive firstBalances
      = some (afterDeposit blake2_256).ledger := rfl
  have hdeposit : deposit R (.signed 1) 7 100 ⟨genesis R, firstBalances⟩
      = .ok (afterDeposit blake2_256, [.deposited 7 0 100]) :=
    deposit_eq_ok.mpr ⟨1, _, rfl, by decide, Bool.false_ne_true, hpaid,
      show 0 < 4 by decide, two_ne_zero, rfl⟩
  exact congrArg (Except.map Prod.fst) hdeposit

/-- The root of a tree of four leaves that holds one. -/
theorem getLatestRoot_first {R : Runtime AccountId L} (hdepth : R.treeDepth = 2) {s : Storage}
    (hs : s.nextLeafIndex = 0) (leaf : H256) : getLatestRoot (inserted R leaf s)
      = R.poseidonHash (R.poseidonHash leaf 0) (R.poseidonHash 0 0) := by
  rw [getLatestRoot_inserted, hdepth, hs]
  simp [List.range_succ, insertStep, zeroHash]

/-- The root after the deposit. -/
def firstRoot : H256 :=
  PalletPoseidon.poseidonHash (PalletPoseidon.poseidonHash 7 0)
    (PalletPoseidon.poseidonHash 0 0)

theorem firstRoot_ne_zero : firstRoot ≠ 0 := by
  unfold firstRoot
  simp only [PoseidonAgreement.pallet_poseidonHash]
  decide +kernel

theorem getLatestRoot_afterDeposit (blake2_256 : Bytes → H256) :
    getLatestRoot (afterDeposit blake2_256).pallet = firstRoot :=
  getLatestRoot_first (R := smallRuntime blake2_256)
    (s := { genesis (smallRuntime blake2_256) with
      commitmentExists := Function.update (fun _ => false) 7 true }) rfl rfl 7

/-- What is withdrawn: 95 to account 2. -/
def withdrawNinetyFive : WithdrawCall ℕ := ⟨firstRoot, (2, 3), (4, 5), 2, 95⟩

/-- A proof for it. -/
def proofNinetyFive (blake2_256 : Bytes → H256) : Bytes :=
  proofOf blake2_256 (encodeWithdrawInputs withdrawNinetyFive.inputs) onesBody

theorem accepts_withdrawNinetyFive (blake2_256 : Bytes → H256) :
    Accepts (smallRuntime blake2_256) (afterDeposit blake2_256) (proofNinetyFive blake2_256)
      withdrawNinetyFive := by
  have hroot := getLatestRoot_afterDeposit blake2_256
  have hknown : isKnownRoot (smallRuntime blake2_256) (afterDeposit blake2_256).pallet
      (getLatestRoot (afterDeposit blake2_256).pallet) = true :=
    isKnownRoot_getLatestRoot two_ne_zero (hroot.trans_ne firstRoot_ne_zero)
  rw [hroot] at hknown
  have hwf : withdrawNinetyFive.inputs.WellFormed :=
    ⟨⟨firstRoot_ne_zero, by decide, by decide, by decide⟩, by decide⟩
  refine accepts_iff.mpr ⟨?_, verifyWithdraw_iff.mpr ⟨hwf, bound_onesBody _⟩⟩
  exact {
    balance := show 95 ≤ saturatingAdd 0 100 by decide
    known := hknown
    spendable := ⟨rfl, rfl, by decide, Nat.one_lt_two⟩
    room := show 2 < 4 by decide
    history := two_ne_zero
    paid := ⟨_, rfl⟩ }

/-- **The run of these two** ends with a record of five and an account that is
gone, whatever the hash of the proofs. -/
theorem exists_run_insolvent :
    CurrencyLaws (transferBalances 10) (fun free a => free a) 10
      ∧ ∀ blake2_256 : Bytes → H256, ∃ (origin : Origin ℕ) (w : World (ℕ → ℕ)),
        Run (step (smallRuntime blake2_256)) (fun _ _ => True)
            ⟨genesis (smallRuntime blake2_256), firstBalances⟩
            [(⟨genesis (smallRuntime blake2_256), firstBalances⟩, .call depositHundred),
              (afterDeposit blake2_256, .call ⟨origin, 2,
                .withdraw (proofNinetyFive blake2_256) firstRoot (2, 3) (4, 5) 2 95⟩)] w
          ∧ ¬ w.pallet.poolBalance.toNat ≤ w.ledger (smallRuntime blake2_256).poolAccount := by
  refine ⟨transferBalances_laws 10, fun blake2_256 => ?_⟩
  obtain ⟨origin, r, haccepted⟩ := accepts_withdrawNinetyFive blake2_256
  have hstep : step (smallRuntime blake2_256) (.call ⟨origin, 2, .withdraw
      (proofNinetyFive blake2_256) firstRoot (2, 3) (4, 5) 2 95⟩) (afterDeposit blake2_256)
      = .ok r.1 := congrArg (Except.map Prod.fst) haccepted
  have hfirst : Run (step (smallRuntime blake2_256)) (fun _ _ => True)
      ⟨genesis (smallRuntime blake2_256), firstBalances⟩
      [(⟨genesis (smallRuntime blake2_256), firstBalances⟩, .call depositHundred)]
      (afterDeposit blake2_256) := Run.nil.snoc trivial (step_depositHundred blake2_256)
  have hrun := hfirst.snoc trivial hstep
  have hcovered : Solvent (smallRuntime blake2_256) (fun free a => free a)
      (afterDeposit blake2_256) := show 100 ≤ 100 from le_rfl
  refine ⟨_, _, hrun, fun hsolvent => ?_⟩
  have hleft := (solvent_withdraw_iff (transferBalances_laws 10) hcovered hstep).mp hsolvent
  -- five would be left, which is neither all nor enough
  rcases hleft with hself | hall | henough
  · exact absurd hself (show (2 : ℕ) ≠ 0 by decide)
  · exact absurd hall (show 95 ≠ saturatingAdd 0 100 by decide)
  · exact absurd henough (show ¬ 10 ≤ 100 - 95 by decide)

/-- **A hundred deposited are covered.** -/
theorem solvent_of_run_deposit :
    (afterDeposit (fun _ => 0)).pallet.poolBalance.toNat
      ≤ (afterDeposit (fun _ => 0)).ledger (smallRuntime (fun _ => 0)).poolAccount := by
  have hsigner : KeepsReserve (smallRuntime (fun _ => 0)) (fun free a => free a) 10
      ⟨genesis (smallRuntime (fun _ => 0)), firstBalances⟩ (.call depositHundred) := by
    intro h
    exact absurd (Origin.signed.inj h) (show (1 : ℕ) ≠ 0 by decide)
  exact solvent_of_run (transferBalances_laws 10)
    (Run.nil.snoc hsigner (step_depositHundred (fun _ => 0)))

end PrivacyPoolPallet
