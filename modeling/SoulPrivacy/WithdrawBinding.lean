import SoulPrivacy.PalletEffect

/-!
# What a proof of the pallet's `withdraw` is bound to

A withdrawal goes through when its proof carries the tag of its root, its
nullifiers and its exit value, and the state of the pool allows it
(`accepts_iff`). The outputs and the recipient are no part of what the tag
is computed from. So one proof serves for two calls exactly when these
agree on the former, whatever the latter are (`exclusive_iff`): whoever
sees a withdrawal before it is included can make it their own.
-/

namespace PrivacyPoolPallet

open PalletVerifier

variable {AccountId L : Type} {R : Runtime AccountId L}

/-- Nothing is lost of what is added to nothing. -/
theorem zero_saturatingAdd (amount : BitVec 128) : saturatingAdd 0 amount = amount := by
  have hlt : (0 : BitVec 128).toNat + amount.toNat < 2 ^ 128 :=
    (Nat.zero_add amount.toNat).symm ▸ amount.isLt
  exact (if_pos hlt).trans (BitVec.zero_add amount)

/-! ## Withdrawals -/

/-- What a withdrawal is called with, but for the proof. -/
structure WithdrawCall (AccountId : Type) where
  merkleRoot : H256
  nullifiers : H256 × H256
  outputCommitments : H256 × H256
  recipient : AccountId
  exitValue : BitVec 128
  deriving DecidableEq

/-- Its public inputs. -/
def WithdrawCall.inputs (c : WithdrawCall AccountId) : WithdrawPublicInputs :=
  ⟨c.merkleRoot, c.nullifiers, c.outputCommitments, c.exitValue⟩

/-- **The pallet accepts a call with a proof.** -/
def Accepts (R : Runtime AccountId L) (w : World L) (proof : Bytes)
    (c : WithdrawCall AccountId) : Prop :=
  ∃ origin r, withdraw R origin proof c.merkleRoot c.nullifiers c.outputCommitments
    c.recipient c.exitValue w = .ok r

/-- What the state has to be like. -/
structure Covers (R : Runtime AccountId L) (w : World L) (c : WithdrawCall AccountId) :
    Prop where
  balance : c.exitValue ≤ w.pallet.poolBalance
  known : isKnownRoot R w.pallet c.merkleRoot = true
  spendable : Spendable R w.pallet c.nullifiers
  room : w.pallet.nextLeafIndex + 1 < maxLeaves R
  history : R.rootHistorySize ≠ 0
  paid : ∃ ledger,
    R.transferCurrency R.poolAccount c.recipient c.exitValue .allowDeath w.ledger
      = some ledger

/-- **When a withdrawal goes through**: it is signed, the state covers it, and the
verifier accepts its proof. -/
theorem withdraw_isOk {w : World L} {origin : Origin AccountId} {proof : Bytes}
    {c : WithdrawCall AccountId} :
    (∃ r, withdraw R origin proof c.merkleRoot c.nullifiers c.outputCommitments
        c.recipient c.exitValue w = .ok r) ↔
      (∃ who, origin = .signed who) ∧ Covers R w c
        ∧ verifyWithdraw R.blake2_256 proof c.inputs = true := by
  unfold withdraw
  simp only [Except.bind_eq_ok, revertIf_eq_ok, orRevert_eq_ok, ensureSigned_eq_ok,
    checkAndSpendNullifiers_eq_ok, insertLeaf_eq_ok, Bool.not_eq_false, BitVec.not_lt]
  constructor
  · rintro ⟨r, who, hwho, -, hexit, -, hbalance, -, hknown, _, ⟨hspendable, rfl⟩,
      -, hverify, _, ⟨-, hsize, rfl⟩, _, ⟨hroom, -, rfl⟩, ledger, hpaid, -⟩
    exact ⟨⟨who, hwho⟩, ⟨hbalance, hknown, hspendable, hroom, hsize, ledger, hpaid⟩, hverify⟩
  · rintro ⟨⟨who, hwho⟩, ⟨hbalance, hknown, hspendable, hroom, hsize, ledger, hpaid⟩, hverify⟩
    have hexit := (verifyWithdraw_iff.mp hverify).1.exit_ne
    exact ⟨_, who, hwho, (), hexit, (), hbalance, (), hknown,
      _, ⟨hspendable, rfl⟩, (), hverify, _, ⟨Nat.lt_of_succ_lt hroom, hsize, rfl⟩, _,
      ⟨hroom, hsize, rfl⟩, ledger, hpaid, rfl⟩

/-- **When it does for someone.** -/
theorem accepts_iff {w : World L} {proof : Bytes} {c : WithdrawCall AccountId} :
    Accepts R w proof c ↔
      Covers R w c ∧ verifyWithdraw R.blake2_256 proof c.inputs = true := by
  unfold Accepts
  simp only [withdraw_isOk]
  constructor
  · rintro ⟨origin, -, h⟩
    exact h
  · intro h
    exact ⟨.signed c.recipient, ⟨c.recipient, rfl⟩, h⟩

/-- **Accepted calls with the same proof agree on what is hashed.** -/
theorem agree_of_accepts {w₁ w₂ : World L} {proof : Bytes}
    {c₁ c₂ : WithdrawCall AccountId} (h₁ : Accepts R w₁ proof c₁)
    (h₂ : Accepts R w₂ proof c₂)
    (hcoll : NoCollision R.blake2_256 (encodeWithdrawInputs c₁.inputs) proof
      (encodeWithdrawInputs c₂.inputs) proof) :
    c₁.merkleRoot = c₂.merkleRoot ∧ c₁.nullifiers = c₂.nullifiers
      ∧ c₁.exitValue = c₂.exitValue := by
  have hbound₁ := (verifyWithdraw_iff.mp (accepts_iff.mp h₁).2).2
  have hbound₂ := (verifyWithdraw_iff.mp (accepts_iff.mp h₂).2).2
  exact (encodeWithdrawInputs_append_inj.mp
    (append_eq_of_tag hbound₁ hbound₂ hcoll rfl)).1

/-! ## One proof for two calls -/

/-- A runtime that pays whatever is asked, whose tree has a given root all
the time. -/
def obliging (poolAccount : AccountId) (root : H256) (blake2_256 : Bytes → H256) :
    Runtime AccountId Unit where
  treeDepth := 2
  maxNullifiersPerEpoch := 2
  rootHistorySize := 2
  paraId := 1000
  appId := 1
  poolAccount := poolAccount
  transferCurrency _ _ _ _ _ := some ()
  poseidonHash _ _ := root
  blake2_256 := blake2_256

/-- Every insertion leaves that root. -/
theorem getLatestRoot_obliging (poolAccount : AccountId) (root : H256)
    (blake2_256 : Bytes → H256) (leaf : H256) (s : Storage) :
    getLatestRoot (inserted (obliging poolAccount root blake2_256) leaf s) = root := by
  have hstep : ∀ st level,
      (insertStep (obliging poolAccount root blake2_256) st level).currentHash = root := by
    intro st level
    unfold insertStep
    split <;> rfl
  rw [getLatestRoot_inserted]
  exact hstep _ 1

/-- **A deposit of the exit value there covers a withdrawal.** -/
theorem exists_covers (blake2_256 : Bytes → H256) {root : H256} (hroot : root ≠ 0)
    {nullifiers : H256 × H256} (hne : nullifiers.1 ≠ nullifiers.2) {exitValue : BitVec 128}
    (hexit : exitValue ≠ 0) (account : AccountId) :
    ∃ w, Reachable (obliging account root blake2_256) w
      ∧ ∀ outputs recipient, Covers (obliging account root blake2_256) w
          ⟨root, nullifiers, outputs, recipient, exitValue⟩ := by
  let R := obliging account root blake2_256
  obtain ⟨r, hdeposit⟩ : ∃ r, deposit R (.signed account) 7 exitValue ⟨genesis R, ()⟩
      = .ok r :=
    ⟨_, deposit_eq_ok.mpr ⟨account, (), rfl, hexit, Bool.false_ne_true, rfl,
      show 0 < 4 by decide, two_ne_zero, rfl⟩⟩
  let call : Call AccountId := ⟨.signed account, 0, .deposit 7 exitValue⟩
  have hstep : step R (.call call) ⟨genesis R, ()⟩ = .ok r.1 :=
    congrArg (Except.map Prod.fst) hdeposit
  have hreach : Reachable R r.1 := ⟨(), _, Run.nil.snoc trivial hstep⟩
  refine ⟨r.1, hreach, fun outputs recipient => ?_⟩
  let s₁ : Storage := { genesis R with
    commitmentExists := Function.update (genesis R).commitmentExists 7 true }
  obtain ⟨who, ledger, -, -, -, -, -, -, rfl⟩ := deposit_eq_ok.mp hdeposit
  have hlatest := getLatestRoot_obliging account root blake2_256 7 s₁
  exact {
    balance := by
      show exitValue ≤ saturatingAdd 0 exitValue
      rw [zero_saturatingAdd]
      exact BitVec.le_refl exitValue
    known := by
      have hknown : isKnownRoot R (inserted R 7 s₁) (getLatestRoot (inserted R 7 s₁)) = true :=
        isKnownRoot_getLatestRoot two_ne_zero (hlatest ▸ hroot)
      rwa [hlatest] at hknown
    spendable := ⟨rfl, rfl, hne, Nat.one_lt_two⟩
    room := show 2 < 4 by decide
    history := two_ne_zero
    paid := ⟨(), rfl⟩ }

/-- **One proof is accepted for both calls** when they are well-formed and
agree on what is hashed. -/
theorem exists_accepted_twice (blake2_256 : Bytes → H256) {c₁ c₂ : WithdrawCall AccountId}
    (hwf : c₁.inputs.WellFormed) (hroot : c₁.merkleRoot = c₂.merkleRoot)
    (hnullifiers : c₁.nullifiers = c₂.nullifiers) (hexit : c₁.exitValue = c₂.exitValue) :
    ∃ (R : Runtime AccountId Unit) (proof : Bytes) (w : World Unit),
      R.blake2_256 = blake2_256 ∧ Reachable R w
        ∧ encodeWithdrawInputs c₁.inputs = encodeWithdrawInputs c₂.inputs
        ∧ Accepts R w proof c₁ ∧ Accepts R w proof c₂ := by
  obtain ⟨root, nullifiers, outputs₁, recipient₁, exitValue⟩ := c₁
  obtain ⟨_, _, outputs₂, recipient₂, _⟩ := c₂
  cases hroot
  cases hnullifiers
  cases hexit
  obtain ⟨w, hreach, hcovers⟩ := exists_covers blake2_256 hwf.spends.root_ne
    hwf.spends.ne hwf.exit_ne recipient₁
  let inputs : WithdrawPublicInputs := ⟨root, nullifiers, outputs₁, exitValue⟩
  have hbound : Bound blake2_256
      (proofOf blake2_256 (encodeWithdrawInputs inputs) onesBody)
      (encodeWithdrawInputs inputs) := bound_onesBody _
  have hwf₂ : WithdrawPublicInputs.WellFormed ⟨root, nullifiers, outputs₂, exitValue⟩ :=
    ⟨hwf.spends, hwf.exit_ne⟩
  refine ⟨_, proofOf blake2_256 (encodeWithdrawInputs inputs) onesBody, w, rfl, hreach, rfl,
    ?_, ?_⟩
  · exact accepts_iff.mpr ⟨hcovers _ _, verifyWithdraw_iff.mpr ⟨hwf, hbound⟩⟩
  · exact accepts_iff.mpr ⟨hcovers _ _, verifyWithdraw_iff.mpr ⟨hwf₂, hbound⟩⟩

/-- **No proof is accepted for both of two calls if and only if the calls
differ in the root, the nullifiers or the exit value**, or the pallet
accepts such a call with no proof at all. -/
theorem exclusive_iff (blake2_256 : Bytes → H256) (c₁ c₂ : WithdrawCall AccountId) :
    (∀ (L : Type) (R : Runtime AccountId L) (proof : Bytes) (w₁ w₂ : World L),
        R.blake2_256 = blake2_256 → Reachable R w₁ → Reachable R w₂ →
        NoCollision blake2_256 (encodeWithdrawInputs c₁.inputs) proof
          (encodeWithdrawInputs c₂.inputs) proof →
        ¬ (Accepts R w₁ proof c₁ ∧ Accepts R w₂ proof c₂))
      ↔ (c₁.merkleRoot ≠ c₂.merkleRoot ∨ c₁.nullifiers ≠ c₂.nullifiers
          ∨ c₁.exitValue ≠ c₂.exitValue) ∨ ¬ c₁.inputs.WellFormed := by
  constructor
  · intro hexclusive
    by_contra hcond
    rw [not_or, not_or, not_or, not_not, not_not, not_not, not_not] at hcond
    obtain ⟨⟨hroot, hnullifiers, hexit⟩, hwf⟩ := hcond
    obtain ⟨R, proof, w, hblake, hreach, hsame, hboth⟩ :=
      exists_accepted_twice blake2_256 hwf hroot hnullifiers hexit
    exact hexclusive Unit R proof w w hblake hreach hreach (fun _ => by rw [hsame]) hboth
  · rintro hcond L R proof w₁ w₂ rfl - - hcoll ⟨h₁, h₂⟩
    obtain ⟨hroot, hnullifiers, hexit⟩ := agree_of_accepts h₁ h₂ hcoll
    have hwf := (verifyWithdraw_iff.mp (accepts_iff.mp h₁).2).1
    rcases hcond with (hne | hne | hne) | hne
    · exact hne hroot
    · exact hne hnullifiers
    · exact hne hexit
    · exact hne hwf

/-- A withdrawal to a recipient, with given outputs. -/
def withdrawTo (recipient : ℕ) (outputs : H256 × H256) : WithdrawCall ℕ :=
  ⟨1, (2, 3), outputs, recipient, 100⟩

/-- **Two recipients and two pairs of outputs with one proof**, whatever the
hash. -/
theorem exists_redirected :
    (withdrawTo 10 (4, 5)).recipient ≠ (withdrawTo 11 (6, 7)).recipient
      ∧ (withdrawTo 10 (4, 5)).outputCommitments ≠ (withdrawTo 11 (6, 7)).outputCommitments
      ∧ ∀ blake2_256 : Bytes → H256,
        ∃ (R : Runtime ℕ Unit) (proof : Bytes) (w : World Unit),
          R.blake2_256 = blake2_256 ∧ Reachable R w
            ∧ encodeWithdrawInputs (withdrawTo 10 (4, 5)).inputs
              = encodeWithdrawInputs (withdrawTo 11 (6, 7)).inputs
            ∧ Accepts R w proof (withdrawTo 10 (4, 5))
            ∧ Accepts R w proof (withdrawTo 11 (6, 7)) := by
  have hwf : (withdrawTo 10 (4, 5)).inputs.WellFormed := by
    refine ⟨⟨?_, ?_, ?_, ?_⟩, ?_⟩ <;> decide
  refine ⟨by decide, by decide, fun blake2_256 => ?_⟩
  exact exists_accepted_twice blake2_256 hwf rfl rfl rfl

end PrivacyPoolPallet
