import SoulPrivacy.NearBinding

/-!
# What a successful call of the NEAR pool did

`Effect` lists, method by method, what a call that did not panic says, with the
transfers it asks for. `exec_effect` is the inversion of the methods.
-/

namespace NearPool

open HexProof (Shaped Tagged Spend)

variable {AccountId : Type} [DecidableEq AccountId] {keccak256 : Bytes → Bytes32}

/-- The state with a commitment recorded. -/
def recorded (s : State AccountId) (commitment : String) : State AccountId :=
  { s with commitmentExists := Function.update s.commitmentExists commitment true }

/-- **What a transfer and a withdrawal need**: a known root, two nullifiers that
can be spent, a proof that is verified, and room for both outputs. -/
structure Spends (keccak256 : Bytes → Bytes32) (s : State AccountId) (proof : String)
    (c : Spend) : Prop where
  known : isKnownRoot s c.merkleRoot = true
  spendable : Spendable s c.nullifiers
  verified : Shaped proof ∧ c.WellFormed ∧ Tagged keccak256 proof c.text
  room : s.nextLeafIndex + 1 < 2 ^ TREE_DEPTH

/-- … and the state after one of them. -/
def afterSpend (keccak256 : Bytes → Bytes32) (s : State AccountId) (c : Spend) :
    State AccountId :=
  insertedTwo keccak256 c.outputCommitments (spentTwo s c.nullifiers)

/-- **What a successful call did.** -/
inductive Effect (keccak256 : Bytes → Bytes32) (s : State AccountId) :
    Call AccountId → State AccountId → List (Promise AccountId) → Prop
  | deposit {ctx : Context AccountId} {commitment : String}
      (amount_ne : ctx.attachedDeposit ≠ 0) (fresh : s.commitmentExists commitment ≠ true)
      (room : s.nextLeafIndex < 2 ^ TREE_DEPTH)
      (fits : s.poolBalance.toNat + ctx.attachedDeposit.toNat < 2 ^ 128) :
      Effect keccak256 s ⟨ctx, .deposit commitment⟩
        { inserted keccak256 commitment (recorded s commitment) with
          poolBalance := s.poolBalance + ctx.attachedDeposit } []
  | transfer {ctx : Context AccountId} {proof : String} {c : Spend}
      (unpaid : ctx.attachedDeposit = 0) (spends : Spends keccak256 s proof c) :
      Effect keccak256 s ⟨ctx, methodOf proof (.transfer c)⟩ (afterSpend keccak256 s c) []
  | withdraw {ctx : Context AccountId} {proof : String} {c : Spend} {recipient : AccountId}
      {exitValue : BitVec 128} (unpaid : ctx.attachedDeposit = 0) (exit_ne : exitValue ≠ 0)
      (balance : exitValue ≤ s.poolBalance) (spends : Spends keccak256 s proof c) :
      Effect keccak256 s ⟨ctx, methodOf proof (.withdraw c recipient exitValue)⟩
        { afterSpend keccak256 s c with poolBalance := s.poolBalance - exitValue }
        [⟨recipient, exitValue⟩]
  | setAuthorizedRelayer {ctx : Context AccountId} {relayer : Option AccountId}
      (unpaid : ctx.attachedDeposit = 0) (governance : ctx.predecessor = s.governance) :
      Effect keccak256 s ⟨ctx, .setAuthorizedRelayer relayer⟩
        { s with authorizedRelayer := relayer } []
  | finalizeEpoch {ctx : Context AccountId} {epochs : ℕ → Option EpochInfo}
      {epochNullifiers : ℕ → Option (List String)} (unpaid : ctx.attachedDeposit = 0)
      (governance : ctx.predecessor = s.governance) :
      Effect keccak256 s ⟨ctx, .finalizeEpoch⟩
        { s with
          epochs := epochs
          currentEpochId := s.currentEpochId + 1
          epochNullifiers := epochNullifiers } []
  | syncEpochRoot {ctx : Context AccountId} {sourceChainId : BitVec 32} {epochId : ℕ}
      {nullifierRoot : String} {remoteEpochRoots : String → Option String}
      (unpaid : ctx.attachedDeposit = 0)
      (authorized : ctx.predecessor = s.governance
        ∨ some ctx.predecessor = s.authorizedRelayer) :
      Effect keccak256 s ⟨ctx, .syncEpochRoot sourceChainId epochId nullifierRoot⟩
        { s with remoteEpochRoots := remoteEpochRoots } []

/-! ## The inversion -/

omit [DecidableEq AccountId] in
theorem deposit_eq_ok {ctx : Context AccountId} {commitment : String} {s s' : State AccountId} :
    deposit keccak256 ctx commitment s = .ok s' ↔
      ctx.attachedDeposit ≠ 0 ∧ s.commitmentExists commitment ≠ true
        ∧ s.nextLeafIndex < 2 ^ TREE_DEPTH
        ∧ s.poolBalance.toNat + ctx.attachedDeposit.toNat < 2 ^ 128
        ∧ { inserted keccak256 commitment (recorded s commitment) with
          poolBalance := s.poolBalance + ctx.attachedDeposit } = s' := by
  unfold deposit
  simp only [Except.bind_eq_ok, revertIf_eq_ok, insertLeaf_eq_ok, not_le]
  constructor
  · rintro ⟨-, hamount, -, hfresh, _, ⟨hroom, rfl⟩, -, hfits, hs⟩
    exact ⟨hamount, hfresh, hroom, hfits, Except.ok.inj hs⟩
  · rintro ⟨hamount, hfresh, hroom, hfits, rfl⟩
    exact ⟨(), hamount, (), hfresh, _, ⟨hroom, rfl⟩, (), hfits, rfl⟩

omit [DecidableEq AccountId] in
/-- A transfer that goes through has two nullifiers and two outputs. -/
theorem transfer_eq_ok {proof merkleRoot : String} {nullifiers outputs : List String}
    {s s' : State AccountId} (h : transfer keccak256 proof merkleRoot nullifiers outputs s
      = .ok s') :
    ∃ c : Spend, Method.transfer proof merkleRoot nullifiers outputs
        = (methodOf proof (.transfer c) : Method AccountId)
      ∧ Spends keccak256 s proof c ∧ afterSpend keccak256 s c = s' := by
  unfold transfer at h
  simp only [Except.bind_eq_ok, revertIf_eq_ok, not_not] at h
  obtain ⟨-, hn, -, ho, h⟩ := h
  obtain ⟨n₁, n₂, rfl⟩ := List.length_eq_two.mp hn
  obtain ⟨o₁, o₂, rfl⟩ := List.length_eq_two.mp ho
  let c : Spend := ⟨merkleRoot, (n₁, n₂), (o₁, o₂)⟩
  obtain ⟨hknown, hspendable, hverified, hroom, hs⟩ := (spend_eq_ok (c := c)).mp h
  exact ⟨c, rfl, ⟨hknown, hspendable, hverified, hroom⟩, hs⟩

omit [DecidableEq AccountId] in
/-- … and so does a withdrawal. -/
theorem withdraw_eq_ok {proof merkleRoot : String} {nullifiers outputs : List String}
    {recipient : AccountId} {exitValue : BitVec 128} {s : State AccountId}
    {r : State AccountId × Promise AccountId}
    (h : withdraw keccak256 proof merkleRoot nullifiers outputs recipient exitValue s = .ok r) :
    ∃ c : Spend, Method.withdraw proof merkleRoot nullifiers outputs recipient exitValue
        = methodOf proof (.withdraw c recipient exitValue)
      ∧ exitValue ≠ 0 ∧ exitValue ≤ s.poolBalance ∧ Spends keccak256 s proof c
      ∧ ({ afterSpend keccak256 s c with poolBalance := s.poolBalance - exitValue },
        ⟨recipient, exitValue⟩) = r := by
  unfold withdraw at h
  simp only [Except.bind_eq_ok, revertIf_eq_ok, not_not, BitVec.not_lt] at h
  obtain ⟨-, hn, -, ho, -, hexit, -, hbalance, _, h, hr⟩ := h
  obtain ⟨n₁, n₂, rfl⟩ := List.length_eq_two.mp hn
  obtain ⟨o₁, o₂, rfl⟩ := List.length_eq_two.mp ho
  let c : Spend := ⟨merkleRoot, (n₁, n₂), (o₁, o₂)⟩
  obtain ⟨hknown, hspendable, hverified, hroom, rfl⟩ := (spend_eq_ok (c := c)).mp h
  exact ⟨c, rfl, hexit, hbalance, ⟨hknown, hspendable, hverified, hroom⟩, Except.ok.inj hr⟩

/-- **The inversion of the methods.** -/
theorem exec_effect {c : Call AccountId} {s s' : State AccountId}
    {promises : List (Promise AccountId)}
    (h : exec keccak256 c.ctx c.method s = .ok (s', promises)) :
    Effect keccak256 s c s' promises := by
  obtain ⟨ctx, method⟩ := c
  cases method with
  | deposit commitment =>
    obtain ⟨_, hdeposit, hr⟩ := (Except.bind_eq_ok _ _ _).mp h
    obtain ⟨hamount, hfresh, hroom, hfits, rfl⟩ := deposit_eq_ok.mp hdeposit
    cases hr
    exact .deposit hamount hfresh hroom hfits
  | transfer proof merkleRoot nullifiers outputs =>
    unfold exec at h
    simp only [Except.bind_eq_ok, revertIf_eq_ok, not_not] at h
    obtain ⟨-, hunpaid, _, htransfer, hr⟩ := h
    obtain ⟨c, hmethod, hspends, rfl⟩ := transfer_eq_ok htransfer
    cases hr
    rw [hmethod]
    exact .transfer hunpaid hspends
  | withdraw proof merkleRoot nullifiers outputs recipient exitValue =>
    unfold exec at h
    simp only [Except.bind_eq_ok, revertIf_eq_ok, not_not] at h
    obtain ⟨-, hunpaid, _, hwithdraw, hr⟩ := h
    obtain ⟨c, hmethod, hexit, hbalance, hspends, rfl⟩ := withdraw_eq_ok hwithdraw
    cases hr
    rw [hmethod]
    exact .withdraw hunpaid hexit hbalance hspends
  | setAuthorizedRelayer relayer =>
    unfold exec setAuthorizedRelayer at h
    simp only [Except.bind_eq_ok, revertIf_eq_ok, not_not] at h
    obtain ⟨-, hunpaid, _, ⟨-, hgov, hs⟩, hr⟩ := h
    cases hs
    cases hr
    exact .setAuthorizedRelayer hunpaid hgov
  | finalizeEpoch =>
    unfold exec finalizeEpoch at h
    simp only [Except.bind_eq_ok, revertIf_eq_ok, orRevert_eq_ok, not_not] at h
    obtain ⟨-, hunpaid, _, ⟨-, hgov, epoch, -, -, -, hs⟩, hr⟩ := h
    cases hs
    cases hr
    exact .finalizeEpoch hunpaid hgov
  | syncEpochRoot sourceChainId epochId nullifierRoot =>
    unfold exec syncEpochRoot at h
    simp only [Except.bind_eq_ok, revertIf_eq_ok, not_and_or, not_not] at h
    obtain ⟨-, hunpaid, _, ⟨-, hauth, -, -, hs⟩, hr⟩ := h
    cases hs
    cases hr
    exact .syncEpochRoot hunpaid hauth

/-- **What a step of the machine did.** -/
theorem step_effect {c : Call AccountId} {s s' : State AccountId}
    (h : step keccak256 c s = .ok s') : ∃ promises, Effect keccak256 s c s' promises := by
  obtain ⟨⟨_, promises⟩, hexec, rfl⟩ := Except.map_eq_ok.mp h
  exact ⟨promises, exec_effect hexec⟩

end NearPool
