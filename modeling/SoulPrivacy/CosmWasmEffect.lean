import SoulPrivacy.CosmWasmPool

/-!
# What a successful message to the CosmWasm pool did

`Effect` lists, message by message, what one that did not fail says.
`execute_effect` is the inversion of the messages. An insertion changes the
tree only (`exists_withTree`), and the nullifiers of a call are spent one after
the other (`checkAndSpendNullifiers_eq_ok`).
-/

namespace CosmWasmPool

open HexProof (verifyProofBinding)

variable {C : Crypto}

/-! ## What the parts of a message do -/

/-- What an insertion writes to. -/
structure TreePart where
  filledSubtrees : ℕ → Option String
  roots : ℕ → Option String
  currentRootIndex : ℕ
  nextLeafIndex : ℕ

/-- The state with another tree. -/
def State.withTree (s : State) (t : TreePart) : State :=
  { s with
    filledSubtrees := t.filledSubtrees
    roots := t.roots
    currentRootIndex := t.currentRootIndex
    nextLeafIndex := t.nextLeafIndex }

/-- **An insertion changes the tree only.** -/
theorem exists_withTree {leaf : String} {s s' : State} {index : ℕ}
    (h : insertLeaf C leaf s = .ok (index, s')) : ∃ t, s' = s.withTree t := by
  unfold insertLeaf at h
  simp only [Except.bind_eq_ok, revertIf_eq_ok] at h
  obtain ⟨_, -, -, -, st, -, newIdx, -, -, -, hr⟩ := h
  cases hr
  exact ⟨⟨st.filledSubtrees, _, newIdx, s.nextLeafIndex + 1⟩, rfl⟩

/-- **What a contract starts from.** -/
theorem exists_initial {height : ℕ} {msg : InstantiateMsg} {s₀ : State}
    (h : instantiate C height msg = .ok s₀) : ∃ st, s₀ = initial height msg st := by
  unfold instantiate at h
  obtain ⟨st, -, hst⟩ := (Except.bind_eq_ok _ _ _).mp h
  exact ⟨st, (Except.ok.inj hst).symm⟩

/-- The nullifiers of an epoch, none where no list is. -/
def epochList (s : State) (e : ℕ) : List String := (s.epochNullifiers e).getD []

/-- The state with one more nullifier spent. -/
def spentOne (s : State) (nullifier : String) : State :=
  { s with
    nullifierSpent := Function.update s.nullifierSpent nullifier true
    epochNullifiers := Function.update s.epochNullifiers s.currentEpochId
      (some (epochList s s.currentEpochId ++ [nullifier])) }

theorem checkAndSpendNullifier_eq_ok {s s' : State} {nullifier : String} :
    checkAndSpendNullifier s nullifier = .ok s' ↔
      s.nullifierSpent nullifier = false
        ∧ (s.epochNullifiers s.currentEpochId).isSome = true
        ∧ (epochList s s.currentEpochId).length < s.config.maxNullifiersPerEpoch.toNat
        ∧ spentOne s nullifier = s' := by
  unfold checkAndSpendNullifier
  simp only [Except.bind_eq_ok, revertIf_eq_ok, orRevert_eq_ok, not_le, Bool.not_eq_true]
  constructor
  · rintro ⟨-, hnew, nuls, hnuls, -, hroom, hs⟩
    cases hs
    have hlist : epochList s s.currentEpochId = nuls := by
      unfold epochList
      rw [hnuls]
      rfl
    refine ⟨hnew, hnuls ▸ rfl, hlist ▸ hroom, ?_⟩
    unfold spentOne
    rw [hlist]
  · rintro ⟨hnew, hsome, hroom, rfl⟩
    obtain ⟨nuls, hnuls⟩ := Option.isSome_iff_exists.mp hsome
    have hlist : epochList s s.currentEpochId = nuls := by
      unfold epochList
      rw [hnuls]
      rfl
    refine ⟨(), hnew, nuls, hnuls, (), hlist ▸ hroom, ?_⟩
    unfold spentOne
    rw [hlist]

/-- **Two nullifiers that can be spent**: they are new and differ, and the list
of the epoch is there and has room for both. -/
structure Spendable (s : State) (nullifiers : String × String) : Prop where
  fst : s.nullifierSpent nullifiers.1 = false
  snd : s.nullifierSpent nullifiers.2 = false
  ne : nullifiers.1 ≠ nullifiers.2
  listed : (s.epochNullifiers s.currentEpochId).isSome = true
  room : (epochList s s.currentEpochId).length + 1 < s.config.maxNullifiersPerEpoch.toNat

/-- … and the state after they were. -/
def spentTwo (s : State) (nullifiers : String × String) : State :=
  spentOne (spentOne s nullifiers.1) nullifiers.2

theorem epochList_spentOne (s : State) (nullifier : String) :
    epochList (spentOne s nullifier) s.currentEpochId
      = epochList s s.currentEpochId ++ [nullifier] := by
  unfold epochList spentOne
  dsimp only
  rw [Function.update_self]
  rfl

theorem checkAndSpendNullifiers_eq_ok {nullifiers : String × String} {s s' : State} :
    checkAndSpendNullifiers nullifiers s = .ok s' ↔
      Spendable s nullifiers ∧ spentTwo s nullifiers = s' := by
  have hlist : (epochList (spentOne s nullifiers.1)
        (spentOne s nullifiers.1).currentEpochId).length
      = (epochList s s.currentEpochId).length + 1 := by
    rw [show (spentOne s nullifiers.1).currentEpochId = s.currentEpochId from rfl,
      epochList_spentOne, List.length_append, List.length_singleton]
  have hspent : (spentOne s nullifiers.1).nullifierSpent nullifiers.2 = false ↔
      s.nullifierSpent nullifiers.2 = false ∧ nullifiers.1 ≠ nullifiers.2 := by
    rw [← Bool.not_eq_true, ← Bool.not_eq_true, spentOne, update_true_eq_true, not_or,
      ne_comm]
  have hlisted : ((spentOne s nullifiers.1).epochNullifiers
      (spentOne s nullifiers.1).currentEpochId).isSome = true := by
    unfold spentOne
    dsimp only
    rw [Function.update_self]
    rfl
  have hconfig : (spentOne s nullifiers.1).config = s.config := rfl
  unfold checkAndSpendNullifiers
  simp only [Except.bind_eq_ok, checkAndSpendNullifier_eq_ok]
  constructor
  · rintro ⟨_, ⟨h₁, hsome, -, rfl⟩, h₂, -, hroom, hs⟩
    obtain ⟨h₂, hne⟩ := hspent.mp h₂
    exact ⟨⟨h₁, h₂, hne, hsome, by rwa [hlist] at hroom⟩, hs⟩
  · rintro ⟨⟨h₁, h₂, hne, hsome, hroom⟩, hs⟩
    exact ⟨_, ⟨h₁, hsome, Nat.lt_of_succ_lt hroom, rfl⟩, hspent.mpr ⟨h₂, hne⟩, hlisted,
      by rwa [hlist], hs⟩

/-- **Two insertions**, one after the other. -/
def InsertTwo (C : Crypto) (outputs : String × String) (s s' : State) : Prop :=
  ∃ i₁ s₁ i₂, insertLeaf C outputs.1 s = .ok (i₁, s₁)
    ∧ insertLeaf C outputs.2 s₁ = .ok (i₂, s')

theorem InsertTwo.exists_withTree {outputs : String × String} {s s' : State}
    (h : InsertTwo C outputs s s') : ∃ t, s' = s.withTree t := by
  obtain ⟨i₁, s₁, i₂, h₁, h₂⟩ := h
  obtain ⟨t₁, rfl⟩ := CosmWasmPool.exists_withTree h₁
  obtain ⟨t₂, rfl⟩ := CosmWasmPool.exists_withTree h₂
  exact ⟨t₂, rfl⟩

theorem InsertTwo.pool_denom_eq {nullifiers outputs : String × String} {s s' : State}
    (h : InsertTwo C outputs (spentTwo s nullifiers) s') :
    s'.poolBalance = s.poolBalance ∧ s'.config.acceptedDenom = s.config.acceptedDenom := by
  obtain ⟨t, rfl⟩ := h.exists_withTree
  exact ⟨rfl, rfl⟩

/-! ## The messages that move money -/

/-- The state with a commitment recorded. -/
def recorded (s : State) (commitment : String) : State :=
  { s with commitmentExists := Function.update s.commitmentExists commitment true }

/-- **What a deposit needs and does.** -/
theorem executeDeposit_eq_ok {info : MessageInfo} {commitment : String} {s : State}
    {r : State × List BankMsg} :
    executeDeposit C info commitment s = .ok r ↔
      amountIn s.config.acceptedDenom info.funds ≠ 0 ∧ s.commitmentExists commitment ≠ true
        ∧ ∃ i s₁, insertLeaf C commitment (recorded s commitment) = .ok (i, s₁)
          ∧ s.poolBalance.toNat + (amountIn s.config.acceptedDenom info.funds).toNat < 2 ^ 128
          ∧ ({ s₁ with poolBalance :=
              s.poolBalance + amountIn s.config.acceptedDenom info.funds }, []) = r := by
  unfold executeDeposit
  simp only [Except.bind_eq_ok, revertIf_eq_ok, not_le, Prod.exists]
  constructor
  · rintro ⟨-, hamount, -, hfresh, i, s₁, hinsert, -, hfits, hr⟩
    obtain ⟨t, rfl⟩ := exists_withTree hinsert
    exact ⟨hamount, hfresh, i, _, hinsert, hfits, Except.ok.inj hr⟩
  · rintro ⟨hamount, hfresh, i, s₁, hinsert, hfits, rfl⟩
    obtain ⟨t, rfl⟩ := exists_withTree hinsert
    exact ⟨(), hamount, (), hfresh, i, _, hinsert, (), hfits, rfl⟩

/-- **What a transfer needs and does.** -/
theorem executeTransfer_eq_ok {proof merkleRoot : String} {nullifiers outputs : String × String}
    {s : State} {r : State × List BankMsg} :
    executeTransfer C proof merkleRoot nullifiers outputs s = .ok r ↔
      isKnownRoot s merkleRoot = .ok true ∧ Spendable s nullifiers
        ∧ verifyProofBinding C.sha256 proof merkleRoot [nullifiers.1, nullifiers.2]
          [outputs.1, outputs.2] = true
        ∧ ∃ s', InsertTwo C outputs (spentTwo s nullifiers) s' ∧ (s', []) = r := by
  unfold executeTransfer InsertTwo
  simp only [Except.bind_eq_ok, revertIf_eq_ok, checkAndSpendNullifiers_eq_ok,
    Bool.not_eq_false, Prod.exists]
  constructor
  · rintro ⟨_, hroot, -, rfl, _, ⟨hspendable, rfl⟩, -, hverify, i₁, s₁, h₁, i₂, s₂, h₂, hr⟩
    exact ⟨hroot, hspendable, hverify, s₂, ⟨i₁, s₁, i₂, h₁, h₂⟩, Except.ok.inj hr⟩
  · rintro ⟨hroot, hspendable, hverify, s₂, ⟨i₁, s₁, i₂, h₁, h₂⟩, rfl⟩
    exact ⟨true, hroot, (), rfl, _, ⟨hspendable, rfl⟩, (), hverify, i₁, s₁, h₁, i₂, s₂, h₂,
      rfl⟩

/-- **What a withdrawal needs and does.** -/
theorem executeWithdraw_eq_ok {proof merkleRoot : String} {nullifiers outputs : String × String}
    {recipient : String} {exitValue : BitVec 128} {s : State} {r : State × List BankMsg} :
    executeWithdraw C proof merkleRoot nullifiers outputs recipient exitValue s = .ok r ↔
      exitValue ≠ 0 ∧ exitValue ≤ s.poolBalance ∧ isKnownRoot s merkleRoot = .ok true
        ∧ Spendable s nullifiers
        ∧ verifyProofBinding C.sha256 proof merkleRoot [nullifiers.1, nullifiers.2]
          [outputs.1, outputs.2] = true
        ∧ ∃ s', InsertTwo C outputs (spentTwo s nullifiers) s'
          ∧ ({ s' with poolBalance := s.poolBalance - exitValue },
            [⟨recipient, [⟨s.config.acceptedDenom, exitValue⟩]⟩]) = r := by
  unfold executeWithdraw
  simp only [Except.bind_eq_ok, revertIf_eq_ok, checkAndSpendNullifiers_eq_ok,
    Bool.not_eq_false, BitVec.not_lt, Prod.exists]
  constructor
  · rintro ⟨-, hexit, -, hbalance, _, hroot, -, rfl, _, ⟨hspendable, rfl⟩, -, hverify, i₁, s₁,
      h₁, i₂, s₂, h₂, hr⟩
    have htwo : InsertTwo C outputs (spentTwo s nullifiers) s₂ := ⟨i₁, s₁, i₂, h₁, h₂⟩
    obtain ⟨hpool, hdenom⟩ := htwo.pool_denom_eq
    rw [hpool, hdenom, if_pos hbalance] at hr
    exact ⟨hexit, hbalance, hroot, hspendable, hverify, s₂, htwo, Except.ok.inj hr⟩
  · rintro ⟨hexit, hbalance, hroot, hspendable, hverify, s₂, htwo, rfl⟩
    obtain ⟨hpool, hdenom⟩ := htwo.pool_denom_eq
    obtain ⟨i₁, s₁, i₂, h₁, h₂⟩ := htwo
    refine ⟨(), hexit, (), hbalance, true, hroot, (), rfl, _, ⟨hspendable, rfl⟩, (), hverify,
      i₁, s₁, h₁, i₂, s₂, h₂, ?_⟩
    rw [hpool, hdenom, if_pos hbalance]

/-! ## The effect of a message -/

/-- **What a successful message did.** -/
inductive Effect (C : Crypto) (s : State) : Call → State → Prop
  | deposit {height : ℕ} {info : MessageInfo} {commitment : String} {i : ℕ} {s₁ : State}
      (amount_ne : amountIn s.config.acceptedDenom info.funds ≠ 0)
      (fresh : s.commitmentExists commitment ≠ true)
      (insert : insertLeaf C commitment (recorded s commitment) = .ok (i, s₁))
      (fits : s.poolBalance.toNat + (amountIn s.config.acceptedDenom info.funds).toNat
        < 2 ^ 128) :
      Effect C s ⟨height, info, .deposit commitment⟩
        { s₁ with poolBalance := s.poolBalance + amountIn s.config.acceptedDenom info.funds }
  | transfer {height : ℕ} {info : MessageInfo} {proof merkleRoot : String}
      {nullifiers outputs : String × String} {s' : State}
      (known : isKnownRoot s merkleRoot = .ok true) (spendable : Spendable s nullifiers)
      (verified : verifyProofBinding C.sha256 proof merkleRoot [nullifiers.1, nullifiers.2]
        [outputs.1, outputs.2] = true)
      (insert : InsertTwo C outputs (spentTwo s nullifiers) s') :
      Effect C s ⟨height, info, .transfer proof merkleRoot nullifiers outputs⟩ s'
  | withdraw {height : ℕ} {info : MessageInfo} {proof merkleRoot : String}
      {nullifiers outputs : String × String} {recipient : String} {exitValue : BitVec 128}
      {s' : State} (exit_ne : exitValue ≠ 0) (balance : exitValue ≤ s.poolBalance)
      (known : isKnownRoot s merkleRoot = .ok true) (spendable : Spendable s nullifiers)
      (verified : verifyProofBinding C.sha256 proof merkleRoot [nullifiers.1, nullifiers.2]
        [outputs.1, outputs.2] = true)
      (insert : InsertTwo C outputs (spentTwo s nullifiers) s') :
      Effect C s ⟨height, info,
          .withdraw proof merkleRoot nullifiers outputs recipient exitValue⟩
        { s' with poolBalance := s.poolBalance - exitValue }
  | finalizeEpoch {height : ℕ} {info : MessageInfo} {epoch : EpochInfo}
      {nullifiers : List String} {nullifierRoot : String}
      (governance : info.sender = s.config.governance)
      (current : s.epochs s.currentEpochId = some epoch) (running : epoch.finalized = false)
      (listed : s.epochNullifiers s.currentEpochId = some nullifiers)
      (root : nullifierRootOf C nullifiers = .ok nullifierRoot) :
      Effect C s ⟨height, info, .finalizeEpoch⟩
        { s with
          epochs := Function.update
            (Function.update s.epochs s.currentEpochId (some { epoch with
              nullifierRoot := nullifierRoot
              nullifierCount := nullifiers.length
              endHeight := some height
              finalized := true }))
            (s.currentEpochId + 1) (some ⟨height, none, ZERO_HASH, 0, false⟩)
          currentEpochId := s.currentEpochId + 1
          epochNullifiers :=
            Function.update s.epochNullifiers (s.currentEpochId + 1) (some []) }
  | syncEpochRoot {height : ℕ} {info : MessageInfo} {sourceChainId : BitVec 32} {epochId : ℕ}
      {nullifierRoot : String}
      (authorized : info.sender = s.config.governance
        ∨ some info.sender = s.config.authorizedRelayer)
      (root_ne : nullifierRoot.isEmpty = false) :
      Effect C s ⟨height, info, .syncEpochRoot sourceChainId epochId nullifierRoot⟩
        { s with
          remoteEpochRoots := Function.update s.remoteEpochRoots sourceChainId
            (Function.update (s.remoteEpochRoots sourceChainId) epochId
              (some nullifierRoot)) }
  | updateGovernance {height : ℕ} {info : MessageInfo} {newGovernance : String}
      (governance : info.sender = s.config.governance) :
      Effect C s ⟨height, info, .updateGovernance newGovernance⟩
        { s with config := { s.config with governance := newGovernance } }
  | setAuthorizedRelayer {height : ℕ} {info : MessageInfo} {relayer : Option String}
      (governance : info.sender = s.config.governance) :
      Effect C s ⟨height, info, .setAuthorizedRelayer relayer⟩
        { s with config := { s.config with authorizedRelayer := relayer } }

/-- **What finalizing an epoch needs and does.** -/
theorem executeFinalizeEpoch_eq_ok {height : ℕ} {info : MessageInfo} {s : State}
    {r : State × List BankMsg} :
    executeFinalizeEpoch C height info s = .ok r ↔
      info.sender = s.config.governance
        ∧ ∃ epoch nullifiers nullifierRoot, s.epochs s.currentEpochId = some epoch
          ∧ epoch.finalized = false ∧ s.epochNullifiers s.currentEpochId = some nullifiers
          ∧ nullifierRootOf C nullifiers = .ok nullifierRoot
          ∧ ({ s with
              epochs := Function.update
                (Function.update s.epochs s.currentEpochId (some { epoch with
                  nullifierRoot := nullifierRoot
                  nullifierCount := nullifiers.length
                  endHeight := some height
                  finalized := true }))
                (s.currentEpochId + 1) (some ⟨height, none, ZERO_HASH, 0, false⟩)
              currentEpochId := s.currentEpochId + 1
              epochNullifiers :=
                Function.update s.epochNullifiers (s.currentEpochId + 1) (some []) }, [])
            = r := by
  unfold executeFinalizeEpoch
  simp only [Except.bind_eq_ok, revertIf_eq_ok, orRevert_eq_ok, not_not, Bool.not_eq_true]
  constructor
  · rintro ⟨-, hgov, epoch, hepoch, -, hrunning, nullifiers, hlist, root, hroot, hr⟩
    exact ⟨hgov, epoch, nullifiers, root, hepoch, hrunning, hlist, hroot, Except.ok.inj hr⟩
  · rintro ⟨hgov, epoch, nullifiers, root, hepoch, hrunning, hlist, hroot, rfl⟩
    exact ⟨(), hgov, epoch, hepoch, (), hrunning, nullifiers, hlist, root, hroot, rfl⟩

/-- **The inversion of the messages.** -/
theorem execute_effect {c : Call} {s s' : State} {msgs : List BankMsg}
    (h : execute C c.height c.info c.msg s = .ok (s', msgs)) : Effect C s c s' := by
  obtain ⟨height, info, msg⟩ := c
  cases msg with
  | deposit commitment =>
    obtain ⟨hamount, hfresh, i, s₁, hinsert, hfits, hr⟩ := executeDeposit_eq_ok.mp h
    cases hr
    exact .deposit hamount hfresh hinsert hfits
  | transfer proof merkleRoot nullifiers outputs =>
    obtain ⟨hknown, hspendable, hverify, s₂, htwo, hr⟩ := executeTransfer_eq_ok.mp h
    cases hr
    exact .transfer hknown hspendable hverify htwo
  | withdraw proof merkleRoot nullifiers outputs recipient exitValue =>
    obtain ⟨hexit, hbalance, hknown, hspendable, hverify, s₂, htwo, hr⟩ :=
      executeWithdraw_eq_ok.mp h
    cases hr
    exact .withdraw hexit hbalance hknown hspendable hverify htwo
  | finalizeEpoch =>
    obtain ⟨hgov, epoch, nullifiers, root, hepoch, hrunning, hlist, hroot, hr⟩ :=
      executeFinalizeEpoch_eq_ok.mp h
    cases hr
    exact .finalizeEpoch hgov hepoch hrunning hlist hroot
  | syncEpochRoot sourceChainId epochId nullifierRoot =>
    change executeSyncEpochRoot info sourceChainId epochId nullifierRoot s = _ at h
    unfold executeSyncEpochRoot at h
    simp only [Except.bind_eq_ok, revertIf_eq_ok, not_and_or, not_not,
      Bool.not_eq_true] at h
    obtain ⟨-, hauth, -, hroot, hr⟩ := h
    cases hr
    exact .syncEpochRoot hauth hroot
  | updateGovernance newGovernance =>
    change executeUpdateGovernance info newGovernance s = _ at h
    unfold executeUpdateGovernance at h
    simp only [Except.bind_eq_ok, revertIf_eq_ok, not_not] at h
    obtain ⟨-, hgov, hr⟩ := h
    cases hr
    exact .updateGovernance hgov
  | setAuthorizedRelayer relayer =>
    change executeSetAuthorizedRelayer info relayer s = _ at h
    unfold executeSetAuthorizedRelayer at h
    simp only [Except.bind_eq_ok, revertIf_eq_ok, not_not] at h
    obtain ⟨-, hgov, hr⟩ := h
    cases hr
    exact .setAuthorizedRelayer hgov

/-- **What a step of the machine did.** -/
theorem step_effect {c : Call} {s s' : State} (h : step C c s = .ok s') : Effect C s c s' := by
  obtain ⟨⟨s'', msgs⟩, hexec, rfl⟩ := Except.map_eq_ok.mp h
  exact execute_effect hexec

end CosmWasmPool
