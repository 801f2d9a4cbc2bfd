import SoulPrivacy.CosmWasmBinding

/-!
# The settings of the CosmWasm pool

The depth of the tree and the size of its history are taken as they come. With a
depth up to 63 and a history of at least one root, the arithmetic of an
insertion and of the search for a root never fails (`execute_failsIn`): the
capacity fits, and the place of the latest root stays below the size
(`InBounds`). With any other settings the first deposit panics, so these are all
the settings that are safe (`no_arithmetic_failure_iff`).
-/

namespace CosmWasmPool

variable {C : Crypto}

/-! ## What does not fail -/

/-- The messages that move money or notes. -/
def ExecuteMsg.moves : ExecuteMsg → Bool
  | .deposit _ | .transfer .. | .withdraw .. => true
  | _ => false

/-- A failure that is not of the arithmetic of an insertion or of the search for
a root. -/
def Error.NotArithmetic (e : Error) : Prop :=
  e ≠ .overflow ∧ e ≠ .underflow ∧ e ≠ .divisionByZero

/-- **The settings are in bounds**, and so is the place of the latest root. -/
structure InBounds (s : State) : Prop where
  depth : s.config.treeDepth.toNat ≤ 63
  current : s.currentRootIndex < s.config.rootHistorySize.toNat

theorem InBounds.of_eq {s s' : State} (h : InBounds s)
    (hdepth : s'.config.treeDepth = s.config.treeDepth)
    (hsize : s'.config.rootHistorySize = s.config.rootHistorySize)
    (hcurrent : s'.currentRootIndex = s.currentRootIndex) : InBounds s' := by
  obtain ⟨depth, current⟩ := h
  rw [← hdepth] at depth
  rw [← hsize, ← hcurrent] at current
  exact ⟨depth, current⟩

theorem poseidonHashHex_failsIn (left right : String) :
    (poseidonHashHex C left right).FailsIn Error.NotArithmetic :=
  orRevert_failsIn (by simp [Error.NotArithmetic]) _

theorem zeroHash_failsIn (level : ℕ) :
    (zeroHash C level).FailsIn Error.NotArithmetic := by
  induction level with
  | zero => exact Except.failsIn_ok _ _
  | succ level ih => exact ih.bind (fun z _ => poseidonHashHex_failsIn z z)

/-- A level of an insertion fails on texts and entries only. -/
theorem insertStep_failsIn (st : Climb) (level : ℕ) :
    (insertStep C st level).FailsIn Error.NotArithmetic := by
  unfold insertStep
  split
  · exact (zeroHash_failsIn level).bind (fun zero _ =>
      (poseidonHashHex_failsIn _ zero).bind (fun _ _ => Except.failsIn_ok _ _))
  · exact (orRevert_failsIn (by simp [Error.NotArithmetic]) _).bind (fun sibling _ =>
      (poseidonHashHex_failsIn sibling _).bind (fun _ _ => Except.failsIn_ok _ _))

/-- **The arithmetic of an insertion does not fail.** -/
theorem InBounds.insertLeaf_failsIn {s : State} (h : InBounds s) (leaf : String) :
    (insertLeaf C leaf s).FailsIn Error.NotArithmetic := by
  have hpow : 2 ^ s.config.treeDepth.toNat ≤ 2 ^ 63 := Nat.pow_le_pow_right Nat.two_pos h.depth
  unfold insertLeaf
  rw [powTwo_of_le h.depth]
  refine Except.FailsIn.bind (Except.failsIn_ok _ _) (fun maxLeaves hmax => ?_)
  cases hmax
  refine Except.FailsIn.bind (revertIf_failsIn (fun _ => by simp [Error.NotArithmetic]))
    (fun _ hroom => ?_)
  rw [revertIf_eq_ok] at hroom
  refine Except.FailsIn.bind (Except.failsIn_foldlM insertStep_failsIn _ _) (fun st _ => ?_)
  rw [nextRootIndex_eq h.current]
  refine Except.FailsIn.bind (Except.failsIn_ok _ _) (fun newIdx _ => ?_)
  exact Except.FailsIn.bind (revertIf_failsIn (fun hle => absurd hle (by omega)))
    (fun _ _ => Except.failsIn_ok _ _)

/-- **… and leaves the place in bounds.** -/
theorem InBounds.insertLeaf {s s' : State} (h : InBounds s) {leaf : String} {i : ℕ}
    (hinsert : insertLeaf C leaf s = .ok (i, s')) : InBounds s' := by
  unfold CosmWasmPool.insertLeaf at hinsert
  simp only [Except.bind_eq_ok, revertIf_eq_ok, nextRootIndex_eq h.current] at hinsert
  obtain ⟨_, -, -, -, st, -, newIdx, hnew, -, -, hr⟩ := hinsert
  cases hnew
  cases hr
  exact ⟨h.depth, Nat.mod_lt _ (Nat.zero_lt_of_lt h.current)⟩

theorem InBounds.insertTwo {s s' : State} (h : InBounds s) {outputs : String × String}
    (htwo : InsertTwo C outputs s s') : InBounds s' := by
  obtain ⟨i₁, s₁, i₂, h₁, h₂⟩ := htwo
  exact (h.insertLeaf h₁).insertLeaf h₂

/-- **The arithmetic of the search does not fail.** -/
theorem InBounds.isKnownRoot_failsIn {s : State} (h : InBounds s) (root : String) :
    (isKnownRoot s root).FailsIn Error.NotArithmetic := by
  unfold isKnownRoot
  split
  · exact Except.failsIn_ok _ _
  · rw [searchRoots_eq _ (rootHistorySize_ne_zero h.current)]
    exact Except.failsIn_ok _ _

theorem checkAndSpendNullifiers_failsIn (nullifiers : String × String) (s : State) :
    (checkAndSpendNullifiers nullifiers s).FailsIn Error.NotArithmetic := by
  have hone : ∀ s n, (checkAndSpendNullifier s n).FailsIn Error.NotArithmetic := by
    intro s n
    unfold checkAndSpendNullifier
    refine Except.FailsIn.bind (revertIf_failsIn (fun _ => by simp [Error.NotArithmetic]))
      (fun _ _ => ?_)
    refine Except.FailsIn.bind (orRevert_failsIn (by simp [Error.NotArithmetic]) _)
      (fun _ _ => ?_)
    exact Except.FailsIn.bind (revertIf_failsIn (fun _ => by simp [Error.NotArithmetic]))
      (fun _ _ => Except.failsIn_ok _ _)
  exact (hone s _).bind (fun s' _ => hone s' _)

/-- What a transfer and a withdrawal have in common, and whatever follows. -/
theorem InBounds.spend_failsIn {s : State} (h : InBounds s) (nullifiers outputs : String × String)
    {p : Prop} [Decidable p] {β : Type} {rest : ℕ × State → Except Error β}
    (hrest : ∀ r, (rest r).FailsIn Error.NotArithmetic) :
    (checkAndSpendNullifiers nullifiers s >>= fun s =>
      revertIf p Error.invalidProof >>= fun _ =>
        CosmWasmPool.insertLeaf C outputs.1 s >>= fun r =>
          CosmWasmPool.insertLeaf C outputs.2 r.2 >>= rest).FailsIn Error.NotArithmetic := by
  refine (checkAndSpendNullifiers_failsIn nullifiers s).bind (fun s' hs' => ?_)
  obtain ⟨-, rfl⟩ := checkAndSpendNullifiers_eq_ok.mp hs'
  have hspent : InBounds (spentTwo s nullifiers) := h.of_eq rfl rfl rfl
  refine Except.FailsIn.bind (revertIf_failsIn (fun _ => by simp [Error.NotArithmetic]))
    (fun _ _ => ?_)
  refine (hspent.insertLeaf_failsIn outputs.1).bind (fun r₁ hr₁ => ?_)
  exact ((hspent.insertLeaf hr₁).insertLeaf_failsIn outputs.2).bind (fun r₂ _ => hrest r₂)

/-- **No deposit, transfer or withdrawal fails in its arithmetic**, the sums of
its amounts apart. -/
theorem InBounds.execute_failsIn {s : State} (h : InBounds s) (c : Call)
    (hmsg : c.msg.moves = true) :
    (execute C c.height c.info c.msg s).FailsIn Error.NotArithmetic := by
  obtain ⟨height, info, msg⟩ := c
  have hguard : ∀ (p : Prop) [Decidable p] (e : Error), e.NotArithmetic →
      (revertIf p e).FailsIn Error.NotArithmetic := fun p _ e he => revertIf_failsIn (fun _ => he)
  cases msg with
  | deposit commitment =>
    have hrecorded : InBounds (recorded s commitment) := h.of_eq rfl rfl rfl
    refine (hguard _ _ (by simp [Error.NotArithmetic])).bind (fun _ _ => ?_)
    refine (hguard _ _ (by simp [Error.NotArithmetic])).bind (fun _ _ => ?_)
    refine (hrecorded.insertLeaf_failsIn commitment).bind (fun _ _ => ?_)
    exact (hguard _ _ (by simp [Error.NotArithmetic])).bind (fun _ _ => Except.failsIn_ok _ _)
  | transfer proof merkleRoot nullifiers outputs =>
    refine (h.isKnownRoot_failsIn merkleRoot).bind (fun _ _ => ?_)
    refine (hguard _ _ (by simp [Error.NotArithmetic])).bind (fun _ _ => ?_)
    exact h.spend_failsIn nullifiers outputs (fun _ => Except.failsIn_ok _ _)
  | withdraw proof merkleRoot nullifiers outputs recipient exitValue =>
    refine (hguard _ _ (by simp [Error.NotArithmetic])).bind (fun _ _ => ?_)
    refine (hguard _ _ (by simp [Error.NotArithmetic])).bind (fun _ _ => ?_)
    refine (h.isKnownRoot_failsIn merkleRoot).bind (fun _ _ => ?_)
    refine (hguard _ _ (by simp [Error.NotArithmetic])).bind (fun _ _ => ?_)
    exact h.spend_failsIn nullifiers outputs (fun _ => Except.failsIn_ok _ _)
  | finalizeEpoch => cases hmsg
  | syncEpochRoot => cases hmsg
  | updateGovernance => cases hmsg
  | setAuthorizedRelayer => cases hmsg

/-- **A step keeps the place in bounds.** -/
theorem InBounds.step {s s' : State} (h : InBounds s) {c : Call} (hstep : step C c s = .ok s') :
    InBounds s' := by
  cases step_effect hstep with
  | deposit _ _ insert _ =>
    refine (InBounds.insertLeaf ?_ insert).of_eq rfl rfl rfl
    exact h.of_eq rfl rfl rfl
  | transfer _ _ _ insert =>
    refine InBounds.insertTwo ?_ insert
    exact h.of_eq rfl rfl rfl
  | withdraw _ _ _ _ _ insert =>
    refine (InBounds.insertTwo ?_ insert).of_eq rfl rfl rfl
    exact h.of_eq rfl rfl rfl
  | finalizeEpoch _ _ _ _ _ => exact h.of_eq rfl rfl rfl
  | syncEpochRoot _ _ => exact h.of_eq rfl rfl rfl
  | updateGovernance _ => exact h.of_eq rfl rfl rfl
  | setAuthorizedRelayer _ => exact h.of_eq rfl rfl rfl

/-- **A contract starts in bounds** when its settings are. -/
theorem inBounds_initial (height : ℕ) {msg : InstantiateMsg} (st : (ℕ → Option String) × String)
    (hdepth : msg.treeDepth.toNat ≤ 63) (hsize : msg.rootHistorySize ≠ 0) :
    InBounds (initial height msg st) where
  depth := hdepth
  current := Nat.pos_of_ne_zero (fun h => hsize (BitVec.eq_of_toNat_eq h))

/-- **Every state of a run is in bounds** when the settings are. -/
theorem inBounds_of_run {height : ℕ} {msg : InstantiateMsg} {allowed : State → Call → Prop}
    {tr : List (State × Call)} {s : State} (h : RunFrom C height msg allowed tr s)
    (hdepth : msg.treeDepth.toNat ≤ 63) (hsize : msg.rootHistorySize ≠ 0) : InBounds s := by
  obtain ⟨s₀, hs₀, hrun⟩ := h
  obtain ⟨st, rfl⟩ := exists_initial hs₀
  exact hrun.invariant (I := fun _ s => InBounds s) (inBounds_initial height st hdepth hsize)
    (fun _ _ _ _ ih _ hstep => ih.step hstep)

/-! ## What does fail -/

/-- A message that comes with a single coin. -/
def oneCoin (denom : String) : MessageInfo := ⟨"alice", [⟨denom, 1⟩]⟩

theorem amountIn_singleton (denom : String) (amount : BitVec 128) :
    amountIn denom [⟨denom, amount⟩] = amount := by simp [amountIn]

/-- A deposit fails as its insertion does. -/
theorem executeDeposit_of_error {info : MessageInfo} {commitment : String} {s : State} {e : Error}
    (hamount : amountIn s.config.acceptedDenom info.funds ≠ 0)
    (hnew : s.commitmentExists commitment = false)
    (h : insertLeaf C commitment (recorded s commitment) = .error e) :
    executeDeposit C info commitment s = .error e := by
  unfold executeDeposit
  dsimp only
  rw [revertIf_bind_of_neg hamount,
    revertIf_bind_of_neg (fun hexists => Bool.false_ne_true (hnew.symm.trans hexists))]
  show insertLeaf C commitment (recorded s commitment) >>= _ = _
  rw [h]
  rfl

/-- The first deposit gets as far as its insertion. -/
theorem execute_deposit_of_error {height : ℕ} {msg : InstantiateMsg}
    {st : (ℕ → Option String) × String} {e : Error}
    (h : insertLeaf C (Bytes32.toHex 7)
      (recorded (initial height msg st) (Bytes32.toHex 7)) = .error e) :
    execute C 2 (oneCoin msg.acceptedDenom) (.deposit (Bytes32.toHex 7)) (initial height msg st)
      = .error e := by
  have hamount : amountIn (initial height msg st).config.acceptedDenom
      (oneCoin msg.acceptedDenom).funds = 1 := amountIn_singleton msg.acceptedDenom 1
  exact executeDeposit_of_error (by rw [hamount]; decide) rfl h

/-- **From a depth of 64 on the capacity does not fit.** -/
theorem insertLeaf_of_deep {s : State} (hdepth : 64 ≤ s.config.treeDepth.toNat) (leaf : String) :
    insertLeaf C leaf s = .error .overflow := by
  unfold insertLeaf powTwo
  rw [if_neg (Nat.not_lt.mpr hdepth)]
  rfl

/-- **Without a history there is no place for the root**: the remainder by its
size panics, after the levels have been climbed. -/
theorem insertLeaf_of_no_history {s : State} (hdepth : s.config.treeDepth.toNat ≤ 63)
    (hsize : s.config.rootHistorySize = 0)
    (hwritten : Written s.filledSubtrees s.config.treeDepth.toNat)
    (hroom : s.nextLeafIndex < 2 ^ s.config.treeDepth.toNat)
    (hcurrent : s.currentRootIndex + 1 < 2 ^ 32) {leaf : String} (hleaf : IsHex64 leaf) :
    insertLeaf C leaf s = .error .divisionByZero := by
  obtain ⟨st, hloop, -⟩ := exists_foldlM_insertStep (C := C) hwritten hleaf s.nextLeafIndex le_rfl
  have hnext : nextRootIndex s = .error .divisionByZero := by
    unfold nextRootIndex
    rw [revertIf_bind_of_neg (Nat.not_le.mpr hcurrent), revertIf_bind_of_pos hsize]
  unfold insertLeaf
  rw [powTwo_of_le hdepth]
  show revertIf _ _ >>= _ = _
  rw [revertIf_bind_of_neg (Nat.not_le.mpr hroom), hloop]
  show nextRootIndex s >>= _ = _
  rw [hnext]
  rfl

/-- **The first deposit into a contract** whose settings are out of bounds. -/
theorem exists_firstDeposit (C : Crypto) (height : ℕ) (msg : InstantiateMsg) :
    ∃ s₀, instantiate C height msg = .ok s₀
      ∧ (64 ≤ msg.treeDepth.toNat →
        execute C 2 (oneCoin msg.acceptedDenom) (.deposit (Bytes32.toHex 7)) s₀
          = .error .overflow)
      ∧ (msg.treeDepth.toNat ≤ 63 → msg.rootHistorySize = 0 →
        execute C 2 (oneCoin msg.acceptedDenom) (.deposit (Bytes32.toHex 7)) s₀
          = .error .divisionByZero) := by
  obtain ⟨filled, hinstantiate, hwritten⟩ := exists_instantiate_eq (C := C) height msg
  refine ⟨_, hinstantiate, fun hdeep => ?_, fun hdepth hsize => ?_⟩
  · exact execute_deposit_of_error (insertLeaf_of_deep hdeep _)
  · exact execute_deposit_of_error (insertLeaf_of_no_history hdepth hsize hwritten
      (Nat.two_pow_pos _) (show 0 + 1 < 2 ^ 32 by decide)
      (Bytes32.isLowerHex64_toHex 7).isHex64)

/-! ## The settings that are safe -/

/-- **A deposit, a transfer or a withdrawal of words**: its root, its nullifiers
and its commitments are texts of 64 digits. -/
def ExecuteMsg.OfWords : ExecuteMsg → Prop
  | .deposit commitment => IsHex64 commitment
  | .transfer _ merkleRoot nullifiers outputCommitments
  | .withdraw _ merkleRoot nullifiers outputCommitments _ _ =>
    IsHex64 merkleRoot ∧ (IsHex64 nullifiers.1 ∧ IsHex64 nullifiers.2)
      ∧ IsHex64 outputCommitments.1 ∧ IsHex64 outputCommitments.2
  | _ => False

theorem ExecuteMsg.OfWords.moves {msg : ExecuteMsg} (h : msg.OfWords) : msg.moves = true := by
  cases msg with
  | deposit => rfl
  | transfer => rfl
  | withdraw => rfl
  | finalizeEpoch => exact h.elim
  | syncEpochRoot => exact h.elim
  | updateGovernance => exact h.elim
  | setAuthorizedRelayer => exact h.elim

/-- **The arithmetic of the tree never fails** – in any state of any run, for a
deposit, a transfer or a withdrawal of words – exactly when the depth is at most
63 and the history holds a root. -/
theorem no_arithmetic_failure_iff (C : Crypto) (height : ℕ) (msg : InstantiateMsg) :
    (∀ tr s, RunFrom C height msg (fun _ _ => True) tr s → ∀ c : Call, c.msg.OfWords →
        (execute C c.height c.info c.msg s).FailsIn Error.NotArithmetic)
      ↔ msg.treeDepth.toNat ≤ 63 ∧ msg.rootHistorySize ≠ 0 := by
  constructor
  · intro hsafe
    obtain ⟨s₀, hs₀, hdeep, hshallow⟩ := exists_firstDeposit C height msg
    have hfirst := hsafe [] s₀ ⟨s₀, hs₀, .nil⟩
      ⟨2, oneCoin msg.acceptedDenom, .deposit (Bytes32.toHex 7)⟩
      (Bytes32.isLowerHex64_toHex 7).isHex64
    have hdepth : msg.treeDepth.toNat ≤ 63 := by
      by_contra hlt
      exact (hfirst _ (hdeep (by omega))).1 rfl
    exact ⟨hdepth, fun hsize => (hfirst _ (hshallow hdepth hsize)).2.2 rfl⟩
  · rintro ⟨hdepth, hsize⟩ tr s hrun c hwords
    exact (inBounds_of_run hrun hdepth hsize).execute_failsIn c hwords.moves

/-- **Two contracts whose first deposit panics**: one of depth 64, and one that
keeps no root. -/
theorem exists_arithmetic_failure :
    (∀ C, ∃ s₀, instantiate C 1 ⟨64, 3600, 4, 3, 1, 1, "gov", "uatom"⟩ = .ok s₀
        ∧ execute C 2 (oneCoin "uatom") (.deposit (Bytes32.toHex 7)) s₀ = .error .overflow)
      ∧ ∀ C, ∃ s₀, instantiate C 1 ⟨2, 3600, 4, 0, 1, 1, "gov", "uatom"⟩ = .ok s₀
        ∧ execute C 2 (oneCoin "uatom") (.deposit (Bytes32.toHex 7)) s₀
          = .error .divisionByZero := by
  constructor
  · intro C
    obtain ⟨s₀, hs₀, hdeep, -⟩ :=
      exists_firstDeposit C 1 ⟨64, 3600, 4, 3, 1, 1, "gov", "uatom"⟩
    exact ⟨s₀, hs₀, hdeep (by decide)⟩
  · intro C
    obtain ⟨s₀, hs₀, -, hshallow⟩ :=
      exists_firstDeposit C 1 ⟨2, 3600, 4, 0, 1, 1, "gov", "uatom"⟩
    exact ⟨s₀, hs₀, hshallow (by decide) (by decide)⟩

end CosmWasmPool
