import SoulPrivacy.InkPool

/-!
# What a successful call of the ink! pool did

`Effect` lists, message by message, what a call that went through says, and
`exec_eq_ok` is the inversion of the messages.

The capacity of the tree is computed as `1u32 << 32`. With overflow checks that
panics, and without them it is 1. So a deposit and a reveal go through for the
first leaf only, and only where overflow is not checked (`checkCapacity_eq_ok`).
-/

namespace InkPool

variable {keccak256 : Bytes → Bytes32} {build : Build}

/-! ## Arithmetic -/

/-- **A sum goes through**: where overflow is checked, there is none. -/
def Build.Fits (build : Build) {w : ℕ} (x y : BitVec w) : Prop :=
  build = .checked → x.toNat + y.toNat < 2 ^ w

theorem Build.add_eq_ok {w : ℕ} {x y z : BitVec w} :
    build.add x y = .ok z ↔ build.Fits x y ∧ x + y = z := by
  unfold Build.add
  rw [revertIf_bind_eq_ok, not_and, not_le]
  exact and_congr_right (fun _ => ⟨Except.ok.inj, congrArg _⟩)

/-- Where overflow is not checked, it always does. -/
theorem Build.fits_of_wrapping {w : ℕ} (x y : BitVec w) : Build.wrapping.Fits x y :=
  fun h => by cases h

/-- **The capacity check** passes for an empty tree only, and only where the
overflow of the shift is not checked. -/
theorem checkCapacity_eq_ok {s : State} {u : Unit} :
    checkCapacity build s = .ok u ↔ build = .wrapping ∧ s.nextLeafIndex = 0 := by
  unfold checkCapacity Build.shl TREE_DEPTH
  cases build with
  | checked =>
    rw [revertIf, if_pos ⟨rfl, le_rfl⟩]
    exact iff_of_false (fun h => by cases h) (fun h => by cases h.1)
  | wrapping =>
    rw [revertIf_bind_of_neg (by simp), Except.bind_eq_ok]
    simp only [revertIf_eq_ok, Except.ok.injEq, true_and]
    rw [exists_eq_left', BitVec.not_le]
    exact ⟨fun h => BitVec.eq_of_toNat_eq (Nat.lt_one_iff.mp h), fun h => by rw [h]; decide⟩

/-! ## Insertions -/

/-- The state with a new leaf. -/
def inserted (keccak256 : Bytes → Bytes32) (s : State) (commitment : Bytes32) : State :=
  { updateTree keccak256 s.nextLeafIndex commitment
      { s with
        leaves := Function.update s.leaves commitment (some s.nextLeafIndex)
        nodes := Function.update s.nodes (0, s.nextLeafIndex.toNat) (some commitment) } with
    nextLeafIndex := s.nextLeafIndex + 1 }

/-- … and with several. -/
def insertedAll (keccak256 : Bytes → Bytes32) (s : State) (commitments : List Bytes32) : State :=
  commitments.foldl (inserted keccak256) s

/-- **What one insertion leaves as it is, several do.** -/
theorem insertedAll_keeps {β : Type} {f : State → β}
    (h : ∀ s cm, f (inserted keccak256 s cm) = f s) (s : State) (cms : List Bytes32) :
    f (insertedAll keccak256 s cms) = f s := by
  induction cms generalizing s with
  | nil => rfl
  | cons cm cms ih => exact (ih (inserted keccak256 s cm)).trans (h s cm)

theorem insertLeaf_eq_ok {commitment : Bytes32} {s s' : State} :
    insertLeaf keccak256 build commitment s = .ok s' ↔
      build.Fits s.nextLeafIndex 1 ∧ inserted keccak256 s commitment = s' := by
  unfold insertLeaf
  simp only [Except.bind_eq_ok, Build.add_eq_ok]
  constructor
  · rintro ⟨_, ⟨hfits, rfl⟩, hs⟩
    exact ⟨hfits, Except.ok.inj hs⟩
  · rintro ⟨hfits, rfl⟩
    exact ⟨_, ⟨hfits, rfl⟩, rfl⟩

/-- **Two outputs that can be inserted**: they are new and differ, and where
overflow is checked there is room for both and one more. -/
structure Outputs (build : Build) (s : State) (outputs : Bytes32 × Bytes32) : Prop where
  fst : s.leaves outputs.1 = none
  snd : s.leaves outputs.2 = none
  ne : outputs.2 ≠ outputs.1
  room : build = .checked → s.nextLeafIndex.toNat + 2 < 2 ^ 32

theorem insertOutput_eq_ok {cm : Bytes32} {s s' : State} :
    insertOutput keccak256 build cm s = .ok s' ↔
      s.leaves cm = none ∧ build.Fits s.nextLeafIndex 1 ∧ inserted keccak256 s cm = s' := by
  unfold insertOutput
  rw [revertIf_bind_eq_ok, insertLeaf_eq_ok, Bool.not_eq_true, Option.isSome_eq_false_iff,
    Option.isNone_iff_eq_none]

/-- What the leaves are after an insertion. -/
theorem leaves_inserted (s : State) (cm : Bytes32) :
    (inserted keccak256 s cm).leaves
      = Function.update s.leaves cm (some s.nextLeafIndex) := rfl

theorem nextLeafIndex_inserted (s : State) (cm : Bytes32) :
    (inserted keccak256 s cm).nextLeafIndex = s.nextLeafIndex + 1 := rfl

/-- What the loop of `update_tree` ends with for a new leaf. -/
def climbed (keccak256 : Bytes → Bytes32) (s : State) (cm : Bytes32) : Climb :=
  (List.range TREE_DEPTH).foldl (updateStep keccak256) ⟨cm, s.nextLeafIndex.toNat,
    Function.update s.nodes (0, s.nextLeafIndex.toNat) (some cm)⟩

theorem nodes_inserted (s : State) (cm : Bytes32) :
    (inserted keccak256 s cm).nodes = (climbed keccak256 s cm).nodes := by
  unfold inserted updateTree climbed
  dsimp only

theorem currentRoot_inserted (s : State) (cm : Bytes32) :
    (inserted keccak256 s cm).currentRoot = (climbed keccak256 s cm).currentHash := by
  unfold inserted updateTree climbed
  dsimp only

/-- **Both outputs of a spend.** -/
theorem insertOutput_two_eq_ok {outputs : Bytes32 × Bytes32} {s s' : State} :
    (∃ s₁, insertOutput keccak256 build outputs.1 s = .ok s₁
        ∧ insertOutput keccak256 build outputs.2 s₁ = .ok s') ↔
      Outputs build s outputs ∧ insertedAll keccak256 s [outputs.1, outputs.2] = s' := by
  have hsnd : (inserted keccak256 s outputs.1).leaves outputs.2 = none ↔
      s.leaves outputs.2 = none ∧ outputs.2 ≠ outputs.1 := by
    rw [leaves_inserted, Function.update_apply]
    split
    · rename_i heq
      exact iff_of_false nofun (fun h => h.2 heq)
    · rename_i hne
      exact (and_iff_left hne).symm
  have hsum : ∀ {x : BitVec 32}, x.toNat + 1 < 2 ^ 32 → (x + 1).toNat = x.toNat + 1 := by
    intro x hx
    rw [BitVec.toNat_add]
    exact Nat.mod_eq_of_lt hx
  simp only [insertOutput_eq_ok]
  constructor
  · rintro ⟨_, ⟨hfst, hfits, rfl⟩, hsecond, hfits', rfl⟩
    obtain ⟨hs, hne⟩ := hsnd.mp hsecond
    refine ⟨⟨hfst, hs, hne, fun hbuild => ?_⟩, rfl⟩
    have hroom : s.nextLeafIndex.toNat + 1 < 2 ^ 32 := hfits hbuild
    have hroom' : (s.nextLeafIndex + 1).toNat + 1 < 2 ^ 32 := hfits' hbuild
    rw [hsum hroom] at hroom'
    exact hroom'
  · rintro ⟨⟨hfst, hs, hne, hroom⟩, rfl⟩
    refine ⟨_, ⟨hfst, fun hbuild => Nat.lt_of_succ_lt (hroom hbuild), rfl⟩,
      hsnd.mpr ⟨hs, hne⟩, fun hbuild => ?_, rfl⟩
    show (s.nextLeafIndex + 1).toNat + 1 < 2 ^ 32
    rw [hsum (Nat.lt_of_succ_lt (hroom hbuild))]
    exact hroom hbuild

/-- The state after a call that pushes the root. -/
def pushed (s : State) : State := pushRoot s.currentRoot s

theorem deposit_eq_ok {env : Env} {commitment : Bytes32} {s s' : State} :
    deposit keccak256 build env commitment s = .ok s' ↔
      s.paused = false ∧ env.transferredValue ≠ 0 ∧ s.leaves commitment = none
        ∧ build = .wrapping ∧ s.nextLeafIndex = 0
        ∧ pushed { inserted keccak256 s commitment with
          poolBalance := s.poolBalance + env.transferredValue } = s' := by
  unfold deposit
  simp only [Except.bind_eq_ok, revertIf_eq_ok, checkCapacity_eq_ok, insertLeaf_eq_ok,
    Build.add_eq_ok, Bool.not_eq_true, Option.isSome_eq_false_iff, Option.isNone_iff_eq_none]
  constructor
  · rintro ⟨-, hrunning, -, hvalue, -, hfresh, -, ⟨hbuild, hindex⟩, _, ⟨-, rfl⟩, _, ⟨-, rfl⟩,
      hs⟩
    exact ⟨hrunning, hvalue, hfresh, hbuild, hindex, Except.ok.inj hs⟩
  · rintro ⟨hrunning, hvalue, hfresh, rfl, hindex, rfl⟩
    exact ⟨(), hrunning, (), hvalue, (), hfresh, (), ⟨rfl, hindex⟩, _,
      ⟨Build.fits_of_wrapping _ _, rfl⟩, _, ⟨Build.fits_of_wrapping _ _, rfl⟩, rfl⟩

/-! ## Spends -/

/-- **What a transfer and a withdrawal need** besides room for the outputs: the
pool is not paused, the root is known, the nullifiers are not spent and the
proof is verified. -/
structure Spends (keccak256 : Bytes → Bytes32) (s : State) (proof : Bytes)
    (merkleRoot : Bytes32) (nullifiers outputs : Bytes32 × Bytes32) : Prop where
  running : s.paused = false
  known : isKnownRoot s merkleRoot = true
  unspent : anySpent nullifiers s = false
  verified : verifyProofStructure keccak256 proof nullifiers outputs = .ok ()

/-- … and the state after one of them. -/
def afterSpend (keccak256 : Bytes → Bytes32) (s : State)
    (nullifiers outputs : Bytes32 × Bytes32) : State :=
  insertedAll keccak256 (markSpent nullifiers s) [outputs.1, outputs.2]

/-- … and a spend does, if the nullifiers do not matter to it. -/
theorem afterSpend_keeps {β : Type} {f : State → β}
    (h : ∀ s cm, f (inserted keccak256 s cm) = f s)
    (hmarked : ∀ s nullifiers, f (markSpent nullifiers s) = f s) (s : State)
    (nullifiers outputs : Bytes32 × Bytes32) :
    f (afterSpend keccak256 s nullifiers outputs) = f s :=
  (insertedAll_keeps h (markSpent nullifiers s) _).trans (hmarked s nullifiers)

/-- The nullifiers make no difference to the outputs. -/
theorem insertOutputs_markSpent {nullifiers outputs : Bytes32 × Bytes32} {s s' : State} :
    (∃ s₁, insertOutput keccak256 build outputs.1 (markSpent nullifiers s) = .ok s₁
        ∧ insertOutput keccak256 build outputs.2 s₁ = .ok s') ↔
      Outputs build s outputs ∧ afterSpend keccak256 s nullifiers outputs = s' := by
  rw [insertOutput_two_eq_ok]
  exact and_congr_left' ⟨fun h => ⟨h.fst, h.snd, h.ne, h.room⟩,
    fun h => ⟨h.fst, h.snd, h.ne, h.room⟩⟩

theorem transfer_eq_ok {proof : Bytes} {merkleRoot : Bytes32}
    {nullifiers outputs : Bytes32 × Bytes32} {s s' : State} :
    transfer keccak256 build proof merkleRoot nullifiers outputs s = .ok s' ↔
      Spends keccak256 s proof merkleRoot nullifiers outputs ∧ Outputs build s outputs
        ∧ pushed (afterSpend keccak256 s nullifiers outputs) = s' := by
  unfold transfer
  simp only [Except.bind_eq_ok, revertIf_eq_ok, Bool.not_eq_true, Bool.not_eq_false]
  constructor
  · rintro ⟨-, hrunning, -, hknown, -, hunspent, ⟨⟩, hverified, s₁, h₁, s₂, h₂, hs⟩
    obtain ⟨houtputs, rfl⟩ := insertOutputs_markSpent.mp ⟨s₁, h₁, h₂⟩
    exact ⟨⟨hrunning, hknown, hunspent, hverified⟩, houtputs, Except.ok.inj hs⟩
  · rintro ⟨⟨hrunning, hknown, hunspent, hverified⟩, houtputs, rfl⟩
    obtain ⟨s₁, h₁, h₂⟩ := insertOutputs_markSpent.mpr ⟨houtputs, rfl⟩
    exact ⟨(), hrunning, (), hknown, (), hunspent, (), hverified, s₁, h₁, _, h₂, rfl⟩

/-- **What a verified proof says** about the nullifiers and the outputs. -/
theorem ne_of_verified {proof : Bytes} {nullifiers outputs : Bytes32 × Bytes32} {u : Unit}
    (h : verifyProofStructure keccak256 proof nullifiers outputs = .ok u) :
    nullifiers.1 ≠ nullifiers.2 ∧ nullifiers.1 ≠ 0 ∧ nullifiers.2 ≠ 0 ∧ outputs.1 ≠ 0
      ∧ outputs.2 ≠ 0 := by
  unfold verifyProofStructure at h
  simp only [revertIf_bind_eq_ok, not_or] at h
  obtain ⟨-, -, -, -, hne, ⟨h₁, h₂⟩, ⟨h₃, h₄⟩, -⟩ := h
  exact ⟨hne, h₁, h₂, h₃, h₄⟩

/-- An output that is not zero is inserted. -/
theorem insertChange_of_ne {cm : Bytes32} (h : cm ≠ 0) (s : State) :
    insertChange keccak256 build cm s = insertOutput keccak256 build cm s := if_pos h

theorem withdraw_eq_ok {env : Env} {proof : Bytes} {merkleRoot : Bytes32}
    {nullifiers outputs : Bytes32 × Bytes32} {recipient : AccountId} {amount : Balance}
    {s : State} {r : State × Payment} :
    withdraw keccak256 build env proof merkleRoot nullifiers outputs recipient amount s = .ok r ↔
      Spends keccak256 s proof merkleRoot nullifiers outputs ∧ Outputs build s outputs
        ∧ amount ≤ s.poolBalance ∧ env.accepts = true
        ∧ (pushed { afterSpend keccak256 s nullifiers outputs with
            poolBalance := s.poolBalance - amount }, ⟨recipient, amount⟩) = r := by
  unfold withdraw
  simp only [Except.bind_eq_ok, revertIf_eq_ok, Bool.not_eq_true, Bool.not_eq_false,
    BitVec.not_lt]
  constructor
  · rintro ⟨-, hrunning, -, hknown, -, hunspent, ⟨⟩, hverified, -, hbalance, s₁, h₁, s₂, h₂, -,
      haccepts, hr⟩
    obtain ⟨-, -, -, hne₁, hne₂⟩ := ne_of_verified hverified
    rw [insertChange_of_ne hne₁] at h₁
    rw [insertChange_of_ne hne₂] at h₂
    obtain ⟨houtputs, rfl⟩ := insertOutputs_markSpent.mp ⟨s₁, h₁, h₂⟩
    exact ⟨⟨hrunning, hknown, hunspent, hverified⟩, houtputs, hbalance, haccepts,
      Except.ok.inj hr⟩
  · rintro ⟨⟨hrunning, hknown, hunspent, hverified⟩, houtputs, hbalance, haccepts, rfl⟩
    obtain ⟨-, -, -, hne₁, hne₂⟩ := ne_of_verified hverified
    obtain ⟨s₁, h₁, h₂⟩ := insertOutputs_markSpent.mpr ⟨houtputs, rfl⟩
    rw [← insertChange_of_ne hne₁] at h₁
    rw [← insertChange_of_ne hne₂] at h₂
    exact ⟨(), hrunning, (), hknown, (), hunspent, (), hverified, (), hbalance, s₁, h₁, _, h₂,
      (), haccepts, rfl⟩

/-! ## Records of commits, and the pause -/

/-- The state with a record marked as revealed. -/
def settled (s : State) (commitHash : Bytes32) (record : CommitRecord) : State :=
  { s with
    pendingCommits := Function.update s.pendingCommits commitHash
      (some ⟨record.depositor, record.blockNumber, true⟩) }

/-- **A record that can be revealed by a caller**: it is the caller's, it is not
revealed, and its time has come and is not over. -/
structure Open (s : State) (env : Env) (commitHash : Bytes32) (record : CommitRecord) :
    Prop where
  found : s.pendingCommits commitHash = some record
  depositor : record.depositor = env.caller
  unrevealed : record.revealed = false
  opened : MIN_COMMIT_DELAY ≤ saturatingSub env.blockNumber record.blockNumber
  unexpired : saturatingSub env.blockNumber record.blockNumber ≤ MAX_COMMIT_DELAY

theorem revealDeposit_eq_ok {env : Env} {commitHash commitment : Bytes32} {s s' : State} :
    revealDeposit keccak256 build env commitHash commitment s = .ok s' ↔
      ∃ record, Open s env commitHash record ∧ s.leaves commitment = none
        ∧ build = .wrapping ∧ s.nextLeafIndex = 0
        ∧ pushed (inserted keccak256 (settled s commitHash record) commitment) = s' := by
  unfold revealDeposit
  simp only [Except.bind_eq_ok, orRevert_eq_ok, revertIf_eq_ok, checkCapacity_eq_ok,
    insertLeaf_eq_ok, Bool.not_eq_true, Option.isSome_eq_false_iff, Option.isNone_iff_eq_none,
    not_lt, not_not]
  constructor
  · rintro ⟨record, hfound, -, hdepositor, -, hunrevealed, -, hopened, -, hunexpired, -, hfresh,
      -, ⟨hbuild, hindex⟩, _, ⟨-, rfl⟩, hs⟩
    exact ⟨record, ⟨hfound, hdepositor, hunrevealed, hopened, hunexpired⟩, hfresh, hbuild,
      hindex, Except.ok.inj hs⟩
  · rintro ⟨record, ⟨hfound, hdepositor, hunrevealed, hopened, hunexpired⟩, hfresh, rfl,
      hindex, rfl⟩
    exact ⟨record, hfound, (), hdepositor, (), hunrevealed, (), hopened, (), hunexpired, (),
      hfresh, (), ⟨rfl, hindex⟩, _, ⟨Build.fits_of_wrapping _ _, rfl⟩, rfl⟩

theorem commitDeposit_eq_ok {env : Env} {commitHash : Bytes32} {s s' : State} :
    commitDeposit build env commitHash s = .ok s' ↔
      s.paused = false ∧ s.pendingCommits commitHash = none ∧ env.transferredValue ≠ 0
        ∧ build.Fits s.poolBalance env.transferredValue
        ∧ { s with
            pendingCommits := Function.update s.pendingCommits commitHash
              (some ⟨env.caller, env.blockNumber, false⟩)
            poolBalance := s.poolBalance + env.transferredValue } = s' := by
  unfold commitDeposit
  simp only [Except.bind_eq_ok, revertIf_eq_ok, Build.add_eq_ok, Bool.not_eq_true,
    Option.isSome_eq_false_iff, Option.isNone_iff_eq_none]
  constructor
  · rintro ⟨-, hrunning, -, habsent, -, hvalue, _, ⟨hfits, rfl⟩, hs⟩
    exact ⟨hrunning, habsent, hvalue, hfits, Except.ok.inj hs⟩
  · rintro ⟨hrunning, habsent, hvalue, hfits, rfl⟩
    exact ⟨(), hrunning, (), habsent, (), hvalue, _, ⟨hfits, rfl⟩, rfl⟩

theorem reclaimExpiredCommit_eq_ok {env : Env} {commitHash : Bytes32} {s s' : State} :
    reclaimExpiredCommit env commitHash s = .ok s' ↔
      ∃ record, s.pendingCommits commitHash = some record ∧ record.revealed = false
        ∧ MAX_COMMIT_DELAY < saturatingSub env.blockNumber record.blockNumber
        ∧ settled s commitHash record = s' := by
  unfold reclaimExpiredCommit
  simp only [Except.bind_eq_ok, revertIf_eq_ok, orRevert_eq_ok, Bool.not_eq_true, not_le]
  constructor
  · rintro ⟨record, hfound, -, hunrevealed, -, hexpired, hs⟩
    exact ⟨record, hfound, hunrevealed, hexpired, Except.ok.inj hs⟩
  · rintro ⟨record, hfound, hunrevealed, hexpired, rfl⟩
    exact ⟨record, hfound, (), hunrevealed, (), hexpired, rfl⟩

theorem setPaused_eq_ok {paused : Bool} {env : Env} {s s' : State} :
    setPaused paused env s = .ok s' ↔
      env.caller = s.governance ∧ { s with paused := paused } = s' := by
  unfold setPaused
  rw [revertIf_bind_eq_ok, not_not, Except.ok.injEq]

/-! ## The inversion -/

/-- A message that pays nobody. -/
theorem map_nil_eq_ok {x : Except Error State} {s' : State} {payments : List Payment} :
    x.map (·, []) = .ok (s', payments) ↔ x = .ok s' ∧ payments = [] := by
  rw [Except.map_eq_ok]
  constructor
  · rintro ⟨_, hs, hr⟩
    cases hr
    exact ⟨hs, rfl⟩
  · rintro ⟨hs, rfl⟩
    exact ⟨s', hs, rfl⟩

/-- **What a successful call did.** -/
inductive Effect (keccak256 : Bytes → Bytes32) (build : Build) (s : State) :
    Call → State → List Payment → Prop
  | deposit {env : Env} {commitment : Bytes32} (running : s.paused = false)
      (value_ne : env.transferredValue ≠ 0) (fresh : s.leaves commitment = none)
      (wrapping : build = .wrapping) (empty : s.nextLeafIndex = 0) :
      Effect keccak256 build s ⟨env, .deposit commitment⟩
        (pushed { inserted keccak256 s commitment with
          poolBalance := s.poolBalance + env.transferredValue }) []
  | transfer {env : Env} {proof : Bytes} {merkleRoot : Bytes32}
      {nullifiers outputs : Bytes32 × Bytes32} (unpaid : env.transferredValue = 0)
      (spends : Spends keccak256 s proof merkleRoot nullifiers outputs)
      (new : Outputs build s outputs) :
      Effect keccak256 build s ⟨env, .transfer proof merkleRoot nullifiers outputs⟩
        (pushed (afterSpend keccak256 s nullifiers outputs)) []
  | withdraw {env : Env} {proof : Bytes} {merkleRoot : Bytes32}
      {nullifiers outputs : Bytes32 × Bytes32} {recipient : AccountId} {amount : Balance}
      (unpaid : env.transferredValue = 0)
      (spends : Spends keccak256 s proof merkleRoot nullifiers outputs)
      (new : Outputs build s outputs) (balance : amount ≤ s.poolBalance)
      (accepts : env.accepts = true) :
      Effect keccak256 build s
        ⟨env, .withdraw proof merkleRoot nullifiers outputs recipient amount⟩
        (pushed { afterSpend keccak256 s nullifiers outputs with
          poolBalance := s.poolBalance - amount }) [⟨recipient, amount⟩]
  | finalizeEpoch {env : Env} {epochs : BitVec 32 → Option EpochInfo}
      (unpaid : env.transferredValue = 0) (governance : env.caller = s.governance) :
      Effect keccak256 build s ⟨env, .finalizeEpoch⟩
        { s with
          currentEpoch := s.currentEpoch + 1
          epochStartBlock := env.blockNumber
          epochs := epochs } []
  | syncRemoteRoot {env : Env} {chainId epochId : BitVec 32} {root : Bytes32}
      (unpaid : env.transferredValue = 0) (governance : env.caller = s.governance) :
      Effect keccak256 build s ⟨env, .syncRemoteRoot chainId epochId root⟩
        { s with
          remoteRoots := Function.update s.remoteRoots (chainId, epochId) (some root) } []
  | commitDeposit {env : Env} {commitHash : Bytes32} (running : s.paused = false)
      (absent : s.pendingCommits commitHash = none) (value_ne : env.transferredValue ≠ 0)
      (fits : build.Fits s.poolBalance env.transferredValue) :
      Effect keccak256 build s ⟨env, .commitDeposit commitHash⟩
        { s with
          pendingCommits := Function.update s.pendingCommits commitHash
            (some ⟨env.caller, env.blockNumber, false⟩)
          poolBalance := s.poolBalance + env.transferredValue } []
  | revealDeposit {env : Env} {commitHash commitment : Bytes32} {record : CommitRecord}
      (unpaid : env.transferredValue = 0) (isOpen : Open s env commitHash record)
      (fresh : s.leaves commitment = none) (wrapping : build = .wrapping)
      (empty : s.nextLeafIndex = 0) :
      Effect keccak256 build s ⟨env, .revealDeposit commitHash commitment⟩
        (pushed (inserted keccak256 (settled s commitHash record) commitment)) []
  | reclaimExpiredCommit {env : Env} {commitHash : Bytes32} {record : CommitRecord}
      (unpaid : env.transferredValue = 0) (found : s.pendingCommits commitHash = some record)
      (unrevealed : record.revealed = false)
      (expired : MAX_COMMIT_DELAY < saturatingSub env.blockNumber record.blockNumber) :
      Effect keccak256 build s ⟨env, .reclaimExpiredCommit commitHash⟩
        (settled s commitHash record) []
  | pause {env : Env} (unpaid : env.transferredValue = 0)
      (governance : env.caller = s.governance) :
      Effect keccak256 build s ⟨env, .pause⟩ { s with paused := true } []
  | unpause {env : Env} (unpaid : env.transferredValue = 0)
      (governance : env.caller = s.governance) :
      Effect keccak256 build s ⟨env, .unpause⟩ { s with paused := false } []
  | transferGovernance {env : Env} {newGovernance : AccountId}
      (unpaid : env.transferredValue = 0) (governance : env.caller = s.governance)
      (governance_ne : newGovernance ≠ 0) :
      Effect keccak256 build s ⟨env, .transferGovernance newGovernance⟩
        { s with governance := newGovernance } []

/-- The value that comes with a message is accepted. -/
theorem exec_eq_ok {c : Call} {s : State} {r : State × List Payment} :
    exec keccak256 build c s = .ok r ↔
      (c.message.payable = false → c.env.transferredValue = 0)
        ∧ run keccak256 build c.env c.message s = .ok r := by
  unfold exec
  rw [revertIf_bind_eq_ok, not_and, not_not]

/-- **The inversion of the messages.** -/
theorem exec_effect {c : Call} {s s' : State} {payments : List Payment}
    (h : exec keccak256 build c s = .ok (s', payments)) :
    Effect keccak256 build s c s' payments := by
  obtain ⟨env, message⟩ := c
  obtain ⟨hunpaid, hrun⟩ := exec_eq_ok.mp h
  unfold run at hrun
  cases message with
  | deposit commitment =>
    obtain ⟨hs, rfl⟩ := map_nil_eq_ok.mp hrun
    obtain ⟨hrunning, hvalue, hfresh, hbuild, hindex, rfl⟩ := deposit_eq_ok.mp hs
    exact .deposit hrunning hvalue hfresh hbuild hindex
  | transfer proof merkleRoot nullifiers outputs =>
    obtain ⟨hs, rfl⟩ := map_nil_eq_ok.mp hrun
    obtain ⟨hspends, houtputs, rfl⟩ := transfer_eq_ok.mp hs
    exact .transfer (hunpaid rfl) hspends houtputs
  | withdraw proof merkleRoot nullifiers outputs recipient amount =>
    obtain ⟨_, hs, hr⟩ := Except.map_eq_ok.mp hrun
    obtain ⟨hspends, houtputs, hbalance, haccepts, rfl⟩ := withdraw_eq_ok.mp hs
    cases hr
    exact .withdraw (hunpaid rfl) hspends houtputs hbalance haccepts
  | finalizeEpoch =>
    obtain ⟨hs, rfl⟩ := map_nil_eq_ok.mp hrun
    unfold finalizeEpoch at hs
    simp only [Except.bind_eq_ok, revertIf_eq_ok, orRevert_eq_ok, Build.add_eq_ok,
      not_not] at hs
    obtain ⟨-, hgov, epoch, -, -, -, _, ⟨-, rfl⟩, hs⟩ := hs
    cases hs
    exact .finalizeEpoch (hunpaid rfl) hgov
  | syncRemoteRoot chainId epochId root =>
    obtain ⟨hs, rfl⟩ := map_nil_eq_ok.mp hrun
    obtain ⟨hgov, hs⟩ := (revertIf_bind_eq_ok _ _ _ _).mp hs
    cases hs
    exact .syncRemoteRoot (hunpaid rfl) (not_not.mp hgov)
  | commitDeposit commitHash =>
    obtain ⟨hs, rfl⟩ := map_nil_eq_ok.mp hrun
    obtain ⟨hrunning, habsent, hvalue, hfits, rfl⟩ := commitDeposit_eq_ok.mp hs
    exact .commitDeposit hrunning habsent hvalue hfits
  | revealDeposit commitHash commitment =>
    obtain ⟨hs, rfl⟩ := map_nil_eq_ok.mp hrun
    obtain ⟨record, hopen, hfresh, hbuild, hindex, rfl⟩ := revealDeposit_eq_ok.mp hs
    exact .revealDeposit (hunpaid rfl) hopen hfresh hbuild hindex
  | reclaimExpiredCommit commitHash =>
    obtain ⟨hs, rfl⟩ := map_nil_eq_ok.mp hrun
    obtain ⟨record, hfound, hunrevealed, hexpired, rfl⟩ := reclaimExpiredCommit_eq_ok.mp hs
    exact .reclaimExpiredCommit (hunpaid rfl) hfound hunrevealed hexpired
  | pause =>
    obtain ⟨hs, rfl⟩ := map_nil_eq_ok.mp hrun
    obtain ⟨hgov, rfl⟩ := setPaused_eq_ok.mp hs
    exact .pause (hunpaid rfl) hgov
  | unpause =>
    obtain ⟨hs, rfl⟩ := map_nil_eq_ok.mp hrun
    obtain ⟨hgov, rfl⟩ := setPaused_eq_ok.mp hs
    exact .unpause (hunpaid rfl) hgov
  | transferGovernance newGovernance =>
    obtain ⟨hs, rfl⟩ := map_nil_eq_ok.mp hrun
    unfold transferGovernance at hs
    simp only [Except.bind_eq_ok, revertIf_eq_ok, not_not] at hs
    obtain ⟨-, hgov, -, hne, hs⟩ := hs
    cases hs
    exact .transferGovernance (hunpaid rfl) hgov hne

/-- **What a step of the machine did.** -/
theorem step_effect {c : Call} {s s' : State} (h : step keccak256 build c s = .ok s') :
    ∃ payments, Effect keccak256 build s c s' payments := by
  obtain ⟨⟨_, payments⟩, hexec, rfl⟩ := Except.map_eq_ok.mp h
  exact ⟨payments, exec_effect hexec⟩

/-- A message that goes through is a step. -/
theorem step_of_run {c : Call} {s s' : State} {payments : List Payment}
    (hvalue : c.message.payable = false → c.env.transferredValue = 0)
    (hrun : run keccak256 build c.env c.message s = .ok (s', payments)) :
    step keccak256 build c s = .ok s' :=
  Except.map_eq_ok.mpr ⟨_, exec_eq_ok.mpr ⟨hvalue, hrun⟩, rfl⟩

/-! ## What a call does to the tree -/

/-- The commitments a message inserts. -/
def Message.inserts : Message → List Bytes32
  | .deposit commitment => [commitment]
  | .transfer _ _ _ outputs => [outputs.1, outputs.2]
  | .withdraw _ _ _ outputs _ _ => [outputs.1, outputs.2]
  | .revealDeposit _ commitment => [commitment]
  | _ => []

/-- **Two states with the same tree.** -/
structure SameTree (s s' : State) : Prop where
  leaves : s'.leaves = s.leaves
  nodes : s'.nodes = s.nodes
  nextLeafIndex : s'.nextLeafIndex = s.nextLeafIndex
  currentRoot : s'.currentRoot = s.currentRoot

theorem SameTree.inserted {s s' : State} (h : SameTree s s') (cm : Bytes32) :
    SameTree (InkPool.inserted keccak256 s cm) (InkPool.inserted keccak256 s' cm) := by
  have hclimbed : climbed keccak256 s' cm = climbed keccak256 s cm := by
    unfold climbed
    rw [h.nodes, h.nextLeafIndex]
  refine ⟨?_, ?_, ?_, ?_⟩
  · rw [leaves_inserted, leaves_inserted, h.leaves, h.nextLeafIndex]
  · rw [nodes_inserted, nodes_inserted, hclimbed]
  · rw [nextLeafIndex_inserted, nextLeafIndex_inserted, h.nextLeafIndex]
  · rw [currentRoot_inserted, currentRoot_inserted, hclimbed]

theorem SameTree.insertedAll {s s' : State} (h : SameTree s s') (cms : List Bytes32) :
    SameTree (InkPool.insertedAll keccak256 s cms) (InkPool.insertedAll keccak256 s' cms) := by
  induction cms generalizing s s' with
  | nil => exact h
  | cons cm cms ih => exact ih (h.inserted cm)

/-- A spend inserts its outputs. -/
theorem sameTree_afterSpend (keccak256 : Bytes → Bytes32) (s : State)
    (nullifiers outputs : Bytes32 × Bytes32) :
    SameTree (insertedAll keccak256 s [outputs.1, outputs.2])
      (afterSpend keccak256 s nullifiers outputs) := by
  have hmarked : SameTree s (markSpent nullifiers s) := ⟨rfl, rfl, rfl, rfl⟩
  exact hmarked.insertedAll _

/-- **A call changes the tree by what it inserts.** -/
theorem Effect.sameTree {c : Call} {s s' : State} {payments : List Payment}
    (h : Effect keccak256 build s c s' payments) :
    SameTree (insertedAll keccak256 s c.message.inserts) s' := by
  cases h with
  | @transfer env proof merkleRoot nullifiers outputs _ _ _ =>
    obtain ⟨hleaves, hnodes, hindex, hroot⟩ :=
      sameTree_afterSpend keccak256 s nullifiers outputs
    exact ⟨hleaves, hnodes, hindex, hroot⟩
  | @withdraw env proof merkleRoot nullifiers outputs recipient amount _ _ _ _ _ =>
    obtain ⟨hleaves, hnodes, hindex, hroot⟩ :=
      sameTree_afterSpend keccak256 s nullifiers outputs
    exact ⟨hleaves, hnodes, hindex, hroot⟩
  | @revealDeposit env commitHash commitment record _ _ _ _ _ =>
    have hsettled : SameTree s (settled s commitHash record) := ⟨rfl, rfl, rfl, rfl⟩
    obtain ⟨hleaves, hnodes, hindex, hroot⟩ : SameTree (inserted keccak256 s commitment)
        (inserted keccak256 (settled s commitHash record) commitment) := hsettled.inserted _
    exact ⟨hleaves, hnodes, hindex, hroot⟩
  | _ => exact ⟨rfl, rfl, rfl, rfl⟩

/-- **The commitments inserted in a run.** -/
def insertedIn (tr : List (State × Call)) : List Bytes32 :=
  tr.flatMap (fun p => p.2.message.inserts)

theorem insertedIn_snoc (tr : List (State × Call)) (s : State) (c : Call) :
    insertedIn (tr ++ [(s, c)]) = insertedIn tr ++ c.message.inserts := by
  simp [insertedIn]

/-! ## A first deposit -/

/-- The account 2 deposits 100 … -/
def depositCall : Call := ⟨⟨2, 1, 100, true⟩, .deposit 7⟩

/-- … into a new pool. -/
def depositedPool (keccak256 : Bytes → Bytes32) : State :=
  pushed { inserted keccak256 (new ⟨1, 0, 0, true⟩ 10) 7 with poolBalance := 100 }

/-- That goes through where overflow is not checked. -/
theorem runFrom_depositedPool (keccak256 : Bytes → Bytes32) :
    RunFrom keccak256 .wrapping [(new ⟨1, 0, 0, true⟩ 10, depositCall)]
      (depositedPool keccak256) := by
  have hdeposit : deposit keccak256 .wrapping depositCall.env 7 (new ⟨1, 0, 0, true⟩ 10)
      = .ok (depositedPool keccak256) :=
    deposit_eq_ok.mpr ⟨rfl, show (100 : Balance) ≠ 0 by decide, rfl, rfl, rfl, rfl⟩
  have hstep : step keccak256 .wrapping depositCall (new ⟨1, 0, 0, true⟩ 10)
      = .ok (depositedPool keccak256) :=
    step_of_run (fun h => by cases h) (congrArg (Except.map (·, [])) hdeposit)
  exact ⟨_, _, Run.nil.snoc trivial hstep⟩

/-- No other commitment is there. -/
theorem leaves_depositedPool (keccak256 : Bytes → Bytes32) {cm : Bytes32} (h : cm ≠ 7) :
    (depositedPool keccak256).leaves cm = none := by
  show (inserted keccak256 (new ⟨1, 0, 0, true⟩ 10) 7).leaves cm = none
  rw [leaves_inserted, Function.update_of_ne h]
  rfl

end InkPool
