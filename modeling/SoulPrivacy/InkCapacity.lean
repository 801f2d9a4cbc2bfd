import SoulPrivacy.InkBinding
import SoulPrivacy.InkTree

/-!
# The capacity of the ink! pool

The tree has 2^32 leaves and their indices have 32 bits, so the capacity is one
more than an index can be. A deposit and a reveal compute it as `1u32 << 32`, which
overflows, on every call. A transfer and a withdrawal do not check it at all, and
the index of the next leaf overflows with the last one.

So of the calls that pass all other checks, those that do what they should are the
transfers and withdrawals with room for their two outputs and one more leaf
(`keepsCapacity_iff`).
-/

namespace InkPool

variable {keccak256 : Bytes → Bytes32} {build : Build}

/-! ## Calls that pass the other checks -/

/-- Two outputs that are new. -/
structure FreshOutputs (s : State) (outputs : Bytes32 × Bytes32) : Prop where
  fst : s.leaves outputs.1 = none
  snd : s.leaves outputs.2 = none
  ne : outputs.2 ≠ outputs.1

/-- **A call that inserts leaves and passes all checks but that of the capacity.** -/
inductive Passes (keccak256 : Bytes → Bytes32) (s : State) : Call → Prop
  | deposit {env : Env} {commitment : Bytes32} (running : s.paused = false)
      (value_ne : env.transferredValue ≠ 0) (fresh : s.leaves commitment = none)
      (fits : s.poolBalance.toNat + env.transferredValue.toNat < 2 ^ 128) :
      Passes keccak256 s ⟨env, .deposit commitment⟩
  | revealDeposit {env : Env} {commitHash commitment : Bytes32} {record : CommitRecord}
      (unpaid : env.transferredValue = 0) (isOpen : Open s env commitHash record)
      (fresh : s.leaves commitment = none) :
      Passes keccak256 s ⟨env, .revealDeposit commitHash commitment⟩
  | transfer {env : Env} {proof : Bytes} {merkleRoot : Bytes32}
      {nullifiers outputs : Bytes32 × Bytes32} (unpaid : env.transferredValue = 0)
      (spends : Spends keccak256 s proof merkleRoot nullifiers outputs)
      (fresh : FreshOutputs s outputs) :
      Passes keccak256 s ⟨env, .transfer proof merkleRoot nullifiers outputs⟩
  | withdraw {env : Env} {proof : Bytes} {merkleRoot : Bytes32}
      {nullifiers outputs : Bytes32 × Bytes32} {recipient : AccountId} {amount : Balance}
      (unpaid : env.transferredValue = 0)
      (spends : Spends keccak256 s proof merkleRoot nullifiers outputs)
      (fresh : FreshOutputs s outputs) (balance : amount ≤ s.poolBalance)
      (accepts : env.accepts = true) :
      Passes keccak256 s ⟨env, .withdraw proof merkleRoot nullifiers outputs recipient amount⟩

/-- A transfer or a withdrawal. -/
def Message.isSpend : Message → Bool
  | .transfer _ _ _ _ => true
  | .withdraw _ _ _ _ _ _ => true
  | _ => false

/-! ## What happens to them -/

/-- The capacity check overflows. -/
theorem checkCapacity_checked (s : State) : checkCapacity .checked s = .error .overflow := by
  unfold checkCapacity Build.shl
  rw [revertIf_bind_of_pos ⟨rfl, le_rfl⟩]
  rfl

/-- A call whose value is accepted. -/
theorem exec_eq_run {c : Call} {s : State}
    (h : c.message.payable = false → c.env.transferredValue = 0) :
    exec keccak256 build c s = run keccak256 build c.env c.message s :=
  revertIf_bind_of_neg (fun hrefused => hrefused.2 (h hrefused.1)) _ _

/-- **A deposit and a reveal fail as the capacity check does**, when they pass the
others. -/
theorem exec_of_not_isSpend {s : State} {c : Call} {e : Error} (h : Passes keccak256 s c)
    (hspend : c.message.isSpend = false) (hcapacity : checkCapacity build s = .error e) :
    exec keccak256 build c s = .error e := by
  cases h with
  | @deposit env commitment running value_ne fresh _ =>
    have hrunning : ¬ s.paused = true := Bool.eq_false_iff.mp running
    have hfresh : ¬ (s.leaves commitment).isSome = true :=
      Option.not_isSome_iff_eq_none.mpr fresh
    have hdeposit : deposit keccak256 build env commitment s = .error e := by
      unfold deposit
      rw [revertIf_bind_of_neg hrunning, revertIf_bind_of_neg value_ne,
        revertIf_bind_of_neg hfresh, hcapacity]
      rfl
    rw [exec_eq_run (fun h => by cases h)]
    exact congrArg (Except.map (·, [])) hdeposit
  | @revealDeposit env commitHash commitment record unpaid isOpen fresh =>
    have hunrevealed : ¬ record.revealed = true := Bool.eq_false_iff.mp isOpen.unrevealed
    have hfresh : ¬ (s.leaves commitment).isSome = true :=
      Option.not_isSome_iff_eq_none.mpr fresh
    have hsettled : checkCapacity build (settled s commitHash record) = .error e := hcapacity
    have hreveal : revealDeposit keccak256 build env commitHash commitment s = .error e := by
      unfold revealDeposit
      rw [isOpen.found, orRevert_some_bind, revertIf_bind_of_neg (not_not.mpr isOpen.depositor),
        revertIf_bind_of_neg hunrevealed, revertIf_bind_of_neg (not_lt.mpr isOpen.opened),
        revertIf_bind_of_neg (not_lt.mpr isOpen.unexpired), revertIf_bind_of_neg hfresh]
      dsimp only
      unfold settled at hsettled
      rw [hsettled]
      rfl
    rw [exec_eq_run (fun _ => unpaid)]
    exact congrArg (Except.map (·, [])) hreveal
  | transfer _ _ _ => cases hspend
  | withdraw _ _ _ _ _ => cases hspend

/-- **An output overflows** where its index is the last one. -/
theorem insertOutput_checked {cm : Bytes32} {s : State} (hfresh : s.leaves cm = none)
    (hfull : 2 ^ 32 ≤ s.nextLeafIndex.toNat + 1) :
    insertOutput keccak256 .checked cm s = .error .overflow := by
  unfold insertOutput insertLeaf Build.add
  rw [revertIf_bind_of_neg (Option.not_isSome_iff_eq_none.mpr hfresh)]
  dsimp only
  rw [revertIf_bind_of_pos ⟨rfl, hfull⟩]
  rfl

/-- **Two outputs overflow** where there is no room for one more leaf. -/
theorem insertOutputs_checked {β : Type} {outputs : Bytes32 × Bytes32} {s : State}
    (hfresh : FreshOutputs s outputs) (hfull : 2 ^ 32 ≤ s.nextLeafIndex.toNat + 2)
    (f : State → Except Error β) :
    (insertOutput keccak256 .checked outputs.1 s >>= fun s₁ =>
      insertOutput keccak256 .checked outputs.2 s₁ >>= f) = .error .overflow := by
  by_cases hfirst : 2 ^ 32 ≤ s.nextLeafIndex.toNat + 1
  · rw [insertOutput_checked hfresh.fst hfirst]
    rfl
  · -- the first one takes the last index but one
    have hok : insertOutput keccak256 .checked outputs.1 s
        = .ok (inserted keccak256 s outputs.1) :=
      insertOutput_eq_ok.mpr ⟨hfresh.fst, fun _ => not_le.mp hfirst, rfl⟩
    have hsecond : (inserted keccak256 s outputs.1).leaves outputs.2 = none := by
      rw [leaves_inserted, Function.update_of_ne hfresh.ne]
      exact hfresh.snd
    have hindex : (s.nextLeafIndex + 1).toNat = s.nextLeafIndex.toNat + 1 := by
      rw [BitVec.toNat_add]
      exact Nat.mod_eq_of_lt (not_le.mp hfirst)
    rw [hok]
    show (insertOutput keccak256 .checked outputs.2 (inserted keccak256 s outputs.1) >>= f) = _
    rw [insertOutput_checked hsecond (by rwa [nextLeafIndex_inserted, hindex])]
    rfl

theorem transfer_checked {proof : Bytes} {merkleRoot : Bytes32}
    {nullifiers outputs : Bytes32 × Bytes32} {s : State}
    (spends : Spends keccak256 s proof merkleRoot nullifiers outputs)
    (fresh : FreshOutputs s outputs) (hfull : 2 ^ 32 ≤ s.nextLeafIndex.toNat + 2) :
    transfer keccak256 .checked proof merkleRoot nullifiers outputs s = .error .overflow := by
  unfold transfer
  rw [revertIf_bind_of_neg (Bool.eq_false_iff.mp spends.running),
    revertIf_bind_of_neg (Bool.eq_false_iff.not.mpr (not_not.mpr spends.known)),
    revertIf_bind_of_neg (Bool.eq_false_iff.mp spends.unspent), spends.verified]
  exact insertOutputs_checked (s := markSpent nullifiers s)
    ⟨fresh.fst, fresh.snd, fresh.ne⟩ hfull _

theorem withdraw_checked {env : Env} {proof : Bytes} {merkleRoot : Bytes32}
    {nullifiers outputs : Bytes32 × Bytes32} {recipient : AccountId} {amount : Balance}
    {s : State} (spends : Spends keccak256 s proof merkleRoot nullifiers outputs)
    (fresh : FreshOutputs s outputs) (balance : amount ≤ s.poolBalance)
    (hfull : 2 ^ 32 ≤ s.nextLeafIndex.toNat + 2) :
    withdraw keccak256 .checked env proof merkleRoot nullifiers outputs recipient amount s
      = .error .overflow := by
  obtain ⟨-, -, -, hne₁, hne₂⟩ := ne_of_verified spends.verified
  unfold withdraw
  rw [revertIf_bind_of_neg (Bool.eq_false_iff.mp spends.running),
    revertIf_bind_of_neg (Bool.eq_false_iff.not.mpr (not_not.mpr spends.known)),
    revertIf_bind_of_neg (Bool.eq_false_iff.mp spends.unspent), spends.verified]
  show (do
    revertIf (s.poolBalance < amount) Error.insufficientFunds
    _) = _
  rw [revertIf_bind_of_neg (BitVec.not_lt.mpr balance)]
  dsimp only
  rw [insertChange_of_ne hne₁]
  simp only [insertChange_of_ne hne₂]
  exact insertOutputs_checked (s := markSpent nullifiers s)
    ⟨fresh.fst, fresh.snd, fresh.ne⟩ hfull _

/-- **A transfer or a withdrawal goes through, or overflows**, as there is room for
its outputs and one more leaf, or not. -/
theorem exec_of_isSpend (build : Build) {s : State} {c : Call} (h : Passes keccak256 s c)
    (hspend : c.message.isSpend = true) :
    ((build = .checked → s.nextLeafIndex.toNat + 2 < 2 ^ 32) →
        ∃ r, exec keccak256 build c s = .ok r)
      ∧ (2 ^ 32 ≤ s.nextLeafIndex.toNat + 2 →
        exec keccak256 .checked c s = .error .overflow) := by
  cases h with
  | deposit _ _ _ _ => cases hspend
  | revealDeposit _ _ _ => cases hspend
  | @transfer env proof merkleRoot nullifiers outputs unpaid spends fresh =>
    refine ⟨fun hroom => ?_, fun hfull => ?_⟩
    · have hrun : transfer keccak256 build proof merkleRoot nullifiers outputs s = .ok _ :=
        transfer_eq_ok.mpr ⟨spends, ⟨fresh.fst, fresh.snd, fresh.ne, hroom⟩, rfl⟩
      exact ⟨_, exec_eq_ok.mpr ⟨fun _ => unpaid, congrArg (Except.map (·, [])) hrun⟩⟩
    · rw [exec_eq_run (fun _ => unpaid)]
      exact congrArg (Except.map (·, [])) (transfer_checked spends fresh hfull)
  | @withdraw env proof merkleRoot nullifiers outputs recipient amount unpaid spends fresh balance
      accepts =>
    refine ⟨fun hroom => ?_, fun hfull => ?_⟩
    · have hrun : withdraw keccak256 build env proof merkleRoot nullifiers outputs recipient
          amount s = .ok _ :=
        withdraw_eq_ok.mpr ⟨spends, ⟨fresh.fst, fresh.snd, fresh.ne, hroom⟩, balance, accepts,
          rfl⟩
      exact ⟨_, exec_eq_ok.mpr ⟨fun _ => unpaid,
        congrArg (Except.map (fun r : State × Payment => (r.1, [r.2]))) hrun⟩⟩
    · rw [exec_eq_run (fun _ => unpaid)]
      exact congrArg (Except.map (fun r : State × Payment => (r.1, [r.2])))
        (withdraw_checked spends fresh balance hfull)

/-! ## The indices of a run -/

/-- **The indices given out are below the number of leaves**, as long as they fit. -/
def IndicesBelow (ls : List Bytes32) (s : State) : Prop :=
  ls.length ≤ 2 ^ TREE_DEPTH → ∀ cm idx, s.leaves cm = some idx → idx.toNat < ls.length

theorem IndicesBelow.insertedAll {ls : List Bytes32} {s : State} (h : IndicesBelow ls s)
    (hholds : TreeHolds keccak256 ls s) (cms : List Bytes32) :
    IndicesBelow (ls ++ cms) (InkPool.insertedAll keccak256 s cms) := by
  induction cms generalizing ls s with
  | nil =>
    rw [List.append_nil]
    exact h
  | cons cm cms ih =>
    rw [List.append_cons]
    refine ih (fun hle cm' idx hidx => ?_) (hholds.inserted cm)
    rw [List.length_append, List.length_singleton] at hle ⊢
    rw [leaves_inserted, Function.update_apply] at hidx
    split at hidx
    · cases hidx
      rw [hholds.toNat_index hle]
      exact Nat.lt_succ_self _
    · exact Nat.lt_succ_of_lt (h (Nat.le_of_succ_le hle) cm' idx hidx)

/-- **Every run gives out the indices in order.** -/
theorem indicesBelow_of_run {tr : List (State × Call)} {s : State}
    (h : RunFrom keccak256 build tr s) : IndicesBelow (insertedIn tr) s := by
  obtain ⟨env, epochDuration, hrun⟩ := h
  have hboth := hrun.invariant
    (I := fun tr s => IndicesBelow (insertedIn tr) s ∧ TreeHolds keccak256 (insertedIn tr) s)
    ⟨fun _ _ _ hidx => (by cases hidx), treeHolds_new env epochDuration⟩ ?_
  · exact hboth.1
  · intro tr s c s' hboth _ hstep
    obtain ⟨hbelow, hholds⟩ := hboth
    obtain ⟨payments, heffect⟩ := step_effect hstep
    rw [insertedIn_snoc]
    refine ⟨fun hle cm idx hidx => ?_, (hholds.insertedAll _).of_sameTree heffect.sameTree⟩
    rw [heffect.sameTree.leaves] at hidx
    exact hbelow.insertedAll hholds c.message.inserts hle cm idx hidx

/-! ## The capacity -/

/-- **A call does what it should after a number of leaves**: it fails with a full
tree exactly when too few are free, its leaves get the next indices, which nothing
has had, and no sum or shift overflows. -/
structure KeepsCapacity (keccak256 : Bytes → Bytes32) (build : Build) (n : ℕ) (s : State)
    (c : Call) : Prop where
  full : exec keccak256 build c s = .error .treeFull
    ↔ 2 ^ TREE_DEPTH < n + c.message.inserts.length
  indices : ∀ s' payments, exec keccak256 build c s = .ok (s', payments) →
    ∀ i (hi : i < c.message.inserts.length), ∃ idx,
      s'.leaves (c.message.inserts.get ⟨i, hi⟩) = some idx ∧ idx.toNat = n + i
        ∧ ∀ cm, s.leaves cm ≠ some idx
  exact : exec keccak256 .checked c s ≠ .error .overflow

/-- A transfer and a withdrawal insert two outputs. -/
theorem exists_inserts_eq {s : State} {c : Call} (h : Passes keccak256 s c)
    (hspend : c.message.isSpend = true) :
    ∃ outputs, c.message.inserts = [outputs.1, outputs.2] ∧ FreshOutputs s outputs := by
  cases h with
  | deposit _ _ _ _ => cases hspend
  | revealDeposit _ _ _ => cases hspend
  | @transfer _ _ _ _ outputs _ _ fresh => exact ⟨outputs, rfl, fresh⟩
  | @withdraw _ _ _ _ outputs _ _ _ _ fresh _ _ => exact ⟨outputs, rfl, fresh⟩

/-- **The outputs get the next two indices.** -/
theorem leaves_of_two {tr : List (State × Call)} {s s' : State} {c : Call}
    {payments : List Payment} {outputs : Bytes32 × Bytes32} (h : RunFrom keccak256 build tr s)
    (hinserts : c.message.inserts = [outputs.1, outputs.2]) (hne : outputs.2 ≠ outputs.1)
    (hroom : (insertedIn tr).length + 2 < 2 ^ TREE_DEPTH)
    (heffect : Effect keccak256 build s c s' payments) :
    ∀ i (hi : i < c.message.inserts.length), ∃ idx,
      s'.leaves (c.message.inserts.get ⟨i, hi⟩) = some idx
        ∧ idx.toNat = (insertedIn tr).length + i ∧ ∀ cm, s.leaves cm ≠ some idx := by
  have hindex := (treeHolds_of_run h).toNat_index (Nat.lt_of_add_right_lt hroom)
  have hsucc : (s.nextLeafIndex + 1).toNat = (insertedIn tr).length + 1 := by
    rw [BitVec.toNat_add, hindex]
    exact Nat.mod_eq_of_lt (Nat.lt_of_succ_lt hroom)
  have hunused : ∀ idx : BitVec 32, (insertedIn tr).length ≤ idx.toNat →
      ∀ cm, s.leaves cm ≠ some idx := fun idx hle cm hidx =>
    absurd (indicesBelow_of_run h (Nat.lt_of_add_right_lt hroom).le cm idx hidx) (not_lt.mpr hle)
  have hleaves : s'.leaves = Function.update (Function.update s.leaves outputs.1
      (some s.nextLeafIndex)) outputs.2 (some (s.nextLeafIndex + 1)) := by
    rw [heffect.sameTree.leaves, hinserts]
    rfl
  rw [hinserts]
  rintro (_ | _ | i) hi
  · refine ⟨s.nextLeafIndex, ?_, hindex, hunused _ hindex.ge⟩
    show s'.leaves outputs.1 = _
    rw [hleaves, Function.update_of_ne (Ne.symm hne), Function.update_self]
  · refine ⟨s.nextLeafIndex + 1, ?_, hsucc, hunused _ (hsucc.symm ▸ Nat.le_succ _)⟩
    show s'.leaves outputs.2 = _
    rw [hleaves, Function.update_self]
  · exact absurd hi (by simp)

/-- **Of the calls that pass all other checks, those that do what they should are
the transfers and the withdrawals with room for their outputs and one more leaf.** -/
theorem keepsCapacity_iff {tr : List (State × Call)} {s : State}
    (h : RunFrom keccak256 build tr s) {c : Call} (hc : Passes keccak256 s c) :
    KeepsCapacity keccak256 build (insertedIn tr).length s c ↔
      c.message.isSpend = true ∧ (insertedIn tr).length + 2 < 2 ^ TREE_DEPTH := by
  have hindex : s.nextLeafIndex.toNat = (insertedIn tr).length % 2 ^ 32 := by
    rw [(treeHolds_of_run h).index, BitVec.toNat_ofNat]
  constructor
  · intro hkeeps
    have hspend : c.message.isSpend = true := by
      by_contra hnot
      exact hkeeps.exact (exec_of_not_isSpend hc (Bool.not_eq_true _ ▸ hnot)
        (checkCapacity_checked s))
    obtain ⟨outputs, hinserts, -⟩ := exists_inserts_eq hc hspend
    obtain ⟨hok, hoverflow⟩ := exec_of_isSpend build hc hspend
    have hroom : s.nextLeafIndex.toNat + 2 < 2 ^ 32 := by
      by_contra hfull
      exact hkeeps.exact (hoverflow (not_lt.mp hfull))
    obtain ⟨r, hr⟩ := hok (fun _ => hroom)
    have hnot : ¬ 2 ^ 32 < (insertedIn tr).length + 2 := by
      have hfull := hkeeps.full
      rw [hr, hinserts] at hfull
      exact fun hlt => by cases hfull.mpr hlt
    refine ⟨hspend, ?_⟩
    show (insertedIn tr).length + 2 < 2 ^ 32
    omega
  · rintro ⟨hspend, hroom⟩
    have hroom' : s.nextLeafIndex.toNat + 2 < 2 ^ 32 := by
      rw [(treeHolds_of_run h).toNat_index (Nat.lt_of_add_right_lt hroom)]
      exact hroom
    obtain ⟨outputs, hinserts, hfresh⟩ := exists_inserts_eq hc hspend
    obtain ⟨r, hr⟩ := (exec_of_isSpend build hc hspend).1 (fun _ => hroom')
    obtain ⟨r', hr'⟩ := (exec_of_isSpend .checked hc hspend).1 (fun _ => hroom')
    refine ⟨⟨fun hfull => ?_, fun hfull => ?_⟩, fun s' payments hexec => ?_, fun hover => ?_⟩
    · cases hr.symm.trans hfull
    · rw [hinserts] at hfull
      exact absurd hfull (not_lt.mpr hroom.le)
    · exact leaves_of_two h hinserts hfresh.ne hroom (exec_effect hexec)
    · cases hr'.symm.trans hover

/-- A transfer in a new pool, with the root it starts with. -/
def transferCall (keccak256 : Bytes → Bytes32) : Call :=
  ⟨⟨3, 1, 0, true⟩, .transfer (proofOf keccak256 (1, 2) (4, 5)) ZERO_VALUE (1, 2) (4, 5)⟩

/-- It does what it should. -/
theorem keepsCapacity_iff_transfer :
    KeepsCapacity (fun _ => 1) .checked 0 (new ⟨1, 0, 0, true⟩ 10) (transferCall (fun _ => 1)) := by
  have hrun : RunFrom (fun _ => 1) .checked [] (new ⟨1, 0, 0, true⟩ 10) := ⟨_, _, Run.nil⟩
  have hwf : WellFormed (1, 2) (4, 5) := ⟨by decide, by decide, by decide, by decide, by decide⟩
  have hverified : verifyProofStructure (fun _ => 1) (proofOf (fun _ => 1) (1, 2) (4, 5)) (1, 2)
      (4, 5) = .ok () :=
    verifyProofStructure_eq_ok.mpr ⟨shaped_proofOf _ _, hwf, tagged_proofOf _ _⟩
  have hpasses : Passes (fun _ => 1) (new ⟨1, 0, 0, true⟩ 10) (transferCall (fun _ => 1)) :=
    .transfer rfl ⟨rfl, rfl, rfl, hverified⟩ ⟨rfl, rfl, by decide⟩
  exact (keepsCapacity_iff hrun hpasses).mpr ⟨rfl, by decide⟩

/-- A second deposit. -/
def secondDeposit : Call := ⟨⟨2, 2, 100, true⟩, .deposit 8⟩

/-- **The tree is full after one deposit** where overflow is not checked, and where
it is, already the first one panics. -/
theorem exists_full_early : 1 + 1 < 2 ^ TREE_DEPTH ∧ ∀ keccak256,
    (∃ tr s, RunFrom keccak256 .wrapping tr s ∧ (insertedIn tr).length = 1
      ∧ exec keccak256 .wrapping secondDeposit s = .error .treeFull
      ∧ ¬ KeepsCapacity keccak256 .wrapping 1 s secondDeposit)
    ∧ ∃ s, RunFrom keccak256 .checked [] s
      ∧ exec keccak256 .checked depositCall s = .error .overflow := by
  refine ⟨by decide, fun keccak256 => ⟨⟨_, _, runFrom_depositedPool keccak256, rfl, ?_⟩, ?_⟩⟩
  · have hpasses : Passes keccak256 (depositedPool keccak256) secondDeposit :=
      .deposit rfl (show (100 : Balance) ≠ 0 by decide)
        (leaves_depositedPool keccak256 (by decide)) (show 100 + 100 < 2 ^ 128 by decide)
    have hfull : exec keccak256 .wrapping secondDeposit (depositedPool keccak256)
        = .error .treeFull := exec_of_not_isSpend hpasses rfl rfl
    refine ⟨hfull, fun hkeeps => ?_⟩
    exact absurd (hkeeps.full.mp hfull) (by decide)
  · have hpasses : Passes keccak256 (new ⟨1, 0, 0, true⟩ 10) depositCall :=
      .deposit rfl (show (100 : Balance) ≠ 0 by decide) rfl (by decide)
    exact ⟨_, ⟨_, _, Run.nil⟩, exec_of_not_isSpend hpasses rfl (checkCapacity_checked _)⟩

end InkPool
