import SoulPrivacy.InkPause

/-!
# What a commit of the ink! pool binds

A deposit is committed by a hash and revealed some blocks later. The Solidity pool
computes the hash from the commitment and a salt, so a commit can be revealed in
one way. Here nothing is computed: the reveal takes any commitment that is not in
the tree yet, and the commit hash is no more than the name of the record.

That a reveal is made by the account that committed does hold, in every run. But
what is revealed for a commit hash, now or in another future, is the same exactly
where nothing can be revealed, as long as two commitments are left that are not in
the tree (`binds_iff`).
-/

namespace InkPool

variable {keccak256 : Bytes → Bytes32} {build : Build}

/-! ## Records and the calls that made them -/

/-- A spend leaves the records as they are. -/
theorem pendingCommits_afterSpend (s : State) (nullifiers outputs : Bytes32 × Bytes32) :
    (afterSpend keccak256 s nullifiers outputs).pendingCommits = s.pendingCommits :=
  afterSpend_keeps (fun _ _ => rfl) (fun _ _ => rfl) s nullifiers outputs

/-- **Where a record comes from**: it was there before with the same depositor, or
the call has made it. -/
theorem Effect.pendingCommits {c : Call} {s s' : State} {payments : List Payment}
    (h : Effect keccak256 build s c s' payments) {commitHash : Bytes32} {record : CommitRecord}
    (hrecord : s'.pendingCommits commitHash = some record) :
    (∃ old, s.pendingCommits commitHash = some old ∧ old.depositor = record.depositor)
      ∨ (c.message = .commitDeposit commitHash ∧ c.env.caller = record.depositor) := by
  have hsettled : ∀ {h' : Bytes32} {old : CommitRecord}, s.pendingCommits h' = some old →
      (settled s h' old).pendingCommits commitHash = some record →
      ∃ old, s.pendingCommits commitHash = some old ∧ old.depositor = record.depositor := by
    intro h' old hfound hsettled
    unfold settled at hsettled
    dsimp only at hsettled
    rw [Function.update_apply] at hsettled
    split at hsettled
    · rename_i heq
      cases hsettled
      exact ⟨old, heq ▸ hfound, rfl⟩
    · exact ⟨record, hsettled, rfl⟩
  have hspend : ∀ nullifiers outputs,
      (afterSpend keccak256 s nullifiers outputs).pendingCommits = s.pendingCommits :=
    pendingCommits_afterSpend s
  cases h with
  | @transfer env proof merkleRoot nullifiers outputs _ _ _ =>
    exact Or.inl ⟨record, (congrFun (hspend nullifiers outputs) _).symm.trans hrecord, rfl⟩
  | @withdraw env proof merkleRoot nullifiers outputs recipient amount _ _ _ _ _ =>
    exact Or.inl ⟨record, (congrFun (hspend nullifiers outputs) _).symm.trans hrecord, rfl⟩
  | @commitDeposit env h' _ _ _ _ =>
    dsimp only at hrecord
    rw [Function.update_apply] at hrecord
    split at hrecord
    · rename_i heq
      cases hrecord
      exact Or.inr ⟨congrArg _ heq.symm, rfl⟩
    · exact Or.inl ⟨record, hrecord, rfl⟩
  | revealDeposit _ isOpen _ _ _ => exact Or.inl (hsettled isOpen.found hrecord)
  | reclaimExpiredCommit _ found _ _ => exact Or.inl (hsettled found hrecord)
  | _ => exact Or.inl ⟨record, hrecord, rfl⟩

/-- **Every record was made by a commit of its depositor.** -/
theorem exists_commit_of_pending {tr : List (State × Call)} {s : State}
    (h : RunFrom keccak256 build tr s) {commitHash : Bytes32} {record : CommitRecord}
    (hrecord : s.pendingCommits commitHash = some record) :
    ∃ p ∈ tr, p.2.message = .commitDeposit commitHash ∧ p.2.env.caller = record.depositor := by
  obtain ⟨env, epochDuration, hrun⟩ := h
  refine hrun.invariant (I := fun tr s => ∀ record, s.pendingCommits commitHash = some record →
    ∃ p ∈ tr, p.2.message = .commitDeposit commitHash ∧ p.2.env.caller = record.depositor)
    (fun _ hnone => by cases hnone) ?_ record hrecord
  intro tr s c s' ih _ hstep record hrecord
  obtain ⟨payments, heffect⟩ := step_effect hstep
  obtain ⟨old, hold, hsame⟩ | ⟨hmessage, hcaller⟩ := heffect.pendingCommits hrecord
  · obtain ⟨p, hp, hmessage, hcaller⟩ := ih old hold
    exact ⟨p, List.mem_append_left _ hp, hmessage, hcaller.trans hsame⟩
  · exact ⟨(s, c), List.mem_append_right _ (List.mem_singleton_self _), hmessage, hcaller⟩

/-! ## Reveals -/

/-- **A commitment can be revealed for a record** in a state. -/
def Reveals (keccak256 : Bytes → Bytes32) (build : Build) (s : State) (env : Env)
    (commitHash commitment : Bytes32) : Prop :=
  ∃ r, exec keccak256 build ⟨env, .revealDeposit commitHash commitment⟩ s = .ok r

/-- **Something can be**: the record is open to the caller, and the capacity check
passes. -/
structure CanReveal (build : Build) (s : State) (env : Env) (commitHash : Bytes32) : Prop where
  unpaid : env.transferredValue = 0
  isOpen : ∃ record, Open s env commitHash record
  wrapping : build = .wrapping
  empty : s.nextLeafIndex = 0

/-- **Any commitment that is not in the tree can be revealed** then. -/
theorem reveals_iff {s : State} {env : Env} {commitHash commitment : Bytes32} :
    Reveals keccak256 build s env commitHash commitment ↔
      CanReveal build s env commitHash ∧ s.leaves commitment = none := by
  unfold Reveals
  constructor
  · rintro ⟨⟨s', payments⟩, hexec⟩
    cases exec_effect hexec with
    | revealDeposit unpaid isOpen fresh wrapping empty =>
      exact ⟨⟨unpaid, ⟨_, isOpen⟩, wrapping, empty⟩, fresh⟩
  · rintro ⟨⟨hunpaid, ⟨record, hopen⟩, hbuild, hindex⟩, hfresh⟩
    have hreveal : revealDeposit keccak256 build env commitHash commitment s = .ok _ :=
      revealDeposit_eq_ok.mpr ⟨record, hopen, hfresh, hbuild, hindex, rfl⟩
    exact ⟨_, exec_eq_ok.mpr ⟨fun _ => hunpaid, congrArg (Except.map (·, [])) hreveal⟩⟩

/-- **A reveal is made by the account that committed**, in every run. -/
theorem exists_commit_of_reveals {tr : List (State × Call)} {s : State} {env : Env}
    {commitHash commitment : Bytes32} (h : RunFrom keccak256 build tr s)
    (hreveals : Reveals keccak256 build s env commitHash commitment) :
    ∃ p ∈ tr, p.2.message = .commitDeposit commitHash ∧ p.2.env.caller = env.caller := by
  obtain ⟨record, hopen⟩ := (reveals_iff.mp hreveals).1.isOpen
  obtain ⟨p, hp, hmessage, hcaller⟩ := exists_commit_of_pending h hopen.found
  exact ⟨p, hp, hmessage, hcaller.trans hopen.depositor⟩

/-- A state that a run leads to, and what the host tells about a call made there. -/
structure Moment where
  tr : List (State × Call)
  s : State
  env : Env

/-- The state is that of a run. -/
def Moment.Reached (keccak256 : Bytes → Bytes32) (build : Build) (m : Moment) : Prop :=
  RunFrom keccak256 build m.tr m.s

/-- **A commit hash binds** what is revealed at two moments, of one run or of two
that go on differently: whoever reveals has committed under it before, and the
commitment is the same. -/
structure Binds (keccak256 : Bytes → Bytes32) (build : Build) (commitHash : Bytes32)
    (m m' : Moment) : Prop where
  made : ∀ t ∈ [m, m'], ∀ commitment, Reveals keccak256 build t.s t.env commitHash commitment →
    ∃ p ∈ t.tr, p.2.message = .commitDeposit commitHash ∧ p.2.env.caller = t.env.caller
  one : ∀ commitment commitment', Reveals keccak256 build m.s m.env commitHash commitment →
    Reveals keccak256 build m'.s m'.env commitHash commitment' → commitment = commitment'

/-- **A commit hash binds if and only if nothing can be revealed for it** at one of
the two moments, or no two different commitments are left that are not in the tree. -/
theorem binds_iff {m m' : Moment} (h : m.Reached keccak256 build)
    (h' : m'.Reached keccak256 build) (commitHash : Bytes32) :
    Binds keccak256 build commitHash m m' ↔
      ¬ (CanReveal build m.s m.env commitHash ∧ CanReveal build m'.s m'.env commitHash
        ∧ ∃ cm cm', cm ≠ cm' ∧ m.s.leaves cm = none ∧ m'.s.leaves cm' = none) := by
  constructor
  · rintro hbinds ⟨hcan, hcan', cm, cm', hne, hfresh, hfresh'⟩
    exact hne (hbinds.one cm cm' (reveals_iff.mpr ⟨hcan, hfresh⟩)
      (reveals_iff.mpr ⟨hcan', hfresh'⟩))
  · intro hnot
    refine ⟨fun t ht _ hreveals => ?_, fun cm cm' hr hr' => ?_⟩
    · rcases List.mem_pair.mp ht with rfl | rfl
      · exact exists_commit_of_reveals h hreveals
      · exact exists_commit_of_reveals h' hreveals
    · obtain ⟨hcan, hfresh⟩ := reveals_iff.mp hr
      obtain ⟨hcan', hfresh'⟩ := reveals_iff.mp hr'
      by_contra hne
      exact hnot ⟨hcan, hcan', cm, cm', hne, hfresh, hfresh'⟩

/-- After the commit: the account 2 makes a call in a given block. -/
def afterCommit (blockNumber : BitVec 32) : Moment :=
  ⟨[(new ⟨1, 0, 0, true⟩ 10, commitCall)], committedPool, ⟨2, blockNumber, 0, true⟩⟩

theorem reached_afterCommit (keccak256 : Bytes → Bytes32) (build : Build)
    (blockNumber : BitVec 32) : (afterCommit blockNumber).Reached keccak256 build :=
  runFrom_committedPool keccak256 build

/-- The hash of a commit binds as long as it cannot be revealed. -/
theorem binds_iff_early :
    Binds (fun _ => 1) .wrapping 9 (afterCommit 2) (afterCommit 5) := by
  refine (binds_iff (reached_afterCommit _ _ 2) (reached_afterCommit _ _ 5) 9).mpr ?_
  rintro ⟨⟨-, ⟨record, hopen⟩, -, -⟩, -⟩
  obtain rfl : (⟨2, 1, false⟩ : CommitRecord) = record := Option.some.inj hopen.found
  exact absurd hopen.opened (by decide)

/-- **Two commitments can be revealed for the same commit**, whatever the hash. -/
theorem exists_two_reveals : (7 : Bytes32) ≠ 8 ∧ ∀ keccak256,
    (afterCommit 5).Reached keccak256 .wrapping
      ∧ Reveals keccak256 .wrapping (afterCommit 5).s (afterCommit 5).env 9 7
      ∧ Reveals keccak256 .wrapping (afterCommit 5).s (afterCommit 5).env 9 8
      ∧ ¬ Binds keccak256 .wrapping 9 (afterCommit 5) (afterCommit 5) := by
  have hne : (7 : Bytes32) ≠ 8 := by decide
  refine ⟨hne, fun keccak256 => ⟨reached_afterCommit keccak256 .wrapping 5, ?_⟩⟩
  have hopen : Open committedPool (afterCommit 5).env 9 ⟨2, 1, false⟩ :=
    ⟨rfl, rfl, rfl, by decide, by decide⟩
  have hcan : CanReveal .wrapping committedPool (afterCommit 5).env 9 :=
    ⟨rfl, ⟨_, hopen⟩, rfl, rfl⟩
  have h7 : Reveals keccak256 .wrapping committedPool (afterCommit 5).env 9 7 :=
    reveals_iff.mpr ⟨hcan, rfl⟩
  have h8 : Reveals keccak256 .wrapping committedPool (afterCommit 5).env 9 8 :=
    reveals_iff.mpr ⟨hcan, rfl⟩
  exact ⟨h7, h8, fun hbinds => hne (hbinds.one 7 8 h7 h8)⟩

end InkPool
