import SoulPrivacy.InkEffect

/-!
# The pause of the ink! pool

Deposits, transfers, withdrawals and commits check the pause, each on its own. The
reveal of a commit does not. So while the pool is paused, nothing that belongs to
the tree, the roots, the nullifiers or the balance is changed exactly as long as
no commit is revealed (`frozen_iff`): a reveal inserts a leaf, and no leaf is ever
taken away.
-/

namespace InkPool

variable {keccak256 : Bytes → Bytes32} {build : Build}

/-- **What a pause should freeze** is the same in two states. -/
structure Frozen (s s' : State) : Prop where
  leaves : s'.leaves = s.leaves
  nodes : s'.nodes = s.nodes
  currentRoot : s'.currentRoot = s.currentRoot
  rootHistory : s'.rootHistory = s.rootHistory
  rootHistoryCursor : s'.rootHistoryCursor = s.rootHistoryCursor
  nullifiers : s'.nullifiers = s.nullifiers
  poolBalance : s'.poolBalance = s.poolBalance

theorem Frozen.refl (s : State) : Frozen s s := ⟨rfl, rfl, rfl, rfl, rfl, rfl, rfl⟩

theorem Frozen.trans {s₁ s₂ s₃ : State} (h : Frozen s₁ s₂) (h' : Frozen s₂ s₃) :
    Frozen s₁ s₃ where
  leaves := h'.leaves.trans h.leaves
  nodes := h'.nodes.trans h.nodes
  currentRoot := h'.currentRoot.trans h.currentRoot
  rootHistory := h'.rootHistory.trans h.rootHistory
  rootHistoryCursor := h'.rootHistoryCursor.trans h.rootHistoryCursor
  nullifiers := h'.nullifiers.trans h.nullifiers
  poolBalance := h'.poolBalance.trans h.poolBalance

/-- The message reveals a commit. -/
def Message.Reveals (m : Message) : Prop := ∃ commitHash commitment,
  m = .revealDeposit commitHash commitment

/-! ## One call -/

/-- **A call that goes through while the pool is paused** and does not unpause it
leaves it paused, and freezes it unless it is a reveal. -/
theorem Effect.frozen {c : Call} {s s' : State} {payments : List Payment}
    (h : Effect keccak256 build s c s' payments) (hpaused : s.paused = true)
    (hc : c.message ≠ .unpause) :
    s'.paused = true ∧ (¬ c.message.Reveals → Frozen s s') := by
  have hrunning : s.paused ≠ false := fun hfalse => by
    rw [hpaused] at hfalse
    cases hfalse
  cases h with
  | deposit running _ _ _ _ => exact absurd running hrunning
  | transfer _ spends _ => exact absurd spends.running hrunning
  | withdraw _ spends _ _ _ => exact absurd spends.running hrunning
  | commitDeposit running _ _ _ => exact absurd running hrunning
  | revealDeposit _ _ _ _ _ =>
    exact ⟨hpaused, fun hreveals => absurd ⟨_, _, rfl⟩ hreveals⟩
  | unpause _ _ => exact absurd rfl hc
  | pause _ _ => exact ⟨rfl, fun _ => ⟨rfl, rfl, rfl, rfl, rfl, rfl, rfl⟩⟩
  | _ => exact ⟨hpaused, fun _ => ⟨rfl, rfl, rfl, rfl, rfl, rfl, rfl⟩⟩

/-- What an insertion does to the leaves. -/
theorem leaves_insertedAll_ne (s : State) (cms : List Bytes32) (cm : Bytes32) :
    (insertedAll keccak256 s cms).leaves cm ≠ none ↔ s.leaves cm ≠ none ∨ cm ∈ cms := by
  induction cms generalizing s with
  | nil => simp [insertedAll]
  | cons cm' cms ih =>
    show (insertedAll keccak256 (inserted keccak256 s cm') cms).leaves cm ≠ none ↔ _
    rw [ih, leaves_inserted, Function.update_apply, List.mem_cons, ← or_assoc]
    refine or_congr_left ?_
    split
    · rename_i heq
      exact iff_of_true (Option.some_ne_none _) (Or.inr heq)
    · rename_i hne
      exact (or_iff_left hne).symm

/-- **The leaves of a call are added** to those that are there. -/
theorem Effect.leaves_ne {c : Call} {s s' : State} {payments : List Payment}
    (h : Effect keccak256 build s c s' payments) (cm : Bytes32) :
    s'.leaves cm ≠ none ↔ s.leaves cm ≠ none ∨ cm ∈ c.message.inserts := by
  rw [h.sameTree.leaves, leaves_insertedAll_ne]

/-- **A reveal inserts a leaf that was not there.** -/
theorem Effect.exists_fresh {c : Call} {s s' : State} {payments : List Payment}
    (h : Effect keccak256 build s c s' payments) (hreveals : c.message.Reveals) :
    ∃ cm ∈ c.message.inserts, s.leaves cm = none := by
  cases h with
  | @revealDeposit _ _ commitment _ _ _ fresh _ _ =>
    exact ⟨commitment, List.mem_singleton_self commitment, fresh⟩
  | _ =>
    obtain ⟨_, _, heq⟩ := hreveals
    cases heq

/-! ## Runs -/

/-- **What a run from a paused state does without unpausing it**: the pool stays
paused, no leaf is lost, and the rest is frozen, or a leaf was revealed. -/
structure WhilePaused (s : State) (tr : List (State × Call)) (s' : State) : Prop where
  paused : s'.paused = true
  kept : ∀ cm, s.leaves cm ≠ none → s'.leaves cm ≠ none
  frozen : (∀ p ∈ tr, ¬ p.2.message.Reveals) → Frozen s s'
  revealed : ¬ (∀ p ∈ tr, ¬ p.2.message.Reveals) →
    ∃ cm, s.leaves cm = none ∧ s'.leaves cm ≠ none

theorem whilePaused_of_run {s s' : State} {tr : List (State × Call)} (hpaused : s.paused = true)
    (h : Run (step keccak256 build) (fun _ c => c.message ≠ .unpause) s tr s') :
    WhilePaused s tr s' := by
  refine h.invariant (I := fun tr s' => WhilePaused s tr s')
    ⟨hpaused, fun _ => id, fun _ => Frozen.refl s, fun hex => absurd (by simp) hex⟩ ?_
  intro tr s₁ c s₂ hw hc hstep
  obtain ⟨payments, heffect⟩ := step_effect hstep
  obtain ⟨hpaused₂, hfrozen⟩ := heffect.frozen hw.paused hc
  have hkept : ∀ cm, s₁.leaves cm ≠ none → s₂.leaves cm ≠ none :=
    fun cm hcm => (heffect.leaves_ne cm).mpr (Or.inl hcm)
  refine ⟨hpaused₂, fun cm hcm => hkept cm (hw.kept cm hcm), fun hnone => ?_, fun hsome => ?_⟩
  · obtain ⟨hbefore, hlast⟩ := List.forall_mem_append.mp hnone
    exact (hw.frozen hbefore).trans (hfrozen (hlast _ (List.mem_singleton_self _)))
  · by_cases hbefore : ∀ p ∈ tr, ¬ p.2.message.Reveals
    · -- the last call is the first reveal
      have hreveals : c.message.Reveals := by
        by_contra hnot
        exact hsome (List.forall_mem_append.mpr ⟨hbefore, List.forall_mem_singleton.mpr hnot⟩)
      obtain ⟨cm, hmem, hfresh⟩ := heffect.exists_fresh hreveals
      rw [(hw.frozen hbefore).leaves] at hfresh
      exact ⟨cm, hfresh, (heffect.leaves_ne cm).mpr (Or.inr hmem)⟩
    · obtain ⟨cm, hfresh, hthere⟩ := hw.revealed hbefore
      exact ⟨cm, hfresh, hkept cm hthere⟩

/-- **From a paused state, a run that does not unpause the pool freezes it if and
only if no commit is revealed in it.** -/
theorem frozen_iff {s s' : State} {tr : List (State × Call)} (hpaused : s.paused = true)
    (h : Run (step keccak256 build) (fun _ c => c.message ≠ .unpause) s tr s') :
    Frozen s s' ↔ ∀ p ∈ tr, ¬ p.2.message.Reveals := by
  have hw := whilePaused_of_run hpaused h
  refine ⟨fun hfrozen => ?_, hw.frozen⟩
  by_contra hsome
  obtain ⟨cm, hfresh, hthere⟩ := hw.revealed hsome
  exact hthere ((congrFun hfrozen.leaves cm).trans hfresh)

/-! ## A reveal while the pool is paused -/

/-- The account 2 commits a deposit, … -/
def commitCall : Call := ⟨⟨2, 1, 100, true⟩, .commitDeposit 9⟩

/-- … the governance pauses the pool, … -/
def pauseCall : Call := ⟨⟨1, 2, 0, true⟩, .pause⟩

/-- … and the commit is revealed. -/
def revealCall : Call := ⟨⟨2, 5, 0, true⟩, .revealDeposit 9 7⟩

/-- The pool after the commit, … -/
def committedPool : State :=
  { new ⟨1, 0, 0, true⟩ 10 with
    pendingCommits := Function.update (fun _ => none) 9 (some ⟨2, 1, false⟩)
    poolBalance := 100 }

/-- … and after the pause. -/
def pausedPool : State := { committedPool with paused := true }

theorem step_commitCall (keccak256 : Bytes → Bytes32) (build : Build) :
    step keccak256 build commitCall (new ⟨1, 0, 0, true⟩ 10) = .ok committedPool := by
  cases build <;> rfl

theorem step_pauseCall (keccak256 : Bytes → Bytes32) (build : Build) :
    step keccak256 build pauseCall committedPool = .ok pausedPool := rfl

theorem runFrom_committedPool (keccak256 : Bytes → Bytes32) (build : Build) :
    RunFrom keccak256 build [(new ⟨1, 0, 0, true⟩ 10, commitCall)] committedPool :=
  ⟨_, _, Run.nil.snoc trivial (step_commitCall keccak256 build)⟩

theorem runFrom_pausedPool (keccak256 : Bytes → Bytes32) (build : Build) :
    RunFrom keccak256 build [(new ⟨1, 0, 0, true⟩ 10, commitCall), (committedPool, pauseCall)]
      pausedPool :=
  ⟨_, _, (Run.nil.snoc trivial (step_commitCall keccak256 build)).snoc trivial
    (step_pauseCall keccak256 build)⟩

/-- … and after the reveal. -/
def revealedPool (keccak256 : Bytes → Bytes32) : State :=
  pushed (inserted keccak256 (settled pausedPool 9 ⟨2, 1, false⟩) 7)

theorem leaves_revealedPool (keccak256 : Bytes → Bytes32) :
    (revealedPool keccak256).leaves 7 = some 0 := by
  show (inserted keccak256 (settled pausedPool 9 ⟨2, 1, false⟩) 7).leaves 7 = some 0
  rw [leaves_inserted, Function.update_self]
  rfl

/-- The record can be revealed where the capacity is not checked. -/
theorem step_revealCall (keccak256 : Bytes → Bytes32) :
    step keccak256 .wrapping revealCall pausedPool = .ok (revealedPool keccak256) := by
  have hfound : pausedPool.pendingCommits 9 = some ⟨2, 1, false⟩ := rfl
  have hreveal : revealDeposit keccak256 .wrapping revealCall.env 9 7 pausedPool
      = .ok (revealedPool keccak256) :=
    revealDeposit_eq_ok.mpr ⟨⟨2, 1, false⟩, ⟨hfound, rfl, rfl, by decide, by decide⟩, rfl, rfl,
      rfl, rfl⟩
  exact step_of_run (fun _ => rfl) (congrArg (Except.map (·, [])) hreveal)

/-- A paused pool is frozen when it is paused once more. -/
theorem frozen_iff_pauseCall : ∃ s', Run (step (fun _ => 1) .checked)
    (fun _ c => c.message ≠ .unpause) pausedPool [(pausedPool, pauseCall)] s'
      ∧ Frozen pausedPool s' := by
  have hrun : Run (step (fun _ => 1) .checked) (fun _ c => c.message ≠ .unpause) pausedPool
      [(pausedPool, pauseCall)] { pausedPool with paused := true } :=
    Run.nil.snoc (fun h => by cases h) rfl
  refine ⟨_, hrun, (frozen_iff rfl hrun).mpr (List.forall_mem_singleton.mpr ?_)⟩
  rintro ⟨_, _, heq⟩
  cases heq

/-- **A leaf is inserted while the pool is paused**, whatever the hash. -/
theorem exists_revealed_while_paused : pausedPool.paused = true ∧ ∀ keccak256,
    Reachable keccak256 .wrapping pausedPool
      ∧ ∃ s', Run (step keccak256 .wrapping) (fun _ c => c.message ≠ .unpause) pausedPool
          [(pausedPool, revealCall)] s'
        ∧ pausedPool.leaves 7 = none ∧ s'.leaves 7 = some 0 ∧ ¬ Frozen pausedPool s' := by
  refine ⟨rfl, fun keccak256 => ⟨⟨_, runFrom_pausedPool keccak256 .wrapping⟩,
    revealedPool keccak256, Run.nil.snoc (fun h => by cases h) (step_revealCall keccak256), rfl,
    leaves_revealedPool keccak256, fun hfrozen => ?_⟩⟩
  have hleaf := (leaves_revealedPool keccak256).symm.trans (congrFun hfrozen.leaves 7)
  cases hleaf

end InkPool
