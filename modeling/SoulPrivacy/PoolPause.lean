import SoulPrivacy.CommitRecovery

/-!
# What a pause stops

A paused pool takes no commit, no reveal, no deposit, no transfer and no withdrawal.
What is left are the calls of governance, which move no note and no money, and the
reclaim of a commit that has expired, which needs no running pool. So from the moment
of a pause until the next `unpause` the tree with its roots, the nullifiers, the
commitments and the balance stay as they are, and of the commits those go that their
depositors reclaim (`Frozen`).

This is about the calls that start after the pause. The payee of a withdrawal may
pause the pool, or the guardian may while it is being paid; the withdrawal then ends
in the paused pool, and all it still does is release the guard. If it reverts instead,
the pause is undone with it.
-/

namespace PrivacyPool

open CallStack (Config Receipt Reachable Onward conts)

variable {X : Type} {E : Interfaces X}

/-- **A commit was reclaimed by its depositor** since a point: its record was there,
and is gone. -/
structure ReclaimedSince (pool₀ pool : Storage) (since : List (Receipt Call Cont Event))
    (commitHash : Bytes32) : Prop where
  unrevealed : (pool₀.pendingCommits commitHash).revealed = false
  gone : pool.pendingCommits commitHash = CommitRecord.deleted
  call : ∃ call events, .entered call events ∈ since
    ∧ call.entry = .reclaimExpiredCommit commitHash
    ∧ call.msg.sender = (pool₀.pendingCommits commitHash).depositor

/-- **The pool is frozen** between two points, with what is in effect since. -/
structure Frozen (p₀ p : Point X) (since : List (Receipt Call Cont Event)) : Prop where
  trace : p.trace = p₀.trace ++ since
  paused : p.state.pool.paused = true
  lastPauseTime : p.state.pool.lastPauseTime = p₀.state.pool.lastPauseTime
  tree : p.state.pool.tree = p₀.state.pool.tree
  nullifierSpent : p.state.pool.nullifierSpent = p₀.state.pool.nullifierSpent
  commitmentExists : p.state.pool.commitmentExists = p₀.state.pool.commitmentExists
  poolBalance : p.state.pool.poolBalance = p₀.state.pool.poolBalance
  commits : ∀ commitHash,
    p.state.pool.pendingCommits commitHash = p₀.state.pool.pendingCommits commitHash
      ∨ ReclaimedSince p₀.state.pool p.state.pool since commitHash

/-- A paused pool is frozen as it is. -/
theorem Frozen.refl {p : Point X} (hpaused : p.state.pool.paused = true) : Frozen p p [] :=
  ⟨(List.append_nil _).symm, hpaused, rfl, rfl, rfl, rfl, rfl, fun _ => Or.inl rfl⟩

/-- It is left as it is by what leaves the records and the pause. -/
theorem Frozen.of_eq {p₀ p : Point X} {since : List (Receipt Call Cont Event)}
    (h : Frozen p₀ p since) {s' : World X} {more : List (Receipt Call Cont Event)}
    (hpaused : s'.pool.paused = p.state.pool.paused)
    (htime : s'.pool.lastPauseTime = p.state.pool.lastPauseTime)
    (htree : s'.pool.tree = p.state.pool.tree)
    (hspent : s'.pool.nullifierSpent = p.state.pool.nullifierSpent)
    (hexists : s'.pool.commitmentExists = p.state.pool.commitmentExists)
    (hbalance : s'.pool.poolBalance = p.state.pool.poolBalance)
    (hcommits : s'.pool.pendingCommits = p.state.pool.pendingCommits) :
    Frozen p₀ ⟨s', p.trace ++ more⟩ (since ++ more) where
  trace := by
    show p.trace ++ more = _
    rw [h.trace, List.append_assoc]
  paused := hpaused.trans h.paused
  lastPauseTime := htime.trans h.lastPauseTime
  tree := htree.trans h.tree
  nullifierSpent := hspent.trans h.nullifierSpent
  commitmentExists := hexists.trans h.commitmentExists
  poolBalance := hbalance.trans h.poolBalance
  commits commitHash := by
    rcases h.commits commitHash with hsame | hgone
    · exact Or.inl ((congrFun hcommits commitHash).trans hsame)
    · obtain ⟨call, events, hmem, hentry, hsender⟩ := hgone.call
      exact Or.inr ⟨hgone.unrevealed, (congrFun hcommits commitHash).trans hgone.gone, call,
        events, List.mem_append_left _ hmem, hentry, hsender⟩

/-- **A reclaim keeps the pool frozen.** -/
theorem Frozen.reclaim {p₀ p : Point X} {since : List (Receipt Call Cont Event)}
    (h : Frozen p₀ p since) {call : Call} {s' : World X} {events : List Event}
    {commitHash : Bytes32} (hentry : call.entry = .reclaimExpiredCommit commitHash)
    (hdepositor : (p.state.pool.pendingCommits commitHash).depositor = call.msg.sender)
    (hunrevealed : (p.state.pool.pendingCommits commitHash).revealed = false)
    (hpool : s'.pool = { p.state.pool with
      status := .entered
      pendingCommits :=
        Function.update p.state.pool.pendingCommits commitHash CommitRecord.deleted }) :
    Frozen p₀ ⟨s', p.trace ++ [.entered call events]⟩ (since ++ [.entered call events]) where
  trace := by
    show p.trace ++ _ = _
    rw [h.trace, List.append_assoc]
  paused := by rw [hpool]; exact h.paused
  lastPauseTime := by rw [hpool]; exact h.lastPauseTime
  tree := by rw [hpool]; exact h.tree
  nullifierSpent := by rw [hpool]; exact h.nullifierSpent
  commitmentExists := by rw [hpool]; exact h.commitmentExists
  poolBalance := by rw [hpool]; exact h.poolBalance
  commits commitHash' := by
    dsimp only
    rw [hpool]
    by_cases heq : commitHash' = commitHash
    · subst heq
      have hgone : Function.update p.state.pool.pendingCommits commitHash' CommitRecord.deleted
          commitHash' = CommitRecord.deleted := Function.update_self ..
      rcases h.commits commitHash' with hsame | hbefore
      · rw [hsame] at hdepositor hunrevealed
        exact Or.inr ⟨hunrevealed, hgone, call, events,
          List.mem_append_right _ (List.mem_singleton_self _), hentry, hdepositor.symm⟩
      · -- a record that is gone has no depositor
        rw [hbefore.gone] at hdepositor
        exact absurd hdepositor.symm call.msg.sender_ne_zero
    · have hother : Function.update p.state.pool.pendingCommits commitHash CommitRecord.deleted
          commitHash' = p.state.pool.pendingCommits commitHash' := Function.update_of_ne heq ..
      rcases h.commits commitHash' with hsame | hbefore
      · exact Or.inl (hother.trans hsame)
      · obtain ⟨call', events', hmem, hentry', hsender⟩ := hbefore.call
        exact Or.inr ⟨hbefore.unrevealed, hother.trans hbefore.gone, call', events',
          List.mem_append_left _ hmem, hentry', hsender⟩

/-- **A call that starts in the paused pool keeps it frozen**, unless it is an
`unpause`. -/
theorem Frozen.enter {p₀ p : Point X} {since : List (Receipt Call Cont Event)}
    (h : Frozen p₀ p since) {call : Call} (hcall : call.entry ≠ .unpause) {s' : World X}
    {events : List Event} {k : Option Cont} (hr : enter E call p.state = .ok (s', events, k)) :
    Frozen p₀ ⟨s', p.trace ++ [.entered call events]⟩ (since ++ [.entered call events]) := by
  obtain ⟨-, heff⟩ := enter_effect hr
  obtain ⟨msg, entry⟩ := call
  have hstopped : p.state.pool.paused ≠ false := by
    rw [h.paused]
    exact Bool.true_eq_false.mp
  dsimp only at heff hcall
  cases heff
  case reclaimExpiredCommit record _ record_eq depositor unrevealed _ =>
    subst record_eq
    exact h.reclaim rfl depositor unrevealed rfl
  case unpause => exact absurd rfl hcall
  case setEpochManager => exact h.of_eq rfl rfl rfl rfl rfl rfl rfl
  case setGovernance => exact h.of_eq rfl rfl rfl rfl rfl rfl rfl
  case setComplianceOracle => exact h.of_eq rfl rfl rfl rfl rfl rfl rfl
  case enableFixedDenominations => exact h.of_eq rfl rfl rfl rfl rfl rfl rfl
  case disableFixedDenominations => exact h.of_eq rfl rfl rfl rfl rfl rfl rfl
  case setGuardian => exact h.of_eq rfl rfl rfl rfl rfl rfl rfl
  -- the others need a running pool
  all_goals exact absurd ‹p.state.pool.paused = false› hstopped

/-- **Frozen is an invariant of what goes on after a pause.** -/
theorem frozen_invariant (p₀ : Point X) :
    CallStack.Invariant (machine E) (fun _ call => call.entry ≠ .unpause)
      (fun _ p => ∃ since, Frozen p₀ p since) (fun _ _ p => ∃ since, Frozen p₀ p since) where
  enter_done := fun ⟨_, hp⟩ hcall h => ⟨_, hp.enter hcall h⟩
  enter_send := fun ⟨_, hp⟩ hcall h => ⟨_, hp.enter hcall h⟩
  send := by
    rintro ks p k s' ⟨since, hp⟩ h
    obtain ⟨-, rfl⟩ := send_eq_some h
    exact ⟨since, hp.trace, hp.paused, hp.lastPauseTime, hp.tree, hp.nullifierSpent,
      hp.commitmentExists, hp.poolBalance, hp.commits⟩
  resume_true := by
    rintro ks p k s' events ⟨since, hp⟩ h
    obtain ⟨-, rfl⟩ := resume_eq_ok h
    exact ⟨_, hp.of_eq rfl rfl rfl rfl rfl rfl rfl⟩
  resume_false := fun _ h => nomatch (resume_eq_ok h).1
  outside := by
    rintro ks p s' ⟨since, hp⟩ ⟨-, -, hpool, -⟩
    rw [← List.append_nil p.trace]
    exact ⟨_, hp.of_eq (by rw [hpool]) (by rw [hpool]) (by rw [hpool]) (by rw [hpool])
      (by rw [hpool]) (by rw [hpool]) (by rw [hpool])⟩
  tick := by
    rintro p s' ⟨since, hp⟩ ⟨-, -, hpool, -⟩
    rw [← List.append_nil p.trace]
    exact ⟨_, hp.of_eq (by rw [hpool]) (by rw [hpool]) (by rw [hpool]) (by rw [hpool])
      (by rw [hpool]) (by rw [hpool]) (by rw [hpool])⟩

/-! ## The end of a pause -/

/-- **`lastPauseTime` is the time of the last pause**: a pause writes the time of its
block, and no other call touches it. -/
theorem lastPauseTime_eq {call : Call} {w w' : World X} {events : List Event} {k : Option Cont}
    (hr : enter E call w = .ok (w', events, k)) :
    (∃ reason, call.entry = .pause reason) ∧ w'.pool.lastPauseTime = w.block.timestamp
      ∨ (∀ reason, call.entry ≠ .pause reason)
        ∧ w'.pool.lastPauseTime = w.pool.lastPauseTime := by
  obtain ⟨-, heff⟩ := enter_effect hr
  obtain ⟨msg, entry⟩ := call
  dsimp only at heff ⊢
  cases heff
  case pause reason _ _ => exact Or.inl ⟨⟨reason, rfl⟩, rfl⟩
  all_goals exact Or.inr ⟨nofun, rfl⟩

/-- **Who ends a pause**: governance, or anyone once it has lasted long enough. -/
theorem unpause_auth {call : Call} {w w' : World X} {events : List Event} {k : Option Cont}
    (hr : enter E call w = .ok (w', events, k)) (hcall : call.entry = .unpause) :
    call.msg.sender = w.pool.governance
      ∨ w.pool.lastPauseTime + MAX_PAUSE_DURATION ≤ w.block.timestamp := by
  obtain ⟨-, heff⟩ := enter_effect hr
  rw [hcall] at heff
  cases heff with
  | unpause _ auth => exact auth

/-- **A pause freezes the pool**, from every reachable state in which it is paused and
through everything up to the next `unpause`, re-entrant calls and the ends of the calls
that were under way included: it stays frozen but for the commits that their
depositors reclaim, and those they can; and an `unpause` that goes through comes from
governance, or `MAX_PAUSE_DURATION` after the time of the last pause. -/
theorem pause_freezes {w₀ : World X} (hdeployed : Deployed E w₀)
    {c : Config (World X) (Receipt Call Cont Event) Cont}
    (hreach : Reachable (machine E) (fun _ _ => True) w₀ c)
    (hpaused : c.now.state.pool.paused = true)
    {d : Config (World X) (Receipt Call Cont Event) Cont}
    {base : List (CallStack.Frame (World X) (Receipt Call Cont Event) Cont)}
    (honward : Onward (machine E) (fun _ call => call.entry ≠ .unpause) c d base) :
    (∃ since, Frozen c.now d.now since)
      ∧ (∀ commitHash record, ∀ hpending : Pending d.now.state.pool commitHash record,
          conts d.stack = [] →
          record.blockNumber + MAX_COMMIT_DELAY < d.now.state.block.number →
            Recovers E d record hpending.made commitHash)
      ∧ (∀ call r, enter E call d.now.state = .ok r → call.entry = .unpause →
          call.msg.sender = d.now.state.pool.governance
            ∨ c.now.state.pool.lastPauseTime + MAX_PAUSE_DURATION
              ≤ d.now.state.block.timestamp)
      ∧ ∀ call w r, enter E call w = .ok r →
          (∃ reason, call.entry = .pause reason) ∧ r.1.pool.lastPauseTime = w.block.timestamp
            ∨ (∀ reason, call.entry ≠ .pause reason)
              ∧ r.1.pool.lastPauseTime = w.pool.lastPauseTime := by
  have hfrozen := honward.holds (frozen_invariant c.now) ⟨[], Frozen.refl hpaused⟩
  refine ⟨hfrozen, fun commitHash record hpending hidle hexpired => ?_, fun call r hr hcall => ?_,
    fun call w r hr => lastPauseTime_eq hr⟩
  · exact recovers_of_reachable hdeployed (honward.reachable hreach) hidle hpending hexpired
  · obtain ⟨since, hfrozen⟩ := hfrozen
    rw [← hfrozen.lastPauseTime]
    exact unpause_auth hr hcall

/-- A commit of 10 is reclaimed while the guardian has paused the pool, and the payee
still has control. -/
theorem pause_freezes_reclaim :
    ∃ w₀ : World Unit, ∃ c d base, Deployed (permissive Unit) w₀
      ∧ Reachable (machine (permissive Unit)) (fun _ _ => True) w₀ c
      ∧ Onward (machine (permissive Unit)) (fun _ call => call.entry ≠ .unpause) c d base
      ∧ d.stack.length = 1 ∧ ∃ since, Frozen c.now d.now since := by
  let w₀ : World Unit := ⟨⟨0, 0⟩, 0, construct (permissive Unit).hash 1 2 3 4 5 0, ()⟩
  let commit : Call := ⟨⟨1, 10, by decide⟩, .commitDeposit 77⟩
  let stop : Call := ⟨⟨5, 0, by decide⟩, .pause "drill"⟩
  let reclaim : Call := ⟨⟨1, 0, by decide⟩, .reclaimExpiredCommit 77⟩
  have hdeployed : Deployed (permissive Unit) w₀ := ⟨1, 2, 3, 4, 5, 0, rfl⟩
  have hruns : ∃ c d base, Reachable (machine (permissive Unit)) (fun _ _ => True) w₀ c
      ∧ c.now.state.pool.paused = true
      ∧ Onward (machine (permissive Unit)) (fun _ call => call.entry ≠ .unpause) c d base
      ∧ d.stack.length = 1 :=
    ⟨_, _, _, .tail (.tail (.tail .refl (.call (c := commit) trivial rfl))
        (.call (c := stop) trivial rfl)) (step_wait _ _ (Nat.zero_le 103)), rfl,
      .step .start (.handover (c := reclaim) nofun rfl rfl) (List.suffix_cons ..), rfl⟩
  obtain ⟨c, d, base, hreach, hpaused, honward, hstack⟩ := hruns
  exact ⟨w₀, c, d, base, hdeployed, hreach, honward, hstack,
    (pause_freezes hdeployed hreach hpaused honward).1⟩

end PrivacyPool
