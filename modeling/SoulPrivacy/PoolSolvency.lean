import SoulPrivacy.PoolEffect

/-!
# Solvency of the privacy pool

The pool keeps two kinds of money in one balance: `poolBalance`, which
backs the notes in the tree, and the values of the commits that are
neither revealed nor reclaimed, which no storage variable adds up. What
it owes is the sum of both (`owed`), and **the ether it holds covers what
it owes at every point of every run**, with payees that call back while
they are being paid.

The book-keeping of the commits is compared with an abstract one: a
commit is absent, pending with a value, or revealed (`Life`), and the
history of a commit hash is one that `Life.step` accepts. From that, each
commit's value is used at most once (`UsedAtMostOnce`).

While `withdraw` or `reclaimExpiredCommit` is about to pay, what is owed
has already gone down by the payout, and the ether has not: this is the
invariant at the sending, and the payout uses up the slack. The guard
against reentrancy plays no part in it.
-/

namespace PrivacyPool

/-! ## The life of a commit -/

/-- What happens to a commit: it is made, or its value is used. -/
inductive Use where
  | committed (value : Uint256)
  | revealed (value : Uint256)
  | reclaimed (value : Uint256)
  deriving DecidableEq

/-- The value a use takes. -/
def Use.spends : Use → Option Uint256
  | .committed _ => none
  | .revealed value => some value
  | .reclaimed value => some value

/-- **The state of a commit hash**, as the protocol sees it. -/
inductive Life where
  | absent
  | pending (value : Uint256)
  | revealed
  deriving DecidableEq

/-- One step in the life of a commit. A revealed commit stays revealed; a
reclaimed one is gone, and its hash is free again. -/
def Life.step : Life → Use → Option Life
  | .absent, .committed v => some (.pending v)
  | .pending v, .revealed v' => if v = v' then some .revealed else none
  | .pending v, .reclaimed v' => if v = v' then some .absent else none
  | _, _ => none

/-- **Each commit's value is used at most once**: a use directly follows
the commitment of that same value. -/
def UsedAtMostOnce (history : List Use) : Prop :=
  ∀ pre u post v, history = pre ++ u :: post → Use.spends u = some v →
    ∃ pre', pre = pre' ++ [.committed v]

/-- Only a pending commit can be used, and only for its value. -/
theorem Life.eq_pending_of_step {l l' : Life} {u : Use} {v : Uint256}
    (hu : u.spends = some v) (h : l.step u = some l') : l = .pending v := by
  cases l <;> cases u <;> simp [Life.step, Use.spends] at h hu
  · rw [← hu, h.1]
  · rw [← hu, h.1]

/-- What makes a commit pending is its commitment. -/
theorem Life.eq_committed_of_step {l : Life} {u : Use} {v : Uint256}
    (h : l.step u = some (.pending v)) : u = .committed v := by
  cases l <;> cases u <;> simp [Life.step] at h
  rw [h]

/-- A history that leaves a commit pending ends with its commitment. -/
theorem Life.last_of_pending {history : List Use} {v : Uint256}
    (h : history.foldlM Life.step .absent = some (.pending v)) :
    ∃ pre, history = pre ++ [.committed v] := by
  rcases List.eq_nil_or_concat history with rfl | ⟨pre, u, rfl⟩
  · cases h
  · rw [List.concat_eq_append, List.foldlM_append] at h
    obtain ⟨l, -, hl⟩ := Option.bind_eq_some_iff.mp h
    obtain ⟨l', hstep, hl'⟩ := Option.bind_eq_some_iff.mp hl
    cases hl'
    exact ⟨pre, by rw [Life.eq_committed_of_step hstep, List.concat_eq_append]⟩

/-- **A history the life cycle accepts uses each commit at most once.** -/
theorem Life.usedAtMostOnce {history : List Use} {l : Life}
    (h : history.foldlM Life.step .absent = some l) : UsedAtMostOnce history := by
  rintro pre u post v rfl hu
  rw [List.foldlM_append] at h
  obtain ⟨l₁, hpre, hl₁⟩ := Option.bind_eq_some_iff.mp h
  rw [List.foldlM_cons] at hl₁
  obtain ⟨l₂, hstep, -⟩ := Option.bind_eq_some_iff.mp hl₁
  rw [Life.eq_pending_of_step hu hstep] at hpre
  exact Life.last_of_pending hpre

variable {X : Type} (E : Interfaces X)

/-- What an event of a call says about a commit hash. A reveal names the
commitment only; its hash is that of the call's arguments. -/
def Event.uses (commitHash : Bytes32) (c : Call) : Event → List Use
  | .depositCommitted h _ value => if h = commitHash then [.committed value] else []
  | .commitReclaimed h _ value => if h = commitHash then [.reclaimed value] else []
  | .depositRevealed _ value =>
    match c.entry with
    | .revealDeposit commitment salt =>
      if commitHashOf E commitment salt = commitHash then [.revealed value] else []
    | _ => []
  | _ => []

/-- … and a receipt. -/
def receiptUses (commitHash : Bytes32) : CallStack.Receipt Call Cont Event → List Use
  | .entered c evs => evs.flatMap (Event.uses E commitHash c)
  | .resumed _ _ => []

/-- **The history of a commit hash** in a trace. -/
def commitHistory (commitHash : Bytes32)
    (trace : List (CallStack.Receipt Call Cont Event)) : List Use :=
  trace.flatMap (receiptUses E commitHash)

theorem commitHistory_append (commitHash : Bytes32)
    (trace trace' : List (CallStack.Receipt Call Cont Event)) :
    commitHistory E commitHash (trace ++ trace')
      = commitHistory E commitHash trace ++ commitHistory E commitHash trace' :=
  List.flatMap_append

/-- The life of a record of the contract. -/
def CommitRecord.life (record : CommitRecord) : Life :=
  if record.depositor = 0 then .absent
  else if record.revealed = true then .revealed
  else .pending record.value

theorem CommitRecord.life_of_pending {record : CommitRecord}
    (hdep : record.depositor ≠ 0) (hrev : record.revealed = false) :
    record.life = .pending record.value := by
  rw [life, if_neg hdep, hrev]
  rfl

/-! ## What the pool owes -/

/-- The value a record still promises. -/
def CommitRecord.pendingValue (record : CommitRecord) : ℕ :=
  if record.revealed = true then 0 else record.value.toNat

/-- The values of all commits neither revealed nor reclaimed. -/
noncomputable def pendingTotal (pendingCommits : Bytes32 → CommitRecord) : ℕ :=
  ∑ᶠ h, (pendingCommits h).pendingValue

/-- **What the pool owes.** -/
noncomputable def owed (pool : Storage) : ℕ :=
  pool.poolBalance.toNat + pendingTotal pool.pendingCommits

/-- The value a handover is about to send. -/
def payout : Option Cont → ℕ
  | none => 0
  | some k => k.value.toNat

/-- Replacing one record replaces its value in the total. -/
theorem pendingTotal_update (pendingCommits : Bytes32 → CommitRecord)
    (h : Bytes32) (record : CommitRecord) :
    pendingTotal (Function.update pendingCommits h record)
        + (pendingCommits h).pendingValue
      = pendingTotal pendingCommits + record.pendingValue := by
  have hfinite := Bytes32.finite
  unfold pendingTotal
  simp only [Function.apply_update (fun _ => CommitRecord.pendingValue) pendingCommits h record]
  exact finsum_update_add (fun k => (pendingCommits k).pendingValue) h record.pendingValue

@[simp] theorem CommitRecord.pendingValue_deleted :
    CommitRecord.deleted.pendingValue = 0 := rfl

theorem pendingTotal_deleted : pendingTotal (fun _ => CommitRecord.deleted) = 0 := by
  unfold pendingTotal
  exact finsum_zero

theorem owed_le_of_eq {pool pool' : Storage} {v : ℕ}
    (hbal : pool'.poolBalance = pool.poolBalance)
    (hcommits : pool'.pendingCommits = pool.pendingCommits) :
    owed pool' + payout none ≤ owed pool + v := by
  unfold owed
  rw [hbal, hcommits]
  exact Nat.le_add_right _ _

theorem CommitRecord.pendingValue_of_unrevealed {record : CommitRecord}
    (h : record.revealed = false) : record.pendingValue = record.value.toNat := by
  rw [pendingValue, h]
  rfl

/-! ## The trace as a ledger -/

/-- The value an event credits to the pool's notes. -/
def Event.credits : Event → ℕ
  | .deposit _ _ amount _ => amount.toNat
  | _ => 0

/-- The value a call takes from the pool's notes. -/
def Entry.debits : Entry → ℕ
  | .withdraw _ _ _ _ _ exitValue => exitValue.toNat
  | _ => 0

/-- What the receipts of a trace credited, … -/
def credited (trace : List (CallStack.Receipt Call Cont Event)) : ℕ :=
  (trace.map fun
    | .entered _ evs => (evs.map Event.credits).sum
    | .resumed _ _ => 0).sum

/-- … and what they debited. -/
def debited (trace : List (CallStack.Receipt Call Cont Event)) : ℕ :=
  (trace.map fun
    | .entered c _ => c.entry.debits
    | .resumed _ _ => 0).sum

/-! ## What each call does to the money -/

variable {E}

/-- No entry point moves ether before its handover. -/
theorem Effect.balance_eq {msg : Msg} {w w' : World X} {entry : Entry}
    {evs : List Event} {k : Option Cont} (h : Effect E msg w entry w' evs k) :
    w'.balance = w.balance := by
  cases h <;> rfl

/-- **A call raises what the pool owes by no more than it brings**, and
what it is about to pay is no longer owed. -/
theorem Effect.owed_le {msg : Msg} {w w' : World X} {entry : Entry}
    {evs : List Event} {k : Option Cont} (h : Effect E msg w entry w' evs k) :
    owed w'.pool + payout k ≤ owed w.pool + msg.value.toNat := by
  cases h
  case commitDeposit commitHash running value_ne denomination free =>
    have hsum := pendingTotal_update w.pool.pendingCommits commitHash
      ⟨msg.sender, msg.value, w.block.number, false⟩
    have hnew : CommitRecord.pendingValue ⟨msg.sender, msg.value, w.block.number, false⟩
      = msg.value.toNat := rfl
    rw [hnew] at hsum
    show w.pool.poolBalance.toNat + pendingTotal (Function.update _ _ _) + 0 ≤ _
    unfold owed
    linarith
  case revealDeposit commitment salt tree index root poolBalance record running
      record_eq depositor unrevealed early late new ins balance =>
    have hsum := pendingTotal_update w.pool.pendingCommits
      (commitHashOf E commitment salt) { record with revealed := true }
    rw [record_eq, CommitRecord.pendingValue_of_unrevealed unrevealed] at hsum
    have hbal := toNat_of_checkedAdd balance
    have hzero : CommitRecord.pendingValue { record with revealed := true } = 0 := rfl
    show poolBalance.toNat + pendingTotal (Function.update _ _ _) + 0 ≤ _
    unfold owed
    omega
  case reclaimExpiredCommit commitHash record guard record_eq depositor unrevealed
      expired =>
    have hsum := pendingTotal_update w.pool.pendingCommits commitHash
      CommitRecord.deleted
    rw [record_eq, CommitRecord.pendingValue_of_unrevealed unrevealed,
      CommitRecord.pendingValue_deleted] at hsum
    show w.pool.poolBalance.toNat + pendingTotal (Function.update _ _ _)
      + record.value.toNat ≤ _
    unfold owed
    linarith
  case deposit commitment amount tree index root poolBalance running amount_ne
      value_eq new denomination ins balance =>
    have hbal := toNat_of_checkedAdd balance
    show poolBalance.toNat + pendingTotal w.pool.pendingCommits + 0 ≤ _
    unfold owed
    rw [value_eq]
    linarith
  case withdraw proof merkleRoot nullifiers outputs recipient exitValue tree newRoot
      poolBalance others running guard exit_ne known outputs_ok compliant unblocked
      fresh reported verified ins balance =>
    have hbal := toNat_of_checkedSub balance
    show poolBalance.toNat + pendingTotal w.pool.pendingCommits
      + exitValue.toNat ≤ _
    unfold owed
    linarith
  -- the other entry points leave both amounts as they are
  all_goals exact owed_le_of_eq rfl rfl

/-- **The records follow the life cycle**: what the events of a call say
about a commit hash takes its record from what it was to what it is. -/
theorem Effect.life_eq {msg : Msg} {w w' : World X} {entry : Entry}
    {evs : List Event} {k : Option Cont} (h : Effect E msg w entry w' evs k)
    (commitHash : Bytes32) :
    (evs.flatMap (Event.uses E commitHash ⟨msg, entry⟩)).foldlM Life.step
        (w.pool.pendingCommits commitHash).life
      = some (w'.pool.pendingCommits commitHash).life := by
  cases h
  case commitDeposit h running value_ne denomination free =>
    by_cases heq : h = commitHash
    · subst heq
      have hold : (w.pool.pendingCommits h).life = .absent := if_pos free
      have hnew : CommitRecord.life ⟨msg.sender, msg.value, w.block.number, false⟩
        = .pending msg.value := CommitRecord.life_of_pending msg.sender_ne_zero rfl
      simp [Event.uses, hold, hnew, Life.step]
    · simp [Event.uses, heq, Function.update_of_ne (Ne.symm heq)]
  case revealDeposit commitment salt tree index root poolBalance record running
      record_eq depositor unrevealed early late new ins balance =>
    have hdep : record.depositor ≠ 0 := depositor ▸ msg.sender_ne_zero
    by_cases heq : commitHashOf E commitment salt = commitHash
    · subst heq
      have hnew : CommitRecord.life { record with revealed := true } = .revealed :=
        if_neg hdep
      rw [record_eq, CommitRecord.life_of_pending hdep unrevealed]
      simp [Event.uses, Life.step, hnew]
    · simp [Event.uses, heq, Function.update_of_ne (Ne.symm heq)]
  case reclaimExpiredCommit h record guard record_eq depositor unrevealed expired =>
    have hdep : record.depositor ≠ 0 := depositor ▸ msg.sender_ne_zero
    by_cases heq : h = commitHash
    · subst heq
      rw [record_eq, CommitRecord.life_of_pending hdep unrevealed]
      simp [Event.uses, Life.step, CommitRecord.life, CommitRecord.deleted]
    · simp [Event.uses, heq, Function.update_of_ne (Ne.symm heq)]
  all_goals rfl

/-- **The pool's balance is kept like a ledger**: it goes up by the
amounts of the `Deposit` events and down by the exit values. -/
theorem Effect.booked {msg : Msg} {w w' : World X} {entry : Entry}
    {evs : List Event} {k : Option Cont} (h : Effect E msg w entry w' evs k) :
    w'.pool.poolBalance.toNat + entry.debits
      = w.pool.poolBalance.toNat + (evs.map Event.credits).sum := by
  cases h
  case revealDeposit balance =>
    simpa [Entry.debits, Event.credits] using toNat_of_checkedAdd balance
  case deposit balance =>
    simpa [Entry.debits, Event.credits] using toNat_of_checkedAdd balance
  case withdraw balance =>
    simpa [Entry.debits] using toNat_of_checkedSub balance
  all_goals rfl

/-! ## The invariant -/

/-- A trace and the state it led to. -/
abbrev Point (X : Type) :=
  CallStack.Checkpoint (World X) (CallStack.Receipt Call Cont Event)

variable (E) in
/-- **The invariant of the money**, with `slack` ether that is about to be
paid and no longer owed. -/
structure Solvent (slack : ℕ) (p : Point X) : Prop where
  covered : owed p.state.pool + slack ≤ p.state.balance
  lives : ∀ h, (commitHistory E h p.trace).foldlM Life.step .absent
    = some (p.state.pool.pendingCommits h).life
  booked : p.state.pool.poolBalance.toNat + debited p.trace = credited p.trace

/-- The pool owes nothing when it is deployed. -/
theorem Solvent.init {w : World X} (h : Deployed E w) :
    Solvent E 0 (⟨w, []⟩ : Point X) := by
  obtain ⟨sender, epochManager, chainId, appId, guardian, oracle, hpool⟩ := h
  refine ⟨?_, fun h => ?_, ?_⟩
  · have hzero : owed w.pool = 0 := by
      rw [hpool]
      exact (Nat.zero_add _).trans pendingTotal_deleted
    show owed w.pool + 0 ≤ w.balance
    rw [hzero]
    exact Nat.zero_le _
  · show some Life.absent = some (w.pool.pendingCommits h).life
    rw [hpool]
    rfl
  · show w.pool.poolBalance.toNat + 0 = 0
    rw [hpool]
    rfl

/-- A call keeps the invariant, with the payout of its handover as
slack. -/
theorem Solvent.enter {p : Point X} (hp : Solvent E 0 p) {c : Call}
    {w' : World X} {evs : List Event} {k : Option Cont}
    (h : enter E c p.state = .ok (w', evs, k)) :
    Solvent E (payout k) (⟨w', p.trace ++ [.entered c evs]⟩ : Point X) := by
  obtain ⟨-, heff⟩ := enter_effect h
  refine ⟨?_, fun h => ?_, ?_⟩
  · show owed w'.pool + payout k ≤ w'.balance
    calc owed w'.pool + payout k
        ≤ owed p.state.pool + c.msg.value.toNat := heff.owed_le
      _ ≤ p.state.balance + c.msg.value.toNat := Nat.add_le_add_right hp.covered _
      _ = w'.balance := heff.balance_eq.symm
  · have hstep := heff.life_eq h
    show (commitHistory E h (p.trace ++ [.entered c evs])).foldlM Life.step _ = _
    rw [commitHistory_append, List.foldlM_append, hp.lives h]
    show (commitHistory E h [.entered c evs]).foldlM Life.step
      (p.state.pool.pendingCommits h).life = _
    rw [commitHistory, List.flatMap_singleton]
    exact hstep
  · have hbook := heff.booked
    have hbefore := hp.booked
    simp only [debited, credited, List.map_append, List.sum_append, List.map_cons,
      List.map_nil, List.sum_cons, List.sum_nil] at hbefore ⊢
    simp only [credit] at hbook
    omega

/-- The rest of an entry point releases the guard, which is not about
money. -/
theorem Solvent.resume {p : Point X} {slack : ℕ} (hp : Solvent E slack p)
    {k : Cont} {success : Bool} {w' : World X} {evs : List Event}
    (h : resume k success p.state = .ok (w', evs)) :
    Solvent E slack (⟨w', p.trace ++ [.resumed k evs]⟩ : Point X) := by
  obtain ⟨-, rfl⟩ := resume_eq_ok h
  refine ⟨hp.covered, fun h => ?_, ?_⟩
  · simpa [commitHistory, receiptUses] using hp.lives h
  · simpa [debited, credited] using hp.booked

variable (E) in
/-- **Solvency is an invariant of the pool**, whatever the payees do. -/
theorem solvent_invariant :
    CallStack.Invariant (machine E) (fun _ _ => True) (fun _ p => Solvent E 0 p)
      (fun k _ p => Solvent E k.value.toNat p) where
  enter_done hp _ h := hp.enter h
  enter_send hp _ h := hp.enter h
  send := by
    intro ks p k s' hp h
    obtain ⟨hle, rfl⟩ := send_eq_some h
    refine ⟨?_, hp.lives, hp.booked⟩
    exact Nat.le_sub_of_add_le hp.covered
  resume_true hp h := hp.resume h
  resume_false _ h := nomatch (resume_eq_ok h).1
  outside := by
    rintro ks p s' hp ⟨-, hbal, hpool, -⟩
    refine ⟨?_, ?_, ?_⟩
    · exact hpool ▸ hp.covered.trans hbal
    · exact hpool ▸ hp.lives
    · exact hpool ▸ hp.booked
  tick := by
    rintro p s' hp ⟨-, -, hpool, hbal, -⟩
    refine ⟨?_, ?_, ?_⟩
    · exact hpool ▸ hbal ▸ hp.covered
    · exact hpool ▸ hp.lives
    · exact hpool ▸ hp.booked

/-! ## Solvency -/

/-- **The pool is solvent at every point of every run**, with any nesting
of calls by the payees: the ether it holds covers `poolBalance` and all
commits that are neither revealed nor reclaimed; each commit's value is
used at most once; and `poolBalance` is what deposits and reveals credited
less what withdrawals debited. -/
theorem solvent_of_reachable {w₀ : World X} (hdeployed : Deployed E w₀)
    {c : CallStack.Config (World X) (CallStack.Receipt Call Cont Event) Cont}
    (hreach : CallStack.Reachable (machine E) (fun _ _ => True) w₀ c) :
    c.now.state.pool.poolBalance.toNat
        + pendingTotal c.now.state.pool.pendingCommits ≤ c.now.state.balance
      ∧ (∀ h, UsedAtMostOnce (commitHistory E h c.now.trace))
      ∧ c.now.state.pool.poolBalance.toNat + debited c.now.trace
          = credited c.now.trace := by
  have hinv := (solvent_invariant E).holds (Solvent.init hdeployed) hreach
  exact ⟨hinv.covered, fun h => Life.usedAtMostOnce (hinv.lives h), hinv.booked⟩

/-- Blocks pass between transactions. -/
theorem step_wait (w : World X) (trace : List (CallStack.Receipt Call Cont Event)) {number : ℕ}
    (h : w.block.number ≤ number) :
    CallStack.Step (machine E) (fun _ _ => True) ⟨⟨w, trace⟩, []⟩
      ⟨⟨{ w with block := ⟨number, w.block.timestamp⟩ }, trace⟩, []⟩ :=
  .tick ⟨h, le_rfl, rfl, rfl, rfl⟩

/-- Surroundings that allow everything and stay as they are, over a toy
hash. -/
def permissive (X : Type) : Interfaces X where
  verifyTransferProof _ _ _ := some true
  verifyWithdrawProof _ _ _ := some true
  registerNullifier _ x _ := some x
  checkCompliance _ _ _ _ _ := some true
  isBlocked _ _ _ := some false
  keccak256 bytes := BitVec.ofNat 256 (bytes.foldl (fun n b => 256 * n + b.toNat) 0)
  hash a b := 3 * a + b + 1
  moves _ _ := False

/-- A commit of 10, reclaimed when it has expired; the payee commits again
while it is being paid. -/
theorem solvent_of_reachable_reclaim :
    ∃ w₀ : World Unit, ∃ c, Deployed (permissive Unit) w₀
      ∧ CallStack.Reachable (machine (permissive Unit)) (fun _ _ => True) w₀ c
      ∧ c.stack.length = 1 ∧ c.now.trace.length = 3
      ∧ c.now.state.pool.poolBalance.toNat
          + pendingTotal c.now.state.pool.pendingCommits ≤ c.now.state.balance
      ∧ (∀ h, UsedAtMostOnce (commitHistory (permissive Unit) h c.now.trace)) := by
  let w₀ : World Unit := ⟨⟨0, 0⟩, 0, construct (permissive Unit).hash 1 2 3 4 5 0, ()⟩
  let commit : Call := ⟨⟨1, 10, by decide⟩, .commitDeposit 77⟩
  let reclaim : Call := ⟨⟨1, 0, by decide⟩, .reclaimExpiredCommit 77⟩
  have hdep : Deployed (permissive Unit) w₀ := ⟨1, 2, 3, 4, 5, 0, rfl⟩
  have hreach : ∃ c, CallStack.Reachable (machine (permissive Unit)) (fun _ _ => True) w₀ c
      ∧ c.stack.length = 1 ∧ c.now.trace.length = 3 := by
    exact ⟨_, .tail (.tail (.tail (.tail .refl (.call (c := commit) trivial rfl))
        (step_wait _ _ (Nat.zero_le 103))) (.handover (c := reclaim) trivial rfl rfl))
        (.call (c := commit) trivial rfl), rfl, rfl⟩
  obtain ⟨c, hreach, hstack, htrace⟩ := hreach
  obtain ⟨hcovered, hused, -⟩ := solvent_of_reachable hdep hreach
  exact ⟨w₀, c, hdep, hreach, hstack, htrace, hcovered, hused⟩

end PrivacyPool
