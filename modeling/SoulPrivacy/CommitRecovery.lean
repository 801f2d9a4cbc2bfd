import SoulPrivacy.Onward
import SoulPrivacy.PoolCalls
import SoulPrivacy.PoolSolvency

/-!
# Commits can be reclaimed

A commit that was not revealed in time belongs to its depositor: the reclaim goes
through, whether the pool is paused or not, and pays what was committed. It needs
three things that no record of the commit says. The guard against reentrancy is free
outside of the calls that hand over control (`guard_invariant`); the ether is there,
since the pool is solvent; and what is left to do when the payee returns cannot fail.

Until then nobody else can do anything about the commit: a reveal and a reclaim ask
for its depositor, and another commit for a hash that is free (`Pending.effect`).
-/

namespace PrivacyPool

open CallStack (Config Receipt Frame Step Reachable Onward conts)

variable {X : Type} {E : Interfaces X}

/-! ## The guard -/

/-- **The guard is set while one handover is open**, and there is never another. -/
inductive Guard : Status → List Cont → Prop
  | idle : Guard .notEntered []
  | busy (k : Cont) : Guard .entered [k]

theorem Guard.eq_nil {ks : List Cont} (h : Guard .notEntered ks) : ks = [] := by
  cases h
  rfl

/-- A call without a handover leaves the guard, and one with a handover takes it. -/
theorem Effect.status_eq {msg : Msg} {w w' : World X} {entry : Entry} {events : List Event}
    {k : Option Cont} (h : Effect E msg w entry w' events k) :
    (k = none → w'.pool.status = w.pool.status)
      ∧ (k ≠ none → w.pool.status = .notEntered ∧ w'.pool.status = .entered) := by
  cases h
  case reclaimExpiredCommit guard _ _ _ _ => exact ⟨nofun, fun _ => ⟨guard, rfl⟩⟩
  case withdraw guard _ _ _ _ _ _ _ _ _ _ => exact ⟨nofun, fun _ => ⟨guard, rfl⟩⟩
  all_goals exact ⟨fun _ => rfl, fun hne => absurd rfl hne⟩

variable (E) in
/-- **The guard is as it should be** at every point of every run. -/
theorem guard_invariant :
    CallStack.Invariant (machine E) (fun _ _ => True)
      (fun ks p => Guard p.state.pool.status ks)
      (fun _ ks p => ks = [] ∧ p.state.pool.status = .entered) where
  enter_done hp _ h := by
    obtain ⟨-, heff⟩ := enter_effect h
    rw [heff.status_eq.1 rfl]
    exact hp
  enter_send {ks p c s' events k} hp _ h := by
    obtain ⟨-, heff⟩ := enter_effect h
    obtain ⟨hfree, hset⟩ := heff.status_eq.2 (Option.some_ne_none k)
    have hidle : Guard .notEntered ks := (show p.state.pool.status = _ from hfree) ▸ hp
    exact ⟨hidle.eq_nil, hset⟩
  send {ks p k s'} hp h := by
    obtain ⟨hks, hset⟩ := hp
    obtain ⟨-, rfl⟩ := send_eq_some h
    rw [hks]
    show Guard p.state.pool.status [k]
    rw [hset]
    exact .busy k
  resume_true {ks p k s' events} hp h := by
    obtain ⟨-, rfl⟩ := resume_eq_ok h
    have hks : ks = [] := by
      generalize p.state.pool.status = status at hp
      cases hp
      rfl
    rw [hks]
    exact .idle
  resume_false _ h := nomatch (resume_eq_ok h).1
  outside hp h := h.2.2.1 ▸ hp
  tick hp h := h.2.2.1 ▸ hp

/-- Outside of the calls that hand over control the guard is free. -/
theorem notEntered_of_reachable {w₀ : World X} (hdeployed : Deployed E w₀)
    {c : Config (World X) (Receipt Call Cont Event) Cont}
    (hreach : Reachable (machine E) (fun _ _ => True) w₀ c) (hidle : conts c.stack = []) :
    c.now.state.pool.status = .notEntered := by
  have hinit : Guard w₀.pool.status [] := by
    obtain ⟨sender, epochManager, chainId, appId, guardian, oracle, hpool⟩ := hdeployed
    rw [hpool]
    exact .idle
  have hguard := (guard_invariant E).holds hinit hreach
  rw [hidle] at hguard
  generalize c.now.state.pool.status = status at hguard
  cases hguard
  rfl

/-! ## A commit that is neither revealed nor reclaimed -/

/-- **The record of a commit that is there**, neither revealed nor reclaimed. -/
structure Pending (pool : Storage) (commitHash : Bytes32) (record : CommitRecord) : Prop where
  record_eq : pool.pendingCommits commitHash = record
  made : record.depositor ≠ 0
  unrevealed : record.revealed = false

variable (E) in
/-- The calls that use a commit. -/
def Entry.takes (commitHash : Bytes32) : Entry → Prop
  | .revealDeposit commitment salt => commitHashOf E commitment salt = commitHash
  | .reclaimExpiredCommit h => h = commitHash
  | _ => False

/-- **Only its depositor uses a commit.** -/
theorem Pending.depositor_eq {commitHash : Bytes32} {record : CommitRecord} {msg : Msg}
    {w w' : World X} {entry : Entry} {events : List Event} {k : Option Cont}
    (h : Pending w.pool commitHash record) (heff : Effect E msg w entry w' events k)
    (htakes : entry.takes E commitHash) : msg.sender = record.depositor := by
  cases heff
  case revealDeposit commitment salt _ _ _ _ record' _ record_eq depositor _ _ _ _ _ _ =>
    rw [show commitHashOf E commitment salt = commitHash from htakes, h.record_eq] at record_eq
    rw [← depositor, record_eq]
  case reclaimExpiredCommit commitHash' record' _ record_eq depositor _ _ =>
    rw [show commitHash' = commitHash from htakes, h.record_eq] at record_eq
    rw [← depositor, record_eq]
  all_goals exact htakes.elim

/-- **A call that does not use it leaves it**, record and value. -/
theorem Pending.effect {commitHash : Bytes32} {record : CommitRecord} {msg : Msg}
    {w w' : World X} {entry : Entry} {events : List Event} {k : Option Cont}
    (h : Pending w.pool commitHash record) (heff : Effect E msg w entry w' events k)
    (htakes : ¬ entry.takes E commitHash) : Pending w'.pool commitHash record := by
  refine ⟨?_, h.made, h.unrevealed⟩
  cases heff
  case commitDeposit commitHash' _ _ _ free =>
    -- a hash that has a depositor is not free
    have hne : commitHash ≠ commitHash' := by
      rintro rfl
      rw [h.record_eq] at free
      exact h.made free
    exact (Function.update_of_ne hne ..).trans h.record_eq
  case revealDeposit => exact (Function.update_of_ne (Ne.symm htakes) ..).trans h.record_eq
  case reclaimExpiredCommit => exact (Function.update_of_ne (Ne.symm htakes) ..).trans h.record_eq
  all_goals exact h.record_eq

/-- Its value is part of what the pool owes. -/
theorem pendingValue_le_total (pendingCommits : Bytes32 → CommitRecord) (commitHash : Bytes32) :
    (pendingCommits commitHash).pendingValue ≤ pendingTotal pendingCommits := by
  have hsum := pendingTotal_update pendingCommits commitHash CommitRecord.deleted
  rw [CommitRecord.pendingValue_deleted, Nat.add_zero] at hsum
  exact hsum ▸ Nat.le_add_left _ _

/-! ## The reclaim -/

/-- The depositor's call. -/
def reclaimCall (record : CommitRecord) (made : record.depositor ≠ 0) (commitHash : Bytes32) :
    Call := ⟨⟨record.depositor, 0, made⟩, .reclaimExpiredCommit commitHash⟩

/-- What is left to do once it has handed over control. -/
def CommitRecord.refund (record : CommitRecord) : Cont := .reclaim record.depositor record.value

variable (E) in
/-- **A commit is recovered by its depositor's call**: the call goes through to the
handover, with the whole value sent and the record gone; and whatever the payee has
done by then, when it returns the call ends, and takes nothing back. -/
def Recovers (c : Config (World X) (Receipt Call Cont Event) Cont) (record : CommitRecord)
    (made : record.depositor ≠ 0) (commitHash : Bytes32) : Prop :=
  ∃ w atSend events,
    Step (machine E) (fun _ _ => True) c
        ⟨⟨w, c.now.trace ++ [.entered (reclaimCall record made commitHash) events]⟩,
          .code c.now atSend record.refund :: c.stack⟩
      ∧ w.balance + record.value.toNat = c.now.state.balance
      ∧ w.pool.pendingCommits
        = Function.update c.now.state.pool.pendingCommits commitHash CommitRecord.deleted
      ∧ ∀ p, ∃ w', Step (machine E) (fun _ _ => True)
          ⟨p, .code c.now atSend record.refund :: c.stack⟩
          ⟨⟨w', p.trace ++ [.resumed record.refund []]⟩, c.stack⟩
        ∧ w'.balance = p.state.balance ∧ w'.pool.pendingCommits = p.state.pool.pendingCommits

/-- A payee that returns lets the call end. -/
theorem resume_refund (record : CommitRecord) (w : World X) :
    resume record.refund true w
      = .ok (w.withPool { w.pool with status := .notEntered }, []) := rfl

/-- **The depositor's call goes through**, outside of the other calls and once the
commit has expired. -/
theorem enter_reclaim {w : World X} {commitHash : Bytes32} {record : CommitRecord}
    (hpending : Pending w.pool commitHash record) (hfree : w.pool.status = .notEntered)
    (hexpired : record.blockNumber + MAX_COMMIT_DELAY < w.block.number) :
    enter E (reclaimCall record hpending.made commitHash) w
      = .ok (w.withPool { w.pool with
          status := .entered
          pendingCommits :=
            Function.update w.pool.pendingCommits commitHash CommitRecord.deleted },
        [.commitReclaimed commitHash record.depositor record.value], some record.refund) :=
  enter_eq_ok.mpr ⟨fun _ => rfl,
    .reclaimExpiredCommit hfree hpending.record_eq rfl hpending.unrevealed hexpired⟩

/-- **Every expired commit is recovered**, in every reachable state. -/
theorem recovers_of_reachable {w₀ : World X} (hdeployed : Deployed E w₀)
    {c : Config (World X) (Receipt Call Cont Event) Cont}
    (hreach : Reachable (machine E) (fun _ _ => True) w₀ c) (hidle : conts c.stack = [])
    {commitHash : Bytes32} {record : CommitRecord}
    (hpending : Pending c.now.state.pool commitHash record)
    (hexpired : record.blockNumber + MAX_COMMIT_DELAY < c.now.state.block.number) :
    Recovers E c record hpending.made commitHash := by
  obtain ⟨⟨w, trace⟩, stack⟩ := c
  have henter := enter_reclaim (E := E) hpending
    (notEntered_of_reachable hdeployed hreach hidle) hexpired
  -- the value is owed, and the balance covers what is owed
  have hvalue := pendingValue_le_total w.pool.pendingCommits commitHash
  rw [hpending.record_eq, CommitRecord.pendingValue_of_unrevealed hpending.unrevealed] at hvalue
  have hsolvent := (solvent_invariant E).holds (Solvent.init hdeployed) hreach
  have hcovers : record.value.toNat ≤ w.balance :=
    hvalue.trans ((Nat.le_add_left _ _).trans hsolvent.covered)
  refine ⟨_, _, _, .handover trivial henter (if_pos hcovers), Nat.sub_add_cancel hcovers, rfl,
    fun p => ?_⟩
  exact ⟨_, .returned (resume_refund record p.state), rfl, rfl⟩

variable (E) in
/-- **Nobody else gets at a commit**: its record is there, and no other account's
reveal or reclaim of it goes through. -/
structure Untouched (w : World X) (commitHash : Bytes32) (record : CommitRecord) : Prop where
  record_eq : w.pool.pendingCommits commitHash = record
  others : ∀ call : Call, call.msg.sender ≠ record.depositor → call.entry.takes E commitHash →
    ∀ r, enter E call w ≠ .ok r

theorem Pending.untouched {w : World X} {commitHash : Bytes32} {record : CommitRecord}
    (h : Pending w.pool commitHash record) : Untouched E w commitHash record where
  record_eq := h.record_eq
  others call hsender htakes r hr := by
    obtain ⟨-, heff⟩ := enter_effect hr
    exact hsender (h.depositor_eq (w := credit call.msg w) heff htakes)

/-- The calls that others may make, and the depositor as long as it leaves the commit
alone. -/
def LeavesCommit (E : Interfaces X) (commitHash : Bytes32) (record : CommitRecord)
    (_ : World X) (call : Call) : Prop :=
  call.msg.sender ≠ record.depositor ∨ ¬ call.entry.takes E commitHash

/-- **A commit that is there stays there** through the calls of others. -/
theorem pending_invariant (commitHash : Bytes32) (record : CommitRecord) :
    CallStack.Invariant (machine E) (LeavesCommit E commitHash record)
      (fun _ p => Pending p.state.pool commitHash record)
      (fun _ _ p => Pending p.state.pool commitHash record) := by
  have henter : ∀ {w w' : World X} {call : Call} {events : List Event} {k : Option Cont},
      Pending w.pool commitHash record → LeavesCommit E commitHash record w call →
      enter E call w = .ok (w', events, k) → Pending w'.pool commitHash record := by
    intro w w' call events k h hleaves hr
    obtain ⟨-, heff⟩ := enter_effect hr
    refine Pending.effect (w := credit call.msg w) h heff (fun htakes => ?_)
    rcases hleaves with hsender | hother
    · exact h.untouched.others call hsender htakes _ hr
    · exact hother htakes
  exact {
    enter_done := fun hp hleaves h => henter hp hleaves h
    enter_send := fun hp hleaves h => henter hp hleaves h
    send := by
      intro ks p k s' hp h
      obtain ⟨-, rfl⟩ := send_eq_some h
      exact hp
    resume_true := by
      intro ks p k s' events hp h
      obtain ⟨-, rfl⟩ := resume_eq_ok h
      exact ⟨hp.record_eq, hp.made, hp.unrevealed⟩
    resume_false := fun _ h => nomatch (resume_eq_ok h).1
    outside := fun hp h => h.2.2.1 ▸ hp
    tick := fun hp h => h.2.2.1 ▸ hp }

/-- **The value of a commit is always recoverable**, in every reachable state and for
every commit that is neither revealed nor reclaimed: its record has the value that was
committed; once it has expired the depositor's reclaim pays that value, paused or not;
and as long as the depositor leaves it, the calls of others neither reveal nor reclaim
it nor change its record, however the run goes on. -/
theorem commit_recoverable {w₀ : World X} (hdeployed : Deployed E w₀)
    {c : Config (World X) (Receipt Call Cont Event) Cont}
    (hreach : Reachable (machine E) (fun _ _ => True) w₀ c) {commitHash : Bytes32}
    {record : CommitRecord} (hpending : Pending c.now.state.pool commitHash record) :
    (∃ history, commitHistory E commitHash c.now.trace = history ++ [.committed record.value])
      ∧ (conts c.stack = [] → record.blockNumber + MAX_COMMIT_DELAY < c.now.state.block.number →
          Recovers E c record hpending.made commitHash)
      ∧ ∀ d base, Onward (machine E) (LeavesCommit E commitHash record) c d base →
          Untouched E d.now.state commitHash record := by
  refine ⟨?_, fun hidle => recovers_of_reachable hdeployed hreach hidle hpending,
    fun d base honward => ?_⟩
  · have hlives := ((solvent_invariant E).holds (Solvent.init hdeployed) hreach).lives commitHash
    rw [hpending.record_eq,
      CommitRecord.life_of_pending hpending.made hpending.unrevealed] at hlives
    exact Life.last_of_pending hlives
  · have hlater := honward.holds (pending_invariant commitHash record) hpending
    exact hlater.untouched

/-- A commit of 10 that was not revealed, after 103 blocks. -/
theorem commit_recoverable_ten :
    ∃ w₀ : World Unit, ∃ c, Deployed (permissive Unit) w₀
      ∧ Reachable (machine (permissive Unit)) (fun _ _ => True) w₀ c
      ∧ Recovers (permissive Unit) c ⟨1, 10, 0, false⟩ (by decide) 77 := by
  let w₀ : World Unit := ⟨⟨0, 0⟩, 0, construct (permissive Unit).hash 1 2 3 4 5 0, ()⟩
  let commit : Call := ⟨⟨1, 10, by decide⟩, .commitDeposit 77⟩
  have hdeployed : Deployed (permissive Unit) w₀ := ⟨1, 2, 3, 4, 5, 0, rfl⟩
  have hreach : ∃ c, Reachable (machine (permissive Unit)) (fun _ _ => True) w₀ c
      ∧ c.stack = [] ∧ c.now.state.block.number = 103
      ∧ Pending c.now.state.pool 77 ⟨1, 10, 0, false⟩ := by
    exact ⟨_, .tail (.tail .refl (.call (c := commit) trivial rfl))
      (step_wait _ _ (Nat.zero_le 103)), rfl, rfl, rfl, by decide, rfl⟩
  obtain ⟨c, hreach, hstack, hnumber, hpending⟩ := hreach
  obtain ⟨-, hrecovers, -⟩ := commit_recoverable hdeployed hreach hpending
  refine ⟨w₀, c, hdeployed, hreach, hrecovers (by rw [hstack]; rfl) ?_⟩
  rw [hnumber]
  decide

end PrivacyPool
