import SoulPrivacy.KeyedReceiver
import SoulPrivacy.TimelockEffect

/-!
# The discipline of the timelock

Whatever the timelock executes was queued by the admin of that time, with
the same target, value, data and eta, and then the delay in force was
waited for; it was not cancelled since; and it is executed at most once.
Who is admin, and which delay is in force, can be read off the trace
(`adminAfter`, `delayAfter`), and each receipt carries the time of its
block.

That a transaction cannot be queued and executed a second time is not
guarded by the code, since executing it takes it out of the queue. It
follows from the time: what was executed has its eta in the past, and what
is queued has it in the future, by the delay at least
(`Disciplined.executed`). This needs that the hash tells the transactions
of the run apart (`CollisionFree`).

The timelock may call itself, and only in the execution of a transaction.
So a change of admin follows an executed transaction that nominated the
new one (`Nominated`).
-/

namespace GovernanceTimelock

open SelfCall (Msg Call Outgoing Control Cont)

/-! ## Reading the trace -/

/-- What is in effect, one part of a call. -/
abbrev Receipt := SelfCall.Receipt Entry Transaction Event

/-- Who is admin after a receipt, … -/
def adminBy (admin : Address) : Receipt → Address
  | .entered ⟨msg, .acceptAdmin⟩ _ => msg.sender
  | _ => admin

/-- … and after a trace, when `admin` was the first one. -/
def adminAfter (admin : Address) (trace : Trace) : Address := trace.foldl adminBy admin

/-- Which delay is in force after a receipt, … -/
def delayBy (delay : Uint256) : Receipt → Uint256
  | .entered ⟨_, .setDelay delay'⟩ _ => delay'
  | _ => delay

/-- … and after a trace. -/
def delayAfter (delay : Uint256) (trace : Trace) : Uint256 := trace.foldl delayBy delay

theorem adminAfter_concat (admin : Address) (trace : Trace) (r : Receipt) :
    adminAfter admin (trace ++ [r]) = adminBy (adminAfter admin trace) r := by
  unfold adminAfter
  rw [List.foldl_append]
  rfl

theorem delayAfter_concat (delay : Uint256) (trace : Trace) (r : Receipt) :
    delayAfter delay (trace ++ [r]) = delayBy (delayAfter delay trace) r := by
  unfold delayAfter
  rw [List.foldl_append]
  rfl

/-- The transactions a receipt hashes. -/
def hashed : Receipt → List Transaction
  | .entered ⟨_, .queueTransaction tx⟩ _ => [tx]
  | .entered ⟨_, .executeTransaction tx⟩ _ => [tx]
  | .entered ⟨_, .cancelTransaction tx⟩ _ => [tx]
  | _ => []

/-- **The hash function has no collision among what a trace hashes.** -/
def CollisionFree (keccak256 : Bytes → Bytes32) (trace : Trace) : Prop :=
  ∀ tx ∈ trace.flatMap hashed, ∀ tx' ∈ trace.flatMap hashed,
    keccak256 tx.encode = keccak256 tx'.encode → tx.encode = tx'.encode

theorem CollisionFree.of_append {keccak256 : Bytes → Bytes32} {trace trace' : Trace}
    (h : CollisionFree keccak256 (trace ++ trace')) : CollisionFree keccak256 trace := by
  intro tx htx tx' htx'
  rw [CollisionFree, List.flatMap_append] at h
  exact h tx (List.mem_append_left _ htx) tx' (List.mem_append_left _ htx')

/-- A receipt of the execution of a transaction. -/
def Executes (tx : Transaction) (r : Receipt) : Prop :=
  ∃ msg evs, r = .entered ⟨msg, .executeTransaction tx⟩ evs

/-- A receipt of its cancellation. -/
def Cancels (tx : Transaction) (r : Receipt) : Prop :=
  ∃ msg evs, r = .entered ⟨msg, .cancelTransaction tx⟩ evs

/-- Whether a receipt is of the execution of a transaction with a hash. -/
def executesHash (d : Deployment) (txHash : Bytes32) : Receipt → Bool
  | .entered ⟨_, .executeTransaction tx⟩ _ => d.hash tx = txHash
  | _ => false

/-- How often a transaction with a hash was executed. -/
def executions (d : Deployment) (txHash : Bytes32) (trace : Trace) : ℕ :=
  trace.countP (executesHash d txHash)

theorem executesHash_eq_true {d : Deployment} {txHash : Bytes32} {r : Receipt}
    (h : executesHash d txHash r = true) : ∃ tx, Executes tx r ∧ d.hash tx = txHash := by
  unfold executesHash at h
  split at h
  · rename_i msg tx evs
    exact ⟨tx, ⟨msg, evs, rfl⟩, of_decide_eq_true h⟩
  · cases h

section Rules

variable (d : Deployment) (admin : Address) (delay : Uint256)

/-- **A transaction was queued by the admin of that time**, with the delay in
force over by a deadline, and has not been cancelled since. -/
def QueuedBefore (trace : Trace) (tx : Transaction) (deadline : ℕ) : Prop :=
  ∃ early msg evs late,
    trace = early ++ .entered ⟨msg, .queueTransaction tx⟩ evs :: late ∧
    msg.sender = adminAfter admin early ∧
    msg.timestamp.toNat + (delayAfter delay early).toNat ≤ deadline ∧
    MINIMUM_DELAY ≤ delayAfter delay early ∧ ∀ r ∈ late, ¬ Cancels tx r

/-- **The rule of an execution**: the transaction was queued with the delay
over by now, and the grace period is not. -/
def Obeys (before : Trace) (msg : Msg) (tx : Transaction) : Prop :=
  QueuedBefore admin delay before tx msg.timestamp.toNat ∧
    msg.timestamp.toNat ≤ tx.eta.toNat + GRACE_PERIOD.toNat

/-- **An executed transaction nominated an admin**: it obeyed the rule, and
what it called was `setPendingAdmin` of the timelock, which ran next. -/
def Nominated (trace : Trace) (nominee : Address) : Prop :=
  ∃ early msg evs tx own evs' late,
    trace = early ++ .entered ⟨msg, .executeTransaction tx⟩ evs ::
      .entered ⟨own, .setPendingAdmin nominee⟩ evs' :: late ∧
    Obeys admin delay early msg tx ∧ tx.target = d.self ∧
    d.decode tx.data = .run (.setPendingAdmin nominee) ∧ own.sender = d.self

variable {d admin delay}

theorem QueuedBefore.concat {trace : Trace} {tx : Transaction} {deadline : ℕ}
    (h : QueuedBefore admin delay trace tx deadline) {r : Receipt} (hr : ¬ Cancels tx r) :
    QueuedBefore admin delay (trace ++ [r]) tx deadline := by
  obtain ⟨early, msg, evs, late, rfl, hsender, hdelay, hmin, hlate⟩ := h
  refine ⟨early, msg, evs, late ++ [r], ?_, hsender, hdelay, hmin, fun r' hr' => ?_⟩
  · rw [List.append_assoc, List.cons_append]
  · obtain hold | hnew := List.mem_append.mp hr'
    · exact hlate r' hold
    · exact List.mem_singleton.mp hnew ▸ hr

theorem QueuedBefore.mono {trace : Trace} {tx : Transaction} {deadline deadline' : ℕ}
    (h : QueuedBefore admin delay trace tx deadline) (hle : deadline ≤ deadline') :
    QueuedBefore admin delay trace tx deadline' := by
  obtain ⟨early, msg, evs, late, htrace, hsender, hdelay, hmin, hlate⟩ := h
  exact ⟨early, msg, evs, late, htrace, hsender, hdelay.trans hle, hmin, hlate⟩

/-- What was queued was hashed. -/
theorem QueuedBefore.mem_hashed {trace : Trace} {tx : Transaction} {deadline : ℕ}
    (h : QueuedBefore admin delay trace tx deadline) : tx ∈ trace.flatMap hashed := by
  obtain ⟨early, msg, evs, late, rfl, -⟩ := h
  exact List.mem_flatMap.mpr
    ⟨_, List.mem_append_right _ List.mem_cons_self, List.mem_singleton_self tx⟩

theorem Nominated.concat {trace : Trace} {nominee : Address}
    (h : Nominated d admin delay trace nominee) (r : Receipt) :
    Nominated d admin delay (trace ++ [r]) nominee := by
  obtain ⟨early, msg, evs, tx, own, evs', late, rfl, hrest⟩ := h
  refine ⟨early, msg, evs, tx, own, evs', late ++ [r], ?_, hrest⟩
  rw [List.append_assoc, List.cons_append, List.cons_append]

end Rules

/-! ## The invariant -/

section Invariant

variable (d : Deployment) (admin : Address) (delay : Uint256)

/-- **The timelock keeps its discipline**, as far as a trace tells. -/
structure Disciplined (ctl : Control Entry) (s : Storage) (now : Uint256)
    (trace : Trace) : Prop where
  admin_eq : s.admin = adminAfter admin trace
  delay_eq : s.delay = delayAfter delay trace
  delay_ge : MINIMUM_DELAY ≤ s.delay
  delay_le : s.delay ≤ MAXIMUM_DELAY
  /-- What is in the queue was put there, by the rule. -/
  queued : ∀ txHash, s.isQueued txHash = true →
    d.hash (s.queuedTransactions txHash).toTransaction = txHash ∧
      QueuedBefore admin delay trace (s.queuedTransactions txHash).toTransaction
        (s.queuedTransactions txHash).eta.toNat
  /-- What was executed is out of the queue, and its eta is past. -/
  executed : ∀ r ∈ trace, ∀ tx, Executes tx r →
    s.isQueued (d.hash tx) = false ∧ tx.eta.toNat ≤ now.toNat
  once : ∀ txHash, executions d txHash trace ≤ 1
  obeys : EachAfter (fun before r => ∀ msg tx evs,
    r = .entered ⟨msg, .executeTransaction tx⟩ evs → Obeys admin delay before msg tx) trace
  pending : s.pendingAdmin ≠ 0 → Nominated d admin delay trace s.pendingAdmin
  accepted : EachAfter (fun before r => ∀ msg evs,
    r = .entered ⟨msg, .acceptAdmin⟩ evs → Nominated d admin delay before msg.sender) trace
  /-- The timelock is its own caller only in an execution. -/
  inside : ∀ entry value, ctl = .inside entry value → ∃ early msg evs tx,
    trace = early ++ [.entered ⟨msg, .executeTransaction tx⟩ evs] ∧
      tx.target = d.self ∧ d.decode tx.data = .run entry

variable {d admin delay}

/-- Among what a trace hashes, the hash tells the transaction. -/
theorem CollisionFree.hash_inj {trace : Trace} (h : CollisionFree d.keccak256 trace)
    {tx tx' : Transaction} (htx : tx ∈ trace.flatMap hashed)
    (htx' : tx' ∈ trace.flatMap hashed) (heq : d.hash tx = d.hash tx') : tx = tx' :=
  Transaction.encode_inj (h tx htx tx' htx' heq)

theorem mem_hashed_of_executes {trace : Trace} {r : Receipt} (hr : r ∈ trace)
    {tx : Transaction} (h : Executes tx r) : tx ∈ trace.flatMap hashed := by
  obtain ⟨msg, evs, rfl⟩ := h
  exact List.mem_flatMap.mpr ⟨_, hr, List.mem_singleton_self tx⟩

section Step

variable {msg : Msg} {s s' : Storage} {entry : Entry} {out : Option (Outgoing Transaction)}
variable {ctl ctl' : Control Entry} {now : Uint256} {trace : Trace} {evs : List Event}

theorem Effect.admin_eq (h : Effect d msg s entry s' out) (evs : List Event) :
    s'.admin = adminBy s.admin (.entered ⟨msg, entry⟩ evs) := by
  cases h
  case acceptAdmin nominee => exact nominee.symm
  all_goals rfl

theorem Effect.delay_eq (h : Effect d msg s entry s' out) (evs : List Event) :
    s'.delay = delayBy s.delay (.entered ⟨msg, entry⟩ evs) := by
  cases h <;> rfl

theorem Effect.delay_bounds (h : Effect d msg s entry s' out)
    (hs : MINIMUM_DELAY ≤ s.delay ∧ s.delay ≤ MAXIMUM_DELAY) :
    MINIMUM_DELAY ≤ s'.delay ∧ s'.delay ≤ MAXIMUM_DELAY := by
  cases h
  case setDelay delay own ge le => exact ⟨ge, le⟩
  all_goals exact hs

/-- **What is in the queue after a call**: it was there before and the call
has not cancelled it, or the call has put it there. -/
theorem Effect.queued_inv (h : Effect d msg s entry s' out) {txHash : Bytes32}
    (hq : s'.isQueued txHash = true) :
    (∃ tx, entry = .queueTransaction tx ∧ d.hash tx = txHash ∧
      s'.queuedTransactions txHash = ⟨tx, false, false⟩ ∧ msg.sender = s.admin ∧
      msg.timestamp.toNat + s.delay.toNat ≤ tx.eta.toNat) ∨
    (s.isQueued txHash = true ∧ s'.queuedTransactions txHash = s.queuedTransactions txHash ∧
      ∀ tx, entry = .cancelTransaction tx → d.hash tx ≠ txHash) := by
  cases h
  case queueTransaction tx auth late new =>
    by_cases heq : txHash = d.hash tx
    · subst heq
      exact Or.inl ⟨tx, rfl, rfl, Function.update_self _ _ _, auth, late⟩
    · refine Or.inr ⟨?_, Function.update_of_ne heq _ _, fun _ h => Entry.noConfusion h⟩
      rwa [← Function.update_of_ne heq true s.isQueued]
  case executeTransaction tx auth queued ready fresh =>
    have heq : txHash ≠ d.hash tx := by
      rintro rfl
      simp at hq
    refine Or.inr ⟨?_, Function.update_of_ne heq _ _, fun _ h => Entry.noConfusion h⟩
    rwa [← Function.update_of_ne heq false s.isQueued]
  case cancelTransaction tx auth queued =>
    have heq : txHash ≠ d.hash tx := by
      rintro rfl
      simp at hq
    refine Or.inr ⟨?_, Function.update_of_ne heq _ _, fun tx' h => ?_⟩
    · rwa [← Function.update_of_ne heq false s.isQueued]
    · cases h
      exact heq.symm
  all_goals exact Or.inr ⟨hq, rfl, fun _ h => Entry.noConfusion h⟩

/-- A receipt of a call cancels what the call cancels. -/
theorem not_cancels_entered {tx : Transaction}
    (h : ∀ tx', entry = .cancelTransaction tx' → d.hash tx' ≠ d.hash tx) :
    ¬ Cancels tx (.entered ⟨msg, entry⟩ evs) := by
  rintro ⟨msg', evs', heq⟩
  cases heq
  exact h tx rfl rfl

/-- **The queue keeps to the rule.** -/
theorem Disciplined.queued_entered (hs : Disciplined d admin delay ctl s now trace)
    (h : Effect d msg s entry s' out) (evs : List Event) {txHash : Bytes32}
    (hq : s'.isQueued txHash = true) :
    d.hash (s'.queuedTransactions txHash).toTransaction = txHash ∧
      QueuedBefore admin delay (trace ++ [.entered ⟨msg, entry⟩ evs])
        (s'.queuedTransactions txHash).toTransaction
        (s'.queuedTransactions txHash).eta.toNat := by
  obtain ⟨tx, rfl, hhash, hqtx, hauth, hlate⟩ | ⟨hold, hqtx, hcancel⟩ := h.queued_inv hq
  · rw [hqtx]
    refine ⟨hhash, trace, msg, evs, [], rfl, hauth.trans hs.admin_eq, ?_, ?_,
      fun r hr => absurd hr List.not_mem_nil⟩
    · rwa [← hs.delay_eq]
    · exact hs.delay_eq ▸ hs.delay_ge
  · obtain ⟨hhash, hbefore⟩ := hs.queued txHash hold
    rw [hqtx]
    refine ⟨hhash, hbefore.concat (not_cancels_entered (d := d) fun tx' heq => ?_)⟩
    rw [hhash]
    exact hcancel tx' heq

/-- A transaction that may be executed is the one in the queue. -/
theorem Disciplined.queued_eq (hs : Disciplined d admin delay ctl s now trace)
    {tx : Transaction} (hfree : CollisionFree d.keccak256
      (trace ++ [.entered ⟨msg, .executeTransaction tx⟩ evs]))
    (hq : s.isQueued (d.hash tx) = true) :
    (s.queuedTransactions (d.hash tx)).toTransaction = tx ∧
      QueuedBefore admin delay trace tx tx.eta.toNat := by
  obtain ⟨hhash, hbefore⟩ := hs.queued _ hq
  have heq : (s.queuedTransactions (d.hash tx)).toTransaction = tx := by
    refine hfree.hash_inj ?_ ?_ hhash
    · rw [List.flatMap_append]
      exact List.mem_append_left _ hbefore.mem_hashed
    · exact mem_hashed_of_executes (List.mem_append_right _ (List.mem_singleton_self _))
        ⟨msg, evs, rfl⟩
  rw [heq] at hbefore
  exact ⟨heq, hbefore⟩

/-- **What was executed stays out of the queue**: it would have to be queued
with an eta that is past. -/
theorem Disciplined.executed_entered (hs : Disciplined d admin delay ctl s now trace)
    (h : Effect d msg s entry s' out) (hnow : msg.timestamp = now)
    (hfree : CollisionFree d.keccak256 (trace ++ [.entered ⟨msg, entry⟩ evs]))
    {r : Receipt} (hr : r ∈ trace ++ [.entered ⟨msg, entry⟩ evs]) {tx : Transaction}
    (hexec : Executes tx r) :
    s'.isQueued (d.hash tx) = false ∧ tx.eta.toNat ≤ now.toNat := by
  have hmem := mem_hashed_of_executes hr hexec
  obtain hold | hnew := List.mem_append.mp hr
  · obtain ⟨hout, hpast⟩ := hs.executed r hold tx hexec
    refine ⟨?_, hpast⟩
    by_contra hq
    obtain ⟨tx', rfl, hhash, -, -, hlate⟩ | ⟨hbefore, -⟩ :=
      h.queued_inv (Bool.not_eq_false _ ▸ hq)
    · have htx' : tx' ∈ List.flatMap hashed
          (trace ++ [.entered ⟨msg, .queueTransaction tx'⟩ evs]) :=
        List.mem_flatMap.mpr ⟨_, List.mem_append_right _ (List.mem_singleton_self _),
          List.mem_singleton_self tx'⟩
      obtain rfl := hfree.hash_inj htx' hmem hhash
      have hmin : MINIMUM_DELAY.toNat ≤ s.delay.toNat := BitVec.le_def.mp hs.delay_ge
      have hhour : MINIMUM_DELAY.toNat = 3600 := rfl
      rw [hnow] at hlate
      omega
    · rw [hout] at hbefore
      cases hbefore
  · obtain ⟨msg', evs', heq⟩ := hexec
    rw [List.mem_singleton.mp hnew] at heq
    cases heq
    cases h
    case executeTransaction auth queued ready fresh =>
      obtain ⟨hqtx, -⟩ := hs.queued_eq hfree queued
      refine ⟨Function.update_self _ _ _, ?_⟩
      rw [hqtx, hnow] at ready
      exact ready

/-- **Nothing is executed twice.** -/
theorem Disciplined.once_entered (hs : Disciplined d admin delay ctl s now trace)
    (h : Effect d msg s entry s' out) (evs : List Event) (txHash : Bytes32) :
    executions d txHash (trace ++ [.entered ⟨msg, entry⟩ evs]) ≤ 1 := by
  have hsum : executions d txHash (trace ++ [.entered ⟨msg, entry⟩ evs])
      = executions d txHash trace
        + executions d txHash ([.entered ⟨msg, entry⟩ evs] : Trace) := List.countP_append
  by_cases hexec : executesHash d txHash (.entered ⟨msg, entry⟩ evs) = true
  · obtain ⟨tx, ⟨msg', evs', heq⟩, rfl⟩ := executesHash_eq_true hexec
    cases heq
    have hnone : executions d (d.hash tx) trace = 0 := by
      refine List.countP_eq_zero.mpr (fun r hr hr' => ?_)
      obtain ⟨tx', hr', hhash⟩ := executesHash_eq_true hr'
      have hout := (hs.executed r hr tx' hr').1
      cases h
      case executeTransaction auth queued ready fresh =>
        rw [hhash, queued] at hout
        cases hout
    rw [hsum, hnone, Nat.zero_add]
    exact List.countP_le_length
  · have hzero : executions d txHash ([.entered ⟨msg, entry⟩ evs] : Trace) = 0 := by
      refine List.countP_eq_zero.mpr (fun r hr => ?_)
      rwa [List.mem_singleton.mp hr]
    rw [hsum, hzero]
    exact hs.once txHash

/-- **What is executed obeys the rule.** -/
theorem Disciplined.obeys_entered (hs : Disciplined d admin delay ctl s now trace)
    {tx : Transaction} (h : Effect d msg s (.executeTransaction tx) s' out)
    (hfree : CollisionFree d.keccak256
      (trace ++ [.entered ⟨msg, .executeTransaction tx⟩ evs])) :
    Obeys admin delay trace msg tx := by
  cases h
  case executeTransaction auth queued ready fresh =>
    obtain ⟨hqtx, hbefore⟩ := hs.queued_eq hfree queued
    rw [hqtx] at ready fresh
    exact ⟨hbefore.mono ready, fresh⟩

/-- The timelock calls itself only where an execution has put control. -/
theorem Disciplined.inside_of_own (hs : Disciplined d admin delay ctl s now trace)
    (hadmits : ctl.Admits d.self ⟨msg, entry⟩) (hown : msg.sender = d.self) :
    ∃ early msg' evs' tx, trace = early ++ [.entered ⟨msg', .executeTransaction tx⟩ evs'] ∧
      tx.target = d.self ∧ d.decode tx.data = .run entry := by
  cases ctl with
  | outside => exact absurd hown hadmits
  | inside entry' value =>
    obtain ⟨-, -, rfl⟩ := hadmits
    exact hs.inside _ value rfl
  | finished => exact hadmits.elim

/-- **An admin to come was nominated.** -/
theorem Disciplined.pending_entered (hs : Disciplined d admin delay ctl s now trace)
    (h : Effect d msg s entry s' out) (hadmits : ctl.Admits d.self ⟨msg, entry⟩)
    (evs : List Event) (hne : s'.pendingAdmin ≠ 0) :
    Nominated d admin delay (trace ++ [.entered ⟨msg, entry⟩ evs]) s'.pendingAdmin := by
  cases h
  case setPendingAdmin pendingAdmin own =>
    obtain ⟨early, msg', evs', tx, rfl, htarget, hdecode⟩ := hs.inside_of_own hadmits own
    have hobeys := hs.obeys early _ [] rfl msg' tx evs' rfl
    refine ⟨early, msg', evs', tx, msg, evs, [], ?_, hobeys, htarget, hdecode, own⟩
    rw [List.append_assoc]
    rfl
  case acceptAdmin => exact absurd rfl hne
  all_goals exact (hs.pending hne).concat _

/-- **A new admin was nominated.** -/
theorem Disciplined.accepted_entered (hs : Disciplined d admin delay ctl s now trace)
    (h : Effect d msg s .acceptAdmin s' out) : Nominated d admin delay trace msg.sender := by
  cases h
  case acceptAdmin nominee =>
    rw [nominee]
    exact hs.pending (nominee ▸ msg.sender_ne_zero)

/-- **A call keeps the discipline**, wherever it leaves control, as long as
control inside the timelock comes from its own call. -/
theorem Disciplined.entered (hs : Disciplined d admin delay ctl s now trace)
    (h : Effect d msg s entry s' out) (hadmits : ctl.Admits d.self ⟨msg, entry⟩)
    (hnow : msg.timestamp = now)
    (hfree : CollisionFree d.keccak256 (trace ++ [.entered ⟨msg, entry⟩ evs]))
    (hinside : ∀ entry' value, ctl' = .inside entry' value → ∃ tx,
      entry = .executeTransaction tx ∧ tx.target = d.self ∧ d.decode tx.data = .run entry') :
    Disciplined d admin delay ctl' s' now (trace ++ [.entered ⟨msg, entry⟩ evs]) where
  admin_eq := by rw [adminAfter_concat, ← hs.admin_eq, h.admin_eq evs]
  delay_eq := by rw [delayAfter_concat, ← hs.delay_eq, h.delay_eq evs]
  delay_ge := (h.delay_bounds ⟨hs.delay_ge, hs.delay_le⟩).1
  delay_le := (h.delay_bounds ⟨hs.delay_ge, hs.delay_le⟩).2
  queued _ := hs.queued_entered h evs
  executed _ hr _ := hs.executed_entered h hnow hfree hr
  once := hs.once_entered h evs
  obeys := by
    refine (EachAfter.append_singleton_iff _ _).mpr ⟨hs.obeys, fun msg' tx evs' heq => ?_⟩
    cases heq
    exact hs.obeys_entered h hfree
  pending := hs.pending_entered h hadmits evs
  accepted := by
    refine (EachAfter.append_singleton_iff _ _).mpr ⟨hs.accepted, fun msg' evs' heq => ?_⟩
    cases heq
    exact hs.accepted_entered h
  inside := by
    intro entry' value hctl
    obtain ⟨tx, rfl, htarget, hdecode⟩ := hinside entry' value hctl
    exact ⟨trace, msg, evs, tx, rfl, htarget, hdecode⟩

/-- The end of an execution says nothing new. -/
theorem Disciplined.resumed (hs : Disciplined d admin delay ctl s now trace)
    (k : Cont Transaction) (evs : List Event) (own : Bool) :
    Disciplined d admin delay (.ended own) s now (trace ++ [.resumed k evs]) where
  admin_eq := by rw [adminAfter_concat, ← hs.admin_eq]; rfl
  delay_eq := by rw [delayAfter_concat, ← hs.delay_eq]; rfl
  delay_ge := hs.delay_ge
  delay_le := hs.delay_le
  queued txHash hq := by
    obtain ⟨hhash, hbefore⟩ := hs.queued txHash hq
    refine ⟨hhash, hbefore.concat ?_⟩
    rintro ⟨msg, evs', heq⟩
    cases heq
  executed r hr tx hexec := by
    obtain hold | hnew := List.mem_append.mp hr
    · exact hs.executed r hold tx hexec
    · obtain ⟨msg, evs', heq⟩ := hexec
      rw [List.mem_singleton.mp hnew] at heq
      cases heq
  once txHash := by
    have hsame : executions d txHash (trace ++ [.resumed k evs])
        = executions d txHash trace := List.countP_append.trans (Nat.add_zero _)
    rw [hsame]
    exact hs.once txHash
  obeys := by
    refine (EachAfter.append_singleton_iff _ _).mpr ⟨hs.obeys, fun msg tx evs' heq => ?_⟩
    cases heq
  pending hne := (hs.pending hne).concat _
  accepted := by
    refine (EachAfter.append_singleton_iff _ _).mpr ⟨hs.accepted, fun msg evs' heq => ?_⟩
    cases heq
  inside _ _ hctl := absurd hctl Control.ended_ne_inside

/-- Time goes by. -/
theorem Disciplined.tick (hs : Disciplined d admin delay ctl s now trace) {now' : Uint256}
    (hle : now ≤ now') : Disciplined d admin delay ctl s now' trace :=
  { hs with
    executed := fun r hr tx hexec =>
      have ⟨hout, hpast⟩ := hs.executed r hr tx hexec
      ⟨hout, hpast.trans (BitVec.le_def.mp hle)⟩ }

/-- **At first** nothing has happened yet. -/
theorem Disciplined.init (h : constructor admin delay = .ok s) (now : Uint256) :
    Disciplined d admin delay .outside s now [] := by
  obtain ⟨hdelay, h⟩ := (Except.unit_bind_eq_ok _ _ _).mp h
  obtain ⟨hge, hle⟩ := checkDelay_eq_ok.mp hdelay
  cases h
  exact
    { admin_eq := rfl
      delay_eq := rfl
      delay_ge := hge
      delay_le := hle
      queued := fun _ hq => Bool.noConfusion hq
      executed := fun _ hr => absurd hr List.not_mem_nil
      once := fun _ => Nat.zero_le _
      obeys := EachAfter.nil
      pending := fun hne => absurd rfl hne
      accepted := EachAfter.nil
      inside := fun _ _ hctl => by cases hctl }

end Step

end Invariant

/-! ## Over whole runs -/

variable (d : Deployment) (admin : Address) (delay : Uint256)

/-- The discipline is kept, as long as the hash tells apart what the trace
hashes. -/
theorem disciplined_keeps :
    SelfCall.Keeps (body d) (fun _ _ => True) (fun ctl _ s now trace =>
      CollisionFree d.keccak256 trace → Disciplined d admin delay ctl s now trace) where
  enter := by
    intro ctl ks s now trace c s' evs hI hadmits hnow _ he hfree
    have hs := hI hfree.of_append
    exact hs.entered (enter_effect he) hadmits hnow hfree
      (fun _ _ hctl => absurd hctl Control.ended_ne_inside)
  enterCall := by
    intro ctl ks s now trace c s' evs out ctl' hI hadmits hnow _ he hctl' hfree
    have hs := hI hfree.of_append
    have heff := enter_effect he
    refine hs.entered heff hadmits hnow hfree (fun entry' value hctl => ?_)
    obtain ⟨msg, entry⟩ := c
    have hout : ∃ tx, entry = .executeTransaction tx ∧
        out = ⟨tx.target, tx.value, tx.data, tx⟩ := by
      cases heff
      exact ⟨_, rfl, rfl⟩
    obtain ⟨tx, rfl, rfl⟩ := hout
    obtain ⟨htarget, hdecode⟩ := SelfCall.Body.handOver_eq_inside (hctl ▸ hctl')
    exact ⟨tx, rfl, htarget, hdecode⟩
  finish := by
    intro ctl ks s now trace k s' evs hI hf hfree
    cases hf
    exact (hI hfree.of_append).resumed k _ k.own
  tick := by
    intro ctl s now trace now' hI hle hfree
    exact (hI hfree).tick hle

/-- **The discipline of the timelock**, in every configuration of every run
whose transactions the hash tells apart. What was executed had been queued
by the admin of that time, with the delay of that time over and the grace
period not, and had not been cancelled since; each hash was executed at
most once; the delay is within its bounds; and each admin after the first
was nominated by an executed transaction. -/
theorem timelock_discipline {c : Config} (h : Reachable d admin delay c)
    (hfree : CollisionFree d.keccak256 c.now.trace) :
    (∀ before msg tx evs after,
      c.now.trace = before ++ .entered ⟨msg, .executeTransaction tx⟩ evs :: after →
        Obeys admin delay before msg tx) ∧
    (∀ txHash, executions d txHash c.now.trace ≤ 1) ∧
    (c.now.state.storage.delay = delayAfter delay c.now.trace ∧
      MINIMUM_DELAY ≤ c.now.state.storage.delay ∧
      c.now.state.storage.delay ≤ MAXIMUM_DELAY) ∧
    c.now.state.storage.admin = adminAfter admin c.now.trace ∧
    ∀ before msg evs after, c.now.trace = before ++ .entered ⟨msg, .acceptAdmin⟩ evs :: after →
      Nominated d admin delay before msg.sender := by
  obtain ⟨s, balance, now, hs, hc⟩ := h
  obtain ⟨hdelay, hs⟩ := (Except.unit_bind_eq_ok _ _ _).mp hs
  obtain ⟨hge, hle⟩ := checkDelay_eq_ok.mp hdelay
  cases hs
  have hinit : Disciplined d admin delay .outside
      ⟨admin, 0, delay, fun _ => QueuedTransaction.blank, fun _ => false⟩ now [] :=
    { admin_eq := rfl
      delay_eq := rfl
      delay_ge := hge
      delay_le := hle
      queued := fun _ hq => Bool.noConfusion hq
      executed := fun _ hr => absurd hr List.not_mem_nil
      once := fun _ => Nat.zero_le _
      obeys := EachAfter.nil
      pending := fun hne => absurd rfl hne
      accepted := EachAfter.nil
      inside := fun _ _ hctl => by cases hctl }
  have hdisc := (disciplined_keeps d admin delay).holds (fun _ => hinit) hc hfree
  exact ⟨fun before msg tx evs after heq => hdisc.obeys before _ after heq msg tx evs rfl,
    hdisc.once, ⟨hdisc.delay_eq, hdisc.delay_ge, hdisc.delay_le⟩, hdisc.admin_eq,
    fun before msg evs after heq => hdisc.accepted before _ after heq msg evs rfl⟩

/-! ## A handover of the admin -/

/-- `setPendingAdmin(0x2)`, to be executed when the hour is over. -/
def nomination : Transaction where
  target := 0x100
  value := 0
  data := [0x4d, 0xd1, 0x8b, 0xf5] ++ Bytes32.toBytes 2
  eta := 3600

-- the accounts of the sample, none of them zero
theorem admin_ne_zero : (1 : Address) ≠ 0 := by decide
theorem nominee_ne_zero : (2 : Address) ≠ 0 := by decide
theorem sampleSelf_ne_zero : (0x100 : Address) ≠ 0 := by decide

/-- A timelock at an address of its own, with what its dispatcher makes of
that call, and its hash. -/
def sample : Deployment where
  self := 0x100
  self_ne_zero := sampleSelf_ne_zero
  decode data := if data = nomination.data then .run (.setPendingAdmin 2) else .revert
  keccak256 bytes := if bytes = nomination.encode then
      0xa486134b77093ecf45982699cc0989c9b965e960c425cf870deceffc3a8109e2
    else 0

/-- The admin queues the nomination, waits for an hour and executes it, and
the nominee accepts. -/
def handover : List (SelfCall.Move Entry) :=
  [.call ⟨⟨1, 0, 0, admin_ne_zero⟩, .queueTransaction nomination⟩, .wait 3600,
    .call ⟨⟨1, 0, 3600, admin_ne_zero⟩, .executeTransaction nomination⟩,
    .call ⟨⟨sample.self, 0, 3600, sample.self_ne_zero⟩, .setPendingAdmin 2⟩, .back,
    .call ⟨⟨2, 0, 3600, nominee_ne_zero⟩, .acceptAdmin⟩]

/-- The timelock right after the constructor. -/
def handoverStart : Config :=
  ⟨⟨SelfCall.Body.start ⟨1, 0, 3600, fun _ => QueuedTransaction.blank, fun _ => false⟩
    0 0, []⟩, []⟩

/-- The new admin was nominated, and the nomination is executed once. -/
theorem timelock_discipline_handover :
    ∃ c, Reachable sample 1 3600 c ∧ CollisionFree sample.keccak256 c.now.trace ∧
      c.now.state.storage.admin = 2 ∧
      c.now.state.storage.admin = adminAfter 1 c.now.trace ∧
      executions sample (sample.hash nomination) c.now.trace ≤ 1 := by
  obtain ⟨c, hsteps, hP⟩ := SelfCall.Body.exists_of_run (B := body sample)
    (p := handoverStart) (P := fun c => decide (c.now.state.storage.admin = 2
      ∧ c.now.trace.flatMap hashed = [nomination, nomination]))
    (fun c (_ : .call c ∈ handover) _ => trivial) (by decide +kernel)
  obtain ⟨hadmin, hhashed⟩ := of_decide_eq_true hP
  have hc : Reachable sample 1 3600 c := ⟨_, 0, 0, rfl, hsteps⟩
  have hfree : CollisionFree sample.keccak256 c.now.trace := by
    intro tx htx tx' htx' _
    rw [hhashed] at htx htx'
    have heq : ∀ t ∈ [nomination, nomination], t = nomination := by simp
    rw [heq tx htx, heq tx' htx']
  obtain ⟨-, honce, -, hafter, -⟩ := timelock_discipline sample 1 3600 hc hfree
  exact ⟨c, hc, hfree, hadmin, hafter, honce _⟩

end GovernanceTimelock
