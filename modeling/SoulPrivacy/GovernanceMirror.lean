import SoulPrivacy.GovernanceSubgraph

/-!
# The subgraph mirrors the timelock

A hash is at one of four stages: nothing was queued under it, or what was queued
waits, or was executed, or was cancelled. The timelock tells them by a mark and
two flags, the subgraph by the status of an entity (`Stage`).

The timelock marks an execution before it calls the target and tells of it
behind the call. In between it has executed what the subgraph has as queued, and
the target may do whatever it likes, also queue and execute other transactions.
It cannot queue the same one again: its eta is past. This needs that the hash
tells the transactions apart.

So at the end of a transaction the two agree, whatever was called on the way
(`mirrors_of_run`), and the times of an entity keep to the delay and the grace
period. The time of a cancellation is that of the last one. It stays when the
transaction is queued again, so it does not tell that a transaction is cancelled;
the status does.
-/

namespace GovernanceSubgraph

open GovernanceTimelock (Transaction QueuedTransaction Event Entry Storage Deployment Receipt
  Trace Effect Disciplined CollisionFree Executes MINIMUM_DELAY GRACE_PERIOD)
open Subgraph (Meta)
open SelfCall (Control Cont)

/-! ## Stages -/

/-- **What an entity tells in all stages**: which transaction it is, and that it
was queued with its delay ahead. -/
structure Tells (txHash : Bytes32) (tx : Transaction) (entity : TimelockTransaction) : Prop where
  txHash_eq : entity.txHash = txHash
  tx_eq : entity.toTransaction = tx
  delayed : entity.queuedAt + MINIMUM_DELAY.toNat ≤ tx.eta.toNat

/-- **The stage of a hash**: whether an execution is open, the mark and the record
of the timelock, and the entity of the subgraph. -/
inductive Stage (txHash : Bytes32) (now : ℕ) :
    Bool → Bool → QueuedTransaction → Option TimelockTransaction → Prop
  | unknown : Stage txHash now false false .blank none
  | queued {tx : Transaction} {entity : TimelockTransaction} (tells : Tells txHash tx entity)
      (status : entity.status = .queued) (executedAt : entity.executedAt = none) :
      Stage txHash now false true ⟨tx, false, false⟩ (some entity)
  | executing {tx : Transaction} {entity : TimelockTransaction} (tells : Tells txHash tx entity)
      (status : entity.status = .queued) (executedAt : entity.executedAt = none)
      (ready : tx.eta.toNat ≤ now) (fresh : now ≤ tx.eta.toNat + GRACE_PERIOD.toNat) :
      Stage txHash now true false ⟨tx, true, false⟩ (some entity)
  | executed {tx : Transaction} {entity : TimelockTransaction} {time : ℕ}
      (tells : Tells txHash tx entity) (status : entity.status = .executed)
      (executedAt : entity.executedAt = some time) (ready : tx.eta.toNat ≤ time)
      (fresh : time ≤ tx.eta.toNat + GRACE_PERIOD.toNat) :
      Stage txHash now false false ⟨tx, true, false⟩ (some entity)
  | cancelled {tx : Transaction} {entity : TimelockTransaction} {time : ℕ}
      (tells : Tells txHash tx entity) (status : entity.status = .cancelled)
      (executedAt : entity.executedAt = none) (cancelledAt : entity.cancelledAt = some time) :
      Stage txHash now false false ⟨tx, false, true⟩ (some entity)

namespace Stage

variable {txHash : Bytes32} {now now' : ℕ} {opened isQueued : Bool} {qtx : QueuedTransaction}
  {entity : Option TimelockTransaction}

/-- Where no execution is open the time does not matter. -/
theorem tick (h : Stage txHash now false isQueued qtx entity) :
    Stage txHash now' false isQueued qtx entity := by
  cases h with
  | unknown => exact .unknown
  | queued tells status executedAt => exact .queued tells status executedAt
  | executed tells status executedAt ready fresh =>
    exact .executed tells status executedAt ready fresh
  | cancelled tells status executedAt cancelledAt =>
    exact .cancelled tells status executedAt cancelledAt

/-- What is queued is not being executed. -/
theorem not_opened (h : Stage txHash now opened true qtx entity) : opened = false := by
  cases h
  rfl

/-- **Queued**, maybe again, but not behind an execution. -/
theorem queue (h : Stage txHash now opened false qtx entity) (hexecuted : qtx.executed = false)
    {store : Store} (hentity : store txHash = entity) {tx : Transaction} {m : Meta}
    (hlate : m.blockTimestamp + MINIMUM_DELAY.toNat ≤ tx.eta.toNat) :
    Stage txHash now opened true ⟨tx, false, false⟩
      (handleTransactionQueued m txHash tx store txHash) := by
  unfold handleTransactionQueued
  rw [Function.update_self, hentity]
  cases h with
  | unknown => exact .queued ⟨rfl, rfl, hlate⟩ rfl rfl
  | cancelled tells status executedAt cancelledAt =>
    exact .queued ⟨rfl, rfl, hlate⟩ rfl executedAt
  | executing => cases hexecuted
  | executed => cases hexecuted

/-- **About to be executed**: the mark is gone and nothing is told. -/
theorem execute (h : Stage txHash now opened true qtx entity) (hready : qtx.eta.toNat ≤ now)
    (hfresh : now ≤ qtx.eta.toNat + GRACE_PERIOD.toNat) :
    Stage txHash now true false { qtx with executed := true } entity := by
  cases h with
  | queued tells status executedAt => exact .executing tells status executedAt hready hfresh

/-- **Executed.** -/
theorem finish (h : Stage txHash now true isQueued qtx entity) {store : Store}
    (hentity : store txHash = entity) {m : Meta} (hm : m.blockTimestamp = now) :
    Stage txHash now false isQueued qtx (handleTransactionExecuted m txHash store txHash) := by
  unfold handleTransactionExecuted
  cases h with
  | executing tells status executedAt ready fresh =>
    rw [hentity]
    show Stage _ _ _ _ _ (Function.update store txHash _ txHash)
    rw [Function.update_self, ← hm]
    exact .executed ⟨tells.txHash_eq, tells.tx_eq, tells.delayed⟩ rfl rfl (hm ▸ ready)
      (hm ▸ fresh)

/-- **Cancelled.** -/
theorem cancel (h : Stage txHash now opened true qtx entity) {store : Store}
    (hentity : store txHash = entity) (m : Meta) :
    Stage txHash now opened false { qtx with cancelled := true }
      (handleTransactionCancelled m txHash store txHash) := by
  unfold handleTransactionCancelled
  cases h with
  | queued tells status executedAt =>
    rw [hentity]
    show Stage _ _ _ _ _ (Function.update store txHash _ txHash)
    rw [Function.update_self]
    exact .cancelled ⟨tells.txHash_eq, tells.tx_eq, tells.delayed⟩ rfl executedAt rfl

end Stage

/-- A handler leaves other entities alone. -/
theorem handleTransactionQueued_of_ne {m : Meta} {txHash txHash' : Bytes32} (tx : Transaction)
    (store : Store) (h : txHash' ≠ txHash) :
    handleTransactionQueued m txHash tx store txHash' = store txHash' :=
  Function.update_of_ne h _ _

theorem handleTransactionExecuted_of_ne {m : Meta} {txHash txHash' : Bytes32} (store : Store)
    (h : txHash' ≠ txHash) : handleTransactionExecuted m txHash store txHash' = store txHash' := by
  unfold handleTransactionExecuted
  cases store txHash with
  | none => rfl
  | some entity => exact Function.update_of_ne h _ _

theorem handleTransactionCancelled_of_ne {m : Meta} {txHash txHash' : Bytes32} (store : Store)
    (h : txHash' ≠ txHash) :
    handleTransactionCancelled m txHash store txHash' = store txHash' := by
  unfold handleTransactionCancelled
  cases store txHash with
  | none => rfl
  | some entity => exact Function.update_of_ne h _ _

/-! ## Steps -/

variable {d : Deployment}

/-- The hashes of the open executions. -/
def openHashes (d : Deployment) (ks : List (Cont Transaction)) : List Bytes32 :=
  ks.map (fun k => d.hash k.call.rest)

/-- **The invariant**: every hash is at a stage, no two open executions are of one
hash, calls that are under way are of this block, and what has the flag of an
execution was executed. -/
structure Mirrored (d : Deployment) (ks : List (Cont Transaction)) (s : Storage) (now : Uint256)
    (trace : Trace) (store : Store) : Prop where
  stage : ∀ txHash, Stage txHash now.toNat (decide (txHash ∈ openHashes d ks))
    (s.isQueued txHash) (s.queuedTransactions txHash) (store txHash)
  nodup : (openHashes d ks).Nodup
  time : ks ≠ [] → lastTime trace = now.toNat
  executed : ∀ txHash, (s.queuedTransactions txHash).executed = true →
    ∃ r ∈ trace, ∃ tx, Executes tx r ∧ d.hash tx = txHash

section Step

variable {admin : Address} {delay : Uint256} {ctl : Control Entry} {ks : List (Cont Transaction)}
  {s s' : Storage} {now : Uint256} {trace : Trace} {store store' : Store} {c : SelfCall.Call Entry}
  {events : List Event} {out : Option (SelfCall.Outgoing Transaction)}

/-- **One hash moves**, and the others are left alone. -/
theorem Mirrored.move (hm : Mirrored d ks s now trace store) (moved : Bytes32)
    {ks' : List (Cont Transaction)} {trace' : Trace}
    (hothers : ∀ txHash, txHash ≠ moved →
      s'.queuedTransactions txHash = s.queuedTransactions txHash
        ∧ s'.isQueued txHash = s.isQueued txHash ∧ store' txHash = store txHash
        ∧ (txHash ∈ openHashes d ks' ↔ txHash ∈ openHashes d ks))
    (hstage : Stage moved now.toNat (decide (moved ∈ openHashes d ks')) (s'.isQueued moved)
      (s'.queuedTransactions moved) (store' moved))
    (hnodup : (openHashes d ks').Nodup) (htime : ks' ≠ [] → lastTime trace' = now.toNat)
    (htrace : trace ⊆ trace') (hexecuted : (s'.queuedTransactions moved).executed = true →
      ∃ r ∈ trace', ∃ tx, Executes tx r ∧ d.hash tx = moved) :
    Mirrored d ks' s' now trace' store' := by
  refine ⟨fun txHash => ?_, hnodup, htime, fun txHash hflag => ?_⟩
  · by_cases heq : txHash = moved
    · subst heq
      exact hstage
    · obtain ⟨hrecord, hmark, hentity, hopen⟩ := hothers txHash heq
      rw [hrecord, hmark, hentity, decide_eq_decide.mpr hopen]
      exact hm.stage txHash
  · by_cases heq : txHash = moved
    · subst heq
      exact hexecuted hflag
    · rw [(hothers txHash heq).1] at hflag
      obtain ⟨r, hr, tx, hexecutes⟩ := hm.executed txHash hflag
      exact ⟨r, htrace hr, tx, hexecutes⟩

/-- **What was executed is not queued again**: its eta is past. -/
theorem Mirrored.not_executed (hm : Mirrored d ks s now trace store)
    (hs : Disciplined d admin delay ctl s now trace) {tx : Transaction} {msg : SelfCall.Msg}
    (hlate : now.toNat + s.delay.toNat ≤ tx.eta.toNat)
    (hfree : CollisionFree d.keccak256 (trace ++ [.entered ⟨msg, .queueTransaction tx⟩ events])) :
    (s.queuedTransactions (d.hash tx)).executed = false := by
  by_contra hexecuted
  obtain ⟨r, hr, tx', hexecutes, hhash⟩ := hm.executed _ (Bool.not_eq_false _ ▸ hexecuted)
  obtain ⟨-, hpast⟩ := hs.executed r hr tx' hexecutes
  have htx : tx ∈ List.flatMap GovernanceTimelock.hashed
      (trace ++ [.entered ⟨msg, .queueTransaction tx⟩ events]) :=
    List.mem_flatMap.mpr ⟨_, List.mem_append_right _ (List.mem_singleton_self _),
      List.mem_singleton_self tx⟩
  have htx' := GovernanceTimelock.mem_hashed_of_executes (List.mem_append_left
    [.entered ⟨msg, .queueTransaction tx⟩ events] hr) hexecutes
  obtain rfl := hfree.hash_inj htx' htx hhash
  have hmin : MINIMUM_DELAY.toNat ≤ s.delay.toNat := BitVec.le_def.mp hs.delay_ge
  have hhour : MINIMUM_DELAY.toNat = 3600 := rfl
  omega

/-- The call of a target that a call is about to make. -/
def opens (out : Option (SelfCall.Outgoing Transaction)) (own : Bool) : List (Cont Transaction) :=
  (out.map (fun out => (⟨out, own⟩ : Cont Transaction))).toList

/-- **A call moves one hash to its next stage.** -/
theorem Mirrored.entered (hm : Mirrored d ks s now trace store)
    (hs : Disciplined d admin delay ctl s now trace) (hnow : c.msg.timestamp = now)
    (heff : Effect d c.msg s c.entry s' out)
    (hstore : Announces d now.toNat store c.entry store')
    (hfree : CollisionFree d.keccak256 (trace ++ [.entered c events])) (own : Bool) :
    Mirrored d (opens out own ++ ks) s' now (trace ++ [.entered c events]) store' := by
  obtain ⟨msg, entry⟩ := c
  have htime : lastTime (trace ++ [.entered ⟨msg, entry⟩ events]) = now.toNat := by
    rw [lastTime_entered, hnow]
  have htrace : trace ⊆ trace ++ [.entered ⟨msg, entry⟩ events] := List.subset_append_left _ _
  cases heff with
  | @queueTransaction tx auth late new =>
    replace late : now.toNat + s.delay.toNat ≤ tx.eta.toNat := hnow ▸ late
    have hmin : MINIMUM_DELAY.toNat ≤ s.delay.toNat := BitVec.le_def.mp hs.delay_ge
    cases hstore with
    | nothing _ none => cases none
    | queueTransaction _ m at_time =>
      have hlate : m.blockTimestamp + MINIMUM_DELAY.toNat ≤ tx.eta.toNat := by omega
      have hold := hm.stage (d.hash tx)
      rw [new] at hold
      refine hm.move (d.hash tx) (fun txHash hne => ⟨Function.update_of_ne hne _ _,
        Function.update_of_ne hne _ _, handleTransactionQueued_of_ne tx store hne, Iff.rfl⟩) ?_
        hm.nodup (fun _ => htime) htrace ?_
      · dsimp only
        rw [Function.update_self, Function.update_self]
        exact hold.queue (hm.not_executed hs late hfree) rfl hlate
      · dsimp only
        rw [Function.update_self]
        exact nofun
  | @executeTransaction tx auth queued ready fresh =>
    replace ready : (s.queuedTransactions (d.hash tx)).eta.toNat ≤ now.toNat := hnow ▸ ready
    replace fresh : now.toNat
      ≤ (s.queuedTransactions (d.hash tx)).eta.toNat + GRACE_PERIOD.toNat := hnow ▸ fresh
    cases hstore
    have hold := hm.stage (d.hash tx)
    rw [queued] at hold
    have hclosed : d.hash tx ∉ openHashes d ks := of_decide_eq_false hold.not_opened
    refine hm.move (d.hash tx) (fun txHash hne => ⟨Function.update_of_ne hne _ _,
      Function.update_of_ne hne _ _, rfl, List.mem_cons.trans (or_iff_right hne)⟩) ?_
      (List.nodup_cons.mpr ⟨hclosed, hm.nodup⟩) (fun _ => htime) htrace
      (fun _ => ⟨_, List.mem_append_right _ (List.mem_singleton_self _), tx, ⟨msg, events, rfl⟩,
        rfl⟩)
    show Stage _ _ (decide (d.hash tx ∈ d.hash tx :: openHashes d ks))
      (Function.update s.isQueued _ false _) (Function.update s.queuedTransactions _ _ _) _
    rw [Function.update_self, Function.update_self, decide_eq_true List.mem_cons_self]
    exact hold.execute ready fresh
  | @cancelTransaction tx auth queued =>
    cases hstore with
    | nothing _ none => cases none
    | cancelTransaction _ m at_time =>
      have hold := hm.stage (d.hash tx)
      rw [queued] at hold
      refine hm.move (d.hash tx) (fun txHash hne => ⟨Function.update_of_ne hne _ _,
        Function.update_of_ne hne _ _, handleTransactionCancelled_of_ne store hne, Iff.rfl⟩) ?_
        hm.nodup (fun _ => htime) htrace ?_
      · dsimp only
        rw [Function.update_self, Function.update_self]
        exact hold.cancel rfl m
      · dsimp only
        rw [Function.update_self]
        intro hflag
        obtain ⟨r, hr, tx', hexecutes⟩ := hm.executed _ hflag
        exact ⟨r, htrace hr, tx', hexecutes⟩
  | _ =>
    -- the other entry points leave the queue alone, and have no event with a handler
    cases hstore
    refine ⟨hm.stage, hm.nodup, fun _ => htime, fun txHash hflag => ?_⟩
    obtain ⟨r, hr, tx, hexecutes⟩ := hm.executed txHash hflag
    exact ⟨r, htrace hr, tx, hexecutes⟩

/-- **Behind the call of a target** its execution is told. -/
theorem Mirrored.resumed {k : Cont Transaction} (hm : Mirrored d (k :: ks) s now trace store)
    {m : Meta} (hm_time : m.blockTimestamp = lastTime trace) (events : List Event) :
    Mirrored d ks s now (trace ++ [.resumed k events])
      (handleTransactionExecuted m (d.hash k.call.rest) store) := by
  obtain ⟨hfirst, hnodup⟩ := List.nodup_cons.mp hm.nodup
  have hclosed : d.hash k.call.rest ∉ openHashes d ks := hfirst
  have hopen : d.hash k.call.rest ∈ openHashes d (k :: ks) := List.mem_cons_self
  have hnow := hm.time (List.cons_ne_nil k ks)
  have htrace : trace ⊆ trace ++ [.resumed k events] := List.subset_append_left _ _
  refine hm.move (d.hash k.call.rest) (fun txHash hne => ⟨rfl, rfl,
    handleTransactionExecuted_of_ne store hne, (List.mem_cons.trans (or_iff_right hne)).symm⟩) ?_
    hnodup (fun _ => (lastTime_resumed _ _ _).trans hnow) htrace (fun hflag => ?_)
  · have hold := hm.stage (d.hash k.call.rest)
    rw [decide_eq_true hopen] at hold
    rw [decide_eq_false hclosed]
    exact hold.finish rfl (hm_time.trans hnow)
  · obtain ⟨r, hr, tx, hexecutes⟩ := hm.executed _ hflag
    exact ⟨r, htrace hr, tx, hexecutes⟩

/-- Between transactions time may pass. -/
theorem Mirrored.tick (hm : Mirrored d [] s now trace store) (now' : Uint256) :
    Mirrored d [] s now' trace store :=
  ⟨fun txHash => (hm.stage txHash).tick, hm.nodup, fun h => absurd rfl h, hm.executed⟩

end Step

/-! ## Runs -/

variable (d) (admin : Address) (delay : Uint256)

/-- **The subgraph mirrors the timelock in every configuration**, with the
discipline that it takes. -/
theorem mirrored_keeps :
    SelfCall.Keeps (GovernanceTimelock.body d) (fun _ _ => True) (fun ctl ks s now trace =>
      (CollisionFree d.keccak256 trace → Disciplined d admin delay ctl s now trace)
        ∧ (CollisionFree d.keccak256 trace →
          ∀ log, IsLogOf log trace → Mirrored d ks s now trace (index log))) where
  enter := by
    rintro ctl ks s now trace c s' events ⟨hdisciplined, hmirrored⟩ hadmits hnow hside he
    refine ⟨@SelfCall.Keeps.enter _ _ _ _ _ _ _ _
      (GovernanceTimelock.disciplined_keeps d admin delay) ctl ks _ _ _ _ _ _ hdisciplined
      hadmits hnow hside he, fun hfree log hlog => ?_⟩
    rw [IsLogOf, timed_entered, hnow] at hlog
    obtain ⟨before, after, rfl, hbefore, hafter⟩ := List.map_eq_append_iff.mp hlog
    rw [index_append]
    exact (hmirrored hfree.of_append before hbefore).entered (hdisciplined hfree.of_append) hnow
      (GovernanceTimelock.enter_effect he) (announces_of_enter he hafter _) hfree ctl.own
  enterCall := by
    rintro ctl ks s now trace c s' events out ctl' ⟨hdisciplined, hmirrored⟩ hadmits hnow hside
      he hctl'
    refine ⟨@SelfCall.Keeps.enterCall _ _ _ _ _ _ _ _
      (GovernanceTimelock.disciplined_keeps d admin delay) ctl ks _ _ _ _ _ _ _ _ hdisciplined
      hadmits hnow hside he hctl', fun hfree log hlog => ?_⟩
    rw [IsLogOf, timed_entered, hnow] at hlog
    obtain ⟨before, after, rfl, hbefore, hafter⟩ := List.map_eq_append_iff.mp hlog
    rw [index_append]
    exact (hmirrored hfree.of_append before hbefore).entered (hdisciplined hfree.of_append) hnow
      (GovernanceTimelock.enter_effect he) (announces_of_enter he hafter _) hfree ctl.own
  finish := by
    rintro ctl ks s now trace k s' events ⟨hdisciplined, hmirrored⟩ he
    refine ⟨@SelfCall.Keeps.finish _ _ _ _ _ _ _ _
      (GovernanceTimelock.disciplined_keeps d admin delay) ctl ks _ _ _ _ _ _ hdisciplined he,
      fun hfree log hlog => ?_⟩
    cases he
    rw [IsLogOf, timed_resumed] at hlog
    obtain ⟨before, after, rfl, hbefore, hafter⟩ := List.map_eq_append_iff.mp hlog
    obtain ⟨m, hm, rfl⟩ := exists_of_map_eq_singleton hafter
    rw [index_append]
    exact (hmirrored hfree.of_append before hbefore).resumed hm _
  tick := by
    rintro ctl s now trace now' ⟨hdisciplined, hmirrored⟩ hle
    exact ⟨fun hfree => (hdisciplined hfree).tick hle,
      fun hfree log hlog => (hmirrored hfree log hlog).tick now'⟩

/-- **The status that the timelock itself has of a hash.** -/
def statusOf (s : Storage) (txHash : Bytes32) : Option Status :=
  if s.isQueued txHash = true then some .queued
  else if (s.queuedTransactions txHash).executed = true then some .executed
  else if (s.queuedTransactions txHash).cancelled = true then some .cancelled
  else none

/-- **An entity of the timelock**: its transaction is the one that is recorded, it
was queued with the delay ahead, it has the time of an execution exactly if it
was executed, that was when the delay was over and the grace period was not, and
it has the time of a cancellation if it is cancelled. -/
structure Faithful (s : Storage) (txHash : Bytes32) (entity : TimelockTransaction) : Prop where
  txHash_eq : entity.txHash = txHash
  tx_eq : entity.toTransaction = (s.queuedTransactions txHash).toTransaction
  delayed : entity.queuedAt + MINIMUM_DELAY.toNat ≤ entity.eta.toNat
  executed_iff : entity.executedAt.isSome ↔ entity.status = .executed
  in_time : ∀ time ∈ entity.executedAt,
    entity.eta.toNat ≤ time ∧ time ≤ entity.eta.toNat + GRACE_PERIOD.toNat
  cancelled : entity.status = .cancelled → entity.cancelledAt.isSome

/-- **What a stage tells of its entity.** -/
theorem Stage.faithful {s : Storage} {txHash : Bytes32} {now : ℕ} {store : Store}
    (h : Stage txHash now false (s.isQueued txHash) (s.queuedTransactions txHash)
      (store txHash)) :
    (store txHash).map (·.status) = statusOf s txHash
      ∧ ∀ entity, store txHash = some entity → Faithful s txHash entity := by
  unfold statusOf
  generalize hqueued : s.isQueued txHash = isQueued at h
  generalize hqtx : s.queuedTransactions txHash = qtx at h
  generalize store txHash = found at h
  cases h with
  | unknown => exact ⟨rfl, nofun⟩
  | @queued tx entity tells status executedAt =>
    refine ⟨congrArg some status, ?_⟩
    rintro _ ⟨⟩
    refine ⟨tells.txHash_eq, ?_, tells.tx_eq ▸ tells.delayed, ?_, ?_, ?_⟩
    · rw [hqtx]
      exact tells.tx_eq
    · rw [executedAt, status]
      exact iff_of_false Bool.false_ne_true nofun
    · rw [executedAt]
      exact nofun
    · rw [status]
      exact nofun
  | @executed tx entity time tells status executedAt ready fresh =>
    refine ⟨congrArg some status, ?_⟩
    rintro _ ⟨⟩
    refine ⟨tells.txHash_eq, ?_, tells.tx_eq ▸ tells.delayed, ?_, ?_, ?_⟩
    · rw [hqtx]
      exact tells.tx_eq
    · rw [executedAt, status]
      exact iff_of_true rfl rfl
    · rw [executedAt]
      rintro _ ⟨⟩
      rw [tells.tx_eq]
      exact ⟨ready, fresh⟩
    · rw [status]
      exact nofun
  | @cancelled tx entity time tells status executedAt cancelledAt =>
    refine ⟨congrArg some status, ?_⟩
    rintro _ ⟨⟩
    refine ⟨tells.txHash_eq, ?_, tells.tx_eq ▸ tells.delayed, ?_, ?_, ?_⟩
    · rw [hqtx]
      exact tells.tx_eq
    · rw [executedAt, status]
      exact iff_of_false Bool.false_ne_true nofun
    · rw [executedAt]
      exact nofun
    · rw [cancelledAt]
      exact fun _ => rfl

variable {d admin delay}

/-- **The subgraph mirrors the timelock** at the end of every transaction of every
run, as long as the hash tells apart what is hashed: a hash has an entity exactly
if something was queued under it, with the status that the timelock has, and the
entity is faithful. -/
theorem mirrors_of_run {c : GovernanceTimelock.Config}
    (h : GovernanceTimelock.Reachable d admin delay c) (hend : c.stack = [])
    (hfree : CollisionFree d.keccak256 c.now.trace) {log : List (Meta × Event)}
    (hlog : IsLogOf log c.now.trace) (txHash : Bytes32) :
    (index log txHash).map (·.status) = statusOf c.now.state.storage txHash
      ∧ ∀ entity, index log txHash = some entity →
        Faithful c.now.state.storage txHash entity := by
  obtain ⟨s, balance, now, hs, hc⟩ := h
  obtain ⟨hdelay, hs'⟩ := (Except.unit_bind_eq_ok _ _ _).mp hs
  have hstart : ∀ log, IsLogOf log [] → Mirrored d [] s now [] (index log) := by
    intro log hnil
    cases List.map_eq_nil_iff.mp hnil
    cases hs'
    exact ⟨fun _ => .unknown, List.nodup_nil, fun h => absurd rfl h, nofun⟩
  have hmirrored := (mirrored_keeps d admin delay).holds
    ⟨fun _ => GovernanceTimelock.Disciplined.init hs now, fun _ => hstart⟩ hc
  have hnow := hmirrored.2 hfree log hlog
  rw [hend] at hnow
  exact (hnow.stage txHash).faithful

/-! ## A handover of the admin, as it is indexed -/

open GovernanceTimelock (sample nomination handover handoverStart hashed)

/-- A log of a trace, with nothing else of its blocks. -/
def logOf (trace : Trace) : List (Meta × Event) :=
  (timed trace).map (fun e => (⟨0, 0, 1, 0, e.1⟩, e.2))

theorem isLogOf_logOf (trace : Trace) : IsLogOf (logOf trace) trace := by
  unfold IsLogOf logOf
  rw [List.map_map]
  exact List.map_id _

/-- The nomination is indexed as executed, with a time. -/
theorem mirrors_of_run_handover :
    ∃ (c : GovernanceTimelock.Config) (entity : TimelockTransaction),
      GovernanceTimelock.Reachable sample 1 3600 c
        ∧ index (logOf c.now.trace) (sample.hash nomination) = some entity
        ∧ entity.status = .executed ∧ entity.executedAt.isSome := by
  obtain ⟨c, hsteps, hP⟩ := SelfCall.Body.exists_of_run (B := GovernanceTimelock.body sample)
    (p := handoverStart) (P := fun c => decide (c.stack.length = 0
      ∧ c.now.trace.flatMap hashed = [nomination, nomination]
      ∧ statusOf c.now.state.storage (sample.hash nomination) = some .executed))
    (fun c (_ : .call c ∈ handover) _ => trivial) (by decide +kernel)
  obtain ⟨hlength, hhashed, hstatus⟩ := of_decide_eq_true hP
  have hc : GovernanceTimelock.Reachable sample 1 3600 c := ⟨_, 0, 0, rfl, hsteps⟩
  have hfree : CollisionFree sample.keccak256 c.now.trace := by
    intro tx htx tx' htx' _
    rw [hhashed] at htx htx'
    have heq : ∀ t ∈ [nomination, nomination], t = nomination := by simp
    rw [heq tx htx, heq tx' htx']
  obtain ⟨hmap, hfaithful⟩ := mirrors_of_run hc (List.length_eq_zero_iff.mp hlength) hfree
    (isLogOf_logOf _) (sample.hash nomination)
  rw [hstatus] at hmap
  obtain ⟨entity, hentity, hexecuted⟩ := Option.map_eq_some_iff.mp hmap
  exact ⟨c, entity, hc, hentity, hexecuted, (hfaithful entity hentity).executed_iff.mpr hexecuted⟩

end GovernanceSubgraph
