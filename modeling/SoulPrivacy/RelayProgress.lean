import Mathlib.Algebra.BigOperators.Group.Finset.Basic
import Mathlib.Data.Fintype.BigOperators
import SoulPrivacy.RelayDelivery

/-!
# The daemon drains

The tasks of the daemon wait for each other at two channels with room for 256 messages. Where
tasks wait in a circle, none goes on. Here there is no circle: the dispatcher waits only for
commands, the aggregator for room in its channel and then for events, the watchers for room
in theirs.

So what the watchers have handed on gets through. Each step that is not one of a watcher that
learns something uses up what there is to do (`Daemon.load_lt`), and where no such step can be
taken all of it is dispatched (`drains_of_run`), unless the aggregator flushes its batches
with delays from an empty range and panics.
-/

namespace Relayer

variable {config : RelayerConfig} {word : ℕ → ℕ} {chains : Fin config.chains.length → Chain}
  {s s' : Daemon config.chains.length}

/-- **A step gets on** with what the watchers have handed on. The timer does where there is a
batch. -/
def DaemonAction.Advances {n : ℕ} (s : Daemon n) : DaemonAction n → Prop
  | .watch _ _ => False
  | .timeout => s.aggregator.batch ≠ []
  | _ => True

/-- **The daemon goes on**, while the watchers learn nothing more. -/
abbrev Advance (config : RelayerConfig) (word : ℕ → ℕ)
    (chains : Fin config.chains.length → Chain) (s : Daemon config.chains.length) :
    List (Daemon config.chains.length × DaemonAction config.chains.length) →
      Daemon config.chains.length → Prop :=
  Run (Daemon.step config word chains) (fun s action => action.Advances s) s

/-! ## What there is to do -/

/-- The commands of an event are sent and dispatched. -/
def eventLoad (config : RelayerConfig) (event : EpochEvent) : ℕ :=
  2 * (eventCommands config event).length

/-- The events of a batch are relayed. -/
def batchLoad (config : RelayerConfig) (batch : List EpochEvent) : ℕ :=
  (batch.map (fun event => eventLoad config event + 1)).sum

/-- An event that waits is sent and received. -/
def Watcher.load (config : RelayerConfig) (w : Watcher) : ℕ :=
  if w.hasEnded then 0
  else (w.outbox.toList.map (fun d => eventLoad config d.event + 3)).sum

/-- The aggregator returns. -/
def AggregatorStage.load : AggregatorStage → ℕ
  | .running => 1
  | _ => 0

/-- **What there is to do.** -/
def Daemon.load (config : RelayerConfig) (s : Daemon config.chains.length) : ℕ :=
  ∑ i, (s.watchers i).load config
    + (s.events.queue.map (fun p => eventLoad config p.2.event + 2)).sum
    + (batchLoad config s.aggregator.batch + 2 * s.outbox.length)
    + s.commands.queue.length + s.stage.load

theorem batchLoad_append (batch batch' : List EpochEvent) :
    batchLoad config (batch ++ batch') = batchLoad config batch + batchLoad config batch' := by
  unfold batchLoad
  rw [List.map_append, List.sum_append]

/-- What was flushed is to be sent, which is less to do. -/
theorem length_flatMap_eventCommands (flushed : List EpochEvent) :
    2 * (flushed.flatMap (eventCommands config)).length + flushed.length
      = batchLoad config flushed := by
  induction flushed with
  | nil => rfl
  | cons event flushed ih =>
    have hcons : batchLoad config (event :: flushed)
        = eventLoad config event + 1 + batchLoad config flushed := rfl
    rw [hcons, ← ih, List.flatMap_cons, List.length_append, List.length_cons, eventLoad]
    omega

/-- One of several watchers changes. -/
theorem sum_update_add {n : ℕ} (f : Fin n → Watcher) (g : Watcher → ℕ) (i : Fin n)
    (w : Watcher) :
    ∑ j, g (Function.update f i w j) + g (f i) = ∑ j, g (f j) + g w := by
  have hrest : ∑ j ∈ Finset.univ.erase i, g (Function.update f i w j)
      = ∑ j ∈ Finset.univ.erase i, g (f j) := by
    refine Finset.sum_congr rfl (fun j hj => ?_)
    rw [Function.update_of_ne (Finset.ne_of_mem_erase hj)]
  rw [← Finset.add_sum_erase _ _ (Finset.mem_univ i),
    ← Finset.add_sum_erase (a := i) _ (fun j => g (f j)) (Finset.mem_univ i), hrest,
    Function.update_self]
  omega

/-- **A round leaves less to do**, of what it has received and the batch. -/
theorem afterRound_load {a a' : AggregatorState} {flushed new : List EpochEvent}
    (hrelays : RelaysFrom config a a' flushed) (hsplit : flushed ++ a'.batch = a.batch ++ new) :
    batchLoad config a'.batch + 2 * (a'.commands.drop a.commands.length).length + flushed.length
      = batchLoad config a.batch + batchLoad config new := by
  rw [← batchLoad_append, ← hsplit, batchLoad_append, hrelays.commands, List.drop_left,
    ← length_flatMap_eventCommands flushed]
  omega

/-- … and so of all. -/
theorem Daemon.load_afterRound {a : AggregatorState} {flushed : List EpochEvent}
    (new : List EpochEvent) (stage : AggregatorStage) (hout : s.outbox = [])
    (hrelays : RelaysFrom config s.aggregator a flushed)
    (hsplit : flushed ++ a.batch = s.aggregator.batch ++ new) :
    (s.afterRound stage (some a)).load config + flushed.length + s.stage.load
      = s.load config + batchLoad config new + stage.load := by
  have hround := afterRound_load hrelays hsplit
  have hnone : s.outbox.length = 0 := by
    rw [hout]
    rfl
  unfold Daemon.load Daemon.afterRound
  dsimp only
  omega

/-- A panic leaves nothing for the aggregator. -/
theorem Daemon.load_panicked (s : Daemon config.chains.length) (stage : AggregatorStage) :
    (s.afterRound stage none).load config + s.stage.load = s.load config := by
  unfold Daemon.load Daemon.afterRound
  dsimp only
  rfl

/-- What is received is no longer to be received. -/
theorem Daemon.load_recv {p : Fin config.chains.length × Delivery}
    {events : Channel (Fin config.chains.length × Delivery)}
    (hrecv : s.events.recv = some (p, events)) :
    (s.setEvents events).load config + eventLoad config p.2.event + 2 = s.load config := by
  unfold Daemon.load Daemon.setEvents
  rw [(Channel.recv_eq_some.mp hrecv).1, List.map_cons, List.sum_cons]
  dsimp only
  omega

/-- **An event is received.** -/
theorem Daemon.load_receive (h : s.Kept config chains)
    (hstep : s.receive config word = .ok s') : s'.load config < s.load config := by
  obtain ⟨hrunning, hout, p, events, hrecv, rfl⟩ := Daemon.receive_eq_ok hstep
  have hload := Daemon.load_recv hrecv
  cases hround : aggregate config word s.aggregator (.recv p.2.event) with
  | none =>
    have hpanic := Daemon.load_panicked (s.setEvents events) .running
    omega
  | some a =>
    obtain ⟨flushed, hrelays, hsplit, -⟩ := aggregate_of_eq_some h.batch hround
    have hafter := Daemon.load_afterRound (s := s.setEvents events)
      (received [Input.recv p.2.event]) .running hout hrelays hsplit
    have hone : batchLoad config (received [Input.recv p.2.event])
        = eventLoad config p.2.event + 1 := rfl
    have hstage : (s.setEvents events).stage.load = AggregatorStage.running.load :=
      congrArg AggregatorStage.load hrunning
    omega

theorem timeout_batch {a a' : AggregatorState}
    (hbatching : config.metadataResistance.batchingEnabled = true)
    (h : aggregate config word a .timeout = some a') : a'.batch = [] := by
  rw [aggregate] at h
  split at h
  · exact (flushBatch_of_eq_some h).2
  · rename_i hno
    obtain rfl := Option.some.inj h
    rw [hbatching, Bool.true_and, Bool.not_eq_true', Bool.not_eq_false] at hno
    exact List.isEmpty_iff.mp hno

/-- **A batch is flushed** by the timer. -/
theorem Daemon.load_timeout (h : s.Kept config chains) (hbatch : s.aggregator.batch ≠ [])
    (hstep : s.timeout config word = .ok s') : s'.load config < s.load config := by
  obtain ⟨hrunning, hout, hbatching, rfl⟩ := Daemon.timeout_eq_ok hstep
  have hstage : s.stage.load = AggregatorStage.running.load :=
    congrArg AggregatorStage.load hrunning
  have hone : AggregatorStage.running.load = 1 := rfl
  cases hround : aggregate config word s.aggregator .timeout with
  | none =>
    have hpanic := Daemon.load_panicked s .running
    omega
  | some a =>
    obtain ⟨flushed, hrelays, hsplit, -⟩ := aggregate_of_eq_some h.batch hround
    have hafter := Daemon.load_afterRound (received [Input.timeout]) .running hout hrelays
      hsplit
    have hnone : batchLoad config (received [Input.timeout]) = 0 := rfl
    have hflushed : flushed = s.aggregator.batch := by
      rw [timeout_batch hbatching hround, List.append_nil] at hsplit
      exact hsplit.trans (List.append_nil _)
    have hpos : 0 < flushed.length := hflushed ▸ List.length_pos_of_ne_nil hbatch
    omega

/-- **The aggregator returns.** -/
theorem Daemon.load_close (hstep : s.close config word = .ok s') :
    s'.load config < s.load config := by
  obtain ⟨hrunning, hout, -, -, rfl⟩ := Daemon.close_eq_ok hstep
  have hstage : s.stage.load = 1 := congrArg AggregatorStage.load hrunning
  cases hround : shutDown config word s.aggregator with
  | none =>
    have hpanic := Daemon.load_panicked s .closed
    omega
  | some a =>
    obtain ⟨hrelays, hempty⟩ := shutDown_of_eq_some hround
    have hafter := Daemon.load_afterRound [] .closed hout hrelays
      (by rw [hempty])
    have hnone : batchLoad config [] = 0 := rfl
    have hclosed : AggregatorStage.closed.load = 0 := rfl
    omega

theorem Daemon.load_emit (hstep : s.emit = .ok s') : s'.load config < s.load config := by
  obtain ⟨c, outbox, commands, hout, hsend, rfl⟩ := Daemon.emit_eq_ok hstep
  obtain ⟨-, rfl⟩ := Channel.send_eq_some.mp hsend
  have hlength : s.outbox.length = outbox.length + 1 := by
    rw [hout]
    rfl
  unfold Daemon.load
  dsimp only
  rw [hlength, List.length_append, List.length_singleton]
  omega

theorem Daemon.load_dispatchNext (hstep : s.dispatchNext = .ok s') :
    s'.load config < s.load config := by
  obtain ⟨c, commands, hrecv, rfl⟩ := Daemon.dispatchNext_eq_ok hstep
  have hlength := Channel.length_recv hrecv
  unfold Daemon.load
  dsimp only
  omega

/-- A watcher changes. -/
theorem Daemon.load_setWatcher (i : Fin config.chains.length) (w : Watcher) :
    (s.setWatcher i w).load config + (s.watchers i).load config
      = s.load config + w.load config := by
  have hsum := sum_update_add s.watchers (Watcher.load config) i w
  unfold Daemon.load Daemon.setWatcher
  dsimp only
  omega

/-- What is sent is to be received. -/
theorem Daemon.load_send {p : Fin config.chains.length × Delivery}
    {events : Channel (Fin config.chains.length × Delivery)}
    (hsend : s.events.send CHANNEL_CAPACITY p = some events) :
    (s.setEvents events).load config = s.load config + eventLoad config p.2.event + 2 := by
  obtain ⟨-, rfl⟩ := Channel.send_eq_some.mp hsend
  unfold Daemon.load Daemon.setEvents
  dsimp only
  rw [List.map_append, List.sum_append, List.map_singleton, List.sum_singleton]
  omega

/-- A watcher with an event. -/
theorem Watcher.load_of_some (config : RelayerConfig) {w : Watcher} {d : Delivery}
    (hended : w.hasEnded = false) (hout : w.outbox = some d) :
    w.load config = eventLoad config d.event + 3 := by
  unfold Watcher.load
  rw [hended, hout]
  rfl

theorem Watcher.load_of_none {w : Watcher} (hout : w.outbox = none) : w.load config = 0 := by
  unfold Watcher.load
  rw [hout]
  split <;> rfl

/-- **An event is sent**, or its watcher finds the receiver gone. -/
theorem Daemon.load_deliver {i : Fin config.chains.length} (hstep : s.deliver i = .ok s') :
    s'.load config < s.load config := by
  obtain ⟨d, hout, hended, hcases⟩ := Daemon.deliver_eq_ok hstep
  have hbefore := Watcher.load_of_some config hended hout
  rcases hcases with ⟨-, events, hsend, rfl⟩ | ⟨-, rfl⟩
  · have hset := Daemon.load_setWatcher (s := s) i ((s.watchers i).deliver d)
    have hsent := Daemon.load_send (s := s.setWatcher i ((s.watchers i).deliver d)) hsend
    have hafter : ((s.watchers i).deliver d).load config = 0 := Watcher.load_of_none rfl
    dsimp only at hsent
    omega
  · have hset := Daemon.load_setWatcher (s := s) i (s.watchers i).finish
    have hafter : (s.watchers i).finish.load config = 0 := rfl
    omega

/-- **Whatever gets on leaves less to do.** -/
theorem Daemon.load_lt (h : s.Kept config chains) {action : DaemonAction config.chains.length}
    (hadvances : action.Advances s) (hstep : Daemon.step config word chains action s = .ok s') :
    s'.load config < s.load config := by
  cases action with
  | watch i input => exact hadvances.elim
  | deliver i => exact Daemon.load_deliver hstep
  | receive => exact Daemon.load_receive h hstep
  | timeout => exact Daemon.load_timeout h hadvances hstep
  | emit => exact Daemon.load_emit hstep
  | close => exact Daemon.load_close hstep
  | dispatch => exact Daemon.load_dispatchNext hstep

/-! ## Where it stops -/

/-- **When tasks are over**: the aggregator panics only where it can, it returns after the
watchers have and with nothing left, and these end with nothing to send. -/
structure Daemon.Ends (config : RelayerConfig) (s : Daemon config.chains.length) : Prop where
  panicked : s.stage = .panicked → FlushPanics config
  closed : s.stage = .closed → (∀ i, (s.watchers i).hasEnded = true) ∧ s.events.queue = []
    ∧ s.aggregator.batch = []
  ended : s.stage ≠ .panicked → ∀ i, (s.watchers i).hasEnded = true →
    (s.watchers i).outbox = none

theorem Daemon.ends_init : (Daemon.init config.chains.length).Ends config :=
  ⟨fun h => (nomatch h), fun h => (nomatch h), fun _ _ h => (nomatch h)⟩

/-- One that has ended learns nothing. -/
theorem Watcher.next_of_ended {chainConfig : ChainWatchConfig} {chain : Chain} {w : Watcher}
    (input : WatcherInput) (hended : w.hasEnded = true) :
    w.next chainConfig chain input = none := by
  unfold Watcher.next
  rw [stage_of_hasEnded hended]
  cases w.outbox with
  | none => rfl
  | some d => rfl

theorem Watcher.outbox_of_notice {chainConfig : ChainWatchConfig} {w : Watcher} {log : Log}
    {now : ℕ} (hout : w.outbox = none) (hstage : w.stage = .subscribed)
    (hended : (w.notice chainConfig log now).stage = .ended) :
    (w.notice chainConfig log now).outbox = none := by
  unfold Watcher.notice at hended ⊢
  dsimp only at hended ⊢
  split
  · exact hout
  · exact hout
  · rename_i event hparse
    rw [hparse] at hended
    dsimp only at hended
    split
    · exact hout
    · rename_i hpos
      rw [if_neg hpos] at hended
      exact nomatch hstage.symm.trans hended

theorem Watcher.outbox_of_scan {chainConfig : ChainWatchConfig} {w : Watcher}
    {last current : ℕ} {now : Log → ℕ} {log : Log} {pending : List Log} (hout : w.outbox = none)
    (hended : (w.scan chainConfig last current now log pending).stage = .ended) :
    (w.scan chainConfig last current now log pending).outbox = none := by
  unfold Watcher.scan at hended ⊢
  split
  · exact hout
  · exact hout
  · rename_i event hparse
    rw [hparse] at hended
    dsimp only at hended ⊢
    split
    · rename_i hconf
      rw [if_pos hconf] at hended
      cases hended
    · exact hout

/-- **A watcher that ends has nothing to send.** -/
theorem Watcher.outbox_of_next {chainConfig : ChainWatchConfig} {chain : Chain} {w w' : Watcher}
    {input : WatcherInput} (h : w.next chainConfig chain input = some w')
    (hended : w'.hasEnded = true) : w'.outbox = none := by
  have hstage := stage_of_hasEnded hended
  unfold Watcher.next at h
  split at h
  case h_4 hout hsub =>
    obtain rfl := Option.some.inj h
    exact outbox_of_notice hout hsub hstage
  case h_6 hout _ =>
    split at h
    · obtain rfl := Option.some.inj h
      cases hstage
    · exact Option.some.inj h ▸ hout
  case h_7 hout _ =>
    split at h
    · exact Option.some.inj h ▸ hout
    · split at h
      · exact Option.some.inj h ▸ hout
      · split at h <;> exact Option.some.inj h ▸ hout
  case h_10 hout _ =>
    obtain rfl := Option.some.inj h
    exact outbox_of_scan hout hstage
  case h_11 => cases h
  all_goals
    rename_i hout _
    exact Option.some.inj h ▸ hout

/-- **A round that fails is one that panics.** -/
theorem flushPanics_of_aggregate {a : AggregatorState} {input : Input}
    (hcalls : a.commands = a.calls.flatMap (eventCommands config)) (hbatch : a.Batches config)
    (h : aggregate config word a input = none) : FlushPanics config := by
  by_contra hsafe
  have hkept : Kept config (a.calls ++ a.batch) a := ⟨rfl, hcalls⟩
  obtain ⟨a', ha', -⟩ := aggregate_kept word hsafe hkept hbatch input
  cases h.symm.trans ha'

theorem flushPanics_of_shutDown {a : AggregatorState}
    (hcalls : a.commands = a.calls.flatMap (eventCommands config)) (hbatch : a.Batches config)
    (h : shutDown config word a = none) : FlushPanics config := by
  by_contra hsafe
  unfold shutDown at h
  split at h
  · cases h
  · rename_i hne
    have hbatching : config.metadataResistance.batchingEnabled = true := by
      by_contra hoff
      exact hne (List.isEmpty_iff.mpr (hbatch (Bool.eq_false_of_not_eq_true hoff)))
    have hkept : Kept config (a.calls ++ a.batch) a := ⟨rfl, hcalls⟩
    obtain ⟨a', ha', -⟩ := flushBatch_kept word (pos_of_not_flushPanics hsafe hbatching) hkept
    cases h.symm.trans ha'

theorem Daemon.Ends.setWatcher (h : s.Ends config) {i : Fin config.chains.length} {w : Watcher}
    (hopen : s.stage ≠ .closed) (hw : w.hasEnded = true → s.stage ≠ .panicked → w.outbox = none) :
    (s.setWatcher i w).Ends config := by
  refine ⟨h.panicked, fun hclosed => absurd hclosed hopen, fun hstage => ?_⟩
  exact (Function.forall_update_iff s.watchers
    (fun _ w => w.hasEnded = true → w.outbox = none)).mpr
      ⟨fun hended => hw hended hstage, fun j _ => h.ended hstage j⟩

/-- **A round that is not the last.** -/
theorem Daemon.Ends.afterRound (h : s.Ends config) {round : Option AggregatorState}
    (hnone : round = none → FlushPanics config) (hstage : s.stage = .running) :
    (s.afterRound .running round).Ends config := by
  have hended : ∀ i, (s.watchers i).hasEnded = true → (s.watchers i).outbox = none :=
    h.ended (fun hpanicked => nomatch hstage.symm.trans hpanicked)
  cases round with
  | none => exact ⟨fun _ => hnone rfl, fun hclosed => (nomatch hclosed), fun _ => hended⟩
  | some a =>
    exact ⟨fun hpanicked => (nomatch hpanicked), fun hclosed => (nomatch hclosed),
      fun _ => hended⟩

/-- **Every step keeps it.** -/
theorem Daemon.Ends.step {action : DaemonAction config.chains.length} (hkept : s.Kept config chains)
    (h : s.Ends config) (hstep : Daemon.step config word chains action s = .ok s') :
    s'.Ends config := by
  cases action with
  | watch i input =>
    obtain ⟨w, hnext, rfl⟩ := Daemon.watch_eq_ok hstep
    refine h.setWatcher (fun hclosed => ?_) (fun hended _ => Watcher.outbox_of_next hnext hended)
    -- nobody learns anything after the end
    rw [Watcher.next_of_ended input ((h.closed hclosed).1 i)] at hnext
    cases hnext
  | deliver i =>
    obtain ⟨d, hout, hrunning, hcases⟩ := Daemon.deliver_eq_ok hstep
    have hopen : s.stage ≠ .closed := fun hclosed =>
      Bool.noConfusion (hrunning.symm.trans ((h.closed hclosed).1 i))
    rcases hcases with ⟨-, events, -, rfl⟩ | ⟨hgone, rfl⟩
    · have hset := h.setWatcher (i := i) (w := (s.watchers i).deliver d) hopen (fun _ _ => rfl)
      exact ⟨hset.panicked, fun hclosed => absurd hclosed hopen, hset.ended⟩
    · refine h.setWatcher hopen (fun _ hsafe => ?_)
      cases hstage : s.stage with
      | running => exact absurd hstage hgone
      | closed => exact absurd hstage hopen
      | panicked => exact absurd hstage hsafe
  | receive =>
    obtain ⟨hrunning, -, p, events, -, rfl⟩ := Daemon.receive_eq_ok hstep
    have hends : (s.setEvents events).Ends config :=
      ⟨h.panicked, fun hclosed => (nomatch hrunning.symm.trans hclosed), h.ended⟩
    exact hends.afterRound (flushPanics_of_aggregate hkept.calls hkept.batch) hrunning
  | timeout =>
    obtain ⟨hrunning, -, -, rfl⟩ := Daemon.timeout_eq_ok hstep
    exact h.afterRound (flushPanics_of_aggregate hkept.calls hkept.batch) hrunning
  | emit =>
    obtain ⟨c, outbox, commands, -, -, rfl⟩ := Daemon.emit_eq_ok hstep
    exact ⟨h.panicked, h.closed, h.ended⟩
  | close =>
    obtain ⟨hrunning, -, hqueue, hwatchers, rfl⟩ := Daemon.close_eq_ok hstep
    have hended := h.ended (AggregatorStage.ne_panicked hrunning)
    cases hround : shutDown config word s.aggregator with
    | none =>
      exact ⟨fun _ => flushPanics_of_shutDown hkept.calls hkept.batch hround,
        fun hclosed => (nomatch hclosed), fun _ => hended⟩
    | some a =>
      exact ⟨fun hpanicked => (nomatch hpanicked),
        fun _ => ⟨hwatchers, hqueue, (shutDown_of_eq_some hround).2⟩, fun _ => hended⟩
  | dispatch =>
    obtain ⟨c, commands, -, rfl⟩ := Daemon.dispatchNext_eq_ok hstep
    exact ⟨h.panicked, h.closed, h.ended⟩

/-! ## Where nothing gets on -/

/-- **Nothing gets on.** -/
abbrev Daemon.Stuck (config : RelayerConfig) (word : ℕ → ℕ)
    (chains : Fin config.chains.length → Chain) : Daemon config.chains.length → Prop :=
  Run.Stuck (Daemon.step config word chains) (fun s action => action.Advances s)

/-- **Everything got through**: the watchers' events were received, and all their commands
dispatched. The aggregator has returned if the watchers have. -/
structure Daemon.Drained (config : RelayerConfig) (s : Daemon config.chains.length) : Prop where
  received : s.events.queue = []
  sent : ∀ i, s.events.sentBy i = (s.watchers i).handed
  dispatched : s.commands.received
    = s.events.received.flatMap (fun p => eventCommands config p.2.event)
  closed : (∀ i, (s.watchers i).hasEnded = true) → s.stage = .closed

/-- The dispatcher waits for commands, … -/
theorem Daemon.Stuck.commands (h : s.Stuck config word chains) : s.commands.queue = [] := by
  cases hrecv : s.commands.recv with
  | none => exact Channel.queue_of_recv hrecv
  | some p =>
    have hstep : s.dispatchNext = .ok { s with commands := p.2 } := by
      unfold Daemon.dispatchNext
      rw [hrecv]
    exact absurd hstep (h .dispatch _ trivial)

/-- … the aggregator for none, since then there is room for its own, … -/
theorem Daemon.Stuck.outbox (h : s.Stuck config word chains) : s.outbox = [] := by
  cases hout : s.outbox with
  | nil => rfl
  | cons c outbox =>
    cases hsend : s.commands.send CHANNEL_CAPACITY c with
    | none =>
      have hfull := Channel.le_length_of_send hsend
      rw [h.commands] at hfull
      exact absurd hfull (Nat.not_succ_le_zero 255)
    | some commands =>
      have hstep : s.emit = .ok { s with commands := commands, outbox := outbox } := by
        unfold Daemon.emit
        rw [hout]
        dsimp only
        rw [hsend]
      exact absurd hstep (h .emit _ trivial)

/-- … but for events, … -/
theorem Daemon.Stuck.events (h : s.Stuck config word chains) (hstage : s.stage = .running) :
    s.events.queue = [] := by
  cases hrecv : s.events.recv with
  | none => exact Channel.queue_of_recv hrecv
  | some p =>
    have hstep : s.receive config word = .ok ((s.setEvents p.2).afterRound .running
        (aggregate config word s.aggregator (.recv p.1.2.event))) := by
      unfold Daemon.receive
      rw [if_pos ⟨hstage, h.outbox⟩, hrecv]
    exact absurd hstep (h .receive _ trivial)

/-- … with no batch to flush, … -/
theorem Daemon.Stuck.batch (h : s.Stuck config word chains) (hkept : s.Kept config chains)
    (hstage : s.stage = .running) : s.aggregator.batch = [] := by
  by_contra hbatch
  have hbatching : config.metadataResistance.batchingEnabled = true := by
    by_contra hoff
    exact hbatch (hkept.batch (Bool.eq_false_of_not_eq_true hoff))
  have hstep : s.timeout config word
      = .ok (s.afterRound .running (aggregate config word s.aggregator .timeout)) := by
    unfold Daemon.timeout
    rw [if_pos ⟨hstage, h.outbox, hbatching⟩]
  exact h .timeout _ hbatch hstep

/-- … and a watcher for nobody. -/
theorem Daemon.Stuck.watcher (h : s.Stuck config word chains) (hstage : s.stage = .running)
    {i : Fin config.chains.length} (hrunning : (s.watchers i).hasEnded = false) :
    (s.watchers i).outbox = none := by
  cases hout : (s.watchers i).outbox with
  | none => rfl
  | some d =>
    cases hsend : s.events.send CHANNEL_CAPACITY (i, d) with
    | none =>
      have hfull := Channel.le_length_of_send hsend
      rw [h.events hstage] at hfull
      exact absurd hfull (Nat.not_succ_le_zero 255)
    | some events =>
      have hstep : s.deliver i
          = .ok ((s.setWatcher i ((s.watchers i).deliver d)).setEvents events) := by
        unfold Daemon.deliver
        dsimp only
        split
        · rename_i hended
          unfold Watcher.hasEnded at hrunning
          rw [hended] at hrunning
          cases hrunning
        · rename_i hnone _
          exact nomatch hnone.symm.trans hout
        · rename_i d' hout' _
          obtain rfl := Option.some.inj (hout'.symm.trans hout)
          rw [if_pos hstage, hsend]
      exact absurd hstep (h (.deliver i) _ trivial)

/-- **Where nothing gets on, everything got through.** -/
theorem Daemon.Stuck.drained (h : s.Stuck config word chains) (hkept : s.Kept config chains)
    (hends : s.Ends config) (hsafe : s.stage ≠ .panicked) : s.Drained config := by
  have hidle : s.events.queue = [] ∧ s.aggregator.batch = []
      ∧ (∀ i, (s.watchers i).outbox = none)
      ∧ ((∀ i, (s.watchers i).hasEnded = true) → s.stage = .closed) := by
    cases hstage : s.stage with
    | running =>
      refine ⟨h.events hstage, h.batch hkept hstage, fun i => ?_, fun hall => ?_⟩
      · cases hended : (s.watchers i).hasEnded with
        | false => exact h.watcher hstage hended
        | true => exact hends.ended hsafe i hended
      · have hstep : s.close config word
            = .ok (s.afterRound .closed (shutDown config word s.aggregator)) := by
          unfold Daemon.close
          rw [if_pos ⟨hstage, h.outbox, h.events hstage, hall⟩]
        exact absurd hstep (h .close _ trivial)
    | closed =>
      obtain ⟨hended, hqueue, hbatch⟩ := hends.closed hstage
      exact ⟨hqueue, hbatch, fun i => hends.ended hsafe i (hended i), fun _ => rfl⟩
    | panicked => exact absurd hstage hsafe
  obtain ⟨hqueue, hbatch, hout, hclosed⟩ := hidle
  refine ⟨hqueue, fun i => ?_, ?_, hclosed⟩
  · rw [hkept.sent, Watcher.handed, hout]
    exact (List.append_nil _).symm
  · have hcommands := hkept.commands
    rw [Channel.history, h.commands, h.outbox, List.append_nil, List.append_nil, hkept.calls]
      at hcommands
    have hcalls := hkept.all hsafe
    rw [hbatch, List.append_nil] at hcalls
    rw [hcommands, hcalls, eventsOf, List.flatMap_map]

/-! ## The daemon drains -/

theorem Daemon.ends_of_run
    {tr : List (Daemon config.chains.length × DaemonAction config.chains.length)}
    (h : DaemonRun config word chains tr s) : s.Ends config := by
  refine (h.invariant (I := fun _ s => s.Kept config chains ∧ s.Ends config)
    ⟨Daemon.kept_init, Daemon.ends_init⟩ ?_).2
  intro _ s action s' hs _ hstep
  exact ⟨hs.1.step hstep, hs.2.step hs.1 hstep⟩

theorem Daemon.watchers_afterRound {stage : AggregatorStage} {round : Option AggregatorState} :
    (s.afterRound stage round).watchers = s.watchers := by
  cases round <;> rfl

/-- **To get on is not to learn**: the watchers have handed on what they had. -/
theorem Daemon.handed_of_advances {action : DaemonAction config.chains.length}
    (hadvances : action.Advances s) (hstep : Daemon.step config word chains action s = .ok s') :
    ∀ i, (s'.watchers i).handed = (s.watchers i).handed := by
  cases action with
  | watch i input => exact hadvances.elim
  | deliver i =>
    obtain ⟨d, hout, -, ⟨-, events, -, rfl⟩ | ⟨-, rfl⟩⟩ := Daemon.deliver_eq_ok hstep
    · refine (Function.forall_update_iff s.watchers
        (fun j w => w.handed = (s.watchers j).handed)).mpr ⟨?_, fun _ _ => rfl⟩
      rw [Watcher.handed, Watcher.handed, hout]
      exact List.append_nil _
    · exact (Function.forall_update_iff s.watchers
        (fun j w => w.handed = (s.watchers j).handed)).mpr ⟨rfl, fun _ _ => rfl⟩
  | receive =>
    obtain ⟨-, -, p, events, -, rfl⟩ := Daemon.receive_eq_ok hstep
    exact fun i => by rw [Daemon.watchers_afterRound]; rfl
  | timeout =>
    obtain ⟨-, -, -, rfl⟩ := Daemon.timeout_eq_ok hstep
    exact fun i => by rw [Daemon.watchers_afterRound]
  | emit =>
    obtain ⟨c, outbox, commands, -, -, rfl⟩ := Daemon.emit_eq_ok hstep
    exact fun _ => rfl
  | close =>
    obtain ⟨-, -, -, -, rfl⟩ := Daemon.close_eq_ok hstep
    exact fun i => by rw [Daemon.watchers_afterRound]
  | dispatch =>
    obtain ⟨c, commands, -, rfl⟩ := Daemon.dispatchNext_eq_ok hstep
    exact fun _ => rfl

/-- **The daemon drains.** From any state of any run it can go on, without the watchers
learning more, until nothing gets on; it cannot go on for longer than there is to do; and
where nothing gets on, all that the watchers had handed on is dispatched. -/
theorem drains_of_run (hsafe : ¬ FlushPanics config)
    {tr : List (Daemon config.chains.length × DaemonAction config.chains.length)}
    (h : DaemonRun config word chains tr s) :
    (∃ tr' s', Advance config word chains s tr' s' ∧ s'.Stuck config word chains)
      ∧ ∀ tr' s', Advance config word chains s tr' s' →
        tr'.length ≤ s.load config
          ∧ (s'.Stuck config word chains → s'.Drained config
            ∧ ∀ i, (s'.watchers i).handed = (s.watchers i).handed) := by
  let I : Daemon config.chains.length → Prop := fun t => t.Kept config chains ∧ t.Ends config
    ∧ ∀ i, (t.watchers i).handed = (s.watchers i).handed
  have h₀ : I s := ⟨Daemon.kept_of_run h, Daemon.ends_of_run h, fun _ => rfl⟩
  have hlt : ∀ t action t', I t → action.Advances t →
      Daemon.step config word chains action t = .ok t' →
        I t' ∧ t'.load config < t.load config := by
    rintro t action t' ⟨hkept, hends, hhanded⟩ hadvances hstep
    refine ⟨⟨hkept.step hstep, hends.step hkept hstep, fun i => ?_⟩,
      Daemon.load_lt hkept hadvances hstep⟩
    rw [Daemon.handed_of_advances hadvances hstep, hhanded]
  refine ⟨Run.exists_stuck hlt h₀, fun tr' s' hrun => ?_⟩
  obtain ⟨⟨hkept, hends, hhanded⟩, hlength⟩ := Run.length_add_le hlt h₀ hrun
  refine ⟨(Nat.le_add_right _ _).trans hlength, fun hstuck => ⟨?_, hhanded⟩⟩
  exact hstuck.drained hkept hends (fun hpanicked => hsafe (hends.panicked hpanicked))

/-- **An epoch that was found gets through**, whoever goes first. -/
theorem drains_of_epoch :
    ∃ tr s, DaemonRun twoChains (fun _ => 0) (fun _ => chain11) tr s
      ∧ s.commands.received = []
      ∧ ∃ tr' s', Advance twoChains (fun _ => 0) (fun _ => chain11) s tr' s' ∧ tr'.length ≤ 8
        ∧ s'.Drained twoChains ∧ (s'.events.sentBy firstChain).map Delivery.event = [event11] := by
  obtain ⟨s, hs, hnone, hload, hhanded⟩ : ∃ s, (relayOne.take 3).foldlM
      (fun s c => Daemon.step twoChains (fun _ => 0) (fun _ => chain11) c s) (.init _) = .ok s
        ∧ s.commands.received = [] ∧ s.load twoChains = 8
        ∧ (s.watchers firstChain).handed.map Delivery.event = [event11] :=
    ⟨_, rfl, rfl, by decide +kernel, by decide +kernel⟩
  obtain ⟨tr, hrun, -⟩ := Run.exists_of_foldlM (fun _ _ => trivial) hs
  have hsafe : ¬ FlushPanics twoChains := fun h => Bool.noConfusion h.1
  obtain ⟨⟨tr', s', hadvance, hstuck⟩, hall⟩ := drains_of_run hsafe hrun
  obtain ⟨hlength, hend⟩ := hall tr' s' hadvance
  obtain ⟨hdrained, hsame⟩ := hend hstuck
  refine ⟨tr, s, hrun, hnone, tr', s', hadvance, hload ▸ hlength, hdrained, ?_⟩
  rw [hdrained.sent, hsame, hhanded]

end Relayer
