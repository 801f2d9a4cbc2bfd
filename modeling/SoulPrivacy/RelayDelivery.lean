import SoulPrivacy.Exhaustion
import SoulPrivacy.RelayWatcher

/-!
# What the daemon delivers

The watchers, the aggregator and the dispatcher take their steps in any order, so at any
time some events and some commands are on their way. What is where can be said by the
channels: an event that was sent is in the history of the one, and the commands of those
that were relayed are the history of the other, with those that wait.

So each command that was dispatched is of an event, in the place that this event has among
those of its watcher, and all commands of an event are dispatched in a row
(`faithful_of_run`). This holds whether or not the aggregator panics. What it loses then is
what it had received last.
-/

namespace Relayer

variable {config : RelayerConfig} {word : ℕ → ℕ}

/-! ## A round of the aggregator -/

/-- **A round relays some events**: their calls and their commands are new. -/
structure RelaysFrom (config : RelayerConfig) (s s' : AggregatorState)
    (flushed : List EpochEvent) : Prop where
  calls : s'.calls = s.calls ++ flushed
  commands : s'.commands = s.commands ++ flushed.flatMap (eventCommands config)

theorem flushEvent_of_eq_some {s s' : AggregatorState} {event : EpochEvent}
    (h : flushEvent config word s event = some s') : s' = dispatchEvent config event s := by
  unfold flushEvent at h
  split at h
  · unfold sleepJitter randJitter at h
    split at h
    · cases h
    · exact (Option.some.inj h).symm
  · exact (Option.some.inj h).symm

theorem foldlM_flushEvent_of_eq_some {batch : List EpochEvent} {s s' : AggregatorState}
    (h : batch.foldlM (flushEvent config word) s = some s') :
    s' = batch.foldl (fun s event => dispatchEvent config event s) s := by
  induction batch generalizing s with
  | nil => exact (Option.some.inj h).symm
  | cons event batch ih =>
    rw [List.foldlM_cons] at h
    obtain ⟨mid, hmid, hrest⟩ := Option.bind_eq_some_iff.mp h
    rw [List.foldl_cons, ← flushEvent_of_eq_some hmid]
    exact ih hrest

/-- **A flush** relays the batch. -/
theorem flushBatch_of_eq_some {s s' : AggregatorState}
    (h : flushBatch config word s = some s') :
    RelaysFrom config s s' s.batch ∧ s'.batch = [] := by
  obtain ⟨mid, hmid, hend⟩ := Option.bind_eq_some_iff.mp h
  obtain rfl := foldlM_flushEvent_of_eq_some hmid
  obtain rfl := Option.some.inj hend
  rw [foldl_dispatchEvent]
  exact ⟨⟨rfl, rfl⟩, rfl⟩

theorem relayNow_of_eq_some {s s' : AggregatorState} {event : EpochEvent}
    (h : relayNow config word s event = some s') :
    RelaysFrom config s s' [event] ∧ s'.batch = s.batch := by
  rw [relayNow_eq_some] at h
  obtain rfl := Option.some.inj h
  refine ⟨⟨rfl, ?_⟩, rfl⟩
  rw [List.flatMap_singleton]
  rfl

/-- Without batches there is no batch. -/
def AggregatorState.Batches (config : RelayerConfig) (s : AggregatorState) : Prop :=
  config.metadataResistance.batchingEnabled = false → s.batch = []

/-- **What a round does**: it relays the first of the events it has, and the rest is the
batch. -/
theorem aggregate_of_eq_some {s s' : AggregatorState} {input : Input}
    (hbatch : s.Batches config) (h : aggregate config word s input = some s') :
    ∃ flushed, RelaysFrom config s s' flushed ∧ flushed ++ s'.batch = s.batch ++ received [input]
      ∧ s'.Batches config := by
  cases input with
  | recv event =>
    have hone : received [Input.recv event] = [event] := rfl
    rw [hone]
    rw [aggregate] at h
    split at h
    · split at h
      · obtain ⟨hrelays, hempty⟩ := flushBatch_of_eq_some h
        refine ⟨s.batch ++ [event], ⟨hrelays.calls, hrelays.commands⟩, ?_, fun _ => hempty⟩
        rw [hempty, List.append_nil]
      · rename_i hbatching _
        obtain rfl := Option.some.inj h
        exact ⟨[], ⟨(List.append_nil _).symm, (List.append_nil _).symm⟩, rfl,
          fun hoff => absurd (hbatching.symm.trans hoff) Bool.noConfusion⟩
    · rename_i hbatching
      have hnil := hbatch (Bool.eq_false_of_not_eq_true hbatching)
      obtain ⟨hrelays, hsame⟩ := relayNow_of_eq_some h
      refine ⟨[event], hrelays, ?_, fun _ => hsame.trans hnil⟩
      rw [hsame, hnil]
      rfl
  | timeout =>
    have hnone : received [Input.timeout] = [] := rfl
    rw [hnone, List.append_nil]
    rw [aggregate] at h
    split at h
    · obtain ⟨hrelays, hempty⟩ := flushBatch_of_eq_some h
      refine ⟨s.batch, hrelays, ?_, fun _ => hempty⟩
      rw [hempty, List.append_nil]
    · obtain rfl := Option.some.inj h
      exact ⟨[], ⟨(List.append_nil _).symm, (List.append_nil _).symm⟩, rfl, hbatch⟩

/-- **The last round** leaves no batch. -/
theorem shutDown_of_eq_some {s s' : AggregatorState} (h : shutDown config word s = some s') :
    RelaysFrom config s s' s.batch ∧ s'.batch = [] := by
  unfold shutDown at h
  split at h
  · rename_i hnil
    obtain rfl := Option.some.inj h
    have hnil := List.isEmpty_iff.mp hnil
    rw [hnil]
    exact ⟨⟨(List.append_nil _).symm, (List.append_nil _).symm⟩, rfl⟩
  · exact flushBatch_of_eq_some h

variable {chains : Fin config.chains.length → Chain} {s s' : Daemon config.chains.length}

/-! ## What a step does -/

theorem Daemon.watch_eq_ok {i : Fin config.chains.length} {input : WatcherInput}
    (h : Daemon.step config word chains (.watch i input) s = .ok s') :
    ∃ w, (s.watchers i).next (config.chains.get i) (chains i) input = some w
      ∧ s' = s.setWatcher i w := by
  unfold Daemon.step at h
  dsimp only at h
  split at h
  · cases h
  · rename_i w hnext
    exact ⟨w, hnext, (Except.ok.inj h).symm⟩

theorem Watcher.stage_of_hasEnded {w : Watcher} (h : w.hasEnded = true) : w.stage = .ended := by
  unfold Watcher.hasEnded at h
  split at h
  · rename_i hstage
    exact hstage
  · cases h

/-- A watcher that has not returned sends, or it finds the receiver gone. -/
theorem Daemon.deliver_eq_ok {i : Fin config.chains.length} (h : s.deliver i = .ok s') :
    ∃ d, (s.watchers i).outbox = some d ∧ (s.watchers i).hasEnded = false
      ∧ ((s.stage = .running ∧ ∃ events, s.events.send CHANNEL_CAPACITY (i, d) = some events
          ∧ s' = (s.setWatcher i ((s.watchers i).deliver d)).setEvents events)
        ∨ (s.stage ≠ .running ∧ s' = s.setWatcher i (s.watchers i).finish)) := by
  unfold Daemon.deliver at h
  dsimp only at h
  split at h
  · cases h
  · cases h
  · rename_i d hout hrunning
    refine ⟨d, hout, ?_, ?_⟩
    · exact Bool.eq_false_of_not_eq_true
        (fun hended => hrunning (Watcher.stage_of_hasEnded hended))
    · split at h
      · rename_i hstage
        split at h
        · cases h
        · rename_i events hsend
          exact Or.inl ⟨hstage, events, hsend, (Except.ok.inj h).symm⟩
      · rename_i hgone
        exact Or.inr ⟨hgone, (Except.ok.inj h).symm⟩

theorem Daemon.receive_eq_ok (h : s.receive config word = .ok s') :
    s.stage = .running ∧ s.outbox = [] ∧ ∃ p events, s.events.recv = some (p, events)
      ∧ s' = (s.setEvents events).afterRound .running
        (aggregate config word s.aggregator (.recv p.2.event)) := by
  unfold Daemon.receive at h
  split at h
  · rename_i hready
    split at h
    · cases h
    · rename_i i d events hrecv
      exact ⟨hready.1, hready.2, (i, d), events, hrecv, (Except.ok.inj h).symm⟩
  · cases h

theorem Daemon.timeout_eq_ok (h : s.timeout config word = .ok s') :
    s.stage = .running ∧ s.outbox = [] ∧ config.metadataResistance.batchingEnabled = true
      ∧ s' = s.afterRound .running (aggregate config word s.aggregator .timeout) := by
  unfold Daemon.timeout at h
  split at h
  · rename_i hready
    exact ⟨hready.1, hready.2.1, hready.2.2, (Except.ok.inj h).symm⟩
  · cases h

theorem Daemon.emit_eq_ok (h : s.emit = .ok s') :
    ∃ c outbox commands, s.outbox = c :: outbox
      ∧ s.commands.send CHANNEL_CAPACITY c = some commands
      ∧ s' = { s with commands := commands, outbox := outbox } := by
  unfold Daemon.emit at h
  split at h
  · cases h
  · rename_i c outbox hout
    split at h
    · cases h
    · rename_i commands hsend
      exact ⟨c, outbox, commands, hout, hsend, (Except.ok.inj h).symm⟩

theorem Daemon.close_eq_ok (h : s.close config word = .ok s') :
    s.stage = .running ∧ s.outbox = [] ∧ s.events.queue = []
      ∧ (∀ i, (s.watchers i).hasEnded = true)
      ∧ s' = s.afterRound .closed (shutDown config word s.aggregator) := by
  unfold Daemon.close at h
  split at h
  · rename_i hready
    exact ⟨hready.1, hready.2.1, hready.2.2.1, hready.2.2.2, (Except.ok.inj h).symm⟩
  · cases h

theorem Daemon.dispatchNext_eq_ok (h : s.dispatchNext = .ok s') :
    ∃ c commands, s.commands.recv = some (c, commands) ∧ s' = { s with commands := commands } := by
  unfold Daemon.dispatchNext at h
  split at h
  · cases h
  · rename_i c commands hrecv
    exact ⟨c, commands, hrecv, (Except.ok.inj h).symm⟩

/-! ## What is kept -/

/-- The events among what was sent. -/
def eventsOf {n : ℕ} (sent : List (Fin n × Delivery)) : List EpochEvent :=
  sent.map (fun p => p.2.event)

/-- **What is kept of the channels**: a watcher's events are what it sent, and the commands
are those of the events that were relayed. -/
structure Daemon.Carries (config : RelayerConfig) (chains : Fin config.chains.length → Chain)
    (s : Daemon config.chains.length) : Prop where
  watchers : ∀ i, (s.watchers i).Kept (config.chains.get i) (chains i)
  sent : ∀ i, s.events.sentBy i = (s.watchers i).sent
  commands : s.commands.history ++ s.outbox = s.aggregator.commands
  calls : s.aggregator.commands = s.aggregator.calls.flatMap (eventCommands config)
  batch : s.aggregator.Batches config
  eventsRoom : s.events.queue.length ≤ CHANNEL_CAPACITY
  commandsRoom : s.commands.queue.length ≤ CHANNEL_CAPACITY

/-- **… and of what was received**: it was relayed or is in the batch, unless the aggregator
panicked. -/
structure Daemon.Kept (config : RelayerConfig) (chains : Fin config.chains.length → Chain)
    (s : Daemon config.chains.length) : Prop extends s.Carries config chains where
  relayed : s.aggregator.calls ++ s.aggregator.batch <+: eventsOf s.events.received
  all : s.stage ≠ .panicked →
    s.aggregator.calls ++ s.aggregator.batch = eventsOf s.events.received

theorem Daemon.kept_init : (Daemon.init config.chains.length).Kept config chains where
  watchers _ := Watcher.kept_init
  sent _ := rfl
  commands := rfl
  calls := rfl
  batch _ := rfl
  eventsRoom := Nat.zero_le _
  commandsRoom := Nat.zero_le _
  relayed := List.prefix_rfl
  all _ := rfl

/-- A watcher changes in what it keeps. -/
theorem Daemon.Carries.setWatcher (h : s.Carries config chains) {i : Fin config.chains.length}
    {w : Watcher} (hw : w.Kept (config.chains.get i) (chains i))
    (hsent : w.sent = (s.watchers i).sent) : (s.setWatcher i w).Carries config chains := by
  refine ⟨?_, ?_, h.commands, h.calls, h.batch, h.eventsRoom, h.commandsRoom⟩
  · exact (Function.forall_update_iff s.watchers
      (fun j w => w.Kept (config.chains.get j) (chains j))).mpr ⟨hw, fun j _ => h.watchers j⟩
  · exact (Function.forall_update_iff s.watchers (fun j w => s.events.sentBy j = w.sent)).mpr
      ⟨(h.sent i).trans hsent.symm, fun j _ => h.sent j⟩

/-- **A watcher sends**, or finds the receiver gone. -/
theorem Daemon.Kept.deliver (h : s.Kept config chains) {i : Fin config.chains.length}
    (hstep : s.deliver i = .ok s') : s'.Kept config chains := by
  obtain ⟨d, hout, -, ⟨-, events, hsend, rfl⟩ | ⟨-, rfl⟩⟩ := Daemon.deliver_eq_ok hstep
  · have hreceived := Channel.received_send hsend
    refine ⟨⟨?_, ?_, h.commands, h.calls, h.batch, Channel.length_send_le hsend,
      h.commandsRoom⟩, ?_, ?_⟩
    · exact (Function.forall_update_iff s.watchers
        (fun j w => w.Kept (config.chains.get j) (chains j))).mpr
          ⟨Watcher.kept_sent hout (h.watchers i), fun j _ => h.watchers j⟩
    · refine (Function.forall_update_iff s.watchers
        (fun j w => events.sentBy j = w.sent)).mpr ⟨?_, fun j hj => ?_⟩
      · rw [Channel.sentBy_send_self hsend, h.sent]
        rfl
      · rw [Channel.sentBy_send_of_ne hj.symm hsend, h.sent]
    · show s.aggregator.calls ++ s.aggregator.batch <+: eventsOf events.received
      rw [hreceived]
      exact h.relayed
    · intro hstage
      show s.aggregator.calls ++ s.aggregator.batch = eventsOf events.received
      rw [hreceived]
      exact h.all hstage
  · exact ⟨h.setWatcher (Watcher.kept_ended (h.watchers i)) rfl, h.relayed, h.all⟩

/-- **A round of the aggregator**, with what it has just received. -/
theorem Daemon.Carries.afterRound (h : s.Carries config chains) (hout : s.outbox = [])
    (new : List EpochEvent) {stage : AggregatorStage} {round : Option AggregatorState}
    (hreceived : s.aggregator.calls ++ s.aggregator.batch ++ new = eventsOf s.events.received)
    (hround : ∀ a, round = some a → ∃ flushed, RelaysFrom config s.aggregator a flushed
      ∧ flushed ++ a.batch = s.aggregator.batch ++ new ∧ a.Batches config) :
    (s.afterRound stage round).Kept config chains := by
  cases round with
  | none =>
    refine ⟨⟨h.watchers, h.sent, h.commands, h.calls, h.batch, h.eventsRoom, h.commandsRoom⟩,
      ?_, fun hstage => absurd rfl hstage⟩
    show s.aggregator.calls ++ s.aggregator.batch <+: eventsOf s.events.received
    rw [← hreceived]
    exact List.prefix_append _ _
  | some a =>
    obtain ⟨flushed, hrelays, hsplit, hbatch⟩ := hround a rfl
    have hall : a.calls ++ a.batch = eventsOf s.events.received := by
      rw [hrelays.calls, List.append_assoc, hsplit, ← List.append_assoc, hreceived]
    refine ⟨⟨h.watchers, h.sent, ?_, ?_, hbatch, h.eventsRoom, h.commandsRoom⟩,
      hall ▸ List.prefix_rfl, fun _ => hall⟩
    · show s.commands.history ++ a.commands.drop s.aggregator.commands.length = a.commands
      have hhistory := h.commands
      rw [hout, List.append_nil] at hhistory
      rw [hrelays.commands, List.drop_left, hhistory]
    · show a.commands = a.calls.flatMap (eventCommands config)
      rw [hrelays.commands, hrelays.calls, List.flatMap_append, h.calls]

theorem eventsOf_recv {n : ℕ} {events events' : Channel (Fin n × Delivery)}
    {p : Fin n × Delivery} (h : events.recv = some (p, events')) :
    eventsOf events'.received = eventsOf events.received ++ [p.2.event] := by
  rw [Channel.received_recv h, eventsOf, List.map_append]
  rfl

/-- What is received is no longer queued. -/
theorem Daemon.Carries.recv (h : s.Carries config chains) {p : Fin config.chains.length × Delivery}
    {events : Channel (Fin config.chains.length × Delivery)}
    (hrecv : s.events.recv = some (p, events)) :
    (s.setEvents events).Carries config chains := by
  refine ⟨h.watchers, fun i => ?_, h.commands, h.calls, h.batch, ?_, h.commandsRoom⟩
  · show events.sentBy i = (s.watchers i).sent
    rw [Channel.sentBy_recv hrecv, h.sent]
  · have hroom := h.eventsRoom
    rw [Channel.length_recv hrecv] at hroom
    exact (Nat.le_succ _).trans hroom

/-- An aggregator that runs has not panicked. -/
theorem AggregatorStage.ne_panicked {stage : AggregatorStage} (h : stage = .running) :
    stage ≠ .panicked := by
  rw [h]
  exact AggregatorStage.noConfusion

theorem Daemon.Kept.receive (h : s.Kept config chains) (hstep : s.receive config word = .ok s') :
    s'.Kept config chains := by
  obtain ⟨hrunning, hout, p, events, hrecv, rfl⟩ := Daemon.receive_eq_ok hstep
  refine (h.toCarries.recv hrecv).afterRound hout [p.2.event] ?_
    (fun a ha => aggregate_of_eq_some h.batch ha)
  show s.aggregator.calls ++ s.aggregator.batch ++ [p.2.event] = eventsOf events.received
  rw [h.all (AggregatorStage.ne_panicked hrunning), eventsOf_recv hrecv]

theorem Daemon.Kept.timeout (h : s.Kept config chains) (hstep : s.timeout config word = .ok s') :
    s'.Kept config chains := by
  obtain ⟨hrunning, hout, -, rfl⟩ := Daemon.timeout_eq_ok hstep
  refine h.toCarries.afterRound hout [] ?_
    (fun a ha => aggregate_of_eq_some h.batch ha)
  rw [List.append_nil, h.all (AggregatorStage.ne_panicked hrunning)]

theorem Daemon.Kept.close (h : s.Kept config chains) (hstep : s.close config word = .ok s') :
    s'.Kept config chains := by
  obtain ⟨hrunning, hout, -, -, rfl⟩ := Daemon.close_eq_ok hstep
  refine h.toCarries.afterRound hout [] ?_ (fun a ha => ?_)
  · rw [List.append_nil, h.all (AggregatorStage.ne_panicked hrunning)]
  · obtain ⟨hrelays, hempty⟩ := shutDown_of_eq_some ha
    exact ⟨s.aggregator.batch, hrelays, by rw [hempty], fun _ => hempty⟩

/-- **A command that waits is sent.** -/
theorem Daemon.Kept.emit (h : s.Kept config chains) (hstep : s.emit = .ok s') :
    s'.Kept config chains := by
  obtain ⟨c, outbox, commands, hout, hsend, rfl⟩ := Daemon.emit_eq_ok hstep
  refine ⟨⟨h.watchers, h.sent, ?_, h.calls, h.batch, h.eventsRoom,
    Channel.length_send_le hsend⟩, h.relayed, h.all⟩
  show commands.history ++ outbox = s.aggregator.commands
  rw [Channel.history_send hsend, List.append_assoc, List.singleton_append, ← hout, h.commands]

/-- **A command is dispatched.** -/
theorem Daemon.Kept.dispatchNext (h : s.Kept config chains) (hstep : s.dispatchNext = .ok s') :
    s'.Kept config chains := by
  obtain ⟨c, commands, hrecv, rfl⟩ := Daemon.dispatchNext_eq_ok hstep
  refine ⟨⟨h.watchers, h.sent, ?_, h.calls, h.batch, h.eventsRoom, ?_⟩, h.relayed, h.all⟩
  · show commands.history ++ s.outbox = s.aggregator.commands
    rw [Channel.history_recv hrecv, h.commands]
  · have hroom := h.commandsRoom
    rw [Channel.length_recv hrecv] at hroom
    exact (Nat.le_succ _).trans hroom

/-- **Every step keeps it.** -/
theorem Daemon.Kept.step {action : DaemonAction config.chains.length} (h : s.Kept config chains)
    (hstep : Daemon.step config word chains action s = .ok s') : s'.Kept config chains := by
  cases action with
  | watch i input =>
    obtain ⟨w, hnext, rfl⟩ := Daemon.watch_eq_ok hstep
    exact ⟨h.toCarries.setWatcher (Watcher.kept_next hnext (h.watchers i))
      (Watcher.sent_next hnext), h.relayed, h.all⟩
  | deliver i => exact h.deliver hstep
  | receive => exact h.receive hstep
  | timeout => exact h.timeout hstep
  | emit => exact h.emit hstep
  | close => exact h.close hstep
  | dispatch => exact h.dispatchNext hstep

/-- **… and so every run.** -/
theorem Daemon.kept_of_run
    {tr : List (Daemon config.chains.length × DaemonAction config.chains.length)}
    (h : DaemonRun config word chains tr s) : s.Kept config chains := by
  refine h.invariant (I := fun _ s => s.Kept config chains) Daemon.kept_init ?_
  intro _ s action s' hs _ hstep
  exact hs.step hstep

/-! ## Commands that are dispatched -/

/-- A chain is found by its number, if no other has it. -/
theorem findChain_of_mem (hids : (config.chains.map ChainWatchConfig.chainId).Nodup)
    {chain : ChainWatchConfig} (hmem : chain ∈ config.chains) :
    findChain config chain.chainId = some chain := by
  have hsome : (findChain config chain.chainId).isSome :=
    List.find?_isSome.mpr ⟨chain, hmem, beq_self_eq_true _⟩
  obtain ⟨found, hfound⟩ := Option.isSome_iff_exists.mp hsome
  have hid : found.chainId = chain.chainId :=
    eq_of_beq (List.find?_some (p := fun c : ChainWatchConfig => c.chainId == chain.chainId) hfound)
  rw [hfound, List.inj_on_of_nodup_map hids (List.mem_of_find?_eq_some hfound) hmem hid]

/-- **The aggregator asks only for what can be dispatched.** -/
theorem exists_dispatch (parseAddress : String → Option Address)
    (hids : (config.chains.map ChainWatchConfig.chainId).Nodup) {event : EpochEvent}
    {c : RelayCommand} (hc : c ∈ eventCommands config event) :
    ∃ tx, dispatch parseAddress config c = .ok tx := by
  rcases List.mem_cons.mp hc with rfl | hc
  · exact ⟨_, rfl⟩
  · obtain ⟨chain, hchain, rfl⟩ := List.mem_map.mp hc
    obtain ⟨hmem, hcond⟩ := List.mem_filter.mp hchain
    obtain ⟨bridge, hbridge⟩ := Option.isSome_iff_exists.mp (Bool.and_eq_true_iff.mp hcond).2
    unfold dispatch sendToChain
    dsimp only
    rw [findChain_of_mem hids hmem]
    dsimp only
    rw [hbridge]
    exact ⟨_, rfl⟩

/-! ## The account -/

/-- **What the daemon delivers**, at any time. -/
structure Daemon.Faithful (parseAddress : String → Option Address) (config : RelayerConfig)
    (chains : Fin config.chains.length → Chain) (s : Daemon config.chains.length) : Prop where
  /-- The watchers hand on confirmed logs of their chains, in order. -/
  watchers : ∀ i, (s.watchers i).Accounted (config.chains.get i) (chains i)
  /-- What a watcher sent was received or is queued, in its order, and nothing else is. -/
  sent : ∀ i, s.events.sentBy i = (s.watchers i).sent
  /-- What was dispatched, is queued or waits are the commands of the first events that were
  received, each event's in a row. -/
  dispatched : ∃ relayed, relayed <+: s.events.received
    ∧ s.commands.history ++ s.outbox = relayed.flatMap (fun p => eventCommands config p.2.event)
  /-- The dispatcher finds the chain and the adapter of each, if the chains are told apart. -/
  addressed : (config.chains.map ChainWatchConfig.chainId).Nodup →
    ∀ c ∈ s.commands.received, ∃ tx, dispatch parseAddress config c = .ok tx
  /-- The channels are not overfull. -/
  eventsRoom : s.events.queue.length ≤ CHANNEL_CAPACITY
  commandsRoom : s.commands.queue.length ≤ CHANNEL_CAPACITY

/-- The commands are those of the events that were received first. -/
theorem Daemon.Kept.dispatched (h : s.Kept config chains) :
    ∃ relayed, relayed <+: s.events.received
      ∧ s.commands.history ++ s.outbox
        = relayed.flatMap (fun p => eventCommands config p.2.event) := by
  have hprefix : s.aggregator.calls <+: eventsOf s.events.received :=
    (List.prefix_append _ _).trans h.relayed
  obtain ⟨relayed, hrelayed, hcalls⟩ := List.prefix_map_iff.mp hprefix
  refine ⟨relayed, hrelayed, ?_⟩
  rw [h.commands, h.calls, hcalls, List.flatMap_map]

/-- **The daemon delivers faithfully**, in whatever order its tasks take their steps. -/
theorem faithful_of_run (parseAddress : String → Option Address)
    {tr : List (Daemon config.chains.length × DaemonAction config.chains.length)}
    (h : DaemonRun config word chains tr s) : s.Faithful parseAddress config chains := by
  have hkept := Daemon.kept_of_run h
  refine ⟨fun i => (hkept.watchers i).accounted, hkept.sent, hkept.dispatched,
    fun hids c hc => ?_, hkept.eventsRoom, hkept.commandsRoom⟩
  have hmem : c ∈ s.aggregator.calls.flatMap (eventCommands config) := by
    rw [← hkept.calls, ← hkept.commands]
    exact List.mem_append_left _ (List.mem_append_left _ hc)
  obtain ⟨event, -, hevent⟩ := List.mem_flatMap.mp hmem
  exact exists_dispatch parseAddress hids hevent

/-- Two chains, without batches: an epoch of the first is for the second as well. -/
def twoChains : RelayerConfig :=
  ⟨[config11, ⟨2, "other", "", some "adapter", 0⟩], ⟨"registry"⟩, ⟨false, 0, false, 1⟩⟩

/-- The first of them. -/
def firstChain : Fin twoChains.chains.length := ⟨0, by decide⟩

/-- Its watcher finds the log in the first round. -/
def relayOne : List (DaemonAction twoChains.chains.length) :=
  [.watch firstChain (.fallBack 10), .watch firstChain (.poll (some 13) true fun _ => 0),
    .watch firstChain .scan, .deliver firstChain, .receive, .emit, .emit, .dispatch, .dispatch]

/-- **An epoch is dispatched** to the registry and to the other chain. -/
theorem faithful_of_epoch :
    ∃ tr s, DaemonRun twoChains (fun _ => 0) (fun _ => chain11) tr s
      ∧ s.commands.received = [.submitToRegistry 1 5 0 7, .sendToChain 2 1 5 0]
      ∧ (∀ c ∈ s.commands.received, ∃ tx, dispatch (fun _ => none) twoChains c = .ok tx)
      ∧ ((s.watchers firstChain).handed.map Delivery.log).Nodup := by
  obtain ⟨s, hs, hcommands, hstart⟩ : ∃ s, relayOne.foldlM
      (fun s c => Daemon.step twoChains (fun _ => 0) (fun _ => chain11) c s) (.init _) = .ok s
        ∧ s.commands.received = [.submitToRegistry 1 5 0 7, .sendToChain 2 1 5 0]
        ∧ (s.watchers firstChain).start = some 10 := ⟨_, rfl, by decide +kernel, rfl⟩
  obtain ⟨tr, hrun, -⟩ := Run.exists_of_foldlM (fun _ _ => trivial) hs
  have hfaithful := faithful_of_run (fun _ => none) hrun
  exact ⟨tr, s, hrun, hcommands, hfaithful.addressed (by decide),
    (hfaithful.watchers firstChain).once 10 hstart⟩

end Relayer
