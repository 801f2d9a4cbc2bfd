import SoulPrivacy.Relayer

/-!
# The aggregator of the relayer (`relayer/src/aggregator.rs`)

The aggregator receives the events of the watchers and dispatches them, one
by one with a random delay, or as batches that are flushed when they are full,
when the timer runs out, and when the last watcher is gone. A run is the list
of what it waited for until then; the random numbers are a parameter (`word`),
and a panic is `none`.

What it has received is at any time what it has dispatched, in order, and then
its batch (`Kept`). So when it returns, it has relayed everything. It does not
return when the delays are drawn from an empty range: `rand_jitter` panics on
a maximum of zero, of which only the path without batches takes care
(`relaysAll_iff`).
-/

namespace Relayer

/-- What the loop waits for: an event, or the batch's timer. -/
inductive Input where
  | recv (event : EpochEvent)
  | timeout

/-- The state of `run_aggregator`, with the calls of `dispatch_event` it made
and the commands these sent. -/
structure AggregatorState where
  batch : List EpochEvent
  calls : List EpochEvent
  commands : List RelayCommand

/-- The state it starts from. -/
def AggregatorState.init : AggregatorState := ⟨[], [], []⟩

/-- `batch.push(ev)`. -/
def AggregatorState.push (s : AggregatorState) (event : EpochEvent) : AggregatorState :=
  { s with batch := s.batch ++ [event] }

/-- The commands for an event: one for the registry, and one for each other
chain with a bridge adapter. -/
def eventCommands (config : RelayerConfig) (event : EpochEvent) : List RelayCommand :=
  .submitToRegistry event.chainId event.epochId event.nullifierRoot event.nullifierCount
    :: (config.chains.filter (fun chain =>
        chain.chainId != event.chainId && chain.bridgeAdapterAddress.isSome)).map
      (fun chain => .sendToChain chain.chainId event.chainId event.epochId event.nullifierRoot)

/-- `dispatch_event`. -/
def dispatchEvent (config : RelayerConfig) (event : EpochEvent) (s : AggregatorState) :
    AggregatorState :=
  { s with calls := s.calls ++ [event], commands := s.commands ++ eventCommands config event }

/-- `rand_jitter`: `gen_range(0..max_ms)` panics on an empty range. -/
def randJitter (maxMs word : ℕ) : Option ℕ :=
  if maxMs = 0 then none else some (word % maxMs)

variable (config : RelayerConfig) (word : ℕ → ℕ)

/-- A delay, of which only remains that it was drawn. -/
def sleepJitter (s : AggregatorState) : Option AggregatorState := do
  let _jitter ← randJitter config.metadataResistance.maxJitterMs (word s.calls.length)
  some s

/-- The body of the loop of `flush_batch`. -/
def flushEvent (s : AggregatorState) (event : EpochEvent) : Option AggregatorState := do
  let s ← if config.metadataResistance.jitterEnabled then sleepJitter config word s else some s
  some (dispatchEvent config event s)

/-- `flush_batch`, and `batch.clear()`. -/
def flushBatch (s : AggregatorState) : Option AggregatorState := do
  let s ← s.batch.foldlM (flushEvent config word) s
  some { s with batch := [] }

/-- A received event, without batches. -/
def relayNow (s : AggregatorState) (event : EpochEvent) : Option AggregatorState := do
  let s ←
    if config.metadataResistance.jitterEnabled
        && decide (0 < config.metadataResistance.maxJitterMs) then
      sleepJitter config word s
    else some s
  some (dispatchEvent config event s)

/-- **A round of the loop of `run_aggregator`.** Without batches there is no timer. -/
def aggregate (s : AggregatorState) : Input → Option AggregatorState
  | .recv event =>
    if config.metadataResistance.batchingEnabled then
      if config.metadataResistance.batchSize ≤ (s.push event).batch.length then
        flushBatch config word (s.push event)
      else some (s.push event)
    else relayNow config word s event
  | .timeout =>
    if config.metadataResistance.batchingEnabled && !s.batch.isEmpty then
      flushBatch config word s
    else some s

/-- The last round, in which the channel is closed. -/
def shutDown (s : AggregatorState) : Option AggregatorState :=
  if s.batch.isEmpty then some s else flushBatch config word s

/-- **`run_aggregator`**: the rounds up to the closing of the channel. -/
def runAggregator (inputs : List Input) : Option AggregatorState := do
  let s ← inputs.foldlM (aggregate config word) .init
  shutDown config word s

/-- The events that were received. -/
def received (inputs : List Input) : List EpochEvent :=
  inputs.filterMap (fun input =>
    match input with
    | .recv event => some event
    | .timeout => none)

/-- **Every event is relayed once and in order**, and there is no panic. -/
def RelaysAll (inputs : List Input) : Prop :=
  ∃ s, runAggregator config word inputs = some s ∧ s.calls = received inputs
    ∧ s.commands = (received inputs).flatMap (eventCommands config)

/-- **The batches are flushed with delays from an empty range.** -/
def FlushPanics : Prop :=
  config.metadataResistance.batchingEnabled ∧ config.metadataResistance.jitterEnabled
    ∧ config.metadataResistance.maxJitterMs = 0

/-! ## What is kept -/

/-- **What was received** is what was dispatched and what is in the batch. -/
structure Kept (events : List EpochEvent) (s : AggregatorState) : Prop where
  events_eq : s.calls ++ s.batch = events
  commands_eq : s.commands = s.calls.flatMap (eventCommands config)

variable {config}

theorem sleepJitter_of_pos (hmax : 0 < config.metadataResistance.maxJitterMs)
    (s : AggregatorState) : sleepJitter config word s = some s := by
  unfold sleepJitter randJitter
  rw [if_neg hmax.ne']
  rfl

/-- An event of a batch is dispatched, unless the range of its delay is empty. -/
theorem flushEvent_eq_some (h : config.metadataResistance.jitterEnabled = true →
    0 < config.metadataResistance.maxJitterMs) (s : AggregatorState) (event : EpochEvent) :
    flushEvent config word s event = some (dispatchEvent config event s) := by
  unfold flushEvent
  split
  · rename_i hjitter
    rw [sleepJitter_of_pos word (h hjitter)]
    rfl
  · rfl

theorem foldlM_flushEvent (h : config.metadataResistance.jitterEnabled = true →
    0 < config.metadataResistance.maxJitterMs) (batch : List EpochEvent) (s : AggregatorState) :
    batch.foldlM (flushEvent config word) s
      = some (batch.foldl (fun s event => dispatchEvent config event s) s) := by
  induction batch generalizing s with
  | nil => rfl
  | cons event batch ih =>
    rw [List.foldlM_cons, flushEvent_eq_some word h]
    exact ih _

/-- Dispatched one after the other. -/
theorem foldl_dispatchEvent (batch : List EpochEvent) (s : AggregatorState) :
    batch.foldl (fun s event => dispatchEvent config event s) s
      = { s with
          calls := s.calls ++ batch
          commands := s.commands ++ batch.flatMap (eventCommands config) } := by
  induction batch generalizing s with
  | nil => simp
  | cons event batch ih =>
    rw [List.foldl_cons, ih]
    simp [dispatchEvent]

/-- **A flush** leaves nothing in the batch, and loses nothing. -/
theorem flushBatch_kept (h : config.metadataResistance.jitterEnabled = true →
    0 < config.metadataResistance.maxJitterMs) {events : List EpochEvent} {s : AggregatorState}
    (hs : Kept config events s) :
    ∃ s', flushBatch config word s = some s' ∧ Kept config events s' ∧ s'.batch = [] := by
  unfold flushBatch
  rw [foldlM_flushEvent word h, foldl_dispatchEvent]
  refine ⟨_, rfl, ⟨?_, ?_⟩, rfl⟩
  · show (s.calls ++ s.batch) ++ [] = events
    rw [List.append_nil, hs.events_eq]
  · show s.commands ++ s.batch.flatMap (eventCommands config)
      = (s.calls ++ s.batch).flatMap (eventCommands config)
    rw [List.flatMap_append, hs.commands_eq]

/-- An event that is relayed at once. -/
theorem relayNow_eq_some (s : AggregatorState) (event : EpochEvent) :
    relayNow config word s event = some (dispatchEvent config event s) := by
  unfold relayNow
  split
  · rename_i hjitter
    rw [sleepJitter_of_pos word (of_decide_eq_true (Bool.and_eq_true_iff.mp hjitter).2)]
    rfl
  · rfl

/-- Batches are flushed without panic. -/
theorem pos_of_not_flushPanics (h : ¬ FlushPanics config)
    (hbatching : config.metadataResistance.batchingEnabled = true)
    (hjitter : config.metadataResistance.jitterEnabled = true) :
    0 < config.metadataResistance.maxJitterMs :=
  Nat.pos_of_ne_zero (fun hzero => h ⟨hbatching, hjitter, hzero⟩)

/-- An event is put in the batch. -/
theorem Kept.push {events : List EpochEvent} {s : AggregatorState} (hs : Kept config events s)
    (event : EpochEvent) : Kept config (events ++ [event]) (s.push event) := by
  refine ⟨?_, hs.commands_eq⟩
  show s.calls ++ (s.batch ++ [event]) = events ++ [event]
  rw [← hs.events_eq, List.append_assoc]

/-- An event is dispatched at once. -/
theorem Kept.dispatchEvent {events : List EpochEvent} {s : AggregatorState}
    (hs : Kept config events s) (hempty : s.batch = []) (event : EpochEvent) :
    Kept config (events ++ [event]) (dispatchEvent config event s) := by
  constructor
  · show (s.calls ++ [event]) ++ s.batch = events ++ [event]
    rw [← hs.events_eq, hempty, List.append_nil, List.append_nil]
  · show s.commands ++ eventCommands config event
      = (s.calls ++ [event]).flatMap (eventCommands config)
    rw [List.flatMap_append, List.flatMap_singleton, hs.commands_eq]

/-- **A round keeps everything**, and without batches there is no batch. -/
theorem aggregate_kept (h : ¬ FlushPanics config) {events : List EpochEvent}
    {s : AggregatorState} (hs : Kept config events s)
    (hbatch : config.metadataResistance.batchingEnabled = false → s.batch = [])
    (input : Input) :
    ∃ s', aggregate config word s input = some s'
      ∧ Kept config (events ++ received [input]) s'
      ∧ (config.metadataResistance.batchingEnabled = false → s'.batch = []) := by
  cases input with
  | recv event =>
    have hone : received [Input.recv event] = [event] := rfl
    rw [hone, aggregate]
    split
    · rename_i hbatching
      have hno : ¬ config.metadataResistance.batchingEnabled = false := by
        rw [hbatching]
        exact Bool.noConfusion
      split
      · obtain ⟨s', hflush, hkept, hempty⟩ :=
          flushBatch_kept word (pos_of_not_flushPanics h hbatching) (hs.push event)
        exact ⟨s', hflush, hkept, fun _ => hempty⟩
      · exact ⟨_, rfl, hs.push event, fun hoff => absurd hoff hno⟩
    · rename_i hbatching
      have hempty := hbatch (Bool.eq_false_of_not_eq_true hbatching)
      exact ⟨_, relayNow_eq_some word s event, hs.dispatchEvent hempty event, hbatch⟩
  | timeout =>
    have hnone : received [Input.timeout] = [] := rfl
    rw [hnone, List.append_nil, aggregate]
    split
    · rename_i hflushes
      have hbatching := (Bool.and_eq_true_iff.mp hflushes).1
      obtain ⟨s', hflush, hkept, hempty⟩ :=
        flushBatch_kept word (pos_of_not_flushPanics h hbatching) hs
      exact ⟨s', hflush, hkept, fun _ => hempty⟩
    · exact ⟨s, rfl, hs, hbatch⟩

/-- **What a run keeps.** -/
theorem foldlM_aggregate_kept (h : ¬ FlushPanics config) (inputs : List Input)
    {events : List EpochEvent} {s : AggregatorState} (hs : Kept config events s)
    (hbatch : config.metadataResistance.batchingEnabled = false → s.batch = []) :
    ∃ s', inputs.foldlM (aggregate config word) s = some s'
      ∧ Kept config (events ++ received inputs) s'
      ∧ (config.metadataResistance.batchingEnabled = false → s'.batch = []) := by
  induction inputs generalizing events s with
  | nil => exact ⟨s, rfl, by rwa [received, List.filterMap_nil, List.append_nil], hbatch⟩
  | cons input inputs ih =>
    obtain ⟨mid, hmid, hkept, hempty⟩ := aggregate_kept word h hs hbatch input
    obtain ⟨s', hrest, hkept', hempty'⟩ := ih hkept hempty
    refine ⟨s', ?_, ?_, hempty'⟩
    · rw [List.foldlM_cons, hmid]
      exact hrest
    · have hsplit : received (input :: inputs) = received [input] ++ received inputs :=
        List.filterMap_append (l := [input])
      rwa [hsplit, ← List.append_assoc]

theorem kept_init : Kept config [] AggregatorState.init := ⟨rfl, rfl⟩

/-- **Without the panic everything is relayed.** -/
theorem relaysAll_of_not_flushPanics (h : ¬ FlushPanics config) (inputs : List Input) :
    RelaysAll config word inputs := by
  obtain ⟨s, hrun, hkept, hempty⟩ :=
    foldlM_aggregate_kept word h inputs kept_init (fun _ => rfl)
  rw [List.nil_append] at hkept
  -- what the closing leaves has no batch
  have hclose : ∃ s', shutDown config word s = some s' ∧ Kept config (received inputs) s'
      ∧ s'.batch = [] := by
    unfold shutDown
    split
    · rename_i hnil
      exact ⟨s, rfl, hkept, List.isEmpty_iff.mp hnil⟩
    · rename_i hne
      have hbatching : config.metadataResistance.batchingEnabled = true := by
        by_contra hoff
        exact hne (List.isEmpty_iff.mpr (hempty (Bool.eq_false_of_not_eq_true hoff)))
      exact flushBatch_kept word (pos_of_not_flushPanics h hbatching) hkept
  obtain ⟨s', hclosed, hkept', hnil⟩ := hclose
  have hcalls : s'.calls = received inputs := by
    rw [← hkept'.events_eq, hnil, List.append_nil]
  refine ⟨s', ?_, hcalls, by rw [hkept'.commands_eq, hcalls]⟩
  unfold runAggregator
  rw [hrun]
  exact hclosed

/-! ## The panic -/

/-- **A batch that is flushed with delays from an empty range panics.** -/
theorem flushBatch_eq_none (h : FlushPanics config) {s : AggregatorState}
    (hbatch : s.batch ≠ []) : flushBatch config word s = none := by
  obtain ⟨-, hjitter, hzero⟩ := h
  obtain ⟨event, batch, hcons⟩ := List.exists_cons_of_ne_nil hbatch
  have hflush : flushEvent config word s event = none := by
    unfold flushEvent sleepJitter randJitter
    rw [if_pos hjitter, if_pos hzero]
    rfl
  unfold flushBatch
  rw [hcons, List.foldlM_cons, hflush]
  rfl

/-- The run from any state panics when there is something to relay, now or later. -/
theorem run_eq_none (h : FlushPanics config) (inputs : List Input) {s : AggregatorState}
    (hsome : s.batch ≠ [] ∨ received inputs ≠ []) :
    (inputs.foldlM (aggregate config word) s).bind (shutDown config word) = none := by
  induction inputs generalizing s with
  | nil =>
    have hbatch : s.batch ≠ [] := hsome.resolve_right (fun hne => hne rfl)
    show shutDown config word s = none
    unfold shutDown
    rw [if_neg (fun hnil => hbatch (List.isEmpty_iff.mp hnil)), flushBatch_eq_none word h hbatch]
  | cons input inputs ih =>
    rw [List.foldlM_cons]
    cases input with
    | recv event =>
      have hpush : (s.push event).batch ≠ [] := List.append_ne_nil_of_right_ne_nil _ (by simp)
      rw [aggregate, if_pos h.1]
      split
      · rw [flushBatch_eq_none word h hpush]
        rfl
      · exact ih (Or.inl hpush)
    | timeout =>
      rw [aggregate]
      split
      · rename_i hflushes
        have hbatch : s.batch ≠ [] := by
          intro hnil
          rw [hnil, List.isEmpty_nil, Bool.not_true, Bool.and_false] at hflushes
          cases hflushes
        rw [flushBatch_eq_none word h hbatch]
        rfl
      · exact ih hsome

/-- With nothing received nothing happens. -/
theorem run_of_received_eq_nil (inputs : List Input) (hnil : received inputs = []) :
    runAggregator config word inputs = some .init := by
  have hfold : inputs.foldlM (aggregate config word) .init = some .init := by
    induction inputs with
    | nil => rfl
    | cons input inputs ih =>
      cases input with
      | recv event => cases hnil
      | timeout =>
        have hround : aggregate config word .init .timeout = some .init := by
          rw [aggregate, if_neg]
          show ¬ (config.metadataResistance.batchingEnabled && false) = true
          rw [Bool.and_false]
          exact Bool.noConfusion
        rw [List.foldlM_cons, hround]
        exact ih hnil
  unfold runAggregator
  rw [hfold]
  rfl

/-- **The aggregator relays every event, unless it flushes with delays from an empty
range**: with batches, delays and a maximum of zero it panics with the first batch. -/
theorem relaysAll_iff (config : RelayerConfig) (word : ℕ → ℕ) (inputs : List Input) :
    RelaysAll config word inputs ↔ ¬ FlushPanics config ∨ received inputs = [] := by
  constructor
  · rintro ⟨s, hrun, -, -⟩
    by_contra hneither
    obtain ⟨hpanics, hreceived⟩ := not_or.mp hneither
    have hnone := run_eq_none word (not_not.mp hpanics) inputs
      (s := AggregatorState.init) (Or.inr hreceived)
    cases hnone.symm.trans hrun
  · rintro (hsafe | hnil)
    · exact relaysAll_of_not_flushPanics word hsafe inputs
    · refine ⟨.init, run_of_received_eq_nil word inputs hnil, ?_, ?_⟩
      · rw [hnil]
        rfl
      · rw [hnil]
        rfl

/-- **A maximal delay of zero stops the relayer**: one event, in a batch of one. -/
theorem event_lost : ¬ ∀ (config : RelayerConfig) (word : ℕ → ℕ) (inputs : List Input),
    RelaysAll config word inputs := by
  intro hall
  obtain ⟨s, hrun, -⟩ := hall ⟨[], ⟨""⟩, ⟨true, 0, true, 1⟩⟩ (fun _ => 0)
    [.recv ⟨1, "chain", 5, 0, 7, 11, "", 0⟩]
  cases hrun

end Relayer
