import SoulPrivacy.Channel
import SoulPrivacy.Dispatcher
import SoulPrivacy.EpochWatcher

/-!
# The daemon of the relayer (`run_relayer`)

One task for each chain, one for the aggregator, and the dispatcher: they run as the
scheduler likes and meet in two channels. A task gives way at each `await`, so a step is
what one of them does from one `await` to the next. A watcher that has an event for the
aggregator waits until there is room for it (`Watcher.outbox`), and so does the aggregator
with its commands (`Daemon.outbox`), which are those of a round of its loop, in their order.

A watcher subscribes to its chain; where it cannot, it polls, from the block it found then.
What the providers answer, and when, is not known, and neither is when the timer of a batch
runs out. The delays that the aggregator draws are a parameter (`word`), and only whether
there are any matters.

The channel of the events is closed when the last watcher has ended. The aggregator then
relays what is left, and the daemon ends with its last command.
-/

namespace Relayer

/-! ## A watcher -/

/-- **Where a watcher is**: before it knows whether it can subscribe; waiting for a log of
the subscription; for the confirmations of one; for the next round; at the logs of a
round. -/
inductive WatcherStage where
  | starting
  | subscribed
  | confirming (log : Log) (event : EpochEvent)
  | polling (lastBlock : ℕ)
  | scanning (lastBlock current : ℕ) (now : Log → ℕ) (pending : List Log)
  | ended

/-- A watcher, with the event that waits for room in the channel, the block it polls from,
the logs that the subscription gave it, and what it sent. -/
structure Watcher where
  stage : WatcherStage
  outbox : Option Delivery
  start : Option ℕ
  noticed : List Log
  sent : List Delivery

/-- The watcher of a chain that was just spawned. -/
def Watcher.init : Watcher := ⟨.starting, none, none, [], []⟩

/-- What a watcher has made of its logs: what it sent, and what waits. -/
def Watcher.handed (w : Watcher) : List Delivery := w.sent ++ w.outbox.toList

/-- Its event is sent. -/
def Watcher.deliver (w : Watcher) (d : Delivery) : Watcher :=
  { w with outbox := none, sent := w.sent ++ [d] }

/-- It returns, or panics. -/
def Watcher.finish (w : Watcher) : Watcher := { w with stage := .ended }

/-- What a watcher learns. -/
inductive WatcherInput where
  | subscribe
  | fallBack (blockNumber : ℕ)
  | notice (log : Log) (now : ℕ)
  | answer (blockNumber : ℕ)
  | poll (blockNumber : Option ℕ) (logsAnswered : Bool) (now : Log → ℕ)
  | scan
  | stop

/-- A log of the subscription: it may have to wait for its confirmations. -/
def Watcher.notice (config : ChainWatchConfig) (w : Watcher) (log : Log) (now : ℕ) : Watcher :=
  let w := { w with noticed := w.noticed ++ [log] }
  match parseEpochFinalizedLog config now log with
  | .error .panic => w.finish
  | .error (.err _) => w
  | .ok event =>
    if 0 < config.confirmationBlocks then { w with stage := .confirming log event }
    else { w with outbox := some ⟨log, event, log.blockNumber.getD 0⟩ }

/-- A log of a round: it is sent, if it has its confirmations by then. -/
def Watcher.scan (config : ChainWatchConfig) (w : Watcher) (last current : ℕ) (now : Log → ℕ)
    (log : Log) (pending : List Log) : Watcher :=
  match parseEpochFinalizedLog config (now log) log with
  | .error .panic => w.finish
  | .error (.err _) => { w with stage := .scanning last current now pending }
  | .ok event =>
    let w := { w with stage := .scanning last current now pending }
    if config.confirmationBlocks ≤ current - log.blockNumber.getD 0 then
      { w with outbox := some ⟨log, event, current⟩ }
    else w

/-- **What a watcher does** when it learns something, if that is what it waits for. It ends
when the stream ends, when it cannot start, and when the address does not parse. -/
def Watcher.next (config : ChainWatchConfig) (chain : Chain) (w : Watcher)
    (input : WatcherInput) : Option Watcher :=
  match w.outbox, w.stage, input with
  | none, .starting, .subscribe => some { w with stage := .subscribed }
  | none, .starting, .fallBack b => some { w with stage := .polling b, start := some b }
  | none, .starting, .stop => some w.finish
  | none, .subscribed, .notice log now => some (w.notice config log now)
  | none, .subscribed, .stop => some w.finish
  | none, .confirming log event, .answer height =>
    if log.blockNumber.getD 0 + config.confirmationBlocks ≤ height then
      some { w with stage := .subscribed, outbox := some ⟨log, event, height⟩ }
    else some w
  | none, .polling last, .poll blockNumber logsAnswered now =>
    match blockNumber with
    | none => some w
    | some current =>
      if current ≤ last then some w
      else if logsAnswered then
        some { w with stage := .scanning last current now (chain.window last current) }
      else some { w with stage := .polling current }
  | none, .polling _, .stop => some w.finish
  | none, .scanning _ current _ [], .scan => some { w with stage := .polling current }
  | none, .scanning last current now (log :: pending), .scan =>
    some (w.scan config last current now log pending)
  | _, _, _ => none

/-! ## The daemon -/

/-- Where the aggregator is. -/
inductive AggregatorStage where
  | running
  | closed
  | panicked
  deriving DecidableEq

/-- **The daemon**: the watchers, the channel of their events, the aggregator with the
commands it has yet to send, and the channel of the commands. What was received from that
was dispatched. -/
structure Daemon (n : ℕ) where
  watchers : Fin n → Watcher
  events : Channel (Fin n × Delivery)
  stage : AggregatorStage
  aggregator : AggregatorState
  outbox : List RelayCommand
  commands : Channel RelayCommand

/-- The daemon when everything was spawned. -/
def Daemon.init (n : ℕ) : Daemon n :=
  ⟨fun _ => .init, .empty, .running, .init, [], .empty⟩

/-- `mpsc::channel(256)`. -/
def CHANNEL_CAPACITY : ℕ := 256

/-- **A step**: of a watcher, which learns something or sends; of the aggregator, which
receives, is woken by the timer, sends, or finds the channel closed; or of the
dispatcher. -/
inductive DaemonAction (n : ℕ) where
  | watch (i : Fin n) (input : WatcherInput)
  | deliver (i : Fin n)
  | receive
  | timeout
  | emit
  | close
  | dispatch

/-- The task waits, and cannot take this step now. -/
inductive Waits where
  | waits

variable {n : ℕ}

/-- A watcher after something. -/
def Daemon.setWatcher (s : Daemon n) (i : Fin n) (w : Watcher) : Daemon n :=
  { s with watchers := Function.update s.watchers i w }

/-- The channel of the events after something. -/
def Daemon.setEvents (s : Daemon n) (events : Channel (Fin n × Delivery)) : Daemon n :=
  { s with events := events }

/-- `event_tx.send`, which fails when the receiver is gone. -/
def Daemon.deliver (s : Daemon n) (i : Fin n) : Except Waits (Daemon n) :=
  let w := s.watchers i
  match w.stage, w.outbox with
  | .ended, _ => .error .waits
  | _, none => .error .waits
  | _, some d =>
    if s.stage = .running then
      match s.events.send CHANNEL_CAPACITY (i, d) with
      | none => .error .waits
      | some events => .ok ((s.setWatcher i (w.deliver d)).setEvents events)
    else .ok (s.setWatcher i w.finish)

/-- The aggregator after a round of its loop: the new commands are to be sent. A panic is
that of the task. -/
def Daemon.afterRound (s : Daemon n) (stage : AggregatorStage) :
    Option AggregatorState → Daemon n
  | none => { s with stage := .panicked }
  | some a =>
    { s with
      stage := stage
      aggregator := a
      outbox := a.commands.drop s.aggregator.commands.length }

variable (config : RelayerConfig) (word : ℕ → ℕ)

/-- **A round of the aggregator** that begins with an event. -/
def Daemon.receive (s : Daemon n) : Except Waits (Daemon n) :=
  if s.stage = .running ∧ s.outbox = [] then
    match s.events.recv with
    | none => .error .waits
    | some ((_, d), events) =>
      .ok ((s.setEvents events).afterRound .running
        (aggregate config word s.aggregator (.recv d.event)))
  else .error .waits

/-- **A round that begins with the timer.** There is one with batches only. -/
def Daemon.timeout (s : Daemon n) : Except Waits (Daemon n) :=
  if s.stage = .running ∧ s.outbox = [] ∧ config.metadataResistance.batchingEnabled = true then
    .ok (s.afterRound .running (aggregate config word s.aggregator .timeout))
  else .error .waits

/-- `cmd_tx.send`. -/
def Daemon.emit (s : Daemon n) : Except Waits (Daemon n) :=
  match s.outbox with
  | [] => .error .waits
  | c :: outbox =>
    match s.commands.send CHANNEL_CAPACITY c with
    | none => .error .waits
    | some commands => .ok { s with commands := commands, outbox := outbox }

/-- A watcher has returned. -/
def Watcher.hasEnded (w : Watcher) : Bool :=
  match w.stage with
  | .ended => true
  | _ => false

/-- **The last round**, when every watcher has ended and the queue is empty. -/
def Daemon.close (s : Daemon n) : Except Waits (Daemon n) :=
  if s.stage = .running ∧ s.outbox = [] ∧ s.events.queue = [] ∧ ∀ i, (s.watchers i).hasEnded = true
  then .ok (s.afterRound .closed (shutDown config word s.aggregator))
  else .error .waits

/-- The loop of `run_relayer`. A command that cannot be dispatched is counted and gone. -/
def Daemon.dispatchNext (s : Daemon n) : Except Waits (Daemon n) :=
  match s.commands.recv with
  | none => .error .waits
  | some (_, commands) => .ok { s with commands := commands }

/-- **A step of the daemon**, with a chain for each watcher. -/
def Daemon.step (chains : Fin config.chains.length → Chain) :
    DaemonAction config.chains.length → Daemon config.chains.length →
      Except Waits (Daemon config.chains.length)
  | .watch i input, s =>
    match (s.watchers i).next (config.chains.get i) (chains i) input with
    | none => .error .waits
    | some w => .ok (s.setWatcher i w)
  | .deliver i, s => s.deliver i
  | .receive, s => s.receive config word
  | .timeout, s => s.timeout config word
  | .emit, s => s.emit
  | .close, s => s.close config word
  | .dispatch, s => s.dispatchNext

/-- **The runs of the daemon**: its tasks take their steps in any order. -/
abbrev DaemonRun (chains : Fin config.chains.length → Chain) :
    List (Daemon config.chains.length × DaemonAction config.chains.length) →
      Daemon config.chains.length → Prop :=
  Run (Daemon.step config word chains) (fun _ _ => True) (.init config.chains.length)

end Relayer
