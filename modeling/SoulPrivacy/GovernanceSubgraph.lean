import SoulPrivacy.Subgraph
import SoulPrivacy.TimelockDiscipline

/-!
# The subgraph of the timelock (`subgraph/src/governance.ts`)

The indexer has one entity for each hash that was queued. Its status is what the
last event about the hash says, and the times are those of the blocks of the
events. An entity that is saved is merged into the one that is there under the
same identifier: a field that was not set stays. So a transaction that is queued
again keeps the time of its cancellation.

The events of a call are in the block of the call, and the event behind the call
of a target is in that of the execution (`timed`).
-/

namespace GovernanceSubgraph

open GovernanceTimelock (Transaction Event Entry Storage Deployment Receipt Trace)
open Subgraph (Meta)

/-- The values of `status`. -/
inductive Status where
  | queued
  | executed
  | cancelled
  deriving DecidableEq

/-- `TimelockTransaction`. -/
structure TimelockTransaction extends Transaction where
  txHash : Bytes32
  status : Status
  queuedAt : ℕ
  executedAt : Option ℕ
  cancelledAt : Option ℕ
  blockNumber : ℕ
  transactionHash : Bytes32

/-- **The store**, by the hash of the transaction. -/
abbrev Store := Bytes32 → Option TimelockTransaction

/-- `handleTransactionQueued`. The times of an execution and of a cancellation
are not set, so they stay. -/
def handleTransactionQueued (m : Meta) (txHash : Bytes32) (tx : Transaction) (s : Store) :
    Store :=
  let found := s txHash
  Function.update s txHash (some
    { tx with
      txHash
      status := .queued
      queuedAt := m.blockTimestamp
      executedAt := found.bind (·.executedAt)
      cancelledAt := found.bind (·.cancelledAt)
      blockNumber := m.blockNumber
      transactionHash := m.transactionHash })

/-- `handleTransactionExecuted`. -/
def handleTransactionExecuted (m : Meta) (txHash : Bytes32) (s : Store) : Store :=
  match s txHash with
  | none => s
  | some entity =>
    Function.update s txHash
      (some { entity with status := .executed, executedAt := some m.blockTimestamp })

/-- `handleTransactionCancelled`. -/
def handleTransactionCancelled (m : Meta) (txHash : Bytes32) (s : Store) : Store :=
  match s txHash with
  | none => s
  | some entity =>
    Function.update s txHash
      (some { entity with status := .cancelled, cancelledAt := some m.blockTimestamp })

/-- **The handlers of the manifest.** Other events have none. -/
def handle (m : Meta) : Event → Store → Store
  | .transactionQueued txHash tx => handleTransactionQueued m txHash tx
  | .transactionExecuted txHash _ _ _ => handleTransactionExecuted m txHash
  | .transactionCancelled txHash => handleTransactionCancelled m txHash
  | .delayUpdated .. => id
  | .adminTransferInitiated .. => id
  | .adminTransferred .. => id

/-- **The store after some events.** -/
def index (log : List (Meta × Event)) : Store :=
  log.foldl (fun s e => handle e.1 e.2 s) (fun _ => none)

theorem index_append (log log' : List (Meta × Event)) :
    index (log ++ log') = log'.foldl (fun s e => handle e.1 e.2 s) (index log) :=
  List.foldl_append

/-! ## The events of a trace -/

/-- What a receipt adds to the events, and the time of the last call. -/
def timedBy (p : ℕ × List (ℕ × Event)) : Receipt → ℕ × List (ℕ × Event)
  | .entered c events =>
    (c.msg.timestamp.toNat, p.2 ++ events.map (fun e => (c.msg.timestamp.toNat, e)))
  | .resumed _ events => (p.1, p.2 ++ events.map (fun e => (p.1, e)))

/-- **The events of a trace**, each with the time of its block. -/
def timed (trace : Trace) : List (ℕ × Event) := (trace.foldl timedBy (0, [])).2

/-- The time of the last call. -/
def lastTime (trace : Trace) : ℕ := (trace.foldl timedBy (0, [])).1

theorem timed_entered (trace : Trace) (c : SelfCall.Call Entry) (events : List Event) :
    timed (trace ++ [.entered c events])
      = timed trace ++ events.map (fun e => (c.msg.timestamp.toNat, e)) := by
  unfold timed
  rw [List.foldl_append]
  rfl

theorem timed_resumed (trace : Trace) (k : SelfCall.Cont Transaction) (events : List Event) :
    timed (trace ++ [.resumed k events])
      = timed trace ++ events.map (fun e => (lastTime trace, e)) := by
  unfold timed lastTime
  rw [List.foldl_append]
  rfl

theorem lastTime_entered (trace : Trace) (c : SelfCall.Call Entry) (events : List Event) :
    lastTime (trace ++ [.entered c events]) = c.msg.timestamp.toNat := by
  unfold lastTime
  rw [List.foldl_append]
  rfl

theorem lastTime_resumed (trace : Trace) (k : SelfCall.Cont Transaction) (events : List Event) :
    lastTime (trace ++ [.resumed k events]) = lastTime trace := by
  unfold lastTime
  rw [List.foldl_append]
  rfl

/-- The time and the event of an entry of a log. -/
def stamp (e : Meta × Event) : ℕ × Event := (e.1.blockTimestamp, e.2)

/-- **A log of a trace**: its events, in blocks of their times. -/
def IsLogOf (log : List (Meta × Event)) (trace : Trace) : Prop := log.map stamp = timed trace

/-- One event of a log. -/
theorem exists_of_map_eq_singleton {log : List (Meta × Event)} {time : ℕ} {event : Event}
    (h : log.map stamp = [(time, event)]) :
    ∃ m : Meta, m.blockTimestamp = time ∧ log = [(m, event)] := by
  obtain ⟨⟨m, event'⟩, rfl, heq⟩ := List.map_eq_singleton_iff.mp h
  cases heq
  exact ⟨m, rfl, rfl⟩

/-! ## The events of a call -/

/-- What a call tells the indexer. -/
def announced (d : Deployment) : Entry → List Event
  | .queueTransaction tx => [.transactionQueued (d.hash tx) tx]
  | .cancelTransaction tx => [.transactionCancelled (d.hash tx)]
  | _ => []

/-- An event that the indexer has a handler for. -/
def isHandled : Event → Bool
  | .transactionQueued .. => true
  | .transactionExecuted .. => true
  | .transactionCancelled .. => true
  | _ => false

section Inversion

open GovernanceTimelock (nonPayable_eq_ok Outcome)
open SelfCall (Msg Outgoing)

variable {d : Deployment} {msg : Msg} {s s' : Storage} {events : List Event}
  {out : Option (Outgoing Transaction)}

theorem queueTransaction_events {tx : Transaction}
    (h : GovernanceTimelock.queueTransaction d.keccak256 msg s tx = .ok (s', events, out)) :
    events = [.transactionQueued (d.hash tx) tx] := by
  unfold GovernanceTimelock.queueTransaction at h
  obtain ⟨-, h⟩ := (Except.unit_bind_eq_ok _ _ _).mp h
  obtain ⟨earliest, -, h⟩ := (Except.bind_eq_ok _ _ _).mp h
  obtain ⟨-, h⟩ := (revertIf_bind_eq_ok _ _ _ _).mp h
  obtain ⟨-, h⟩ := (revertIf_bind_eq_ok _ _ _ _).mp h
  cases h
  rfl

theorem executeTransaction_events {tx : Transaction}
    (h : GovernanceTimelock.executeTransaction d.keccak256 msg s tx = .ok (s', events, out)) :
    events = [] := by
  unfold GovernanceTimelock.executeTransaction at h
  obtain ⟨-, h⟩ := (Except.unit_bind_eq_ok _ _ _).mp h
  obtain ⟨-, h⟩ := (revertIf_bind_eq_ok _ _ _ _).mp h
  obtain ⟨-, h⟩ := (revertIf_bind_eq_ok _ _ _ _).mp h
  obtain ⟨-, h⟩ := (revertIf_bind_eq_ok _ _ _ _).mp h
  obtain ⟨-, h⟩ := (revertIf_bind_eq_ok _ _ _ _).mp h
  obtain ⟨latest, -, h⟩ := (Except.bind_eq_ok _ _ _).mp h
  obtain ⟨-, h⟩ := (revertIf_bind_eq_ok _ _ _ _).mp h
  cases h
  rfl

theorem cancelTransaction_events {tx : Transaction}
    (h : GovernanceTimelock.cancelTransaction d.keccak256 msg s tx = .ok (s', events, out)) :
    events = [.transactionCancelled (d.hash tx)] := by
  unfold GovernanceTimelock.cancelTransaction at h
  obtain ⟨-, h⟩ := (Except.unit_bind_eq_ok _ _ _).mp h
  obtain ⟨-, h⟩ := (revertIf_bind_eq_ok _ _ _ _).mp h
  cases h
  rfl

/-- **The events of a call** that have a handler. -/
theorem enter_events {entry : Entry}
    (h : GovernanceTimelock.enter d msg entry s = .ok (s', events, out)) :
    events.filter isHandled = announced d entry := by
  cases entry with
  | queueTransaction tx =>
    rw [queueTransaction_events (nonPayable_eq_ok h)]
    rfl
  | executeTransaction tx =>
    rw [executeTransaction_events (nonPayable_eq_ok h)]
    rfl
  | cancelTransaction tx =>
    rw [cancelTransaction_events (nonPayable_eq_ok h)]
    rfl
  | setPendingAdmin pendingAdmin =>
    obtain ⟨-, h⟩ := (Except.unit_bind_eq_ok _ _ _).mp (nonPayable_eq_ok h)
    cases h
    rfl
  | acceptAdmin =>
    obtain ⟨-, h⟩ := (revertIf_bind_eq_ok _ _ _ _).mp (nonPayable_eq_ok h)
    cases h
    rfl
  | setDelay delay =>
    obtain ⟨-, h⟩ := (Except.unit_bind_eq_ok _ _ _).mp (nonPayable_eq_ok h)
    obtain ⟨-, h⟩ := (Except.unit_bind_eq_ok _ _ _).mp h
    cases h
    rfl
  | receive =>
    cases h
    rfl

end Inversion

/-- Events without a handler change nothing. -/
theorem foldl_handle_filter (log : List (Meta × Event)) (store : Store) :
    log.foldl (fun s e => handle e.1 e.2 s) store
      = (log.filter (fun e => isHandled e.2)).foldl (fun s e => handle e.1 e.2 s) store := by
  induction log generalizing store with
  | nil => rfl
  | cons e log ih =>
    obtain ⟨m, event⟩ := e
    rw [List.foldl_cons, ih]
    cases event <;> rfl

/-- **What a call does to the store**, at a time. -/
inductive Announces (d : Deployment) (time : ℕ) (store : Store) : Entry → Store → Prop
  | queueTransaction (tx : Transaction) (m : Meta) (at_time : m.blockTimestamp = time) :
      Announces d time store (.queueTransaction tx)
        (handleTransactionQueued m (d.hash tx) tx store)
  | cancelTransaction (tx : Transaction) (m : Meta) (at_time : m.blockTimestamp = time) :
      Announces d time store (.cancelTransaction tx)
        (handleTransactionCancelled m (d.hash tx) store)
  | nothing (entry : Entry) (none : announced d entry = []) : Announces d time store entry store

/-- **The handlers follow a call.** -/
theorem announces_of_enter {d : Deployment} {msg : SelfCall.Msg} {entry : Entry}
    {s s' : Storage} {events : List Event} {out : Option (SelfCall.Outgoing Transaction)}
    (h : GovernanceTimelock.enter d msg entry s = .ok (s', events, out))
    {log : List (Meta × Event)} {time : ℕ}
    (hlog : log.map stamp = events.map (fun e => (time, e))) (store : Store) :
    Announces d time store entry (log.foldl (fun s e => handle e.1 e.2 s) store) := by
  have hhandled : (log.filter (fun e => isHandled e.2)).map stamp
      = (announced d entry).map (fun e => (time, e)) := by
    have hfilter : (log.map stamp).filter (fun e => isHandled e.2)
        = (events.map (fun e => (time, e))).filter (fun e => isHandled e.2) :=
      congrArg _ hlog
    rw [List.filter_map, List.filter_map] at hfilter
    exact hfilter.trans (congrArg _ (enter_events h))
  rw [foldl_handle_filter]
  cases entry with
  | queueTransaction tx =>
    obtain ⟨m, hm, heq⟩ := exists_of_map_eq_singleton hhandled
    rw [heq]
    exact .queueTransaction tx m hm
  | cancelTransaction tx =>
    obtain ⟨m, hm, heq⟩ := exists_of_map_eq_singleton hhandled
    rw [heq]
    exact .cancelTransaction tx m hm
  | executeTransaction | setPendingAdmin | acceptAdmin | setDelay | receive =>
    rw [List.map_eq_nil_iff.mp hhandled]
    exact .nothing _ rfl

end GovernanceSubgraph
