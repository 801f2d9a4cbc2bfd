import Mathlib.Data.List.Basic

/-!
# Bounded channels

Several senders and one receiver share a queue with room for some messages. A sender waits
while it is full, and the receiver while it is empty. The channel keeps what was received,
so that what was ever sent is what was received and then what is queued (`history`): to send
adds to it, to receive does not change it, and messages neither overtake nor vanish.

Where a message says who sent it, what a sender has sent is a part of the history
(`sentBy`), in the sender's order.
-/

/-- A channel, with what was received from it. -/
structure Channel (α : Type) where
  received : List α
  queue : List α

namespace Channel

variable {α : Type} {capacity : ℕ} {c c' : Channel α} {a : α}

/-- Nothing was sent yet. -/
def empty : Channel α := ⟨[], []⟩

/-- What was ever sent. -/
def history (c : Channel α) : List α := c.received ++ c.queue

/-- **To send**, if there is room. -/
def send (capacity : ℕ) (a : α) (c : Channel α) : Option (Channel α) :=
  if c.queue.length < capacity then some { c with queue := c.queue ++ [a] } else none

/-- **To receive**, if there is something. -/
def recv (c : Channel α) : Option (α × Channel α) :=
  match c.queue with
  | [] => none
  | a :: queue => some (a, ⟨c.received ++ [a], queue⟩)

theorem send_eq_some : c.send capacity a = some c'
    ↔ c.queue.length < capacity ∧ c' = { c with queue := c.queue ++ [a] } := by
  rw [send, Option.ite_none_right_eq_some, Option.some_inj, eq_comm (a := c')]

theorem recv_eq_some : c.recv = some (a, c')
    ↔ c.queue = a :: c'.queue ∧ c'.received = c.received ++ [a] := by
  obtain ⟨received, queue⟩ := c
  obtain ⟨received', queue'⟩ := c'
  cases queue with
  | nil => exact iff_of_false (fun h => by cases h) (fun h => by cases h.1)
  | cons b queue =>
    show some (b, (⟨received ++ [b], queue⟩ : Channel α)) = some (a, ⟨received', queue'⟩)
      ↔ b :: queue = a :: queue' ∧ received' = received ++ [a]
    rw [Option.some_inj, Prod.mk.injEq, mk.injEq, List.cons.injEq]
    constructor
    · rintro ⟨rfl, rfl, rfl⟩
      exact ⟨⟨rfl, rfl⟩, rfl⟩
    · rintro ⟨⟨rfl, rfl⟩, rfl⟩
      exact ⟨rfl, rfl, rfl⟩

/-- **What is sent comes last.** -/
theorem history_send (h : c.send capacity a = some c') : c'.history = c.history ++ [a] := by
  obtain ⟨-, rfl⟩ := send_eq_some.mp h
  exact (List.append_assoc c.received c.queue [a]).symm

/-- **To receive takes nothing from what was sent.** -/
theorem history_recv (h : c.recv = some (a, c')) : c'.history = c.history := by
  obtain ⟨hqueue, hreceived⟩ := recv_eq_some.mp h
  rw [history, history, hqueue, hreceived, List.append_assoc, List.singleton_append]

theorem received_send (h : c.send capacity a = some c') : c'.received = c.received := by
  obtain ⟨-, rfl⟩ := send_eq_some.mp h
  rfl

theorem received_recv (h : c.recv = some (a, c')) : c'.received = c.received ++ [a] :=
  (recv_eq_some.mp h).2

/-- There is never more in the queue than there is room for. -/
theorem length_send_le (h : c.send capacity a = some c') : c'.queue.length ≤ capacity := by
  obtain ⟨hroom, rfl⟩ := send_eq_some.mp h
  rw [List.length_append]
  exact hroom

theorem length_recv (h : c.recv = some (a, c')) : c.queue.length = c'.queue.length + 1 := by
  rw [(recv_eq_some.mp h).1, List.length_cons]

/-- A sender waits only while the queue is full. -/
theorem le_length_of_send (h : c.send capacity a = none) : capacity ≤ c.queue.length := by
  rw [send, ite_eq_right_iff] at h
  exact Nat.le_of_not_lt (fun hroom => nomatch h hroom)

/-- The receiver waits only while the queue is empty. -/
theorem queue_of_recv (h : c.recv = none) : c.queue = [] := by
  obtain ⟨received, queue⟩ := c
  cases queue with
  | nil => rfl
  | cons a queue => cases h

/-! ## Senders -/

section Senders

variable {ι β : Type} [DecidableEq ι] {c c' : Channel (ι × β)} {i j : ι} {b : β}

/-- **What a sender has sent.** -/
def sentBy (i : ι) (c : Channel (ι × β)) : List β :=
  (c.history.filter (fun p => p.1 = i)).map Prod.snd

theorem sentBy_send_self (h : c.send capacity (i, b) = some c') :
    c'.sentBy i = c.sentBy i ++ [b] := by
  rw [sentBy, history_send h, List.filter_append, List.map_append]
  simp [sentBy]

theorem sentBy_send_of_ne (hne : i ≠ j) (h : c.send capacity (i, b) = some c') :
    c'.sentBy j = c.sentBy j := by
  rw [sentBy, history_send h, List.filter_append, List.map_append]
  simp [sentBy, hne]

theorem sentBy_recv {p : ι × β} (h : c.recv = some (p, c')) : c'.sentBy i = c.sentBy i := by
  rw [sentBy, sentBy, history_recv h]

end Senders

end Channel
