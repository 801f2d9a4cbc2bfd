import SoulPrivacy.Abi
import SoulPrivacy.KeyedReceiver

/-!
# Bridge adapters (`IBridgeAdapter.sol`)

A bridge adapter takes messages for other chains and hands on those that
arrive from them. A message that arrives is announced by the event
`MessageReceived`, and a message id is kept of each, so that none is
announced twice.

The contracts differ in whom they let deliver, and in what they hash to the
id. What they share is stated as `Keyed`: behind its own checks an adapter
is a receiver that recognizes messages by a key, the hash of which it
keeps. So what is known of such receivers holds of each adapter
(`Keyed.log_eq`, `Keyed.atMostOnce_iff_consistent`).
-/

open KeyedReceiver (Attempt Outcome AtMostOnce Consistent)

namespace BridgeAdapter

/-- Who makes a call, and the block it is in. -/
structure Context where
  sender : Address
  /-- `block.number`. -/
  number : Uint256
  /-- `block.chainid`. -/
  chainId : Uint256

/-- The events of an adapter. -/
inductive Event where
  | messageSent (destinationChainId : Uint256) (messageId : Bytes32) (sender : Address)
      (payload : Bytes)
  | messageReceived (sourceChainId : Uint256) (messageId : Bytes32) (sender : Address)
      (payload : Bytes)
  deriving DecidableEq

/-- The event announces a message. -/
def Event.isReceived : Event → Bool
  | .messageSent .. => false
  | .messageReceived .. => true

/-- **What a message id is made of**: where the message comes from, who
sent it, what it says, and the block in which it is delivered. -/
structure MessageKey where
  source : Bytes32
  sender : Address
  number : Uint256
  payload : Bytes
  deriving DecidableEq

/-- `abi.encodePacked(source, sender, block.number, payload)`. -/
def MessageKey.packed (k : MessageKey) : Bytes :=
  Bytes32.toBytes k.source ++ Address.toBytes k.sender ++ Bytes32.toBytes k.number ++ k.payload

/-- **Only the last field has no fixed width**, so the bytes tell the
key. -/
theorem MessageKey.packed_injective : Function.Injective MessageKey.packed := by
  rintro ⟨source, sender, number, payload⟩ ⟨source', sender', number', payload'⟩ h
  unfold packed at h
  simp only [List.append_assoc, Bytes32.toBytes_append_inj, Address.toBytes_append_inj] at h
  obtain ⟨rfl, rfl, rfl, rfl⟩ := h
  rfl

end BridgeAdapter

open BridgeAdapter (Context Event MessageKey)

/-- **An adapter**: its storage, and what its calls do to it. A call that
reverts gives an error. -/
structure BridgeAdapter where
  Storage : Type
  Error : Type
  /-- What other contracts answer the adapter during a call. -/
  Outside : Type
  /-- `sendMessage`, and what governance may call. -/
  Entry : Type
  /-- A call that delivers a message. -/
  Delivery : Type
  /-- The storage right after the constructor. -/
  Deployed : Storage → Prop
  entry : Context → Outside → Entry → Storage → Except Error (Storage × List Event)
  receive : Context → Outside → Delivery → Storage → Except Error (Storage × List Event)
  /-- The error of a message that was processed before. -/
  isReplay : Error → Bool

namespace BridgeAdapter

variable (A : BridgeAdapter) {M : Type} (sent : M → A.Delivery)

/-! ## Runs -/

/-- **What can happen to an adapter**: someone calls it, or someone
delivers one of the messages that were sent to it. Anyone may deliver any
message in any block, any number of times. -/
inductive Action where
  | entry (ctx : Context) (outside : A.Outside) (e : A.Entry)
  | deliver (ctx : Context) (outside : A.Outside) (message : M)

/-- The call of an action. -/
def exec (s : A.Storage) : Action A (M := M) → Except A.Error (A.Storage × List Event)
  | .entry ctx outside e => A.entry ctx outside e s
  | .deliver ctx outside m => A.receive ctx outside (sent m) s

/-- The storage after a call. One that reverts changes nothing. -/
def storageAfter (s : A.Storage) : Except A.Error (A.Storage × List Event) → A.Storage
  | .ok p => p.1
  | .error _ => s

/-- What became of a message that was delivered: it is received with each
event that announces it, and turned down when the adapter takes it for a
message it has processed. -/
def outcomes (m : M) : Except A.Error (A.Storage × List Event) → List (Outcome M)
  | .ok p => (p.2.filter Event.isReceived).map (fun _ => .received m)
  | .error e => if A.isReplay e then [.replayed m] else []

/-- What an action adds to the log. -/
def logged (s : A.Storage) (a : Action A (M := M)) : List (Outcome M) :=
  match a with
  | .entry .. => []
  | .deliver _ _ m => A.outcomes m (A.exec sent s a)

/-- The events of an action. -/
def emitted (s : A.Storage) (a : Action A (M := M)) : List Event :=
  match A.exec sent s a with
  | .ok p => p.2
  | .error _ => []

/-- The storage after some actions. -/
def storageAt (s : A.Storage) (actions : List (Action A (M := M))) : A.Storage :=
  actions.foldl (fun s a => A.storageAfter s (A.exec sent s a)) s

/-- **What became of the messages delivered during some actions**, in
order. -/
def log : A.Storage → List (Action A (M := M)) → List (Outcome M)
  | _, [] => []
  | s, a :: actions => A.logged sent s a ++ log (A.storageAfter s (A.exec sent s a)) actions

/-! ## Adapters that keep a hash of each message -/

/-- **What the contracts have in common.** A delivery that passes the first
checks has a key, and its id is the hash of that key. It is turned down
when the id was processed; else the id is marked as processed, and the
message is announced if the last checks let it. -/
structure Keyed (keccak256 : Bytes → Bytes32) where
  processed : A.Storage → Bytes32 → Bool
  mark : Bytes32 → A.Storage → A.Storage
  replayed : Bytes32 → A.Error
  /-- The key of a delivery, if it passes the checks before the id is
  looked up. -/
  key : Context → A.Delivery → A.Storage → Option MessageKey
  /-- What is hashed. It depends on the immutables only. -/
  preimage : A.Storage → MessageKey → Bytes
  /-- The checks after the id is marked. -/
  late : A.Outside → Except A.Error Unit
  /-- The source, the sender and the payload that are announced. -/
  announced : A.Delivery → Uint256 × Address × Bytes
  preimage_injective : ∀ s, Function.Injective (preimage s)
  processed_deployed : ∀ s, A.Deployed s → ∀ id, processed s id = false
  processed_mark : ∀ id s, processed (mark id s) = Function.update (processed s) id true
  preimage_mark : ∀ id s, preimage (mark id s) = preimage s
  isReplay_replayed : ∀ id, A.isReplay (replayed id) = true
  isReplay_late : ∀ {outside e}, late outside = .error e → A.isReplay e = false
  entry_frame : ∀ {ctx outside e s s' events},
    A.entry ctx outside e s = .ok (s', events) →
      processed s' = processed s ∧ preimage s' = preimage s
        ∧ ∀ event ∈ events, event.isReceived = false
  receive_of_none : ∀ {ctx d s} (outside), key ctx d s = none →
    ∃ e, A.receive ctx outside d s = .error e ∧ A.isReplay e = false
  receive_of_some : ∀ {ctx d s k} (outside), key ctx d s = some k →
    A.receive ctx outside d s = (do
      let id := keccak256 (preimage s k)
      revertIf (processed s id = true) (replayed id)
      late outside
      .ok (mark id s, [.messageReceived (announced d).1 id (announced d).2.1 (announced d).2.2]))

namespace Keyed

variable {A} {keccak256 : Bytes → Bytes32} (K : A.Keyed keccak256)

/-- The id of a message. -/
def messageId (s : A.Storage) (k : MessageKey) : Bytes32 := keccak256 (K.preimage s k)

/-- The event that announces a message. -/
def announcement (s : A.Storage) (d : A.Delivery) (k : MessageKey) : Event :=
  .messageReceived (K.announced d).1 (K.messageId s k) (K.announced d).2.1 (K.announced d).2.2

variable {ctx : Context} {outside : A.Outside} {d : A.Delivery} {s : A.Storage}
  {k : MessageKey}

theorem receive_replayed (hkey : K.key ctx d s = some k)
    (hproc : K.processed s (K.messageId s k) = true) :
    A.receive ctx outside d s = .error (K.replayed (K.messageId s k)) := by
  rw [K.receive_of_some outside hkey]
  exact revertIf_bind_of_pos hproc _ _

theorem receive_late {e : A.Error} (hkey : K.key ctx d s = some k)
    (hproc : ¬ K.processed s (K.messageId s k) = true) (hlate : K.late outside = .error e) :
    A.receive ctx outside d s = .error e := by
  rw [K.receive_of_some outside hkey]
  refine (revertIf_bind_of_neg hproc _ _).trans ?_
  rw [hlate]
  rfl

theorem receive_new {u : Unit} (hkey : K.key ctx d s = some k)
    (hproc : ¬ K.processed s (K.messageId s k) = true) (hlate : K.late outside = .ok u) :
    A.receive ctx outside d s
      = .ok (K.mark (K.messageId s k) s, [K.announcement s d k]) := by
  rw [K.receive_of_some outside hkey]
  refine (revertIf_bind_of_neg hproc _ _).trans ?_
  rw [hlate]
  rfl

/-- Whether the last checks let a message through. -/
def verified (outside : A.Outside) : Bool := (K.late outside).isOk

/-- **The delivery passes all the checks of the adapter.** -/
def Takes (ctx : Context) (outside : A.Outside) (d : A.Delivery) (s : A.Storage) : Prop :=
  ∃ k, K.key ctx d s = some k ∧ ¬ K.processed s (K.messageId s k) = true
    ∧ K.verified outside = true

/-- A delivery announces its message if it passes the checks, and nothing
else. -/
theorem received_mem_emitted_iff {source : Uint256} {id : Bytes32} {sender : Address}
    {payload : Bytes} (m : M) (hd : sent m = d) :
    .messageReceived source id sender payload ∈ A.emitted sent s (.deliver ctx outside m)
      ↔ ∃ k, K.key ctx d s = some k ∧ ¬ K.processed s (K.messageId s k) = true
        ∧ K.verified outside = true
        ∧ Event.messageReceived source id sender payload = K.announcement s d k := by
  subst hd
  show _ ∈ (match A.receive ctx outside (sent m) s with
    | .ok p => p.2
    | .error _ => []) ↔ _
  cases hkey : K.key ctx (sent m) s with
  | none =>
    obtain ⟨e, hexec, -⟩ := K.receive_of_none outside hkey
    simp [hexec]
  | some k =>
    by_cases hproc : K.processed s (K.messageId s k) = true
    · simp [K.receive_replayed hkey hproc, hproc]
    · cases hlate : K.late outside with
      | error e => simp [K.receive_late hkey hproc hlate, verified, hlate, Except.isOk,
          Except.toBool]
      | ok u => simp [K.receive_new hkey hproc hlate, hproc, verified, hlate, Except.isOk,
          Except.toBool]

include K in
/-- A call that delivers nothing announces nothing. -/
theorem received_notMem_emitted {source : Uint256} {id : Bytes32} {sender : Address}
    {payload : Bytes} (e : A.Entry) :
    .messageReceived source id sender payload ∉ A.emitted sent s (.entry ctx outside e) := by
  show _ ∉ (match A.entry ctx outside e s with
    | .ok p => p.2
    | .error _ => [])
  cases hexec : A.entry ctx outside e s with
  | error err => exact List.not_mem_nil
  | ok p =>
    intro hmem
    exact Bool.noConfusion ((K.entry_frame hexec).2.2 _ hmem)

/-- The attempt at its key that an action makes. -/
def attempt (s : A.Storage) : Action A (M := M) → List (Attempt M MessageKey)
  | .entry .. => []
  | .deliver ctx outside m =>
    match K.key ctx (sent m) s with
    | none => []
    | some k => [⟨m, k, K.verified outside⟩]

/-- **The attempts that some actions make**, in order. -/
def attempts : A.Storage → List (Action A (M := M)) → List (Attempt M MessageKey)
  | _, [] => []
  | s, a :: actions =>
    K.attempt sent s a ++ attempts (A.storageAfter s (A.exec sent s a)) actions

/-- The ids processed are the keys that the receiver has seen. -/
def Related (s₀ s : A.Storage) (seen : List Bytes32) : Prop :=
  K.preimage s = K.preimage s₀ ∧ ∀ id, K.processed s id = true ↔ id ∈ seen

/-- **An action does what its attempt does to the receiver.** -/
theorem related_step {s₀ s : A.Storage} {R : KeyedReceiver.State M Bytes32}
    (h : K.Related s₀ s R.seen) (a : Action A (M := M)) :
    let R' := ((K.attempt sent s a).map (Attempt.mapKey (K.messageId s₀))).foldl
      KeyedReceiver.step R
    K.Related s₀ (A.storageAfter s (A.exec sent s a)) R'.seen
      ∧ R'.log = R.log ++ A.logged sent s a := by
  obtain ⟨hpre, hseen⟩ := h
  cases a with
  | entry ctx outside e =>
    refine ⟨?_, (List.append_nil _).symm⟩
    cases hexec : A.entry ctx outside e s with
    | error err =>
      rw [exec, hexec]
      exact ⟨hpre, hseen⟩
    | ok p =>
      obtain ⟨hproc, hpre', -⟩ := K.entry_frame hexec
      rw [exec, hexec]
      exact ⟨hpre'.trans hpre, fun id => hproc ▸ hseen id⟩
  | deliver ctx outside m =>
    cases hkey : K.key ctx (sent m) s with
    | none =>
      obtain ⟨err, hexec, hreplay⟩ := K.receive_of_none outside hkey
      simp only [attempt, hkey, logged, exec, hexec, storageAfter, outcomes, hreplay]
      exact ⟨⟨hpre, hseen⟩, (List.append_nil _).symm⟩
    | some k =>
      -- the immutables are those of the start, and so is the id
      have hid : K.messageId s₀ k = K.messageId s k := by rw [messageId, messageId, hpre]
      simp only [attempt, hkey, List.map_cons, List.map_nil, List.foldl_cons, List.foldl_nil,
        KeyedReceiver.step, Attempt.mapKey, hid, logged, exec]
      by_cases hproc : K.processed s (K.messageId s k) = true
      · rw [if_pos ((hseen _).mp hproc), K.receive_replayed hkey hproc]
        simp only [storageAfter, outcomes, K.isReplay_replayed]
        exact ⟨⟨hpre, hseen⟩, rfl⟩
      · rw [if_neg (fun hmem => hproc ((hseen _).mpr hmem))]
        cases hlate : K.late outside with
        | error err =>
          -- the revert takes the mark back
          rw [K.receive_late hkey hproc hlate]
          simp only [verified, hlate, storageAfter, outcomes, K.isReplay_late hlate]
          exact ⟨⟨hpre, hseen⟩, (List.append_nil _).symm⟩
        | ok u =>
          rw [K.receive_new hkey hproc hlate]
          simp only [verified, hlate, storageAfter, outcomes]
          refine ⟨⟨(K.preimage_mark _ s).trans hpre, fun id => ?_⟩, rfl⟩
          show K.processed (K.mark (K.messageId s k) s) id = true ↔ _
          rw [K.processed_mark, update_true_eq_true, hseen]
          exact (List.mem_cons.trans or_comm).symm

/-- **An adapter is a receiver that recognizes messages by their id.** -/
theorem log_eq {s₀ s : A.Storage} {R : KeyedReceiver.State M Bytes32}
    (h : K.Related s₀ s R.seen) (actions : List (Action A (M := M))) :
    (((K.attempts sent s actions).map (Attempt.mapKey (K.messageId s₀))).foldl
      KeyedReceiver.step R).log = R.log ++ A.log sent s actions := by
  induction actions generalizing s R with
  | nil => exact (List.append_nil _).symm
  | cons a actions ih =>
    obtain ⟨hrel, hlog⟩ := K.related_step sent h a
    rw [attempts, List.map_append, List.foldl_append, ih hrel, hlog, log, List.append_assoc]

/-- What an adapter hashes during some actions. -/
def hashed (s : A.Storage) (actions : List (Action A (M := M))) : Set Bytes :=
  {bytes | ∃ a ∈ K.attempts sent s actions, K.preimage s a.key = bytes}

/-- **An adapter delivers each message at most once, and turns none down
for another, if and only if keys come back exactly when messages do.** -/
theorem atMostOnce_iff_consistent {s : A.Storage} (hdeployed : A.Deployed s)
    (actions : List (Action A (M := M)))
    (hkeccak : Set.InjOn keccak256 (K.hashed sent s actions)) :
    AtMostOnce (A.log sent s actions) ↔ Consistent (K.attempts sent s actions) := by
  have hrel : K.Related s s ([] : List Bytes32) := by
    refine ⟨rfl, fun id => ?_⟩
    rw [K.processed_deployed s hdeployed]
    exact iff_of_false Bool.false_ne_true List.not_mem_nil
  have hinj : Set.InjOn (K.messageId s) {k | ∃ a ∈ K.attempts sent s actions, a.key = k} := by
    rintro _ ⟨a, ha, rfl⟩ _ ⟨b, hb, rfl⟩ heq
    exact K.preimage_injective s (hkeccak ⟨a, ha, rfl⟩ ⟨b, hb, rfl⟩ heq)
  have hlog := K.log_eq sent (R := ⟨[], []⟩) hrel actions
  rw [List.nil_append] at hlog
  rw [← hlog, ← KeyedReceiver.atMostOnce_iff_consistent, ← KeyedReceiver.log_run_mapKey hinj]
  rfl

end Keyed

end BridgeAdapter
