import SoulPrivacy.EpochLists
import SoulPrivacy.Subgraph

/-!
# The subgraph of the epoch manager (`subgraph/src/epoch-manager.ts`)

The indexer has an entity for each epoch that was started, one for each that was
finalized, and one for each pair of a chain and an epoch of it that a root was
received for. A root that is received again replaces the one before, in the
contract and in the store.

The constructor has an event, too. The events of a run are those of its calls,
each in the block of its call (`timed`).
-/

namespace EpochSubgraph

open EpochManager (Storage Hashes Event Call Entry)
open Subgraph (Meta)

/-! ## Entities -/

/-- `Epoch`. -/
structure Epoch where
  epochId : ℕ
  nullifierRoot : Bytes32
  nullifierCount : ℕ
  finalizedAt : ℕ
  blockNumber : ℕ
  transactionHash : Bytes32

/-- `EpochStartedEvent`. -/
structure EpochStartedEvent where
  epochId : ℕ
  startTime : ℕ
  blockNumber : ℕ
  transactionHash : Bytes32

/-- `CrossChainSync`. The epoch it refers to is the local one of that number. -/
structure CrossChainSync where
  epoch : Uint256
  sourceChainId : Uint256
  root : Bytes32
  receivedAt : ℕ
  blockNumber : ℕ
  transactionHash : Bytes32

/-- **The store.** The text `chain-epoch` has these two parts. -/
structure Store where
  epochs : ℕ → Option Epoch
  started : ℕ → Option EpochStartedEvent
  syncs : Uint256 × Uint256 → Option CrossChainSync

/-- A store without entities. -/
def Store.empty : Store := ⟨fun _ => none, fun _ => none, fun _ => none⟩

/-! ## Handlers -/

/-- `handleEpochStarted`. -/
def handleEpochStarted (m : Meta) (epochId startTime : ℕ) (s : Store) : Store :=
  { s with
    started := Function.update s.started epochId
      (some ⟨epochId, startTime, m.blockNumber, m.transactionHash⟩) }

/-- `handleEpochFinalized`. -/
def handleEpochFinalized (m : Meta) (epochId : ℕ) (nullifierRoot : Bytes32)
    (nullifierCount : ℕ) (s : Store) : Store :=
  { s with
    epochs := Function.update s.epochs epochId
      (some ⟨epochId, nullifierRoot, nullifierCount, m.blockTimestamp, m.blockNumber,
        m.transactionHash⟩) }

/-- `handleRemoteEpochRootReceived`. -/
def handleRemoteEpochRootReceived (m : Meta) (sourceChainId epochId : Uint256)
    (nullifierRoot : Bytes32) (s : Store) : Store :=
  { s with
    syncs := Function.update s.syncs (sourceChainId, epochId)
      (some ⟨epochId, sourceChainId, nullifierRoot, m.blockTimestamp, m.blockNumber,
        m.transactionHash⟩) }

/-- **The handlers of the manifest.** -/
def handle (m : Meta) : Event → Store → Store
  | .epochStarted epochId startTime => handleEpochStarted m epochId startTime
  | .epochFinalized epochId nullifierRoot nullifierCount =>
    handleEpochFinalized m epochId nullifierRoot nullifierCount
  | .remoteEpochRootReceived sourceChainId epochId nullifierRoot =>
    handleRemoteEpochRootReceived m sourceChainId epochId nullifierRoot

/-- The handlers of some events. -/
def handleAll (log : List (Meta × Event)) (s : Store) : Store :=
  log.foldl (fun s e => handle e.1 e.2 s) s

/-- **The store after some events.** -/
def index (log : List (Meta × Event)) : Store := handleAll log Store.empty

theorem index_append (log log' : List (Meta × Event)) :
    index (log ++ log') = handleAll log' (index log) :=
  List.foldl_append

/-! ## The events of a run -/

variable (H : Hashes)

/-- The events of a call that went through. -/
def emitted (p : Storage × Call) : List Event :=
  match EpochManager.exec H p.2 p.1 with
  | .ok (_, events) => events
  | .error _ => []

/-- … each with the time of its block. -/
def timedOf (p : Storage × Call) : List (ℕ × Event) :=
  (emitted H p).map (fun e => (p.2.timestamp, e))

/-- **The events of a run** of a contract that was deployed at some time, with the
one of the constructor. -/
def timed (deployedAt : ℕ) (tr : List (Storage × Call)) : List (ℕ × Event) :=
  (deployedAt, .epochStarted 0 deployedAt) :: tr.flatMap (timedOf H)

theorem timed_append_singleton (deployedAt : ℕ) (tr : List (Storage × Call))
    (p : Storage × Call) :
    timed H deployedAt (tr ++ [p]) = timed H deployedAt tr ++ timedOf H p := by
  unfold timed
  rw [List.flatMap_append, List.flatMap_singleton]
  rfl

/-- The time and the event of an entry of a log. -/
def stamp (e : Meta × Event) : ℕ × Event := (e.1.blockTimestamp, e.2)

/-- The roots that a trace has received, by chain and epoch. -/
def received (tr : List (Storage × Call)) : List (Uint256 × Uint256) :=
  tr.flatMap (fun p =>
    match p.2.entry with
    | .receiveRemoteEpochRoot sourceChainId epochId _ => [(sourceChainId, epochId)]
    | _ => [])

/-- The key of a pair. -/
def keyOf (p : Uint256 × Uint256) : Bytes32 := EpochManager.remoteKey H p.1 p.2

/-- **The hash function tells some pairs apart.** -/
def KeysApart (pairs : List (Uint256 × Uint256)) : Prop :=
  ∀ p ∈ pairs, ∀ q ∈ pairs, keyOf H p = keyOf H q → p = q

end EpochSubgraph
