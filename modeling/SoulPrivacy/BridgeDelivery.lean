import SoulPrivacy.AuroraRainbowAdapter
import SoulPrivacy.AvaxWarpAdapter
import SoulPrivacy.IbcBridgeAdapter
import SoulPrivacy.TeleporterAdapter
import SoulPrivacy.XcmBridgeAdapter

/-!
# What the five bridges deliver

A message id is made of the source of a message, its sender and its
payload, and of the block in which it is delivered; not of anything that
tells the message from another one. So a message that is delivered again in
a later block is announced again, and of two messages that say the same the
second is turned down when it comes in the same block.

An adapter goes wrong in neither way exactly in the runs in which a
delivery has the source, the sender and the payload of an earlier one of
its block if and only if its message was delivered before
(`atMostOnce_iff`). The five adapters differ in the checks before that.
-/

open BridgeAdapter (Action Context)
open KeyedReceiver (AtMostOnce Consistent atMostOnce_nil atMostOnce_received_iff
  atMostOnce_replayed_iff)

/-- The adapters of the repository. -/
inductive Bridge where
  | avaxWarp
  | teleporter
  | xcm
  | ibc
  | aurora
  deriving DecidableEq

namespace Bridge

variable (keccak256 : Bytes → Bytes32)

/-- **The contract of each.** -/
def adapter : Bridge → BridgeAdapter
  | avaxWarp => AvaxWarpAdapter.adapter keccak256
  | teleporter => TeleporterAdapter.adapter keccak256
  | xcm => XcmBridgeAdapter.adapter keccak256
  | ibc => IbcBridgeAdapter.adapter keccak256
  | aurora => AuroraRainbowAdapter.adapter keccak256

/-- How each of them keeps its ids. -/
def keyed : (b : Bridge) → (b.adapter keccak256).Keyed keccak256
  | avaxWarp => AvaxWarpAdapter.keyed keccak256
  | teleporter => TeleporterAdapter.keyed keccak256
  | xcm => XcmBridgeAdapter.keyed keccak256
  | ibc => IbcBridgeAdapter.keyed keccak256
  | aurora => AuroraRainbowAdapter.keyed keccak256

/-- **Each message is announced at most once and no message is turned down
for another, in exactly the runs in which deliveries repeat within a block
what their messages repeat at all.** No two of the byte strings that the
adapter hashes in the run may collide. -/
theorem atMostOnce_iff (b : Bridge) {M : Type} (sent : M → (b.adapter keccak256).Delivery)
    {s : (b.adapter keccak256).Storage} (hdeployed : (b.adapter keccak256).Deployed s)
    (actions : List (Action (b.adapter keccak256) (M := M)))
    (hkeccak : Set.InjOn keccak256 ((b.keyed keccak256).hashed sent s actions)) :
    AtMostOnce ((b.adapter keccak256).log sent s actions)
      ↔ Consistent ((b.keyed keccak256).attempts sent s actions) :=
  (b.keyed keccak256).atMostOnce_iff_consistent sent hdeployed actions hkeccak

/-! ## Runs of the Warp adapter -/

/-- A hash that tells the deliveries below apart. -/
def lastBytes (bytes : Bytes) : Bytes32 := BitVec.ofNat 256 (beNat bytes)

/-- The adapter of the runs below, right after its constructor. -/
def warpDeployed : AvaxWarpAdapter.Storage := AvaxWarpAdapter.construct 1 3

/-- Each message is an empty payload from the sender 5 on chain 2. -/
def emptyMessage (_ : ℕ) : (avaxWarp.adapter lastBytes).Delivery :=
  (⟨2, 5, []⟩ : AvaxWarpAdapter.Delivery)

/-- The precompile has verified the message. -/
def warpAnswers : AvaxWarpAdapter.WarpPrecompile where
  sendWarpMessage := fun _ => true
  getVerifiedWarpMessage := fun _ => some (some ⟨9, 5, []⟩)

/-- Governance registers chain 2 and authorizes the sender 5. -/
def warpSetup {M : Type} : List (Action (avaxWarp.adapter lastBytes) (M := M)) :=
  [.entry ⟨1, 1, 43114⟩ warpAnswers (AvaxWarpAdapter.Entry.registerChain 2 9 7),
    .entry ⟨1, 1, 43114⟩ warpAnswers (AvaxWarpAdapter.Entry.authorizeSender 9 5)]

/-- Then someone delivers messages, each in a block. -/
def warpRun (deliveries : List (ℕ × Uint256)) :
    List (Action (avaxWarp.adapter lastBytes) (M := ℕ)) :=
  warpSetup ++ deliveries.map (fun p => .deliver ⟨8, p.2, 43114⟩ warpAnswers p.1)

/-- A message that is delivered twice in a block, and an equal one in the
next block. -/
theorem atMostOnce_iff_warp :
    (avaxWarp.adapter lastBytes).log emptyMessage warpDeployed
        (warpRun [(0, 20), (0, 20), (1, 21)]) = [.received 0, .replayed 0, .received 1]
      ∧ AtMostOnce ((avaxWarp.adapter lastBytes).log emptyMessage warpDeployed
          (warpRun [(0, 20), (0, 20), (1, 21)]))
      ∧ Consistent ((avaxWarp.keyed lastBytes).attempts emptyMessage warpDeployed
          (warpRun [(0, 20), (0, 20), (1, 21)])) := by
  have hlog : (avaxWarp.adapter lastBytes).log emptyMessage warpDeployed
      (warpRun [(0, 20), (0, 20), (1, 21)]) = [.received 0, .replayed 0, .received 1] := by
    decide +kernel
  have hbytes : ∀ a ∈ (avaxWarp.keyed lastBytes).attempts emptyMessage warpDeployed
        (warpRun [(0, 20), (0, 20), (1, 21)]),
      ∀ b ∈ (avaxWarp.keyed lastBytes).attempts emptyMessage warpDeployed
        (warpRun [(0, 20), (0, 20), (1, 21)]),
      (avaxWarp.keyed lastBytes).messageId warpDeployed a.key
          = (avaxWarp.keyed lastBytes).messageId warpDeployed b.key → a.key = b.key := by
    decide +kernel
  have hkeccak : Set.InjOn lastBytes ((avaxWarp.keyed lastBytes).hashed emptyMessage
      warpDeployed (warpRun [(0, 20), (0, 20), (1, 21)])) := by
    rintro _ ⟨a, ha, rfl⟩ _ ⟨b, hb, rfl⟩ heq
    rw [hbytes a ha b hb heq]
  have honce : AtMostOnce ((avaxWarp.adapter lastBytes).log emptyMessage warpDeployed
      (warpRun [(0, 20), (0, 20), (1, 21)])) := by
    rw [hlog]
    have hfirst := (atMostOnce_received_iff [] 0).mpr ⟨atMostOnce_nil, by decide⟩
    have hagain := (atMostOnce_replayed_iff _ 0).mpr ⟨hfirst, by decide⟩
    exact (atMostOnce_received_iff _ 1).mpr ⟨hagain, by decide⟩
  exact ⟨hlog, honce, (atMostOnce_iff lastBytes avaxWarp emptyMessage ⟨1, 3, rfl⟩ _
    hkeccak).mp honce⟩

/-- **A message that is announced twice, and one that is lost.** The first is
delivered again in the next block; the second says the same as another one
of its block. -/
theorem exists_announced_twice :
    (avaxWarp.adapter lastBytes).Deployed warpDeployed
      ∧ (avaxWarp.adapter lastBytes).log emptyMessage warpDeployed
          (warpRun [(0, 20), (0, 21)]) = [.received 0, .received 0]
      ∧ (avaxWarp.adapter lastBytes).log emptyMessage warpDeployed
          (warpRun [(0, 20), (1, 20)]) = [.received 0, .replayed 1]
      ∧ ¬ AtMostOnce ((avaxWarp.adapter lastBytes).log emptyMessage warpDeployed
          (warpRun [(0, 20), (0, 21)]))
      ∧ ¬ AtMostOnce ((avaxWarp.adapter lastBytes).log emptyMessage warpDeployed
          (warpRun [(0, 20), (1, 20)])) := by
  have htwice : (avaxWarp.adapter lastBytes).log emptyMessage warpDeployed
      (warpRun [(0, 20), (0, 21)]) = [.received 0, .received 0] := by decide +kernel
  have hlost : (avaxWarp.adapter lastBytes).log emptyMessage warpDeployed
      (warpRun [(0, 20), (1, 20)]) = [.received 0, .replayed 1] := by decide +kernel
  refine ⟨⟨1, 3, rfl⟩, htwice, hlost, fun h => ?_, fun h => ?_⟩
  · rw [htwice] at h
    exact absurd h.once (by decide)
  · rw [hlost] at h
    exact absurd (h.genuine [.received 0] _ [] rfl 1 rfl) (by decide)

end Bridge
