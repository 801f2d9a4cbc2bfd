import SoulPrivacy.BridgeDelivery

/-!
# Whose messages the five bridges announce

A message that is announced should be one that the transport below the
adapter vouches for (`Vouched`). Of the five adapters, the XCM adapter makes
sure of that. The others announce what the caller says, and the checks they
make before leave open

* whether the precompile has verified that message (Warp),
* whether it comes from the adapter on the other chain (Teleporter),
* who the caller is (IBC and Aurora).

What is left open is `Genuine`: the runs in which only messages that are
vouched for are announced are exactly those in which each delivery that
passes the checks of the adapter is genuine (`authentic_iff`).
-/

open BridgeAdapter (Action Context Event MessageKey)

/-! ## What the transports vouch for -/

namespace AvaxWarpAdapter

/-- The precompile has verified that the sender sent the payload from the
chain. -/
def Verified (warp : WarpPrecompile) (s : Storage) (source : Uint256) (sender : Address)
    (payload : Bytes) : Prop :=
  ∃ i, warp.getVerifiedWarpMessage i
    = some (some ⟨s.chainToBlockchainID source, sender, payload⟩)

/-- … and the sender is authorized. -/
def Vouched (warp : WarpPrecompile) (s : Storage) (source : Uint256) (sender : Address)
    (payload : Bytes) : Prop :=
  Verified warp s source sender payload
    ∧ s.authorizedSenders (s.chainToBlockchainID source) sender = true

end AvaxWarpAdapter

namespace TeleporterAdapter

/-- The contract on another chain is the adapter that governance has
registered there. -/
def Registered (s : Storage) (blockchainID : Bytes32) (origin : Address) : Prop :=
  origin ≠ 0 ∧ s.remoteReceivers blockchainID = origin

/-- The message that is delivered comes from a registered adapter. -/
def FromRegistered (d : Delivery) (s : Storage) : Prop :=
  match d with
  | .message sourceChainId sender _ =>
    Registered s (s.chainToBlockchainID sourceChainId) sender
  | .teleporterMessage sourceBlockchainID originSenderAddress _ =>
    Registered s sourceBlockchainID originSenderAddress

/-- … and an authorized messenger brings it, and it says what is
announced. -/
def Vouched (ctx : Context) (d : Delivery) (s : Storage) (source : Uint256)
    (sender : Address) (payload : Bytes) : Prop :=
  FromRegistered d s ∧ s.authorizedMessengers ctx.sender = true
    ∧ announced d = (source, sender, payload)

end TeleporterAdapter

namespace XcmBridgeAdapter

/-- The caller is the sovereign account of the source. -/
def Vouched (ctx : Context) (s : Storage) (source : Uint256) : Prop :=
  s.sovereignAccounts source ≠ 0 ∧ ctx.sender = s.sovereignAccounts source

end XcmBridgeAdapter

namespace Bridge

variable (keccak256 : Bytes → Bytes32) (transport : Address → Prop)

/-- **The transport vouches for the message** that a delivery announces,
with its source, its sender and its payload. For IBC and Aurora it is the
caller who does; `transport` says who may, since the contracts do not. -/
def Vouched : (b : Bridge) → Context → (b.adapter keccak256).Outside →
    (b.adapter keccak256).Delivery → (b.adapter keccak256).Storage →
      Uint256 → Address → Bytes → Prop
  | avaxWarp => fun _ warp _ s => AvaxWarpAdapter.Vouched warp s
  | teleporter => fun ctx _ d s => TeleporterAdapter.Vouched ctx d s
  | xcm => fun ctx _ _ s source _ _ => XcmBridgeAdapter.Vouched ctx s source
  | ibc => fun ctx _ _ _ _ _ _ => transport ctx.sender
  | aurora => fun ctx _ _ _ _ _ _ => transport ctx.sender

/-- **What an adapter does not check of a delivery.** -/
def Genuine : (b : Bridge) → Context → (b.adapter keccak256).Outside →
    (b.adapter keccak256).Delivery → (b.adapter keccak256).Storage → Prop
  | avaxWarp => fun _ warp d s =>
    AvaxWarpAdapter.Verified warp s (AvaxWarpAdapter.Delivery.sourceChainId d)
      (AvaxWarpAdapter.Delivery.sender d) (AvaxWarpAdapter.Delivery.payload d)
  | teleporter => fun _ _ d s => TeleporterAdapter.FromRegistered d s
  | xcm => fun _ _ _ _ => True
  | ibc => fun ctx _ _ _ => transport ctx.sender
  | aurora => fun ctx _ _ _ => transport ctx.sender

/-- An action announces only messages that the transport vouches for. -/
def AnnouncesVouched (b : Bridge) (s : (b.adapter keccak256).Storage)
    (a : Action (b.adapter keccak256) (M := (b.adapter keccak256).Delivery)) : Prop :=
  ∀ source id sender payload,
    .messageReceived source id sender payload ∈ (b.adapter keccak256).emitted (fun d => d) s a →
      ∃ ctx outside d, a = .deliver ctx outside d
        ∧ b.Vouched keccak256 transport ctx outside d s source sender payload

/-- **Throughout some actions, only messages that the transport vouches for
are announced.** -/
def Authentic (b : Bridge) (s : (b.adapter keccak256).Storage)
    (actions : List (Action (b.adapter keccak256)
      (M := (b.adapter keccak256).Delivery))) : Prop :=
  EachAfter (fun before a => b.AnnouncesVouched keccak256 transport
    ((b.adapter keccak256).storageAt (fun d => d) s before) a) actions

/-- An action that passes the checks of the adapter is genuine. -/
def TakesGenuine (b : Bridge) (s : (b.adapter keccak256).Storage)
    (a : Action (b.adapter keccak256) (M := (b.adapter keccak256).Delivery)) : Prop :=
  ∀ ctx outside d, a = .deliver ctx outside d → (b.keyed keccak256).Takes ctx outside d s →
    b.Genuine keccak256 transport ctx outside d s

/-! ## When they do -/

/-- **What passes the checks is vouched for if and only if it is genuine.** -/
theorem vouched_iff_genuine (b : Bridge) {ctx : Context}
    {outside : (b.adapter keccak256).Outside} {d : (b.adapter keccak256).Delivery}
    {s : (b.adapter keccak256).Storage}
    (htakes : (b.keyed keccak256).Takes ctx outside d s) :
    b.Vouched keccak256 transport ctx outside d s ((b.keyed keccak256).announced d).1
        ((b.keyed keccak256).announced d).2.1 ((b.keyed keccak256).announced d).2.2
      ↔ b.Genuine keccak256 transport ctx outside d s := by
  obtain ⟨k, hkey, -, -⟩ := htakes
  -- what vouching asks beyond being genuine, the first checks of each adapter give
  cases b with
  | avaxWarp => exact and_iff_left (AvaxWarpAdapter.key_eq_some_iff.mp hkey).2.1
  | teleporter => exact and_iff_left ⟨TeleporterAdapter.authorized_of_key hkey, rfl⟩
  | xcm =>
    obtain ⟨hsovereign, hcaller, -⟩ := XcmBridgeAdapter.key_eq_some_iff.mp hkey
    exact iff_true_intro ⟨hsovereign, hcaller⟩
  | ibc => exact Iff.rfl
  | aurora => exact Iff.rfl

/-- One action. -/
theorem announcesVouched_iff (b : Bridge) (s : (b.adapter keccak256).Storage)
    (a : Action (b.adapter keccak256) (M := (b.adapter keccak256).Delivery)) :
    b.AnnouncesVouched keccak256 transport s a ↔ b.TakesGenuine keccak256 transport s a := by
  cases a with
  | entry ctx outside e =>
    refine iff_of_true (fun source id sender payload hmem => ?_) nofun
    exact absurd hmem ((b.keyed keccak256).received_notMem_emitted (fun d => d) e)
  | deliver ctx outside d =>
    constructor
    · rintro h _ _ _ heq htakes
      cases heq
      obtain ⟨k, hkey, hnew, hver⟩ := htakes
      obtain ⟨_, _, _, heq, hvouched⟩ := h _ _ _ _
        (((b.keyed keccak256).received_mem_emitted_iff (fun d => d) d rfl).mpr
          ⟨k, hkey, hnew, hver, rfl⟩)
      cases heq
      exact (b.vouched_iff_genuine keccak256 transport ⟨k, hkey, hnew, hver⟩).mp hvouched
    · intro h source id sender payload hmem
      obtain ⟨k, hkey, hnew, hver, heq⟩ :=
        ((b.keyed keccak256).received_mem_emitted_iff (fun d => d) d rfl).mp hmem
      cases heq
      have htakes : (b.keyed keccak256).Takes ctx outside d s := ⟨k, hkey, hnew, hver⟩
      exact ⟨ctx, outside, d, rfl, (b.vouched_iff_genuine keccak256 transport htakes).mpr
        (h ctx outside d rfl htakes)⟩

/-- **What the XCM adapter announces is always vouched for.** -/
theorem authentic_xcm (s : (xcm.adapter keccak256).Storage)
    (actions : List (Action (xcm.adapter keccak256)
      (M := (xcm.adapter keccak256).Delivery))) :
    xcm.Authentic keccak256 transport s actions :=
  fun _ _ _ _ => (xcm.announcesVouched_iff keccak256 transport _ _).mpr
    (fun _ _ _ _ _ => trivial)

/-- **Only messages that the transport vouches for are announced, in exactly
the runs in which each delivery that passes the checks is genuine.** -/
theorem authentic_iff (b : Bridge) (s : (b.adapter keccak256).Storage)
    (actions : List (Action (b.adapter keccak256)
      (M := (b.adapter keccak256).Delivery))) :
    b.Authentic keccak256 transport s actions
      ↔ EachAfter (fun before a => b.TakesGenuine keccak256 transport
          ((b.adapter keccak256).storageAt (fun d => d) s before) a) actions :=
  EachAfter.congr (fun _ _ => b.announcesVouched_iff keccak256 transport _ _) actions

/-! ## Forged messages -/

/-- Someone delivers a payload to the Warp adapter that the precompile has not
verified. -/
def forgedPayload : Action (avaxWarp.adapter lastBytes)
    (M := (avaxWarp.adapter lastBytes).Delivery) :=
  .deliver ⟨8, 20, 43114⟩ warpAnswers (⟨2, 5, [1]⟩ : AvaxWarpAdapter.Delivery)

/-- Someone delivers a packet to the IBC adapter. -/
def forgedPacket : Action (ibc.adapter lastBytes) (M := (ibc.adapter lastBytes).Delivery) :=
  .deliver ⟨8, 20, 9001⟩ (⟨fun _ _ _ _ _ _ _ _ => true⟩ : IbcBridgeAdapter.IbcPrecompile)
    (⟨2, 5, [1]⟩ : IbcBridgeAdapter.Delivery)

/-- **A packet that no one sent, and a payload that no one signed.** An
account other than the transport calls the IBC adapter; and the payload
handed to the Warp adapter is not the one that the precompile has
verified. -/
theorem exists_forged :
    .messageReceived 2 (lastBytes (MessageKey.packed ⟨2, 5, 20, [1]⟩)) 5 [1]
        ∈ (ibc.adapter lastBytes).emitted (fun d => d) (IbcBridgeAdapter.construct 1)
          forgedPacket
      ∧ ¬ ibc.Authentic lastBytes (fun caller => caller = 7) (IbcBridgeAdapter.construct 1)
          [forgedPacket]
      ∧ .messageReceived 2 (lastBytes (AvaxWarpAdapter.packed 9 3 20 5 [1])) 5 [1]
        ∈ (avaxWarp.adapter lastBytes).emitted (fun d => d)
          ((avaxWarp.adapter lastBytes).storageAt (fun d => d) warpDeployed warpSetup)
          forgedPayload
      ∧ ¬ avaxWarp.Authentic lastBytes (fun caller => caller = 7) warpDeployed
          (warpSetup ++ [forgedPayload]) := by
  refine ⟨by decide +kernel, fun h => ?_, by decide +kernel, fun h => ?_⟩
  · have hgenuine := (ibc.announcesVouched_iff lastBytes (fun caller => caller = 7) _ _).mp
      (h [] forgedPacket [] rfl) _ _ _ rfl ⟨_, rfl, by decide +kernel, rfl⟩
    exact absurd (show (8 : Address) = 7 from hgenuine) (by decide)
  · have hgenuine := (avaxWarp.announcesVouched_iff lastBytes (fun caller => caller = 7) _ _).mp
      (h warpSetup forgedPayload [] rfl) _ _ _ rfl ⟨_, rfl, by decide +kernel, rfl⟩
    obtain ⟨i, hi⟩ := hgenuine
    cases hi

end Bridge
