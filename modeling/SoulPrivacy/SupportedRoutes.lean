import SoulPrivacy.BridgeDelivery

/-!
# Where the five bridges send

An adapter tells which chains it supports (`isChainSupported`), and tests the
chain again when a message is sent. Where an entry of a mapping is all there
is to a chain (Warp, Teleporter, Aurora), the two tests are the same one. A
route of XCM or IBC can also be switched off, which `isChainSupported` looks
at for both and `sendMessage` for XCM only.

So what goes out over a chain that is not supported goes out over an IBC
route that was switched off (`Stale`), and everything that such a route
takes does (`sendsSupported_iff`).
-/

open BridgeAdapter (Action Context)

/-! ## The two tests of each adapter -/

section Tests

variable {keccak256 : Bytes → Bytes32} {ctx : Context} {destinationChainId : Uint256}

/-- A message that is sent has passed the first test. -/
theorem not_of_sent {ε α β : Type} {c : Prop} [Decidable c] {err : ε} {k : Unit → Except ε α}
    {f : α → β} {p : β} (h : ((revertIf c err >>= k).map f) = .ok p) : ¬ c := by
  obtain ⟨_, hsend, -⟩ := Except.map_eq_ok.mp h
  exact ((revertIf_bind_eq_ok _ _ _ _).mp hsend).1

/-- A Warp message goes to a supported chain. -/
theorem AvaxWarpAdapter.isChainSupported_of_exec {warp : WarpPrecompile} {e : Entry}
    {s : Storage} {p : Storage × List BridgeAdapter.Event}
    (hdest : e.destination = some destinationChainId)
    (h : exec keccak256 ctx warp e s = .ok p) :
    isChainSupported destinationChainId s = true := by
  cases e with
  | sendMessage dest recipient payload =>
    cases hdest
    exact bne_iff_ne.mpr (not_of_sent h)
  | _ => exact absurd hdest nofun

/-- A Teleporter message goes to a supported chain. -/
theorem TeleporterAdapter.isChainSupported_of_exec {messengers : Messengers} {e : Entry}
    {s : Storage} {p : Storage × List BridgeAdapter.Event}
    (hdest : e.destination = some destinationChainId) (h : exec ctx messengers e s = .ok p) :
    isChainSupported destinationChainId s = true := by
  cases e with
  | sendMessage dest recipient payload gasLimit =>
    cases hdest
    exact bne_iff_ne.mpr (not_of_sent h)
  | _ => exact absurd hdest nofun

/-- A message for Near goes to a supported chain. -/
theorem AuroraRainbowAdapter.isChainSupported_of_exec {near : CrossContract} {e : Entry}
    {s : Storage} {p : Storage × List BridgeAdapter.Event}
    (hdest : e.destination = some destinationChainId) (h : exec keccak256 ctx near e s = .ok p) :
    isChainSupported destinationChainId s = true := by
  cases e with
  | sendMessage dest payload gasLimit =>
    cases hdest
    exact decide_eq_true (Nat.pos_of_ne_zero (not_of_sent h))
  | _ => exact absurd hdest nofun

/-- An XCM message goes over a route that is registered and active. -/
theorem XcmBridgeAdapter.isChainSupported_of_exec {xcm : XcmTransactor} {e : Entry}
    {s : Storage} {p : Storage × List BridgeAdapter.Event}
    (hdest : e.destination = some destinationChainId) (h : exec keccak256 ctx xcm e s = .ok p) :
    isChainSupported destinationChainId s = true := by
  cases e with
  | sendMessage dest payload =>
    cases hdest
    obtain ⟨_, hsend, -⟩ := Except.map_eq_ok.mp h
    obtain ⟨hpara, hsend⟩ := (revertIf_bind_eq_ok _ _ _ _).mp hsend
    have hactive := ((revertIf_bind_eq_ok _ _ _ _).mp hsend).1
    unfold isChainSupported
    rw [Bool.and_eq_true]
    exact ⟨bne_iff_ne.mpr hpara, Bool.of_not_eq_false hactive⟩
  | _ => exact absurd hdest nofun

end Tests

namespace IbcBridgeAdapter

/-- The precompile takes the transfer that carries a message. -/
def Takes (ctx : Context) (ibc : IbcPrecompile) (destinationChainId : Uint256) (payload : Bytes)
    (s : Storage) : Bool :=
  let route := s.routes destinationChainId
  ibc.transfer route.portId route.channelId 0 [] [] route.timeoutHeight route.timeoutTimestamp
    (Abi.encode [ctx.chainId, ctx.sender.toWord] payload)

/-- **What a call sends over a route that was switched off**: the route has
a channel, and the precompile takes the transfer. -/
def Stale (ctx : Context) (ibc : IbcPrecompile) (e : Entry) (s : Storage) : Prop :=
  match e with
  | .sendMessage destinationChainId payload =>
    0 < (s.routes destinationChainId).channelId.length
      ∧ (s.routes destinationChainId).active = false
      ∧ Takes ctx ibc destinationChainId payload s = true
  | _ => False

variable {keccak256 : Bytes → Bytes32} {ctx : Context} {ibc : IbcPrecompile}
  {destinationChainId : Uint256} {s : Storage}

/-- **An IBC message goes out over each route that has a channel**, if the
precompile takes it. -/
theorem sendMessage_eq_ok_iff {payload : Bytes} :
    (∃ p, sendMessage keccak256 ctx ibc destinationChainId payload s = .ok p)
      ↔ 0 < (s.routes destinationChainId).channelId.length
        ∧ Takes ctx ibc destinationChainId payload s = true := by
  constructor
  · rintro ⟨p, h⟩
    obtain ⟨hchannel, h⟩ := (revertIf_bind_eq_ok _ _ _ _).mp h
    have htaken := ((revertIf_bind_eq_ok _ _ _ _).mp h).1
    exact ⟨Nat.pos_of_ne_zero hchannel, Bool.of_not_eq_false htaken⟩
  · rintro ⟨hchannel, htaken⟩
    exact ⟨_, (revertIf_bind_of_neg hchannel.ne' _ _).trans
      (revertIf_bind_of_neg (Bool.ne_false_iff.mpr htaken) _ _)⟩

/-- **What a call sends goes to a supported chain if and only if the call is
not stale.** -/
theorem exec_supported_iff {e : Entry} :
    (∀ destinationChainId p, e.destination = some destinationChainId →
        exec keccak256 ctx ibc e s = .ok p → isChainSupported destinationChainId s = true)
      ↔ ¬ Stale ctx ibc e s := by
  cases e with
  | sendMessage dest payload =>
    constructor
    · rintro h ⟨hchannel, hinactive, htaken⟩
      obtain ⟨p, hsend⟩ := @sendMessage_eq_ok_iff keccak256 _ _ _ _ _ |>.mpr
        ⟨hchannel, htaken⟩
      have hsupported := h dest (s, p.2) rfl (Except.map_eq_ok.mpr ⟨p, hsend, rfl⟩)
      exact absurd ((Bool.and_eq_true _ _).mp hsupported).2 (Bool.eq_false_iff.mp hinactive)
    · rintro hstale _ _ hdest h
      cases hdest
      obtain ⟨p, hsend, -⟩ := Except.map_eq_ok.mp h
      obtain ⟨hchannel, htaken⟩ := sendMessage_eq_ok_iff.mp ⟨p, hsend⟩
      unfold isChainSupported
      rw [Bool.and_eq_true]
      refine ⟨decide_eq_true hchannel, Bool.of_not_eq_false (fun hinactive => ?_)⟩
      exact hstale ⟨hchannel, hinactive, htaken⟩
  | _ => exact iff_of_true (fun _ _ hdest _ => absurd hdest nofun) id

end IbcBridgeAdapter

namespace Bridge

variable (keccak256 : Bytes → Bytes32)

/-- `isChainSupported` of each adapter. -/
def isChainSupported : (b : Bridge) → Uint256 → (b.adapter keccak256).Storage → Bool
  | avaxWarp => AvaxWarpAdapter.isChainSupported
  | teleporter => TeleporterAdapter.isChainSupported
  | xcm => XcmBridgeAdapter.isChainSupported
  | ibc => IbcBridgeAdapter.isChainSupported
  | aurora => AuroraRainbowAdapter.isChainSupported

/-- The chain that a call sends to, if it is one of `sendMessage`. -/
def destination : (b : Bridge) → (b.adapter keccak256).Entry → Option Uint256
  | avaxWarp => AvaxWarpAdapter.Entry.destination
  | teleporter => TeleporterAdapter.Entry.destination
  | xcm => XcmBridgeAdapter.Entry.destination
  | ibc => IbcBridgeAdapter.Entry.destination
  | aurora => AuroraRainbowAdapter.Entry.destination

/-- **If the call sends a message, it is to a chain that is supported at
that moment.** -/
def SendsSupported (b : Bridge) (s : (b.adapter keccak256).Storage)
    (a : Action (b.adapter keccak256) (M := (b.adapter keccak256).Delivery)) : Prop :=
  ∀ ctx outside e destinationChainId p, a = .entry ctx outside e →
    b.destination keccak256 e = some destinationChainId →
    (b.adapter keccak256).entry ctx outside e s = .ok p →
      b.isChainSupported keccak256 destinationChainId s = true

/-- The call sends a message over a route that was switched off. Only the
IBC adapter does. -/
def Stale : (b : Bridge) → Context → (b.adapter keccak256).Outside →
    (b.adapter keccak256).Entry → (b.adapter keccak256).Storage → Prop
  | ibc => fun ctx outside e s => IbcBridgeAdapter.Stale ctx outside e s
  | _ => fun _ _ _ _ => False

/-- A call of the adapter is stale. -/
def SendsStale (b : Bridge) (s : (b.adapter keccak256).Storage)
    (a : Action (b.adapter keccak256) (M := (b.adapter keccak256).Delivery)) : Prop :=
  ∃ ctx outside e, a = .entry ctx outside e ∧ b.Stale keccak256 ctx outside e s

variable {keccak256}

/-- One action. -/
theorem sendsSupported_one_iff (b : Bridge) (s : (b.adapter keccak256).Storage)
    (a : Action (b.adapter keccak256) (M := (b.adapter keccak256).Delivery)) :
    b.SendsSupported keccak256 s a ↔ ¬ b.SendsStale keccak256 s a := by
  cases a with
  | deliver ctx outside d =>
    exact iff_of_true (fun _ _ _ _ _ h => absurd h nofun) (fun ⟨_, _, _, h, _⟩ => absurd h nofun)
  | entry ctx outside e =>
    -- the call of an action is fixed, so both sides speak of this call only
    have hsupported : b.SendsSupported keccak256 s (.entry ctx outside e)
        ↔ ∀ destinationChainId p, b.destination keccak256 e = some destinationChainId →
          (b.adapter keccak256).entry ctx outside e s = .ok p →
            b.isChainSupported keccak256 destinationChainId s = true := by
      refine ⟨fun h dest p => h ctx outside e dest p rfl, ?_⟩
      rintro h _ _ _ dest p heq
      cases heq
      exact h dest p
    have hstale : b.SendsStale keccak256 s (.entry ctx outside e)
        ↔ b.Stale keccak256 ctx outside e s := by
      refine ⟨?_, fun h => ⟨ctx, outside, e, rfl, h⟩⟩
      rintro ⟨_, _, _, heq, h⟩
      cases heq
      exact h
    rw [hsupported, hstale]
    cases b with
    | ibc => exact IbcBridgeAdapter.exec_supported_iff
    | avaxWarp =>
      exact iff_of_true (fun _ _ => AvaxWarpAdapter.isChainSupported_of_exec) id
    | teleporter =>
      exact iff_of_true (fun _ _ => TeleporterAdapter.isChainSupported_of_exec) id
    | xcm => exact iff_of_true (fun _ _ => XcmBridgeAdapter.isChainSupported_of_exec) id
    | aurora => exact iff_of_true (fun _ _ => AuroraRainbowAdapter.isChainSupported_of_exec) id

/-- **Every message goes to a chain that is supported when it is sent, in
exactly the runs that send nothing over a route that was switched off.** -/
theorem sendsSupported_iff (b : Bridge) (s : (b.adapter keccak256).Storage)
    (actions : List (Action (b.adapter keccak256)
      (M := (b.adapter keccak256).Delivery))) :
    EachAfter (fun before a => b.SendsSupported keccak256
        ((b.adapter keccak256).storageAt (fun d => d) s before) a) actions
      ↔ EachAfter (fun before a => ¬ b.SendsStale keccak256
        ((b.adapter keccak256).storageAt (fun d => d) s before) a) actions :=
  EachAfter.congr (fun _ _ => b.sendsSupported_one_iff _ _) actions

/-! ## A route that was switched off -/

/-- An IBC precompile that takes every transfer. -/
def ibcTakesAll : IbcBridgeAdapter.IbcPrecompile where
  transfer := fun _ _ _ _ _ _ _ _ => true

/-- Governance registers a route to chain 7, and switches it off. -/
def ibcSwitchedOff (keccak256 : Bytes → Bytes32) :
    List (Action (ibc.adapter keccak256) (M := (ibc.adapter keccak256).Delivery)) :=
  [.entry ⟨1, 20, 9001⟩ ibcTakesAll
      (IbcBridgeAdapter.Entry.registerRoute 7 (ascii "transfer") (ascii "channel-0") 0 0),
    .entry ⟨1, 21, 9001⟩ ibcTakesAll (IbcBridgeAdapter.Entry.setRouteActive 7 false)]

/-- Then someone sends a message to that chain. -/
def ibcSend (keccak256 : Bytes → Bytes32) :
    Action (ibc.adapter keccak256) (M := (ibc.adapter keccak256).Delivery) :=
  .entry ⟨8, 22, 9001⟩ ibcTakesAll (IbcBridgeAdapter.Entry.sendMessage 7 [1])

/-- **A message goes out over a route that was switched off**: the adapter
takes it and announces it, and says at the same time that it does not support
the chain. -/
theorem exists_sent_unsupported :
    (∃ p, (ibc.adapter lastBytes).exec (fun d => d) ((ibc.adapter lastBytes).storageAt
        (fun d => d) (IbcBridgeAdapter.construct 1) (ibcSwitchedOff lastBytes))
        (ibcSend lastBytes) = .ok p)
      ∧ ∀ keccak256, (ibc.adapter keccak256).Deployed (IbcBridgeAdapter.construct 1)
        ∧ ibc.isChainSupported keccak256 7 ((ibc.adapter keccak256).storageAt (fun d => d)
          (IbcBridgeAdapter.construct 1) (ibcSwitchedOff keccak256)) = false
        ∧ ¬ EachAfter (fun before a => ibc.SendsSupported keccak256
          ((ibc.adapter keccak256).storageAt (fun d => d) (IbcBridgeAdapter.construct 1) before) a)
          (ibcSwitchedOff keccak256 ++ [ibcSend keccak256]) := by
  refine ⟨⟨_, rfl⟩, fun keccak256 => ?_⟩
  have hinactive : ibc.isChainSupported keccak256 7 ((ibc.adapter keccak256).storageAt
      (fun d => d) (IbcBridgeAdapter.construct 1) (ibcSwitchedOff keccak256)) = false := rfl
  refine ⟨⟨1, rfl⟩, hinactive, fun h => ?_⟩
  have hsend := h (ibcSwitchedOff keccak256) (ibcSend keccak256) [] rfl
  exact Bool.false_ne_true (hinactive.symm.trans (hsend _ _ _ 7 _ rfl rfl rfl))

end Bridge
