import SoulPrivacy.BridgeAdapter

/-!
# IBC (`IbcBridgeAdapter.sol`)

Anyone may call `receiveMessage`. The contract leaves it to the IBC module
to call it, but does not know the module's address.
-/

open BridgeAdapter (Context Event MessageKey)

namespace IbcBridgeAdapter

/-- `IbcRoute`. A string is the list of its bytes. -/
structure IbcRoute where
  portId : Bytes
  channelId : Bytes
  timeoutHeight : BitVec 64
  timeoutTimestamp : BitVec 64
  active : Bool
  deriving DecidableEq

/-- The storage. -/
structure Storage where
  routes : Uint256 → IbcRoute
  supportedChains : List Uint256
  processedPackets : Bytes32 → Bool
  governance : Address

/-- The errors of the adapter. -/
inductive Error where
  | unauthorized
  | unsupportedChain (chainId : Uint256)
  | ibcSendFailed
  | packetAlreadyProcessed (packetId : Bytes32)
  deriving DecidableEq

/-- **The IBC precompile, during a call**: whether it takes a transfer with
the port, the channel, the amount, the denomination, the receiver, the two
timeouts and the memo. -/
structure IbcPrecompile where
  transfer : Bytes → Bytes → Uint256 → Bytes → Bytes → BitVec 64 → BitVec 64 → Bytes → Bool

/-- The constructor. -/
def construct (sender : Address) : Storage where
  routes := fun _ => ⟨[], [], 0, 0, false⟩
  supportedChains := []
  processedPackets := fun _ => false
  governance := sender

/-- `processedPackets[packetId] = true`. -/
def Storage.mark (packetId : Bytes32) (s : Storage) : Storage :=
  { s with processedPackets := Function.update s.processedPackets packetId true }

variable (keccak256 : Bytes → Bytes32)

/-- `sendMessage`, which returns the id and changes nothing. The packet
travels as the memo of a transfer of nothing. -/
def sendMessage (ctx : Context) (ibc : IbcPrecompile) (destinationChainId : Uint256)
    (payload : Bytes) (s : Storage) : Except Error (Bytes32 × List Event) := do
  let route := s.routes destinationChainId
  revertIf (route.channelId.length = 0) (.unsupportedChain destinationChainId)
  let packetData := Abi.encode [ctx.chainId, ctx.sender.toWord] payload
  let success := ibc.transfer route.portId route.channelId 0 [] [] route.timeoutHeight
    route.timeoutTimestamp packetData
  revertIf (success = false) .ibcSendFailed
  let messageId := keccak256 (Bytes32.toBytes ctx.chainId ++ Bytes32.toBytes destinationChainId
    ++ Bytes32.toBytes ctx.number ++ Address.toBytes ctx.sender ++ payload)
  .ok (messageId, [.messageSent destinationChainId messageId ctx.sender payload])

/-- `receiveMessage`, which does not look at the caller. -/
def receiveMessage (ctx : Context) (sourceChainId : Uint256) (sender : Address)
    (payload : Bytes) (s : Storage) : Except Error (Storage × List Event) := do
  let packetId := keccak256 (MessageKey.packed ⟨sourceChainId, sender, ctx.number, payload⟩)
  revertIf (s.processedPackets packetId = true) (.packetAlreadyProcessed packetId)
  .ok (s.mark packetId, [.messageReceived sourceChainId packetId sender payload])

/-- `isChainSupported`. -/
def isChainSupported (chainId : Uint256) (s : Storage) : Bool :=
  decide (0 < (s.routes chainId).channelId.length) && (s.routes chainId).active

/-- A call that only governance may make. -/
def governed (ctx : Context) (s s' : Storage) : Except Error (Storage × List Event) := do
  revertIf (ctx.sender ≠ s.governance) .unauthorized
  .ok (s', [])

/-- `registerRoute`. -/
def registerRoute (ctx : Context) (chainId : Uint256) (portId channelId : Bytes)
    (timeoutHeight timeoutTimestamp : BitVec 64) (s : Storage) :=
  governed ctx s { s with
    routes := Function.update s.routes chainId
      ⟨portId, channelId, timeoutHeight, timeoutTimestamp, true⟩
    supportedChains := s.supportedChains ++ [chainId] }

/-- `setRouteActive`. -/
def setRouteActive (ctx : Context) (chainId : Uint256) (active : Bool) (s : Storage) :=
  governed ctx s { s with
    routes := Function.update s.routes chainId { s.routes chainId with active := active } }

/-- `setGovernance`. -/
def setGovernance (ctx : Context) (governance : Address) (s : Storage) :=
  governed ctx s { s with governance := governance }

/-- The entry points besides `receiveMessage`. -/
inductive Entry where
  | sendMessage (destinationChainId : Uint256) (payload : Bytes)
  | registerRoute (chainId : Uint256) (portId channelId : Bytes)
      (timeoutHeight timeoutTimestamp : BitVec 64)
  | setRouteActive (chainId : Uint256) (active : Bool)
  | setGovernance (governance : Address)

/-- The chain that a call sends to, if it is one of `sendMessage`. -/
def Entry.destination : Entry → Option Uint256
  | .sendMessage destinationChainId .. => some destinationChainId
  | _ => none

/-- A call of an entry point. -/
def exec (ctx : Context) (ibc : IbcPrecompile) (e : Entry) (s : Storage) :
    Except Error (Storage × List Event) :=
  match e with
  | .sendMessage destinationChainId payload =>
    (sendMessage keccak256 ctx ibc destinationChainId payload s).map (fun p => (s, p.2))
  | .registerRoute chainId portId channelId timeoutHeight timeoutTimestamp =>
    registerRoute ctx chainId portId channelId timeoutHeight timeoutTimestamp s
  | .setRouteActive chainId active => setRouteActive ctx chainId active s
  | .setGovernance governance => setGovernance ctx governance s

/-- The arguments of `receiveMessage`. -/
structure Delivery where
  sourceChainId : Uint256
  sender : Address
  payload : Bytes

/-- **The adapter.** -/
def adapter : BridgeAdapter where
  Storage := Storage
  Error := Error
  Outside := IbcPrecompile
  Entry := Entry
  Delivery := Delivery
  Deployed := fun s => ∃ sender, s = construct sender
  entry := exec keccak256
  receive := fun ctx _ d => receiveMessage keccak256 ctx d.sourceChainId d.sender d.payload
  isReplay := fun
    | .packetAlreadyProcessed _ => true
    | _ => false

/-! ## Messages and their ids -/

/-- **The IBC adapter keeps the ids of its messages.** There are no checks
before the id is looked up, so each delivery has a key. -/
def keyed : (adapter keccak256).Keyed keccak256 where
  processed := Storage.processedPackets
  mark := Storage.mark
  replayed := .packetAlreadyProcessed
  key := fun ctx d _ => some ⟨d.sourceChainId, d.sender, ctx.number, d.payload⟩
  preimage := fun _ => MessageKey.packed
  late := fun _ => .ok ()
  announced := fun d => (d.sourceChainId, d.sender, d.payload)
  preimage_injective := fun _ => MessageKey.packed_injective
  processed_deployed := by
    rintro _ ⟨sender, rfl⟩ id
    rfl
  processed_mark := fun _ _ => rfl
  preimage_mark := fun _ _ => rfl
  isReplay_replayed := fun _ => rfl
  isReplay_late := fun h => absurd h nofun
  entry_frame := by
    intro ctx ibc e s s' events h
    cases e with
    | sendMessage destinationChainId payload =>
      obtain ⟨⟨id, es⟩, hsend, heq⟩ := Except.map_eq_ok.mp h
      simp only [sendMessage, revertIf_bind_eq_ok, Except.ok.injEq, Prod.mk.injEq] at hsend
      obtain ⟨-, -, -, rfl⟩ := hsend
      cases heq
      exact ⟨rfl, rfl, by simp [Event.isReceived]⟩
    | _ =>
      obtain ⟨-, heq⟩ := (revertIf_bind_eq_ok _ _ _ _).mp h
      cases heq
      exact ⟨rfl, rfl, by simp⟩
  receive_of_none := fun _ h => absurd h nofun
  receive_of_some := by
    intro ctx d s k ibc h
    cases h
    rfl

end IbcBridgeAdapter
