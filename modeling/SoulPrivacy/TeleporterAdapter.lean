import SoulPrivacy.BridgeAdapter

/-!
# Teleporter (`TeleporterAdapter.sol`)

Two calls deliver a message: the one of the interface, and
`receiveTeleporterMessage`, which a Teleporter messenger makes. Both are
for authorized messengers only, and both keep their ids in the same
mapping. Neither looks at the registered adapters of the other chains, so
a messenger may bring a message of anyone there.
-/

open BridgeAdapter (Context Event MessageKey)

namespace TeleporterAdapter

/-- `TeleporterFeeInfo`. -/
structure TeleporterFeeInfo where
  feeTokenAddress : Address
  amount : Uint256
  deriving DecidableEq

/-- `TeleporterMessageInput`. -/
structure TeleporterMessageInput where
  destinationBlockchainID : Bytes32
  destinationAddress : Address
  feeInfo : TeleporterFeeInfo
  requiredGasLimit : Uint256
  allowedRelayerAddresses : List Address
  message : Bytes
  deriving DecidableEq

/-- The storage, with the two immutables. -/
structure Storage where
  teleporterMessenger : Address
  sourceBlockchainID : Bytes32
  chainToBlockchainID : Uint256 → Bytes32
  remoteReceivers : Bytes32 → Address
  authorizedMessengers : Address → Bool
  processedMessages : Bytes32 → Bool
  governance : Address

/-- The errors of the adapter. -/
inductive Error where
  | unauthorized
  | unsupportedChain (chainId : Uint256)
  | invalidTeleporterMessenger
  | messageAlreadyProcessed (messageId : Bytes32)
  /-- A message that `abi.decode` rejects. -/
  | undecodable
  /-- A messenger that reverts. -/
  | messengerFailed
  deriving DecidableEq

/-- **The messengers, during a call**: the id that one gives to a message,
unless it reverts. -/
structure Messengers where
  sendCrossChainMessage : Address → TeleporterMessageInput → Option Bytes32

/-- The constructor. -/
def construct (sender teleporterMessenger : Address) (sourceBlockchainID : Bytes32) :
    Storage where
  teleporterMessenger := teleporterMessenger
  sourceBlockchainID := sourceBlockchainID
  chainToBlockchainID := fun _ => 0
  remoteReceivers := fun _ => 0
  authorizedMessengers := Function.update (fun _ => false) teleporterMessenger true
  processedMessages := fun _ => false
  governance := sender

/-- `processedMessages[messageId] = true`. -/
def Storage.mark (messageId : Bytes32) (s : Storage) : Storage :=
  { s with processedMessages := Function.update s.processedMessages messageId true }

/-- The Teleporter message for a message that `sender` sends. -/
def messageInput (sender : Address) (destBlockchainID : Bytes32) (recipient : Address)
    (payload : Bytes) (gasLimit : Uint256) : TeleporterMessageInput where
  destinationBlockchainID := destBlockchainID
  destinationAddress := recipient
  feeInfo := { feeTokenAddress := 0, amount := 0 }
  requiredGasLimit := gasLimit
  allowedRelayerAddresses := []
  message := Abi.encode [sender.toWord] payload

/-- `sendMessage`, which returns the id and changes nothing. -/
def sendMessage (ctx : Context) (messengers : Messengers) (destinationChainId : Uint256)
    (recipient : Address) (payload : Bytes) (gasLimit : Uint256) (s : Storage) :
    Except Error (Bytes32 × List Event) := do
  let destBlockchainID := s.chainToBlockchainID destinationChainId
  revertIf (destBlockchainID = 0) (.unsupportedChain destinationChainId)
  let input := messageInput ctx.sender destBlockchainID recipient payload gasLimit
  let messageId ← orRevert .messengerFailed
    (messengers.sendCrossChainMessage s.teleporterMessenger input)
  .ok (messageId, [.messageSent destinationChainId messageId ctx.sender payload])

/-- `onlyTeleporter`. -/
def onlyTeleporter (ctx : Context) (s : Storage) : Except Error Unit :=
  revertIf (s.authorizedMessengers ctx.sender = false) .invalidTeleporterMessenger

variable (keccak256 : Bytes → Bytes32)

/-- `receiveMessage`. -/
def receiveMessage (ctx : Context) (sourceChainId : Uint256) (sender : Address)
    (payload : Bytes) (s : Storage) : Except Error (Storage × List Event) := do
  onlyTeleporter ctx s
  let messageId := keccak256 (MessageKey.packed ⟨sourceChainId, sender, ctx.number, payload⟩)
  revertIf (s.processedMessages messageId = true) (.messageAlreadyProcessed messageId)
  .ok (s.mark messageId, [.messageReceived sourceChainId messageId sender payload])

/-- `receiveTeleporterMessage`. -/
def receiveTeleporterMessage (ctx : Context) (sourceBlockchainID : Bytes32)
    (originSenderAddress : Address) (message : Bytes) (s : Storage) :
    Except Error (Storage × List Event) := do
  onlyTeleporter ctx s
  let (originalSender, payload) ← orRevert .undecodable (Abi.decodeAddressBytes message)
  let messageId := keccak256
    (MessageKey.packed ⟨sourceBlockchainID, originSenderAddress, ctx.number, payload⟩)
  revertIf (s.processedMessages messageId = true) (.messageAlreadyProcessed messageId)
  -- the chain is left open, and the event says 0
  .ok (s.mark messageId, [.messageReceived 0 messageId originalSender payload])

/-- `isChainSupported`. -/
def isChainSupported (chainId : Uint256) (s : Storage) : Bool :=
  s.chainToBlockchainID chainId != 0

/-- A call that only governance may make. -/
def governed (ctx : Context) (s s' : Storage) : Except Error (Storage × List Event) := do
  revertIf (ctx.sender ≠ s.governance) .unauthorized
  .ok (s', [])

/-- `registerChain`. -/
def registerChain (ctx : Context) (chainId : Uint256) (blockchainID : Bytes32)
    (receiver : Address) (s : Storage) :=
  governed ctx s { s with
    chainToBlockchainID := Function.update s.chainToBlockchainID chainId blockchainID
    remoteReceivers := Function.update s.remoteReceivers blockchainID receiver }

/-- `authorizeMessenger`. -/
def authorizeMessenger (ctx : Context) (messenger : Address) (s : Storage) :=
  governed ctx s { s with
    authorizedMessengers := Function.update s.authorizedMessengers messenger true }

/-- `revokeMessenger`. -/
def revokeMessenger (ctx : Context) (messenger : Address) (s : Storage) :=
  governed ctx s { s with
    authorizedMessengers := Function.update s.authorizedMessengers messenger false }

/-- `setGovernance`. -/
def setGovernance (ctx : Context) (governance : Address) (s : Storage) :=
  governed ctx s { s with governance := governance }

/-- The entry points that deliver nothing. -/
inductive Entry where
  | sendMessage (destinationChainId : Uint256) (recipient : Address) (payload : Bytes)
      (gasLimit : Uint256)
  | registerChain (chainId : Uint256) (blockchainID : Bytes32) (receiver : Address)
  | authorizeMessenger (messenger : Address)
  | revokeMessenger (messenger : Address)
  | setGovernance (governance : Address)

/-- The chain that a call sends to, if it is one of `sendMessage`. -/
def Entry.destination : Entry → Option Uint256
  | .sendMessage destinationChainId .. => some destinationChainId
  | _ => none

/-- A call of an entry point. -/
def exec (ctx : Context) (messengers : Messengers) (e : Entry) (s : Storage) :
    Except Error (Storage × List Event) :=
  match e with
  | .sendMessage destinationChainId recipient payload gasLimit =>
    (sendMessage ctx messengers destinationChainId recipient payload gasLimit s).map
      (fun p => (s, p.2))
  | .registerChain chainId blockchainID receiver =>
    registerChain ctx chainId blockchainID receiver s
  | .authorizeMessenger messenger => authorizeMessenger ctx messenger s
  | .revokeMessenger messenger => revokeMessenger ctx messenger s
  | .setGovernance governance => setGovernance ctx governance s

/-- The calls that deliver a message. -/
inductive Delivery where
  | message (sourceChainId : Uint256) (sender : Address) (payload : Bytes)
  | teleporterMessage (sourceBlockchainID : Bytes32) (originSenderAddress : Address)
      (message : Bytes)

/-- A call that delivers a message. -/
def deliver (ctx : Context) (d : Delivery) (s : Storage) : Except Error (Storage × List Event) :=
  match d with
  | .message sourceChainId sender payload =>
    receiveMessage keccak256 ctx sourceChainId sender payload s
  | .teleporterMessage sourceBlockchainID originSenderAddress message =>
    receiveTeleporterMessage keccak256 ctx sourceBlockchainID originSenderAddress message s

/-- **The adapter.** -/
def adapter : BridgeAdapter where
  Storage := Storage
  Error := Error
  Outside := Messengers
  Entry := Entry
  Delivery := Delivery
  Deployed := fun s => ∃ sender messenger blockchainID, s = construct sender messenger blockchainID
  entry := exec
  receive := fun ctx _ => deliver keccak256 ctx
  isReplay := fun
    | .messageAlreadyProcessed _ => true
    | _ => false

/-! ## Messages and their ids -/

/-- The checks before the id is looked up. In the key of a Teleporter
message the original sender has no part. -/
def key (ctx : Context) (d : Delivery) (s : Storage) : Option MessageKey :=
  if s.authorizedMessengers ctx.sender = false then none
  else
    match d with
    | .message sourceChainId sender payload => some ⟨sourceChainId, sender, ctx.number, payload⟩
    | .teleporterMessage sourceBlockchainID originSenderAddress message =>
      (Abi.decodeAddressBytes message).map
        (fun p => ⟨sourceBlockchainID, originSenderAddress, ctx.number, p.2⟩)

/-- Only an authorized messenger makes a delivery with a key. -/
theorem authorized_of_key {ctx : Context} {d : Delivery} {s : Storage} {k : MessageKey}
    (h : key ctx d s = some k) : s.authorizedMessengers ctx.sender = true := by
  by_contra hguard
  unfold key at h
  rw [if_pos (Bool.eq_false_iff.mpr hguard)] at h
  exact absurd h nofun

/-- What is announced of a message. -/
def announced : Delivery → Uint256 × Address × Bytes
  | .message sourceChainId sender payload => (sourceChainId, sender, payload)
  | .teleporterMessage _ _ message => (0, (Abi.decodeAddressBytes message).getD (0, []))

/-- **What one adapter sends, the other announces.** -/
theorem announced_messageInput (blockchainID destBlockchainID : Bytes32)
    (origin sender recipient : Address) (gasLimit : Uint256) {payload : Bytes}
    (hlen : payload.length < 2 ^ 64) :
    announced (.teleporterMessage blockchainID origin
        (messageInput sender destBlockchainID recipient payload gasLimit).message)
      = (0, sender, payload) := by
  rw [announced, messageInput, Abi.decodeAddressBytes_encode sender hlen]
  rfl

/-- **The Teleporter adapter keeps the ids of its messages.** -/
def keyed : (adapter keccak256).Keyed keccak256 where
  processed := Storage.processedMessages
  mark := Storage.mark
  replayed := .messageAlreadyProcessed
  key := key
  preimage := fun _ => MessageKey.packed
  late := fun _ => .ok ()
  announced := announced
  preimage_injective := fun _ => MessageKey.packed_injective
  processed_deployed := by
    rintro _ ⟨sender, messenger, blockchainID, rfl⟩ id
    rfl
  processed_mark := fun _ _ => rfl
  preimage_mark := fun _ _ => rfl
  isReplay_replayed := fun _ => rfl
  isReplay_late := fun h => absurd h nofun
  entry_frame := by
    intro ctx messengers e s s' events h
    cases e with
    | sendMessage destinationChainId recipient payload gasLimit =>
      obtain ⟨⟨id, es⟩, hsend, heq⟩ := Except.map_eq_ok.mp h
      obtain ⟨-, hsend⟩ := (revertIf_bind_eq_ok _ _ _ _).mp hsend
      obtain ⟨_, -, hsend⟩ := (Except.bind_eq_ok _ _ _).mp hsend
      cases hsend
      cases heq
      exact ⟨rfl, rfl, by simp [Event.isReceived]⟩
    | _ =>
      obtain ⟨-, heq⟩ := (revertIf_bind_eq_ok _ _ _ _).mp h
      cases heq
      exact ⟨rfl, rfl, by simp⟩
  receive_of_none := by
    intro ctx d s messengers h
    unfold key at h
    split at h
    · rename_i hguard
      cases d with
      | message => exact ⟨.invalidTeleporterMessenger, revertIf_bind_of_pos hguard _ _, rfl⟩
      | teleporterMessage =>
        exact ⟨.invalidTeleporterMessenger, revertIf_bind_of_pos hguard _ _, rfl⟩
    · rename_i hguard
      cases d with
      | message => exact absurd h nofun
      | teleporterMessage sourceBlockchainID originSenderAddress message =>
        refine ⟨.undecodable, (revertIf_bind_of_neg hguard _ _).trans ?_, rfl⟩
        rw [Option.map_eq_none_iff.mp h]
        rfl
  receive_of_some := by
    intro ctx d s k messengers h
    have hguard := Bool.ne_false_iff.mpr (authorized_of_key h)
    unfold key at h
    rw [if_neg hguard] at h
    cases d with
    | message sourceChainId sender payload =>
      cases h
      exact revertIf_bind_of_neg hguard _ _
    | teleporterMessage sourceBlockchainID originSenderAddress message =>
      obtain ⟨p, hdecode, rfl⟩ := Option.map_eq_some_iff.mp h
      have hannounced : announced
          (.teleporterMessage sourceBlockchainID originSenderAddress message) = (0, p) := by
        rw [announced, hdecode]
        rfl
      refine (revertIf_bind_of_neg hguard _ _).trans ?_
      rw [hannounced, hdecode]
      rfl

end TeleporterAdapter
