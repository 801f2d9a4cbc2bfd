import SoulPrivacy.BridgeAdapter

/-!
# Avalanche Warp Messaging (`AvaxWarpAdapter.sol`)

The adapter asks the Warp precompile whether there is a verified message.
It does not compare the answer with the message it was handed, which is
made of the arguments of the call.
-/

open BridgeAdapter (Context Event MessageKey)

namespace AvaxWarpAdapter

/-- `WarpMessage`. -/
structure WarpMessage where
  sourceBlockchainID : Bytes32
  originSenderAddress : Address
  payload : Bytes
  deriving DecidableEq

/-- The storage, with the immutable `sourceBlockchainID`. -/
structure Storage where
  sourceBlockchainID : Bytes32
  chainToBlockchainID : Uint256 → Bytes32
  remoteReceivers : Bytes32 → Address
  processedMessages : Bytes32 → Bool
  authorizedSenders : Bytes32 → Address → Bool
  governance : Address

/-- The errors of the adapter. -/
inductive Error where
  | unauthorized
  | unsupportedChain (chainId : Uint256)
  | messageTooLarge
  | messageAlreadyProcessed (messageId : Bytes32)
  | invalidWarpMessage
  | warpPrecompileFailed
  | unauthorizedSender
  deriving DecidableEq

/-- **The Warp precompile, during a call.** -/
structure WarpPrecompile where
  /-- Whether a message is taken. -/
  sendWarpMessage : Bytes → Bool
  /-- The message it has verified at an index, if there is one. No answer at
  all is a call that fails. -/
  getVerifiedWarpMessage : BitVec 32 → Option (Option WarpMessage)

/-- `MAX_MESSAGE_SIZE`. -/
def MAX_MESSAGE_SIZE : ℕ := 4096

/-- The constructor. -/
def construct (sender : Address) (sourceBlockchainID : Bytes32) : Storage where
  sourceBlockchainID := sourceBlockchainID
  chainToBlockchainID := fun _ => 0
  remoteReceivers := fun _ => 0
  processedMessages := fun _ => false
  authorizedSenders := fun _ _ => false
  governance := sender

/-- `processedMessages[messageId] = true`. -/
def Storage.mark (messageId : Bytes32) (s : Storage) : Storage :=
  { s with processedMessages := Function.update s.processedMessages messageId true }

variable (keccak256 : Bytes → Bytes32)

/-- `abi.encodePacked(source, destination, block.number, sender, payload)`. -/
def packed (source destination number : Bytes32) (sender : Address) (payload : Bytes) : Bytes :=
  Bytes32.toBytes source ++ Bytes32.toBytes destination ++ Bytes32.toBytes number
    ++ Address.toBytes sender ++ payload

/-- `sendMessage`, which returns the id and changes nothing. -/
def sendMessage (ctx : Context) (warp : WarpPrecompile) (destinationChainId : Uint256)
    (recipient : Address) (payload : Bytes) (s : Storage) :
    Except Error (Bytes32 × List Event) := do
  let destBlockchainID := s.chainToBlockchainID destinationChainId
  revertIf (destBlockchainID = 0) (.unsupportedChain destinationChainId)
  revertIf (MAX_MESSAGE_SIZE < payload.length) .messageTooLarge
  let warpPayload := Abi.encode
    [destinationChainId, recipient.toWord, ctx.sender.toWord] payload
  revertIf (warp.sendWarpMessage warpPayload = false) .warpPrecompileFailed
  let messageId := keccak256
    (packed s.sourceBlockchainID destBlockchainID ctx.number ctx.sender payload)
  .ok (messageId, [.messageSent destinationChainId messageId ctx.sender payload])

/-- What `receiveMessage` asks of the precompile: that there is an answer. -/
def checkWarpMessage (warp : WarpPrecompile) : Except Error Unit := do
  let _ ← orRevert .invalidWarpMessage (warp.getVerifiedWarpMessage 0)
  .ok ()

/-- `receiveMessage`. -/
def receiveMessage (ctx : Context) (warp : WarpPrecompile) (sourceChainId : Uint256)
    (sender : Address) (payload : Bytes) (s : Storage) :
    Except Error (Storage × List Event) := do
  let srcBlockchainID := s.chainToBlockchainID sourceChainId
  revertIf (srcBlockchainID = 0) (.unsupportedChain sourceChainId)
  revertIf (s.authorizedSenders srcBlockchainID sender = false) .unauthorizedSender
  let messageId := keccak256
    (packed srcBlockchainID s.sourceBlockchainID ctx.number sender payload)
  revertIf (s.processedMessages messageId = true) (.messageAlreadyProcessed messageId)
  let s := s.mark messageId
  checkWarpMessage warp
  .ok (s, [.messageReceived sourceChainId messageId sender payload])

/-- `isChainSupported`. -/
def isChainSupported (chainId : Uint256) (s : Storage) : Bool :=
  s.chainToBlockchainID chainId != 0

/-- A call that only governance may make. -/
def governed (ctx : Context) (s s' : Storage) : Except Error (Storage × List Event) := do
  revertIf (ctx.sender ≠ s.governance) .unauthorized
  .ok (s', [])

/-- `registerChain`. -/
def registerChain (ctx : Context) (chainId : Uint256) (blockchainID : Bytes32)
    (receiver : Address) (s : Storage) :=
  governed ctx s { s with
    chainToBlockchainID := Function.update s.chainToBlockchainID chainId blockchainID
    remoteReceivers := Function.update s.remoteReceivers blockchainID receiver }

/-- The senders of a chain, with one more or one less. -/
def setSender (blockchainID : Bytes32) (sender : Address) (allowed : Bool) (s : Storage) :
    Storage :=
  let senders := Function.update (s.authorizedSenders blockchainID) sender allowed
  { s with authorizedSenders := Function.update s.authorizedSenders blockchainID senders }

/-- `authorizeSender`. -/
def authorizeSender (ctx : Context) (blockchainID : Bytes32) (sender : Address) (s : Storage) :=
  governed ctx s (setSender blockchainID sender true s)

/-- `revokeSender`. -/
def revokeSender (ctx : Context) (blockchainID : Bytes32) (sender : Address) (s : Storage) :=
  governed ctx s (setSender blockchainID sender false s)

/-- `setGovernance`. -/
def setGovernance (ctx : Context) (governance : Address) (s : Storage) :=
  governed ctx s { s with governance := governance }

/-- The entry points besides `receiveMessage`. -/
inductive Entry where
  | sendMessage (destinationChainId : Uint256) (recipient : Address) (payload : Bytes)
  | registerChain (chainId : Uint256) (blockchainID : Bytes32) (receiver : Address)
  | authorizeSender (blockchainID : Bytes32) (sender : Address)
  | revokeSender (blockchainID : Bytes32) (sender : Address)
  | setGovernance (governance : Address)

/-- The chain that a call sends to, if it is one of `sendMessage`. -/
def Entry.destination : Entry → Option Uint256
  | .sendMessage destinationChainId .. => some destinationChainId
  | _ => none

/-- A call of an entry point. -/
def exec (ctx : Context) (warp : WarpPrecompile) (e : Entry) (s : Storage) :
    Except Error (Storage × List Event) :=
  match e with
  | .sendMessage destinationChainId recipient payload =>
    (sendMessage keccak256 ctx warp destinationChainId recipient payload s).map
      (fun p => (s, p.2))
  | .registerChain chainId blockchainID receiver =>
    registerChain ctx chainId blockchainID receiver s
  | .authorizeSender blockchainID sender => authorizeSender ctx blockchainID sender s
  | .revokeSender blockchainID sender => revokeSender ctx blockchainID sender s
  | .setGovernance governance => setGovernance ctx governance s

/-- The arguments of `receiveMessage`. -/
structure Delivery where
  sourceChainId : Uint256
  sender : Address
  payload : Bytes

/-- **The adapter.** -/
def adapter : BridgeAdapter where
  Storage := Storage
  Error := Error
  Outside := WarpPrecompile
  Entry := Entry
  Delivery := Delivery
  Deployed := fun s => ∃ sender sourceBlockchainID, s = construct sender sourceBlockchainID
  entry := exec keccak256
  receive := fun ctx warp d =>
    receiveMessage keccak256 ctx warp d.sourceChainId d.sender d.payload
  isReplay := fun
    | .messageAlreadyProcessed _ => true
    | _ => false

/-! ## Messages and their ids -/

/-- **Only the last field has no fixed width.** -/
theorem packed_injective (destination : Bytes32) :
    Function.Injective
      (fun k : MessageKey => packed k.source destination k.number k.sender k.payload) := by
  rintro ⟨source, sender, number, payload⟩ ⟨source', sender', number', payload'⟩ h
  unfold packed at h
  simp only [List.append_assoc, Bytes32.toBytes_append_inj, Address.toBytes_append_inj] at h
  obtain ⟨rfl, -, rfl, rfl, rfl⟩ := h
  rfl

/-- The checks before the id is looked up. -/
def key (ctx : Context) (d : Delivery) (s : Storage) : Option MessageKey :=
  if s.chainToBlockchainID d.sourceChainId = 0
      ∨ s.authorizedSenders (s.chainToBlockchainID d.sourceChainId) d.sender = false then none
  else some ⟨s.chainToBlockchainID d.sourceChainId, d.sender, ctx.number, d.payload⟩

theorem key_eq_some_iff {ctx : Context} {d : Delivery} {s : Storage} {k : MessageKey} :
    key ctx d s = some k
      ↔ s.chainToBlockchainID d.sourceChainId ≠ 0
        ∧ s.authorizedSenders (s.chainToBlockchainID d.sourceChainId) d.sender = true
        ∧ ⟨s.chainToBlockchainID d.sourceChainId, d.sender, ctx.number, d.payload⟩ = k := by
  unfold key
  split
  · rename_i hguard
    refine iff_of_false nofun (fun h => ?_)
    exact hguard.elim h.1 (fun hsender => absurd (hsender.symm.trans h.2.1) nofun)
  · rename_i hguard
    rw [not_or, Bool.not_eq_false] at hguard
    rw [Option.some.injEq, and_iff_right hguard.1, and_iff_right hguard.2]

/-- **The Warp adapter keeps the ids of its messages.** -/
def keyed : (adapter keccak256).Keyed keccak256 where
  processed := Storage.processedMessages
  mark := Storage.mark
  replayed := .messageAlreadyProcessed
  key := key
  preimage := fun s k => packed k.source s.sourceBlockchainID k.number k.sender k.payload
  late := checkWarpMessage
  announced := fun d => (d.sourceChainId, d.sender, d.payload)
  preimage_injective := fun s => packed_injective s.sourceBlockchainID
  processed_deployed := by
    rintro _ ⟨sender, sourceBlockchainID, rfl⟩ id
    rfl
  processed_mark := fun _ _ => rfl
  preimage_mark := fun _ _ => rfl
  isReplay_replayed := fun _ => rfl
  isReplay_late := by
    intro warp e h
    unfold checkWarpMessage at h
    cases hw : warp.getVerifiedWarpMessage 0 with
    | none =>
      rw [hw] at h
      cases h
      rfl
    | some w =>
      rw [hw] at h
      exact absurd h nofun
  entry_frame := by
    intro ctx warp e s s' events h
    cases e with
    | sendMessage destinationChainId recipient payload =>
      obtain ⟨⟨id, es⟩, hsend, heq⟩ := Except.map_eq_ok.mp h
      simp only [sendMessage, revertIf_bind_eq_ok, Except.ok.injEq, Prod.mk.injEq] at hsend
      obtain ⟨-, -, -, -, rfl⟩ := hsend
      cases heq
      exact ⟨rfl, rfl, by simp [Event.isReceived]⟩
    | _ =>
      obtain ⟨-, heq⟩ := (revertIf_bind_eq_ok _ _ _ _).mp h
      cases heq
      exact ⟨rfl, rfl, by simp⟩
  receive_of_none := by
    intro ctx d s warp h
    unfold key at h
    split at h
    · rename_i hguard
      by_cases hsrc : s.chainToBlockchainID d.sourceChainId = 0
      · exact ⟨.unsupportedChain d.sourceChainId, revertIf_bind_of_pos hsrc _ _, rfl⟩
      · exact ⟨.unauthorizedSender, (revertIf_bind_of_neg hsrc _ _).trans
          (revertIf_bind_of_pos (hguard.resolve_left hsrc) _ _), rfl⟩
    · exact absurd h nofun
  receive_of_some := by
    intro ctx d s k warp h
    obtain ⟨hsrc, hsender, rfl⟩ := key_eq_some_iff.mp h
    exact (revertIf_bind_of_neg hsrc _ _).trans
      (revertIf_bind_of_neg (Bool.ne_false_iff.mpr hsender) _ _)

end AvaxWarpAdapter
