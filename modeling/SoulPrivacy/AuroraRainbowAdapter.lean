import SoulPrivacy.BridgeAdapter

/-!
# The Rainbow Bridge (`AuroraRainbowAdapter.sol`)

Messages for Near are put into the text of a call. Anyone may deliver one
that comes from there.
-/

open BridgeAdapter (Context Event MessageKey)

namespace AuroraRainbowAdapter

/-- The storage. A string is the list of its bytes. -/
structure Storage where
  chainToNearAccount : Uint256 → Bytes
  processedMessages : Bytes32 → Bool
  governance : Address

/-- The errors of the adapter. -/
inductive Error where
  | unauthorized
  | unsupportedChain (chainId : Uint256)
  | bridgeCallFailed
  | messageAlreadyProcessed (messageId : Bytes32)
  /-- An arithmetic panic. -/
  | panic
  deriving DecidableEq

/-- **The precompile for calls of other contracts, during a call**: whether
a call with some gas succeeds. -/
structure CrossContract where
  call : Uint256 → Bytes → Bool

/-- The constructor. -/
def construct (sender : Address) : Storage where
  chainToNearAccount := fun _ => []
  processedMessages := fun _ => false
  governance := sender

/-- `processedMessages[messageId] = true`. -/
def Storage.mark (messageId : Bytes32) (s : Storage) : Storage :=
  { s with processedMessages := Function.update s.processedMessages messageId true }

/-! ## Texts -/

/-- The first loop of `_uintToString`. -/
def countDigits (temp digits : ℕ) : ℕ :=
  if temp = 0 then digits else countDigits (temp / 10) (digits + 1)
termination_by temp
decreasing_by exact Nat.div_lt_self (Nat.pos_of_ne_zero (by assumption)) (by decide)

/-- The second loop of `_uintToString`. It would panic where it takes one
from a number of digits that is zero. -/
def fillDigits (value digits : ℕ) (buffer : Bytes) : Except Error Bytes :=
  if value = 0 then .ok buffer
  else
    match digits with
    | 0 => .error .panic
    | digits + 1 =>
      fillDigits (value / 10) digits (buffer.set digits (BitVec.ofNat 8 (48 + value % 10)))

/-- `_uintToString`. -/
def uintToString (value : Uint256) : Except Error Bytes :=
  if value = 0 then .ok (ascii "0")
  else
    let digits := countDigits value.toNat 0
    fillDigits value.toNat digits (List.replicate digits 0)

/-- The byte at a place of `0123456789abcdef`. -/
def alphabet (i : BitVec 8) : BitVec 8 := (ascii "0123456789abcdef").getD i.toNat 0

/-- `_bytesToHex`. -/
def bytesToHex (data : Bytes) : Bytes :=
  data.flatMap (fun b : BitVec 8 => [alphabet (b >>> 4), alphabet (b &&& 0x0f)])

/-- `_addressToString`. -/
def addressToString (addr : Address) : Bytes := ascii "0x" ++ bytesToHex addr.toBytes

/-! ## Entry points -/

variable (keccak256 : Bytes → Bytes32)

/-- The call of `receive_privacy_message` on Near. -/
def callData (nearAccount : Bytes) (chainId : Uint256) (sender : Address) (payload : Bytes) :
    Except Error Bytes := do
  let chain ← uintToString chainId
  .ok (nearAccount ++ ascii "\x7b\"source_chain\":" ++ chain ++ ascii ",\"sender\":\""
    ++ addressToString sender ++ ascii "\",\"payload\":\"" ++ bytesToHex payload
    ++ ascii "\"\x7d")

/-- `sendMessage`, which returns the id and changes nothing. -/
def sendMessage (ctx : Context) (near : CrossContract) (destinationChainId : Uint256)
    (payload : Bytes) (gasLimit : Uint256) (s : Storage) :
    Except Error (Bytes32 × List Event) := do
  let nearAccount := s.chainToNearAccount destinationChainId
  revertIf (nearAccount.length = 0) (.unsupportedChain destinationChainId)
  let data ← callData nearAccount ctx.chainId ctx.sender payload
  revertIf (near.call gasLimit data = false) .bridgeCallFailed
  let messageId := keccak256 (Bytes32.toBytes ctx.chainId ++ Bytes32.toBytes destinationChainId
    ++ Bytes32.toBytes ctx.number ++ Address.toBytes ctx.sender ++ payload)
  .ok (messageId, [.messageSent destinationChainId messageId ctx.sender payload])

/-- `receiveMessage`, which does not look at the caller. -/
def receiveMessage (ctx : Context) (sourceChainId : Uint256) (sender : Address)
    (payload : Bytes) (s : Storage) : Except Error (Storage × List Event) := do
  let messageId := keccak256 (MessageKey.packed ⟨sourceChainId, sender, ctx.number, payload⟩)
  revertIf (s.processedMessages messageId = true) (.messageAlreadyProcessed messageId)
  .ok (s.mark messageId, [.messageReceived sourceChainId messageId sender payload])

/-- `isChainSupported`. -/
def isChainSupported (chainId : Uint256) (s : Storage) : Bool :=
  decide (0 < (s.chainToNearAccount chainId).length)

/-- A call that only governance may make. -/
def governed (ctx : Context) (s s' : Storage) : Except Error (Storage × List Event) := do
  revertIf (ctx.sender ≠ s.governance) .unauthorized
  .ok (s', [])

/-- `registerChain`. -/
def registerChain (ctx : Context) (chainId : Uint256) (nearAccount : Bytes) (s : Storage) :=
  governed ctx s { s with
    chainToNearAccount := Function.update s.chainToNearAccount chainId nearAccount }

/-- `setGovernance`. -/
def setGovernance (ctx : Context) (governance : Address) (s : Storage) :=
  governed ctx s { s with governance := governance }

/-- The entry points besides `receiveMessage`. -/
inductive Entry where
  | sendMessage (destinationChainId : Uint256) (payload : Bytes) (gasLimit : Uint256)
  | registerChain (chainId : Uint256) (nearAccount : Bytes)
  | setGovernance (governance : Address)

/-- The chain that a call sends to, if it is one of `sendMessage`. -/
def Entry.destination : Entry → Option Uint256
  | .sendMessage destinationChainId .. => some destinationChainId
  | _ => none

/-- A call of an entry point. -/
def exec (ctx : Context) (near : CrossContract) (e : Entry) (s : Storage) :
    Except Error (Storage × List Event) :=
  match e with
  | .sendMessage destinationChainId payload gasLimit =>
    (sendMessage keccak256 ctx near destinationChainId payload gasLimit s).map
      (fun p => (s, p.2))
  | .registerChain chainId nearAccount => registerChain ctx chainId nearAccount s
  | .setGovernance governance => setGovernance ctx governance s

/-- The arguments of `receiveMessage`. -/
structure Delivery where
  sourceChainId : Uint256
  sender : Address
  payload : Bytes

/-- **The adapter.** -/
def adapter : BridgeAdapter where
  Storage := Storage
  Error := Error
  Outside := CrossContract
  Entry := Entry
  Delivery := Delivery
  Deployed := fun s => ∃ sender, s = construct sender
  entry := exec keccak256
  receive := fun ctx _ d => receiveMessage keccak256 ctx d.sourceChainId d.sender d.payload
  isReplay := fun
    | .messageAlreadyProcessed _ => true
    | _ => false

/-! ## Messages and their ids -/

/-- **The Aurora adapter keeps the ids of its messages.** There are no
checks before the id is looked up, so each delivery has a key. -/
def keyed : (adapter keccak256).Keyed keccak256 where
  processed := Storage.processedMessages
  mark := Storage.mark
  replayed := .messageAlreadyProcessed
  key := fun ctx d _ => some ⟨d.sourceChainId, d.sender, ctx.number, d.payload⟩
  preimage := fun _ => MessageKey.packed
  late := fun _ => .ok ()
  announced := fun d => (d.sourceChainId, d.sender, d.payload)
  preimage_injective := fun _ => MessageKey.packed_injective
  processed_deployed := by
    rintro _ ⟨sender, rfl⟩ id
    rfl
  processed_mark := fun _ _ => rfl
  preimage_mark := fun _ _ => rfl
  isReplay_replayed := fun _ => rfl
  isReplay_late := fun h => absurd h nofun
  entry_frame := by
    intro ctx near e s s' events h
    cases e with
    | sendMessage destinationChainId payload gasLimit =>
      obtain ⟨⟨id, es⟩, hsend, heq⟩ := Except.map_eq_ok.mp h
      obtain ⟨-, hsend⟩ := (revertIf_bind_eq_ok _ _ _ _).mp hsend
      obtain ⟨_, -, hsend⟩ := (Except.bind_eq_ok _ _ _).mp hsend
      obtain ⟨-, hsend⟩ := (revertIf_bind_eq_ok _ _ _ _).mp hsend
      cases hsend
      cases heq
      exact ⟨rfl, rfl, by simp [Event.isReceived]⟩
    | _ =>
      obtain ⟨-, heq⟩ := (revertIf_bind_eq_ok _ _ _ _).mp h
      cases heq
      exact ⟨rfl, rfl, by simp⟩
  receive_of_none := fun _ h => absurd h nofun
  receive_of_some := by
    intro ctx d s k near h
    cases h
    rfl

end AuroraRainbowAdapter
