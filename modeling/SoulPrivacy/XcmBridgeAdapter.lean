import SoulPrivacy.BridgeAdapter

/-!
# XCM (`XcmBridgeAdapter.sol`)

A message from another parachain arrives as a call of the sovereign account
of that parachain, and the adapter takes it from no one else.
-/

open BridgeAdapter (Context Event MessageKey)

namespace XcmBridgeAdapter

/-- `Multilocation`. -/
structure Multilocation where
  parents : BitVec 8
  interior : List Bytes
  deriving DecidableEq

/-- `ParachainRoute`. -/
structure ParachainRoute where
  paraId : BitVec 32
  remoteContract : Address
  transactWeight : BitVec 64
  overallWeight : BitVec 64
  feeAmount : Uint256
  active : Bool
  deriving DecidableEq

/-- The storage, with the immutable `thisParaId`. -/
structure Storage where
  thisParaId : BitVec 32
  routes : Uint256 → ParachainRoute
  supportedChains : List Uint256
  processedMessages : Bytes32 → Bool
  sovereignAccounts : Uint256 → Address
  governance : Address

/-- The errors of the adapter. -/
inductive Error where
  | unauthorized
  | unsupportedChain (chainId : Uint256)
  | routeInactive (chainId : Uint256)
  | xcmTransactFailed
  | messageAlreadyProcessed (messageId : Bytes32)
  | invalidSovereignAccount
  deriving DecidableEq

/-- **The transactor precompile, during a call**: whether it transacts. -/
structure XcmTransactor where
  transactThroughSigned : Multilocation → Address → Bytes → BitVec 64 → BitVec 64 → Bool

/-- The constructor. -/
def construct (sender : Address) (thisParaId : BitVec 32) : Storage where
  thisParaId := thisParaId
  routes := fun _ => ⟨0, 0, 0, 0, 0, false⟩
  supportedChains := []
  processedMessages := fun _ => false
  sovereignAccounts := fun _ => 0
  governance := sender

/-- `processedMessages[messageId] = true`. -/
def Storage.mark (messageId : Bytes32) (s : Storage) : Storage :=
  { s with processedMessages := Function.update s.processedMessages messageId true }

variable (keccak256 : Bytes → Bytes32)

/-- `abi.encodeWithSignature`, of the call to be made on the other chain. -/
def remoteCall (chainId : Uint256) (sender : Address) (payload : Bytes) : Bytes :=
  (Bytes32.toBytes (keccak256 (ascii "receiveMessage(uint256,address,bytes)"))).take 4
    ++ Abi.encode [chainId, sender.toWord] payload

/-- The location of a parachain. -/
def parachain (paraId : BitVec 32) : Multilocation where
  parents := 1
  interior := [0 :: beBytes 4 paraId.toNat]

/-- `sendMessage`, which returns the id and changes nothing. -/
def sendMessage (ctx : Context) (xcm : XcmTransactor) (destinationChainId : Uint256)
    (payload : Bytes) (s : Storage) : Except Error (Bytes32 × List Event) := do
  let route := s.routes destinationChainId
  revertIf (route.paraId = 0) (.unsupportedChain destinationChainId)
  revertIf (route.active = false) (.routeInactive destinationChainId)
  let call := remoteCall keccak256 ctx.chainId ctx.sender payload
  let success := xcm.transactThroughSigned (parachain route.paraId) route.remoteContract call
    route.transactWeight route.overallWeight
  revertIf (success = false) .xcmTransactFailed
  let messageId := keccak256 (beBytes 4 s.thisParaId.toNat ++ beBytes 4 route.paraId.toNat
    ++ Bytes32.toBytes ctx.number ++ Address.toBytes ctx.sender ++ payload)
  .ok (messageId, [.messageSent destinationChainId messageId ctx.sender payload])

/-- `receiveMessage`. -/
def receiveMessage (ctx : Context) (sourceChainId : Uint256) (sender : Address)
    (payload : Bytes) (s : Storage) : Except Error (Storage × List Event) := do
  let expectedSovereign := s.sovereignAccounts sourceChainId
  revertIf (expectedSovereign = 0) (.unsupportedChain sourceChainId)
  revertIf (ctx.sender ≠ expectedSovereign) .invalidSovereignAccount
  let messageId := keccak256 (MessageKey.packed ⟨sourceChainId, sender, ctx.number, payload⟩)
  revertIf (s.processedMessages messageId = true) (.messageAlreadyProcessed messageId)
  .ok (s.mark messageId, [.messageReceived sourceChainId messageId sender payload])

/-- `isChainSupported`. -/
def isChainSupported (chainId : Uint256) (s : Storage) : Bool :=
  (s.routes chainId).paraId != 0 && (s.routes chainId).active

/-- A call that only governance may make. -/
def governed (ctx : Context) (s s' : Storage) : Except Error (Storage × List Event) := do
  revertIf (ctx.sender ≠ s.governance) .unauthorized
  .ok (s', [])

/-- `registerRoute`. -/
def registerRoute (ctx : Context) (chainId : Uint256) (paraId : BitVec 32)
    (remoteContract : Address) (transactWeight overallWeight : BitVec 64) (feeAmount : Uint256)
    (sovereignAccount : Address) (s : Storage) :=
  governed ctx s { s with
    routes := Function.update s.routes chainId
      ⟨paraId, remoteContract, transactWeight, overallWeight, feeAmount, true⟩
    sovereignAccounts := Function.update s.sovereignAccounts chainId sovereignAccount
    supportedChains := s.supportedChains ++ [chainId] }

/-- `setRouteActive`. -/
def setRouteActive (ctx : Context) (chainId : Uint256) (active : Bool) (s : Storage) :=
  governed ctx s { s with
    routes := Function.update s.routes chainId { s.routes chainId with active := active } }

/-- `updateRouteFee`. -/
def updateRouteFee (ctx : Context) (chainId feeAmount : Uint256) (s : Storage) :=
  governed ctx s { s with
    routes := Function.update s.routes chainId { s.routes chainId with feeAmount := feeAmount } }

/-- `updateSovereignAccount`. -/
def updateSovereignAccount (ctx : Context) (chainId : Uint256) (sovereign : Address)
    (s : Storage) :=
  governed ctx s { s with
    sovereignAccounts := Function.update s.sovereignAccounts chainId sovereign }

/-- `setGovernance`. -/
def setGovernance (ctx : Context) (governance : Address) (s : Storage) :=
  governed ctx s { s with governance := governance }

/-- The entry points besides `receiveMessage`. -/
inductive Entry where
  | sendMessage (destinationChainId : Uint256) (payload : Bytes)
  | registerRoute (chainId : Uint256) (paraId : BitVec 32) (remoteContract : Address)
      (transactWeight overallWeight : BitVec 64) (feeAmount : Uint256)
      (sovereignAccount : Address)
  | setRouteActive (chainId : Uint256) (active : Bool)
  | updateRouteFee (chainId feeAmount : Uint256)
  | updateSovereignAccount (chainId : Uint256) (sovereign : Address)
  | setGovernance (governance : Address)

/-- The chain that a call sends to, if it is one of `sendMessage`. -/
def Entry.destination : Entry → Option Uint256
  | .sendMessage destinationChainId .. => some destinationChainId
  | _ => none

/-- A call of an entry point. -/
def exec (ctx : Context) (xcm : XcmTransactor) (e : Entry) (s : Storage) :
    Except Error (Storage × List Event) :=
  match e with
  | .sendMessage destinationChainId payload =>
    (sendMessage keccak256 ctx xcm destinationChainId payload s).map (fun p => (s, p.2))
  | .registerRoute chainId paraId remoteContract transactWeight overallWeight feeAmount
      sovereignAccount =>
    registerRoute ctx chainId paraId remoteContract transactWeight overallWeight feeAmount
      sovereignAccount s
  | .setRouteActive chainId active => setRouteActive ctx chainId active s
  | .updateRouteFee chainId feeAmount => updateRouteFee ctx chainId feeAmount s
  | .updateSovereignAccount chainId sovereign => updateSovereignAccount ctx chainId sovereign s
  | .setGovernance governance => setGovernance ctx governance s

/-- The arguments of `receiveMessage`. -/
structure Delivery where
  sourceChainId : Uint256
  sender : Address
  payload : Bytes

/-- **The adapter.** -/
def adapter : BridgeAdapter where
  Storage := Storage
  Error := Error
  Outside := XcmTransactor
  Entry := Entry
  Delivery := Delivery
  Deployed := fun s => ∃ sender thisParaId, s = construct sender thisParaId
  entry := exec keccak256
  receive := fun ctx _ d => receiveMessage keccak256 ctx d.sourceChainId d.sender d.payload
  isReplay := fun
    | .messageAlreadyProcessed _ => true
    | _ => false

/-! ## Messages and their ids -/

/-- The checks before the id is looked up. -/
def key (ctx : Context) (d : Delivery) (s : Storage) : Option MessageKey :=
  if s.sovereignAccounts d.sourceChainId = 0
      ∨ ctx.sender ≠ s.sovereignAccounts d.sourceChainId then none
  else some ⟨d.sourceChainId, d.sender, ctx.number, d.payload⟩

theorem key_eq_some_iff {ctx : Context} {d : Delivery} {s : Storage} {k : MessageKey} :
    key ctx d s = some k
      ↔ s.sovereignAccounts d.sourceChainId ≠ 0
        ∧ ctx.sender = s.sovereignAccounts d.sourceChainId
        ∧ ⟨d.sourceChainId, d.sender, ctx.number, d.payload⟩ = k := by
  unfold key
  split
  · rename_i hguard
    exact iff_of_false nofun (fun h => hguard.elim h.1 (fun hcaller => hcaller h.2.1))
  · rename_i hguard
    rw [not_or, not_not] at hguard
    rw [Option.some.injEq, and_iff_right hguard.1, and_iff_right hguard.2]

/-- **The XCM adapter keeps the ids of its messages.** -/
def keyed : (adapter keccak256).Keyed keccak256 where
  processed := Storage.processedMessages
  mark := Storage.mark
  replayed := .messageAlreadyProcessed
  key := key
  preimage := fun _ => MessageKey.packed
  late := fun _ => .ok ()
  announced := fun d => (d.sourceChainId, d.sender, d.payload)
  preimage_injective := fun _ => MessageKey.packed_injective
  processed_deployed := by
    rintro _ ⟨sender, thisParaId, rfl⟩ id
    rfl
  processed_mark := fun _ _ => rfl
  preimage_mark := fun _ _ => rfl
  isReplay_replayed := fun _ => rfl
  isReplay_late := fun h => absurd h nofun
  entry_frame := by
    intro ctx xcm e s s' events h
    cases e with
    | sendMessage destinationChainId payload =>
      obtain ⟨⟨id, es⟩, hsend, heq⟩ := Except.map_eq_ok.mp h
      simp only [sendMessage, revertIf_bind_eq_ok, Except.ok.injEq, Prod.mk.injEq] at hsend
      obtain ⟨-, -, -, -, rfl⟩ := hsend
      cases heq
      exact ⟨rfl, rfl, by simp [Event.isReceived]⟩
    | _ =>
      obtain ⟨-, heq⟩ := (revertIf_bind_eq_ok _ _ _ _).mp h
      cases heq
      exact ⟨rfl, rfl, by simp⟩
  receive_of_none := by
    intro ctx d s xcm h
    unfold key at h
    split at h
    · rename_i hguard
      by_cases hzero : s.sovereignAccounts d.sourceChainId = 0
      · exact ⟨.unsupportedChain d.sourceChainId, revertIf_bind_of_pos hzero _ _, rfl⟩
      · exact ⟨.invalidSovereignAccount, (revertIf_bind_of_neg hzero _ _).trans
          (revertIf_bind_of_pos (hguard.resolve_left hzero) _ _), rfl⟩
    · exact absurd h nofun
  receive_of_some := by
    intro ctx d s k xcm h
    obtain ⟨hsovereign, hcaller, rfl⟩ := key_eq_some_iff.mp h
    exact (revertIf_bind_of_neg hsovereign _ _).trans
      (revertIf_bind_of_neg (not_not_intro hcaller) _ _)

end XcmBridgeAdapter
