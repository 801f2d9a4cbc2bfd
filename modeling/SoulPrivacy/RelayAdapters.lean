import SoulPrivacy.Abi
import SoulPrivacy.HexWords
import SoulPrivacy.Relayer

/-!
# The bridge adapters of the relayer (`relayer/src/adapters`)

An adapter sends an epoch root to the chains of one protocol. The four of them
prepare a transaction each in its way, and hand it to a node. What becomes of it
is not theirs to choose (`TxOutcome`): the node may refuse it, or lose it, or it
is mined, and then its receipt has a status that says whether it was reverted.

None of the adapters looks at that status (`sendEpochRoot_eq_ok_iff`). The
dispatcher of the same program does, for the same receipt (`evmTxResult_eq_ok_iff`).

How texts are read as addresses of nodes, keys and addresses is a parameter
(`Ethers`).
-/

namespace RelayEngine

/-- `AdapterError`. -/
inductive AdapterError where
  | rpc (msg : String)
  | signing (msg : String)
  | bridge (msg : String)
  | unsupportedChain (chainId : BitVec 64)
  deriving DecidableEq

/-- `AdapterError`, as it is displayed. -/
def AdapterError.toText : AdapterError → String
  | .rpc msg => "RPC error: " ++ msg
  | .signing msg => "signing error: " ++ msg
  | .bridge msg => "bridge error: " ++ msg
  | .unsupportedChain chainId => "unsupported chain: " ++ toString chainId.toNat

/-- `EpochRootMessage`. -/
structure EpochRootMessage where
  sourceChainId : BitVec 64
  epochId : BitVec 64
  nullifierRoot : Bytes32
  nullifierCount : BitVec 32

/-- `ChainWatchConfig`, with what a transaction needs. -/
structure ChainWatchConfig extends Relayer.ChainWatchConfig where
  httpRpcUrl : String
  signerKey : String

/-- **How texts are read.** An error is the text it is displayed with. -/
structure Ethers where
  /-- `Provider::<Http>::try_from`. -/
  parseUrl : String → Except String Unit
  /-- `parse::<LocalWallet>`. -/
  parseKey : String → Except String Unit
  /-- `parse::<Address>`. -/
  parseAddress : String → Option Address

/-- `TransactionRequest`. -/
structure TransactionRequest where
  toAddr : Address
  data : Bytes
  gas : BitVec 64

/-- **What becomes of a transaction** that is sent. -/
inductive TxOutcome where
  /-- The node does not take it. -/
  | sendError (msg : String)
  /-- Waiting for it fails. -/
  | awaitError (msg : String)
  /-- There is no receipt of it. -/
  | noReceipt
  /-- It is mined; the status is `1` unless it was reverted. -/
  | mined (transactionHash : Bytes32) (status : Option (BitVec 64))

/-- The receipt of a transaction that is mined says that it succeeded. -/
def TxOutcome.Succeeded : TxOutcome → Prop
  | .mined _ status => status = some 1
  | _ => False

/-- `format!("{:?}", transaction_hash)`. -/
def hashText (transactionHash : Bytes32) : String := "0x" ++ transactionHash.toHex

/-! ## What the adapters share -/

/-- The data of a call with a selector: two numbers and the root. -/
def encodeCall (selector : Bytes) (message : EpochRootMessage) : Bytes :=
  selector ++ (List.replicate 24 0 ++ beBytes 8 message.sourceChainId.toNat)
    ++ (List.replicate 24 0 ++ beBytes 8 message.epochId.toNat)
    ++ Bytes32.toBytes message.nullifierRoot

/-- `send_evm_transaction` and its likes, up to the transaction. -/
def prepareTransaction (ethers : Ethers) (invalid : String) (gas : BitVec 64)
    (rpcUrl signerKey toText : String) (calldata : Bytes) :
    Except AdapterError TransactionRequest := do
  (ethers.parseUrl rpcUrl).mapError .rpc
  (ethers.parseKey signerKey).mapError .signing
  let toAddr ← orRevert (.bridge (invalid ++ toText)) (ethers.parseAddress toText)
  .ok ⟨toAddr, calldata, gas⟩

/-- … and from there on. **Every receipt will do.** -/
def sendTransaction : TxOutcome → Except AdapterError String
  | .sendError msg => .error (.rpc msg)
  | .awaitError msg => .error (.rpc msg)
  | .noReceipt => .error (.rpc "no receipt")
  | .mined transactionHash _ => .ok (hashText transactionHash)

/-- `BridgeAdapter`. -/
structure BridgeAdapter where
  protocolName : String
  supportsChain : BitVec 64 → Bool
  /-- `send_epoch_root`, up to the transaction. -/
  prepare : Ethers → ChainWatchConfig → EpochRootMessage → Except AdapterError TransactionRequest

/-- **`send_epoch_root`**, with what becomes of its transaction. -/
def BridgeAdapter.sendEpochRoot (adapter : BridgeAdapter) (ethers : Ethers)
    (targetChain : ChainWatchConfig) (message : EpochRootMessage) (outcome : TxOutcome) :
    Except AdapterError String := do
  let _ ← adapter.prepare ethers targetChain message
  sendTransaction outcome

/-- An adapter that sends to the address the chain is configured with. -/
def gatewayPrepare (supports : BitVec 64 → Bool) (missing : String) (selector : Bytes)
    (gas : BitVec 64) (ethers : Ethers) (targetChain : ChainWatchConfig)
    (message : EpochRootMessage) : Except AdapterError TransactionRequest := do
  revertIf (supports targetChain.chainId = false) (.unsupportedChain targetChain.chainId)
  let bridgeAddr ← orRevert (.bridge missing) targetChain.bridgeAdapterAddress
  prepareTransaction ethers "invalid address: " gas targetChain.httpRpcUrl targetChain.signerKey
    bridgeAddr (encodeCall selector message)

/-! ## The adapters -/

/-- `is_avalanche`. -/
def isAvalanche (chainId : BitVec 64) : Bool := chainId == 43114 || chainId == 43113

/-- `AwmAdapter`. -/
def awmAdapter : BridgeAdapter where
  protocolName := "Avalanche Warp Messaging"
  supportsChain := isAvalanche
  prepare := gatewayPrepare isAvalanche "no bridge adapter address configured"
    [0x46, 0x4b, 0xe0, 0xfa] 300000

/-- `is_polkadot_parachain`. -/
def isPolkadotParachain (chainId : BitVec 64) : Bool :=
  chainId == 1284 || chainId == 1287 || chainId == 592 || chainId == 81

/-- `XCM_PRECOMPILE`. -/
def XCM_PRECOMPILE : String := "0x0000000000000000000000000000000000000805"

/-- `XcmAdapter`, which sends to a precompile and not to a configured address. -/
def xcmAdapter : BridgeAdapter where
  protocolName := "XCM"
  supportsChain := isPolkadotParachain
  prepare := fun ethers targetChain message => do
    revertIf (isPolkadotParachain targetChain.chainId = false)
      (.unsupportedChain targetChain.chainId)
    prepareTransaction ethers "invalid precompile address: " 500000 targetChain.httpRpcUrl
      targetChain.signerKey XCM_PRECOMPILE (encodeCall [0x62, 0x7d, 0x6f, 0xf6] message)

/-- `is_cosmos_chain`. -/
def isCosmosChain (chainId : BitVec 64) : Bool := chainId == 9001 || chainId == 9000

/-- `IbcAdapter`. -/
def ibcAdapter : BridgeAdapter where
  protocolName := "IBC"
  supportsChain := isCosmosChain
  prepare := gatewayPrepare isCosmosChain "no IBC gateway address configured"
    [0x8c, 0x87, 0xcb, 0xe6] 400000

/-- `is_aurora`. -/
def isAurora (chainId : BitVec 64) : Bool := chainId == 1313161554 || chainId == 1313161555

/-- `RainbowAdapter`. -/
def rainbowAdapter : BridgeAdapter where
  protocolName := "Rainbow Bridge"
  supportsChain := isAurora
  prepare := gatewayPrepare isAurora "no Rainbow Bridge connector address configured"
    [0xf2, 0x86, 0xb6, 0xad] 350000

/-! ## Which receipts are taken -/

/-- **Every adapter takes every receipt.** It reports a transaction that was
prepared and mined, whatever the status is. -/
theorem sendEpochRoot_eq_ok_iff (adapter : BridgeAdapter) (ethers : Ethers)
    (targetChain : ChainWatchConfig) (message : EpochRootMessage) (outcome : TxOutcome)
    (txHash : String) :
    adapter.sendEpochRoot ethers targetChain message outcome = .ok txHash
      ↔ (∃ tx, adapter.prepare ethers targetChain message = .ok tx)
        ∧ ∃ transactionHash status, outcome = .mined transactionHash status
          ∧ txHash = hashText transactionHash := by
  unfold BridgeAdapter.sendEpochRoot
  rw [Except.bind_eq_ok, exists_and_right]
  refine and_congr_right (fun _ => ?_)
  cases outcome with
  | mined transactionHash status =>
    show (Except.ok _ : Except AdapterError String) = .ok txHash ↔ _
    rw [Except.ok.injEq]
    constructor
    · rintro rfl
      exact ⟨_, _, rfl, rfl⟩
    · rintro ⟨_, _, heq, rfl⟩
      cases heq
      rfl
  | _ => exact iff_of_false nofun nofun

/-- `DispatchError`, of a transaction that is sent. -/
inductive EvmTxError where
  | rpc (msg : String)
  | reverted (txHash : String)

/-- `send_evm_tx` of the dispatcher, from the transaction on. -/
def evmTxResult : TxOutcome → Except EvmTxError String
  | .sendError msg => .error (.rpc msg)
  | .awaitError msg => .error (.rpc msg)
  | .noReceipt => .error (.rpc "No receipt returned")
  | .mined transactionHash status =>
    let success := (status.map (fun s => decide (s = 1))).getD false
    if success = false then .error (.reverted (hashText transactionHash))
    else .ok (hashText transactionHash)

/-- **The dispatcher takes the receipts of success only.** -/
theorem evmTxResult_eq_ok_iff (outcome : TxOutcome) :
    (∃ txHash, evmTxResult outcome = .ok txHash) ↔ outcome.Succeeded := by
  cases outcome with
  | mined transactionHash status =>
    cases status with
    | none => exact iff_of_false nofun nofun
    | some s =>
      by_cases hs : s = 1
      · subst hs
        exact iff_of_true ⟨_, rfl⟩ rfl
      · have hreverted : evmTxResult (.mined transactionHash (some s))
          = .error (.reverted (hashText transactionHash)) := if_pos (decide_eq_false hs)
        rw [hreverted]
        exact iff_of_false nofun (fun h => hs (Option.some.inj h))
  | _ => exact iff_of_false nofun nofun

end RelayEngine
