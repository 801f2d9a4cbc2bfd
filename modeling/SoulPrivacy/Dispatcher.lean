import SoulPrivacy.AbiCodec
import SoulPrivacy.Aggregator

/-!
# The dispatcher of the relayer (`relayer/src/dispatcher.rs`)

For a command of the aggregator the dispatcher assembles the data of a call: of
the registry, or of a bridge adapter, with the call that the adapter is to make
on the other chain as its payload.

Two of the three signatures are not those of the contracts. The registry takes
the number of nullifiers as a `uint256`, and the epoch manager's function has
another name. What is encoded with them has another selector and is no call of
these functions, whatever the arguments are. The adapters' function is called
with its arguments, but the chain in the position of the destination is the one
the root comes from (`calldata_matches`).

How a text is read as an address is a parameter (`parseAddress`).
-/

namespace Relayer

open Abi (Token selector encodeTokens)

/-! ## The functions of the contracts -/

/-- `UniversalNullifierRegistry.submitEpochRoot`. -/
def submitEpochRoot : Abi.Function := ⟨"submitEpochRoot", [.uint256, .uint256, .bytes32, .uint256]⟩

/-- `EpochManager.receiveRemoteEpochRoot`. -/
def receiveRemoteEpochRoot : Abi.Function :=
  ⟨"receiveRemoteEpochRoot", [.uint256, .uint256, .bytes32]⟩

/-- `IBridgeAdapter.sendMessage`. -/
def sendMessage : Abi.Function := ⟨"sendMessage", [.uint256, .address, .bytes, .uint256]⟩

/-! ## The encoders -/

/-- `encode_receive_remote_root`. -/
def encodeReceiveRemoteRoot (sourceChainId epochId : BitVec 64) (root : Bytes32) : Bytes :=
  selector "receiveRemoteRoot(uint256,uint256,bytes32)"
    ++ encodeTokens [.uint (sourceChainId.setWidth 256), .uint (epochId.setWidth 256),
      .fixedBytes root]

/-- `encode_send_message`, with the recipient that `parse().unwrap_or_default()` gives. -/
def encodeSendMessage (destinationChainId : BitVec 64) (recipient : Option Address)
    (payload : Bytes) (gasLimit : BitVec 64) : Bytes :=
  selector "sendMessage(uint256,address,bytes,uint256)"
    ++ encodeTokens [.uint (destinationChainId.setWidth 256), .address (recipient.getD 0),
      .bytes payload, .uint (gasLimit.setWidth 256)]

/-- `encode_submit_epoch_root`. -/
def encodeSubmitEpochRoot (chainId epochId : BitVec 64) (root : Bytes32)
    (nullifierCount : BitVec 32) : Bytes :=
  selector "submitEpochRoot(uint256,uint256,bytes32,uint32)"
    ++ encodeTokens [.uint (chainId.setWidth 256), .uint (epochId.setWidth 256),
      .fixedBytes root, .uint (nullifierCount.setWidth 256)]

/-! ## The dispatcher -/

/-- `DispatchError`, of what is checked before a transaction is sent. -/
inductive DispatchError where
  | unknownChain (chainId : BitVec 64)
  | noBridgeAdapter (chainId : BitVec 64)
  deriving DecidableEq

/-- The transaction that `send_evm_tx` is asked for. -/
structure EvmTx where
  toAddr : String
  calldata : Bytes
  deriving DecidableEq

variable (parseAddress : String → Option Address) (config : RelayerConfig)

/-- `find_chain`. -/
def findChain (chainId : BitVec 64) : Option ChainWatchConfig :=
  config.chains.find? (fun chain => chain.chainId == chainId)

/-- `send_to_chain`, up to the transaction. -/
def sendToChain (targetChainId sourceChainId epochId : BitVec 64) (nullifierRoot : Bytes32) :
    Except DispatchError EvmTx :=
  match findChain config targetChainId with
  | none => .error (.unknownChain targetChainId)
  | some chain =>
    match chain.bridgeAdapterAddress with
    | none => .error (.noBridgeAdapter targetChainId)
    | some bridge =>
      -- "destination perspective: we send from source"
      .ok ⟨bridge, encodeSendMessage sourceChainId (parseAddress chain.epochManagerAddress)
        (encodeReceiveRemoteRoot sourceChainId epochId nullifierRoot) 200000⟩

/-- `submit_to_registry`, up to the transaction. -/
def submitToRegistry (sourceChainId epochId : BitVec 64) (nullifierRoot : Bytes32)
    (nullifierCount : BitVec 32) : EvmTx :=
  ⟨config.registry.address, encodeSubmitEpochRoot sourceChainId epochId nullifierRoot
    nullifierCount⟩

/-- `dispatch`. -/
def dispatch : RelayCommand → Except DispatchError EvmTx
  | .sendToChain target source epoch root =>
      sendToChain parseAddress config target source epoch root
  | .submitToRegistry source epoch root count =>
      .ok (submitToRegistry config source epoch root count)

/-! ## What the contracts read -/

/-- **Each payload is a call of the contract's function with the arguments it was built
for**: that of the registry, that of the epoch manager, and that of the adapter, with the
target in the position of the destination. -/
structure CalldataMatches (target source epoch : BitVec 64) (root : Bytes32)
    (count : BitVec 32) : Prop where
  submit : submitEpochRoot.decodeCall (encodeSubmitEpochRoot source epoch root count)
    = some [.uint (source.setWidth 256), .uint (epoch.setWidth 256), .fixedBytes root,
      .uint (count.setWidth 256)]
  receive : receiveRemoteEpochRoot.decodeCall (encodeReceiveRemoteRoot source epoch root)
    = some [.uint (source.setWidth 256), .uint (epoch.setWidth 256), .fixedBytes root]
  send : ∀ tx chain, sendToChain parseAddress config target source epoch root = .ok tx →
    findChain config target = some chain →
    sendMessage.decodeCall tx.calldata
      = some [.uint (target.setWidth 256),
        .address ((parseAddress chain.epochManagerAddress).getD 0),
        .bytes (encodeReceiveRemoteRoot source epoch root), .uint 200000]

/-- The registry's function has another selector. -/
theorem selector_submit_ne : selector "submitEpochRoot(uint256,uint256,bytes32,uint32)"
    ≠ selector submitEpochRoot.signature := by
  decide +kernel

/-- The epoch manager's function has another selector. -/
theorem selector_receive_ne : selector "receiveRemoteRoot(uint256,uint256,bytes32)"
    ≠ selector receiveRemoteEpochRoot.signature := by
  decide +kernel

/-- **No call of the registry's function**, whatever the arguments are. -/
theorem decodeCall_encodeSubmitEpochRoot (chainId epochId : BitVec 64) (root : Bytes32)
    (count : BitVec 32) :
    submitEpochRoot.decodeCall (encodeSubmitEpochRoot chainId epochId root count) = none :=
  Abi.Function.decodeCall_of_ne selector_submit_ne _

/-- **No call of the epoch manager's function.** -/
theorem decodeCall_encodeReceiveRemoteRoot (sourceChainId epochId : BitVec 64) (root : Bytes32) :
    receiveRemoteEpochRoot.decodeCall (encodeReceiveRemoteRoot sourceChainId epochId root)
      = none :=
  Abi.Function.decodeCall_of_ne selector_receive_ne _

/-- **The adapter's function is called** with the arguments of `encode_send_message`. -/
theorem decodeCall_encodeSendMessage (destination : BitVec 64) (recipient : Option Address)
    {payload : Bytes} (gasLimit : BitVec 64) (hlen : payload.length < 2 ^ 63) :
    sendMessage.decodeCall (encodeSendMessage destination recipient payload gasLimit)
      = some [.uint (destination.setWidth 256), .address (recipient.getD 0), .bytes payload,
        .uint (gasLimit.setWidth 256)] := by
  have hsignature : sendMessage.signature = "sendMessage(uint256,address,bytes,uint256)" := by rfl
  unfold encodeSendMessage
  rw [← hsignature, Abi.Function.decodeCall_selector]
  refine Abi.decodeTokens_encodeTokens [.uint (destination.setWidth 256),
    .address (recipient.getD 0), .bytes payload, .uint (gasLimit.setWidth 256)] ?_
  have hpadding : (Abi.padding payload.length).length < 32 := by
    simp [Abi.padding]
    omega
  simp [encodeTokens, Abi.headSize, Token.type, Abi.Ty.headSize, Token.tail]
  omega

theorem length_encodeReceiveRemoteRoot (sourceChainId epochId : BitVec 64) (root : Bytes32) :
    (encodeReceiveRemoteRoot sourceChainId epochId root).length = 100 := by
  simp [encodeReceiveRemoteRoot, encodeTokens, Abi.headSize, Token.type, Abi.Ty.headSize,
    Token.tail]

variable {parseAddress config}

/-- What `send_to_chain` sends. -/
theorem sendToChain_eq_ok {target source epoch : BitVec 64} {root : Bytes32} {tx : EvmTx}
    (h : sendToChain parseAddress config target source epoch root = .ok tx) :
    ∃ chain, findChain config target = some chain
      ∧ tx.calldata = encodeSendMessage source (parseAddress chain.epochManagerAddress)
        (encodeReceiveRemoteRoot source epoch root) 200000 := by
  unfold sendToChain at h
  split at h
  · cases h
  · rename_i chain hchain
    split at h
    · cases h
    · cases h
      exact ⟨chain, hchain, rfl⟩

/-- **The adapter sends to the chain that the root comes from.** -/
theorem decodeCall_sendToChain {target source epoch : BitVec 64} {root : Bytes32} {tx : EvmTx}
    (h : sendToChain parseAddress config target source epoch root = .ok tx) :
    ∃ chain, findChain config target = some chain
      ∧ sendMessage.decodeCall tx.calldata
        = some [.uint (source.setWidth 256),
          .address ((parseAddress chain.epochManagerAddress).getD 0),
          .bytes (encodeReceiveRemoteRoot source epoch root), .uint 200000] := by
  obtain ⟨chain, hchain, hdata⟩ := sendToChain_eq_ok h
  refine ⟨chain, hchain, ?_⟩
  have hlen : (encodeReceiveRemoteRoot source epoch root).length < 2 ^ 63 := by
    rw [length_encodeReceiveRemoteRoot]
    decide
  rw [hdata]
  exact decodeCall_encodeSendMessage source _ 200000 hlen

theorem setWidth_inj {a b : BitVec 64} : a.setWidth 256 = b.setWidth 256 ↔ a = b := by
  refine ⟨fun h => BitVec.eq_of_toNat_eq ?_, congrArg _⟩
  have hnat := congrArg BitVec.toNat h
  rwa [BitVec.toNat_setWidth_of_le (by decide), BitVec.toNat_setWidth_of_le (by decide)] at hnat

/-- **The relayer's data never matches the contracts**: neither the registry's nor the epoch
manager's function is called, and the adapter's destination is the target only where that is
the source. -/
theorem calldata_never_matches (parseAddress : String → Option Address) (config : RelayerConfig)
    (target source epoch : BitVec 64) (root : Bytes32) (count : BitVec 32) :
    ¬ CalldataMatches parseAddress config target source epoch root count
      ∧ submitEpochRoot.decodeCall (encodeSubmitEpochRoot source epoch root count) = none
      ∧ receiveRemoteEpochRoot.decodeCall (encodeReceiveRemoteRoot source epoch root) = none
      ∧ ∀ tx chain, sendToChain parseAddress config target source epoch root = .ok tx →
        findChain config target = some chain →
        (sendMessage.decodeCall tx.calldata
            = some [.uint (target.setWidth 256),
              .address ((parseAddress chain.epochManagerAddress).getD 0),
              .bytes (encodeReceiveRemoteRoot source epoch root), .uint 200000]
          ↔ source = target) := by
  have hsubmit := decodeCall_encodeSubmitEpochRoot source epoch root count
  refine ⟨fun h => ?_, hsubmit, decodeCall_encodeReceiveRemoteRoot source epoch root, ?_⟩
  · cases hsubmit.symm.trans h.submit
  · intro tx chain hsend hchain
    obtain ⟨chain', hchain', hdecode⟩ := decodeCall_sendToChain hsend
    obtain rfl := Option.some.inj (hchain.symm.trans hchain')
    rw [hdecode, Option.some.injEq, List.cons.injEq, Token.uint.injEq, setWidth_inj]
    exact and_iff_left rfl

/-- **An epoch root that cannot be submitted**: that of epoch 5 of chain 43113. -/
theorem submit_not_decoded : ¬ ∀ (parseAddress : String → Option Address)
    (config : RelayerConfig) (target source epoch : BitVec 64) (root : Bytes32)
    (count : BitVec 32),
    CalldataMatches parseAddress config target source epoch root count := by
  intro hall
  have h := (hall (fun _ => none) ⟨[], ⟨""⟩, ⟨false, 0, false, 0⟩⟩ 1287 43113 5 9 2).submit
  cases (decodeCall_encodeSubmitEpochRoot 43113 5 9 2).symm.trans h

/-- The aggregator never asks for a message from a chain to itself, so each message it asks
for has the wrong destination. -/
theorem sendToChain_ne {event : EpochEvent} {target source epoch : BitVec 64} {root : Bytes32}
    (h : RelayCommand.sendToChain target source epoch root ∈ eventCommands config event) :
    source ≠ target := by
  unfold eventCommands at h
  rcases List.mem_cons.mp h with h | h
  · cases h
  · obtain ⟨chain, hchain, heq⟩ := List.mem_map.mp h
    cases heq
    have hne := (Bool.and_eq_true_iff.mp (List.mem_filter.mp hchain).2).1
    exact fun hsame => bne_iff_ne.mp hne hsame.symm

end Relayer
