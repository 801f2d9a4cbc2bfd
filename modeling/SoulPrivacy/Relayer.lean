import SoulPrivacy.Solidity

/-!
# The relayer (`relayer/src/lib.rs`, `relayer/src/config.rs`)

What the tasks of the daemon hand to each other: the watchers of the chains
send an `EpochEvent` for each epoch that a chain finalized, and of each the
aggregator makes some `RelayCommand`s, which the dispatcher executes.

Heights and times are naturals.
-/

namespace Relayer

/-- `ChainWatchConfig`. -/
structure ChainWatchConfig where
  chainId : BitVec 64
  name : String
  epochManagerAddress : String
  bridgeAdapterAddress : Option String
  confirmationBlocks : ℕ

/-- `RegistryConfig`. -/
structure RegistryConfig where
  address : String

/-- `MetadataResistanceConfig`. -/
structure MetadataResistanceConfig where
  jitterEnabled : Bool
  maxJitterMs : ℕ
  batchingEnabled : Bool
  batchSize : ℕ

/-- `RelayerConfig`. -/
structure RelayerConfig where
  chains : List ChainWatchConfig
  registry : RegistryConfig
  metadataResistance : MetadataResistanceConfig

/-- `EpochEvent`. -/
structure EpochEvent where
  chainId : BitVec 64
  chainName : String
  epochId : BitVec 64
  nullifierRoot : Bytes32
  nullifierCount : BitVec 32
  blockNumber : ℕ
  txHash : String
  timestamp : ℕ
  deriving DecidableEq

/-- `RelayCommand`. -/
inductive RelayCommand where
  | sendToChain (targetChainId sourceChainId epochId : BitVec 64) (nullifierRoot : Bytes32)
  | submitToRegistry (sourceChainId epochId : BitVec 64) (nullifierRoot : Bytes32)
      (nullifierCount : BitVec 32)
  deriving DecidableEq

end Relayer
