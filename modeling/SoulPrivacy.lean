import SoulPrivacy.Solidity
import SoulPrivacy.Run
import SoulPrivacy.HashTree
import SoulPrivacy.RingBuffer
import SoulPrivacy.MerkleTree
import SoulPrivacy.CallStack
import SoulPrivacy.PrivacyPool
import SoulPrivacy.PoolEffect
import SoulPrivacy.PoolCalls
import SoulPrivacy.PoolSolvency
import SoulPrivacy.PoolTree
import SoulPrivacy.NullifierRoot
import SoulPrivacy.EpochManager
import SoulPrivacy.EpochRoots
import SoulPrivacy.EpochLists
import SoulPrivacy.UniversalNullifierRegistry
import SoulPrivacy.EpochSequence
import SoulPrivacy.GlobalSnapshot
import SoulPrivacy.Bn254
import SoulPrivacy.PoseidonHasher
import SoulPrivacy.Inclusion
import SoulPrivacy.InclusionSoundness
import SoulPrivacy.Halo2SnarkVerifier
import SoulPrivacy.NullifierCanonicality
import SoulPrivacy.PoolCommitments
import SoulPrivacy.PoolEpochs
import SoulPrivacy.Circuits
import SoulPrivacy.ValueConservation
import SoulPrivacy.WithdrawStatement
import SoulPrivacy.LinearRoots
import SoulPrivacy.FreeHash
import SoulPrivacy.BigEndian
import SoulPrivacy.Abi
import SoulPrivacy.KeyedReceiver
import SoulPrivacy.BridgeAdapter
import SoulPrivacy.AvaxWarpAdapter
import SoulPrivacy.TeleporterAdapter
import SoulPrivacy.XcmBridgeAdapter
import SoulPrivacy.IbcBridgeAdapter
import SoulPrivacy.AuroraRainbowAdapter
import SoulPrivacy.BridgeDelivery
import SoulPrivacy.BridgeAuthenticity
import SoulPrivacy.PalletVerifier
import SoulPrivacy.PrivacyPoolPallet
import SoulPrivacy.WithdrawBinding
import SoulPrivacy.RemoteInclusion
import SoulPrivacy.NullifierCheck
import SoulPrivacy.RustStrings
import SoulPrivacy.HexWords
import SoulPrivacy.AppendTree
import SoulPrivacy.Poseidon
import SoulPrivacy.PalletPoseidon
import SoulPrivacy.CosmWasmPoseidon
import SoulPrivacy.PythonPoseidon
import SoulPrivacy.PoseidonAgreement
import SoulPrivacy.PalletSolvency
import SoulPrivacy.PalletEpochs
import SoulPrivacy.HexProof
import SoulPrivacy.CosmWasmEffect
import SoulPrivacy.PalletTree
import SoulPrivacy.CosmWasmTree
import SoulPrivacy.CosmWasmBinding
import SoulPrivacy.NearBinding
import SoulPrivacy.CosmWasmBooks
import SoulPrivacy.CosmWasmNullifiers
import SoulPrivacy.CosmWasmEpochs
import SoulPrivacy.CosmWasmConfig
import SoulPrivacy.CosmWasmFunds
import SoulPrivacy.NearEffect
import SoulPrivacy.NearTree
import SoulPrivacy.NearPayouts
import SoulPrivacy.InkEffect
import SoulPrivacy.InkTree
import SoulPrivacy.InkRoots
import SoulPrivacy.InkPause
import SoulPrivacy.InkReveal
import SoulPrivacy.InkBinding
import SoulPrivacy.InkCapacity
import SoulPrivacy.InkAccounting
import SoulPrivacy.SelfCall
import SoulPrivacy.MultiSigGovernance
import SoulPrivacy.MultiSigEffect
import SoulPrivacy.MultiSigWellFormed
import SoulPrivacy.MultiSigQuorum
import SoulPrivacy.MultiSigStranded
import SoulPrivacy.GovernanceTimelock
import SoulPrivacy.TimelockEffect
import SoulPrivacy.TimelockDiscipline
import SoulPrivacy.RelayerFeeVault
import SoulPrivacy.FeeVaultSolvency
import SoulPrivacy.FeeVaultLedger
import SoulPrivacy.Halo2
import SoulPrivacy.PrimeCertificate
import SoulPrivacy.PallasField
import SoulPrivacy.LumoraCircuits
import SoulPrivacy.LumoraPoseidon
import SoulPrivacy.LumoraSpec
import SoulPrivacy.LumoraMerkle
import SoulPrivacy.LumoraBinding
import SoulPrivacy.LumoraEpoch
import SoulPrivacy.Relayer
import SoulPrivacy.EpochWatcher
import SoulPrivacy.WatcherDelivery
import SoulPrivacy.Aggregator
import SoulPrivacy.Keccak
import SoulPrivacy.AbiCodec
import SoulPrivacy.Dispatcher
import SoulPrivacy.Submitter
import SoulPrivacy.LumoraProver
import SoulPrivacy.ProofEnvelope
import SoulPrivacy.FullWithdrawal
import SoulPrivacy.ClientHashes
import SoulPrivacy.NullifierAgreement
import SoulPrivacy.CommitmentAgreement
import SoulPrivacy.Subgraph
import SoulPrivacy.SubgraphMirror
import SoulPrivacy.Denominations
import SoulPrivacy.RemoteRoots
import SoulPrivacy.EpochDuration
import SoulPrivacy.GlobalLookup
import SoulPrivacy.PalletBinding
import SoulPrivacy.MainnetGuard
import SoulPrivacy.Onward
import SoulPrivacy.CommitRecovery
import SoulPrivacy.PoolPause
import SoulPrivacy.ComplianceOracle
import SoulPrivacy.Projection
import SoulPrivacy.BlockedNotes
import SoulPrivacy.FreshRoots
import SoulPrivacy.Bn254Curve
import SoulPrivacy.Groth16
import SoulPrivacy.SupportedRoutes
import SoulPrivacy.EnvelopeCanonical
import SoulPrivacy.Scale
import SoulPrivacy.XcmMessage
import SoulPrivacy.GreedySelection
import SoulPrivacy.InsertionMap
import SoulPrivacy.NoteWallet
import SoulPrivacy.PythonNoteWallet
import SoulPrivacy.NoteSelection
import SoulPrivacy.SpentNotes
import SoulPrivacy.FlooredShare
import SoulPrivacy.Fees
import SoulPrivacy.StealthAddress
import SoulPrivacy.MultiChainManager
import SoulPrivacy.Worklist
import SoulPrivacy.Multigraph
import SoulPrivacy.Router
import SoulPrivacy.RouteSearch
import SoulPrivacy.SolidityLoop
import SoulPrivacy.EpochReduction
import SoulPrivacy.TextDigits
import SoulPrivacy.AuroraEncoding
import SoulPrivacy.Bn254Scalar
import SoulPrivacy.PoseidonBijection
import SoulPrivacy.PoseidonRounds
import SoulPrivacy.Retry
import SoulPrivacy.RelayAdapters
import SoulPrivacy.RelayEngine
import SoulPrivacy.UltraHonkVerifier
import SoulPrivacy.UltraHonkPool
import SoulPrivacy.NearEpochs
import SoulPrivacy.NearRoots
import SoulPrivacy.ShieldedPool
import SoulPrivacy.PoolLedger
import SoulPrivacy.NearLedger
import SoulPrivacy.PalletLedger
import SoulPrivacy.CosmWasmLedger
import SoulPrivacy.Channel
import SoulPrivacy.Exhaustion
import SoulPrivacy.RelayDaemon
import SoulPrivacy.RelayWatcher
import SoulPrivacy.RelayDelivery
import SoulPrivacy.RelayProgress
import SoulPrivacy.CallOrigin
import SoulPrivacy.CallRun
import SoulPrivacy.Network
import SoulPrivacy.GovernedPool
import SoulPrivacy.MultiSigRecord
import SoulPrivacy.GovernanceVetting
import SoulPrivacy.EntityTable
import SoulPrivacy.SubgraphClient
import SoulPrivacy.SubgraphRecords
import SoulPrivacy.SubgraphAnswers
import SoulPrivacy.GovernanceSubgraph
import SoulPrivacy.GovernanceMirror
import SoulPrivacy.EpochSubgraph
import SoulPrivacy.EpochMirror
import SoulPrivacy.StealthAnnouncer
import SoulPrivacy.InkNotes
