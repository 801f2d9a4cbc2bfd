import SoulPrivacy.Halo2
import SoulPrivacy.PallasField
import SoulPrivacy.Poseidon

/-!
# The circuits of the coprocessor (`circuits.rs`)

The transfer, the withdraw and the epoch circuit over the base field of
Pallas, each as its `synthesize`: the regions it asks for in order, with the
gates it enables and the cells it copies. The result is the record of the
cells a circuit assigns, and with them the public inputs are compared at the
end.

The hash gadget is a parameter of the circuits (`Gadget`). The one of the
repository is `PoseidonConfig.hash`. Its gates read fixed columns that no
region assigns, and those hold zero.

`EpochRootCircuit` configures one more gate, `epoch_chain`, that no region
enables.
-/

namespace Lumora

open Halo2

/-- `Fp`. -/
abbrev Fp : Type := ZMod Pallas.p

/-- **The advice columns**: the state of the permutation, the path bits, and
those of a circuit itself. -/
inductive Column
  | state (i : Fin 3)
  | pathBits
  | advice (i : ℕ)

/-! ## The Poseidon chip -/

/-- `PoseidonConfig`: the columns, a fixed one as what it holds. -/
structure PoseidonConfig where
  state : Fin 3 → Column
  roundConstants : Fin 3 → ℕ → Fp
  mdsMatrix : Fin 3 → Fin 3 → ℕ → Fp

/-- `FULL_ROUNDS`. -/
def FULL_ROUNDS : ℕ := 8

/-- `PARTIAL_ROUNDS`. -/
def PARTIAL_ROUNDS : ℕ := 57

namespace PoseidonConfig

/-- `configure`. -/
def configure : PoseidonConfig where
  state := Column.state
  roundConstants := fun _ => unassigned
  mdsMatrix := fun _ _ => unassigned

/-- The constants of the chip: what its fixed columns hold at the rows of the
rounds. -/
def params (config : PoseidonConfig) : Poseidon.Params Fp where
  first := (List.range (FULL_ROUNDS / 2)).map fun row =>
    ⟨config.roundConstants 0 row, config.roundConstants 1 row, config.roundConstants 2 row⟩
  middle := (List.range PARTIAL_ROUNDS).map fun row =>
    config.roundConstants 0 (FULL_ROUNDS / 2 + row)
  last := (List.range (FULL_ROUNDS / 2)).map fun row =>
    ⟨config.roundConstants 0 (FULL_ROUNDS / 2 + PARTIAL_ROUNDS + row),
      config.roundConstants 1 (FULL_ROUNDS / 2 + PARTIAL_ROUNDS + row),
      config.roundConstants 2 (FULL_ROUNDS / 2 + PARTIAL_ROUNDS + row)⟩
  matrix :=
    ⟨⟨config.mdsMatrix 0 0 0, config.mdsMatrix 0 1 0, config.mdsMatrix 0 2 0⟩,
      ⟨config.mdsMatrix 1 0 0, config.mdsMatrix 1 1 0, config.mdsMatrix 1 2 0⟩,
      ⟨config.mdsMatrix 2 0 0, config.mdsMatrix 2 1 0, config.mdsMatrix 2 2 0⟩⟩

/-- The fifth power, as the gates write it. -/
def sbox (x : Fp) : Fp :=
  let x2 := x * x
  let x4 := x2 * x2
  x4 * x

/-- `poseidon_full_round`. -/
def fullRound (config : PoseidonConfig) : Gate Column Fp := fun region row =>
  (List.finRange 3).map fun i =>
    let stateCur := region (config.state i) row
    let rc := config.roundConstants i row
    let stateNext := region (config.state i) (row + 1)
    stateNext - sbox (stateCur + rc)

/-- `poseidon_partial_round`. -/
def partialRound (config : PoseidonConfig) : Gate Column Fp := fun region row =>
  let state0 := region (config.state 0) row
  let rc0 := config.roundConstants 0 row
  let state0Next := region (config.state 0) (row + 1)
  [state0Next - sbox (state0 + rc0)]

/-- `hash`, in its region. -/
def hashRegion (config : PoseidonConfig) (left right : Fp) (region : Region Column Fp) :
    Option Fp := do
  -- assigned, but not constrained to be zero
  let _zero := region.assignAdvice (config.state 0) 0
  copyAdvice left region (config.state 1) 0
  copyAdvice right region (config.state 2) 0
  -- the rows in between are not assigned; only the gates speak of them
  let offset ← enableRows config.fullRound region 0 (FULL_ROUNDS / 2)
  let offset ← enableRows config.partialRound region offset PARTIAL_ROUNDS
  let offset ← enableRows config.fullRound region offset (FULL_ROUNDS / 2)
  return region.assignAdvice (config.state 1) offset

/-- **`hash`.** -/
def hash (config : PoseidonConfig) (left right : Fp) : Layouter Column Fp Fp :=
  assignRegion (config.hashRegion left right)

end PoseidonConfig

/-- **A hash gadget.** -/
abbrev Gadget : Type := Fp → Fp → Layouter Column Fp Fp

variable (hash : Gadget)

/-! ## Notes -/

/-- The preimage of a note. -/
structure Note where
  secret : Fp
  nonce : Fp
  value : Fp
  deriving DecidableEq

/-- A region of one cell. -/
def assignCell : Layouter Column Fp Fp :=
  assignRegion fun region => some (region.assignAdvice (.advice 0) 0)

/-- A region of two cells: the secret and the nonce of a new note, the
domain, the data of an epoch. -/
def assignPair : Layouter Column Fp (Fp × Fp) :=
  assignRegion fun region =>
    some (region.assignAdvice (.advice 0) 0, region.assignAdvice (.advice 1) 0)

/-- A region of the three cells of a note. -/
def assignNote : Layouter Column Fp Note :=
  assignRegion fun region =>
    some ⟨region.assignAdvice (.advice 0) 0, region.assignAdvice (.advice 1) 0,
      region.assignAdvice (.advice 2) 0⟩

/-- `Poseidon(Poseidon(secret, nonce), value)`. -/
def commitment (note : Note) : Layouter Column Fp Fp := do
  let inner ← hash note.secret note.nonce
  hash inner note.value

/-- `Poseidon(Poseidon(secret, commitment), Poseidon(chain_id, app_id))`,
the last hash given. -/
def nullifier (secret commitment domainHash : Fp) : Layouter Column Fp Fp := do
  let inner ← hash secret commitment
  hash inner domainHash

/-! ## The Merkle path -/

/-- `TREE_DEPTH`. -/
def TREE_DEPTH : ℕ := 32

/-- The cells of a level of a path. -/
structure MerkleLevel where
  pathElem : Fp
  pathBit : Fp
  hashLr : Fp
  hashRl : Fp
  selected : Fp
  deriving DecidableEq

/-- `merkle_path_bit`. -/
def merklePathBit : Gate Column Fp := fun region row =>
  let bit := region .pathBits row
  [bit * (bit - 1)]

/-- The region of the sibling and the bit. -/
def assignStep : Layouter Column Fp (Fp × Fp) :=
  assignRegion fun region => do
    enable merklePathBit region 0
    return (region.assignAdvice (.advice 0) 0, region.assignAdvice .pathBits 0)

/-- A level: both hashes, and then the selected one in a region of its
own. -/
def merkleLevel (current : Fp) : Layouter Column Fp MerkleLevel := do
  let (pathElem, pathBit) ← assignStep
  let hashLr ← hash current pathElem
  let hashRl ← hash pathElem current
  -- which of the two it holds is up to whoever assigns it
  let selected ← assignCell
  return ⟨pathElem, pathBit, hashLr, hashRl, selected⟩

/-- **The levels of a path and the node above them.** -/
def merklePath : ℕ → Fp → Layouter Column Fp (List MerkleLevel × Fp)
  | 0, current => return ([], current)
  | depth + 1, current => do
    let level ← merkleLevel hash current
    let (levels, root) ← merklePath depth level.selected
    return (level :: levels, root)

/-! ## The transfer circuit -/

/-- The cells of the transfer circuit. -/
structure TransferCells where
  in0 : Note
  inCommitment0 : Fp
  in1 : Note
  inCommitment1 : Fp
  out0 : Note
  outCommitment0 : Fp
  out1 : Note
  outCommitment1 : Fp
  chainId : Fp
  appId : Fp
  domainHash : Fp
  nullifier0 : Fp
  nullifier1 : Fp
  path0 : List MerkleLevel
  merkleRoot0 : Fp
  path1 : List MerkleLevel
  merkleRoot1 : Fp

/-- `value_conservation`. -/
def valueConservation : Gate Column Fp := fun region row =>
  let in0 := region (.advice 0) row
  let in1 := region (.advice 1) row
  let out0 := region (.advice 2) row
  let out1 := region (.advice 3) row
  [(in0 + in1) - (out0 + out1)]

/-- The region of the value conservation, which assigns the value of the
second new note. -/
def conserveValue (inValue0 inValue1 outValue0 : Fp) : Layouter Column Fp Fp :=
  assignRegion fun region => do
    enable valueConservation region 0
    copyAdvice inValue0 region (.advice 0) 0
    copyAdvice inValue1 region (.advice 1) 0
    copyAdvice outValue0 region (.advice 2) 0
    return region.assignAdvice (.advice 3) 0

/-- **`synthesize` of `TransferCircuit`**, and the instance column. -/
def transfer (inst : ℕ → Fp) : Layouter Column Fp TransferCells := do
  let in0 ← assignNote
  let inCommitment0 ← commitment hash in0
  let in1 ← assignNote
  let inCommitment1 ← commitment hash in1
  let out0 ← assignNote
  let outCommitment0 ← commitment hash out0
  let outValue1 ← conserveValue in0.value in1.value out0.value
  let (outSecret1, outNonce1) ← assignPair
  let out1 : Note := ⟨outSecret1, outNonce1, outValue1⟩
  let outCommitment1 ← commitment hash out1
  let (chainId, appId) ← assignPair
  let domainHash ← hash chainId appId
  let nullifier0 ← nullifier hash in0.secret inCommitment0 domainHash
  let nullifier1 ← nullifier hash in1.secret inCommitment1 domainHash
  let (path0, merkleRoot0) ← merklePath hash TREE_DEPTH inCommitment0
  let (path1, merkleRoot1) ← merklePath hash TREE_DEPTH inCommitment1
  -- both roots are the same
  constrainInstance merkleRoot0 inst 0
  constrainInstance merkleRoot1 inst 0
  constrainInstance nullifier0 inst 1
  constrainInstance nullifier1 inst 2
  constrainInstance outCommitment0 inst 3
  constrainInstance outCommitment1 inst 4
  return ⟨in0, inCommitment0, in1, inCommitment1, out0, outCommitment0, out1,
    outCommitment1, chainId, appId, domainHash, nullifier0, nullifier1, path0, merkleRoot0,
    path1, merkleRoot1⟩

/-! ## The withdraw circuit -/

/-- The cells of the withdraw circuit. -/
structure WithdrawCells where
  input : Note
  commitment : Fp
  withdraw : Fp
  chainId : Fp
  appId : Fp
  domainHash : Fp
  nullifier : Fp
  change : Note
  changeCommitment : Fp
  path : List MerkleLevel
  merkleRoot : Fp

/-- `value_split`. -/
def valueSplit : Gate Column Fp := fun region row =>
  let input := region (.advice 0) row
  let withdraw := region (.advice 1) row
  let change := region (.advice 2) row
  [input - (withdraw + change)]

/-- The region of the value split, which assigns both parts. -/
def splitValue (inValue : Fp) : Layouter Column Fp (Fp × Fp) :=
  assignRegion fun region => do
    enable valueSplit region 0
    copyAdvice inValue region (.advice 0) 0
    return (region.assignAdvice (.advice 1) 0, region.assignAdvice (.advice 2) 0)

/-- **`synthesize` of `WithdrawCircuit`**, and the instance column. -/
def withdraw (inst : ℕ → Fp) : Layouter Column Fp WithdrawCells := do
  let input ← assignNote
  let cm ← commitment hash input
  let (withdrawValue, changeValue) ← splitValue input.value
  let (chainId, appId) ← assignPair
  let domainHash ← hash chainId appId
  let nul ← nullifier hash input.secret cm domainHash
  let (changeSecret, changeNonce) ← assignPair
  let change : Note := ⟨changeSecret, changeNonce, changeValue⟩
  let changeCommitment ← commitment hash change
  let (path, merkleRoot) ← merklePath hash TREE_DEPTH cm
  constrainInstance merkleRoot inst 0
  constrainInstance nul inst 1
  constrainInstance withdrawValue inst 2
  constrainInstance changeCommitment inst 3
  return ⟨input, cm, withdrawValue, chainId, appId, domainHash, nul, change,
    changeCommitment, path, merkleRoot⟩

/-! ## The epoch circuit -/

/-- `EPOCH_BATCH_SIZE`. -/
def EPOCH_BATCH_SIZE : ℕ := 64

/-- `EPOCH_TREE_DEPTH`. -/
def EPOCH_TREE_DEPTH : ℕ := 6

/-- The cells of the epoch circuit. -/
structure EpochCells where
  nullifiers : List Fp
  batchRoot : Fp
  prevEpochRoot : Fp
  newEpochRoot : Fp
  epochNumber : Fp
  nullifierCount : Fp

/-- The parents of a layer. -/
def nextLayer (layer : List Fp) : Layouter Column Fp (List Fp) :=
  (List.range (layer.length / 2)).mapM fun pairIdx =>
    hash (layer.getD (pairIdx * 2) 0) (layer.getD (pairIdx * 2 + 1) 0)

/-- The layers of the tree over the leaves, up to the last. -/
def buildTree : ℕ → List Fp → Layouter Column Fp (List Fp)
  | 0, layer => return layer
  | depth + 1, layer => do
    let next ← nextLayer hash layer
    buildTree depth next

/-- **`synthesize` of `EpochRootCircuit`**, and the instance column. -/
def epochRoot (inst : ℕ → Fp) : Layouter Column Fp EpochCells := do
  let leaves ← (List.range EPOCH_BATCH_SIZE).mapM fun _ => assignCell
  let layer ← buildTree hash EPOCH_TREE_DEPTH leaves
  -- `unwrap`
  let batchRoot ← StateT.lift layer.head?
  let prevRoot ← assignCell
  let newEpochRoot ← hash prevRoot batchRoot
  let (epochNumber, nullifierCount) ← assignPair
  constrainInstance prevRoot inst 0
  constrainInstance newEpochRoot inst 1
  constrainInstance epochNumber inst 2
  constrainInstance nullifierCount inst 3
  return ⟨leaves, batchRoot, prevRoot, newEpochRoot, epochNumber, nullifierCount⟩

end Lumora
