import SoulPrivacy.Abi
import SoulPrivacy.Bn254

/-!
# The prover of the coprocessor (`lumora-coprocessor/src/proof.rs`)

The prover works on strings of bytes. It hashes one by cutting it into chunks
of 31 bytes, of which each is below the order of the field, and by hashing as
many field elements as there are chunks. So the arity of the hash follows from
the length of the string, and the chunks do not end where the words end that the
string is made of (`inputs_beBytes`).

The hash of the library is a parameter, on lists of any length. It has an
implementation for up to twelve elements, and the strings that are hashed here
have two or three chunks.
-/

namespace LumoraProver

open Bn254 (Element toField ofField)

/-! ## Chunks -/

/-- `chunks`: the last one may be shorter. -/
def chunks {α : Type} (size : ℕ) (data : List α) : List (List α) :=
  (List.range ((data.length + size - 1) / size)).map
    (fun i => (data.drop (size * i)).take size)

/-- **A full chunk comes off the front.** -/
theorem chunks_append {α : Type} {size : ℕ} (hsize : 0 < size) {front : List α}
    (hfront : front.length = size) (rest : List α) :
    chunks size (front ++ rest) = front :: chunks size rest := by
  have hcount : ((front ++ rest).length + size - 1) / size
      = (rest.length + size - 1) / size + 1 := by
    rw [List.length_append, hfront, ← Nat.add_div_right _ hsize]
    congr 1
    omega
  unfold chunks
  rw [hcount, List.range_succ_eq_map, List.map_cons, List.map_map, Nat.mul_zero, List.drop_zero,
    List.take_left' hfront]
  refine congrArg (front :: ·) (List.map_congr_left (fun i _ => ?_))
  show ((front ++ rest).drop (size * (i + 1))).take size = (rest.drop (size * i)).take size
  rw [Nat.mul_add, Nat.mul_one, Nat.add_comm, ← List.drop_drop, List.drop_left' hfront]

/-- **What fits into one chunk is one.** -/
theorem chunks_of_le {α : Type} {size : ℕ} {data : List α} (hpos : 0 < data.length)
    (hle : data.length ≤ size) : chunks size data = [data] := by
  have hcount : (data.length + size - 1) / size = 1 := by
    refine Nat.div_eq_of_lt_le ?_ ?_
    · omega
    · omega
  unfold chunks
  rw [hcount]
  show [(data.drop (size * 0)).take size] = [data]
  rw [Nat.mul_zero, List.drop_zero, List.take_of_length_le hle]

/-! ## The hash -/

/-- The field elements of the chunks, each with zeros before it. -/
def inputs (data : Bytes) : List Element :=
  (chunks 31 data).map (fun chunk => (beNat chunk : Element))

/-- **The field elements of a number of more than 31 bytes.** -/
theorem inputs_beBytes (k n : ℕ) :
    inputs (beBytes (31 + k) n)
      = ((n / 256 ^ k % 256 ^ 31 : ℕ) : Element) :: inputs (beBytes k n) := by
  unfold inputs
  rw [beBytes_add, chunks_append (Nat.succ_pos 30) (length_beBytes 31 _), List.map_cons,
    beNat_beBytes]

/-- **The field element of a number of up to 31 bytes.** -/
theorem inputs_beBytes_of_le {k : ℕ} (hpos : 0 < k) (hle : k ≤ 31) (n : ℕ) :
    inputs (beBytes k n) = [((n % 256 ^ k : ℕ) : Element)] := by
  have hlength : (beBytes k n).length = k := length_beBytes k n
  unfold inputs
  rw [chunks_of_le (hlength.symm ▸ hpos) (hlength.symm ▸ hle), List.map_singleton, beNat_beBytes]

variable (H : List Element → Element)

/-- **`poseidon_hash`.** -/
def poseidonHash (data : Bytes) : Bytes32 := ofField (H (inputs data))

/-- **The hash is the library's**, as a field element. -/
theorem toField_poseidonHash (data : Bytes) : toField (poseidonHash H data) = H (inputs data) :=
  Bn254.toField_ofField _

/-! ## Requests -/

/-- `TargetChain`. -/
inductive TargetChain
  | avalancheFuji
  | avalancheMainnet
  | moonbaseAlpha
  | moonbeam
  | astarShibuya
  | astar
  | evmosTestnet
  | evmos
  | auroraTestnet
  | aurora
  deriving DecidableEq

/-- `chain_id`. -/
def TargetChain.chainId : TargetChain → BitVec 64
  | .avalancheFuji => 43113
  | .avalancheMainnet => 43114
  | .moonbaseAlpha => 1287
  | .moonbeam => 1284
  | .astarShibuya => 81
  | .astar => 592
  | .evmosTestnet => 9000
  | .evmos => 9001
  | .auroraTestnet => 1313161555
  | .aurora => 1313161554

/-- **No chain identifier is cut** by the cast to 32 bits. -/
theorem TargetChain.toNat_chainId_setWidth (chain : TargetChain) :
    (chain.chainId.setWidth 32).toNat = chain.chainId.toNat := by
  cases chain <;> rfl

/-- `OutputNote`. -/
structure OutputNote where
  recipientPk : Bytes32
  value : BitVec 128
  blinding : Bytes32
  deriving DecidableEq

/-- `MerklePath`. -/
structure MerklePath where
  siblings : List Bytes32
  indices : List (BitVec 8)
  deriving DecidableEq

/-- `TransferRequest`. -/
structure TransferRequest where
  inputNotes : Bytes32 × Bytes32
  spendingKeys : Bytes32 × Bytes32
  outputNotes : OutputNote × OutputNote
  merklePaths : MerklePath × MerklePath
  merkleRoot : Bytes32
  targetChain : TargetChain
  appId : BitVec 32

/-- `WithdrawRequest`. -/
structure WithdrawRequest where
  inputNotes : Bytes32 × Bytes32
  spendingKeys : Bytes32 × Bytes32
  changeNote : OutputNote
  exitValue : BitVec 128
  merklePaths : MerklePath × MerklePath
  merkleRoot : Bytes32
  targetChain : TargetChain
  appId : BitVec 32

/-- `ProofType`. -/
inductive ProofType
  | transfer
  | withdraw
  | aggregated
  deriving DecidableEq

/-- `GeneratedProof`. -/
structure GeneratedProof where
  rawProof : Bytes
  snarkWrapper : Option Bytes
  publicInputs : List Bytes32
  proofType : ProofType
  deriving DecidableEq

/-- `ProofError`, as far as the prover returns it. -/
inductive ProofError
  | merklePathInvalid
  deriving DecidableEq

/-! ## Nullifiers, commitments and envelopes -/

/-- The body of the loop of `compute_nullifiers_v2`. -/
def computeNullifierV2 (spendingKey commitment : Bytes32) (chainId appId : BitVec 32) :
    Bytes32 :=
  let domainBytes := beBytes 4 chainId.toNat ++ beBytes 4 appId.toNat
  let inner := poseidonHash H (spendingKey.toBytes ++ commitment.toBytes)
  poseidonHash H (inner.toBytes ++ domainBytes)

/-- `compute_nullifiers_v2`. -/
def computeNullifiersV2 (spendingKeys commitments : Bytes32 × Bytes32)
    (chainId appId : BitVec 32) : Bytes32 × Bytes32 :=
  (computeNullifierV2 H spendingKeys.1 commitments.1 chainId appId,
    computeNullifierV2 H spendingKeys.2 commitments.2 chainId appId)

/-- `compute_single_commitment`. -/
def computeSingleCommitment (note : OutputNote) : Bytes32 :=
  poseidonHash H
    (note.recipientPk.toBytes ++ beBytes 16 note.value.toNat ++ note.blinding.toBytes)

/-- `compute_output_commitments`. -/
def computeOutputCommitments (notes : OutputNote × OutputNote) : Bytes32 × Bytes32 :=
  (computeSingleCommitment H notes.1, computeSingleCommitment H notes.2)

/-- `validate_merkle_paths`, of one path. -/
def validateMerklePath (path : MerklePath) : Except ProofError Unit := do
  revertIf (path.siblings.length ≠ path.indices.length) .merklePathInvalid
  revertIf (path.siblings = []) .merklePathInvalid

/-- `validate_merkle_paths`. -/
def validateMerklePaths (paths : MerklePath × MerklePath) : Except ProofError Unit := do
  validateMerklePath paths.1
  validateMerklePath paths.2

/-- **`padded_proof_envelope`**: the length in four bytes, the proof, and random
bytes up to the total size. -/
def paddedProofEnvelope (random : ℕ → BitVec 8) (proofBytes : Bytes) (totalSize : ℕ) : Bytes :=
  let envelope := beBytes 4 proofBytes.length ++ proofBytes
  let padding := (List.range (totalSize - envelope.length)).map random
  (envelope ++ padding).take totalSize

/-- **All envelopes have the size that was asked for**, whatever the proof is. -/
theorem length_paddedProofEnvelope (random : ℕ → BitVec 8) (proofBytes : Bytes)
    (totalSize : ℕ) : (paddedProofEnvelope random proofBytes totalSize).length = totalSize := by
  unfold paddedProofEnvelope
  rw [List.length_take, List.length_append, List.length_map, List.length_range]
  omega

/-- **A proof that fits is not cut.** -/
theorem paddedProofEnvelope_of_le (random : ℕ → BitVec 8) {proofBytes : Bytes} {totalSize : ℕ}
    (hfit : 4 + proofBytes.length ≤ totalSize) :
    paddedProofEnvelope random proofBytes totalSize
      = beBytes 4 proofBytes.length ++ proofBytes
        ++ (List.range (totalSize - (4 + proofBytes.length))).map random := by
  have hlength : (beBytes 4 proofBytes.length ++ proofBytes).length = 4 + proofBytes.length := by
    rw [List.length_append, length_beBytes]
  show (beBytes 4 proofBytes.length ++ proofBytes ++ (List.range
    (totalSize - (beBytes 4 proofBytes.length ++ proofBytes).length)).map random).take
      totalSize = _
  rw [hlength]
  refine List.take_of_length_le ?_
  rw [List.length_append, hlength, List.length_map, List.length_range]
  omega

/-! ## Proofs -/

/-- The SNARK wrapper, which is there when its key is. -/
def wrapSnark (random : ℕ → BitVec 8) (snarkWrapperPk : Option Bytes)
    (nullifier : Bytes32) : Option Bytes :=
  snarkWrapperPk.map (fun _ =>
    paddedProofEnvelope random (poseidonHash H nullifier.toBytes).toBytes 256)

/-- **`generate_transfer`**. What `random` gives are the bytes of the two
envelopes' padding. -/
def generateTransfer (random : ℕ → ℕ → BitVec 8) (snarkWrapperPk : Option Bytes)
    (request : TransferRequest) : Except ProofError GeneratedProof := do
  validateMerklePaths request.merklePaths
  let chainId := request.targetChain.chainId
  let nullifiers := computeNullifiersV2 H request.spendingKeys request.inputNotes
    (chainId.setWidth 32) request.appId
  let outputCommitments := computeOutputCommitments H request.outputNotes
  let proofBody := poseidonHash H outputCommitments.1.toBytes
  return {
    rawProof := paddedProofEnvelope (random 0) proofBody.toBytes 2048
    snarkWrapper := wrapSnark H (random 1) snarkWrapperPk nullifiers.1
    publicInputs := [request.merkleRoot, nullifiers.1, nullifiers.2, outputCommitments.1,
      outputCommitments.2]
    proofType := .transfer }

/-- **`generate_withdraw`**. -/
def generateWithdraw (random : ℕ → ℕ → BitVec 8) (snarkWrapperPk : Option Bytes)
    (request : WithdrawRequest) : Except ProofError GeneratedProof := do
  validateMerklePaths request.merklePaths
  let chainId := request.targetChain.chainId
  let nullifiers := computeNullifiersV2 H request.spendingKeys request.inputNotes
    (chainId.setWidth 32) request.appId
  let changeCommitment := computeSingleCommitment H request.changeNote
  let zeroCommitment := 0
  let proofBody := poseidonHash H changeCommitment.toBytes
  return {
    rawProof := paddedProofEnvelope (random 0) proofBody.toBytes 2048
    snarkWrapper := wrapSnark H (random 1) snarkWrapperPk nullifiers.1
    publicInputs := [request.merkleRoot, nullifiers.1, nullifiers.2, changeCommitment,
      zeroCommitment, request.exitValue.setWidth 256]
    proofType := .withdraw }

/-- The output commitments among the public inputs: in the order of the public
inputs they follow the root and the nullifiers. -/
def GeneratedProof.outputCommitments (proof : GeneratedProof) : Option (Bytes32 × Bytes32) :=
  match proof.publicInputs with
  | _ :: _ :: _ :: out0 :: out1 :: _ => some (out0, out1)
  | _ => none

end LumoraProver
