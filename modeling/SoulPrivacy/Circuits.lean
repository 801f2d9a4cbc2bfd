import SoulPrivacy.Bn254
import SoulPrivacy.MerkleTree

/-!
# The circuits (`circuits/transfer`, `circuits/withdraw`)

Each circuit is a function of its public and its private inputs that goes
through its assertions in order: it fails with the message of the first
that does not hold. Private inputs that make it succeed are a witness. All
values are elements of the scalar field, and no assertion bounds any of
them.

The two hashes are a parameter (`Poseidon`). Both circuits fold the
Merkle path the same way, which is the way of the tree of the contracts
(`exists_merkleProof`), and derive the nullifier the same way.
-/

namespace Circuit

open Bn254 (Element toField ofField)

/-- `TREE_DEPTH`. -/
def TREE_DEPTH : ℕ := 32

/-- **The hashes of the circuits**, `poseidon::bn254::hash_2` and
`hash_3`. -/
structure Poseidon where
  hash2 : Element → Element → Element
  hash3 : Element → Element → Element → Element

/-- `assert`. -/
def assert (p : Prop) [Decidable p] (message : String) : Except String Unit :=
  if p then .ok () else .error message

theorem assert_eq_ok {p : Prop} [Decidable p] {message : String} {u : Unit} :
    assert p message = .ok u ↔ p := by
  unfold assert
  split_ifs with h <;> simp [h]

/-- The preimage of a note. -/
structure Note where
  secret : Element
  nonce : Element
  value : Element
  deriving DecidableEq

/-- An input note, with its Merkle proof. -/
structure Input extends Note where
  path : Fin TREE_DEPTH → Element
  indices : Fin TREE_DEPTH → BitVec 1

variable (P : Poseidon)

/-- The commitment of a note. -/
def Note.commitment (n : Note) : Element := P.hash3 n.secret n.nonce n.value

/-- `compute_merkle_root`. -/
def computeMerkleRoot (leaf : Element) (path : Fin TREE_DEPTH → Element)
    (indices : Fin TREE_DEPTH → BitVec 1) : Element :=
  (List.finRange TREE_DEPTH).foldl
    (fun current i =>
      if indices i = 0 then P.hash2 current (path i) else P.hash2 (path i) current) leaf

/-- `compute_nullifier_v2`. -/
def computeNullifierV2 (secret commitment chainId appId : Element) : Element :=
  let inner := P.hash2 secret commitment
  let domain := P.hash2 chainId appId
  P.hash2 inner domain

/-! ## The transfer circuit -/

/-- **The public inputs of the transfer circuit**, in declaration order. -/
structure TransferPublic where
  merkleRoot : Element
  nullifier0 : Element
  nullifier1 : Element
  outputCommitment0 : Element
  outputCommitment1 : Element
  chainId : Element
  appId : Element

/-- **The private inputs of the transfer circuit.** -/
structure TransferPrivate where
  in0 : Input
  in1 : Input
  out0 : Note
  out1 : Note

/-- `main` of the transfer circuit. -/
def transfer (pub : TransferPublic) (priv : TransferPrivate) : Except String Unit := do
  let inCommitment0 := priv.in0.commitment P
  let computedRoot0 := computeMerkleRoot P inCommitment0 priv.in0.path priv.in0.indices
  assert (computedRoot0 = pub.merkleRoot) "Input 0 not in Merkle tree"
  let inCommitment1 := priv.in1.commitment P
  let computedRoot1 := computeMerkleRoot P inCommitment1 priv.in1.path priv.in1.indices
  assert (computedRoot1 = pub.merkleRoot) "Input 1 not in Merkle tree"
  let computedNul0 :=
    computeNullifierV2 P priv.in0.secret inCommitment0 pub.chainId pub.appId
  assert (pub.nullifier0 = computedNul0) "Invalid nullifier 0"
  let computedNul1 :=
    computeNullifierV2 P priv.in1.secret inCommitment1 pub.chainId pub.appId
  assert (pub.nullifier1 = computedNul1) "Invalid nullifier 1"
  assert (pub.nullifier0 ≠ pub.nullifier1) "Duplicate nullifiers"
  assert (pub.outputCommitment0 = priv.out0.commitment P) "Invalid output commitment 0"
  assert (pub.outputCommitment1 = priv.out1.commitment P) "Invalid output commitment 1"
  let totalIn := priv.in0.value + priv.in1.value
  let totalOut := priv.out0.value + priv.out1.value
  assert (totalIn = totalOut) "Value not conserved"

/-! ## The withdraw circuit -/

/-- **The public inputs of the withdraw circuit**, in declaration order. -/
structure WithdrawPublic where
  merkleRoot : Element
  nullifier : Element
  recipient : Element
  withdrawValue : Element
  changeCommitment : Element
  chainId : Element
  appId : Element

/-- The public inputs assigned from an array, in declaration order. -/
def WithdrawPublic.ofArray : List Element → Option WithdrawPublic
  | [merkleRoot, nullifier, recipient, withdrawValue, changeCommitment, chainId, appId] =>
    some ⟨merkleRoot, nullifier, recipient, withdrawValue, changeCommitment, chainId,
      appId⟩
  | _ => none

/-- **The private inputs of the withdraw circuit.** -/
structure WithdrawPrivate where
  input : Input
  change : Note

/-- `main` of the withdraw circuit. -/
def withdraw (pub : WithdrawPublic) (priv : WithdrawPrivate) : Except String Unit := do
  let inCommitment := priv.input.commitment P
  let computedRoot := computeMerkleRoot P inCommitment priv.input.path priv.input.indices
  assert (computedRoot = pub.merkleRoot) "Input note not in Merkle tree"
  let computedNullifier :=
    computeNullifierV2 P priv.input.secret inCommitment pub.chainId pub.appId
  assert (pub.nullifier = computedNullifier) "Invalid nullifier"
  assert (pub.withdrawValue ≠ 0) "Withdrawal value must be non-zero"
  assert (pub.recipient ≠ 0) "Invalid recipient address"
  assert (priv.input.value = pub.withdrawValue + priv.change.value) "Value not conserved"
  if priv.change.value ≠ 0 then
    assert (pub.changeCommitment = priv.change.commitment P) "Invalid change commitment"
  else
    assert (pub.changeCommitment = 0) "Change commitment must be zero for full withdrawal"
  assert (priv.input.secret ≠ 0) "Secret must be non-zero"

/-! ## What a witness satisfies -/

variable {P}

/-- **A witness of the transfer circuit**: two notes of the tree with
their nullifiers, which differ, the openings of both outputs, and one
equation between the values. -/
structure TransferSatisfied (P : Poseidon) (pub : TransferPublic)
    (priv : TransferPrivate) : Prop where
  root0 : computeMerkleRoot P (priv.in0.commitment P) priv.in0.path priv.in0.indices
    = pub.merkleRoot
  root1 : computeMerkleRoot P (priv.in1.commitment P) priv.in1.path priv.in1.indices
    = pub.merkleRoot
  nullifier0 : pub.nullifier0 = computeNullifierV2 P priv.in0.secret
    (priv.in0.commitment P) pub.chainId pub.appId
  nullifier1 : pub.nullifier1 = computeNullifierV2 P priv.in1.secret
    (priv.in1.commitment P) pub.chainId pub.appId
  nullifiers_ne : pub.nullifier0 ≠ pub.nullifier1
  output0 : pub.outputCommitment0 = priv.out0.commitment P
  output1 : pub.outputCommitment1 = priv.out1.commitment P
  value : priv.in0.value + priv.in1.value = priv.out0.value + priv.out1.value

theorem transfer_eq_ok {pub : TransferPublic} {priv : TransferPrivate} :
    transfer P pub priv = .ok () ↔ TransferSatisfied P pub priv := by
  unfold transfer
  simp only [Except.unit_bind_eq_ok, assert_eq_ok]
  constructor
  · rintro ⟨h₁, h₂, h₃, h₄, h₅, h₆, h₇, h₈⟩
    exact ⟨h₁, h₂, h₃, h₄, h₅, h₆, h₇, h₈⟩
  · rintro ⟨h₁, h₂, h₃, h₄, h₅, h₆, h₇, h₈⟩
    exact ⟨h₁, h₂, h₃, h₄, h₅, h₆, h₇, h₈⟩

/-- **A witness of the withdraw circuit.** -/
structure WithdrawSatisfied (P : Poseidon) (pub : WithdrawPublic)
    (priv : WithdrawPrivate) : Prop where
  root : computeMerkleRoot P (priv.input.commitment P) priv.input.path priv.input.indices
    = pub.merkleRoot
  nullifier : pub.nullifier = computeNullifierV2 P priv.input.secret
    (priv.input.commitment P) pub.chainId pub.appId
  withdrawValue_ne : pub.withdrawValue ≠ 0
  recipient_ne : pub.recipient ≠ 0
  value : priv.input.value = pub.withdrawValue + priv.change.value
  change : priv.change.value ≠ 0 → pub.changeCommitment = priv.change.commitment P
  full : priv.change.value = 0 → pub.changeCommitment = 0
  secret_ne : priv.input.secret ≠ 0

theorem withdraw_eq_ok {pub : WithdrawPublic} {priv : WithdrawPrivate} :
    withdraw P pub priv = .ok () ↔ WithdrawSatisfied P pub priv := by
  unfold withdraw
  simp only [Except.unit_bind_eq_ok, assert_eq_ok]
  split_ifs with hchange
  · simp only [Except.unit_bind_eq_ok, assert_eq_ok]
    constructor
    · rintro ⟨h₁, h₂, h₃, h₄, h₅, h₆, h₇⟩
      exact ⟨h₁, h₂, h₃, h₄, h₅, fun _ => h₆, fun h => absurd h hchange, h₇⟩
    · rintro ⟨h₁, h₂, h₃, h₄, h₅, h₆, -, h₇⟩
      exact ⟨h₁, h₂, h₃, h₄, h₅, h₆ hchange, h₇⟩
  · simp only [Except.unit_bind_eq_ok, assert_eq_ok]
    constructor
    · rintro ⟨h₁, h₂, h₃, h₄, h₅, h₆, h₇⟩
      exact ⟨h₁, h₂, h₃, h₄, h₅, fun h => absurd h hchange, fun _ => h₆, h₇⟩
    · rintro ⟨h₁, h₂, h₃, h₄, h₅, -, h₆, h₇⟩
      exact ⟨h₁, h₂, h₃, h₄, h₅, h₆ (not_not.mp hchange), h₇⟩

/-! ## The Merkle path -/

/-- The path of the circuit, as the tree library has it. -/
def sides (path : Fin TREE_DEPTH → Element) (indices : Fin TREE_DEPTH → BitVec 1) :
    List (Bool × Element) :=
  (List.finRange TREE_DEPTH).map (fun i => (decide (indices i ≠ 0), path i))

/-- **The circuit climbs the tree** of the contracts. -/
theorem computeMerkleRoot_eq_climb (leaf : Element) (path : Fin TREE_DEPTH → Element)
    (indices : Fin TREE_DEPTH → BitVec 1) :
    computeMerkleRoot P leaf path indices = HashTree.climb P.hash2 (sides path indices) leaf := by
  unfold computeMerkleRoot sides
  induction List.finRange TREE_DEPTH generalizing leaf with
  | nil => rfl
  | cons i is ih =>
    rw [List.foldl_cons, List.map_cons, HashTree.climb, ih]
    by_cases h : indices i = 0
    · rw [if_pos h, HashTree.combine, if_neg (by simp [h])]
    · rw [if_neg h, HashTree.combine, if_pos (decide_eq_true h)]

variable (P) in
/-- The hash of the contracts that goes with `hash2`. -/
def Poseidon.onWords (a b : Uint256) : Uint256 := ofField (P.hash2 (toField a) (toField b))

/-- **Every path of the right length can be given to the circuit.** -/
theorem exists_sides_eq {p : List (Bool × Element)} (hlen : p.length = TREE_DEPTH) :
    ∃ path indices, sides path indices = p := by
  refine ⟨fun k => (p.get (k.cast hlen.symm)).2,
    fun k => BitVec.ofBool (p.get (k.cast hlen.symm)).1, ?_⟩
  refine List.ext_getElem (by simp [sides, hlen]) (fun k hk hk' => ?_)
  simp only [sides, List.getElem_map, List.getElem_finRange, List.get_eq_getElem]
  show (decide (BitVec.ofBool p[k].1 ≠ 0), p[k].2) = p[k]
  rcases p[k] with ⟨_ | _, x⟩
  · rfl
  · rfl

/-- **The leaves of the contracts' tree can be proved in the circuit**: if
both hash the same way, every leaf has a path to the root. -/
theorem exists_merkleProof (P : Poseidon) {leaves : List Uint256}
    (hlen : leaves.length ≤ 2 ^ TREE_DEPTH) {i : ℕ} (hi : i < leaves.length) :
    ∃ path indices, computeMerkleRoot P (toField leaves[i]) path indices
      = toField (MerkleTree.treeRoot P.onWords leaves) := by
  set p := HashTree.path P.onWords (HashTree.padded 0 leaves) 0 TREE_DEPTH i with hp
  have hplen : p.length = TREE_DEPTH := HashTree.length_path ..
  have hroot : HashTree.climb P.onWords p leaves[i] = MerkleTree.treeRoot P.onWords leaves := by
    have hclimb := HashTree.climb_path P.onWords (HashTree.padded 0 leaves) 0 TREE_DEPTH i
    rw [Nat.div_eq_of_lt (lt_of_lt_of_le hi hlen), Nat.zero_add] at hclimb
    rw [← HashTree.padded_of_lt 0 hi]
    exact hclimb
  obtain ⟨path, indices, hsides⟩ :=
    exists_sides_eq ((List.length_map (Prod.map id toField)).trans hplen)
  refine ⟨path, indices, ?_⟩
  rw [computeMerkleRoot_eq_climb, hsides, ← hroot]
  exact (HashTree.climb_map P.onWords (fun a b => Bn254.toField_ofField _) p _).symm

end Circuit
