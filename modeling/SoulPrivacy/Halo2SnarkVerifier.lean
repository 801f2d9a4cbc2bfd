import SoulPrivacy.Bn254

/-!
# The Groth16 verifier (`Halo2SnarkVerifier.sol`)

The verifier folds the public inputs into a point of the curve, input by
input, and ends with one pairing check. The three precompiled contracts of
the curve are a parameter (`Precompiles`); each may fail, and the verifier
then reverts.

The inputs reach the curve only as scalars of a multiplication. Where that
depends on the scalar modulo the order of the field, as it does for points
of the curve, so does the verdict: the verifier does not check that an
input is below the order, and accepts every other word for the same field
element (`verifyWith_congr`).
-/

namespace Halo2SnarkVerifier

/-- `PRIME_Q`. -/
def PRIME_Q : Uint256 :=
  21888242871839275222246405745257275088696311157297823662689037894645226208583

/-- A `uint256[2]`. -/
abbrev Words := Uint256 × Uint256

/-- `VerifyingKey`. -/
structure VerifyingKey where
  alpha_x : Uint256
  alpha_y : Uint256
  beta_x : Words
  beta_y : Words
  gamma_x : Words
  gamma_y : Words
  delta_x : Words
  delta_y : Words
  ic : List (List Uint256)
  deriving DecidableEq

/-- **The storage of the verifier**, with its two immutables. -/
structure Storage where
  transferVK : VerifyingKey
  withdrawVK : VerifyingKey
  aggregationVK : VerifyingKey
  transferVKReady : Bool
  withdrawVKReady : Bool
  aggregationVKReady : Bool
  halo2TransferVKHash : Bytes32
  halo2WithdrawVKHash : Bytes32
  governance : Address

/-- The errors of the verifier. -/
inductive Error where
  | unauthorized
  | vkNotInitialized
  | vkAlreadyInitialized
  | invalidProofLength
  /-- An arithmetic or bounds panic. -/
  | panic
  /-- A precompiled contract failed. -/
  | precompile
  deriving DecidableEq

/-- The precompiled contracts `0x06`, `0x07` and `0x08`. -/
structure Precompiles where
  ecAdd : Uint256 → Uint256 → Uint256 → Uint256 → Option Words
  ecMul : Uint256 → Uint256 → Uint256 → Option Words
  pairing : List Uint256 → Option Uint256

/-- **What is assumed of the multiplication**: it depends on its scalar
modulo the order of the field. -/
def Precompiles.ScalarsModulo (P : Precompiles) : Prop :=
  ∀ x y s s', Bn254.SameElement s s' → P.ecMul x y s = P.ecMul x y s'

/-- The points of a proof. -/
structure Proof where
  a_x : Uint256
  a_y : Uint256
  b_x : Words
  b_y : Words
  c_x : Uint256
  c_y : Uint256

/-- The word at a position of the calldata. -/
def wordAt (proof : Bytes) (i : ℕ) : Uint256 :=
  BitVec.ofNat 256
    (((proof.drop (32 * i)).take 32).foldl (fun n b => 256 * n + b.toNat) 0)

/-- `_decodeProof`. -/
def decodeProof (proof : Bytes) : Proof where
  a_x := wordAt proof 0
  a_y := wordAt proof 1
  b_x := (wordAt proof 2, wordAt proof 3)
  b_y := (wordAt proof 4, wordAt proof 5)
  c_x := wordAt proof 6
  c_y := wordAt proof 7

/-- The words of a proof of zeros are zero. -/
theorem wordAt_zeros (n i : ℕ) : wordAt (List.replicate n 0) i = 0 := by
  have hzero : ∀ k, (List.replicate k (0 : BitVec 8)).foldl
      (fun n b => 256 * n + b.toNat) 0 = 0 := by
    intro k
    induction k with
    | zero => rfl
    | succ k ih => exact ih
  unfold wordAt
  rw [List.drop_replicate, List.take_replicate, hzero]
  rfl

theorem decodeProof_zeros (n : ℕ) :
    decodeProof (List.replicate n 0) = ⟨0, 0, (0, 0), (0, 0), 0, 0⟩ := by
  unfold decodeProof
  simp only [wordAt_zeros]

variable (P : Precompiles)

/-! ## Verification -/

/-- `_ecAdd`. -/
def ecAdd (x1 y1 x2 y2 : Uint256) : Except Error Words :=
  orRevert .precompile (P.ecAdd x1 y1 x2 y2)

/-- `_ecMul`. -/
def ecMul (x y scalar : Uint256) : Except Error Words :=
  orRevert .precompile (P.ecMul x y scalar)

/-- The point `vk.ic[i]`. -/
def icPoint (vk : VerifyingKey) (i : ℕ) : Except Error Words := do
  let row ← orRevert .panic vk.ic[i]?
  let x ← orRevert .panic row[0]?
  let y ← orRevert .panic row[1]?
  .ok (x, y)

/-- The loop over the public inputs, from the `i`-th on. -/
def accumulate (vk : VerifyingKey) : ℕ → Words → List Uint256 → Except Error Words
  | _, vkx, [] => .ok vkx
  | i, vkx, input :: rest => do
    let ic ← icPoint vk (i + 1)
    let p ← ecMul P ic.1 ic.2 input
    let vkx ← ecAdd P vkx.1 vkx.2 p.1 p.2
    accumulate vk (i + 1) vkx rest

/-- The input of the pairing precompile. -/
def pairingInput (p : Proof) (neg_a_y : Uint256) (vk : VerifyingKey) (vkx : Words) :
    List Uint256 :=
  [p.a_x, neg_a_y, p.b_x.2, p.b_x.1, p.b_y.2, p.b_y.1,
    vk.alpha_x, vk.alpha_y, vk.beta_x.2, vk.beta_x.1, vk.beta_y.2, vk.beta_y.1,
    vkx.1, vkx.2, vk.gamma_x.2, vk.gamma_x.1, vk.gamma_y.2, vk.gamma_y.1,
    p.c_x, p.c_y, vk.delta_x.2, vk.delta_x.1, vk.delta_y.2, vk.delta_y.1]

/-- `_pairingCheck`. -/
def pairingCheck (p : Proof) (vk : VerifyingKey) (vkx : Words) : Except Error Bool := do
  let negated ← checkedSub .panic PRIME_Q p.a_y
  let result ← orRevert .precompile
    (P.pairing (pairingInput p (negated % PRIME_Q) vk vkx))
  .ok (result == 1)

/-- `_verifyGroth16`. -/
def verifyGroth16 (proof : Bytes) (publicInputs : List Uint256) (vk : VerifyingKey) :
    Except Error Bool := do
  revertIf (proof.length ≠ 256) .invalidProofLength
  let first ← icPoint vk 0
  let vkx ← accumulate P vk 0 first publicInputs
  pairingCheck P (decodeProof proof) vk vkx

/-- A proof against a key that may not be there yet. -/
def verifyWith (ready : Bool) (vk : VerifyingKey) (proof : Bytes)
    (publicInputs : List Uint256) : Except Error Bool := do
  revertIf (ready = false) .vkNotInitialized
  verifyGroth16 P proof publicInputs vk

/-- `verifyTransferProof`. -/
def verifyTransferProof (s : Storage) :=
  verifyWith P s.transferVKReady s.transferVK

/-- `verifyWithdrawProof`. -/
def verifyWithdrawProof (s : Storage) :=
  verifyWith P s.withdrawVKReady s.withdrawVK

/-- `verifyAggregatedProof`. -/
def verifyAggregatedProof (s : Storage) :=
  verifyWith P s.aggregationVKReady s.aggregationVK

/-! ## Setting up -/

/-- The constructor. -/
def construct (sender : Address) (halo2TransferVKHash halo2WithdrawVKHash : Bytes32) :
    Storage where
  transferVK := ⟨0, 0, 0, 0, 0, 0, 0, 0, []⟩
  withdrawVK := ⟨0, 0, 0, 0, 0, 0, 0, 0, []⟩
  aggregationVK := ⟨0, 0, 0, 0, 0, 0, 0, 0, []⟩
  transferVKReady := false
  withdrawVKReady := false
  aggregationVKReady := false
  halo2TransferVKHash := halo2TransferVKHash
  halo2WithdrawVKHash := halo2WithdrawVKHash
  governance := sender

/-- A key is set by governance, and once. -/
def initVK (sender : Address) (s : Storage) (ready : Bool) (s' : Storage) :
    Except Error Storage := do
  revertIf (sender ≠ s.governance) .unauthorized
  revertIf (ready = true) .vkAlreadyInitialized
  .ok s'

/-- `initTransferVK`. -/
def initTransferVK (sender : Address) (vk : VerifyingKey) (s : Storage) :=
  initVK sender s s.transferVKReady { s with transferVK := vk, transferVKReady := true }

/-- `initWithdrawVK`. -/
def initWithdrawVK (sender : Address) (vk : VerifyingKey) (s : Storage) :=
  initVK sender s s.withdrawVKReady { s with withdrawVK := vk, withdrawVKReady := true }

/-- `initAggregationVK`. -/
def initAggregationVK (sender : Address) (vk : VerifyingKey) (s : Storage) :=
  initVK sender s s.aggregationVKReady
    { s with aggregationVK := vk, aggregationVKReady := true }

/-! ## What the verdict depends on -/

variable {P}

/-- The accumulated point depends on the inputs modulo the order. -/
theorem accumulate_congr (hP : P.ScalarsModulo) (vk : VerifyingKey)
    {inputs inputs' : List Uint256} (h : List.Forall₂ Bn254.SameElement inputs inputs')
    (i : ℕ) (vkx : Words) :
    accumulate P vk i vkx inputs = accumulate P vk i vkx inputs' := by
  induction h generalizing i vkx with
  | nil => rfl
  | cons hsame _ ih =>
    rw [accumulate, accumulate]
    unfold ecMul
    refine congrArg _ (funext fun ic => ?_)
    rw [hP _ _ _ _ hsame]
    refine congrArg _ (funext fun p => ?_)
    exact congrArg _ (funext fun vkx => ih (i + 1) vkx)

/-- **The verdict depends on the public inputs modulo the order**: words
for the same field elements are accepted with the same proof. -/
theorem verifyWith_congr (hP : P.ScalarsModulo) (ready : Bool) (vk : VerifyingKey)
    (proof : Bytes) {inputs inputs' : List Uint256}
    (h : List.Forall₂ Bn254.SameElement inputs inputs') :
    verifyWith P ready vk proof inputs = verifyWith P ready vk proof inputs' := by
  unfold verifyWith verifyGroth16
  refine congrArg _ (funext fun _ => congrArg _ (funext fun _ => congrArg _ ?_))
  funext first
  rw [accumulate_congr hP vk h]

end Halo2SnarkVerifier
