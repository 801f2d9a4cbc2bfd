import SoulPrivacy.BigEndian
import SoulPrivacy.Groth16
import SoulPrivacy.Keccak
import SoulPrivacy.Run
import SoulPrivacy.SolidityLoop

/-!
# The UltraHonk verifier (`UltraHonkVerifier.sol`)

The verifier checks the form of a proof, derives a challenge from it, and ends with a
pairing check of its own last point. Governance sets a key for each kind of proof, once.

Both pairs of the check have the same second point, written into the contract as four
words. The last of them that counts is not the ordinate of the generator: the words are
no point of the twist at all (`decodeG2_g2`), so the pairing contract refuses its input
whatever the first points are. A proof therefore has one of two fates, and the form alone
says which: a malformed one is answered with `false`, a well-formed one with a revert
(`verifyUltraHonk_eq`). There is no proof that the verifier accepts.
-/

namespace UltraHonkVerifier

open Halo2SnarkVerifier (Words Precompiles bn254)

/-- `HonkVerificationKey`. -/
structure HonkVerificationKey where
  circuitSize : Uint256
  numPublicInputs : Uint256
  qm : Words
  ql : Words
  qr : Words
  qo : Words
  qc : Words
  q4 : Words
  qArith : Words
  qSort : Words
  qLookup : Words
  sigma1 : Words
  sigma2 : Words
  sigma3 : Words
  sigma4 : Words
  id1 : Words
  id2 : Words
  id3 : Words
  id4 : Words
  table1 : Words
  table2 : Words
  table3 : Words
  table4 : Words
  lagrangeFirst : Words
  lagrangeLast : Words
  initialized : Bool
  deriving DecidableEq

/-- The keys of the verifier. -/
inductive Circuit where
  | transfer
  | withdraw
  | aggregation
  deriving DecidableEq

/-- **The storage of the verifier**: `transferVK`, `withdrawVK` and `aggregationVK`, and
who may set them. -/
structure Storage where
  vk : Circuit → HonkVerificationKey
  governance : Address

/-- The errors of the verifier. -/
inductive Error where
  | unauthorized
  | vkNotInitialized
  | vkAlreadyInitialized
  /-- A slice of the calldata that is not in it. -/
  | outOfBounds
  /-- `revert(0, 0)`: a precompiled contract failed. -/
  | precompile
  deriving DecidableEq

/-- `BN254_P`. -/
def BN254_P : Uint256 :=
  21888242871839275222246405745257275088696311157297823662689037894645226208583

/-- `BN254_B`. -/
def BN254_B : Uint256 := 3

/-- `g2x0`. -/
def g2x0 : Uint256 := 0x198e9393920d483a7260bfb731fb5d25f1aa493335a9e71297e485b7aef312c2

/-- `g2x1`. -/
def g2x1 : Uint256 := 0x1800deef121f1e76426a00665e5c4479674322d4f75edadd46debd5cd992f6ed

/-- `g2y0`. -/
def g2y0 : Uint256 := 0x090689d0585ff075ec9e99ad690c3395bc4b313370b38ef355acddb9e557b7b6

/-- `g2y1`. -/
def g2y1 : Uint256 := 0x12c85ea5db8c6deb4aab71808dcb408fe3d1e7690c43d37b4ce6cc0166fa7daa

/-! ## The parts of a proof -/

/-- A slice `data[start:stop]` of the calldata. -/
def slice (data : Bytes) (start stop : ℕ) : Except Error Bytes := do
  revertIf (stop < start ∨ data.length < stop) .outOfBounds
  .ok ((data.take stop).drop start)

/-- `uint256(bytes32(data[start:start + 32]))`. -/
def wordFrom (data : Bytes) (start : ℕ) : Except Error Uint256 := do
  let bytes ← slice data start (start + 32)
  .ok (BitVec.ofNat 256 (beNat bytes))

/-- `_isOnCurveG1`. -/
def isOnCurveG1 (x y : Uint256) : Bool :=
  if BN254_P.toNat ≤ x.toNat ∨ BN254_P.toNat ≤ y.toNat then false
  else
    let lhs := mulmod y y BN254_P
    let x3 := mulmod (mulmod x x BN254_P) x BN254_P
    let rhs := addmod x3 BN254_B BN254_P
    lhs == rhs

/-- The loop over the wire commitments, for the indices that are left. -/
def checkWires (proof : Bytes) : List ℕ → Except Error Bool
  | [] => .ok true
  | i :: rest =>
    let offset := i * 64
    if proof.length < offset + 64 then .ok false
    else do
      let px ← wordFrom proof offset
      let py ← wordFrom proof (offset + 32)
      if px = 0 ∧ py = 0 then .ok false
      else if isOnCurveG1 px py = false then .ok false
      else checkWires proof rest

/-- `_computeChallenge`. -/
def computeChallenge (proof : Bytes) (publicInputs : List Uint256) (vk : HonkVerificationKey) :
    Except Error Bytes32 := do
  let domain : Bytes := "UltraHonk_v1".toList.map (fun c => BitVec.ofNat 8 c.toNat)
  let transcript := domain ++ [0, 0, 0, 0]
    ++ [vk.circuitSize, vk.numPublicInputs, vk.qm.1, vk.qm.2, vk.ql.1, vk.ql.2,
      vk.sigma1.1, vk.sigma1.2].flatMap (fun w => beBytes 32 w.toNat)
  let transcript := publicInputs.foldl (fun t input => t ++ beBytes 32 input.toNat) transcript
  let transcriptLen := if proof.length < 576 then proof.length else 576
  let wires ← slice proof 0 transcriptLen
  .ok (BitVec.ofNat 256 (beNat (Keccak.keccak256 (transcript ++ wires))))

/-! ## Verification -/

variable (P : Precompiles)

/-- `_doPairingCheck`. -/
def doPairingCheck (piX piY z cX cY : Uint256) : Except Error Bool := do
  let s ← orRevert .precompile (P.ecMul piX piY z)
  let sum ← orRevert .precompile (P.ecAdd s.1 s.2 cX cY)
  let negPiY := BN254_P - piY
  let pairingValid ← orRevert .precompile
    (P.pairing [piX, negPiY, g2x0, g2x1, g2y0, g2y1, sum.1, sum.2, g2x0, g2x1, g2y0, g2y1])
  .ok (pairingValid != 0)

/-- `_executePairingCheck`. -/
def executePairingCheck (proof : Bytes) (publicInputs : List Uint256)
    (vk : HonkVerificationKey) : Except Error Bool := do
  let kzgOffset := proof.length - 64
  let piX ← wordFrom proof kzgOffset
  let piY ← wordFrom proof (kzgOffset + 32)
  if isOnCurveG1 piX piY = false then .ok false
  else do
    let challenge ← computeChallenge proof publicInputs vk
    let z := challenge % BN254_P
    let cX ← wordFrom proof 0
    let cY ← wordFrom proof 32
    doPairingCheck P piX piY z cX cY

/-- `_verifyUltraHonk`. -/
def verifyUltraHonk (proof : Bytes) (publicInputs : List Uint256) (vk : HonkVerificationKey) :
    Except Error Bool :=
  if publicInputs.length ≠ vk.numPublicInputs.toNat then .ok false
  else if proof.length < 768 then .ok false
  else if proof.length % 32 ≠ 0 then .ok false
  else do
    let wires ← checkWires proof (List.range 4)
    if wires = false then .ok false
    else if publicInputs.any (fun input => BN254_P.toNat ≤ input.toNat) then .ok false
    else executePairingCheck P proof publicInputs vk

/-- A proof of a circuit, against its key. -/
def verifyProof (circuit : Circuit) (s : Storage) (proof : Bytes)
    (publicInputs : List Uint256) : Except Error Bool := do
  revertIf ((s.vk circuit).initialized = false) .vkNotInitialized
  verifyUltraHonk P proof publicInputs (s.vk circuit)

/-- `verifyTransferProof`. -/
def verifyTransferProof := verifyProof P .transfer

/-- `verifyWithdrawProof`. -/
def verifyWithdrawProof := verifyProof P .withdraw

/-- `verifyAggregatedProof`. -/
def verifyAggregatedProof := verifyProof P .aggregation

/-! ## The keys -/

/-- A key that is not there yet. -/
def HonkVerificationKey.empty : HonkVerificationKey :=
  ⟨0, 0, 0, 0, 0, 0, 0, 0, 0, 0, 0, 0, 0, 0, 0, 0, 0, 0, 0, 0, 0, 0, 0, 0, 0, false⟩

/-- The constructor. -/
def construct (sender : Address) : Storage := ⟨fun _ => .empty, sender⟩

/-- The storage with a key of one circuit. -/
def Storage.withVK (s : Storage) (circuit : Circuit) (vk : HonkVerificationKey) : Storage :=
  { s with vk := Function.update s.vk circuit { vk with initialized := true } }

/-- A key is set by governance, and once. -/
def setVK (circuit : Circuit) (sender : Address) (vk : HonkVerificationKey) (s : Storage) :
    Except Error Storage := do
  revertIf (sender ≠ s.governance) .unauthorized
  revertIf ((s.vk circuit).initialized = true) .vkAlreadyInitialized
  .ok (s.withVK circuit vk)

/-- `setTransferVK`. -/
def setTransferVK := setVK .transfer

/-- `setWithdrawVK`. -/
def setWithdrawVK := setVK .withdraw

/-- `setAggregationVK`. -/
def setAggregationVK := setVK .aggregation

/-- `setGovernance`. -/
def setGovernance (sender governance : Address) (s : Storage) : Except Error Storage := do
  revertIf (sender ≠ s.governance) .unauthorized
  .ok { s with governance := governance }

/-- The calls that change the storage. -/
inductive Call where
  | setTransferVK (sender : Address) (vk : HonkVerificationKey)
  | setWithdrawVK (sender : Address) (vk : HonkVerificationKey)
  | setAggregationVK (sender : Address) (vk : HonkVerificationKey)
  | setGovernance (sender governance : Address)

/-- A call. -/
def step : Call → Storage → Except Error Storage
  | .setTransferVK sender vk => setTransferVK sender vk
  | .setWithdrawVK sender vk => setWithdrawVK sender vk
  | .setAggregationVK sender vk => setAggregationVK sender vk
  | .setGovernance sender governance => setGovernance sender governance

/-- The key that a call is to set. -/
def Call.key (circuit : Circuit) : Call → Option HonkVerificationKey
  | .setTransferVK _ vk => if circuit = .transfer then some vk else none
  | .setWithdrawVK _ vk => if circuit = .withdraw then some vk else none
  | .setAggregationVK _ vk => if circuit = .aggregation then some vk else none
  | .setGovernance _ _ => none

/-- **The key that a run sets**: the first one, as calls for a second one are refused. -/
def keySet (circuit : Circuit) (calls : List (Storage × Call)) : Option HonkVerificationKey :=
  calls.findSome? (fun p => p.2.key circuit)

/-- **What one call does to the key of a circuit.** -/
theorem step_vk (circuit : Circuit) {c : Call} {s s' : Storage} (h : step c s = .ok s') :
    (c.key circuit = none ∧ s'.vk circuit = s.vk circuit) ∨
      ∃ vk, c.key circuit = some vk ∧ (s.vk circuit).initialized = false ∧
        s'.vk circuit = { vk with initialized := true } := by
  have hset : ∀ {other : Circuit} {sender : Address} {vk : HonkVerificationKey},
      setVK other sender vk s = .ok s' →
      ((if circuit = other then some vk else none) = none ∧ s'.vk circuit = s.vk circuit) ∨
        ∃ vk', (if circuit = other then some vk else none) = some vk' ∧
          (s.vk circuit).initialized = false ∧ s'.vk circuit = { vk' with initialized := true } := by
    intro other sender vk hok
    unfold setVK at hok
    simp only [revertIf_bind_eq_ok, Except.ok.injEq] at hok
    obtain ⟨-, hfresh, rfl⟩ := hok
    by_cases heq : circuit = other
    · subst heq
      refine Or.inr ⟨vk, if_pos rfl, Bool.eq_false_iff.mpr hfresh, ?_⟩
      exact Function.update_self ..
    · exact Or.inl ⟨if_neg heq, Function.update_of_ne heq ..⟩
  cases c with
  | setTransferVK sender vk => exact hset h
  | setWithdrawVK sender vk => exact hset h
  | setAggregationVK sender vk => exact hset h
  | setGovernance sender governance =>
    simp only [step, setGovernance, revertIf_bind_eq_ok, Except.ok.injEq] at h
    obtain ⟨-, rfl⟩ := h
    exact Or.inl ⟨rfl, rfl⟩

/-- **After a run the key of a circuit is the one that the run set**, and none before. -/
theorem vk_of_run {sender : Address} {calls : List (Storage × Call)} {s : Storage}
    (h : Run step (fun _ _ => True) (construct sender) calls s) (circuit : Circuit) :
    s.vk circuit = ((keySet circuit calls).elim .empty
      fun vk => { vk with initialized := true }) := by
  refine Run.invariant (I := fun calls s => s.vk circuit = ((keySet circuit calls).elim .empty
    fun vk => { vk with initialized := true })) rfl ?_ h
  intro tr s c s' ih _ hstep
  have hsnoc : keySet circuit (tr ++ [(s, c)]) = (keySet circuit tr).or (c.key circuit) := by
    simp [keySet, List.findSome?_append]
  rw [hsnoc]
  rcases step_vk circuit hstep with ⟨hnone, hkeep⟩ | ⟨vk, hsome, hfresh, hnew⟩
  · rw [hnone, Option.or_none, hkeep, ih]
  · cases hbefore : keySet circuit tr with
    | none => rw [Option.none_or, hsome, hnew]; rfl
    | some vk' =>
      rw [ih, hbefore] at hfresh
      exact absurd hfresh (Bool.noConfusion)

/-! ## Points -/

open Bn254

theorem toNat_BN254_P : BN254_P.toNat = q := by decide

theorem natCast_mulmod (a b : Uint256) :
    ((mulmod a b BN254_P).toNat : Base) = (a.toNat : Base) * b.toNat := by
  have hlt : a.toNat * b.toNat % q < 2 ^ 256 :=
    (Nat.mod_lt _ (by decide)).trans (show q < 2 ^ 256 by decide)
  unfold mulmod
  rw [toNat_BN254_P, BitVec.toNat_ofNat, Nat.mod_eq_of_lt hlt, ZMod.natCast_mod, Nat.cast_mul]

theorem natCast_addmod (a b : Uint256) :
    ((addmod a b BN254_P).toNat : Base) = (a.toNat : Base) + b.toNat := by
  have hlt : (a.toNat + b.toNat) % q < 2 ^ 256 :=
    (Nat.mod_lt _ (by decide)).trans (show q < 2 ^ 256 by decide)
  unfold addmod
  rw [toNat_BN254_P, BitVec.toNat_ofNat, Nat.mod_eq_of_lt hlt, ZMod.natCast_mod, Nat.cast_add]

theorem toNat_mulmod_lt (a b : Uint256) : (mulmod a b BN254_P).toNat < q := by
  unfold mulmod
  rw [toNat_BN254_P, BitVec.toNat_ofNat]
  exact (Nat.mod_le _ _).trans_lt (Nat.mod_lt _ (by decide))

/-- Words below `q` are equal when they are the same element. -/
theorem eq_iff_natCast_eq {a b : Uint256} (ha : a.toNat < q) (hb : b.toNat < q) :
    a = b ↔ (a.toNat : Base) = b.toNat := by
  rw [ZMod.natCast_eq_natCast_iff, Nat.ModEq, Nat.mod_eq_of_lt ha, Nat.mod_eq_of_lt hb,
    BitVec.toNat_inj]

/-- **The curve check is passed by the points**, the one at infinity apart. -/
theorem isOnCurveG1_iff (x y : Uint256) :
    isOnCurveG1 x y = true ↔ ∃ P, decodeG1 x y = some P ∧ P ≠ 0 := by
  unfold isOnCurveG1
  rw [toNat_BN254_P]
  split
  · rename_i hlarge
    have hnone : decodeG1 x y = none := by
      unfold decodeG1 element
      rcases hlarge with hx | hy
      · rw [if_neg (not_lt.mpr hx)]
        rfl
      · rw [if_neg (not_lt.mpr hy)]
        cases (if x.toNat < q then some (x.toNat : Base) else none) <;> rfl
    rw [hnone]
    simp
  · rename_i hsmall
    obtain ⟨hx, hy⟩ := not_or.mp hsmall
    have hdecode : decodeG1 x y = g1.point (x.toNat : Base) (y.toNat : Base) := by
      unfold decodeG1
      rw [element_of_lt (not_le.mp hx), element_of_lt (not_le.mp hy)]
      rfl
    have hequation : (mulmod y y BN254_P
        == addmod (mulmod (mulmod x x BN254_P) x BN254_P) BN254_B BN254_P) = true ↔
        (y.toNat : Base) ^ 2 = (x.toNat : Base) ^ 3 + 3 := by
      have haddlt : (addmod (mulmod (mulmod x x BN254_P) x BN254_P) BN254_B BN254_P).toNat < q := by
        have hlt := toNat_addmod_lt (mulmod (mulmod x x BN254_P) x BN254_P) BN254_B
          (show BN254_P ≠ 0 by decide)
        rwa [toNat_BN254_P] at hlt
      have hthree : ((BN254_B.toNat : ℕ) : Base) = 3 := Nat.cast_ofNat
      rw [beq_iff_eq, eq_iff_natCast_eq (toNat_mulmod_lt y y) haddlt, natCast_mulmod, natCast_addmod,
        natCast_mulmod, natCast_mulmod, hthree, ← pow_two, ← pow_two, ← pow_succ]
    dsimp only
    rw [hequation, hdecode]
    constructor
    · intro h
      exact ⟨_, g1.point_some ((g1.nonsingular_iff _ _).mpr h),
        WeierstrassCurve.Affine.Point.some_ne_zero _⟩
    · rintro ⟨P, hP, hne⟩
      unfold ShortCurve.point at hP
      split at hP
      · exact absurd (Option.some.inj hP).symm hne
      · split at hP
        · rename_i h
          exact h
        · cases hP

/-- The second words of the check, as an element. -/
theorem extension_g2x :
    extension g2x1 g2x0 = some ⟨(g2x1.toNat : Base), (g2x0.toNat : Base)⟩ := by
  unfold extension
  rw [element_of_lt (by decide), element_of_lt (by decide)]
  rfl

theorem extension_g2y :
    extension g2y1 g2y0 = some ⟨(g2y1.toNat : Base), (g2y0.toNat : Base)⟩ := by
  unfold extension
  rw [element_of_lt (by decide), element_of_lt (by decide)]
  rfl

/-- The equation of the twist, without its division. -/
theorem twist_equation {x y : Extension} (h : y ^ 2 = x ^ 3 + twist.b) :
    y ^ 2 * ⟨((9 : ℕ) : Base), 1⟩ = x ^ 3 * ⟨((9 : ℕ) : Base), 1⟩ + 3 := by
  have hb : twist.b * ⟨((9 : ℕ) : Base), 1⟩ = 3 :=
    div_mul_cancel₀ _ (fun h => one_ne_zero (congrArg QuadraticAlgebra.im h))
  rw [h, add_mul, hb]

/-- **The words of the second point are no point.** -/
theorem decodeG2_g2 : decodeG2 (g2x1, g2x0) (g2y1, g2y0) = none := by
  have hzero : ¬((⟨(g2x1.toNat : Base), (g2x0.toNat : Base)⟩ : Extension) = 0
      ∧ (⟨(g2y1.toNat : Base), (g2y0.toNat : Base)⟩ : Extension) = 0) := by
    decide +kernel
  have hoff : ¬((⟨(g2y1.toNat : Base), (g2y0.toNat : Base)⟩ : Extension) ^ 2
      = (⟨(g2x1.toNat : Base), (g2x0.toNat : Base)⟩ : Extension) ^ 3 + twist.b) := by
    intro h
    exact absurd (twist_equation h) (by decide +kernel)
  unfold decodeG2
  simp only [extension_g2x, extension_g2y, Option.bind_eq_bind, Option.bind_some]
  unfold ShortCurve.point
  rw [if_neg hzero, dif_neg hoff]
  rfl

variable {GT : Type} [CommGroup GT] [DecidableEq GT]

/-- **The pairing contract refuses the input of the check.** -/
theorem doPairingCheck_eq (e : G1 →+ G2 →+ Additive GT) (piX piY z cX cY : Uint256) :
    doPairingCheck (bn254 e) piX piY z cX cY = .error .precompile := by
  have hnone : ∀ negPiY sumX sumY : Uint256, (bn254 e).pairing
      [piX, negPiY, g2x0, g2x1, g2y0, g2y1, sumX, sumY, g2x0, g2x1, g2y0, g2y1] = none := by
    intro negPiY sumX sumY
    show Bn254.pairing e _ = none
    unfold Bn254.pairing decodePairs
    rw [decodeG2_g2]
    cases decodeG1 piX negPiY <;> rfl
  unfold doPairingCheck
  simp only [hnone]
  cases (bn254 e).ecMul piX piY z with
  | none => rfl
  | some s =>
    show (orRevert Error.precompile ((bn254 e).ecAdd s.1 s.2 cX cY)
      >>= fun _ => Except.error Error.precompile) = _
    cases (bn254 e).ecAdd s.1 s.2 cX cY <;> rfl

/-! ## The form of a proof -/

open Halo2SnarkVerifier (wordAt)

/-- Two words of a proof are a point, and not the one at infinity. -/
def PointAt (proof : Bytes) (i : ℕ) : Prop :=
  ∃ P, decodeG1 (wordAt proof i) (wordAt proof (i + 1)) = some P ∧ P ≠ 0

/-- **A well-formed proof**, with the inputs it is for. -/
structure WellFormed (proof : Bytes) (publicInputs : List Uint256) (vk : HonkVerificationKey) :
    Prop where
  count : publicInputs.length = vk.numPublicInputs.toNat
  long : 768 ≤ proof.length
  words : proof.length % 32 = 0
  wires : ∀ i < 4, PointAt proof (2 * i)
  inputs : ∀ input ∈ publicInputs, input.toNat < q
  opening : PointAt proof (proof.length / 32 - 2)

/-- **The words of a proof**, read at their places. -/
theorem wordFrom_eq {proof : Bytes} {i : ℕ} (h : 32 * i + 32 ≤ proof.length) :
    wordFrom proof (32 * i) = .ok (wordAt proof i) := by
  unfold wordFrom slice
  rw [revertIf_bind_of_neg (not_or.mpr ⟨by omega, not_lt.mpr h⟩)]
  show Except.ok _ = _
  rw [List.drop_take, Nat.add_sub_cancel_left]
  rfl

theorem pointAt_iff (proof : Bytes) (i : ℕ) :
    PointAt proof i ↔ isOnCurveG1 (wordAt proof i) (wordAt proof (i + 1)) = true :=
  (isOnCurveG1_iff _ _).symm

/-- **The loop asks of each index whether there is a point.** -/
theorem checkWires_eq {proof : Bytes} {l : List ℕ} (h : ∀ i ∈ l, i * 64 + 64 ≤ proof.length) :
    ∃ b, checkWires proof l = .ok b ∧ (b = true ↔ ∀ i ∈ l, PointAt proof (2 * i)) := by
  induction l with
  | nil => exact ⟨true, rfl, iff_of_true rfl (fun _ hi => absurd hi List.not_mem_nil)⟩
  | cons i rest ih =>
    obtain ⟨hi, hrest⟩ := List.forall_mem_cons.mp h
    obtain ⟨b, hb, hiff⟩ := ih hrest
    have hx : wordFrom proof (i * 64) = .ok (wordAt proof (2 * i)) := by
      rw [show i * 64 = 32 * (2 * i) by ring]
      exact wordFrom_eq (by omega)
    have hy : wordFrom proof (i * 64 + 32) = .ok (wordAt proof (2 * i + 1)) := by
      rw [show i * 64 + 32 = 32 * (2 * i + 1) by ring]
      exact wordFrom_eq (by omega)
    rw [List.forall_mem_cons]
    unfold checkWires
    simp only [if_neg (not_lt.mpr hi), hx, hy, Except.ok_bind]
    split
    · rename_i hzero
      refine ⟨false, rfl, iff_of_false Bool.false_ne_true (fun hall => ?_)⟩
      have hpoint := (pointAt_iff proof (2 * i)).mp hall.1
      rw [hzero.1, hzero.2] at hpoint
      exact absurd hpoint (by decide)
    · split
      · rename_i hoff
        refine ⟨false, rfl, iff_of_false Bool.false_ne_true (fun hall => ?_)⟩
        rw [(pointAt_iff proof (2 * i)).mp hall.1] at hoff
        cases hoff
      · rename_i hon
        refine ⟨b, hb, hiff.trans (iff_and_self.mpr (fun _ => ?_))⟩
        exact (pointAt_iff proof (2 * i)).mpr (Bool.eq_true_of_not_eq_false hon)

/-- The challenge is computed, however short the proof. -/
theorem computeChallenge_eq (proof : Bytes) (publicInputs : List Uint256)
    (vk : HonkVerificationKey) : ∃ z, computeChallenge proof publicInputs vk = .ok z := by
  have hle : (if proof.length < 576 then proof.length else 576) ≤ proof.length := by
    split <;> omega
  unfold computeChallenge slice
  dsimp only
  rw [revertIf_bind_of_neg (not_or.mpr ⟨Nat.not_lt_zero _, not_lt.mpr hle⟩)]
  exact ⟨_, rfl⟩

/-- **From its last point on, a proof is refused one way or the other.** -/
theorem executePairingCheck_eq (e : G1 →+ G2 →+ Additive GT) {proof : Bytes}
    (hlong : 768 ≤ proof.length) (hwords : proof.length % 32 = 0)
    (publicInputs : List Uint256) (vk : HonkVerificationKey) :
    (PointAt proof (proof.length / 32 - 2) →
        executePairingCheck (bn254 e) proof publicInputs vk = .error .precompile) ∧
      (¬PointAt proof (proof.length / 32 - 2) →
        executePairingCheck (bn254 e) proof publicInputs vk = .ok false) := by
  have hx : wordFrom proof (proof.length - 64) = .ok (wordAt proof (proof.length / 32 - 2)) := by
    rw [show proof.length - 64 = 32 * (proof.length / 32 - 2) by omega]
    exact wordFrom_eq (by omega)
  have hy : wordFrom proof (proof.length - 64 + 32)
      = .ok (wordAt proof (proof.length / 32 - 2 + 1)) := by
    rw [show proof.length - 64 + 32 = 32 * (proof.length / 32 - 2 + 1) by omega]
    exact wordFrom_eq (by omega)
  have hcX : wordFrom proof 0 = .ok (wordAt proof 0) := wordFrom_eq (i := 0) (by omega)
  have hcY : wordFrom proof 32 = .ok (wordAt proof 1) := wordFrom_eq (i := 1) (by omega)
  obtain ⟨z, hz⟩ := computeChallenge_eq proof publicInputs vk
  unfold executePairingCheck
  simp only [hx, hy, hcX, hcY, hz, Except.ok_bind, doPairingCheck_eq]
  rw [pointAt_iff]
  constructor
  · intro hpoint
    rw [if_neg (by rw [hpoint]; exact Bool.noConfusion)]
  · intro hoff
    rw [if_pos (Bool.eq_false_iff.mpr hoff)]

/-- **A malformed proof is answered with `false`, a well-formed one with a revert.** -/
theorem verifyUltraHonk_eq (e : G1 →+ G2 →+ Additive GT) (proof : Bytes)
    (publicInputs : List Uint256) (vk : HonkVerificationKey) :
    (WellFormed proof publicInputs vk →
        verifyUltraHonk (bn254 e) proof publicInputs vk = .error .precompile) ∧
      (¬WellFormed proof publicInputs vk →
        verifyUltraHonk (bn254 e) proof publicInputs vk = .ok false) := by
  unfold verifyUltraHonk
  split
  · rename_i hcount
    exact ⟨fun h => absurd h.count hcount, fun _ => rfl⟩
  rename_i hcount
  split
  · rename_i hshort
    exact ⟨fun h => absurd h.long (not_le.mpr hshort), fun _ => rfl⟩
  rename_i hlong
  split
  · rename_i hwords
    exact ⟨fun h => absurd h.words hwords, fun _ => rfl⟩
  rename_i hwords
  have hlong' : 768 ≤ proof.length := not_lt.mp hlong
  have hfits : ∀ i ∈ List.range 4, i * 64 + 64 ≤ proof.length := by
    intro i hi
    have hlt := List.mem_range.mp hi
    omega
  obtain ⟨wires, hwires, hiff⟩ := checkWires_eq hfits
  rw [hwires, Except.ok_bind]
  split
  · rename_i hfalse
    refine ⟨fun h => ?_, fun _ => rfl⟩
    rw [hiff.mpr (fun i hi => h.wires i (List.mem_range.mp hi))] at hfalse
    cases hfalse
  rename_i htrue
  split
  · rename_i hany
    refine ⟨fun h => ?_, fun _ => rfl⟩
    obtain ⟨input, hmem, hle⟩ := List.any_eq_true.mp hany
    rw [decide_eq_true_iff, toNat_BN254_P] at hle
    exact absurd (h.inputs input hmem) (not_lt.mpr hle)
  rename_i hany
  have hcheck := executePairingCheck_eq e hlong' (not_not.mp hwords) publicInputs vk
  refine ⟨fun h => hcheck.1 h.opening, fun h => hcheck.2 (fun hopening => h ?_)⟩
  refine ⟨not_not.mp hcount, hlong', not_not.mp hwords, fun i hi => ?_, fun input hmem => ?_,
    hopening⟩
  · exact hiff.mp (Bool.eq_true_of_not_eq_false htrue) i (List.mem_range.mpr hi)
  · by_contra hge
    refine hany (List.any_eq_true.mpr ⟨input, hmem, ?_⟩)
    rw [decide_eq_true_iff, toNat_BN254_P]
    exact not_lt.mp hge

/-- **No proof is accepted**, whatever keys are set. -/
theorem verifyProof_ne_true (e : G1 →+ G2 →+ Additive GT) (circuit : Circuit) (s : Storage)
    (proof : Bytes) (publicInputs : List Uint256) :
    verifyProof (bn254 e) circuit s proof publicInputs ≠ .ok true := by
  intro h
  obtain ⟨-, h⟩ := (revertIf_bind_eq_ok _ _ _ _).mp h
  have hverdict := verifyUltraHonk_eq e proof publicInputs (s.vk circuit)
  by_cases hform : WellFormed proof publicInputs (s.vk circuit)
  · rw [hverdict.1 hform] at h
    cases h
  · rw [hverdict.2 hform] at h
    cases h

/-- **After any run of the verifier no proof is accepted.** A circuit without a key
refuses every call. With the first key that was set for it, and which stays, it answers a
malformed proof with `false` and reverts on every other. -/
theorem verdicts_of_run (e : G1 →+ G2 →+ Additive GT) {sender : Address}
    {calls : List (Storage × Call)} {s : Storage}
    (h : Run step (fun _ _ => True) (construct sender) calls s) (circuit : Circuit)
    (proof : Bytes) (publicInputs : List Uint256) :
    match keySet circuit calls with
    | none => verifyProof (bn254 e) circuit s proof publicInputs = .error .vkNotInitialized
    | some vk =>
      (WellFormed proof publicInputs vk →
          verifyProof (bn254 e) circuit s proof publicInputs = .error .precompile) ∧
        (¬WellFormed proof publicInputs vk →
          verifyProof (bn254 e) circuit s proof publicInputs = .ok false) := by
  have hvk := vk_of_run h circuit
  unfold verifyProof
  rw [hvk]
  cases keySet circuit calls with
  | none => rfl
  | some vk =>
    have hverdict := verifyUltraHonk_eq e proof publicInputs { vk with initialized := true }
    exact ⟨fun hform => hverdict.1 ⟨hform.1, hform.2, hform.3, hform.4, hform.5, hform.6⟩,
      fun hform => hverdict.2 (fun h => hform ⟨h.1, h.2, h.3, h.4, h.5, h.6⟩)⟩

/-- Twelve times the point `(1, 2)`. -/
def generators : Bytes := (List.replicate 12 (beBytes 32 1 ++ beBytes 32 2)).flatten

/-- A well-formed proof without inputs, a malformed one, and a circuit without a key. -/
theorem verdicts_of_generators :
    WellFormed generators [] .empty ∧
      ∀ (GT : Type) [CommGroup GT] [DecidableEq GT] (e : G1 →+ G2 →+ Additive GT),
        verifyTransferProof (bn254 e) ((construct 1).withVK .transfer .empty) generators []
            = .error .precompile
          ∧ verifyTransferProof (bn254 e) ((construct 1).withVK .transfer .empty) [] []
            = .ok false
          ∧ verifyWithdrawProof (bn254 e) ((construct 1).withVK .transfer .empty) [] []
            = .error .vkNotInitialized := by
  have hpoints : ∀ i ∈ [0, 2, 4, 6, 22],
      isOnCurveG1 (wordAt generators i) (wordAt generators (i + 1)) = true := by
    decide +kernel
  have hlength : generators.length = 768 := by simp [generators]
  have hform : WellFormed generators [] .empty := by
    refine ⟨rfl, hlength.ge, by rw [hlength], fun i hi => ?_,
      fun _ h => absurd h List.not_mem_nil, ?_⟩
    · refine (pointAt_iff _ _).mpr (hpoints _ ?_)
      interval_cases i <;> decide
    · rw [hlength]
      exact (pointAt_iff _ _).mpr (hpoints 22 (by decide))
  refine ⟨hform, fun GT _ _ e => ?_⟩
  have hrun : Run step (fun _ _ => True) (construct 1)
      ([] ++ [(construct 1, .setTransferVK 1 .empty)]) ((construct 1).withVK .transfer .empty) :=
    .snoc .nil trivial rfl
  refine ⟨(verdicts_of_run e hrun .transfer generators []).1 hform,
    (verdicts_of_run e hrun .transfer [] []).2 (fun h => ?_),
    verdicts_of_run e hrun .withdraw [] []⟩
  exact absurd h.long (by decide)

end UltraHonkVerifier
