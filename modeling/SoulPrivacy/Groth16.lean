import SoulPrivacy.BigEndian
import SoulPrivacy.Bn254Curve
import SoulPrivacy.Halo2SnarkVerifier

/-!
# The verdict of the Groth16 verifier

The verifier is compared with its reference: there is one input for every point of the key
but the first, each below the order of the scalar field, all the points decode, and the
pairing equation holds of them.

What the contract computes is the equation (`verifyGroth16_eq_true_iff`), but for two
things that it never looks at. It stops at the end of the array and takes any word as a
scalar, so the array may be short and its entries unreduced. And it negates the first
point of the proof modulo `q` before the pairing contract sees it, so an ordinate that is
`q` itself is read as zero (`Proof.read`). An input that is canonical in these respects
gets the verdict of the reference, and one that is not is accepted against the reference
where the equation holds of what is read (`verdict_iff`).
-/

namespace Halo2SnarkVerifier

open Bn254

variable {GT : Type} [CommGroup GT] [DecidableEq GT]

/-- **The precompiled contracts of BN254**, for a pairing. -/
def bn254 (e : G1 →+ G2 →+ Additive GT) : Precompiles :=
  ⟨Bn254.ecAdd, Bn254.ecMul, Bn254.pairing e⟩

/-! ## The reference -/

/-- **The points of a verification**: those of the proof and those of the key. -/
structure Points where
  a : G1
  b : G2
  c : G1
  alpha : G1
  beta : G2
  gamma : G2
  delta : G2
  ic : ℕ → G1

/-- The point `IC[i]` of a key. -/
def icDecode (vk : VerifyingKey) (i : ℕ) : Option G1 := do
  let row ← vk.ic[i]?
  let x ← row[0]?
  let y ← row[1]?
  decodeG1 x y

/-- **The points are those decoded** from a proof and a key, up to the `n`-th of the
points `IC[i]`. -/
structure Decodes (vk : VerifyingKey) (p : Proof) (n : ℕ) (pts : Points) : Prop where
  a : decodeG1 p.a_x p.a_y = some pts.a
  b : decodeG2 p.b_x p.b_y = some pts.b
  c : decodeG1 p.c_x p.c_y = some pts.c
  alpha : decodeG1 vk.alpha_x vk.alpha_y = some pts.alpha
  beta : decodeG2 vk.beta_x vk.beta_y = some pts.beta
  gamma : decodeG2 vk.gamma_x vk.gamma_y = some pts.gamma
  delta : decodeG2 vk.delta_x vk.delta_y = some pts.delta
  ic : ∀ i ≤ n, icDecode vk i = some (pts.ic i)

/-- The point that commits to the public inputs. -/
def Points.committed (pts : Points) (inputs : List Uint256) : G1 :=
  pts.ic 0 + ∑ i : Fin inputs.length, (inputs.get i).toNat • pts.ic (i + 1)

/-- **The equation of Groth16.** -/
def Points.Equation (e : G1 →+ G2 →+ Additive GT) (pts : Points) (inputs : List Uint256) :
    Prop :=
  pair e pts.a pts.b =
    pair e pts.alpha pts.beta * pair e (pts.committed inputs) pts.gamma *
      pair e pts.c pts.delta

/-- **The reference.** -/
def Reference (e : G1 →+ G2 →+ Additive GT) (vk : VerifyingKey) (proof : Bytes)
    (inputs : List Uint256) : Prop :=
  proof.length = 256 ∧ inputs.length + 1 = vk.ic.length ∧ (∀ s ∈ inputs, s.toNat < r) ∧
    ∃ pts, Decodes vk (decodeProof proof) inputs.length pts ∧ pts.Equation e inputs

/-! ## What is read -/

/-- **How the contract reads the first point of a proof**: the ordinate `q` is zero. -/
def Proof.read (p : Proof) : Proof :=
  { p with a_y := if p.a_y = PRIME_Q then 0 else p.a_y }

/-- **The equation holds of what is read**, with the inputs that there are. -/
def SatisfiedAsRead (e : G1 →+ G2 →+ Additive GT) (vk : VerifyingKey) (proof : Bytes)
    (inputs : List Uint256) : Prop :=
  proof.length = 256 ∧
    ∃ pts, Decodes vk (decodeProof proof).read inputs.length pts ∧ pts.Equation e inputs

/-- **What is not looked at is as it should be**: the number of inputs, that each is
below the order, and that the ordinate of the first point is not `q`. -/
def Canonical (vk : VerifyingKey) (proof : Bytes) (inputs : List Uint256) : Prop :=
  inputs.length + 1 = vk.ic.length ∧ (∀ s ∈ inputs, s.toNat < r) ∧
    (decodeProof proof).a_y ≠ PRIME_Q

theorem toNat_PRIME_Q : PRIME_Q.toNat = q := by
  decide

/-- No point has the ordinate `q`. -/
theorem decodeG1_PRIME_Q (x : Uint256) : decodeG1 x PRIME_Q = none := by
  have hnone : element PRIME_Q = none := by
    unfold element
    rw [toNat_PRIME_Q, if_neg (lt_irrefl q)]
  unfold decodeG1
  rw [hnone]
  cases element x <;> rfl

/-- An ordinate below `q` is read as it is. -/
theorem Proof.read_of_ne {p : Proof} (h : p.a_y ≠ PRIME_Q) : p.read = p := by
  unfold Proof.read
  rw [if_neg h]

/-- Up to `q`, an ordinate is read modulo `q`. -/
theorem Proof.read_a_y {p : Proof} (h : p.a_y.toNat ≤ q) : p.read.a_y = p.a_y % PRIME_Q := by
  show (if p.a_y = PRIME_Q then 0 else p.a_y) = p.a_y % PRIME_Q
  by_cases hq : p.a_y = PRIME_Q
  · rw [if_pos hq, hq]
    decide
  · have hlt : p.a_y.toNat < q :=
      lt_of_le_of_ne h (fun heq => hq (BitVec.eq_of_toNat_eq (heq.trans toNat_PRIME_Q.symm)))
    rw [if_neg hq]
    refine (BitVec.eq_of_toNat_eq ?_).symm
    rw [BitVec.toNat_umod, toNat_PRIME_Q, Nat.mod_eq_of_lt hlt]

/-- What decodes is up to `q` as it is read. -/
theorem Proof.le_of_read {p : Proof} {P : G1} (h : decodeG1 p.a_x p.read.a_y = some P) :
    p.a_y.toNat ≤ q := by
  by_cases hq : p.a_y = PRIME_Q
  · exact (congrArg BitVec.toNat hq).trans_le toNat_PRIME_Q.le
  · rw [Proof.read_of_ne hq] at h
    by_contra hgt
    have hnone : element p.a_y = none := if_neg (fun hlt => hgt hlt.le)
    unfold decodeG1 at h
    rw [hnone] at h
    cases hx : element p.a_x with
    | none => rw [hx] at h; cases h
    | some x => rw [hx] at h; cases h

/-! ## What is computed -/

variable {e : G1 →+ G2 →+ Additive GT}

omit [DecidableEq GT] in
/-- The point `IC[i]` is the one at the words that the contract loads. -/
theorem icDecode_eq_some {vk : VerifyingKey} {i : ℕ} {P : G1} :
    icDecode vk i = some P ↔ ∃ w, icPoint vk i = .ok w ∧ decodeG1 w.1 w.2 = some P := by
  simp only [icDecode, icPoint, Option.bind_eq_bind, Option.bind_eq_some_iff,
    Except.bind_eq_ok, orRevert_eq_ok, Except.ok.injEq]
  constructor
  · rintro ⟨row, hrow, x, hx, y, hy, hP⟩
    exact ⟨(x, y), ⟨row, hrow, x, hx, y, hy, rfl⟩, hP⟩
  · rintro ⟨_, ⟨row, hrow, x, hx, y, hy, rfl⟩, hP⟩
    exact ⟨row, hrow, x, hx, y, hy, hP⟩

/-- **One turn of the loop** adds a multiple of the next point. -/
theorem accumulate_cons_eq_ok {vk : VerifyingKey} {i : ℕ} {vkx w : Words} {input : Uint256}
    {rest : List Uint256} :
    accumulate (bn254 e) vk i vkx (input :: rest) = .ok w ↔
      ∃ V, decodeG1 vkx.1 vkx.2 = some V ∧ ∃ P, icDecode vk (i + 1) = some P ∧
        accumulate (bn254 e) vk (i + 1) (encodeG1 (V + input.toNat • P)) rest = .ok w := by
  rw [accumulate]
  simp only [Except.bind_eq_ok, icDecode_eq_some]
  constructor
  · rintro ⟨ic, hic, p, hp, vkx', hvkx', hrest⟩
    obtain ⟨P, hP, rfl⟩ := ecMul_eq_some.mp ((orRevert_eq_ok _ _ _).mp hp)
    obtain ⟨V, hV, Q, hQ, rfl⟩ := ecAdd_eq_some.mp ((orRevert_eq_ok _ _ _).mp hvkx')
    rw [decodeG1_encodeG1] at hQ
    cases hQ
    exact ⟨V, hV, P, ⟨ic, hic, hP⟩, hrest⟩
  · rintro ⟨V, hV, P, ⟨ic, hic, hP⟩, hrest⟩
    refine ⟨ic, hic, _, (orRevert_eq_ok _ _ _).mpr (ecMul_eq_some.mpr ⟨P, hP, rfl⟩), _,
      (orRevert_eq_ok _ _ _).mpr (ecAdd_eq_some.mpr ⟨V, hV, _, decodeG1_encodeG1 _, rfl⟩),
      hrest⟩

/-- One more point in front of a sequence. -/
def consPoint (P : G1) (ic : ℕ → G1) : ℕ → G1
  | 0 => P
  | k + 1 => ic k

/-- The multiples of the points from the first on. -/
theorem sum_cons (V : G1) (ic : ℕ → G1) (input : Uint256) (rest : List Uint256) :
    V + ∑ k : Fin (input :: rest).length, ((input :: rest).get k).toNat • ic k
      = V + input.toNat • ic 0 + ∑ k : Fin rest.length, (rest.get k).toNat • ic (k + 1) := by
  rw [add_assoc]
  exact congrArg (V + ·) (Fin.sum_univ_succ _)

/-- **The whole loop** adds the multiples of all the points, and fails exactly where one
of them does not decode. -/
theorem accumulate_eq_ok_iff {vk : VerifyingKey} {inputs : List Uint256} {i : ℕ}
    {vkx : Words} {W : G1} :
    (∃ w, accumulate (bn254 e) vk i vkx inputs = .ok w ∧ decodeG1 w.1 w.2 = some W) ↔
      ∃ V, decodeG1 vkx.1 vkx.2 = some V ∧ ∃ ic : ℕ → G1,
        (∀ k < inputs.length, icDecode vk (i + k + 1) = some (ic k)) ∧
          W = V + ∑ k : Fin inputs.length, (inputs.get k).toNat • ic k := by
  induction inputs generalizing i vkx with
  | nil =>
    constructor
    · rintro ⟨w, hw, hW⟩
      cases hw
      exact ⟨W, hW, fun _ => 0, fun k hk => absurd hk (Nat.not_lt_zero k), (add_zero W).symm⟩
    · rintro ⟨V, hV, ic, -, hW⟩
      refine ⟨vkx, rfl, hV.trans (congrArg some ?_)⟩
      exact ((add_zero V).symm.trans hW.symm)
  | cons input rest ih =>
    simp only [accumulate_cons_eq_ok]
    constructor
    · rintro ⟨w, ⟨V, hV, P, hP, hrest⟩, hW⟩
      obtain ⟨V', hV', ic, hic, hsum⟩ := ih.mp ⟨w, hrest, hW⟩
      rw [decodeG1_encodeG1] at hV'
      cases hV'
      refine ⟨V, hV, consPoint P ic, fun k hk => ?_, ?_⟩
      · cases k with
        | zero => exact hP
        | succ k =>
          have hindex : i + (k + 1) + 1 = i + 1 + k + 1 := by omega
          rw [hindex]
          exact hic k (Nat.lt_of_succ_lt_succ hk)
      · exact hsum.trans (sum_cons V (consPoint P ic) input rest).symm
    · rintro ⟨V, hV, ic, hic, hW⟩
      rw [sum_cons] at hW
      have hshift : ∀ k < rest.length, icDecode vk (i + 1 + k + 1) = some (ic (k + 1)) := by
        intro k hk
        have hindex : i + 1 + k + 1 = i + (k + 1) + 1 := by omega
        rw [hindex]
        exact hic (k + 1) (Nat.succ_lt_succ hk)
      obtain ⟨w, hw, hdec⟩ := ih.mpr ⟨_, decodeG1_encodeG1 (V + input.toNat • ic 0),
        fun k => ic (k + 1), hshift, hW⟩
      exact ⟨w, ⟨V, hV, ic 0, hic 0 (Nat.succ_pos _), hw⟩, hdec⟩

/-- **The negated point goes to the pairing**: what is decoded there is the opposite of the
point that is read. -/
theorem negated_iff {p : Proof} {P : G1} :
    (∃ n, checkedSub Error.panic PRIME_Q p.a_y = .ok n ∧
        decodeG1 p.a_x (n % PRIME_Q) = some (-P)) ↔
      decodeG1 p.read.a_x p.read.a_y = some P := by
  have hneg : ∀ n, checkedSub Error.panic PRIME_Q p.a_y = .ok n →
      (decodeG1 p.a_x (n % PRIME_Q) = some (-P) ↔
        decodeG1 p.read.a_x p.read.a_y = some P) := by
    intro n hn
    have hsum : n.toNat + p.a_y.toNat = q := (toNat_of_checkedSub hn).trans toNat_PRIME_Q
    have hle : p.a_y.toNat ≤ q := (Nat.le_add_left _ _).trans hsum.le
    rw [Proof.read_a_y hle, decodeG1_neg toNat_PRIME_Q p.a_x hsum]
    show (decodeG1 p.a_x (p.a_y % PRIME_Q)).map _ = _ ↔ decodeG1 p.a_x (p.a_y % PRIME_Q) = _
    cases decodeG1 p.a_x (p.a_y % PRIME_Q) with
    | none => simp
    | some Q => simp
  constructor
  · rintro ⟨n, hn, hP⟩
    exact (hneg n hn).mp hP
  · intro hP
    have hle : p.a_y.toNat ≤ PRIME_Q.toNat := (Proof.le_of_read hP).trans toNat_PRIME_Q.ge
    have hn : checkedSub Error.panic PRIME_Q p.a_y = .ok (PRIME_Q - p.a_y) := if_pos hle
    exact ⟨_, hn, (hneg _ hn).mpr hP⟩

/-- The four pairs that the contract is given. -/
theorem decodePairs_pairingInput {p : Proof} {m : Uint256} {vk : VerifyingKey} {vkx : Words}
    {l : List (G1 × G2)} :
    decodePairs (pairingInput p m vk vkx) = some l ↔
      ∃ a, decodeG1 p.a_x m = some a ∧ ∃ b, decodeG2 p.b_x p.b_y = some b ∧
      ∃ alpha, decodeG1 vk.alpha_x vk.alpha_y = some alpha ∧
      ∃ beta, decodeG2 vk.beta_x vk.beta_y = some beta ∧
      ∃ W, decodeG1 vkx.1 vkx.2 = some W ∧
      ∃ gamma, decodeG2 vk.gamma_x vk.gamma_y = some gamma ∧
      ∃ c, decodeG1 p.c_x p.c_y = some c ∧
      ∃ delta, decodeG2 vk.delta_x vk.delta_y = some delta ∧
        [(a, b), (alpha, beta), (W, gamma), (c, delta)] = l := by
  unfold pairingInput
  simp only [decodePairs_cons_eq_some]
  constructor
  · rintro ⟨a, ha, b, hb, _, ⟨alpha, halpha, beta, hbeta, _, ⟨W, hW, gamma, hgamma, _,
      ⟨c, hc, delta, hdelta, _, hnil, rfl⟩, rfl⟩, rfl⟩, rfl⟩
    cases hnil
    exact ⟨a, ha, b, hb, alpha, halpha, beta, hbeta, W, hW, gamma, hgamma, c, hc, delta, hdelta,
      rfl⟩
  · rintro ⟨a, ha, b, hb, alpha, halpha, beta, hbeta, W, hW, gamma, hgamma, c, hc, delta,
      hdelta, rfl⟩
    exact ⟨a, ha, b, hb, _, ⟨alpha, halpha, beta, hbeta, _, ⟨W, hW, gamma, hgamma, _,
      ⟨c, hc, delta, hdelta, _, rfl, rfl⟩, rfl⟩, rfl⟩, rfl⟩

omit [DecidableEq GT] in
/-- **The product is neutral where the equation holds.** -/
theorem prod_eq_one_iff {a alpha W c : G1} {b beta gamma delta : G2} :
    (([(-a, b), (alpha, beta), (W, gamma), (c, delta)] : List (G1 × G2)).map
        (fun p => pair e p.1 p.2)).prod = 1 ↔
      pair e a b = pair e alpha beta * pair e W gamma * pair e c delta := by
  simp only [List.map_cons, List.map_nil, List.prod_cons, List.prod_nil, mul_one, pair_neg]
  rw [inv_mul_eq_one, mul_assoc]

/-- The check goes through where the opposite of the point that is read goes to a
neutral product. -/
theorem pairingCheck_eq_true {p : Proof} {vk : VerifyingKey} {vkx : Words} :
    pairingCheck (bn254 e) p vk vkx = .ok true ↔
      ∃ n, checkedSub Error.panic PRIME_Q p.a_y = .ok n ∧
        ∃ l, decodePairs (pairingInput p (n % PRIME_Q) vk vkx) = some l ∧
          (l.map (fun p => pair e p.1 p.2)).prod = 1 := by
  unfold pairingCheck
  rw [Except.bind_eq_ok]
  refine exists_congr (fun n => and_congr_right (fun _ => ?_))
  rw [← pairing_eq_one, Except.bind_eq_ok]
  simp only [orRevert_eq_ok, Except.ok.injEq, beq_iff_eq, exists_eq_right]
  rfl

/-- **The verdict**: the contract returns true where the equation holds of what is
read. -/
theorem verifyGroth16_eq_true_iff {vk : VerifyingKey} {proof : Bytes}
    {inputs : List Uint256} :
    verifyGroth16 (bn254 e) proof inputs vk = .ok true ↔ SatisfiedAsRead e vk proof inputs := by
  unfold verifyGroth16 SatisfiedAsRead
  rw [revertIf_bind_eq_ok, not_not]
  refine and_congr_right (fun _ => ?_)
  simp only [Except.bind_eq_ok, pairingCheck_eq_true, decodePairs_pairingInput]
  constructor
  · rintro ⟨first, hfirst, vkx, hvkx, n, hn, _, ⟨a, ha, b, hb, alpha, halpha, beta, hbeta, W,
      hW, gamma, hgamma, c, hc, delta, hdelta, rfl⟩, hprod⟩
    obtain ⟨V, hV, ic, hic, hsum⟩ := accumulate_eq_ok_iff.mp ⟨vkx, hvkx, hW⟩
    refine ⟨⟨-a, b, c, alpha, beta, gamma, delta, consPoint V ic⟩, ⟨?_, hb, hc, halpha, hbeta,
      hgamma, hdelta, fun i hi => ?_⟩, ?_⟩
    · refine negated_iff.mp ⟨n, hn, ?_⟩
      rw [neg_neg]
      exact ha
    · cases i with
      | zero => exact icDecode_eq_some.mpr ⟨first, hfirst, hV⟩
      | succ k =>
        have hk := hic k hi
        rw [Nat.zero_add] at hk
        exact hk
    · rw [← neg_neg a, prod_eq_one_iff, hsum] at hprod
      exact hprod
  · rintro ⟨pts, hpts, hequation⟩
    obtain ⟨first, hfirst, hV⟩ := icDecode_eq_some.mp (hpts.ic 0 (Nat.zero_le _))
    have hic : ∀ k < inputs.length, icDecode vk (0 + k + 1) = some (pts.ic (k + 1)) := by
      intro k hk
      rw [Nat.zero_add]
      exact hpts.ic (k + 1) hk
    obtain ⟨vkx, hvkx, hW⟩ := (accumulate_eq_ok_iff (e := e)).mpr
      ⟨_, hV, fun k => pts.ic (k + 1), hic, rfl⟩
    obtain ⟨n, hn, ha⟩ := negated_iff.mpr hpts.a
    exact ⟨first, hfirst, vkx, hvkx, n, hn, _, ⟨_, ha, _, hpts.b, _, hpts.alpha, _, hpts.beta,
      _, hW, _, hpts.gamma, _, hpts.c, _, hpts.delta, rfl⟩, prod_eq_one_iff.mpr hequation⟩

/-! ## Against the reference -/

omit [DecidableEq GT] in
/-- **The reference is the canonical part of what the contract accepts.** -/
theorem reference_iff {vk : VerifyingKey} {proof : Bytes} {inputs : List Uint256} :
    Reference e vk proof inputs ↔
      Canonical vk proof inputs ∧ SatisfiedAsRead e vk proof inputs := by
  constructor
  · rintro ⟨hproof, hcount, hlt, pts, hpts, hequation⟩
    have hne : (decodeProof proof).a_y ≠ PRIME_Q := by
      intro heq
      have ha := hpts.a
      rw [heq, decodeG1_PRIME_Q] at ha
      cases ha
    refine ⟨⟨hcount, hlt, hne⟩, hproof, pts, ?_, hequation⟩
    rw [Proof.read_of_ne hne]
    exact hpts
  · rintro ⟨⟨hcount, hlt, hne⟩, hproof, pts, hpts, hequation⟩
    rw [Proof.read_of_ne hne] at hpts
    exact ⟨hproof, hcount, hlt, pts, hpts, hequation⟩

/-- **The verdict is that of the reference** for a canonical input, and where the equation
does not hold of what is read; for no other. -/
theorem verdict_iff (e : G1 →+ G2 →+ Additive GT) (vk : VerifyingKey) (proof : Bytes)
    (inputs : List Uint256) :
    (verifyGroth16 (bn254 e) proof inputs vk = .ok true ↔ Reference e vk proof inputs) ↔
      (Canonical vk proof inputs ∨ ¬SatisfiedAsRead e vk proof inputs) := by
  rw [verifyGroth16_eq_true_iff, reference_iff]
  by_cases h : SatisfiedAsRead e vk proof inputs
  · simp [h]
  · simp [h]

/-- A key for one input, with the points of the second group at infinity. -/
def infinityKey : VerifyingKey :=
  ⟨1, 2, (0, 0), (0, 0), (0, 0), (0, 0), (0, 0), (0, 0), [[0, 0], [1, 2]]⟩

/-- A proof of points at infinity, of which the first has the ordinate `q`. -/
def ordinateProof : Bytes := beBytes 32 0 ++ beBytes 32 q ++ List.replicate 192 0

theorem decodeProof_ordinateProof :
    decodeProof ordinateProof = ⟨0, PRIME_Q, (0, 0), (0, 0), 0, 0⟩ := rfl

omit [DecidableEq GT] in
/-- Such a proof satisfies this key, with one input or none. -/
theorem infinityKey_satisfied (e : G1 →+ G2 →+ Additive GT) {proof : Bytes}
    (hproof : proof.length = 256)
    (hread : (decodeProof proof).read = ⟨0, 0, (0, 0), (0, 0), 0, 0⟩) {inputs : List Uint256}
    (hinputs : inputs.length ≤ 1) : SatisfiedAsRead e infinityKey proof inputs := by
  refine ⟨hproof, ⟨0, 0, 0, generator, 0, 0, 0, consPoint 0 fun _ => generator⟩, ?_, ?_⟩
  · rw [hread]
    refine ⟨decodeG1_zero, decodeG2_zero, decodeG1_zero, decodeG1_generator, decodeG2_zero,
      decodeG2_zero, decodeG2_zero, fun i hi => ?_⟩
    match i, hi.trans hinputs with
    | 0, _ => exact decodeG1_zero
    | 1, _ => exact decodeG1_generator
  · unfold Points.Equation
    simp only [pair_zero, mul_one]

/-- An input that is not canonical is accepted against the reference if it is satisfied. -/
theorem not_verdict_of_satisfied {vk : VerifyingKey} {proof : Bytes} {inputs : List Uint256}
    (hsat : SatisfiedAsRead e vk proof inputs) (hcanonical : ¬Canonical vk proof inputs) :
    ¬(verifyGroth16 (bn254 e) proof inputs vk = .ok true ↔ Reference e vk proof inputs) := by
  intro h
  exact hcanonical (reference_iff.mp (h.mp (verifyGroth16_eq_true_iff.mpr hsat))).1

/-- **Against the reference, the key accepts** an array without its entry, an entry that is
the order, and the ordinate `q`. -/
theorem infinityKey_accepts :
    infinityKey.ic.length = 1 + 1 ∧
      ∀ (GT : Type) [CommGroup GT] [DecidableEq GT] (e : G1 →+ G2 →+ Additive GT),
        ¬(verifyGroth16 (bn254 e) (List.replicate 256 0) [] infinityKey = .ok true ↔
            Reference e infinityKey (List.replicate 256 0) []) ∧
          ¬(verifyGroth16 (bn254 e) (List.replicate 256 0) [BitVec.ofNat 256 r] infinityKey
                = .ok true ↔
              Reference e infinityKey (List.replicate 256 0) [BitVec.ofNat 256 r]) ∧
            ¬(verifyGroth16 (bn254 e) ordinateProof [1] infinityKey = .ok true ↔
              Reference e infinityKey ordinateProof [1]) := by
  refine ⟨rfl, fun GT _ _ e => ?_⟩
  have hlength : (List.replicate 256 (0 : BitVec 8)).length = 256 := List.length_replicate
  have hzeros : (decodeProof (List.replicate 256 0)).read = ⟨0, 0, (0, 0), (0, 0), 0, 0⟩ := by
    rw [decodeProof_zeros]
    exact Proof.read_of_ne (by decide)
  have hordinate : (decodeProof ordinateProof).read = ⟨0, 0, (0, 0), (0, 0), 0, 0⟩ := by
    rw [decodeProof_ordinateProof]
    exact congrArg (fun y => (⟨0, y, (0, 0), (0, 0), 0, 0⟩ : Proof)) (if_pos rfl)
  refine ⟨?short, ?unreduced, ?ordinate⟩
  case short =>
    refine not_verdict_of_satisfied (infinityKey_satisfied e hlength hzeros (Nat.zero_le 1)) ?_
    intro h
    exact absurd h.1 (by decide)
  case unreduced =>
    refine not_verdict_of_satisfied (infinityKey_satisfied e hlength hzeros le_rfl) ?_
    intro h
    exact absurd (h.2.1 _ List.mem_cons_self) (by decide)
  case ordinate =>
    refine not_verdict_of_satisfied (infinityKey_satisfied e ?_ hordinate le_rfl) ?_
    · unfold ordinateProof
      rw [List.length_append, List.length_append, length_beBytes, length_beBytes,
        List.length_replicate]
    · intro h
      exact h.2.2 (congrArg Proof.a_y decodeProof_ordinateProof)

end Halo2SnarkVerifier
