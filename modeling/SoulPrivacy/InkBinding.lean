import SoulPrivacy.InkEffect

/-!
# What a proof of the ink! pool is bound to

The tag of a proof is hashed from the nullifiers and the outputs, in a fixed
format. Neither the root nor the recipient nor the amount is among them, and
transfers and withdrawals share the label. So no proof serves for two calls
exactly when their nullifiers or their outputs differ (`no_proof_for_two_iff`): a
withdrawal that is seen before it is included can be made to another account, for
another amount, or as a transfer, with the same proof (`exists_shared_proof`).
-/

namespace InkPool

variable {keccak256 : Bytes → Bytes32} {build : Build}

/-! ## Proofs -/

/-- **The format of a proof**: a tag, 96 bytes and one to 62 rounds of 64, not all
zero. -/
structure Shaped (proof : Bytes) : Prop where
  rounds : ∃ n, n ≠ 0 ∧ n ≤ 62 ∧ proof.length = 128 + 64 * n
  nonzero : ∃ b ∈ proof, b ≠ 0

/-- … and of the nullifiers and the outputs. -/
structure WellFormed (nullifiers outputs : Bytes32 × Bytes32) : Prop where
  ne : nullifiers.1 ≠ nullifiers.2
  fst : nullifiers.1 ≠ 0
  snd : nullifiers.2 ≠ 0
  output_fst : outputs.1 ≠ 0
  output_snd : outputs.2 ≠ 0

/-- **A proof carries the tag** of nullifiers and outputs. -/
def Tagged (keccak256 : Bytes → Bytes32) (proof : Bytes)
    (nullifiers outputs : Bytes32 × Bytes32) : Prop :=
  proof.take 32 = Bytes32.toBytes (keccak256 (transcript nullifiers outputs (proof.drop 32)))

/-- **What is verified.** -/
theorem verifyProofStructure_eq_ok {proof : Bytes} {nullifiers outputs : Bytes32 × Bytes32}
    {u : Unit} : verifyProofStructure keccak256 proof nullifiers outputs = .ok u ↔
      Shaped proof ∧ WellFormed nullifiers outputs ∧ Tagged keccak256 proof nullifiers outputs := by
  have hnonzero : ¬ proof.all (· == 0) = true ↔ ∃ b ∈ proof, b ≠ 0 := by simp
  unfold verifyProofStructure
  simp only [revertIf_bind_eq_ok, revertIf_eq_ok, hnonzero, not_or, not_not, not_lt,
    List.length_drop]
  constructor
  · rintro ⟨hmin, hmax, halign, hne, hdistinct, ⟨h₁, h₂⟩, ⟨h₃, h₄⟩, ⟨hbody, hrounds⟩, htag⟩
    exact ⟨⟨⟨(proof.length - 128) / 64, by omega, by omega, by omega⟩, hne⟩,
      ⟨hdistinct, h₁, h₂, h₃, h₄⟩, htag⟩
  · rintro ⟨⟨⟨n, hzero, hmax, hlen⟩, hne⟩, ⟨hdistinct, h₁, h₂, h₃, h₄⟩, htag⟩
    exact ⟨by omega, by omega, by omega, hne, hdistinct, ⟨h₁, h₂⟩, ⟨h₃, h₄⟩,
      ⟨by omega, by omega⟩, htag⟩

/-- **A transcript determines what is in it.** -/
theorem transcript_inj {nullifiers nullifiers' outputs outputs' : Bytes32 × Bytes32}
    {body body' : Bytes}
    (h : transcript nullifiers outputs body = transcript nullifiers' outputs' body') :
    nullifiers = nullifiers' ∧ outputs = outputs' := by
  unfold transcript at h
  simp only [List.append_assoc, List.append_cancel_left_eq, Bytes32.toBytes_append_inj] at h
  obtain ⟨h₁, h₂, h₃, h₄, -⟩ := h
  exact ⟨Prod.ext h₁ h₂, Prod.ext h₃ h₄⟩

/-- **The hash has no collision** between what is hashed for the proof in two calls. -/
def NoCollision (keccak256 : Bytes → Bytes32) (proof : Bytes)
    (inputs inputs' : (Bytes32 × Bytes32) × (Bytes32 × Bytes32)) : Prop :=
  keccak256 (transcript inputs.1 inputs.2 (proof.drop 32))
      = keccak256 (transcript inputs'.1 inputs'.2 (proof.drop 32)) →
    transcript inputs.1 inputs.2 (proof.drop 32)
      = transcript inputs'.1 inputs'.2 (proof.drop 32)

/-- **A proof anyone can make** for nullifiers and outputs. -/
def proofOf (keccak256 : Bytes → Bytes32) (nullifiers outputs : Bytes32 × Bytes32) : Bytes :=
  Bytes32.toBytes (keccak256 (transcript nullifiers outputs (List.replicate 160 1)))
    ++ List.replicate 160 1

theorem shaped_proofOf (nullifiers outputs : Bytes32 × Bytes32) :
    Shaped (proofOf keccak256 nullifiers outputs) where
  rounds := by
    refine ⟨1, Nat.one_ne_zero, by omega, ?_⟩
    rw [proofOf, List.length_append, Bytes32.length_toBytes, List.length_replicate]
  nonzero := ⟨1, List.mem_append_right _ (List.mem_replicate.mpr ⟨by omega, rfl⟩), by decide⟩

theorem tagged_proofOf (nullifiers outputs : Bytes32 × Bytes32) :
    Tagged keccak256 (proofOf keccak256 nullifiers outputs) nullifiers outputs := by
  unfold Tagged proofOf
  rw [List.take_left' (Bytes32.length_toBytes _), List.drop_left' (Bytes32.length_toBytes _)]

/-! ## Calls with a proof -/

/-- **A call that comes with a proof**, without the proof. -/
inductive SpendCall where
  | transfer (merkleRoot : Bytes32) (nullifiers outputs : Bytes32 × Bytes32)
  | withdraw (merkleRoot : Bytes32) (nullifiers outputs : Bytes32 × Bytes32)
      (recipient : AccountId) (amount : Balance)
  deriving DecidableEq

/-- The message of a call with a proof. -/
def SpendCall.message (proof : Bytes) : SpendCall → Message
  | .transfer merkleRoot nullifiers outputs => .transfer proof merkleRoot nullifiers outputs
  | .withdraw merkleRoot nullifiers outputs recipient amount =>
    .withdraw proof merkleRoot nullifiers outputs recipient amount

/-- Its root. -/
def SpendCall.merkleRoot : SpendCall → Bytes32
  | .transfer merkleRoot _ _ => merkleRoot
  | .withdraw merkleRoot _ _ _ _ => merkleRoot

/-- **What its proof is bound to**: the nullifiers and the outputs. -/
def SpendCall.inputs : SpendCall → (Bytes32 × Bytes32) × (Bytes32 × Bytes32)
  | .transfer _ nullifiers outputs => (nullifiers, outputs)
  | .withdraw _ nullifiers outputs _ _ => (nullifiers, outputs)

/-- What it takes out of the pool. -/
def SpendCall.amount : SpendCall → Balance
  | .transfer _ _ _ => 0
  | .withdraw _ _ _ _ amount => amount

/-- **The contract accepts a call with a proof.** -/
def Accepts (keccak256 : Bytes → Bytes32) (build : Build) (s : State) (proof : Bytes)
    (c : SpendCall) : Prop :=
  ∃ env r, exec keccak256 build ⟨env, c.message proof⟩ s = .ok r

/-- **What is checked besides the proof.** -/
structure Covers (build : Build) (s : State) (c : SpendCall) : Prop where
  running : s.paused = false
  known : isKnownRoot s c.merkleRoot = true
  unspent : anySpent c.inputs.1 s = false
  wellFormed : WellFormed c.inputs.1 c.inputs.2
  outputs : Outputs build s c.inputs.2
  balance : c.amount ≤ s.poolBalance

/-- **When a call goes through.** -/
theorem accepts_iff {s : State} {proof : Bytes} {c : SpendCall} :
    Accepts keccak256 build s proof c ↔
      Covers build s c ∧ Shaped proof ∧ Tagged keccak256 proof c.inputs.1 c.inputs.2 := by
  unfold Accepts
  constructor
  · rintro ⟨env, ⟨s', payments⟩, hexec⟩
    cases c with
    | transfer merkleRoot nullifiers outputs =>
      cases exec_effect hexec with
      | transfer _ spends new =>
        obtain ⟨hshaped, hwf, htagged⟩ := verifyProofStructure_eq_ok.mp spends.verified
        exact ⟨⟨spends.running, spends.known, spends.unspent, hwf, new,
          BitVec.le_def.mpr (Nat.zero_le _)⟩, hshaped, htagged⟩
    | withdraw merkleRoot nullifiers outputs recipient amount =>
      cases exec_effect hexec with
      | withdraw _ spends new balance _ =>
        obtain ⟨hshaped, hwf, htagged⟩ := verifyProofStructure_eq_ok.mp spends.verified
        exact ⟨⟨spends.running, spends.known, spends.unspent, hwf, new, balance⟩, hshaped,
          htagged⟩
  · rintro ⟨hcovers, hshaped, htagged⟩
    have hverified := verifyProofStructure_eq_ok (u := ()).mpr
      ⟨hshaped, hcovers.wellFormed, htagged⟩
    have hspends : Spends keccak256 s proof c.merkleRoot c.inputs.1 c.inputs.2 :=
      ⟨hcovers.running, hcovers.known, hcovers.unspent, hverified⟩
    refine ⟨⟨0, 0, 0, true⟩, ?_⟩
    cases c with
    | transfer merkleRoot nullifiers outputs =>
      have hrun : transfer keccak256 build proof merkleRoot nullifiers outputs s = .ok _ :=
        transfer_eq_ok.mpr ⟨hspends, hcovers.outputs, rfl⟩
      exact ⟨_, exec_eq_ok.mpr ⟨fun _ => rfl, congrArg (Except.map (·, [])) hrun⟩⟩
    | withdraw merkleRoot nullifiers outputs recipient amount =>
      have hrun : withdraw keccak256 build ⟨0, 0, 0, true⟩ proof merkleRoot nullifiers outputs
          recipient amount s = .ok _ :=
        withdraw_eq_ok.mpr ⟨hspends, hcovers.outputs, hcovers.balance, rfl, rfl⟩
      exact ⟨_, exec_eq_ok.mpr ⟨fun _ => rfl,
        congrArg (Except.map (fun r : State × Payment => (r.1, [r.2]))) hrun⟩⟩

/-- **No proof is accepted for both of two calls if and only if their nullifiers or
their outputs differ**, or the state that one of them meets fails another of its
checks. -/
theorem no_proof_for_two_iff (keccak256 : Bytes → Bytes32) (build : Build) (s₁ s₂ : State)
    (c₁ c₂ : SpendCall) :
    (∀ proof, NoCollision keccak256 proof c₁.inputs c₂.inputs →
        ¬ (Accepts keccak256 build s₁ proof c₁ ∧ Accepts keccak256 build s₂ proof c₂))
      ↔ c₁.inputs ≠ c₂.inputs ∨ ¬ Covers build s₁ c₁ ∨ ¬ Covers build s₂ c₂ := by
  constructor
  · intro hexclusive
    by_contra hcond
    rw [not_or, not_or, not_not, not_not, not_not] at hcond
    obtain ⟨hsame, hcovers₁, hcovers₂⟩ := hcond
    have hshaped : Shaped (proofOf keccak256 c₁.inputs.1 c₁.inputs.2) := shaped_proofOf _ _
    have htagged : Tagged keccak256 (proofOf keccak256 c₁.inputs.1 c₁.inputs.2) c₁.inputs.1
      c₁.inputs.2 := tagged_proofOf _ _
    refine hexclusive _ (fun _ => by rw [hsame])
      ⟨accepts_iff.mpr ⟨hcovers₁, hshaped, htagged⟩, accepts_iff.mpr ⟨hcovers₂, hshaped, ?_⟩⟩
    rw [← hsame]
    exact htagged
  · rintro hcond proof hcoll ⟨haccepts₁, haccepts₂⟩
    obtain ⟨hcovers₁, -, htagged₁⟩ := accepts_iff.mp haccepts₁
    obtain ⟨hcovers₂, -, htagged₂⟩ := accepts_iff.mp haccepts₂
    rcases hcond with hne | hne | hne
    · have htags := Bytes32.toBytes_inj.mp (htagged₁.symm.trans htagged₂)
      obtain ⟨hnullifiers, houtputs⟩ := transcript_inj (hcoll htags)
      exact hne (Prod.ext hnullifiers houtputs)
    · exact hne hcovers₁
    · exact hne hcovers₂

/-! ## One proof for several calls -/

/-- **Three calls** with the same nullifiers and outputs: a withdrawal, the same one
to someone else and for less, and a transfer. -/
def threeCalls (merkleRoot : Bytes32) : List SpendCall :=
  [.withdraw merkleRoot (1, 2) (4, 5) 3 100, .withdraw merkleRoot (1, 2) (4, 5) 6 60,
    .transfer merkleRoot (1, 2) (4, 5)]

theorem mem_threeCalls {merkleRoot : Bytes32} {c : SpendCall} (hc : c ∈ threeCalls merkleRoot) :
    c.merkleRoot = merkleRoot ∧ c.inputs = ((1, 2), (4, 5)) ∧ c.amount ≤ 100 := by
  unfold threeCalls at hc
  simp only [List.mem_cons, List.not_mem_nil, or_false] at hc
  rcases hc with rfl | rfl | rfl
  · exact ⟨rfl, rfl, le_refl 100⟩
  · exact ⟨rfl, rfl, show (60 : Balance) ≤ 100 by decide⟩
  · exact ⟨rfl, rfl, BitVec.le_def.mpr (Nat.zero_le _)⟩

/-- **All are accepted with one proof**, in one and the same state that the contract
gets into, whatever the hash. -/
theorem exists_shared_proof : (∀ merkleRoot, (threeCalls merkleRoot).Nodup)
    ∧ ∀ keccak256, ∃ s proof, Reachable keccak256 .wrapping s
      ∧ ∀ c ∈ threeCalls s.currentRoot, Accepts keccak256 .wrapping s proof c := by
  refine ⟨fun merkleRoot => by simp [threeCalls], fun keccak256 => ⟨depositedPool keccak256,
    proofOf keccak256 (1, 2) (4, 5), ⟨_, runFrom_depositedPool keccak256⟩, fun c hc => ?_⟩⟩
  obtain ⟨hroot, hinputs, hamount⟩ := mem_threeCalls hc
  have hknown : isKnownRoot (depositedPool keccak256) (depositedPool keccak256).currentRoot
      = true := by
    unfold isKnownRoot
    rw [beq_self_eq_true, Bool.true_or]
  have houtputs : Outputs .wrapping (depositedPool keccak256) (4, 5) :=
    ⟨leaves_depositedPool keccak256 (by decide), leaves_depositedPool keccak256 (by decide),
      by decide, fun h => by cases h⟩
  refine accepts_iff.mpr ⟨⟨rfl, hroot ▸ hknown, ?_, ?_, ?_, hamount⟩, shaped_proofOf _ _, ?_⟩
  · rw [hinputs]
    rfl
  · rw [hinputs]
    exact ⟨by decide, by decide, by decide, by decide, by decide⟩
  · rw [hinputs]
    exact houtputs
  · rw [hinputs]
    exact tagged_proofOf _ _

end InkPool
