import SoulPrivacy.Abi

/-!
# The verifier of the Substrate pallet (`verifier.rs`)

A proof is a tag of 32 bytes and a body: 96 bytes and one to 32 rounds of
64. The verifier checks the format of the proof and of the public inputs,
and that the tag is the hash of a label, the encoded public inputs and the
body. Nothing else is verified, so a proof is accepted exactly when it
carries the right tag (`verifyTransfer_iff`, `verifyWithdraw_iff`).

The inputs of a transfer take 176 bytes and those of a withdrawal 112. The
two begin alike and share the label, and nothing marks where the inputs end
and the body starts. So what is an accepted transfer to one function may
be, with its bytes divided in another way, an accepted withdrawal to the
other (`tags_differ_iff`).
-/

/-- A `H256`. -/
abbrev H256 := BitVec 256

namespace PalletVerifier

/-- `TransferPublicInputs`. -/
structure TransferPublicInputs where
  merkleRoot : H256
  nullifiers : H256 × H256
  outputCommitments : H256 × H256
  domainChainId : BitVec 32
  domainAppId : BitVec 32
  deriving DecidableEq

/-- `WithdrawPublicInputs`. -/
structure WithdrawPublicInputs where
  merkleRoot : H256
  nullifiers : H256 × H256
  outputCommitments : H256 × H256
  exitValue : BitVec 128
  deriving DecidableEq

/-- `MIN_PROOF_SIZE`. -/
def MIN_PROOF_SIZE : ℕ := 192

/-- `MAX_PROOF_SIZE`. -/
def MAX_PROOF_SIZE : ℕ := 4096

/-- `PROOF_ALIGNMENT`. -/
def PROOF_ALIGNMENT : ℕ := 32

/-- `TESTNET_ONLY`. -/
def TESTNET_ONLY : Bool := true

/-- `is_mainnet_chain`. -/
def isMainnetChain (chainId : BitVec 32) : Bool :=
  [0, 1284, 592, 43114, 9001].contains chainId

/-- `encode_transfer_inputs`. -/
def encodeTransferInputs (inputs : TransferPublicInputs) : Bytes :=
  Bytes32.toBytes inputs.merkleRoot ++ Bytes32.toBytes inputs.nullifiers.1
    ++ Bytes32.toBytes inputs.nullifiers.2 ++ Bytes32.toBytes inputs.outputCommitments.1
    ++ Bytes32.toBytes inputs.outputCommitments.2 ++ beBytes 8 inputs.domainChainId.toNat
    ++ beBytes 8 inputs.domainAppId.toNat

/-- `encode_withdraw_inputs`. -/
def encodeWithdrawInputs (inputs : WithdrawPublicInputs) : Bytes :=
  Bytes32.toBytes inputs.merkleRoot ++ Bytes32.toBytes inputs.nullifiers.1
    ++ Bytes32.toBytes inputs.nullifiers.2 ++ beBytes 16 inputs.exitValue.toNat

/-- What is hashed: `b"Halo2-IPA-bind"`, the inputs and the body. -/
def transcript (publicInputBytes body : Bytes) : Bytes :=
  "Halo2-IPA-bind".toList.map (fun c => BitVec.ofNat 8 c.toNat) ++ publicInputBytes ++ body

variable (blake2_256 : Bytes → H256)

/-- `verify_halo2_ipa_proof`. -/
def verifyHalo2IpaProof (proof publicInputBytes : Bytes) : Bool :=
  if proof.length < 192 then false
  else
    let binding := proof.take 32
    let body := proof.drop 32
    let ipaRounds := body.drop 96
    if ipaRounds.length % 64 ≠ 0 then false
    else
      let numRounds := ipaRounds.length / 64
      if numRounds = 0 ∨ 32 < numRounds then false
      else binding == Bytes32.toBytes (blake2_256 (transcript publicInputBytes body))

/-- The format of a proof, as both functions check it. -/
def proofFormat (proof : Bytes) : Bool :=
  if proof.length < MIN_PROOF_SIZE ∨ MAX_PROOF_SIZE < proof.length then false
  else if proof.length % PROOF_ALIGNMENT ≠ 0 then false
  else !proof.all (· == 0)

/-- … and of the root and the nullifiers. -/
def spendFormat (merkleRoot : H256) (nullifiers : H256 × H256) : Bool :=
  merkleRoot != 0 && nullifiers.1 != nullifiers.2 && nullifiers.1 != 0
    && nullifiers.2 != 0

/-- `verify_transfer`. -/
def verifyTransfer (proof : Bytes) (publicInputs : TransferPublicInputs) : Bool :=
  if TESTNET_ONLY && isMainnetChain publicInputs.domainChainId then false
  else if !proofFormat proof then false
  else if !spendFormat publicInputs.merkleRoot publicInputs.nullifiers then false
  else if publicInputs.outputCommitments.1 = 0 ∨ publicInputs.outputCommitments.2 = 0 then
    false
  else if publicInputs.outputCommitments.1 = publicInputs.outputCommitments.2 then false
  else if publicInputs.domainChainId = 0 ∨ publicInputs.domainAppId = 0 then false
  else verifyHalo2IpaProof blake2_256 proof (encodeTransferInputs publicInputs)

/-- `verify_withdraw`. -/
def verifyWithdraw (proof : Bytes) (publicInputs : WithdrawPublicInputs) : Bool :=
  if !proofFormat proof then false
  else if !spendFormat publicInputs.merkleRoot publicInputs.nullifiers then false
  else if publicInputs.exitValue = 0 then false
  else verifyHalo2IpaProof blake2_256 proof (encodeWithdrawInputs publicInputs)

/-! ## What is accepted -/

/-- **A proof that carries the right tag**, of one to 32 rounds and not all
zero. -/
structure Bound (proof publicInputBytes : Bytes) : Prop where
  rounds : ∃ numRounds, numRounds ≠ 0 ∧ numRounds ≤ 32 ∧ proof.length = 128 + 64 * numRounds
  nonzero : ∃ b ∈ proof, b ≠ 0
  tag : proof.take 32
    = Bytes32.toBytes (blake2_256 (transcript publicInputBytes (proof.drop 32)))

/-- A root and two nullifiers that are taken. -/
structure Spends (merkleRoot : H256) (nullifiers : H256 × H256) : Prop where
  root_ne : merkleRoot ≠ 0
  ne : nullifiers.1 ≠ nullifiers.2
  fst_ne : nullifiers.1 ≠ 0
  snd_ne : nullifiers.2 ≠ 0

/-- Inputs of a transfer that are taken. -/
structure TransferPublicInputs.WellFormed (inputs : TransferPublicInputs) : Prop where
  spends : Spends inputs.merkleRoot inputs.nullifiers
  testnet : isMainnetChain inputs.domainChainId = false
  fst_ne : inputs.outputCommitments.1 ≠ 0
  snd_ne : inputs.outputCommitments.2 ≠ 0
  ne : inputs.outputCommitments.1 ≠ inputs.outputCommitments.2
  chain_ne : inputs.domainChainId ≠ 0
  app_ne : inputs.domainAppId ≠ 0

/-- Inputs of a withdrawal that are taken. -/
structure WithdrawPublicInputs.WellFormed (inputs : WithdrawPublicInputs) : Prop where
  spends : Spends inputs.merkleRoot inputs.nullifiers
  exit_ne : inputs.exitValue ≠ 0

variable {blake2_256}

theorem spendFormat_iff {merkleRoot : H256} {nullifiers : H256 × H256} :
    spendFormat merkleRoot nullifiers = true ↔ Spends merkleRoot nullifiers := by
  unfold spendFormat
  simp only [Bool.and_eq_true, bne_iff_ne]
  constructor
  · rintro ⟨⟨⟨h₁, h₂⟩, h₃⟩, h₄⟩
    exact ⟨h₁, h₂, h₃, h₄⟩
  · rintro ⟨h₁, h₂, h₃, h₄⟩
    exact ⟨⟨⟨h₁, h₂⟩, h₃⟩, h₄⟩

/-- The last check, on its own. -/
theorem verifyHalo2IpaProof_iff {proof publicInputBytes : Bytes} :
    verifyHalo2IpaProof blake2_256 proof publicInputBytes = true ↔
      (∃ numRounds, numRounds ≠ 0 ∧ numRounds ≤ 32 ∧ proof.length = 128 + 64 * numRounds)
        ∧ proof.take 32
          = Bytes32.toBytes (blake2_256 (transcript publicInputBytes (proof.drop 32))) := by
  unfold verifyHalo2IpaProof
  simp only [List.length_drop, Bool.if_false_left, Bool.and_eq_true, Bool.not_eq_true',
    decide_eq_false_iff_not, beq_iff_eq, not_or, not_not, not_lt]
  constructor
  · rintro ⟨hmin, halign, ⟨hzero, hmax⟩, htag⟩
    exact ⟨⟨(proof.length - 32 - 96) / 64, hzero, hmax, by omega⟩, htag⟩
  · rintro ⟨⟨numRounds, hzero, hmax, hlen⟩, htag⟩
    exact ⟨by omega, by omega, ⟨by omega, by omega⟩, htag⟩

/-- The two checks of a proof, together. -/
theorem bound_iff {proof publicInputBytes : Bytes} :
    proofFormat proof = true ∧ verifyHalo2IpaProof blake2_256 proof publicInputBytes = true
      ↔ Bound blake2_256 proof publicInputBytes := by
  have hnonzero : (!proof.all (· == 0)) = true ↔ ∃ b ∈ proof, b ≠ 0 := by simp
  rw [verifyHalo2IpaProof_iff]
  unfold proofFormat MIN_PROOF_SIZE MAX_PROOF_SIZE PROOF_ALIGNMENT
  simp only [Bool.if_false_left, Bool.and_eq_true, Bool.not_eq_true',
    decide_eq_false_iff_not, not_or, not_not, not_lt]
  rw [← Bool.not_eq_true', hnonzero]
  constructor
  · rintro ⟨⟨-, -, hne⟩, hrounds, htag⟩
    exact ⟨hrounds, hne, htag⟩
  · rintro ⟨⟨numRounds, hzero, hmax, hlen⟩, hne, htag⟩
    exact ⟨⟨⟨by omega, by omega⟩, by omega, hne⟩, ⟨numRounds, hzero, hmax, hlen⟩, htag⟩

/-- **What `verify_transfer` accepts.** -/
theorem verifyTransfer_iff {proof : Bytes} {inputs : TransferPublicInputs} :
    verifyTransfer blake2_256 proof inputs = true ↔
      inputs.WellFormed ∧ Bound blake2_256 proof (encodeTransferInputs inputs) := by
  rw [← bound_iff]
  unfold verifyTransfer TESTNET_ONLY
  simp only [Bool.true_and, Bool.if_false_left, Bool.and_eq_true, Bool.not_eq_true',
    decide_eq_false_iff_not, not_or, Bool.not_eq_false, spendFormat_iff, Bool.decide_eq_true]
  constructor
  · rintro ⟨hmain, hproof, hspends, ⟨ho₁, ho₂⟩, hne, ⟨hc, ha⟩, hipa⟩
    exact ⟨⟨hspends, hmain, ho₁, ho₂, hne, hc, ha⟩, hproof, hipa⟩
  · rintro ⟨⟨hspends, hmain, ho₁, ho₂, hne, hc, ha⟩, hproof, hipa⟩
    exact ⟨hmain, hproof, hspends, ⟨ho₁, ho₂⟩, hne, ⟨hc, ha⟩, hipa⟩

/-- **What `verify_withdraw` accepts.** -/
theorem verifyWithdraw_iff {proof : Bytes} {inputs : WithdrawPublicInputs} :
    verifyWithdraw blake2_256 proof inputs = true ↔
      inputs.WellFormed ∧ Bound blake2_256 proof (encodeWithdrawInputs inputs) := by
  rw [← bound_iff]
  unfold verifyWithdraw
  simp only [Bool.if_false_left, Bool.and_eq_true, Bool.not_eq_true',
    decide_eq_false_iff_not, Bool.not_eq_false, spendFormat_iff]
  constructor
  · rintro ⟨hproof, hspends, hexit, hipa⟩
    exact ⟨⟨hspends, hexit⟩, hproof, hipa⟩
  · rintro ⟨⟨hspends, hexit⟩, hproof, hipa⟩
    exact ⟨hproof, hspends, hexit, hipa⟩

/-! ## The encodings -/

/-- **Inputs and body are hashed without a mark between them.** -/
theorem transcript_inj {inputs inputs' body body' : Bytes} :
    transcript inputs body = transcript inputs' body'
      ↔ inputs ++ body = inputs' ++ body' := by
  unfold transcript
  rw [List.append_assoc, List.append_assoc, List.append_cancel_left_eq]

/-- **The inputs of a withdrawal can be read off what is hashed**, but for
the outputs, which are not in it. -/
theorem encodeWithdrawInputs_append_inj {inputs inputs' : WithdrawPublicInputs}
    {body body' : Bytes} :
    encodeWithdrawInputs inputs ++ body = encodeWithdrawInputs inputs' ++ body' ↔
      (inputs.merkleRoot = inputs'.merkleRoot ∧ inputs.nullifiers = inputs'.nullifiers
        ∧ inputs.exitValue = inputs'.exitValue) ∧ body = body' := by
  unfold encodeWithdrawInputs
  simp only [List.append_assoc, Bytes32.toBytes_append_inj]
  constructor
  · rintro ⟨hroot, hn₁, hn₂, h⟩
    obtain ⟨hexit, hbody⟩ := List.append_inj h (by rw [length_beBytes, length_beBytes])
    exact ⟨⟨hroot, Prod.ext hn₁ hn₂, beBytes_toNat_inj le_rfl hexit⟩, hbody⟩
  · rintro ⟨⟨hroot, hn, hexit⟩, hbody⟩
    rw [hroot, hn, hexit, hbody]
    exact ⟨rfl, rfl, rfl, rfl⟩

/-- The proof with a given body that is accepted for given inputs, if any
is. -/
def proofOf (blake2_256 : Bytes → H256) (publicInputBytes body : Bytes) : Bytes :=
  Bytes32.toBytes (blake2_256 (transcript publicInputBytes body)) ++ body

theorem take_proofOf (inputs body : Bytes) :
    (proofOf blake2_256 inputs body).take 32
      = Bytes32.toBytes (blake2_256 (transcript inputs body)) :=
  List.take_left' (Bytes32.length_toBytes _)

theorem drop_proofOf (inputs body : Bytes) :
    (proofOf blake2_256 inputs body).drop 32 = body :=
  List.drop_left' (Bytes32.length_toBytes _)

/-- **Anyone can make a proof**, of any body of the right length. -/
theorem bound_proofOf {inputs body : Bytes} {numRounds : ℕ} (hzero : numRounds ≠ 0)
    (hmax : numRounds ≤ 32) (hlen : body.length = 96 + 64 * numRounds)
    (hnonzero : ∃ b ∈ body, b ≠ 0) :
    Bound blake2_256 (proofOf blake2_256 inputs body) inputs where
  rounds := by
    refine ⟨numRounds, hzero, hmax, ?_⟩
    rw [proofOf, List.length_append, Bytes32.length_toBytes, hlen]
    omega
  nonzero := by
    obtain ⟨b, hb, hne⟩ := hnonzero
    exact ⟨b, List.mem_append_right _ hb, hne⟩
  tag := by rw [take_proofOf, drop_proofOf]

/-! ## Transfers and withdrawals -/

/-- The exit value that the first half of an output reads as. -/
def firstHalf (output : H256) : BitVec 128 := BitVec.ofNat 128 (output.toNat / 256 ^ 16)

/-- **The body of the withdrawal that a transfer is cut into**: it starts
with what is left of the transfer's inputs. -/
def recutBody (inputs : TransferPublicInputs) (body : Bytes) : Bytes :=
  beBytes 16 inputs.outputCommitments.1.toNat
    ++ Bytes32.toBytes inputs.outputCommitments.2 ++ beBytes 8 inputs.domainChainId.toNat
    ++ beBytes 8 inputs.domainAppId.toNat ++ body

theorem length_recutBody (inputs : TransferPublicInputs) (body : Bytes) :
    (recutBody inputs body).length = 64 + body.length := by
  unfold recutBody
  simp only [List.length_append, length_beBytes, Bytes32.length_toBytes]

/-- The two halves of an output. -/
theorem toBytes_halves (output : H256) :
    Bytes32.toBytes output
      = beBytes 16 (firstHalf output).toNat ++ beBytes 16 output.toNat := by
  have hlt : output.toNat / 256 ^ 16 < 2 ^ 128 :=
    Nat.div_lt_of_lt_mul (output.isLt.trans_le (by decide))
  rw [Bytes32.toBytes_eq_beBytes, beBytes_add 16 16, firstHalf, BitVec.toNat_ofNat,
    Nat.mod_eq_of_lt hlt]

/-- **What is hashed for a transfer and for a withdrawal is the same if and
only if the withdrawal is cut from the transfer.** -/
theorem encode_append_eq_iff {t : TransferPublicInputs} {w : WithdrawPublicInputs}
    {body body' : Bytes} :
    encodeTransferInputs t ++ body = encodeWithdrawInputs w ++ body' ↔
      (t.merkleRoot = w.merkleRoot ∧ t.nullifiers = w.nullifiers
        ∧ firstHalf t.outputCommitments.1 = w.exitValue) ∧ recutBody t body = body' := by
  have hcut : encodeTransferInputs t ++ body
      = encodeWithdrawInputs ⟨t.merkleRoot, t.nullifiers, t.outputCommitments,
        firstHalf t.outputCommitments.1⟩ ++ recutBody t body := by
    unfold encodeTransferInputs encodeWithdrawInputs recutBody
    rw [toBytes_halves t.outputCommitments.1]
    simp only [List.append_assoc]
  rw [hcut, encodeWithdrawInputs_append_inj]

/-- **Two inputs with their proofs are told apart** when they do not hash
to the same tag by a collision. -/
def NoCollision (blake2_256 : Bytes → H256) (inputs proof inputs' proof' : Bytes) : Prop :=
  blake2_256 (transcript inputs (proof.drop 32))
      = blake2_256 (transcript inputs' (proof'.drop 32)) →
    transcript inputs (proof.drop 32) = transcript inputs' (proof'.drop 32)

/-- Accepted proofs with the same tag have hashed the same. -/
theorem append_eq_of_tag {proof proof' inputs inputs' : Bytes}
    (h : Bound blake2_256 proof inputs) (h' : Bound blake2_256 proof' inputs')
    (hcoll : NoCollision blake2_256 inputs proof inputs' proof')
    (htag : proof.take 32 = proof'.take 32) :
    inputs ++ proof.drop 32 = inputs' ++ proof'.drop 32 := by
  rw [h.tag, h'.tag, Bytes32.toBytes_inj] at htag
  exact transcript_inj.mp (hcoll htag)

/-- **The withdrawal cut from an accepted transfer.** It has one round
more. -/
theorem exists_recut {t : TransferPublicInputs} {proof : Bytes}
    (ht : verifyTransfer blake2_256 proof t = true) (hlen : proof.length ≠ 2176)
    (hexit : firstHalf t.outputCommitments.1 ≠ 0) :
    ∃ w proof', verifyWithdraw blake2_256 proof' w = true
      ∧ transcript (encodeTransferInputs t) (proof.drop 32)
        = transcript (encodeWithdrawInputs w) (proof'.drop 32)
      ∧ proof.take 32 = proof'.take 32 := by
  obtain ⟨hwf, hbound⟩ := verifyTransfer_iff.mp ht
  obtain ⟨numRounds, -, hmax, hrounds⟩ := hbound.rounds
  let w : WithdrawPublicInputs := ⟨t.merkleRoot, t.nullifiers, t.outputCommitments,
    firstHalf t.outputCommitments.1⟩
  let body := recutBody t (proof.drop 32)
  have hsame : transcript (encodeTransferInputs t) (proof.drop 32)
      = transcript (encodeWithdrawInputs w) body :=
    transcript_inj.mpr (encode_append_eq_iff.mpr ⟨⟨rfl, rfl, rfl⟩, rfl⟩)
  have hbody : body.length = 96 + 64 * (numRounds + 1) := by
    rw [length_recutBody, List.length_drop, hrounds]
    omega
  have hnonzero : ∃ b ∈ body, b ≠ 0 := by
    obtain ⟨b, hb, hne⟩ := Bytes32.exists_byte_ne_zero hwf.snd_ne
    refine ⟨b, ?_, hne⟩
    simp only [body, recutBody, List.mem_append]
    exact Or.inl (Or.inl (Or.inl (Or.inr hb)))
  refine ⟨w, proofOf blake2_256 (encodeWithdrawInputs w) body, ?_, ?_, ?_⟩
  · rw [verifyWithdraw_iff]
    exact ⟨⟨hwf.spends, hexit⟩,
      bound_proofOf (Nat.succ_ne_zero _) (by omega) hbody hnonzero⟩
  · rw [drop_proofOf, hsame]
  · rw [take_proofOf, hbound.tag, hsame]

/-- **No accepted withdrawal has the tag of an accepted transfer if and
only if the transfer's proof has all 32 rounds or the first half of its
first output is zero.** -/
theorem tags_differ_iff {t : TransferPublicInputs} {proof : Bytes}
    (ht : verifyTransfer blake2_256 proof t = true) :
    (∀ w proof', verifyWithdraw blake2_256 proof' w = true →
        NoCollision blake2_256 (encodeTransferInputs t) proof (encodeWithdrawInputs w) proof' →
        proof.take 32 ≠ proof'.take 32)
      ↔ proof.length = 2176 ∨ firstHalf t.outputCommitments.1 = 0 := by
  constructor
  · intro hdiffer
    by_contra hcond
    rw [not_or] at hcond
    obtain ⟨w, proof', hw, hsame, htag⟩ := exists_recut ht hcond.1 hcond.2
    exact hdiffer w proof' hw (fun _ => hsame) htag
  · intro hcond w proof' hw hcoll htag
    obtain ⟨-, hbound⟩ := verifyTransfer_iff.mp ht
    obtain ⟨hwf, hbound'⟩ := verifyWithdraw_iff.mp hw
    obtain ⟨⟨-, -, hexit⟩, hbody⟩ :=
      encode_append_eq_iff.mp (append_eq_of_tag hbound hbound' hcoll htag)
    rcases hcond with hlen | hzero
    · -- the withdrawal would have 33 rounds
      obtain ⟨numRounds, -, hmax, hrounds⟩ := hbound'.rounds
      have hlong := congrArg List.length hbody
      rw [length_recutBody, List.length_drop, List.length_drop, hlen, hrounds] at hlong
      omega
    · exact hwf.exit_ne (hexit.symm.trans hzero)

/-- A transfer on the parachain 1000 with a given first output. -/
def testnetInputs (output : H256) : TransferPublicInputs :=
  ⟨1, (2, 3), (output, 5), 1000, 1⟩

/-- A body of one round. -/
def onesBody : Bytes := List.replicate 160 1

theorem bound_onesBody (inputs : Bytes) :
    Bound blake2_256 (proofOf blake2_256 inputs onesBody) inputs :=
  bound_proofOf Nat.one_ne_zero (by decide) List.length_replicate
    ⟨1, List.mem_replicate.mpr ⟨by decide, rfl⟩, by decide⟩

/-- Its output is small, so its proof passes for no withdrawal, whatever the
hash. -/
theorem tags_differ_iff_small :
    (testnetInputs 4).WellFormed ∧ ∀ (blake2_256 : Bytes → H256) w proof',
      verifyWithdraw blake2_256 proof' w = true →
      NoCollision blake2_256 (encodeTransferInputs (testnetInputs 4))
          (proofOf blake2_256 (encodeTransferInputs (testnetInputs 4)) onesBody)
          (encodeWithdrawInputs w) proof' →
        (proofOf blake2_256 (encodeTransferInputs (testnetInputs 4)) onesBody).take 32
          ≠ proof'.take 32 := by
  have hwf : (testnetInputs 4).WellFormed := by
    refine ⟨⟨?_, ?_, ?_, ?_⟩, ?_, ?_, ?_, ?_, ?_, ?_⟩ <;> decide
  refine ⟨hwf, fun blake2_256 => ?_⟩
  exact (tags_differ_iff (verifyTransfer_iff.mpr ⟨hwf, bound_onesBody _⟩)).mpr
    (Or.inr (by decide))

/-- **A transfer and a withdrawal with the same tag**, whatever the hash:
they hash the same bytes. -/
theorem exists_same_tag :
    (testnetInputs (BitVec.allOnes 256)).WellFormed ∧ ∀ blake2_256 : Bytes → H256,
      ∃ proof w proof',
        verifyTransfer blake2_256 proof (testnetInputs (BitVec.allOnes 256)) = true
        ∧ verifyWithdraw blake2_256 proof' w = true
        ∧ transcript (encodeTransferInputs (testnetInputs (BitVec.allOnes 256)))
            (proof.drop 32)
          = transcript (encodeWithdrawInputs w) (proof'.drop 32)
        ∧ proof.take 32 = proof'.take 32 := by
  have hwf : (testnetInputs (BitVec.allOnes 256)).WellFormed := by
    refine ⟨⟨?_, ?_, ?_, ?_⟩, ?_, ?_, ?_, ?_, ?_, ?_⟩ <;> decide
  refine ⟨hwf, fun blake2_256 => ?_⟩
  have hbound := @bound_onesBody blake2_256
    (encodeTransferInputs (testnetInputs (BitVec.allOnes 256)))
  have ht := verifyTransfer_iff.mpr ⟨hwf, hbound⟩
  have hlen : (proofOf blake2_256
      (encodeTransferInputs (testnetInputs (BitVec.allOnes 256))) onesBody).length
        ≠ 2176 := by
    rw [proofOf, List.length_append, Bytes32.length_toBytes, onesBody, List.length_replicate]
    decide
  obtain ⟨w, proof', hw, hsame, htag⟩ := exists_recut ht hlen (by decide)
  exact ⟨_, w, proof', ht, hw, hsame, htag⟩

end PalletVerifier
