import SoulPrivacy.LumoraProver
import SoulPrivacy.PoolEffect
import SoulPrivacy.ValueConservation

/-!
# What the provers make of the change, and the pool

A withdrawal pays out a part of the input and leaves the rest as change. The
pool takes two output commitments for it, neither of which may be zero, nor may
both be the same.

The prover of the coprocessor has one output for the change and puts zero in the
place of the other one, however much is paid out. So the pool takes none of its
withdrawals (`validateOutputCommitments_generateWithdraw`). The circuit leaves
the second commitment open. But where nothing is left it asks for zero in the
place of the first, and again the pool takes no pair with it
(`circuitAccepted_iff`).
-/

namespace FullWithdrawal

open Bn254 (Element toField ofField)
open LumoraProver (GeneratedProof WithdrawRequest generateWithdraw)
open PrivacyPool (Pair validateOutputCommitments)
open Circuit (toyPoseidon)

/-! ## The checks of the pool -/

/-- **What the pool asks of a pair of outputs.** -/
theorem validateOutputCommitments_eq_ok (outputs : Pair) :
    validateOutputCommitments outputs = .ok ()
      ↔ outputs.1 ≠ 0 ∧ outputs.2 ≠ 0 ∧ outputs.1 ≠ outputs.2 := by
  unfold validateOutputCommitments
  rw [revertIf_bind_eq_ok, revertIf_eq_ok, not_or, and_assoc]

/-- **A pair with a zero is turned down.** -/
theorem validateOutputCommitments_of_zero {outputs : Pair}
    (h : outputs.1 = 0 ∨ outputs.2 = 0) :
    validateOutputCommitments outputs = .error .invalidOutputCommitment :=
  revertIf_bind_of_pos h _ _

theorem one_ne_zero_word : (1 : Bytes32) ≠ 0 := by decide

/-- A commitment other than zero has a partner that the pool takes with it. -/
theorem exists_validateOutputCommitments_iff (change : Bytes32) :
    (∃ outputs : Pair, (outputs.1 = change ∨ outputs.2 = change)
        ∧ validateOutputCommitments outputs = .ok ()) ↔ change ≠ 0 := by
  constructor
  · rintro ⟨outputs, hchange, hok⟩ rfl
    rw [validateOutputCommitments_of_zero hchange] at hok
    cases hok
  · intro hne
    -- one or two, whichever is another number
    by_cases hone : change = 1
    · refine ⟨(change, 2), Or.inl rfl, (validateOutputCommitments_eq_ok _).mpr ?_⟩
      rw [hone]
      exact ⟨one_ne_zero_word, by decide, by decide⟩
    · refine ⟨(change, 1), Or.inl rfl, (validateOutputCommitments_eq_ok _).mpr ?_⟩
      exact ⟨hne, one_ne_zero_word, hone⟩

/-! ## The prover of the coprocessor -/

variable {H : List Element → Element} {random : ℕ → ℕ → BitVec 8} {snarkWrapperPk : Option Bytes}
  {request : WithdrawRequest} {proof : GeneratedProof}

/-- **The pool takes the outputs of a proof.** -/
def ProofAccepted (proof : GeneratedProof) : Prop :=
  ∃ outputs, proof.outputCommitments = some outputs
    ∧ validateOutputCommitments outputs = .ok ()

/-- **The outputs of a withdrawal** are the change and zero. -/
theorem outputCommitments_generateWithdraw
    (h : generateWithdraw H random snarkWrapperPk request = .ok proof) :
    proof.outputCommitments
      = some (LumoraProver.computeSingleCommitment H request.changeNote, 0) := by
  unfold generateWithdraw at h
  obtain ⟨-, hproof⟩ := (Except.unit_bind_eq_ok _ _ _).mp h
  cases hproof
  rfl

/-- **The pool turns every withdrawal of the prover down.** -/
theorem validateOutputCommitments_generateWithdraw
    (h : generateWithdraw H random snarkWrapperPk request = .ok proof) : ¬ ProofAccepted proof := by
  rintro ⟨outputs, houtputs, hok⟩
  rw [outputCommitments_generateWithdraw h] at houtputs
  cases houtputs
  rw [validateOutputCommitments_of_zero (Or.inr rfl)] at hok
  cases hok

/-! ## The circuit -/

variable {P : Circuit.Poseidon} {pub : Circuit.WithdrawPublic} {priv : Circuit.WithdrawPrivate}

/-- **The pool takes some pair with the change commitment of the circuit.** -/
def CircuitAccepted (pub : Circuit.WithdrawPublic) : Prop :=
  ∃ outputs : Pair, (outputs.1 = ofField pub.changeCommitment
      ∨ outputs.2 = ofField pub.changeCommitment)
    ∧ validateOutputCommitments outputs = .ok ()

theorem ofField_eq_zero_iff (x : Element) : ofField x = 0 ↔ x = 0 := by
  constructor
  · intro h
    rw [← Bn254.toField_ofField x, h]
    exact Nat.cast_zero
  · rintro rfl
    show BitVec.ofNat 256 (ZMod.val 0) = 0
    rw [ZMod.val_zero]
    rfl

/-- **The pool takes what the circuit asks for** only where something is left,
and then unless the commitment of the change happens to be zero. -/
theorem circuitAccepted_iff (h : Circuit.withdraw P pub priv = .ok ()) :
    CircuitAccepted pub ↔ priv.change.value ≠ 0 ∧ priv.change.commitment P ≠ 0 := by
  have hsat := Circuit.withdraw_eq_ok.mp h
  unfold CircuitAccepted
  rw [exists_validateOutputCommitments_iff, Ne, ofField_eq_zero_iff]
  by_cases hvalue : priv.change.value = 0
  · exact iff_of_false (not_not.mpr (hsat.full hvalue)) (fun hne => hne.1 hvalue)
  · rw [hsat.change hvalue]
    exact (and_iff_right hvalue).symm

/-! ## Both -/

/-- **No withdrawal of the prover is taken**, whatever is paid out, and those of
the circuit only with a change. -/
theorem withdrawal_accepted_iff
    (hproof : generateWithdraw H random snarkWrapperPk request = .ok proof)
    (hcircuit : Circuit.withdraw P pub priv = .ok ()) :
    ¬ ProofAccepted proof
      ∧ (CircuitAccepted pub ↔ priv.change.value ≠ 0 ∧ priv.change.commitment P ≠ 0) :=
  ⟨validateOutputCommitments_generateWithdraw hproof, circuitAccepted_iff hcircuit⟩

/-- A hash for the prover, next to the one for the circuits. -/
def toyHash (xs : List Element) : Element := xs.foldl (fun acc x => 3 * acc + x + 1) 0

/-- A path for the prover. -/
def onePath : LumoraProver.MerklePath := ⟨[0], [0]⟩

/-- A note of one coin that is withdrawn completely: the prover's request … -/
def fullRequest : WithdrawRequest where
  inputNotes := (1, 2)
  spendingKeys := (3, 4)
  changeNote := ⟨3, 0, 5⟩
  exitValue := 1
  merklePaths := (onePath, onePath)
  merkleRoot := 6
  targetChain := .avalancheFuji
  appId := 1

/-- … the prover's proof … -/
def fullProof : GeneratedProof where
  rawProof := LumoraProver.paddedProofEnvelope (fun _ => 0)
    (LumoraProver.poseidonHash toyHash
      (LumoraProver.computeSingleCommitment toyHash fullRequest.changeNote).toBytes).toBytes 2048
  snarkWrapper := none
  publicInputs := [6, (LumoraProver.computeNullifiersV2 toyHash (3, 4) (1, 2)
      (LumoraProver.TargetChain.avalancheFuji.chainId.setWidth 32) 1).1,
    (LumoraProver.computeNullifiersV2 toyHash (3, 4) (1, 2)
      (LumoraProver.TargetChain.avalancheFuji.chainId.setWidth 32) 1).2,
    LumoraProver.computeSingleCommitment toyHash fullRequest.changeNote, 0,
    (1 : BitVec 128).setWidth 256]
  proofType := .withdraw

/-- … and the circuit's inputs. -/
def fullPrivate : Circuit.WithdrawPrivate :=
  ⟨⟨⟨1, 2, 1⟩, fun _ => 0, fun _ => 0⟩, ⟨3, 4, 0⟩⟩

/-- … -/
def fullPublic : Circuit.WithdrawPublic where
  merkleRoot := Circuit.computeMerkleRoot toyPoseidon (fullPrivate.input.commitment toyPoseidon)
    fullPrivate.input.path fullPrivate.input.indices
  nullifier := Circuit.computeNullifierV2 toyPoseidon 1 (fullPrivate.input.commitment toyPoseidon)
    (toField 43113) 1
  recipient := 1
  withdrawValue := 1
  changeCommitment := 0
  chainId := toField 43113
  appId := 1

theorem generateWithdraw_fullRequest :
    generateWithdraw toyHash (fun _ _ => 0) none fullRequest = .ok fullProof := rfl

theorem withdraw_fullPublic : Circuit.withdraw toyPoseidon fullPublic fullPrivate = .ok () := by
  have hone : (1 : Element) ≠ 0 := by decide
  exact Circuit.withdraw_eq_ok.mpr
    { root := rfl
      nullifier := rfl
      withdrawValue_ne := hone
      recipient_ne := hone
      value := (add_zero (1 : Element)).symm
      change := fun hne => absurd rfl hne
      full := fun _ => rfl
      secret_ne := hone }

/-- The note is withdrawn by neither. -/
theorem full_withdrawal_rejected :
    ¬ ProofAccepted fullProof
      ∧ (CircuitAccepted fullPublic ↔ fullPrivate.change.value ≠ 0
        ∧ fullPrivate.change.commitment toyPoseidon ≠ 0) :=
  withdrawal_accepted_iff generateWithdraw_fullRequest withdraw_fullPublic

/-- Not all withdrawals are taken by the pool. -/
theorem withdrawal_not_accepted :
    ¬ ∀ (H : List Element → Element) (random : ℕ → ℕ → BitVec 8) (snarkWrapperPk : Option Bytes)
        (request : WithdrawRequest) (proof : GeneratedProof) (P : Circuit.Poseidon)
        (pub : Circuit.WithdrawPublic) (priv : Circuit.WithdrawPrivate),
      generateWithdraw H random snarkWrapperPk request = .ok proof →
        Circuit.withdraw P pub priv = .ok () → ProofAccepted proof ∧ CircuitAccepted pub := by
  intro hall
  have haccepted := hall _ _ _ _ _ _ _ _ generateWithdraw_fullRequest withdraw_fullPublic
  exact validateOutputCommitments_generateWithdraw generateWithdraw_fullRequest haccepted.1

end FullWithdrawal
