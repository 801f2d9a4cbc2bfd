import SoulPrivacy.PalletVerifier

/-!
# What a proof of the pallet's `transfer` is bound to

All the public inputs of a transfer are encoded at fixed lengths and hashed before
the body, so what is hashed determines them and the body
(`encodeTransferInputs_append_inj`). The tag is the first word of the proof and the
body is the rest. So a proof is accepted for one statement at most, if nothing that
is hashed collides (`transfer_statement_unique`). A withdrawal leaves its outputs
out of what is hashed; a transfer leaves out nothing.
-/

namespace PalletVerifier

/-- **The inputs of a transfer can be read off what is hashed**, all of them. -/
theorem encodeTransferInputs_append_inj {inputs inputs' : TransferPublicInputs}
    {body body' : Bytes} :
    encodeTransferInputs inputs ++ body = encodeTransferInputs inputs' ++ body'
      ↔ inputs = inputs' ∧ body = body' := by
  constructor
  · intro h
    obtain ⟨root, ⟨n₁, n₂⟩, ⟨o₁, o₂⟩, chain, app⟩ := inputs
    obtain ⟨root', ⟨n₁', n₂'⟩, ⟨o₁', o₂'⟩, chain', app'⟩ := inputs'
    unfold encodeTransferInputs at h
    simp only [List.append_assoc, Bytes32.toBytes_append_inj] at h
    obtain ⟨rfl, rfl, rfl, rfl, rfl, h⟩ := h
    -- what is left are the two ids, eight bytes each, and the body
    obtain ⟨hchain, h⟩ := List.append_inj h (by rw [length_beBytes, length_beBytes])
    obtain ⟨happ, hbody⟩ := List.append_inj h (by rw [length_beBytes, length_beBytes])
    have hchain : chain = chain' := beBytes_toNat_inj (by decide) hchain
    have happ : app = app' := beBytes_toNat_inj (by decide) happ
    rw [hchain, happ]
    exact ⟨rfl, hbody⟩
  · rintro ⟨rfl, rfl⟩
    rfl

variable {blake2_256 : Bytes → H256}

/-- **Accepted transfers with the same tag are the same**, statement and body. -/
theorem transfer_eq_of_tag {proof proof' : Bytes} {t t' : TransferPublicInputs}
    (h : verifyTransfer blake2_256 proof t = true)
    (h' : verifyTransfer blake2_256 proof' t' = true)
    (hcoll : NoCollision blake2_256 (encodeTransferInputs t) proof
      (encodeTransferInputs t') proof')
    (htag : proof.take 32 = proof'.take 32) : t = t' ∧ proof.drop 32 = proof'.drop 32 := by
  obtain ⟨-, hbound⟩ := verifyTransfer_iff.mp h
  obtain ⟨-, hbound'⟩ := verifyTransfer_iff.mp h'
  exact encodeTransferInputs_append_inj.mp (append_eq_of_tag hbound hbound' hcoll htag)

/-- **A proof is accepted for one transfer at most**: two statements that are
accepted with it are equal in every field, if the hash does not collide on what it is
given for them. -/
theorem transfer_statement_unique {proof : Bytes} {t t' : TransferPublicInputs}
    (h : verifyTransfer blake2_256 proof t = true)
    (h' : verifyTransfer blake2_256 proof t' = true)
    (hcoll : NoCollision blake2_256 (encodeTransferInputs t) proof
      (encodeTransferInputs t') proof) : t = t' :=
  (transfer_eq_of_tag h h' hcoll rfl).1

/-- The transfer that a proof of one round is accepted for. -/
theorem transfer_statement_unique_testnet :
    verifyTransfer (fun _ => 0)
        (proofOf (fun _ => 0) (encodeTransferInputs (testnetInputs 4)) onesBody)
        (testnetInputs 4) = true
      ∧ testnetInputs 4 = testnetInputs 4 := by
  have hwf : (testnetInputs 4).WellFormed := by
    refine ⟨⟨?_, ?_, ?_, ?_⟩, ?_, ?_, ?_, ?_, ?_, ?_⟩ <;> decide
  have haccepted := verifyTransfer_iff.mpr ⟨hwf, @bound_onesBody (fun _ => 0)
    (encodeTransferInputs (testnetInputs 4))⟩
  exact ⟨haccepted, transfer_statement_unique haccepted haccepted (fun _ => rfl)⟩

end PalletVerifier
