import SoulPrivacy.AbiCodec

/-!
# The submitter of the coprocessor (`lumora-coprocessor/src/submitter.rs`)

The submitter assembles the calls of `PrivacyPool.transfer` and
`PrivacyPool.withdraw` by hand, from a word for the place of the proof, the
other arguments and the encoding of the proof.

The pool's `transfer` has two more arguments, so it has another selector, and no
data of `encode_transfer_call` calls it.

The data of `encode_withdraw_call` calls `withdraw`. But the place it names for
the proof is that of its last argument: the exit value is read as the length of
the proof, and what comes behind is not yet the proof, since an encoding of its
own begins with the place and the length. So the pool reads the proof only where
it happens to begin like that (`decodeCall_encodeWithdrawCall_iff`).
-/

namespace Submitter

open Abi (Token selector encodeTokens readWord)

/-- `PrivacyPool.transfer`. -/
def transfer : Abi.Function :=
  ⟨"transfer", [.bytes, .bytes32, .bytes32Array 2, .bytes32Array 2, .uint256, .uint256]⟩

/-- `PrivacyPool.withdraw`. -/
def withdraw : Abi.Function :=
  ⟨"withdraw", [.bytes, .bytes32, .bytes32Array 2, .bytes32Array 2, .address, .uint256]⟩

/-- `encode_transfer_call`. -/
def encodeTransferCall (proof : Bytes) (merkleRoot : Bytes32)
    (nullifiers outputCommitments : Bytes32 × Bytes32) : Bytes :=
  selector "transfer(bytes,bytes32,bytes32[2],bytes32[2])"
    -- after root + 2 nullifiers + 2 outputs
    ++ encodeTokens [.uint (32 * 5)]
    ++ merkleRoot.toBytes
    ++ nullifiers.1.toBytes
    ++ nullifiers.2.toBytes
    ++ outputCommitments.1.toBytes
    ++ outputCommitments.2.toBytes
    ++ encodeTokens [.bytes proof]

/-- `encode_withdraw_call`. -/
def encodeWithdrawCall (proof : Bytes) (merkleRoot : Bytes32)
    (nullifiers outputCommitments : Bytes32 × Bytes32) (recipient : Address)
    (exitValue : BitVec 128) : Bytes :=
  selector "withdraw(bytes,bytes32,bytes32[2],bytes32[2],address,uint256)"
    ++ encodeTokens [.uint (32 * 7)]
    ++ merkleRoot.toBytes
    ++ nullifiers.1.toBytes
    ++ nullifiers.2.toBytes
    ++ outputCommitments.1.toBytes
    ++ outputCommitments.2.toBytes
    ++ encodeTokens [.address recipient]
    ++ encodeTokens [.uint (exitValue.setWidth 256)]
    ++ encodeTokens [.bytes proof]

/-- The arguments of the pool's functions up to the outputs. -/
def statement (proof : Bytes) (merkleRoot : Bytes32)
    (nullifiers outputCommitments : Bytes32 × Bytes32) : List Token :=
  [.bytes proof, .fixedBytes merkleRoot, .fixedArray [nullifiers.1, nullifiers.2],
    .fixedArray [outputCommitments.1, outputCommitments.2]]

variable (proof : Bytes) (merkleRoot : Bytes32) (nullifiers outputCommitments : Bytes32 × Bytes32)
  (recipient : Address) (exitValue : BitVec 128)

/-- **The pool reads the arguments of `encode_transfer_call`.** -/
def TransferDecoded : Prop :=
  ∃ chainId appId, transfer.decodeCall
      (encodeTransferCall proof merkleRoot nullifiers outputCommitments)
    = some (statement proof merkleRoot nullifiers outputCommitments
        ++ [.uint chainId, .uint appId])

/-- **The pool reads the arguments of `encode_withdraw_call`.** -/
def WithdrawDecoded : Prop :=
  withdraw.decodeCall
      (encodeWithdrawCall proof merkleRoot nullifiers outputCommitments recipient exitValue)
    = some (statement proof merkleRoot nullifiers outputCommitments
        ++ [.address recipient, .uint (exitValue.setWidth 256)])

/-! ## `transfer` -/

theorem selector_transfer_ne : selector "transfer(bytes,bytes32,bytes32[2],bytes32[2])"
    ≠ selector transfer.signature := by
  decide +kernel

/-- **No call of `transfer`**, whatever the arguments are. -/
theorem decodeCall_encodeTransferCall :
    transfer.decodeCall (encodeTransferCall proof merkleRoot nullifiers outputCommitments)
      = none := by
  unfold encodeTransferCall
  simp only [List.append_assoc]
  exact Abi.Function.decodeCall_of_ne selector_transfer_ne _

/-! ## `withdraw` -/

/-- The arguments behind the proof, which all stand in the head. -/
def staticTokens : List Token :=
  [.fixedBytes merkleRoot, .fixedArray [nullifiers.1, nullifiers.2],
    .fixedArray [outputCommitments.1, outputCommitments.2], .address recipient,
    .uint (exitValue.setWidth 256)]

/-- The proof as it stands behind the head. -/
def proofTail : Bytes :=
  beBytes 32 32 ++ (beBytes 32 proof.length ++ proof ++ Abi.padding proof.length)

/-- The data behind the selector. -/
def withdrawData : Bytes :=
  beBytes 32 224 ++ (Abi.encodeHeads 256
    (staticTokens merkleRoot nullifiers outputCommitments recipient exitValue) ++ proofTail proof)

theorem length_encodeHeads_staticTokens (offset : ℕ) :
    (Abi.encodeHeads offset
      (staticTokens merkleRoot nullifiers outputCommitments recipient exitValue)).length
      = 224 := by
  rw [Abi.length_encodeHeads]
  rfl

theorem length_withdrawData :
    (withdrawData proof merkleRoot nullifiers outputCommitments recipient exitValue).length
      = 256 + (proofTail proof).length := by
  unfold withdrawData
  rw [List.length_append, List.length_append, length_encodeHeads_staticTokens, length_beBytes,
    ← Nat.add_assoc]

/-- The parts of `encode_withdraw_call`, put together. -/
theorem encodeWithdrawCall_eq :
    encodeWithdrawCall proof merkleRoot nullifiers outputCommitments recipient exitValue
      = selector withdraw.signature
        ++ withdrawData proof merkleRoot nullifiers outputCommitments recipient exitValue := by
  have hsignature : withdraw.signature
      = "withdraw(bytes,bytes32,bytes32[2],bytes32[2],address,uint256)" := by rfl
  have hplace : encodeTokens [.uint (32 * 7)] = beBytes 32 224 := by
    simp only [encodeTokens, Abi.encodeHeads, Token.head, List.flatMap_cons, Token.tail,
      List.flatMap_nil, List.append_nil]
    exact Bytes32.toBytes_eq_beBytes _
  rw [hsignature]
  unfold encodeWithdrawCall withdrawData proofTail
  rw [hplace]
  simp [encodeTokens, Abi.encodeHeads, staticTokens, Token.head, Token.tail, Abi.headSize,
    Token.type, Abi.Ty.headSize]

/-- **The arguments behind the proof are read from their places.** -/
theorem decodeFrom_staticTokens :
    Abi.decodeFrom (withdrawData proof merkleRoot nullifiers outputCommitments recipient exitValue)
        32 [.bytes32, .bytes32Array 2, .bytes32Array 2, .address, .uint256]
      = some (staticTokens merkleRoot nullifiers outputCommitments recipient exitValue) := by
  have hoffset : 256 = (beBytes 32 224 ++ (Abi.encodeHeads 256 (staticTokens merkleRoot nullifiers
      outputCommitments recipient exitValue) ++ [])).length := by
    rw [List.append_nil, List.length_append, length_beBytes, length_encodeHeads_staticTokens]
  have hread := Abi.decodeFrom_encodeHeads _ (proofTail proof) hoffset
    (fun b hb => by simp [staticTokens] at hb)
  rw [length_beBytes] at hread
  exact hread

/-- **What the pool takes for the length of the proof** is the exit value. -/
theorem readWord_withdrawData :
    readWord (withdrawData proof merkleRoot nullifiers outputCommitments recipient exitValue) 224
      = exitValue.toNat := by
  have hword : Bytes32.toBytes (exitValue.setWidth 256) = beBytes 32 exitValue.toNat := by
    rw [Bytes32.toBytes_eq_beBytes, BitVec.toNat_setWidth_of_le (by decide)]
  have hsplit : withdrawData proof merkleRoot nullifiers outputCommitments recipient exitValue
      = (beBytes 32 224 ++ Abi.encodeHeads 256
          ((staticTokens merkleRoot nullifiers outputCommitments recipient exitValue).take 4))
        ++ (beBytes 32 exitValue.toNat ++ proofTail proof) := by
    rw [← hword]
    simp [withdrawData, staticTokens, Abi.encodeHeads, Token.head]
  have hlength : (beBytes 32 224 ++ Abi.encodeHeads 256
      ((staticTokens merkleRoot nullifiers outputCommitments recipient exitValue).take 4)).length
      = 224 := by
    rw [List.length_append, length_beBytes, Abi.length_encodeHeads]
    rfl
  rw [hsplit, ← hlength]
  exact Abi.readWord_append _ _ (exitValue.isLt.trans_le (by decide))

/-- **What the pool takes for the proof.** -/
theorem decodeBytes_withdrawData :
    Abi.decodeBytes (withdrawData proof merkleRoot nullifiers outputCommitments recipient exitValue)
        224
      = if exitValue.toNat < 2 ^ 64 ∧ exitValue.toNat ≤ (proofTail proof).length then
          some ((proofTail proof).take exitValue.toNat)
        else none := by
  have hcontent : (withdrawData proof merkleRoot nullifiers outputCommitments recipient
      exitValue).drop (224 + 32) = proofTail proof := by
    unfold withdrawData
    rw [← List.append_assoc]
    refine List.drop_left' ?_
    rw [List.length_append, length_encodeHeads_staticTokens, length_beBytes]
  unfold Abi.decodeBytes
  rw [readWord_withdrawData, hcontent, length_withdrawData]
  refine if_congr ?_ rfl rfl
  constructor
  · rintro ⟨-, -, hlt, hle⟩
    exact ⟨hlt, by omega⟩
  · rintro ⟨hlt, hle⟩
    exact ⟨by decide, by omega, hlt, by omega⟩

/-- **How the pool reads the data**: with some bytes for the proof, and the other arguments
as they are. -/
theorem decodeCall_encodeWithdrawCall :
    withdraw.decodeCall
        (encodeWithdrawCall proof merkleRoot nullifiers outputCommitments recipient exitValue)
      = (if exitValue.toNat < 2 ^ 64 ∧ exitValue.toNat ≤ (proofTail proof).length then
          some ((proofTail proof).take exitValue.toNat) else none).map
        (fun b => Token.bytes b
          :: staticTokens merkleRoot nullifiers outputCommitments recipient exitValue) := by
  have hplace : readWord
      (withdrawData proof merkleRoot nullifiers outputCommitments recipient exitValue) 0
      = 224 := by
    have hfirst := Abi.readWord_append [] (Abi.encodeHeads 256 (staticTokens merkleRoot nullifiers
      outputCommitments recipient exitValue) ++ proofTail proof) (show 224 < 256 ^ 32 by decide)
    rwa [List.nil_append] at hfirst
  have hhead : Abi.headSize withdraw.types ≤
      (withdrawData proof merkleRoot nullifiers outputCommitments recipient exitValue).length := by
    rw [length_withdrawData]
    exact Nat.le_add_right _ _
  rw [encodeWithdrawCall_eq, Abi.Function.decodeCall_selector, ← decodeBytes_withdrawData
    proof merkleRoot nullifiers outputCommitments recipient exitValue]
  unfold Abi.decodeTokens
  rw [if_pos hhead]
  show ((Abi.decodeBytes _ (readWord _ 0)).map Token.bytes).bind (fun t =>
    (Abi.decodeFrom _ 32 [.bytes32, .bytes32Array 2, .bytes32Array 2, .address, .uint256]).bind
      (fun ts => some (t :: ts))) = _
  rw [hplace, decodeFrom_staticTokens]
  cases Abi.decodeBytes _ 224 with
  | none => rfl
  | some b => rfl

theorem length_proofTail_le : proof.length + 64 ≤ (proofTail proof).length := by
  simp [proofTail]
  omega

/-- **The proof is read exactly where the exit value is its length and it begins like what
stands in front of it**: the words of its place and its length, and then itself. -/
theorem decodeCall_encodeWithdrawCall_iff :
    WithdrawDecoded proof merkleRoot nullifiers outputCommitments recipient exitValue
      ↔ exitValue.toNat = proof.length ∧ proof.length < 2 ^ 64
        ∧ proof <+: beBytes 32 32 ++ beBytes 32 proof.length ++ proof := by
  have hlong := length_proofTail_le proof
  have hprefix : proof <+: beBytes 32 32 ++ beBytes 32 proof.length ++ proof
      ↔ proof <+: proofTail proof := by
    have htail : proofTail proof
        = beBytes 32 32 ++ beBytes 32 proof.length ++ proof ++ Abi.padding proof.length := by
      simp [proofTail]
    rw [htail]
    refine ⟨fun h => h.trans (List.prefix_append _ _), fun h => ?_⟩
    refine List.prefix_of_prefix_length_le h (List.prefix_append _ _) ?_
    rw [List.length_append]
    exact Nat.le_add_left _ _
  unfold WithdrawDecoded
  rw [decodeCall_encodeWithdrawCall, hprefix]
  show _ = some (Token.bytes proof
    :: staticTokens merkleRoot nullifiers outputCommitments recipient exitValue) ↔ _
  constructor
  · intro h
    split at h
    · rename_i hread
      have hproof : (proofTail proof).take exitValue.toNat = proof := by
        rw [Option.map_some, Option.some.injEq, List.cons.injEq, Token.bytes.injEq] at h
        exact h.1
      have hlength : exitValue.toNat = proof.length := by
        rw [← hproof, List.length_take_of_le hread.2]
      exact ⟨hlength, hlength ▸ hread.1, List.prefix_iff_eq_take.mpr (hlength ▸ hproof.symm)⟩
    · cases h
  · rintro ⟨hlength, hlt, hproof⟩
    rw [hlength, if_pos ⟨hlt, by omega⟩, ← List.prefix_iff_eq_take.mp hproof]
    rfl

/-- **When the pool reads what the submitter encodes**: never for `transfer`, and for
`withdraw` exactly where the exit value is the length of the proof and the proof begins like
the word of its place, the word of its length, and itself. -/
theorem calls_decoded_iff (proof : Bytes) (merkleRoot : Bytes32)
    (nullifiers outputCommitments : Bytes32 × Bytes32) (recipient : Address)
    (exitValue : BitVec 128) :
    ¬ TransferDecoded proof merkleRoot nullifiers outputCommitments
      ∧ (WithdrawDecoded proof merkleRoot nullifiers outputCommitments recipient exitValue
        ↔ exitValue.toNat = proof.length ∧ proof.length < 2 ^ 64
          ∧ proof <+: beBytes 32 32 ++ beBytes 32 proof.length ++ proof) := by
  constructor
  · rintro ⟨chainId, appId, h⟩
    rw [decodeCall_encodeTransferCall] at h
    cases h
  · exact decodeCall_encodeWithdrawCall_iff proof merkleRoot nullifiers outputCommitments
      recipient exitValue

/-- **Neither call of a proof of one byte is read**: a transfer, and a withdrawal of 1000. -/
theorem calls_not_decoded : ¬ ∀ (proof : Bytes) (merkleRoot : Bytes32)
    (nullifiers outputCommitments : Bytes32 × Bytes32) (recipient : Address)
    (exitValue : BitVec 128),
    TransferDecoded proof merkleRoot nullifiers outputCommitments
      ∧ WithdrawDecoded proof merkleRoot nullifiers outputCommitments recipient exitValue := by
  intro hall
  have hwithdraw := (hall [7] 1 (2, 3) (4, 5) 6 1000).2
  have hlength := ((decodeCall_encodeWithdrawCall_iff _ _ _ _ _ _).mp hwithdraw).1
  cases hlength

end Submitter
