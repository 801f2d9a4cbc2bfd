import SoulPrivacy.LumoraProver

/-!
# Proof envelopes (`ProofEnvelope.sol`)

An envelope of the contracts has 2048 bytes: a version, the type of the proof,
two bytes of length, the proof, and zeros. What `pack` makes of a proof `unpack`
reads back (`unpack_pack`).

The coprocessor pads a proof to the same size, but puts four bytes of length
before it and nothing else. As the proof is shorter than the envelope, the first
of them is zero, which is not the version (`unpack_paddedProofEnvelope`). So no
envelope of the coprocessor is read, whatever the proof and the padding are.
-/

namespace ProofEnvelope

/-- `ENVELOPE_SIZE`. -/
def ENVELOPE_SIZE : ℕ := 2048

/-- `VERSION`. -/
def VERSION : BitVec 8 := 1

/-- `TYPE_DUMMY`. -/
def TYPE_DUMMY : BitVec 8 := 0xFF

/-- How the library reverts. -/
inductive Error
  | payloadTooLarge
  | invalidSize
  | unsupportedVersion
  /-- The panic of an access behind the end. -/
  | indexOutOfBounds
  deriving DecidableEq

/-- The loop that copies the payload behind the header. -/
def copyPayload (payload envelope : Bytes) : Bytes :=
  (List.range payload.length).foldl
    (fun envelope i => envelope.set (4 + i) (payload.getD i 0)) envelope

/-- **`pack`.** -/
def pack (proofType : BitVec 8) (payload : Bytes) : Except Error Bytes := do
  revertIf (ENVELOPE_SIZE - 4 < payload.length) .payloadTooLarge
  let envelope := List.replicate ENVELOPE_SIZE 0
  let envelope := envelope.set 0 VERSION
  let envelope := envelope.set 1 proofType
  let envelope := envelope.set 2 (BitVec.ofNat 8 (payload.length >>> 8))
  let envelope := envelope.set 3 (BitVec.ofNat 8 payload.length)
  return copyPayload payload envelope

/-- The length that stands in the header. -/
def payloadLength (hi lo : BitVec 8) : BitVec 16 := (hi.setWidth 16 <<< 8) ||| lo.setWidth 16

/-- **`unpack`.** -/
def unpack (envelope : Bytes) : Except Error (BitVec 8 × Bytes) := do
  revertIf (envelope.length ≠ ENVELOPE_SIZE) .invalidSize
  revertIf (envelope.getD 0 0 ≠ VERSION) .unsupportedVersion
  let proofType := envelope.getD 1 0
  let length := payloadLength (envelope.getD 2 0) (envelope.getD 3 0)
  let payload ← (List.range length.toNat).mapM
    (fun i => orRevert Error.indexOutOfBounds envelope[4 + i]?)
  return (proofType, payload)

/-- `createDummy`. -/
def createDummy : Bytes :=
  ((List.replicate ENVELOPE_SIZE 0).set 0 VERSION).set 1 TYPE_DUMMY

/-! ## The header -/

/-- **The two bytes of the length** are its digits. -/
theorem toNat_payloadLength (hi lo : BitVec 8) :
    (payloadLength hi lo).toNat = 256 * hi.toNat + lo.toNat := by
  have hhi : hi.toNat < 2 ^ 8 := hi.isLt
  have hlo : lo.toNat < 2 ^ 8 := lo.isLt
  have hshift : (hi.setWidth 16 <<< 8).toNat = 2 ^ 8 * hi.toNat := by
    rw [BitVec.toNat_shiftLeft, BitVec.toNat_setWidth, Nat.shiftLeft_eq]
    omega
  have hlow : (lo.setWidth 16).toNat = lo.toNat := by
    rw [BitVec.toNat_setWidth]
    omega
  unfold payloadLength
  rw [BitVec.toNat_or, hshift, hlow, ← Nat.two_pow_add_eq_or_of_lt hlo]

theorem payloadLength_ofNat {n : ℕ} (hn : n < 2 ^ 16) :
    (payloadLength (BitVec.ofNat 8 (n >>> 8)) (BitVec.ofNat 8 n)).toNat = n := by
  rw [toNat_payloadLength, BitVec.toNat_ofNat, BitVec.toNat_ofNat, Nat.shiftRight_eq_div_pow]
  omega

/-! ## Packing and unpacking -/

/-- **Copying behind a prefix** puts what is copied in the place of as much. -/
theorem foldl_set_append (front payload rest : Bytes) (n : ℕ) (hn : n ≤ payload.length)
    (hrest : n ≤ rest.length) :
    (List.range n).foldl (fun envelope i => envelope.set (front.length + i) (payload.getD i 0))
        (front ++ rest)
      = front ++ (payload.take n ++ rest.drop n) := by
  induction n with
  | zero => simp
  | succ n ih =>
    have hpayload : payload.getD n 0 = payload[n] := by
      rw [List.getD_eq_getElem?_getD, List.getElem?_eq_getElem hn, Option.getD_some]
    have hcons : rest.drop n = rest[n] :: rest.drop (n + 1) := List.drop_eq_getElem_cons hrest
    have htake : (payload.take n).length = n := List.length_take_of_le (Nat.le_of_succ_le hn)
    rw [List.range_succ, List.foldl_append, ih (Nat.le_of_succ_le hn) (Nat.le_of_succ_le hrest)]
    show (front ++ (payload.take n ++ rest.drop n)).set (front.length + n) (payload.getD n 0) = _
    rw [List.set_append_right _ _ (Nat.le_add_right _ _), Nat.add_sub_cancel_left,
      List.set_append_right _ _ htake.le, htake, Nat.sub_self, hcons, List.set_cons_zero,
      hpayload, List.take_succ_eq_append_getElem hn, List.append_assoc]
    rfl

/-- **An envelope** is its header, the payload and zeros. -/
theorem pack_eq (proofType : BitVec 8) {payload : Bytes}
    (hfit : payload.length ≤ ENVELOPE_SIZE - 4) :
    pack proofType payload
      = .ok ([VERSION, proofType, BitVec.ofNat 8 (payload.length >>> 8),
            BitVec.ofNat 8 payload.length]
          ++ (payload ++ List.replicate (ENVELOPE_SIZE - 4 - payload.length) 0)) := by
  unfold pack
  rw [revertIf_bind_of_neg (not_lt_of_ge hfit)]
  refine congrArg Except.ok ?_
  have hzeros : List.replicate ENVELOPE_SIZE (0 : BitVec 8)
      = [0, 0, 0, 0] ++ List.replicate (ENVELOPE_SIZE - 4) 0 := by rfl
  rw [hzeros]
  show copyPayload payload ([VERSION, proofType, BitVec.ofNat 8 (payload.length >>> 8),
    BitVec.ofNat 8 payload.length] ++ List.replicate (ENVELOPE_SIZE - 4) 0) = _
  have hcopy := foldl_set_append [VERSION, proofType, BitVec.ofNat 8 (payload.length >>> 8),
    BitVec.ofNat 8 payload.length] payload (List.replicate (ENVELOPE_SIZE - 4) 0)
    payload.length le_rfl (by rwa [List.length_replicate])
  rw [List.take_length, List.drop_replicate] at hcopy
  exact hcopy

/-- Reading what is there. -/
theorem mapM_orRevert (envelope : Bytes) {n : ℕ} (hn : 4 + n ≤ envelope.length) :
    (List.range n).mapM (fun i => orRevert Error.indexOutOfBounds envelope[4 + i]?)
      = .ok ((envelope.drop 4).take n) := by
  induction n with
  | zero => rfl
  | succ n ih =>
    have hlt : 4 + n < envelope.length := hn
    have hdrop : n < (envelope.drop 4).length := by
      rw [List.length_drop]
      omega
    rw [List.range_succ, List.mapM_append, ih (Nat.le_of_succ_le hn), List.mapM_cons,
      List.getElem?_eq_getElem hlt, List.take_succ_eq_append_getElem hdrop, List.getElem_drop]
    rfl

/-- **An envelope is read** up to its length, when it has the size, the version
and that much behind its header. -/
theorem unpack_of_header {proofType hi lo : BitVec 8} {body : Bytes}
    (hsize : body.length = ENVELOPE_SIZE - 4)
    (hlength : (payloadLength hi lo).toNat ≤ body.length) :
    unpack ([VERSION, proofType, hi, lo] ++ body)
      = .ok (proofType, body.take (payloadLength hi lo).toNat) := by
  have henvelope : ([VERSION, proofType, hi, lo] ++ body).length = ENVELOPE_SIZE := by
    rw [List.length_append, hsize]
    rfl
  unfold unpack
  rw [revertIf_bind_of_neg (not_not.mpr henvelope)]
  show (do
    let payload ← (List.range (payloadLength hi lo).toNat).mapM
      (fun i => orRevert Error.indexOutOfBounds ([VERSION, proofType, hi, lo] ++ body)[4 + i]?)
    pure (proofType, payload)) = _
  rw [mapM_orRevert _ (by
    rw [List.length_append]
    exact Nat.add_le_add_left hlength 4)]
  rfl

/-- **The contracts read back what they packed.** -/
theorem unpack_pack {proofType : BitVec 8} {payload envelope : Bytes}
    (h : pack proofType payload = .ok envelope) :
    unpack envelope = .ok (proofType, payload) := by
  have hfit : payload.length ≤ ENVELOPE_SIZE - 4 :=
    not_lt.mp ((revertIf_bind_eq_ok _ _ _ _).mp h).1
  rw [pack_eq proofType hfit] at h
  cases h
  have hbody : (payload
      ++ List.replicate (ENVELOPE_SIZE - 4 - payload.length) (0 : BitVec 8)).length
        = ENVELOPE_SIZE - 4 := by
    rw [List.length_append, List.length_replicate, Nat.add_sub_cancel' hfit]
  have hlength := payloadLength_ofNat (n := payload.length) (hfit.trans_lt (by decide))
  rw [unpack_of_header hbody (by rw [hlength, List.length_append]; exact Nat.le_add_right _ _),
    hlength, List.take_left]

/-- **A dummy envelope** has no payload. -/
theorem unpack_createDummy : unpack createDummy = .ok (TYPE_DUMMY, []) := by
  have hdummy : createDummy
      = [VERSION, TYPE_DUMMY, 0, 0] ++ List.replicate (ENVELOPE_SIZE - 4) 0 := by rfl
  rw [hdummy, unpack_of_header List.length_replicate (Nat.zero_le _)]
  rfl

/-! ## The envelopes of the coprocessor -/

open LumoraProver (paddedProofEnvelope)

/-- **The contracts read a proof from the coprocessor's envelope.** -/
def Unpacked (random : ℕ → BitVec 8) (proof : Bytes) : Prop :=
  ∃ proofType, unpack (paddedProofEnvelope random proof ENVELOPE_SIZE) = .ok (proofType, proof)

/-- **The version is the first byte of the length**, which is zero. -/
theorem unpack_paddedProofEnvelope (random : ℕ → BitVec 8) {proof : Bytes}
    (hfit : proof.length ≤ ENVELOPE_SIZE - 4) :
    unpack (paddedProofEnvelope random proof ENVELOPE_SIZE) = .error .unsupportedVersion := by
  have hlength := LumoraProver.length_paddedProofEnvelope random proof ENVELOPE_SIZE
  have hfirst : (paddedProofEnvelope random proof ENVELOPE_SIZE).getD 0 0 = 0 := by
    have hzero : proof.length / 256 / 256 / 256 = 0 := by
      have hsize : proof.length ≤ 2044 := hfit
      omega
    rw [LumoraProver.paddedProofEnvelope_of_le random (Nat.add_le_of_le_sub' (by decide) hfit)]
    show BitVec.ofNat 8 (proof.length / 256 / 256 / 256) = 0
    rw [hzero]
    rfl
  unfold unpack
  rw [revertIf_bind_of_neg (not_not.mpr hlength), hfirst]
  exact revertIf_bind_of_pos (by decide) _ _

/-- **The contracts read no envelope of the coprocessor**, whatever proof that
fits is in it. -/
theorem not_unpacked (random : ℕ → BitVec 8) (proof : Bytes)
    (hfit : proof.length ≤ ENVELOPE_SIZE - 4) : ¬ Unpacked random proof := by
  rintro ⟨proofType, h⟩
  rw [unpack_paddedProofEnvelope random hfit] at h
  cases h

/-- A proof of four bytes, which the contracts' own envelope would hold. -/
theorem not_unpacked_deadbeef : ¬ Unpacked (fun _ => 0) [0xde, 0xad, 0xbe, 0xef] :=
  not_unpacked _ _ (by decide)

/-- Not all proofs that fit are read. -/
theorem fitting_proof_not_unpacked :
    ¬ ∀ random proof, proof.length ≤ ENVELOPE_SIZE - 4 → Unpacked random proof := by
  intro hall
  obtain ⟨proofType, h⟩ := hall (fun _ => 0) [0xde, 0xad, 0xbe, 0xef] (by decide)
  rw [unpack_paddedProofEnvelope (fun _ => 0) (by decide)] at h
  cases h

end ProofEnvelope
