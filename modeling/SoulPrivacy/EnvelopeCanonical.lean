import SoulPrivacy.ProofEnvelope
import Mathlib.Data.Set.Function

/-!
# Envelopes with the same proof

`pack` fills an envelope up with zeros, and `unpack` stops where the payload
ends. It never looks at the bytes behind, so they may be anything: whoever
hands on an envelope can change them, and the proof that is read stays the
same.

What `unpack` does look at is `Accepted`: the size, the version, and (as an
access behind the end panics) that the length in the header is one that fits.
An accepted envelope is the one that `pack` makes of what is read if and only
if the bytes behind the payload are zero (`repacks_iff`).
-/

namespace ProofEnvelope

/-- The length that the header of an envelope gives. -/
def headerLength (envelope : Bytes) : ℕ :=
  (payloadLength (envelope.getD 2 0) (envelope.getD 3 0)).toNat

/-- **What `unpack` asks of an envelope.** -/
def Accepted (envelope : Bytes) : Prop :=
  envelope.length = ENVELOPE_SIZE ∧ envelope.getD 0 0 = VERSION
    ∧ headerLength envelope ≤ ENVELOPE_SIZE - 4

/-- **What `pack` leaves behind the payload.** -/
def ZeroPadded (envelope : Bytes) : Prop :=
  envelope.drop (4 + headerLength envelope)
    = List.replicate (ENVELOPE_SIZE - 4 - headerLength envelope) 0

/-! ## What is accepted -/

/-- The header of an envelope of the right size and version. -/
theorem exists_header {envelope : Bytes} (hsize : envelope.length = ENVELOPE_SIZE)
    (hversion : envelope.getD 0 0 = VERSION) :
    ∃ proofType hi lo body, envelope = [VERSION, proofType, hi, lo] ++ body
      ∧ body.length = ENVELOPE_SIZE - 4 := by
  match envelope, hsize, hversion with
  | version :: proofType :: hi :: lo :: body, hsize, hversion =>
    have hbody : body.length + 4 = ENVELOPE_SIZE := hsize
    refine ⟨proofType, hi, lo, body, ?_, by omega⟩
    rw [← show version = VERSION from hversion]
    rfl

/-- Reading as far as an access behind the end panics. -/
theorem le_length_of_mapM {envelope payload : Bytes} {n : ℕ} (hn : n ≠ 0)
    (h : (List.range n).mapM (fun i => orRevert Error.indexOutOfBounds envelope[4 + i]?)
      = .ok payload) : 4 + n ≤ envelope.length := by
  cases n with
  | zero => exact absurd rfl hn
  | succ n =>
    rw [List.range_succ, List.mapM_append] at h
    obtain ⟨_, -, h⟩ := (Except.bind_eq_ok _ _ _).mp h
    obtain ⟨_, hlast, -⟩ := (Except.bind_eq_ok _ _ _).mp h
    rw [List.mapM_cons] at hlast
    obtain ⟨b, hb, -⟩ := (Except.bind_eq_ok _ _ _).mp hlast
    obtain ⟨hlt, -⟩ := List.getElem?_eq_some_iff.mp ((orRevert_eq_ok _ _ _).mp hb)
    exact hlt

/-- **What is read was accepted.** -/
theorem accepted_of_unpack {envelope : Bytes} {r : BitVec 8 × Bytes}
    (h : unpack envelope = .ok r) : Accepted envelope := by
  obtain ⟨hsize, h⟩ := (revertIf_bind_eq_ok _ _ _ _).mp h
  obtain ⟨hversion, h⟩ := (revertIf_bind_eq_ok _ _ _ _).mp h
  obtain ⟨payload, hread, -⟩ := (Except.bind_eq_ok _ _ _).mp h
  have hsize := not_not.mp hsize
  refine ⟨hsize, not_not.mp hversion, ?_⟩
  by_cases hzero : headerLength envelope = 0
  · rw [hzero]
    exact Nat.zero_le _
  · have hle := le_length_of_mapM hzero hread
    rw [hsize] at hle
    exact Nat.le_sub_of_add_le' hle

/-! ## What is packed again -/

/-- **What is read of an accepted envelope**, packed again, is the header and
the payload with zeros behind them. -/
theorem pack_take {proofType hi lo : BitVec 8} {body : Bytes}
    (hsize : body.length = ENVELOPE_SIZE - 4)
    (hlength : (payloadLength hi lo).toNat ≤ body.length) :
    pack proofType (body.take (payloadLength hi lo).toNat)
      = .ok ([VERSION, proofType, hi, lo] ++ (body.take (payloadLength hi lo).toNat
          ++ List.replicate (ENVELOPE_SIZE - 4 - (payloadLength hi lo).toNat) 0)) := by
  have htake : (body.take (payloadLength hi lo).toNat).length = (payloadLength hi lo).toNat :=
    List.length_take_of_le hlength
  have hfit : (body.take (payloadLength hi lo).toNat).length ≤ ENVELOPE_SIZE - 4 := by
    rwa [htake, ← hsize]
  -- the two bytes of the length are the ones that were read
  have hhi : BitVec.ofNat 8 ((payloadLength hi lo).toNat >>> 8) = hi := by
    apply BitVec.eq_of_toNat_eq
    rw [BitVec.toNat_ofNat, toNat_payloadLength, Nat.shiftRight_eq_div_pow]
    have hhi := hi.isLt
    have hlo := lo.isLt
    omega
  have hlo : BitVec.ofNat 8 (payloadLength hi lo).toNat = lo := by
    apply BitVec.eq_of_toNat_eq
    rw [BitVec.toNat_ofNat, toNat_payloadLength]
    have hlo := lo.isLt
    omega
  rw [pack_eq proofType hfit, htake, hhi, hlo]

/-- **Packing gives an accepted envelope back if and only if the bytes behind
its payload are zero.** -/
theorem repacks_iff {envelope : Bytes} (haccepted : Accepted envelope) :
    (∀ r, unpack envelope = .ok r → pack r.1 r.2 = .ok envelope) ↔ ZeroPadded envelope := by
  obtain ⟨hsize, hversion, hfit⟩ := haccepted
  obtain ⟨proofType, hi, lo, body, rfl, hbody⟩ := exists_header hsize hversion
  have hlength : (payloadLength hi lo).toNat ≤ body.length := hbody ▸ hfit
  have hpadding : ZeroPadded ([VERSION, proofType, hi, lo] ++ body)
      ↔ body.drop (payloadLength hi lo).toNat
        = List.replicate (ENVELOPE_SIZE - 4 - (payloadLength hi lo).toNat) 0 := by
    unfold ZeroPadded
    rw [Nat.add_comm]
    exact Iff.rfl
  rw [hpadding, unpack_of_header hbody hlength]
  constructor
  · intro h
    have hpack := h _ rfl
    rw [pack_take hbody hlength, Except.ok.injEq, List.append_cancel_left_eq] at hpack
    exact (List.append_cancel_left (hpack.trans (List.take_append_drop _ body).symm)).symm
  · rintro hdrop _ ⟨⟩
    rw [pack_take hbody hlength, ← hdrop, List.take_append_drop]

/-- **The envelopes of a set are in bijection with their proofs**: what is
packed is read back, a longer payload is not packed, and each accepted
envelope of the set is what packing makes of its proof. So no two of them
carry the same proof. -/
structure Bijective (envelopes : Set Bytes) : Prop where
  unpack_pack : ∀ proofType payload, payload.length ≤ ENVELOPE_SIZE - 4 →
    ∃ envelope, pack proofType payload = .ok envelope
      ∧ unpack envelope = .ok (proofType, payload)
  pack_longer : ∀ proofType payload, ENVELOPE_SIZE - 4 < payload.length →
    pack proofType payload = .error .payloadTooLarge
  headerLength_le : ∀ envelope ∈ envelopes, ∀ r, unpack envelope = .ok r →
    headerLength envelope ≤ ENVELOPE_SIZE - 4
  pack_unpack : ∀ envelope ∈ envelopes, ∀ r, unpack envelope = .ok r →
    pack r.1 r.2 = .ok envelope
  injOn : ∀ envelope ∈ envelopes, ∀ envelope' ∈ envelopes, ∀ r,
    unpack envelope = .ok r → unpack envelope' = .ok r → envelope = envelope'

/-- **Envelopes are in bijection with their proofs exactly when those that are
accepted have nothing but zeros behind their payload.** -/
theorem bijective_iff (envelopes : Set Bytes) :
    Bijective envelopes ↔ ∀ envelope ∈ envelopes, Accepted envelope → ZeroPadded envelope := by
  constructor
  · exact fun h envelope hmem haccepted => (repacks_iff haccepted).mp (h.pack_unpack envelope hmem)
  · intro h
    have hpack : ∀ envelope ∈ envelopes, ∀ r, unpack envelope = .ok r →
        pack r.1 r.2 = .ok envelope := fun envelope hmem r hr =>
      (repacks_iff (accepted_of_unpack hr)).mpr (h envelope hmem (accepted_of_unpack hr)) r hr
    exact {
      unpack_pack := fun proofType payload hfit =>
        ⟨_, pack_eq proofType hfit, ProofEnvelope.unpack_pack (pack_eq proofType hfit)⟩
      pack_longer := fun proofType payload hlong => revertIf_bind_of_pos hlong _ _
      headerLength_le := fun _ _ _ hr => (accepted_of_unpack hr).2.2
      pack_unpack := hpack
      injOn := fun envelope hmem envelope' hmem' r hr hr' =>
        Except.ok.inj ((hpack envelope hmem r hr).symm.trans (hpack envelope' hmem' r hr')) }

/-- A dummy envelope with its last byte changed. -/
def markedDummy : Bytes := [VERSION, TYPE_DUMMY, 0, 0] ++ (List.replicate 2043 0 ++ [1])

/-- **Two envelopes carry the same proof**, and only one of them is packed. -/
theorem not_bijective_markedDummy :
    unpack markedDummy = unpack createDummy ∧ markedDummy ≠ createDummy
      ∧ ¬ Bijective Set.univ := by
  have hmarked : unpack markedDummy = .ok (TYPE_DUMMY, []) :=
    unpack_of_header (by rw [List.length_append, List.length_replicate]; rfl) (Nat.zero_le _)
  have hne : markedDummy ≠ createDummy := by
    intro heq
    have hdummy : createDummy
        = [VERSION, TYPE_DUMMY, 0, 0] ++ List.replicate (ENVELOPE_SIZE - 4) 0 := by rfl
    have hbody := List.append_cancel_left (heq.trans hdummy)
    have hlast : (1 : BitVec 8) ∈ List.replicate (ENVELOPE_SIZE - 4) (0 : BitVec 8) :=
      hbody ▸ List.mem_append_right _ (List.mem_singleton_self 1)
    exact absurd (List.eq_of_mem_replicate hlast) (by decide)
  refine ⟨hmarked.trans unpack_createDummy.symm, hne, fun h => ?_⟩
  exact hne (h.injOn markedDummy (Set.mem_univ _) createDummy (Set.mem_univ _) _ hmarked
    unpack_createDummy)

end ProofEnvelope
