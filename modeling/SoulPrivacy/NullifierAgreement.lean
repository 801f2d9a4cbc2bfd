import SoulPrivacy.ClientHashes

/-!
# The nullifiers of the clients

The contracts, the circuits and the Python wallet hash the key and the
commitment, then the two identifiers of the domain, and then both hashes. With
one hash they compute the same nullifier, whatever the inputs are
(`SamePoseidon.others_agree`).

The prover of the coprocessor is documented to do the same, but works on bytes.
Key and commitment are three chunks, so the inner hash has three inputs. The
inner hash and the domain are two: the one is the inner hash without its last
byte, the other that byte with the identifiers behind it, which are not hashed
before. Unless two different inputs have the same hash, this is the nullifier of
the others exactly where both inputs of the last hash happen to be theirs
(`nullifiersAgree_iff`).
-/

namespace NullifierAgreement

open Bn254 (Element toField ofField)
open ClientHashes (SamePoseidon CollisionFree exampleFamily examplePoseidon)

variable (H : List Element → Element) (P : Circuit.Poseidon) (secret commitment : Bytes32)
  (chainId appId : BitVec 32)

/-- The inner hash of the prover, of key and commitment cut into three. -/
def proverInner : ℕ :=
  (H (LumoraProver.inputs (secret.toBytes ++ commitment.toBytes))).val

/-- The identifiers of the domain behind the last byte of the inner hash. -/
def proverDomain : ℕ :=
  proverInner H secret commitment % 256 * 2 ^ 64 + chainId.toNat * 2 ^ 32 + appId.toNat

/-- **What the prover hashes last.** -/
def proverFinal : List Element :=
  [((proverInner H secret commitment / 256 : ℕ) : Element),
    ((proverDomain H secret commitment chainId appId : ℕ) : Element)]

/-- The hash of key and commitment. -/
def inner : Element := H [toField secret, toField commitment]

/-- The hash of the domain. -/
def domain : Element := H [(chainId.toNat : Element), (appId.toNat : Element)]

/-- **All inputs that are hashed**, by the prover and by the others. -/
def queries : List (List Element) :=
  [[toField secret, toField commitment], [(chainId.toNat : Element), (appId.toNat : Element)],
    [inner H secret commitment, domain H chainId appId],
    LumoraProver.inputs (secret.toBytes ++ commitment.toBytes),
    proverFinal H secret commitment chainId appId]

/-! ## The prover -/

theorem proverInner_lt : proverInner H secret commitment < Bn254.r := ZMod.val_lt _

theorem proverDomain_lt : proverDomain H secret commitment chainId appId < 256 ^ 9 := by
  have hbyte : proverInner H secret commitment % 256 < 256 := Nat.mod_lt _ (Nat.succ_pos 255)
  have hchain : chainId.toNat < 2 ^ 32 := chainId.isLt
  have happ : appId.toNat < 2 ^ 32 := appId.isLt
  unfold proverDomain
  omega

/-- **The inner hash and the domain are 40 bytes**, of which the last nine are
hashed apart. -/
theorem inputs_final :
    LumoraProver.inputs
        ((LumoraProver.poseidonHash H (secret.toBytes ++ commitment.toBytes)).toBytes
          ++ (beBytes 4 chainId.toNat ++ beBytes 4 appId.toNat))
      = proverFinal H secret commitment chainId appId := by
  have hchain : chainId.toNat < 2 ^ 32 := chainId.isLt
  have happ : appId.toNat < 2 ^ 32 := appId.isLt
  have hinner : proverInner H secret commitment < 256 ^ 32 :=
    (proverInner_lt H secret commitment).trans (by decide)
  have hword : (LumoraProver.poseidonHash H (secret.toBytes ++ commitment.toBytes)).toBytes
      = beBytes 32 (proverInner H secret commitment) := by
    rw [Bytes32.toBytes_eq_beBytes]
    unfold LumoraProver.poseidonHash
    rw [Bn254.toNat_ofField]
    rfl
  have hdomain : chainId.toNat * 256 ^ 4 + appId.toNat < 256 ^ (4 + 4) := by omega
  rw [hword, beBytes_append 4 4 chainId.toNat happ,
    beBytes_append 32 (4 + 4) (proverInner H secret commitment) hdomain]
  show LumoraProver.inputs (beBytes (31 + 9) (proverInner H secret commitment * 256 ^ (4 + 4)
    + (chainId.toNat * 256 ^ 4 + appId.toNat))) = _
  have hfront : (proverInner H secret commitment * 256 ^ (4 + 4)
      + (chainId.toNat * 256 ^ 4 + appId.toNat)) / 256 ^ 9 % 256 ^ 31
        = proverInner H secret commitment / 256 := by
    omega
  have hlast : (proverInner H secret commitment * 256 ^ (4 + 4)
      + (chainId.toNat * 256 ^ 4 + appId.toNat)) % 256 ^ 9
        = proverDomain H secret commitment chainId appId := by
    unfold proverDomain
    omega
  rw [LumoraProver.inputs_beBytes, LumoraProver.inputs_beBytes_of_le (Nat.succ_pos 8)
    (Nat.le_of_ble_eq_true rfl), hfront, hlast]
  rfl

/-- **The nullifier of the prover.** -/
theorem toField_computeNullifierV2 :
    toField (LumoraProver.computeNullifierV2 H secret commitment chainId appId)
      = H (proverFinal H secret commitment chainId appId) := by
  show toField (LumoraProver.poseidonHash H _) = _
  rw [LumoraProver.toField_poseidonHash, inputs_final]

/-! ## The others -/

variable {H P}

/-- An identifier is the same field element as a number and as a word. -/
theorem toField_setWidth (n : BitVec 32) : toField (n.setWidth 256) = (n.toNat : Element) := by
  unfold toField
  rw [BitVec.toNat_setWidth, Nat.mod_eq_of_lt (n.isLt.trans (by decide))]

/-- **The circuits, the contracts and the wallet agree.** -/
theorem others_agree (h : SamePoseidon H P) :
    Circuit.computeNullifierV2 P (toField secret) (toField commitment)
        (chainId.toNat : Element) (appId.toNat : Element)
      = H [inner H secret commitment, domain H chainId appId]
    ∧ toField (DomainNullifier.computeV2 secret commitment (chainId.setWidth 256)
          (appId.setWidth 256))
        = H [inner H secret commitment, domain H chainId appId]
    ∧ ((beNat (PythonWallet.computeNullifierV2 secret.toBytes chainId.toNat appId.toNat
          commitment.toBytes) : ℕ) : Element)
        = H [inner H secret commitment, domain H chainId appId] := by
  refine ⟨h.circuitNullifier _ _ _ _, ?_, ?_⟩
  · rw [h.computeV2, toField_setWidth, toField_setWidth]
    rfl
  · rw [h.walletNullifier, ClientHashes.beNat_toBytes, ClientHashes.beNat_toBytes]
    rfl

/-! ## All of them -/

variable (H P)

/-- **All four nullifiers are the same field element.** -/
def NullifiersAgree : Prop :=
  ∃ nullifier : Element,
    toField (LumoraProver.computeNullifierV2 H secret commitment chainId appId) = nullifier
    ∧ ((beNat (PythonWallet.computeNullifierV2 secret.toBytes chainId.toNat appId.toNat
        commitment.toBytes) : ℕ) : Element) = nullifier
    ∧ Circuit.computeNullifierV2 P (toField secret) (toField commitment)
        (chainId.toNat : Element) (appId.toNat : Element) = nullifier
    ∧ toField (DomainNullifier.computeV2 secret commitment (chainId.setWidth 256)
        (appId.setWidth 256)) = nullifier

/-- **The inputs of the prover's last hash happen to be those of the others**:
the inner hash of three chunks is, but for its last byte, the hash of key and
commitment, and this byte with the identifiers behind it is the hash of the
identifiers. -/
def Coincide : Prop :=
  proverInner H secret commitment / 256 = (inner H secret commitment).val
    ∧ proverDomain H secret commitment chainId appId = (domain H chainId appId).val

variable {H P}

theorem proverFinal_eq_iff : proverFinal H secret commitment chainId appId
      = [inner H secret commitment, domain H chainId appId]
    ↔ Coincide H secret commitment chainId appId := by
  unfold proverFinal Coincide
  rw [List.cons.injEq, List.cons.injEq, and_iff_left rfl,
    ClientHashes.natCast_eq_iff ((Nat.div_le_self _ _).trans_lt (proverInner_lt _ _ _)),
    ClientHashes.natCast_eq_iff ((proverDomain_lt _ _ _ _ _).trans (by decide))]

/-- **The prover agrees with the others** when the last hash does. -/
theorem nullifiersAgree_iff_hash (h : SamePoseidon H P) :
    NullifiersAgree H P secret commitment chainId appId
      ↔ H (proverFinal H secret commitment chainId appId)
        = H [inner H secret commitment, domain H chainId appId] := by
  obtain ⟨hcircuit, hcontract, hwallet⟩ := others_agree secret commitment chainId appId h
  constructor
  · rintro ⟨nullifier, hprover, -, hcircuit', -⟩
    rw [← toField_computeNullifierV2 H, hprover, ← hcircuit', hcircuit]
  · intro hhash
    exact ⟨_, (toField_computeNullifierV2 H secret commitment chainId appId).trans hhash, hwallet,
      hcircuit, hcontract⟩

/-- **All clients agree on a nullifier** exactly where the inputs of the last
hash coincide. -/
theorem nullifiersAgree_iff (h : SamePoseidon H P)
    (hfree : CollisionFree H (queries H secret commitment chainId appId)) :
    NullifiersAgree H P secret commitment chainId appId
      ↔ Coincide H secret commitment chainId appId := by
  rw [nullifiersAgree_iff_hash secret commitment chainId appId h, ← proverFinal_eq_iff]
  constructor
  · exact hfree _ (by simp [queries]) _ (by simp [queries])
  · exact congrArg H

/-! ## A key and a commitment -/

/-- A key, a commitment – their bytes are cut into 1, 2 and 3 – and a domain. -/
def exampleKey : Bytes32 := 256

/-- … -/
def exampleCommitment : Bytes32 := 131075

/-- … -/
def exampleChain : BitVec 32 := 43113

theorem inputs_example :
    LumoraProver.inputs (exampleKey.toBytes ++ exampleCommitment.toBytes)
      = [((1 : ℕ) : Element), ((2 : ℕ) : Element), ((3 : ℕ) : Element)] := by
  have hcommitment : exampleCommitment.toNat < 256 ^ 32 := exampleCommitment.isLt
  rw [Bytes32.toBytes_eq_beBytes, Bytes32.toBytes_eq_beBytes,
    beBytes_append 32 32 exampleKey.toNat hcommitment]
  show LumoraProver.inputs (beBytes (31 + (31 + 2)) _) = _
  rw [LumoraProver.inputs_beBytes, LumoraProver.inputs_beBytes,
    LumoraProver.inputs_beBytes_of_le (Nat.succ_pos 1) (Nat.le_of_ble_eq_true rfl)]
  rfl

/-- The inner hash of the prover there. -/
def exampleInner : ℕ :=
  6542985608222806190361240322586112750744169038454362455181422643027100751666

theorem proverInner_example :
    proverInner exampleFamily exampleKey exampleCommitment = exampleInner := by
  unfold proverInner
  rw [inputs_example]
  show (toField 6542985608222806190361240322586112750744169038454362455181422643027100751666).val
    = _
  unfold toField
  exact ZMod.val_cast_of_lt (by decide)

/-- The hash of the key and the commitment there. -/
def exampleLeft : ℕ := PythonPoseidon.poseidonHash 256 131075

/-- The hash of the domain there. -/
def exampleRight : ℕ := PythonPoseidon.poseidonHash 43113 1

theorem inner_example :
    inner exampleFamily exampleKey exampleCommitment = (exampleLeft : Element) :=
  ClientHashes.exampleFamily_two 256 131075

theorem domain_example : domain exampleFamily exampleChain 1 = (exampleRight : Element) :=
  ClientHashes.exampleFamily_two 43113 1

/-- The hashes of all inputs, as numbers. -/
def exampleHashes : List ℕ :=
  [exampleLeft, exampleRight, PythonPoseidon.poseidonHash exampleLeft exampleRight, exampleInner,
    PythonPoseidon.poseidonHash (exampleInner / 256)
      (exampleInner % 256 * 2 ^ 64 + 43113 * 2 ^ 32 + 1)]

theorem exampleHashes_nodup : (exampleHashes.map (· % Bn254.r)).Nodup := by
  decide +kernel

theorem map_queries_example :
    (queries exampleFamily exampleKey exampleCommitment exampleChain 1).map exampleFamily
      = exampleHashes.map (fun n => (n : Element)) := by
  have hlast : proverDomain exampleFamily exampleKey exampleCommitment exampleChain 1
      = exampleInner % 256 * 2 ^ 64 + 43113 * 2 ^ 32 + 1 := by
    unfold proverDomain
    rw [proverInner_example]
    rfl
  unfold queries proverFinal
  rw [hlast, proverInner_example, inputs_example, inner_example, domain_example]
  show [inner exampleFamily exampleKey exampleCommitment, domain exampleFamily exampleChain 1,
    exampleFamily [(exampleLeft : Element), (exampleRight : Element)], (exampleInner : Element),
    exampleFamily [((exampleInner / 256 : ℕ) : Element),
      ((exampleInner % 256 * 2 ^ 64 + 43113 * 2 ^ 32 + 1 : ℕ) : Element)]] = _
  rw [inner_example, domain_example, ClientHashes.exampleFamily_two,
    ClientHashes.exampleFamily_two]
  rfl

/-- **No two of these inputs have the same hash.** -/
theorem collisionFree_example :
    CollisionFree exampleFamily
      (queries exampleFamily exampleKey exampleCommitment exampleChain 1) := by
  refine CollisionFree.of_nodup ?_
  rw [map_queries_example]
  exact ClientHashes.nodup_map_natCast exampleHashes_nodup

theorem not_coincide_example :
    ¬ Coincide exampleFamily exampleKey exampleCommitment exampleChain 1 := by
  rintro ⟨hinner, -⟩
  rw [proverInner_example, inner_example, ZMod.val_natCast] at hinner
  revert hinner
  decide +kernel

/-- The clients do not agree on this key and this commitment. -/
theorem example_agree_iff :
    NullifiersAgree exampleFamily examplePoseidon exampleKey exampleCommitment exampleChain 1
      ↔ Coincide exampleFamily exampleKey exampleCommitment exampleChain 1 :=
  nullifiersAgree_iff _ _ _ _ ClientHashes.exampleFamily_same collisionFree_example

/-- Not all nullifiers are the same for all clients. -/
theorem nullifiers_differ :
    ¬ ∀ (H : List Element → Element) (P : Circuit.Poseidon) (secret commitment : Bytes32)
        (chainId appId : BitVec 32),
      SamePoseidon H P → CollisionFree H (queries H secret commitment chainId appId) →
        NullifiersAgree H P secret commitment chainId appId := by
  intro hall
  have hagree := (nullifiersAgree_iff_hash _ _ _ _ ClientHashes.exampleFamily_same).mp
    (hall _ _ _ _ _ _ ClientHashes.exampleFamily_same collisionFree_example)
  refine not_coincide_example ((proverFinal_eq_iff _ _ _ _).mp ?_)
  exact collisionFree_example _ (by simp [queries]) _ (by simp [queries]) hagree

end NullifierAgreement
