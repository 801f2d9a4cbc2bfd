import SoulPrivacy.Circuits
import SoulPrivacy.LumoraProver
import SoulPrivacy.PoseidonAgreement

/-!
# One hash for the clients, the circuits and the contracts

The contracts (`DomainNullifier.sol`), the Python wallet (`wallet.py`), the
circuits and the prover of the coprocessor hash words, strings of bytes and field
elements. With one hash for field elements behind all of them (`SamePoseidon`)
what each computes is an expression in this hash: the lemmas of this module say
which one. Such a hash is taken as a function of the list of its inputs, of any
length.
-/

/-! ## `DomainNullifier.sol` -/

namespace DomainNullifier

/-- `computeV1`. -/
def computeV1 (spendingKey commitment : Uint256) : Uint256 :=
  PoseidonHasher.hash spendingKey commitment

/-- **`computeV2`.** -/
def computeV2 (spendingKey commitment chainId appId : Uint256) : Uint256 :=
  let inner := PoseidonHasher.hash spendingKey commitment
  let domain := PoseidonHasher.hash chainId appId
  PoseidonHasher.hash inner domain

/-- `computeDomainTag`. -/
def computeDomainTag (chainId appId : Uint256) : Uint256 := PoseidonHasher.hash chainId appId

/-- `verifyV2`. -/
def verifyV2 (nullifier spendingKey commitment chainId appId : Uint256) : Bool :=
  nullifier == computeV2 spendingKey commitment chainId appId

end DomainNullifier

/-! ## `wallet.py` -/

namespace PythonWallet

open PythonPoseidon (poseidonHash FIELD_MODULUS)

/-- `poseidon_hash_bytes`. -/
def poseidonHashBytes (left right : Bytes) : Bytes :=
  let lInt := beNat left % FIELD_MODULUS
  let rInt := beNat right % FIELD_MODULUS
  beBytes 32 (poseidonHash lInt rInt)

/-- **`compute_nullifier_v2`**, of a wallet with a spending key and a domain. -/
def computeNullifierV2 (spendingKey : Bytes) (chainId appId : ℕ) (commitment : Bytes) : Bytes :=
  let inner := poseidonHashBytes spendingKey commitment
  let domain := beBytes 32 (poseidonHash chainId appId)
  poseidonHashBytes inner domain

/-- **`_compute_commitment`.** -/
def computeCommitment (pubkey : Bytes) (value : ℕ) (blinding : Bytes) : Bytes :=
  beBytes 32 (poseidonHash (poseidonHash (beNat pubkey) value) (beNat blinding))

end PythonWallet

namespace ClientHashes

open Bn254 (Element toField ofField)
open PythonPoseidon (poseidonHash)

/-- **The hashes of contracts and circuits are members of one family.** -/
structure SamePoseidon (H : List Element → Element) (P : Circuit.Poseidon) : Prop where
  contracts : ∀ a b : Uint256, toField (PoseidonHasher.hash a b) = H [toField a, toField b]
  hash2 : ∀ x y, P.hash2 x y = H [x, y]
  hash3 : ∀ x y z, P.hash3 x y z = H [x, y, z]

/-- **No two of some inputs have the same hash**, unless they are the same. -/
def CollisionFree (H : List Element → Element) (queries : List (List Element)) : Prop :=
  ∀ x ∈ queries, ∀ y ∈ queries, H x = H y → x = y

/-- It is enough that the hashes are different. -/
theorem CollisionFree.of_nodup {H : List Element → Element} {queries : List (List Element)}
    (h : (queries.map H).Nodup) : CollisionFree H queries :=
  fun _ hx _ hy hxy => List.inj_on_of_nodup_map h hx hy hxy

/-! ## Numbers and field elements -/

theorem beNat_toBytes (w : Bytes32) : beNat w.toBytes = w.toNat := by
  rw [Bytes32.toBytes_eq_beBytes, beNat_beBytes]
  exact Nat.mod_eq_of_lt w.isLt

/-- A number below the order is the element of that name. -/
theorem natCast_eq_iff {n : ℕ} (hn : n < Bn254.r) (x : Element) :
    ((n : ℕ) : Element) = x ↔ n = x.val := by
  constructor
  · rintro rfl
    exact (ZMod.val_cast_of_lt hn).symm
  · rintro rfl
    exact ZMod.natCast_zmod_val x

/-- Numbers with different remainders are different elements. -/
theorem nodup_map_natCast {l : List ℕ} (h : (l.map (· % Bn254.r)).Nodup) :
    (l.map (fun n => ((n : ℕ) : Element))).Nodup := by
  have hval : (l.map (fun n => ((n : ℕ) : Element))).map ZMod.val = l.map (· % Bn254.r) := by
    rw [List.map_map]
    exact List.map_congr_left (fun n _ => ZMod.val_natCast _ n)
  exact List.Nodup.of_map ZMod.val (hval ▸ h)

theorem poseidonHash_lt (left right : ℕ) : poseidonHash left right < Bn254.r := by
  rw [PoseidonAgreement.python_poseidonHash]
  exact Nat.mod_lt _ (by decide)

/-- The SDK reduces its inputs. -/
theorem poseidonHash_mod (left right : ℕ) :
    poseidonHash (left % Bn254.r) (right % Bn254.r) = poseidonHash left right := by
  show PythonPoseidon.permute ⟨0, left % Bn254.r % Bn254.r, right % Bn254.r % Bn254.r⟩
    = PythonPoseidon.permute ⟨0, left % Bn254.r, right % Bn254.r⟩
  rw [Nat.mod_mod, Nat.mod_mod]

/-- **What the SDK hashes**, as a field element, is what the contracts hash. -/
theorem natCast_poseidonHash (left right : ℕ) :
    ((poseidonHash left right : ℕ) : Element)
      = toField (PoseidonHasher.hash (ofField left) (ofField right)) := by
  unfold toField
  rw [PoseidonAgreement.toNat_hash, ← PoseidonAgreement.python_poseidonHash,
    Bn254.toNat_ofField, Bn254.toNat_ofField, ZMod.val_natCast, ZMod.val_natCast,
    poseidonHash_mod]

/-- A hash that is written down in 32 bytes. -/
theorem beNat_beBytes_poseidonHash (left right : ℕ) :
    beNat (beBytes 32 (poseidonHash left right)) = poseidonHash left right := by
  rw [beNat_beBytes]
  exact Nat.mod_eq_of_lt ((poseidonHash_lt left right).trans (by decide))

/-! ## What each computes -/

variable {H : List Element → Element} {P : Circuit.Poseidon}

/-- **The SDK's hash.** -/
theorem SamePoseidon.python (h : SamePoseidon H P) (left right : ℕ) :
    ((poseidonHash left right : ℕ) : Element) = H [(left : Element), (right : Element)] := by
  rw [natCast_poseidonHash, h.contracts, Bn254.toField_ofField, Bn254.toField_ofField]

/-- … and of strings. -/
theorem SamePoseidon.pythonBytes (h : SamePoseidon H P) (left right : Bytes) :
    ((beNat (PythonWallet.poseidonHashBytes left right) : ℕ) : Element)
      = H [(beNat left : Element), (beNat right : Element)] := by
  show ((beNat (beBytes 32 (poseidonHash (beNat left % Bn254.r) (beNat right % Bn254.r))) : ℕ)
    : Element) = _
  rw [beNat_beBytes_poseidonHash, poseidonHash_mod, h.python]

/-- **The nullifier of the contracts.** -/
theorem SamePoseidon.computeV2 (h : SamePoseidon H P)
    (spendingKey commitment chainId appId : Uint256) :
    toField (DomainNullifier.computeV2 spendingKey commitment chainId appId)
      = H [H [toField spendingKey, toField commitment], H [toField chainId, toField appId]] := by
  show toField (PoseidonHasher.hash (PoseidonHasher.hash spendingKey commitment)
    (PoseidonHasher.hash chainId appId)) = _
  rw [h.contracts, h.contracts, h.contracts]

/-- **The nullifier of the circuits.** -/
theorem SamePoseidon.circuitNullifier (h : SamePoseidon H P)
    (secret commitment chainId appId : Element) :
    Circuit.computeNullifierV2 P secret commitment chainId appId
      = H [H [secret, commitment], H [chainId, appId]] := by
  show P.hash2 (P.hash2 secret commitment) (P.hash2 chainId appId) = _
  rw [h.hash2, h.hash2, h.hash2]

/-- **The nullifier of the wallet.** -/
theorem SamePoseidon.walletNullifier (h : SamePoseidon H P) (spendingKey : Bytes)
    (chainId appId : ℕ) (commitment : Bytes) :
    ((beNat (PythonWallet.computeNullifierV2 spendingKey chainId appId commitment) : ℕ) : Element)
      = H [H [(beNat spendingKey : Element), (beNat commitment : Element)],
          H [(chainId : Element), (appId : Element)]] := by
  show ((beNat (PythonWallet.poseidonHashBytes
      (PythonWallet.poseidonHashBytes spendingKey commitment)
      (beBytes 32 (poseidonHash chainId appId))) : ℕ) : Element) = _
  rw [h.pythonBytes, h.pythonBytes, beNat_beBytes_poseidonHash, h.python]

/-- **The commitment of the wallet.** -/
theorem SamePoseidon.walletCommitment (h : SamePoseidon H P) (pubkey : Bytes) (value : ℕ)
    (blinding : Bytes) :
    ((beNat (PythonWallet.computeCommitment pubkey value blinding) : ℕ) : Element)
      = H [H [(beNat pubkey : Element), (value : Element)], (beNat blinding : Element)] := by
  unfold PythonWallet.computeCommitment
  rw [beNat_beBytes_poseidonHash, h.python, h.python]

/-! ## An example of such a hash -/

/-- The contracts' hash, of field elements. -/
def contractHash2 (x y : Element) : Element :=
  toField (PoseidonHasher.hash (ofField x) (ofField y))

/-- **A family with the contracts' hash for two inputs.** For three inputs it
has one value only, which is the library's for 1, 2 and 3. -/
def exampleFamily : List Element → Element
  | [x, y] => contractHash2 x y
  | _ => toField 6542985608222806190361240322586112750744169038454362455181422643027100751666

/-- The hashes of the circuits in it. -/
def examplePoseidon : Circuit.Poseidon :=
  ⟨fun x y => exampleFamily [x, y], fun x y z => exampleFamily [x, y, z]⟩

theorem exampleFamily_same : SamePoseidon exampleFamily examplePoseidon where
  contracts a b := by
    have hname : ∀ w : Uint256, Bn254.SameElement w (ofField (toField w)) := by
      intro w
      rw [← Bn254.toField_eq_iff, Bn254.toField_ofField]
    exact congrArg toField (PoseidonHasher.hash_congr (hname a) (hname b))
  hash2 _ _ := rfl
  hash3 _ _ _ := rfl

/-- Its values are numbers that the SDK computes. -/
theorem exampleFamily_two (m n : ℕ) :
    exampleFamily [(m : Element), (n : Element)] = ((poseidonHash m n : ℕ) : Element) :=
  (natCast_poseidonHash m n).symm

end ClientHashes
