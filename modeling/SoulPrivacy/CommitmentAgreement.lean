import SoulPrivacy.ClientHashes
import SoulPrivacy.LumoraMerkle

/-!
# The commitments of the clients

A note has a secret, a random number and a value. The Python wallet hashes the
secret with the value, and the random number behind both. The circuits of the
coprocessor hash the secret with the random number, and the value behind both.
The other circuits hash all three at once.

So three different inputs are hashed last, unless the value happens to be the
random number, and then still two. Where different inputs have different hashes,
no commitment of the wallet is the leaf that the circuits ask for
(`not_spendable`).
-/

namespace CommitmentAgreement

open Bn254 (Element toField)
open ClientHashes (SamePoseidon CollisionFree exampleFamily examplePoseidon)

/-- The leaf that the circuits of the coprocessor ask for, in any field. -/
def nestedLeaf {F : Type} (hash : F → F → F) (secret nonce value : F) : F :=
  hash (hash secret nonce) value

/-- **The circuits of the coprocessor constrain the commitment to this leaf.** -/
theorem commits_iff_nestedLeaf (hash : Lumora.Fp → Lumora.Fp → Lumora.Fp) (note : Lumora.Note)
    (commitment : Lumora.Fp) :
    Lumora.Commits (Lumora.graph hash) note commitment
      ↔ commitment = nestedLeaf hash note.secret note.nonce note.value :=
  Lumora.commits_graph

variable (H : List Element → Element) (P : Circuit.Poseidon) (secret randomness : Bytes32)
  (value : ℕ)

/-- The commitment that the wallet publishes. -/
def published : Element :=
  ((beNat (PythonWallet.computeCommitment secret.toBytes value randomness.toBytes) : ℕ) : Element)

/-- **The published commitment is the leaf that all circuits ask for.** -/
def Spendable : Prop :=
  published secret randomness value
      = nestedLeaf (fun x y => H [x, y]) (toField secret) (toField randomness) (value : Element)
    ∧ published secret randomness value
        = (Circuit.Note.mk (toField secret) (toField randomness) (value : Element)).commitment P

/-- The inner input of the wallet. -/
def walletInner : List Element := [toField secret, (value : Element)]

/-- The inner input of the circuits of the coprocessor. -/
def nestedInner : List Element := [toField secret, toField randomness]

/-- **All inputs that are hashed** for a note. -/
def queries : List (List Element) :=
  [walletInner secret value, [H (walletInner secret value), toField randomness],
    nestedInner secret randomness, [H (nestedInner secret randomness), (value : Element)],
    [toField secret, toField randomness, (value : Element)]]

variable {H P}

/-- **The commitment of the wallet.** -/
theorem published_eq (h : SamePoseidon H P) :
    published secret randomness value = H [H (walletInner secret value), toField randomness] := by
  unfold published
  rw [h.walletCommitment, ClientHashes.beNat_toBytes, ClientHashes.beNat_toBytes]
  rfl

/-- **The wallet and the coprocessor agree** on the notes whose value is their
random number only. -/
theorem published_eq_nestedLeaf_iff (h : SamePoseidon H P)
    (hfree : CollisionFree H (queries H secret randomness value)) :
    published secret randomness value
        = nestedLeaf (fun x y => H [x, y]) (toField secret) (toField randomness) (value : Element)
      ↔ (value : Element) = toField randomness := by
  rw [published_eq secret randomness value h]
  show H [H (walletInner secret value), toField randomness]
    = H [H (nestedInner secret randomness), (value : Element)] ↔ _
  constructor
  · intro hhash
    have hlists := hfree _ (by simp [queries]) _ (by simp [queries]) hhash
    rw [List.cons.injEq, List.cons.injEq] at hlists
    exact hlists.2.1.symm
  · intro hvalue
    unfold walletInner nestedInner
    rw [hvalue]

/-- **The wallet and the other circuits agree nowhere**: they hash lists of
different lengths. -/
theorem published_ne_commitment (h : SamePoseidon H P)
    (hfree : CollisionFree H (queries H secret randomness value)) :
    published secret randomness value
      ≠ (Circuit.Note.mk (toField secret) (toField randomness) (value : Element)).commitment P := by
  rw [published_eq secret randomness value h]
  show _ ≠ P.hash3 (toField secret) (toField randomness) (value : Element)
  rw [h.hash3]
  intro hhash
  have hlists := hfree _ (by simp [queries]) _ (by simp [queries]) hhash
  have hlength := congrArg List.length hlists
  cases hlength

/-- **No note of the wallet can be spent** in all circuits. -/
theorem not_spendable (h : SamePoseidon H P)
    (hfree : CollisionFree H (queries H secret randomness value)) :
    ¬ Spendable H P secret randomness value :=
  fun hspendable => published_ne_commitment secret randomness value h hfree hspendable.2

/-! ## A note -/

/-- The inner hashes of the note 1, 2, 3. -/
def exampleWallet : ℕ := PythonPoseidon.poseidonHash 1 3

/-- … -/
def exampleNested : ℕ := PythonPoseidon.poseidonHash 1 2

/-- The hashes of all inputs, as numbers. -/
def exampleHashes : List ℕ :=
  [exampleWallet, PythonPoseidon.poseidonHash exampleWallet 2, exampleNested,
    PythonPoseidon.poseidonHash exampleNested 3,
    6542985608222806190361240322586112750744169038454362455181422643027100751666]

theorem exampleHashes_nodup : (exampleHashes.map (· % Bn254.r)).Nodup := by
  decide +kernel

theorem walletInner_example : exampleFamily (walletInner 1 3) = (exampleWallet : Element) :=
  ClientHashes.exampleFamily_two 1 3

theorem nestedInner_example : exampleFamily (nestedInner 1 2) = (exampleNested : Element) :=
  ClientHashes.exampleFamily_two 1 2

theorem map_queries_example :
    (queries exampleFamily 1 2 3).map exampleFamily
      = exampleHashes.map (fun n => (n : Element)) := by
  have htwo : toField 2 = ((2 : ℕ) : Element) := rfl
  show [exampleFamily (walletInner 1 3),
    exampleFamily [exampleFamily (walletInner 1 3), toField 2],
    exampleFamily (nestedInner 1 2),
    exampleFamily [exampleFamily (nestedInner 1 2), ((3 : ℕ) : Element)],
    exampleFamily [toField 1, toField 2, ((3 : ℕ) : Element)]] = _
  rw [walletInner_example, nestedInner_example, htwo, ClientHashes.exampleFamily_two,
    ClientHashes.exampleFamily_two]
  rfl

theorem collisionFree_example : CollisionFree exampleFamily (queries exampleFamily 1 2 3) := by
  refine CollisionFree.of_nodup ?_
  rw [map_queries_example]
  exact ClientHashes.nodup_map_natCast exampleHashes_nodup

/-- This note cannot. -/
theorem example_not_spendable : ¬ Spendable exampleFamily examplePoseidon 1 2 3 :=
  not_spendable 1 2 3 ClientHashes.exampleFamily_same collisionFree_example

/-- Not all notes of the wallet can be spent. -/
theorem published_not_required :
    ¬ ∀ (H : List Element → Element) (P : Circuit.Poseidon) (secret randomness : Bytes32)
        (value : ℕ), SamePoseidon H P → Spendable H P secret randomness value := by
  intro hall
  exact published_ne_commitment 1 2 3 ClientHashes.exampleFamily_same collisionFree_example
    (hall _ _ 1 2 3 ClientHashes.exampleFamily_same).2

end CommitmentAgreement
