import SoulPrivacy.PoolCalls
import SoulPrivacy.PoolTree
import SoulPrivacy.ValueConservation

/-!
# What a withdrawal proves

The pool hands the verifier of a withdrawal seven words, in the order of
the transfer circuit: root, nullifiers, outputs, and then the exit value
and the recipient. The withdraw circuit declares seven public inputs in an
order of its own. Assigned one to the other, the recipient the circuit
sees is the second nullifier, the value it withdraws is the first output,
and its domain is the exit value and the recipient.

So a satisfied circuit says what the call is about only if these words
happen to agree (`withdraw_statement_iff`). A note of 10 pays for any exit
value: the circuit is satisfied with a withdrawal of 1 while the pool pays
10 (`exists_misstated`).
-/

namespace PrivacyPool

open Bn254 (toField ofField SameElement)

/-- **The public inputs agree with the call**, as field elements. -/
structure Agrees (pool : Storage) (merkleRoot : Bytes32) (nullifiers outputs : Pair)
    (exitValue : Uint256) (recipient : Address) (pub : Circuit.WithdrawPublic) :
    Prop where
  withdrawValue : pub.withdrawValue = toField exitValue
  recipient : pub.recipient = toField (recipient.setWidth 256)
  merkleRoot : pub.merkleRoot = toField merkleRoot
  nullifier : pub.nullifier = toField nullifiers.1 ∨ pub.nullifier = toField nullifiers.2
  changeCommitment : pub.changeCommitment = toField outputs.1
    ∨ pub.changeCommitment = toField outputs.2
  chainId : pub.chainId = toField pool.domainChainId
  appId : pub.appId = toField pool.domainAppId

/-- The circuit is satisfied by public inputs from the array of a call, in
declaration order, and these private inputs. -/
def Proves (P : Circuit.Poseidon) (array : List Uint256) (pub : Circuit.WithdrawPublic)
    (priv : Circuit.WithdrawPrivate) : Prop :=
  Circuit.WithdrawPublic.ofArray (array.map toField) = some pub
    ∧ Circuit.withdraw P pub priv = .ok ()

/-- **The condition**: the words that meet in one place are the same
element. -/
structure Aligned (pool : Storage) (nullifiers outputs : Pair) (exitValue : Uint256)
    (recipient : Address) : Prop where
  recipient_same : SameElement nullifiers.2 (recipient.setWidth 256)
  value_same : SameElement outputs.1 exitValue
  chain_same : SameElement exitValue pool.domainChainId
  app_same : SameElement (recipient.setWidth 256) pool.domainAppId

/-- **When the circuit of a withdrawal speaks of the call**: whenever it
is satisfied by the call's array, its public inputs agree with the call,
exactly when the words that meet are the same elements – or nothing
satisfies the circuit with that array. -/
theorem withdraw_statement_iff (P : Circuit.Poseidon) (pool : Storage)
    (merkleRoot : Bytes32) (nullifiers outputs : Pair) (exitValue : Uint256)
    (recipient : Address) :
    (∀ pub priv, Proves P (buildWithdrawPublicInputs merkleRoot nullifiers outputs exitValue
        recipient) pub priv →
      Agrees pool merkleRoot nullifiers outputs exitValue recipient pub)
    ↔ ((∃ pub priv, Proves P (buildWithdrawPublicInputs merkleRoot nullifiers outputs
        exitValue recipient) pub priv) →
      Aligned pool nullifiers outputs exitValue recipient) := by
  constructor
  · rintro hall ⟨pub, priv, hpub, hsat⟩
    have hagrees := hall pub priv ⟨hpub, hsat⟩
    cases hpub
    refine ⟨?_, ?_, ?_, ?_⟩
    · exact Bn254.toField_eq_iff.mp hagrees.recipient
    · exact Bn254.toField_eq_iff.mp hagrees.withdrawValue
    · exact Bn254.toField_eq_iff.mp hagrees.chainId
    · exact Bn254.toField_eq_iff.mp hagrees.appId
  · rintro halign pub priv ⟨hpub, hsat⟩
    have h := halign ⟨pub, priv, hpub, hsat⟩
    cases hpub
    exact {
      withdrawValue := Bn254.toField_eq_iff.mpr h.value_same
      recipient := Bn254.toField_eq_iff.mpr h.recipient_same
      merkleRoot := rfl
      nullifier := Or.inl rfl
      changeCommitment := Or.inr rfl
      chainId := Bn254.toField_eq_iff.mpr h.chain_same
      appId := Bn254.toField_eq_iff.mpr h.app_same }

/-! ## A note of 10 -/

/-- A pool over the hash of the circuit. -/
def notePool : Interfaces Unit :=
  { permissive Unit with hash := Circuit.toyPoseidon.onWords }

/-- A note of 10, … -/
def note : Circuit.Note := ⟨1, 2, 10⟩

/-- … the word of its commitment, … -/
def noteWord : Bytes32 := ofField (note.commitment Circuit.toyPoseidon)

/-- … and the note for the change of a withdrawal of 1. -/
def noteChange : Circuit.Note := ⟨3, 4, 9⟩

/-- The pool as it is deployed. -/
def noteWorld : World Unit :=
  ⟨⟨0, 0⟩, 0, construct notePool.hash 1 0 3 4 5 0, ()⟩

theorem noteSender_ne_zero : (1 : Address) ≠ 0 := by decide

/-- The deposit of the note. -/
def noteDeposit : Call := ⟨⟨1, 10, noteSender_ne_zero⟩, .deposit noteWord 10⟩

/-- The world after it. -/
def fundedWorld (tree : MerkleTree.TreeData) : World Unit :=
  ⟨⟨0, 0⟩, 10, { noteWorld.pool with
    commitmentExists := Function.update noteWorld.pool.commitmentExists noteWord true
    tree := tree
    poolBalance := 10 }, ()⟩

/-- The nullifiers of the withdrawal: that of the note in the domain the
circuit will see, and any other word. -/
def noteNullifiers : Pair :=
  (ofField (Circuit.computeNullifierV2 Circuit.toyPoseidon note.secret
    (note.commitment Circuit.toyPoseidon) (toField 10) (toField 0xbeef)), 7)

/-- The outputs: the value the circuit withdraws, and the change. -/
def noteOutputs : Pair := (1, ofField (noteChange.commitment Circuit.toyPoseidon))

/-- The root after the deposit. -/
def noteRoot : Bytes32 :=
  MerkleTree.treeRoot notePool.hash [noteWord]

/-- The withdrawal of 10. -/
def noteWithdraw : Call :=
  ⟨⟨2, 0, by decide⟩, .withdraw [] noteRoot noteNullifiers noteOutputs 0xbeef 10⟩

/-- The root the insertion computes. -/
def computedRoot : Option Uint256 :=
  (MerkleTree.insert notePool.hash (MerkleTree.fresh notePool.hash) noteWord).toOption.map
    (fun r => r.2.2)

theorem noteRoot_ne_zero : noteRoot ≠ 0 := by
  obtain ⟨tree, hins, -⟩ := MerkleTree.insert_represents notePool.hash
    (MerkleTree.fresh_represents notePool.hash) (by decide) noteWord
  have hroot : computedRoot = some noteRoot := by
    rw [computedRoot, hins]
    rfl
  have hne : computedRoot ≠ some 0 := by decide +kernel
  exact fun h => hne (hroot.trans (congrArg some h))

/-- The deposit goes through. -/
theorem enter_noteDeposit :
    ∃ tree evs, MerkleTree.Represents notePool.hash tree [noteWord]
      ∧ enter notePool noteDeposit noteWorld = .ok (fundedWorld tree, evs, none) := by
  obtain ⟨tree, hins, hrep⟩ := MerkleTree.insert_represents notePool.hash
    (MerkleTree.fresh_represents notePool.hash) (by decide) noteWord
  have heff : Effect notePool noteDeposit.msg (credit noteDeposit.msg noteWorld)
      (.deposit noteWord 10) (fundedWorld tree) [.deposit noteWord 0 10 0] none :=
    .deposit rfl (by decide) rfl rfl nofun hins rfl
  exact ⟨tree, _, hrep, enter_eq_ok.mpr ⟨fun h => Bool.noConfusion h, heff⟩⟩

/-- The withdrawal goes through, up to the payout. -/
theorem enter_noteWithdraw {tree : MerkleTree.TreeData}
    (hrep : MerkleTree.Represents notePool.hash tree [noteWord]) :
    ∃ w k, enter notePool noteWithdraw (fundedWorld tree) = .ok (w, [], some k) := by
  obtain ⟨tree₁, hins₁, hrep₁⟩ :=
    MerkleTree.insert_represents notePool.hash hrep (by decide) noteOutputs.1
  obtain ⟨tree₂, hins₂, -⟩ :=
    MerkleTree.insert_represents notePool.hash hrep₁ (by decide) noteOutputs.2
  have known : MerkleTree.isKnownRoot tree noteRoot = true :=
    hrep.exactWindow.kept [noteWord] [] rfl (by decide) noteRoot_ne_zero
  have outputs_ok : validateOutputCommitments noteOutputs = .ok () := by decide +kernel
  have fresh : Fresh (fundedWorld tree).pool noteNullifiers :=
    ⟨rfl, rfl, by decide +kernel⟩
  have heff : Effect notePool noteWithdraw.msg (fundedWorld tree)
      noteWithdraw.entry _ _ _ :=
    .withdraw rfl rfl (by decide) known outputs_ok rfl rfl fresh rfl rfl
      ⟨_, _, _, _, hins₁, hins₂⟩ rfl
  exact ⟨_, _, enter_eq_ok.mpr ⟨fun _ => rfl, heff⟩⟩

/-- The circuit is satisfied with a withdrawal of 1. -/
theorem noteWithdraw_proves :
    ∃ pub priv, Proves Circuit.toyPoseidon
        (buildWithdrawPublicInputs noteRoot noteNullifiers noteOutputs 10 0xbeef) pub priv
      ∧ pub.withdrawValue = 1 := by
  obtain ⟨path, indices, hroot⟩ := Circuit.exists_merkleProof Circuit.toyPoseidon
    (by decide : [noteWord].length ≤ 2 ^ Circuit.TREE_DEPTH) (i := 0) (by decide)
  rw [List.getElem_cons_zero, noteWord, Bn254.toField_ofField] at hroot
  have hvalue : note.value = toField noteOutputs.1 + noteChange.value := by decide +kernel
  have hchange : noteChange.value ≠ 0 := by decide +kernel
  have hsecret : note.secret ≠ 0 := by decide +kernel
  refine ⟨_, ⟨⟨note, path, indices⟩, noteChange⟩, ⟨rfl, Circuit.withdraw_eq_ok.mpr ?_⟩, ?_⟩
  · exact {
      root := hroot
      nullifier := Bn254.toField_ofField _
      withdrawValue_ne := by decide +kernel
      recipient_ne := by decide +kernel
      value := hvalue
      change := fun _ => Bn254.toField_ofField _
      full := fun h => absurd h hchange
      secret_ne := hsecret }
  · decide +kernel

/-- **A withdrawal that was not proved**: the pool pays 10 on a circuit
that is satisfied with 1. -/
theorem exists_misstated :
    ∃ w w' k trace, Deployed notePool noteWorld
      ∧ CallStack.Reachable (machine notePool) (fun _ _ => True) noteWorld ⟨⟨w, trace⟩, []⟩
      ∧ enter notePool noteWithdraw w = .ok (w', [], some k)
      ∧ ∃ pub priv, Proves Circuit.toyPoseidon
          (buildWithdrawPublicInputs noteRoot noteNullifiers noteOutputs 10 0xbeef) pub priv
        ∧ ¬ Agrees w.pool noteRoot noteNullifiers noteOutputs 10 0xbeef pub := by
  obtain ⟨tree, evs, hrep, hdeposit⟩ := enter_noteDeposit
  obtain ⟨w', k, hwithdraw⟩ := enter_noteWithdraw hrep
  obtain ⟨pub, priv, hproves, hvalue⟩ := noteWithdraw_proves
  refine ⟨_, w', k, _, ⟨1, 0, 3, 4, 5, 0, rfl⟩, .tail .refl (.call trivial hdeposit),
    hwithdraw, pub, priv, hproves, fun h => ?_⟩
  have hne : (1 : Bn254.Element) ≠ toField 10 := by decide +kernel
  exact hne (hvalue.symm.trans h.withdrawValue)

end PrivacyPool
