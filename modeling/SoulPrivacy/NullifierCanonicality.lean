import SoulPrivacy.Halo2SnarkVerifier
import SoulPrivacy.PoolCalls
import SoulPrivacy.PoolTree

/-!
# Nullifiers as words and as field elements

The pool remembers spent nullifiers as words, and the verifier sees them
as field elements. The spent words are exactly those of the accepted
transfers and withdrawals, each accepted once (`spent_of_reachable`). So
as long as the words are below the field order, the elements are accepted
once as well. Nothing makes them: the verifier accepts a word plus the
order like the word itself, and to the pool it is a new nullifier
(`exists_second_name`).
-/

namespace PrivacyPool

open Bn254 (SameElement)

/-- The nullifiers of a call. -/
def Entry.nullifiers : Entry → List Bytes32
  | .transfer _ _ nullifiers _ _ _ => [nullifiers.1, nullifiers.2]
  | .withdraw _ _ nullifiers _ _ _ => [nullifiers.1, nullifiers.2]
  | _ => []

/-- … and of a receipt. -/
def receiptNullifiers : CallStack.Receipt Call Cont Event → List Bytes32
  | .entered c _ => c.entry.nullifiers
  | .resumed _ _ => []

/-- **The nullifiers accepted in a trace**, in order. -/
def acceptedNullifiers (trace : List (CallStack.Receipt Call Cont Event)) :
    List Bytes32 :=
  trace.flatMap receiptNullifiers

/-- **The condition**: the nullifiers of a call are below the field
order. -/
def Canonical {X : Type} (_ : World X) (c : Call) : Prop :=
  ∀ n ∈ c.entry.nullifiers, n.toNat < Bn254.r

/-- **The pool with the Groth16 verifier**, whose storage is a part of the
state of the other contracts. -/
def withHalo2 {X : Type} (P : Halo2SnarkVerifier.Precompiles)
    (storage : X → Halo2SnarkVerifier.Storage) (E : Interfaces X) : Interfaces X :=
  { E with
    verifyTransferProof := fun x proof publicInputs =>
      (Halo2SnarkVerifier.verifyTransferProof P (storage x) proof publicInputs).toOption
    verifyWithdrawProof := fun x proof publicInputs =>
      (Halo2SnarkVerifier.verifyWithdrawProof P (storage x) proof publicInputs).toOption }

variable {X : Type} {E : Interfaces X}

theorem acceptedNullifiers_snoc (trace : List (CallStack.Receipt Call Cont Event))
    (receipt : CallStack.Receipt Call Cont Event) :
    acceptedNullifiers (trace ++ [receipt])
      = acceptedNullifiers trace ++ receiptNullifiers receipt := by
  rw [acceptedNullifiers, List.flatMap_append, List.flatMap_singleton]
  rfl

/-! ## The spent words -/

/-- What is spent after two nullifiers were. -/
theorem nullifierSpent_spent (pool : Storage) (nullifiers : Pair) (n : Bytes32) :
    (spent pool nullifiers).nullifierSpent n = true ↔
      pool.nullifierSpent n = true ∨ n ∈ [nullifiers.1, nullifiers.2] := by
  unfold spent
  dsimp only
  rw [List.mem_cons, List.mem_singleton, update_true_eq_true, update_true_eq_true, or_assoc]

/-- The nullifiers of a call that is accepted are new and differ. -/
structure Accepts (pool pool' : Storage) (nullifiers : List Bytes32) : Prop where
  new : ∀ n ∈ nullifiers, pool.nullifierSpent n = false
  nodup : nullifiers.Nodup
  spent : ∀ n, pool'.nullifierSpent n = true ↔
    pool.nullifierSpent n = true ∨ n ∈ nullifiers

theorem Fresh.accepts {pool pool' : Storage} {nullifiers : Pair}
    (h : Fresh pool nullifiers)
    (hspent : pool'.nullifierSpent = (PrivacyPool.spent pool nullifiers).nullifierSpent) :
    Accepts pool pool' [nullifiers.1, nullifiers.2] := by
  refine ⟨fun n hn => ?_, ?_, fun n => ?_⟩
  · rw [List.mem_cons, List.mem_singleton] at hn
    rcases hn with rfl | rfl
    · exact h.fst
    · exact h.snd
  · rw [List.nodup_cons, List.mem_singleton]
    exact ⟨h.ne, List.nodup_singleton _⟩
  · rw [hspent]
    exact nullifierSpent_spent pool nullifiers n

/-- **A call spends its nullifiers**, and no others. -/
theorem Effect.accepts {msg : Msg} {w w' : World X} {entry : Entry}
    {evs : List Event} {k : Option Cont} (h : Effect E msg w entry w' evs k) :
    Accepts w.pool w'.pool entry.nullifiers := by
  cases h
  case transfer fresh reported verified ins => exact fresh.accepts rfl
  case withdraw fresh reported verified ins balance => exact fresh.accepts rfl
  all_goals
    refine ⟨nofun, List.nodup_nil, fun n => ?_⟩
    exact (or_iff_left List.not_mem_nil).symm

/-- **The invariant of the spent words**: they are the accepted ones, each
accepted once. -/
structure SpentOnce (p : Point X) : Prop where
  spent : ∀ n, p.state.pool.nullifierSpent n = true ↔ n ∈ acceptedNullifiers p.trace
  nodup : (acceptedNullifiers p.trace).Nodup

theorem SpentOnce.enter {p : Point X} (hp : SpentOnce p) {c : Call} {w' : World X}
    {evs : List Event} {k : Option Cont} (h : enter E c p.state = .ok (w', evs, k)) :
    SpentOnce (⟨w', p.trace ++ [.entered c evs]⟩ : Point X) := by
  have hacc := (enter_effect h).2.accepts
  refine ⟨fun n => ?_, ?_⟩
  · dsimp only
    rw [acceptedNullifiers_snoc, List.mem_append, hacc.spent n]
    exact or_congr_left (hp.spent n)
  · dsimp only
    rw [acceptedNullifiers_snoc]
    refine List.Nodup.append hp.nodup hacc.nodup (fun n hn hn' => ?_)
    have hnew : p.state.pool.nullifierSpent n = false := hacc.new n hn'
    exact Bool.false_ne_true (hnew.symm.trans ((hp.spent n).mpr hn))

theorem SpentOnce.resume {p : Point X} (hp : SpentOnce p) {k : Cont} {success : Bool}
    {w' : World X} {evs : List Event}
    (h : resume k success p.state = .ok (w', evs)) :
    SpentOnce (⟨w', p.trace ++ [.resumed k evs]⟩ : Point X) := by
  obtain ⟨-, rfl⟩ := resume_eq_ok h
  refine ⟨fun n => ?_, ?_⟩
  · dsimp only
    rw [acceptedNullifiers_snoc]
    exact (hp.spent n).trans (by rw [receiptNullifiers, List.append_nil])
  · dsimp only
    rw [acceptedNullifiers_snoc, receiptNullifiers, List.append_nil]
    exact hp.nodup

/-! ## Second names -/

/-- **The verifier does not see which name a nullifier goes by**: for
congruent nullifiers it gives the same verdict, whatever the key and the
proof. -/
theorem verifyTransferProof_congr {P : Halo2SnarkVerifier.Precompiles}
    (hP : P.ScalarsModulo) (storage : X → Halo2SnarkVerifier.Storage) (x : X)
    (proof : Bytes) (merkleRoot : Bytes32) {nullifiers nullifiers' : Pair}
    (hfst : SameElement nullifiers.1 nullifiers'.1)
    (hsnd : SameElement nullifiers.2 nullifiers'.2) (outputs : Pair)
    (chainId appId : Uint256) :
    (withHalo2 P storage E).verifyTransferProof x proof
        (buildTransferPublicInputs merkleRoot nullifiers outputs chainId appId)
      = (withHalo2 P storage E).verifyTransferProof x proof
        (buildTransferPublicInputs merkleRoot nullifiers' outputs chainId appId) := by
  have hsame : List.Forall₂ SameElement
      (buildTransferPublicInputs merkleRoot nullifiers outputs chainId appId)
      (buildTransferPublicInputs merkleRoot nullifiers' outputs chainId appId) :=
    .cons (Nat.ModEq.refl _) <| .cons hfst <| .cons hsnd <| .cons (Nat.ModEq.refl _) <|
      .cons (Nat.ModEq.refl _) <| .cons (Nat.ModEq.refl _) <|
      .cons (Nat.ModEq.refl _) .nil
  exact congrArg Except.toOption
    (Halo2SnarkVerifier.verifyWith_congr hP (storage x).transferVKReady
      (storage x).transferVK proof hsame)

/-- **When a transfer goes through**, in a pool without an epoch manager: it
needs a known root, two outputs, two unspent words, a proof, and the oracle if
there is one. -/
theorem enter_transfer {w : World X} {leaves : List Uint256}
    (hrep : MerkleTree.Represents E.hash w.pool.tree leaves)
    (hroom : leaves.length + 1 < 2 ^ MerkleTree.DEPTH) (running : w.pool.paused = false)
    (hmanager : w.pool.epochManager = 0) {msg : Msg} (hvalue : msg.value = 0)
    {proof : Bytes} {merkleRoot : Bytes32}
    (known : MerkleTree.isKnownRoot w.pool.tree merkleRoot = true)
    {nullifiers outputs : Pair} (fresh : Fresh w.pool nullifiers)
    (outputs_ok : validateOutputCommitments outputs = .ok ())
    (compliant : checkCompliance E w nullifiers outputs proof = .ok ())
    (verified : E.verifyTransferProof w.others proof
      (buildTransferPublicInputs merkleRoot nullifiers outputs w.pool.domainChainId
        w.pool.domainAppId) = some true) :
    ∃ tree, MerkleTree.Represents E.hash tree (leaves ++ [outputs.1, outputs.2])
      ∧ enter E ⟨msg, .transfer proof merkleRoot nullifiers outputs w.pool.domainChainId
            w.pool.domainAppId⟩ w
          = .ok (w.withPool { spent w.pool nullifiers with tree := tree },
              [.transfer nullifiers outputs
                (MerkleTree.treeRoot E.hash (leaves ++ [outputs.1, outputs.2]))], none) := by
  obtain ⟨tree₁, hins₁, hrep₁⟩ :=
    MerkleTree.insert_represents E.hash hrep (Nat.lt_of_succ_lt hroom) outputs.1
  obtain ⟨tree, hins₂, hrep₂⟩ := MerkleTree.insert_represents E.hash hrep₁
    (by rwa [List.length_append, List.length_singleton]) outputs.2
  rw [List.append_assoc] at hrep₂ hins₂
  refine ⟨tree, hrep₂, ?_⟩
  have heff : Effect E msg w (.transfer proof merkleRoot nullifiers outputs
      w.pool.domainChainId w.pool.domainAppId) _ _ none :=
    .transfer running rfl rfl known outputs_ok compliant fresh
      ((if_pos hmanager).mpr rfl) verified ⟨_, _, _, _, hins₁, hins₂⟩
  have hcredit : credit msg w = w := by
    unfold credit
    rw [hvalue]
    rfl
  exact enter_eq_ok.mpr ⟨fun _ => hvalue, hcredit.symm ▸ heff⟩

/-- Precompiles at the point at infinity: its sums and multiples are
itself, and its pairings are trivial. -/
def atInfinity : Halo2SnarkVerifier.Precompiles where
  ecAdd x₁ y₁ x₂ y₂ := if x₁ = 0 ∧ y₁ = 0 ∧ x₂ = 0 ∧ y₂ = 0 then some (0, 0) else none
  ecMul x y _ := if x = 0 ∧ y = 0 then some (0, 0) else none
  pairing input := if input.all (· == 0) then some 1 else none

/-- A verifier with a key for transfers, all of whose points are at
infinity. -/
def infinityVerifier : Halo2SnarkVerifier.Storage :=
  { Halo2SnarkVerifier.construct 1 0 0 with
    transferVK := ⟨0, 0, 0, 0, 0, 0, 0, 0, List.replicate 8 [0, 0]⟩
    transferVKReady := true }

/-- A pool with this verifier, … -/
def infinityPool : Interfaces Unit :=
  withHalo2 atInfinity (fun _ => infinityVerifier) (permissive Unit)

/-- … deployed without an epoch manager and without an oracle. -/
def infinityWorld : World Unit :=
  ⟨⟨0, 0⟩, 0, construct infinityPool.hash 1 0 3 4 5 0, ()⟩

/-- The same world later on, with another tree and more spent words. -/
def laterWorld (tree : MerkleTree.TreeData) (nullifierSpent : Bytes32 → Bool) :
    World Unit :=
  infinityWorld.withPool
    { infinityWorld.pool with tree := tree, nullifierSpent := nullifierSpent }

/-- A transfer there, with a proof of points at infinity. -/
def infinityTransfer (nullifiers outputs : Pair) : Call :=
  ⟨⟨1, 0, by decide⟩, .transfer (List.replicate 256 0)
    (MerkleTree.treeRoot infinityPool.hash []) nullifiers outputs 3 4⟩

/-- Such a verifier accepts the proof of zeros, for any statement. -/
theorem infinityPool_verifies (merkleRoot : Bytes32) (nullifiers outputs : Pair)
    (chainId appId : Uint256) :
    infinityPool.verifyTransferProof () (List.replicate 256 0)
      (buildTransferPublicInputs merkleRoot nullifiers outputs chainId appId)
        = some true := by
  have hok : Halo2SnarkVerifier.verifyTransferProof atInfinity infinityVerifier
      (List.replicate 256 0)
      (buildTransferPublicInputs merkleRoot nullifiers outputs chainId appId)
        = .ok true := by
    refine (Except.unit_bind_eq_ok _ _ _).mpr ⟨rfl, ?_⟩
    refine (revertIf_bind_eq_ok _ _ _ _).mpr ⟨not_not.mpr List.length_replicate, ?_⟩
    refine (Except.bind_eq_ok _ _ _).mpr ⟨(0, 0), rfl, ?_⟩
    refine (Except.bind_eq_ok _ _ _).mpr ⟨(0, 0), rfl, ?_⟩
    rw [Halo2SnarkVerifier.decodeProof_zeros]
    rfl
  unfold infinityPool withHalo2
  dsimp only
  rw [hok]
  rfl

theorem infinityRoot_ne_zero : MerkleTree.treeRoot infinityPool.hash [] ≠ 0 := by
  rw [MerkleTree.treeRoot, HashTree.root_nil]
  decide +kernel

/-- When a transfer goes through there. -/
theorem enter_infinityTransfer {tree : MerkleTree.TreeData} {leaves : List Uint256}
    (hrep : MerkleTree.Represents infinityPool.hash tree leaves)
    (hlen : leaves.length < MerkleTree.ROOT_HISTORY_SIZE)
    {nullifierSpent : Bytes32 → Bool} {nullifiers outputs : Pair}
    (fresh : Fresh (laterWorld tree nullifierSpent).pool nullifiers)
    (outputs_ok : validateOutputCommitments outputs = .ok ())
    (verified : infinityPool.verifyTransferProof () (List.replicate 256 0)
      (buildTransferPublicInputs (MerkleTree.treeRoot infinityPool.hash []) nullifiers
        outputs 3 4) = some true) :
    ∃ tree', MerkleTree.Represents infinityPool.hash tree' (leaves ++ [outputs.1, outputs.2])
      ∧ enter infinityPool (infinityTransfer nullifiers outputs)
            (laterWorld tree nullifierSpent)
          = .ok (laterWorld tree'
                (spent (laterWorld tree nullifierSpent).pool nullifiers).nullifierSpent,
              [.transfer nullifiers outputs (MerkleTree.treeRoot infinityPool.hash
                (leaves ++ [outputs.1, outputs.2]))], none) := by
  have hroom : leaves.length + 1 < 2 ^ MerkleTree.DEPTH :=
    lt_of_le_of_lt hlen (by decide)
  have known : MerkleTree.isKnownRoot tree (MerkleTree.treeRoot infinityPool.hash [])
      = true := hrep.exactWindow.kept [] leaves rfl hlen infinityRoot_ne_zero
  exact enter_transfer (w := laterWorld tree nullifierSpent) hrep hroom rfl rfl rfl
    known fresh outputs_ok (if_pos rfl) verified

/-- The transfer of the nullifiers 1 and 2 goes through. -/
theorem exists_infinityTransfer :
    ∃ tree evs, MerkleTree.Represents infinityPool.hash tree [3, 4]
      ∧ enter infinityPool (infinityTransfer (1, 2) (3, 4)) infinityWorld
          = .ok (laterWorld tree (spent infinityWorld.pool (1, 2)).nullifierSpent, evs,
              none) := by
  have hrep₀ : MerkleTree.Represents infinityPool.hash infinityWorld.pool.tree [] :=
    MerkleTree.fresh_represents _
  have fresh : Fresh infinityWorld.pool (1, 2) := ⟨rfl, rfl, by decide⟩
  have outputs_ok : validateOutputCommitments (3, 4) = .ok () := rfl
  obtain ⟨tree, hrep, henter⟩ := enter_infinityTransfer hrep₀ (by decide) fresh
    outputs_ok (infinityPool_verifies _ _ _ _ _)
  exact ⟨tree, _, hrep, henter⟩

/-! ## The accepted nullifiers -/

/-- The accepted nullifiers are below the field order. -/
def Below (p : Point X) : Prop := ∀ n ∈ acceptedNullifiers p.trace, n.toNat < Bn254.r

theorem Below.snoc {p : Point X} (hp : Below p) {w' : World X}
    {receipt : CallStack.Receipt Call Cont Event}
    (h : ∀ n ∈ receiptNullifiers receipt, n.toNat < Bn254.r) :
    Below (⟨w', p.trace ++ [receipt]⟩ : Point X) := by
  intro n hn
  rw [acceptedNullifiers_snoc, List.mem_append] at hn
  exact hn.elim (hp n) (h n)

/-- **The invariant of the names**: a word is spent when it was accepted,
no word was accepted twice, and under the condition all are below the
order. -/
theorem canonical_invariant (E : Interfaces X) :
    CallStack.Invariant (machine E) Canonical (fun _ p => SpentOnce p ∧ Below p)
      (fun _ _ p => SpentOnce p ∧ Below p) where
  enter_done hp hc h := ⟨hp.1.enter h, hp.2.snoc hc⟩
  enter_send hp hc h := ⟨hp.1.enter h, hp.2.snoc hc⟩
  send hp h := by
    obtain ⟨-, rfl⟩ := send_eq_some h
    exact ⟨⟨hp.1.spent, hp.1.nodup⟩, hp.2⟩
  resume_true hp h := ⟨hp.1.resume h, hp.2.snoc nofun⟩
  resume_false hp h := ⟨hp.1.resume h, hp.2.snoc nofun⟩
  outside hp h := ⟨⟨h.2.2.1 ▸ hp.1.spent, hp.1.nodup⟩, hp.2⟩
  tick hp h := ⟨⟨h.2.2.1 ▸ hp.1.spent, hp.1.nodup⟩, hp.2⟩

theorem SpentOnce.init {w : World X} (h : Deployed E w) :
    SpentOnce (⟨w, []⟩ : Point X) := by
  obtain ⟨sender, epochManager, chainId, appId, guardian, oracle, hpool⟩ := h
  refine ⟨fun n => ?_, List.nodup_nil⟩
  show w.pool.nullifierSpent n = true ↔ n ∈ []
  rw [hpool]
  exact iff_of_false Bool.false_ne_true List.not_mem_nil

/-- **No field element is spent twice under two names**, in a run of the
pool with the Groth16 verifier whose calls carry nullifiers below the
field order. -/
theorem accepted_distinct {P : Halo2SnarkVerifier.Precompiles}
    {storage : X → Halo2SnarkVerifier.Storage} {w₀ : World X}
    (hdeployed : Deployed (withHalo2 P storage E) w₀)
    {c : CallStack.Config (World X) (CallStack.Receipt Call Cont Event) Cont}
    (hreach : CallStack.Reachable (machine (withHalo2 P storage E)) Canonical w₀ c) :
    (acceptedNullifiers c.now.trace).Pairwise (fun m n => ¬ SameElement m n) := by
  obtain ⟨honce, hbelow⟩ := (canonical_invariant (withHalo2 P storage E)).holds
    ⟨SpentOnce.init hdeployed, nofun⟩ hreach
  refine List.Pairwise.imp_of_mem (fun hm hn hne hsame => hne ?_) honce.nodup
  exact hsame.eq_of_lt (hbelow _ hm) (hbelow _ hn)

/-- A run of one transfer there, whose nullifiers are below the order. -/
theorem accepted_distinct_one :
    ∃ c, CallStack.Reachable (machine infinityPool) Canonical infinityWorld c
      ∧ acceptedNullifiers c.now.trace = [1, 2]
      ∧ (acceptedNullifiers c.now.trace).Pairwise (fun m n => ¬ SameElement m n) := by
  obtain ⟨tree, evs, -, henter⟩ := exists_infinityTransfer
  have hcanonical : Canonical infinityWorld (infinityTransfer (1, 2) (3, 4)) :=
    List.forall_mem_cons.mpr ⟨by decide, List.forall_mem_singleton.mpr (by decide)⟩
  have hreach : CallStack.Reachable (machine infinityPool) Canonical infinityWorld _ :=
    .tail .refl (.call hcanonical henter)
  exact ⟨_, hreach, rfl, accepted_distinct ⟨1, 0, 3, 4, 5, 0, rfl⟩ hreach⟩

/-- **A field element can be spent twice**: after the nullifiers 1 and 2,
the pool takes the words `1 + r` and `2 + r`, with the same proof, root and
outputs. -/
theorem exists_second_name :
    atInfinity.ScalarsModulo
      ∧ ∃ c, Deployed infinityPool infinityWorld
        ∧ CallStack.Reachable (machine infinityPool) (fun _ _ => True) infinityWorld c
        ∧ ¬ (acceptedNullifiers c.now.trace).Pairwise (fun m n => ¬ SameElement m n) := by
  have hP : atInfinity.ScalarsModulo := fun _ _ _ _ _ => rfl
  refine ⟨hP, ?_⟩
  obtain ⟨tree, evs, hrep, henter⟩ := exists_infinityTransfer
  let second : Pair := (1 + BitVec.ofNat 256 Bn254.r, 2 + BitVec.ofNat 256 Bn254.r)
  have hsame : SameElement 1 second.1 ∧ SameElement 2 second.2 := by decide
  have verified : infinityPool.verifyTransferProof () (List.replicate 256 0)
      (buildTransferPublicInputs (MerkleTree.treeRoot infinityPool.hash []) second (3, 4)
        3 4) = some true :=
    (verifyTransferProof_congr hP (fun _ => infinityVerifier) () _ _ hsame.1 hsame.2
      _ _ _).symm.trans (infinityPool_verifies _ (1, 2) _ _ _)
  have fresh : Fresh (laterWorld tree (spent infinityWorld.pool (1, 2)).nullifierSpent).pool
      second := ⟨rfl, rfl, by decide⟩
  have outputs_ok : validateOutputCommitments (3, 4) = .ok () := rfl
  obtain ⟨tree', -, henter'⟩ :=
    enter_infinityTransfer hrep (by decide) fresh outputs_ok verified
  refine ⟨_, ⟨1, 0, 3, 4, 5, 0, rfl⟩,
    .tail (.tail .refl (.call trivial henter)) (.call trivial henter'), fun h => ?_⟩
  have hpair : [1, 2, second.1, second.2].Pairwise (fun m n => ¬ SameElement m n) := h
  exact (List.pairwise_cons.mp hpair).1 second.1 (by simp) hsame.1

end PrivacyPool
