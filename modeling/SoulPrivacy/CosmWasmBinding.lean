import SoulPrivacy.CosmWasmTree
import SoulPrivacy.PoseidonHasher

/-!
# What a proof of the CosmWasm pool is bound to

A transfer and a withdrawal go through when the state covers them, and their
proof carries the tag of their root, their nullifiers and their outputs, written
one after the other (`accepts_iff`). Which of the two it is, and who is paid how
much, is no part of it, and neither is where one text ends and the next begins.
So one proof serves for two calls exactly when these texts, put together, are
the same (`no_shared_proof_iff`).
-/

namespace CosmWasmPool

open HexProof (Shaped Tagged NoCollision Spend fourCalls)

variable {C : Crypto}

/-! ## Calls with a proof -/

/-- The message that makes a call with a proof. -/
def msgOf (proof : String) : HexProof.Call String → ExecuteMsg
  | .transfer c => .transfer proof c.merkleRoot c.nullifiers c.outputCommitments
  | .withdraw c recipient exitValue =>
    .withdraw proof c.merkleRoot c.nullifiers c.outputCommitments recipient exitValue

/-- **The contract accepts a call with a proof.** -/
def Accepts (C : Crypto) (s : State) (proof : String) (c : HexProof.Call String) : Prop :=
  ∃ height info r, execute C height info (msgOf proof c) s = .ok r

/-- What a call pays out is there. -/
def Payable (s : State) : HexProof.Call String → Prop
  | .transfer _ => True
  | .withdraw _ _ exitValue => exitValue ≠ 0 ∧ exitValue ≤ s.poolBalance

/-- **What is checked besides the proof.** -/
structure Covers (C : Crypto) (s : State) (c : HexProof.Call String) : Prop where
  payable : Payable s c
  known : isKnownRoot s c.spend.merkleRoot = .ok true
  spendable : Spendable s c.spend.nullifiers
  wellFormed : c.spend.WellFormed
  insert : ∃ s', InsertTwo C c.spend.outputCommitments (spentTwo s c.spend.nullifiers) s'

/-- **When a call goes through.** -/
theorem accepts_iff {s : State} {proof : String} {c : HexProof.Call String} :
    Accepts C s proof c ↔ Covers C s c ∧ Shaped proof ∧ Tagged C.sha256 proof c.text := by
  cases c with
  | transfer c =>
    constructor
    · rintro ⟨height, info, r, hexec⟩
      obtain ⟨hknown, hspendable, hverify, s', htwo, -⟩ := executeTransfer_eq_ok.mp hexec
      obtain ⟨hshaped, hwf, htagged⟩ := HexProof.verifyProofBinding_iff.mp hverify
      exact ⟨⟨trivial, hknown, hspendable, hwf, s', htwo⟩, hshaped, htagged⟩
    · rintro ⟨⟨-, hknown, hspendable, hwf, s', htwo⟩, hshaped, htagged⟩
      have hverify := HexProof.verifyProofBinding_iff.mpr ⟨hshaped, hwf, htagged⟩
      exact ⟨0, ⟨"", []⟩, _,
        executeTransfer_eq_ok.mpr ⟨hknown, hspendable, hverify, s', htwo, rfl⟩⟩
  | withdraw c recipient exitValue =>
    constructor
    · rintro ⟨height, info, r, hexec⟩
      obtain ⟨hexit, hbalance, hknown, hspendable, hverify, s', htwo, -⟩ :=
        executeWithdraw_eq_ok.mp hexec
      obtain ⟨hshaped, hwf, htagged⟩ := HexProof.verifyProofBinding_iff.mp hverify
      exact ⟨⟨⟨hexit, hbalance⟩, hknown, hspendable, hwf, s', htwo⟩, hshaped, htagged⟩
    · rintro ⟨⟨⟨hexit, hbalance⟩, hknown, hspendable, hwf, s', htwo⟩, hshaped, htagged⟩
      have hverify := HexProof.verifyProofBinding_iff.mpr ⟨hshaped, hwf, htagged⟩
      exact ⟨0, ⟨"", []⟩, _, executeWithdraw_eq_ok.mpr
        ⟨hexit, hbalance, hknown, hspendable, hverify, s', htwo, rfl⟩⟩

/-- **No proof is accepted for both of two calls if and only if their texts
differ**, or the state that one of them meets fails another of its checks. -/
theorem no_shared_proof_iff (C : Crypto) (s₁ s₂ : State) (c₁ c₂ : HexProof.Call String) :
    (∀ proof, NoCollision C.sha256 proof c₁.text c₂.text →
        ¬ (Accepts C s₁ proof c₁ ∧ Accepts C s₂ proof c₂))
      ↔ c₁.text ≠ c₂.text ∨ ¬ Covers C s₁ c₁ ∨ ¬ Covers C s₂ c₂ :=
  HexProof.not_both_iff (fun _ => accepts_iff) (fun _ => accepts_iff)

/-- **Between texts of 64 digits, the proof fixes all it is computed from.** -/
theorem spend_eq_of_accepts {s₁ s₂ : State} {proof : String} {c₁ c₂ : HexProof.Call String}
    (h₁ : Accepts C s₁ proof c₁) (h₂ : Accepts C s₂ proof c₂)
    (hcoll : NoCollision C.sha256 proof c₁.text c₂.text) (hreg₁ : c₁.spend.Regular)
    (hreg₂ : c₂.spend.Regular) : c₁.spend = c₂.spend :=
  Spend.eq_of_text_eq hreg₁ hreg₂
    (HexProof.text_eq_of_tagged (accepts_iff.mp h₁).2.2 (accepts_iff.mp h₂).2.2 hcoll)

/-! ## One proof for several calls -/

/-- **A state that a deposit of some amount leaves**, of a contract whose tree
has depth two. -/
structure Deposited (C : Crypto) (commitment : String) (amount : BitVec 128) (s : State) :
    Prop where
  tree : TreeHolds C 2 3 [commitment] s
  balance : s.poolBalance = amount
  unspent : ∀ n, s.nullifierSpent n = false
  listed : s.epochNullifiers s.currentEpochId = some []
  room : s.config.maxNullifiersPerEpoch = 4
  governance : s.config.governance = "gov"

/-- A deposit of some amount. -/
def depositCall (commitment : String) (amount : BitVec 128) : Call :=
  ⟨2, ⟨"alice", [⟨"uatom", amount⟩]⟩, .deposit commitment⟩

theorem exists_deposited (C : Crypto) {commitment : String} (hcommitment : IsHex64 commitment)
    {amount : BitVec 128} (hamount : amount ≠ 0) :
    ∃ s₀ s, instantiate C 1 shallowMsg = .ok s₀ ∧ step C (depositCall commitment amount) s₀ = .ok s
      ∧ Deposited C commitment amount s := by
  obtain ⟨s₀, hs₀, htree⟩ :=
    exists_instantiate (C := C) 1 (show 1 ≤ shallowMsg.rootHistorySize.toNat by decide)
  obtain ⟨st, rfl⟩ := exists_initial hs₀
  have hrecorded : TreeHolds C 2 3 [] (recorded (initial 1 shallowMsg st) commitment) :=
    htree.of_eq rfl rfl rfl rfl rfl
  obtain ⟨i, s₁, hinsert, htree₁⟩ := hrecorded.exists_insertLeaf (by decide) (by decide)
    hcommitment
  obtain ⟨t, rfl⟩ := exists_withTree hinsert
  have hfits : (initial 1 shallowMsg st).poolBalance.toNat + amount.toNat < 2 ^ 128 := by
    rw [show (initial 1 shallowMsg st).poolBalance.toNat = 0 from rfl, Nat.zero_add]
    exact amount.isLt
  have hdeposit : executeDeposit C ⟨"alice", [⟨"uatom", amount⟩]⟩ commitment
      (initial 1 shallowMsg st) = .ok _ :=
    executeDeposit_eq_ok.mpr ⟨hamount, Bool.false_ne_true, i, _, hinsert, hfits, rfl⟩
  exact ⟨_, _, hs₀, congrArg (Except.map Prod.fst) hdeposit,
    htree₁.of_eq rfl rfl rfl rfl rfl, BitVec.zero_add amount, fun _ => rfl, rfl, rfl, rfl⟩

/-- **It covers every call on its root** that pays what is there. -/
theorem Deposited.covers {commitment : String} {amount : BitVec 128} {s : State}
    (h : Deposited C commitment amount s) {c : HexProof.Call String}
    (hwf : c.spend.WellFormed) (hpayable : Payable s c)
    (hroot : c.spend.merkleRoot = HashTree.root (hashText C.hash) ZERO_HASH 2 [commitment])
    (hout₁ : IsHex64 c.spend.outputCommitments.1)
    (hout₂ : IsHex64 c.spend.outputCommitments.2) : Covers C s c := by
  have hne : c.spend.merkleRoot ≠ ZERO_HASH := by
    intro hzero
    have hroot_ne := hwf.root_ne
    rw [hzero] at hroot_ne
    revert hroot_ne
    decide +kernel
  have hspent : TreeHolds C 2 3 [commitment] (spentTwo s c.spend.nullifiers) :=
    h.tree.of_eq rfl rfl rfl rfl rfl
  obtain ⟨i₁, s₁, hinsert₁, htree₁⟩ := hspent.exists_insertLeaf (by decide)
    (show 1 < 4 by decide) hout₁
  obtain ⟨i₂, s₂, hinsert₂, -⟩ := htree₁.exists_insertLeaf (by decide)
    (show 2 < 4 by decide) hout₂
  refine ⟨hpayable, ?_, ⟨h.unspent _, h.unspent _, hwf.nullifiers_ne, ?_, ?_⟩, hwf, s₂, i₁,
    s₁, i₂, hinsert₁, hinsert₂⟩
  · obtain ⟨earlier, heq⟩ :=
      AppendTree.exists_rootHistory_eq (hashText C.hash) ZERO_HASH 2 [commitment]
    rw [h.tree.isKnownRoot_eq hne, heq, hroot]
    simp
  · rw [h.listed]
    rfl
  · unfold epochList
    rw [h.listed, h.room]
    decide

/-- The root of the tree with the leaf seven. -/
def firstRoot : String := Bytes32.toHex (HashTree.root PoseidonHasher.hash 0 2 [7])

/-- The root that the contract shows is that text. -/
theorem root_eq_firstRoot (sha256 : Bytes → Bytes32) :
    HashTree.root (hashText (Crypto.mk PoseidonHasher.hash sha256).hash) ZERO_HASH 2
      [Bytes32.toHex 7] = firstRoot := by
  have hlower : IsLowerHex64 (HashTree.root (hashText PoseidonHasher.hash) ZERO_HASH 2
      [Bytes32.toHex 7]) := Bytes32.isLowerHex64_toHex _
  have hword := hexWord_root PoseidonHasher.hash 2 [Bytes32.toHex 7]
  rw [List.map_singleton, Bytes32.hexWord_toHex] at hword
  rw [firstRoot, ← hword, Bytes32.toHex_hexWord hlower]

theorem isZeros_firstRoot : HexProof.isZeros firstRoot = false := by
  have hroot : HashTree.root PoseidonHasher.hash 0 2 [7] ≠ 0 := by decide +kernel
  exact HexProof.isZeros_toHex hroot

/-- **Four calls are accepted with one proof**, in one and the same state that
the contract gets into with its own hash for the tree, whatever the other hash
is: they have one text, so no two different ones are hashed to the same. -/
theorem exists_proof_shared_by_four : (fourCalls firstRoot).Nodup ∧ ∀ sha256 : Bytes → Bytes32,
    ∃ s proof, Reachable ⟨PoseidonHasher.hash, sha256⟩ s
      ∧ (∀ c ∈ fourCalls firstRoot, Accepts ⟨PoseidonHasher.hash, sha256⟩ s proof c)
      ∧ ∀ c ∈ fourCalls firstRoot, ∀ c' ∈ fourCalls firstRoot, c.text = c'.text := by
  refine ⟨HexProof.nodup_fourCalls firstRoot, fun sha256 => ?_⟩
  obtain ⟨s₀, s, hs₀, hstep, hdeposited⟩ := exists_deposited ⟨PoseidonHasher.hash, sha256⟩
    (Bytes32.isLowerHex64_toHex 7).isHex64 (show (100 : BitVec 128) ≠ 0 by decide)
  have hreach : Reachable ⟨PoseidonHasher.hash, sha256⟩ s :=
    ⟨1, shallowMsg, _, s₀, hs₀, Run.nil.snoc trivial hstep⟩
  have hpayable : ∀ c ∈ fourCalls firstRoot, Payable s c := by
    simp [fourCalls, Payable, hdeposited.balance]
  have hhex : ∀ w, IsHex64 (Bytes32.toHex w) := fun w => (Bytes32.isLowerHex64_toHex w).isHex64
  refine ⟨s, HexProof.proofOf sha256 (HexProof.spendOf firstRoot ("1a", "b")).text, hreach,
    fun c hc => ?_, fun c hc c' hc' => (HexProof.text_of_mem_fourCalls hc).trans
      (HexProof.text_of_mem_fourCalls hc').symm⟩
  obtain ⟨hmerkle, houtputs⟩ := HexProof.root_of_mem_fourCalls hc
  have hcovers : Covers ⟨PoseidonHasher.hash, sha256⟩ s c :=
    hdeposited.covers (HexProof.wellFormed_of_mem_fourCalls isZeros_firstRoot hc) (hpayable c hc)
      (hmerkle.trans (root_eq_firstRoot sha256).symm) (houtputs ▸ hhex 4) (houtputs ▸ hhex 5)
  exact accepts_iff.mpr ⟨hcovers, HexProof.shaped_proofOf _,
    (HexProof.text_of_mem_fourCalls hc).symm ▸ HexProof.tagged_proofOf _⟩

end CosmWasmPool
