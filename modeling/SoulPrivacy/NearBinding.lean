import SoulPrivacy.NearPool

/-!
# What a proof of the NEAR pool is bound to

The NEAR pool verifies its proofs as the CosmWasm pool does, with another hash
function: the tag is computed from the root, the nullifiers and the outputs, one
after the other, and from nothing else. So a withdrawal that is seen before it
is included can be made with the same proof to another account and for another
amount (`exists_front_run`), and no proof serves for two calls exactly when
their texts differ (`no_front_run_iff`).
-/

namespace NearPool

open HexProof (Shaped Tagged NoCollision Spend fourCalls)

variable {AccountId : Type} {keccak256 : Bytes → Bytes32}

/-! ## What the parts of a method do -/

theorem insertLeaf_eq_ok {leaf : String} {s : State AccountId} {r : ℕ × State AccountId} :
    insertLeaf keccak256 leaf s = .ok r ↔
      s.nextLeafIndex < 2 ^ TREE_DEPTH ∧ (s.nextLeafIndex, inserted keccak256 leaf s) = r := by
  unfold insertLeaf
  rw [revertIf_bind_eq_ok, not_le]
  refine and_congr_right (fun _ => ?_)
  exact ⟨Except.ok.inj, congrArg _⟩

theorem spendStep_eq_ok {st st' : (String → Bool) × List String} {nullifier : String} :
    spendStep st nullifier = .ok st' ↔
      st.1 nullifier = false ∧ st.2.length < MAX_NULLIFIERS_PER_EPOCH
        ∧ (Function.update st.1 nullifier true, st.2 ++ [nullifier]) = st' := by
  unfold spendStep
  rw [revertIf_bind_eq_ok, revertIf_bind_eq_ok, not_le, Bool.not_eq_true]
  refine and_congr_right (fun _ => and_congr_right (fun _ => ?_))
  exact ⟨Except.ok.inj, congrArg _⟩

/-- The nullifiers of the current epoch. -/
def currentList (s : State AccountId) : List String :=
  (s.epochNullifiers s.currentEpochId).getD []

/-- **Two nullifiers that can be spent**: they are new and differ, and the epoch
has room for both. -/
structure Spendable (s : State AccountId) (nullifiers : String × String) : Prop where
  fst : s.nullifierSpent nullifiers.1 = false
  snd : s.nullifierSpent nullifiers.2 = false
  ne : nullifiers.1 ≠ nullifiers.2
  room : (currentList s).length + 1 < MAX_NULLIFIERS_PER_EPOCH

/-- … and the state after they were. -/
def spentTwo (s : State AccountId) (nullifiers : String × String) : State AccountId :=
  { s with
    nullifierSpent :=
      Function.update (Function.update s.nullifierSpent nullifiers.1 true) nullifiers.2 true
    epochNullifiers := Function.update s.epochNullifiers s.currentEpochId
      (some (currentList s ++ [nullifiers.1] ++ [nullifiers.2])) }

theorem checkAndSpendNullifiers_eq_ok {nullifiers : String × String} {s s' : State AccountId} :
    checkAndSpendNullifiers [nullifiers.1, nullifiers.2] s = .ok s' ↔
      Spendable s nullifiers ∧ spentTwo s nullifiers = s' := by
  have hspent : Function.update s.nullifierSpent nullifiers.1 true nullifiers.2 = false ↔
      s.nullifierSpent nullifiers.2 = false ∧ nullifiers.1 ≠ nullifiers.2 := by
    rw [← Bool.not_eq_true, ← Bool.not_eq_true, update_true_eq_true, not_or, ne_comm]
  have hlen : ((s.epochNullifiers s.currentEpochId).getD [] ++ [nullifiers.1]).length
      = (currentList s).length + 1 := by
    rw [List.length_append]
    rfl
  unfold checkAndSpendNullifiers
  simp only [List.foldlM_cons, List.foldlM_nil, Except.bind_eq_ok, spendStep_eq_ok]
  constructor
  · rintro ⟨_, ⟨_, ⟨h₁, -, rfl⟩, _, ⟨h₂, hroom, rfl⟩, hst⟩, hs⟩
    obtain ⟨h₂, hne⟩ := hspent.mp h₂
    cases hst
    exact ⟨⟨h₁, h₂, hne, by rwa [hlen] at hroom⟩, Except.ok.inj hs⟩
  · rintro ⟨⟨h₁, h₂, hne, hroom⟩, rfl⟩
    exact ⟨_, ⟨_, ⟨h₁, Nat.lt_of_succ_lt hroom, rfl⟩, _,
      ⟨hspent.mpr ⟨h₂, hne⟩, by rwa [hlen], rfl⟩, rfl⟩, rfl⟩

/-- The state after the two outputs were inserted. -/
def insertedTwo (keccak256 : Bytes → Bytes32) (outputs : String × String)
    (s : State AccountId) : State AccountId :=
  inserted keccak256 outputs.2 (inserted keccak256 outputs.1 s)

/-- **What a spend needs and does.** -/
theorem spend_eq_ok {proof : String} {c : Spend} {s s' : State AccountId} :
    spend keccak256 proof c.merkleRoot [c.nullifiers.1, c.nullifiers.2]
        [c.outputCommitments.1, c.outputCommitments.2] s = .ok s' ↔
      isKnownRoot s c.merkleRoot = true ∧ Spendable s c.nullifiers
        ∧ (Shaped proof ∧ c.WellFormed ∧ Tagged keccak256 proof c.text)
        ∧ s.nextLeafIndex + 1 < 2 ^ TREE_DEPTH
        ∧ insertedTwo keccak256 c.outputCommitments (spentTwo s c.nullifiers) = s' := by
  unfold spend
  simp only [Except.bind_eq_ok, revertIf_eq_ok, orRevert_eq_ok, checkAndSpendNullifiers_eq_ok,
    insertLeaf_eq_ok, Bool.not_eq_false, HexProof.verifyProofBinding_iff]
  constructor
  · rintro ⟨-, hknown, _, ⟨hspendable, rfl⟩, -, hverified, o₁, ho₁, _, ⟨-, rfl⟩, o₂, ho₂, _,
      ⟨hroom, rfl⟩, hs⟩
    cases ho₁
    cases ho₂
    exact ⟨hknown, hspendable, hverified, hroom, Except.ok.inj hs⟩
  · rintro ⟨hknown, hspendable, hverified, hroom, rfl⟩
    exact ⟨(), hknown, _, ⟨hspendable, rfl⟩, (), hverified, _, rfl, _,
      ⟨Nat.lt_of_succ_lt hroom, rfl⟩, _, rfl, _, ⟨hroom, rfl⟩, rfl⟩

/-! ## Calls with a proof -/

/-- The method that makes a call with a proof. -/
def methodOf (proof : String) : HexProof.Call AccountId → Method AccountId
  | .transfer c => .transfer proof c.merkleRoot [c.nullifiers.1, c.nullifiers.2]
    [c.outputCommitments.1, c.outputCommitments.2]
  | .withdraw c recipient exitValue =>
    .withdraw proof c.merkleRoot [c.nullifiers.1, c.nullifiers.2]
      [c.outputCommitments.1, c.outputCommitments.2] recipient exitValue

variable [DecidableEq AccountId]

/-- A withdrawal that goes through has two nullifiers and two outputs. -/
theorem exists_methodOf_withdraw {ctx : Context AccountId} {proof merkleRoot : String}
    {nullifiers outputs : List String} {recipient : AccountId} {exitValue : BitVec 128}
    {s : State AccountId} {r : State AccountId × List (Promise AccountId)}
    (h : exec keccak256 ctx (.withdraw proof merkleRoot nullifiers outputs recipient exitValue) s
      = .ok r) :
    ∃ c, Method.withdraw proof merkleRoot nullifiers outputs recipient exitValue
      = methodOf proof c := by
  unfold exec withdraw at h
  simp only [Except.bind_eq_ok, revertIf_eq_ok, not_not] at h
  obtain ⟨-, -, ⟨_, _⟩, ⟨-, hn, -, ho, -⟩, -⟩ := h
  obtain ⟨n₁, n₂, rfl⟩ := List.length_eq_two.mp hn
  obtain ⟨o₁, o₂, rfl⟩ := List.length_eq_two.mp ho
  exact ⟨.withdraw ⟨merkleRoot, (n₁, n₂), o₁, o₂⟩ recipient exitValue, rfl⟩

/-- … and so has a transfer. -/
theorem exists_methodOf_transfer {ctx : Context AccountId} {proof merkleRoot : String}
    {nullifiers outputs : List String} {s : State AccountId}
    {r : State AccountId × List (Promise AccountId)}
    (h : exec keccak256 ctx (.transfer proof merkleRoot nullifiers outputs) s = .ok r) :
    ∃ c : HexProof.Call AccountId,
      Method.transfer proof merkleRoot nullifiers outputs = methodOf proof c := by
  unfold exec transfer at h
  simp only [Except.bind_eq_ok, revertIf_eq_ok, not_not] at h
  obtain ⟨-, -, _, ⟨-, hn, -, ho, -⟩, -⟩ := h
  obtain ⟨n₁, n₂, rfl⟩ := List.length_eq_two.mp hn
  obtain ⟨o₁, o₂, rfl⟩ := List.length_eq_two.mp ho
  exact ⟨.transfer ⟨merkleRoot, (n₁, n₂), o₁, o₂⟩, rfl⟩

/-- **The contract accepts a call with a proof.** -/
def Accepts (keccak256 : Bytes → Bytes32) (s : State AccountId) (proof : String)
    (c : HexProof.Call AccountId) : Prop :=
  ∃ ctx r, exec keccak256 ctx (methodOf proof c) s = .ok r

/-- What a call pays out is there. -/
def Payable (s : State AccountId) : HexProof.Call AccountId → Prop
  | .transfer _ => True
  | .withdraw _ _ exitValue => exitValue ≠ 0 ∧ exitValue ≤ s.poolBalance

/-- **What is checked besides the proof.** -/
structure Covers (s : State AccountId) (c : HexProof.Call AccountId) : Prop where
  payable : Payable s c
  known : isKnownRoot s c.spend.merkleRoot = true
  spendable : Spendable s c.spend.nullifiers
  wellFormed : c.spend.WellFormed
  room : s.nextLeafIndex + 1 < 2 ^ TREE_DEPTH

/-- **When a call goes through.** -/
theorem accepts_iff {s : State AccountId} {proof : String} {c : HexProof.Call AccountId} :
    Accepts keccak256 s proof c ↔ Covers s c ∧ Shaped proof ∧ Tagged keccak256 proof c.text := by
  unfold Accepts exec
  cases c with
  | transfer c =>
    simp only [methodOf, transfer, Except.bind_eq_ok, revertIf_eq_ok, spend_eq_ok]
    constructor
    · rintro ⟨ctx, r, -, -, s', ⟨-, -, -, -, hknown, hspendable, ⟨hshaped, hwf, htagged⟩, hroom,
        -⟩, -⟩
      exact ⟨⟨trivial, hknown, hspendable, hwf, hroom⟩, hshaped, htagged⟩
    · rintro ⟨⟨-, hknown, hspendable, hwf, hroom⟩, hshaped, htagged⟩
      exact ⟨⟨s.governance, 0, 0⟩, _, (), not_not.mpr rfl, _, ⟨(), not_not.mpr rfl, (),
        not_not.mpr rfl, hknown, hspendable, ⟨hshaped, hwf, htagged⟩, hroom, rfl⟩, rfl⟩
  | withdraw c recipient exitValue =>
    simp only [methodOf, withdraw, Except.bind_eq_ok, revertIf_eq_ok, spend_eq_ok,
      BitVec.not_lt]
    constructor
    · rintro ⟨ctx, r, -, -, p, ⟨-, -, -, -, -, hexit, -, hbalance, s', ⟨hknown, hspendable,
        ⟨hshaped, hwf, htagged⟩, hroom, -⟩, -⟩, -⟩
      exact ⟨⟨⟨hexit, hbalance⟩, hknown, hspendable, hwf, hroom⟩, hshaped, htagged⟩
    · rintro ⟨⟨⟨hexit, hbalance⟩, hknown, hspendable, hwf, hroom⟩, hshaped, htagged⟩
      exact ⟨⟨s.governance, 0, 0⟩, _, (), not_not.mpr rfl, _, ⟨(), not_not.mpr rfl, (),
        not_not.mpr rfl, (), hexit, (), hbalance, _, ⟨hknown, hspendable,
        ⟨hshaped, hwf, htagged⟩, hroom, rfl⟩, rfl⟩, rfl⟩

/-- **No proof is accepted for both of two calls if and only if their texts
differ**, or the state that one of them meets fails another of its checks. -/
theorem no_front_run_iff (keccak256 : Bytes → Bytes32) (s₁ s₂ : State AccountId)
    (c₁ c₂ : HexProof.Call AccountId) :
    (∀ proof, NoCollision keccak256 proof c₁.text c₂.text →
        ¬ (Accepts keccak256 s₁ proof c₁ ∧ Accepts keccak256 s₂ proof c₂))
      ↔ c₁.text ≠ c₂.text ∨ ¬ Covers s₁ c₁ ∨ ¬ Covers s₂ c₂ :=
  HexProof.not_both_iff (fun _ => accepts_iff) (fun _ => accepts_iff)

/-- **Between texts of 64 digits, the proof fixes all it is computed from.** -/
theorem spend_eq_of_accepts {s₁ s₂ : State AccountId} {proof : String}
    {c₁ c₂ : HexProof.Call AccountId} (h₁ : Accepts keccak256 s₁ proof c₁)
    (h₂ : Accepts keccak256 s₂ proof c₂)
    (hcoll : NoCollision keccak256 proof c₁.text c₂.text) (hreg₁ : c₁.spend.Regular)
    (hreg₂ : c₂.spend.Regular) : c₁.spend = c₂.spend :=
  Spend.eq_of_text_eq hreg₁ hreg₂
    (HexProof.text_eq_of_tagged (accepts_iff.mp h₁).2.2 (accepts_iff.mp h₂).2.2 hcoll)

/-! ## One proof for several calls -/

omit [DecidableEq AccountId] in
/-- The latest root after an insertion is the hash computed last. -/
theorem exists_getLatestRoot_eq (keccak256 : Bytes → Bytes32) (leaf : String)
    (s : State AccountId) :
    ∃ data, getLatestRoot (inserted keccak256 leaf s) = Bytes32.toHex (keccak256 data) := by
  have hstep : ∀ st level, ∃ data,
      (insertStep keccak256 st level).currentHash = Bytes32.toHex (keccak256 data) := by
    intro st level
    unfold insertStep
    split
    · exact ⟨_, rfl⟩
    · exact ⟨_, rfl⟩
  have hlatest : getLatestRoot (inserted keccak256 leaf s) = (insertStep keccak256
      ((List.range 31).foldl (insertStep keccak256) ⟨s.nextLeafIndex, leaf, s.filledSubtrees⟩)
      31).currentHash := by
    unfold getLatestRoot inserted
    dsimp only
    rw [Function.update_self, Option.getD_some, TREE_DEPTH, List.range_succ, List.foldl_append,
      List.foldl_cons, List.foldl_nil]
  rw [hlatest]
  exact hstep _ 31

omit [DecidableEq AccountId] in
/-- **The latest root is known.** -/
theorem isKnownRoot_getLatestRoot (leaf : String) (s : State AccountId)
    (hroot : getLatestRoot (inserted keccak256 leaf s) ≠ ZERO_HASH) :
    isKnownRoot (inserted keccak256 leaf s) (getLatestRoot (inserted keccak256 leaf s))
      = true := by
  have hentry : (inserted keccak256 leaf s).roots (inserted keccak256 leaf s).currentRootIndex
      = some (getLatestRoot (inserted keccak256 leaf s)) := by
    unfold getLatestRoot inserted
    dsimp only
    rw [Function.update_self, Option.getD_some]
  unfold isKnownRoot
  rw [if_neg hroot, ROOT_HISTORY_SIZE, searchRoots]
  exact if_pos hentry

omit [DecidableEq AccountId] in
/-- What the pool holds makes no difference to its roots. -/
theorem isKnownRoot_withBalance (s : State AccountId) (balance : BitVec 128) (root : String) :
    isKnownRoot { s with poolBalance := balance } root = isKnownRoot s root := rfl

/-- A new pool with one leaf. -/
def oneLeaf (keccak256 : Bytes → Bytes32) : State String :=
  let s := new keccak256 "governance.testnet" 1313 1 0
  inserted keccak256 (Bytes32.toHex 7) { s with
    commitmentExists := Function.update s.commitmentExists (Bytes32.toHex 7) true }

/-- … after a deposit of 100. -/
def afterDeposit (keccak256 : Bytes → Bytes32) : State String :=
  { oneLeaf keccak256 with poolBalance := 100 }

theorem reachable_afterDeposit (keccak256 : Bytes → Bytes32) :
    Reachable keccak256 (afterDeposit keccak256) := by
  have hstep : step keccak256 ⟨⟨"alice.testnet", 100, 1⟩, .deposit (Bytes32.toHex 7)⟩
      (new keccak256 "governance.testnet" 1313 1 0) = .ok (afterDeposit keccak256) := rfl
  exact ⟨_, _, _, _, _, Run.nil.snoc trivial hstep⟩

/-- The root of the one leaf is not zero. -/
theorem isZeros_getLatestRoot {keccak256 : Bytes → Bytes32}
    (hroot : getLatestRoot (oneLeaf keccak256) ≠ ZERO_HASH) :
    HexProof.isZeros (getLatestRoot (oneLeaf keccak256)) = false := by
  obtain ⟨data, heq⟩ : ∃ data, getLatestRoot (oneLeaf keccak256)
      = Bytes32.toHex (keccak256 data) := exists_getLatestRoot_eq keccak256 _ _
  rw [heq] at hroot ⊢
  refine HexProof.isZeros_toHex (fun hzero => hroot ?_)
  rw [hzero, LinearRoots.toHex_zero]

/-- All four calls are covered there. -/
theorem covers_of_mem_fourCalls {keccak256 : Bytes → Bytes32}
    (hroot : getLatestRoot (oneLeaf keccak256) ≠ ZERO_HASH) :
    ∀ c ∈ fourCalls (getLatestRoot (oneLeaf keccak256)), Covers (afterDeposit keccak256) c := by
  have hknown : isKnownRoot (afterDeposit keccak256) (getLatestRoot (oneLeaf keccak256))
      = true := by
    rw [afterDeposit, isKnownRoot_withBalance]
    exact isKnownRoot_getLatestRoot _ _ hroot
  have hzeros := isZeros_getLatestRoot hroot
  generalize getLatestRoot (oneLeaf keccak256) = merkleRoot at hknown hzeros
  have hlist : currentList (afterDeposit keccak256) = [] := rfl
  have hindex : (afterDeposit keccak256).nextLeafIndex = 1 := rfl
  have hbalance : (afterDeposit keccak256).poolBalance = 100 := rfl
  have hpayable : ∀ c ∈ fourCalls merkleRoot, Payable (afterDeposit keccak256) c := by
    simp [fourCalls, Payable, hbalance]
  intro c hc
  have hwf := HexProof.wellFormed_of_mem_fourCalls hzeros hc
  have hmerkle := (HexProof.root_of_mem_fourCalls hc).1
  refine ⟨hpayable c hc, by rw [hmerkle, hknown], ⟨rfl, rfl, hwf.nullifiers_ne, ?_⟩, hwf, ?_⟩
  · rw [hlist, MAX_NULLIFIERS_PER_EPOCH]
    decide
  · rw [hindex, TREE_DEPTH]
    decide

/-- **All four are accepted with one proof**, in one and the same state that the
contract gets into, for every hash function under which the root of the first
deposit is not zero: they have one text, so no two different ones are hashed to
the same. -/
theorem exists_front_run : (∃ keccak256, getLatestRoot (oneLeaf keccak256) ≠ ZERO_HASH)
    ∧ ∀ keccak256 : Bytes → Bytes32, getLatestRoot (oneLeaf keccak256) ≠ ZERO_HASH →
      ∃ s proof merkleRoot, Reachable keccak256 s ∧ (fourCalls merkleRoot).Nodup
        ∧ (∀ c ∈ fourCalls merkleRoot, Accepts keccak256 s proof c)
        ∧ ∀ c ∈ fourCalls merkleRoot, ∀ c' ∈ fourCalls merkleRoot, c.text = c'.text := by
  constructor
  · refine ⟨fun _ => 1, ?_⟩
    obtain ⟨data, hroot⟩ : ∃ data : Bytes, getLatestRoot (oneLeaf (fun _ => 1))
        = Bytes32.toHex 1 := exists_getLatestRoot_eq (fun _ => 1) _ _
    have hne : Bytes32.toHex 1 ≠ Bytes32.toHex 0 := Bytes32.toHex_injective.ne (by decide)
    rwa [hroot, ← LinearRoots.toHex_zero]
  · intro keccak256 hroot
    have hcovers := covers_of_mem_fourCalls hroot
    generalize getLatestRoot (oneLeaf keccak256) = merkleRoot at hcovers
    refine ⟨afterDeposit keccak256,
      HexProof.proofOf keccak256 (HexProof.spendOf merkleRoot ("1a", "b")).text, merkleRoot,
      reachable_afterDeposit keccak256, HexProof.nodup_fourCalls merkleRoot, fun c hc => ?_,
      fun c hc c' hc' => (HexProof.text_of_mem_fourCalls hc).trans
        (HexProof.text_of_mem_fourCalls hc').symm⟩
    exact accepts_iff.mpr ⟨hcovers c hc, HexProof.shaped_proofOf _,
      (HexProof.text_of_mem_fourCalls hc).symm ▸ HexProof.tagged_proofOf _⟩

end NearPool
