import SoulPrivacy.AppendTree
import SoulPrivacy.NearEffect

/-!
# The tree of the NEAR pool

The tree holds texts, and hashes two of them as one text, the left before the
right. Above the leaves all texts are 64 digits, and the left one can be cut off
again. A leaf is whatever text a deposit or a spend comes with: two leaves of a
pair are hashed as the one text they make together, wherever the first of them
ends.

So the latest root and the number of leaves determine the leaves exactly up to
where the pairs are cut (`leaves_eq_iff`).
-/

namespace NearPool

open AppendTree (Appending climbStep climbTo climbTo_succ)
open HashTree (emptyNode node nodePairs padded Separates)
open RustString (asBytes len)

variable {AccountId : Type} {keccak256 : Bytes → Bytes32}

/-! ## The state over the leaves -/

/-- The levels of the tree, zero where there is no entry. -/
def kept (filled : ℕ → Option String) (level : ℕ) : String := (filled level).getD ZERO_HASH

/-- The state of the loop, as that of the climb. -/
def Climb.toClimb (st : Climb) : AppendTree.Climb String :=
  ⟨st.currentIndex, st.currentHash, kept st.filledSubtrees⟩

theorem zeroHash_eq (level : ℕ) :
    zeroHash keccak256 level = emptyNode (poseidonHashHex keccak256) ZERO_HASH level := by
  induction level with
  | zero => rfl
  | succ level ih => rw [zeroHash, emptyNode, ih]

theorem kept_update (filled : ℕ → Option String) (level : ℕ) (t : String) :
    kept (Function.update filled level (some t)) = Function.update (kept filled) level t := by
  funext k
  unfold kept
  rw [Function.update_apply, Function.update_apply]
  split <;> rfl

/-- **A level of the loop is one of the climb.** -/
theorem toClimb_insertStep (st : Climb) (level : ℕ) :
    (insertStep keccak256 st level).toClimb
      = climbStep (poseidonHashHex keccak256) ZERO_HASH st.toClimb level := by
  unfold insertStep climbStep Climb.toClimb
  split
  · dsimp only
    rw [kept_update, zeroHash_eq]
  · rfl

/-- **The loop of an insertion is the climb.** -/
theorem toClimb_insertLoop (index : ℕ) (leaf : String) (filled : ℕ → Option String)
    (height : ℕ) :
    ((List.range height).foldl (insertStep keccak256) ⟨index, leaf, filled⟩).toClimb
      = climbTo (poseidonHashHex keccak256) ZERO_HASH index leaf (kept filled) height := by
  induction height with
  | zero => rfl
  | succ height ih =>
    rw [List.range_succ, List.foldl_append, climbTo_succ, ← ih]
    exact toClimb_insertStep _ height

/-- The root of the tree over some leaves. -/
def treeRoot (keccak256 : Bytes → Bytes32) (leaves : List String) : String :=
  HashTree.root (poseidonHashHex keccak256) ZERO_HASH TREE_DEPTH leaves

/-- **The state holds the tree over some leaves**, and its root is the latest. -/
structure TreeHolds (keccak256 : Bytes → Bytes32) (leaves : List String)
    (s : State AccountId) : Prop where
  tree : Appending (poseidonHashHex keccak256) ZERO_HASH TREE_DEPTH leaves s.nextLeafIndex
    (kept s.filledSubtrees)
  latest : getLatestRoot s = treeRoot keccak256 leaves
  le : leaves.length ≤ 2 ^ TREE_DEPTH

/-- **A new contract holds the empty tree.** -/
theorem treeHolds_new (governance : AccountId) (domainChainId domainAppId : BitVec 32)
    (blockHeight : ℕ) :
    TreeHolds keccak256 [] (new keccak256 governance domainChainId domainAppId blockHeight) where
  tree := Appending.nil _ _ _ _
  latest := by
    have hloop : ∀ height, ((List.range height).foldl (newStep keccak256)
        (fun _ => none, ZERO_HASH)).2 = emptyNode (poseidonHashHex keccak256) ZERO_HASH height := by
      intro height
      induction height with
      | zero => rfl
      | succ height ih =>
        rw [List.range_succ, List.foldl_append, emptyNode, ← ih]
        rfl
    unfold getLatestRoot new treeRoot
    dsimp only
    rw [Function.update_self, Option.getD_some, hloop, HashTree.root_nil]
  le := Nat.zero_le _

theorem kept_inserted (leaf : String) (s : State AccountId) :
    kept (inserted keccak256 leaf s).filledSubtrees
      = (climbTo (poseidonHashHex keccak256) ZERO_HASH s.nextLeafIndex leaf
        (kept s.filledSubtrees) TREE_DEPTH).kept := by
  rw [← toClimb_insertLoop]
  unfold inserted Climb.toClimb
  dsimp only

theorem getLatestRoot_inserted (leaf : String) (s : State AccountId) :
    getLatestRoot (inserted keccak256 leaf s)
      = (climbTo (poseidonHashHex keccak256) ZERO_HASH s.nextLeafIndex leaf
        (kept s.filledSubtrees) TREE_DEPTH).currentHash := by
  rw [← toClimb_insertLoop]
  unfold getLatestRoot inserted Climb.toClimb
  dsimp only
  rw [Function.update_self, Option.getD_some]

/-- **An insertion extends the leaves by one.** -/
theorem TreeHolds.inserted {leaves : List String} {s : State AccountId}
    (h : TreeHolds keccak256 leaves s) (hroom : s.nextLeafIndex < 2 ^ TREE_DEPTH)
    (leaf : String) :
    TreeHolds keccak256 (leaves ++ [leaf]) (NearPool.inserted keccak256 leaf s) where
  tree := by
    rw [kept_inserted]
    exact h.tree.append leaf
  latest := by
    rw [getLatestRoot_inserted]
    exact h.tree.root (h.tree.nextIndex ▸ hroom) leaf
  le := by
    rw [List.length_append, List.length_singleton, ← h.tree.nextIndex]
    exact hroom

/-- What else a state has makes no difference to its tree. -/
theorem TreeHolds.of_eq {leaves : List String} {s s' : State AccountId}
    (h : TreeHolds keccak256 leaves s) (hindex : s'.nextLeafIndex = s.nextLeafIndex)
    (hfilled : s'.filledSubtrees = s.filledSubtrees) (hroots : s'.roots = s.roots)
    (hcurrent : s'.currentRootIndex = s.currentRootIndex) : TreeHolds keccak256 leaves s' where
  tree := hindex ▸ hfilled ▸ h.tree
  latest := by
    unfold getLatestRoot
    rw [hroots, hcurrent]
    exact h.latest
  le := h.le

/-- The balance does not matter either. -/
theorem TreeHolds.withBalance {leaves : List String} {s : State AccountId}
    (h : TreeHolds keccak256 leaves s) (balance : BitVec 128) :
    TreeHolds keccak256 leaves { s with poolBalance := balance } :=
  h.of_eq rfl rfl rfl rfl

/-! ## The leaves of a run -/

/-- The leaves a method inserts. -/
def Method.inserts : Method AccountId → List String
  | .deposit commitment => [commitment]
  | .transfer _ _ _ outputCommitments => outputCommitments
  | .withdraw _ _ _ outputCommitments _ _ => outputCommitments
  | _ => []

/-- **The leaves inserted in a run**, in that order. -/
def insertedIn (tr : List (State AccountId × Call AccountId)) : List String :=
  tr.flatMap (fun p => p.2.method.inserts)

theorem insertedIn_snoc (tr : List (State AccountId × Call AccountId))
    (p : State AccountId × Call AccountId) :
    insertedIn (tr ++ [p]) = insertedIn tr ++ p.2.method.inserts := by
  unfold insertedIn
  rw [List.flatMap_append, List.flatMap_singleton]

variable [DecidableEq AccountId]

/-- **The runs of a contract.** -/
def RunFrom (keccak256 : Bytes → Bytes32) (tr : List (State AccountId × Call AccountId))
    (s : State AccountId) : Prop :=
  ∃ governance domainChainId domainAppId blockHeight,
    Run (step keccak256) (fun _ _ => True)
      (new keccak256 governance domainChainId domainAppId blockHeight) tr s

/-- **A step extends the leaves by those of its method.** -/
theorem TreeHolds.step {leaves : List String} {s s' : State AccountId} {c : Call AccountId}
    (h : TreeHolds keccak256 leaves s) (hstep : NearPool.step keccak256 c s = .ok s') :
    TreeHolds keccak256 (leaves ++ c.method.inserts) s' := by
  have hsame := h
  rw [← List.append_nil leaves] at hsame
  have hspend : ∀ {proof : String} {c : HexProof.Spend}, Spends keccak256 s proof c →
      TreeHolds keccak256 (leaves ++ [c.outputCommitments.1, c.outputCommitments.2])
        (afterSpend keccak256 s c) := by
    intro proof c hspends
    have hspent : TreeHolds keccak256 leaves (spentTwo s c.nullifiers) :=
      h.of_eq rfl rfl rfl rfl
    have htwo := (hspent.inserted (Nat.lt_of_succ_lt hspends.room) c.outputCommitments.1).inserted
      hspends.room c.outputCommitments.2
    rwa [List.append_assoc] at htwo
  obtain ⟨promises, heffect⟩ := step_effect hstep
  cases heffect with
  | @deposit _ commitment _ _ room _ =>
    have hrecorded : TreeHolds keccak256 leaves (recorded s commitment) :=
      h.of_eq rfl rfl rfl rfl
    exact (hrecorded.inserted room commitment).withBalance _
  | transfer _ spends => exact hspend spends
  | withdraw _ _ _ spends => exact (hspend spends).withBalance _
  | setAuthorizedRelayer _ _ => exact hsame.of_eq rfl rfl rfl rfl
  | finalizeEpoch _ _ => exact hsame.of_eq rfl rfl rfl rfl
  | syncEpochRoot _ _ => exact hsame.of_eq rfl rfl rfl rfl

/-- **Every run holds the tree over the leaves inserted in it.** -/
theorem treeHolds_of_run {tr : List (State AccountId × Call AccountId)} {s : State AccountId}
    (h : RunFrom keccak256 tr s) : TreeHolds keccak256 (insertedIn tr) s := by
  obtain ⟨governance, domainChainId, domainAppId, blockHeight, hrun⟩ := h
  refine hrun.invariant (I := fun tr s => TreeHolds keccak256 (insertedIn tr) s)
    (treeHolds_new governance domainChainId domainAppId blockHeight) ?_
  intro tr s c s' hholds _ hstep
  rw [insertedIn_snoc]
  exact hholds.step hstep

/-! ## What is hashed -/

/-- **The bytes that are hashed for a pair of texts.** -/
def pairText (p : String × String) : Bytes := asBytes "Poseidon" ++ asBytes p.1 ++ asBytes p.2

/-- **The bytes that are hashed in the tree over some leaves.** -/
def treeTexts (keccak256 : Bytes → Bytes32) (leaves : List String) : List Bytes :=
  (nodePairs (poseidonHashHex keccak256) (padded ZERO_HASH leaves) TREE_DEPTH 0).map pairText

/-- **The hash has no collision** among some bytes. -/
def NoCollisionAmong (keccak256 : Bytes → Bytes32) (texts : List Bytes) : Prop :=
  ∀ x ∈ texts, ∀ y ∈ texts, keccak256 x = keccak256 y → x = y

/-- **The pairs of leaves are cut at the same place**: where there are two, the
first is equally long in both lists. -/
def SameCuts (leaves leaves' : List String) : Prop :=
  ∀ i, 2 * i + 1 < leaves.length →
    (padded ZERO_HASH leaves (2 * i)).length = (padded ZERO_HASH leaves' (2 * i)).length

/-- The bytes of a pair are those of one text. -/
theorem pairText_inj {p q : String × String} :
    pairText p = pairText q ↔ p.1 ++ p.2 = q.1 ++ q.2 := by
  unfold pairText
  rw [List.append_assoc, List.append_assoc, List.append_cancel_left_eq,
    ← RustString.asBytes_append, ← RustString.asBytes_append,
    RustString.asBytes_injective.eq_iff]

/-- A text is cut where its first part ends, … -/
theorem eq_of_append_eq {a b c d : String} (h : a ++ b = c ++ d) (hlen : a.length = c.length) :
    a = c ∧ b = d := by
  have hlist := congrArg String.toList h
  rw [String.toList_append, String.toList_append] at hlist
  obtain ⟨hl, hr⟩ := List.append_inj hlist (by rwa [String.length_toList, String.length_toList])
  exact ⟨String.toList_inj.mp hl, String.toList_inj.mp hr⟩

/-- … or where its second part begins. -/
theorem eq_of_append_eq' {a b c d : String} (h : a ++ b = c ++ d) (hlen : b.length = d.length) :
    a = c ∧ b = d := by
  refine eq_of_append_eq h ?_
  have hsum := congrArg String.length h
  rw [String.length_append, String.length_append] at hsum
  omega

/-- Nodes above the leaves have 64 digits. -/
theorem length_node_succ (leaf : ℕ → String) (k i : ℕ) :
    (node (poseidonHashHex keccak256) leaf (k + 1) i).length = 64 :=
  (String.length_toList ..).symm.trans (Bytes32.isLowerHex64_toHex _).length_eq

/-- The left one of a pair hashed above the leaves has 64 digits. -/
theorem length_of_mem_nodePairs (leaf : ℕ → String) (k i : ℕ) :
    ∀ p ∈ nodePairs (poseidonHashHex keccak256) (node (poseidonHashHex keccak256) leaf 1) k i,
      p.1.length = 64 := by
  intro p hp
  obtain ⟨j, m, -, rfl⟩ := HashTree.exists_of_mem_nodePairs _ _ k i p hp
  dsimp only
  rw [HashTree.node_pairs]
  exact length_node_succ leaf j (2 * m)

/-- **Without collisions, hashed pairs that agree are the same text.** -/
theorem append_eq_of_hash_eq {leaves leaves' : List String}
    (hcoll : NoCollisionAmong keccak256 (treeTexts keccak256 leaves ++ treeTexts keccak256 leaves'))
    {p q : String × String}
    (hp : pairText p ∈ treeTexts keccak256 leaves ++ treeTexts keccak256 leaves')
    (hq : pairText q ∈ treeTexts keccak256 leaves ++ treeTexts keccak256 leaves')
    (h : poseidonHashHex keccak256 p.1 p.2 = poseidonHashHex keccak256 q.1 q.2) :
    p.1 ++ p.2 = q.1 ++ q.2 :=
  pairText_inj.mp (hcoll _ hp _ hq (Bytes32.toHex_injective h))

/-- The trees over two lists of leaves, above the leaves, are told apart. -/
theorem separates_above {leaves leaves' : List String}
    (hcoll : NoCollisionAmong keccak256
      (treeTexts keccak256 leaves ++ treeTexts keccak256 leaves')) :
    Separates (poseidonHashHex keccak256) Eq
      (nodePairs (poseidonHashHex keccak256)
          (node (poseidonHashHex keccak256) (padded ZERO_HASH leaves) 1) 31 0
        ++ nodePairs (poseidonHashHex keccak256)
          (node (poseidonHashHex keccak256) (padded ZERO_HASH leaves') 1) 31 0) := by
  have hmem : ∀ p ∈ nodePairs (poseidonHashHex keccak256)
          (node (poseidonHashHex keccak256) (padded ZERO_HASH leaves) 1) 31 0
        ++ nodePairs (poseidonHashHex keccak256)
          (node (poseidonHashHex keccak256) (padded ZERO_HASH leaves') 1) 31 0,
      p.1.length = 64
        ∧ pairText p ∈ treeTexts keccak256 leaves ++ treeTexts keccak256 leaves' := by
    intro p hp
    rw [List.mem_append] at hp ⊢
    rcases hp with hp | hp
    · exact ⟨length_of_mem_nodePairs _ _ _ p hp,
        Or.inl (List.mem_map_of_mem (HashTree.nodePairs_pairs_subset _ _ _ _ p hp))⟩
    · exact ⟨length_of_mem_nodePairs _ _ _ p hp,
        Or.inr (List.mem_map_of_mem (HashTree.nodePairs_pairs_subset _ _ _ _ p hp))⟩
  intro p hp q hq h
  exact eq_of_append_eq (append_eq_of_hash_eq hcoll (hmem p hp).2 (hmem q hq).2 h)
    ((hmem p hp).1.trans (hmem q hq).1.symm)

/-- The bytes of two leaves are among those hashed. -/
theorem pairText_mem_treeTexts (leaves : List String) {i : ℕ} (hi : i < 2 ^ 31) :
    pairText (padded ZERO_HASH leaves (2 * i), padded ZERO_HASH leaves (2 * i + 1))
      ∈ treeTexts keccak256 leaves := by
  have hpair := HashTree.children_mem_nodePairs (poseidonHashHex keccak256)
    (padded ZERO_HASH leaves) 0 31 i
  rw [Nat.div_eq_of_lt hi] at hpair
  exact List.mem_map_of_mem hpair

/-- **Without collisions, the root determines the text of every pair.** -/
theorem pairs_eq_of_treeRoot_eq {leaves leaves' : List String}
    (hcoll : NoCollisionAmong keccak256
      (treeTexts keccak256 leaves ++ treeTexts keccak256 leaves'))
    (hroot : treeRoot keccak256 leaves = treeRoot keccak256 leaves') {i : ℕ} (hi : i < 2 ^ 31) :
    padded ZERO_HASH leaves (2 * i) ++ padded ZERO_HASH leaves (2 * i + 1)
      = padded ZERO_HASH leaves' (2 * i) ++ padded ZERO_HASH leaves' (2 * i + 1) := by
  have hnode : node (poseidonHashHex keccak256)
        (node (poseidonHashHex keccak256) (padded ZERO_HASH leaves) 1) 31 0
      = node (poseidonHashHex keccak256)
        (node (poseidonHashHex keccak256) (padded ZERO_HASH leaves') 1) 31 0 := by
    rw [HashTree.node_pairs, HashTree.node_pairs]
    exact hroot
  have hlevel := HashTree.leaf_eq_of_node_eq _ 31 0 (separates_above hcoll) hnode
    (j := i) (by rw [Nat.zero_mul]; exact Nat.zero_le i) (by rwa [Nat.zero_add, Nat.one_mul])
  exact append_eq_of_hash_eq hcoll
    (p := (padded ZERO_HASH leaves (2 * i), padded ZERO_HASH leaves (2 * i + 1)))
    (q := (padded ZERO_HASH leaves' (2 * i), padded ZERO_HASH leaves' (2 * i + 1)))
    (List.mem_append_left _ (pairText_mem_treeTexts leaves hi))
    (List.mem_append_right _ (pairText_mem_treeTexts leaves' hi)) hlevel

/-! ## The leaves and the root -/

/-- … and where the pairs are cut at the same place, the leaves themselves. -/
theorem padded_eq_of_sameCuts {leaves leaves' : List String}
    (hcoll : NoCollisionAmong keccak256
      (treeTexts keccak256 leaves ++ treeTexts keccak256 leaves'))
    (hnum : leaves.length = leaves'.length)
    (hroot : treeRoot keccak256 leaves = treeRoot keccak256 leaves')
    (hcuts : SameCuts leaves leaves') {i : ℕ} (hi : i < 2 ^ 31) :
    padded ZERO_HASH leaves (2 * i) = padded ZERO_HASH leaves' (2 * i)
      ∧ padded ZERO_HASH leaves (2 * i + 1) = padded ZERO_HASH leaves' (2 * i + 1) := by
  have hpair := pairs_eq_of_treeRoot_eq hcoll hroot hi
  by_cases hfull : 2 * i + 1 < leaves.length
  · exact eq_of_append_eq hpair (hcuts i hfull)
  · -- the second leaf of the pair is padding in both trees
    refine eq_of_append_eq' hpair ?_
    rw [HashTree.padded_of_length_le _ (not_lt.mp hfull),
      HashTree.padded_of_length_le _ (hnum ▸ not_lt.mp hfull)]

theorem eq_of_sameCuts {leaves leaves' : List String}
    (hcoll : NoCollisionAmong keccak256
      (treeTexts keccak256 leaves ++ treeTexts keccak256 leaves'))
    (hnum : leaves.length = leaves'.length) (hle : leaves.length ≤ 2 ^ TREE_DEPTH)
    (hroot : treeRoot keccak256 leaves = treeRoot keccak256 leaves')
    (hcuts : SameCuts leaves leaves') : leaves = leaves' := by
  refine List.ext_getElem hnum (fun j hj hj' => ?_)
  rw [← HashTree.padded_of_lt ZERO_HASH hj, ← HashTree.padded_of_lt ZERO_HASH hj']
  rw [TREE_DEPTH] at hle
  have hpair := padded_eq_of_sameCuts hcoll hnum hroot hcuts (show j / 2 < 2 ^ 31 by omega)
  rcases Nat.mod_two_eq_zero_or_one j with heven | hodd
  · rw [show j = 2 * (j / 2) from by omega]
    exact hpair.1
  · rw [show j = 2 * (j / 2) + 1 from by omega]
    exact hpair.2

/-- **With the same number of leaves and the same latest root, the leaves are the
same if and only if the pairs are cut at the same place**: where two leaves are
hashed together, the first is as long in one run as in the other. -/
theorem leaves_eq_iff {tr₁ tr₂ : List (State AccountId × Call AccountId)}
    {s₁ s₂ : State AccountId} (h₁ : RunFrom keccak256 tr₁ s₁) (h₂ : RunFrom keccak256 tr₂ s₂)
    (hcoll : NoCollisionAmong keccak256
      (treeTexts keccak256 (insertedIn tr₁) ++ treeTexts keccak256 (insertedIn tr₂)))
    (hnum : s₁.nextLeafIndex = s₂.nextLeafIndex) (hroot : getLatestRoot s₁ = getLatestRoot s₂) :
    insertedIn tr₁ = insertedIn tr₂ ↔ SameCuts (insertedIn tr₁) (insertedIn tr₂) := by
  have hholds₁ := treeHolds_of_run h₁
  have hholds₂ := treeHolds_of_run h₂
  constructor
  · intro heq i _
    rw [heq]
  · rw [hholds₁.tree.nextIndex, hholds₂.tree.nextIndex] at hnum
    rw [hholds₁.latest, hholds₂.latest] at hroot
    exact eq_of_sameCuts hcoll hnum hholds₁.le hroot

/-- **Any texts that differ can be deposited**, one after the other. -/
theorem exists_run_depositing (keccak256 : Bytes → Bytes32) (depositor : AccountId)
    {leaves : List String} (hnodup : leaves.Nodup) (hle : leaves.length ≤ 2 ^ TREE_DEPTH) :
    ∃ tr s, RunFrom keccak256 tr s ∧ insertedIn tr = leaves
      ∧ (∀ p ∈ tr, p.2.ctx.predecessor = depositor)
      ∧ (∀ c, s.commitmentExists c = true ↔ c ∈ leaves)
      ∧ s.poolBalance.toNat = leaves.length := by
  induction leaves using List.reverseRecOn with
  | nil =>
    refine ⟨[], new keccak256 depositor 1313 1 0, ⟨_, _, _, _, Run.nil⟩, rfl, nofun, ?_, rfl⟩
    exact fun c => iff_of_false Bool.false_ne_true List.not_mem_nil
  | append_singleton leaves leaf ih =>
    rw [List.length_append, List.length_singleton] at hle
    obtain ⟨hleaves, -, hdisjoint⟩ := List.nodup_append.mp hnodup
    obtain ⟨tr, s, hrun, hinserted, hdepositor, hexists, hbalance⟩ :=
      ih hleaves (Nat.le_of_succ_le hle)
    have hindex := (treeHolds_of_run hrun).tree.nextIndex
    rw [hinserted] at hindex
    obtain ⟨governance, domainChainId, domainAppId, blockHeight, hrun⟩ := hrun
    have hfresh : s.commitmentExists leaf ≠ true := fun h =>
      hdisjoint leaf ((hexists leaf).mp h) leaf (List.mem_singleton_self leaf) rfl
    have hfits : s.poolBalance.toNat + (1 : BitVec 128).toNat < 2 ^ 128 := by
      rw [hbalance]
      exact lt_of_le_of_lt hle (by decide)
    have hdeposit : deposit keccak256 ⟨depositor, 1, 0⟩ leaf s = .ok _ :=
      deposit_eq_ok.mpr ⟨show (1 : BitVec 128) ≠ 0 by decide, hfresh, hindex ▸ hle, hfits, rfl⟩
    have hstep : step keccak256 ⟨⟨depositor, 1, 0⟩, .deposit leaf⟩ s = .ok _ :=
      congrArg (fun r => (r >>= fun s => Except.ok (s, [])).map Prod.fst) hdeposit
    refine ⟨_, _, ⟨_, _, _, _, hrun.snoc trivial hstep⟩, ?_, ?_,
      update_true_iff_mem_append hexists leaf, ?_⟩
    · rw [insertedIn_snoc, hinserted]
      rfl
    · rw [List.forall_mem_append, List.forall_mem_singleton]
      exact ⟨hdepositor, rfl⟩
    · show (s.poolBalance + 1).toNat = _
      rw [BitVec.toNat_add, Nat.mod_eq_of_lt hfits, hbalance, List.length_append]
      rfl

/-- Lists whose pairs hash to the same have the same root. -/
theorem treeRoot_congr {leaves leaves' : List String}
    (h : ∀ i, node (poseidonHashHex keccak256) (padded ZERO_HASH leaves) 1 i
      = node (poseidonHashHex keccak256) (padded ZERO_HASH leaves') 1 i) :
    treeRoot keccak256 leaves = treeRoot keccak256 leaves' := by
  unfold treeRoot HashTree.root
  rw [TREE_DEPTH, ← HashTree.node_pairs _ _ 31, ← HashTree.node_pairs _ (padded _ leaves') 31]
  exact HashTree.node_congr _ 31 0 (fun i _ _ => h i)

/-- **Two lists of leaves with one root**, whatever the hash is: the same text is
cut after its second character in one of them, and after its first in the
other. -/
theorem exists_same_root : ["ab", "c"] ≠ ["a", "bc"] ∧ ∀ keccak256 : Bytes → Bytes32,
    ∃ (tr₁ tr₂ : List (State String × Call String)) (s₁ s₂ : State String),
      RunFrom keccak256 tr₁ s₁ ∧ RunFrom keccak256 tr₂ s₂
        ∧ insertedIn tr₁ = ["ab", "c"] ∧ insertedIn tr₂ = ["a", "bc"]
        ∧ s₁.nextLeafIndex = s₂.nextLeafIndex ∧ getLatestRoot s₁ = getLatestRoot s₂ := by
  refine ⟨by decide, fun keccak256 => ?_⟩
  obtain ⟨tr₁, s₁, hrun₁, hinserted₁, -⟩ := exists_run_depositing keccak256 "alice.testnet"
    (show ["ab", "c"].Nodup by decide) (show 2 ≤ 2 ^ 32 by decide)
  obtain ⟨tr₂, s₂, hrun₂, hinserted₂, -⟩ := exists_run_depositing keccak256 "alice.testnet"
    (show ["a", "bc"].Nodup by decide) (show 2 ≤ 2 ^ 32 by decide)
  have hholds₁ := treeHolds_of_run hrun₁
  have hholds₂ := treeHolds_of_run hrun₂
  refine ⟨tr₁, tr₂, s₁, s₂, hrun₁, hrun₂, hinserted₁, hinserted₂, ?_, ?_⟩
  · rw [hholds₁.tree.nextIndex, hholds₂.tree.nextIndex, hinserted₁, hinserted₂]
    rfl
  · rw [hholds₁.latest, hholds₂.latest, hinserted₁, hinserted₂]
    refine treeRoot_congr (fun i => ?_)
    cases i with
    | zero =>
      have htext : pairText ("ab", "c") = pairText ("a", "bc") :=
        pairText_inj.mpr (by decide)
      exact congrArg (fun x => Bytes32.toHex (keccak256 x)) htext
    | succ i =>
      have hpad : ∀ {leaves : List String} {j : ℕ}, leaves.length = 2 → 2 ≤ j →
          padded ZERO_HASH leaves j = ZERO_HASH := by
        intro leaves j hlen hj
        exact HashTree.padded_of_length_le _ (hlen ▸ hj)
      simp only [HashTree.node_succ, HashTree.node_zero]
      rw [hpad rfl (by omega), hpad rfl (by omega), hpad rfl (by omega), hpad rfl (by omega)]

/-- A hash that adds one to the word on the left. -/
theorem exists_leftWord : ∃ keccak256 : Bytes → Bytes32,
    ∀ w r, keccak256 (pairText (Bytes32.toHex w, r)) = w + 1 := by
  classical
  refine ⟨fun b => if h : ∃ w r, b = pairText (Bytes32.toHex w, r) then h.choose + 1 else 0,
    fun w r => ?_⟩
  have h : ∃ w' r', pairText (Bytes32.toHex w, r) = pairText (Bytes32.toHex w', r') :=
    ⟨w, r, rfl⟩
  obtain ⟨r', hr'⟩ := h.choose_spec
  have hlen : ∀ w, (Bytes32.toHex w).length = 64 := fun w =>
    (String.length_toList ..).symm.trans (Bytes32.isLowerHex64_toHex w).length_eq
  have hw := (eq_of_append_eq (pairText_inj.mp hr') ((hlen _).trans (hlen _).symm)).1
  exact (dif_pos h).trans (congrArg (· + 1) (Bytes32.toHex_injective hw).symm)

/-- Under it, the nodes of a tree with one leaf. -/
theorem node_leftWord (h : ∀ w r, keccak256 (pairText (Bytes32.toHex w, r)) = w + 1) (k i : ℕ) :
    node (poseidonHashHex keccak256) (padded ZERO_HASH [Bytes32.toHex 100]) k i
      = Bytes32.toHex (BitVec.ofNat 256 (if i = 0 then 100 + k else k)) := by
  induction k generalizing i with
  | zero =>
    cases i with
    | zero => rfl
    | succ i => exact LinearRoots.toHex_zero.symm
  | succ k ih =>
    rw [HashTree.node_succ, ih (2 * i)]
    refine (congrArg Bytes32.toHex (h _ _)).trans (congrArg Bytes32.toHex ?_)
    have hnext : (if i = 0 then 100 + (k + 1) else k + 1)
        = (if 2 * i = 0 then 100 + k else k) + 1 := by
      split <;> split <;> omega
    rw [hnext, BitVec.ofNat_add]
    rfl

/-- … collide nowhere. -/
theorem noCollisionAmong_leftWord
    (h : ∀ w r, keccak256 (pairText (Bytes32.toHex w, r)) = w + 1) :
    NoCollisionAmong keccak256 (treeTexts keccak256 [Bytes32.toHex 100]
      ++ treeTexts keccak256 [Bytes32.toHex 100]) := by
  have hmem : ∀ x ∈ treeTexts keccak256 [Bytes32.toHex 100]
      ++ treeTexts keccak256 [Bytes32.toHex 100], ∃ k m, k < 32
        ∧ x = pairText (Bytes32.toHex (BitVec.ofNat 256 (if m = 0 then 100 + k else k)),
          Bytes32.toHex (BitVec.ofNat 256 k)) := by
    intro x hx
    obtain ⟨p, hp, rfl⟩ := List.mem_map.mp ((List.mem_append.mp hx).elim id id)
    obtain ⟨k, m, hk, rfl⟩ := HashTree.exists_of_mem_nodePairs _ _ _ _ p hp
    refine ⟨k, 2 * m, hk, ?_⟩
    rw [node_leftWord h, node_leftWord h, if_neg (Nat.succ_ne_zero (2 * m))]
  intro x hx y hy hxy
  obtain ⟨k, m, hk, rfl⟩ := hmem x hx
  obtain ⟨k', m', hk', rfl⟩ := hmem y hy
  rw [h, h] at hxy
  have hnat := congrArg BitVec.toNat (add_right_cancel hxy)
  rw [BitVec.toNat_ofNat, BitVec.toNat_ofNat, Nat.mod_eq_of_lt (by split <;> omega),
    Nat.mod_eq_of_lt (by split <;> omega)] at hnat
  obtain rfl : k = k' := by
    split at hnat <;> split at hnat <;> omega
  rw [hnat]

/-- Two accounts deposit the same leaf, and the theorem tells from the root that
they did. -/
theorem leaves_eq_iff_one_leaf : ∃ (keccak256 : Bytes → Bytes32)
    (tr₁ tr₂ : List (State String × Call String)) (s₁ s₂ : State String),
      RunFrom keccak256 tr₁ s₁ ∧ RunFrom keccak256 tr₂ s₂ ∧ tr₁ ≠ []
        ∧ (∀ p ∈ tr₁, p.2.ctx.predecessor = "alice.testnet")
        ∧ (∀ p ∈ tr₂, p.2.ctx.predecessor = "bob.testnet")
        ∧ insertedIn tr₁ = insertedIn tr₂ := by
  obtain ⟨keccak256, hkeccak⟩ := exists_leftWord
  obtain ⟨tr₁, s₁, hrun₁, hinserted₁, halice, -⟩ := exists_run_depositing keccak256
    "alice.testnet" (List.nodup_singleton (Bytes32.toHex 100)) (show 1 ≤ 2 ^ 32 by decide)
  obtain ⟨tr₂, s₂, hrun₂, hinserted₂, hbob, -⟩ := exists_run_depositing keccak256
    "bob.testnet" (List.nodup_singleton (Bytes32.toHex 100)) (show 1 ≤ 2 ^ 32 by decide)
  have hholds₁ := treeHolds_of_run hrun₁
  have hholds₂ := treeHolds_of_run hrun₂
  refine ⟨keccak256, tr₁, tr₂, s₁, s₂, hrun₁, hrun₂, ?_, halice, hbob,
    (leaves_eq_iff hrun₁ hrun₂ ?_ ?_ ?_).mpr ?_⟩
  · rintro rfl
    exact absurd hinserted₁.symm (List.cons_ne_nil _ _)
  · rw [hinserted₁, hinserted₂]
    exact noCollisionAmong_leftWord hkeccak
  · rw [hholds₁.tree.nextIndex, hholds₂.tree.nextIndex, hinserted₁, hinserted₂]
  · rw [hholds₁.latest, hholds₂.latest, hinserted₁, hinserted₂]
  · intro i hi
    rw [hinserted₁, List.length_singleton] at hi
    omega

end NearPool
