import SoulPrivacy.EpochRoots
import SoulPrivacy.PoseidonHasher
import SoulPrivacy.UniversalNullifierRegistry

/-!
# Inclusion proofs: every nullifier of an epoch can be reported

The registry climbs a path of one to 32 siblings from the nullifier and
compares with the root it has recorded (`verifyInclusion_iff`). The root
of an epoch of `2` to `2^32` nullifiers is that of a tree of depth one to
32, so the tree's own path goes through.

An epoch of a single nullifier has that nullifier for its root and no path
at all; the registry takes no empty proof, so it takes no proof of that
nullifier unless the hash leads from it back to itself.
-/

namespace UniversalNullifierRegistry

variable (hash : Uint256 → Uint256 → Uint256)

/-- The sides of a path, as the registry reads its indices. -/
def sidesOf (pathIndices : List Uint256) : List Bool :=
  pathIndices.map (fun i => decide (i ≠ 0))

/-- The indices of given sides. -/
def indicesOf (sides : List Bool) : List Uint256 :=
  sides.map (fun onRight => if onRight then 1 else 0)

@[simp] theorem length_sidesOf (pathIndices : List Uint256) :
    (sidesOf pathIndices).length = pathIndices.length := List.length_map _

@[simp] theorem length_indicesOf (sides : List Bool) :
    (indicesOf sides).length = sides.length := List.length_map _

@[simp] theorem sidesOf_indicesOf (sides : List Bool) :
    sidesOf (indicesOf sides) = sides := by
  induction sides with
  | nil => rfl
  | cons b sides ih =>
    rw [indicesOf, List.map_cons, sidesOf, List.map_cons]
    refine congrArg₂ List.cons ?_ ih
    cases b <;> rfl

/-- Indices of sides are legal. -/
theorem le_one_of_mem_indicesOf {sides : List Bool} {i : Uint256}
    (h : i ∈ indicesOf sides) : i ≤ 1 := by
  obtain ⟨b, -, rfl⟩ := List.mem_map.mp h
  cases b <;> decide

/-- **The loop of the registry climbs the path**, when all its indices are
0 or 1. -/
theorem climbProof_eq_some {steps : List (Uint256 × Bytes32)} {x y : Bytes32} :
    climbProof hash x steps = some y ↔
      (∀ p ∈ steps, p.1 ≤ 1) ∧
        HashTree.climb hash (steps.map (fun p => (decide (p.1 ≠ 0), p.2))) x = y := by
  induction steps generalizing x with
  | nil => simp [climbProof, HashTree.climb]
  | cons step steps ih =>
    obtain ⟨index, sibling⟩ := step
    rw [climbProof, List.forall_mem_cons, List.map_cons, HashTree.climb]
    by_cases hlegal : 1 < index
    · rw [if_pos hlegal]
      exact iff_of_false (Option.some_ne_none y).symm
        (fun h => BitVec.not_lt.mpr h.1.1 hlegal)
    rw [if_neg hlegal]
    have hle : index ≤ 1 := BitVec.not_lt.mp hlegal
    by_cases hzero : index = 0
    · have hside : HashTree.combine hash (decide (index ≠ 0)) sibling x
          = hash x sibling := if_neg (by simpa using hzero)
      rw [if_pos hzero, ih, and_iff_right hle, hside]
    · have hside : HashTree.combine hash (decide (index ≠ 0)) sibling x
          = hash sibling x := if_pos (by simpa using hzero)
      rw [if_neg hzero, ih, and_iff_right hle, hside]

/-- **What the registry asks of a proof.** -/
theorem verifyInclusion_iff {leaf root : Bytes32} {proof : List Bytes32}
    {pathIndices : List Uint256} :
    verifyInclusion hash leaf root proof pathIndices = true ↔
      proof.length = pathIndices.length ∧ proof.length ≠ 0
        ∧ proof.length ≤ MAX_PROOF_DEPTH ∧ (∀ i ∈ pathIndices, i ≤ 1)
        ∧ HashTree.climb hash ((sidesOf pathIndices).zip proof) leaf = root := by
  unfold verifyInclusion
  by_cases hlen : proof.length = pathIndices.length
  swap
  · simp [hlen]
  by_cases hzero : proof.length = 0
  · simp [hzero]
  by_cases hmax : MAX_PROOF_DEPTH < proof.length
  · simp [hmax, not_le.mpr hmax]
  rw [if_neg (not_not.mpr hlen), if_neg hzero, if_neg hmax, and_iff_right hlen,
    and_iff_right hzero, and_iff_right (not_lt.mp hmax)]
  have hfst : (pathIndices.zip proof).map Prod.fst = pathIndices :=
    List.map_fst_zip hlen.ge
  have hlegal : (∀ p ∈ pathIndices.zip proof, p.1 ≤ 1) ↔ ∀ i ∈ pathIndices, i ≤ 1 := by
    conv_rhs => rw [← hfst]
    exact (List.forall_mem_map (f := Prod.fst) (P := fun i => i ≤ 1)).symm
  have hsteps : (pathIndices.zip proof).map (fun p => (decide (p.1 ≠ 0), p.2))
      = (sidesOf pathIndices).zip proof := by
    rw [sidesOf, List.zip_map_left]
    rfl
  have hspec : climbProof hash leaf (pathIndices.zip proof) = some root ↔ _ :=
    climbProof_eq_some hash
  rw [hlegal, hsteps] at hspec
  rw [← hspec]
  cases climbProof hash leaf (pathIndices.zip proof) with
  | none => simp
  | some current => simp

/-- Climbing a path with given sides and siblings. -/
theorem zip_fst_snd (p : List (Bool × Bytes32)) :
    (p.map Prod.fst).zip (p.map Prod.snd) = p := by
  rw [List.zip_map', List.map_id'']
  exact fun _ => rfl

/-- **A path that climbs to the root is accepted**, when it is neither
empty nor too long. -/
theorem verifyInclusion_of_climb {p : List (Bool × Bytes32)} {leaf root : Bytes32}
    (hne : p.length ≠ 0) (hmax : p.length ≤ MAX_PROOF_DEPTH)
    (hclimb : HashTree.climb hash p leaf = root) :
    verifyInclusion hash leaf root (p.map Prod.snd) (indicesOf (p.map Prod.fst))
      = true := by
  rw [verifyInclusion_iff]
  refine ⟨?_, ?_, ?_, fun i hi => le_one_of_mem_indicesOf hi, ?_⟩
  · rw [length_indicesOf, List.length_map, List.length_map]
  · rwa [List.length_map]
  · rwa [List.length_map]
  · rwa [sidesOf_indicesOf, zip_fst_snd]

/-- The tree's own path leads from each member of the list to the root. -/
theorem exists_path_of_mem {nullifiers : List Bytes32} {nullifier : Bytes32}
    (hmem : nullifier ∈ nullifiers) :
    ∃ p : List (Bool × Bytes32), p.length = Nat.clog 2 nullifiers.length
      ∧ HashTree.climb hash p nullifier = EpochManager.merkleRoot hash nullifiers := by
  obtain ⟨i, hi, rfl⟩ := List.mem_iff_getElem.mp hmem
  have hfits := hi.trans_le (Nat.le_pow_clog Nat.one_lt_two nullifiers.length)
  refine ⟨HashTree.path hash (HashTree.padded 0 nullifiers) 0 _ i,
    HashTree.length_path .., ?_⟩
  have hclimb := HashTree.climb_path hash (HashTree.padded 0 nullifiers) 0
    (Nat.clog 2 nullifiers.length) i
  rw [HashTree.node_zero, HashTree.padded_of_lt 0 hi, Nat.div_eq_of_lt hfits,
    Nat.zero_add] at hclimb
  exact hclimb

/-! ## Completeness -/

/-- **Every nullifier of an epoch can be reported**: if the epoch has two
to `2^32` nullifiers, its root is recorded for a chain with an id other
than 0 and is not the zero word, and the nullifier was not reported
before, then there are a proof and indices with which the report goes
through. -/
theorem reportNullifierSpent_complete {H : EpochManager.Hashes}
    {m m' : EpochManager.Storage} {e timestamp : ℕ} {evs : List EpochManager.Event}
    (hfinalized : EpochManager.finalizeEpochInternal H timestamp e m = .ok (m', evs))
    (htwo : 2 ≤ (m.epochNullifiers e).length)
    (hmax : (m.epochNullifiers e).length ≤ 2 ^ 32)
    {governance : Address} {tr : List (Storage × Call)} {s : Storage}
    (hrun : Run (step H.poseidon) (fun _ _ => True) (construct governance) tr s)
    {chainId : Uint256} {epochId : ℕ} (hchain : chainId ≠ 0)
    (hrecorded : s.epochRoots chainId epochId = EpochManager.getEpochRoot m' e)
    (hne : s.epochRoots chainId epochId ≠ 0) {nullifier : Bytes32}
    (hmem : nullifier ∈ m.epochNullifiers e)
    (hnew : s.nullifierSpentGlobal chainId nullifier = false)
    (sender : Address) (now : ℕ) :
    ∃ proof pathIndices s', step H.poseidon
      ⟨sender, now, .reportNullifierSpent chainId nullifier epochId proof pathIndices⟩ s
        = .ok s' := by
  obtain ⟨p, hlen, hclimb⟩ := exists_path_of_mem H.poseidon hmem
  have hroot : s.epochRoots chainId epochId
      = EpochManager.merkleRoot H.poseidon (m.epochNullifiers e) :=
    hrecorded.trans (EpochManager.getEpochRoot_of_finalized hfinalized)
  have hid : (s.chains chainId).chainId = chainId :=
    identified_of_run hrun chainId (Or.inr ⟨epochId, hne⟩)
  refine ⟨p.map Prod.snd, indicesOf (p.map Prod.fst), ?_⟩
  rw [reportNullifierSpent_isOk, hid]
  refine ⟨hchain, hnew, hne, verifyInclusion_of_climb _ ?_ ?_ (hclimb.trans hroot.symm)⟩
  · rw [hlen]
    exact (Nat.clog_pos Nat.one_lt_two htwo).ne'
  · rw [hlen]
    exact Nat.clog_le_of_le_pow hmax

/-- Any root can get into the registry: governance registers the chain,
and its bridge submits the root for epoch 0. -/
theorem exists_recorded (chainId : Uint256) (root : Bytes32) :
    ∃ tr s, Run (step hash) (fun _ _ => True) (construct 1) tr s
      ∧ s.epochRoots chainId 0 = root ∧ (s.chains chainId).chainId = chainId
      ∧ ∀ nullifier, s.nullifierSpentGlobal chainId nullifier = false := by
  let s₁ : Storage := { construct 1 with
    chains := Function.update (fun _ => ChainRegistration.absent) chainId
      ⟨chainId, "A", 2, 0, 0, 0, true⟩
    registeredChainIds := [chainId] }
  have hreg : s₁.chains chainId = ⟨chainId, "A", 2, 0, 0, 0, true⟩ := by
    show Function.update (fun _ => ChainRegistration.absent) chainId _ chainId = _
    exact Function.update_self ..
  have hrun : Run (step hash) (fun _ _ => True) (construct 1)
      [(construct 1, ⟨1, 0, .registerChain chainId "A" 2⟩)] s₁ :=
    Run.nil.snoc trivial rfl
  obtain ⟨s₂, hsubmit⟩ : ∃ s₂, step hash ⟨2, 0, .submitEpochRoot chainId 0 root 1⟩ s₁
      = .ok s₂ := by
    rw [submitEpochRoot_isOk, onlyAuthorizedBridge_eq_ok, hreg]
    exact ⟨⟨rfl, Or.inl rfl⟩, rfl, rfl⟩
  refine ⟨_, s₂, hrun.snoc trivial hsubmit, ?_⟩
  cases step_effect hsubmit with
  | submitEpochRoot entry_eq =>
    cases entry_eq
    refine ⟨?_, ?_, fun _ => rfl⟩
    · dsimp only
      rw [Function.update_self, Function.update_self]
    · dsimp only
      rw [Function.update_self, hreg]
  | registerChain entry_eq => cases entry_eq
  | deactivateChain entry_eq => cases entry_eq
  | updateBridgeAdapter entry_eq => cases entry_eq
  | createGlobalSnapshot entry_eq => cases entry_eq
  | reportNullifierSpent entry_eq => cases entry_eq

/-- The hash functions of the contracts, with a toy in place of
`keccak256`. -/
def poseidonHashes : EpochManager.Hashes :=
  { EpochManager.toyHashes with poseidon := PoseidonHasher.hash }

/-- A manager that has just finalized an epoch with given nullifiers. -/
theorem exists_finalized (nullifiers : List Bytes32) :
    ∃ tr m m' evs, Run (EpochManager.step poseidonHashes) (fun _ _ => True)
        EpochManager.toyManager tr m
      ∧ m.epochNullifiers 0 = nullifiers
      ∧ EpochManager.finalizeEpochInternal poseidonHashes 0 0 m = .ok (m', evs)
      ∧ EpochManager.getEpochRoot m' 0
        = EpochManager.merkleRoot PoseidonHasher.hash nullifiers := by
  obtain ⟨tr, m, hrun, -, hlist, -, hopen, -⟩ :=
    EpochManager.exists_epoch poseidonHashes nullifiers
  have hfin := EpochManager.finalizeEpochInternal_of_open (H := poseidonHashes) hopen 0
  have hroot := EpochManager.getEpochRoot_of_finalized hfin
  refine ⟨tr, m, _, _, hrun.mono (fun _ _ _ => trivial), hlist, hfin, ?_⟩
  exact hroot.trans (congrArg _ hlist)

/-- The second of two nullifiers is reported. -/
theorem reportNullifierSpent_complete_two :
    ∃ trs s proof pathIndices s',
      Run (step poseidonHashes.poseidon) (fun _ _ => True) (construct 1) trs s
      ∧ s.epochRoots 7 0 = PoseidonHasher.hash 5 6
      ∧ step poseidonHashes.poseidon
          ⟨9, 0, .reportNullifierSpent 7 6 0 proof pathIndices⟩ s = .ok s' := by
  obtain ⟨trm, m, m', evs, hm, hlist, hfin, hroot⟩ := exists_finalized [5, 6]
  obtain ⟨trs, s, hs, hrec, hid, hnew⟩ :=
    exists_recorded poseidonHashes.poseidon 7 (EpochManager.getEpochRoot m' 0)
  have hval : s.epochRoots 7 0 = PoseidonHasher.hash 5 6 := by
    rw [hrec, hroot, EpochManager.merkleRoot_pair]
  obtain ⟨proof, pathIndices, s', hstep⟩ := reportNullifierSpent_complete hfin
    (by rw [hlist]; decide) (by rw [hlist]; decide) hs (by decide) hrec
    (by rw [hval]; decide +kernel) (show (6 : Bytes32) ∈ _ by rw [hlist]; decide)
    (hnew 6) 9 0
  exact ⟨trs, s, proof, pathIndices, s', hs, hval, hstep⟩

/-! ## What is left out -/

/-- A path that is not empty ends in a hash value. -/
theorem exists_climb_eq {p : List (Bool × Bytes32)} (hne : p ≠ []) (x : Bytes32) :
    ∃ a b, HashTree.climb hash p x = hash a b := by
  obtain ⟨q, ⟨onRight, sibling⟩, rfl⟩ := (List.eq_nil_or_concat p).resolve_left hne
  rw [List.concat_eq_append, HashTree.climb_append, HashTree.climb, HashTree.climb]
  cases onRight with
  | false => exact ⟨_, _, rfl⟩
  | true => exact ⟨_, _, rfl⟩

/-- **No proof leads to a root above the field**, which the root of an
epoch of one nullifier can be. -/
theorem verifyInclusion_of_le_root (F : Bn254.FieldHash) {leaf root : Bytes32}
    (hroot : Bn254.r ≤ root.toNat) (proof : List Bytes32) (pathIndices : List Uint256) :
    verifyInclusion F.hash leaf root proof pathIndices = false := by
  rw [← Bool.not_eq_true, verifyInclusion_iff]
  rintro ⟨hlen, hzero, -, -, hclimb⟩
  have hne : (sidesOf pathIndices).zip proof ≠ [] := by
    intro hnil
    have hlength := congrArg List.length hnil
    rw [List.length_zip, length_sidesOf, ← hlen, min_self] at hlength
    exact hzero hlength
  obtain ⟨a, b, hval⟩ := exists_climb_eq F.hash hne leaf
  have hlt := F.lt a b
  rw [← hval, hclimb] at hlt
  exact absurd hroot (not_le.mpr hlt)

/-- **Epochs whose nullifiers cannot be reported.** The only nullifier of
an epoch, when its word is not below the field order; and any nullifier of
a chain registered under the id 0, which is also the mark of a chain that
is not registered. -/
theorem exists_unprovable :
    (∃ trm m m' evs trs s,
      Run (EpochManager.step poseidonHashes) (fun _ _ => True)
        EpochManager.toyManager trm m
      ∧ m.epochNullifiers 0 = [BitVec.allOnes 256]
      ∧ EpochManager.finalizeEpochInternal poseidonHashes 0 0 m = .ok (m', evs)
      ∧ Run (step poseidonHashes.poseidon) (fun _ _ => True) (construct 1) trs s
      ∧ s.epochRoots 7 0 = EpochManager.getEpochRoot m' 0 ∧ s.epochRoots 7 0 ≠ 0
      ∧ s.nullifierSpentGlobal 7 (BitVec.allOnes 256) = false
      ∧ ∀ sender now proof pathIndices, ¬ ∃ s', step poseidonHashes.poseidon
          ⟨sender, now, .reportNullifierSpent 7 (BitVec.allOnes 256) 0 proof pathIndices⟩ s
            = .ok s')
    ∧ (∃ trm m m' evs trs s,
      Run (EpochManager.step poseidonHashes) (fun _ _ => True)
        EpochManager.toyManager trm m
      ∧ m.epochNullifiers 0 = [5, 6]
      ∧ EpochManager.finalizeEpochInternal poseidonHashes 0 0 m = .ok (m', evs)
      ∧ Run (step poseidonHashes.poseidon) (fun _ _ => True) (construct 1) trs s
      ∧ s.epochRoots 0 0 = EpochManager.getEpochRoot m' 0 ∧ s.epochRoots 0 0 ≠ 0
      ∧ s.nullifierSpentGlobal 0 5 = false
      ∧ ∀ sender now proof pathIndices, ¬ ∃ s', step poseidonHashes.poseidon
          ⟨sender, now, .reportNullifierSpent 0 5 0 proof pathIndices⟩ s = .ok s') := by
  refine ⟨?_, ?_⟩
  · obtain ⟨trm, m, m', evs, hm, hlist, hfin, hroot⟩ :=
      exists_finalized [BitVec.allOnes 256]
    obtain ⟨trs, s, hs, hrec, -, hnew⟩ :=
      exists_recorded poseidonHashes.poseidon 7 (EpochManager.getEpochRoot m' 0)
    have hval : s.epochRoots 7 0 = BitVec.allOnes 256 := by
      rw [hrec, hroot, EpochManager.merkleRoot_singleton]
    refine ⟨trm, m, m', evs, trs, s, hm, hlist, hfin, hs, hrec, ?_, hnew _, ?_⟩
    · rw [hval]
      decide
    · intro sender now proof pathIndices hok
      obtain ⟨-, -, -, hinc⟩ := reportNullifierSpent_isOk.mp hok
      have hrefused : verifyInclusion PoseidonHasher.hash (BitVec.allOnes 256)
          (s.epochRoots 7 0) proof pathIndices = false :=
        verifyInclusion_of_le_root PoseidonHasher.fieldHash (by rw [hval]; decide)
          proof pathIndices
      exact absurd (hinc.symm.trans hrefused) nofun
  · obtain ⟨trm, m, m', evs, hm, hlist, hfin, hroot⟩ := exists_finalized [5, 6]
    obtain ⟨trs, s, hs, hrec, hid, hnew⟩ :=
      exists_recorded poseidonHashes.poseidon 0 (EpochManager.getEpochRoot m' 0)
    refine ⟨trm, m, m', evs, trs, s, hm, hlist, hfin, hs, hrec, ?_, hnew _, ?_⟩
    · rw [hrec, hroot, EpochManager.merkleRoot_pair]
      decide +kernel
    · intro sender now proof pathIndices hok
      exact (reportNullifierSpent_isOk.mp hok).1 hid

end UniversalNullifierRegistry
