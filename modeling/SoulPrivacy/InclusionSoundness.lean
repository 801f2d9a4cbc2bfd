import SoulPrivacy.Inclusion

/-!
# Inclusion proofs: what can be reported

A report should go through for the nullifiers of the epoch only. The
registry knows the root but not the depth of the tree, and leaves are
hashed like inner nodes, so what an accepted path says depends on where
its sides lead. A path no longer than the tree is deep leads down from the
root to a node, and the value reported is that node. A longer one leads
past a leaf, to values that hash up to it.

So reports along given sides go through for nullifiers of the epoch only
if and only if the sides end in the list (`EndsInList`). Full-depth sides
with a position in the list do; shorter ones end in an inner node, and
full-depth ones beyond the list in padding.

The hash is taken to be collision-free on the pairs hashed in the tree and
on the path, up to the field elements they are.
-/

namespace UniversalNullifierRegistry

open Bn254 (FieldHash SameElement)

/-- The depth of the tree of an epoch. -/
def depth (nullifiers : List Bytes32) : ℕ := Nat.clog 2 nullifiers.length

/-- The node of the tree of an epoch at a height and an index. -/
def treeNode (F : FieldHash) (nullifiers : List Bytes32) (k i : ℕ) : Bytes32 :=
  HashTree.node F.hash (HashTree.padded 0 nullifiers) k i

/-- The path of the tree from a node up to the root. -/
def treePath (F : FieldHash) (nullifiers : List Bytes32) (k d i : ℕ) :
    List (Bool × Bytes32) :=
  HashTree.path F.hash (HashTree.padded 0 nullifiers) k d i

/-- The pairs hashed in the tree of an epoch. -/
def treePairs (F : FieldHash) (nullifiers : List Bytes32) : List (Bytes32 × Bytes32) :=
  HashTree.nodePairs F.hash (HashTree.padded 0 nullifiers) (depth nullifiers) 0

/-- **No two pairs collide** among those hashed in the tree of an epoch
and along a path. -/
def CollisionFree (F : FieldHash) (nullifiers : List Bytes32)
    (p : List (Bool × Bytes32)) (x : Bytes32) : Prop :=
  HashTree.Separates F.hash SameElement
    (treePairs F nullifiers ++ HashTree.pathPairs F.hash p x)

/-- A value is, as a field element, one of the nullifiers. -/
def Member (nullifiers : List Bytes32) (x : Bytes32) : Prop :=
  ∃ n ∈ nullifiers, SameElement x n

/-- **Reports along given sides are sound for an epoch**: in every state
of the registry in which the root of the epoch is recorded, what is
reported with these path indices is one of the nullifiers. -/
def OnlyMembers (F : FieldHash) (nullifiers : List Bytes32)
    (pathIndices : List Uint256) : Prop :=
  ∀ governance tr s,
    Run (step F.hash) (fun _ _ => True) (construct governance) tr s →
  ∀ chainId epochId,
    EpochManager.computeNullifierRoot F.hash nullifiers
      = some (s.epochRoots chainId epochId) →
  ∀ sender now nullifier proof,
    CollisionFree F nullifiers ((sidesOf pathIndices).zip proof) nullifier →
    (∃ s', step F.hash ⟨sender, now,
      .reportNullifierSpent chainId nullifier epochId proof pathIndices⟩ s = .ok s') →
    Member nullifiers nullifier

/-- Indices the registry looks at at all. -/
structure Legal (pathIndices : List Uint256) : Prop where
  ne_zero : pathIndices.length ≠ 0
  le_max : pathIndices.length ≤ MAX_PROOF_DEPTH
  le_one : ∀ i ∈ pathIndices, i ≤ 1

/-- **The sides end in the list.** No deeper than the tree, at a node that
is one of the nullifiers; deeper, at values that are among the nullifiers
as soon as they hash up, with any siblings, to the leaf the sides pass. -/
def EndsInList (F : FieldHash) (nullifiers : List Bytes32) (sides : List Bool) :
    Prop :=
  if sides.length ≤ depth nullifiers then
    Member nullifiers
      (treeNode F nullifiers (depth nullifiers - sides.length) (HashTree.descend sides 0))
  else
    let extra := sides.length - depth nullifiers
    let p := treePath F nullifiers 0 (depth nullifiers)
      (HashTree.descend (sides.drop extra) 0)
    ∀ siblings x, siblings.length = extra →
      CollisionFree F nullifiers ((sides.take extra).zip siblings ++ p) x →
      HashTree.climb F.hash ((sides.take extra).zip siblings ++ p) x
        = EpochManager.merkleRoot F.hash nullifiers →
      Member nullifiers x

variable {F : FieldHash} {nullifiers : List Bytes32}

theorem Member.of_sameElement {x y : Bytes32} (h : Member nullifiers y)
    (hxy : SameElement x y) : Member nullifiers x := by
  obtain ⟨n, hn, hy⟩ := h
  exact ⟨n, hn, hxy.trans hy⟩

/-- The sides of a path along given sides. -/
theorem map_fst_zip_sides {sides : List Bool} {proof : List Bytes32}
    (h : proof.length = sides.length) : (sides.zip proof).map Prod.fst = sides :=
  List.map_fst_zip h.ge

/-- Putting sides and siblings back together. -/
theorem zip_siblings {sides : List Bool} {p : List (Bool × Bytes32)}
    (h : p.map Prod.fst = sides) : sides.zip (p.map Prod.snd) = p :=
  h ▸ zip_fst_snd p

/-- A path up from an index leads to the root when the index is below it. -/
theorem climb_treePath (k d i : ℕ) (hi : i < 2 ^ d) (hk : k + d = depth nullifiers) :
    HashTree.climb F.hash (treePath F nullifiers k d i) (treeNode F nullifiers k i)
      = EpochManager.merkleRoot F.hash nullifiers := by
  rw [treePath, treeNode, HashTree.climb_path, Nat.div_eq_of_lt hi, hk]
  rfl

/-- The index sides lead down to from the root. -/
theorem descend_lt_two_pow (sides : List Bool) :
    HashTree.descend sides 0 < 2 ^ sides.length := by
  simpa using HashTree.descend_lt sides 0

/-- **A path that leads to the root started at the node its sides lead
down to**, up to the field element. -/
theorem sameElement_of_climb {k : ℕ} {p : List (Bool × Bytes32)} {x : Bytes32}
    (hk : k + p.length = depth nullifiers) (hfree : CollisionFree F nullifiers p x)
    (hclimb : HashTree.climb F.hash p x = EpochManager.merkleRoot F.hash nullifiers) :
    SameElement x (treeNode F nullifiers k (HashTree.descend (p.map Prod.fst) 0)) := by
  refine HashTree.climb_sound F.hash (fun _ => Nat.ModEq.refl _) F.eq_of_sameElement
    (HashTree.padded 0 nullifiers) p k 0 x ?_ ?_
  · rw [hk]
    exact hfree
  · rw [hk]
    exact hclimb

/-! ## The condition is enough -/

/-- Along sides no longer than the depth, the value is the node they lead
to. -/
theorem member_of_short {sides : List Bool} {proof : List Bytes32} {x : Bytes32}
    (hshort : sides.length ≤ depth nullifiers) (hlen : proof.length = sides.length)
    (hends : EndsInList F nullifiers sides)
    (hfree : CollisionFree F nullifiers (sides.zip proof) x)
    (hclimb : HashTree.climb F.hash (sides.zip proof) x
      = EpochManager.merkleRoot F.hash nullifiers) : Member nullifiers x := by
  have hlength : (sides.zip proof).length = sides.length := by
    rw [List.length_zip, hlen, min_self]
  have hsame := sameElement_of_climb (k := depth nullifiers - sides.length)
    (by rw [hlength, Nat.sub_add_cancel hshort]) hfree hclimb
  rw [map_fst_zip_sides hlen] at hsame
  rw [EndsInList, if_pos hshort] at hends
  exact hends.of_sameElement hsame

/-- From a value that is the leaf the sides pass, the tree's own path
hashes what is hashed in the tree, up to the field elements. -/
theorem exists_related_of_treePath {i : ℕ} (hi : i < 2 ^ depth nullifiers)
    {y : Bytes32} (hy : SameElement y (treeNode F nullifiers 0 i)) :
    ∀ q ∈ HashTree.pathPairs F.hash (treePath F nullifiers 0 (depth nullifiers) i) y,
      ∃ q' ∈ treePairs F nullifiers, SameElement q.1 q'.1 ∧ SameElement q.2 q'.2 := by
  intro q hq
  obtain ⟨q', hq', hrel⟩ := HashTree.pathPairs_related F.hash
    Bn254.sameElement_equivalence F.congr _ hy q hq
  refine ⟨q', ?_, hrel⟩
  have hmem := HashTree.pathPairs_path_subset F.hash (HashTree.padded 0 nullifiers) 0
    (depth nullifiers) i q' hq'
  rwa [Nat.zero_add, Nat.div_eq_of_lt hi] at hmem

/-- … and leads to the root. -/
theorem climb_treePath_of_sameElement (hdepth : depth nullifiers ≠ 0) {i : ℕ}
    (hi : i < 2 ^ depth nullifiers) {y : Bytes32} (hy : SameElement y (treeNode F nullifiers 0 i)) :
    HashTree.climb F.hash (treePath F nullifiers 0 (depth nullifiers) i) y
      = EpochManager.merkleRoot F.hash nullifiers := by
  have hlength : (treePath F nullifiers 0 (depth nullifiers) i).length = depth nullifiers :=
    HashTree.length_path F.hash (HashTree.padded 0 nullifiers) 0 (depth nullifiers) i
  have hne : treePath F nullifiers 0 (depth nullifiers) i ≠ [] := by
    intro hnil
    rw [hnil] at hlength
    exact hdepth hlength.symm
  rw [HashTree.climb_related F.hash Bn254.sameElement_equivalence F.congr hne hy]
  exact climb_treePath 0 _ i hi (Nat.zero_add _)

/-- Along longer sides, the siblings above the leaf may be replaced by
those of the tree. -/
theorem member_of_long {sides : List Bool} {proof : List Bytes32} {x : Bytes32}
    (hlong : ¬ sides.length ≤ depth nullifiers) (hlen : proof.length = sides.length)
    (hends : EndsInList F nullifiers sides)
    (hfree : CollisionFree F nullifiers (sides.zip proof) x)
    (hclimb : HashTree.climb F.hash (sides.zip proof) x
      = EpochManager.merkleRoot F.hash nullifiers) : Member nullifiers x := by
  rw [EndsInList, if_neg hlong] at hends
  set extra := sides.length - depth nullifiers with hextra
  set lower := (sides.take extra).zip (proof.take extra) with hlower
  set upper := (sides.drop extra).zip (proof.drop extra) with hupper
  have hsplit : sides.zip proof = lower ++ upper := by
    rw [hlower, hupper, ← List.zip_append (by simp [hlen]), List.take_append_drop,
      List.take_append_drop]
  have hupperLength : upper.length = depth nullifiers := by
    rw [hupper, List.length_zip, List.length_drop, List.length_drop, hlen, min_self]
    omega
  have hupperSides : upper.map Prod.fst = sides.drop extra :=
    map_fst_zip_sides (by simp [hlen])
  set i := HashTree.descend (sides.drop extra) 0 with hi
  have hindex : i < 2 ^ depth nullifiers := by
    have hlt := descend_lt_two_pow (sides.drop extra)
    rwa [← hupperSides, List.length_map, hupperLength, hupperSides] at hlt
  set y := HashTree.climb F.hash lower x with hy
  rw [hsplit, HashTree.climb_append] at hclimb
  rw [hsplit, CollisionFree, HashTree.pathPairs_append] at hfree
  -- the value the extra sides lead to is the leaf
  have hleaf : SameElement y (treeNode F nullifiers 0 i) := by
    have hsame := sameElement_of_climb (k := 0) (p := upper) (x := y)
      (by rw [Nat.zero_add, hupperLength])
      (hfree.mono F.hash (fun q hq => by
        rw [List.mem_append] at hq ⊢
        exact hq.imp id (List.mem_append_right _))) hclimb
    rwa [hupperSides] at hsame
  refine hends (proof.take extra) x (by simp [hlen]; omega) ?_ ?_
  · rw [CollisionFree, HashTree.pathPairs_append]
    refine hfree.of_related F.hash Bn254.sameElement_equivalence F.congr (fun q hq => ?_)
    rw [List.mem_append, List.mem_append] at hq
    rcases hq with hq | hq | hq
    · exact ⟨q, List.mem_append_left _ hq, rfl, rfl⟩
    · exact ⟨q, List.mem_append_right _ (List.mem_append_left _ hq), rfl, rfl⟩
    · obtain ⟨q', hq', hrel⟩ := exists_related_of_treePath hindex hleaf q hq
      exact ⟨q', List.mem_append_left _ hq', hrel⟩
  · rw [HashTree.climb_append]
    show HashTree.climb F.hash _ y = _
    by_cases hdepth : depth nullifiers = 0
    · rw [List.eq_nil_of_length_eq_zero (hupperLength.trans hdepth)] at hclimb
      rw [hdepth]
      exact hclimb
    · exact climb_treePath_of_sameElement hdepth hindex hleaf

/-! ## The condition is necessary -/

/-- Where reports are sound, every value a path of that shape leads from
to the root is one of the nullifiers. -/
theorem OnlyMembers.member {pathIndices : List Uint256}
    (h : OnlyMembers F nullifiers pathIndices) (hlegal : Legal pathIndices)
    (hroot : EpochManager.merkleRoot F.hash nullifiers ≠ 0) (proof : List Bytes32)
    {x : Bytes32} (hlen : proof.length = pathIndices.length)
    (hfree : CollisionFree F nullifiers ((sidesOf pathIndices).zip proof) x)
    (hclimb : HashTree.climb F.hash ((sidesOf pathIndices).zip proof) x
      = EpochManager.merkleRoot F.hash nullifiers) : Member nullifiers x := by
  obtain ⟨tr, s, hrun, hrec, hid, hnew⟩ :=
    exists_recorded F.hash 7 (EpochManager.merkleRoot F.hash nullifiers)
  have hcomputed : EpochManager.computeNullifierRoot F.hash nullifiers
      = some (s.epochRoots 7 0) := by
    rw [EpochManager.computeNullifierRoot_eq, hrec]
  refine h _ _ _ hrun _ _ hcomputed 0 0 x proof hfree ?_
  rw [reportNullifierSpent_isOk, hid, hrec, verifyInclusion_iff]
  exact ⟨by decide, hnew x, hroot, hlen, hlen ▸ hlegal.ne_zero, hlen ▸ hlegal.le_max,
    hlegal.le_one, hclimb⟩

/-- No deeper than the tree, the tree's own path reports the node the
sides lead down to. -/
theorem OnlyMembers.member_treeNode {pathIndices : List Uint256} {sides : List Bool}
    (hsides : sidesOf pathIndices = sides)
    (hfree : HashTree.Separates F.hash SameElement (treePairs F nullifiers))
    (h : OnlyMembers F nullifiers pathIndices) (hlegal : Legal pathIndices)
    (hroot : EpochManager.merkleRoot F.hash nullifiers ≠ 0)
    (hshort : sides.length ≤ depth nullifiers) :
    Member nullifiers
      (treeNode F nullifiers (depth nullifiers - sides.length) (HashTree.descend sides 0)) := by
  set k := depth nullifiers - sides.length with hk
  set i := HashTree.descend sides 0 with hi
  have hindex : i < 2 ^ sides.length := descend_lt_two_pow sides
  have hfst : (treePath F nullifiers k sides.length i).map Prod.fst = sides :=
    HashTree.map_fst_path F.hash _ sides k 0
  have hzip : sides.zip ((treePath F nullifiers k sides.length i).map Prod.snd)
      = treePath F nullifiers k sides.length i := zip_siblings hfst
  refine h.member hlegal hroot
    ((treePath F nullifiers k sides.length i).map Prod.snd) ?_ ?_ ?_
  · rw [List.length_map, treePath, HashTree.length_path, ← hsides, length_sidesOf]
  · rw [hsides, hzip]
    refine hfree.mono F.hash (fun q hq => ?_)
    rcases List.mem_append.mp hq with hq | hq
    · exact hq
    · have hmem := HashTree.pathPairs_path_subset F.hash
        (HashTree.padded 0 nullifiers) k sides.length i q hq
      rwa [Nat.div_eq_of_lt hindex, Nat.sub_add_cancel hshort] at hmem
  · rw [hsides, hzip]
    exact climb_treePath k sides.length i hindex (Nat.sub_add_cancel hshort)

/-- Siblings followed by a path, along sides that end with those of the
path. -/
theorem zip_append_siblings {sides : List Bool} {siblings : List Bytes32}
    {p : List (Bool × Bytes32)} (hlen : siblings.length ≤ sides.length)
    (hfst : p.map Prod.fst = sides.drop siblings.length) :
    sides.zip (siblings ++ p.map Prod.snd)
      = (sides.take siblings.length).zip siblings ++ p := by
  have htake : (sides.take siblings.length).length = siblings.length := by
    rw [List.length_take]
    exact min_eq_left hlen
  conv_lhs => rw [← List.take_append_drop siblings.length sides]
  rw [List.zip_append htake, zip_siblings hfst]

/-- The tree's own path shows that the condition is necessary. -/
theorem endsInList_of_onlyMembers {pathIndices : List Uint256}
    (hfree : HashTree.Separates F.hash SameElement (treePairs F nullifiers))
    (h : OnlyMembers F nullifiers pathIndices) (hlegal : Legal pathIndices)
    (hroot : EpochManager.merkleRoot F.hash nullifiers ≠ 0) :
    EndsInList F nullifiers (sidesOf pathIndices) := by
  unfold EndsInList
  split
  · rename_i hshort
    exact h.member_treeNode rfl hfree hlegal hroot hshort
  · rename_i hlong
    intro extra p siblings x hlen hpath hclimb
    set sides := sidesOf pathIndices with hsides
    have hle : depth nullifiers ≤ sides.length := (not_le.mp hlong).le
    have hdrop : (sides.drop extra).length = depth nullifiers := by
      rw [List.length_drop]
      exact Nat.sub_sub_self hle
    have hfst : p.map Prod.fst = sides.drop siblings.length := by
      have hpathSides := HashTree.map_fst_path F.hash (HashTree.padded 0 nullifiers)
        (sides.drop extra) 0 0
      rw [hdrop] at hpathSides
      exact hlen ▸ hpathSides
    have hzip : sides.zip (siblings ++ p.map Prod.snd)
        = (sides.take extra).zip siblings ++ p :=
      hlen ▸ zip_append_siblings (hlen.trans_le (Nat.sub_le ..)) hfst
    refine h.member hlegal hroot (siblings ++ p.map Prod.snd) ?_ ?_ ?_
    · have hp : p.length = depth nullifiers := HashTree.length_path ..
      rw [List.length_append, hlen, List.length_map, hp, ← length_sidesOf]
      exact Nat.sub_add_cancel hle
    · rw [← hsides, hzip]
      exact hpath
    · rw [← hsides, hzip]
      exact hclimb

/-! ## Soundness -/

/-- **What can be reported.** If no two pairs hashed in the tree of an
epoch collide, reports along given indices go through for its nullifiers
only, exactly when the root is the zero word, or the registry does not
look at such indices, or the sides end in the list. -/
theorem onlyMembers_iff (F : FieldHash) (nullifiers : List Bytes32)
    (pathIndices : List Uint256)
    (hfree : HashTree.Separates F.hash SameElement (treePairs F nullifiers)) :
    OnlyMembers F nullifiers pathIndices ↔
      EpochManager.merkleRoot F.hash nullifiers = 0 ∨ ¬ Legal pathIndices
        ∨ EndsInList F nullifiers (sidesOf pathIndices) := by
  constructor
  · intro h
    by_cases hroot : EpochManager.merkleRoot F.hash nullifiers = 0
    · exact Or.inl hroot
    by_cases hlegal : Legal pathIndices
    · exact Or.inr (Or.inr (endsInList_of_onlyMembers hfree h hlegal hroot))
    · exact Or.inr (Or.inl hlegal)
  · intro hcond governance tr s hrun chainId epochId hcomputed sender now nullifier proof
      hpath hok
    rw [EpochManager.computeNullifierRoot_eq, Option.some.injEq] at hcomputed
    obtain ⟨-, -, hrec, hinc⟩ := reportNullifierSpent_isOk.mp hok
    rw [← hcomputed] at hrec hinc
    obtain ⟨hlen, hzero, hmax, hone, hclimb⟩ := (verifyInclusion_iff _).mp hinc
    have hends := (hcond.resolve_left hrec).resolve_left
      (not_not.mpr ⟨hlen ▸ hzero, hlen ▸ hmax, hone⟩)
    have hlength : proof.length = (sidesOf pathIndices).length := by
      rw [hlen, length_sidesOf]
    by_cases hshort : (sidesOf pathIndices).length ≤ depth nullifiers
    · exact member_of_short hshort hlength hends hpath hclimb
    · exact member_of_long hshort hlength hends hpath hclimb

/-- **Full-depth sides to a position in the list end in the list.** -/
theorem endsInList_of_position {sides : List Bool}
    (hdepth : sides.length = depth nullifiers)
    (hposition : HashTree.descend sides 0 < nullifiers.length) :
    EndsInList F nullifiers sides := by
  rw [EndsInList, if_pos hdepth.le, hdepth, Nat.sub_self, treeNode, HashTree.node_zero,
    HashTree.padded_of_lt _ hposition]
  exact ⟨_, List.getElem_mem _, rfl⟩

/-- Of an epoch of two, only its nullifiers are reported with one
sibling. -/
theorem onlyMembers_iff_two : OnlyMembers PoseidonHasher.fieldHash [5, 6] [0] := by
  have hdepth : depth [5, 6] = 1 := Nat.clog_eq_one le_rfl le_rfl
  have hfree : HashTree.Separates PoseidonHasher.hash SameElement
      (treePairs PoseidonHasher.fieldHash [5, 6]) := by
    rw [treePairs, hdepth]
    rintro p hp q hq -
    obtain rfl := List.mem_singleton.mp hp
    obtain rfl := List.mem_singleton.mp hq
    exact ⟨rfl, rfl⟩
  refine (onlyMembers_iff PoseidonHasher.fieldHash [5, 6] [0] hfree).mpr
    (Or.inr (Or.inr (endsInList_of_position hdepth.symm ?_)))
  decide

/-- The pairs hashed in the tree of an epoch of four, and on the path from
the node over its first two. -/
theorem collisionFree_four (F : FieldHash) (a b c d : Bytes32)
    (h : [F.hash (F.hash a b) (F.hash c d), F.hash a b, F.hash c d].Nodup) :
    CollisionFree F [a, b, c, d] ((sidesOf [0]).zip [F.hash c d]) (F.hash a b) := by
  have hdepth : depth [a, b, c, d] = 2 := Nat.clog_pow 2 2 Nat.one_lt_two
  have hpairs : HashTree.Separates F.hash SameElement
      [(F.hash a b, F.hash c d), (a, b), (c, d)] :=
    HashTree.Separates.of_nodup F.hash (fun _ => Nat.ModEq.refl _) h
  rw [CollisionFree, treePairs, hdepth]
  refine hpairs.mono F.hash (fun p hp => ?_)
  rcases List.mem_append.mp hp with hp | hp
  · exact hp
  · exact List.mem_cons.mpr (Or.inl (List.mem_singleton.mp hp))

/-- **An inner node is reported**: of an epoch of four, the hash of the
first two nullifiers, with the hash of the other two as its only
sibling. -/
theorem exists_reported_node :
    ∃ tr s s', Run (step PoseidonHasher.hash) (fun _ _ => True) (construct 1) tr s
      ∧ EpochManager.computeNullifierRoot PoseidonHasher.hash [1, 2, 3, 4]
        = some (s.epochRoots 7 0)
      ∧ CollisionFree PoseidonHasher.fieldHash [1, 2, 3, 4]
          ((sidesOf [0]).zip [PoseidonHasher.hash 3 4]) (PoseidonHasher.hash 1 2)
      ∧ step PoseidonHasher.hash ⟨9, 0, .reportNullifierSpent 7 (PoseidonHasher.hash 1 2) 0
          [PoseidonHasher.hash 3 4] [0]⟩ s = .ok s'
      ∧ ¬ Member [1, 2, 3, 4] (PoseidonHasher.hash 1 2) := by
  obtain ⟨tr, s, hrun, hrec, hid, hnew⟩ := exists_recorded PoseidonHasher.hash 7
    (EpochManager.merkleRoot PoseidonHasher.hash [1, 2, 3, 4])
  have hclimb : ∀ hash (x y : Bytes32),
      HashTree.climb hash ((sidesOf [0]).zip [y]) x = hash x y := fun _ _ _ => rfl
  obtain ⟨s', hstep⟩ : ∃ s', step PoseidonHasher.hash ⟨9, 0,
      .reportNullifierSpent 7 (PoseidonHasher.hash 1 2) 0 [PoseidonHasher.hash 3 4] [0]⟩ s
        = .ok s' := by
    rw [reportNullifierSpent_isOk, hid, hrec, verifyInclusion_iff, hclimb,
      EpochManager.merkleRoot_four]
    refine ⟨by decide, hnew _, ?_, rfl, Nat.one_ne_zero, ?_, ?_, rfl⟩
    · decide +kernel
    · exact Nat.le_of_ble_eq_true rfl
    · exact List.forall_mem_singleton.mpr (by decide)
  refine ⟨tr, s, s', hrun, ?_, ?_, hstep, ?_⟩
  · rw [EpochManager.computeNullifierRoot_eq, hrec]
  · refine collisionFree_four PoseidonHasher.fieldHash 1 2 3 4 ?_
    show [PoseidonHasher.hash _ _, PoseidonHasher.hash _ _, PoseidonHasher.hash _ _].Nodup
    decide +kernel
  · rintro ⟨n, hn, hsame⟩
    have hdiffer : ¬ SameElement (PoseidonHasher.hash 1 2) 1
        ∧ ¬ SameElement (PoseidonHasher.hash 1 2) 2
        ∧ ¬ SameElement (PoseidonHasher.hash 1 2) 3
        ∧ ¬ SameElement (PoseidonHasher.hash 1 2) 4 := by decide +kernel
    obtain ⟨h1, h2, h3, h4⟩ := hdiffer
    simp only [List.mem_cons, List.not_mem_nil, or_false] at hn
    rcases hn with rfl | rfl | rfl | rfl
    · exact h1 hsame
    · exact h2 hsame
    · exact h3 hsame
    · exact h4 hsame

end UniversalNullifierRegistry
