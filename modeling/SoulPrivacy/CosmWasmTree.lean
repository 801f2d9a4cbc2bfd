import SoulPrivacy.CosmWasmEffect
import SoulPrivacy.PalletTree

/-!
# The tree of the CosmWasm pool

The tree holds its words as texts, and each level of it is an entry of the
storage that may not be there. Over texts of 64 digits neither the parser nor
the storage fails: the loop of an insertion is then the climb of a tree of texts
(`exists_foldlM_insertStep`), under the hash of the words the texts are
(`hashText`).

So the contract keeps the tree as the pallet does (`both_keep_tree`), and the
root it shows is, read as a word, the root over the words of the leaves.
-/

namespace CosmWasmPool

open AppendTree (Appending climbStep climbTo climbTo_succ rootHistory)
open HashTree (emptyNode)
open RingBuffer (InMapping scanMapping)

variable {C : Crypto}

/-! ## Texts of 64 digits -/

/-- A hash of words, on texts of 64 digits. -/
def hashText (hash : Uint256 → Uint256 → Uint256) (left right : String) : String :=
  Bytes32.toHex (hash (hexWord left) (hexWord right))

theorem isHex64_hashText (hash : Uint256 → Uint256 → Uint256) (left right : String) :
    IsHex64 (hashText hash left right) :=
  (Bytes32.isLowerHex64_toHex _).isHex64

theorem isHex64_ZERO_HASH : IsHex64 ZERO_HASH := by decide +kernel

theorem isHex64_emptyNode (hash : Uint256 → Uint256 → Uint256) (level : ℕ) :
    IsHex64 (emptyNode (hashText hash) ZERO_HASH level) := by
  cases level with
  | zero => exact isHex64_ZERO_HASH
  | succ level => exact isHex64_hashText hash _ _

/-- **Texts of 64 digits are hashed as their words.** -/
theorem poseidonHashHex_eq {left right : String} (hl : IsHex64 left) (hr : IsHex64 right) :
    poseidonHashHex C left right = .ok (hashText C.hash left right) := by
  obtain ⟨leftBytes, hleft, hlword⟩ := CosmWasmPoseidon.hexTo32_of_isHex64 hl
  obtain ⟨rightBytes, hright, hrword⟩ := CosmWasmPoseidon.hexTo32_of_isHex64 hr
  unfold poseidonHashHex CosmWasmPoseidon.hashHex hashText
  rw [hleft, hright, ← hlword, ← hrword]
  rfl

theorem zeroHash_eq (level : ℕ) :
    zeroHash C level = .ok (emptyNode (hashText C.hash) ZERO_HASH level) := by
  induction level with
  | zero => rfl
  | succ level ih =>
    rw [zeroHash, ih]
    exact poseidonHashHex_eq (isHex64_emptyNode _ level) (isHex64_emptyNode _ level)

/-! ## The loop of an insertion -/

/-- The entries of a mapping, empty where there is none. -/
def entries (filled : ℕ → Option String) (level : ℕ) : String := (filled level).getD ""

/-- **The levels below a depth are there**, as texts of 64 digits. -/
def Written (filled : ℕ → Option String) (depth : ℕ) : Prop :=
  ∀ level < depth, ∃ t, filled level = some t ∧ IsHex64 t

theorem entries_update (filled : ℕ → Option String) (level : ℕ) (t : String) :
    entries (Function.update filled level (some t)) = Function.update (entries filled) level t := by
  funext k
  unfold entries
  rw [Function.update_apply, Function.update_apply]
  split <;> rfl

theorem Written.update {filled : ℕ → Option String} {depth : ℕ} (h : Written filled depth)
    {t : String} (ht : IsHex64 t) (level : ℕ) :
    Written (Function.update filled level (some t)) depth := by
  intro k hk
  by_cases heq : k = level
  · exact ⟨t, by rw [heq, Function.update_self], ht⟩
  · rw [Function.update_of_ne heq]
    exact h k hk

/-- The state of the loop, as that of the climb. -/
def Climb.toClimb (st : Climb) : AppendTree.Climb String :=
  ⟨st.currentIndex, st.currentHash, entries st.filledSubtrees⟩

/-- An even node is kept, and paired with the empty subtree. -/
theorem insertStep_of_even {st : Climb} (level : ℕ) (heven : st.currentIndex % 2 = 0)
    (hhash : IsHex64 st.currentHash) :
    insertStep C st level = .ok ⟨st.currentIndex / 2,
      hashText C.hash st.currentHash (emptyNode (hashText C.hash) ZERO_HASH level),
      Function.update st.filledSubtrees level (some st.currentHash)⟩ := by
  unfold insertStep
  rw [if_pos heven, zeroHash_eq]
  show poseidonHashHex C _ _ >>= _ = _
  rw [poseidonHashHex_eq hhash (isHex64_emptyNode _ level)]
  rfl

/-- An odd one is paired with what is kept. -/
theorem insertStep_of_odd {st : Climb} {level : ℕ} {t : String}
    (hodd : ¬ st.currentIndex % 2 = 0) (hhash : IsHex64 st.currentHash)
    (hentry : st.filledSubtrees level = some t) (ht : IsHex64 t) :
    insertStep C st level = .ok ⟨st.currentIndex / 2, hashText C.hash t st.currentHash,
      st.filledSubtrees⟩ := by
  unfold insertStep
  rw [if_neg hodd, hentry]
  show poseidonHashHex C _ _ >>= _ = _
  rw [poseidonHashHex_eq ht hhash]
  rfl

/-- **A level of the loop is one of the climb.** -/
theorem exists_insertStep {st : Climb} {depth level : ℕ} (hlevel : level < depth)
    (hwritten : Written st.filledSubtrees depth) (hhash : IsHex64 st.currentHash) :
    ∃ st', insertStep C st level = .ok st'
      ∧ st'.toClimb = climbStep (hashText C.hash) ZERO_HASH st.toClimb level
      ∧ Written st'.filledSubtrees depth ∧ IsHex64 st'.currentHash := by
  unfold climbStep Climb.toClimb
  by_cases heven : st.currentIndex % 2 = 0
  · refine ⟨_, insertStep_of_even level heven hhash, ?_, hwritten.update hhash level,
      isHex64_hashText C.hash _ _⟩
    rw [if_pos heven, entries_update]
  · obtain ⟨t, hentry, ht⟩ := hwritten level hlevel
    have hkept : entries st.filledSubtrees level = t := by
      unfold entries
      rw [hentry]
      rfl
    refine ⟨_, insertStep_of_odd heven hhash hentry ht, ?_, hwritten,
      isHex64_hashText C.hash _ _⟩
    rw [if_neg heven]
    dsimp only
    rw [hkept]

/-- **The loop of an insertion is the climb.** -/
theorem exists_foldlM_insertStep {filled : ℕ → Option String} {depth : ℕ}
    (hwritten : Written filled depth) {leaf : String} (hleaf : IsHex64 leaf) (index : ℕ)
    {height : ℕ} (hle : height ≤ depth) :
    ∃ st, (List.range height).foldlM (insertStep C) ⟨index, leaf, filled⟩ = .ok st
      ∧ st.toClimb = climbTo (hashText C.hash) ZERO_HASH index leaf (entries filled) height
      ∧ Written st.filledSubtrees depth ∧ IsHex64 st.currentHash := by
  induction height with
  | zero => exact ⟨_, rfl, rfl, hwritten, hleaf⟩
  | succ height ih =>
    obtain ⟨st, hloop, hclimb, hwritten, hhash⟩ := ih (Nat.le_of_succ_le hle)
    obtain ⟨st', hstep, hclimb', hrest⟩ := exists_insertStep hle hwritten hhash
    refine ⟨st', ?_, by rw [climbTo_succ, ← hclimb, hclimb'], hrest⟩
    rw [List.range_succ, List.foldlM_append, hloop]
    show insertStep C st height >>= pure = _
    rw [hstep]
    rfl

/-- **The loop of the instantiation writes every level**, and ends with the
empty tree. -/
theorem exists_foldlM_instantiateStep (depth : ℕ) :
    ∃ filled, (List.range depth).foldlM (instantiateStep C) (fun _ => none, ZERO_HASH)
        = .ok (filled, emptyNode (hashText C.hash) ZERO_HASH depth)
      ∧ Written filled depth := by
  induction depth with
  | zero => exact ⟨_, rfl, nofun⟩
  | succ depth ih =>
    obtain ⟨filled, hloop, hwritten⟩ := ih
    have hzero := isHex64_emptyNode C.hash depth
    refine ⟨Function.update filled depth (some (emptyNode (hashText C.hash) ZERO_HASH depth)),
      ?_, fun k hk => ?_⟩
    · rw [List.range_succ, List.foldlM_append, hloop]
      show (poseidonHashHex C _ _ >>= _) >>= pure = _
      rw [poseidonHashHex_eq hzero hzero]
      rfl
    · by_cases heq : k = depth
      · exact ⟨_, by rw [heq, Function.update_self], hzero⟩
      · rw [Function.update_of_ne heq]
        exact hwritten k (by omega)

/-- **The contract is instantiated**, with every level written. -/
theorem exists_instantiate_eq (height : ℕ) (msg : InstantiateMsg) :
    ∃ filled, instantiate C height msg = .ok (initial height msg
        (filled, emptyNode (hashText C.hash) ZERO_HASH msg.treeDepth.toNat))
      ∧ Written filled msg.treeDepth.toNat := by
  obtain ⟨filled, hloop, hwritten⟩ :=
    exists_foldlM_instantiateStep (C := C) msg.treeDepth.toNat
  refine ⟨filled, ?_, hwritten⟩
  unfold instantiate
  rw [hloop]
  rfl

/-! ## The ring of roots -/

theorem powTwo_of_le {n : ℕ} (h : n ≤ 63) : powTwo n = .ok (2 ^ n) :=
  if_pos (Nat.lt_succ_of_le h)

/-- A ring with a place in it is not empty. -/
theorem rootHistorySize_ne_zero {s : State}
    (h : s.currentRootIndex < s.config.rootHistorySize.toNat) : s.config.rootHistorySize ≠ 0 := by
  intro hzero
  rw [hzero] at h
  exact Nat.not_lt_zero _ h

/-- The next place in the ring. -/
theorem nextRootIndex_eq {s : State} (h : s.currentRootIndex < s.config.rootHistorySize.toNat) :
    nextRootIndex s = .ok ((s.currentRootIndex + 1) % s.config.rootHistorySize.toNat) := by
  have hbound := s.config.rootHistorySize.isLt
  unfold nextRootIndex
  rw [revertIf_bind_of_neg (by omega), revertIf_bind_of_neg (rootHistorySize_ne_zero h)]

/-- **The search for a root is a scan** of the ring. -/
theorem searchRoots_eq (roots : ℕ → Option String) {historySize : BitVec 32}
    (hsize : historySize ≠ 0) (root : String) (n idx : ℕ) :
    searchRoots roots historySize root n idx
      = .ok (scanMapping (· == some root) historySize.toNat roots n idx) := by
  induction n generalizing idx with
  | zero => rfl
  | succ n ih =>
    unfold searchRoots scanMapping
    by_cases hfound : roots idx = some root
    · rw [if_pos hfound, if_pos (beq_iff_eq.mpr hfound)]
    · have hmissed : ¬ (roots idx == some root) = true := fun h => hfound (beq_iff_eq.mp h)
      rw [if_neg hfound, if_neg hmissed, revertIf_bind_of_neg hsize, ih, ih]
      split <;> rfl

/-! ## The state over the leaves -/

/-- **The state holds the tree over some leaves**, of a depth and with a
history of a size. -/
structure TreeHolds (C : Crypto) (depth size : ℕ) (leaves : List String) (s : State) :
    Prop where
  depth_eq : s.config.treeDepth.toNat = depth
  size_eq : s.config.rootHistorySize.toNat = size
  written : Written s.filledSubtrees depth
  tree : Appending (hashText C.hash) ZERO_HASH depth leaves s.nextLeafIndex
    (entries s.filledSubtrees)
  history : InMapping none size s.roots s.currentRootIndex
    ((rootHistory (hashText C.hash) ZERO_HASH depth leaves).map some)

/-- **The contract is instantiated with the empty tree.** -/
theorem exists_instantiate (height : ℕ) {msg : InstantiateMsg}
    (hsize : 1 ≤ msg.rootHistorySize.toNat) :
    ∃ s₀, instantiate C height msg = .ok s₀
      ∧ TreeHolds C msg.treeDepth.toNat msg.rootHistorySize.toNat [] s₀ := by
  obtain ⟨filled, hinstantiate, hwritten⟩ := exists_instantiate_eq (C := C) height msg
  refine ⟨_, hinstantiate, rfl, rfl, hwritten, Appending.nil _ _ _ _, ?_⟩
  rw [AppendTree.rootHistory_nil]
  change InMapping none _ (Function.update (fun _ => none) 0 _) 0 _
  exact InMapping.init hsize (fun i hi => Function.update_of_ne hi _ _)
    (Function.update_self ..)

/-- The latest root has a place. -/
theorem TreeHolds.current_lt {depth size : ℕ} {leaves : List String} {s : State}
    (h : TreeHolds C depth size leaves s) :
    s.currentRootIndex < s.config.rootHistorySize.toNat := h.history.lt.trans_eq h.size_eq.symm

/-- **An insertion goes through and extends the leaves by one.** -/
theorem TreeHolds.exists_insertLeaf {depth size : ℕ} {leaves : List String} {s : State}
    (h : TreeHolds C depth size leaves s) (hdepth : depth ≤ 63)
    (hroom : leaves.length < 2 ^ depth) {leaf : String} (hleaf : IsHex64 leaf) :
    ∃ i s', insertLeaf C leaf s = .ok (i, s')
      ∧ TreeHolds C depth size (leaves ++ [leaf]) s' := by
  obtain ⟨st, hloop, hclimb, hwritten, -⟩ :=
    exists_foldlM_insertStep h.written hleaf s.nextLeafIndex le_rfl
  have hindex := h.tree.nextIndex
  have hpow : 2 ^ depth ≤ 2 ^ 63 := Nat.pow_le_pow_right Nat.two_pos hdepth
  have hnext := nextRootIndex_eq h.current_lt
  rw [h.size_eq] at hnext
  generalize hnew : (s.currentRootIndex + 1) % size = newIdx at hnext
  refine ⟨s.nextLeafIndex, s.withTree ⟨st.filledSubtrees,
    Function.update s.roots newIdx (some st.currentHash), newIdx, s.nextLeafIndex + 1⟩, ?_, ?_⟩
  · unfold insertLeaf
    rw [h.depth_eq, powTwo_of_le hdepth]
    show revertIf _ _ >>= _ = _
    rw [revertIf_bind_of_neg (by omega), hloop]
    show nextRootIndex s >>= _ = _
    rw [hnext]
    show revertIf _ _ >>= _ = _
    rw [revertIf_bind_of_neg (by omega)]
    rfl
  · refine ⟨h.depth_eq, h.size_eq, hwritten, ?_, ?_⟩
    · have happend := h.tree.append leaf
      rwa [← hclimb] at happend
    · rw [AppendTree.rootHistory_append, ← h.tree.root hroom leaf, ← hclimb, List.map_append,
        ← hnew]
      exact h.history.push _

/-- What else a state has makes no difference to its tree. -/
theorem TreeHolds.of_eq {depth size : ℕ} {leaves : List String} {s s' : State}
    (h : TreeHolds C depth size leaves s) (hconfig : s'.config = s.config)
    (hindex : s'.nextLeafIndex = s.nextLeafIndex)
    (hfilled : s'.filledSubtrees = s.filledSubtrees) (hroots : s'.roots = s.roots)
    (hcurrent : s'.currentRootIndex = s.currentRootIndex) :
    TreeHolds C depth size leaves s' where
  depth_eq := hconfig ▸ h.depth_eq
  size_eq := hconfig ▸ h.size_eq
  written := hfilled ▸ h.written
  tree := hindex ▸ hfilled ▸ h.tree
  history := hroots ▸ hcurrent ▸ h.history

/-- **A root is known when it is one of the last.** -/
theorem TreeHolds.isKnownRoot_eq {depth size : ℕ} {leaves : List String} {s : State}
    (h : TreeHolds C depth size leaves s) {root : String} (hroot : root ≠ ZERO_HASH) :
    isKnownRoot s root = .ok (decide (root ∈ (rootHistory (hashText C.hash) ZERO_HASH depth
      leaves).drop (leaves.length + 1 - size))) := by
  have hscan := h.history.scan_iff (Option.some_ne_none root)
  rw [List.length_map, AppendTree.length_rootHistory, ← List.map_drop,
    List.mem_map_of_injective (Option.some_injective String)] at hscan
  unfold isKnownRoot
  rw [if_neg hroot, searchRoots_eq _ (rootHistorySize_ne_zero h.current_lt),
    h.size_eq]
  refine congrArg Except.ok ?_
  rw [← Bool.coe_iff_coe, decide_eq_true_iff]
  exact hscan

/-- `insert_leaf`, the query of the latest root, and `is_known_root`. -/
def treeProgram (C : Crypto) : AppendTree.Program String Error State where
  insertLeaf := insertLeaf C
  latestRoot := latestRoot
  isKnownRoot := isKnownRoot
  treeFull := .treeFull

/-- **What a state that holds a tree shows.** -/
theorem TreeHolds.shows {depth size : ℕ} {leaves : List String} {s : State}
    (h : TreeHolds C depth size leaves s) (hdepth : depth ≤ 63) :
    (treeProgram C).Shows (hashText C.hash) ZERO_HASH depth size leaves s where
  latestRoot := by
    obtain ⟨earlier, heq⟩ :=
      AppendTree.exists_rootHistory_eq (hashText C.hash) ZERO_HASH depth leaves
    have hhistory := h.history
    rw [heq, List.map_append] at hhistory
    exact hhistory.getElem
  full hlen leaf := by
    have hfull : insertLeaf C leaf s = .error .treeFull := by
      unfold insertLeaf
      rw [h.depth_eq, powTwo_of_le hdepth]
      show revertIf _ _ >>= _ = _
      rw [revertIf_bind_of_pos (by rw [h.tree.nextIndex, hlen])]
    exact ⟨hfull, AppendTree.Program.after_of_error hfull⟩
  known root hroot := h.isKnownRoot_eq hroot

/-- **The contract keeps the tree** of its depth, and as many roots as its
history is long. -/
theorem exists_keeps_tree (height : ℕ) {msg : InstantiateMsg}
    (hdepth : msg.treeDepth.toNat ≤ 63) (hsize : 1 ≤ msg.rootHistorySize.toNat) :
    ∃ s₀, instantiate C height msg = .ok s₀
      ∧ (treeProgram C).Keeps (hashText C.hash) ZERO_HASH msg.treeDepth.toNat
        msg.rootHistorySize.toNat IsHex64 s₀ := by
  obtain ⟨s₀, hs₀, hinit⟩ := exists_instantiate (C := C) height hsize
  exact ⟨s₀, hs₀, AppendTree.Program.keeps_of_relation (TreeHolds C _ _) hinit
    (fun h hroom hleaf => h.exists_insertLeaf hdepth hroom hleaf) (fun h => h.shows hdepth)⟩

/-! ## Both trees -/

/-- The root of a tree of texts is a text of the root over their words. -/
theorem hexWord_root (hash : Uint256 → Uint256 → Uint256) (depth : ℕ) (leaves : List String) :
    hexWord (HashTree.root (hashText hash) ZERO_HASH depth leaves)
      = HashTree.root hash 0 depth (leaves.map hexWord) := by
  have hzero : hexWord ZERO_HASH = 0 := by decide +kernel
  have hhash : ∀ a b, hexWord (hashText hash a b) = hash (hexWord a) (hexWord b) :=
    fun _ _ => Bytes32.hexWord_toHex _
  rw [AppendTree.map_root hhash, hzero]

open PrivacyPoolPallet (Runtime)

/-- **The pallet and the CosmWasm pool keep the same tree.** For every depth up
to 63 and every size of the history, over one and the same hash: after any
number of insertions there is room for, the latest root of either is the root of
the tree over the leaves, the rest of them zero; the insertion after the last is
rejected; and a root that is not zero is known when it is one of the last. Read
as a word, the root of the contract is the root over the words of its
leaves. -/
theorem both_keep_tree {AccountId L : Type} (R : Runtime AccountId L)
    (sha256 : Bytes → Bytes32) (height : ℕ) (msg : InstantiateMsg)
    (hdepth : R.treeDepth ≤ 63) (hsize : 1 ≤ R.rootHistorySize)
    (hmsgDepth : msg.treeDepth.toNat ≤ 63) (hmsgSize : 1 ≤ msg.rootHistorySize.toNat) :
    (PrivacyPoolPallet.treeProgram R).Keeps R.poseidonHash 0 R.treeDepth R.rootHistorySize
        (fun _ => True) (PrivacyPoolPallet.genesis R)
      ∧ (∃ s₀, instantiate ⟨R.poseidonHash, sha256⟩ height msg = .ok s₀
        ∧ (treeProgram ⟨R.poseidonHash, sha256⟩).Keeps (hashText R.poseidonHash) ZERO_HASH
          msg.treeDepth.toNat msg.rootHistorySize.toNat IsHex64 s₀)
      ∧ ∀ leaves, hexWord (HashTree.root (hashText R.poseidonHash) ZERO_HASH
          msg.treeDepth.toNat leaves)
        = HashTree.root R.poseidonHash 0 msg.treeDepth.toNat (leaves.map hexWord) :=
  ⟨PrivacyPoolPallet.keeps_tree hdepth hsize, exists_keeps_tree height hmsgDepth hmsgSize,
    hexWord_root R.poseidonHash msg.treeDepth.toNat⟩

/-- A pallet of depth two that keeps three roots. -/
def shallowRuntime : Runtime Unit Unit where
  treeDepth := 2
  maxNullifiersPerEpoch := 4
  rootHistorySize := 3
  paraId := 1
  appId := 1
  poolAccount := ()
  transferCurrency := fun _ _ _ _ l => some l
  poseidonHash := fun a b => 3 * a + b + 1
  blake2_256 := fun _ => 0

/-- The same settings for the contract. -/
def shallowMsg : InstantiateMsg := ⟨2, 3600, 4, 3, 1, 1, "gov", "uatom"⟩

/-- Four leaves fill it, and a fifth is rejected. -/
theorem both_keep_tree_four :
    (∃ s, (PrivacyPoolPallet.treeProgram shallowRuntime).insertAll [5, 6, 7, 8]
          (PrivacyPoolPallet.genesis shallowRuntime) = .ok s
        ∧ PrivacyPoolPallet.insertLeaf shallowRuntime 9 s = .error .treeFull)
      ∧ ∃ s₀ s, instantiate ⟨shallowRuntime.poseidonHash, fun _ => 0⟩ 1 shallowMsg = .ok s₀
        ∧ (treeProgram ⟨shallowRuntime.poseidonHash, fun _ => 0⟩).insertAll
          ([5, 6, 7, 8].map Bytes32.toHex) s₀ = .ok s
        ∧ insertLeaf ⟨shallowRuntime.poseidonHash, fun _ => 0⟩ "x" s = .error .treeFull := by
  have hleaves : ∀ leaf ∈ [5, 6, 7, 8].map Bytes32.toHex, IsHex64 leaf := by
    intro leaf hleaf
    obtain ⟨w, -, rfl⟩ := List.mem_map.mp hleaf
    exact (Bytes32.isLowerHex64_toHex w).isHex64
  obtain ⟨hpallet, ⟨s₀, hs₀, hcontract⟩, -⟩ := both_keep_tree shallowRuntime (fun _ => 0) 1
    shallowMsg (by decide) (by decide) (by decide) (by decide)
  obtain ⟨s, hs, hshows⟩ := hpallet [5, 6, 7, 8] (by decide) (fun _ _ => trivial)
  obtain ⟨s', hs', hshows'⟩ := hcontract ([5, 6, 7, 8].map Bytes32.toHex)
    (by rw [List.length_map]; decide) hleaves
  exact ⟨⟨s, hs, (hshows.full (by decide) 9).1⟩, s₀, s', hs₀, hs',
    (hshows'.full (by rw [List.length_map]; decide) "x").1⟩

end CosmWasmPool
