import SoulPrivacy.AppendTree
import SoulPrivacy.RingBuffer
import SoulPrivacy.Solidity

/-!
# The commitment tree (`MerkleTree.sol`)

The library keeps one word per height, `filledSubtrees`, the next leaf
index, and a ring of the last hundred roots. Inserting a leaf climbs the
32 heights from it: at an even index the running hash is stored and
paired with the empty subtree, at an odd one it is paired with what is
stored. Nothing else of the tree is kept.

The two-input hash is a parameter. Nothing below depends on what it
computes: the tree is the reference tree for any hash, the contract's
Poseidon included.

`Represents` is the invariant: the stored words are the frontier of the
tree over the leaves inserted so far, and the ring holds the end of the
history of roots. `insert_represents` is the step and
`exists_insertAll` the run.
-/

namespace MerkleTree

/-- `DEPTH`. -/
abbrev DEPTH : ℕ := 32

/-- `ROOT_HISTORY_SIZE`. -/
abbrev ROOT_HISTORY_SIZE : ℕ := 100

/-- The reasons the library reverts for. -/
inductive Error where
  /-- `"MerkleTree: tree full"`. -/
  | treeFull
  deriving DecidableEq, Repr

/-- **`TreeData`**, the storage of a tree. The write position of the root
ring is always reduced modulo its size, so it is an index into the
ring. -/
structure TreeData where
  nextLeafIndex : ℕ
  filledSubtrees : Vector Uint256 DEPTH
  roots : Vector Uint256 ROOT_HISTORY_SIZE
  currentRootIndex : Fin ROOT_HISTORY_SIZE
  deriving DecidableEq

/-- Storage nothing was written to. -/
def TreeData.unwritten : TreeData where
  nextLeafIndex := 0
  filledSubtrees := Vector.replicate DEPTH 0
  roots := Vector.replicate ROOT_HISTORY_SIZE 0
  currentRootIndex := 0

variable (hash : Uint256 → Uint256 → Uint256)

/-- `_zeros`: the empty subtree at a level, computed afresh. -/
def zeros (level : ℕ) : Uint256 :=
  if level = 0 then 0
  else Nat.fold level (fun _ _ z => hash z z) 0

/-- The body of the loop of `init`: store the empty subtree of the level
and hash it up. -/
def initStep (i : ℕ) (hi : i < DEPTH) (st : Vector Uint256 DEPTH × Uint256) :
    Vector Uint256 DEPTH × Uint256 :=
  (st.1.set i st.2, hash st.2 st.2)

/-- `init`, on the storage a constructor finds. -/
def init (self : TreeData) : TreeData :=
  let st := Nat.fold DEPTH (initStep hash) (self.filledSubtrees, 0)
  { self with filledSubtrees := st.1, roots := self.roots.set 0 st.2 }

/-- The tree a constructor sets up. -/
def fresh : TreeData := init hash TreeData.unwritten

/-- What the loop of `insert` carries from height to height. -/
structure Climb where
  currentIndex : ℕ
  currentHash : Uint256
  filledSubtrees : Vector Uint256 DEPTH

/-- The body of the loop of `insert` at height `i`. -/
def insertStep (i : ℕ) (hi : i < DEPTH) (st : Climb) : Climb :=
  if st.currentIndex % 2 = 0 then
    let left := st.currentHash
    let right := zeros hash i
    { currentIndex := st.currentIndex / 2
      currentHash := hash left right
      filledSubtrees := st.filledSubtrees.set i st.currentHash }
  else
    let left := st.filledSubtrees[i]
    let right := st.currentHash
    { currentIndex := st.currentIndex / 2
      currentHash := hash left right
      filledSubtrees := st.filledSubtrees }

/-- The loop of `insert`, up to a height. -/
def insertLoop (self : TreeData) (leaf : Uint256) (k : ℕ) (hk : k ≤ DEPTH) :
    Climb :=
  Nat.fold k (fun i hi => insertStep hash i (lt_of_lt_of_le hi hk))
    { currentIndex := self.nextLeafIndex
      currentHash := leaf
      filledSubtrees := self.filledSubtrees }

/-- What `insert` writes after its loop. -/
def inserted (self : TreeData) (st : Climb) : TreeData :=
  let newRootIndex := RingBuffer.next self.currentRootIndex
  { nextLeafIndex := self.nextLeafIndex + 1
    filledSubtrees := st.filledSubtrees
    roots := self.roots.set newRootIndex st.currentHash
    currentRootIndex := newRootIndex }

/-- `insert`: the tree, the index of the leaf and the new root. -/
def insert (self : TreeData) (leaf : Uint256) :
    Except Error (TreeData × ℕ × Uint256) :=
  if self.nextLeafIndex < 2 ^ DEPTH then
    let st := insertLoop hash self leaf DEPTH le_rfl
    .ok (inserted self st, self.nextLeafIndex, st.currentHash)
  else .error .treeFull

/-- `isKnownRoot`: not zero, and found by stepping back through the whole
ring from the current root. -/
def isKnownRoot (self : TreeData) (root : Uint256) : Bool :=
  if root = 0 then false
  else RingBuffer.scan (fun r => r == root) self.roots ROOT_HISTORY_SIZE
    self.currentRootIndex

/-- `getLatestRoot`. -/
def getLatestRoot (self : TreeData) : Uint256 :=
  self.roots.get self.currentRootIndex

/-- A sequence of insertions, which stops at the first that reverts. -/
def insertAll (self : TreeData) : List Uint256 → Except Error TreeData
  | [] => .ok self
  | leaf :: rest =>
    match insert hash self leaf with
    | .error e => .error e
    | .ok (self', _, _) => insertAll self' rest

/-- The storage after one call of `insert`, which a revert leaves as it
was. -/
def storageAfter (self : TreeData) (leaf : Uint256) : TreeData :=
  match insert hash self leaf with
  | .error _ => self
  | .ok (self', _, _) => self'

/-! ## The reference -/

/-- **The reference tree**: the root of the binary tree of depth `DEPTH`
over the leaves in order, padded with the zero leaf. -/
def treeRoot (leaves : List Uint256) : Uint256 :=
  HashTree.root hash 0 DEPTH leaves

/-- The roots a tree has had: that of the empty tree and one per
insertion. -/
def rootHistory (leaves : List Uint256) : List Uint256 :=
  (List.range (leaves.length + 1)).map (fun n => treeRoot hash (leaves.take n))

@[simp] theorem length_rootHistory (leaves : List Uint256) :
    (rootHistory hash leaves).length = leaves.length + 1 :=
  AppendTree.length_rootHistory hash 0 DEPTH leaves

/-- One more leaf adds one more root. -/
theorem rootHistory_append (leaves : List Uint256) (leaf : Uint256) :
    rootHistory hash (leaves ++ [leaf])
      = rootHistory hash leaves ++ [treeRoot hash (leaves ++ [leaf])] :=
  AppendTree.rootHistory_append hash 0 DEPTH leaves leaf

/-- The roots of a longer sequence extend those of a shorter one. -/
theorem getElem_rootHistory (leaves : List Uint256) (n : ℕ)
    (hn : n < (rootHistory hash leaves).length) :
    (rootHistory hash leaves)[n] = treeRoot hash (leaves.take n) := by
  simp [rootHistory]

/-! ## The table of empty subtrees -/

/-- The recomputed table is the iterate of the hash on the zero leaf. -/
theorem zeros_eq (level : ℕ) : zeros hash level = HashTree.emptyNode hash 0 level := by
  have hfold : ∀ n, Nat.fold n (fun _ _ z => hash z z) (0 : Uint256)
      = HashTree.emptyNode hash 0 n := by
    intro n
    induction n with
    | zero => rfl
    | succ n ih => rw [Nat.fold_succ, ih, HashTree.emptyNode]
  unfold zeros
  split
  · rename_i h
    rw [h]
    rfl
  · exact hfold level

/-- The hash `init` ends its loop with. -/
theorem snd_initLoop (filled : Vector Uint256 DEPTH) (k : ℕ) (hk : k ≤ DEPTH) :
    (Nat.fold k (fun i hi => initStep hash i (lt_of_lt_of_le hi hk)) (filled, 0)).2
      = HashTree.emptyNode hash 0 k := by
  induction k with
  | zero => rfl
  | succ k ih =>
    rw [Nat.fold_succ]
    show hash _ _ = _
    rw [ih (Nat.le_of_succ_le hk)]
    rfl

/-! ## The loop of `insert` -/

@[simp] theorem nextLeafIndex_inserted (self : TreeData) (st : Climb) :
    (inserted self st).nextLeafIndex = self.nextLeafIndex + 1 := rfl

@[simp] theorem filledSubtrees_inserted (self : TreeData) (st : Climb) :
    (inserted self st).filledSubtrees = st.filledSubtrees := rfl

/-- The stored words as a function of the height. -/
def kept (filled : Vector Uint256 DEPTH) (k : ℕ) : Uint256 := filled[k]?.getD 0

theorem kept_of_lt (filled : Vector Uint256 DEPTH) {k : ℕ} (hk : k < DEPTH) :
    kept filled k = filled[k] := by
  simp [kept, hk]

theorem kept_set (filled : Vector Uint256 DEPTH) (i : ℕ) (hi : i < DEPTH) (x : Uint256) :
    kept (filled.set i x) = Function.update (kept filled) i x := by
  funext k
  rw [Function.update_apply]
  unfold kept
  rw [Vector.getElem?_set]
  by_cases hk : k = i
  · rw [if_pos hk.symm, if_pos hk]
    rfl
  · rw [if_neg (Ne.symm hk), if_neg hk]

/-- The state of the loop, as that of the climb. -/
def Climb.toClimb (st : Climb) : AppendTree.Climb Uint256 :=
  ⟨st.currentIndex, st.currentHash, kept st.filledSubtrees⟩

theorem toClimb_insertStep {i : ℕ} (hi : i < DEPTH) (st : Climb) :
    (insertStep hash i hi st).toClimb = AppendTree.climbStep hash 0 st.toClimb i := by
  unfold insertStep AppendTree.climbStep Climb.toClimb
  dsimp only
  split
  · dsimp only
    rw [kept_set, zeros_eq]
  · dsimp only
    rw [kept_of_lt _ hi]

/-- **The loop of `insert` is the climb.** -/
theorem toClimb_insertLoop (self : TreeData) (leaf : Uint256) (k : ℕ) (hk : k ≤ DEPTH) :
    (insertLoop hash self leaf k hk).toClimb
      = AppendTree.climbTo hash 0 self.nextLeafIndex leaf (kept self.filledSubtrees) k := by
  induction k with
  | zero => rfl
  | succ k ih =>
    have hloop : insertLoop hash self leaf (k + 1) hk
        = insertStep hash k hk (insertLoop hash self leaf k (Nat.le_of_succ_le hk)) := by
      unfold insertLoop
      rw [Nat.fold_succ]
    rw [hloop, toClimb_insertStep, ih, AppendTree.climbTo_succ]

/-- The ancestor at a height of the leaf about to be inserted, in the tree
that has it. -/
def ancestor (leaves : List Uint256) (leaf : Uint256) (k : ℕ) : Uint256 :=
  HashTree.node hash (HashTree.padded 0 (leaves ++ [leaf])) k (leaves.length / 2 ^ k)

/-- **What the loop has computed up to a height**: the running index is
the ancestor's, the running hash is the ancestor itself in the tree with
the new leaf, and the words stored so far are the ancestors at even
indices. -/
theorem insertLoop_spec {self : TreeData} {leaves : List Uint256}
    (hindex : self.nextLeafIndex = leaves.length)
    (hfront : HashTree.IsFrontier hash (HashTree.padded 0 leaves) DEPTH
      leaves.length (kept self.filledSubtrees))
    (leaf : Uint256) (k : ℕ) (hk : k ≤ DEPTH) :
    let st := insertLoop hash self leaf k hk
    st.currentIndex = leaves.length / 2 ^ k ∧ st.currentHash = ancestor hash leaves leaf k ∧
      ∀ j, kept st.filledSubtrees j
        = if j < k ∧ leaves.length / 2 ^ j % 2 = 0 then ancestor hash leaves leaf j
          else kept self.filledSubtrees j := by
  have hspec := AppendTree.climbTo_spec hash 0 hfront leaf hk
  rw [← hindex, ← toClimb_insertLoop hash self leaf k hk] at hspec
  refine ⟨hspec.currentIndex, hspec.currentHash, fun j => ?_⟩
  split
  · rename_i hj
    exact hspec.even j hj.1 hj.2
  · exact hspec.other j (by omega)

/-! ## The invariant -/

/-- **A tree represents the leaves inserted into it.** -/
structure Represents (tree : TreeData) (leaves : List Uint256) : Prop where
  nextLeafIndex_eq : tree.nextLeafIndex = leaves.length
  frontier : HashTree.IsFrontier hash (HashTree.padded 0 leaves) DEPTH
    leaves.length (kept tree.filledSubtrees)
  window : RingBuffer.Holds 0 tree.roots tree.currentRootIndex
    (rootHistory hash leaves)

/-- The tree a constructor sets up represents no leaf. -/
theorem fresh_represents : Represents hash (fresh hash) [] where
  nextLeafIndex_eq := rfl
  frontier := HashTree.isFrontier_zero hash _ _ _
  window := by
    have hroot : rootHistory hash [] = [HashTree.emptyNode hash 0 DEPTH] := by
      show [treeRoot hash []] = _
      rw [treeRoot, HashTree.root_nil]
    rw [hroot, ← snd_initLoop hash TreeData.unwritten.filledSubtrees DEPTH le_rfl]
    exact RingBuffer.Holds.init 0 _ 0 rfl

/-- **A tree that is not full takes the leaf**, returns its index and the
reference root, and represents one leaf more. -/
theorem insert_represents {self : TreeData} {leaves : List Uint256}
    (h : Represents hash self leaves) (hlen : leaves.length < 2 ^ DEPTH)
    (leaf : Uint256) :
    ∃ self', insert hash self leaf
        = .ok (self', leaves.length, treeRoot hash (leaves ++ [leaf]))
      ∧ Represents hash self' (leaves ++ [leaf]) := by
  obtain ⟨_, hhash, hkept⟩ :=
    insertLoop_spec hash h.nextLeafIndex_eq h.frontier leaf DEPTH le_rfl
  have hroot : (insertLoop hash self leaf DEPTH le_rfl).currentHash
      = treeRoot hash (leaves ++ [leaf]) := by
    rw [hhash, ancestor, Nat.div_eq_of_lt hlen, treeRoot, HashTree.root]
  refine ⟨inserted self (insertLoop hash self leaf DEPTH le_rfl), ?_, ?_, ?_, ?_⟩
  · unfold insert
    rw [if_pos (by rw [h.nextLeafIndex_eq]; exact hlen), h.nextLeafIndex_eq]
    dsimp only
    rw [hroot]
  · rw [nextLeafIndex_inserted, h.nextLeafIndex_eq, List.length_append,
      List.length_singleton]
  · rw [List.length_append, List.length_singleton]
    refine h.frontier.append hash
      (fun j hj => (HashTree.padded_append_of_lt 0 hj).symm) ?_ ?_
    · intro k hk heven
      rw [filledSubtrees_inserted, hkept, if_pos ⟨hk, heven⟩, ancestor]
    · intro k _ hodd
      rw [filledSubtrees_inserted, hkept, if_neg (fun hc => absurd hc.2 (by omega))]
  · rw [rootHistory_append, ← hroot]
    exact h.window.push _

/-- A full tree rejects the leaf. -/
theorem insert_full {self : TreeData} {leaves : List Uint256}
    (h : Represents hash self leaves) (hlen : 2 ^ DEPTH ≤ leaves.length)
    (leaf : Uint256) : insert hash self leaf = .error .treeFull := by
  unfold insert
  rw [if_neg (by rw [h.nextLeafIndex_eq]; omega)]

/-- The latest root is the reference root. -/
theorem Represents.getLatestRoot_eq {self : TreeData} {leaves : List Uint256}
    (h : Represents hash self leaves) :
    getLatestRoot self = treeRoot hash leaves := by
  unfold getLatestRoot
  rw [h.window.recent self.currentRootIndex leaves.length (by simp) (by simp)
    (by rw [h.window.head_eq]; simp), getElem_rootHistory, List.take_length]

/-- A successful insertion inserts into a tree that is not full. -/
theorem insert_eq_ok {self self' : TreeData} {leaves : List Uint256}
    {leaf root : Uint256} {index : ℕ} (h : Represents hash self leaves)
    (hins : insert hash self leaf = .ok (self', index, root)) :
    Represents hash self' (leaves ++ [leaf]) ∧ index = leaves.length
      ∧ root = treeRoot hash (leaves ++ [leaf]) := by
  by_cases hlen : leaves.length < 2 ^ DEPTH
  · obtain ⟨s, hs, hrep⟩ := insert_represents hash h hlen leaf
    rw [hs] at hins
    cases hins
    exact ⟨hrep, rfl, rfl⟩
  · rw [insert_full hash h (by omega)] at hins
    cases hins

/-- **A run of insertions within the capacity goes through** and ends in a
tree that represents its leaves. -/
theorem exists_insertAll {self : TreeData} {leaves : List Uint256}
    (h : Represents hash self leaves) (ls : List Uint256)
    (hlen : leaves.length + ls.length ≤ 2 ^ DEPTH) :
    ∃ self', insertAll hash self ls = .ok self'
      ∧ Represents hash self' (leaves ++ ls) := by
  induction ls generalizing self leaves with
  | nil => exact ⟨self, rfl, by rwa [List.append_nil]⟩
  | cons leaf ls ih =>
    rw [List.length_cons] at hlen
    obtain ⟨s, hs, hrep⟩ := insert_represents hash h (by omega) leaf
    obtain ⟨s', hs', hrep'⟩ := ih hrep
      (by rw [List.length_append, List.length_singleton]; omega)
    refine ⟨s', ?_, by rwa [List.append_assoc, List.singleton_append] at hrep'⟩
    rw [insertAll, hs]
    exact hs'

/-- **The incremental tree is the reference tree.** Any sequence of up to
`2^32` insertions goes through. Each of them returns, and the current
root then is, the root of the reference tree over the leaves inserted so
far; the index returned is the number of earlier insertions; and once
`2^32` leaves are in, the next one is rejected and the storage stays as it
was. -/
theorem insert_eq_reference (leaves : List Uint256)
    (hlen : leaves.length ≤ 2 ^ DEPTH) :
    ∃ self, insertAll hash (fresh hash) leaves = .ok self
      ∧ getLatestRoot self = treeRoot hash leaves
      ∧ ∀ leaf,
        (leaves.length < 2 ^ DEPTH →
          ∃ self', insert hash self leaf
              = .ok (self', leaves.length, treeRoot hash (leaves ++ [leaf]))
            ∧ getLatestRoot self' = treeRoot hash (leaves ++ [leaf]))
        ∧ (leaves.length = 2 ^ DEPTH →
          insert hash self leaf = .error .treeFull
            ∧ storageAfter hash self leaf = self) := by
  obtain ⟨self, hself, hrep⟩ := exists_insertAll hash (fresh_represents hash) leaves
    (by simpa using hlen)
  rw [List.nil_append] at hrep
  refine ⟨self, hself, hrep.getLatestRoot_eq hash, fun leaf => ⟨fun hlt => ?_, fun heq => ?_⟩⟩
  · obtain ⟨self', hins, hrep'⟩ := insert_represents hash hrep hlt leaf
    exact ⟨self', hins, hrep'.getLatestRoot_eq hash⟩
  · have hfull := insert_full hash hrep heq.ge leaf
    exact ⟨hfull, by rw [storageAfter, hfull]⟩

/-- Three leaves under a toy hash. -/
theorem insert_eq_reference_three :
    ∃ self, insertAll (fun a b => 3 * a + b + 1) (fresh (fun a b => 3 * a + b + 1))
        [5, 6, 7] = .ok self
      ∧ getLatestRoot self = treeRoot (fun a b => 3 * a + b + 1) [5, 6, 7] := by
  obtain ⟨self, h, hroot, _⟩ :=
    insert_eq_reference (fun a b => 3 * a + b + 1) [5, 6, 7] (by decide)
  exact ⟨self, h, hroot⟩

/-! ## The window of roots -/

/-- **The window is exact**: a root is known when it is not zero and among
the last hundred roots of the tree, all of them while there are fewer. -/
theorem Represents.isKnownRoot_iff {self : TreeData} {leaves : List Uint256}
    (h : Represents hash self leaves) (r : Uint256) :
    isKnownRoot self r = true ↔ r ≠ 0 ∧
      r ∈ (rootHistory hash leaves).drop (leaves.length + 1 - ROOT_HISTORY_SIZE) := by
  unfold isKnownRoot
  split
  · rename_i h0
    simp [h0]
  · rename_i h0
    rw [RingBuffer.scan_eq_true_iff]
    simp only [beq_iff_eq]
    rw [h.window.mem_iff h0, length_rootHistory]
    exact (and_iff_right h0).symm

/-- The last roots of the history are those after some of the last
insertions. -/
theorem mem_drop_rootHistory {leaves : List Uint256} {k : ℕ} {r : Uint256} :
    r ∈ (rootHistory hash leaves).drop k ↔
      ∃ n, k ≤ n ∧ n ≤ leaves.length ∧ treeRoot hash (leaves.take n) = r := by
  rw [List.mem_drop_iff_getElem]
  constructor
  · rintro ⟨j, hj, heq⟩
    rw [length_rootHistory] at hj
    rw [getElem_rootHistory] at heq
    exact ⟨k + j, Nat.le_add_right _ _, by omega, heq⟩
  · rintro ⟨n, hk, hn, heq⟩
    have hlen : n - k + k < (rootHistory hash leaves).length := by
      rw [length_rootHistory, Nat.sub_add_cancel hk]
      exact Nat.lt_succ_of_le hn
    refine ⟨n - k, hlen, ?_⟩
    rw [getElem_rootHistory, Nat.add_sub_cancel' hk]
    exact heq

/-- **What the window of a tree over these leaves must be**: `iff` says it
exactly; `kept` and `evicted` follow a root through further insertions. -/
structure ExactWindow (tree : TreeData) (leaves : List Uint256) : Prop where
  /-- A root is known when it is not zero and among the last
  `min (n + 1) 100` roots, after `n` insertions. -/
  iff : ∀ r, isKnownRoot tree r = true ↔ r ≠ 0 ∧
    r ∈ (rootHistory hash leaves).drop (leaves.length + 1 - ROOT_HISTORY_SIZE)
  /-- A root stays known for fewer than a hundred further insertions, … -/
  kept : ∀ before after, leaves = before ++ after →
    after.length < ROOT_HISTORY_SIZE → treeRoot hash before ≠ 0 →
      isKnownRoot tree (treeRoot hash before) = true
  /-- … and after a hundred only if it recurred. -/
  evicted : ∀ before after, leaves = before ++ after →
    ROOT_HISTORY_SIZE ≤ after.length →
      isKnownRoot tree (treeRoot hash before) = true →
        ∃ n, before.length < n ∧ n ≤ leaves.length ∧
          treeRoot hash (leaves.take n) = treeRoot hash before

/-- **A tree that represents its leaves has the exact window.** -/
theorem Represents.exactWindow {self : TreeData} {leaves : List Uint256}
    (h : Represents hash self leaves) : ExactWindow hash self leaves := by
  refine ⟨h.isKnownRoot_iff hash, ?_, ?_⟩
  · rintro before after rfl hlen hne
    rw [h.isKnownRoot_iff hash, mem_drop_rootHistory]
    refine ⟨hne, before.length, ?_, ?_, ?_⟩
    · rw [List.length_append]
      omega
    · rw [List.length_append]
      exact Nat.le_add_right _ _
    · rw [List.take_left]
  · rintro before after rfl hlen hknown
    rw [h.isKnownRoot_iff hash, mem_drop_rootHistory] at hknown
    obtain ⟨-, n, hn, hle, heq⟩ := hknown
    refine ⟨n, ?_, hle, heq⟩
    rw [List.length_append] at hn
    omega

end MerkleTree
