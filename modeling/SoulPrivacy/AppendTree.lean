import SoulPrivacy.HashTree
import Mathlib.Data.List.Induction

/-!
# Trees that leaves are appended to

An append-only tree of any depth keeps one node per height (`kept`) and the
number of its leaves. Appending a leaf climbs from it to the root: at an even
index the running hash is kept and paired with the empty subtree, at an odd
one it is paired with what is kept (`climbStep`).

What the climb computes are the ancestors of the new leaf
(`climbTo_spec`). So as long as the frontier is kept (`Appending`) the climb
ends at the root of the tree with the new leaf, and keeps the frontier of it
(`Appending.append`).

The roots a tree has had form its history (`rootHistory`). What a program that
keeps such a tree does, whatever its state looks like, is `Program.Keeps`, and
`Program.keeps_of_relation` is the induction to it.
-/

namespace AppendTree

open HashTree

variable {α : Type} (hash : α → α → α) (zero : α)

/-- What the climb carries from height to height. -/
structure Climb (α : Type) where
  currentIndex : ℕ
  currentHash : α
  kept : ℕ → α

/-- One height up. -/
def climbStep (st : Climb α) (level : ℕ) : Climb α :=
  if st.currentIndex % 2 = 0 then
    { currentIndex := st.currentIndex / 2
      currentHash := hash st.currentHash (emptyNode hash zero level)
      kept := Function.update st.kept level st.currentHash }
  else
    { currentIndex := st.currentIndex / 2
      currentHash := hash (st.kept level) st.currentHash
      kept := st.kept }

/-- The climb from a leaf at an index up to a height. -/
def climbTo (index : ℕ) (leaf : α) (kept : ℕ → α) (height : ℕ) : Climb α :=
  (List.range height).foldl (climbStep hash zero) ⟨index, leaf, kept⟩

theorem climbTo_succ (index : ℕ) (leaf : α) (kept : ℕ → α) (height : ℕ) :
    climbTo hash zero index leaf kept (height + 1)
      = climbStep hash zero (climbTo hash zero index leaf kept height) height := by
  unfold climbTo
  rw [List.range_succ, List.foldl_append]
  rfl

/-! ## The ancestors of the new leaf -/

/-- The ancestor at a height of the leaf about to be appended, in the tree
that has it. -/
def ancestor (leaves : List α) (leaf : α) (height : ℕ) : α :=
  node hash (padded zero (leaves ++ [leaf])) height (leaves.length / 2 ^ height)

@[simp] theorem ancestor_zero (leaves : List α) (leaf : α) :
    ancestor hash zero leaves leaf 0 = leaf := by
  unfold ancestor
  rw [pow_zero, Nat.div_one, node_zero, padded_of_lt zero (by simp)]
  exact List.getElem_concat_length rfl _

/-- The ancestor at the top is the root. -/
theorem ancestor_of_lt {leaves : List α} (leaf : α) {depth : ℕ}
    (hlen : leaves.length < 2 ^ depth) :
    ancestor hash zero leaves leaf depth = root hash zero depth (leaves ++ [leaf]) := by
  unfold ancestor root
  rw [Nat.div_eq_of_lt hlen]

/-- An even ancestor is paired with the empty subtree. -/
theorem ancestor_succ_of_even {leaves : List α} (leaf : α) {k : ℕ}
    (heven : leaves.length / 2 ^ k % 2 = 0) :
    hash (ancestor hash zero leaves leaf k) (emptyNode hash zero k)
      = ancestor hash zero leaves leaf (k + 1) := by
  have hpad : ∀ j, leaves.length < j → padded zero (leaves ++ [leaf]) j = zero := by
    intro j hj
    refine padded_of_length_le zero ?_
    rw [List.length_append, List.length_singleton]
    exact hj
  unfold ancestor
  rw [node_succ_of_even hash hpad heven]

/-- An odd ancestor is paired with its left sibling, which is kept. -/
theorem ancestor_succ_of_odd {leaves : List α} {depth : ℕ} {kept : ℕ → α}
    (hfront : IsFrontier hash (padded zero leaves) depth leaves.length kept)
    (leaf : α) {k : ℕ} (hk : k < depth) (hodd : leaves.length / 2 ^ k % 2 = 1) :
    hash (kept k) (ancestor hash zero leaves leaf k)
      = ancestor hash zero leaves leaf (k + 1) := by
  have hagree : ∀ j, j < leaves.length →
      padded zero leaves j = padded zero (leaves ++ [leaf]) j :=
    fun j hj => (padded_append_of_lt zero hj).symm
  unfold ancestor
  rw [hfront k hk hodd, node_left_sibling_congr hash hagree hodd, node_succ_of_odd hash _ hodd]

/-- **What the climb has computed up to a height**: the running hash is the
ancestor of the new leaf, and what is kept so far are the ancestors at even
indices. -/
structure AtHeight (leaves : List α) (leaf : α) (kept : ℕ → α) (height : ℕ)
    (st : Climb α) : Prop where
  currentIndex : st.currentIndex = leaves.length / 2 ^ height
  currentHash : st.currentHash = ancestor hash zero leaves leaf height
  even : ∀ k < height, leaves.length / 2 ^ k % 2 = 0 →
    st.kept k = ancestor hash zero leaves leaf k
  other : ∀ k, height ≤ k ∨ leaves.length / 2 ^ k % 2 = 1 → st.kept k = kept k

theorem climbTo_spec {leaves : List α} {depth : ℕ} {kept : ℕ → α}
    (hfront : IsFrontier hash (padded zero leaves) depth leaves.length kept)
    (leaf : α) {height : ℕ} (hle : height ≤ depth) :
    AtHeight hash zero leaves leaf kept height
      (climbTo hash zero leaves.length leaf kept height) := by
  induction height with
  | zero =>
    exact ⟨by rw [pow_zero, Nat.div_one]; rfl, (ancestor_zero hash zero leaves leaf).symm,
      fun k hk => absurd hk (Nat.not_lt_zero k), fun _ _ => rfl⟩
  | succ height ih =>
    have h := ih (Nat.le_of_succ_le hle)
    have hhalf : leaves.length / 2 ^ height / 2 = leaves.length / 2 ^ (height + 1) := by
      rw [Nat.div_div_eq_div_mul, ← pow_succ]
    rw [climbTo_succ]
    unfold climbStep
    rw [h.currentIndex]
    split
    · -- an even ancestor: kept, and paired with the empty subtree
      rename_i heven
      refine ⟨hhalf, ?_, fun k hk hk2 => ?_, fun k hk => ?_⟩
      · exact h.currentHash ▸ ancestor_succ_of_even hash zero leaf heven
      · dsimp only
        rcases Nat.lt_succ_iff_lt_or_eq.mp hk with hlt | rfl
        · rw [Function.update_of_ne hlt.ne]
          exact h.even k hlt hk2
        · rw [Function.update_self]
          exact h.currentHash
      · have hne : k ≠ height := by
          rintro rfl
          omega
        dsimp only
        rw [Function.update_of_ne hne]
        exact h.other k (by omega)
    · -- an odd ancestor: paired with its left sibling, which is kept
      rename_i hodd
      have hodd' : leaves.length / 2 ^ height % 2 = 1 := by omega
      refine ⟨hhalf, ?_, fun k hk hk2 => ?_, fun k hk => ?_⟩
      · dsimp only
        rw [h.other height (Or.inl le_rfl), h.currentHash]
        exact ancestor_succ_of_odd hash zero hfront leaf hle hodd'
      · have hlt : k < height := by
          refine lt_of_le_of_ne (Nat.le_of_lt_succ hk) ?_
          rintro rfl
          omega
        exact h.even k hlt hk2
      · exact h.other k (by omega)

/-! ## Appending -/

/-- **What a tree keeps over the leaves appended to it.** -/
structure Appending (depth : ℕ) (leaves : List α) (nextIndex : ℕ) (kept : ℕ → α) : Prop where
  nextIndex : nextIndex = leaves.length
  frontier : IsFrontier hash (padded zero leaves) depth leaves.length kept

theorem Appending.nil (depth : ℕ) (kept : ℕ → α) :
    Appending hash zero depth [] 0 kept :=
  ⟨rfl, isFrontier_zero hash _ _ _⟩

variable {hash zero}

/-- **The climb ends at the root of the tree with the new leaf.** -/
theorem Appending.root {depth : ℕ} {leaves : List α} {nextIndex : ℕ} {kept : ℕ → α}
    (h : Appending hash zero depth leaves nextIndex kept) (hlen : leaves.length < 2 ^ depth)
    (leaf : α) :
    (climbTo hash zero nextIndex leaf kept depth).currentHash
      = HashTree.root hash zero depth (leaves ++ [leaf]) := by
  rw [h.nextIndex, (climbTo_spec hash zero h.frontier leaf le_rfl).currentHash,
    ancestor_of_lt hash zero leaf hlen]

/-- **… and keeps its frontier.** -/
theorem Appending.append {depth : ℕ} {leaves : List α} {nextIndex : ℕ} {kept : ℕ → α}
    (h : Appending hash zero depth leaves nextIndex kept) (leaf : α) :
    Appending hash zero depth (leaves ++ [leaf]) (nextIndex + 1)
      (climbTo hash zero nextIndex leaf kept depth).kept where
  nextIndex := by rw [h.nextIndex, List.length_append, List.length_singleton]
  frontier := by
    have hspec := climbTo_spec hash zero h.frontier leaf le_rfl
    rw [h.nextIndex, List.length_append, List.length_singleton]
    exact h.frontier.append hash (fun j hj => (padded_append_of_lt zero hj).symm)
      (fun k hk heven => hspec.even k hk heven) (fun k _ hodd => hspec.other k (Or.inr hodd))

/-! ## The roots so far -/

variable (hash zero)

/-- **The roots a tree has had**: that of the empty tree and one per
leaf. -/
def rootHistory (depth : ℕ) (leaves : List α) : List α :=
  (List.range (leaves.length + 1)).map (fun n => HashTree.root hash zero depth (leaves.take n))

@[simp] theorem length_rootHistory (depth : ℕ) (leaves : List α) :
    (rootHistory hash zero depth leaves).length = leaves.length + 1 := by
  rw [rootHistory, List.length_map, List.length_range]

theorem rootHistory_nil (depth : ℕ) :
    rootHistory hash zero depth [] = [emptyNode hash zero depth] := by
  show [HashTree.root hash zero depth []] = _
  rw [root_nil]

theorem rootHistory_append (depth : ℕ) (leaves : List α) (leaf : α) :
    rootHistory hash zero depth (leaves ++ [leaf])
      = rootHistory hash zero depth leaves
        ++ [HashTree.root hash zero depth (leaves ++ [leaf])] := by
  have hfull : (leaves ++ [leaf]).take (leaves.length + 1) = leaves ++ [leaf] :=
    List.take_of_length_le (by rw [List.length_append, List.length_singleton])
  unfold rootHistory
  rw [List.length_append, List.length_singleton, List.range_succ, List.map_append,
    List.map_singleton, hfull]
  refine congrArg (· ++ _) (List.map_congr_left (fun n hn => ?_))
  rw [List.take_append_of_le_length (Nat.le_of_lt_succ (List.mem_range.mp hn))]

/-- The last root is that of all the leaves. -/
theorem exists_rootHistory_eq (depth : ℕ) (leaves : List α) :
    ∃ earlier, rootHistory hash zero depth leaves
      = earlier ++ [HashTree.root hash zero depth leaves] := by
  unfold rootHistory
  rw [List.range_succ, List.map_append, List.map_singleton, List.take_length]
  exact ⟨_, rfl⟩

/-- The pairs hashed in all the trees of the history. -/
def historyPairs (depth : ℕ) (leaves : List α) : List (α × α) :=
  (List.range (leaves.length + 1)).flatMap
    (fun n => nodePairs hash (padded zero (leaves.take n)) depth 0)

/-- **A leaf that is like the padding leaves the root as it was.** -/
theorem root_append_of_related {R : α → α → Prop} (hR : Equivalence R)
    (hcongr : ∀ {a a' b b'}, R a a' → R b b' → hash a b = hash a' b') (depth : ℕ)
    (before : List α) {leaf : α} (hrelated : R leaf zero) :
    HashTree.root hash zero (depth + 1) before
      = HashTree.root hash zero (depth + 1) (before ++ [leaf]) := by
  refine node_eq_of_related hash hcongr (fun j => ?_) depth 0
  rcases Nat.lt_trichotomy j before.length with hlt | rfl | hgt
  · rw [padded_append_of_lt zero hlt]
    exact hR.refl _
  · have hat : padded zero (before ++ [leaf]) before.length = leaf := by
      unfold padded
      rw [List.getD_append_right _ _ _ _ le_rfl, Nat.sub_self]
      rfl
    rw [padded_of_length_le zero le_rfl, hat]
    exact hR.symm hrelated
  · have hpast : (before ++ [leaf]).length ≤ j := by
      rw [List.length_append]
      exact hgt
    rw [padded_of_length_le zero hgt.le, padded_of_length_le zero hpast]
    exact hR.refl _

/-- **The leaf that only the later of two trees has is like the padding**, if the two have
one root. -/
theorem leaf_related_of_root_eq {R : α → α → Prop} (hR : Equivalence R)
    (hcanon : ∀ a b c d, R (hash a b) (hash c d) → hash a b = hash c d)
    {depth : ℕ} {leaves : List α} (hlen : leaves.length ≤ 2 ^ (depth + 1))
    (hsep : Separates hash R (historyPairs hash zero (depth + 1) leaves)) {m n : ℕ}
    (hmn : m < n) (hn : n ≤ leaves.length)
    (hroot : HashTree.root hash zero (depth + 1) (leaves.take n)
      = HashTree.root hash zero (depth + 1) (leaves.take m)) :
    ∃ leaf ∈ leaves, R leaf zero := by
  have hm : m < leaves.length := hmn.trans_le hn
  have hpairs : Separates hash R
      (nodePairs hash (padded zero (leaves.take n)) (depth + 1) 0
        ++ nodePairs hash (padded zero (leaves.take m)) (depth + 1) 0) := by
    refine hsep.mono hash (fun p hp => ?_)
    rw [historyPairs, List.mem_flatMap]
    rcases List.mem_append.mp hp with hp | hp
    · exact ⟨n, List.mem_range.mpr (Nat.lt_succ_of_le hn), hp⟩
    · exact ⟨m, List.mem_range.mpr (Nat.lt_succ_of_lt hm), hp⟩
  have hnodes : R (HashTree.root hash zero (depth + 1) (leaves.take n))
      (HashTree.root hash zero (depth + 1) (leaves.take m)) := by
    rw [hroot]
    exact hR.refl _
  have hrelated := leaf_related_of_node_related hash hcanon (depth + 1) 0 hpairs hnodes
    (j := m) (by rw [Nat.zero_mul]; exact Nat.zero_le m)
    (by rw [Nat.zero_add, Nat.one_mul]; exact hm.trans_le hlen)
  have hlast : m < (leaves.take n).length := by
    rw [List.length_take]
    exact lt_min hmn hm
  have hnone : (leaves.take m).length ≤ m := by
    rw [List.length_take]
    exact min_le_left m _
  rw [padded_of_lt zero hlast, padded_of_length_le zero hnone, List.getElem_take] at hrelated
  exact ⟨_, List.getElem_mem hm, hrelated⟩

/-- **No root recurs as long as no leaf is like the padding**, and none but such
leaves make one recur. The hash may read its arguments up to a relation. -/
theorem nodup_rootHistory_iff {R : α → α → Prop} (hR : Equivalence R)
    (hcongr : ∀ {a a' b b'}, R a a' → R b b' → hash a b = hash a' b')
    (hcanon : ∀ a b c d, R (hash a b) (hash c d) → hash a b = hash c d)
    {depth : ℕ} {leaves : List α} (hlen : leaves.length ≤ 2 ^ (depth + 1))
    (hsep : Separates hash R (historyPairs hash zero (depth + 1) leaves)) :
    (rootHistory hash zero (depth + 1) leaves).Nodup ↔ ∀ leaf ∈ leaves, ¬ R leaf zero := by
  unfold rootHistory
  rw [List.nodup_map_iff_inj_on List.nodup_range]
  simp only [List.mem_range, Nat.lt_succ_iff]
  constructor
  · intro hinj leaf hleaf hrelated
    obtain ⟨before, after, rfl⟩ := List.append_of_mem hleaf
    have hlength : before.length + 1 ≤ (before ++ leaf :: after).length := by
      rw [List.length_append, List.length_cons]
      exact Nat.add_le_add_left (Nat.le_add_left 1 _) _
    have htake : (before ++ leaf :: after).take (before.length + 1) = before ++ [leaf] := by
      rw [List.take_append, List.take_of_length_le (Nat.le_succ _), Nat.add_sub_cancel_left]
      rfl
    have heq := hinj before.length (Nat.le_of_succ_le hlength) (before.length + 1) hlength (by
      rw [htake, List.take_left]
      exact root_append_of_related hash zero hR hcongr depth before hrelated)
    exact absurd heq (Nat.lt_succ_self _).ne
  · intro hleaves
    have hlater : ∀ m n, m < n → n ≤ leaves.length →
        HashTree.root hash zero (depth + 1) (leaves.take n)
          ≠ HashTree.root hash zero (depth + 1) (leaves.take m) := by
      intro m n hmn hn hroot
      obtain ⟨leaf, hleaf, hrelated⟩ :=
        leaf_related_of_root_eq hash zero hR hcanon hlen hsep hmn hn hroot
      exact hleaves leaf hleaf hrelated
    intro m hm n hn hroot
    rcases Nat.lt_trichotomy m n with hlt | heq | hgt
    · exact absurd hroot.symm (hlater m n hlt hn)
    · exact heq
    · exact absurd hroot (hlater n m hgt hm)

/-! ## Changing the representation -/

variable {hash zero} {β : Type} {hash' : β → β → β}

/-- A map that carries one hash to another carries trees to trees. -/
theorem map_node {f : α → β} (hf : ∀ a b, f (hash a b) = hash' (f a) (f b)) (leaf : ℕ → α)
    (k i : ℕ) : f (node hash leaf k i) = node hash' (fun j => f (leaf j)) k i := by
  induction k generalizing i with
  | zero => rfl
  | succ k ih => rw [node_succ, node_succ, hf, ih, ih]

theorem map_root {f : α → β} (hf : ∀ a b, f (hash a b) = hash' (f a) (f b)) (zero : α)
    (depth : ℕ) (leaves : List α) :
    f (HashTree.root hash zero depth leaves)
      = HashTree.root hash' (f zero) depth (leaves.map f) := by
  have hpad : (fun j => f (padded zero leaves j)) = padded (f zero) (leaves.map f) := by
    funext j
    unfold padded
    rw [List.getD_map]
  unfold HashTree.root
  rw [map_node hf, hpad]

/-! ## Programs that keep such a tree -/

/-- **What a program offers**: to insert a leaf, its latest root, and whether
it knows a root. An insertion that fails leaves the state as it was
(`Program.after`). -/
structure Program (α ε σ : Type) where
  insertLeaf : α → σ → Except ε (ℕ × σ)
  latestRoot : σ → Option α
  isKnownRoot : σ → α → Except ε Bool
  treeFull : ε

namespace Program

variable {ε σ : Type} (P : Program α ε σ)

/-- The state after an insertion that may fail. -/
def after (leaf : α) (s : σ) : σ :=
  match P.insertLeaf leaf s with
  | .ok (_, s') => s'
  | .error _ => s

/-- Insertions, one after the other. -/
def insertAll (leaves : List α) (s : σ) : Except ε σ :=
  leaves.foldlM (fun s leaf => (P.insertLeaf leaf s).map Prod.snd) s

variable (hash : α → α → α) (zero : α)

/-- **A state shows the tree over some leaves**, and of its roots the last
`size`. -/
structure Shows [DecidableEq α] (depth size : ℕ) (leaves : List α) (s : σ) : Prop where
  latestRoot : P.latestRoot s = some (HashTree.root hash zero depth leaves)
  full : leaves.length = 2 ^ depth →
    ∀ leaf, P.insertLeaf leaf s = .error P.treeFull ∧ P.after leaf s = s
  known : ∀ r, r ≠ zero → P.isKnownRoot s r
    = .ok (decide (r ∈ (rootHistory hash zero depth leaves).drop (leaves.length + 1 - size)))

/-- **A program keeps the tree** from a state on: as many leaves as there is
room for are inserted, and the state then shows the tree over them. -/
def Keeps [DecidableEq α] (depth size : ℕ) (wellFormed : α → Prop) (s₀ : σ) : Prop :=
  ∀ leaves : List α, leaves.length ≤ 2 ^ depth → (∀ leaf ∈ leaves, wellFormed leaf) →
    ∃ s, P.insertAll leaves s₀ = .ok s ∧ P.Shows hash zero depth size leaves s

variable {P hash zero}

theorem after_of_error {leaf : α} {s : σ} {e : ε} (h : P.insertLeaf leaf s = .error e) :
    P.after leaf s = s := by
  unfold after
  rw [h]

/-- **A relation that each insertion extends by its leaf** shows that the
tree is kept. -/
theorem keeps_of_relation [DecidableEq α] {depth size : ℕ} {wellFormed : α → Prop} {s₀ : σ}
    (Rel : List α → σ → Prop) (init : Rel [] s₀)
    (next : ∀ {leaves s leaf}, Rel leaves s → leaves.length < 2 ^ depth → wellFormed leaf →
      ∃ i s', P.insertLeaf leaf s = .ok (i, s') ∧ Rel (leaves ++ [leaf]) s')
    (shows : ∀ {leaves s}, Rel leaves s → P.Shows hash zero depth size leaves s) :
    P.Keeps hash zero depth size wellFormed s₀ := by
  intro leaves hlen hleaves
  suffices h : ∃ s, P.insertAll leaves s₀ = .ok s ∧ Rel leaves s by
    obtain ⟨s, hs, hrel⟩ := h
    exact ⟨s, hs, shows hrel⟩
  induction leaves using List.reverseRecOn with
  | nil => exact ⟨s₀, rfl, init⟩
  | append_singleton leaves leaf ih =>
    rw [List.length_append, List.length_singleton] at hlen
    obtain ⟨s, hs, hrel⟩ := ih (Nat.le_of_succ_le hlen)
      (fun x hx => hleaves x (List.mem_append_left _ hx))
    obtain ⟨i, s', hs', hrel'⟩ := next hrel hlen (hleaves leaf (by simp))
    refine ⟨s', ?_, hrel'⟩
    unfold insertAll at hs ⊢
    rw [List.foldlM_append, hs]
    show (P.insertLeaf leaf s).map Prod.snd >>= pure = _
    rw [hs']
    rfl

end Program

end AppendTree
