import Mathlib.Data.List.GetD
import Mathlib.Data.List.Nodup
import Mathlib.Data.Nat.Log
import Mathlib.Tactic.Linarith
import Mathlib.Tactic.Ring

/-!
# Binary hash trees

A hash tree over a sequence of leaves has at height `k` and index `i` the
node that covers the leaves `i · 2^k, …, (i + 1) · 2^k - 1`. Everything
below is about that one function, `node`: the empty subtrees of a padded
tree, the frontier an append-only tree keeps instead of its nodes, the
path from a node to one above it, and what a path that reaches a node
says about its starting point.

The last needs the hash to be collision-free, which no function on a
finite type is. What an argument uses is that no two of the pairs *hashed
in the tree and on the path* collide, so the assumption is relative to a
list of pairs (`Separates`). It is stated up to a relation `R` on the
leaves, because a hash over a field reads its arguments modulo the field
order and separates them no further.
-/

namespace HashTree

variable {α : Type} (hash : α → α → α)

/-- **The node at height `k` and index `i`** of the tree over `leaf`. -/
def node (leaf : ℕ → α) : ℕ → ℕ → α
  | 0, i => leaf i
  | k + 1, i => hash (node leaf k (2 * i)) (node leaf k (2 * i + 1))

/-- The root of the empty subtree of height `k`. -/
def emptyNode (zero : α) : ℕ → α
  | 0 => zero
  | k + 1 => hash (emptyNode zero k) (emptyNode zero k)

/-- The leaves of a list, padded with `zero`. -/
def padded (zero : α) (ls : List α) (i : ℕ) : α := ls.getD i zero

/-- **The root of the tree of a given depth** over a padded list. -/
def root (zero : α) (depth : ℕ) (ls : List α) : α :=
  node hash (padded zero ls) depth 0

/-- **The root by recursion on the list**: the tree over the first half of
the leaves on the left, the tree over the others on the right. -/
def splitRoot (zero : α) : ℕ → List α → α
  | 0, ls => ls.headD zero
  | k + 1, ls => hash (splitRoot zero k (ls.take (2 ^ k))) (splitRoot zero k (ls.drop (2 ^ k)))

@[simp] theorem node_zero (leaf : ℕ → α) (i : ℕ) :
    node hash leaf 0 i = leaf i := rfl

theorem node_succ (leaf : ℕ → α) (k i : ℕ) :
    node hash leaf (k + 1) i
      = hash (node hash leaf k (2 * i)) (node hash leaf k (2 * i + 1)) := rfl

theorem padded_of_length_le (zero : α) {ls : List α} {i : ℕ}
    (h : ls.length ≤ i) : padded zero ls i = zero := by
  unfold padded
  rw [List.getD_eq_getElem?_getD, List.getElem?_eq_none h, Option.getD_none]

theorem padded_of_lt (zero : α) {ls : List α} {i : ℕ} (h : i < ls.length) :
    padded zero ls i = ls[i] := by
  unfold padded
  exact List.getD_eq_getElem _ _ h

/-- Appending a leaf leaves the earlier ones where they were. -/
theorem padded_append_of_lt (zero : α) {ls ms : List α} {i : ℕ}
    (h : i < ls.length) : padded zero (ls ++ ms) i = padded zero ls i := by
  unfold padded
  exact List.getD_append _ _ _ _ h

/-- **A node depends on the leaves it covers.** -/
theorem node_congr {f g : ℕ → α} (k i : ℕ)
    (h : ∀ j, i * 2 ^ k ≤ j → j < (i + 1) * 2 ^ k → f j = g j) :
    node hash f k i = node hash g k i := by
  induction k generalizing i with
  | zero => exact h i (by simp) (by simp)
  | succ k ih =>
    rw [node_succ, node_succ]
    have hp : 2 ^ (k + 1) = 2 * 2 ^ k := pow_succ' 2 k
    rw [ih (2 * i) (fun j h₁ h₂ => h j (by nlinarith) (by nlinarith)),
      ih (2 * i + 1) (fun j h₁ h₂ => h j (by nlinarith) (by nlinarith))]

/-- **A node over padding only is the empty subtree.** -/
theorem node_eq_emptyNode {leaf : ℕ → α} {zero : α} (k i : ℕ)
    (h : ∀ j, i * 2 ^ k ≤ j → leaf j = zero) :
    node hash leaf k i = emptyNode hash zero k := by
  induction k generalizing i with
  | zero => exact h i (by simp)
  | succ k ih =>
    have hp : 2 ^ (k + 1) = 2 * 2 ^ k := pow_succ' 2 k
    have hk : 0 < 2 ^ k := Nat.two_pow_pos k
    rw [node_succ, emptyNode,
      ih (2 * i) (fun j hj => h j (by rw [hp]; linarith)),
      ih (2 * i + 1) (fun j hj => h j (by rw [hp]; linarith))]

/-- The tree over the leaves from a multiple of its width on is the tree
over all of them, that many nodes further on. -/
theorem node_shift (leaf : ℕ → α) (k c i : ℕ) :
    node hash (fun j => leaf (c * 2 ^ k + j)) k i = node hash leaf k (c + i) := by
  induction k generalizing c i with
  | zero =>
    show leaf (c * 2 ^ 0 + i) = leaf (c + i)
    rw [pow_zero, Nat.mul_one]
  | succ k ih =>
    have hshift : (fun j => leaf (c * 2 ^ (k + 1) + j))
        = fun j => leaf (2 * c * 2 ^ k + j) := by
      funext j
      rw [pow_succ', ← Nat.mul_assoc, Nat.mul_comm c 2]
    rw [node_succ, node_succ, hshift, ih, ih, Nat.mul_add, Nat.add_assoc]

/-- **Both ways to read the tree have one root.** The left subtree does not
read past the first half, and the right one reads from there on. -/
theorem splitRoot_eq_root (zero : α) (k : ℕ) (ls : List α) :
    splitRoot hash zero k ls = root hash zero k ls := by
  induction k generalizing ls with
  | zero =>
    show ls.headD zero = ls.getD 0 zero
    cases ls <;> rfl
  | succ k ih =>
    have hleft : root hash zero k (ls.take (2 ^ k)) = node hash (padded zero ls) k 0 := by
      refine node_congr hash k 0 (fun j _ hj => ?_)
      rw [Nat.zero_add, Nat.one_mul] at hj
      unfold padded
      rw [List.getD_eq_getElem?_getD, List.getD_eq_getElem?_getD,
        List.getElem?_take_of_lt hj]
    have hright : root hash zero k (ls.drop (2 ^ k)) = node hash (padded zero ls) k 1 := by
      have hpad : padded zero (ls.drop (2 ^ k)) = fun j => padded zero ls (1 * 2 ^ k + j) := by
        funext j
        unfold padded
        rw [List.getD_eq_getElem?_getD, List.getD_eq_getElem?_getD, List.getElem?_drop,
          Nat.one_mul]
      unfold root
      rw [hpad, node_shift]
    rw [splitRoot, ih, ih, hleft, hright]
    rfl

/-- The root over no leaf at all is the empty subtree of that depth. -/
theorem root_nil (zero : α) (depth : ℕ) :
    root hash zero depth [] = emptyNode hash zero depth :=
  node_eq_emptyNode hash depth 0 (fun _ _ => padded_of_length_le zero (Nat.zero_le _))

/-- A leaf that is the padding changes no root. -/
theorem root_append_zero (zero : α) (depth : ℕ) (ls : List α) :
    root hash zero depth (ls ++ [zero]) = root hash zero depth ls := by
  have hpad : padded zero (ls ++ [zero]) = padded zero ls := by
    funext j
    rcases Nat.lt_trichotomy j ls.length with hlt | rfl | hgt
    · exact padded_append_of_lt zero hlt
    · unfold padded
      rw [List.getD_append_right _ _ _ _ le_rfl, Nat.sub_self]
      exact (padded_of_length_le zero le_rfl).symm
    · have hpast : (ls ++ [zero]).length ≤ j := by
        rw [List.length_append]
        exact hgt
      rw [padded_of_length_le zero hgt.le, padded_of_length_le zero hpast]
  unfold root
  rw [hpad]

/-- … and so for any number of them. -/
theorem root_append_replicate (zero : α) (depth m : ℕ) (ls : List α) :
    root hash zero depth (ls ++ List.replicate m zero) = root hash zero depth ls := by
  induction m with
  | zero => rw [List.replicate_zero, List.append_nil]
  | succ m ih => rw [List.replicate_succ', ← List.append_assoc, root_append_zero, ih]

/-! ## The frontier of an append-only tree

After `n` leaves the next one has index `n`, and its ancestor at height
`k` has index `n / 2^k`. If that index is odd, the ancestor's left
sibling is complete, and the tree has to have kept it. If it is even, the
right sibling is empty, and whatever the tree kept at that height is of
no use any more. So what a tree keeps is right exactly at the heights
where the index is odd – the entries at the other heights are stale. -/

/-- **`kept` is the frontier of the tree over the first `n` leaves**: at
each height below `depth` where the next leaf's ancestor has an odd
index, it holds the ancestor's left sibling. -/
def IsFrontier (leaf : ℕ → α) (depth n : ℕ) (kept : ℕ → α) : Prop :=
  ∀ k < depth, n / 2 ^ k % 2 = 1 → kept k = node hash leaf k (n / 2 ^ k - 1)

/-- No leaf yet: every index is even and nothing is asked. -/
theorem isFrontier_zero (leaf : ℕ → α) (depth : ℕ) (kept : ℕ → α) :
    IsFrontier hash leaf depth 0 kept := by
  intro k _ hodd
  simp at hodd

/-- **An even ancestor of the last leaf has an empty right sibling.** -/
theorem node_succ_of_even {leaf : ℕ → α} {zero : α} {n k : ℕ}
    (hpad : ∀ j, n < j → leaf j = zero) (heven : n / 2 ^ k % 2 = 0) :
    node hash leaf (k + 1) (n / 2 ^ (k + 1))
      = hash (node hash leaf k (n / 2 ^ k)) (emptyNode hash zero k) := by
  have hidx : 2 * (n / 2 ^ (k + 1)) = n / 2 ^ k := by
    rw [pow_succ, ← Nat.div_div_eq_div_mul]
    omega
  have hlt : n < (n / 2 ^ k + 1) * 2 ^ k := by
    have := Nat.lt_div_mul_add (a := n) (Nat.two_pow_pos k)
    linarith
  rw [node_succ, hidx]
  congr 1
  exact node_eq_emptyNode hash k _ (fun j hj => hpad j (lt_of_lt_of_le hlt hj))

/-- An odd ancestor of the last leaf is the right child of its parent. -/
theorem node_succ_of_odd (leaf : ℕ → α) {n k : ℕ}
    (hodd : n / 2 ^ k % 2 = 1) :
    node hash leaf (k + 1) (n / 2 ^ (k + 1))
      = hash (node hash leaf k (n / 2 ^ k - 1)) (node hash leaf k (n / 2 ^ k)) := by
  have hidx : n / 2 ^ (k + 1) = n / 2 ^ k / 2 := by
    rw [pow_succ, ← Nat.div_div_eq_div_mul]
  have h₁ : 2 * (n / 2 ^ k / 2) = n / 2 ^ k - 1 := by omega
  have h₂ : 2 * (n / 2 ^ k / 2) + 1 = n / 2 ^ k := by omega
  rw [node_succ, hidx, h₂, h₁]

/-- A left sibling covers earlier leaves only, so appending moves none of
them. -/
theorem node_left_sibling_congr {f g : ℕ → α} {n k : ℕ}
    (hagree : ∀ j, j < n → f j = g j) (hodd : n / 2 ^ k % 2 = 1) :
    node hash f k (n / 2 ^ k - 1) = node hash g k (n / 2 ^ k - 1) := by
  have hpos : n / 2 ^ k - 1 + 1 = n / 2 ^ k :=
    Nat.sub_add_cancel (Nat.pos_of_ne_zero (fun h => by simp [h] at hodd))
  refine node_congr hash k _ (fun j _ hj => hagree j ?_)
  rw [hpos] at hj
  exact lt_of_lt_of_le hj (Nat.div_mul_le_self n (2 ^ k))

/-- Passing to the next leaf either leaves the index at height `k` where
it was or moves it by one. -/
theorem succ_div_two_pow (n k : ℕ) :
    (n + 1) / 2 ^ k = n / 2 ^ k ∨ (n + 1) / 2 ^ k = n / 2 ^ k + 1 := by
  rw [Nat.succ_div]
  split
  · exact Or.inr rfl
  · exact Or.inl rfl

/-- **The frontier after one more leaf**: at the heights where the new
leaf's ancestor has an even index the ancestor is kept, and the others
are left alone. -/
theorem IsFrontier.append {f g : ℕ → α} {depth n : ℕ} {kept kept' : ℕ → α}
    (h : IsFrontier hash f depth n kept)
    (hagree : ∀ j, j < n → f j = g j)
    (heven : ∀ k < depth, n / 2 ^ k % 2 = 0 →
      kept' k = node hash g k (n / 2 ^ k))
    (hodd : ∀ k < depth, n / 2 ^ k % 2 = 1 → kept' k = kept k) :
    IsFrontier hash g depth (n + 1) kept' := by
  intro k hk hnext
  rcases succ_div_two_pow n k with hsame | hmove
  · -- the index did not move, so it was odd and the entry is the old one
    rw [hsame] at hnext ⊢
    rw [hodd k hk hnext, h k hk hnext]
    exact node_left_sibling_congr hash hagree hnext
  · -- the index moved to an odd one, so the subtree just completed is kept
    rw [hmove] at hnext ⊢
    rw [heven k hk (by omega), Nat.add_sub_cancel]

/-! ## Paths

A path is a list of siblings, lowest first, each with the side the
running node is on: `true` when it is the right child. -/

/-- One step up: the running node with its sibling. -/
def combine (onRight : Bool) (sibling x : α) : α :=
  if onRight then hash sibling x else hash x sibling

/-- **Climbing a path** from a node. -/
def climb : List (Bool × α) → α → α
  | [], x => x
  | (b, s) :: rest, x => climb rest (combine hash b s x)

/-- The index, `path.length` heights below index `i`, that the sides of a
path lead down to. -/
def descend : List Bool → ℕ → ℕ
  | [], i => i
  | b :: bs, i => 2 * descend bs i + b.toNat

/-- **The path of the tree itself** from index `i` at height `k` up `d`
heights. -/
def path (leaf : ℕ → α) : ℕ → ℕ → ℕ → List (Bool × α)
  | _, 0, _ => []
  | k, d + 1, i =>
    (i % 2 == 1, node hash leaf k (if i % 2 = 1 then i - 1 else i + 1))
      :: path leaf (k + 1) d (i / 2)

theorem climb_append (p q : List (Bool × α)) (x : α) :
    climb hash (p ++ q) x = climb hash q (climb hash p x) := by
  induction p generalizing x with
  | nil => rfl
  | cons step p ih => exact ih _

@[simp] theorem length_path (leaf : ℕ → α) (k d i : ℕ) :
    (path hash leaf k d i).length = d := by
  induction d generalizing k i with
  | zero => rfl
  | succ d ih => rw [path, List.length_cons, ih]

/-- One step up from a node, with its sibling in the tree, is its
parent. -/
theorem combine_sibling (leaf : ℕ → α) (k i : ℕ) :
    combine hash (i % 2 == 1)
        (node hash leaf k (if i % 2 = 1 then i - 1 else i + 1)) (node hash leaf k i)
      = node hash leaf (k + 1) (i / 2) := by
  rw [node_succ]
  unfold combine
  by_cases hodd : i % 2 = 1
  · rw [if_pos (by simpa using hodd), if_pos hodd,
      show 2 * (i / 2) = i - 1 from by omega, show i - 1 + 1 = i from by omega]
  · rw [if_neg (by simpa using hodd), if_neg hodd,
      show 2 * (i / 2) = i from by omega]

/-- A map that carries one hash to another carries climbs to climbs. -/
theorem climb_map {β : Type} {hash' : β → β → β} {f : α → β}
    (hf : ∀ a b, f (hash a b) = hash' (f a) (f b)) (p : List (Bool × α)) (x : α) :
    f (climb hash p x) = climb hash' (p.map (Prod.map id f)) (f x) := by
  induction p generalizing x with
  | nil => rfl
  | cons q rest ih =>
    rw [climb, ih, List.map_cons, Prod.map, climb, combine, combine, apply_ite f, hf, hf]
    rfl

/-- **The tree's own path climbs to the node above.** -/
theorem climb_path (leaf : ℕ → α) (k d i : ℕ) :
    climb hash (path hash leaf k d i) (node hash leaf k i)
      = node hash leaf (k + d) (i / 2 ^ d) := by
  induction d generalizing k i with
  | zero => simp [path, climb]
  | succ d ih =>
    rw [path, climb, combine_sibling, ih, Nat.div_div_eq_div_mul, ← pow_succ',
      show k + 1 + d = k + (d + 1) from by omega]

/-- The sides of a path of length `d` lead from the root to an index below
`2 ^ d`. -/
theorem descend_lt (bs : List Bool) (i : ℕ) :
    descend bs i < (i + 1) * 2 ^ bs.length := by
  induction bs with
  | nil => simp [descend]
  | cons b bs ih =>
    have hb : b.toNat ≤ 1 := Bool.toNat_le b
    rw [descend, List.length_cons, pow_succ]
    nlinarith

/-- Going down and back up ends where it started. -/
theorem descend_div (bs : List Bool) (i : ℕ) :
    descend bs i / 2 ^ bs.length = i := by
  induction bs with
  | nil => simp [descend]
  | cons b bs ih =>
    have hb : b.toNat ≤ 1 := Bool.toNat_le b
    rw [descend, List.length_cons, pow_succ', ← Nat.div_div_eq_div_mul,
      show (2 * descend bs i + b.toNat) / 2 = descend bs i from by omega, ih]

/-- The tree's own path down given sides has those sides. -/
theorem map_fst_path (leaf : ℕ → α) (bs : List Bool) (k i : ℕ) :
    (path hash leaf k bs.length (descend bs i)).map Prod.fst = bs := by
  induction bs generalizing k with
  | nil => rfl
  | cons b bs ih =>
    have hb : (2 * descend bs i + b.toNat) / 2 = descend bs i := by
      have := Bool.toNat_le b
      omega
    rw [List.length_cons, descend, path, List.map_cons, hb, ih]
    cases b <;> simp

/-! ## What a path that reaches a node says -/

/-- The pairs hashed while climbing a path. -/
def pathPairs : List (Bool × α) → α → List (α × α)
  | [], _ => []
  | (b, s) :: rest, x =>
    (if b then (s, x) else (x, s)) :: pathPairs rest (combine hash b s x)

/-- The pairs hashed in the subtree under a node. -/
def nodePairs (leaf : ℕ → α) : ℕ → ℕ → List (α × α)
  | 0, _ => []
  | k + 1, i => (node hash leaf k (2 * i), node hash leaf k (2 * i + 1))
      :: (nodePairs leaf k (2 * i) ++ nodePairs leaf k (2 * i + 1))

/-- A pair hashed under a node is that of the children of a node further down. -/
theorem exists_of_mem_nodePairs (leaf : ℕ → α) (k i : ℕ) :
    ∀ p ∈ nodePairs hash leaf k i,
      ∃ j m, j < k ∧ p = (node hash leaf j (2 * m), node hash leaf j (2 * m + 1)) := by
  induction k generalizing i with
  | zero => exact nofun
  | succ k ih =>
    intro p hp
    rw [nodePairs, List.mem_cons, List.mem_append] at hp
    rcases hp with rfl | hp | hp
    · exact ⟨k, i, Nat.lt_succ_self k, rfl⟩
    · obtain ⟨j, m, hj, hpair⟩ := ih _ p hp
      exact ⟨j, m, Nat.lt_succ_of_lt hj, hpair⟩
    · obtain ⟨j, m, hj, hpair⟩ := ih _ p hp
      exact ⟨j, m, Nat.lt_succ_of_lt hj, hpair⟩

/-- **The hash separates the pairs of `Q` up to `R`**: two of them with
the same hash agree in both components. -/
def Separates (R : α → α → Prop) (Q : List (α × α)) : Prop :=
  ∀ p ∈ Q, ∀ q ∈ Q, hash p.1 p.2 = hash q.1 q.2 → R p.1 q.1 ∧ R p.2 q.2

theorem Separates.mono {R : α → α → Prop} {Q Q' : List (α × α)}
    (h : Separates hash R Q) (hsub : ∀ p ∈ Q', p ∈ Q) : Separates hash R Q' :=
  fun p hp q hq => h p (hsub p hp) q (hsub q hq)

/-- A hash with different values on different pairs separates them. -/
theorem Separates.of_nodup {R : α → α → Prop} (hrefl : ∀ a, R a a) {Q : List (α × α)}
    (h : (Q.map (fun p => hash p.1 p.2)).Nodup) : Separates hash R Q := by
  intro p hp q hq heq
  obtain rfl := List.inj_on_of_nodup_map h hp hq heq
  exact ⟨hrefl _, hrefl _⟩

theorem pathPairs_append (p q : List (Bool × α)) (x : α) :
    pathPairs hash (p ++ q) x
      = pathPairs hash p x ++ pathPairs hash q (climb hash p x) := by
  induction p generalizing x with
  | nil => rfl
  | cons step p ih =>
    rw [List.cons_append, pathPairs, pathPairs, ih, List.cons_append]
    rfl

/-- Where the hash cannot tell related arguments apart, it separates the
pairs related to those it separates. -/
theorem Separates.of_related {R : α → α → Prop} (hR : Equivalence R)
    (hcongr : ∀ {a a' b b'}, R a a' → R b b' → hash a b = hash a' b')
    {Q Q' : List (α × α)} (h : Separates hash R Q)
    (hrel : ∀ p ∈ Q', ∃ q ∈ Q, R p.1 q.1 ∧ R p.2 q.2) : Separates hash R Q' := by
  intro p hp p' hp' heq
  obtain ⟨q, hq, hq₁, hq₂⟩ := hrel p hp
  obtain ⟨q', hq', hq'₁, hq'₂⟩ := hrel p' hp'
  rw [hcongr hq₁ hq₂, hcongr hq'₁ hq'₂] at heq
  obtain ⟨h₁, h₂⟩ := h q hq q' hq' heq
  exact ⟨hR.trans hq₁ (hR.trans h₁ (hR.symm hq'₁)),
    hR.trans hq₂ (hR.trans h₂ (hR.symm hq'₂))⟩

/-- Climbing the same path from related points hashes related pairs. -/
theorem pathPairs_related {R : α → α → Prop} (hR : Equivalence R)
    (hcongr : ∀ {a a' b b'}, R a a' → R b b' → hash a b = hash a' b')
    (p : List (Bool × α)) {x x' : α} (hx : R x x') :
    ∀ q ∈ pathPairs hash p x, ∃ q' ∈ pathPairs hash p x', R q.1 q'.1 ∧ R q.2 q'.2 := by
  cases p with
  | nil => exact nofun
  | cons step p =>
    obtain ⟨b, s⟩ := step
    have hnext : combine hash b s x = combine hash b s x' := by
      cases b with
      | false => exact hcongr hx (hR.refl s)
      | true => exact hcongr (hR.refl s) hx
    intro q hq
    rw [pathPairs, List.mem_cons] at hq
    rcases hq with rfl | hq
    · refine ⟨_, List.mem_cons_self .., ?_⟩
      cases b with
      | false => exact ⟨hx, hR.refl s⟩
      | true => exact ⟨hR.refl s, hx⟩
    · exact ⟨q, List.mem_cons_of_mem _ (hnext ▸ hq), hR.refl _, hR.refl _⟩

/-- Climbing the same path, if it is not empty, from related points leads
to the same node. -/
theorem climb_related {R : α → α → Prop} (hR : Equivalence R)
    (hcongr : ∀ {a a' b b'}, R a a' → R b b' → hash a b = hash a' b')
    {p : List (Bool × α)} (hp : p ≠ []) {x x' : α} (hx : R x x') :
    climb hash p x = climb hash p x' := by
  cases p with
  | nil => exact absurd rfl hp
  | cons step p =>
    obtain ⟨b, s⟩ := step
    rw [climb, climb]
    congr 1
    cases b with
    | false => exact hcongr hx (hR.refl s)
    | true => exact hcongr (hR.refl s) hx

/-- Every pair of a lower subtree is a pair of the one above. -/
theorem nodePairs_child (leaf : ℕ → α) (k i : ℕ) (p : α × α)
    (hp : p ∈ nodePairs hash leaf k i) :
    p ∈ nodePairs hash leaf (k + 1) (i / 2) := by
  rw [nodePairs, List.mem_cons, List.mem_append]
  rcases Nat.mod_two_eq_zero_or_one i with h | h
  · rw [show 2 * (i / 2) = i from by omega]
    exact Or.inr (Or.inl hp)
  · rw [show 2 * (i / 2) + 1 = i from by omega]
    exact Or.inr (Or.inr hp)

/-- … and so for any height above. -/
theorem nodePairs_above (leaf : ℕ → α) (k d i : ℕ) (p : α × α)
    (hp : p ∈ nodePairs hash leaf k i) :
    p ∈ nodePairs hash leaf (k + d) (i / 2 ^ d) := by
  induction d with
  | zero => simpa using hp
  | succ d ih =>
    have h := nodePairs_child hash leaf _ _ p ih
    rwa [Nat.div_div_eq_div_mul, ← pow_succ] at h

/-- The pair a node is hashed from is among the pairs of every subtree
that contains the node. -/
theorem children_mem_nodePairs (leaf : ℕ → α) (k d i : ℕ) :
    (node hash leaf k (2 * i), node hash leaf k (2 * i + 1))
      ∈ nodePairs hash leaf (k + 1 + d) (i / 2 ^ d) :=
  nodePairs_above hash leaf (k + 1) d i _ (by simp [nodePairs])

/-- **The tree's own path hashes pairs of the tree.** -/
theorem pathPairs_path_subset (leaf : ℕ → α) (k d i : ℕ) (p : α × α)
    (hp : p ∈ pathPairs hash (path hash leaf k d i) (node hash leaf k i)) :
    p ∈ nodePairs hash leaf (k + d) (i / 2 ^ d) := by
  induction d generalizing k i with
  | zero => simp [path, pathPairs] at hp
  | succ d ih =>
    rw [path, pathPairs, combine_sibling, List.mem_cons] at hp
    rw [show k + (d + 1) = k + 1 + d from by omega, pow_succ',
      ← Nat.div_div_eq_div_mul]
    rcases hp with rfl | hp
    · have h := children_mem_nodePairs hash leaf k d (i / 2)
      rcases Nat.mod_two_eq_zero_or_one i with hm | hm
      · rw [show 2 * (i / 2) = i from by omega] at h
        simpa [hm] using h
      · rw [show 2 * (i / 2) = i - 1 from by omega,
          show i - 1 + 1 = i from by omega] at h
        simpa [hm] using h
    · exact ih (k + 1) (i / 2) hp

/-- **A path that reaches a node of the tree started at the tree's node
below it.** Whoever chooses the siblings, if the hash separates the pairs
of the tree and of the path, and two related hash values are equal, then
the starting point is – up to `R` – the node at the index the sides of
the path lead down to. -/
theorem climb_sound {R : α → α → Prop} (hrefl : ∀ a, R a a)
    (hcanon : ∀ a b c d, R (hash a b) (hash c d) → hash a b = hash c d)
    (leaf : ℕ → α) (p : List (Bool × α)) (k i : ℕ) (x : α)
    (hsep : Separates hash R
      (nodePairs hash leaf (k + p.length) i ++ pathPairs hash p x))
    (hreach : climb hash p x = node hash leaf (k + p.length) i) :
    R x (node hash leaf k (descend (p.map Prod.fst) i)) := by
  induction p generalizing k x with
  | nil =>
    rw [climb] at hreach
    rw [hreach]
    exact hrefl _
  | cons step p ih =>
    obtain ⟨b, s⟩ := step
    rw [List.length_cons, show k + (p.length + 1) = k + 1 + p.length from by omega]
      at hsep hreach
    -- the node one step up is a hash value, so related means equal there
    have hup := ih (k + 1) (combine hash b s x)
      (hsep.mono hash (fun q hq => by
        rw [List.mem_append] at hq ⊢
        rcases hq with hq | hq
        · exact Or.inl hq
        · exact Or.inr (List.mem_cons_of_mem _ hq))) hreach
    rw [List.map_cons, descend]
    set j := descend (p.map Prod.fst) i with hj
    have htree : (node hash leaf k (2 * j), node hash leaf k (2 * j + 1))
        ∈ nodePairs hash leaf (k + 1 + p.length) i := by
      have h := children_mem_nodePairs hash leaf k p.length j
      have hdiv := descend_div (p.map Prod.fst) i
      rw [List.length_map] at hdiv
      rwa [hj, hdiv] at h
    rw [node_succ] at hup
    cases b with
    | true =>
      have heq := hcanon _ _ _ _ hup
      exact (hsep _ (List.mem_append_right _ (List.mem_cons_self ..)) _
        (List.mem_append_left _ htree) heq).2
    | false =>
      have heq := hcanon _ _ _ _ hup
      exact (hsep _ (List.mem_append_right _ (List.mem_cons_self ..)) _
        (List.mem_append_left _ htree) heq).1

/-! ## Trees with the same node -/

/-- The tree over the nodes of height one is the tree, one height up. -/
theorem node_pairs (leaf : ℕ → α) (k i : ℕ) :
    node hash (node hash leaf 1) k i = node hash leaf (k + 1) i := by
  induction k generalizing i with
  | zero => rfl
  | succ k ih => rw [node_succ, node_succ hash leaf (k + 1), ih, ih]

/-- … and hashes pairs of it. -/
theorem nodePairs_pairs_subset (leaf : ℕ → α) (k i : ℕ) :
    ∀ p ∈ nodePairs hash (node hash leaf 1) k i, p ∈ nodePairs hash leaf (k + 1) i := by
  induction k generalizing i with
  | zero => exact nofun
  | succ k ih =>
    intro p hp
    rw [nodePairs, node_pairs, node_pairs, List.mem_cons, List.mem_append] at hp
    rw [nodePairs, List.mem_cons, List.mem_append]
    exact hp.imp_right (Or.imp (ih _ p) (ih _ p))

/-- **A hash that separates the pairs of two trees tells their leaves apart**:
below nodes that are related the leaves are. -/
theorem leaf_related_of_node_related {R : α → α → Prop}
    (hcanon : ∀ a b c d, R (hash a b) (hash c d) → hash a b = hash c d) {f g : ℕ → α}
    (k i : ℕ) (hsep : Separates hash R (nodePairs hash f k i ++ nodePairs hash g k i))
    (h : R (node hash f k i) (node hash g k i)) {j : ℕ} (hj : i * 2 ^ k ≤ j)
    (hj' : j < (i + 1) * 2 ^ k) : R (f j) (g j) := by
  induction k generalizing i with
  | zero =>
    obtain rfl : j = i := by
      rw [pow_zero, Nat.mul_one] at hj hj'
      omega
    exact h
  | succ k ih =>
    rw [pow_succ' 2 k] at hj hj'
    obtain ⟨hl, hr⟩ := hsep _ (List.mem_append_left _ (List.mem_cons_self ..)) _
      (List.mem_append_right _ (List.mem_cons_self ..)) (hcanon _ _ _ _ h)
    have hsub : ∀ c, (c = 2 * i ∨ c = 2 * i + 1) →
        Separates hash R (nodePairs hash f k c ++ nodePairs hash g k c) := by
      rintro c (rfl | rfl)
      · refine hsep.mono hash (fun p hp => ?_)
        simp only [nodePairs, List.mem_append, List.mem_cons] at hp ⊢
        tauto
      · refine hsep.mono hash (fun p hp => ?_)
        simp only [nodePairs, List.mem_append, List.mem_cons] at hp ⊢
        tauto
    by_cases hside : j < (2 * i + 1) * 2 ^ k
    · exact ih (2 * i) (hsub _ (Or.inl rfl)) hl (by linarith) hside
    · exact ih (2 * i + 1) (hsub _ (Or.inr rfl)) hr (not_lt.mp hside) (by linarith)

/-- … and below nodes that are equal they are equal. -/
theorem leaf_eq_of_node_eq {f g : ℕ → α} (k i : ℕ)
    (hsep : Separates hash Eq (nodePairs hash f k i ++ nodePairs hash g k i))
    (h : node hash f k i = node hash g k i) {j : ℕ} (hj : i * 2 ^ k ≤ j)
    (hj' : j < (i + 1) * 2 ^ k) : f j = g j :=
  leaf_related_of_node_related hash (fun _ _ _ _ heq => heq) k i hsep h hj hj'

/-- **Trees over related leaves have the same nodes** above them, under a hash that
cannot tell related arguments apart. -/
theorem node_eq_of_related {R : α → α → Prop}
    (hcongr : ∀ {a a' b b'}, R a a' → R b b' → hash a b = hash a' b') {f g : ℕ → α}
    (h : ∀ j, R (f j) (g j)) (k i : ℕ) :
    node hash f (k + 1) i = node hash g (k + 1) i := by
  induction k generalizing i with
  | zero => exact hcongr (h _) (h _)
  | succ k ih => rw [node_succ, node_succ hash g, ih, ih]

end HashTree
