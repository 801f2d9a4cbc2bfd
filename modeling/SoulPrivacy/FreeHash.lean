import Mathlib.Algebra.Free
import Mathlib.Data.Fintype.EquivFin
import Mathlib.SetTheory.Cardinal.Finite
import SoulPrivacy.HashTree

/-!
# Hashes that do as little as possible

What a hash computes from leaves is a term: a leaf, or the product of two
terms. Different terms may evaluate to the same value, but need not: on any
finite type that is large enough there is a hash that keeps the subterms of
a given term apart and sends every other pair to one value that is none of
theirs (`exists_freeOn`).

For such a hash a path leads from one subterm to another exactly when it is
as long as the one is deep in the other (`FreeOn.exists_climb_iff`). So it
shows what cannot be proved of all hashes.
-/

namespace FreeHash

variable {α : Type}

/-- **The value of a term.** -/
def eval (hash : α → α → α) : FreeMagma α → α
  | .of a => a
  | x * y => hash (eval hash x) (eval hash y)

/-- **A term occurs in another one at a depth.** -/
inductive AtDepth (u : FreeMagma α) : ℕ → FreeMagma α → Prop
  | refl : AtDepth u 0 u
  | left {n : ℕ} {x y : FreeMagma α} : AtDepth u n x → AtDepth u (n + 1) (x * y)
  | right {n : ℕ} {x y : FreeMagma α} : AtDepth u n y → AtDepth u (n + 1) (x * y)

/-- A subterm. -/
def Subterm (u t : FreeMagma α) : Prop := ∃ n, AtDepth u n t

theorem Subterm.refl (t : FreeMagma α) : Subterm t t := ⟨0, .refl⟩

/-- The factors of a product are one deeper. -/
theorem AtDepth.factor {x y t : FreeMagma α} {n : ℕ} (h : AtDepth (x * y) n t) :
    AtDepth x (n + 1) t ∧ AtDepth y (n + 1) t := by
  induction h with
  | refl => exact ⟨.left .refl, .right .refl⟩
  | left _ ih => exact ⟨.left ih.1, .left ih.2⟩
  | right _ ih => exact ⟨.right ih.1, .right ih.2⟩

theorem Subterm.factor {x y t : FreeMagma α} (h : Subterm (x * y) t) :
    Subterm x t ∧ Subterm y t := by
  obtain ⟨n, hn⟩ := h
  exact ⟨⟨n + 1, hn.factor.1⟩, ⟨n + 1, hn.factor.2⟩⟩

/-- **A path of the length of the depth leads up**, whatever the hash. -/
theorem exists_climb_of_atDepth (hash : α → α → α) {u t : FreeMagma α} {n : ℕ}
    (h : AtDepth u n t) :
    ∃ p : List (Bool × α), p.length = n
      ∧ HashTree.climb hash p (eval hash u) = eval hash t := by
  induction h with
  | refl => exact ⟨[], rfl, rfl⟩
  | @left n x y _ ih =>
    obtain ⟨p, hlen, hclimb⟩ := ih
    refine ⟨p ++ [(false, eval hash y)], by rw [List.length_append, hlen]; rfl, ?_⟩
    rw [HashTree.climb_append, hclimb]
    rfl
  | @right n x y _ ih =>
    obtain ⟨p, hlen, hclimb⟩ := ih
    refine ⟨p ++ [(true, eval hash x)], by rw [List.length_append, hlen]; rfl, ?_⟩
    rw [HashTree.climb_append, hclimb]
    rfl

/-! ## Free on a term -/

/-- **A hash that is free on a term**: it keeps the subterms apart, and
everything but the products among them is `garbage`. -/
structure FreeOn (hash : α → α → α) (t : FreeMagma α) (garbage : α) : Prop where
  inj : ∀ {u v}, Subterm u t → Subterm v t → eval hash u = eval hash v → u = v
  other : ∀ a b, hash a b = garbage
    ∨ ∃ x y, Subterm (x * y) t ∧ a = eval hash x ∧ b = eval hash y
  garbage_ne : ∀ {u}, Subterm u t → eval hash u ≠ garbage

variable {hash : α → α → α} {t : FreeMagma α} {garbage : α}

/-- Nothing is made from garbage but garbage. -/
theorem FreeOn.climb_garbage (h : FreeOn hash t garbage) (p : List (Bool × α)) :
    HashTree.climb hash p garbage = garbage := by
  induction p with
  | nil => rfl
  | cons step p ih =>
    obtain ⟨onRight, s⟩ := step
    rw [HashTree.climb]
    have hnext : HashTree.combine hash onRight s garbage = garbage := by
      cases onRight with
      | false =>
        refine (h.other garbage s).resolve_right ?_
        rintro ⟨x, y, hxy, hx, -⟩
        exact h.garbage_ne hxy.factor.1 hx.symm
      | true =>
        refine (h.other s garbage).resolve_right ?_
        rintro ⟨x, y, hxy, -, hy⟩
        exact h.garbage_ne hxy.factor.2 hy.symm
    rw [hnext, ih]

/-- One step up from a subterm. -/
theorem FreeOn.combine_eval (h : FreeOn hash t garbage) {u : FreeMagma α}
    (hu : Subterm u t) (onRight : Bool) (s : α) :
    HashTree.combine hash onRight s (eval hash u) = garbage
      ∨ ∃ v, Subterm v t ∧ AtDepth u 1 v
        ∧ HashTree.combine hash onRight s (eval hash u) = eval hash v := by
  cases onRight with
  | false =>
    rcases h.other (eval hash u) s with hg | ⟨x, y, hxy, hx, rfl⟩
    · exact Or.inl hg
    · obtain rfl := h.inj hu hxy.factor.1 hx
      exact Or.inr ⟨u * y, hxy, .left .refl, rfl⟩
  | true =>
    rcases h.other s (eval hash u) with hg | ⟨x, y, hxy, rfl, hy⟩
    · exact Or.inl hg
    · obtain rfl := h.inj hu hxy.factor.2 hy
      exact Or.inr ⟨x * u, hxy, .right .refl, rfl⟩

/-- Depths add up. -/
theorem AtDepth.trans {u v t : FreeMagma α} {m n : ℕ} (huv : AtDepth u m v)
    (hvt : AtDepth v n t) : AtDepth u (m + n) t := by
  induction hvt with
  | refl => exact huv
  | left _ ih => exact .left ih
  | right _ ih => exact .right ih

/-- **A path from a subterm ends in garbage or in a term it is as deep in
as the path is long.** -/
theorem FreeOn.climb_eval (h : FreeOn hash t garbage) (p : List (Bool × α))
    {u : FreeMagma α} (hu : Subterm u t) :
    HashTree.climb hash p (eval hash u) = garbage
      ∨ ∃ v, Subterm v t ∧ AtDepth u p.length v
        ∧ HashTree.climb hash p (eval hash u) = eval hash v := by
  induction p generalizing u with
  | nil => exact Or.inr ⟨u, hu, .refl, rfl⟩
  | cons step p ih =>
    obtain ⟨onRight, s⟩ := step
    rw [HashTree.climb, List.length_cons, Nat.add_comm]
    rcases h.combine_eval hu onRight s with hg | ⟨v, hv, huv, hval⟩
    · rw [hg]
      exact Or.inl (h.climb_garbage p)
    · rw [hval]
      rcases ih hv with hg | ⟨w, hw, hvw, hclimb⟩
      · exact Or.inl hg
      · exact Or.inr ⟨w, hw, huv.trans hvw, hclimb⟩

/-- **From one subterm to another, the paths are as long as the one is deep
in the other.** -/
theorem FreeOn.exists_climb_iff (h : FreeOn hash t garbage) {u v : FreeMagma α}
    (hu : Subterm u t) (hv : Subterm v t) (n : ℕ) :
    (∃ p : List (Bool × α), p.length = n
        ∧ HashTree.climb hash p (eval hash u) = eval hash v)
      ↔ AtDepth u n v := by
  refine ⟨?_, exists_climb_of_atDepth hash⟩
  rintro ⟨p, rfl, hclimb⟩
  rcases h.climb_eval p hu with hg | ⟨w, hw, huw, hval⟩
  · exact absurd (hclimb.symm.trans hg) (h.garbage_ne hv)
  · rwa [h.inj hw hv (hval.symm.trans hclimb)] at huw

/-! ## Existence

The leaves evaluate to themselves. Each product among the subterms is given
a name that is no leaf, and one name is left for the garbage. -/

/-- The leaves of a term. -/
def leaves : FreeMagma α → List α
  | .of a => [a]
  | x * y => leaves x ++ leaves y

/-- The products among its subterms. -/
def products : FreeMagma α → List (FreeMagma α)
  | .of _ => []
  | x * y => (x * y) :: (products x ++ products y)

theorem length_leaves (t : FreeMagma α) : (leaves t).length = t.length := by
  induction t with
  | ih1 a => rfl
  | ih2 x y hx hy =>
    show (leaves x ++ leaves y).length = x.length + y.length
    rw [List.length_append, hx, hy]

theorem length_products (t : FreeMagma α) : (products t).length + 1 = t.length := by
  induction t with
  | ih1 a => rfl
  | ih2 x y hx hy =>
    show (products x ++ products y).length + 1 + 1 = x.length + y.length
    rw [List.length_append, ← hx, ← hy]
    omega

/-- A subterm is a leaf or one of the products. -/
theorem AtDepth.mem {u t : FreeMagma α} {n : ℕ} (h : AtDepth u n t) :
    (∃ a ∈ leaves t, u = .of a) ∨ u ∈ products t := by
  induction h with
  | refl =>
    cases u with
    | of a => exact Or.inl ⟨a, List.mem_singleton_self a, rfl⟩
    | mul x y => exact Or.inr (List.mem_cons_self ..)
  | left _ ih =>
    rcases ih with ⟨a, ha, hu⟩ | hu
    · exact Or.inl ⟨a, List.mem_append_left _ ha, hu⟩
    · exact Or.inr (List.mem_cons_of_mem _ (List.mem_append_left _ hu))
  | right _ ih =>
    rcases ih with ⟨a, ha, hu⟩ | hu
    · exact Or.inl ⟨a, List.mem_append_right _ ha, hu⟩
    · exact Or.inr (List.mem_cons_of_mem _ (List.mem_append_right _ hu))

/-- **Names for the subterms**: a leaf is its own name, and the others have
names of their own. -/
structure Naming (t : FreeMagma α) (name : FreeMagma α → α) (garbage : α) : Prop where
  leaf : ∀ a, name (.of a) = a
  inj : ∀ {u v}, Subterm u t → Subterm v t → name u = name v → u = v
  garbage_ne : ∀ {u}, Subterm u t → name u ≠ garbage

/-- A leaf is no product. -/
theorem of_notMem_products (a : α) (t : FreeMagma α) : FreeMagma.of a ∉ products t := by
  induction t with
  | ih1 b => exact List.not_mem_nil
  | ih2 x y hx hy =>
    intro h
    rcases List.mem_cons.mp h with h | h
    · cases h
    · exact (List.mem_append.mp h).elim hx hy

/-- Words enough for the products and the garbage, none of them a leaf. -/
theorem exists_fresh [Finite α] (t : FreeMagma α) (h : 2 * t.length ≤ Nat.card α) :
    ∃ f : Option {u // u ∈ products t} → α, Function.Injective f
      ∧ ∀ q, f q ∉ leaves t := by
  classical
  have := Fintype.ofFinite α
  let Q : Finset (FreeMagma α) := (products t).toFinset
  let U : Finset α := Finset.univ \ (leaves t).toFinset
  have hQ : Q.card + 1 ≤ t.length := by
    rw [← length_products t]
    exact Nat.succ_le_succ (List.toFinset_card_le (products t))
  have hU : t.length ≤ U.card := by
    have hle : (leaves t).toFinset.card ≤ t.length :=
      (List.toFinset_card_le (leaves t)).trans (length_leaves t).le
    have hcard : Nat.card α - (leaves t).toFinset.card ≤ U.card := by
      rw [Nat.card_eq_fintype_card]
      exact Finset.le_card_sdiff (leaves t).toFinset Finset.univ
    omega
  have hembed : Fintype.card (Option Q) ≤ Fintype.card U := by
    rw [Fintype.card_option, Fintype.card_coe, Fintype.card_coe]
    exact hQ.trans hU
  obtain ⟨f⟩ := Function.Embedding.nonempty_of_card_le hembed
  let toQ : {u // u ∈ products t} → Q := fun u => ⟨u.1, List.mem_toFinset.mpr u.2⟩
  have htoQ : Function.Injective toQ := by
    intro u v huv
    have hval : (toQ u).1 = (toQ v).1 := congrArg Subtype.val huv
    exact Subtype.ext hval
  refine ⟨fun q => f (q.map toQ), ?_, fun q hq => ?_⟩
  · exact Subtype.val_injective.comp (f.injective.comp (Option.map_injective htoQ))
  · exact (Finset.mem_sdiff.mp (f (q.map toQ)).2).2 (List.mem_toFinset.mpr hq)

/-- There are enough names. -/
theorem exists_naming [Finite α] (t : FreeMagma α) (h : 2 * t.length ≤ Nat.card α) :
    ∃ name garbage, Naming t name garbage := by
  classical
  obtain ⟨f, hinj, hfresh⟩ := exists_fresh t h
  let name : FreeMagma α → α := fun u =>
    if hu : u ∈ products t then f (some ⟨u, hu⟩) else (leaves u).headD (f none)
  have hleaf : ∀ a, name (.of a) = a := fun a => dif_neg (of_notMem_products a t)
  have hprod : ∀ u (hu : u ∈ products t), name u = f (some ⟨u, hu⟩) :=
    fun u hu => dif_pos hu
  refine ⟨name, f none, hleaf, ?_, ?_⟩
  · rintro u v ⟨m, hu⟩ ⟨n, hv⟩ huv
    rcases hu.mem with ⟨a, ha, rfl⟩ | hu <;> rcases hv.mem with ⟨b, hb, rfl⟩ | hv
    · rw [hleaf, hleaf] at huv
      rw [huv]
    · rw [hleaf, hprod v hv] at huv
      exact absurd (huv ▸ ha) (hfresh _)
    · rw [hleaf, hprod u hu] at huv
      exact absurd (huv ▸ hb) (hfresh _)
    · rw [hprod u hu, hprod v hv] at huv
      exact congrArg Subtype.val (Option.some_injective _ (hinj huv))
  · rintro u ⟨m, hu⟩ heq
    rcases hu.mem with ⟨a, ha, rfl⟩ | hu
    · rw [hleaf] at heq
      exact hfresh none (heq ▸ ha)
    · rw [hprod u hu] at heq
      exact absurd (hinj heq) nofun

/-- The hash of a naming: the factors of a product are hashed to its
name. -/
noncomputable def hashOf (t : FreeMagma α) (name : FreeMagma α → α) (garbage : α)
    (a b : α) : α :=
  open Classical in
  if h : ∃ p : FreeMagma α × FreeMagma α,
      Subterm (p.1 * p.2) t ∧ name p.1 = a ∧ name p.2 = b
  then name (h.choose.1 * h.choose.2) else garbage

variable {name : FreeMagma α → α}

theorem Naming.hashOf_name (h : Naming t name garbage) {x y : FreeMagma α}
    (hxy : Subterm (x * y) t) :
    hashOf t name garbage (name x) (name y) = name (x * y) := by
  have hex : ∃ p : FreeMagma α × FreeMagma α,
      Subterm (p.1 * p.2) t ∧ name p.1 = name x ∧ name p.2 = name y :=
    ⟨(x, y), hxy, rfl, rfl⟩
  obtain ⟨hsub, hx, hy⟩ := hex.choose_spec
  have hx' := h.inj hsub.factor.1 hxy.factor.1 hx
  have hy' := h.inj hsub.factor.2 hxy.factor.2 hy
  exact (dif_pos hex).trans (by rw [hx', hy'])

/-- **Each subterm evaluates to its name.** -/
theorem Naming.eval_eq (h : Naming t name garbage) {u : FreeMagma α}
    (hu : Subterm u t) : eval (hashOf t name garbage) u = name u := by
  induction u with
  | ih1 a => exact (h.leaf a).symm
  | ih2 x y hx hy =>
    show hashOf t name garbage (eval _ x) (eval _ y) = _
    rw [hx hu.factor.1, hy hu.factor.2, h.hashOf_name hu]

/-- **There is a hash that is free on a given term**, on any type with
twice as many values as the term has leaves. -/
theorem exists_freeOn [Finite α] (t : FreeMagma α) (h : 2 * t.length ≤ Nat.card α) :
    ∃ hash garbage, FreeOn hash t garbage := by
  obtain ⟨name, garbage, hname⟩ := exists_naming t h
  refine ⟨hashOf t name garbage, garbage, ?_, fun a b => ?_, ?_⟩
  · intro u v hu hv huv
    rw [hname.eval_eq hu, hname.eval_eq hv] at huv
    exact hname.inj hu hv huv
  · by_cases hex : ∃ p : FreeMagma α × FreeMagma α,
        Subterm (p.1 * p.2) t ∧ name p.1 = a ∧ name p.2 = b
    · obtain ⟨⟨x, y⟩, hxy, rfl, rfl⟩ := hex
      refine Or.inr ⟨x, y, hxy, ?_, ?_⟩
      · rw [hname.eval_eq hxy.factor.1]
      · rw [hname.eval_eq hxy.factor.2]
    · exact Or.inl (dif_neg hex)
  · intro u hu
    rw [hname.eval_eq hu]
    exact hname.garbage_ne hu

/-! ## Trees -/

/-- **The term a node of a tree is the value of.** -/
def nodeTerm (leaf : ℕ → α) (k i : ℕ) : FreeMagma α :=
  HashTree.node (· * ·) (fun i => .of (leaf i)) k i

theorem nodeTerm_succ (leaf : ℕ → α) (k i : ℕ) :
    nodeTerm leaf (k + 1) i = nodeTerm leaf k (2 * i) * nodeTerm leaf k (2 * i + 1) := rfl

theorem eval_nodeTerm (hash : α → α → α) (leaf : ℕ → α) (k i : ℕ) :
    eval hash (nodeTerm leaf k i) = HashTree.node hash leaf k i := by
  induction k generalizing i with
  | zero => rfl
  | succ k ih =>
    rw [HashTree.node_succ, ← ih, ← ih]
    rfl

theorem length_nodeTerm (leaf : ℕ → α) (k i : ℕ) : (nodeTerm leaf k i).length = 2 ^ k := by
  induction k generalizing i with
  | zero => rfl
  | succ k ih =>
    show (nodeTerm leaf k (2 * i)).length + (nodeTerm leaf k (2 * i + 1)).length = _
    rw [ih, ih, pow_succ, mul_two]

/-- **All leaves are at the bottom.** -/
theorem atDepth_nodeTerm {leaf : ℕ → α} {k i n : ℕ} {a : α}
    (h : AtDepth (.of a) n (nodeTerm leaf k i)) : n = k := by
  induction k generalizing i n with
  | zero =>
    cases show AtDepth (.of a) n (.of (leaf i)) from h with
    | refl => rfl
  | succ k ih =>
    rw [nodeTerm_succ] at h
    cases h with
    | left h => rw [ih h]
    | right h => rw [ih h]

/-- … and they are all there. -/
theorem atDepth_leaf (leaf : ℕ → α) (k j : ℕ) :
    AtDepth (.of (leaf j)) k (nodeTerm leaf k (j / 2 ^ k)) := by
  induction k with
  | zero =>
    rw [pow_zero, Nat.div_one]
    exact .refl
  | succ k ih =>
    rw [pow_succ, ← Nat.div_div_eq_div_mul, nodeTerm_succ]
    rcases Nat.mod_two_eq_zero_or_one (j / 2 ^ k) with heven | hodd
    · rw [Nat.mul_div_cancel' (Nat.dvd_of_mod_eq_zero heven)]
      exact .left ih
    · rw [Nat.two_mul_div_two_add_one_of_odd (Nat.odd_iff.mpr hodd)]
      exact .right ih

/-- The pairs hashed in a tree are factors of its subterms. -/
theorem subterm_of_mem_nodePairs {hash : α → α → α} {leaf : ℕ → α} {k i : ℕ}
    {p : α × α} (hp : p ∈ HashTree.nodePairs hash leaf k i) :
    ∃ x y, Subterm (x * y) (nodeTerm leaf k i) ∧ p = (eval hash x, eval hash y) := by
  induction k generalizing i with
  | zero => exact absurd hp List.not_mem_nil
  | succ k ih =>
    rw [HashTree.nodePairs, List.mem_cons, List.mem_append] at hp
    rcases hp with rfl | hp | hp
    · have hpair := congrArg₂ Prod.mk (eval_nodeTerm hash leaf k (2 * i))
        (eval_nodeTerm hash leaf k (2 * i + 1))
      exact ⟨_, _, Subterm.refl _, hpair.symm⟩
    · obtain ⟨x, y, ⟨n, hn⟩, rfl⟩ := ih hp
      exact ⟨x, y, ⟨n + 1, .left hn⟩, rfl⟩
    · obtain ⟨x, y, ⟨n, hn⟩, rfl⟩ := ih hp
      exact ⟨x, y, ⟨n + 1, .right hn⟩, rfl⟩

/-- **A hash that is free on a term has no collision among its products.** -/
theorem FreeOn.separates_of_subterm (h : FreeOn hash t garbage) {Q : List (α × α)}
    (hQ : ∀ p ∈ Q, ∃ x y, Subterm (x * y) t ∧ p = (eval hash x, eval hash y)) :
    HashTree.Separates hash (· = ·) Q := by
  intro p hp q hq heq
  obtain ⟨x, y, hxy, rfl⟩ := hQ p hp
  obtain ⟨v, w, hvw, rfl⟩ := hQ q hq
  cases h.inj hxy hvw heq
  exact ⟨rfl, rfl⟩

/-- **A hash that is free on a tree has no collision in it.** -/
theorem FreeOn.separates {leaf : ℕ → α} {k i : ℕ}
    (h : FreeOn hash (nodeTerm leaf k i) garbage) :
    HashTree.Separates hash (· = ·) (HashTree.nodePairs hash leaf k i) :=
  h.separates_of_subterm (fun _ => subterm_of_mem_nodePairs)

/-- **Nothing is hashed to a leaf.** -/
theorem FreeOn.ne_leaf (h : FreeOn hash t garbage) {leaf : α} (hleaf : Subterm (.of leaf) t)
    (a b : α) : hash a b ≠ leaf := by
  intro heq
  rcases h.other a b with hgarbage | ⟨x, y, hxy, rfl, rfl⟩
  · exact h.garbage_ne hleaf (heq.symm.trans hgarbage)
  · cases h.inj hxy hleaf heq

end FreeHash
