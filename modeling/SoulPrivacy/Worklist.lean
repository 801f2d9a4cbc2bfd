import Mathlib.Data.Multiset.DershowitzManna
import Mathlib.Data.List.Nodup
import Mathlib.Data.List.Flatten

/-!
# Worklists

A loop takes the first item of a queue, gives out results, and puts new items
at the end of the queue. The new items have a lower rank, so the loop ends.

What it gives out, in whatever order, is what a search that follows each item
to the end gives out (`run_perm`). Where items and results are paths, each
one longer by one than the path of the item that it comes from, no result is
given out twice (`nodup_tree`).
-/

/-- **What is done with an item**: results and new items. -/
structure Worklist (S R : Type) where
  expand : S → List R × List S
  rank : S → ℕ
  rank_lt : ∀ s, ∀ t ∈ (expand s).2, rank t < rank s

namespace Worklist

variable {S R : Type} (W : Worklist S R)

/-- The ranks in the queue become less. -/
theorem ranks_lt (s : S) (queue : List S) :
    Multiset.IsDershowitzMannaLT (((queue ++ (W.expand s).2).map W.rank : List ℕ) : Multiset ℕ)
      (((s :: queue).map W.rank : List ℕ) : Multiset ℕ) := by
  refine ⟨queue.map W.rank, (W.expand s).2.map W.rank, {W.rank s}, ?_, ?_, ?_, ?_⟩
  · simp
  · rw [List.map_append, ← Multiset.coe_add]
  · rw [List.map_cons, ← Multiset.cons_coe, add_comm, Multiset.singleton_add]
  · intro y hy
    obtain ⟨t, ht, rfl⟩ := List.mem_map.mp (Multiset.mem_coe.mp hy)
    exact ⟨W.rank s, Multiset.mem_singleton_self _, W.rank_lt s t ht⟩

/-- **The loop.** -/
def run (results : List R) : List S → List R
  | [] => results
  | s :: queue => run (results ++ (W.expand s).1) (queue ++ (W.expand s).2)
termination_by queue => ((queue.map W.rank : List ℕ) : Multiset ℕ)
decreasing_by exact W.ranks_lt s queue

/-- The results of an item and of those that come from it. -/
def tree (s : S) : List R :=
  (W.expand s).1 ++ (W.expand s).2.attach.flatMap (fun t => tree t.1)
termination_by W.rank s
decreasing_by exact W.rank_lt s t.1 t.2

theorem tree_eq (s : S) : W.tree s = (W.expand s).1 ++ (W.expand s).2.flatMap W.tree := by
  have hattach : (W.expand s).2.attach.flatMap (fun t => W.tree t.1)
      = (W.expand s).2.flatMap W.tree := by
    rw [← List.flatMap_map Subtype.val W.tree, List.attach_map_subtype_val]
  rw [tree, hattach]

theorem mem_tree_iff {s : S} {r : R} :
    r ∈ W.tree s ↔ r ∈ (W.expand s).1 ∨ ∃ t ∈ (W.expand s).2, r ∈ W.tree t := by
  rw [tree_eq, List.mem_append, List.mem_flatMap]

/-- **The loop gives out what is in the trees** of the items. -/
theorem run_perm (results : List R) (queue : List S) :
    (W.run results queue).Perm (results ++ queue.flatMap W.tree) := by
  induction results, queue using run.induct W with
  | case1 results => simp [run]
  | case2 results s queue ih =>
    rw [run]
    refine ih.trans ?_
    rw [List.flatMap_append, List.flatMap_cons, tree_eq, List.append_assoc, List.append_assoc]
    -- the new items stand behind the queue, and their trees before those of the queue
    exact ((List.perm_append_comm).append_left _).append_left _

/-- **A loop over items that stand for others** gives out what the other one
does. -/
theorem run_map {S' R' : Type} {W : Worklist S R} {W' : Worklist S' R'} (f : S' → S)
    (g : R' → R)
    (h : ∀ s, W.expand (f s) = ((W'.expand s).1.map g, (W'.expand s).2.map f))
    (results : List R') (queue : List S') :
    W.run (results.map g) (queue.map f) = (W'.run results queue).map g := by
  induction results, queue using run.induct W' with
  | case1 results => rw [List.map_nil, run, run]
  | case2 results s queue ih => rw [List.map_cons, run, run, h, ← List.map_append,
      ← List.map_append, ih]

/-! ## Paths -/

section Paths

variable {A : Type}

/-- **Items have paths, and results are paths**, each longer by a choice than
the path of the item it comes from; none is the same as another one. -/
structure Branching (W : Worklist S (List A)) (path : S → List A) : Prop where
  nodup_results : ∀ s, (W.expand s).1.Nodup
  nodup_items : ∀ s, ((W.expand s).2.map path).Nodup
  results : ∀ s, ∀ r ∈ (W.expand s).1, ∃ a, r = path s ++ [a]
  items : ∀ s, ∀ t ∈ (W.expand s).2, ∃ a, path t = path s ++ [a]

variable {W : Worklist S (List A)} {path : S → List A}

/-- What is in the tree of an item is longer than its path, and starts with
it. -/
theorem Branching.extends (h : Branching W path) (s : S) :
    ∀ r ∈ W.tree s, path s <+: r ∧ (path s).length < r.length := by
  induction hn : W.rank s using Nat.strong_induction_on generalizing s with
  | _ n ih =>
    intro r hr
    rcases W.mem_tree_iff.mp hr with hr | ⟨t, ht, hr⟩
    · obtain ⟨a, rfl⟩ := h.results s r hr
      exact ⟨List.prefix_append _ _, by simp⟩
    · obtain ⟨hpre, hlen⟩ := ih (W.rank t) (hn ▸ W.rank_lt s t ht) t rfl r hr
      obtain ⟨a, ha⟩ := h.items s t ht
      rw [ha] at hpre hlen
      refine ⟨(List.prefix_append _ _).trans hpre, ?_⟩
      rw [List.length_append] at hlen
      omega

/-- **No result is in a tree twice.** Two items that come from the same one
have different paths of the same length, so no result starts with both; and
what comes from an item is longer than the results at once. -/
theorem nodup_tree (h : Branching W path) (s : S) : (W.tree s).Nodup := by
  induction hn : W.rank s using Nat.strong_induction_on generalizing s with
  | _ n ih =>
    rw [tree_eq, List.nodup_append]
    refine ⟨h.nodup_results s, ?_, ?_⟩
    · rw [List.nodup_flatMap]
      refine ⟨fun t ht => ih (W.rank t) (hn ▸ W.rank_lt s t ht) t rfl, ?_⟩
      have hpairs := List.pairwise_map.mp (h.nodup_items s)
      refine hpairs.imp_of_mem (fun {t u} ht hu hne => ?_)
      intro r hrt hru
      obtain ⟨a, ha⟩ := h.items s t ht
      obtain ⟨b, hb⟩ := h.items s u hu
      have hlen : (path t).length = (path u).length := by
        rw [ha, hb, List.length_append, List.length_append]
        rfl
      exact hne (List.prefix_of_prefix_length_le (h.extends t r hrt).1 (h.extends u r hru).1
        hlen.le |>.eq_of_length hlen)
    · intro r hr r' hr' heq
      obtain ⟨a, ha⟩ := h.results s r hr
      obtain ⟨t, ht, hrt⟩ := List.mem_flatMap.mp hr'
      obtain ⟨b, hb⟩ := h.items s t ht
      have hlen := (h.extends t r' hrt).2
      rw [← heq, ha, hb, List.length_append, List.length_append] at hlen
      exact absurd hlen (lt_irrefl _)

end Paths

end Worklist
