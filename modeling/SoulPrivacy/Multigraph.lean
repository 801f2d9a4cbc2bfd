import SoulPrivacy.Worklist
import Mathlib.Data.Int.Order.Basic
import Mathlib.Tactic.Linarith

/-!
# Walks in a multigraph, and a search for them

Edges have a source and a target, and may be parallel. A walk is a list of
edges. A search with a queue of walks appends to a walk every edge that leads
on, to a vertex that is not the target of an edge of the walk, until the goal
is reached or a number of edges.

It gives out the walks to the goal whose *targets* are distinct, each once
(`mem_run_iff`, `nodup_run`). The vertex where it starts is not a target:
a walk that comes back to it once is given out as well, where one does
(`exists_return_iff`).
-/

/-- **Edges between vertices.** -/
structure Multigraph (V ι : Type) where
  source : ι → V
  target : ι → V

namespace Multigraph

variable {V ι : Type} (G : Multigraph V ι)

/-! ## Walks -/

/-- **A walk** from a vertex to another one. -/
def Walk : V → List ι → V → Prop
  | v, [], w => v = w
  | v, i :: p, w => G.source i = v ∧ Walk (G.target i) p w

variable {G} {u v w : V} {p q : List ι} {i : ι}

theorem walk_append_iff : G.Walk u (p ++ q) w ↔ ∃ v, G.Walk u p v ∧ G.Walk v q w := by
  induction p generalizing u with
  | nil =>
    show G.Walk u q w ↔ ∃ v, u = v ∧ G.Walk v q w
    rw [exists_eq_left']
  | cons i p ih =>
    show G.source i = u ∧ G.Walk (G.target i) (p ++ q) w
      ↔ ∃ v, (G.source i = u ∧ G.Walk (G.target i) p v) ∧ G.Walk v q w
    simp only [ih, and_assoc, exists_and_left]

/-- **A walk ends at a target**, if it has an edge. -/
theorem Walk.mem_targets (h : G.Walk v p w) (hne : p ≠ []) : w ∈ p.map G.target := by
  induction p generalizing v with
  | nil => exact absurd rfl hne
  | cons i p ih =>
    obtain ⟨-, h⟩ := h
    cases p with
    | nil =>
      rw [show w = G.target i from h.symm]
      exact List.mem_cons_self
    | cons j p => exact List.mem_cons_of_mem _ (ih h (List.cons_ne_nil _ _))

/-- **A walk that comes back** is one to its start, and one on from there. -/
theorem exists_return_iff {P : List ι → Prop} :
    (∃ p, G.Walk v p w ∧ v ∈ p.map G.target ∧ P p)
      ↔ ∃ c p, c ≠ [] ∧ G.Walk v c v ∧ G.Walk v p w ∧ P (c ++ p) := by
  constructor
  · rintro ⟨p, hwalk, hmem, hP⟩
    obtain ⟨i, hi, htarget⟩ := List.mem_map.mp hmem
    obtain ⟨a, b, rfl⟩ := List.append_of_mem hi
    rw [List.append_cons] at hwalk hP
    obtain ⟨u, hc, hp⟩ := walk_append_iff.mp hwalk
    obtain ⟨x, -, -, hx⟩ := walk_append_iff.mp hc
    obtain rfl : v = u := htarget.symm.trans hx
    exact ⟨a ++ [i], b, by simp, hc, hp, hP⟩
  · rintro ⟨c, p, hne, hc, hp, hP⟩
    refine ⟨c ++ p, walk_append_iff.mpr ⟨v, hc, hp⟩, ?_, hP⟩
    rw [List.map_append]
    exact List.mem_append_left _ (hc.mem_targets hne)

/-- The targets with one more. -/
theorem nodup_append_singleton_iff {path : List ι} :
    ((path ++ [i]).map G.target).Nodup
      ↔ (path.map G.target).Nodup ∧ G.target i ∉ path.map G.target := by
  rw [List.map_append, List.map_singleton, ← List.concat_eq_append, List.nodup_concat, and_comm]

/-! ## The search -/

variable [DecidableEq V]

/-- The edges to vertices that are not targets of a walk. -/
def free (G : Multigraph V ι) (edges path : List ι) : List ι :=
  edges.filter (fun i => G.target i ∉ path.map G.target)

/-- An edge that is appended is not free any more. -/
theorem length_free_lt {edges path : List ι} (hi : i ∈ edges)
    (htarget : G.target i ∉ path.map G.target) :
    (G.free edges (path ++ [i])).length < (G.free edges path).length := by
  have hfree : G.free edges (path ++ [i])
      = (G.free edges path).filter (fun j => G.target j ≠ G.target i) := by
    unfold free
    rw [List.filter_filter]
    refine List.filter_congr (fun j _ => ?_)
    simp [and_comm]
  rw [hfree, List.length_filter_lt_length_iff_exists]
  exact ⟨i, List.mem_filter.mpr ⟨hi, by simpa using htarget⟩, by simp⟩

/-- The edges that lead on from the end of a walk. -/
def next (G : Multigraph V ι) (edges : List ι) (s : V × List ι) : List ι :=
  edges.filter (fun i => G.source i = s.1 ∧ G.target i ∉ s.2.map G.target)

theorem mem_next_iff {edges : List ι} {s : V × List ι} :
    i ∈ G.next edges s
      ↔ i ∈ edges ∧ G.source i = s.1 ∧ G.target i ∉ s.2.map G.target := by
  unfold next
  rw [List.mem_filter, decide_eq_true_eq]

/-- **A walk is continued**, unless it has as many edges as it may have. -/
def expand (G : Multigraph V ι) (edges : List ι) (goal : V) (bound : ℤ) (s : V × List ι) :
    List (List ι) × List (V × List ι) :=
  if bound ≤ s.2.length then ([], [])
  else
    (((G.next edges s).filter (fun i => G.target i = goal)).map (fun i => s.2 ++ [i]),
      ((G.next edges s).filter (fun i => G.target i ≠ goal)).map
        (fun i => (G.target i, s.2 ++ [i])))

variable {edges : List ι} {goal : V} {bound : ℤ} {s t : V × List ι} {r : List ι}

theorem mem_expand_fst_iff :
    r ∈ (G.expand edges goal bound s).1
      ↔ s.2.length < bound ∧ ∃ i ∈ G.next edges s, G.target i = goal ∧ s.2 ++ [i] = r := by
  unfold expand
  split_ifs with h
  · simp [h]
  · simp [lt_of_not_ge h, and_assoc]

theorem mem_expand_snd_iff :
    t ∈ (G.expand edges goal bound s).2
      ↔ s.2.length < bound
        ∧ ∃ i ∈ G.next edges s, G.target i ≠ goal ∧ (G.target i, s.2 ++ [i]) = t := by
  unfold expand
  split_ifs with h
  · simp [h]
  · simp [lt_of_not_ge h, and_assoc]

/-- **The search.** -/
def search (G : Multigraph V ι) (edges : List ι) (goal : V) (bound : ℤ) :
    Worklist (V × List ι) (List ι) where
  expand := G.expand edges goal bound
  rank s := (G.free edges s.2).length
  rank_lt s t ht := by
    obtain ⟨-, i, hi, -, rfl⟩ := mem_expand_snd_iff.mp ht
    obtain ⟨hmem, -, htarget⟩ := mem_next_iff.mp hi
    exact length_free_lt hmem htarget

/-- A walk that is continued with distinct edges branches. -/
theorem branching_search (hedges : edges.Nodup) :
    Worklist.Branching (G.search edges goal bound) Prod.snd := by
  have hnext : ∀ s, (G.next edges s).Nodup := fun s => hedges.filter _
  have happend : ∀ path : List ι, Function.Injective (fun i => path ++ [i]) := by
    intro path i j h
    simpa using h
  refine ⟨fun s => ?_, fun s => ?_, fun s r hr => ?_, fun s t ht => ?_⟩
  · show (G.expand edges goal bound s).1.Nodup
    unfold expand
    split
    · exact List.nodup_nil
    · exact ((hnext s).filter _).map (happend s.2)
  · show ((G.expand edges goal bound s).2.map Prod.snd).Nodup
    unfold expand
    split
    · exact List.nodup_nil
    · rw [List.map_map]
      exact ((hnext s).filter _).map (happend s.2)
  · obtain ⟨-, i, -, -, rfl⟩ := mem_expand_fst_iff.mp hr
    exact ⟨i, rfl⟩
  · obtain ⟨-, i, -, -, rfl⟩ := mem_expand_snd_iff.mp ht
    exact ⟨i, rfl⟩

/-- **What a walk is continued to**: a walk to the goal, with edges to
distinct vertices and no more of them than there may be. -/
structure Continues (G : Multigraph V ι) (edges : List ι) (goal : V) (bound : ℤ)
    (s : V × List ι) (r p : List ι) : Prop where
  ne_nil : p ≠ []
  eq : r = s.2 ++ p
  walk : G.Walk s.1 p goal
  mem : ∀ i ∈ p, i ∈ edges
  nodup : (r.map G.target).Nodup
  length_le : (r.length : ℤ) ≤ bound

/-- A walk that is continued with one edge, to the goal, … -/
theorem Continues.single (hnodup : (s.2.map G.target).Nodup) (hlt : s.2.length < bound)
    (hi : i ∈ G.next edges s) (hgoal : G.target i = goal) :
    Continues G edges goal bound s (s.2 ++ [i]) [i] := by
  obtain ⟨hmem, hsource, htarget⟩ := mem_next_iff.mp hi
  refine ⟨List.cons_ne_nil _ _, rfl, ⟨hsource, hgoal⟩, ?_, ?_, ?_⟩
  · rintro j hj
    rwa [List.mem_singleton.mp hj]
  · exact nodup_append_singleton_iff.mpr ⟨hnodup, htarget⟩
  · rw [List.length_append, List.length_singleton]
    exact_mod_cast hlt

/-- … and with one edge more. -/
theorem Continues.cons (hi : i ∈ G.next edges s)
    (h : Continues G edges goal bound (G.target i, s.2 ++ [i]) r p) :
    Continues G edges goal bound s r (i :: p) := by
  obtain ⟨hmem, hsource, -⟩ := mem_next_iff.mp hi
  refine ⟨List.cons_ne_nil _ _, ?_, ⟨hsource, h.walk⟩, ?_, h.nodup, h.length_le⟩
  · rw [h.eq, List.append_assoc, List.singleton_append]
  · exact List.forall_mem_cons.mpr ⟨hmem, h.mem⟩

/-- **The first edge** with which a walk is continued leads on. -/
theorem Continues.mem_next (h : Continues G edges goal bound s r (i :: p)) :
    i ∈ G.next edges s ∧ s.2.length < bound := by
  have hnodup := h.nodup
  have hlen := h.length_le
  rw [h.eq, List.append_cons, List.map_append] at hnodup
  rw [h.eq, List.length_append, List.length_cons] at hlen
  refine ⟨mem_next_iff.mpr ⟨h.mem i List.mem_cons_self, h.walk.1, ?_⟩, ?_⟩
  · exact (nodup_append_singleton_iff.mp (List.nodup_append.mp hnodup).1).2
  · push_cast at hlen
    linarith

omit [DecidableEq V] in
/-- Behind it, unless it is the only one, the goal is still ahead. -/
theorem Continues.tail (h : Continues G edges goal bound s r (i :: p)) (hne : p ≠ []) :
    G.target i ≠ goal ∧ Continues G edges goal bound (G.target i, s.2 ++ [i]) r p := by
  have hnodup := h.nodup
  rw [h.eq, List.map_append] at hnodup
  have htail := (List.nodup_append.mp hnodup).2.1
  refine ⟨fun heq => ?_, hne, ?_, h.walk.2, ?_, h.nodup, h.length_le⟩
  · rw [List.map_cons, heq] at htail
    exact (List.nodup_cons.mp htail).1 (h.walk.2.mem_targets hne)
  · rw [h.eq, List.append_cons]
  · exact fun j hj => h.mem j (List.mem_cons_of_mem i hj)

/-- **What a walk is continued to, edge by edge**: a walk to the goal at once,
or what a walk with one edge more is continued to. -/
theorem exists_continues_iff (hnodup : (s.2.map G.target).Nodup) :
    (∃ p, Continues G edges goal bound s r p)
      ↔ r ∈ (G.expand edges goal bound s).1
        ∨ ∃ t ∈ (G.expand edges goal bound s).2, ∃ p, Continues G edges goal bound t r p := by
  constructor
  · rintro ⟨p, hp⟩
    cases p with
    | nil => exact absurd rfl hp.ne_nil
    | cons i p =>
      obtain ⟨hi, hlt⟩ := hp.mem_next
      by_cases hne : p = []
      · subst hne
        exact Or.inl (mem_expand_fst_iff.mpr ⟨hlt, i, hi, hp.walk.2, hp.eq.symm⟩)
      · obtain ⟨hgoal, htail⟩ := hp.tail hne
        exact Or.inr ⟨_, mem_expand_snd_iff.mpr ⟨hlt, i, hi, hgoal, rfl⟩, p, htail⟩
  · rintro (hr | ⟨t, ht, p, hp⟩)
    · obtain ⟨hlt, i, hi, hgoal, rfl⟩ := mem_expand_fst_iff.mp hr
      exact ⟨[i], Continues.single hnodup hlt hi hgoal⟩
    · obtain ⟨-, i, hi, -, rfl⟩ := mem_expand_snd_iff.mp ht
      exact ⟨i :: p, hp.cons hi⟩

/-- A walk that is continued keeps its targets distinct. -/
theorem nodup_of_mem_expand (hnodup : (s.2.map G.target).Nodup)
    (ht : t ∈ (G.expand edges goal bound s).2) : (t.2.map G.target).Nodup := by
  obtain ⟨-, i, hi, -, rfl⟩ := mem_expand_snd_iff.mp ht
  exact nodup_append_singleton_iff.mpr ⟨hnodup, (mem_next_iff.mp hi).2.2⟩

/-- **The search finds what a walk is continued to.** -/
theorem mem_tree_iff (hnodup : (s.2.map G.target).Nodup) :
    r ∈ (G.search edges goal bound).tree s
      ↔ ∃ p, Continues G edges goal bound s r p := by
  induction hn : (G.search edges goal bound).rank s using Nat.strong_induction_on
    generalizing s with
  | _ n ih =>
    rw [Worklist.mem_tree_iff, exists_continues_iff hnodup]
    refine or_congr Iff.rfl (exists_congr (fun t => and_congr_right (fun ht => ?_)))
    exact ih _ (hn ▸ (G.search edges goal bound).rank_lt s t ht) (nodup_of_mem_expand hnodup ht)
      rfl

/-- **The walks that the search gives out** from a vertex. -/
theorem mem_run_iff {r : List ι} (hne : v ≠ goal) :
    r ∈ (G.search edges goal bound).run [] [(v, [])]
      ↔ G.Walk v r goal ∧ (∀ i ∈ r, i ∈ edges) ∧ (r.map G.target).Nodup
        ∧ (r.length : ℤ) ≤ bound := by
  rw [((G.search edges goal bound).run_perm [] [(v, [])]).mem_iff, List.nil_append,
    List.flatMap_singleton, mem_tree_iff (s := (v, [])) List.nodup_nil]
  constructor
  · rintro ⟨p, hp⟩
    obtain rfl : r = p := hp.eq
    exact ⟨hp.walk, hp.mem, hp.nodup, hp.length_le⟩
  · rintro ⟨hwalk, hmem, hnodup, hlen⟩
    refine ⟨r, ?_, rfl, hwalk, hmem, hnodup, hlen⟩
    rintro rfl
    exact hne hwalk

/-- … each once. -/
theorem nodup_run (hedges : edges.Nodup) :
    ((G.search edges goal bound).run [] [(v, [])]).Nodup := by
  rw [((G.search edges goal bound).run_perm [] [(v, [])]).nodup_iff, List.nil_append,
    List.flatMap_singleton]
  exact Worklist.nodup_tree (branching_search hedges) _

/-! ## Edges that stand for others -/

/-- The edges, by what stands for them. -/
def comap {κ : Type} (G : Multigraph V ι) (f : κ → ι) : Multigraph V κ where
  source := G.source ∘ f
  target := G.target ∘ f

theorem next_map {κ : Type} (f : κ → ι) (edges : List κ) (s : V × List κ) :
    G.next (edges.map f) (s.1, s.2.map f) = ((G.comap f).next edges s).map f := by
  unfold next comap
  rw [List.filter_map, List.map_map]
  rfl

theorem expand_map {κ : Type} (f : κ → ι) (edges : List κ) (s : V × List κ) :
    G.expand (edges.map f) goal bound (s.1, s.2.map f)
      = (((G.comap f).expand edges goal bound s).1.map (List.map f),
        ((G.comap f).expand edges goal bound s).2.map (fun t => (t.1, t.2.map f))) := by
  unfold expand
  rw [next_map, List.length_map]
  split
  · rfl
  · simp only [List.filter_map, List.map_map]
    refine Prod.ext ?_ ?_
    · refine List.map_congr_left (fun i _ => ?_)
      simp
    · refine List.map_congr_left (fun i _ => ?_)
      simp [comap]

/-- **The search among edges that are stood for** gives out what stands for
the walks. -/
theorem run_map {κ : Type} (f : κ → ι) (edges : List κ) (v : V) :
    (G.search (edges.map f) goal bound).run [] [(v, [])]
      = (((G.comap f).search edges goal bound).run [] [(v, [])]).map (List.map f) :=
  Worklist.run_map (fun s => (s.1, s.2.map f)) (List.map f) (expand_map f edges) [] [(v, [])]

end Multigraph
