import SoulPrivacy.Router

/-!
# Routes that come back

The router finds every path from the source to the destination over active
bridges that lead to distinct chains, each once, with the bridges told apart
by their places in the topology (`mem_paths_iff`, `nodup_paths`). Bridges
lead to distinct chains also where one of these is the source: a path may
leave it, come back, and go on. The routes are the loop-free ones exactly
where no path does (`exact_iff`).
-/

namespace Router

/-- The bridges, by their places in a topology. -/
def placed (topology : List BridgeEdge) : Multigraph String (Fin topology.length) :=
  bridges.comap topology.get

/-- The route over the bridges at some places. -/
def routeAt (topology : List BridgeEdge) (p : List (Fin topology.length)) : Route :=
  routeOf (p.map topology.get)

/-- **What the router asks of a path**: active bridges to distinct chains,
and not more of them than there may be. -/
structure Admissible (topology : List BridgeEdge) (maxHops : ℤ)
    (p : List (Fin topology.length)) : Prop where
  active : ∀ i ∈ p, (topology.get i).active = true
  nodup : (p.map (placed topology).target).Nodup
  length_le : (p.length : ℤ) ≤ maxHops

/-- **A loop-free path** from a chain to another one: no chain is visited
twice, the source included. -/
structure LoopFree (topology : List BridgeEdge) (source destination : String) (maxHops : ℤ)
    (p : List (Fin topology.length)) : Prop where
  walk : (placed topology).Walk source p destination
  active : ∀ i ∈ p, (topology.get i).active = true
  nodup : (source :: p.map (placed topology).target).Nodup
  length_le : (p.length : ℤ) ≤ maxHops

/-- **The routes are exact**: they are those over the loop-free paths, each
once, by their latency. -/
def Exact (topology : List BridgeEdge) (source destination : String) (maxHops : ℤ) : Prop :=
  ∃ ps : List (List (Fin topology.length)), ps.Nodup
    ∧ (∀ p, p ∈ ps ↔ LoopFree topology source destination maxHops p)
    ∧ findRoutes source destination maxHops topology = ps.map (routeAt topology)
    ∧ (findRoutes source destination maxHops topology).Pairwise
      (fun a b => a.totalLatency ≤ b.totalLatency)

/-- **There is a detour by the source**: a way back to it, and one on to the
destination, that the router puts one behind the other. -/
def Detour (topology : List BridgeEdge) (source destination : String) (maxHops : ℤ) : Prop :=
  ∃ c p, c ≠ [] ∧ (placed topology).Walk source c source
    ∧ (placed topology).Walk source p destination ∧ Admissible topology maxHops (c ++ p)

/-! ## The paths that are found -/

variable {topology : List BridgeEdge} {source destination : String} {maxHops : ℤ}
  {p : List (Fin topology.length)}

/-- The places of the active bridges. -/
def activePlaces (topology : List BridgeEdge) : List (Fin topology.length) :=
  (List.finRange topology.length).filter (fun i => (topology.get i).active)

theorem map_activePlaces (topology : List BridgeEdge) :
    (activePlaces topology).map topology.get = topology.filter BridgeEdge.active := by
  conv_rhs => rw [← List.map_get_finRange topology, List.filter_map]
  rfl

/-- **The paths that are found**, in the order of the queue. -/
def paths (topology : List BridgeEdge) (source destination : String) (maxHops : ℤ) :
    List (List (Fin topology.length)) :=
  ((placed topology).search (activePlaces topology) destination maxHops).run [] [(source, [])]

/-- **The paths that are found** are those that the router asks for, … -/
theorem mem_paths_iff (hne : source ≠ destination) :
    p ∈ paths topology source destination maxHops
      ↔ (placed topology).Walk source p destination ∧ Admissible topology maxHops p := by
  have hactive : (∀ i ∈ p, i ∈ activePlaces topology)
      ↔ ∀ i ∈ p, (topology.get i).active = true :=
    forall₂_congr (fun i _ => by simp [activePlaces])
  unfold paths
  rw [Multigraph.mem_run_iff hne, hactive]
  exact and_congr_right (fun _ => ⟨fun h => ⟨h.1, h.2.1, h.2.2⟩,
    fun h => ⟨h.active, h.nodup, h.length_le⟩⟩)

/-- … each once. -/
theorem nodup_paths (topology : List BridgeEdge) (source destination : String) (maxHops : ℤ) :
    (paths topology source destination maxHops).Nodup :=
  Multigraph.nodup_run ((List.nodup_finRange _).filter _)

/-- The routes, before they are sorted. -/
theorem run_search (topology : List BridgeEdge) (source destination : String) (maxHops : ℤ) :
    (search (topology.filter BridgeEdge.active) destination maxHops).run [] [⟨source, []⟩]
      = (paths topology source destination maxHops).map (routeAt topology) := by
  have hitems : (search (topology.filter BridgeEdge.active) destination maxHops).run []
        [⟨source, []⟩]
      = ((bridges.search (topology.filter BridgeEdge.active) destination maxHops).run []
        [(source, [])]).map routeOf :=
    Worklist.run_map itemOf routeOf (expand_itemOf _ destination maxHops) [] [(source, [])]
  refine hitems.trans ?_
  rw [← map_activePlaces, Multigraph.run_map, List.map_map]
  rfl

/-- **The routes are the paths that are found, sorted.** -/
theorem findRoutes_eq (hne : source ≠ destination) :
    findRoutes source destination maxHops topology
      = ((paths topology source destination maxHops).mergeSort
        (fun p q => (routeAt topology p).totalLatency ≤ (routeAt topology q).totalLatency)).map
          (routeAt topology) := by
  unfold findRoutes
  dsimp only
  rw [if_neg hne, run_search]
  exact (List.map_mergeSort (f := routeAt topology) (fun _ _ _ _ => rfl)).symm

theorem mem_findRoutes_iff (hne : source ≠ destination) {r : Route} :
    r ∈ findRoutes source destination maxHops topology
      ↔ ∃ p, ((placed topology).Walk source p destination ∧ Admissible topology maxHops p)
        ∧ routeAt topology p = r := by
  rw [findRoutes_eq hne, List.mem_map]
  exact exists_congr (fun p => and_congr_left (fun _ =>
    (List.mem_mergeSort).trans (mem_paths_iff hne)))

/-- **The routes are sorted** by their latency. -/
theorem pairwise_findRoutes (topology : List BridgeEdge) (source destination : String)
    (maxHops : ℤ) :
    (findRoutes source destination maxHops topology).Pairwise
      (fun a b => a.totalLatency ≤ b.totalLatency) := by
  unfold findRoutes
  split
  · exact List.pairwise_singleton _ _
  · refine (List.pairwise_mergeSort ?_ ?_ _).imp (fun h => by simpa using h)
    · intro a b c hab hbc
      simp only [decide_eq_true_eq] at hab hbc ⊢
      exact hab.trans hbc
    · intro a b
      simpa using le_total a.totalLatency b.totalLatency

/-- **The optimal route is a fastest one.** -/
theorem findOptimalRoute_le {r r' : Route}
    (hopt : findOptimalRoute source destination = some r)
    (hr : r' ∈ findRoutes source destination 3 BRIDGE_TOPOLOGY) :
    r.totalLatency ≤ r'.totalLatency := by
  have hsorted := pairwise_findRoutes BRIDGE_TOPOLOGY source destination 3
  obtain ⟨rest, heq⟩ := List.head?_eq_some_iff.mp hopt
  rw [heq] at hr hsorted
  rcases List.mem_cons.mp hr with rfl | hr
  · exact le_refl _
  · exact (List.pairwise_cons.mp hsorted).1 r' hr

/-! ## The source is visited again -/

/-- A loop-free path is one the router asks for that does not come back. -/
theorem loopFree_iff :
    LoopFree topology source destination maxHops p
      ↔ ((placed topology).Walk source p destination ∧ Admissible topology maxHops p)
        ∧ source ∉ p.map (placed topology).target := by
  constructor
  · intro h
    obtain ⟨hsource, hnodup⟩ := List.nodup_cons.mp h.nodup
    exact ⟨⟨h.walk, h.active, hnodup, h.length_le⟩, hsource⟩
  · rintro ⟨⟨hwalk, hp⟩, hsource⟩
    exact ⟨hwalk, hp.active, List.nodup_cons.mpr ⟨hsource, hp.nodup⟩, hp.length_le⟩

/-- **There is a detour** if and only if a path the router asks for comes
back. -/
theorem detour_iff :
    Detour topology source destination maxHops
      ↔ ∃ p, ((placed topology).Walk source p destination ∧ Admissible topology maxHops p)
        ∧ source ∈ p.map (placed topology).target := by
  refine Multigraph.exists_return_iff.symm.trans (exists_congr (fun p => ?_))
  rw [and_assoc, and_comm (b := Admissible topology maxHops p)]

/-- The targets of a path are read off its route. -/
theorem map_destination_hops (p : List (Fin topology.length)) :
    (routeAt topology p).hops.map BridgeEdge.destination = p.map (placed topology).target :=
  List.map_map

/-- With a detour, a route comes back to the source. Were it one of a
loop-free path, that path would lead to the same chains. -/
theorem Detour.not_exact (hne : source ≠ destination)
    (h : Detour topology source destination maxHops) :
    ¬ Exact topology source destination maxHops := by
  obtain ⟨p, hp, hback⟩ := detour_iff.mp h
  rintro ⟨ps, -, hmem, heq, -⟩
  have hroute := (mem_findRoutes_iff hne).mpr ⟨p, hp, rfl⟩
  rw [heq] at hroute
  obtain ⟨q, hq, hsame⟩ := List.mem_map.mp hroute
  have hchains : q.map (placed topology).target = p.map (placed topology).target := by
    rw [← map_destination_hops, ← map_destination_hops, hsame]
  rw [← hchains] at hback
  exact (loopFree_iff.mp ((hmem q).mp hq)).2 hback

/-- There is no detour where no bridge leads to the source. -/
theorem not_detour_of_forall_ne (h : ∀ e ∈ topology, e.destination ≠ source) :
    ¬ Detour topology source destination maxHops := by
  rintro ⟨c, p, hne, hc, -, -⟩
  obtain ⟨i, -, hi⟩ := List.mem_map.mp (hc.mem_targets hne)
  exact h _ (List.get_mem topology i) hi

/-- **The routes are exact** if and only if there is no detour by the
source. -/
theorem exact_iff (hne : source ≠ destination) :
    Exact topology source destination maxHops
      ↔ ¬ Detour topology source destination maxHops := by
  refine ⟨fun h hdetour => hdetour.not_exact hne h, fun hnone => ?_⟩
  rw [detour_iff] at hnone
  refine ⟨_, ?_, fun p => ?_, findRoutes_eq hne, pairwise_findRoutes _ _ _ _⟩
  · exact (List.mergeSort_perm _ _).nodup_iff.mpr (nodup_paths _ _ _ _)
  · rw [List.mem_mergeSort, mem_paths_iff hne, loopFree_iff]
    exact (and_iff_left_of_imp (fun hp hback => hnone ⟨p, hp, hback⟩)).symm

/-- Over two bridges in a row, the routes are exact. -/
theorem exact_iff_two :
    "chain-a" ≠ "chain-c"
      ∧ Exact [⟨"chain-a", "chain-b", .XCM, 10, true⟩, ⟨"chain-b", "chain-c", .IBC, 20, true⟩]
        "chain-a" "chain-c" 3 :=
  ⟨by decide, (exact_iff (by decide)).mpr (not_detour_of_forall_ne (by decide))⟩

/-- From Fuji to Moonbase, a route goes to the subnet and back first. -/
theorem exists_route_back :
    ¬ Exact BRIDGE_TOPOLOGY "avalanche_fuji" "moonbase_alpha" 3
      ∧ ∃ r ∈ findRoutes "avalanche_fuji" "moonbase_alpha" 3 BRIDGE_TOPOLOGY,
        r.hops.map BridgeEdge.destination
          = ["avalanche_fuji_subnet", "avalanche_fuji", "moonbase_alpha"] := by
  have hne : "avalanche_fuji" ≠ "moonbase_alpha" := by decide
  let out : Fin BRIDGE_TOPOLOGY.length := ⟨0, by decide⟩
  let back : Fin BRIDGE_TOPOLOGY.length := ⟨1, by decide⟩
  let onward : Fin BRIDGE_TOPOLOGY.length := ⟨9, by decide⟩
  have hpath : Admissible BRIDGE_TOPOLOGY 3 [out, back, onward] :=
    ⟨by decide, by decide, by decide⟩
  constructor
  · exact Detour.not_exact hne
      ⟨[out, back], [onward], List.cons_ne_nil _ _, ⟨rfl, rfl, rfl⟩, ⟨rfl, rfl⟩, hpath⟩
  · exact ⟨_, (mem_findRoutes_iff hne).mpr
      ⟨[out, back, onward], ⟨⟨rfl, rfl, rfl, rfl⟩, hpath⟩, rfl⟩, rfl⟩

end Router
