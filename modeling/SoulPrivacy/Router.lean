import SoulPrivacy.Multigraph
import Mathlib.Algebra.Order.Field.Rat

/-!
# Routes between chains (`router.ts`)

The router looks for the paths from a chain to another one over the bridges,
with a queue. It avoids the destinations that a path has reached. The source
is not one of them.

Chains are known by their keys. A number of seconds is a rational number.
-/

/-- The protocols of the bridges. -/
inductive Protocol where
  | AWM
  | Teleporter
  | XCM
  | IBC
  | Rainbow
  deriving DecidableEq

/-- `BridgeEdge`. -/
structure BridgeEdge where
  source : String
  destination : String
  protocol : Protocol
  estimatedLatency : ℚ
  active : Bool
  deriving DecidableEq

/-- `Route`. -/
structure Route where
  hops : List BridgeEdge
  totalLatency : ℚ
  protocols : List Protocol
  deriving DecidableEq

namespace Router

/-- `BRIDGE_TOPOLOGY`. -/
def BRIDGE_TOPOLOGY : List BridgeEdge :=
  [⟨"avalanche_fuji", "avalanche_fuji_subnet", .AWM, 5, true⟩,
    ⟨"avalanche_fuji_subnet", "avalanche_fuji", .AWM, 5, true⟩,
    ⟨"avalanche_fuji", "avalanche_fuji_subnet", .Teleporter, 10, true⟩,
    ⟨"moonbase_alpha", "astar_shibuya", .XCM, 24, true⟩,
    ⟨"astar_shibuya", "moonbase_alpha", .XCM, 24, true⟩,
    ⟨"evmos_testnet", "avalanche_fuji", .IBC, 45, true⟩,
    ⟨"evmos_testnet", "moonbase_alpha", .IBC, 60, true⟩,
    ⟨"aurora_testnet", "avalanche_fuji", .Rainbow, 30, true⟩,
    ⟨"aurora_testnet", "moonbase_alpha", .Rainbow, 60, true⟩,
    ⟨"avalanche_fuji", "moonbase_alpha", .AWM, 60, true⟩,
    ⟨"moonbase_alpha", "avalanche_fuji", .XCM, 60, true⟩,
    ⟨"avalanche_fuji", "evmos_testnet", .AWM, 60, true⟩,
    ⟨"avalanche_fuji", "aurora_testnet", .AWM, 60, true⟩]

/-- `QueueItem`. -/
structure QueueItem where
  chain : String
  path : List BridgeEdge

/-- The route over some hops. -/
def routeOf (hops : List BridgeEdge) : Route where
  hops := hops
  totalLatency := hops.foldl (fun sum e => sum + e.estimatedLatency) 0
  protocols := (hops.map BridgeEdge.protocol).eraseDups

/-- The loop over the neighbors, for one edge. -/
def visit (destination : String) (current : QueueItem)
    (found : List Route × List QueueItem) (edge : BridgeEdge) : List Route × List QueueItem :=
  -- avoid cycles
  if current.path.any (fun p => p.destination = edge.destination) then found
  else
    let newPath := current.path ++ [edge]
    if edge.destination = destination then (found.1 ++ [routeOf newPath], found.2)
    else (found.1, found.2 ++ [⟨edge.destination, newPath⟩])

/-- **The body of the loop over the queue**: the routes that are found from
an item, and the items that are put in the queue. -/
def expand (activeEdges : List BridgeEdge) (destination : String) (maxHops : ℤ)
    (current : QueueItem) : List Route × List QueueItem :=
  if maxHops ≤ current.path.length then ([], [])
  else
    let neighbors := activeEdges.filter (fun e => e.source = current.chain)
    neighbors.foldl (visit destination current) ([], [])

/-! ## The queue runs empty -/

/-- The bridges, as a multigraph over the chains. -/
def bridges : Multigraph String BridgeEdge where
  source := BridgeEdge.source
  target := BridgeEdge.destination

/-- A walk over the bridges, as an item. -/
def itemOf (s : String × List BridgeEdge) : QueueItem := ⟨s.1, s.2⟩

/-- The edges to chains that the path of an item has not reached. -/
def fresh (current : QueueItem) (edges : List BridgeEdge) : List BridgeEdge :=
  edges.filter (fun e => e.destination ∉ current.path.map BridgeEdge.destination)

/-- The routes over some edges. -/
def routesOver (destination : String) (current : QueueItem) (edges : List BridgeEdge) :
    List Route :=
  ((fresh current edges).filter (fun e => e.destination = destination)).map
    (fun e => routeOf (current.path ++ [e]))

/-- The items over some edges. -/
def itemsOver (destination : String) (current : QueueItem) (edges : List BridgeEdge) :
    List QueueItem :=
  ((fresh current edges).filter (fun e => e.destination ≠ destination)).map
    (fun e => ⟨e.destination, current.path ++ [e]⟩)

theorem routesOver_append (destination : String) (current : QueueItem)
    (edges edges' : List BridgeEdge) :
    routesOver destination current (edges ++ edges')
      = routesOver destination current edges ++ routesOver destination current edges' := by
  simp [routesOver, fresh]

theorem itemsOver_append (destination : String) (current : QueueItem)
    (edges edges' : List BridgeEdge) :
    itemsOver destination current (edges ++ edges')
      = itemsOver destination current edges ++ itemsOver destination current edges' := by
  simp [itemsOver, fresh]

/-- What the loop finds over one edge. -/
theorem visit_eq (destination : String) (current : QueueItem)
    (found : List Route × List QueueItem) (e : BridgeEdge) :
    visit destination current found e
      = (found.1 ++ routesOver destination current [e],
        found.2 ++ itemsOver destination current [e]) := by
  by_cases hold : e.destination ∈ current.path.map BridgeEdge.destination
  · have hfresh : fresh current [e] = [] := List.filter_cons_of_neg (by simpa using hold)
    unfold visit routesOver itemsOver
    rw [if_pos (by simpa using hold), hfresh]
    simp
  · have hfresh : fresh current [e] = [e] := List.filter_cons_of_pos (by simpa using hold)
    unfold visit routesOver itemsOver
    rw [if_neg (by simpa using hold), hfresh]
    by_cases hdest : e.destination = destination
    · simp [hdest]
    · simp [hdest]

/-- **What the loop over some edges finds.** -/
theorem foldl_visit (destination : String) (current : QueueItem) (edges : List BridgeEdge)
    (found : List Route × List QueueItem) :
    edges.foldl (visit destination current) found
      = (found.1 ++ routesOver destination current edges,
        found.2 ++ itemsOver destination current edges) := by
  induction edges generalizing found with
  | nil => simp [routesOver, itemsOver, fresh]
  | cons e edges ih =>
    rw [List.foldl_cons, ih, visit_eq, show e :: edges = [e] ++ edges from rfl,
      routesOver_append, itemsOver_append, List.append_assoc, List.append_assoc]

/-- **The body of the loop continues the walk** of its item. -/
theorem expand_itemOf (activeEdges : List BridgeEdge) (destination : String) (maxHops : ℤ)
    (s : String × List BridgeEdge) :
    expand activeEdges destination maxHops (itemOf s)
      = ((bridges.expand activeEdges destination maxHops s).1.map routeOf,
        (bridges.expand activeEdges destination maxHops s).2.map itemOf) := by
  unfold expand Multigraph.expand
  split_ifs with h h' h'
  · rfl
  · exact absurd h h'
  · exact absurd h' h
  · dsimp only
    rw [foldl_visit]
    have hnext : fresh (itemOf s) (activeEdges.filter (fun e => e.source = (itemOf s).chain))
        = bridges.next activeEdges s := by
      unfold fresh Multigraph.next
      rw [List.filter_filter]
      refine List.filter_congr (fun e _ => ?_)
      rw [Bool.and_comm, Bool.decide_and]
      rfl
    rw [routesOver, itemsOver, hnext, List.map_map, List.map_map]
    rfl

/-- **The loop over the queue.** -/
def search (activeEdges : List BridgeEdge) (destination : String) (maxHops : ℤ) :
    Worklist QueueItem Route where
  expand := expand activeEdges destination maxHops
  rank current := (bridges.free activeEdges current.path).length
  rank_lt current item h := by
    have heq := expand_itemOf activeEdges destination maxHops (current.chain, current.path)
    rw [show itemOf (current.chain, current.path) = current from rfl] at heq
    rw [heq] at h
    obtain ⟨t, ht, rfl⟩ := List.mem_map.mp h
    exact (bridges.search activeEdges destination maxHops).rank_lt _ t ht

/-- **`findRoutes`.** -/
def findRoutes (source destination : String) (maxHops : ℤ) (topology : List BridgeEdge) :
    List Route :=
  if source = destination then [⟨[], 0, []⟩]
  else
    let activeEdges := topology.filter BridgeEdge.active
    let routes := (search activeEdges destination maxHops).run [] [⟨source, []⟩]
    routes.mergeSort (fun a b => a.totalLatency ≤ b.totalLatency)

/-- `findOptimalRoute`, with the three hops and the topology that `findRoutes`
has by default. -/
def findOptimalRoute (source destination : String) : Option Route :=
  (findRoutes source destination 3 BRIDGE_TOPOLOGY).head?

end Router
