import SoulPrivacy.PoolSolvency

/-!
# The tree inside the pool

Deposits and reveals put one leaf in the tree, transfers and withdrawals
two, and nothing else touches it. So at every point of every run the tree
represents the leaves of its trace, in order (`represents_of_reachable`),
and what is known of a tree that represents its leaves – the reference
root, the exact window of roots – is known of the pool.
-/

namespace PrivacyPool

/-- The leaves a call puts in the tree. -/
def Entry.leaves : Entry → List Uint256
  | .deposit commitment _ => [commitment]
  | .revealDeposit commitment _ => [commitment]
  | .transfer _ _ _ outputs _ _ => [outputs.1, outputs.2]
  | .withdraw _ _ _ outputs _ _ => [outputs.1, outputs.2]
  | _ => []

/-- … and a receipt. -/
def receiptLeaves : CallStack.Receipt Call Cont Event → List Uint256
  | .entered c _ => c.entry.leaves
  | .resumed _ _ => []

/-- **The leaves of a trace**, in order. -/
def leavesOf (trace : List (CallStack.Receipt Call Cont Event)) : List Uint256 :=
  trace.flatMap receiptLeaves

variable {X : Type} {E : Interfaces X}

/-- Two outputs are two leaves. -/
theorem InsertTwo.represents {tree tree' : MerkleTree.TreeData} {outputs : Pair}
    {newRoot : Uint256} {leaves : List Uint256}
    (h : MerkleTree.Represents E.hash tree leaves)
    (hins : InsertTwo E tree tree' outputs newRoot) :
    MerkleTree.Represents E.hash tree' (leaves ++ [outputs.1, outputs.2]) := by
  obtain ⟨tree₁, _, _, _, hins₁, hins₂⟩ := hins
  obtain ⟨hrep₁, -, -⟩ := MerkleTree.insert_eq_ok E.hash h hins₁
  obtain ⟨hrep₂, -, -⟩ := MerkleTree.insert_eq_ok E.hash hrep₁ hins₂
  rwa [List.append_assoc] at hrep₂

/-- **A call adds its leaves to the tree**, and no others. -/
theorem Effect.represents {msg : Msg} {w w' : World X} {entry : Entry}
    {evs : List Event} {k : Option Cont} (h : Effect E msg w entry w' evs k)
    {leaves : List Uint256} (hrep : MerkleTree.Represents E.hash w.pool.tree leaves) :
    MerkleTree.Represents E.hash w'.pool.tree (leaves ++ entry.leaves) := by
  cases h
  case deposit ins balance => exact (MerkleTree.insert_eq_ok E.hash hrep ins).1
  case revealDeposit ins balance => exact (MerkleTree.insert_eq_ok E.hash hrep ins).1
  case transfer ins => exact ins.represents hrep
  case withdraw ins balance => exact ins.represents hrep
  all_goals exact (List.append_nil leaves).symm ▸ hrep

variable (E) in
/-- **The tree of the pool represents the leaves of the trace.** -/
theorem tree_invariant :
    CallStack.Invariant (machine E) (fun _ _ => True)
      (fun _ p => MerkleTree.Represents E.hash p.state.pool.tree (leavesOf p.trace))
      (fun _ _ p =>
        MerkleTree.Represents E.hash p.state.pool.tree (leavesOf p.trace)) where
  enter_done hp _ h := by
    rw [leavesOf, List.flatMap_append, List.flatMap_singleton]
    exact (enter_effect h).2.represents hp
  enter_send hp _ h := by
    rw [leavesOf, List.flatMap_append, List.flatMap_singleton]
    exact (enter_effect h).2.represents hp
  send hp h := by
    obtain ⟨-, rfl⟩ := send_eq_some h
    exact hp
  resume_true hp h := by
    obtain ⟨-, rfl⟩ := resume_eq_ok h
    rw [leavesOf, List.flatMap_append, List.flatMap_singleton]
    exact (List.append_nil _).symm ▸ hp
  resume_false _ h := nomatch (resume_eq_ok h).1
  outside hp h := h.2.2.1 ▸ hp
  tick hp h := h.2.2.1 ▸ hp

/-- At every point of every run of a deployed pool, its tree represents
the leaves of the trace. -/
theorem represents_of_reachable {w₀ : World X} (hdeployed : Deployed E w₀)
    {c : CallStack.Config (World X) (CallStack.Receipt Call Cont Event) Cont}
    (hreach : CallStack.Reachable (machine E) (fun _ _ => True) w₀ c) :
    MerkleTree.Represents E.hash c.now.state.pool.tree (leavesOf c.now.trace) := by
  refine (tree_invariant E).holds ?_ hreach
  obtain ⟨sender, epochManager, chainId, appId, guardian, oracle, hpool⟩ := hdeployed
  show MerkleTree.Represents E.hash w₀.pool.tree []
  rw [hpool]
  exact MerkleTree.fresh_represents E.hash

/-- **The window of roots is exact**, after any sequence of insertions
into a fresh tree and at every point of every run of the pool, where a
transfer or a withdrawal counts as two insertions. -/
theorem isKnownRoot_window (hash : Uint256 → Uint256 → Uint256) :
    (∀ leaves, leaves.length ≤ 2 ^ MerkleTree.DEPTH →
      ∃ self, MerkleTree.insertAll hash (MerkleTree.fresh hash) leaves = .ok self
        ∧ MerkleTree.ExactWindow hash self leaves)
    ∧ (∀ {X : Type} (E : Interfaces X) (w₀ : World X)
        (c : CallStack.Config (World X) (CallStack.Receipt Call Cont Event) Cont),
        E.hash = hash → Deployed E w₀ →
        CallStack.Reachable (machine E) (fun _ _ => True) w₀ c →
          MerkleTree.ExactWindow hash c.now.state.pool.tree (leavesOf c.now.trace)) := by
  refine ⟨fun leaves hlen => ?_, ?_⟩
  · obtain ⟨self, hself, hrep⟩ := MerkleTree.exists_insertAll hash
      (MerkleTree.fresh_represents hash) leaves (by simpa using hlen)
    exact ⟨self, hself, hrep.exactWindow⟩
  · rintro X E w₀ c rfl hdeployed hreach
    exact (represents_of_reachable hdeployed hreach).exactWindow

/-- After three insertions under a toy hash the empty root is still
known; so it is in a pool that has just been deployed. -/
theorem isKnownRoot_window_three :
    (∃ self, MerkleTree.insertAll (permissive Unit).hash (MerkleTree.fresh (permissive Unit).hash)
        [5, 6, 7] = .ok self
      ∧ MerkleTree.isKnownRoot self (MerkleTree.treeRoot (permissive Unit).hash []) = true)
    ∧ MerkleTree.isKnownRoot (construct (permissive Unit).hash 1 2 3 4 5 0).tree
        (MerkleTree.treeRoot (permissive Unit).hash []) = true := by
  have hne : MerkleTree.treeRoot (permissive Unit).hash [] ≠ 0 := by
    rw [MerkleTree.treeRoot, HashTree.root_nil]
    decide +kernel
  obtain ⟨hinserts, hruns⟩ := isKnownRoot_window (permissive Unit).hash
  refine ⟨?_, ?_⟩
  · obtain ⟨self, hself, hwindow⟩ := hinserts [5, 6, 7] (by decide)
    exact ⟨self, hself, hwindow.kept [] [5, 6, 7] rfl (by decide) hne⟩
  · let w₀ : World Unit := ⟨⟨0, 0⟩, 0, construct (permissive Unit).hash 1 2 3 4 5 0, ()⟩
    have hwindow := hruns (permissive Unit) w₀ _ rfl ⟨1, 2, 3, 4, 5, 0, rfl⟩ .refl
    exact hwindow.kept [] [] rfl (by decide) hne

end PrivacyPool
