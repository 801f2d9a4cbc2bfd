import SoulPrivacy.FreeHash
import SoulPrivacy.PoolCommitments
import SoulPrivacy.Projection

/-!
# Fresh roots

Every insertion into the pool's tree appends a root to its history. Two roots of the
history are those of two trees of which the one has leaves where the other still has
padding; so with a hash that has no collision in these trees, a root recurs exactly if
all those leaves are like the padding, which is zero.

The outputs of transfers and withdrawals are checked not to be zero. The commitments of
deposits and reveals are not, so the roots are fresh as long as nobody deposits the
commitment zero (`rootsFresh_iff`), and the one who does inserts a leaf without changing
the root.
-/

namespace PrivacyPool

variable {X : Type} {E : Interfaces X}

/-- **Every root of the pool is new**: in the history of its tree, with the initial root
and one for each leaf, no root occurs twice. -/
def RootsFresh (E : Interfaces X) (p : Point X) : Prop :=
  (MerkleTree.rootHistory E.hash (leavesOf p.trace)).Nodup

/-- The pairs hashed in all the trees of a run. -/
def treePairs (E : Interfaces X) (p : Point X) : List (Uint256 × Uint256) :=
  AppendTree.historyPairs E.hash 0 MerkleTree.DEPTH (leavesOf p.trace)

/-! ## Capacity -/

/-- A tree that took a leaf is not overfull. -/
theorem room_of_insert {hash : Uint256 → Uint256 → Uint256} {tree tree' : MerkleTree.TreeData}
    {leaf root : Uint256} {index : ℕ}
    (h : MerkleTree.insert hash tree leaf = .ok (tree', index, root)) :
    tree'.nextLeafIndex ≤ 2 ^ MerkleTree.DEPTH := by
  unfold MerkleTree.insert at h
  split at h
  · rename_i hroom
    cases h
    exact hroom
  · cases h

/-- A call leaves a tree that is not overfull. -/
theorem Effect.room {msg : Msg} {w w' : World X} {entry : Entry} {evs : List Event}
    {k : Option Cont} (h : Effect E msg w entry w' evs k)
    (hroom : w.pool.tree.nextLeafIndex ≤ 2 ^ MerkleTree.DEPTH) :
    w'.pool.tree.nextLeafIndex ≤ 2 ^ MerkleTree.DEPTH := by
  cases h
  case deposit ins balance => exact room_of_insert ins
  case revealDeposit ins balance => exact room_of_insert ins
  case transfer ins =>
    obtain ⟨_, _, _, _, -, hins⟩ := ins
    exact room_of_insert hins
  case withdraw ins balance =>
    obtain ⟨_, _, _, _, -, hins⟩ := ins
    exact room_of_insert hins
  all_goals exact hroom

variable (E) in
/-- **The tree is never overfull.** -/
theorem room_invariant :
    CallStack.Invariant (machine E) (fun _ _ => True)
      (fun _ p => p.state.pool.tree.nextLeafIndex ≤ 2 ^ MerkleTree.DEPTH)
      (fun _ _ p => p.state.pool.tree.nextLeafIndex ≤ 2 ^ MerkleTree.DEPTH) where
  enter_done hp _ h := (enter_effect h).2.room hp
  enter_send hp _ h := (enter_effect h).2.room hp
  send hp h := by
    obtain ⟨-, rfl⟩ := send_eq_some h
    exact hp
  resume_true hp h := by
    obtain ⟨-, rfl⟩ := resume_eq_ok h
    exact hp
  resume_false _ h := nomatch (resume_eq_ok h).1
  outside hp h := h.2.2.1 ▸ hp
  tick hp h := h.2.2.1 ▸ hp

/-! ## Outputs -/

/-- The outputs of a receipt are not zero. -/
def OutputsNonzero (receipt : CallStack.Receipt Call Cont Event) : Prop :=
  ∀ entry ∈ receiptEntries receipt, ∀ output ∈ entry.outputs, output ≠ 0

/-- **A call checks its outputs.** -/
theorem Effect.outputs_ne_zero {msg : Msg} {w w' : World X} {entry : Entry}
    {evs : List Event} {k : Option Cont} (h : Effect E msg w entry w' evs k) :
    ∀ output ∈ entry.outputs, output ≠ 0 := by
  have hchecked : ∀ {outputs : Pair}, validateOutputCommitments outputs = .ok () →
      ∀ output ∈ [outputs.1, outputs.2], output ≠ 0 := by
    intro outputs hok
    obtain ⟨hzero, -⟩ := (revertIf_bind_eq_ok _ _ _ _).mp hok
    rw [not_or] at hzero
    exact List.forall_mem_cons.mpr ⟨hzero.1, List.forall_mem_singleton.mpr hzero.2⟩
  cases h
  case transfer outputs_ok _ _ _ _ _ => exact hchecked outputs_ok
  case withdraw outputs_ok _ _ _ _ _ _ _ => exact hchecked outputs_ok
  all_goals exact nofun

/-- Every receipt has checked outputs; there is no part of the state to tell. -/
theorem outputs_projection (E : Interfaces X) :
    CallStack.Projection (machine E) (fun _ => ()) (fun _ _ => ())
      (fun _ => OutputsNonzero) where
  enter h := ⟨rfl, List.forall_mem_singleton.mpr (enter_effect h).2.outputs_ne_zero⟩
  send _ := rfl
  resume _ := ⟨rfl, nofun⟩
  outside _ := rfl
  tick _ := rfl

/-- **No output in a trace is zero.** -/
theorem zero_notMem_outputsOf {w₀ : World X}
    {c : CallStack.Config (World X) (CallStack.Receipt Call Cont Event) Cont}
    (hreach : CallStack.Reachable (machine E) (fun _ _ => True) w₀ c) :
    0 ∉ outputsOf c.now.trace := by
  intro hzero
  have hall := ((outputs_projection E).holds hreach).along.forall_mem
  obtain ⟨entry, hentry, houtput⟩ := List.mem_flatMap.mp hzero
  obtain ⟨receipt, hreceipt, hentry⟩ := List.mem_flatMap.mp hentry
  exact hall receipt hreceipt entry hentry 0 houtput rfl

/-! ## Fresh roots -/

/-- **The roots are fresh if and only if no leaf is like the padding**, under a hash
that reads its arguments up to a relation and has no other collision in the trees of
the run. -/
theorem rootsFresh_iff_related {R : Uint256 → Uint256 → Prop} (hR : Equivalence R)
    (hcongr : ∀ {a a' b b'}, R a a' → R b b' → E.hash a b = E.hash a' b')
    (hcanon : ∀ a b c d, R (E.hash a b) (E.hash c d) → E.hash a b = E.hash c d)
    {w₀ : World X} (hdeployed : Deployed E w₀)
    {c : CallStack.Config (World X) (CallStack.Receipt Call Cont Event) Cont}
    (hreach : CallStack.Reachable (machine E) (fun _ _ => True) w₀ c)
    (hsep : HashTree.Separates E.hash R (treePairs E c.now)) :
    RootsFresh E c.now ↔ ∀ leaf ∈ leavesOf c.now.trace, ¬ R leaf 0 := by
  have hrep := represents_of_reachable hdeployed hreach
  have hroom : c.now.state.pool.tree.nextLeafIndex ≤ 2 ^ MerkleTree.DEPTH := by
    refine (room_invariant E).holds ?_ hreach
    obtain ⟨sender, epochManager, chainId, appId, guardian, oracle, hpool⟩ := hdeployed
    show w₀.pool.tree.nextLeafIndex ≤ _
    rw [hpool]
    exact Nat.zero_le _
  rw [hrep.nextLeafIndex_eq] at hroom
  exact AppendTree.nodup_rootHistory_iff E.hash 0 hR hcongr hcanon hroom hsep

/-- **Every insertion gives a fresh root if and only if nobody deposits or reveals the
commitment zero.** The hash has no collision in the trees of the run. -/
theorem rootsFresh_iff {w₀ : World X} (hdeployed : Deployed E w₀)
    {c : CallStack.Config (World X) (CallStack.Receipt Call Cont Event) Cont}
    (hreach : CallStack.Reachable (machine E) (fun _ _ => True) w₀ c)
    (hsep : HashTree.Separates E.hash (· = ·) (treePairs E c.now)) :
    MerkleTree.Represents E.hash c.now.state.pool.tree (leavesOf c.now.trace)
      ∧ (RootsFresh E c.now ↔ 0 ∉ depositsOf c.now.trace) := by
  refine ⟨represents_of_reachable hdeployed hreach, ?_⟩
  have hcongr : ∀ {a a' b b' : Uint256}, a = a' → b = b' → E.hash a b = E.hash a' b' := by
    rintro a _ b _ rfl rfl
    rfl
  rw [rootsFresh_iff_related eq_equivalence hcongr (fun _ _ _ _ heq => heq) hdeployed hreach
    hsep]
  have hperm := leavesOf_perm c.now.trace
  constructor
  · intro hleaves hdeposit
    exact hleaves 0 (hperm.mem_iff.mpr (List.mem_append_left _ hdeposit)) rfl
  · rintro hdeposits leaf hleaf rfl
    -- an output would have been checked
    rcases List.mem_append.mp (hperm.mem_iff.mp hleaf) with hdeposit | houtput
    · exact hdeposits hdeposit
    · exact zero_notMem_outputsOf hreach houtput

/-! ## Deposits of zero -/

/-- A pool with a given hash. -/
def hashingPool (hash : Uint256 → Uint256 → Uint256) : Interfaces Unit :=
  { permissive Unit with hash := hash }

/-- … just deployed. -/
def hashingWorld (hash : Uint256 → Uint256 → Uint256) : World Unit :=
  ⟨⟨0, 0⟩, 0, construct hash 1 0 3 4 5 0, ()⟩

/-- A deposit into it. -/
def firstDeposit (commitment : Bytes32) : Call :=
  ⟨⟨1, 10, Address.one_ne_zero⟩, .deposit commitment 10⟩

/-- **A run of one deposit**, of any commitment. -/
theorem exists_firstDeposit (hash : Uint256 → Uint256 → Uint256) (commitment : Bytes32) :
    ∃ c, CallStack.Reachable (machine (hashingPool hash)) (fun _ _ => True) (hashingWorld hash) c
      ∧ ∃ evs, c.now.trace = [.entered (firstDeposit commitment) evs] := by
  have hrep₀ : MerkleTree.Represents hash (hashingWorld hash).pool.tree [] :=
    MerkleTree.fresh_represents _
  obtain ⟨tree, hins, -⟩ := MerkleTree.insert_represents hash hrep₀ (by decide) commitment
  have heff : Effect (hashingPool hash) (firstDeposit commitment).msg
      (credit (firstDeposit commitment).msg (hashingWorld hash)) (firstDeposit commitment).entry
      _ _ none :=
    .deposit rfl (by decide) rfl rfl (fun h => (Bool.false_ne_true h).elim) hins rfl
  have hpayable : (firstDeposit commitment).entry.payable = false →
      (firstDeposit commitment).msg.value = 0 := fun h => (Bool.false_ne_true h.symm).elim
  have henter := enter_eq_ok.mpr ⟨hpayable, heff⟩
  exact ⟨_, .tail .refl (.call trivial henter), _, rfl⟩

/-- **A hash without a collision before and after the first leaf** of a tree, which never
gives zero. -/
theorem exists_collisionFree (leaf : Uint256) {depth : ℕ} (hdepth : depth ≤ 64) :
    ∃ hash : Uint256 → Uint256 → Uint256, (∀ a b, hash a b ≠ 0)
      ∧ HashTree.Separates hash (· = ·) (AppendTree.historyPairs hash 0 depth [leaf]) := by
  obtain ⟨before, hbefore⟩ :
      ∃ t, t = FreeHash.nodeTerm (HashTree.padded (0 : Uint256) []) depth 0 := ⟨_, rfl⟩
  obtain ⟨after, hafter⟩ :
      ∃ t, t = FreeHash.nodeTerm (HashTree.padded (0 : Uint256) [leaf]) depth 0 := ⟨_, rfl⟩
  have hcard : 2 * (before * after).length ≤ Nat.card Uint256 := by
    have hlen : (before * after).length = 2 ^ depth + 2 ^ depth := by
      show before.length + after.length = _
      rw [hbefore, hafter, FreeHash.length_nodeTerm, FreeHash.length_nodeTerm]
    have hpow : 2 ^ depth ≤ 2 ^ 64 := Nat.pow_le_pow_right Nat.two_pos hdepth
    rw [hlen, Bytes32.card]
    omega
  have := Bytes32.finite
  obtain ⟨hash, garbage, hfree⟩ := FreeHash.exists_freeOn (before * after) hcard
  have hzero : FreeHash.Subterm (.of 0) (before * after) := by
    have hleaf := FreeHash.atDepth_leaf (HashTree.padded (0 : Uint256) []) depth 0
    rw [Nat.zero_div, ← hbefore] at hleaf
    exact ⟨_, .left hleaf⟩
  refine ⟨hash, hfree.ne_leaf hzero, hfree.separates_of_subterm (fun p hp => ?_)⟩
  obtain ⟨n, hn, hp⟩ := List.mem_flatMap.mp hp
  obtain ⟨x, y, ⟨k, hk⟩, rfl⟩ := FreeHash.subterm_of_mem_nodePairs hp
  rcases Nat.le_one_iff_eq_zero_or_eq_one.mp (Nat.le_of_lt_succ (List.mem_range.mp hn)) with
    rfl | rfl
  · rw [List.take_zero, ← hbefore] at hk
    exact ⟨x, y, ⟨k + 1, .left hk⟩, rfl⟩
  · rw [List.take_succ_cons, List.take_zero, ← hafter] at hk
    exact ⟨x, y, ⟨k + 1, .right hk⟩, rfl⟩

/-- A deposit of another commitment gives a fresh root. -/
theorem rootsFresh_iff_deposit :
    ∃ E : Interfaces Unit, ∃ w₀ c, Deployed E w₀
      ∧ CallStack.Reachable (machine E) (fun _ _ => True) w₀ c
      ∧ (∃ evs, c.now.trace = [.entered (firstDeposit 7) evs]) ∧ RootsFresh E c.now := by
  obtain ⟨hash, -, hsep⟩ := exists_collisionFree 7 (show MerkleTree.DEPTH ≤ 64 by decide)
  obtain ⟨c, hreach, evs, htrace⟩ := exists_firstDeposit hash 7
  have hdeployed : Deployed (hashingPool hash) (hashingWorld hash) := ⟨1, 0, 3, 4, 5, 0, rfl⟩
  have hleaves : leavesOf c.now.trace = [7] := by rw [htrace]; rfl
  have hdeposits : depositsOf c.now.trace = [7] := by rw [htrace]; rfl
  have hpairs : HashTree.Separates (hashingPool hash).hash (· = ·)
      (treePairs (hashingPool hash) c.now) := by
    unfold treePairs
    rw [hleaves]
    exact hsep
  refine ⟨_, _, c, hdeployed, hreach, ⟨evs, htrace⟩,
    (rootsFresh_iff hdeployed hreach hpairs).2.mpr ?_⟩
  rw [hdeposits]
  simp

/-- **A deposit of the commitment zero gives the initial root once more.** -/
theorem exists_repeated_root :
    ∃ E : Interfaces Unit, (∀ a b, E.hash a b ≠ 0) ∧ ∃ w₀ c, Deployed E w₀
      ∧ CallStack.Reachable (machine E) (fun _ _ => True) w₀ c
      ∧ (∃ evs, c.now.trace = [.entered (firstDeposit 0) evs])
      ∧ HashTree.Separates E.hash (· = ·) (treePairs E c.now)
      ∧ MerkleTree.treeRoot E.hash [0] = MerkleTree.treeRoot E.hash []
      ∧ ¬ RootsFresh E c.now := by
  obtain ⟨hash, hnonzero, hsep⟩ :=
    exists_collisionFree 0 (show MerkleTree.DEPTH ≤ 64 by decide)
  obtain ⟨c, hreach, evs, htrace⟩ := exists_firstDeposit hash 0
  have hleaves : leavesOf c.now.trace = [0] := by rw [htrace]; rfl
  have hroot : MerkleTree.treeRoot hash [0] = MerkleTree.treeRoot hash [] :=
    HashTree.root_append_zero hash 0 MerkleTree.DEPTH []
  refine ⟨hashingPool hash, hnonzero, _, c, ⟨1, 0, 3, 4, 5, 0, rfl⟩, hreach, ⟨evs, htrace⟩, ?_,
    hroot, fun hfresh => ?_⟩
  · unfold treePairs
    rw [hleaves]
    exact hsep
  · have hhistory : MerkleTree.rootHistory hash [0]
        = [MerkleTree.treeRoot hash [], MerkleTree.treeRoot hash [0]] :=
      MerkleTree.rootHistory_append hash [] 0
    have hnodup : (MerkleTree.rootHistory hash [0]).Nodup := by
      rw [← hleaves]
      exact hfresh
    rw [hhistory, hroot] at hnodup
    exact absurd (List.mem_singleton_self _) (List.nodup_cons.mp hnodup).1

end PrivacyPool
