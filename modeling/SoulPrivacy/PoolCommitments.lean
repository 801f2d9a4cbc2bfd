import SoulPrivacy.NullifierCanonicality

/-!
# The commitment set of the pool

Four entry points put leaves in the tree. Deposits and reveals consult the
commitment set before and update it; transfers and withdrawals do neither.
So the set is exactly the deposited commitments, each deposited once
(`DepositedOnce`), and it is the set of the leaves as long as no output
is among them: one output is a leaf the set does not have, and it may be
a leaf the tree has already (`commitmentsUnique_iff`).
-/

namespace PrivacyPool

/-- The commitments a call deposits. -/
def Entry.deposits : Entry → List Bytes32
  | .deposit commitment _ => [commitment]
  | .revealDeposit commitment _ => [commitment]
  | _ => []

/-- The outputs a call puts in the tree. -/
def Entry.outputs : Entry → List Bytes32
  | .transfer _ _ _ outputs _ _ => [outputs.1, outputs.2]
  | .withdraw _ _ _ outputs _ _ => [outputs.1, outputs.2]
  | _ => []

/-- A call, if the receipt is of one. -/
def receiptEntries : CallStack.Receipt Call Cont Event → List Entry
  | .entered c _ => [c.entry]
  | .resumed _ _ => []

/-- **The commitments deposited in a trace**, in order. -/
def depositsOf (trace : List (CallStack.Receipt Call Cont Event)) : List Bytes32 :=
  (trace.flatMap receiptEntries).flatMap Entry.deposits

/-- **The outputs of the transfers and withdrawals of a trace**, in
order. -/
def outputsOf (trace : List (CallStack.Receipt Call Cont Event)) : List Bytes32 :=
  (trace.flatMap receiptEntries).flatMap Entry.outputs

variable {X : Type} {E : Interfaces X}

/-- **What the commitment set is meant to be**: no value is a leaf twice,
and the set has exactly the leaves. -/
structure CommitmentsUnique (p : Point X) : Prop where
  nodup : (leavesOf p.trace).Nodup
  exact : ∀ commitment,
    p.state.pool.commitmentExists commitment = true ↔ commitment ∈ leavesOf p.trace

/-- **What it is**: no value was deposited twice, and the set has exactly
the deposited ones. -/
structure DepositedOnce (p : Point X) : Prop where
  nodup : (depositsOf p.trace).Nodup
  exact : ∀ commitment,
    p.state.pool.commitmentExists commitment = true ↔ commitment ∈ depositsOf p.trace

/-! ## Deposits and outputs make the leaves -/

theorem Entry.leaves_eq (entry : Entry) : entry.leaves = entry.deposits ++ entry.outputs := by
  cases entry <;> rfl

theorem leavesOf_eq (trace : List (CallStack.Receipt Call Cont Event)) :
    leavesOf trace = (trace.flatMap receiptEntries).flatMap Entry.leaves := by
  rw [List.flatMap_assoc, leavesOf]
  refine List.flatMap_congr (fun receipt _ => ?_)
  cases receipt with
  | entered c evs => exact (List.append_nil _).symm
  | resumed k evs => rfl

/-- **The leaves are the deposits and the outputs**, in some order. -/
theorem leavesOf_perm (trace : List (CallStack.Receipt Call Cont Event)) :
    (leavesOf trace).Perm (depositsOf trace ++ outputsOf trace) := by
  rw [leavesOf_eq, funext Entry.leaves_eq]
  exact (List.flatMap_append_perm _ _ _).symm

theorem depositsOf_snoc (trace : List (CallStack.Receipt Call Cont Event))
    (receipt : CallStack.Receipt Call Cont Event) :
    depositsOf (trace ++ [receipt])
      = depositsOf trace ++ (receiptEntries receipt).flatMap Entry.deposits := by
  rw [depositsOf, List.flatMap_append, List.flatMap_append, List.flatMap_singleton]
  rfl

/-! ## Deposits -/

/-- **A call that deposits a commitment finds the set without it and
leaves the set with it**; no other call touches the set. -/
theorem Effect.deposits {msg : Msg} {w w' : World X} {entry : Entry}
    {evs : List Event} {k : Option Cont} (h : Effect E msg w entry w' evs k) :
    entry.deposits.Nodup
      ∧ (∀ c ∈ entry.deposits, w.pool.commitmentExists c = false)
      ∧ ∀ c, w'.pool.commitmentExists c = true ↔
          w.pool.commitmentExists c = true ∨ c ∈ entry.deposits := by
  have one : ∀ (commitment : Bytes32), w.pool.commitmentExists commitment = false →
      (∀ c ∈ [commitment], w.pool.commitmentExists c = false)
        ∧ ∀ c, Function.update w.pool.commitmentExists commitment true c = true ↔
            w.pool.commitmentExists c = true ∨ c ∈ [commitment] := by
    intro commitment hnew
    refine ⟨List.forall_mem_singleton.mpr hnew, fun c => ?_⟩
    rw [List.mem_singleton]
    exact update_true_eq_true _ commitment c
  -- only a deposit and a reveal write to the set
  cases h
  case deposit new _ _ _ => exact ⟨List.nodup_singleton _, one _ new⟩
  case revealDeposit new _ _ => exact ⟨List.nodup_singleton _, one _ new⟩
  all_goals
    exact ⟨List.nodup_nil, nofun, fun c => (or_iff_left List.not_mem_nil).symm⟩

theorem DepositedOnce.init {w : World X} (h : Deployed E w) :
    DepositedOnce (⟨w, []⟩ : Point X) := by
  obtain ⟨sender, epochManager, chainId, appId, guardian, oracle, hpool⟩ := h
  refine ⟨List.nodup_nil, fun c => ?_⟩
  show w.pool.commitmentExists c = true ↔ c ∈ []
  rw [hpool]
  exact iff_of_false Bool.false_ne_true List.not_mem_nil

/-- **A call keeps the invariant.** -/
theorem DepositedOnce.enter {p : Point X} (hp : DepositedOnce p) {c : Call}
    {w' : World X} {evs : List Event} {k : Option Cont}
    (h : enter E c p.state = .ok (w', evs, k)) :
    DepositedOnce (⟨w', p.trace ++ [.entered c evs]⟩ : Point X) := by
  obtain ⟨hnodup, hnew, hset⟩ := (enter_effect h).2.deposits
  have hsnoc : depositsOf (p.trace ++ [.entered c evs])
      = depositsOf p.trace ++ c.entry.deposits := by
    rw [depositsOf_snoc, receiptEntries, List.flatMap_singleton]
  refine ⟨?_, fun commitment => ?_⟩
  · dsimp only
    rw [hsnoc]
    refine List.Nodup.append hp.nodup hnodup (fun commitment hold hdep => ?_)
    exact Bool.false_ne_true ((hnew _ hdep).symm.trans ((hp.exact _).mpr hold))
  · dsimp only
    rw [hsnoc, List.mem_append, hset]
    exact or_congr_left (hp.exact commitment)

theorem DepositedOnce.resume {p : Point X} (hp : DepositedOnce p) {k : Cont}
    {success : Bool} {w' : World X} {evs : List Event}
    (h : resume k success p.state = .ok (w', evs)) :
    DepositedOnce (⟨w', p.trace ++ [.resumed k evs]⟩ : Point X) := by
  obtain ⟨-, rfl⟩ := resume_eq_ok h
  have hsnoc : depositsOf (p.trace ++ [.resumed k evs]) = depositsOf p.trace := by
    rw [depositsOf_snoc]
    exact List.append_nil _
  refine ⟨?_, fun commitment => ?_⟩
  · dsimp only
    rw [hsnoc]
    exact hp.nodup
  · dsimp only
    rw [hsnoc]
    exact hp.exact commitment

/-- **The deposited commitments are the set, each deposited once.** -/
theorem deposits_invariant (E : Interfaces X) :
    CallStack.Invariant (machine E) (fun _ _ => True) (fun _ p => DepositedOnce p)
      (fun _ _ p => DepositedOnce p) where
  enter_done hp _ h := hp.enter h
  enter_send hp _ h := hp.enter h
  send hp h := by
    obtain ⟨-, rfl⟩ := send_eq_some h
    exact ⟨hp.nodup, hp.exact⟩
  resume_true hp h := hp.resume h
  resume_false hp h := hp.resume h
  outside hp h := ⟨hp.nodup, h.2.2.1 ▸ hp.exact⟩
  tick hp h := ⟨hp.nodup, h.2.2.1 ▸ hp.exact⟩

/-! ## Outputs -/

/-- **The set has the leaves, each a leaf once, if and only if there are
no outputs among them.** An output the set has would be a leaf twice. -/
theorem DepositedOnce.unique_iff {p : Point X} (hp : DepositedOnce p) :
    CommitmentsUnique p ↔ outputsOf p.trace = [] := by
  have hperm := leavesOf_perm p.trace
  constructor
  · intro hunique
    -- an output is a leaf, so the set has it, so it was deposited as well
    refine List.eq_nil_iff_forall_not_mem.mpr (fun output hout => ?_)
    have hleaf : output ∈ leavesOf p.trace :=
      hperm.mem_iff.mpr (List.mem_append_right _ hout)
    have hdep : output ∈ depositsOf p.trace :=
      (hp.exact output).mp ((hunique.exact output).mpr hleaf)
    have hnodup := hperm.nodup_iff.mp hunique.nodup
    exact (List.nodup_append'.mp hnodup).2.2 hdep hout
  · intro hnone
    rw [hnone, List.append_nil] at hperm
    refine ⟨hperm.nodup_iff.mpr hp.nodup, fun commitment => ?_⟩
    rw [hp.exact, hperm.mem_iff]

/-- **The leaves of the pool's tree are unique and the commitment set has
exactly them if and only if no transfer and no withdrawal took effect.** -/
theorem commitmentsUnique_iff {w₀ : World X} (hdeployed : Deployed E w₀)
    {c : CallStack.Config (World X) (CallStack.Receipt Call Cont Event) Cont}
    (hreach : CallStack.Reachable (machine E) (fun _ _ => True) w₀ c) :
    MerkleTree.Represents E.hash c.now.state.pool.tree (leavesOf c.now.trace)
      ∧ (CommitmentsUnique c.now ↔ outputsOf c.now.trace = []) := by
  have honce := (deposits_invariant E).holds (DepositedOnce.init hdeployed) hreach
  exact ⟨represents_of_reachable hdeployed hreach, honce.unique_iff⟩

/-- A run of one deposit. -/
theorem commitmentsUnique_iff_deposit :
    ∃ c, CallStack.Reachable (machine infinityPool) (fun _ _ => True) infinityWorld c
      ∧ leavesOf c.now.trace = [7] ∧ outputsOf c.now.trace = []
      ∧ CommitmentsUnique c.now := by
  have hrep₀ : MerkleTree.Represents infinityPool.hash infinityWorld.pool.tree [] :=
    MerkleTree.fresh_represents _
  obtain ⟨tree, hins, -⟩ :=
    MerkleTree.insert_represents infinityPool.hash hrep₀ (by decide) 7
  let call : Call := ⟨⟨1, 10, by decide⟩, .deposit 7 10⟩
  have heff : Effect infinityPool call.msg (credit call.msg infinityWorld) call.entry
      _ _ none := .deposit rfl (by decide) rfl rfl nofun hins rfl
  have henter := (enter_eq_ok (c := call)).mpr ⟨nofun, heff⟩
  have hreach : CallStack.Reachable (machine infinityPool) (fun _ _ => True)
      infinityWorld _ := .tail .refl (.call trivial henter)
  exact ⟨_, hreach, rfl, rfl,
    (commitmentsUnique_iff ⟨1, 0, 3, 4, 5, 0, rfl⟩ hreach).2.mpr rfl⟩

/-- **Outputs that are leaves twice, and are not in the set.** Two transfers
have the same outputs. -/
theorem exists_repeated_leaf :
    ∃ c, Deployed infinityPool infinityWorld
      ∧ CallStack.Reachable (machine infinityPool) (fun _ _ => True) infinityWorld c
      ∧ leavesOf c.now.trace = [3, 4, 3, 4]
      ∧ c.now.state.pool.commitmentExists 3 = false
      ∧ ¬ CommitmentsUnique c.now := by
  obtain ⟨tree, evs, hrep, henter⟩ := exists_infinityTransfer
  -- the second transfer spends other nullifiers for the same outputs
  have fresh : Fresh (laterWorld tree (spent infinityWorld.pool (1, 2)).nullifierSpent).pool
      (5, 6) := ⟨rfl, rfl, by decide⟩
  have outputs_ok : validateOutputCommitments (3, 4) = .ok () := rfl
  obtain ⟨tree', -, henter'⟩ := enter_infinityTransfer hrep (by decide) fresh outputs_ok
    (infinityPool_verifies _ _ _ _ _)
  refine ⟨_, ⟨1, 0, 3, 4, 5, 0, rfl⟩,
    .tail (.tail .refl (.call trivial henter)) (.call trivial henter'), rfl, rfl,
    fun h => ?_⟩
  have hnodup : [(3 : Bytes32), 4, 3, 4].Nodup := h.nodup
  exact absurd hnodup (by decide)

end PrivacyPool
