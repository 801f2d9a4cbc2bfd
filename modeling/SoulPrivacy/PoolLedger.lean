import SoulPrivacy.NullifierCanonicality
import SoulPrivacy.PoolTree
import SoulPrivacy.ShieldedPool

/-!
# The privacy pool keeps a ledger

A payee that is paid may call the pool again before it returns, and any frame may revert, so
what a run of the pool comes to is its trace at a point and not the sequence of its calls.
`withdraw` has written all it writes before it pays. So each receipt of the trace is one
operation of a ledger or none, at every point (`keepsLedger_of_reachable`).

A reveal brings in the value of its commit, which the rules of the ledger want to be
positive. The contract does not check it then; it is so because a commit without value was
rejected (`Matches.commits`).
-/

namespace PrivacyPool

open ShieldedPool (Rules Ledger Op Allowed AllowedAll Execution View Shows Keeps Accounted)

/-- **The rules of the pool** with a hash function. -/
def rules (hash : Uint256 → Uint256 → Uint256) : Rules Bytes32 Bytes32 where
  rootOf := MerkleTree.treeRoot hash
  Admissible root := root ≠ 0
  window := MerkleTree.ROOT_HISTORY_SIZE
  capacity := 2 ^ MerkleTree.DEPTH

/-- What a call does, if it goes through with these events. The value of a reveal is not
among its arguments. -/
def Entry.ops (evs : List Event) : Entry → List (Op Bytes32 Bytes32 Bytes32)
  | .deposit commitment amount => [.deposit commitment amount.toNat]
  | .revealDeposit commitment _ => [.deposit commitment (evs.map Event.credits).sum]
  | .transfer _ merkleRoot nullifiers outputs _ _ =>
    [.spend merkleRoot [nullifiers.1, nullifiers.2] [outputs.1, outputs.2] 0]
  | .withdraw _ merkleRoot nullifiers outputs _ exitValue =>
    [.spend merkleRoot [nullifiers.1, nullifiers.2] [outputs.1, outputs.2] exitValue.toNat]
  | _ => []

/-- A reveal brings in what its `Deposit` event says. -/
theorem Entry.ops_revealDeposit (commitment salt : Bytes32) (value : Uint256) (index now : ℕ) :
    (Entry.revealDeposit commitment salt).ops
        [.depositRevealed commitment value, .deposit commitment index value now]
      = [.deposit commitment value.toNat] := by
  show [Op.deposit commitment (0 + (value.toNat + 0))] = _
  rw [Nat.zero_add, Nat.add_zero]

/-- What a receipt stands for. -/
def receiptOps : CallStack.Receipt Call Cont Event → List (Op Bytes32 Bytes32 Bytes32)
  | .entered c evs => c.entry.ops evs
  | .resumed _ _ => []

/-- **What happened in a trace.** -/
def opsOf (trace : List (CallStack.Receipt Call Cont Event)) :
    List (Op Bytes32 Bytes32 Bytes32) :=
  trace.flatMap receiptOps

/-- What the views show. -/
def view (pool : Storage) : View Bytes32 Bytes32 where
  latestRoot := MerkleTree.getLatestRoot pool.tree
  isKnownRoot := MerkleTree.isKnownRoot pool.tree
  isSpent := pool.nullifierSpent
  balance := pool.poolBalance.toNat
  nextLeafIndex := pool.tree.nextLeafIndex

variable {X : Type} {E : Interfaces X}

/-- **The storage is that of a ledger.** A commit that somebody made has a value. -/
structure Matches (hash : Uint256 → Uint256 → Uint256) (l : Ledger Bytes32 Bytes32)
    (pool : Storage) : Prop where
  tree : MerkleTree.Represents hash pool.tree l.leaves
  spent : ∀ n, pool.nullifierSpent n = true ↔ n ∈ l.spent
  balance : pool.poolBalance.toNat = l.balance
  commits : ∀ h, (pool.pendingCommits h).depositor ≠ 0 → (pool.pendingCommits h).value ≠ 0

theorem Matches.shows {hash : Uint256 → Uint256 → Uint256} {l : Ledger Bytes32 Bytes32}
    {pool : Storage} (h : Matches hash l pool) : Shows (rules hash) l (view pool) where
  latestRoot := h.tree.getLatestRoot_eq
  isKnownRoot := h.tree.isKnownRoot_iff hash
  isSpent := h.spent
  balance := h.balance
  nextLeafIndex := h.tree.nextLeafIndex_eq

/-- A leaf that was inserted had room. -/
theorem Matches.room {hash : Uint256 → Uint256 → Uint256} {l : Ledger Bytes32 Bytes32}
    {tree tree' : MerkleTree.TreeData} {leaf root : Uint256} {index : ℕ}
    (hrep : MerkleTree.Represents hash tree l.leaves)
    (hins : MerkleTree.insert hash tree leaf = .ok (tree', index, root)) :
    l.leaves.length < 2 ^ MerkleTree.DEPTH := by
  by_contra hfull
  rw [MerkleTree.insert_full hash hrep (not_lt.mp hfull)] at hins
  cases hins

/-- **A spend that goes through is allowed.** -/
theorem Matches.allowed_spend {l : Ledger Bytes32 Bytes32} {w : World X}
    (h : Matches E.hash l w.pool) {merkleRoot : Bytes32} {nullifiers outputs : Pair}
    {tree : MerkleTree.TreeData} {newRoot : Uint256} {exit : ℕ}
    (hknown : MerkleTree.isKnownRoot w.pool.tree merkleRoot = true)
    (hfresh : Fresh w.pool nullifiers) (hins : InsertTwo E w.pool.tree tree outputs newRoot)
    (hexit : exit ≤ w.pool.poolBalance.toNat) :
    Allowed (rules E.hash) l
      (.spend merkleRoot [nullifiers.1, nullifiers.2] [outputs.1, outputs.2] exit) := by
  have haccepts : Accepts w.pool (PrivacyPool.spent w.pool nullifiers)
      [nullifiers.1, nullifiers.2] :=
    hfresh.accepts rfl
  refine .spend ((h.tree.isKnownRoot_iff E.hash merkleRoot).mp hknown) haccepts.nodup
    (fun n hn hmem => ?_) ?_ (h.balance ▸ hexit)
  · exact Bool.false_ne_true ((haccepts.new n hn).symm.trans ((h.spent n).mpr hmem))
  · obtain ⟨tree₁, _, _, _, hins₁, hins₂⟩ := hins
    obtain ⟨hrep₁, -, -⟩ := MerkleTree.insert_eq_ok E.hash h.tree hins₁
    have hroom : (l.leaves ++ [outputs.1]).length < 2 ^ MerkleTree.DEPTH := by
      by_contra hfull
      rw [MerkleTree.insert_full E.hash hrep₁ (not_lt.mp hfull)] at hins₂
      cases hins₂
    rw [List.length_append, List.length_singleton] at hroom
    exact hroom

/-- What is spent, listed. -/
theorem Matches.spent_append {l : Ledger Bytes32 Bytes32} {w w' : World X}
    (h : Matches E.hash l w.pool) {msg : Msg} {entry : Entry} {evs : List Event}
    {k : Option Cont} (heff : Effect E msg w entry w' evs k) (n : Bytes32) :
    w'.pool.nullifierSpent n = true ↔ n ∈ l.spent ++ entry.nullifiers := by
  rw [heff.accepts.spent n, List.mem_append]
  exact or_congr_left (h.spent n)

/-- **A commit has a value**, whoever made it. -/
theorem Effect.commits {msg : Msg} {w w' : World X} {entry : Entry} {evs : List Event}
    {k : Option Cont} (heff : Effect E msg w entry w' evs k)
    (h : ∀ h, (w.pool.pendingCommits h).depositor ≠ 0 → (w.pool.pendingCommits h).value ≠ 0)
    (hash : Bytes32) :
    (w'.pool.pendingCommits hash).depositor ≠ 0 → (w'.pool.pendingCommits hash).value ≠ 0 := by
  have hupdate : ∀ (at_ : Bytes32) (record : CommitRecord),
      (record.depositor ≠ 0 → record.value ≠ 0) →
        (Function.update w.pool.pendingCommits at_ record hash).depositor ≠ 0 →
          (Function.update w.pool.pendingCommits at_ record hash).value ≠ 0 := by
    intro at_ record hrecord
    rw [Function.update_apply]
    split
    · exact hrecord
    · exact h hash
  cases heff
  case commitDeposit value_ne _ _ => exact hupdate _ _ (fun _ => value_ne)
  case revealDeposit commitment salt _ _ _ _ _ _ record_eq _ _ _ _ _ _ _ =>
    exact hupdate _ _ (record_eq ▸ h (commitHashOf E commitment salt))
  case reclaimExpiredCommit => exact hupdate _ _ (fun hne => absurd rfl hne)
  all_goals exact h hash

/-- **A call is one operation of the ledger, or none.** -/
theorem Effect.ledger {msg : Msg} {w w' : World X} {entry : Entry} {evs : List Event}
    {k : Option Cont} (heff : Effect E msg w entry w' evs k) {l : Ledger Bytes32 Bytes32}
    (h : Matches E.hash l w.pool) :
    AllowedAll (rules E.hash) l (entry.ops evs)
      ∧ Matches E.hash (l.afterAll (entry.ops evs)) w'.pool := by
  have htree := heff.represents h.tree
  have hspent := h.spent_append heff
  have hcommits := heff.commits h.commits
  -- what is no deposit and no spend leaves leaves, nullifiers and balance alone
  have hsame : entry.leaves = [] → entry.nullifiers = [] → entry.ops evs = [] →
      w'.pool.poolBalance = w.pool.poolBalance →
        AllowedAll (rules E.hash) l (entry.ops evs)
          ∧ Matches E.hash (l.afterAll (entry.ops evs)) w'.pool := by
    intro hleaves hnullifiers hops hbalance
    rw [hleaves, List.append_nil] at htree
    rw [hnullifiers, List.append_nil] at hspent
    rw [hops]
    exact ⟨trivial, htree, hspent, hbalance ▸ h.balance, hcommits⟩
  have hpos : ∀ {value : Uint256}, value ≠ 0 → 0 < value.toNat := fun hne =>
    Nat.pos_of_ne_zero (fun h0 => hne (BitVec.toNat_inj.mp h0))
  cases heff
  case deposit amount_ne _ _ _ ins balance =>
    refine ⟨⟨.deposit (hpos amount_ne) (Matches.room h.tree ins), trivial⟩, htree, hspent, ?_,
      hcommits⟩
    exact (toNat_of_checkedAdd balance).trans (congrArg (· + _) h.balance)
  case revealDeposit commitment salt _ _ _ poolBalance record _ record_eq depositor _ _ _ _ ins
      balance =>
    have hmade : (w.pool.pendingCommits (commitHashOf E commitment salt)).depositor ≠ 0 := by
      rw [record_eq, depositor]
      exact msg.sender_ne_zero
    have hvalue : record.value ≠ 0 := record_eq ▸ h.commits _ hmade
    rw [Entry.ops_revealDeposit]
    refine ⟨⟨.deposit (hpos hvalue) (Matches.room h.tree ins), trivial⟩, htree, hspent, ?_,
      hcommits⟩
    exact (toNat_of_checkedAdd balance).trans (congrArg (· + _) h.balance)
  case transfer known _ _ fresh _ _ ins =>
    exact ⟨⟨h.allowed_spend known fresh ins (Nat.zero_le _), trivial⟩, htree, hspent, h.balance,
      hcommits⟩
  case withdraw exitValue _ _ poolBalance _ _ _ _ known _ _ _ fresh _ _ ins balance =>
    have hbalance := toNat_of_checkedSub balance
    have hexit : exitValue.toNat ≤ w.pool.poolBalance.toNat := hbalance ▸ Nat.le_add_left _ _
    refine ⟨⟨h.allowed_spend known fresh ins hexit, trivial⟩, htree, hspent, ?_, hcommits⟩
    show poolBalance.toNat = l.balance - exitValue.toNat
    rw [← h.balance, ← hbalance, Nat.add_sub_cancel]
  all_goals exact hsame rfl rfl rfl rfl

variable (E) in
/-- **A point of a run at which a ledger is kept.** -/
def LedgerAt (p : Point X) : Prop :=
  ∃ l, Execution (rules E.hash) (opsOf p.trace) l ∧ Matches E.hash l p.state.pool

theorem LedgerAt.init {w : World X} (h : Deployed E w) : LedgerAt E (⟨w, []⟩ : Point X) := by
  obtain ⟨sender, epochManager, chainId, appId, guardian, oracle, hpool⟩ := h
  refine ⟨Ledger.empty, .nil, ?_⟩
  show Matches E.hash Ledger.empty w.pool
  rw [hpool]
  exact ⟨MerkleTree.fresh_represents E.hash,
    fun _ => iff_of_false Bool.false_ne_true List.not_mem_nil, rfl, fun _ hne => absurd rfl hne⟩

theorem LedgerAt.enter {p : Point X} (hp : LedgerAt E p) {c : Call} {w' : World X}
    {evs : List Event} {k : Option Cont} (h : enter E c p.state = .ok (w', evs, k)) :
    LedgerAt E (⟨w', p.trace ++ [.entered c evs]⟩ : Point X) := by
  obtain ⟨l, hexec, hmatches⟩ := hp
  obtain ⟨hallowed, hmatches'⟩ := (enter_effect h).2.ledger (l := l)
    ⟨hmatches.tree, hmatches.spent, hmatches.balance, hmatches.commits⟩
  refine ⟨_, ?_, hmatches'⟩
  dsimp only
  rw [opsOf, List.flatMap_append, List.flatMap_singleton]
  exact hexec.append hallowed

theorem LedgerAt.resume {p : Point X} (hp : LedgerAt E p) {k : Cont} {success : Bool}
    {w' : World X} {evs : List Event} (h : resume k success p.state = .ok (w', evs)) :
    LedgerAt E (⟨w', p.trace ++ [.resumed k evs]⟩ : Point X) := by
  obtain ⟨-, rfl⟩ := resume_eq_ok h
  obtain ⟨l, hexec, hmatches⟩ := hp
  refine ⟨l, ?_, hmatches.tree, hmatches.spent, hmatches.balance, hmatches.commits⟩
  dsimp only
  rw [opsOf, List.flatMap_append, List.flatMap_singleton, receiptOps, List.append_nil]
  exact hexec

variable (E) in
/-- **The pool keeps a ledger at every point**, whatever the payees do. -/
theorem ledger_invariant :
    CallStack.Invariant (machine E) (fun _ _ => True) (fun _ p => LedgerAt E p)
      (fun _ _ p => LedgerAt E p) where
  enter_done hp _ h := hp.enter h
  enter_send hp _ h := hp.enter h
  send hp h := by
    obtain ⟨-, rfl⟩ := send_eq_some h
    exact hp
  resume_true hp h := hp.resume h
  resume_false hp h := hp.resume h
  outside hp h := by
    obtain ⟨l, hexec, hmatches⟩ := hp
    exact ⟨l, hexec, h.2.2.1 ▸ hmatches⟩
  tick hp h := by
    obtain ⟨l, hexec, hmatches⟩ := hp
    exact ⟨l, hexec, h.2.2.1 ▸ hmatches⟩

/-- **The privacy pool keeps a ledger**, at every point of every run, and with it the
promises of a shielded pool. -/
theorem keepsLedger_of_reachable {w₀ : World X} (hdeployed : Deployed E w₀)
    {c : CallStack.Config (World X) (CallStack.Receipt Call Cont Event) Cont}
    (hreach : CallStack.Reachable (machine E) (fun _ _ => True) w₀ c) :
    Keeps (rules E.hash) (opsOf c.now.trace) (view c.now.state.pool)
      ∧ Accounted (rules E.hash) (opsOf c.now.trace) (view c.now.state.pool) := by
  obtain ⟨l, hexec, hmatches⟩ := (ledger_invariant E).holds (LedgerAt.init hdeployed) hreach
  have hkeeps : Keeps (rules E.hash) (opsOf c.now.trace) (view c.now.state.pool) :=
    ⟨l, hexec, hmatches.shows⟩
  exact ⟨hkeeps, hkeeps.accounted⟩

/-- A transfer of the empty pool, under the hash with the point at infinity for a proof. -/
theorem keepsLedger_of_transfer :
    ∃ c, CallStack.Reachable (machine infinityPool) (fun _ _ => True) infinityWorld c
      ∧ opsOf c.now.trace
        = [.spend (MerkleTree.treeRoot infinityPool.hash []) [1, 2] [3, 4] 0]
      ∧ (view c.now.state.pool).isSpent 2 = true
      ∧ (view c.now.state.pool).nextLeafIndex = 2 := by
  obtain ⟨tree, evs, -, henter⟩ := exists_infinityTransfer
  have hreach : CallStack.Reachable (machine infinityPool) (fun _ _ => True) infinityWorld _ :=
    .tail .refl (.call trivial henter)
  obtain ⟨-, haccounted⟩ := keepsLedger_of_reachable ⟨1, 0, 3, 4, 5, 0, rfl⟩ hreach
  refine ⟨_, hreach, rfl, (haccounted.isSpent 2).mpr ?_, haccounted.nextLeafIndex⟩
  exact List.mem_cons_of_mem _ (List.mem_cons_self ..)

end PrivacyPool
