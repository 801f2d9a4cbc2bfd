import Mathlib.Algebra.Order.BigOperators.Group.List
import SoulPrivacy.InkReveal

/-!
# The accounts of the ink! pool

A value that comes with a commit is counted in the balance of the pool at once, and
the reveal counts nothing. A reclaim marks the record and does nothing else. So the
balance of the pool is what was received less what was withdrawn, and it includes
the commits that are pending: it is not the value of the leaves alone
(`exists_pending_counted`).

What a refund would take off the balance is left open here. The balance of the pool
is between what it is if every reclaimed value has left it and what it is if none
has, in every run (`accounted_of_run`).
-/

namespace InkPool

variable {keccak256 : Bytes → Bytes32} {build : Build}

/-! ## The account of the contract -/

/-- **The contract and its account.** -/
structure World where
  contract : State
  balance : ℕ

/-- Who undoes a message: the contract, or the chain for want of funds. -/
inductive Refusal where
  | contract (e : Error)
  | funds

/-- `transfer(recipient, amount)`, out of the account of the contract `self`. -/
def pay (self : AccountId) (balance : ℕ) (payment : Payment) : Except Refusal ℕ := do
  revertIf (balance < payment.amount.toNat) .funds
  if payment.recipient = self then .ok balance else .ok (balance - payment.amount.toNat)

/-- **A message, with the value sent with it and the payments it makes.** No account
holds more than a `Balance` can say. -/
def worldStep (keccak256 : Bytes → Bytes32) (build : Build) (self : AccountId) (c : Call)
    (w : World) : Except Refusal World := do
  let received := w.balance + c.env.transferredValue.toNat
  revertIf (2 ^ 128 ≤ received) .funds
  let (contract, payments) ← (exec keccak256 build c w.contract).mapError .contract
  let balance ← payments.foldlM (pay self) received
  .ok ⟨contract, balance⟩

/-- **The runs of a contract that starts with some balance.** -/
def WorldRun (keccak256 : Bytes → Bytes32) (build : Build) (self : AccountId) (start : ℕ)
    (tr : List (World × Call)) (w : World) : Prop :=
  ∃ env epochDuration, Run (worldStep keccak256 build self) (fun _ _ => True)
    ⟨new env epochDuration, start⟩ tr w

/-! ## The trace as a ledger -/

/-- The hash a message commits a deposit under, … -/
def Message.committed : Message → Option Bytes32
  | .commitDeposit commitHash => some commitHash
  | _ => none

/-- … the hash it reveals a commit of, … -/
def Message.revealed : Message → Option Bytes32
  | .revealDeposit commitHash _ => some commitHash
  | _ => none

/-- … and the hash it reclaims a commit of. -/
def Message.reclaimed : Message → Option Bytes32
  | .reclaimExpiredCommit commitHash => some commitHash
  | _ => none

/-- A commit is revealed in a run, … -/
def revealedIn (tr : List (World × Call)) (commitHash : Bytes32) : Bool :=
  tr.any (fun p => p.2.message.revealed == some commitHash)

/-- … or reclaimed. -/
def reclaimedIn (tr : List (World × Call)) (commitHash : Bytes32) : Bool :=
  tr.any (fun p => p.2.message.reclaimed == some commitHash)

/-- How often a deposit was committed under a hash, … -/
def commits (tr : List (World × Call)) (commitHash : Bytes32) : ℕ :=
  tr.countP (fun p => p.2.message.committed == some commitHash)

/-- … and how often such a commit was revealed or reclaimed. -/
def settlements (tr : List (World × Call)) (commitHash : Bytes32) : ℕ :=
  tr.countP (fun p => p.2.message.revealed == some commitHash
    || p.2.message.reclaimed == some commitHash)

/-- What came with the messages of some kind. -/
def valueOf (kind : Message → Bool) (tr : List (World × Call)) : ℕ :=
  (tr.map (fun p => if kind p.2.message then p.2.env.transferredValue.toNat else 0)).sum

/-- The value of the deposits whose commitment was inserted: at once, or by a
reveal. -/
def insertedValue (tr : List (World × Call)) : ℕ :=
  valueOf (fun
    | .deposit _ => true
    | .commitDeposit commitHash => revealedIn tr commitHash
    | _ => false) tr

/-- The value of the commits that are pending. -/
def pendingValue (tr : List (World × Call)) : ℕ :=
  valueOf (fun
    | .commitDeposit commitHash => !revealedIn tr commitHash && !reclaimedIn tr commitHash
    | _ => false) tr

/-- The value of the commits that were reclaimed. -/
def reclaimedValue (tr : List (World × Call)) : ℕ :=
  valueOf (fun
    | .commitDeposit commitHash => reclaimedIn tr commitHash
    | _ => false) tr

/-- The payments a message makes. -/
def Message.pays : Message → List Payment
  | .withdraw _ _ _ _ recipient amount => [⟨recipient, amount⟩]
  | _ => []

/-- What payments come to. -/
def total (payments : List Payment) : ℕ := (payments.map (fun p => p.amount.toNat)).sum

/-- What was withdrawn. -/
def withdrawn (tr : List (World × Call)) : ℕ :=
  (tr.map (fun p => total p.2.message.pays)).sum

/-- The payments of a call in a state. -/
def paid (keccak256 : Bytes → Bytes32) (build : Build) (c : Call) (s : State) : List Payment :=
  match exec keccak256 build c s with
  | .ok (_, payments) => payments
  | .error _ => []

/-- **The accounts of a run are in order.** The balance of the pool is the value of
the inserted and of the pending deposits less the value withdrawn, up to the value
of what was reclaimed. Each commit is revealed or reclaimed once at most, and in a
reclaim nobody is paid but its depositor. The account covers the balance of the
pool. -/
structure Accounted (keccak256 : Bytes → Bytes32) (build : Build) (tr : List (World × Call))
    (w : World) : Prop where
  counted : insertedValue tr + pendingValue tr ≤ w.contract.poolBalance.toNat + withdrawn tr
  bounded : w.contract.poolBalance.toNat + withdrawn tr
    ≤ insertedValue tr + pendingValue tr + reclaimedValue tr
  once : ∀ commitHash, settlements tr commitHash ≤ commits tr commitHash
    ∧ commits tr commitHash ≤ 1
  refunded : ∀ p ∈ tr, ∀ commitHash, p.2.message = .reclaimExpiredCommit commitHash →
    ∀ payment ∈ paid keccak256 build p.2 p.1.contract, ∃ q ∈ tr,
      q.2.message = .commitDeposit commitHash ∧ q.2.env.caller = payment.recipient
  covered : w.contract.poolBalance.toNat ≤ w.balance

/-! ## Sums along the trace -/

/-- What came with all messages. -/
def received (tr : List (World × Call)) : ℕ :=
  (tr.map (fun p => p.2.env.transferredValue.toNat)).sum

theorem received_snoc (tr : List (World × Call)) (w : World) (c : Call) :
    received (tr ++ [(w, c)]) = received tr + c.env.transferredValue.toNat := by
  simp [received]

theorem withdrawn_snoc (tr : List (World × Call)) (w : World) (c : Call) :
    withdrawn (tr ++ [(w, c)]) = withdrawn tr + total c.message.pays := by
  simp [withdrawn]

/-- Kinds that exclude each other come to no more than everything. -/
theorem valueOf_add_le {kind kind' : Message → Bool} (tr : List (World × Call))
    (h : ∀ m, kind m = true → kind' m = false) :
    valueOf kind tr + valueOf kind' tr ≤ received tr := by
  unfold valueOf received
  rw [← List.sum_map_add]
  refine List.sum_le_sum (fun p _ => ?_)
  by_cases hkind : kind p.2.message = true
  · rw [if_pos hkind, h _ hkind, if_neg Bool.false_ne_true, Nat.add_zero]
  · rw [if_neg hkind, Nat.zero_add]
    split
    · exact le_rfl
    · exact Nat.zero_le _

/-- Kinds that together have every message with a value come to everything. -/
theorem received_le {kind kind' kind'' : Message → Bool} {tr : List (World × Call)}
    (h : ∀ p ∈ tr, p.2.env.transferredValue ≠ 0 →
      kind p.2.message = true ∨ kind' p.2.message = true ∨ kind'' p.2.message = true) :
    received tr ≤ valueOf kind tr + valueOf kind' tr + valueOf kind'' tr := by
  unfold valueOf received
  rw [← List.sum_map_add, ← List.sum_map_add]
  refine List.sum_le_sum (fun p hp => ?_)
  by_cases hvalue : p.2.env.transferredValue = 0
  · rw [hvalue]
    exact Nat.zero_le _
  · rcases h p hp hvalue with hkind | hkind | hkind <;> rw [if_pos hkind] <;> omega

/-! ## One call -/

/-- **The payments of a call** are those of its message. -/
theorem Effect.payments_eq {c : Call} {s s' : State} {payments : List Payment}
    (h : Effect keccak256 build s c s' payments) : payments = c.message.pays := by
  cases h <;> rfl

/-- A value comes with a deposit and with a commit only. -/
theorem Effect.unpaid {c : Call} {s s' : State} {payments : List Payment}
    (h : Effect keccak256 build s c s' payments) (hpayable : c.message.payable = false) :
    c.env.transferredValue = 0 := by
  cases h with
  | deposit => cases hpayable
  | commitDeposit => cases hpayable
  | _ => assumption

/-- **The balance of the pool** changes by the value that comes with a call and by
what the call pays. -/
theorem Effect.poolBalance_eq {c : Call} {s s' : State} {payments : List Payment}
    (h : Effect keccak256 build s c s' payments)
    (hfits : s.poolBalance.toNat + c.env.transferredValue.toNat < 2 ^ 128) :
    s'.poolBalance.toNat + total c.message.pays
      = s.poolBalance.toNat + c.env.transferredValue.toNat := by
  have hadd : (s.poolBalance + c.env.transferredValue).toNat
      = s.poolBalance.toNat + c.env.transferredValue.toNat := by
    rw [BitVec.toNat_add, Nat.mod_eq_of_lt hfits]
  have hkept : c.env.transferredValue = 0 → ∀ {b : Balance}, b = s.poolBalance →
      b.toNat + 0 = s.poolBalance.toNat + c.env.transferredValue.toNat := by
    rintro hvalue _ rfl
    rw [hvalue]
    rfl
  have hspend : ∀ nullifiers outputs,
      (afterSpend keccak256 s nullifiers outputs).poolBalance = s.poolBalance :=
    afterSpend_keeps (fun _ _ => rfl) (fun _ _ => rfl) s
  cases h with
  | deposit _ _ _ _ _ => exact hadd
  | commitDeposit _ _ _ _ => exact hadd
  | @transfer env proof merkleRoot nullifiers outputs unpaid _ _ =>
    exact hkept unpaid (hspend nullifiers outputs)
  | @withdraw env proof merkleRoot nullifiers outputs recipient amount unpaid _ _ balance _ =>
    show (s.poolBalance - amount).toNat + (amount.toNat + 0) = _
    rw [BitVec.toNat_sub_of_le balance, Nat.add_zero, Nat.sub_add_cancel balance, unpaid]
    rfl
  | finalizeEpoch unpaid _ => exact hkept unpaid rfl
  | syncRemoteRoot unpaid _ => exact hkept unpaid rfl
  | revealDeposit unpaid _ _ _ _ => exact hkept unpaid rfl
  | reclaimExpiredCommit unpaid _ _ _ => exact hkept unpaid rfl
  | pause unpaid _ => exact hkept unpaid rfl
  | unpause unpaid _ => exact hkept unpaid rfl
  | transferGovernance unpaid _ _ => exact hkept unpaid rfl

/-- **A reclaim pays nobody.** -/
theorem paid_reclaim {c : Call} {commitHash : Bytes32}
    (hc : c.message = .reclaimExpiredCommit commitHash) (s : State) :
    paid keccak256 build c s = [] := by
  unfold paid
  cases hexec : exec keccak256 build c s with
  | error e => rfl
  | ok r =>
    have hpays := (exec_effect hexec).payments_eq
    rw [hc] at hpays
    exact hpays

/-! ## Records of commits -/

/-- A record is there, … -/
def committedIn (s : State) (commitHash : Bytes32) : ℕ :=
  (s.pendingCommits commitHash).elim 0 (fun _ => 1)

/-- … and is marked as revealed. -/
def settledIn (s : State) (commitHash : Bytes32) : ℕ :=
  (s.pendingCommits commitHash).elim 0 (fun record => record.revealed.toNat)

theorem settledIn_le (s : State) (commitHash : Bytes32) :
    settledIn s commitHash ≤ committedIn s commitHash := by
  unfold settledIn committedIn
  cases s.pendingCommits commitHash with
  | none => exact le_rfl
  | some record => exact Bool.toNat_le record.revealed

theorem committedIn_le (s : State) (commitHash : Bytes32) : committedIn s commitHash ≤ 1 := by
  unfold committedIn
  cases s.pendingCommits commitHash with
  | none => exact Nat.zero_le 1
  | some record => exact le_rfl

/-- **What a call does to the record of a hash**: a commit makes it, and a reveal or
a reclaim marks it. Each does so for the first time. -/
structure Counts (c : Call) (s s' : State) (commitHash : Bytes32) : Prop where
  committed : committedIn s' commitHash = committedIn s commitHash
    + (c.message.committed == some commitHash).toNat
  settled : settledIn s' commitHash = settledIn s commitHash
    + (c.message.revealed == some commitHash || c.message.reclaimed == some commitHash).toNat

/-- A call of another kind leaves all records as they are. -/
theorem Counts.of_eq {c : Call} {s s' : State} {commitHash : Bytes32}
    (h : s'.pendingCommits = s.pendingCommits) (hc : c.message.committed = none)
    (hr : c.message.revealed = none) (hr' : c.message.reclaimed = none) :
    Counts c s s' commitHash := by
  constructor
  · unfold committedIn
    rw [h, hc]
    rfl
  · unfold settledIn
    rw [h, hr, hr']
    rfl

/-- What making a record does. -/
theorem counts_committed {s s' : State} {commitHash : Bytes32} {record : CommitRecord}
    (habsent : s.pendingCommits commitHash = none) (hrecord : record.revealed = false)
    (hs' : s'.pendingCommits = Function.update s.pendingCommits commitHash (some record))
    (commitHash' : Bytes32) :
    committedIn s' commitHash' = committedIn s commitHash' + (commitHash == commitHash').toNat
      ∧ settledIn s' commitHash' = settledIn s commitHash' := by
  unfold committedIn settledIn
  rw [hs']
  by_cases heq : commitHash' = commitHash
  · subst heq
    rw [Function.update_self, habsent, beq_self_eq_true]
    exact ⟨rfl, congrArg Bool.toNat hrecord⟩
  · rw [Function.update_of_ne heq, beq_eq_false_iff_ne.mpr (Ne.symm heq)]
    exact ⟨rfl, rfl⟩

/-- What marking a record does. -/
theorem counts_settled {s : State} {commitHash : Bytes32} {record : CommitRecord}
    (hfound : s.pendingCommits commitHash = some record) (hrecord : record.revealed = false)
    (commitHash' : Bytes32) :
    committedIn (settled s commitHash record) commitHash' = committedIn s commitHash'
      ∧ settledIn (settled s commitHash record) commitHash'
        = settledIn s commitHash' + (commitHash == commitHash').toNat := by
  unfold committedIn settledIn settled
  dsimp only
  by_cases heq : commitHash' = commitHash
  · subst heq
    rw [Function.update_self, hfound, beq_self_eq_true]
    exact ⟨rfl, congrArg (·.toNat + 1) hrecord.symm⟩
  · rw [Function.update_of_ne heq, beq_eq_false_iff_ne.mpr (Ne.symm heq)]
    exact ⟨rfl, rfl⟩

theorem Effect.counts {c : Call} {s s' : State} {payments : List Payment}
    (h : Effect keccak256 build s c s' payments) (commitHash : Bytes32) :
    Counts c s s' commitHash := by
  have hspend : ∀ nullifiers outputs,
      (afterSpend keccak256 s nullifiers outputs).pendingCommits = s.pendingCommits :=
    pendingCommits_afterSpend s
  cases h with
  | @transfer env proof merkleRoot nullifiers outputs _ _ _ =>
    exact Counts.of_eq (hspend nullifiers outputs) rfl rfl rfl
  | @withdraw env proof merkleRoot nullifiers outputs recipient amount _ _ _ _ _ =>
    exact Counts.of_eq (hspend nullifiers outputs) rfl rfl rfl
  | @commitDeposit env commitHash' _ absent _ _ =>
    exact ⟨(counts_committed absent rfl rfl commitHash).1,
      (counts_committed absent rfl rfl commitHash).2⟩
  | @revealDeposit env commitHash' commitment record _ isOpen _ _ _ =>
    obtain ⟨hcommitted, hsettled⟩ :=
      counts_settled isOpen.found isOpen.unrevealed commitHash
    refine ⟨hcommitted, hsettled.trans ?_⟩
    show _ = _ + (commitHash' == commitHash || false).toNat
    rw [Bool.or_false]
  | @reclaimExpiredCommit env commitHash' record _ found unrevealed _ =>
    exact ⟨(counts_settled found unrevealed commitHash).1,
      (counts_settled found unrevealed commitHash).2⟩
  | _ => exact Counts.of_eq rfl rfl rfl rfl

/-! ## Runs -/

/-- The account loses no more by payments than what they come to. -/
theorem le_of_pay {self : AccountId} {payments : List Payment} {balance balance' : ℕ}
    (h : payments.foldlM (pay self) balance = .ok balance') :
    balance ≤ balance' + total payments := by
  induction payments generalizing balance with
  | nil =>
    cases h
    exact le_rfl
  | cons payment payments ih =>
    rw [List.foldlM_cons, Except.bind_eq_ok] at h
    obtain ⟨middle, hpay, hrest⟩ := h
    have hmiddle : balance ≤ middle + payment.amount.toNat := by
      unfold pay at hpay
      rw [revertIf_bind_eq_ok, not_lt] at hpay
      obtain ⟨hcovered, hpay⟩ := hpay
      split at hpay
      · cases hpay
        exact Nat.le_add_right _ _
      · cases hpay
        exact (Nat.sub_add_cancel hcovered).ge
    have hrest := ih hrest
    unfold total at hrest ⊢
    rw [List.map_cons, List.sum_cons]
    omega

/-- The parts of a message that goes through. -/
theorem exists_of_worldStep {self : AccountId} {c : Call} {w w' : World}
    (h : worldStep keccak256 build self c w = .ok w') :
    (∃ payments, Effect keccak256 build w.contract c w'.contract payments)
      ∧ w.balance + c.env.transferredValue.toNat < 2 ^ 128
      ∧ w.balance + c.env.transferredValue.toNat ≤ w'.balance + total c.message.pays := by
  unfold worldStep at h
  obtain ⟨hfits, h⟩ := (revertIf_bind_eq_ok _ _ _ _).mp h
  obtain ⟨⟨contract, payments⟩, hexec, h⟩ := (Except.bind_eq_ok _ _ _).mp h
  obtain ⟨balance, hpaid, h⟩ := (Except.bind_eq_ok _ _ _).mp h
  cases h
  have heffect := exec_effect (Except.mapError_eq_ok.mp hexec)
  refine ⟨⟨payments, heffect⟩, not_le.mp hfits, ?_⟩
  rw [← heffect.payments_eq]
  exact le_of_pay hpaid

/-- **What holds in every state of a run**: the balance of the pool is what was
received less what was withdrawn, the account covers it, and the records are those
of the commits, reveals and reclaims that were made. -/
structure Books (tr : List (World × Call)) (w : World) : Prop where
  balanced : w.contract.poolBalance.toNat + withdrawn tr = received tr
  covered : w.contract.poolBalance.toNat ≤ w.balance
  commits_eq : ∀ commitHash, commits tr commitHash = committedIn w.contract commitHash
  settlements_eq : ∀ commitHash, settlements tr commitHash = settledIn w.contract commitHash
  unpaid : ∀ p ∈ tr, p.2.message.payable = false → p.2.env.transferredValue = 0

theorem books_new (env : Env) (epochDuration : BitVec 32) (start : ℕ) :
    Books [] ⟨new env epochDuration, start⟩ :=
  ⟨rfl, Nat.zero_le _, fun _ => rfl, fun _ => rfl, fun _ h => absurd h List.not_mem_nil⟩

/-- **One call keeps the books.** -/
theorem Books.step {self : AccountId} {tr : List (World × Call)} {w w' : World} {c : Call}
    (hb : Books tr w) (h : worldStep keccak256 build self c w = .ok w') :
    Books (tr ++ [(w, c)]) w' := by
  obtain ⟨⟨payments, heffect⟩, hfits, hpaid⟩ := exists_of_worldStep h
  have hcovered := hb.covered
  -- the account has room for the value, and the balance of the pool is no more
  have hpool := heffect.poolBalance_eq (lt_of_le_of_lt (by omega) hfits)
  refine ⟨?_, by omega, fun commitHash => ?_, fun commitHash => ?_, ?_⟩
  · rw [withdrawn_snoc, received_snoc, ← hb.balanced]
    omega
  · unfold commits
    rw [List.countP_append, (heffect.counts commitHash).committed, ← hb.commits_eq commitHash]
    rfl
  · unfold settlements
    rw [List.countP_append, (heffect.counts commitHash).settled,
      ← hb.settlements_eq commitHash]
    rfl
  · rw [List.forall_mem_append, List.forall_mem_singleton]
    exact ⟨hb.unpaid, heffect.unpaid⟩

theorem books_of_run {self : AccountId} {start : ℕ} {tr : List (World × Call)} {w : World}
    (h : WorldRun keccak256 build self start tr w) : Books tr w := by
  obtain ⟨env, epochDuration, hrun⟩ := h
  exact hrun.invariant (I := Books) (books_new env epochDuration start)
    (fun _ _ _ _ hb _ hstep => hb.step hstep)

/-! ## The accounts are in order -/

/-- The value of inserted and pending deposits was received. -/
theorem insertedValue_add_pendingValue_le (tr : List (World × Call)) :
    insertedValue tr + pendingValue tr ≤ received tr := by
  refine valueOf_add_le tr (fun m hm => ?_)
  cases m with
  | commitDeposit commitHash =>
    change revealedIn tr commitHash = true at hm
    show (!revealedIn tr commitHash && !reclaimedIn tr commitHash) = false
    rw [hm]
    rfl
  | _ => rfl

/-- **What was received** with deposits and commits is the value of inserted, pending
and reclaimed ones. -/
theorem received_le_of_unpaid {tr : List (World × Call)}
    (h : ∀ p ∈ tr, p.2.message.payable = false → p.2.env.transferredValue = 0) :
    received tr ≤ insertedValue tr + pendingValue tr + reclaimedValue tr := by
  refine received_le (fun p hp hvalue => ?_)
  have hpayable : p.2.message.payable ≠ false := fun hfalse => hvalue (h p hp hfalse)
  cases hmessage : p.2.message with
  | deposit commitment => exact Or.inl rfl
  | commitDeposit commitHash =>
    show revealedIn tr commitHash = true
      ∨ (!revealedIn tr commitHash && !reclaimedIn tr commitHash) = true
      ∨ reclaimedIn tr commitHash = true
    cases revealedIn tr commitHash <;> cases reclaimedIn tr commitHash <;> decide
  | _ =>
    rw [hmessage] at hpayable
    exact absurd rfl hpayable

/-- **The accounts are in order in every run**, for both ways to compile the
contract. -/
theorem accounted_of_run {self : AccountId} {start : ℕ} {tr : List (World × Call)} {w : World}
    (h : WorldRun keccak256 build self start tr w) : Accounted keccak256 build tr w := by
  have hb := books_of_run h
  refine ⟨?_, ?_, fun commitHash => ?_, ?_, hb.covered⟩
  · rw [hb.balanced]
    exact insertedValue_add_pendingValue_le tr
  · rw [hb.balanced]
    exact received_le_of_unpaid hb.unpaid
  · rw [hb.settlements_eq, hb.commits_eq]
    exact ⟨settledIn_le w.contract commitHash, committedIn_le w.contract commitHash⟩
  · intro p _ commitHash hmessage payment hpayment
    rw [paid_reclaim hmessage] at hpayment
    exact absurd hpayment List.not_mem_nil

/-! ## A commit that is pending -/

/-- The contract and its account before the commit … -/
def newWorld : World := ⟨new ⟨1, 0, 0, true⟩ 10, 0⟩

/-- … and after it. -/
def committedWorld : World := ⟨committedPool, 100⟩

theorem worldRun_committedWorld (keccak256 : Bytes → Bytes32) (build : Build)
    (self : AccountId) :
    WorldRun keccak256 build self 0 [(newWorld, commitCall)] committedWorld := by
  have hexec : exec keccak256 build commitCall newWorld.contract = .ok (committedPool, []) := by
    cases build <;> rfl
  have hstep : worldStep keccak256 build self commitCall newWorld = .ok committedWorld := by
    unfold worldStep
    rw [hexec]
    rfl
  exact ⟨_, _, Run.nil.snoc trivial hstep⟩

/-- The accounts are in order after a commit. -/
theorem accounted_of_run_commit :
    Accounted (fun _ => 1) .checked [(newWorld, commitCall)] committedWorld :=
  accounted_of_run (worldRun_committedWorld (fun _ => 1) .checked 3)

/-- **A pending commit is counted in the balance of the pool**: nothing is inserted
yet, and the account does not cover the balance and the commit. -/
theorem exists_pending_counted : committedPool.poolBalance = 100 ∧ ∀ keccak256 build self,
    WorldRun keccak256 build self 0 [(newWorld, commitCall)] committedWorld
      ∧ insertedValue [(newWorld, commitCall)] = 0
      ∧ committedWorld.contract.poolBalance.toNat + withdrawn [(newWorld, commitCall)]
        ≠ insertedValue [(newWorld, commitCall)]
      ∧ committedWorld.balance < committedWorld.contract.poolBalance.toNat
        + pendingValue [(newWorld, commitCall)] := by
  refine ⟨rfl, fun keccak256 build self =>
    ⟨worldRun_committedWorld keccak256 build self, rfl, ?_, ?_⟩⟩
  · show 100 ≠ 0
    omega
  · show 100 < 100 + 100
    omega

end InkPool
