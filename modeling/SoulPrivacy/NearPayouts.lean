import Mathlib.Algebra.BigOperators.Group.List.Basic
import SoulPrivacy.NearEffect

/-!
# The payouts of the NEAR pool

A transfer that a method asks for is not made in its call. It becomes a receipt
that is processed later, with other calls and receipts before it, and it may
fail – because there is no such account, say. The host then gives the amount back
to the contract, which is not told: `withdraw` has taken the amount off the
records and marked the nullifiers, and nothing undoes it.

So when all receipts are processed, the records are what was deposited and not
paid out exactly when no payout has failed (`payoutsKept_iff`). What failed stays
in the account of the contract, recorded nowhere.
-/

namespace NearPool

open HexProof (Spend fourCalls)

variable {AccountId : Type} {keccak256 : Bytes → Bytes32}

/-! ## Receipts -/

/-- **A transfer on its way**, with the nullifiers of the withdrawal that asked
for it. -/
structure Receipt (AccountId : Type) where
  promise : Promise AccountId
  nullifiers : List String
  deriving DecidableEq

/-- **The contract, its account, and the receipts on their way.** -/
structure World (AccountId : Type) where
  pool : State AccountId
  balance : ℕ
  inFlight : List (Receipt AccountId)

/-- What happens: a method is called, or a receipt is processed. -/
inductive Event (AccountId : Type) where
  | call (c : Call AccountId)
  | processed (r : Receipt AccountId) (succeeded : Bool)

/-- Why it does not: the method panics, the account cannot pay, or there is no
such receipt. -/
inductive Refusal where
  | panicked (e : Error)
  | balanceExceeded
  | noSuchReceipt

/-- The nullifiers a method spends. -/
def Method.spends : Method AccountId → List String
  | .transfer _ _ nullifiers _ => nullifiers
  | .withdraw _ _ nullifiers _ _ _ => nullifiers
  | _ => []

/-- What receipts come to. -/
def total (rs : List (Receipt AccountId)) : ℕ := (rs.map (fun r => r.promise.amount.toNat)).sum

/-- The receipts a call leaves. -/
def receiptsOf (c : Call AccountId) (promises : List (Promise AccountId)) :
    List (Receipt AccountId) :=
  promises.map (fun p => ⟨p, c.method.spends⟩)

variable [DecidableEq AccountId]

/-- **A call**: what is attached comes to the account, and what is asked for
leaves it. -/
def worldCall (keccak256 : Bytes → Bytes32) (c : Call AccountId) (w : World AccountId) :
    Except Refusal (World AccountId) := do
  let (pool, promises) ← (exec keccak256 c.ctx c.method w.pool).mapError .panicked
  let attached := w.balance + c.ctx.attachedDeposit.toNat
  revertIf (attached < total (receiptsOf c promises)) .balanceExceeded
  .ok ⟨pool, attached - total (receiptsOf c promises), w.inFlight ++ receiptsOf c promises⟩

/-- **A receipt**: if the transfer fails, its amount comes back to the account. -/
def worldProcessed (r : Receipt AccountId) (succeeded : Bool) (w : World AccountId) :
    Except Refusal (World AccountId) := do
  revertIf (r ∉ w.inFlight) .noSuchReceipt
  let refund := if succeeded then 0 else r.promise.amount.toNat
  .ok { w with balance := w.balance + refund, inFlight := w.inFlight.erase r }

/-- A step of the contract and its receipts. -/
def worldStep (keccak256 : Bytes → Bytes32) (e : Event AccountId) (w : World AccountId) :
    Except Refusal (World AccountId) :=
  match e with
  | .call c => worldCall keccak256 c w
  | .processed r succeeded => worldProcessed r succeeded w

/-- **The runs of a contract that starts with some balance**, receipts in any
order and with any outcome. -/
def WorldRun (keccak256 : Bytes → Bytes32) (start : ℕ)
    (tr : List (World AccountId × Event AccountId)) (w : World AccountId) : Prop :=
  ∃ governance domainChainId domainAppId blockHeight,
    Run (worldStep keccak256) (fun _ _ => True)
      ⟨new keccak256 governance domainChainId domainAppId blockHeight, start, []⟩ tr w

/-! ## The trace as a ledger -/

/-- What an event deposits, … -/
def Event.deposits : Event AccountId → ℕ
  | .call ⟨ctx, .deposit _⟩ => ctx.attachedDeposit.toNat
  | _ => 0

/-- … what it pays out, … -/
def Event.pays : Event AccountId → ℕ
  | .processed r true => r.promise.amount.toNat
  | _ => 0

/-- … and the payout that fails in it, if one does. -/
def Event.fails : Event AccountId → List (Receipt AccountId)
  | .processed r false => [r]
  | _ => []

/-- **What was deposited in a run**, … -/
def deposited (tr : List (World AccountId × Event AccountId)) : ℕ :=
  (tr.map (fun p => p.2.deposits)).sum

/-- **… what was actually paid out**, … -/
def paidOut (tr : List (World AccountId × Event AccountId)) : ℕ :=
  (tr.map (fun p => p.2.pays)).sum

/-- **… and the payouts that failed.** -/
def failed (tr : List (World AccountId × Event AccountId)) : List (Receipt AccountId) :=
  tr.flatMap (fun p => p.2.fails)

/-- **No payout is lost**: what the pool records is what was deposited and not
paid out, and the nullifiers of a withdrawal whose payout failed can be spent
again. -/
structure PayoutsKept (tr : List (World AccountId × Event AccountId)) (w : World AccountId) :
    Prop where
  balance : w.pool.poolBalance.toNat + paidOut tr = deposited tr
  spendable : ∀ r ∈ failed tr, ∀ n ∈ r.nullifiers, w.pool.nullifierSpent n = false

section Ledger

omit [DecidableEq AccountId]

theorem deposited_snoc (tr : List (World AccountId × Event AccountId))
    (p : World AccountId × Event AccountId) :
    deposited (tr ++ [p]) = deposited tr + p.2.deposits := by simp [deposited]

theorem paidOut_snoc (tr : List (World AccountId × Event AccountId))
    (p : World AccountId × Event AccountId) :
    paidOut (tr ++ [p]) = paidOut tr + p.2.pays := by simp [paidOut]

theorem failed_snoc (tr : List (World AccountId × Event AccountId))
    (p : World AccountId × Event AccountId) :
    failed (tr ++ [p]) = failed tr ++ p.2.fails := by simp [failed]

theorem total_append (rs rs' : List (Receipt AccountId)) :
    total (rs ++ rs') = total rs + total rs' := by simp [total]

theorem total_singleton (r : Receipt AccountId) : total [r] = r.promise.amount.toNat := by
  simp [total]

theorem total_pos {rs : List (Receipt AccountId)} (hne : rs ≠ [])
    (hpos : ∀ r ∈ rs, r.promise.amount ≠ 0) : 0 < total rs := by
  obtain ⟨r, rest, rfl⟩ := List.exists_cons_of_ne_nil hne
  have hr : r.promise.amount.toNat ≠ 0 := fun h =>
    hpos r (List.mem_cons_self ..) (BitVec.eq_of_toNat_eq h)
  unfold total
  rw [List.map_cons, List.sum_cons]
  omega

end Ledger

theorem total_erase {rs : List (Receipt AccountId)} {r : Receipt AccountId} (h : r ∈ rs) :
    r.promise.amount.toNat + total (rs.erase r) = total rs :=
  List.sum_map_erase (fun r => r.promise.amount.toNat) h

/-! ## What a call does to the money -/

/-- **A call records what it deposits, and takes off what it asks for**, which
is not nothing. -/
structure Moves (c : Call AccountId) (w w' : World AccountId)
    (rs : List (Receipt AccountId)) : Prop where
  inFlight : w'.inFlight = w.inFlight ++ rs
  recorded : w'.pool.poolBalance.toNat + total rs
    = w.pool.poolBalance.toNat + (Event.call c).deposits
  held : w'.balance + total rs = w.balance + (Event.call c).deposits
  nonzero : ∀ r ∈ rs, r.promise.amount ≠ 0
  marked : ∀ r ∈ rs, ∀ n ∈ r.nullifiers, w'.pool.nullifierSpent n = true
  kept : ∀ n, w.pool.nullifierSpent n = true → w'.pool.nullifierSpent n = true

omit [DecidableEq AccountId] in
/-- What a spend marks. -/
theorem nullifierSpent_afterSpend (keccak256 : Bytes → Bytes32) (s : State AccountId) (c : Spend)
    (n : String) :
    (afterSpend keccak256 s c).nullifierSpent n = true
      ↔ (s.nullifierSpent n = true ∨ n = c.nullifiers.1) ∨ n = c.nullifiers.2 := by
  rw [← update_true_eq_true, ← update_true_eq_true]
  rfl

omit [DecidableEq AccountId] in
/-- A withdrawal takes what it asks for off the records. -/
theorem toNat_poolBalance_sub {balance exitValue : BitVec 128} (h : exitValue ≤ balance) :
    (balance - exitValue).toNat + exitValue.toNat = balance.toNat := by
  rw [BitVec.toNat_sub_of_le h]
  exact Nat.sub_add_cancel h

omit [DecidableEq AccountId] in
/-- **What is recorded after a call.** -/
theorem Effect.recorded_eq {c : Call AccountId} {s s' : State AccountId}
    {promises : List (Promise AccountId)} (h : Effect keccak256 s c s' promises) :
    s'.poolBalance.toNat + total (receiptsOf c promises)
      = s.poolBalance.toNat + (Event.call c).deposits := by
  cases h with
  | deposit _ _ _ fits =>
    show (s.poolBalance + _).toNat + 0 = _
    rw [BitVec.toNat_add, Nat.mod_eq_of_lt fits]
    rfl
  | withdraw _ _ balance _ => exact toNat_poolBalance_sub balance
  | _ => rfl

omit [DecidableEq AccountId] in
/-- Only a deposit has something attached to it. -/
theorem Effect.attached_eq {c : Call AccountId} {s s' : State AccountId}
    {promises : List (Promise AccountId)} (h : Effect keccak256 s c s' promises) :
    c.ctx.attachedDeposit.toNat = (Event.call c).deposits := by
  cases h with
  | deposit _ _ _ _ => rfl
  | transfer unpaid _ => exact congrArg BitVec.toNat unpaid
  | withdraw unpaid _ _ _ => exact congrArg BitVec.toNat unpaid
  | setAuthorizedRelayer unpaid _ => exact congrArg BitVec.toNat unpaid
  | finalizeEpoch unpaid _ => exact congrArg BitVec.toNat unpaid
  | syncEpochRoot unpaid _ => exact congrArg BitVec.toNat unpaid

omit [DecidableEq AccountId] in
/-- **A call asks for a transfer of something, and has marked the nullifiers it
is made for.** -/
theorem Effect.of_mem_receiptsOf {c : Call AccountId} {s s' : State AccountId}
    {promises : List (Promise AccountId)} (h : Effect keccak256 s c s' promises)
    {r : Receipt AccountId} (hr : r ∈ receiptsOf c promises) :
    r.promise.amount ≠ 0 ∧ ∀ n ∈ r.nullifiers, s'.nullifierSpent n = true := by
  cases h with
  | @withdraw ctx proof c recipient exitValue _ exit_ne _ _ =>
    obtain rfl := List.mem_singleton.mp hr
    refine ⟨exit_ne, fun n hn => (nullifierSpent_afterSpend keccak256 s c n).mpr ?_⟩
    rcases List.mem_pair.mp hn with rfl | rfl
    · exact Or.inl (Or.inr rfl)
    · exact Or.inr rfl
  | _ => exact absurd hr List.not_mem_nil

omit [DecidableEq AccountId] in
/-- A nullifier stays marked. -/
theorem Effect.nullifierSpent_of {c : Call AccountId} {s s' : State AccountId}
    {promises : List (Promise AccountId)} (h : Effect keccak256 s c s' promises) {n : String}
    (hn : s.nullifierSpent n = true) : s'.nullifierSpent n = true := by
  cases h with
  | deposit _ _ _ _ =>
    unfold inserted recorded
    dsimp only
    exact hn
  | transfer _ _ => exact (nullifierSpent_afterSpend keccak256 s _ n).mpr (Or.inl (Or.inl hn))
  | @withdraw ctx proof c recipient exitValue _ _ _ _ =>
    exact (nullifierSpent_afterSpend keccak256 s c n).mpr (Or.inl (Or.inl hn))
  | _ => exact hn

/-- **What a call does to the money.** -/
theorem exists_moves {c : Call AccountId} {w w' : World AccountId}
    (h : worldCall keccak256 c w = .ok w') : ∃ rs, Moves c w w' rs := by
  unfold worldCall at h
  obtain ⟨⟨pool, promises⟩, hexec, h⟩ := (Except.bind_eq_ok _ _ _).mp h
  obtain ⟨hcovered, h⟩ := (revertIf_bind_eq_ok _ _ _ _).mp h
  cases h
  have heffect : Effect keccak256 w.pool c pool promises :=
    exec_effect (Except.mapError_eq_ok.mp hexec)
  refine ⟨receiptsOf c promises, rfl, heffect.recorded_eq, ?_,
    fun r hr => (heffect.of_mem_receiptsOf hr).1, fun r hr => (heffect.of_mem_receiptsOf hr).2,
    fun n hn => heffect.nullifierSpent_of hn⟩
  rw [← heffect.attached_eq]
  exact Nat.sub_add_cancel (not_lt.mp hcovered)

/-- **What a receipt does.** -/
theorem worldProcessed_eq_ok {r : Receipt AccountId} {succeeded : Bool}
    {w w' : World AccountId} (h : worldProcessed r succeeded w = .ok w') :
    r ∈ w.inFlight ∧ { w with
      balance := w.balance + if succeeded then 0 else r.promise.amount.toNat
      inFlight := w.inFlight.erase r } = w' := by
  unfold worldProcessed at h
  obtain ⟨hmem, h⟩ := (revertIf_bind_eq_ok _ _ _ _).mp h
  exact ⟨not_not.mp hmem, Except.ok.inj h⟩

/-! ## Runs -/

/-- **The books of a run.** What was deposited is recorded, paid out, has failed
or is on its way; the account holds what is recorded and what has failed; and
for each transfer asked for, of something, the nullifiers are marked. -/
structure Books (start : ℕ) (tr : List (World AccountId × Event AccountId))
    (w : World AccountId) : Prop where
  deposited : w.pool.poolBalance.toNat + paidOut tr + total (failed tr) + total w.inFlight
    = deposited tr
  held : w.balance = start + w.pool.poolBalance.toNat + total (failed tr)
  nonzero : ∀ r, r ∈ failed tr ∨ r ∈ w.inFlight → r.promise.amount ≠ 0
  marked : ∀ r, r ∈ failed tr ∨ r ∈ w.inFlight →
    ∀ n ∈ r.nullifiers, w.pool.nullifierSpent n = true

omit [DecidableEq AccountId] in
/-- A call keeps the books. -/
theorem Books.call {start : ℕ} {tr : List (World AccountId × Event AccountId)}
    {w w' : World AccountId} {c : Call AccountId} {rs : List (Receipt AccountId)}
    (hbooks : Books start tr w) (h : Moves c w w' rs) :
    Books start (tr ++ [(w, .call c)]) w' := by
  have hfailed : failed (tr ++ [(w, Event.call c)]) = failed tr := by
    rw [failed_snoc]
    exact List.append_nil _
  have hpaid : paidOut (tr ++ [(w, Event.call c)]) = paidOut tr := paidOut_snoc tr _
  -- a receipt is an old one or one of those the call leaves
  have hcases : ∀ r, r ∈ failed (tr ++ [(w, Event.call c)]) ∨ r ∈ w'.inFlight →
      (r ∈ failed tr ∨ r ∈ w.inFlight) ∨ r ∈ rs := by
    intro r hr
    rw [hfailed, h.inFlight, List.mem_append, ← or_assoc] at hr
    exact hr
  refine ⟨?_, ?_, fun r hr => ?_, fun r hr n hn => ?_⟩
  · rw [deposited_snoc, hfailed, hpaid, h.inFlight, total_append]
    have hdeposited := hbooks.deposited
    have hrecorded := h.recorded
    show _ = _ + (Event.call c).deposits
    omega
  · rw [hfailed]
    have hheld := hbooks.held
    have hmoved := h.held
    have hrecorded := h.recorded
    omega
  · rcases hcases r hr with hold | hnew
    · exact hbooks.nonzero r hold
    · exact h.nonzero r hnew
  · rcases hcases r hr with hold | hnew
    · exact h.kept n (hbooks.marked r hold n hn)
    · exact h.marked r hnew n hn

/-- **A receipt keeps them**, whether it fails or not. -/
theorem Books.processed {start : ℕ} {tr : List (World AccountId × Event AccountId)}
    {w w' : World AccountId} {r : Receipt AccountId} {succeeded : Bool}
    (hbooks : Books start tr w) (h : worldProcessed r succeeded w = .ok w') :
    Books start (tr ++ [(w, .processed r succeeded)]) w' := by
  obtain ⟨hmem, rfl⟩ := worldProcessed_eq_ok h
  have htotal := total_erase hmem
  have hdeposited := hbooks.deposited
  have hheld := hbooks.held
  -- what fails now was on its way before
  have hcases : ∀ r', r' ∈ failed (tr ++ [(w, Event.processed r succeeded)])
      ∨ r' ∈ w.inFlight.erase r → r' ∈ failed tr ∨ r' ∈ w.inFlight := by
    intro r' hr'
    rw [failed_snoc, List.mem_append, or_assoc] at hr'
    rcases hr' with hold | hnow | hflight
    · exact Or.inl hold
    · cases succeeded with
      | true => exact absurd hnow List.not_mem_nil
      | false => exact Or.inr (List.mem_singleton.mp hnow ▸ hmem)
    · exact Or.inr (List.mem_of_mem_erase hflight)
  refine ⟨?_, ?_, fun r' hr' => hbooks.nonzero r' (hcases r' hr'),
    fun r' hr' => hbooks.marked r' (hcases r' hr')⟩
  · rw [deposited_snoc, paidOut_snoc, failed_snoc, total_append]
    cases succeeded with
    | true =>
      show w.pool.poolBalance.toNat + (_ + r.promise.amount.toNat) + (_ + 0)
        + total (w.inFlight.erase r) = _ + 0
      omega
    | false =>
      show w.pool.poolBalance.toNat + (_ + 0) + (_ + total [r]) + total (w.inFlight.erase r) = _ + 0
      rw [total_singleton]
      omega
  · rw [failed_snoc, total_append]
    cases succeeded with
    | true =>
      show w.balance + 0 = start + w.pool.poolBalance.toNat + (_ + 0)
      omega
    | false =>
      show w.balance + r.promise.amount.toNat
        = start + w.pool.poolBalance.toNat + (_ + total [r])
      rw [total_singleton]
      omega

/-- **The books are kept in every run.** -/
theorem WorldRun.books {start : ℕ} {tr : List (World AccountId × Event AccountId)}
    {w : World AccountId} (h : WorldRun keccak256 start tr w) : Books start tr w := by
  obtain ⟨governance, domainChainId, domainAppId, blockHeight, hrun⟩ := h
  refine hrun.invariant (I := Books start) ?_ ?_
  · refine ⟨rfl, rfl, fun r hr => ?_, fun r hr => ?_⟩
    · rcases hr with hr | hr <;> exact absurd hr List.not_mem_nil
    · rcases hr with hr | hr <;> exact absurd hr List.not_mem_nil
  · intro tr w e w' hbooks _ hstep
    cases e with
    | call c =>
      obtain ⟨rs, hmoves⟩ := exists_moves hstep
      exact hbooks.call hmoves
    | processed r succeeded => exact hbooks.processed hstep

/-- **When all receipts are processed, the records are what was deposited and
not paid out if and only if no payout has failed**, and then no nullifier is
lost either. -/
theorem payoutsKept_iff {start : ℕ} {tr : List (World AccountId × Event AccountId)}
    {w : World AccountId} (h : WorldRun keccak256 start tr w) (hdone : w.inFlight = []) :
    PayoutsKept tr w ↔ failed tr = [] := by
  have hbooks := h.books
  have hdeposited := hbooks.deposited
  rw [hdone] at hdeposited
  constructor
  · intro hkept
    by_contra hne
    have hpos := total_pos hne (fun r hr => hbooks.nonzero r (Or.inl hr))
    have hbalance := hkept.balance
    omega
  · intro hnone
    rw [hnone] at hdeposited
    refine ⟨hdeposited, fun r hr => ?_⟩
    rw [hnone] at hr
    exact absurd hr List.not_mem_nil

/-! ## A payout that fails -/

/-- A hash function under which the root of the first deposit is not zero. -/
theorem getLatestRoot_oneLeaf_ne :
    getLatestRoot (oneLeaf (fun _ => 1)) ≠ ZERO_HASH := by
  obtain ⟨data, hroot⟩ : ∃ data : Bytes, getLatestRoot (oneLeaf (fun _ => 1))
      = Bytes32.toHex 1 := exists_getLatestRoot_eq (fun _ => 1) _ _
  have hne : Bytes32.toHex 1 ≠ Bytes32.toHex 0 := Bytes32.toHex_injective.ne (by decide)
  rwa [hroot, ← LinearRoots.toHex_zero]

/-- The deposit that leads to `afterDeposit`, … -/
def depositCall : Call String :=
  ⟨⟨"alice.testnet", 100, 1⟩, .deposit (Bytes32.toHex 7)⟩

/-- … the pool before it, … -/
def emptyPool (keccak256 : Bytes → Bytes32) : World String :=
  ⟨new keccak256 "governance.testnet" 1313 1 0, 0, []⟩

/-- … and the pool after it. -/
def fundedPool (keccak256 : Bytes → Bytes32) : World String :=
  ⟨afterDeposit keccak256, 100, []⟩

/-- **A withdrawal that goes through.** -/
theorem exec_withdraw {s : State AccountId} {ctx : Context AccountId} {proof : String}
    {c : Spend} {recipient : AccountId} {exitValue : BitVec 128}
    (unpaid : ctx.attachedDeposit = 0) (exit_ne : exitValue ≠ 0)
    (balance : exitValue ≤ s.poolBalance) (spends : Spends keccak256 s proof c) :
    exec keccak256 ctx (methodOf proof (.withdraw c recipient exitValue)) s
      = .ok ({ afterSpend keccak256 s c with poolBalance := s.poolBalance - exitValue },
        [⟨recipient, exitValue⟩]) := by
  unfold exec
  simp only [methodOf, withdraw, Except.bind_eq_ok, revertIf_eq_ok, spend_eq_ok, BitVec.not_lt]
  exact ⟨(), not_not.mpr unpaid, _, ⟨(), not_not.mpr rfl, (), not_not.mpr rfl, (), exit_ne, (),
    balance, _, ⟨spends.known, spends.spendable, spends.verified, spends.room, rfl⟩, rfl⟩, rfl⟩

/-- The receipt of the withdrawal of what was deposited. -/
def payout : Receipt String := ⟨⟨"alice", 100⟩, ["1a", "b"]⟩

/-- **The withdrawal that leaves it.** -/
theorem exists_withdraw_call {keccak256 : Bytes → Bytes32}
    (hroot : getLatestRoot (oneLeaf keccak256) ≠ ZERO_HASH) :
    ∃ c pool, pool.poolBalance = 0
      ∧ worldStep keccak256 (.call c) (fundedPool keccak256) = .ok ⟨pool, 0, [payout]⟩ := by
  have hcovers := covers_of_mem_fourCalls hroot
  generalize getLatestRoot (oneLeaf keccak256) = merkleRoot at hcovers
  let spend := HexProof.spendOf merkleRoot ("1a", "b")
  obtain ⟨⟨hexit, hbalance⟩, hknown, hspendable, hwf, hroom⟩ :=
    hcovers (.withdraw spend "alice" 100) (List.mem_cons_self ..)
  let proof := HexProof.proofOf keccak256 spend.text
  have hspends : Spends keccak256 (afterDeposit keccak256) proof spend :=
    ⟨hknown, hspendable, ⟨HexProof.shaped_proofOf _, hwf, HexProof.tagged_proofOf _⟩, hroom⟩
  let c : Call String := ⟨⟨"relayer.testnet", 0, 2⟩, methodOf proof (.withdraw spend "alice" 100)⟩
  let pool : State String := { afterSpend keccak256 (afterDeposit keccak256) spend with
    poolBalance := (afterDeposit keccak256).poolBalance - 100 }
  have hexec : exec keccak256 c.ctx c.method (fundedPool keccak256).pool
      = .ok (pool, [payout.promise]) := exec_withdraw rfl hexit hbalance hspends
  refine ⟨c, pool, BitVec.sub_self 100, ?_⟩
  unfold worldStep worldCall
  dsimp only
  rw [hexec]
  rfl

/-- What was deposited, withdrawn and processed. -/
theorem exists_payout {keccak256 : Bytes → Bytes32}
    (hroot : getLatestRoot (oneLeaf keccak256) ≠ ZERO_HASH) (succeeded : Bool) :
    ∃ c pool, pool.poolBalance = 0
      ∧ WorldRun keccak256 0 [(emptyPool keccak256, .call depositCall),
          (fundedPool keccak256, .call c), (⟨pool, 0, [payout]⟩, .processed payout succeeded)]
          ⟨pool, 0 + if succeeded then 0 else 100, []⟩ := by
  obtain ⟨c, pool, hpool, hwithdraw⟩ := exists_withdraw_call hroot
  have hdeposit : worldStep keccak256 (.call depositCall) (emptyPool keccak256)
      = .ok (fundedPool keccak256) := rfl
  have hprocessed : worldStep keccak256 (.processed payout succeeded) ⟨pool, 0, [payout]⟩
      = .ok ⟨pool, 0 + if succeeded then 0 else 100, []⟩ := rfl
  exact ⟨c, pool, hpool, _, _, _, _,
    ((Run.nil.snoc trivial hdeposit).snoc trivial hwithdraw).snoc trivial hprocessed⟩

/-- No payout is lost in the run where it succeeds. -/
theorem payoutsKept_iff_succeeded : ∃ tr w, WorldRun (fun _ => 1) 0 tr w
    ∧ w.inFlight = [] ∧ paidOut tr = 100 ∧ PayoutsKept (tr : List (World String × _)) w := by
  obtain ⟨c, pool, -, hrun⟩ := exists_payout getLatestRoot_oneLeaf_ne true
  exact ⟨_, _, hrun, rfl, rfl, (payoutsKept_iff hrun rfl).mpr rfl⟩

/-- **A payout that fails is lost**: what was deposited is neither recorded nor
paid out, and the nullifiers of its withdrawal stay marked. -/
theorem exists_lost_payout : (∃ keccak256, getLatestRoot (oneLeaf keccak256) ≠ ZERO_HASH)
    ∧ ∀ keccak256 : Bytes → Bytes32, getLatestRoot (oneLeaf keccak256) ≠ ZERO_HASH →
      ∃ tr w, WorldRun keccak256 0 tr w ∧ w.inFlight = []
        ∧ deposited tr = 100 ∧ paidOut tr = 0 ∧ w.pool.poolBalance = 0 ∧ w.balance = 100
        ∧ failed tr = [payout] ∧ (∀ n ∈ payout.nullifiers, w.pool.nullifierSpent n = true)
        ∧ ¬ PayoutsKept tr w := by
  refine ⟨⟨fun _ => 1, getLatestRoot_oneLeaf_ne⟩, fun keccak256 hroot => ?_⟩
  obtain ⟨c, pool, hpool, hrun⟩ := exists_payout hroot false
  have hdeposited := hrun.books.deposited
  have hmarked := hrun.books.marked payout (Or.inl (List.mem_singleton_self payout))
  generalize htr : [(emptyPool keccak256, Event.call depositCall),
    (fundedPool keccak256, Event.call c), (⟨pool, 0, [payout]⟩, Event.processed payout false)]
    = tr at hrun hdeposited hmarked
  have hpaid : paidOut tr = 0 := htr ▸ rfl
  have hfailed : failed tr = [payout] := htr ▸ rfl
  have hrecorded : pool.poolBalance.toNat = 0 := congrArg BitVec.toNat hpool
  rw [hpaid, hfailed, hrecorded] at hdeposited
  have hdeposited : deposited tr = 100 := hdeposited.symm
  refine ⟨tr, _, hrun, rfl, hdeposited, hpaid, hpool, rfl, hfailed, hmarked, fun hkept => ?_⟩
  have hbalance : pool.poolBalance.toNat + paidOut tr = deposited tr := hkept.balance
  omega

end NearPool
