import SoulPrivacy.NearRoots
import SoulPrivacy.ShieldedPool

/-!
# The NEAR pool keeps a ledger

The nullifiers and the leaves of this contract are texts, and it never asks what they stand
for. Taken as texts they are those of a shielded pool: each is spent once, a spend names one
of the last hundred roots of the tree, and the balance is what came in less what went out
(`keepsLedger_of_run`). The root and the books of a state were compared with the run before,
each on its own; here a step is one operation for all of them.
-/

namespace NearPool

open ShieldedPool (Rules Ledger Op Allowed AllowedAll View Shows Keeps Accounted Simulation)

variable {AccountId : Type} {keccak256 : Bytes → Bytes32}

/-- **The rules of this pool.** -/
def rules (keccak256 : Bytes → Bytes32) : Rules String String where
  rootOf := treeRoot keccak256
  Admissible root := root ≠ ZERO_HASH
  window := ROOT_HISTORY_SIZE
  capacity := 2 ^ TREE_DEPTH

/-- What a call does, if it goes through. -/
def opsOf (_ : State AccountId) (c : Call AccountId) : List (Op String String String) :=
  match c.method with
  | .deposit commitment => [.deposit commitment c.ctx.attachedDeposit.toNat]
  | .transfer _ merkleRoot nullifiers outputCommitments =>
    [.spend merkleRoot nullifiers outputCommitments 0]
  | .withdraw _ merkleRoot nullifiers outputCommitments _ exitValue =>
    [.spend merkleRoot nullifiers outputCommitments exitValue.toNat]
  | _ => []

/-- **What happened in a run.** -/
def opsIn (tr : List (State AccountId × Call AccountId)) : List (Op String String String) :=
  tr.flatMap (fun p => opsOf p.1 p.2)

/-- What the views show. -/
def view (s : State AccountId) : View String String where
  latestRoot := getLatestRoot s
  isKnownRoot := isKnownRoot s
  isSpent := isNullifierSpent s
  balance := s.poolBalance.toNat
  nextLeafIndex := s.nextLeafIndex

/-- **A state is one of a ledger.** -/
structure Matches (keccak256 : Bytes → Bytes32) (l : Ledger String String)
    (s : State AccountId) : Prop where
  roots : RootsHold keccak256 l.leaves s
  books : Booked keccak256 l.spent s
  balance : s.poolBalance.toNat = l.balance

theorem Matches.shows {l : Ledger String String} {s : State AccountId}
    (h : Matches keccak256 l s) : Shows (rules keccak256) l (view s) where
  latestRoot := h.roots.tree.latest
  isKnownRoot := h.roots.isKnownRoot_iff
  isSpent := h.books.marked
  balance := h.balance
  nextLeafIndex := h.roots.tree.tree.nextIndex

/-- **A spend that goes through is allowed.** -/
theorem Matches.allowed_spend {l : Ledger String String} {s : State AccountId}
    (h : Matches keccak256 l s) {proof : String} {c : HexProof.Spend}
    (hspends : Spends keccak256 s proof c) {exit : ℕ} (hexit : exit ≤ s.poolBalance.toNat) :
    Allowed (rules keccak256) l (.spend c.merkleRoot [c.nullifiers.1, c.nullifiers.2]
      [c.outputCommitments.1, c.outputCommitments.2] exit) := by
  have hspendable := hspends.spendable
  have hunspent : ∀ {n : String}, s.nullifierSpent n = false → n ∉ l.spent := by
    intro n hfalse hmem
    exact Bool.false_ne_true (hfalse.symm.trans ((h.books.marked n).mpr hmem))
  refine .spend ((h.roots.isKnownRoot_iff _).mp hspends.known) ?_ ?_ ?_ (h.balance ▸ hexit)
  · exact List.nodup_cons.mpr ⟨List.mem_singleton.not.mpr hspendable.ne, List.nodup_singleton _⟩
  · rintro n (_ | ⟨_, (_ | ⟨_, hnil⟩)⟩)
    · exact hunspent hspendable.fst
    · exact hunspent hspendable.snd
    · exact absurd hnil List.not_mem_nil
  · show l.leaves.length + 2 ≤ 2 ^ TREE_DEPTH
    rw [← h.roots.tree.tree.nextIndex]
    exact hspends.room

variable [DecidableEq AccountId]

/-- **A call is one operation of the ledger, or none.** -/
theorem simulation (governance : AccountId) (domainChainId domainAppId : BitVec 32)
    (blockHeight : ℕ) :
    Simulation (step keccak256) (fun _ _ => True)
      (new keccak256 governance domainChainId domainAppId blockHeight) (rules keccak256)
      opsOf (Matches keccak256) where
  init := ⟨rootsHold_new .., booked_new .., rfl⟩
  next := by
    intro l s c s' h _ hstep
    have hroots := h.roots.step hstep
    have hbooks := h.books.step hstep
    -- a method of governance leaves leaves, nullifiers and balance alone
    have hsame : c.method.inserts = [] → c.method.spends = [] → opsOf s c = [] →
        s'.poolBalance = s.poolBalance →
          AllowedAll (rules keccak256) l (opsOf s c)
            ∧ Matches keccak256 (l.afterAll (opsOf s c)) s' := by
      intro hinserts hspends hops hbalance
      rw [hinserts, List.append_nil] at hroots
      rw [hspends, List.append_nil] at hbooks
      rw [hops]
      exact ⟨trivial, hroots, hbooks, hbalance ▸ h.balance⟩
    obtain ⟨promises, heffect⟩ := step_effect hstep
    cases heffect with
    | @deposit ctx commitment amount_ne _ room fits =>
      have hpos : 0 < ctx.attachedDeposit.toNat :=
        Nat.pos_of_ne_zero (fun h0 => amount_ne (BitVec.toNat_inj.mp h0))
      refine ⟨⟨.deposit hpos ?_, trivial⟩, hroots, hbooks, ?_⟩
      · rw [← h.roots.tree.tree.nextIndex]
        exact room
      · show (s.poolBalance + ctx.attachedDeposit).toNat = l.balance + ctx.attachedDeposit.toNat
        rw [BitVec.toNat_add, Nat.mod_eq_of_lt fits, h.balance]
    | transfer _ spends =>
      exact ⟨⟨h.allowed_spend spends (Nat.zero_le _), trivial⟩, hroots, hbooks, h.balance⟩
    | @withdraw ctx proof c recipient exitValue _ _ balance spends =>
      refine ⟨⟨h.allowed_spend spends balance, trivial⟩, hroots, hbooks, ?_⟩
      show (s.poolBalance - exitValue).toNat = l.balance - exitValue.toNat
      rw [BitVec.toNat_sub_of_le balance, h.balance]
    | setAuthorizedRelayer _ _ => exact hsame rfl rfl rfl rfl
    | finalizeEpoch _ _ => exact hsame rfl rfl rfl rfl
    | syncEpochRoot _ _ => exact hsame rfl rfl rfl rfl

/-- **The NEAR pool keeps a ledger**, and with it the promises of a shielded pool. -/
theorem keepsLedger_of_run {tr : List (State AccountId × Call AccountId)} {s : State AccountId}
    (h : RunFrom keccak256 tr s) :
    Keeps (rules keccak256) (opsIn tr) (view s)
      ∧ Accounted (rules keccak256) (opsIn tr) (view s) := by
  obtain ⟨governance, domainChainId, domainAppId, blockHeight, hrun⟩ := h
  obtain ⟨l, hexec, hmatches⟩ :=
    (simulation governance domainChainId domainAppId blockHeight).exists_execution hrun
  have hkeeps : Keeps (rules keccak256) (opsIn tr) (view s) := ⟨l, hexec, hmatches.shows⟩
  exact ⟨hkeeps, hkeeps.accounted⟩

/-- A deposit and the withdrawal of all of it: the ledger is empty again, and the two
nullifiers are spent. -/
theorem keepsLedger_of_withdrawal :
    ∃ tr s, RunFrom (fun _ => 1) tr s ∧ (opsIn tr : List (Op String String String)).length = 2
      ∧ (view (s : State String)).balance + 100 = 100
      ∧ (view s).isSpent "1a" = true ∧ (view s).nextLeafIndex = 3 := by
  have hroot := getLatestRoot_oneLeaf_ne
  have hcovers := covers_of_mem_fourCalls hroot
  generalize getLatestRoot (oneLeaf (fun _ => 1)) = merkleRoot at hcovers
  let spend := HexProof.spendOf merkleRoot ("1a", "b")
  obtain ⟨⟨hexit, hbalance⟩, hknown, hspendable, hwf, hroom⟩ :=
    hcovers (.withdraw spend "alice" 100) (List.mem_cons_self ..)
  let proof := HexProof.proofOf (fun _ => 1) spend.text
  have hspends : Spends (fun _ => 1) (afterDeposit fun _ => 1) proof spend :=
    ⟨hknown, hspendable, ⟨HexProof.shaped_proofOf _, hwf, HexProof.tagged_proofOf _⟩, hroom⟩
  let c : Call String := ⟨⟨"relayer.testnet", 0, 2⟩, methodOf proof (.withdraw spend "alice" 100)⟩
  have hdeposit : step (fun _ => 1) depositCall (emptyPool fun _ => 1).pool
      = .ok (afterDeposit fun _ => 1) := rfl
  have hwithdraw : step (fun _ => 1) c (afterDeposit fun _ => 1) = .ok _ :=
    congrArg (Except.map Prod.fst) (exec_withdraw rfl hexit hbalance hspends)
  have hrun : RunFrom (fun _ => 1) _ _ :=
    ⟨_, _, _, _, (Run.nil.snoc trivial hdeposit).snoc trivial hwithdraw⟩
  obtain ⟨-, haccounted⟩ := keepsLedger_of_run hrun
  refine ⟨_, _, hrun, rfl, haccounted.balance, (haccounted.isSpent "1a").mpr ?_,
    haccounted.nextLeafIndex⟩
  exact List.mem_cons_self ..

end NearPool
