import SoulPrivacy.PalletEpochs
import SoulPrivacy.PalletSolvency
import SoulPrivacy.PalletTree
import SoulPrivacy.ShieldedPool

/-!
# The pallet keeps a ledger

The pallet is configured with the depth of its tree and the length of its history of roots,
and those are the rules of its ledger. Its arithmetic saturates. A record of the balance at
the largest `u128` would no longer say what came in, so the runs here are those in which no
deposit takes it there (`Unsaturated`); the runtime has no more currency than that. The
currency itself, which others move as they like, has no part in the ledger.
-/

namespace PrivacyPoolPallet

open ShieldedPool (Rules Ledger Op Allowed AllowedAll View Shows Keeps Accounted Simulation)

variable {AccountId L : Type} {R : Runtime AccountId L}

/-- **The rules of the pallet** in a runtime. -/
def rules (R : Runtime AccountId L) : Rules H256 H256 where
  rootOf := HashTree.root R.poseidonHash 0 R.treeDepth
  Admissible root := root ≠ 0
  window := R.rootHistorySize
  capacity := 2 ^ R.treeDepth

/-- What an extrinsic does, if it goes through. -/
def Extrinsic.ops : Extrinsic AccountId → List (Op H256 H256 H256)
  | .deposit commitment amount => [.deposit commitment amount.toNat]
  | .transfer _ merkleRoot nullifiers outputs =>
    [.spend merkleRoot [nullifiers.1, nullifiers.2] [outputs.1, outputs.2] 0]
  | .withdraw _ merkleRoot nullifiers outputs _ exitValue =>
    [.spend merkleRoot [nullifiers.1, nullifiers.2] [outputs.1, outputs.2] exitValue.toNat]
  | _ => []

/-- … and an action. -/
def opsOf (_ : World L) : Action AccountId L → List (Op H256 H256 H256)
  | .call c => c.extrinsic.ops
  | .ledger _ => []

/-- **What happened in a run.** -/
def opsIn (tr : List (World L × Action AccountId L)) : List (Op H256 H256 H256) :=
  tr.flatMap (fun p => opsOf p.1 p.2)

/-- **A deposit does not saturate the record** of the balance. -/
def Unsaturated (w : World L) (a : Action AccountId L) : Prop :=
  ∀ op ∈ opsOf w a, w.pallet.poolBalance.toNat + op.value < 2 ^ 128

/-- What the storage shows. -/
def view (R : Runtime AccountId L) (s : Storage) : View H256 H256 where
  latestRoot := getLatestRoot s
  isKnownRoot := isKnownRoot R s
  isSpent := s.nullifierSpent
  balance := s.poolBalance.toNat
  nextLeafIndex := s.nextLeafIndex

/-- **The storage is that of a ledger.** -/
structure Matches (R : Runtime AccountId L) (l : Ledger H256 H256) (w : World L) : Prop where
  tree : TreeHolds R l.leaves w.pallet
  books : Booked R l.spent w.pallet
  balance : w.pallet.poolBalance.toNat = l.balance

theorem Matches.isKnownRoot_iff {l : Ledger H256 H256} {w : World L} (h : Matches R l w)
    (root : H256) :
    isKnownRoot R w.pallet root = true ↔ (rules R).Knows l.leaves root := by
  by_cases hzero : root = 0
  · have hunknown : isKnownRoot R w.pallet root = false := if_pos hzero
    rw [hunknown]
    exact iff_of_false Bool.false_ne_true (fun hknows => hknows.1 hzero)
  · rw [h.tree.isKnownRoot_iff hzero]
    exact (and_iff_right hzero).symm

theorem Matches.shows {l : Ledger H256 H256} {w : World L} (h : Matches R l w) :
    Shows (rules R) l (view R w.pallet) where
  latestRoot := h.tree.getLatestRoot_eq
  isKnownRoot := h.isKnownRoot_iff
  isSpent := h.books.marked
  balance := h.balance
  nextLeafIndex := h.tree.tree.nextIndex

/-- **A spend that goes through is allowed.** -/
theorem Matches.allowed_spend (hdepth : R.treeDepth ≤ 63) {l : Ledger H256 H256} {w : World L}
    (h : Matches R l w) {merkleRoot : H256} {nullifiers outputs : H256 × H256} {exit : ℕ}
    (hknown : isKnownRoot R w.pallet merkleRoot = true)
    (hspendable : Spendable R w.pallet nullifiers)
    (hroom : w.pallet.nextLeafIndex + 1 < maxLeaves R)
    (hexit : exit ≤ w.pallet.poolBalance.toNat) :
    Allowed (rules R) l
      (.spend merkleRoot [nullifiers.1, nullifiers.2] [outputs.1, outputs.2] exit) := by
  have hunspent : ∀ {n : H256}, w.pallet.nullifierSpent n = false → n ∉ l.spent := by
    intro n hfalse hmem
    exact Bool.false_ne_true (hfalse.symm.trans ((h.books.marked n).mpr hmem))
  refine .spend ((h.isKnownRoot_iff merkleRoot).mp hknown) ?_ ?_ ?_ (h.balance ▸ hexit)
  · exact List.nodup_cons.mpr ⟨List.mem_singleton.not.mpr hspendable.ne, List.nodup_singleton _⟩
  · rintro n (_ | ⟨_, (_ | ⟨_, hnil⟩)⟩)
    · exact hunspent hspendable.fst
    · exact hunspent hspendable.snd
    · exact absurd hnil List.not_mem_nil
  · rw [maxLeaves_eq hdepth, h.tree.tree.nextIndex] at hroom
    exact hroom

/-- **The tree after a spend.** -/
theorem TreeHolds.afterSpend (hdepth : R.treeDepth ≤ 63) {leaves : List H256} {s : Storage}
    (h : TreeHolds R leaves s) (nullifiers outputs : H256 × H256)
    (hroom : s.nextLeafIndex + 1 < maxLeaves R) :
    TreeHolds R (leaves ++ [outputs.1, outputs.2])
      (insertedTwo R outputs (spentTwo s nullifiers)) := by
  rw [maxLeaves_eq hdepth, h.tree.nextIndex] at hroom
  have hspent : TreeHolds R leaves (spentTwo s nullifiers) := ⟨h.tree, h.history⟩
  have htwo := (hspent.inserted (Nat.lt_of_succ_lt hroom) outputs.1).inserted
    (by rwa [List.length_append, List.length_singleton]) outputs.2
  rwa [List.append_assoc] at htwo

/-- **An action is one operation of the ledger, or none.** -/
theorem simulation (hdepth : R.treeDepth ≤ 63) (hsize : 1 ≤ R.rootHistorySize) (l₀ : L) :
    Simulation (step R) Unsaturated ⟨genesis R, l₀⟩ (rules R) opsOf (Matches R) where
  init := ⟨treeHolds_genesis hsize, booked_genesis, rfl⟩
  next := by
    intro l w a w' h hfits hstep
    have hbooks := h.books.step hstep
    cases a with
    | ledger _ =>
      cases hstep
      exact ⟨trivial, h.tree, h.books, h.balance⟩
    | call c =>
      cases step_effect hstep with
      | @deposit _ _ commitment amount _ amount_ne _ _ room _ =>
        have hpos : 0 < amount.toNat :=
          Nat.pos_of_ne_zero (fun h0 => amount_ne (BitVec.toNat_inj.mp h0))
        rw [maxLeaves_eq hdepth, h.tree.tree.nextIndex] at room
        have hrecorded : TreeHolds R l.leaves { w.pallet with
            commitmentExists := Function.update w.pallet.commitmentExists commitment true } :=
          ⟨h.tree.tree, h.tree.history⟩
        have htree := hrecorded.inserted room commitment
        refine ⟨⟨.deposit hpos room, trivial⟩, ⟨htree.tree, htree.history⟩, hbooks, ?_⟩
        have hfit : w.pallet.poolBalance.toNat + amount.toNat < 2 ^ 128 :=
          hfits _ (List.mem_cons_self ..)
        show (saturatingAdd w.pallet.poolBalance amount).toNat = l.balance + amount.toNat
        rw [saturatingAdd, if_pos hfit, BitVec.toNat_add, Nat.mod_eq_of_lt hfit, h.balance]
      | transfer known spendable _ room _ =>
        exact ⟨⟨h.allowed_spend hdepth known spendable room (Nat.zero_le _), trivial⟩,
          h.tree.afterSpend hdepth _ _ room, hbooks, h.balance⟩
      | @withdraw _ _ _ _ nullifiers outputs _ exitValue _ _ balance known spendable _ room _ _ =>
        have htree := h.tree.afterSpend hdepth nullifiers outputs room
        refine ⟨⟨h.allowed_spend hdepth known spendable room balance, trivial⟩,
          ⟨htree.tree, htree.history⟩, hbooks, ?_⟩
        show (saturatingSub w.pallet.poolBalance exitValue).toNat = l.balance - exitValue.toNat
        rw [toNat_saturatingSub balance, h.balance]
      | finalizeEpoch _ _ =>
        have hbooks : Booked R (l.spent ++ []) _ := hbooks
        rw [List.append_nil] at hbooks
        exact ⟨trivial, ⟨h.tree.tree, h.tree.history⟩, hbooks, h.balance⟩
      | syncEpochRoot _ =>
        have hbooks : Booked R (l.spent ++ []) _ := hbooks
        rw [List.append_nil] at hbooks
        exact ⟨trivial, ⟨h.tree.tree, h.tree.history⟩, hbooks, h.balance⟩

/-- **The pallet keeps a ledger**, and with it the promises of a shielded pool. -/
theorem keepsLedger_of_extrinsics (hdepth : R.treeDepth ≤ 63) (hsize : 1 ≤ R.rootHistorySize)
    {l₀ : L} {tr : List (World L × Action AccountId L)} {w : World L}
    (h : Run (step R) Unsaturated ⟨genesis R, l₀⟩ tr w) :
    Keeps (rules R) (opsIn tr) (view R w.pallet)
      ∧ Accounted (rules R) (opsIn tr) (view R w.pallet) := by
  obtain ⟨l, hexec, hmatches⟩ := (simulation hdepth hsize l₀).exists_execution h
  have hkeeps : Keeps (rules R) (opsIn tr) (view R w.pallet) := ⟨l, hexec, hmatches.shows⟩
  exact ⟨hkeeps, hkeeps.accounted⟩

/-- A hundred deposited and ninety-five of them withdrawn. -/
theorem keepsLedger_of_shielded_withdrawal :
    ∃ tr w, Run (step (smallRuntime fun _ => 0)) Unsaturated
        ⟨genesis (smallRuntime fun _ => 0), firstBalances⟩ tr w
      ∧ (opsIn tr : List (Op H256 H256 H256)).length = 2
      ∧ (view (smallRuntime fun _ => 0) w.pallet).balance + 95 = 100
      ∧ (view (smallRuntime fun _ => 0) w.pallet).isSpent 3 = true
      ∧ (view (smallRuntime fun _ => 0) w.pallet).nextLeafIndex = 3 := by
  obtain ⟨origin, r, haccepted⟩ := accepts_withdrawNinetyFive (fun _ => 0)
  have hstep : step (smallRuntime fun _ => 0) (.call ⟨origin, 2, .withdraw
      (proofNinetyFive fun _ => 0) firstRoot (2, 3) (4, 5) 2 95⟩) (afterDeposit fun _ => 0)
      = .ok r.1 := congrArg (Except.map Prod.fst) haccepted
  have hdeposit : Unsaturated (⟨genesis (smallRuntime fun _ => 0), firstBalances⟩ : World _)
      (.call depositHundred) := List.forall_mem_singleton.mpr (by decide)
  have hwithdraw : Unsaturated (afterDeposit fun _ => 0) (.call ⟨origin, 2, .withdraw
      (proofNinetyFive fun _ => 0) firstRoot (2, 3) (4, 5) 2 95⟩) :=
    List.forall_mem_singleton.mpr (show 100 + 0 < 2 ^ 128 by decide)
  have hrun := (Run.nil.snoc hdeposit (step_depositHundred fun _ => 0)).snoc hwithdraw hstep
  obtain ⟨-, haccounted⟩ := keepsLedger_of_extrinsics (R := smallRuntime fun _ => 0)
    (show 2 ≤ 63 by decide) (show 1 ≤ 2 by decide) hrun
  refine ⟨_, _, hrun, rfl, haccounted.balance, (haccounted.isSpent 3).mpr ?_,
    haccounted.nextLeafIndex⟩
  exact List.mem_cons_of_mem _ (List.mem_cons_self ..)

end PrivacyPoolPallet
