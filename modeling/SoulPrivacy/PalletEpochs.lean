import SoulPrivacy.PalletEffect
import SoulPrivacy.Segments
import SoulPrivacy.WithdrawBinding

/-!
# The epochs of the pallet

A transfer and a withdrawal put their two nullifiers at the end of the list of
the current epoch and mark them; finalizing closes the current epoch and opens
the next one. So in every state the epochs before the current one are closed
with the root and the length of their lists, the current one is open, and the
lists of all of them are the nullifiers spent so far, in that order and without
repeats (`Booked`). What is closed stays as it is (`Frozen`).
-/

namespace PrivacyPoolPallet

open Segments (joined Hold)

variable {AccountId L : Type} {R : Runtime AccountId L}

/-! ## The nullifiers of a run -/

/-- The nullifiers an extrinsic spends. -/
def Extrinsic.spends : Extrinsic AccountId → List H256
  | .transfer _ _ nullifiers _ => [nullifiers.1, nullifiers.2]
  | .withdraw _ _ nullifiers _ _ _ => [nullifiers.1, nullifiers.2]
  | _ => []

/-- … and an action. -/
def Action.spends : Action AccountId L → List H256
  | .call c => c.extrinsic.spends
  | .ledger _ => []

/-- **The nullifiers spent in a run**, in that order. -/
def spentIn (tr : List (World L × Action AccountId L)) : List H256 :=
  tr.flatMap (fun p => p.2.spends)

theorem spentIn_snoc (tr : List (World L × Action AccountId L)) (w : World L)
    (a : Action AccountId L) : spentIn (tr ++ [(w, a)]) = spentIn tr ++ a.spends := by
  unfold spentIn
  rw [List.flatMap_append, List.flatMap_singleton]

/-! ## The invariant -/

/-- **A closed epoch**, with the root and the length of its list. -/
structure EpochInfo.Closes (R : Runtime AccountId L) (info : EpochInfo)
    (nullifiers : List H256) : Prop where
  finalized : info.finalized = true
  nullifierRoot : info.nullifierRoot = computeNullifierRoot R.poseidonHash nullifiers
  nullifierCount : info.nullifierCount = nullifiers.length

/-- **The books of the pallet are right**, for the nullifiers spent so far. -/
structure Booked (R : Runtime AccountId L) (spent : List H256) (s : Storage) : Prop where
  lists : Hold s.epochNullifiers s.currentEpochId spent
  nodup : spent.Nodup
  marked : ∀ n, s.nullifierSpent n = true ↔ n ∈ spent
  closed : ∀ e < s.currentEpochId, ∃ info, s.epochs e = some info
    ∧ info.Closes R (s.epochNullifiers e)
  running : ∃ info, s.epochs s.currentEpochId = some info ∧ info.finalized = false

/-- At genesis nothing was spent, and epoch 0 is open. -/
theorem booked_genesis : Booked R [] (genesis R) where
  lists := Hold.empty 0
  nodup := List.nodup_nil
  marked _ := iff_of_false Bool.false_ne_true List.not_mem_nil
  closed e he := absurd he (Nat.not_lt_zero e)
  running := ⟨⟨0, none, 0, 0, false⟩, rfl, rfl⟩

/-- **One more nullifier.** -/
theorem Booked.spendOne {spent : List H256} {s : Storage} (h : Booked R spent s)
    {nullifier : H256} (hnew : s.nullifierSpent nullifier = false) :
    Booked R (spent ++ [nullifier]) (spentOne s nullifier) where
  lists := h.lists.append [nullifier]
  nodup := nodup_append_of_marked h.marked h.nodup hnew
  marked := update_true_iff_mem_append h.marked nullifier
  closed e he := by
    obtain ⟨info, hinfo, hcloses⟩ := h.closed e he
    refine ⟨info, hinfo, ?_⟩
    have hlist : (spentOne s nullifier).epochNullifiers e = s.epochNullifiers e :=
      Function.update_of_ne (ne_of_lt he) ..
    rwa [hlist]
  running := h.running

/-- … and two. -/
theorem Booked.spendTwo {spent : List H256} {s : Storage} (h : Booked R spent s)
    {nullifiers : H256 × H256} (hspendable : Spendable R s nullifiers) :
    Booked R (spent ++ [nullifiers.1, nullifiers.2]) (spentTwo s nullifiers) := by
  have hsnd : (spentOne s nullifiers.1).nullifierSpent nullifiers.2 = false :=
    (Function.update_of_ne hspendable.ne.symm ..).trans hspendable.snd
  have htwo := (h.spendOne hspendable.fst).spendOne hsnd
  rwa [List.append_assoc] at htwo

/-- The tree and the balances are not in the books. -/
theorem Booked.of_eq {spent : List H256} {s s' : Storage} (h : Booked R spent s)
    (hlists : s'.epochNullifiers = s.epochNullifiers)
    (hcurrent : s'.currentEpochId = s.currentEpochId)
    (hmarks : s'.nullifierSpent = s.nullifierSpent) (hepochs : s'.epochs = s.epochs) :
    Booked R spent s' := by
  obtain ⟨lists, nodup, marked, closed, running⟩ := h
  rw [← hlists, ← hcurrent] at lists
  rw [← hmarks] at marked
  rw [← hlists, ← hcurrent, ← hepochs] at closed
  rw [← hcurrent, ← hepochs] at running
  exact ⟨lists, nodup, marked, closed, running⟩

/-- **The current epoch is closed and the next one is opened.** -/
theorem Booked.finalize {spent : List H256} {s : Storage} (h : Booked R spent s)
    {epoch : EpochInfo} (blockNumber : ℕ) :
    Booked R spent { s with
      epochs := Function.update
        (Function.update s.epochs s.currentEpochId
          (some (closedEpoch R epoch (s.epochNullifiers s.currentEpochId) blockNumber)))
        (s.currentEpochId + 1) (some (openEpoch blockNumber))
      currentEpochId := s.currentEpochId + 1 } where
  lists := h.lists.advance
  nodup := h.nodup
  marked := h.marked
  closed e he := by
    dsimp only at he ⊢
    rw [Function.update_of_ne (ne_of_lt he)]
    rcases Nat.lt_succ_iff_lt_or_eq.mp he with hlt | rfl
    · rw [Function.update_of_ne (ne_of_lt hlt)]
      exact h.closed e hlt
    · rw [Function.update_self]
      exact ⟨_, rfl, rfl, rfl, rfl⟩
  running := ⟨_, Function.update_self .., rfl⟩

/-- **A step keeps the books right.** -/
theorem Booked.step {spent : List H256} {w w' : World L} {a : Action AccountId L}
    (h : Booked R spent w.pallet) (hstep : step R a w = .ok w') :
    Booked R (spent ++ a.spends) w'.pallet := by
  cases a with
  | ledger l =>
    cases hstep
    show Booked R (spent ++ []) _
    rw [List.append_nil]
    exact h
  | call c =>
    cases step_effect hstep with
    | deposit _ _ _ _ _ =>
      show Booked R (spent ++ []) _
      rw [List.append_nil]
      exact h.of_eq rfl rfl rfl rfl
    | transfer _ spendable _ _ _ => exact (h.spendTwo spendable).of_eq rfl rfl rfl rfl
    | withdraw _ _ _ spendable _ _ _ _ => exact (h.spendTwo spendable).of_eq rfl rfl rfl rfl
    | finalizeEpoch _ _ =>
      show Booked R (spent ++ []) _
      rw [List.append_nil]
      exact h.finalize _
    | syncEpochRoot _ =>
      show Booked R (spent ++ []) _
      rw [List.append_nil]
      exact h.of_eq rfl rfl rfl rfl

/-- **The books are right in every run.** -/
theorem booked_of_run {l₀ : L} {tr : List (World L × Action AccountId L)} {w : World L}
    (h : Run (PrivacyPoolPallet.step R) (fun _ _ => True) ⟨genesis R, l₀⟩ tr w) :
    Booked R (spentIn tr) w.pallet := by
  refine h.invariant (I := fun tr w => Booked R (spentIn tr) w.pallet) booked_genesis ?_
  intro tr w a w' hbooked _ hstep
  rw [spentIn_snoc]
  exact hbooked.step hstep

/-! ## What is closed stays -/

/-- **The epochs before the current one are as they were.** -/
structure Frozen (s s' : Storage) : Prop where
  current_le : s.currentEpochId ≤ s'.currentEpochId
  epochs_eq : ∀ e < s.currentEpochId, s'.epochs e = s.epochs e
  lists_eq : ∀ e < s.currentEpochId, s'.epochNullifiers e = s.epochNullifiers e

theorem Frozen.refl (s : Storage) : Frozen s s := ⟨le_rfl, fun _ _ => rfl, fun _ _ => rfl⟩

theorem Frozen.trans {s s' s'' : Storage} (h : Frozen s s') (h' : Frozen s' s'') :
    Frozen s s'' where
  current_le := h.current_le.trans h'.current_le
  epochs_eq e he := (h'.epochs_eq e (he.trans_le h.current_le)).trans (h.epochs_eq e he)
  lists_eq e he := (h'.lists_eq e (he.trans_le h.current_le)).trans (h.lists_eq e he)

theorem frozen_spentTwo (s : Storage) (nullifiers : H256 × H256) :
    Frozen s (spentTwo s nullifiers) where
  current_le := le_rfl
  epochs_eq _ _ := rfl
  lists_eq _ he := (Function.update_of_ne (ne_of_lt he) ..).trans
    (Function.update_of_ne (ne_of_lt he) ..)

/-- **A step leaves them as they are.** -/
theorem frozen_step {w w' : World L} {a : Action AccountId L}
    (hstep : step R a w = .ok w') : Frozen w.pallet w'.pallet := by
  cases a with
  | ledger l =>
    cases hstep
    exact Frozen.refl _
  | call c =>
    cases step_effect hstep with
    | deposit _ _ _ _ _ => exact ⟨le_rfl, fun _ _ => rfl, fun _ _ => rfl⟩
    | @transfer _ _ _ _ nullifiers _ _ _ _ _ _ =>
      have hspent := frozen_spentTwo w.pallet nullifiers
      exact ⟨hspent.current_le, hspent.epochs_eq, hspent.lists_eq⟩
    | @withdraw _ _ _ _ nullifiers _ _ _ _ _ _ _ _ _ _ _ _ =>
      have hspent := frozen_spentTwo w.pallet nullifiers
      exact ⟨hspent.current_le, hspent.epochs_eq, hspent.lists_eq⟩
    | finalizeEpoch _ _ =>
      refine ⟨Nat.le_succ _, fun _ he => ?_, fun _ _ => rfl⟩
      dsimp only
      rw [Function.update_of_ne (ne_of_lt (he.trans (Nat.lt_succ_self _))),
        Function.update_of_ne (ne_of_lt he)]
    | syncEpochRoot _ => exact ⟨le_rfl, fun _ _ => rfl, fun _ _ => rfl⟩

/-- **… and so does any run.** -/
theorem frozen_of_run {w w' : World L} {tr : List (World L × Action AccountId L)}
    (h : Run (step R) (fun _ _ => True) w tr w') : Frozen w.pallet w'.pallet :=
  h.invariant (I := fun _ w' => Frozen w.pallet w'.pallet) (Frozen.refl _)
    (fun _ _ _ _ hfrozen _ hstep => hfrozen.trans (frozen_step hstep))

/-- **The epochs are complete and frozen**: in every state of a run the epochs
before the current one are closed, and are the same in every state after it;
the current one is open; and the lists are the nullifiers spent so far. -/
theorem epochs_complete {l₀ : L} {tr tr' : List (World L × Action AccountId L)}
    {w w' : World L} (h : Run (step R) (fun _ _ => True) ⟨genesis R, l₀⟩ tr w)
    (h' : Run (step R) (fun _ _ => True) w tr' w') :
    (∀ e < w.pallet.currentEpochId, ∃ info, w.pallet.epochs e = some info
        ∧ info.finalized = true
        ∧ info.nullifierRoot
          = computeNullifierRoot R.poseidonHash (w.pallet.epochNullifiers e)
        ∧ info.nullifierCount = (w.pallet.epochNullifiers e).length
        ∧ w'.pallet.epochs e = some info
        ∧ w'.pallet.epochNullifiers e = w.pallet.epochNullifiers e)
      ∧ (∃ info, w.pallet.epochs w.pallet.currentEpochId = some info
        ∧ info.finalized = false)
      ∧ (List.range (w.pallet.currentEpochId + 1)).flatMap w.pallet.epochNullifiers
        = spentIn tr
      ∧ (spentIn tr).Nodup
      ∧ ∀ n, w.pallet.nullifierSpent n = true ↔ n ∈ spentIn tr := by
  have hbooked := booked_of_run h
  have hfrozen := frozen_of_run h'
  refine ⟨fun e he => ?_, hbooked.running, hbooked.lists.joined_eq, hbooked.nodup,
    hbooked.marked⟩
  obtain ⟨info, hinfo, hcloses⟩ := hbooked.closed e he
  exact ⟨info, hinfo, hcloses.finalized, hcloses.nullifierRoot, hcloses.nullifierCount,
    (hfrozen.epochs_eq e he).trans hinfo, hfrozen.lists_eq e he⟩

/-- **Two epochs**, finalized one after the other. -/
theorem epochs_complete_two :
    ∃ w w' : World Unit, w.pallet.currentEpochId = 1 ∧ w'.pallet.currentEpochId = 2
      ∧ ∃ info, w.pallet.epochs 0 = some info ∧ info.finalized = true
        ∧ w'.pallet.epochs 0 = some info := by
  let R := obliging 0 1 (fun _ => 0)
  obtain ⟨w, w', hstep, hstep', hcurrent, hcurrent'⟩ : ∃ w w' : World Unit,
      step R (.call ⟨.root, 5, .finalizeEpoch⟩) ⟨genesis R, ()⟩ = .ok w
        ∧ step R (.call ⟨.root, 9, .finalizeEpoch⟩) w = .ok w'
        ∧ w.pallet.currentEpochId = 1 ∧ w'.pallet.currentEpochId = 2 :=
    ⟨_, _, rfl, rfl, rfl, rfl⟩
  have hrun : Run (step R) (fun _ _ => True) ⟨genesis R, ()⟩ _ w := Run.nil.snoc trivial hstep
  have hrun' : Run (step R) (fun _ _ => True) w _ w' := Run.nil.snoc trivial hstep'
  obtain ⟨info, hinfo, hfinalized, -, -, hlater, -⟩ :=
    (epochs_complete hrun hrun').1 0 (hcurrent ▸ Nat.one_pos)
  exact ⟨w, w', hcurrent, hcurrent', info, hinfo, hfinalized, hlater⟩

end PrivacyPoolPallet
