import SoulPrivacy.CosmWasmEffect

/-!
# The nullifiers of a run of the CosmWasm pool

A transfer and a withdrawal mark their two nullifiers and put them at the end of
the list of the current epoch; finalizing opens the next epoch with an empty
list. So in every state the marked texts are those spent so far, without
repeats, the list of the current epoch is what was spent since the last epoch
was finalized, and that epoch is open (`Booked`).
-/

namespace CosmWasmPool

variable {C : Crypto}

/-- The nullifiers a message spends. -/
def ExecuteMsg.spends : ExecuteMsg → List String
  | .transfer _ _ nullifiers _ => [nullifiers.1, nullifiers.2]
  | .withdraw _ _ nullifiers _ _ _ => [nullifiers.1, nullifiers.2]
  | _ => []

/-- **The nullifiers spent in a run**, in that order. -/
def spentIn (tr : List (State × Call)) : List String := tr.flatMap (fun p => p.2.msg.spends)

/-- What is pending after one more message. -/
def pendingStep (pending : List String) (p : State × Call) : List String :=
  match p.2.msg with
  | .finalizeEpoch => []
  | msg => pending ++ msg.spends

/-- **The nullifiers spent since an epoch was last finalized.** -/
def pendingIn (tr : List (State × Call)) : List String := tr.foldl pendingStep []

theorem spentIn_snoc (tr : List (State × Call)) (p : State × Call) :
    spentIn (tr ++ [p]) = spentIn tr ++ p.2.msg.spends := by
  unfold spentIn
  rw [List.flatMap_append, List.flatMap_singleton]

theorem pendingIn_snoc (tr : List (State × Call)) (p : State × Call) :
    pendingIn (tr ++ [p]) = pendingStep (pendingIn tr) p := by
  unfold pendingIn
  rw [List.foldl_append]
  rfl

/-! ## The invariant -/

/-- **The books of the contract are right**, for the nullifiers spent so far and
those of them that are pending. -/
structure Booked (spent pending : List String) (s : State) : Prop where
  nodup : spent.Nodup
  marked : ∀ n, s.nullifierSpent n = true ↔ n ∈ spent
  listed : s.epochNullifiers s.currentEpochId = some pending
  running : ∃ info, s.epochs s.currentEpochId = some info ∧ info.finalized = false

/-- At first nothing was spent, and epoch 0 is open. -/
theorem booked_initial (height : ℕ) (msg : InstantiateMsg)
    (st : (ℕ → Option String) × String) : Booked [] [] (initial height msg st) where
  nodup := List.nodup_nil
  marked _ := iff_of_false Bool.false_ne_true List.not_mem_nil
  listed := rfl
  running := ⟨⟨height, none, ZERO_HASH, 0, false⟩, rfl, rfl⟩

/-- **One more nullifier.** -/
theorem Booked.spendOne {spent pending : List String} {s : State} (h : Booked spent pending s)
    {nullifier : String} (hnew : s.nullifierSpent nullifier = false) :
    Booked (spent ++ [nullifier]) (pending ++ [nullifier]) (spentOne s nullifier) where
  nodup := nodup_append_of_marked h.marked h.nodup hnew
  marked := update_true_iff_mem_append h.marked nullifier
  listed := by
    unfold spentOne epochList
    dsimp only
    rw [Function.update_self, h.listed, Option.getD_some]
  running := h.running

/-- … and two. -/
theorem Booked.spendTwo {spent pending : List String} {s : State} (h : Booked spent pending s)
    {nullifiers : String × String} (hspendable : Spendable s nullifiers) :
    Booked (spent ++ [nullifiers.1, nullifiers.2]) (pending ++ [nullifiers.1, nullifiers.2])
      (spentTwo s nullifiers) := by
  have hsnd : (spentOne s nullifiers.1).nullifierSpent nullifiers.2 = false :=
    (Function.update_of_ne hspendable.ne.symm ..).trans hspendable.snd
  have htwo := (h.spendOne hspendable.fst).spendOne hsnd
  rwa [List.append_assoc, List.append_assoc] at htwo

/-- The tree, the balance and the settings are not in the books. -/
theorem Booked.of_eq {spent pending : List String} {s s' : State} (h : Booked spent pending s)
    (hmarks : s'.nullifierSpent = s.nullifierSpent)
    (hlists : s'.epochNullifiers = s.epochNullifiers)
    (hcurrent : s'.currentEpochId = s.currentEpochId) (hepochs : s'.epochs = s.epochs) :
    Booked spent pending s' where
  nodup := h.nodup
  marked := hmarks ▸ h.marked
  listed := by rw [hlists, hcurrent, h.listed]
  running := by rw [hepochs, hcurrent]; exact h.running

/-- Nothing was spent. -/
theorem Booked.append_nil {spent pending : List String} {s : State}
    (h : Booked spent pending s) : Booked (spent ++ []) (pending ++ []) s := by
  rwa [List.append_nil, List.append_nil]

/-- **A step keeps the books right.** -/
theorem Booked.step {spent pending : List String} {s s' : State} {c : Call}
    (h : Booked spent pending s) (hstep : step C c s = .ok s') :
    Booked (spent ++ c.msg.spends) (pendingStep pending (s, c)) s' := by
  cases step_effect hstep with
  | deposit _ _ insert _ =>
    obtain ⟨t, rfl⟩ := exists_withTree insert
    exact h.append_nil.of_eq rfl rfl rfl rfl
  | transfer _ spendable _ insert =>
    obtain ⟨t, rfl⟩ := insert.exists_withTree
    exact (h.spendTwo spendable).of_eq rfl rfl rfl rfl
  | withdraw _ _ _ spendable _ insert =>
    obtain ⟨t, rfl⟩ := insert.exists_withTree
    exact (h.spendTwo spendable).of_eq rfl rfl rfl rfl
  | finalizeEpoch _ _ _ _ _ =>
    have hspent := h.append_nil
    exact ⟨hspent.nodup, hspent.marked, Function.update_self .., _, Function.update_self ..,
      rfl⟩
  | syncEpochRoot _ _ => exact h.append_nil.of_eq rfl rfl rfl rfl
  | updateGovernance _ => exact h.append_nil.of_eq rfl rfl rfl rfl
  | setAuthorizedRelayer _ => exact h.append_nil.of_eq rfl rfl rfl rfl

/-- **The books are right in every run.** -/
theorem booked_of_run {height : ℕ} {msg : InstantiateMsg} {allowed : State → Call → Prop}
    {tr : List (State × Call)} {s : State} (h : RunFrom C height msg allowed tr s) :
    Booked (spentIn tr) (pendingIn tr) s := by
  obtain ⟨s₀, hs₀, hrun⟩ := h
  obtain ⟨st, rfl⟩ := exists_initial hs₀
  refine hrun.invariant (I := fun tr s => Booked (spentIn tr) (pendingIn tr) s)
    (booked_initial height msg st) ?_
  intro tr s c s' hbooked _ hstep
  rw [spentIn_snoc, pendingIn_snoc]
  exact hbooked.step hstep

end CosmWasmPool
