import SoulPrivacy.EpochRoots

/-!
# The lists of the epochs, taken together

Whatever is called and in whatever order, the lists of the epochs up to the
current one are, one after the other, the nullifiers registered so far in
the order of their registration; the counters are the lengths of the lists,
and the marked nullifiers are those listed (`Tallied`). It does not matter
whether an epoch was finalized in between: a registration goes to the list
of the current epoch even then.
-/

namespace EpochManager

/-- **The nullifiers of the epochs up to the current one**, one epoch after
the other. -/
def listed (s : Storage) : List Bytes32 :=
  (List.range (s.currentEpochId + 1)).flatMap s.epochNullifiers

/-- The nullifiers a call registers. -/
def Entry.nullifiers : Entry → List Bytes32
  | .registerNullifier nullifier => [nullifier]
  | _ => []

/-- A call that is no registration registers nothing. -/
theorem Entry.nullifiers_eq_nil {entry : Entry} (h : ∀ n, entry ≠ .registerNullifier n) :
    entry.nullifiers = [] := by
  cases entry with
  | registerNullifier n => exact absurd rfl (h n)
  | _ => rfl

/-- **The books are right**: what was registered is listed in order,
counted and marked, and the epochs to come have empty lists. -/
structure Tallied (nullifiers : List Bytes32) (s : Storage) : Prop where
  listed_eq : listed s = nullifiers
  count : ∀ e, (s.epochs e).nullifierCount = (s.epochNullifiers e).length
  future : ∀ e, s.currentEpochId < e → s.epochNullifiers e = []
  marked : ∀ n, s.localNullifiers n = true ↔ n ∈ nullifiers

variable {H : Hashes}

/-! ## The marks and the pools -/

/-- **What a call does to the marks and to the pools**: it marks what it
registers, and only governance touches the pools. -/
structure SetsEffect (c : Call) (s s' : Storage) : Prop where
  marked : ∀ n, s'.localNullifiers n = true ↔
    s.localNullifiers n = true ∨ n ∈ c.entry.nullifiers
  pools : (∀ a, c.entry ≠ .authorizePool a) → (∀ a, c.entry ≠ .revokePool a) →
    s'.authorizedPools = s.authorizedPools

/-- A call that leaves both alone. -/
theorem SetsEffect.of_eq {c : Call} {s s' : Storage}
    (hnone : c.entry.nullifiers = []) (hmarks : s'.localNullifiers = s.localNullifiers)
    (hpools : s'.authorizedPools = s.authorizedPools) : SetsEffect c s s' := by
  refine ⟨fun n => ?_, fun _ _ => hpools⟩
  rw [hnone, hmarks]
  exact (or_iff_left List.not_mem_nil).symm

theorem governed_eq_ok {sender : Address} {s s' : Storage} {r : Storage × List Event}
    (h : governed sender s s' = .ok r) : r.1 = s' := by
  obtain ⟨-, h⟩ := (Except.unit_bind_eq_ok _ _ _).mp h
  cases h
  rfl

/-- **Starting an epoch changes the epochs** and nothing else. -/
theorem startNewEpoch_frame {timestamp : ℕ} {s : Storage} {r : Storage × List Event}
    (h : startNewEpoch H timestamp s = .ok r) :
    r.1 = { s with currentEpochId := r.1.currentEpochId, epochs := r.1.epochs } := by
  unfold startNewEpoch at h
  obtain ⟨-, h⟩ := (revertIf_bind_eq_ok _ _ _ _).mp h
  obtain ⟨p, hp, h⟩ := (Except.bind_eq_ok _ _ _).mp h
  obtain ⟨q, hq, h⟩ := (Except.bind_eq_ok _ _ _).mp h
  unfold advance at hq
  obtain ⟨epoch, -, hq⟩ := (Except.bind_eq_ok _ _ _).mp hq
  cases hq
  cases h
  unfold closeCurrent at hp
  split at hp
  · obtain ⟨-, hp⟩ := finalizeEpochInternal_eq_ok hp
    rw [hp]
  · cases hp
    rfl

theorem step_setsEffect {c : Call} {s s' : Storage} (h : step H c s = .ok s') :
    SetsEffect c s s' := by
  unfold step at h
  obtain ⟨r, hr, rfl⟩ := Except.map_eq_ok.mp h
  obtain ⟨sender, timestamp, entry⟩ := c
  unfold exec at hr
  cases entry <;> dsimp only at hr
  case startNewEpoch =>
    rw [startNewEpoch_frame hr]
    exact .of_eq rfl rfl rfl
  case finalizeEpoch =>
    obtain ⟨-, hs⟩ := finalizeEpochInternal_eq_ok hr
    rw [hs]
    exact .of_eq rfl rfl rfl
  case registerNullifier nullifier =>
    obtain ⟨-, hr⟩ := (Except.unit_bind_eq_ok _ _ _).mp hr
    cases hr
    refine ⟨fun n => ?_, fun _ _ => rfl⟩
    rw [Entry.nullifiers, List.mem_singleton]
    exact update_true_eq_true _ nullifier n
  case receiveRemoteEpochRoot =>
    obtain ⟨-, hr⟩ := (Except.unit_bind_eq_ok _ _ _).mp hr
    obtain ⟨-, hr⟩ := (revertIf_bind_eq_ok _ _ _ _).mp hr
    cases hr
    exact .of_eq rfl rfl rfl
  case authorizePool pool =>
    rw [governed_eq_ok hr]
    exact ⟨fun n => (or_iff_left List.not_mem_nil).symm, fun h _ => absurd rfl (h pool)⟩
  case revokePool pool =>
    rw [governed_eq_ok hr]
    exact ⟨fun n => (or_iff_left List.not_mem_nil).symm, fun _ h => absurd rfl (h pool)⟩
  all_goals
    rw [governed_eq_ok hr]
    exact .of_eq rfl rfl rfl

/-! ## The lists -/

/-- In another epoch than the current one, a call registers nothing. -/
theorem registers_of_ne {c : Call} {s : Storage} {e : ℕ} (h : s.currentEpochId ≠ e) :
    registers e (s, c) = [] := by
  unfold registers
  split
  · exact if_neg h
  · rfl

/-- In the current one, it registers what it registers. -/
theorem registers_current (c : Call) (s : Storage) :
    registers s.currentEpochId (s, c) = c.entry.nullifiers := by
  obtain ⟨sender, timestamp, entry⟩ := c
  cases entry <;> first | rfl | exact if_pos rfl

/-- The current epoch moves on only when nothing is registered. -/
theorem Effect.current_eq {c : Call} {s s' : Storage} (h : Effect H c s s') :
    s'.currentEpochId = s.currentEpochId
      ∨ s'.currentEpochId = s.currentEpochId + 1 ∧ c.entry.nullifiers = [] := by
  cases h with
  | register _ _ current => exact Or.inl current
  | finalize _ _ current => exact Or.inl current
  | start _ entry_eq _ _ current => exact Or.inr ⟨current, by rw [entry_eq]; rfl⟩
  | other _ current => exact Or.inl current

/-- **A call puts what it registers at the end of the list.** -/
theorem Effect.listed_eq {c : Call} {s s' : Storage} (h : Effect H c s s')
    (hfuture : ∀ e, s.currentEpochId < e → s.epochNullifiers e = []) :
    listed s' = listed s ++ c.entry.nullifiers := by
  -- the lists of the epochs before stay, and that of the current one grows
  have hbelow : (List.range s.currentEpochId).flatMap s'.epochNullifiers
      = (List.range s.currentEpochId).flatMap s.epochNullifiers := by
    refine List.flatMap_congr (fun e he => ?_)
    rw [h.epochNullifiers_eq, registers_of_ne (List.mem_range.mp he).ne', List.append_nil]
  have hupto : (List.range (s.currentEpochId + 1)).flatMap s'.epochNullifiers
      = listed s ++ c.entry.nullifiers := by
    rw [listed, List.range_succ, List.flatMap_append, List.flatMap_append, hbelow,
      List.flatMap_singleton, List.flatMap_singleton, h.epochNullifiers_eq,
      registers_current, List.append_assoc]
  rcases h.current_eq with hsame | ⟨hnext, -⟩
  · rw [listed, hsame, hupto]
  · have hlast : s'.epochNullifiers (s.currentEpochId + 1) = [] := by
      rw [h.epochNullifiers_eq, hfuture _ (Nat.lt_succ_self _),
        registers_of_ne (Nat.lt_succ_self _).ne]
      rfl
    rw [listed, hnext, List.range_succ, List.flatMap_append, hupto,
      List.flatMap_singleton, hlast, List.append_nil]

/-- **A call keeps the counters right.** -/
theorem Effect.count_eq {c : Call} {s s' : Storage} (h : Effect H c s s') {e : ℕ}
    (hcount : (s.epochs e).nullifierCount = (s.epochNullifiers e).length)
    (hfuture : ∀ e, s.currentEpochId < e → s.epochNullifiers e = []) :
    (s'.epochs e).nullifierCount = (s'.epochNullifiers e).length := by
  rw [h.epochNullifiers_eq]
  cases h.epoch e with
  | same epoch_eq nothing => rw [epoch_eq, nothing, List.append_nil, hcount]
  | counted entry_eq current epoch_eq =>
    subst current
    rw [epoch_eq, registers_current, entry_eq, List.length_append, ← hcount]
    rfl
  | closed _ _ epoch_eq nothing =>
    rw [epoch_eq, nothing, List.append_nil]
    exact hcount
  | started next _ epoch_eq =>
    have hnew : s.currentEpochId < e := next ▸ Nat.lt_succ_self _
    rw [epoch_eq, hfuture e hnew, registers_of_ne hnew.ne]
    rfl

/-- **A call keeps the books right.** -/
theorem Tallied.step {nullifiers : List Bytes32} {s s' : Storage} {c : Call}
    (hs : Tallied nullifiers s) (h : EpochManager.step H c s = .ok s') :
    Tallied (nullifiers ++ c.entry.nullifiers) s' := by
  have heff := step_effect h
  refine ⟨?_, fun e => heff.count_eq (hs.count e) hs.future, fun e he => ?_, fun n => ?_⟩
  · rw [heff.listed_eq hs.future, hs.listed_eq]
  · have hnew : s.currentEpochId < e := heff.current_le.trans_lt he
    rw [heff.epochNullifiers_eq, hs.future e hnew, registers_of_ne hnew.ne]
    rfl
  · rw [(step_setsEffect h).marked, hs.marked, List.mem_append]

/-- The books of a manager that has just been deployed. -/
theorem Tallied.init {s : Storage} (h : Deployed s) : Tallied [] s := by
  obtain ⟨sender, timestamp, epochDuration, domainChainId, h⟩ := h
  unfold construct at h
  obtain ⟨first, hfirst, h⟩ := (Except.bind_eq_ok _ _ _).mp h
  obtain rfl := newEpoch_eq_ok hfirst
  cases h
  refine ⟨rfl, fun e => ?_, fun e _ => rfl, fun n => ?_⟩
  · dsimp only
    rw [Function.update_apply]
    split <;> rfl
  · exact iff_of_false Bool.false_ne_true List.not_mem_nil

end EpochManager
