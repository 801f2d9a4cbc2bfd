import SoulPrivacy.UniversalNullifierRegistry

/-!
# Looking a nullifier up on all chains

The reports are kept chain by chain, and the lookup goes through a list of ids that
is kept next to them. It finds every report because a report is made for a chain
that goes by an id, an id is only ever given by a registration, and a registration
puts the chain on the list, where it stays (`Findable`). The id 0 stands for a chain
that was never registered, so no report is made for it, and the lookup returns 0
for "not spent" alone (`isNullifierSpentGlobally_exact`).
-/

namespace UniversalNullifierRegistry

/-- **The lookup is right** about a nullifier: it says spent exactly when it was
reported on some chain, and then names such a chain, which is not 0. -/
structure Exact (s : Storage) (nullifier : Bytes32) : Prop where
  spent_iff : (isNullifierSpentGlobally s nullifier).1 = true
    ↔ ∃ cid, s.nullifierSpentGlobal cid nullifier = true
  on_chain : (isNullifierSpentGlobally s nullifier).1 = true →
    (isNullifierSpentGlobally s nullifier).2 ≠ 0
      ∧ s.nullifierSpentGlobal (isNullifierSpentGlobally s nullifier).2 nullifier = true

/-- **The invariant of the list**: the chains that go by an id, and those that have
reports, are on it, and none of them is 0. -/
structure Findable (s : Storage) : Prop where
  registered : ∀ cid, (s.chains cid).chainId ≠ 0 → cid ∈ s.registeredChainIds ∧ cid ≠ 0
  reported : ∀ cid nullifier, s.nullifierSpentGlobal cid nullifier = true →
    cid ∈ s.registeredChainIds ∧ cid ≠ 0

/-- **With the list right, the lookup is.** -/
theorem Findable.exact {s : Storage} (h : Findable s) (nullifier : Bytes32) :
    Exact s nullifier := by
  cases hfind : s.registeredChainIds.find?
      (fun cid => s.nullifierSpentGlobal cid nullifier) with
  | none =>
    have hnone := List.find?_eq_none.mp hfind
    refine ⟨?_, ?_⟩
    · rw [isNullifierSpentGlobally, hfind]
      refine iff_of_false Bool.false_ne_true ?_
      rintro ⟨cid, hcid⟩
      exact hnone cid (h.reported cid nullifier hcid).1 hcid
    · rw [isNullifierSpentGlobally, hfind]
      exact fun hspent => absurd hspent Bool.false_ne_true
  | some cid =>
    have hcid : s.nullifierSpentGlobal cid nullifier = true :=
      List.find?_some (p := fun cid => s.nullifierSpentGlobal cid nullifier) hfind
    refine ⟨?_, ?_⟩
    · rw [isNullifierSpentGlobally, hfind]
      exact iff_of_true rfl ⟨cid, hcid⟩
    · rw [isNullifierSpentGlobally, hfind]
      exact fun _ => ⟨(h.reported cid nullifier hcid).2, hcid⟩

/-! ## Runs -/

variable {hash : Uint256 → Uint256 → Uint256}

theorem Findable.init (governance : Address) : Findable (construct governance) where
  registered _ hne := absurd rfl hne
  reported _ _ hspent := absurd hspent Bool.false_ne_true

/-- A record that keeps its id is on the list as before. -/
theorem Findable.update {s : Storage} (h : Findable s) {chainId : Uint256}
    {reg : ChainRegistration} (hid : reg.chainId = (s.chains chainId).chainId)
    (epochRoots : Uint256 → ℕ → Bytes32) :
    Findable { s with
      chains := Function.update s.chains chainId reg
      epochRoots := epochRoots } := by
  refine ⟨fun cid hne => ?_, h.reported⟩
  refine h.registered cid ?_
  dsimp only at hne
  by_cases hcid : cid = chainId
  · rwa [hcid, Function.update_self, hid, ← hcid] at hne
  · rwa [Function.update_of_ne hcid] at hne

/-- **A call keeps the list right.** -/
theorem Findable.step {c : Call} {s s' : Storage} (h : Findable s) (heff : Effect hash c s s') :
    Findable s' := by
  cases heff with
  | @registerChain chainId name bridgeAdapter =>
    refine ⟨fun cid hne => ?_, fun cid nullifier hspent => ?_⟩
    · dsimp only at hne ⊢
      by_cases hcid : cid = chainId
      · rw [hcid, Function.update_self] at hne
        rw [hcid]
        exact ⟨List.mem_append_right _ (List.mem_singleton_self _), hne⟩
      · rw [Function.update_of_ne hcid] at hne
        exact (h.registered cid hne).imp_left (List.mem_append_left _)
    · exact (h.reported cid nullifier hspent).imp_left (List.mem_append_left _)
  | deactivateChain => exact h.update (by rfl) _
  | updateBridgeAdapter => exact h.update (by rfl) _
  | submitEpochRoot => exact h.update (by rfl) _
  | createGlobalSnapshot => exact ⟨h.registered, h.reported⟩
  | @reportNullifierSpent chainId nullifier _ _ _ _ registered =>
    refine ⟨h.registered, fun cid n hspent => ?_⟩
    dsimp only at hspent
    by_cases hcid : cid = chainId
    · -- the chain that is reported on goes by an id
      rw [hcid]
      exact h.registered chainId registered
    · rw [Function.update_of_ne hcid] at hspent
      exact h.reported cid n hspent

/-- **A report is never taken back.** -/
theorem Effect.reported {c : Call} {s s' : Storage} (heff : Effect hash c s s')
    {cid : Uint256} {nullifier : Bytes32} (h : s.nullifierSpentGlobal cid nullifier = true) :
    s'.nullifierSpentGlobal cid nullifier = true := by
  cases heff with
  | @reportNullifierSpent chainId reportedNullifier =>
    show Function.update s.nullifierSpentGlobal chainId _ cid nullifier = true
    by_cases hcid : cid = chainId
    · rw [hcid] at h ⊢
      rw [Function.update_self]
      exact (update_true_eq_true _ reportedNullifier nullifier).mpr (Or.inl h)
    · rwa [Function.update_of_ne hcid]
  | _ => exact h

/-- The list is right in every reachable state. -/
theorem findable_of_run {governance : Address} {tr : List (Storage × Call)} {s : Storage}
    (hrun : Run (step hash) (fun _ _ => True) (construct governance) tr s) : Findable s :=
  hrun.invariant (I := fun _ s => Findable s) (Findable.init governance)
    (fun _ _ _ _ h _ hstep => h.step (step_effect hstep))

/-- **The lookup is exact and permanent**, in every reachable state and for every
nullifier: it is right, and what it once says is spent it says is spent ever
after. -/
theorem isNullifierSpentGlobally_exact {governance : Address} {tr : List (Storage × Call)}
    {s : Storage} (hrun : Run (step hash) (fun _ _ => True) (construct governance) tr s)
    (nullifier : Bytes32) :
    Exact s nullifier ∧ ∀ tr' s', Run (step hash) (fun _ _ => True) s tr' s' →
      (isNullifierSpentGlobally s nullifier).1 = true →
        (isNullifierSpentGlobally s' nullifier).1 = true := by
  have hs := findable_of_run hrun
  refine ⟨hs.exact nullifier, fun tr' s' hrun' hspent => ?_⟩
  obtain ⟨cid, hcid⟩ := (hs.exact nullifier).spent_iff.mp hspent
  have hlater : Findable s' ∧ s'.nullifierSpentGlobal cid nullifier = true := by
    refine hrun'.invariant
      (I := fun _ s' => Findable s' ∧ s'.nullifierSpentGlobal cid nullifier = true)
      ⟨hs, hcid⟩ ?_
    intro tr s c s' hs _ hstep
    exact ⟨hs.1.step (step_effect hstep), (step_effect hstep).reported hs.2⟩
  exact (hlater.1.exact nullifier).spent_iff.mpr ⟨cid, hlater.2⟩

/-- A nullifier that is reported on chain 7, which is deactivated afterwards. -/
theorem isNullifierSpentGlobally_exact_reported :
    ∃ s, isNullifierSpentGlobally s 5 = (true, 7) ∧ (s.chains 7).active = false
      ∧ Exact s 5 := by
  have hrun : ∃ tr s, Run (step (fun a b => 3 * a + b + 1)) (fun _ _ => True) (construct 1) tr s
      ∧ isNullifierSpentGlobally s 5 = (true, 7) ∧ (s.chains 7).active = false :=
    ⟨_, _, (((Run.nil.snoc (c := ⟨1, 0, .registerChain 7 "A" 2⟩) trivial rfl).snoc
      (c := ⟨2, 0, .submitEpochRoot 7 0 16 1⟩) trivial rfl).snoc
      (c := ⟨9, 0, .reportNullifierSpent 7 5 0 [0] [0]⟩) trivial rfl).snoc
      (c := ⟨1, 0, .deactivateChain 7⟩) trivial rfl, rfl, rfl⟩
  obtain ⟨tr, s, hrun, hlookup, hinactive⟩ := hrun
  exact ⟨s, hlookup, hinactive, (isNullifierSpentGlobally_exact hrun 5).1⟩

end UniversalNullifierRegistry
