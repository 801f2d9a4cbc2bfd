import SoulPrivacy.UniversalNullifierRegistry
import Mathlib.SetTheory.Cardinal.Finite

/-!
# Global snapshots

A snapshot folds the latest roots of the registered chains, in the order of
the list of their ids, and counts them. It should see each active chain
that has a root once.

The list grows with every registration, and what a registration asks for
is only that the chain is not active. So the list is the sequence of all
registrations, and its ids repeat as soon as a deactivated chain is
registered again. A snapshot is exact in a run if and only if each chain
was registered once (`snapshotExact_iff`).
-/

namespace UniversalNullifierRegistry

variable (hash : Uint256 → Uint256 → Uint256)

/-- The chain a call registers. -/
def registers (p : Storage × Call) : List Uint256 :=
  match p.2.entry with
  | .registerChain chainId _ _ => [chainId]
  | _ => []

/-- **The registrations of a trace**, in order. -/
def registrations (tr : List (Storage × Call)) : List Uint256 :=
  tr.flatMap registers

/-- A chain that is active and has a latest root. -/
def Counted (chains : Uint256 → ChainRegistration) (chainId : Uint256) : Prop :=
  (chains chainId).active = true ∧ (chains chainId).latestEpochRoot ≠ 0

instance (chains : Uint256 → ChainRegistration) : DecidablePred (Counted chains) :=
  fun _ => inferInstanceAs (Decidable (_ ∧ _))

/-- **What a snapshot is meant to be**: no id is listed twice, and a
snapshot counts the active chains with a latest root and folds one latest
root of each, in the order in which the chains were first registered. -/
structure SnapshotExact (tr : List (Storage × Call)) (s : Storage) : Prop where
  nodup : s.registeredChainIds.Nodup
  snapshot : ∀ sender timestamp, ∃ s' snap,
    step hash ⟨sender, timestamp, .createGlobalSnapshot⟩ s = .ok s'
      ∧ s'.snapshots = s.snapshots ++ [snap]
      ∧ snap.chainCount = Nat.card { chainId // Counted s.chains chainId }
      ∧ snap.aggregatedRoot
        = (((registrations tr).eraseDups.filter (Counted s.chains)).map
            (fun chainId => (s.chains chainId).latestEpochRoot)).foldl hash 0

/-- **The condition**: a chain is registered only if it never was. -/
def FirstRegistration (s : Storage) (c : Call) : Prop :=
  ∀ chainId name bridgeAdapter,
    c.entry = .registerChain chainId name bridgeAdapter → chainId ∉ s.registeredChainIds

/-! ## The loop -/

/-- **The loop folds the roots of the counted chains**, and counts them. -/
theorem foldl_aggregate (chains : Uint256 → ChainRegistration) (ids : List Uint256)
    (acc : Bytes32 × ℕ) :
    ids.foldl (aggregate hash chains) acc
      = (((ids.filter (Counted chains)).map (fun cid => (chains cid).latestEpochRoot)).foldl
          hash acc.1, acc.2 + (ids.filter (Counted chains)).length) := by
  induction ids generalizing acc with
  | nil => rfl
  | cons cid ids ih =>
    by_cases h : Counted chains cid
    · have hstep : aggregate hash chains acc cid
          = (hash acc.1 (chains cid).latestEpochRoot, acc.2 + 1) := if_pos h
      rw [List.foldl_cons, ih, hstep, List.filter_cons_of_pos (by simpa using h),
        List.map_cons, List.foldl_cons, List.length_cons, Nat.add_assoc, Nat.add_comm 1]
    · have hstep : aggregate hash chains acc cid = acc := if_neg h
      rw [List.foldl_cons, ih, hstep, List.filter_cons_of_neg (by simpa using h)]

/-- A list without repetitions has none to erase. -/
theorem eraseDups_of_nodup {ids : List Uint256} (h : ids.Nodup) : ids.eraseDups = ids := by
  induction ids with
  | nil => rfl
  | cons cid ids ih =>
    obtain ⟨hnew, htail⟩ := List.nodup_cons.mp h
    have hall : ids.filter (fun b => !b == cid) = ids := by
      refine List.filter_eq_self.mpr (fun b hb => ?_)
      have hne : b ≠ cid := fun heq => hnew (heq ▸ hb)
      simpa using hne
    rw [List.eraseDups_cons, hall, ih htail]

/-! ## The list of the ids -/

/-- **The invariant of the list**: it holds the registrations of the trace,
and among them every active chain. -/
structure Listed (tr : List (Storage × Call)) (s : Storage) : Prop where
  ids : s.registeredChainIds = registrations tr
  active : ∀ chainId, (s.chains chainId).active = true → chainId ∈ s.registeredChainIds

theorem registrations_snoc (tr : List (Storage × Call)) (p : Storage × Call) :
    registrations (tr ++ [p]) = registrations tr ++ registers p := by
  rw [registrations, List.flatMap_append, List.flatMap_singleton]
  rfl

variable {hash}

/-- A call that is no registration registers nothing. -/
theorem registers_eq_nil {s : Storage} {c : Call}
    (h : ∀ chainId name bridgeAdapter, c.entry ≠ .registerChain chainId name bridgeAdapter) :
    registers (s, c) = [] := by
  unfold registers
  split
  · rename_i heq
    exact absurd heq (h _ _ _)
  · rfl

/-- … and leaves the list as it is. -/
theorem append_registers {s : Storage} {c : Call} {entry : Entry} (hentry : c.entry = entry)
    (h : ∀ chainId name bridgeAdapter, entry ≠ .registerChain chainId name bridgeAdapter) :
    s.registeredChainIds = s.registeredChainIds ++ registers (s, c) := by
  rw [registers_eq_nil (fun chainId name bridgeAdapter => hentry ▸ h chainId name bridgeAdapter),
    List.append_nil]

/-- **A call adds to the list what it registers.** -/
theorem Effect.registeredChainIds_eq {c : Call} {s s' : Storage} (h : Effect hash c s s') :
    s'.registeredChainIds = s.registeredChainIds ++ registers (s, c) := by
  cases h with
  | registerChain entry_eq => rw [registers, entry_eq]
  | deactivateChain entry_eq => exact append_registers entry_eq nofun
  | updateBridgeAdapter entry_eq => exact append_registers entry_eq nofun
  | submitEpochRoot entry_eq => exact append_registers entry_eq nofun
  | createGlobalSnapshot entry_eq => exact append_registers entry_eq nofun
  | reportNullifierSpent entry_eq => exact append_registers entry_eq nofun

/-- The active chains after one registration was replaced. -/
theorem active_update {chains : Uint256 → ChainRegistration} {cid chainId : Uint256}
    {chain : ChainRegistration}
    (h : (Function.update chains cid chain chainId).active = true) :
    (chains chainId).active = true ∨ (chainId = cid ∧ chain.active = true) := by
  by_cases heq : chainId = cid
  · rw [heq, Function.update_self] at h
    exact Or.inr ⟨heq, h⟩
  · rw [Function.update_of_ne heq] at h
    exact Or.inl h

/-- **Only a registration makes a chain active.** -/
theorem Effect.active {c : Call} {s s' : Storage} (h : Effect hash c s s')
    {chainId : Uint256} (hactive : (s'.chains chainId).active = true) :
    (s.chains chainId).active = true ∨ chainId ∈ registers (s, c) := by
  cases h with
  | registerChain entry_eq =>
    rw [registers, entry_eq, List.mem_singleton]
    exact (active_update hactive).imp_right And.left
  | deactivateChain =>
    exact (active_update hactive).imp_right (fun h => absurd h.2 nofun)
  | updateBridgeAdapter =>
    exact Or.inl ((active_update hactive).elim id (fun h => h.1 ▸ h.2))
  | submitEpochRoot _ active =>
    exact Or.inl ((active_update hactive).elim id (fun h => h.1 ▸ active))
  | createGlobalSnapshot => exact Or.inl hactive
  | reportNullifierSpent => exact Or.inl hactive

/-- **A call keeps the invariant.** -/
theorem Listed.step {tr : List (Storage × Call)} {s s' : Storage} {c : Call}
    (h : Listed tr s) (heff : Effect hash c s s') : Listed (tr ++ [(s, c)]) s' := by
  refine ⟨?_, fun chainId hactive => ?_⟩
  · rw [heff.registeredChainIds_eq, registrations_snoc, h.ids]
  · rw [heff.registeredChainIds_eq, List.mem_append]
    exact (heff.active hactive).imp_left (h.active chainId)

theorem listed_of_run {allowed : Storage → Call → Prop} {governance : Address}
    {tr : List (Storage × Call)} {s : Storage}
    (hrun : Run (step hash) allowed (construct governance) tr s) : Listed tr s := by
  have hinit : Listed [] (construct governance) := ⟨rfl, nofun⟩
  exact hrun.invariant hinit (fun tr s c s' h _ hs => h.step (step_effect hs))

/-- **No id is listed twice if and only if every registration was the
first of its chain.** -/
theorem nodup_iff {governance : Address} {tr : List (Storage × Call)} {s : Storage}
    (hrun : Run (step hash) (fun _ _ => True) (construct governance) tr s) :
    s.registeredChainIds.Nodup ↔ ∀ p ∈ tr, FirstRegistration p.1 p.2 := by
  induction hrun with
  | nil => exact ⟨fun _ _ h => absurd h List.not_mem_nil, fun _ => List.nodup_nil⟩
  | @snoc tr s s' c hrun _ hs ih =>
    rw [(step_effect hs).registeredChainIds_eq, List.forall_mem_append,
      List.forall_mem_singleton, ← ih]
    by_cases hc : ∃ chainId name bridgeAdapter,
        c.entry = .registerChain chainId name bridgeAdapter
    · obtain ⟨chainId, name, bridgeAdapter, hentry⟩ := hc
      have hfirst : FirstRegistration s c ↔ chainId ∉ s.registeredChainIds := by
        unfold FirstRegistration
        rw [hentry]
        exact ⟨fun h => h _ _ _ rfl, fun h _ _ _ heq => by cases heq; exact h⟩
      rw [hfirst, registers, hentry, List.nodup_append_comm, List.singleton_append,
        List.nodup_cons, and_comm]
    · have hfirst : FirstRegistration s c :=
        fun chainId name bridgeAdapter heq => absurd ⟨_, _, _, heq⟩ hc
      rw [registers_eq_nil (fun cid n b heq => hc ⟨cid, n, b, heq⟩), List.append_nil,
        and_iff_left hfirst]

/-! ## Snapshots -/

/-- **Snapshots are exact in a run if and only if no chain was registered
twice in it.** -/
theorem snapshotExact_iff {governance : Address} {tr : List (Storage × Call)}
    {s : Storage}
    (hrun : Run (step hash) (fun _ _ => True) (construct governance) tr s) :
    SnapshotExact hash tr s ↔ ∀ p ∈ tr, FirstRegistration p.1 p.2 := by
  rw [← nodup_iff hrun]
  refine ⟨fun h => h.nodup, fun hnodup => ⟨hnodup, fun sender timestamp => ?_⟩⟩
  have hlisted := listed_of_run hrun
  have hloop := foldl_aggregate hash s.chains s.registeredChainIds (0, 0)
  refine ⟨_, _, rfl, rfl, ?_, ?_⟩
  · have hmem : ∀ chainId, chainId ∈ (s.registeredChainIds.filter (Counted s.chains)).toFinset
        ↔ Counted s.chains chainId := by
      intro chainId
      rw [List.mem_toFinset, List.mem_filter, decide_eq_true_iff]
      exact ⟨fun h => h.2, fun h => ⟨hlisted.active chainId h.1, h⟩⟩
    rw [Nat.subtype_card _ hmem, List.toFinset_card_of_nodup (hnodup.filter _), hloop]
    exact Nat.zero_add _
  · rw [hloop, ← hlisted.ids, eraseDups_of_nodup hnodup]

/-- Two chains with a root each, folded in the order of their
registration. -/
theorem snapshotExact_iff_two :
    ∃ tr s, Run (step (fun a b => 3 * a + b + 1)) (fun _ _ => True) (construct 1) tr s
      ∧ registrations tr = [7, 9]
      ∧ (∀ p ∈ tr, FirstRegistration p.1 p.2)
      ∧ SnapshotExact (fun a b => 3 * a + b + 1) tr s := by
  have hrun : ∃ tr s,
      Run (step (fun a b => 3 * a + b + 1)) (fun _ _ => True) (construct 1) tr s
      ∧ registrations tr = [7, 9] ∧ s.registeredChainIds = [7, 9] :=
    ⟨_, _, (((Run.nil.snoc (c := ⟨1, 0, .registerChain 7 "A" 2⟩) trivial rfl).snoc
      (c := ⟨1, 0, .registerChain 9 "B" 3⟩) trivial rfl).snoc
      (c := ⟨3, 0, .submitEpochRoot 9 0 5 1⟩) trivial rfl).snoc
      (c := ⟨2, 0, .submitEpochRoot 7 0 6 1⟩) trivial rfl, rfl, rfl⟩
  obtain ⟨tr, s, hrun, hregs, hids⟩ := hrun
  have hfirst := (nodup_iff hrun).mp (by rw [hids]; decide)
  exact ⟨tr, s, hrun, hregs, hfirst, (snapshotExact_iff hrun).mpr hfirst⟩

/-- **A snapshot that counts a chain twice.** The chain is deactivated and
registered again before its first root. -/
theorem exists_counted_twice :
    ∃ tr s s' snap,
      Run (step (fun a b => 3 * a + b + 1)) (fun _ _ => True) (construct 1) tr s
      ∧ s.registeredChainIds = [7, 7]
      ∧ (∀ chainId, Counted s.chains chainId → chainId = 7)
      ∧ step (fun a b => 3 * a + b + 1) ⟨9, 0, .createGlobalSnapshot⟩ s = .ok s'
      ∧ s'.snapshots = s.snapshots ++ [snap] ∧ snap.chainCount = 2
      ∧ ¬ SnapshotExact (fun a b => 3 * a + b + 1) tr s := by
  have hrun : ∃ tr s,
      Run (step (fun a b => 3 * a + b + 1)) (fun _ _ => True) (construct 1) tr s
      ∧ s.registeredChainIds = [7, 7]
      ∧ (s.chains 7).active = true ∧ (s.chains 7).latestEpochRoot = 5 :=
    ⟨_, _, (((Run.nil.snoc (c := ⟨1, 0, .registerChain 7 "A" 2⟩) trivial rfl).snoc
      (c := ⟨1, 0, .deactivateChain 7⟩) trivial rfl).snoc
      (c := ⟨1, 0, .registerChain 7 "A" 2⟩) trivial rfl).snoc
      (c := ⟨2, 0, .submitEpochRoot 7 0 5 1⟩) trivial rfl, rfl, rfl, rfl⟩
  obtain ⟨tr, s, hrun, hids, hactive, hroot⟩ := hrun
  have hcounted : Counted s.chains 7 := ⟨hactive, by rw [hroot]; decide⟩
  refine ⟨tr, s, _, _, hrun, hids, fun chainId h => ?_, rfl, rfl, ?_, fun hexact => ?_⟩
  · have hmem := (listed_of_run hrun).active chainId h.1
    rw [hids] at hmem
    simpa using hmem
  · have hloop := foldl_aggregate (fun a b => 3 * a + b + 1) s.chains
      s.registeredChainIds (0, 0)
    have hall : s.registeredChainIds.filter (Counted s.chains) = s.registeredChainIds := by
      refine List.filter_eq_self.mpr (fun chainId hmem => decide_eq_true ?_)
      rw [hids, List.mem_cons, List.mem_singleton, or_self] at hmem
      exact hmem ▸ hcounted
    rw [hloop, hall, hids]
    rfl
  · exact absurd (hids ▸ hexact.nodup) (by decide)

end UniversalNullifierRegistry
