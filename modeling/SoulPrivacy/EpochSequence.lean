import SoulPrivacy.UniversalNullifierRegistry

/-!
# The sequence of epochs in the registry

The registry is meant to take each epoch of each chain exactly once and in
order. What it goes by is the registration of the chain: an id and a root
that are both zero say that nothing was submitted yet. A zero root for
epoch 0 leaves them as they were, and registering a chain again resets
them. As long as neither happens (`InSequence`), a chain that is active
accepts exactly one epoch id, the number of epochs it has recorded.
-/

namespace UniversalNullifierRegistry

/-- The epoch ids a call submits for a chain. -/
def submits (chainId : Uint256) (p : Storage × Call) : List ℕ :=
  match p.2.entry with
  | .submitEpochRoot cid epochId _ _ => if cid = chainId then [epochId] else []
  | _ => []

/-- **The epochs a trace records for a chain**, in order. -/
def recorded (chainId : Uint256) (tr : List (Storage × Call)) : List ℕ :=
  tr.flatMap (submits chainId)

/-- The epoch id a registration asks for. -/
def ChainRegistration.expected (reg : ChainRegistration) : ℕ :=
  if reg.latestEpochRoot = 0 ∧ reg.latestEpochId = 0 then 0 else reg.latestEpochId + 1

/-- **The condition**: the root submitted for an epoch 0 is not zero, and
a chain is registered only when nothing was submitted for it. -/
structure InSequence (s : Storage) (c : Call) : Prop where
  root_ne : ∀ chainId nullifierRoot nullifierCount,
    c.entry = .submitEpochRoot chainId 0 nullifierRoot nullifierCount → nullifierRoot ≠ 0
  unused : ∀ chainId name bridgeAdapter,
    c.entry = .registerChain chainId name bridgeAdapter →
      (s.chains chainId).latestEpochRoot = 0 ∧ (s.chains chainId).latestEpochId = 0

/-- **The invariant of the sequence**: a chain has recorded the epochs
below the one it expects, and none from there on. -/
structure Sequenced (tr : List (Storage × Call)) (s : Storage) : Prop where
  recorded_eq : ∀ chainId, recorded chainId tr = List.range (s.chains chainId).expected
  unrecorded : ∀ chainId epochId, (s.chains chainId).expected ≤ epochId →
    s.epochRoots chainId epochId = 0

/-- The check of the sequence is for the expected id. -/
theorem checkSequence_eq_ok {chainId : Uint256} {epochId : ℕ}
    {reg : ChainRegistration} {u : Unit} :
    checkSequence chainId epochId reg = .ok u ↔ epochId = reg.expected := by
  unfold checkSequence ChainRegistration.expected
  split
  · rw [revertIf_eq_ok, not_not]
  · rw [revertIf_eq_ok, not_not]

theorem recorded_snoc (chainId : Uint256) (tr : List (Storage × Call))
    (p : Storage × Call) :
    recorded chainId (tr ++ [p]) = recorded chainId tr ++ submits chainId p := by
  rw [recorded, List.flatMap_append, List.flatMap_singleton]
  rfl

/-- A call that submits nothing records nothing. -/
theorem submits_eq_nil {s : Storage} {c : Call} (chainId : Uint256)
    (h : ∀ cid epochId root count, c.entry ≠ .submitEpochRoot cid epochId root count) :
    submits chainId (s, c) = [] := by
  unfold submits
  split
  · rename_i heq
    exact absurd heq (h _ _ _ _)
  · rfl

variable {hash : Uint256 → Uint256 → Uint256}

/-- A call that submits nothing keeps the invariant, when it leaves the
roots and what each chain expects. -/
theorem Sequenced.of_expected_eq {tr : List (Storage × Call)} {s s' : Storage} {c : Call}
    (h : Sequenced tr s)
    (hc : ∀ cid epochId root count, c.entry ≠ .submitEpochRoot cid epochId root count)
    (hexpected : ∀ chainId, (s'.chains chainId).expected = (s.chains chainId).expected)
    (hroots : s'.epochRoots = s.epochRoots) : Sequenced (tr ++ [(s, c)]) s' := by
  refine ⟨fun chainId => ?_, fun chainId epochId hle => ?_⟩
  · rw [recorded_snoc, submits_eq_nil chainId hc, List.append_nil, hexpected]
    exact h.recorded_eq chainId
  · rw [hexpected] at hle
    rw [hroots]
    exact h.unrecorded chainId epochId hle

/-- Replacing a registration by one that expects the same changes nothing
that is expected. -/
theorem expected_update {chains : Uint256 → ChainRegistration} {chainId : Uint256}
    {reg : ChainRegistration} (h : reg.expected = (chains chainId).expected)
    (cid : Uint256) :
    (Function.update chains chainId reg cid).expected = (chains cid).expected := by
  rw [Function.update_apply]
  split
  · rename_i heq
    rw [heq, h]
  · rfl

/-- **A call keeps the sequence**, under the condition. -/
theorem Sequenced.step {tr : List (Storage × Call)} {s s' : Storage} {c : Call}
    (h : Sequenced tr s) (hseq : InSequence s c) (heff : Effect hash c s s') :
    Sequenced (tr ++ [(s, c)]) s' := by
  cases heff with
  | registerChain entry_eq _ _ =>
    refine h.of_expected_eq (by rw [entry_eq]; exact nofun) (expected_update ?_) rfl
    -- both registrations say that nothing was submitted
    rw [ChainRegistration.expected, ChainRegistration.expected,
      if_pos (hseq.unused _ _ _ entry_eq)]
    exact if_pos ⟨rfl, rfl⟩
  | deactivateChain entry_eq _ _ =>
    exact h.of_expected_eq (by rw [entry_eq]; exact nofun) (expected_update rfl) rfl
  | updateBridgeAdapter entry_eq _ _ =>
    exact h.of_expected_eq (by rw [entry_eq]; exact nofun) (expected_update rfl) rfl
  | createGlobalSnapshot entry_eq =>
    exact h.of_expected_eq (by rw [entry_eq]; exact nofun) (fun _ => rfl) rfl
  | reportNullifierSpent entry_eq _ _ _ _ =>
    exact h.of_expected_eq (by rw [entry_eq]; exact nofun) (fun _ => rfl) rfl
  | @submitEpochRoot chainId epochId nullifierRoot _ entry_eq _ _ sequence _ =>
    have hid : epochId = (s.chains chainId).expected := checkSequence_eq_ok.mp sequence
    have hnext : ChainRegistration.expected { s.chains chainId with
        latestEpochId := epochId
        latestEpochRoot := nullifierRoot
        lastUpdatedAt := c.timestamp } = epochId + 1 := by
      refine if_neg ?_
      rintro ⟨hroot, rfl⟩
      exact hseq.root_ne _ _ _ entry_eq hroot
    refine ⟨fun cid => ?_, fun cid e hle => ?_⟩
    · rw [recorded_snoc, h.recorded_eq, submits, entry_eq]
      dsimp only
      by_cases hcid : chainId = cid
      · subst hcid
        rw [if_pos rfl, Function.update_self, hnext, ← hid, List.range_succ]
      · rw [if_neg hcid, Function.update_of_ne (Ne.symm hcid), List.append_nil]
    · dsimp only at hle ⊢
      by_cases hcid : cid = chainId
      · subst hcid
        rw [Function.update_self, hnext] at hle
        rw [Function.update_self, Function.update_of_ne (Nat.ne_of_gt hle)]
        exact h.unrecorded cid e (hid ▸ Nat.le_of_succ_le hle)
      · rw [Function.update_of_ne hcid] at hle ⊢
        exact h.unrecorded cid e hle

/-- **An active chain accepts exactly one epoch id**, in every run that
meets the condition: the number of epochs recorded for it, whatever the
root and the count. So the epochs it has recorded are `0, 1, 2, …`, each
once and in order. -/
theorem accepts_next_epoch {governance : Address} {tr : List (Storage × Call)}
    {s : Storage} (hrun : Run (step hash) InSequence (construct governance) tr s)
    {chainId : Uint256} (hactive : (s.chains chainId).active = true) :
    recorded chainId tr = List.range (recorded chainId tr).length
      ∧ ∀ sender timestamp epochId nullifierRoot nullifierCount,
        sender = (s.chains chainId).bridgeAdapter ∨ sender = s.governance →
          ((∃ s', step hash ⟨sender, timestamp, .submitEpochRoot chainId epochId
              nullifierRoot nullifierCount⟩ s = .ok s')
            ↔ epochId = (recorded chainId tr).length) := by
  have h : Sequenced tr s := by
    refine hrun.invariant ⟨fun _ => rfl, fun _ _ _ => rfl⟩ (fun tr s c s' h hc hs => ?_)
    exact h.step hc (step_effect hs)
  have hlen : (recorded chainId tr).length = (s.chains chainId).expected := by
    rw [h.recorded_eq, List.length_range]
  refine ⟨by rw [hlen]; exact h.recorded_eq chainId, ?_⟩
  intro sender timestamp epochId nullifierRoot nullifierCount hsender
  rw [submitEpochRoot_isOk, checkSequence_eq_ok, hlen]
  constructor
  · exact fun hok => hok.2.1
  · intro hid
    exact ⟨onlyAuthorizedBridge_eq_ok.mpr ⟨hactive, hsender⟩, hid,
      h.unrecorded chainId epochId hid.ge⟩

/-- A chain that submits one epoch. -/
theorem accepts_next_epoch_one :
    ∃ tr s, Run (step (fun a b => 3 * a + b + 1)) InSequence (construct 1) tr s
      ∧ recorded 7 tr = [0]
      ∧ ((∃ s', step (fun a b => 3 * a + b + 1)
          ⟨2, 0, .submitEpochRoot 7 1 0 0⟩ s = .ok s') ↔ 1 = 1) := by
  have hrun : ∃ tr s, Run (step (fun a b => 3 * a + b + 1)) InSequence (construct 1) tr s
      ∧ recorded 7 tr = [0] ∧ (s.chains 7).active = true
      ∧ (s.chains 7).bridgeAdapter = 2 :=
    ⟨_, _, (Run.nil.snoc (c := ⟨1, 0, .registerChain 7 "A" 2⟩)
        ⟨nofun, fun _ _ _ h => by cases h; exact ⟨rfl, rfl⟩⟩ rfl).snoc
      (c := ⟨2, 0, .submitEpochRoot 7 0 5 1⟩)
        ⟨fun _ _ _ h => by cases h; decide, nofun⟩ rfl, rfl, rfl, rfl⟩
  obtain ⟨tr, s, hrun, hrec, hactive, hbridge⟩ := hrun
  obtain ⟨-, haccepts⟩ := accepts_next_epoch hrun hactive
  refine ⟨tr, s, hrun, hrec, ?_⟩
  have h := haccepts 2 0 1 0 0 (Or.inl hbridge.symm)
  rwa [hrec] at h

/-- **Two runs that leave the sequence.** After a zero root for epoch 0
the chain takes epoch 0 a second time; and a chain that is deactivated and
registered again takes no epoch at all. -/
theorem exists_out_of_sequence :
    (∃ tr s s', Run (step (fun a b => 3 * a + b + 1)) (fun _ _ => True) (construct 1) tr s
      ∧ (s.chains 7).active = true ∧ recorded 7 tr = [0]
      ∧ step (fun a b => 3 * a + b + 1) ⟨2, 0, .submitEpochRoot 7 0 0 0⟩ s = .ok s')
    ∧ (∃ tr s, Run (step (fun a b => 3 * a + b + 1)) (fun _ _ => True) (construct 1) tr s
      ∧ (s.chains 7).active = true ∧ recorded 7 tr = [0]
      ∧ ∀ sender timestamp epochId root count,
        ¬ ∃ s', step (fun a b => 3 * a + b + 1)
          ⟨sender, timestamp, .submitEpochRoot 7 epochId root count⟩ s = .ok s') := by
  refine ⟨?_, ?_⟩
  · exact ⟨_, _, _, (Run.nil.snoc (c := ⟨1, 0, .registerChain 7 "A" 2⟩) trivial rfl).snoc
      (c := ⟨2, 0, .submitEpochRoot 7 0 0 0⟩) trivial rfl, rfl, rfl, rfl⟩
  · refine ⟨_, _, (((Run.nil.snoc (c := ⟨1, 0, .registerChain 7 "A" 2⟩) trivial rfl).snoc
      (c := ⟨2, 0, .submitEpochRoot 7 0 5 1⟩) trivial rfl).snoc
      (c := ⟨1, 0, .deactivateChain 7⟩) trivial rfl).snoc
      (c := ⟨1, 0, .registerChain 7 "A" 2⟩) trivial rfl, rfl, rfl, ?_⟩
    intro sender timestamp epochId root count hok
    obtain ⟨-, hseq, hnew⟩ := submitEpochRoot_isOk.mp hok
    obtain rfl := checkSequence_eq_ok.mp hseq
    exact absurd hnew (by decide)

end UniversalNullifierRegistry
