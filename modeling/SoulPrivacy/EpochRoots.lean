import SoulPrivacy.EpochManager

/-!
# The roots of finalized epochs

A finalized epoch is meant to stay as it is: its root is the root of all
its nullifiers. The contract keeps that promise as long as no nullifier
is registered while the current epoch is finalized (`RegistersOpen`).
`finalizeEpoch`, which anyone may call, leaves the epoch current, so the
next registration goes into an epoch whose root is already fixed, and the
root does not cover it (`exists_uncovered`).
-/

namespace EpochManager

variable (H : Hashes)

/-- What a call registers in an epoch, given the state it is made in. -/
def registers (e : ℕ) (p : Storage × Call) : List Bytes32 :=
  match p.2.entry with
  | .registerNullifier nullifier => if p.1.currentEpochId = e then [nullifier] else []
  | _ => []

/-- **The nullifiers a trace registers in an epoch**, in order. -/
def registered (e : ℕ) (tr : List (Storage × Call)) : List Bytes32 :=
  tr.flatMap (registers e)

/-- A storage the constructor leaves. -/
def Deployed (s : Storage) : Prop :=
  ∃ sender timestamp epochDuration domainChainId,
    construct sender timestamp epochDuration domainChainId = .ok s

/-- **The condition**: nullifiers are registered in open epochs only. -/
def RegistersOpen (s : Storage) (c : Call) : Prop :=
  ∀ nullifier, c.entry = .registerNullifier nullifier →
    (s.epochs s.currentEpochId).finalized = false

/-- **The invariant of the epochs**: the lists hold what was registered,
the roots of finalized epochs are the roots of their lists, and the epochs
to come are untouched. -/
structure Complete (tr : List (Storage × Call)) (s : Storage) : Prop where
  lists : ∀ e, s.epochNullifiers e = registered e tr
  roots : ∀ e, (s.epochs e).finalized = true →
    (s.epochs e).nullifierRoot = merkleRoot H.poseidon (s.epochNullifiers e)
  future : ∀ e, s.currentEpochId < e → (s.epochs e).finalized = false

variable {H}

theorem registered_append (e : ℕ) (tr tr' : List (Storage × Call)) :
    registered e (tr ++ tr') = registered e tr ++ registered e tr' :=
  List.flatMap_append

/-- Only a registration registers. -/
theorem registers_eq_nil {c : Call} {s : Storage} (e : ℕ)
    (h : ∀ nullifier, c.entry ≠ .registerNullifier nullifier) :
    registers e (s, c) = [] := by
  unfold registers
  split
  · rename_i nullifier heq
    exact absurd heq (h nullifier)
  · rfl

/-- **A call adds to the lists what it registers.** -/
theorem Effect.epochNullifiers_eq {c : Call} {s s' : Storage} (h : Effect H c s s')
    (e : ℕ) : s'.epochNullifiers e = s.epochNullifiers e ++ registers e (s, c) := by
  cases h with
  | register entry_eq _ _ _ lists =>
    rw [lists, registers, entry_eq]
    by_cases he : s.currentEpochId = e
    · subst he
      simp
    · simp [he, Function.update_of_ne (Ne.symm he)]
  | finalize entry_eq _ _ _ lists =>
    rw [lists, registers_eq_nil e (by rw [entry_eq]; exact nofun), List.append_nil]
  | start _ entry_eq _ _ _ _ lists =>
    rw [lists, registers_eq_nil e (by rw [entry_eq]; exact nofun), List.append_nil]
  | other entry_ne _ _ lists =>
    rw [lists, registers_eq_nil e entry_ne, List.append_nil]

variable (H) in
/-- **What a call did to one epoch.** -/
inductive EpochEffect (c : Call) (s s' : Storage) (e : ℕ) : Prop
  | same (epoch_eq : s'.epochs e = s.epochs e) (nothing : registers e (s, c) = [])
  | counted {nullifier : Bytes32} (entry_eq : c.entry = .registerNullifier nullifier)
      (current : e = s.currentEpochId)
      (epoch_eq : s'.epochs e
        = { s.epochs e with nullifierCount := (s.epochs e).nullifierCount + 1 })
  | closed (current : e = s.currentEpochId) (opened : (s.epochs e).finalized = false)
      (epoch_eq : s'.epochs e = finalizedAt c.timestamp (s.epochs e)
        (merkleRoot H.poseidon (s.epochNullifiers e)))
      (nothing : registers e (s, c) = [])
  | started (next : e = s.currentEpochId + 1) (current : s'.currentEpochId = e)
      (epoch_eq : s'.epochs e
        = ⟨c.timestamp, c.timestamp + s.epochDuration, 0, 0, false⟩)

theorem Effect.epoch {c : Call} {s s' : Storage} (h : Effect H c s s') (e : ℕ) :
    EpochEffect H c s s' e := by
  cases h with
  | register entry_eq _ _ epochs _ =>
    by_cases he : e = s.currentEpochId
    · refine .counted entry_eq he ?_
      rw [epochs, he, Function.update_self]
    · refine .same ?_ ?_
      · rw [epochs, Function.update_of_ne he]
      · rw [registers, entry_eq]
        exact if_neg (Ne.symm he)
  | finalize entry_eq opened _ epochs _ =>
    have hnone : registers e (s, c) = [] :=
      registers_eq_nil e (by rw [entry_eq]; exact nofun)
    by_cases he : e = s.currentEpochId
    · refine .closed he (he ▸ opened) ?_ hnone
      rw [epochs, he, Function.update_self]
    · refine .same ?_ hnone
      rw [epochs, Function.update_of_ne he]
  | start closed entry_eq _ closing current epochs _ =>
    have hnone : registers e (s, c) = [] :=
      registers_eq_nil e (by rw [entry_eq]; exact nofun)
    by_cases hnext : e = s.currentEpochId + 1
    · refine .started hnext (current.trans hnext.symm) ?_
      rw [epochs, hnext, Function.update_self]
    have hrest : s'.epochs e = closed e := by rw [epochs, Function.update_of_ne hnext]
    split at closing
    · exact .same (by rw [hrest, closing]) hnone
    · rename_i hcur
      by_cases he : e = s.currentEpochId
      · refine .closed he (he ▸ Bool.eq_false_of_not_eq_true hcur) ?_ hnone
        rw [hrest, closing, he, Function.update_self]
      · exact .same (by rw [hrest, closing, Function.update_of_ne he]) hnone
  | other entry_ne _ epochs _ =>
    exact .same (by rw [epochs]) (registers_eq_nil e entry_ne)

/-- The current epoch never goes back. -/
theorem Effect.current_le {c : Call} {s s' : Storage} (h : Effect H c s s') :
    s.currentEpochId ≤ s'.currentEpochId := by
  cases h with
  | register _ _ current => exact current.ge
  | finalize _ _ current => exact current.ge
  | start _ _ _ _ current => exact current ▸ Nat.le_succ _
  | other _ current => exact current.ge

/-- **A finalized epoch is frozen**: under the condition a call leaves it
as it is and adds nothing to it. -/
theorem Effect.frozen {c : Call} {s s' : Storage} (h : Effect H c s s')
    (hopen : RegistersOpen s c) {e : ℕ} (he : (s.epochs e).finalized = true)
    (hle : e ≤ s.currentEpochId) :
    s'.epochs e = s.epochs e ∧ registers e (s, c) = [] := by
  cases h.epoch e with
  | same epoch_eq nothing => exact ⟨epoch_eq, nothing⟩
  | counted entry_eq current =>
    rw [current, hopen _ entry_eq] at he
    cases he
  | closed _ opened =>
    rw [opened] at he
    cases he
  | started next => exact absurd (next ▸ hle) (Nat.not_succ_le_self _)

/-- An epoch that is finalized is no later than the current one. -/
theorem Complete.le_current {tr : List (Storage × Call)} {s : Storage}
    (hc : Complete H tr s) {e : ℕ} (he : (s.epochs e).finalized = true) :
    e ≤ s.currentEpochId := by
  by_contra hlt
  rw [hc.future e (not_le.mp hlt)] at he
  cases he

/-- A deployed manager has finalized nothing. -/
theorem Complete.init {s : Storage} (h : Deployed s) : Complete H [] s := by
  obtain ⟨sender, timestamp, epochDuration, domainChainId, h⟩ := h
  unfold construct at h
  obtain ⟨epoch, hepoch, h⟩ := (Except.bind_eq_ok _ _ _).mp h
  obtain rfl := newEpoch_eq_ok hepoch
  cases h
  have hopen : ∀ e, (Function.update (fun _ => (⟨0, 0, 0, 0, false⟩ : Epoch)) 0
      ⟨timestamp, timestamp + epochDuration, 0, 0, false⟩ e).finalized = false := by
    intro e
    rw [Function.update_apply]
    split <;> rfl
  refine ⟨fun _ => rfl, fun e he => ?_, fun e _ => hopen e⟩
  exact absurd (he.symm.trans (hopen e)) nofun

/-- **A call keeps the invariant**, under the condition. -/
theorem Complete.step {tr : List (Storage × Call)} {s s' : Storage} {c : Call}
    (hc : Complete H tr s) (hopen : RegistersOpen s c) (h : Effect H c s s') :
    Complete H (tr ++ [(s, c)]) s' := by
  refine ⟨fun e => ?_, fun e he => ?_, fun e hlt => ?_⟩
  · rw [h.epochNullifiers_eq e, hc.lists e, registered_append]
    exact congrArg _ (List.append_nil _).symm
  · cases h.epoch e with
    | same epoch_eq nothing =>
      rw [epoch_eq] at he ⊢
      rw [hc.roots e he, h.epochNullifiers_eq e, nothing, List.append_nil]
    | counted entry_eq current epoch_eq =>
      -- the condition excludes a registration in a finalized epoch
      rw [epoch_eq, current] at he
      exact absurd he (by rw [hopen _ entry_eq]; exact nofun)
    | closed _ _ epoch_eq nothing =>
      rw [epoch_eq, h.epochNullifiers_eq e, nothing, List.append_nil]
      rfl
    | started _ _ epoch_eq =>
      rw [epoch_eq] at he
      cases he
  · have hcur : s.currentEpochId < e := h.current_le.trans_lt hlt
    cases h.epoch e with
    | same epoch_eq => exact epoch_eq ▸ hc.future e hcur
    | counted _ current => exact absurd current hcur.ne'
    | closed current => exact absurd current hcur.ne'
    | started _ current => exact absurd current hlt.ne

/-- **The invariant holds throughout a run** that registers in open epochs
only. -/
theorem complete_of_run {s₀ : Storage} (hdeployed : Deployed s₀)
    {tr : List (Storage × Call)} {s : Storage}
    (hrun : Run (step H) RegistersOpen s₀ tr s) : Complete H tr s :=
  hrun.invariant (Complete.init hdeployed)
    (fun _ _ _ _ hc hopen hs => hc.step hopen (step_effect hs))

/-- **Finalized epoch roots are complete**, in every run that registers in
open epochs only: the root of a finalized epoch is the root of all the
nullifiers ever registered in it, and however the run goes on, the epoch
stays finalized, keeps its root, and has nothing added to it. -/
theorem finalized_root_complete {s₀ : Storage} (hdeployed : Deployed s₀)
    {tr : List (Storage × Call)} {s : Storage}
    (hrun : Run (step H) RegistersOpen s₀ tr s) {e : ℕ}
    (he : (s.epochs e).finalized = true) :
    (s.epochs e).nullifierRoot = merkleRoot H.poseidon (registered e tr)
      ∧ ∀ {tr' s'}, Run (step H) RegistersOpen s tr' s' →
          (s'.epochs e).finalized = true
            ∧ (s'.epochs e).nullifierRoot = (s.epochs e).nullifierRoot
            ∧ registered e tr' = [] := by
  have hc := complete_of_run hdeployed hrun
  refine ⟨hc.lists e ▸ hc.roots e he, fun {tr' s'} hrun' => ?_⟩
  have hkept : Complete H (tr ++ tr') s' ∧ s'.epochs e = s.epochs e
      ∧ registered e tr' = [] := by
    refine hrun'.invariant (I := fun tr' s' => Complete H (tr ++ tr') s'
      ∧ s'.epochs e = s.epochs e ∧ registered e tr' = []) ?_ ?_
    · exact ⟨by rwa [List.append_nil], rfl, rfl⟩
    · rintro tr₁ s₁ c s₂ ⟨hc₁, hsame, hnone⟩ hopen hs
      have he₁ : (s₁.epochs e).finalized = true := hsame ▸ he
      obtain ⟨hsame', hnone'⟩ := (step_effect hs).frozen hopen he₁ (hc₁.le_current he₁)
      refine ⟨?_, hsame'.trans hsame, ?_⟩
      · rw [← List.append_assoc]
        exact hc₁.step hopen (step_effect hs)
      · rw [registered_append, hnone]
        exact (List.append_nil _).trans hnone'
  obtain ⟨-, hsame, hnone⟩ := hkept
  exact ⟨hsame ▸ he, by rw [hsame], hnone⟩

/-- Toy hashes. -/
def toyHashes : Hashes where
  poseidon a b := 3 * a + b + 1
  keccak256 bytes := BitVec.ofNat 256 (bytes.foldl (fun n b => 256 * n + b.toNat) 0)

/-- A manager deployed at time 0 by account 1, with epochs of length 10. -/
def toyManager : Storage where
  currentEpochId := 0
  epochDuration := 10
  domainChainId := 7
  epochs := Function.update (fun _ => ⟨0, 0, 0, 0, false⟩) 0 ⟨0, 10, 0, 0, false⟩
  epochNullifiers := fun _ => []
  remoteRoots := fun _ => ⟨0, 0, 0, 0⟩
  localNullifiers := fun _ => false
  authorizedPools := fun _ => false
  authorizedBridges := fun _ => false
  governance := 1

variable (H) in
/-- **Any list can be the list of an epoch**: governance authorizes a pool,
and the pool registers the nullifiers one by one. -/
theorem exists_epoch (nullifiers : List Bytes32) :
    ∃ tr m, Run (step H) RegistersOpen toyManager tr m ∧ registered 0 tr = nullifiers
      ∧ m.epochNullifiers 0 = nullifiers ∧ m.currentEpochId = 0
      ∧ (m.epochs 0).finalized = false ∧ m.authorizedPools 2 = true := by
  induction nullifiers using List.reverseRecOn with
  | nil =>
    exact ⟨_, _, Run.nil.snoc (c := ⟨1, 0, .authorizePool 2⟩) nofun rfl,
      rfl, rfl, rfl, rfl, rfl⟩
  | append_singleton nullifiers nullifier ih =>
    obtain ⟨tr, m, hrun, hreg, hlist, hcur, hopen, hauth⟩ := ih
    have hstep : exec H ⟨2, 0, .registerNullifier nullifier⟩ m = .ok _ :=
      (revertIf_bind_eq_ok _ _ _ _).mpr ⟨by rw [hauth]; exact nofun, rfl⟩
    refine ⟨_, _, hrun.snoc (c := ⟨2, 0, .registerNullifier nullifier⟩)
      (fun _ _ => hcur ▸ hopen) (congrArg (Except.map Prod.fst) hstep), ?_, ?_, hcur, ?_,
      hauth⟩
    · rw [registered_append, hreg]
      refine congrArg (nullifiers ++ ·) ?_
      rw [registered, List.flatMap_singleton]
      exact if_pos hcur
    · dsimp only
      rw [hcur, Function.update_self, hlist]
    · dsimp only
      rw [hcur, Function.update_self]
      exact hopen

variable (H) in
/-- **… and of a finalized one**: anyone finalizes it. -/
theorem exists_finalizedEpoch (nullifiers : List Bytes32) :
    ∃ tr s, Run (step H) RegistersOpen toyManager tr s
      ∧ (s.epochs 0).finalized = true ∧ registered 0 tr = nullifiers := by
  obtain ⟨tr, s, hrun, hreg, -, hcur, hopen, -⟩ := exists_epoch H nullifiers
  obtain ⟨s', hstep, -, hepoch⟩ := step_finalizeEpoch (H := H) (hcur.symm ▸ hopen) 3 1
  rw [hcur] at hepoch
  refine ⟨_, s', hrun.snoc (c := ⟨3, 1, .finalizeEpoch⟩) nofun hstep, ?_, ?_⟩
  · rw [hepoch]
    rfl
  · rw [registered_append, hreg]
    exact List.append_nil nullifiers

/-- An epoch that took two nullifiers before it was finalized. -/
theorem finalized_root_complete_two :
    ∃ tr s, Run (step toyHashes) RegistersOpen toyManager tr s
      ∧ (s.epochs 0).finalized = true ∧ registered 0 tr = [5, 6]
      ∧ (s.epochs 0).nullifierRoot = merkleRoot toyHashes.poseidon [5, 6] := by
  obtain ⟨tr, s, hrun, hfin, hreg⟩ := exists_finalizedEpoch toyHashes [5, 6]
  obtain ⟨hroot, -⟩ := finalized_root_complete ⟨1, 0, 10, 7, rfl⟩ hrun hfin
  exact ⟨tr, s, hrun, hfin, hreg, hreg ▸ hroot⟩

/-- **A root that does not cover its epoch**: anyone finalizes the empty
current epoch, and the next nullifier goes into it all the same. -/
theorem exists_uncovered :
    ∃ tr s, Deployed toyManager ∧ Run (step toyHashes) (fun _ _ => True) toyManager tr s
      ∧ (s.epochs 0).finalized = true
      ∧ (s.epochs 0).nullifierRoot ≠ merkleRoot toyHashes.poseidon (registered 0 tr) := by
  refine ⟨_, _, ⟨1, 0, 10, 7, rfl⟩, 
   (((Run.nil.snoc (c := ⟨1, 0, .authorizePool 2⟩) trivial rfl).snoc
      (c := ⟨3, 0, .finalizeEpoch⟩) trivial rfl).snoc
      (c := ⟨2, 0, .registerNullifier 5⟩) trivial rfl), rfl, ?_⟩
  show (0 : Bytes32) ≠ merkleRoot _ [5]
  rw [merkleRoot_singleton]
  decide

end EpochManager
