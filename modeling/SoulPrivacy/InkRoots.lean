import SoulPrivacy.InkEffect
import SoulPrivacy.RingBuffer

/-!
# The roots that the ink! pool accepts

Every call that inserts leaves pushes the new root into a history of 100, and a
root is known if it is there or is the current one. The history starts empty, but
the current root starts as `ZERO_VALUE`, which is the root of no tree.

So a root other than zero is accepted exactly when it is among those of the last
100 updates. The zero root, which should never be, is accepted until the first
update – and later, if a tree ever had it (`acceptsRoot_iff_recent`).
-/

namespace InkPool

open RingBuffer (InMapping)

variable {keccak256 : Bytes → Bytes32} {build : Build}

/-! ## The roots of a run -/

/-- **The roots of a run**: after each call that inserts leaves, the root of the
state it leads to. -/
def rootUpdates (tr : List (State × Call)) (s : State) : List Bytes32 :=
  ((tr.map Prod.snd).zip (tr.map Prod.fst ++ [s]).tail).flatMap
    (fun p => if p.1.message.inserts = [] then [] else [p.2.currentRoot])

/-- **Those of the last 100 updates.** -/
def recentRoots (tr : List (State × Call)) (s : State) : List Bytes32 :=
  (rootUpdates tr s).drop ((rootUpdates tr s).length - ROOT_HISTORY_SIZE)

theorem rootUpdates_snoc (tr : List (State × Call)) (s s' : State) (c : Call) :
    rootUpdates (tr ++ [(s, c)]) s'
      = rootUpdates tr s ++ if c.message.inserts = [] then [] else [s'.currentRoot] := by
  have htail : ((tr ++ [(s, c)]).map Prod.fst ++ [s']).tail
      = (tr.map Prod.fst ++ [s]).tail ++ [s'] := by
    rw [List.map_append, List.map_singleton]
    exact List.tail_append_of_ne_nil (by simp)
  have hlen : (tr.map Prod.snd).length = (tr.map Prod.fst ++ [s]).tail.length := by simp
  unfold rootUpdates
  rw [htail, List.map_append, List.map_singleton, List.zip_append hlen, List.flatMap_append]
  simp

/-! ## The history -/

/-- **The history holds the roots of the last updates**, and the current root is
the last of all, or zero. -/
structure RootsHeld (roots : List Bytes32) (s : State) : Prop where
  current : s.currentRoot = roots.getLastD ZERO_VALUE
  history : (roots = [] ∧ s.rootHistory = (fun _ => none) ∧ s.rootHistoryCursor = 0)
    ∨ ∃ head, s.rootHistoryCursor = (head + 1) % ROOT_HISTORY_SIZE
      ∧ InMapping none ROOT_HISTORY_SIZE s.rootHistory head (roots.map some)

/-- What a root was pushed into. -/
structure Pushed (s s' : State) : Prop where
  history : s'.rootHistory
    = Function.update s.rootHistory s.rootHistoryCursor (some s'.currentRoot)
  cursor : s'.rootHistoryCursor = (s.rootHistoryCursor + 1) % ROOT_HISTORY_SIZE

/-- **Pushing a root extends the history.** -/
theorem RootsHeld.push {roots : List Bytes32} {s s' : State} (h : RootsHeld roots s)
    (hpush : Pushed s s') : RootsHeld (roots ++ [s'.currentRoot]) s' := by
  refine ⟨(List.getLastD_concat ..).symm, Or.inr ⟨s.rootHistoryCursor, hpush.cursor, ?_⟩⟩
  rw [hpush.history, List.map_append, List.map_singleton]
  obtain ⟨rfl, hhistory, hcursor⟩ | ⟨head, hcursor, hheld⟩ := h.history
  · rw [hhistory, hcursor]
    refine InMapping.init (by decide) (fun i hi => ?_) (Function.update_self ..)
    exact Function.update_of_ne hi _ _
  · rw [hcursor]
    exact hheld.push _

/-- A call that leaves the roots alone. -/
theorem RootsHeld.of_eq {roots : List Bytes32} {s s' : State} (h : RootsHeld roots s)
    (hcurrent : s'.currentRoot = s.currentRoot) (hhistory : s'.rootHistory = s.rootHistory)
    (hcursor : s'.rootHistoryCursor = s.rootHistoryCursor) : RootsHeld roots s' where
  current := hcurrent.trans h.current
  history := by
    rw [hhistory, hcursor]
    exact h.history

/-- **A call that inserts leaves pushes the root.** -/
theorem Effect.roots {c : Call} {s s' : State} {payments : List Payment}
    (h : Effect keccak256 build s c s' payments) {roots : List Bytes32}
    (hheld : RootsHeld roots s) :
    RootsHeld (roots ++ if c.message.inserts = [] then [] else [s'.currentRoot]) s' := by
  have hsame := hheld
  rw [← List.append_nil roots] at hsame
  have hspend : ∀ nullifiers outputs,
      (afterSpend keccak256 s nullifiers outputs).rootHistory = s.rootHistory
        ∧ (afterSpend keccak256 s nullifiers outputs).rootHistoryCursor
          = s.rootHistoryCursor :=
    fun nullifiers outputs => ⟨afterSpend_keeps (fun _ _ => rfl) (fun _ _ => rfl) s _ _,
      afterSpend_keeps (fun _ _ => rfl) (fun _ _ => rfl) s _ _⟩
  cases h with
  | deposit _ _ _ _ _ => exact hheld.push ⟨rfl, rfl⟩
  | @transfer env proof merkleRoot nullifiers outputs _ _ _ =>
    obtain ⟨hhistory, hcursor⟩ := hspend nullifiers outputs
    refine hheld.push ⟨?_, ?_⟩
    · rw [← hhistory, ← hcursor]
      rfl
    · rw [← hcursor]
      rfl
  | @withdraw env proof merkleRoot nullifiers outputs recipient amount _ _ _ _ _ =>
    obtain ⟨hhistory, hcursor⟩ := hspend nullifiers outputs
    refine hheld.push ⟨?_, ?_⟩
    · rw [← hhistory, ← hcursor]
      rfl
    · rw [← hcursor]
      rfl
  | revealDeposit _ _ _ _ _ => exact hheld.push ⟨rfl, rfl⟩
  | _ => exact hsame.of_eq rfl rfl rfl

/-- **The history of every run holds the roots of its last updates.** -/
theorem rootsHeld_of_run {tr : List (State × Call)} {s : State}
    (h : RunFrom keccak256 build tr s) : RootsHeld (rootUpdates tr s) s := by
  obtain ⟨env, epochDuration, hrun⟩ := h
  refine hrun.invariant (I := fun tr s => RootsHeld (rootUpdates tr s) s)
    ⟨rfl, Or.inl ⟨rfl, rfl, rfl⟩⟩ ?_
  intro tr s c s' hheld _ hstep
  obtain ⟨payments, heffect⟩ := step_effect hstep
  rw [rootUpdates_snoc]
  exact heffect.roots hheld

/-! ## What is known -/

theorem isKnownRoot_iff {s : State} {root : Bytes32} :
    isKnownRoot s root = true ↔
      root = s.currentRoot ∨ ∃ i < ROOT_HISTORY_SIZE, s.rootHistory i = some root := by
  unfold isKnownRoot
  rw [Bool.or_eq_true, beq_iff_eq, List.any_eq_true]
  simp only [List.mem_range, beq_iff_eq]

/-- **The roots that are known**: those of the last updates, and before the first
one zero. -/
theorem RootsHeld.isKnownRoot_iff {roots : List Bytes32} {s : State} (h : RootsHeld roots s)
    (root : Bytes32) : isKnownRoot s root = true ↔
      (roots = [] ∧ root = ZERO_VALUE) ∨ root ∈ roots.drop (roots.length - ROOT_HISTORY_SIZE) := by
  rw [InkPool.isKnownRoot_iff, h.current]
  obtain ⟨rfl, hhistory, -⟩ | ⟨head, -, hheld⟩ := h.history
  · simp [hhistory]
  · have hne : roots ≠ [] := fun hnil => hheld.holds.nonempty (by rw [hnil, List.map_nil])
    have hmem := hheld.mem_iff (Option.some_ne_none root)
    rw [List.length_map, ← List.map_drop,
      List.mem_map_of_injective (Option.some_injective _)] at hmem
    rw [hmem, or_iff_right (fun hnil : roots = [] ∧ _ => hne hnil.1)]
    -- the current root is the one pushed last
    refine or_iff_right_of_imp (fun hlast => ?_)
    have hdrop : roots.drop (roots.length - ROOT_HISTORY_SIZE) ≠ [] := by
      rw [Ne, List.drop_eq_nil_iff, not_le]
      exact Nat.sub_lt (List.length_pos_of_ne_nil hne) (by decide)
    rw [hlast, List.getLastD_eq_getLast?, List.getLast?_eq_some_getLast hne, Option.getD_some,
      ← List.getLast_drop hdrop]
    exact List.getLast_mem hdrop

/-! ## What is accepted -/

/-- The root a message comes with. -/
def Message.merkleRoot : Message → Option Bytes32
  | .transfer _ merkleRoot _ _ => some merkleRoot
  | .withdraw _ merkleRoot _ _ _ _ => some merkleRoot
  | _ => none

/-- **A root is accepted**: the pause apart, no transfer and no withdrawal is
refused for it. -/
def AcceptsRoot (keccak256 : Bytes → Bytes32) (build : Build) (s : State) (root : Bytes32) :
    Prop :=
  ∀ c : Call, c.message.merkleRoot = some root →
    exec keccak256 build c { s with paused := false } ≠ .error .unknownRoot

/-- The error is another one. -/
abbrev Other (e : Error) : Prop := e ≠ .unknownRoot

theorem Build.add_failsIn {w : ℕ} (x y : BitVec w) : (build.add x y).FailsIn Other :=
  (revertIf_failsIn (fun _ => by decide)).bind (fun _ _ => Except.failsIn_ok _ _)

theorem verifyProofStructure_failsIn (proof : Bytes) (nullifiers outputs : Bytes32 × Bytes32) :
    (verifyProofStructure keccak256 proof nullifiers outputs).FailsIn Other := by
  have hcheck : ∀ (c : Prop) [Decidable c],
      (revertIf c Error.invalidProof).FailsIn Other :=
    fun c _ => revertIf_failsIn (fun _ => by decide)
  unfold verifyProofStructure
  exact (hcheck _).bind fun _ _ => (hcheck _).bind fun _ _ => (hcheck _).bind fun _ _ =>
    (hcheck _).bind fun _ _ => (hcheck _).bind fun _ _ => (hcheck _).bind fun _ _ =>
    (hcheck _).bind fun _ _ => (hcheck _).bind fun _ _ => hcheck _

theorem insertOutput_failsIn (cm : Bytes32) (s : State) :
    (insertOutput keccak256 build cm s).FailsIn Other :=
  (revertIf_failsIn (fun _ => by decide)).bind fun _ _ =>
    (Build.add_failsIn _ _).bind fun _ _ => Except.failsIn_ok _ _

theorem insertChange_failsIn (cm : Bytes32) (s : State) :
    (insertChange keccak256 build cm s).FailsIn Other := by
  unfold insertChange
  split
  · exact insertOutput_failsIn cm s
  · exact Except.failsIn_ok _ s

/-- **A known root is not refused as unknown** by a transfer … -/
theorem transfer_failsIn {s : State} {root : Bytes32} (hknown : isKnownRoot s root = true)
    (proof : Bytes) (nullifiers outputs : Bytes32 × Bytes32) :
    (transfer keccak256 build proof root nullifiers outputs s).FailsIn Other :=
  (revertIf_failsIn (fun _ => by decide)).bind fun _ _ =>
    (revertIf_failsIn (fun h => absurd (hknown.symm.trans h) (by decide))).bind fun _ _ =>
    (revertIf_failsIn (fun _ => by decide)).bind fun _ _ =>
    (verifyProofStructure_failsIn _ _ _).bind fun _ _ =>
    (insertOutput_failsIn _ _).bind fun _ _ =>
    (insertOutput_failsIn _ _).bind fun _ _ => Except.failsIn_ok _ _

/-- … and by a withdrawal. -/
theorem withdraw_failsIn {s : State} {root : Bytes32} (hknown : isKnownRoot s root = true)
    (env : Env) (proof : Bytes) (nullifiers outputs : Bytes32 × Bytes32)
    (recipient : AccountId) (amount : Balance) :
    (withdraw keccak256 build env proof root nullifiers outputs recipient amount s).FailsIn
      Other :=
  (revertIf_failsIn (fun _ => by decide)).bind fun _ _ =>
    (revertIf_failsIn (fun h => absurd (hknown.symm.trans h) (by decide))).bind fun _ _ =>
    (revertIf_failsIn (fun _ => by decide)).bind fun _ _ =>
    (verifyProofStructure_failsIn _ _ _).bind fun _ _ =>
    (revertIf_failsIn (fun _ => by decide)).bind fun _ _ =>
    (insertChange_failsIn _ _).bind fun _ _ =>
    (insertChange_failsIn _ _).bind fun _ _ =>
    (revertIf_failsIn (fun _ => by decide)).bind fun _ _ => Except.failsIn_ok _ _

/-- An unknown one is, whatever else the message says. -/
theorem transfer_of_unknown {s : State} {root : Bytes32} (hrunning : s.paused = false)
    (hunknown : isKnownRoot s root = false) (proof : Bytes)
    (nullifiers outputs : Bytes32 × Bytes32) :
    transfer keccak256 build proof root nullifiers outputs s = .error .unknownRoot := by
  unfold transfer
  rw [revertIf_bind_of_neg (by rw [hrunning]; exact Bool.false_ne_true),
    revertIf_bind_of_pos hunknown]

/-- **The roots that are accepted are those that are known.** -/
theorem acceptsRoot_iff {s : State} {root : Bytes32} :
    AcceptsRoot keccak256 build s root ↔ isKnownRoot s root = true := by
  have hpause : isKnownRoot { s with paused := false } root = isKnownRoot s root := rfl
  constructor
  · intro haccepts
    by_contra hunknown
    have htransfer : transfer keccak256 build [] root (0, 0) (0, 0) { s with paused := false }
        = .error .unknownRoot :=
      transfer_of_unknown rfl (Bool.not_eq_true _ ▸ hunknown) [] (0, 0) (0, 0)
    refine haccepts ⟨⟨0, 0, 0, true⟩, .transfer [] root (0, 0) (0, 0)⟩ rfl ?_
    unfold exec
    rw [revertIf_bind_of_neg (fun h => h.2 rfl)]
    exact congrArg (Except.map (·, [])) htransfer
  · intro hknown c hroot herror
    have hfails : (exec keccak256 build c { s with paused := false }).FailsIn Other := by
      refine (revertIf_failsIn (fun _ => by decide)).bind fun _ _ => ?_
      obtain ⟨env, message⟩ := c
      cases message with
      | transfer proof merkleRoot nullifiers outputs =>
        obtain rfl := Option.some.inj hroot
        exact (transfer_failsIn (hpause.trans hknown) proof nullifiers outputs).map _
      | withdraw proof merkleRoot nullifiers outputs recipient amount =>
        obtain rfl := Option.some.inj hroot
        exact (withdraw_failsIn (hpause.trans hknown) env proof nullifiers outputs recipient
          amount).map _
      | _ => cases hroot
    exact hfails _ herror rfl

/-- **A root is accepted exactly when it is not zero and among those of the last
100 updates – if and only if it is not zero**, or there was an update and none of
the last 100 had the root zero. -/
theorem acceptsRoot_iff_recent {tr : List (State × Call)} {s : State}
    (h : RunFrom keccak256 build tr s) (root : Bytes32) :
    (AcceptsRoot keccak256 build s root ↔ root ≠ ZERO_VALUE ∧ root ∈ recentRoots tr s)
      ↔ root ≠ ZERO_VALUE ∨ (rootUpdates tr s ≠ [] ∧ ZERO_VALUE ∉ recentRoots tr s) := by
  have hknown : AcceptsRoot keccak256 build s root ↔
      (rootUpdates tr s = [] ∧ root = ZERO_VALUE) ∨ root ∈ recentRoots tr s :=
    acceptsRoot_iff.trans ((rootsHeld_of_run h).isKnownRoot_iff root)
  rw [hknown]
  by_cases hzero : root = ZERO_VALUE
  · rw [hzero]
    tauto
  · tauto

/-- The root of the pool of the constructor is not accepted, unless it is zero. -/
theorem acceptsRoot_iff_recent_new : ¬ AcceptsRoot (fun _ => 1) .checked
    (new ⟨1, 0, 0, true⟩ 10) 5 := by
  intro haccepts
  have hrun : RunFrom (fun _ => 1) .checked [] (new ⟨1, 0, 0, true⟩ 10) := ⟨_, _, Run.nil⟩
  have hrecent := ((acceptsRoot_iff_recent hrun 5).mpr (Or.inl (by decide))).mp haccepts
  exact List.not_mem_nil hrecent.2

/-- **The zero root is accepted before the first deposit**, whatever the hash. -/
theorem exists_zero_root_accepted : ZERO_VALUE = 0 ∧ ∀ keccak256 build, ∃ s,
    RunFrom keccak256 build [] s ∧ recentRoots [] s = []
      ∧ AcceptsRoot keccak256 build s ZERO_VALUE :=
  ⟨rfl, fun _ _ => ⟨new ⟨1, 0, 0, true⟩ 10, ⟨_, _, Run.nil⟩, rfl, acceptsRoot_iff.mpr rfl⟩⟩

end InkPool
