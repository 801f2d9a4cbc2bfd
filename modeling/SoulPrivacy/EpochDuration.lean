import SoulPrivacy.EpochLists

/-!
# How long an epoch lasts

`startNewEpoch` waits for the end of the current epoch, and the end is written
twice: as the start and the duration when the epoch starts, and as the time of the
finalization when it is finalized. Anyone may finalize the current epoch at any
time, so the end that `startNewEpoch` waits for is the scheduled one only while the
epoch is open (`Paced.scheduled`).

An epoch that is moved on from while it is open has therefore lasted its duration.
Every epoch of a run has exactly when nobody moves on from a finalized epoch before
its scheduled end (`timeBounded_iff`).
-/

namespace EpochManager

/-! ## Time -/

/-- The block times of the calls of a trace. -/
def times (tr : List (Storage × Call)) : List ℕ := tr.map (fun p => p.2.timestamp)

/-- **Block time never goes back**, from the deployment through the calls until now. -/
def TimeForward (deployed : ℕ) (tr : List (Storage × Call)) (now : ℕ) : Prop :=
  (deployed :: (times tr ++ [now])).Pairwise (· ≤ ·)

/-- Now is the last of these times. -/
theorem TimeForward.le_now {deployed now t : ℕ} {tr : List (Storage × Call)}
    (h : TimeForward deployed tr now) (ht : t ∈ deployed :: times tr) : t ≤ now := by
  have happ : ((deployed :: times tr) ++ [now]).Pairwise (· ≤ ·) := h
  exact (List.pairwise_append.mp happ).2.2 t ht now (List.mem_singleton_self now)

/-- The current epoch. -/
def Storage.current (s : Storage) : Epoch := s.epochs s.currentEpochId

/-- The time at which the current epoch is to end. -/
def Storage.scheduledEnd (s : Storage) : ℕ := s.current.startTime + s.epochDuration

/-- **The epochs are time-bounded**: none was moved on from before it had been
current for its duration, and the number of the current one, taken that many times,
is no more than the time since the deployment. -/
structure TimeBounded (deployed : ℕ) (tr : List (Storage × Call)) (s : Storage)
    (now : ℕ) : Prop where
  lasted : ∀ p ∈ tr, p.2.entry = .startNewEpoch → p.1.scheduledEnd ≤ p.2.timestamp
  elapsed : deployed + s.currentEpochId * s.epochDuration ≤ now

/-- **The condition**: nobody moves on from an epoch that has been finalized already
before its scheduled end. -/
def WaitsAfterFinalization (s : Storage) (c : Call) : Prop :=
  c.entry = .startNewEpoch → s.current.finalized = true → s.scheduledEnd ≤ c.timestamp

/-! ## One call -/

variable {H : Hashes}

/-- `startNewEpoch` waits for the end that is written. -/
theorem startNewEpoch_ready {timestamp : ℕ} {s : Storage} {r : Storage × List Event}
    (h : startNewEpoch H timestamp s = .ok r) : s.current.endTime ≤ timestamp :=
  not_lt.mp ((revertIf_bind_eq_ok _ _ _ _).mp h).1

theorem step_ready {c : Call} {s s' : Storage} (h : step H c s = .ok s')
    (hc : c.entry = .startNewEpoch) : s.current.endTime ≤ c.timestamp := by
  obtain ⟨r, hr, rfl⟩ := Except.map_eq_ok.mp h
  unfold exec at hr
  rw [hc] at hr
  exact startNewEpoch_ready hr

/-- The duration of the epochs never changes. -/
theorem step_epochDuration {c : Call} {s s' : Storage} (h : step H c s = .ok s') :
    s'.epochDuration = s.epochDuration := by
  obtain ⟨r, hr, rfl⟩ := Except.map_eq_ok.mp h
  obtain ⟨sender, timestamp, entry⟩ := c
  unfold exec at hr
  cases entry <;> dsimp only at hr
  case startNewEpoch => rw [startNewEpoch_frame hr]
  case finalizeEpoch => rw [(finalizeEpochInternal_eq_ok hr).2]
  case registerNullifier =>
    obtain ⟨-, hr⟩ := (Except.unit_bind_eq_ok _ _ _).mp hr
    cases hr
    rfl
  case receiveRemoteEpochRoot =>
    obtain ⟨-, hr⟩ := (Except.unit_bind_eq_ok _ _ _).mp hr
    obtain ⟨-, hr⟩ := (revertIf_bind_eq_ok _ _ _ _).mp hr
    cases hr
    rfl
  all_goals rw [governed_eq_ok hr]

/-- **What a call does to the current epoch**: it starts the next one now, or leaves
its start, and its end too if it leaves it open. -/
inductive CurrentEffect (c : Call) (s s' : Storage) : Prop
  | start (entry_eq : c.entry = .startNewEpoch)
      (current : s'.currentEpochId = s.currentEpochId + 1)
      (epoch : s'.current = ⟨c.timestamp, c.timestamp + s.epochDuration, 0, 0, false⟩)
  | keep (current : s'.currentEpochId = s.currentEpochId)
      (startTime : s'.current.startTime = s.current.startTime)
      (opened : s'.current.finalized = false →
        s.current.finalized = false ∧ s'.current.endTime = s.current.endTime)

theorem Effect.currentEffect {c : Call} {s s' : Storage} (h : Effect H c s s') :
    CurrentEffect c s s' := by
  cases h with
  | register _ _ current epochs =>
    have hepoch : s'.current
        = { s.current with nullifierCount := s.current.nullifierCount + 1 } := by
      rw [Storage.current, current, epochs, Function.update_self]
      rfl
    refine .keep current (by rw [hepoch]) (fun hopen => ?_)
    rw [hepoch] at hopen ⊢
    exact ⟨hopen, rfl⟩
  | finalize _ _ current epochs =>
    have hepoch : s'.current = finalizedAt c.timestamp s.current
        (merkleRoot H.poseidon (s.epochNullifiers s.currentEpochId)) := by
      rw [Storage.current, current, epochs, Function.update_self]
      rfl
    refine .keep current (by rw [hepoch]; rfl) (fun hopen => ?_)
    rw [hepoch] at hopen
    exact Bool.noConfusion hopen
  | start _ entry_eq _ _ current epochs =>
    refine .start entry_eq current ?_
    rw [Storage.current, current, epochs, Function.update_self]
  | other _ current epochs =>
    have hepoch : s'.current = s.current := by
      rw [Storage.current, current, epochs]
      rfl
    exact .keep current (by rw [hepoch]) (fun hopen => ⟨hepoch ▸ hopen, by rw [hepoch]⟩)

/-! ## Runs -/

/-- **The invariant of the schedule**: an open epoch ends as scheduled, and the
current epoch has started at one of the times of the run, no earlier than that many
durations after the deployment if everyone has waited. -/
structure Paced (deployed duration : ℕ) (tr : List (Storage × Call)) (s : Storage) :
    Prop where
  duration_eq : s.epochDuration = duration
  scheduled : s.current.finalized = false → s.current.endTime = s.scheduledEnd
  started : s.current.startTime ∈ deployed :: times tr
  lasted : (∀ p ∈ tr, WaitsAfterFinalization p.1 p.2) →
    ∀ p ∈ tr, p.2.entry = .startNewEpoch → p.1.scheduledEnd ≤ p.2.timestamp
  paced : (∀ p ∈ tr, WaitsAfterFinalization p.1 p.2) →
    deployed + s.currentEpochId * duration ≤ s.current.startTime

theorem Paced.init {sender : Address} {deployed duration : ℕ} {domainChainId : Uint256}
    {s : Storage} (h : construct sender deployed duration domainChainId = .ok s) :
    Paced deployed duration [] s := by
  unfold construct at h
  obtain ⟨first, hfirst, h⟩ := (Except.bind_eq_ok _ _ _).mp h
  obtain rfl := newEpoch_eq_ok hfirst
  cases h
  refine ⟨rfl, fun _ => rfl, List.mem_cons_self, fun _ p hp => absurd hp List.not_mem_nil,
    fun _ => ?_⟩
  show deployed + 0 * duration ≤ deployed
  omega

/-- **Whoever moves on has waited**: for the scheduled end, if the epoch is open, and
else by the condition. -/
theorem Paced.waited {deployed duration : ℕ} {tr : List (Storage × Call)} {s s' : Storage}
    {c : Call} (hs : Paced deployed duration tr s) (hstep : step H c s = .ok s')
    (hwaits : WaitsAfterFinalization s c) (hc : c.entry = .startNewEpoch) :
    s.scheduledEnd ≤ c.timestamp := by
  cases hfinal : s.current.finalized with
  | true => exact hwaits hc hfinal
  | false =>
    rw [← hs.scheduled hfinal]
    exact step_ready hstep hc

/-- **A call keeps the schedule.** -/
theorem Paced.step {deployed duration : ℕ} {tr : List (Storage × Call)} {s s' : Storage}
    {c : Call} (hs : Paced deployed duration tr s) (hstep : step H c s = .ok s') :
    Paced deployed duration (tr ++ [(s, c)]) s' := by
  have hduration := step_epochDuration hstep
  have htimes : times (tr ++ [(s, c)]) = times tr ++ [c.timestamp] := List.map_append
  have hlasted : (∀ p ∈ tr ++ [(s, c)], WaitsAfterFinalization p.1 p.2) →
      ∀ p ∈ tr ++ [(s, c)], p.2.entry = .startNewEpoch → p.1.scheduledEnd ≤ p.2.timestamp := by
    intro hwaits
    rw [List.forall_mem_append, List.forall_mem_singleton] at hwaits ⊢
    exact ⟨hs.lasted hwaits.1, hs.waited hstep hwaits.2⟩
  cases (step_effect hstep).currentEffect with
  | start entry_eq current epoch =>
    refine ⟨hduration.trans hs.duration_eq, fun _ => ?_, ?_, hlasted, fun hwaits => ?_⟩
    · rw [Storage.scheduledEnd, epoch, hduration]
    · rw [htimes, epoch]
      exact List.mem_cons_of_mem _ (List.mem_append_right _ (List.mem_singleton_self _))
    · -- the epoch that is left has lasted its duration
      have hend : s.current.startTime + s.epochDuration ≤ c.timestamp :=
        hlasted hwaits _ (List.mem_append_right _ (List.mem_singleton_self _)) entry_eq
      have hstart := hs.paced (List.forall_mem_append.mp hwaits).1
      rw [current, epoch, Nat.add_mul, Nat.one_mul]
      have hd := hs.duration_eq
      show deployed + (s.currentEpochId * duration + duration) ≤ c.timestamp
      omega
  | keep current startTime opened =>
    refine ⟨hduration.trans hs.duration_eq, fun hopen => ?_, ?_, hlasted, fun hwaits => ?_⟩
    · obtain ⟨hwas, hend⟩ := opened hopen
      rw [hend, hs.scheduled hwas, Storage.scheduledEnd, Storage.scheduledEnd, startTime,
        hduration]
    · rw [htimes, startTime, ← List.cons_append]
      exact List.mem_append_left _ hs.started
    · rw [current, startTime]
      exact hs.paced (List.forall_mem_append.mp hwaits).1

/-- **The epochs of a run are time-bounded exactly when everyone waits** for the
scheduled end of an epoch that was finalized early, whoever calls what. -/
theorem timeBounded_iff {sender : Address} {deployed duration : ℕ} {domainChainId : Uint256}
    {s₀ : Storage} (hconstruct : construct sender deployed duration domainChainId = .ok s₀)
    {tr : List (Storage × Call)} {s : Storage}
    (hrun : Run (step H) (fun _ _ => True) s₀ tr s) {now : ℕ}
    (htime : TimeForward deployed tr now) :
    TimeBounded deployed tr s now ↔ ∀ p ∈ tr, WaitsAfterFinalization p.1 p.2 := by
  have hpaced : Paced deployed duration tr s :=
    hrun.invariant (Paced.init hconstruct) (fun _ _ _ _ hs _ hstep => hs.step hstep)
  constructor
  · intro h p hp hc _
    exact h.lasted p hp hc
  · intro hwaits
    refine ⟨hpaced.lasted hwaits, ?_⟩
    calc deployed + s.currentEpochId * s.epochDuration
        = deployed + s.currentEpochId * duration := by rw [hpaced.duration_eq]
      _ ≤ s.current.startTime := hpaced.paced hwaits
      _ ≤ now := htime.le_now hpaced.started

/-! ## An epoch that does not last -/

/-- **Anyone moves the epochs on at once**: account 3 finalizes epoch 0 when it
starts, and starts epoch 1. -/
theorem exists_rollover :
    ∃ tr s, Run (step toyHashes) (fun _ _ => True) toyManager tr s
      ∧ TimeForward 0 tr 0 ∧ s.currentEpochId = 1 ∧ s.epochDuration = 10 := by
  refine ⟨_, _, (Run.nil.snoc (c := ⟨3, 0, .finalizeEpoch⟩) trivial rfl).snoc
    (c := ⟨3, 0, .startNewEpoch⟩) trivial rfl, ?_, rfl, rfl⟩
  show [0, 0, 0, 0].Pairwise (· ≤ ·)
  decide

/-- The epochs of that run are time-bounded exactly if everyone waited. -/
theorem timeBounded_iff_rollover :
    ∃ tr s, s.currentEpochId = 1
      ∧ (TimeBounded 0 tr s 0 ↔ ∀ p ∈ tr, WaitsAfterFinalization p.1 p.2) := by
  obtain ⟨tr, s, hrun, htime, hcurrent, -⟩ := exists_rollover
  have hconstruct : construct 1 0 10 7 = .ok toyManager := rfl
  exact ⟨tr, s, hcurrent, timeBounded_iff hconstruct hrun htime⟩

/-- Epochs can be made to roll over faster. -/
theorem rolled_over_early :
    ¬ ∀ (H : Hashes) (sender : Address) (deployed duration : ℕ) (domainChainId : Uint256)
        (s₀ : Storage) (tr : List (Storage × Call)) (s : Storage) (now : ℕ),
      construct sender deployed duration domainChainId = .ok s₀ →
      Run (step H) (fun _ _ => True) s₀ tr s → TimeForward deployed tr now →
        TimeBounded deployed tr s now := by
  intro hall
  obtain ⟨tr, s, hrun, htime, hcurrent, hduration⟩ := exists_rollover
  have helapsed := (hall toyHashes 1 0 10 7 toyManager tr s 0 rfl hrun htime).elapsed
  rw [hcurrent, hduration] at helapsed
  exact absurd helapsed (by decide)

end EpochManager
