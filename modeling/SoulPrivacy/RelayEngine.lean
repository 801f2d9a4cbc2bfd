import SoulPrivacy.RelayAdapters
import SoulPrivacy.Retry

/-!
# The relay engine (`relayer/src/core/mod.rs`)

The engine sends an epoch root with the adapter of the target chain, and tries
again when that fails, after a wait that doubles. After five failures the task
has failed. The loop is that of `Retry.run`, with as many attempts as the
counter of the task leaves (`dispatchLoop_eq`).

A task is submitted when its adapter says so, and an adapter says so of every
transaction that is mined. So a transaction that was reverted ends the loop,
and the epoch root it should have carried is not sent again. What the engine
reports is what happened on the chain exactly when the first transaction that
is mined was not reverted, up to two corners: a task for a chain without an
adapter or a configuration is given up but not marked as failed, and a counter
at the end of its range starts over at zero (`reportsSuccess_iff`).
-/

namespace RelayEngine

/-- `MAX_RETRIES`. -/
def MAX_RETRIES : BitVec 32 := 5

/-- `BASE_BACKOFF_MS`. -/
def BASE_BACKOFF_MS : BitVec 64 := 1000

/-- `TxState`. -/
inductive TxState where
  | pending
  | submitted (txHash : String)
  | confirmed (txHash : String) (block : BitVec 64)
  | finalized (txHash : String)
  | failed (reason : String)
  deriving DecidableEq

/-- `RelayTask`. -/
structure RelayTask where
  targetChainId : BitVec 64
  message : EpochRootMessage
  state : TxState
  retries : BitVec 32

/-- `build_task`. -/
def buildTask (sourceChainId targetChainId epochId : BitVec 64) (nullifierRoot : Bytes32)
    (nullifierCount : BitVec 32) : RelayTask where
  targetChainId := targetChainId
  message := ⟨sourceChainId, epochId, nullifierRoot, nullifierCount⟩
  state := .pending
  retries := 0

/-- The adapters of `RelayEngine::new`. -/
def adapters : List BridgeAdapter := [awmAdapter, xcmAdapter, ibcAdapter, rainbowAdapter]

/-- `adapter_for`. -/
def adapterFor (chainId : BitVec 64) : Option BridgeAdapter :=
  adapters.find? (fun a => a.supportsChain chainId)

/-- `chain_config`. -/
def chainConfig (chains : List ChainWatchConfig) (chainId : BitVec 64) :
    Option ChainWatchConfig :=
  chains.find? (fun c => c.chainId == chainId)

/-- `2u64.saturating_pow(n)`. -/
def saturatingPow (n : BitVec 32) : BitVec 64 :=
  if n.toNat < 64 then BitVec.ofNat 64 (2 ^ n.toNat) else BitVec.allOnes 64

/-- The wait after a failure, in milliseconds. -/
def backoffMs (retries : BitVec 32) : BitVec 64 :=
  BASE_BACKOFF_MS * saturatingPow (retries - 1)

/-- The text of a task that is given up. -/
def maxRetriesExceeded (e : AdapterError) : String :=
  "max retries (" ++ toString MAX_RETRIES.toNat ++ ") exceeded: " ++ e.toText

/-- **What a dispatch leaves**: what it returns, the task, how many attempts
there were and the waits between them. -/
structure Dispatched where
  result : Except String String
  task : RelayTask
  attempts : ℕ
  sleeps : List (BitVec 64)

/-- The loop of `dispatch`, from attempt `i` on, for `fuel` attempts at most.
The counter wraps around, as it does in a release build. -/
def dispatchLoop (attempt : ℕ → Except AdapterError String) :
    ℕ → ℕ → RelayTask → Option Dispatched
  | 0, _, _ => none
  | fuel + 1, i, task =>
    let task := { task with state := .pending }
    match attempt i with
    | .ok txHash => some ⟨.ok txHash, { task with state := .submitted txHash }, i + 1, []⟩
    | .error e =>
      let task := { task with retries := task.retries + 1 }
      if MAX_RETRIES ≤ task.retries then
        let reason := maxRetriesExceeded e
        some ⟨.error reason, { task with state := .failed reason }, i + 1, []⟩
      else
        (dispatchLoop attempt fuel (i + 1) task).map
          (fun d => { d with sleeps := backoffMs task.retries :: d.sleeps })

/-- **`dispatch`**, given what becomes of the transaction of each attempt. -/
def dispatch (ethers : Ethers) (chains : List ChainWatchConfig) (outcomes : ℕ → TxOutcome)
    (fuel : ℕ) (task : RelayTask) : Option Dispatched :=
  match adapterFor task.targetChainId with
  | none =>
    some ⟨.error ("no adapter for chain " ++ toString task.targetChainId.toNat), task, 0, []⟩
  | some adapter =>
    match chainConfig chains task.targetChainId with
    | none =>
      some ⟨.error ("chain " ++ toString task.targetChainId.toNat ++ " not in config"), task, 0,
        []⟩
    | some chain =>
      dispatchLoop (fun i => adapter.sendEpochRoot ethers chain task.message (outcomes i)) fuel 0
        task

/-- `process_batch`, each task with what becomes of its transactions. -/
def processBatch (ethers : Ethers) (chains : List ChainWatchConfig) (fuel : ℕ) :
    List (RelayTask × (ℕ → TxOutcome)) → Option (List Dispatched)
  | [] => some []
  | (task, outcomes) :: rest => do
    let d ← dispatch ethers chains outcomes fuel task
    let ds ← processBatch ethers chains fuel rest
    some (d :: ds)

/-! ## The loop -/

/-- **How many attempts a counter leaves.** At the end of its range it starts
over at zero after the first. -/
def budget (retries : BitVec 32) : ℕ :=
  if retries = BitVec.allOnes 32 then 6 else max 1 (5 - retries.toNat)

theorem budget_pos (retries : BitVec 32) : 0 < budget retries := by
  unfold budget
  split <;> omega

/-- A counter that is not at the end of its range counts. -/
theorem toNat_add_one {retries : BitVec 32} (h : retries ≠ BitVec.allOnes 32) :
    (retries + 1).toNat = retries.toNat + 1 := by
  have hlt := retries.isLt
  have hmax : retries.toNat ≠ 2 ^ 32 - 1 := fun heq => h (BitVec.eq_of_toNat_eq heq)
  have hone : (1 : BitVec 32).toNat = 1 := rfl
  rw [BitVec.toNat_add, hone, Nat.mod_eq_of_lt (by omega)]

/-- The last attempt is the one that reaches the limit. -/
theorem budget_one {retries : BitVec 32} (h : budget retries = 0 + 1) :
    MAX_RETRIES ≤ retries + 1 := by
  unfold budget at h
  split at h
  · omega
  · next hne =>
    have hmax : MAX_RETRIES.toNat = 5 := rfl
    rw [BitVec.le_def, toNat_add_one hne, hmax]
    omega

/-- … and after any other there is one less. -/
theorem budget_succ {retries : BitVec 32} {n : ℕ} (h : budget retries = n + 1 + 1) :
    ¬ MAX_RETRIES ≤ retries + 1 ∧ budget (retries + 1) = n + 1 := by
  unfold budget at h
  split at h
  · next heq =>
    subst heq
    have hn : n + 1 = 5 := by omega
    rw [hn]
    exact ⟨by decide, by decide⟩
  · next hne =>
    have hmax : MAX_RETRIES.toNat = 5 := rfl
    have hnat := toNat_add_one hne
    have hnot : ¬ MAX_RETRIES ≤ retries + 1 := by
      rw [BitVec.le_def, hnat, hmax]
      omega
    refine ⟨hnot, ?_⟩
    have hsmall : retries + 1 ≠ BitVec.allOnes 32 := fun heq => hnot (heq ▸ by decide)
    unfold budget
    rw [if_neg hsmall, hnat]
    omega

/-- The waits before `k` more attempts. -/
def waits : BitVec 32 → ℕ → List (BitVec 64)
  | _, 0 => []
  | retries, k + 1 => backoffMs (retries + 1) :: waits (retries + 1) k

theorem waits_prefix (retries : BitVec 32) {k n : ℕ} (h : k ≤ n) :
    waits retries k <+: waits retries n := by
  induction n generalizing retries k with
  | zero => rw [Nat.le_zero.mp h]
  | succ n ih =>
    cases k with
    | zero => exact List.nil_prefix
    | succ k =>
      exact List.prefix_cons_inj _ |>.mpr (ih (retries + 1) (Nat.le_of_succ_le_succ h))

/-- **What the loop leaves** when it is entered at attempt `i` and its last
attempt is `k` later. -/
def conclude (task : RelayTask) (i : ℕ) : Except AdapterError String × ℕ → Dispatched
  | (.ok txHash, k) =>
    ⟨.ok txHash, { task with
      state := .submitted txHash
      retries := task.retries + BitVec.ofNat 32 k }, i + k + 1, waits task.retries k⟩
  | (.error e, k) =>
    ⟨.error (maxRetriesExceeded e), { task with
      state := .failed (maxRetriesExceeded e)
      retries := task.retries + BitVec.ofNat 32 (k + 1) }, i + k + 1, waits task.retries k⟩

@[simp] theorem conclude_attempts (task : RelayTask) (i : ℕ)
    (r : Except AdapterError String × ℕ) : (conclude task i r).attempts = i + r.2 + 1 := by
  obtain ⟨result, k⟩ := r
  cases result with
  | ok txHash => rfl
  | error e => rfl

@[simp] theorem conclude_sleeps (task : RelayTask) (i : ℕ)
    (r : Except AdapterError String × ℕ) : (conclude task i r).sleeps = waits task.retries r.2 := by
  obtain ⟨result, k⟩ := r
  cases result with
  | ok txHash => rfl
  | error e => rfl

/-- A failure and what follows it. -/
theorem conclude_succ (task : RelayTask) (i : ℕ) (r : Except AdapterError String × ℕ) :
    conclude task i (r.1, r.2 + 1)
      = { conclude { task with state := .pending, retries := task.retries + 1 } (i + 1) r with
          sleeps := backoffMs (task.retries + 1)
            :: (conclude { task with state := .pending, retries := task.retries + 1 } (i + 1)
              r).sleeps } := by
  have hretries : ∀ k, task.retries + BitVec.ofNat 32 (k + 1)
      = task.retries + 1 + BitVec.ofNat 32 k := fun k => by
    rw [BitVec.add_assoc, Nat.add_comm k 1, BitVec.ofNat_add]
    rfl
  have hattempts : ∀ k, i + (k + 1) + 1 = i + 1 + k + 1 := fun k => by omega
  obtain ⟨result, k⟩ := r
  cases result with
  | ok txHash =>
    simp only [conclude, hretries, hattempts, waits]
  | error e =>
    simp only [conclude, hretries, hattempts, waits]

/-- An attempt that goes through is the last. -/
theorem dispatchLoop_of_ok {attempt : ℕ → Except AdapterError String} {i : ℕ} {txHash : String}
    (h : attempt i = .ok txHash) (fuel : ℕ) (task : RelayTask) :
    dispatchLoop attempt (fuel + 1) i task = some (conclude task i (.ok txHash, 0)) := by
  simp [dispatchLoop, h, conclude, waits]

/-- … and so is a failure that reaches the limit. -/
theorem dispatchLoop_of_last {attempt : ℕ → Except AdapterError String} {i : ℕ}
    {e : AdapterError} (h : attempt i = .error e) (fuel : ℕ) {task : RelayTask}
    (hlast : MAX_RETRIES ≤ task.retries + 1) :
    dispatchLoop attempt (fuel + 1) i task = some (conclude task i (.error e, 0)) := by
  simp only [dispatchLoop, h, if_pos hlast]
  rfl

/-- **The loop repeats the attempt** as often as the counter allows, and needs
as much fuel as there are attempts. -/
theorem dispatchLoop_eq (attempt : ℕ → Except AdapterError String) {n : ℕ} (fuel i : ℕ)
    (task : RelayTask) (hbudget : budget task.retries = n + 1) :
    dispatchLoop attempt fuel i task
      = if (Retry.run attempt n i).2 < fuel then some (conclude task i (Retry.run attempt n i))
        else none := by
  induction n generalizing fuel i task with
  | zero =>
    cases fuel with
    | zero => rfl
    | succ fuel =>
      cases h : attempt i with
      | ok txHash =>
        rw [Retry.run_of_ok h, if_pos (Nat.zero_lt_succ _), dispatchLoop_of_ok h]
      | error e =>
        rw [Retry.run_zero_of_error h, if_pos (Nat.zero_lt_succ _),
          dispatchLoop_of_last h fuel (budget_one hbudget)]
  | succ n ih =>
    cases fuel with
    | zero => rfl
    | succ fuel =>
      cases h : attempt i with
      | ok txHash =>
        rw [Retry.run_of_ok h, if_pos (Nat.zero_lt_succ _), dispatchLoop_of_ok h]
      | error e =>
        obtain ⟨hmore, hrest⟩ := budget_succ hbudget
        have hloop := ih fuel (i + 1)
          { task with state := .pending, retries := task.retries + 1 } hrest
        rw [Retry.run_succ_of_error h, conclude_succ]
        simp only [dispatchLoop, h, if_neg hmore, hloop, Nat.succ_lt_succ_iff]
        split
        · rfl
        · rfl

/-- Only the last counter leaves more attempts than `MAX_RETRIES`. -/
theorem budget_le_iff (retries : BitVec 32) :
    budget retries ≤ MAX_RETRIES.toNat ↔ retries ≠ BitVec.allOnes 32 := by
  have hmax : MAX_RETRIES.toNat = 5 := rfl
  unfold budget
  rw [hmax]
  split
  · next heq => exact iff_of_false (by omega) (fun hne => hne heq)
  · next hne => exact iff_of_true (by omega) hne

/-! ## What is reported -/

/-- **The report is what happened.** There were `MAX_RETRIES` attempts at most;
if one of them succeeded the task is submitted, and else it has failed. -/
def Dispatched.Reports (d : Dispatched) (succeeded : ℕ → Prop) : Prop :=
  d.attempts ≤ MAX_RETRIES.toNat
    ∧ ((∃ i < d.attempts, succeeded i) →
        ∃ txHash, d.result = .ok txHash ∧ d.task.state = .submitted txHash)
    ∧ ((¬ ∃ i < d.attempts, succeeded i) →
        (∃ e, d.result = .error e) ∧ ∃ reason, d.task.state = .failed reason)

section Loop

variable {attempt : ℕ → Except AdapterError String} {task : RelayTask} {mined succeeded : ℕ → Prop}

/-- The loop leaves one thing, and it does so with fuel for its attempts. -/
theorem dispatchLoop_eq_some_iff {n fuel : ℕ} {d : Dispatched}
    (hbudget : budget task.retries = n + 1) :
    dispatchLoop attempt fuel 0 task = some d
      ↔ d = conclude task 0 (Retry.run attempt n 0) ∧ d.attempts ≤ fuel := by
  rw [dispatchLoop_eq attempt fuel 0 task hbudget]
  split
  · next hlt =>
    constructor
    · intro hd
      rw [← Option.some.inj hd, conclude_attempts, Nat.zero_add]
      exact ⟨rfl, hlt⟩
    · rintro ⟨rfl, -⟩
      rfl
  · next hlt =>
    refine iff_of_false nofun ?_
    rintro ⟨rfl, hle⟩
    rw [conclude_attempts, Nat.zero_add] at hle
    exact hlt hle

/-- An end with the first transaction that is mined. -/
theorem conclude_ok_reports_iff {k : ℕ} {txHash : String} (hbefore : ∀ j < k, ¬ mined j)
    (hsucceeded : ∀ i, succeeded i → mined i) :
    (conclude task 0 (.ok txHash, k)).Reports succeeded
      ↔ k < MAX_RETRIES.toNat ∧ succeeded k := by
  -- an attempt before the last has not even been mined
  have hsome : (∃ i < k + 1, succeeded i) ↔ succeeded k := by
    constructor
    · rintro ⟨i, hi, hs⟩
      rcases Nat.lt_or_eq_of_le (Nat.le_of_lt_succ hi) with hlt | rfl
      · exact absurd (hsucceeded i hs) (hbefore i hlt)
      · exact hs
    · exact fun hs => ⟨k, Nat.lt_succ_self k, hs⟩
  unfold Dispatched.Reports
  rw [conclude_attempts, Nat.zero_add, hsome, Nat.succ_le_iff]
  refine and_congr_right (fun _ => ?_)
  constructor
  · rintro ⟨-, hfailed⟩
    by_contra hs
    obtain ⟨⟨e, herror⟩, -⟩ := hfailed hs
    exact absurd herror nofun
  · exact fun hs => ⟨fun _ => ⟨txHash, rfl, rfl⟩, fun hnot => absurd hs hnot⟩

/-- An end with a last failure. -/
theorem conclude_error_reports_iff {n : ℕ} {e : AdapterError} (hnone : ∀ j ≤ n, ¬ succeeded j) :
    (conclude task 0 (.error e, n)).Reports succeeded ↔ n + 1 ≤ MAX_RETRIES.toNat := by
  have hnot : ¬ ∃ i < n + 1, succeeded i := by
    rintro ⟨i, hi, hs⟩
    exact hnone i (Nat.le_of_lt_succ hi) hs
  unfold Dispatched.Reports
  rw [conclude_attempts, Nat.zero_add]
  constructor
  · exact fun h => h.1
  · exact fun h => ⟨h, fun hs => absurd hs hnot, fun _ => ⟨⟨_, rfl⟩, _, rfl⟩⟩

/-- **What the loop reports is what happened** exactly when the first
transaction that is mined has succeeded, and the counter does not start over. -/
theorem dispatchLoop_reports_iff (hmined : ∀ i, mined i ↔ ∃ txHash, attempt i = .ok txHash)
    (hsucceeded : ∀ i, succeeded i → mined i) :
    (∃ fuel d, dispatchLoop attempt fuel 0 task = some d ∧ d.Reports succeeded)
      ↔ (∀ i < budget task.retries, mined i → (∀ j < i, ¬ mined j) → succeeded i)
        ∧ (task.retries = BitVec.allOnes 32 → ∃ i < MAX_RETRIES.toNat, mined i) := by
  obtain ⟨n, hbudget⟩ := Nat.exists_eq_succ_of_ne_zero (budget_pos task.retries).ne'
  have hone : (∃ fuel d, dispatchLoop attempt fuel 0 task = some d ∧ d.Reports succeeded)
      ↔ (conclude task 0 (Retry.run attempt n 0)).Reports succeeded := by
    simp only [dispatchLoop_eq_some_iff hbudget]
    constructor
    · rintro ⟨fuel, d, ⟨rfl, -⟩, hreports⟩
      exact hreports
    · exact fun hreports => ⟨_, _, ⟨rfl, le_rfl⟩, hreports⟩
  have hle := budget_le_iff task.retries
  rw [hbudget] at hle
  rw [hone, hbudget]
  have hfails : ∀ j, Retry.Fails (attempt j) → ¬ mined j := by
    rintro j ⟨e, he⟩ hj
    obtain ⟨txHash, hok⟩ := (hmined j).mp hj
    exact absurd (he.symm.trans hok) nofun
  rcases Retry.run_cases attempt n 0 with ⟨k, hk, hbefore, txHash, hok, hrun⟩ | ⟨hall, e, -, hrun⟩
  · -- the first that is mined is number `k`
    simp only [Nat.zero_add] at hbefore hok
    have hminedk : mined k := (hmined k).mpr ⟨txHash, hok⟩
    have hfirst : ∀ j < k, ¬ mined j := fun j hj => hfails j (hbefore j hj)
    rw [hrun, conclude_ok_reports_iff hfirst hsucceeded,
      Retry.forall_first_iff hminedk hfirst, Retry.exists_lt_iff hminedk hfirst]
    constructor
    · exact fun ⟨hlt, hs⟩ => ⟨fun _ => hs, fun _ => hlt⟩
    · rintro ⟨hs, hwrap⟩
      refine ⟨?_, hs (Nat.lt_succ_of_le hk)⟩
      by_cases hlast : task.retries = BitVec.allOnes 32
      · exact hwrap hlast
      · exact Nat.lt_of_lt_of_le (Nat.lt_succ_of_le hk) (hle.mpr hlast)
  · -- none is mined
    simp only [Nat.zero_add] at hall
    have hnone : ∀ j ≤ n, ¬ mined j := fun j hj => hfails j (hall j hj)
    rw [hrun, conclude_error_reports_iff (fun j hj hs => hnone j hj (hsucceeded j hs)), hle]
    constructor
    · intro hne
      exact ⟨fun i hi hminedi => absurd hminedi (hnone i (Nat.le_of_lt_succ hi)),
        fun heq => absurd heq hne⟩
    · rintro ⟨-, hwrap⟩ heq
      obtain ⟨i, hi, hminedi⟩ := hwrap heq
      have hn : MAX_RETRIES.toNat ≤ n := by
        by_contra hlt
        exact hle.mp (Nat.succ_le_of_lt (not_le.mp hlt)) heq
      exact hnone i (Nat.le_of_lt (Nat.lt_of_lt_of_le hi hn)) hminedi

end Loop

/-- There is an adapter for the target chain, and a configuration of it. -/
def Routed (chains : List ChainWatchConfig) (task : RelayTask) : Prop :=
  ∃ adapter chain, adapterFor task.targetChainId = some adapter
    ∧ chainConfig chains task.targetChainId = some chain

section Dispatch

variable (ethers : Ethers) (chains : List ChainWatchConfig) (outcomes : ℕ → TxOutcome)
  (task : RelayTask)

/-- The attempts come as far as a transaction. -/
def Sends : Prop :=
  ∃ adapter chain tx, adapterFor task.targetChainId = some adapter
    ∧ chainConfig chains task.targetChainId = some chain
    ∧ adapter.prepare ethers chain task.message = .ok tx

/-- The transaction of attempt `i` is mined. -/
def MinedAt (i : ℕ) : Prop :=
  Sends ethers chains task ∧ ∃ transactionHash status, outcomes i = .mined transactionHash status

/-- The transaction of attempt `i` is mined and succeeds. -/
def SucceededAt (i : ℕ) : Prop := Sends ethers chains task ∧ (outcomes i).Succeeded

/-- **Success of the relay is success on the chain.** -/
def ReportsSuccess : Prop :=
  ∃ fuel d, dispatch ethers chains outcomes fuel task = some d
    ∧ d.Reports (SucceededAt ethers chains outcomes task)

/-- **When it is.** Where there is an adapter and a configuration, the first
transaction that is mined succeeds, and a counter at the end of its range meets
one in time; elsewhere the task has failed before. -/
def FirstMinedSucceeds : Prop :=
  (Routed chains task
      ∧ (∀ i < budget task.retries, MinedAt ethers chains outcomes task i →
          (∀ j < i, ¬ MinedAt ethers chains outcomes task j) → (outcomes i).Succeeded)
      ∧ (task.retries = BitVec.allOnes 32 →
          ∃ i < MAX_RETRIES.toNat, MinedAt ethers chains outcomes task i))
    ∨ (¬ Routed chains task ∧ ∃ reason, task.state = .failed reason)

variable {ethers chains outcomes task}

theorem SucceededAt.minedAt {i : ℕ} (h : SucceededAt ethers chains outcomes task i) :
    MinedAt ethers chains outcomes task i := by
  refine ⟨h.1, ?_⟩
  have hsucceeded := h.2
  cases houtcome : outcomes i with
  | mined transactionHash status => exact ⟨_, _, rfl⟩
  | _ => exact absurd (houtcome ▸ hsucceeded) nofun

/-- A transaction that is mined succeeds or not. -/
theorem succeededAt_iff {i : ℕ} (h : MinedAt ethers chains outcomes task i) :
    SucceededAt ethers chains outcomes task i ↔ (outcomes i).Succeeded :=
  and_iff_right h.1

variable (ethers outcomes)

/-- A task that is not routed is left as it is, and there is no attempt. -/
theorem dispatch_of_not_routed (h : ¬ Routed chains task) :
    ∃ e, ∀ fuel, dispatch ethers chains outcomes fuel task = some ⟨.error e, task, 0, []⟩ := by
  cases hadapter : adapterFor task.targetChainId with
  | none => exact ⟨_, fun fuel => by rw [dispatch, hadapter]⟩
  | some adapter =>
    cases hchain : chainConfig chains task.targetChainId with
    | none =>
      refine ⟨"chain " ++ toString task.targetChainId.toNat ++ " not in config", fun fuel => ?_⟩
      rw [dispatch, hadapter]
      simp only [hchain]
    | some chain => exact absurd ⟨adapter, chain, hadapter, hchain⟩ h

/-- … and any other goes through the loop. -/
theorem dispatch_of_routed (h : Routed chains task) :
    ∃ attempt : ℕ → Except AdapterError String,
      (∀ fuel, dispatch ethers chains outcomes fuel task = dispatchLoop attempt fuel 0 task)
      ∧ ∀ i, MinedAt ethers chains outcomes task i ↔ ∃ txHash, attempt i = .ok txHash := by
  obtain ⟨adapter, chain, hadapter, hchain⟩ := h
  refine ⟨fun i => adapter.sendEpochRoot ethers chain task.message (outcomes i), fun fuel => ?_,
    fun i => ?_⟩
  · rw [dispatch, hadapter]
    simp only [hchain]
  · have hsends : Sends ethers chains task
        ↔ ∃ tx, adapter.prepare ethers chain task.message = .ok tx := by
      constructor
      · rintro ⟨adapter', chain', tx, hadapter', hchain', hprepare⟩
        cases Option.some.inj (hadapter.symm.trans hadapter')
        cases Option.some.inj (hchain.symm.trans hchain')
        exact ⟨tx, hprepare⟩
      · rintro ⟨tx, hprepare⟩
        exact ⟨adapter, chain, tx, hadapter, hchain, hprepare⟩
    unfold MinedAt
    simp only [sendEpochRoot_eq_ok_iff, hsends]
    constructor
    · rintro ⟨hprepare, transactionHash, status, houtcome⟩
      exact ⟨_, hprepare, transactionHash, status, houtcome, rfl⟩
    · rintro ⟨txHash, hprepare, transactionHash, status, houtcome, -⟩
      exact ⟨hprepare, transactionHash, status, houtcome⟩

variable {ethers outcomes}

/-- Fuel for the attempts there are is fuel enough. -/
theorem dispatch_of_attempts_le {fuel fuel' : ℕ} {d : Dispatched}
    (h : dispatch ethers chains outcomes fuel task = some d) (hle : d.attempts ≤ fuel') :
    dispatch ethers chains outcomes fuel' task = some d := by
  by_cases hrouted : Routed chains task
  · obtain ⟨attempt, hdispatch, -⟩ := dispatch_of_routed ethers outcomes hrouted
    obtain ⟨n, hbudget⟩ := Nat.exists_eq_succ_of_ne_zero (budget_pos task.retries).ne'
    rw [hdispatch, dispatchLoop_eq_some_iff hbudget] at h ⊢
    exact ⟨h.1, hle⟩
  · obtain ⟨e, hdispatch⟩ := dispatch_of_not_routed ethers outcomes hrouted
    rw [hdispatch] at h ⊢
    exact h

/-- **The waits double**, for a task that has not been tried. -/
theorem dispatch_sleeps_prefix {fuel : ℕ} {d : Dispatched} (hretries : task.retries = 0)
    (h : dispatch ethers chains outcomes fuel task = some d) :
    d.sleeps <+: [1000, 2000, 4000, 8000] := by
  have hwaits : waits 0 4 = [1000, 2000, 4000, 8000] := by decide
  by_cases hrouted : Routed chains task
  · obtain ⟨attempt, hdispatch, -⟩ := dispatch_of_routed ethers outcomes hrouted
    have hbudget : budget task.retries = 4 + 1 := by rw [hretries]; decide
    rw [hdispatch, dispatchLoop_eq_some_iff hbudget] at h
    rw [h.1, conclude_sleeps, hretries, ← hwaits]
    refine waits_prefix 0 ?_
    rcases Retry.run_cases attempt 4 0 with ⟨k, hk, -, txHash, -, hrun⟩ | ⟨-, e, -, hrun⟩
    · rw [hrun]
      exact hk
    · rw [hrun]
  · obtain ⟨e, hdispatch⟩ := dispatch_of_not_routed ethers outcomes hrouted
    rw [hdispatch] at h
    cases Option.some.inj h
    exact List.nil_prefix

end Dispatch

/-- **Success of the relay is success on the chain exactly when the first
transaction that is mined succeeds** (`FirstMinedSucceeds`). -/
theorem reportsSuccess_iff (ethers : Ethers) (chains : List ChainWatchConfig)
    (outcomes : ℕ → TxOutcome) (task : RelayTask) :
    ReportsSuccess ethers chains outcomes task
      ↔ FirstMinedSucceeds ethers chains outcomes task := by
  unfold ReportsSuccess FirstMinedSucceeds
  by_cases hrouted : Routed chains task
  · obtain ⟨attempt, hdispatch, hmined⟩ := dispatch_of_routed ethers outcomes hrouted
    simp only [hdispatch]
    rw [dispatchLoop_reports_iff hmined (fun i => SucceededAt.minedAt),
      or_iff_left (fun h => h.1 hrouted), and_iff_right hrouted]
    refine and_congr_left (fun _ => forall₃_congr fun i _ hi => ?_)
    rw [succeededAt_iff hi]
  · obtain ⟨e, hdispatch⟩ := dispatch_of_not_routed ethers outcomes hrouted
    simp only [hdispatch]
    rw [or_iff_right (fun h => hrouted h.1), and_iff_right hrouted]
    constructor
    · rintro ⟨fuel, d, hd, hreports⟩
      cases Option.some.inj hd
      exact (hreports.2.2 (fun ⟨i, hi, _⟩ => Nat.not_lt_zero i hi)).2
    · intro hfailed
      refine ⟨0, _, rfl, Nat.zero_le _, ?_, fun _ => ⟨⟨e, rfl⟩, hfailed⟩⟩
      rintro ⟨i, hi, -⟩
      exact absurd hi (Nat.not_lt_zero i)

/-- A chain with a bridge adapter at the address `2`. -/
def avalancheFuji : ChainWatchConfig where
  chainId := 43113
  name := "Avalanche Fuji"
  epochManagerAddress := "0x0000000000000000000000000000000000000001"
  bridgeAdapterAddress := some "0x0000000000000000000000000000000000000002"
  confirmationBlocks := 1
  httpRpcUrl := "http://127.0.0.1:9650"
  signerKey := "0000000000000000000000000000000000000000000000000000000000000001"

/-- A reverted transaction is reported as a success. -/
theorem reportsSuccess_reverted :
    ¬ ∀ (ethers : Ethers) (chains : List ChainWatchConfig) (outcomes : ℕ → TxOutcome)
      (task : RelayTask), ReportsSuccess ethers chains outcomes task := by
  intro h
  obtain ⟨fuel, d, hd, -, -, hfailed⟩ :=
    h ⟨fun _ => .ok (), fun _ => .ok (), fun _ => some 2⟩ [avalancheFuji]
      (fun _ => .mined 7 (some 0)) (buildTask 1287 43113 42 0xAA 64)
  cases fuel with
  | zero => exact absurd hd nofun
  | succ fuel =>
    cases Option.some.inj hd
    have hreverted : (some 0 : Option (BitVec 64)) ≠ some 1 := by decide
    obtain ⟨⟨e, herror⟩, -⟩ := hfailed (fun ⟨_, _, _, hs⟩ => hreverted hs)
    exact absurd herror nofun

/-- A task that is pending and has not been tried, as `buildTask` builds it, needs
an adapter, a configuration and five attempts of which the first that is mined
succeeds. -/
theorem firstMinedSucceeds_pending_iff {ethers : Ethers} {chains : List ChainWatchConfig}
    {outcomes : ℕ → TxOutcome} {task : RelayTask} (hstate : task.state = .pending)
    (hretries : task.retries = 0) :
    FirstMinedSucceeds ethers chains outcomes task
      ↔ Routed chains task
        ∧ ∀ i < MAX_RETRIES.toNat, MinedAt ethers chains outcomes task i →
          (∀ j < i, ¬ MinedAt ethers chains outcomes task j) → (outcomes i).Succeeded := by
  have hbudget : budget task.retries = MAX_RETRIES.toNat := by rw [hretries]; decide
  have hfresh : task.retries ≠ BitVec.allOnes 32 := by rw [hretries]; decide
  unfold FirstMinedSucceeds
  rw [hbudget, hstate]
  constructor
  · rintro (⟨hrouted, hfirst, -⟩ | ⟨-, reason, hreason⟩)
    · exact ⟨hrouted, hfirst⟩
    · exact absurd hreason nofun
  · rintro ⟨hrouted, hfirst⟩
    exact Or.inl ⟨hrouted, hfirst, fun hlast => absurd hlast hfresh⟩

/-- **A batch reports what happened when each of its tasks does.** -/
theorem processBatch_reports {ethers : Ethers} {chains : List ChainWatchConfig}
    {tasks : List (RelayTask × (ℕ → TxOutcome))}
    (h : ∀ t ∈ tasks, ReportsSuccess ethers chains t.2 t.1) :
    ∃ ds, processBatch ethers chains MAX_RETRIES.toNat tasks = some ds
      ∧ List.Forall₂ (fun t d => d.Reports (SucceededAt ethers chains t.2 t.1)) tasks ds := by
  induction tasks with
  | nil => exact ⟨[], rfl, List.Forall₂.nil⟩
  | cons t tasks ih =>
    obtain ⟨task, outcomes⟩ := t
    obtain ⟨fuel, d, hd, hreports⟩ := h (task, outcomes) List.mem_cons_self
    obtain ⟨ds, hds, hall⟩ := ih (fun t ht => h t (List.mem_cons_of_mem _ ht))
    have hfirst := dispatch_of_attempts_le hd hreports.1
    refine ⟨d :: ds, ?_, List.Forall₂.cons hreports hall⟩
    rw [processBatch, hfirst, hds]
    rfl

end RelayEngine
