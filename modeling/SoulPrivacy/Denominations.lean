import SoulPrivacy.PoolCalls
import SoulPrivacy.PoolSolvency

/-!
# Fixed denominations

Governance may allow some amounts only. The pool keeps them in a list, to clear
them when another list is set, and in a mapping, to look them up. Both are the
same at every point of every run, whatever was set before and with duplicates in
either list (`InForce.allowed`).

A deposit looks its amount up when its note is inserted. A commit looks it up
when it is made, and its reveal, which inserts the note, does not. So a note is
one of the amounts in force unless governance set others between the commit and
the reveal: the notes of a run all are exactly where each reveal is of a commit
made since then, or of one whose value is on the list (`guaranteed_iff`).
-/

namespace Denominations

open PrivacyPool (Call Cont Entry Event Interfaces World Effect Storage CommitRecord machine
  Deployed)

/-! ## The mapping and the list -/

theorem foldl_update_true (ds : List Uint256) (allowed : Uint256 → Bool) (d : Uint256) :
    ds.foldl (fun allowed d => Function.update allowed d true) allowed d = true
      ↔ allowed d = true ∨ d ∈ ds := by
  induction ds generalizing allowed with
  | nil => simp
  | cons d' ds ih =>
    rw [List.foldl_cons, ih, update_true_eq_true, List.mem_cons, or_assoc]

theorem foldl_update_false (ds : List Uint256) (allowed : Uint256 → Bool) (d : Uint256) :
    ds.foldl (fun allowed d => Function.update allowed d false) allowed d = true
      ↔ allowed d = true ∧ d ∉ ds := by
  induction ds generalizing allowed with
  | nil => simp
  | cons d' ds ih =>
    rw [List.foldl_cons, ih, update_false_eq_true, List.mem_cons, not_or, and_comm (a := d ≠ d'),
      and_assoc]

/-! ## What is in force -/

/-- A receipt of the pool. -/
abbrev Receipt := CallStack.Receipt Call Cont Event

/-- **The amounts in force**: whether they are, the list that was set last, what
was committed last under each hash, and whether that was since. -/
structure Regime where
  enabled : Bool
  tiers : List Uint256
  committed : Bytes32 → Uint256
  recent : Bytes32 → Bool

/-- Nothing was set. -/
def Regime.initial : Regime := ⟨false, [], fun _ => 0, fun _ => false⟩

/-- What a call with some ether changes. -/
def Regime.entered (r : Regime) (value : Uint256) : Entry → Regime
  | .commitDeposit commitHash =>
      { r with
        committed := Function.update r.committed commitHash value
        recent := Function.update r.recent commitHash true }
  | .enableFixedDenominations denominations =>
      { r with enabled := true, tiers := denominations, recent := fun _ => false }
  | .disableFixedDenominations => { r with enabled := false }
  | _ => r

/-- What a receipt changes. -/
def Regime.step (r : Regime) : Receipt → Regime
  | .entered c _ => r.entered c.msg.value c.entry
  | .resumed _ _ => r

/-- **What is in force after a trace.** -/
def regime (trace : List Receipt) : Regime := trace.foldl Regime.step Regime.initial

theorem regime_append_singleton (trace : List Receipt) (receipt : Receipt) :
    regime (trace ++ [receipt]) = (regime trace).step receipt := by
  unfold regime
  rw [List.foldl_append]
  rfl

/-- **The pool keeps what is in force**, in the list and in the mapping, and what
was committed; the commits made since are of amounts on the list. -/
structure InForce (r : Regime) (pool : Storage) : Prop where
  enabled : pool.fixedDenominationsEnabled = r.enabled
  tiers : pool.denominationTiers = r.tiers
  allowed : ∀ d, pool.allowedDenomination d = true ↔ d ∈ pool.denominationTiers
  committed : ∀ h, (pool.pendingCommits h).depositor ≠ 0 →
    (pool.pendingCommits h).value = r.committed h
  recent : r.enabled = true → ∀ h, r.recent h = true → r.committed h ∈ r.tiers

/-- What a deposit or a commit looked up is on the list. -/
theorem InForce.mem_tiers {r : Regime} {pool : Storage} (h : InForce r pool) {amount : Uint256}
    (hlookup : pool.fixedDenominationsEnabled = true → pool.allowedDenomination amount = true)
    (henabled : r.enabled = true) : amount ∈ r.tiers := by
  have hallowed := hlookup (h.enabled.trans henabled)
  rw [← h.tiers]
  exact (h.allowed amount).mp hallowed

/-- **Setting other amounts** clears the old ones first. -/
theorem InForce.enable {r : Regime} {pool : Storage} (h : InForce r pool) (ds : List Uint256)
    (d : Uint256) :
    ds.foldl (fun allowed d => Function.update allowed d true)
        (pool.denominationTiers.foldl (fun allowed d => Function.update allowed d false)
          pool.allowedDenomination) d = true ↔ d ∈ ds := by
  rw [foldl_update_true, foldl_update_false, h.allowed]
  exact or_iff_right (fun hd => hd.2 hd.1)

/-- **A record is written** that is no commit, or has what was committed. -/
theorem InForce.committed_update {r : Regime} {pool : Storage} (h : InForce r pool)
    {hash : Bytes32} {record : CommitRecord}
    (hrecord : record.depositor ≠ 0 → record.value = r.committed hash) (h' : Bytes32) :
    (Function.update pool.pendingCommits hash record h').depositor ≠ 0 →
      (Function.update pool.pendingCommits hash record h').value = r.committed h' := by
  by_cases heq : h' = hash
  · rw [heq, Function.update_self]
    exact hrecord
  · rw [Function.update_of_ne heq]
    exact h.committed h'

variable {X : Type} {E : Interfaces X}

/-- **A call keeps what is in force.** -/
theorem InForce.effect {r : Regime} {msg : PrivacyPool.Msg} {w w' : World X} {entry : Entry}
    {events : List Event} {k : Option Cont} (h : InForce r w.pool)
    (heff : Effect E msg w entry w' events k) : InForce (r.entered msg.value entry) w'.pool := by
  cases heff
  case commitDeposit commitHash running value_ne denomination free =>
    refine ⟨h.enabled, h.tiers, h.allowed, fun h' => ?_, fun henabled h' => ?_⟩
    · show (Function.update w.pool.pendingCommits commitHash _ h').depositor ≠ 0 →
        (Function.update w.pool.pendingCommits commitHash _ h').value
          = Function.update r.committed commitHash msg.value h'
      by_cases heq : h' = commitHash
      · rw [heq, Function.update_self, Function.update_self]
        exact fun _ => rfl
      · rw [Function.update_of_ne heq, Function.update_of_ne heq]
        exact h.committed h'
    · show Function.update r.recent commitHash true h' = true →
        Function.update r.committed commitHash msg.value h' ∈ r.tiers
      by_cases heq : h' = commitHash
      · rw [heq, Function.update_self, Function.update_self]
        exact fun _ => h.mem_tiers denomination henabled
      · rw [Function.update_of_ne heq, Function.update_of_ne heq]
        exact h.recent henabled h'
  case revealDeposit commitment salt tree index root poolBalance record running record_eq
      depositor unrevealed early late new ins balance =>
    -- the record keeps its depositor and its value
    exact ⟨h.enabled, h.tiers, h.allowed,
      h.committed_update (record_eq ▸ h.committed (PrivacyPool.commitHashOf E commitment salt)),
      h.recent⟩
  case reclaimExpiredCommit commitHash record guard record_eq depositor unrevealed expired =>
    exact ⟨h.enabled, h.tiers, h.allowed,
      h.committed_update (fun hdeleted => absurd rfl hdeleted), h.recent⟩
  case enableFixedDenominations ds auth => exact ⟨rfl, rfl, h.enable ds, h.committed, nofun⟩
  case disableFixedDenominations auth => exact ⟨rfl, h.tiers, h.allowed, h.committed, nofun⟩
  -- the other entry points leave all of it as it is
  all_goals exact ⟨h.enabled, h.tiers, h.allowed, h.committed, h.recent⟩

/-! ## The notes of a run -/

/-- The values of the notes that events insert. -/
def noteValues (events : List Event) : List Uint256 :=
  events.filterMap (fun
    | .deposit _ _ amount _ => some amount
    | _ => none)

/-- A condition on each call of a trace, with what was in force before it. -/
def EachCall (P : Regime → Call → List Event → Prop) (trace : List Receipt) : Prop :=
  ∀ pre c events post, trace = pre ++ .entered c events :: post → P (regime pre) c events

/-- One more call. -/
theorem eachCall_append_entered {P : Regime → Call → List Event → Prop} {trace : List Receipt}
    {c : Call} {events : List Event} (h : EachCall P trace) (hlast : P (regime trace) c events) :
    EachCall P (trace ++ [.entered c events]) := by
  intro pre c' events' post heq
  rcases List.eq_nil_or_concat post with rfl | ⟨post', last, rfl⟩
  · obtain ⟨rfl, hcall⟩ := List.append_inj' heq rfl
    cases hcall
    exact hlast
  · rw [List.concat_eq_append, ← List.cons_append, ← List.append_assoc] at heq
    exact h pre c' events' post' (List.append_inj' heq rfl).1

/-- The rest of a call. -/
theorem eachCall_append_resumed {P : Regime → Call → List Event → Prop} {trace : List Receipt}
    {k : Cont} {events : List Event} (h : EachCall P trace) :
    EachCall P (trace ++ [.resumed k events]) := by
  intro pre c' events' post heq
  rcases List.eq_nil_or_concat post with rfl | ⟨post', last, rfl⟩
  · obtain ⟨-, hcall⟩ := List.append_inj' heq rfl
    cases hcall
  · rw [List.concat_eq_append, ← List.cons_append, ← List.append_assoc] at heq
    exact h pre c' events' post' (List.append_inj' heq rfl).1

/-- **Every note that is inserted while amounts are fixed is one of them.** -/
def NotesInTiers (trace : List Receipt) : Prop :=
  EachCall (fun r _ events => r.enabled = true → ∀ v ∈ noteValues events, v ∈ r.tiers) trace

/-- A reveal **is covered** if its commit was made since the amounts were set, or
was of one of them. -/
def Covered (E : Interfaces X) (r : Regime) (c : Call) : Prop :=
  ∀ commitment salt, c.entry = .revealDeposit commitment salt →
    r.recent (PrivacyPool.commitHashOf E commitment salt) = true
      ∨ r.committed (PrivacyPool.commitHashOf E commitment salt) ∈ r.tiers

/-- **Every reveal while amounts are fixed is covered.** -/
def RevealsCovered (E : Interfaces X) (trace : List Receipt) : Prop :=
  EachCall (fun r c _ => r.enabled = true → Covered E r c) trace

/-- **A call inserts notes on the list** unless it is a reveal that is not
covered. -/
theorem InForce.noteValues_iff {r : Regime} {msg : PrivacyPool.Msg} {entry : Entry}
    {w w' : World X} {events : List Event} {k : Option Cont} (h : InForce r w.pool)
    (heff : Effect E msg w entry w' events k) (henabled : r.enabled = true) :
    (∀ v ∈ noteValues events, v ∈ r.tiers) ↔ Covered E r ⟨msg, entry⟩ := by
  cases heff
  case deposit commitment amount tree index root poolBalance running amount_ne value_eq
      new denomination ins balance =>
    refine iff_of_true (fun v hv => ?_) nofun
    rw [List.mem_singleton.mp hv]
    exact h.mem_tiers denomination henabled
  case revealDeposit commitment salt tree index root poolBalance record running record_eq
      depositor unrevealed early late new ins balance =>
    have hvalue : record.value = r.committed (PrivacyPool.commitHashOf E commitment salt) := by
      have hcommitted := h.committed (PrivacyPool.commitHashOf E commitment salt)
      rw [record_eq] at hcommitted
      exact hcommitted (depositor ▸ msg.sender_ne_zero)
    show (∀ v ∈ [record.value], v ∈ r.tiers) ↔ _
    rw [List.forall_mem_singleton, hvalue]
    constructor
    · rintro hmem _ _ ⟨⟩
      exact Or.inr hmem
    · intro hcovered
      rcases hcovered commitment salt rfl with hrecent | hmem
      · exact h.recent henabled _ hrecent
      · exact hmem
  all_goals exact iff_of_true (fun v hv => absurd hv List.not_mem_nil) nofun

/-! ## Runs -/

/-- **The invariant**: the pool keeps what is in force, and inserted notes off the
list by the reveals that are not covered. -/
structure Checked (E : Interfaces X) (p : PrivacyPool.Point X) : Prop where
  inForce : InForce (regime p.trace) p.state.pool
  notes : EachCall (fun r c events => r.enabled = true →
    ((∀ v ∈ noteValues events, v ∈ r.tiers) ↔ Covered E r c)) p.trace

theorem Checked.init {w : World X} (h : Deployed E w) :
    Checked E (⟨w, []⟩ : PrivacyPool.Point X) := by
  obtain ⟨sender, epochManager, chainId, appId, guardian, oracle, hpool⟩ := h
  refine ⟨?_, fun pre c events post heq => ?_⟩
  · show InForce Regime.initial w.pool
    rw [hpool]
    exact ⟨rfl, rfl, fun d => by simp [PrivacyPool.construct], fun h hne => absurd rfl hne, nofun⟩
  · exact absurd heq.symm (List.append_ne_nil_of_right_ne_nil pre (List.cons_ne_nil _ post))

/-- **A call keeps the invariant.** -/
theorem Checked.enter {p : PrivacyPool.Point X} (hp : Checked E p) {c : Call} {w' : World X}
    {events : List Event} {k : Option Cont}
    (h : PrivacyPool.enter E c p.state = .ok (w', events, k)) :
    Checked E (⟨w', p.trace ++ [.entered c events]⟩ : PrivacyPool.Point X) := by
  obtain ⟨-, heff⟩ := PrivacyPool.enter_effect h
  have hinForce : InForce (regime p.trace) (PrivacyPool.credit c.msg p.state).pool := hp.inForce
  refine ⟨?_, eachCall_append_entered hp.notes (hinForce.noteValues_iff heff)⟩
  show InForce (regime (p.trace ++ [.entered c events])) w'.pool
  rw [regime_append_singleton]
  exact hinForce.effect heff

/-- The rest of a call keeps it. -/
theorem Checked.resume {p : PrivacyPool.Point X} (hp : Checked E p) {k : Cont} {success : Bool}
    {w' : World X} {events : List Event}
    (h : PrivacyPool.resume k success p.state = .ok (w', events)) :
    Checked E (⟨w', p.trace ++ [.resumed k events]⟩ : PrivacyPool.Point X) := by
  obtain ⟨-, rfl⟩ := PrivacyPool.resume_eq_ok h
  refine ⟨?_, eachCall_append_resumed hp.notes⟩
  show InForce (regime (p.trace ++ [.resumed k events])) _
  rw [regime_append_singleton]
  exact ⟨hp.inForce.enabled, hp.inForce.tiers, hp.inForce.allowed, hp.inForce.committed,
    hp.inForce.recent⟩

variable (E) in
/-- **It is an invariant of the pool.** -/
theorem checked_invariant :
    CallStack.Invariant (machine E) (fun _ _ => True) (fun _ p => Checked E p)
      (fun _ _ p => Checked E p) where
  enter_done hp _ h := hp.enter h
  enter_send hp _ h := hp.enter h
  send := by
    intro ks p k s' hp h
    obtain ⟨-, rfl⟩ := PrivacyPool.send_eq_some h
    exact ⟨hp.inForce, hp.notes⟩
  resume_true hp h := hp.resume h
  resume_false hp h := hp.resume h
  outside := by
    rintro ks p s' hp ⟨-, -, hpool, -⟩
    refine ⟨?_, hp.notes⟩
    rw [hpool]
    exact hp.inForce
  tick := by
    rintro p s' hp ⟨-, -, hpool, -⟩
    refine ⟨?_, hp.notes⟩
    rw [hpool]
    exact hp.inForce

/-- **The guarantee of fixed denominations**: the mapping is the list, and every
note that was inserted while they were on is of an amount that was in force. -/
structure Guaranteed (pool : Storage) (trace : List Receipt) : Prop where
  allowed_iff : ∀ d, pool.allowedDenomination d = true ↔ d ∈ pool.denominationTiers
  notes : NotesInTiers trace

/-- **At every point of every run** the regime of the trace is that of the pool,
and the guarantee holds exactly where all reveals are covered. -/
theorem guaranteed_iff {w₀ : World X} (hdeployed : Deployed E w₀)
    {c : CallStack.Config (World X) Receipt Cont}
    (hreach : CallStack.Reachable (machine E) (fun _ _ => True) w₀ c) :
    (c.now.state.pool.fixedDenominationsEnabled = (regime c.now.trace).enabled
        ∧ c.now.state.pool.denominationTiers = (regime c.now.trace).tiers)
      ∧ (Guaranteed c.now.state.pool c.now.trace ↔ RevealsCovered E c.now.trace) := by
  have hchecked := (checked_invariant E).holds (Checked.init hdeployed) hreach
  refine ⟨⟨hchecked.inForce.enabled, hchecked.inForce.tiers⟩, ?_, ?_⟩
  · rintro ⟨-, hnotes⟩ pre call events post heq henabled
    exact (hchecked.notes pre call events post heq henabled).mp
      (hnotes pre call events post heq henabled)
  · intro hcovered
    refine ⟨hchecked.inForce.allowed, fun pre call events post heq henabled => ?_⟩
    exact (hchecked.notes pre call events post heq henabled).mpr
      (hcovered pre call events post heq henabled)

/-! ## A commit from before -/

open PrivacyPool (permissive)

/-- A pool that has just been deployed, … -/
def newWorld : World Unit :=
  ⟨⟨0, 0⟩, 0, PrivacyPool.construct (permissive Unit).hash 1 0 3 4 5 0, ()⟩

theorem newWorld_deployed : Deployed (permissive Unit) newWorld := ⟨1, 0, 3, 4, 5, 0, rfl⟩

theorem governance_ne_zero : (1 : Address) ≠ 0 := by decide

theorem depositor_ne_zero : (2 : Address) ≠ 0 := by decide

/-- … where governance sets the amounts, … -/
def setTiers (ds : List Uint256) : Call :=
  ⟨⟨1, 0, governance_ne_zero⟩, .enableFixedDenominations ds⟩

/-- … ten are committed … -/
def commitTen : Call :=
  ⟨⟨2, 10, depositor_ne_zero⟩,
    .commitDeposit (PrivacyPool.commitHashOf (permissive Unit) 7 9)⟩

/-- … and revealed. -/
def revealTen : Call := ⟨⟨2, 0, depositor_ne_zero⟩, .revealDeposit 7 9⟩

/-- The record of the commit. -/
def recordOfTen : CommitRecord := ⟨2, 10, 0, false⟩

/-- The mapping when ten may be deposited. -/
def allowedTen : Uint256 → Bool := Function.update (fun _ => false) 10 true

/-- The mapping when twenty has replaced it. -/
def allowedTwenty : Uint256 → Bool :=
  Function.update (Function.update allowedTen 10 false) 20 true

/-- The pool on the way. -/
def runWorld (number balance : ℕ) (allowed : Uint256 → Bool) (tiers : List Uint256)
    (commits : Bytes32 → CommitRecord) : World Unit :=
  { newWorld with
    block := ⟨number, 0⟩
    balance := balance
    pool := { newWorld.pool with
      fixedDenominationsEnabled := true
      allowedDenomination := allowed
      denominationTiers := tiers
      pendingCommits := commits } }

/-- The commits while ten are pending. -/
def pendingTen : Bytes32 → CommitRecord :=
  Function.update (fun _ => CommitRecord.deleted)
    (PrivacyPool.commitHashOf (permissive Unit) 7 9) recordOfTen

/-- The calls before the reveal. -/
def beforeReveal : List Receipt :=
  [.entered (setTiers [10]) [],
    .entered commitTen
      [.depositCommitted (PrivacyPool.commitHashOf (permissive Unit) 7 9) 2 10],
    .entered (setTiers [20]) []]

/-- What the reveal emits. -/
def revealTenEvents : List Event :=
  [.depositRevealed 7 recordOfTen.value, .deposit 7 0 recordOfTen.value 0]

/-- **A note of ten is inserted while twenty only is allowed.** Ten was allowed
when it was committed. -/
theorem exists_replaced_run :
    ∃ c, CallStack.Reachable (machine (permissive Unit)) (fun _ _ => True) newWorld c
      ∧ c.now.trace = beforeReveal ++ [.entered revealTen revealTenEvents] := by
  obtain ⟨tree, hins, -⟩ := MerkleTree.insert_represents (permissive Unit).hash
    (MerkleTree.fresh_represents _) (by decide) 7
  have hten : Effect (permissive Unit) (setTiers [10]).msg
      (PrivacyPool.credit (setTiers [10]).msg newWorld) (setTiers [10]).entry
      (runWorld 0 0 allowedTen [10] (fun _ => CommitRecord.deleted)) [] none :=
    .enableFixedDenominations rfl
  have hcommit : Effect (permissive Unit) commitTen.msg
      (PrivacyPool.credit commitTen.msg
        (runWorld 0 0 allowedTen [10] (fun _ => CommitRecord.deleted))) commitTen.entry
      (runWorld 0 10 allowedTen [10] pendingTen)
      [.depositCommitted (PrivacyPool.commitHashOf (permissive Unit) 7 9) 2 10] none :=
    .commitDeposit rfl (by decide) (fun _ => rfl) rfl
  have htwenty : Effect (permissive Unit) (setTiers [20]).msg
      (PrivacyPool.credit (setTiers [20]).msg (runWorld 0 10 allowedTen [10] pendingTen))
      (setTiers [20]).entry (runWorld 0 10 allowedTwenty [20] pendingTen) [] none :=
    .enableFixedDenominations rfl
  have hrecord : pendingTen (PrivacyPool.commitHashOf (permissive Unit) 7 9) = recordOfTen :=
    Function.update_self _ _ _
  have hlate : 2 ≤ 0 + PrivacyPool.MAX_COMMIT_DELAY := by decide
  have hreveal : Effect (permissive Unit) revealTen.msg
      (PrivacyPool.credit revealTen.msg (runWorld 2 10 allowedTwenty [20] pendingTen))
      revealTen.entry _ revealTenEvents none :=
    .revealDeposit rfl hrecord rfl rfl le_rfl hlate rfl hins rfl
  have hwait : (machine (permissive Unit)).tick (runWorld 0 10 allowedTwenty [20] pendingTen)
      (runWorld 2 10 allowedTwenty [20] pendingTen) :=
    ⟨Nat.zero_le _, le_rfl, rfl, rfl, rfl⟩
  have hfirst := PrivacyPool.enter_eq_ok.mpr ⟨fun _ => rfl, hten⟩
  have hsecond := PrivacyPool.enter_eq_ok.mpr ⟨fun h => Bool.noConfusion h, hcommit⟩
  have hthird := PrivacyPool.enter_eq_ok.mpr ⟨fun _ => rfl, htwenty⟩
  have hfourth := PrivacyPool.enter_eq_ok.mpr ⟨fun _ => rfl, hreveal⟩
  exact ⟨_, .tail (.tail (.tail (.tail (.tail .refl (.call trivial hfirst))
    (.call trivial hsecond)) (.call trivial hthird)) (.tick hwait)) (.call trivial hfourth), rfl⟩

/-- At the end of this run the guarantee holds exactly if all reveals are covered. -/
theorem guaranteed_iff_replaced :
    ∃ c : CallStack.Config (World Unit) Receipt Cont,
      c.now.trace = beforeReveal ++ [.entered revealTen revealTenEvents]
        ∧ (c.now.state.pool.fixedDenominationsEnabled = (regime c.now.trace).enabled
          ∧ c.now.state.pool.denominationTiers = (regime c.now.trace).tiers)
        ∧ (Guaranteed c.now.state.pool c.now.trace
          ↔ RevealsCovered (permissive Unit) c.now.trace) := by
  obtain ⟨c, hreach, htrace⟩ := exists_replaced_run
  exact ⟨c, htrace, guaranteed_iff newWorld_deployed hreach⟩

/-- A note of another amount can be inserted. -/
theorem replaced_not_guaranteed :
    ¬ ∀ (E : Interfaces Unit) (w₀ : World Unit)
        (c : CallStack.Config (World Unit) Receipt Cont), Deployed E w₀ →
      CallStack.Reachable (machine E) (fun _ _ => True) w₀ c →
        Guaranteed c.now.state.pool c.now.trace := by
  intro hall
  obtain ⟨c, hreach, htrace⟩ := exists_replaced_run
  have hnotes := (hall _ _ c newWorld_deployed hreach).notes
  have hmem : (10 : Uint256) ∈ (regime beforeReveal).tiers :=
    hnotes beforeReveal revealTen revealTenEvents [] htrace rfl 10 (List.mem_singleton_self 10)
  exact absurd (List.mem_singleton.mp hmem) (by decide)

end Denominations
