import SoulPrivacy.PoolEffect

/-!
# Which calls of the pool go through

The converse of the inversion: where the guards of an effect hold, the
call goes through and has that effect. So `Effect` is what the entry points
do, no more and no less (`enter_eq_ok`), and to show that a call goes
through it is enough to give its effect.
-/

namespace PrivacyPool

variable {X : Type} {E : Interfaces X}

/-- The guards of `transfer` are all it needs. -/
theorem transfer_of_effect {msg : Msg} {proof : Bytes} {merkleRoot : Bytes32}
    {nullifiers outputs : Pair} {domainChainId domainAppId : Uint256}
    {w w' : World X} {evs : List Event} {k : Option Cont}
    (h : Effect E msg w
      (.transfer proof merkleRoot nullifiers outputs domainChainId domainAppId) w' evs k) :
    transfer E proof merkleRoot nullifiers outputs domainChainId domainAppId w
      = .ok (w', evs) ∧ k = none := by
  cases h with
  | transfer running chain app known outputs_ok compliant fresh reported verified ins =>
    obtain ⟨tree₁, index₁, root₁, index₂, hins₁, hins₂⟩ := ins
    refine ⟨?_, rfl⟩
    unfold transfer
    refine (Except.unit_bind_eq_ok _ _ _).mpr ⟨whenNotPaused_eq_ok.mpr running, ?_⟩
    refine (revertIf_bind_eq_ok _ _ _ _).mpr
      ⟨not_or.mpr ⟨not_not.mpr chain, not_not.mpr app⟩, ?_⟩
    refine (revertIf_bind_eq_ok _ _ _ _).mpr ⟨by rw [known]; exact nofun, ?_⟩
    refine (Except.unit_bind_eq_ok _ _ _).mpr ⟨outputs_ok, ?_⟩
    refine (Except.unit_bind_eq_ok _ _ _).mpr ⟨compliant, ?_⟩
    refine (Except.bind_eq_ok _ _ _).mpr
      ⟨_, checkAndSpendNullifiers_eq_ok.mpr ⟨fresh, _, reported, rfl⟩, ?_⟩
    refine (Except.bind_eq_ok _ _ _).mpr ⟨true, (orRevert_eq_ok ..).mpr verified, ?_⟩
    refine (revertIf_bind_eq_ok _ _ _ _).mpr ⟨nofun, ?_⟩
    refine (Except.bind_eq_ok _ _ _).mpr ⟨_, insertLeaf_eq_ok.mpr hins₁, ?_⟩
    refine (Except.bind_eq_ok _ _ _).mpr ⟨_, insertLeaf_eq_ok.mpr hins₂, ?_⟩
    rfl

/-- The guards of `withdraw` are all it needs up to the payout. -/
theorem withdraw_of_effect {msg : Msg} {proof : Bytes} {merkleRoot : Bytes32}
    {nullifiers outputs : Pair} {recipient : Address} {exitValue : Uint256}
    {w w' : World X} {evs : List Event} {k : Option Cont}
    (h : Effect E msg w (.withdraw proof merkleRoot nullifiers outputs recipient exitValue)
      w' evs k) :
    ∃ k', withdraw E proof merkleRoot nullifiers outputs recipient exitValue w
      = .ok (w', k') ∧ evs = [] ∧ k = some k' := by
  cases h with
  | withdraw running guard exit_ne known outputs_ok compliant unblocked fresh reported
      verified ins balance =>
    obtain ⟨tree₁, index₁, root₁, index₂, hins₁, hins₂⟩ := ins
    refine ⟨_, ?_, rfl, rfl⟩
    unfold withdraw
    refine (Except.unit_bind_eq_ok _ _ _).mpr ⟨whenNotPaused_eq_ok.mpr running, ?_⟩
    refine (Except.unit_bind_eq_ok _ _ _).mpr ⟨nonReentrant_eq_ok.mpr guard, ?_⟩
    refine (revertIf_bind_eq_ok _ _ _ _).mpr ⟨exit_ne, ?_⟩
    refine (revertIf_bind_eq_ok _ _ _ _).mpr ⟨?_, ?_⟩
    · exact not_lt.mpr (Nat.le_of_add_left_le (toNat_of_checkedSub balance).le)
    refine (revertIf_bind_eq_ok _ _ _ _).mpr
      ⟨by rw [World.pool_withPool, known]; exact nofun, ?_⟩
    refine (Except.unit_bind_eq_ok _ _ _).mpr ⟨outputs_ok, ?_⟩
    refine (Except.unit_bind_eq_ok _ _ _).mpr
      ⟨(checkCompliance_congr nullifiers outputs proof rfl rfl).trans compliant, ?_⟩
    refine (Except.unit_bind_eq_ok _ _ _).mpr
      ⟨(checkRecipient_congr recipient rfl rfl).trans unblocked, ?_⟩
    refine (Except.bind_eq_ok _ _ _).mpr ⟨_, checkAndSpendNullifiers_eq_ok.mpr
      ⟨⟨fresh.fst, fresh.snd, fresh.ne⟩, _, reported, rfl⟩, ?_⟩
    refine (Except.bind_eq_ok _ _ _).mpr ⟨true, (orRevert_eq_ok ..).mpr verified, ?_⟩
    refine (revertIf_bind_eq_ok _ _ _ _).mpr ⟨nofun, ?_⟩
    refine (Except.bind_eq_ok _ _ _).mpr ⟨_, insertLeaf_eq_ok.mpr hins₁, ?_⟩
    refine (Except.bind_eq_ok _ _ _).mpr ⟨_, insertLeaf_eq_ok.mpr hins₂, ?_⟩
    exact (Except.bind_eq_ok _ _ _).mpr ⟨_, balance, rfl⟩

/-- The guards of `deposit` are all it needs. -/
theorem deposit_of_effect {msg : Msg} {commitment : Bytes32} {amount : Uint256}
    {w w' : World X} {evs : List Event} {k : Option Cont}
    (h : Effect E msg w (.deposit commitment amount) w' evs k) :
    deposit E msg commitment amount w = .ok (w', evs) ∧ k = none := by
  cases h with
  | deposit running amount_ne value_eq new denomination ins balance =>
    refine ⟨?_, rfl⟩
    unfold deposit
    refine (Except.unit_bind_eq_ok _ _ _).mpr ⟨whenNotPaused_eq_ok.mpr running, ?_⟩
    refine (revertIf_bind_eq_ok _ _ _ _).mpr
      ⟨not_or.mpr ⟨amount_ne, not_not.mpr value_eq⟩, ?_⟩
    refine (revertIf_bind_eq_ok _ _ _ _).mpr ⟨by rw [new]; exact nofun, ?_⟩
    refine (Except.unit_bind_eq_ok _ _ _).mpr
      ⟨checkDenomination_eq_ok.mpr denomination, ?_⟩
    refine (Except.bind_eq_ok _ _ _).mpr ⟨_, insertLeaf_eq_ok.mpr ins, ?_⟩
    exact (Except.bind_eq_ok _ _ _).mpr ⟨_, balance, rfl⟩

/-- The guards of `commitDeposit` are all it needs. -/
theorem commitDeposit_of_effect {msg : Msg} {commitHash : Bytes32} {w w' : World X}
    {evs : List Event} {k : Option Cont}
    (h : Effect E msg w (.commitDeposit commitHash) w' evs k) :
    commitDeposit msg commitHash w = .ok (w', evs) ∧ k = none := by
  cases h with
  | commitDeposit running value_ne denomination free =>
    refine ⟨?_, rfl⟩
    unfold commitDeposit
    refine (Except.unit_bind_eq_ok _ _ _).mpr ⟨whenNotPaused_eq_ok.mpr running, ?_⟩
    refine (revertIf_bind_eq_ok _ _ _ _).mpr ⟨value_ne, ?_⟩
    refine (Except.unit_bind_eq_ok _ _ _).mpr
      ⟨checkDenomination_eq_ok.mpr denomination, ?_⟩
    exact (revertIf_bind_eq_ok _ _ _ _).mpr ⟨not_not.mpr free, rfl⟩

/-- The guards of `revealDeposit` are all it needs. -/
theorem revealDeposit_of_effect {msg : Msg} {commitment salt : Bytes32}
    {w w' : World X} {evs : List Event} {k : Option Cont}
    (h : Effect E msg w (.revealDeposit commitment salt) w' evs k) :
    revealDeposit E msg commitment salt w = .ok (w', evs) ∧ k = none := by
  cases h with
  | revealDeposit running record_eq depositor unrevealed early late new ins balance =>
    subst record_eq
    refine ⟨?_, rfl⟩
    unfold revealDeposit
    refine (Except.unit_bind_eq_ok _ _ _).mpr ⟨whenNotPaused_eq_ok.mpr running, ?_⟩
    refine (revertIf_bind_eq_ok _ _ _ _).mpr ⟨not_not.mpr depositor, ?_⟩
    refine (revertIf_bind_eq_ok _ _ _ _).mpr ⟨by rw [unrevealed]; exact nofun, ?_⟩
    refine (revertIf_bind_eq_ok _ _ _ _).mpr ⟨not_lt.mpr early, ?_⟩
    refine (revertIf_bind_eq_ok _ _ _ _).mpr ⟨not_lt.mpr late, ?_⟩
    refine (revertIf_bind_eq_ok _ _ _ _).mpr ⟨by rw [new]; exact nofun, ?_⟩
    refine (Except.bind_eq_ok _ _ _).mpr ⟨_, insertLeaf_eq_ok.mpr ins, ?_⟩
    exact (Except.bind_eq_ok _ _ _).mpr ⟨_, balance, rfl⟩

/-- The guards of `reclaimExpiredCommit` are all it needs up to the
refund. -/
theorem reclaimExpiredCommit_of_effect {msg : Msg} {commitHash : Bytes32}
    {w w' : World X} {evs : List Event} {k : Option Cont}
    (h : Effect E msg w (.reclaimExpiredCommit commitHash) w' evs k) :
    ∃ k', reclaimExpiredCommit msg commitHash w = .ok (w', evs, k') ∧ k = some k' := by
  cases h with
  | reclaimExpiredCommit guard record_eq depositor unrevealed expired =>
    subst record_eq
    refine ⟨_, ?_, rfl⟩
    unfold reclaimExpiredCommit
    refine (Except.unit_bind_eq_ok _ _ _).mpr ⟨nonReentrant_eq_ok.mpr guard, ?_⟩
    refine (revertIf_bind_eq_ok _ _ _ _).mpr ⟨not_not.mpr depositor, ?_⟩
    refine (revertIf_bind_eq_ok _ _ _ _).mpr ⟨?_, ?_⟩
    · rw [World.pool_withPool, unrevealed]
      exact nofun
    · exact (revertIf_bind_eq_ok _ _ _ _).mpr ⟨not_le.mpr expired, rfl⟩

/-- Governance is all a governed entry point needs. -/
theorem onStorage_of_auth {msg : Msg} {w : World X} {pool : Storage}
    (auth : msg.sender = w.pool.governance) :
    onStorage w (do onlyGovernance msg w.pool; Except.ok pool)
      = .ok (w.withPool pool, [], none) :=
  (Except.bind_eq_ok _ _ _).mpr
    ⟨pool, (Except.unit_bind_eq_ok _ _ _).mpr ⟨onlyGovernance_eq_ok.mpr auth, rfl⟩, rfl⟩

theorem pause_of_effect {msg : Msg} {reason : String} {w w' : World X}
    {evs : List Event} {k : Option Cont}
    (h : Effect E msg w (.pause reason) w' evs k) :
    ∃ pool, pause msg reason w.block w.pool = .ok (pool, evs)
      ∧ w' = w.withPool pool ∧ k = none := by
  cases h with
  | pause auth running =>
    refine ⟨_, ?_, rfl, rfl⟩
    unfold pause
    refine (revertIf_bind_eq_ok _ _ _ _).mpr ⟨?_, ?_⟩
    · rwa [not_and_or, not_not, not_not]
    · exact (revertIf_bind_eq_ok _ _ _ _).mpr ⟨by rw [running]; exact nofun, rfl⟩

theorem unpause_of_effect {msg : Msg} {w w' : World X} {evs : List Event}
    {k : Option Cont} (h : Effect E msg w .unpause w' evs k) :
    ∃ pool, unpause msg w.block w.pool = .ok (pool, evs)
      ∧ w' = w.withPool pool ∧ k = none := by
  cases h with
  | unpause paused auth =>
    refine ⟨_, ?_, rfl, rfl⟩
    unfold unpause
    refine (revertIf_bind_eq_ok _ _ _ _).mpr ⟨by rw [paused]; exact nofun, ?_⟩
    refine (revertIf_bind_eq_ok _ _ _ _).mpr ⟨?_, rfl⟩
    rwa [not_and_or, not_not, not_lt]

theorem setGuardian_of_effect {msg : Msg} {a : Address} {w w' : World X}
    {evs : List Event} {k : Option Cont}
    (h : Effect E msg w (.setGuardian a) w' evs k) :
    ∃ pool, setGuardian msg a w.pool = .ok (pool, evs)
      ∧ w' = w.withPool pool ∧ k = none := by
  cases h with
  | setGuardian auth =>
    refine ⟨_, ?_, rfl, rfl⟩
    exact (revertIf_bind_eq_ok _ _ _ _).mpr ⟨not_not.mpr auth, rfl⟩

/-- The guards of an entry point are all it needs. -/
theorem body_of_effect {msg : Msg} {entry : Entry} {w w' : World X}
    {evs : List Event} {k : Option Cont} (h : Effect E msg w entry w' evs k) :
    body E msg entry w = .ok (w', evs, k) := by
  cases entry
  case commitDeposit =>
    obtain ⟨hok, rfl⟩ := commitDeposit_of_effect h
    exact (Except.bind_eq_ok _ _ _).mpr ⟨_, hok, rfl⟩
  case revealDeposit =>
    obtain ⟨hok, rfl⟩ := revealDeposit_of_effect h
    exact (Except.bind_eq_ok _ _ _).mpr ⟨_, hok, rfl⟩
  case reclaimExpiredCommit =>
    obtain ⟨_, hok, rfl⟩ := reclaimExpiredCommit_of_effect h
    exact (Except.bind_eq_ok _ _ _).mpr ⟨_, hok, rfl⟩
  case deposit =>
    obtain ⟨hok, rfl⟩ := deposit_of_effect h
    exact (Except.bind_eq_ok _ _ _).mpr ⟨_, hok, rfl⟩
  case transfer =>
    obtain ⟨hok, rfl⟩ := transfer_of_effect h
    exact (Except.bind_eq_ok _ _ _).mpr ⟨_, hok, rfl⟩
  case withdraw =>
    obtain ⟨_, hok, rfl, rfl⟩ := withdraw_of_effect h
    exact (Except.bind_eq_ok _ _ _).mpr ⟨_, hok, rfl⟩
  case pause =>
    obtain ⟨pool, hok, rfl, rfl⟩ := pause_of_effect h
    exact (Except.bind_eq_ok _ _ _).mpr ⟨_, hok, rfl⟩
  case unpause =>
    obtain ⟨pool, hok, rfl, rfl⟩ := unpause_of_effect h
    exact (Except.bind_eq_ok _ _ _).mpr ⟨_, hok, rfl⟩
  case setGuardian =>
    obtain ⟨pool, hok, rfl, rfl⟩ := setGuardian_of_effect h
    exact (Except.bind_eq_ok _ _ _).mpr ⟨_, hok, rfl⟩
  all_goals
    cases h
    exact onStorage_of_auth (by assumption)

/-- **What a successful call is**: it carries no value to an entry point
that does not take any, and it has its effect. -/
theorem enter_eq_ok {c : Call} {w w' : World X} {evs : List Event}
    {k : Option Cont} :
    enter E c w = .ok (w', evs, k) ↔
      (c.entry.payable = false → c.msg.value = 0) ∧
        Effect E c.msg (credit c.msg w) c.entry w' evs k := by
  constructor
  · exact enter_effect
  · rintro ⟨hvalue, heff⟩
    exact (revertIf_bind_eq_ok _ _ _ _).mpr
      ⟨fun h => h.2 (hvalue h.1), body_of_effect heff⟩

end PrivacyPool
