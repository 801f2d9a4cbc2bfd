import SoulPrivacy.RelayerFeeVault

/-!
# Solvency of the fee vault

The vault keeps three kinds of money in one balance: `vaultBalance`, which
is still to be distributed, the stakes, and the fees that are credited and
not yet claimed. **The ether it holds covers the sum of the three at every
point of every run** (`owed`), also while a relayer is being paid and calls
back. A payout has left the books before it is sent; until then it is the
slack of the invariant.

With it two facts about single entries: a registered relayer has the
minimum at stake, and a relay hash is credited at most once.
-/

namespace RelayerFeeVault

/-! ## What the vault owes -/

/-- The sum of a mapping of amounts. -/
noncomputable def total (amounts : Address → Uint256) : ℕ := ∑ᶠ a, (amounts a).toNat

/-- **What the vault owes**: to the relayers to come, for stakes, and for
fees. -/
noncomputable def owed (s : Storage) : ℕ :=
  s.vaultBalance.toNat + total s.stakedAmount + total s.claimableBalance

theorem total_update (amounts : Address → Uint256) (a : Address) (v : Uint256) :
    total (Function.update amounts a v) + (amounts a).toNat = total amounts + v.toNat := by
  have hfinite := Address.finite
  unfold total
  simp only [Function.apply_update (fun _ => BitVec.toNat) amounts a v]
  exact finsum_update_add (fun x => (amounts x).toNat) a v.toNat

theorem total_zero : total (fun _ => 0) = 0 := finsum_zero

/-- The payment a call is about to make. -/
def payout : Option Cont → ℕ
  | none => 0
  | some k => k.value.toNat

section Step

variable {msg : Msg} {s s' : Storage} {entry : Entry} {k : Option Cont}

/-- **A call raises what the vault owes by no more than it brings**, and what
it is about to pay is no longer owed. -/
theorem Effect.owed_le (h : Effect msg s entry s' k) :
    owed s' + payout k ≤ owed s + msg.value.toNat := by
  cases h
  case registerRelayer new enough =>
    have hstake := total_update s.stakedAmount msg.sender msg.value
    simp only [owed, payout]
    omega
  case deregisterRelayer registered claimed =>
    have hstake := total_update s.stakedAmount msg.sender 0
    have hzero : (0 : Uint256).toNat = 0 := rfl
    simp only [owed, payout, Cont.value]
    omega
  case depositFees vaultBalance balance =>
    simp only [owed, payout]
    omega
  case receive vaultBalance balance =>
    simp only [owed, payout]
    omega
  case creditRelay relayer relayHash _ _ _ claimable count vaultBalance auth registered new
      claimable_eq balance =>
    have hclaimable := total_update s.claimableBalance relayer claimable
    simp only [owed, payout]
    omega
  case claimFees registered amount_ne =>
    have hclaimable := total_update s.claimableBalance msg.sender 0
    have hzero : (0 : Uint256).toNat = 0 := rfl
    simp only [owed, payout, Cont.value]
    omega
  case slashRelayer relayer amount stake vaultBalance reason auth stake_eq balance =>
    have hstake := total_update s.stakedAmount relayer stake
    simp only [owed, payout]
    omega
  all_goals exact Nat.le_add_right _ _

/-- **A registered relayer has the minimum at stake.** -/
def Staked (s : Storage) : Prop :=
  ∀ r, s.registeredRelayers r = true → s.minimumStake.toNat ≤ (s.stakedAmount r).toNat

theorem Effect.staked (h : Effect msg s entry s' k) (hs : Staked s) : Staked s' := by
  intro r hr
  cases h
  case registerRelayer new enough =>
    by_cases heq : r = msg.sender
    · subst heq
      simp only [Function.update_self]
      exact enough
    · simp only [Function.update_of_ne heq] at hr ⊢
      exact hs r hr
  case deregisterRelayer registered claimed =>
    have heq : r ≠ msg.sender := by
      rintro rfl
      simp at hr
    simp only [Function.update_of_ne heq] at hr ⊢
    exact hs r hr
  case slashRelayer relayer amount stake vaultBalance reason auth stake_eq balance =>
    dsimp only at hr ⊢
    by_cases heq : r = relayer
    · subst heq
      rw [Function.update_self]
      split at hr
      · rw [Function.update_self] at hr
        cases hr
      · rename_i hnot
        exact BitVec.le_def.mp (BitVec.not_lt.mp hnot)
    · rw [Function.update_of_ne heq]
      split at hr
      · rw [Function.update_of_ne heq] at hr
        exact hs r hr
      · exact hs r hr
  all_goals exact hs r hr

/-- Whether a call credits a relay hash. -/
def credits (relayHash : Bytes32) : Entry → ℕ
  | .creditRelay _ hash _ _ _ => if hash = relayHash then 1 else 0
  | _ => 0

/-- How often a relay hash is marked as processed. -/
def Storage.processed (s : Storage) (relayHash : Bytes32) : ℕ :=
  if s.relayProcessed relayHash = true then 1 else 0

/-- **A call marks the relay hash it credits**, which was not marked. -/
theorem Effect.processed_eq (h : Effect msg s entry s' k) (relayHash : Bytes32) :
    s'.processed relayHash = s.processed relayHash + credits relayHash entry := by
  cases h
  case creditRelay relayer hash _ _ _ claimable count vaultBalance auth registered new
      claimable_eq balance =>
    by_cases heq : hash = relayHash
    · subst heq
      simp [Storage.processed, credits, new]
    · simp [Storage.processed, credits, heq, Function.update_of_ne (Ne.symm heq)]
  all_goals rfl

/-- **Only a credited relay raises a claimable balance.** -/
theorem Effect.claimable_le (h : Effect msg s entry s' k)
    (hnone : ∀ relayHash, credits relayHash entry = 0) (r : Address) :
    (s'.claimableBalance r).toNat ≤ (s.claimableBalance r).toNat := by
  cases h
  case creditRelay relayer hash _ _ _ claimable count vaultBalance auth registered new
      claimable_eq balance =>
    have hone := hnone hash
    rw [credits, if_pos rfl] at hone
    cases hone
  case claimFees registered amount_ne =>
    by_cases heq : r = msg.sender
    · subst heq
      simp only [Function.update_self]
      exact Nat.zero_le _
    · simp only [Function.update_of_ne heq]
      exact le_rfl
  all_goals exact le_rfl

end Step

/-! ## The invariant -/

/-- How often the calls of a trace credit a relay hash. -/
def credited (relayHash : Bytes32) (trace : List Receipt) : ℕ :=
  (trace.map fun
    | .entered c _ => credits relayHash c.entry
    | .resumed _ _ => 0).sum

/-- **The invariant of the money**, with `slack` ether that is about to be
paid and no longer owed. -/
structure Solvent (slack : ℕ) (p : CallStack.Checkpoint World Receipt) : Prop where
  covered : owed p.state.vault + slack ≤ p.state.balance
  staked : Staked p.state.vault
  once : ∀ relayHash, credited relayHash p.trace = p.state.vault.processed relayHash

theorem Solvent.enter {p : CallStack.Checkpoint World Receipt} (hp : Solvent 0 p) {c : Call}
    {w' : World} {evs : List Event} {k : Option Cont}
    (h : enter c p.state = .ok (w', evs, k)) :
    Solvent (payout k) (⟨w', p.trace ++ [.entered c evs]⟩ : CallStack.Checkpoint _ _) := by
  obtain ⟨heff, hbalance⟩ := enter_effect h
  refine ⟨?_, heff.staked hp.staked, fun relayHash => ?_⟩
  · show owed w'.vault + payout k ≤ w'.balance
    calc owed w'.vault + payout k
        ≤ owed p.state.vault + c.msg.value.toNat := heff.owed_le
      _ ≤ p.state.balance + c.msg.value.toNat := Nat.add_le_add_right hp.covered _
      _ = w'.balance := hbalance.symm
  · show credited relayHash (p.trace ++ [.entered c evs]) = w'.vault.processed relayHash
    rw [heff.processed_eq relayHash, ← hp.once relayHash]
    simp [credited]

/-- **Solvency is an invariant of the vault**, whatever the relayers do while
they are being paid. -/
theorem solvent_invariant (self : Address) (side : Storage → Call → Prop) :
    CallStack.Invariant machine (Allowed self side) (fun _ p => Solvent 0 p)
      (fun k _ p => Solvent k.value.toNat p) where
  enter_done hp _ h := hp.enter h
  enter_send hp _ h := hp.enter h
  send := by
    intro ks p k s' hp h
    obtain ⟨hle, rfl⟩ := send_eq_some h
    refine ⟨?_, hp.staked, hp.once⟩
    show owed p.state.vault + 0 ≤ p.state.balance - k.value.toNat
    exact Nat.le_sub_of_add_le hp.covered
  resume_true := by
    intro ks p k s' evs hp h
    obtain ⟨-, rfl⟩ := resume_eq_ok h
    refine ⟨hp.covered, hp.staked, fun relayHash => ?_⟩
    rw [← hp.once relayHash]
    simp [credited]
  resume_false := by
    intro ks p k s' evs _ h
    cases (resume_eq_ok h).1
  outside := by
    rintro ks p s' hp ⟨hvault, hbalance⟩
    refine ⟨?_, hvault ▸ hp.staked, fun relayHash => ?_⟩
    · show owed s'.vault + 0 ≤ s'.balance
      rw [hvault]
      exact hp.covered.trans hbalance
    · show _ = s'.vault.processed relayHash
      rw [hvault]
      exact hp.once relayHash
  tick := by
    rintro p s' hp rfl
    exact hp

/-- The vault owes nothing when it is deployed. -/
theorem Solvent.init (sender : Address) (feePerRelay maxFeePerRelay minimumStake : Uint256)
    (balance : ℕ) :
    Solvent 0 ⟨⟨construct sender feePerRelay maxFeePerRelay minimumStake, balance⟩, []⟩ := by
  refine ⟨?_, (fun r hr => by cases hr), fun _ => rfl⟩
  show 0 + total (fun _ => 0) + total (fun _ => 0) + 0 ≤ balance
  rw [total_zero]
  exact Nat.zero_le _

theorem solvent_vault_of_reachable {self : Address} {side : Storage → Call → Prop} {c : Config}
    (h : Reachable self side c) : Solvent 0 c.now := by
  obtain ⟨sender, feePerRelay, maxFeePerRelay, minimumStake, balance, hc⟩ := h
  exact (solvent_invariant self side).holds
    (Solvent.init sender feePerRelay maxFeePerRelay minimumStake balance) hc

/-- **The fee vault is solvent at every point of every run**: the ether it
holds covers the vault balance, all stakes and all claimable fees; each
registered relayer has the minimum at stake; and each relay hash is credited
at most once. -/
theorem vault_solvent {self : Address} {c : Config}
    (h : Reachable self (fun _ _ => True) c) :
    c.now.state.vault.vaultBalance.toNat + (∑ᶠ r, (c.now.state.vault.stakedAmount r).toNat)
        + (∑ᶠ r, (c.now.state.vault.claimableBalance r).toNat) ≤ c.now.state.balance ∧
      (∀ r, c.now.state.vault.registeredRelayers r = true →
        c.now.state.vault.minimumStake.toNat ≤ (c.now.state.vault.stakedAmount r).toNat) ∧
      ∀ relayHash, credited relayHash c.now.trace ≤ 1 := by
  have hs := solvent_vault_of_reachable h
  refine ⟨hs.covered, hs.staked, fun relayHash => ?_⟩
  rw [hs.once relayHash, Storage.processed]
  split
  · exact le_rfl
  · exact Nat.zero_le _

/-- A relayer registers with 100, and takes the stake back while somebody
pays fees in. -/
theorem vault_solvent_deregister :
    ∃ c, Reachable 0x100 (fun _ _ => True) c ∧ c.stack.length = 1 ∧ c.now.trace.length = 3 ∧
      c.now.state.vault.vaultBalance.toNat
          + (∑ᶠ r, (c.now.state.vault.stakedAmount r).toNat)
          + (∑ᶠ r, (c.now.state.vault.claimableBalance r).toNat) ≤ c.now.state.balance := by
  have hne : (2 : Address) ≠ 0x100 := by decide
  have hreach : ∃ c, Reachable 0x100 (fun _ _ => True) c ∧ c.stack.length = 1
      ∧ c.now.trace.length = 3 := by
    exact ⟨_, ⟨1, 5, 10, 50, 0, .tail (.tail (.tail .refl
      (.call (c := ⟨⟨2, 100, by decide⟩, .registerRelayer⟩) ⟨hne, trivial⟩ rfl))
      (.handover (c := ⟨⟨2, 0, by decide⟩, .deregisterRelayer⟩) ⟨hne, trivial⟩ rfl rfl))
      (.call (c := ⟨⟨2, 7, by decide⟩, .depositFees⟩) ⟨hne, trivial⟩ rfl)⟩, rfl, rfl⟩
  obtain ⟨c, hreach, hstack, htrace⟩ := hreach
  exact ⟨c, hreach, hstack, htrace, (vault_solvent hreach).1⟩

end RelayerFeeVault
