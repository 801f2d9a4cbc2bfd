import SoulPrivacy.FeeVaultSolvency

/-!
# What a relayer has in the fee vault

What a relayer has at stake should be what it paid in, less what was
slashed and what was returned (`Booked`), and it should be able to get it
back, with its fees. Every call keeps the books but one: `registerRelayer`
writes the new stake over the old one (`Effect.booked_iff`). A
stake is left to be written over when a slash takes the relayer below the
minimum: it is no longer registered then, so it cannot withdraw what is
left, and registering again makes the vault forget it.

**In a run in which each slash leaves nothing, or the minimum at least, the
books are right, and a relayer can always obtain its stake and its fees** by
calls of its own (`relayer_ledger`): it registers again if it has to, claims
and deregisters. After any other slash the rest of the stake is lost to it at
once (`canObtain_all_iff`).
-/

namespace RelayerFeeVault

/-! ## The books -/

/-- What a receipt says a relayer has paid in through `registerRelayer`, … -/
def paidBy (r : Address) : Receipt → ℕ
  | .entered ⟨msg, .registerRelayer⟩ _ => if msg.sender = r then msg.value.toNat else 0
  | _ => 0

/-- … what was slashed from it, … -/
def slashedBy (r : Address) : Receipt → ℕ
  | .entered ⟨_, .slashRelayer relayer amount _⟩ _ =>
    if relayer = r then amount.toNat else 0
  | _ => 0

/-- … what a payout returns of its stake, … -/
def stakeOf (r : Address) : Cont → ℕ
  | .stake relayer amount => if relayer = r then amount.toNat else 0
  | .fees _ _ => 0

/-- … and what it pays of its fees. -/
def feesOf (r : Address) : Cont → ℕ
  | .stake _ _ => 0
  | .fees relayer amount => if relayer = r then amount.toNat else 0

/-- What a payout that has ended amounts to. -/
def endedBy (f : Cont → ℕ) : Receipt → ℕ
  | .resumed k _ => f k
  | .entered _ _ => 0

/-- The sum of what the receipts of a trace say. -/
def sumOf (f : Receipt → ℕ) (trace : List Receipt) : ℕ := (trace.map f).sum

theorem sumOf_concat (f : Receipt → ℕ) (trace : List Receipt) (r : Receipt) :
    sumOf f (trace ++ [r]) = sumOf f trace + f r := by
  simp [sumOf]

/-- **The books of a relayer**: its stake, what was slashed and what was
returned, or is on its way, make up what it paid in. -/
def Booked (ks : List Cont) (s : Storage) (trace : List Receipt) (r : Address) : Prop :=
  (s.stakedAmount r).toNat + sumOf (slashedBy r) trace
      + (sumOf (endedBy (stakeOf r)) trace + (ks.map (stakeOf r)).sum)
    = sumOf (paidBy r) trace

/-- **Nothing is left at stake without a registration.** -/
def Clean (s : Storage) : Prop :=
  ∀ r, s.registeredRelayers r = false → (s.stakedAmount r).toNat = 0

/-- **A slash leaves nothing, or the minimum at least.** -/
def LeavesNoRest (s : Storage) (c : Call) : Prop :=
  ∀ r amount reason, c.entry = .slashRelayer r amount reason →
    (s.stakedAmount r).toNat = amount.toNat ∨
      s.minimumStake.toNat + amount.toNat ≤ (s.stakedAmount r).toNat

section Step

variable {msg : Msg} {s s' : Storage} {entry : Entry} {k : Option Cont}

/-- The stake a payout returns. -/
def stakePayout (r : Address) : Option Cont → ℕ
  | none => 0
  | some k => stakeOf r k

/-- The stake a registration writes over. -/
def forgotten (r : Address) (s : Storage) (msg : Msg) : Entry → ℕ
  | .registerRelayer => if msg.sender = r then (s.stakedAmount r).toNat else 0
  | _ => 0

/-- **What a call does to a stake**: what is paid in is added, what is
slashed or returned is taken away; and a registration forgets the stake
there was. -/
theorem Effect.stake_eq (h : Effect msg s entry s' k) (r : Address) (evs : List Event) :
    (s'.stakedAmount r).toNat + slashedBy r (.entered ⟨msg, entry⟩ evs) + stakePayout r k
        + forgotten r s msg entry
      = (s.stakedAmount r).toNat + paidBy r (.entered ⟨msg, entry⟩ evs) := by
  cases h
  case registerRelayer new enough =>
    by_cases heq : msg.sender = r
    · subst heq
      simp [slashedBy, stakePayout, forgotten, paidBy, Nat.add_comm]
    · simp [slashedBy, stakePayout, forgotten, paidBy, heq, Function.update_of_ne (Ne.symm heq)]
  case deregisterRelayer registered claimed =>
    by_cases heq : msg.sender = r
    · subst heq
      simp [slashedBy, stakePayout, stakeOf, forgotten, paidBy]
    · simp [slashedBy, stakePayout, stakeOf, forgotten, paidBy, heq,
        Function.update_of_ne (Ne.symm heq)]
  case slashRelayer relayer amount stake vaultBalance reason auth stake_eq balance =>
    by_cases heq : relayer = r
    · subst heq
      simpa [slashedBy, stakePayout, forgotten, paidBy] using stake_eq
    · simp [slashedBy, stakePayout, forgotten, paidBy, heq, Function.update_of_ne (Ne.symm heq)]
  all_goals rfl

/-- The payouts under way after a call. -/
theorem sum_stakeOf_toList (r : Address) (k : Option Cont) (ks : List Cont) :
    ((k.toList ++ ks).map (stakeOf r)).sum = stakePayout r k + (ks.map (stakeOf r)).sum := by
  cases k <;> simp [stakePayout]

/-- **A call keeps the books of a relayer exactly when it forgets no stake of
it.** -/
theorem Effect.booked_iff (h : Effect msg s entry s' k) {ks : List Cont}
    {trace : List Receipt} {r : Address} (hs : Booked ks s trace r) (evs : List Event) :
    Booked (k.toList ++ ks) s' (trace ++ [.entered ⟨msg, entry⟩ evs]) r
      ↔ forgotten r s msg entry = 0 := by
  have hstake := h.stake_eq r evs
  have hended : endedBy (stakeOf r) (.entered ⟨msg, entry⟩ evs) = 0 := rfl
  unfold Booked at hs ⊢
  rw [sumOf_concat, sumOf_concat, sumOf_concat, sum_stakeOf_toList, hended]
  constructor
  · intro hs'
    omega
  · intro hforgotten
    omega

/-- **After a call nothing is left at stake without a registration**, where
it is a slash under the condition. -/
theorem Effect.clean (h : Effect msg s entry s' k) (hs : Clean s)
    (hrest : LeavesNoRest s ⟨msg, entry⟩) : Clean s' := by
  intro r hr
  cases h
  case registerRelayer new enough =>
    have heq : r ≠ msg.sender := by
      rintro rfl
      simp at hr
    simp only [Function.update_of_ne heq] at hr ⊢
    exact hs r hr
  case deregisterRelayer registered claimed =>
    by_cases heq : r = msg.sender
    · subst heq
      simp only [Function.update_self]
      rfl
    · simp only [Function.update_of_ne heq] at hr ⊢
      exact hs r hr
  case slashRelayer relayer amount stake vaultBalance reason auth stake_eq balance =>
    dsimp only at hr ⊢
    by_cases heq : r = relayer
    · subst heq
      rw [Function.update_self]
      obtain hall | hminimum := hrest r amount reason rfl
      · omega
      · -- it stays registered, unless it was not registered before
        have hnot : ¬ stake < s.minimumStake := by
          rw [BitVec.lt_def]
          omega
        rw [if_neg hnot] at hr
        have hzero := hs r hr
        omega
    · rw [Function.update_of_ne heq]
      split at hr
      · rw [Function.update_of_ne heq] at hr
        exact hs r hr
      · exact hs r hr
  all_goals exact hs r hr

/-- A clean vault forgets no stake. -/
theorem Effect.forgotten_eq_zero (h : Effect msg s entry s' k) (hs : Clean s) (r : Address) :
    forgotten r s msg entry = 0 := by
  cases h
  case registerRelayer new enough =>
    show (if msg.sender = r then (s.stakedAmount r).toNat else 0) = 0
    split
    · rename_i heq
      exact heq ▸ hs _ new
    · rfl
  all_goals rfl

end Step

/-! ## The invariant -/

/-- The vault is clean, and the books of all relayers are right. -/
def Kept (ks : List Cont) (p : CallStack.Checkpoint World Receipt) : Prop :=
  Clean p.state.vault ∧ ∀ r, Booked ks p.state.vault p.trace r

theorem Kept.enter {ks : List Cont} {p : CallStack.Checkpoint World Receipt}
    (hp : Kept ks p) {c : Call} (hrest : LeavesNoRest p.state.vault c) {w' : World}
    {evs : List Event} {k : Option Cont} (h : enter c p.state = .ok (w', evs, k)) :
    Kept (k.toList ++ ks) ⟨w', p.trace ++ [.entered c evs]⟩ := by
  obtain ⟨heff, -⟩ := enter_effect h
  exact ⟨heff.clean hp.1 hrest,
    fun r => (heff.booked_iff (hp.2 r) evs).mpr (heff.forgotten_eq_zero hp.1 r)⟩

theorem kept_invariant (self : Address) :
    CallStack.Invariant machine (Allowed self LeavesNoRest) Kept
      (fun k ks p => Kept (k :: ks) p) where
  enter_done hp ha h := hp.enter ha.2 h
  enter_send hp ha h := hp.enter ha.2 h
  send := by
    intro ks p k s' hp h
    obtain ⟨-, rfl⟩ := send_eq_some h
    exact hp
  resume_true := by
    intro ks p k s' evs hp h
    obtain ⟨-, rfl⟩ := resume_eq_ok h
    refine ⟨hp.1, fun r => ?_⟩
    have hbooked := hp.2 r
    have hslashed : slashedBy r (.resumed k evs) = 0 := rfl
    have hpaid : paidBy r (.resumed k evs) = 0 := rfl
    have hended : endedBy (stakeOf r) (.resumed k evs) = stakeOf r k := rfl
    unfold Booked at hbooked ⊢
    rw [List.map_cons, List.sum_cons] at hbooked
    rw [sumOf_concat, sumOf_concat, sumOf_concat, hslashed, hpaid, hended]
    dsimp only
    omega
  resume_false := by
    intro ks p k s' evs _ h
    cases (resume_eq_ok h).1
  outside := by
    rintro ks p s' hp ⟨hvault, -⟩
    refine ⟨?_, fun r => ?_⟩
    · show Clean s'.vault
      exact hvault ▸ hp.1
    · show Booked ks s'.vault p.trace r
      exact hvault ▸ hp.2 r
  tick := by
    rintro p s' hp rfl
    exact hp

/-! ## Getting it back -/

/-- **A call of a relayer's own**, with its payment, which it accepts. -/
inductive OwnCall (r : Address) : CallStack.Checkpoint World Receipt →
    CallStack.Checkpoint World Receipt → Prop
  | plain {c w w' trace evs} : c.msg.sender = r → enter c w = .ok (w', evs, none) →
      OwnCall r ⟨w, trace⟩ ⟨w', trace ++ [.entered c evs]⟩
  | paid {c w w₁ w₂ w₃ trace evs evs' k} : c.msg.sender = r →
      enter c w = .ok (w₁, evs, some k) → send k w₁ = some w₂ →
      resume k true w₂ = .ok (w₃, evs') →
      OwnCall r ⟨w, trace⟩ ⟨w₃, trace ++ [.entered c evs] ++ [.resumed k evs']⟩

/-- An own call is made of steps of the machine. -/
theorem OwnCall.steps {r self : Address} {side : Storage → Call → Prop}
    {p p' : CallStack.Checkpoint World Receipt} (h : OwnCall r p p') (hr : r ≠ self)
    (hside : ∀ c, c.msg.sender = r → side p.state.vault c)
    (stack : List (CallStack.Frame World Receipt Cont)) :
    Relation.ReflTransGen (CallStack.Step machine (Allowed self side)) ⟨p, stack⟩
      ⟨p', stack⟩ := by
  cases h with
  | plain hsender henter =>
    exact .single (.call ⟨hsender ▸ hr, hside _ hsender⟩ henter)
  | paid hsender henter hsend hresume =>
    exact .tail (.single (.handover ⟨hsender ▸ hr, hside _ hsender⟩ henter hsend))
      (.returned hresume)

/-- What a relayer has received, in stakes and in fees. -/
def received (r : Address) (trace : List Receipt) : ℕ :=
  sumOf (endedBy (stakeOf r)) trace + sumOf (endedBy (feesOf r)) trace

/-- **A relayer can obtain an amount** by calls of its own, over what it pays
in for it. -/
def CanObtain (r : Address) (p : CallStack.Checkpoint World Receipt) (amount : ℕ) : Prop :=
  ∃ p', Relation.ReflTransGen (OwnCall r) p p' ∧
    received r p'.trace + sumOf (paidBy r) p.trace
      = received r p.trace + sumOf (paidBy r) p'.trace + amount

theorem CanObtain.zero (r : Address) (p : CallStack.Checkpoint World Receipt) :
    CanObtain r p 0 := ⟨p, .refl, rfl⟩

/-- One own call, and then more. -/
theorem CanObtain.step {r : Address} {p p₁ : CallStack.Checkpoint World Receipt}
    (h : OwnCall r p p₁) {amount amount₁ : ℕ} (hrest : CanObtain r p₁ amount₁)
    (hamount : received r p₁.trace + sumOf (paidBy r) p.trace + amount₁
      = received r p.trace + sumOf (paidBy r) p₁.trace + amount) :
    CanObtain r p amount := by
  obtain ⟨p', hsteps, heq⟩ := hrest
  exact ⟨p', .head h hsteps, by omega⟩

section Obtain

variable {r : Address} {w : World} {trace : List Receipt}

/-- What the receipts of a call with a payout add up to. -/
theorem received_paid (msg : Msg) (entry : Entry) (hentry : entry ≠ .registerRelayer)
    (evs evs' : List Event) (k : Cont) :
    received r (trace ++ [.entered ⟨msg, entry⟩ evs] ++ [.resumed k evs'])
        = received r trace + (stakeOf r k + feesOf r k) ∧
      sumOf (paidBy r) (trace ++ [.entered ⟨msg, entry⟩ evs] ++ [.resumed k evs'])
        = sumOf (paidBy r) trace := by
  have hpaid : paidBy r (.entered ⟨msg, entry⟩ evs) = 0 := by
    cases entry <;> first | rfl | exact absurd rfl hentry
  unfold received
  simp only [sumOf_concat]
  rw [hpaid]
  refine ⟨?_, rfl⟩
  show sumOf _ _ + 0 + stakeOf r k + (sumOf _ _ + 0 + feesOf r k) = _
  omega

/-- **A registered relayer without fees takes its stake back.** -/
theorem canObtain_stake (hr : r ≠ 0) (hregistered : w.vault.registeredRelayers r = true)
    (hclaimed : w.vault.claimableBalance r = 0)
    (hcovered : (w.vault.stakedAmount r).toNat ≤ w.balance) :
    CanObtain r ⟨w, trace⟩ (w.vault.stakedAmount r).toNat := by
  have hcall : call ⟨⟨r, 0, hr⟩, .deregisterRelayer⟩ w.vault
      = .ok ({ w.vault with
          registeredRelayers := Function.update w.vault.registeredRelayers r false
          stakedAmount := Function.update w.vault.stakedAmount r 0 }, [],
        some (.stake r (w.vault.stakedAmount r))) := by
    show nonPayable _ (deregisterRelayer _ _) = _
    unfold nonPayable deregisterRelayer onlyRegisteredRelayer
    rw [revertIf_bind_of_neg (not_not_intro rfl),
      revertIf_bind_of_neg (Bool.not_eq_false _ ▸ hregistered),
      revertIf_bind_of_neg (not_not_intro hclaimed)]
    rfl
  have hown : OwnCall r ⟨w, trace⟩ _ := .paid rfl (Except.map_eq_ok.mpr ⟨_, hcall, rfl⟩)
    (if_pos hcovered) rfl
  refine .step hown (.zero r _) ?_
  obtain ⟨hreceived, hpaid⟩ := received_paid ⟨r, 0, hr⟩
    .deregisterRelayer Entry.noConfusion [] [.relayerDeregistered r (w.vault.stakedAmount r)]
    (.stake r (w.vault.stakedAmount r))
  rw [hreceived, hpaid]
  simp [stakeOf, feesOf]
  omega

/-- **A registered relayer claims its fees, if there are any, and then takes
its stake back.** -/
theorem canObtain_registered (hr : r ≠ 0) (hregistered : w.vault.registeredRelayers r = true)
    (hcovered : (w.vault.stakedAmount r).toNat + (w.vault.claimableBalance r).toNat
      ≤ w.balance) :
    CanObtain r ⟨w, trace⟩
      ((w.vault.stakedAmount r).toNat + (w.vault.claimableBalance r).toNat) := by
  by_cases hclaimed : w.vault.claimableBalance r = 0
  · have hzero : (w.vault.claimableBalance r).toNat = 0 := by rw [hclaimed]; rfl
    rw [hzero, Nat.add_zero]
    exact canObtain_stake hr hregistered hclaimed (by omega)
  · have hcall : call ⟨⟨r, 0, hr⟩, .claimFees⟩ w.vault
        = .ok ({ w.vault with
            claimableBalance := Function.update w.vault.claimableBalance r 0 }, [],
          some (.fees r (w.vault.claimableBalance r))) := by
      show nonPayable _ (claimFees _ _) = _
      unfold nonPayable claimFees onlyRegisteredRelayer
      rw [revertIf_bind_of_neg (not_not_intro rfl),
        revertIf_bind_of_neg (Bool.not_eq_false _ ▸ hregistered),
        revertIf_bind_of_neg hclaimed]
      rfl
    have hfees : (w.vault.claimableBalance r).toNat ≤ w.balance := by omega
    have hown : OwnCall r ⟨w, trace⟩ _ := .paid rfl (Except.map_eq_ok.mpr ⟨_, hcall, rfl⟩)
      (if_pos hfees) rfl
    refine .step hown (canObtain_stake hr hregistered (Function.update_self _ _ _) ?_) ?_
    · show (w.vault.stakedAmount r).toNat
        ≤ w.balance + (0 : Uint256).toNat - (w.vault.claimableBalance r).toNat
      exact Nat.le_sub_of_add_le hcovered
    · obtain ⟨hreceived, hpaid⟩ := received_paid ⟨r, 0, hr⟩
        .claimFees Entry.noConfusion [] [.feesClaimed r (w.vault.claimableBalance r)]
        (.fees r (w.vault.claimableBalance r))
      rw [hreceived, hpaid]
      simp [stakeOf, feesOf]
      omega

/-- **A relayer that is not registered, and has nothing at stake, registers
again for its fees**, with the minimum, which it gets back. -/
theorem canObtain_unregistered (hr : r ≠ 0)
    (hregistered : w.vault.registeredRelayers r = false)
    (hcovered : (w.vault.claimableBalance r).toNat ≤ w.balance) :
    CanObtain r ⟨w, trace⟩ (w.vault.claimableBalance r).toNat := by
  have hcall : call ⟨⟨r, w.vault.minimumStake, hr⟩, .registerRelayer⟩ w.vault
      = .ok ({ w.vault with
          registeredRelayers := Function.update w.vault.registeredRelayers r true
          stakedAmount := Function.update w.vault.stakedAmount r w.vault.minimumStake },
        [.relayerRegistered r w.vault.minimumStake], none) := by
    show registerRelayer _ _ = _
    unfold registerRelayer
    rw [revertIf_bind_of_neg (Bool.not_eq_true _ ▸ hregistered),
      revertIf_bind_of_neg (BitVec.lt_irrefl _)]
    rfl
  have hown : OwnCall r ⟨w, trace⟩ _ := .plain rfl (Except.map_eq_ok.mpr ⟨_, hcall, rfl⟩)
  refine .step hown (canObtain_registered hr (Function.update_self _ _ _) ?_) ?_
  · simp only [Function.update_self]
    omega
  · simp only [Function.update_self, received, sumOf_concat, endedBy, paidBy, if_true]
    omega

end Obtain

/-- An amount is at most the sum. -/
theorem le_total (amounts : Address → Uint256) (a : Address) :
    (amounts a).toNat ≤ total amounts := by
  have hsum := total_update amounts a 0
  have hzero : (0 : Uint256).toNat = 0 := rfl
  omega

/-- **What a relayer has in the vault it can obtain.** -/
theorem canObtain_all {p : CallStack.Checkpoint World Receipt} (hsolvent : Solvent 0 p)
    {r : Address} (hr : r ≠ 0) (hclean : p.state.vault.registeredRelayers r = false →
      (p.state.vault.stakedAmount r).toNat = 0) :
    CanObtain r p ((p.state.vault.stakedAmount r).toNat
      + (p.state.vault.claimableBalance r).toNat) := by
  have hstake := le_total p.state.vault.stakedAmount r
  have hfees := le_total p.state.vault.claimableBalance r
  have hcovered := hsolvent.covered
  unfold owed at hcovered
  cases hregistered : p.state.vault.registeredRelayers r with
  | true => exact canObtain_registered hr hregistered (by omega)
  | false =>
    rw [hclean hregistered, Nat.zero_add]
    exact canObtain_unregistered hr hregistered (by omega)

/-! ## What it cannot get back -/

/-- What the vault still lets a relayer have: its fees, and its stake while
it is registered. -/
def worth (r : Address) (s : Storage) : ℕ :=
  (if s.registeredRelayers r = true then (s.stakedAmount r).toNat else 0)
    + (s.claimableBalance r).toNat

/-- **A call of a relayer's own only moves money**: what it receives and is
still worth is what it was worth and pays in. -/
theorem Effect.worth_eq {msg : Msg} {s s' : Storage} {entry : Entry} {k : Option Cont}
    (h : Effect msg s entry s' k) (hgov : msg.sender ≠ s.governance) (evs : List Event) :
    worth msg.sender s' + (k.map fun k => stakeOf msg.sender k + feesOf msg.sender k).getD 0
        = worth msg.sender s + paidBy msg.sender (.entered ⟨msg, entry⟩ evs) ∧
      s'.governance = s.governance := by
  cases h
  case registerRelayer new enough =>
    simp [worth, paidBy, new, Nat.add_comm]
  case deregisterRelayer registered claimed =>
    simp [worth, paidBy, stakeOf, feesOf, registered, claimed]
  case claimFees registered amount_ne =>
    simp [worth, paidBy, stakeOf, feesOf, registered]
  case creditRelay auth _ _ _ _ => exact absurd auth hgov
  case setFeePerRelay auth => exact absurd auth hgov
  case slashRelayer auth _ _ => exact absurd auth hgov
  case transferGovernance auth => exact absurd auth hgov
  all_goals exact ⟨rfl, rfl⟩

theorem OwnCall.worth_eq {r : Address} {p p' : CallStack.Checkpoint World Receipt}
    (h : OwnCall r p p') (hgov : r ≠ p.state.vault.governance) :
    worth r p'.state.vault + received r p'.trace + sumOf (paidBy r) p.trace
        = worth r p.state.vault + received r p.trace + sumOf (paidBy r) p'.trace ∧
      p'.state.vault.governance = p.state.vault.governance := by
  cases h with
  | @plain c w w' trace evs hsender henter =>
    obtain ⟨msg, entry⟩ := c
    subst hsender
    obtain ⟨hworth, hsame⟩ := (enter_effect henter).1.worth_eq hgov evs
    refine ⟨?_, hsame⟩
    have hreceived : received msg.sender (trace ++ [.entered ⟨msg, entry⟩ evs])
        = received msg.sender trace := by
      simp [received, sumOf_concat, endedBy]
    simp only [Option.map_none, Option.getD_none] at hworth
    dsimp only
    rw [hreceived, sumOf_concat]
    omega
  | @paid c w w₁ w₂ w₃ trace evs evs' k hsender henter hsend hresume =>
    obtain ⟨msg, entry⟩ := c
    subst hsender
    obtain ⟨hworth, hsame⟩ := (enter_effect henter).1.worth_eq hgov evs
    obtain ⟨-, rfl⟩ := send_eq_some hsend
    obtain ⟨-, rfl⟩ := resume_eq_ok hresume
    refine ⟨?_, hsame⟩
    have hreceived : received msg.sender
          (trace ++ [.entered ⟨msg, entry⟩ evs] ++ [.resumed k evs'])
        = received msg.sender trace + (stakeOf msg.sender k + feesOf msg.sender k) := by
      simp only [received, sumOf_concat, endedBy]
      omega
    have hresumed : paidBy msg.sender (.resumed k evs') = 0 := rfl
    simp only [Option.map_some, Option.getD_some] at hworth
    dsimp only
    rw [hreceived, sumOf_concat, sumOf_concat, hresumed]
    omega

/-- **A relayer obtains no more than it is worth**, unless it is the
governance. -/
theorem CanObtain.le_worth {r : Address} {p : CallStack.Checkpoint World Receipt}
    (hgov : r ≠ p.state.vault.governance) {amount : ℕ} (h : CanObtain r p amount) :
    amount ≤ worth r p.state.vault := by
  obtain ⟨p', hsteps, hamount⟩ := h
  have hinv : worth r p'.state.vault + received r p'.trace + sumOf (paidBy r) p.trace
      = worth r p.state.vault + received r p.trace + sumOf (paidBy r) p'.trace ∧
      p'.state.vault.governance = p.state.vault.governance := by
    clear hamount
    induction hsteps with
    | refl => exact ⟨rfl, rfl⟩
    | tail _ hstep ih =>
      obtain ⟨hworth, hsame⟩ := hstep.worth_eq (ih.2 ▸ hgov)
      exact ⟨by omega, hsame.trans ih.2⟩
  omega

/-- **The condition is exact**: a relayer that is not the governance can
obtain all of its stake and its fees exactly when it is registered, or has
nothing at stake. -/
theorem canObtain_all_iff {p : CallStack.Checkpoint World Receipt} (hsolvent : Solvent 0 p)
    {r : Address} (hr : r ≠ 0) (hgov : r ≠ p.state.vault.governance) :
    CanObtain r p ((p.state.vault.stakedAmount r).toNat
        + (p.state.vault.claimableBalance r).toNat) ↔
      (p.state.vault.registeredRelayers r = false →
        (p.state.vault.stakedAmount r).toNat = 0) := by
  refine ⟨fun h hregistered => ?_, canObtain_all hsolvent hr⟩
  have hle := h.le_worth hgov
  rw [worth, hregistered, if_neg Bool.false_ne_true] at hle
  omega

/-! ## The ledger -/

/-- **The ledger of a relayer**, in every run in which each slash leaves
nothing, or the minimum at least: its stake is what it paid in less what was
slashed and what was returned or is on its way; and by calls of its own,
which are a run of the vault, it can obtain all of its stake and its fees. -/
theorem relayer_ledger {self : Address} {c : Config} (h : Reachable self LeavesNoRest c)
    (r : Address) :
    (c.now.state.vault.stakedAmount r).toNat + sumOf (slashedBy r) c.now.trace
        + (sumOf (endedBy (stakeOf r)) c.now.trace
          + ((CallStack.conts c.stack).map (stakeOf r)).sum)
      = sumOf (paidBy r) c.now.trace ∧
    (r ≠ 0 → r ≠ self → ∃ p, Relation.ReflTransGen (OwnCall r) c.now p ∧
      Relation.ReflTransGen (CallStack.Step machine (Allowed self fun _ _ => True))
        c ⟨p, c.stack⟩ ∧
      received r p.trace + sumOf (paidBy r) c.now.trace
        = received r c.now.trace + sumOf (paidBy r) p.trace
          + ((c.now.state.vault.stakedAmount r).toNat
            + (c.now.state.vault.claimableBalance r).toNat)) := by
  have hsolvent := solvent_vault_of_reachable h
  obtain ⟨sender, feePerRelay, maxFeePerRelay, minimumStake, balance, hc⟩ := h
  have hinit : Kept []
      ⟨⟨construct sender feePerRelay maxFeePerRelay minimumStake, balance⟩, []⟩ :=
    ⟨fun _ _ => rfl, fun _ => rfl⟩
  obtain ⟨hclean, hbooked⟩ := (kept_invariant self).holds hinit hc
  refine ⟨hbooked r, fun hr hself => ?_⟩
  obtain ⟨p, hsteps, hamount⟩ := canObtain_all hsolvent hr (hclean r)
  refine ⟨p, hsteps, ?_, hamount⟩
  have hrun : ∀ {p₁ p₂}, Relation.ReflTransGen (OwnCall r) p₁ p₂ →
      Relation.ReflTransGen (CallStack.Step machine (Allowed self fun _ _ => True))
        ⟨p₁, c.stack⟩ ⟨p₂, c.stack⟩ := by
    intro p₁ p₂ hown
    induction hown with
    | refl => exact .refl
    | tail _ hstep ih =>
      exact ih.trans (hstep.steps hself (fun _ _ => trivial) c.stack)
  exact hrun hsteps

/-- A relayer is slashed to the minimum, and can obtain the rest. -/
theorem relayer_ledger_slashed :
    ∃ c, Reachable 0x100 LeavesNoRest c ∧ (c.now.state.vault.stakedAmount 2).toNat = 60 ∧
      sumOf (slashedBy 2) c.now.trace = 40 ∧
      (∃ p, Relation.ReflTransGen (OwnCall 2) c.now p ∧
        received 2 p.trace + sumOf (paidBy 2) c.now.trace
          = received 2 c.now.trace + sumOf (paidBy 2) p.trace
            + ((c.now.state.vault.stakedAmount 2).toNat
              + (c.now.state.vault.claimableBalance 2).toNat)) := by
  have hreach : ∃ c, Reachable 0x100 LeavesNoRest c ∧
      (c.now.state.vault.stakedAmount 2).toNat = 60 ∧
      sumOf (slashedBy 2) c.now.trace = 40 := by
    have hrelayer : (2 : Address) ≠ 0x100 := by decide
    have hgovernance : (1 : Address) ≠ 0x100 := by decide
    refine ⟨_, ⟨1, 5, 10, 50, 0, .tail (.tail .refl
      (.call (c := ⟨⟨2, 100, by decide⟩, .registerRelayer⟩) ⟨hrelayer, ?_⟩ rfl))
      (.call (c := ⟨⟨1, 0, by decide⟩, .slashRelayer 2 40 "late"⟩) ⟨hgovernance, ?_⟩ rfl)⟩,
      rfl, rfl⟩
    · intro r amount reason heq
      cases heq
    · intro r amount reason heq
      cases heq
      exact Or.inr (by decide)
  obtain ⟨c, hreach, hstake, hslashed⟩ := hreach
  obtain ⟨p, hown, -, hamount⟩ := (relayer_ledger hreach 2).2 (by decide) (by decide)
  exact ⟨c, hreach, hstake, hslashed, p, hown, hamount⟩

/-- **A forgotten stake.** Of a stake of 100 with a minimum of 50, 60 are
slashed; the relayer registers again with 100, and the vault has forgotten
the 40 that were left. -/
theorem forgotten_stake :
    ∃ c, Reachable 0x100 (fun _ _ => True) c ∧
      (c.now.state.vault.stakedAmount 2).toNat + sumOf (slashedBy 2) c.now.trace
          + (sumOf (endedBy (stakeOf 2)) c.now.trace
            + ((CallStack.conts c.stack).map (stakeOf 2)).sum)
        ≠ sumOf (paidBy 2) c.now.trace ∧
      (c.now.state.vault.stakedAmount 2).toNat + sumOf (slashedBy 2) c.now.trace + 40
        = sumOf (paidBy 2) c.now.trace := by
  have hrelayer : (2 : Address) ≠ 0x100 := by decide
  have hgovernance : (1 : Address) ≠ 0x100 := by decide
  have hreach : ∃ c, Reachable 0x100 (fun _ _ => True) c ∧ c.stack = [] ∧
      (c.now.state.vault.stakedAmount 2).toNat = 100 ∧
      sumOf (slashedBy 2) c.now.trace = 60 ∧
      sumOf (endedBy (stakeOf 2)) c.now.trace = 0 ∧ sumOf (paidBy 2) c.now.trace = 200 :=
    ⟨_, ⟨1, 5, 10, 50, 0, .tail (.tail (.tail .refl
      (.call (c := ⟨⟨2, 100, by decide⟩, .registerRelayer⟩) ⟨hrelayer, trivial⟩ rfl))
      (.call (c := ⟨⟨1, 0, by decide⟩, .slashRelayer 2 60 "fraud"⟩)
        ⟨hgovernance, trivial⟩ rfl))
      (.call (c := ⟨⟨2, 100, by decide⟩, .registerRelayer⟩) ⟨hrelayer, trivial⟩ rfl)⟩,
      rfl, rfl, rfl, rfl, rfl⟩
  obtain ⟨c, hreach, hstack, hstake, hslashed, hended, hpaid⟩ := hreach
  refine ⟨c, hreach, ?_, ?_⟩
  · rw [hstake, hslashed, hended, hpaid, hstack]
    decide
  · rw [hstake, hslashed, hpaid]

end RelayerFeeVault
