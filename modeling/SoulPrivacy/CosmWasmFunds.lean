import SoulPrivacy.CosmWasmConfig

/-!
# The funds of the CosmWasm pool

The chain puts the coins attached to a message into the account of the contract,
whatever the message is, before the contract sees it. It makes the payments that
the contract asks for afterwards, and undoes the message if it cannot.

Of the handlers only that of a deposit looks at the coins, and it looks at the
first one of its denomination. What else is attached stays in the account and is
credited to nobody. So the account is what the pool records in every state of a
run exactly when each message had attached what was credited, and no withdrawal
was made to the contract itself (`matched_throughout_iff`).
-/

namespace CosmWasmPool

variable {C : Crypto}

/-! ## The bank -/

/-- The amount of a denomination in a list of coins. -/
def totalIn (denom : String) (coins : List Coin) : ℕ :=
  ((coins.filter (fun c => c.denom == denom)).map (fun c => c.amount.toNat)).sum

/-- **The contract and its account**, by denominations. -/
structure World where
  contract : State
  balance : String → ℕ

/-- Who undoes a message: the contract, or the bank that cannot pay. -/
inductive Refusal where
  | contract (e : Error)
  | bank (msg : BankMsg)

/-- **The bank**, with the address of the contract and the recipients it pays
to. -/
structure Bank where
  address : String
  pays : String → Bool

/-- `BankMsg::Send`, from the account of the contract. -/
def Bank.send (B : Bank) (balance : String → ℕ) (msg : BankMsg) :
    Except Refusal (String → ℕ) := do
  revertIf (B.pays msg.toAddress = false) (.bank msg)
  revertIf (∃ c ∈ msg.amount, balance c.denom < totalIn c.denom msg.amount) (.bank msg)
  if msg.toAddress = B.address then .ok balance
  else .ok (fun denom => balance denom - totalIn denom msg.amount)

/-- **A message, with the coins attached to it and the payments it asks for.** -/
def worldStep (C : Crypto) (B : Bank) (c : Call) (w : World) : Except Refusal World := do
  let attached := fun denom => w.balance denom + totalIn denom c.info.funds
  let (contract, msgs) ← (execute C c.height c.info c.msg w.contract).mapError .contract
  let balance ← msgs.foldlM B.send attached
  .ok ⟨contract, balance⟩

/-- **The runs of a contract and its account**, which is empty at first. -/
def WorldRun (C : Crypto) (B : Bank) (height : ℕ) (msg : InstantiateMsg)
    (tr : List (World × Call)) (w : World) : Prop :=
  ∃ s₀, instantiate C height msg = .ok s₀
    ∧ Run (worldStep C B) (fun _ _ => True) ⟨s₀, fun _ => 0⟩ tr w

/-! ## What is recorded -/

/-- What the contract records of a denomination. -/
def recordedIn (s : State) (denom : String) : ℕ :=
  if denom = s.config.acceptedDenom then s.poolBalance.toNat else 0

/-- **The account is what the contract records**, in every denomination. -/
def Matched (w : World) : Prop := ∀ denom, w.balance denom = recordedIn w.contract denom

/-- What the contract credits of the coins attached to a message. -/
def credits (s : State) (c : Call) (denom : String) : ℕ :=
  match c.msg with
  | .deposit _ =>
    if denom = s.config.acceptedDenom then (amountIn denom c.info.funds).toNat else 0
  | _ => 0

/-- The payments that a message asks for. -/
def payments (s : State) (c : Call) : List BankMsg :=
  match c.msg with
  | .withdraw _ _ _ _ recipient exitValue => [⟨recipient, [⟨s.config.acceptedDenom, exitValue⟩]⟩]
  | _ => []

/-- What they come to. -/
def paysIn (s : State) (c : Call) (denom : String) : ℕ :=
  ((payments s c).map (fun msg => totalIn denom msg.amount)).sum

/-- A payment is made to the contract itself. -/
def PaysItself (B : Bank) (s : State) (c : Call) : Prop :=
  ∃ msg ∈ payments s c, msg.toAddress = B.address

instance (B : Bank) (s : State) (c : Call) : Decidable (PaysItself B s c) :=
  inferInstanceAs (Decidable (∃ msg ∈ payments s c, msg.toAddress = B.address))

/-- **A message that is credited for what is attached to it**, and is not a
withdrawal to the contract itself. -/
structure Credited (B : Bank) (s : State) (c : Call) : Prop where
  funds : ∀ denom, totalIn denom c.info.funds = credits s c denom
  others : ¬ PaysItself B s c

theorem totalIn_singleton (denom : String) (c : Coin) :
    totalIn denom [c] = if c.denom = denom then c.amount.toNat else 0 := by
  unfold totalIn
  rw [List.filter_singleton, Bool.cond_eq_ite]
  by_cases h : c.denom = denom
  · rw [if_pos h, if_pos (beq_iff_eq.mpr h)]
    simp
  · rw [if_neg h, if_neg (fun hb => h (beq_iff_eq.mp hb))]
    rfl

/-- **The payments of a message that goes through.** -/
theorem msgs_eq_payments {c : Call} {s s' : State} {msgs : List BankMsg}
    (h : execute C c.height c.info c.msg s = .ok (s', msgs)) : msgs = payments s c := by
  obtain ⟨height, info, msg⟩ := c
  cases msg with
  | deposit commitment =>
    obtain ⟨-, -, i, s₁, -, -, hr⟩ := executeDeposit_eq_ok.mp h
    exact (congrArg Prod.snd hr).symm
  | transfer proof merkleRoot nullifiers outputs =>
    obtain ⟨-, -, -, s₂, -, hr⟩ := executeTransfer_eq_ok.mp h
    exact (congrArg Prod.snd hr).symm
  | withdraw proof merkleRoot nullifiers outputs recipient exitValue =>
    obtain ⟨-, -, -, -, -, s₂, -, hr⟩ := executeWithdraw_eq_ok.mp h
    exact (congrArg Prod.snd hr).symm
  | finalizeEpoch =>
    obtain ⟨-, epoch, nullifiers, root, -, -, -, -, hr⟩ := executeFinalizeEpoch_eq_ok.mp h
    exact (congrArg Prod.snd hr).symm
  | syncEpochRoot sourceChainId epochId nullifierRoot =>
    change executeSyncEpochRoot info sourceChainId epochId nullifierRoot s = _ at h
    unfold executeSyncEpochRoot at h
    simp only [Except.bind_eq_ok] at h
    obtain ⟨-, -, -, -, hr⟩ := h
    exact (congrArg Prod.snd (Except.ok.inj hr)).symm
  | updateGovernance newGovernance =>
    change executeUpdateGovernance info newGovernance s = _ at h
    unfold executeUpdateGovernance at h
    simp only [Except.bind_eq_ok] at h
    obtain ⟨-, -, hr⟩ := h
    exact (congrArg Prod.snd (Except.ok.inj hr)).symm
  | setAuthorizedRelayer relayer =>
    change executeSetAuthorizedRelayer info relayer s = _ at h
    unfold executeSetAuthorizedRelayer at h
    simp only [Except.bind_eq_ok] at h
    obtain ⟨-, -, hr⟩ := h
    exact (congrArg Prod.snd (Except.ok.inj hr)).symm

theorem paysIn_withdraw (s : State) (height : ℕ) (info : MessageInfo)
    (proof merkleRoot : String) (nullifiers outputs : String × String) (recipient : String)
    (exitValue : BitVec 128) (denom : String) :
    paysIn s ⟨height, info, .withdraw proof merkleRoot nullifiers outputs recipient exitValue⟩
        denom
      = if denom = s.config.acceptedDenom then exitValue.toNat else 0 := by
  show (List.map _ [_]).sum = _
  rw [List.map_singleton, List.sum_singleton, totalIn_singleton]
  exact if_congr eq_comm rfl rfl

/-- **What a message changes in the records** is what it credits and what it
pays. -/
theorem Effect.recordedIn_eq {c : Call} {s s' : State} (h : Effect C s c s') (denom : String) :
    recordedIn s' denom + paysIn s c denom = recordedIn s denom + credits s c denom := by
  cases h with
  | deposit _ _ insert fits =>
    obtain ⟨t, rfl⟩ := exists_withTree insert
    unfold recordedIn credits
    dsimp only
    show (if denom = s.config.acceptedDenom then _ else _) + 0 = _
    by_cases hdenom : denom = s.config.acceptedDenom
    · rw [if_pos hdenom, if_pos hdenom, if_pos hdenom, hdenom, BitVec.toNat_add,
        Nat.mod_eq_of_lt fits]
      rfl
    · rw [if_neg hdenom, if_neg hdenom, if_neg hdenom]
  | transfer _ _ _ insert =>
    obtain ⟨t, rfl⟩ := insert.exists_withTree
    rfl
  | withdraw _ balance _ _ _ insert =>
    obtain ⟨t, rfl⟩ := insert.exists_withTree
    rw [paysIn_withdraw]
    unfold recordedIn credits
    show (if denom = s.config.acceptedDenom then _ else _) + _ = _ + 0
    by_cases hdenom : denom = s.config.acceptedDenom
    · rw [if_pos hdenom, if_pos hdenom, if_pos hdenom, BitVec.toNat_sub_of_le balance]
      exact Nat.sub_add_cancel balance
    · rw [if_neg hdenom, if_neg hdenom, if_neg hdenom]
  | finalizeEpoch _ _ _ _ _ => rfl
  | syncEpochRoot _ _ => rfl
  | updateGovernance _ => rfl
  | setAuthorizedRelayer _ => rfl

/-! ## What the bank does -/

/-- **A payment that is made.** -/
theorem Bank.send_eq_ok {B : Bank} {balance balance' : String → ℕ} {msg : BankMsg}
    (h : B.send balance msg = .ok balance') (denom : String) :
    balance' denom + (if msg.toAddress = B.address then 0 else totalIn denom msg.amount)
      = balance denom := by
  unfold Bank.send at h
  simp only [Except.bind_eq_ok, revertIf_eq_ok] at h
  obtain ⟨-, -, -, hcovered, h⟩ := h
  split at h
  · rename_i hself
    cases h
    rw [if_pos hself, Nat.add_zero]
  · rename_i hother
    cases h
    rw [if_neg hother]
    refine Nat.sub_add_cancel ?_
    -- a denomination of the payment is covered, and of any other nothing is paid
    by_cases hmem : ∃ c ∈ msg.amount, c.denom = denom
    · obtain ⟨c, hc, rfl⟩ := hmem
      exact not_lt.mp (fun hlt => hcovered ⟨c, hc, hlt⟩)
    · have hnone : msg.amount.filter (fun c => c.denom == denom) = [] :=
        List.filter_eq_nil_iff.mpr (fun c hc hd => hmem ⟨c, hc, beq_iff_eq.mp hd⟩)
      unfold totalIn
      rw [hnone]
      exact Nat.zero_le _

/-- At most one payment is asked for. -/
theorem payments_eq (s : State) (c : Call) :
    payments s c = [] ∨ ∃ msg, payments s c = [msg] := by
  unfold payments
  split
  · exact Or.inr ⟨_, rfl⟩
  · exact Or.inl rfl

/-- **What a message changes in the account** is what is attached to it, and
what it pays to others. -/
theorem balance_eq_of_send {B : Bank} {s : State} {c : Call} {balance balance' : String → ℕ}
    (h : (payments s c).foldlM B.send balance = .ok balance') (denom : String) :
    balance' denom + (if PaysItself B s c then 0 else paysIn s c denom) = balance denom := by
  rcases payments_eq s c with hnone | ⟨msg, hone⟩
  · have hothers : ¬ PaysItself B s c := by
      unfold PaysItself
      simp [hnone]
    rw [hnone] at h
    cases h
    rw [if_neg hothers, paysIn, hnone]
    rfl
  · have hself : PaysItself B s c ↔ msg.toAddress = B.address := by
      unfold PaysItself
      simp [hone]
    have hpays : paysIn s c denom = totalIn denom msg.amount := by
      unfold paysIn
      simp [hone]
    rw [hone, List.foldlM_cons] at h
    obtain ⟨balance'', hsend, h⟩ := (Except.bind_eq_ok _ _ _).mp h
    cases h
    rw [← Bank.send_eq_ok hsend denom, hpays, if_congr hself rfl rfl]

/-! ## Runs -/

/-- The parts of a message that goes through. -/
theorem exists_of_worldStep {B : Bank} {c : Call} {w w' : World}
    (h : worldStep C B c w = .ok w') :
    Effect C w.contract c w'.contract
      ∧ (payments w.contract c).foldlM B.send
          (fun denom => w.balance denom + totalIn denom c.info.funds) = .ok w'.balance := by
  unfold worldStep at h
  obtain ⟨⟨contract, msgs⟩, hexec, h⟩ := (Except.bind_eq_ok _ _ _).mp h
  obtain ⟨balance, hpaid, h⟩ := (Except.bind_eq_ok _ _ _).mp h
  cases h
  have hresult := Except.mapError_eq_ok.mp hexec
  exact ⟨execute_effect hresult, msgs_eq_payments hresult ▸ hpaid⟩

/-- A payment to the contract itself is taken from the records. -/
theorem PaysItself.exists_denom {B : Bank} {s s' : State} {c : Call} (h : PaysItself B s c)
    (heffect : Effect C s c s') : ∃ denom, paysIn s c denom ≠ 0 ∧ credits s c denom = 0 := by
  cases heffect with
  | withdraw exit_ne _ _ _ _ _ =>
    refine ⟨s.config.acceptedDenom, ?_, rfl⟩
    rw [paysIn_withdraw, if_pos rfl]
    exact fun hzero => exit_ne (BitVec.eq_of_toNat_eq hzero)
  | _ =>
    obtain ⟨msg, hmsg, -⟩ := h
    exact absurd hmsg List.not_mem_nil

/-- **A message keeps the account matched exactly when it is credited for what
is attached to it.** -/
theorem matched_step_iff {B : Bank} {c : Call} {w w' : World} (hw : Matched w)
    (h : worldStep C B c w = .ok w') : Matched w' ↔ Credited B w.contract c := by
  obtain ⟨heffect, hpaid⟩ := exists_of_worldStep h
  have hbalance := balance_eq_of_send hpaid
  have hrecord := heffect.recordedIn_eq
  constructor
  · intro hw'
    have hothers : ¬ PaysItself B w.contract c := by
      intro hself
      obtain ⟨denom, hpays, hcredits⟩ := hself.exists_denom heffect
      have hbalance := hbalance denom
      have hrecord := hrecord denom
      rw [if_pos hself, hw' denom, hw denom] at hbalance
      omega
    refine ⟨fun denom => ?_, hothers⟩
    have hbalance := hbalance denom
    have hrecord := hrecord denom
    rw [if_neg hothers, hw' denom, hw denom] at hbalance
    omega
  · rintro ⟨hfunds, hothers⟩ denom
    have hbalance := hbalance denom
    have hrecord := hrecord denom
    rw [if_neg hothers, hw denom, hfunds denom] at hbalance
    omega

/-- **The account is what the contract records in every state of a run if and
only if every message of the run is credited for what is attached to it**, and
no withdrawal is made to the contract itself. -/
theorem matched_throughout_iff {B : Bank} {height : ℕ} {msg : InstantiateMsg}
    {tr : List (World × Call)} {w : World} (h : WorldRun C B height msg tr w) :
    Run.Throughout (fun _ w => Matched w) tr w ↔ ∀ p ∈ tr, Credited B p.1.contract p.2 := by
  obtain ⟨s₀, hs₀, hrun⟩ := h
  obtain ⟨st, rfl⟩ := exists_initial hs₀
  have hinit : Matched ⟨initial height msg st, fun _ => 0⟩ := by
    intro denom
    unfold recordedIn
    split <;> rfl
  exact hrun.throughout_iff (P := fun _ w => Matched w) (fun w c => Credited B w.contract c)
    hinit (fun _ _ _ _ hw _ hstep => matched_step_iff hw hstep)

/-- The run with one deposit of 100. -/
theorem exists_deposit_run (C : Crypto) (B : Bank) : ∃ s₀ w,
    WorldRun C B 1 shallowMsg [(⟨s₀, fun _ => 0⟩, depositCall (Bytes32.toHex 7) 100)] w
      ∧ Credited B s₀ (depositCall (Bytes32.toHex 7) 100) := by
  obtain ⟨s₀, s, hs₀, hstep, -⟩ := exists_deposited C
    (Bytes32.isLowerHex64_toHex 7).isHex64 (show (100 : BitVec 128) ≠ 0 by decide)
  obtain ⟨⟨s, msgs⟩, hexec, rfl⟩ := Except.map_eq_ok.mp hstep
  obtain rfl : msgs = [] := msgs_eq_payments hexec
  obtain ⟨st, rfl⟩ := exists_initial hs₀
  refine ⟨_, ⟨s, fun denom => 0 + totalIn denom [⟨"uatom", 100⟩]⟩,
    ⟨_, hs₀, Run.nil.snoc trivial ?_⟩, fun denom => ?_, ?_⟩
  · unfold worldStep
    rw [hexec]
    rfl
  · show totalIn denom [⟨"uatom", 100⟩]
      = if denom = "uatom" then (amountIn denom [⟨"uatom", 100⟩]).toNat else 0
    rw [totalIn_singleton]
    by_cases hdenom : denom = "uatom"
    · rw [if_pos hdenom.symm, if_pos hdenom, hdenom, amountIn_singleton]
    · rw [if_neg (Ne.symm hdenom), if_neg hdenom]
  · rintro ⟨msg, hmsg, -⟩
    exact List.not_mem_nil hmsg

/-- The account is matched throughout that run. -/
theorem matched_throughout_iff_deposit : ∃ tr w,
    WorldRun ⟨PoseidonHasher.hash, fun _ => 0⟩ ⟨"pool", fun _ => true⟩ 1 shallowMsg tr w
      ∧ tr ≠ [] ∧ Run.Throughout (fun _ w => Matched w) tr w := by
  obtain ⟨s₀, w, hrun, hcredited⟩ :=
    exists_deposit_run ⟨PoseidonHasher.hash, fun _ => 0⟩ ⟨"pool", fun _ => true⟩
  refine ⟨_, w, hrun, List.cons_ne_nil _ _, (matched_throughout_iff hrun).mpr ?_⟩
  rw [List.forall_mem_singleton]
  exact hcredited

/-- Five coins, attached to a message that keeps the governance as it is. -/
def unfundedCall : Call := ⟨2, ⟨"gov", [⟨"uatom", 5⟩]⟩, .updateGovernance "gov"⟩

/-- **Coins that nobody is credited for are not refused**: the contract takes
them with a message that is no deposit. -/
theorem exists_unmatched : shallowMsg.acceptedDenom = "uatom" ∧ ∀ C B, ∃ s₀ w,
    WorldRun C B 1 shallowMsg [(⟨s₀, fun _ => 0⟩, unfundedCall)] w
      ∧ w.balance "uatom" = 5 ∧ w.contract.poolBalance = 0 ∧ ¬ Matched w := by
  refine ⟨rfl, fun C B => ?_⟩
  obtain ⟨filled, hs₀, -⟩ := exists_instantiate_eq (C := C) 1 shallowMsg
  refine ⟨_, ⟨_, fun denom => 0 + totalIn denom [⟨"uatom", 5⟩]⟩,
    ⟨_, hs₀, Run.nil.snoc trivial rfl⟩, rfl, rfl, fun hmatched => ?_⟩
  have hfive : 5 = 0 := hmatched "uatom"
  omega

end CosmWasmPool
