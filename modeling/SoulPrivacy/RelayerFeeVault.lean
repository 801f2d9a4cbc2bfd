import SoulPrivacy.CallStack
import SoulPrivacy.Solidity

/-!
# The fee vault of the relayers (`RelayerFeeVault.sol`)

The storage of the vault, its entry points, and the machine they make of it
(`CallStack.Contract`). Relayers stake to register, governance credits them
a fee for each relay and may slash their stake, and they claim the fees and
take the stake back. `deregisterRelayer` and `claimFees` send ether to the
caller and with it hand over control, so each comes in two parts.

The ether the vault holds is a number of its own (`World.balance`). It may
be more than what the vault has booked, since ether can be forced on a
contract.

Each entry point has one constructor of `Effect`, which says all a
successful call did, and `enter_effect` is the inversion.
-/

namespace RelayerFeeVault

/-- **The storage of the vault.** -/
structure Storage where
  governance : Address
  registeredRelayers : Address → Bool
  claimableBalance : Address → Uint256
  relayCount : Address → Uint256
  feePerRelay : Uint256
  maxFeePerRelay : Uint256
  minimumStake : Uint256
  stakedAmount : Address → Uint256
  relayProcessed : Bytes32 → Bool
  vaultBalance : Uint256

inductive Error where
  /-- `"FeeVault: not governance"`. -/
  | notGovernance
  /-- `"FeeVault: not registered"`. -/
  | notRegistered
  /-- `"FeeVault: already registered"`. -/
  | alreadyRegistered
  /-- `"FeeVault: insufficient stake"`. -/
  | insufficientStake
  /-- `"FeeVault: claim fees first"`. -/
  | claimFeesFirst
  /-- `"FeeVault: stake return failed"`. -/
  | stakeReturnFailed
  /-- `"FeeVault: zero deposit"`. -/
  | zeroDeposit
  /-- `"FeeVault: relayer not registered"`. -/
  | relayerNotRegistered
  /-- `"FeeVault: relay already processed"`. -/
  | relayAlreadyProcessed
  /-- `"FeeVault: insufficient vault balance"`. -/
  | insufficientVaultBalance
  /-- `"FeeVault: nothing to claim"`. -/
  | nothingToClaim
  /-- `"FeeVault: transfer failed"`. -/
  | transferFailed
  /-- `"FeeVault: exceeds max"`. -/
  | exceedsMax
  /-- `"FeeVault: slash exceeds stake"`. -/
  | slashExceedsStake
  /-- `"FeeVault: zero address"`. -/
  | zeroAddress
  /-- An arithmetic panic. -/
  | panic
  /-- Ether sent to an entry point that is not payable. -/
  | nonPayable
  deriving DecidableEq

inductive Event where
  | relayerRegistered (relayer : Address) (stake : Uint256)
  | relayerDeregistered (relayer : Address) (stakeReturned : Uint256)
  | feeDeposited (depositor : Address) (amount : Uint256)
  | relayCredited (relayer : Address) (relayHash : Bytes32) (fee : Uint256)
      (sourceChainId targetChainId epochId : BitVec 64)
  | feesClaimed (relayer : Address) (amount : Uint256)
  | feePerRelayUpdated (newFee : Uint256)
  | relayerSlashed (relayer : Address) (amount : Uint256) (reason : String)

inductive Entry where
  | registerRelayer
  | deregisterRelayer
  | depositFees
  | receive
  | creditRelay (relayer : Address) (relayHash : Bytes32)
      (sourceChainId targetChainId epochId : BitVec 64)
  | claimFees
  | setFeePerRelay (feePerRelay : Uint256)
  | slashRelayer (relayer : Address) (amount : Uint256) (reason : String)
  | transferGovernance (newGovernance : Address)

/-- The message of a call. -/
structure Msg where
  sender : Address
  value : Uint256
  sender_ne_zero : sender ≠ 0

/-- A call of an entry point. -/
structure Call where
  msg : Msg
  entry : Entry

/-- A payout under way: `deregisterRelayer` returns a stake, `claimFees`
pays fees. -/
inductive Cont where
  | stake (relayer : Address) (amount : Uint256)
  | fees (relayer : Address) (amount : Uint256)
  deriving DecidableEq

/-- What is paid. -/
def Cont.value : Cont → Uint256
  | stake _ amount => amount
  | fees _ amount => amount

/-- What an entry point leaves: the storage, the events and, if it makes
one, its payout. -/
abbrev Outcome := Storage × List Event × Option Cont

/-! ## The entry points -/

/-- The constructor. -/
def construct (sender : Address) (feePerRelay maxFeePerRelay minimumStake : Uint256) :
    Storage where
  governance := sender
  registeredRelayers _ := false
  claimableBalance _ := 0
  relayCount _ := 0
  feePerRelay
  maxFeePerRelay
  minimumStake
  stakedAmount _ := 0
  relayProcessed _ := false
  vaultBalance := 0

section Entries

variable (msg : Msg) (s : Storage)

/-- `onlyGovernance`. -/
def onlyGovernance : Except Error Unit :=
  revertIf (msg.sender ≠ s.governance) .notGovernance

/-- `onlyRegisteredRelayer`. -/
def onlyRegisteredRelayer : Except Error Unit :=
  revertIf (s.registeredRelayers msg.sender = false) .notRegistered

def registerRelayer : Except Error Outcome := do
  revertIf (s.registeredRelayers msg.sender = true) .alreadyRegistered
  revertIf (msg.value < s.minimumStake) .insufficientStake
  return ({ s with
      registeredRelayers := Function.update s.registeredRelayers msg.sender true
      stakedAmount := Function.update s.stakedAmount msg.sender msg.value },
    [.relayerRegistered msg.sender msg.value], none)

/-- `deregisterRelayer`, up to the return of the stake. -/
def deregisterRelayer : Except Error Outcome := do
  onlyRegisteredRelayer msg s
  revertIf (s.claimableBalance msg.sender ≠ 0) .claimFeesFirst
  return ({ s with
      registeredRelayers := Function.update s.registeredRelayers msg.sender false
      stakedAmount := Function.update s.stakedAmount msg.sender 0 },
    [], some (.stake msg.sender (s.stakedAmount msg.sender)))

/-- `receive`. -/
def receiveEther : Except Error Outcome := do
  let vaultBalance ← checkedAdd .panic s.vaultBalance msg.value
  return ({ s with vaultBalance }, [.feeDeposited msg.sender msg.value], none)

def depositFees : Except Error Outcome := do
  revertIf (msg.value = 0) .zeroDeposit
  let vaultBalance ← checkedAdd .panic s.vaultBalance msg.value
  return ({ s with vaultBalance }, [.feeDeposited msg.sender msg.value], none)

def creditRelay (relayer : Address) (relayHash : Bytes32)
    (sourceChainId targetChainId epochId : BitVec 64) : Except Error Outcome := do
  onlyGovernance msg s
  revertIf (s.registeredRelayers relayer = false) .relayerNotRegistered
  revertIf (s.relayProcessed relayHash = true) .relayAlreadyProcessed
  revertIf (s.vaultBalance < s.feePerRelay) .insufficientVaultBalance
  let claimable ← checkedAdd .panic (s.claimableBalance relayer) s.feePerRelay
  let count ← checkedAdd .panic (s.relayCount relayer) 1
  let vaultBalance ← checkedSub .panic s.vaultBalance s.feePerRelay
  return ({ s with
      relayProcessed := Function.update s.relayProcessed relayHash true
      claimableBalance := Function.update s.claimableBalance relayer claimable
      relayCount := Function.update s.relayCount relayer count
      vaultBalance },
    [.relayCredited relayer relayHash s.feePerRelay sourceChainId targetChainId epochId],
    none)

/-- `claimFees`, up to the payment. -/
def claimFees : Except Error Outcome := do
  onlyRegisteredRelayer msg s
  let amount := s.claimableBalance msg.sender
  revertIf (amount = 0) .nothingToClaim
  return ({ s with
      claimableBalance := Function.update s.claimableBalance msg.sender 0 },
    [], some (.fees msg.sender amount))

def setFeePerRelay (feePerRelay : Uint256) : Except Error Outcome := do
  onlyGovernance msg s
  revertIf (s.maxFeePerRelay < feePerRelay) .exceedsMax
  return ({ s with feePerRelay }, [.feePerRelayUpdated feePerRelay], none)

def slashRelayer (relayer : Address) (amount : Uint256) (reason : String) :
    Except Error Outcome := do
  onlyGovernance msg s
  revertIf (s.stakedAmount relayer < amount) .slashExceedsStake
  let stake ← checkedSub .panic (s.stakedAmount relayer) amount
  let vaultBalance ← checkedAdd .panic s.vaultBalance amount
  return ({ s with
      stakedAmount := Function.update s.stakedAmount relayer stake
      vaultBalance
      registeredRelayers :=
        if stake < s.minimumStake then Function.update s.registeredRelayers relayer false
        else s.registeredRelayers },
    [.relayerSlashed relayer amount reason], none)

def transferGovernance (newGovernance : Address) : Except Error Outcome := do
  onlyGovernance msg s
  revertIf (newGovernance = 0) .zeroAddress
  return ({ s with governance := newGovernance }, [], none)

end Entries

/-- The entry points that are not payable. -/
def nonPayable (msg : Msg) (body : Except Error Outcome) : Except Error Outcome := do
  revertIf (msg.value ≠ 0) .nonPayable
  body

/-- **A call of the vault**, up to its payout. -/
def call (c : Call) (s : Storage) : Except Error Outcome :=
  match c.entry with
  | .registerRelayer => registerRelayer c.msg s
  | .deregisterRelayer => nonPayable c.msg (deregisterRelayer c.msg s)
  | .depositFees => depositFees c.msg s
  | .receive => receiveEther c.msg s
  | .creditRelay relayer relayHash sourceChainId targetChainId epochId =>
    nonPayable c.msg (creditRelay c.msg s relayer relayHash sourceChainId targetChainId epochId)
  | .claimFees => nonPayable c.msg (claimFees c.msg s)
  | .setFeePerRelay feePerRelay => nonPayable c.msg (setFeePerRelay c.msg s feePerRelay)
  | .slashRelayer relayer amount reason =>
    nonPayable c.msg (slashRelayer c.msg s relayer amount reason)
  | .transferGovernance newGovernance =>
    nonPayable c.msg (transferGovernance c.msg s newGovernance)

/-! ## The machine -/

/-- The vault and the ether it holds. -/
structure World where
  vault : Storage
  balance : ℕ

/-- The value of a call is credited before it runs. -/
def enter (c : Call) (w : World) : Except Error (World × List Event × Option Cont) :=
  (call c w.vault).map fun (vault, evs, k) =>
    (⟨vault, w.balance + c.msg.value.toNat⟩, evs, k)

/-- The payment. -/
def send (k : Cont) (w : World) : Option World :=
  if k.value.toNat ≤ w.balance then some { w with balance := w.balance - k.value.toNat }
  else none

/-- What is left after the payment: to require that it succeeded. -/
def resume (k : Cont) (success : Bool) (w : World) : Except Error (World × List Event) :=
  match k, success with
  | .stake relayer amount, true => .ok (w, [.relayerDeregistered relayer amount])
  | .stake _ _, false => .error .stakeReturnFailed
  | .fees relayer amount, true => .ok (w, [.feesClaimed relayer amount])
  | .fees _ _, false => .error .transferFailed

/-- **The vault as a machine.** Ether may be forced on it at any time. -/
def machine : CallStack.Contract World Call Cont Event Error where
  enter
  send
  resume
  outside w w' := w'.vault = w.vault ∧ w.balance ≤ w'.balance
  tick w w' := w' = w

/-- The calls there are: the vault pays its callers and calls nobody else, so
it never is its own caller. -/
def Allowed (self : Address) (side : Storage → Call → Prop) (w : World) (c : Call) : Prop :=
  c.msg.sender ≠ self ∧ side w.vault c

/-- What is in effect. -/
abbrev Receipt := CallStack.Receipt Call Cont Event

/-- A configuration of the vault. -/
abbrev Config := CallStack.Config World Receipt Cont

/-- **The runs of a vault** from its deployment, whatever ether was there
before; `side` is a condition on the calls made. -/
def Reachable (self : Address) (side : Storage → Call → Prop) (c : Config) : Prop :=
  ∃ sender feePerRelay maxFeePerRelay minimumStake balance,
    CallStack.Reachable machine (Allowed self side)
      ⟨construct sender feePerRelay maxFeePerRelay minimumStake, balance⟩ c

/-! ## What a successful call did -/

/-- **What a successful call did.** -/
inductive Effect (msg : Msg) (s : Storage) : Entry → Storage → Option Cont → Prop
  | registerRelayer (new : s.registeredRelayers msg.sender = false)
      (enough : s.minimumStake.toNat ≤ msg.value.toNat) :
      Effect msg s .registerRelayer
        { s with
          registeredRelayers := Function.update s.registeredRelayers msg.sender true
          stakedAmount := Function.update s.stakedAmount msg.sender msg.value } none
  | deregisterRelayer (registered : s.registeredRelayers msg.sender = true)
      (claimed : s.claimableBalance msg.sender = 0) :
      Effect msg s .deregisterRelayer
        { s with
          registeredRelayers := Function.update s.registeredRelayers msg.sender false
          stakedAmount := Function.update s.stakedAmount msg.sender 0 }
        (some (.stake msg.sender (s.stakedAmount msg.sender)))
  | depositFees {vaultBalance : Uint256}
      (balance : vaultBalance.toNat = s.vaultBalance.toNat + msg.value.toNat) :
      Effect msg s .depositFees { s with vaultBalance } none
  | receive {vaultBalance : Uint256}
      (balance : vaultBalance.toNat = s.vaultBalance.toNat + msg.value.toNat) :
      Effect msg s .receive { s with vaultBalance } none
  | creditRelay {relayer : Address} {relayHash : Bytes32}
      {sourceChainId targetChainId epochId : BitVec 64}
      {claimable count vaultBalance : Uint256} (auth : msg.sender = s.governance)
      (registered : s.registeredRelayers relayer = true)
      (new : s.relayProcessed relayHash = false)
      (claimable_eq : claimable.toNat
        = (s.claimableBalance relayer).toNat + s.feePerRelay.toNat)
      (balance : vaultBalance.toNat + s.feePerRelay.toNat = s.vaultBalance.toNat) :
      Effect msg s (.creditRelay relayer relayHash sourceChainId targetChainId epochId)
        { s with
          relayProcessed := Function.update s.relayProcessed relayHash true
          claimableBalance := Function.update s.claimableBalance relayer claimable
          relayCount := Function.update s.relayCount relayer count
          vaultBalance } none
  | claimFees (registered : s.registeredRelayers msg.sender = true)
      (amount_ne : s.claimableBalance msg.sender ≠ 0) :
      Effect msg s .claimFees
        { s with claimableBalance := Function.update s.claimableBalance msg.sender 0 }
        (some (.fees msg.sender (s.claimableBalance msg.sender)))
  | setFeePerRelay {feePerRelay : Uint256} (auth : msg.sender = s.governance) :
      Effect msg s (.setFeePerRelay feePerRelay) { s with feePerRelay } none
  | slashRelayer {relayer : Address} {amount stake vaultBalance : Uint256} {reason : String}
      (auth : msg.sender = s.governance)
      (stake_eq : stake.toNat + amount.toNat = (s.stakedAmount relayer).toNat)
      (balance : vaultBalance.toNat = s.vaultBalance.toNat + amount.toNat) :
      Effect msg s (.slashRelayer relayer amount reason)
        { s with
          stakedAmount := Function.update s.stakedAmount relayer stake
          vaultBalance
          registeredRelayers :=
            if stake < s.minimumStake then
              Function.update s.registeredRelayers relayer false
            else s.registeredRelayers } none
  | transferGovernance {newGovernance : Address} (auth : msg.sender = s.governance) :
      Effect msg s (.transferGovernance newGovernance)
        { s with governance := newGovernance } none

section Inversion

variable {msg : Msg} {s s' : Storage} {evs : List Event} {k : Option Cont}

theorem onlyGovernance_eq_ok {u : Unit} :
    onlyGovernance msg s = .ok u ↔ msg.sender = s.governance := by
  simp [onlyGovernance]

theorem onlyRegisteredRelayer_eq_ok {u : Unit} :
    onlyRegisteredRelayer msg s = .ok u ↔ s.registeredRelayers msg.sender = true := by
  simp [onlyRegisteredRelayer]

theorem nonPayable_eq_ok {body : Except Error Outcome} {r : Outcome}
    (h : nonPayable msg body = .ok r) : msg.value = 0 ∧ body = .ok r := by
  obtain ⟨hvalue, hbody⟩ := (revertIf_bind_eq_ok _ _ _ _).mp h
  exact ⟨not_not.mp hvalue, hbody⟩

theorem registerRelayer_effect (h : registerRelayer msg s = .ok (s', evs, k)) :
    Effect msg s .registerRelayer s' k := by
  unfold registerRelayer at h
  obtain ⟨hnew, h⟩ := (revertIf_bind_eq_ok _ _ _ _).mp h
  obtain ⟨henough, h⟩ := (revertIf_bind_eq_ok _ _ _ _).mp h
  cases h
  exact .registerRelayer (Bool.not_eq_true _ ▸ hnew)
    (BitVec.le_def.mp (BitVec.not_lt.mp henough))

theorem deregisterRelayer_effect (h : deregisterRelayer msg s = .ok (s', evs, k)) :
    Effect msg s .deregisterRelayer s' k := by
  unfold deregisterRelayer at h
  obtain ⟨hregistered, h⟩ := (Except.unit_bind_eq_ok _ _ _).mp h
  obtain ⟨hclaimed, h⟩ := (revertIf_bind_eq_ok _ _ _ _).mp h
  cases h
  exact .deregisterRelayer (onlyRegisteredRelayer_eq_ok.mp hregistered) (not_not.mp hclaimed)

theorem receiveEther_effect (h : receiveEther msg s = .ok (s', evs, k)) :
    Effect msg s .receive s' k := by
  unfold receiveEther at h
  obtain ⟨vaultBalance, hsum, h⟩ := (Except.bind_eq_ok _ _ _).mp h
  cases h
  exact .receive (toNat_of_checkedAdd hsum)

theorem depositFees_effect (h : depositFees msg s = .ok (s', evs, k)) :
    Effect msg s .depositFees s' k := by
  unfold depositFees at h
  obtain ⟨-, h⟩ := (revertIf_bind_eq_ok _ _ _ _).mp h
  obtain ⟨vaultBalance, hsum, h⟩ := (Except.bind_eq_ok _ _ _).mp h
  cases h
  exact .depositFees (toNat_of_checkedAdd hsum)

theorem creditRelay_effect {relayer : Address} {relayHash : Bytes32}
    {sourceChainId targetChainId epochId : BitVec 64}
    (h : creditRelay msg s relayer relayHash sourceChainId targetChainId epochId
      = .ok (s', evs, k)) :
    Effect msg s (.creditRelay relayer relayHash sourceChainId targetChainId epochId) s' k := by
  unfold creditRelay at h
  obtain ⟨hauth, h⟩ := (Except.unit_bind_eq_ok _ _ _).mp h
  obtain ⟨hregistered, h⟩ := (revertIf_bind_eq_ok _ _ _ _).mp h
  obtain ⟨hnew, h⟩ := (revertIf_bind_eq_ok _ _ _ _).mp h
  obtain ⟨-, h⟩ := (revertIf_bind_eq_ok _ _ _ _).mp h
  obtain ⟨claimable, hclaimable, h⟩ := (Except.bind_eq_ok _ _ _).mp h
  obtain ⟨count, -, h⟩ := (Except.bind_eq_ok _ _ _).mp h
  obtain ⟨vaultBalance, hbalance, h⟩ := (Except.bind_eq_ok _ _ _).mp h
  cases h
  exact .creditRelay (onlyGovernance_eq_ok.mp hauth) (Bool.not_eq_false _ ▸ hregistered)
    (Bool.not_eq_true _ ▸ hnew) (toNat_of_checkedAdd hclaimable)
    (toNat_of_checkedSub hbalance)

theorem claimFees_effect (h : claimFees msg s = .ok (s', evs, k)) :
    Effect msg s .claimFees s' k := by
  unfold claimFees at h
  obtain ⟨hregistered, h⟩ := (Except.unit_bind_eq_ok _ _ _).mp h
  obtain ⟨hamount, h⟩ := (revertIf_bind_eq_ok _ _ _ _).mp h
  cases h
  exact .claimFees (onlyRegisteredRelayer_eq_ok.mp hregistered) hamount

theorem setFeePerRelay_effect {feePerRelay : Uint256}
    (h : setFeePerRelay msg s feePerRelay = .ok (s', evs, k)) :
    Effect msg s (.setFeePerRelay feePerRelay) s' k := by
  unfold setFeePerRelay at h
  obtain ⟨hauth, h⟩ := (Except.unit_bind_eq_ok _ _ _).mp h
  obtain ⟨-, h⟩ := (revertIf_bind_eq_ok _ _ _ _).mp h
  cases h
  exact .setFeePerRelay (onlyGovernance_eq_ok.mp hauth)

theorem slashRelayer_effect {relayer : Address} {amount : Uint256} {reason : String}
    (h : slashRelayer msg s relayer amount reason = .ok (s', evs, k)) :
    Effect msg s (.slashRelayer relayer amount reason) s' k := by
  unfold slashRelayer at h
  obtain ⟨hauth, h⟩ := (Except.unit_bind_eq_ok _ _ _).mp h
  obtain ⟨-, h⟩ := (revertIf_bind_eq_ok _ _ _ _).mp h
  obtain ⟨stake, hstake, h⟩ := (Except.bind_eq_ok _ _ _).mp h
  obtain ⟨vaultBalance, hbalance, h⟩ := (Except.bind_eq_ok _ _ _).mp h
  cases h
  exact .slashRelayer (onlyGovernance_eq_ok.mp hauth) (toNat_of_checkedSub hstake)
    (toNat_of_checkedAdd hbalance)

theorem transferGovernance_effect {newGovernance : Address}
    (h : transferGovernance msg s newGovernance = .ok (s', evs, k)) :
    Effect msg s (.transferGovernance newGovernance) s' k := by
  unfold transferGovernance at h
  obtain ⟨hauth, h⟩ := (Except.unit_bind_eq_ok _ _ _).mp h
  obtain ⟨-, h⟩ := (revertIf_bind_eq_ok _ _ _ _).mp h
  cases h
  exact .transferGovernance (onlyGovernance_eq_ok.mp hauth)

/-- **The inversion of a call.** -/
theorem call_effect {entry : Entry} (h : call ⟨msg, entry⟩ s = .ok (s', evs, k)) :
    Effect msg s entry s' k := by
  cases entry with
  | registerRelayer => exact registerRelayer_effect h
  | deregisterRelayer => exact deregisterRelayer_effect (nonPayable_eq_ok h).2
  | depositFees => exact depositFees_effect h
  | receive => exact receiveEther_effect h
  | creditRelay => exact creditRelay_effect (nonPayable_eq_ok h).2
  | claimFees => exact claimFees_effect (nonPayable_eq_ok h).2
  | setFeePerRelay => exact setFeePerRelay_effect (nonPayable_eq_ok h).2
  | slashRelayer => exact slashRelayer_effect (nonPayable_eq_ok h).2
  | transferGovernance => exact transferGovernance_effect (nonPayable_eq_ok h).2

theorem enter_effect {entry : Entry} {w w' : World}
    (h : enter ⟨msg, entry⟩ w = .ok (w', evs, k)) :
    Effect msg w.vault entry w'.vault k ∧ w'.balance = w.balance + msg.value.toNat := by
  obtain ⟨⟨s', evs', k'⟩, hcall, heq⟩ := Except.map_eq_ok.mp h
  cases heq
  exact ⟨call_effect hcall, rfl⟩

theorem send_eq_some {k : Cont} {w w' : World} (h : send k w = some w') :
    k.value.toNat ≤ w.balance ∧ w' = { w with balance := w.balance - k.value.toNat } := by
  unfold send at h
  split at h
  · rename_i hle
    exact ⟨hle, (Option.some.inj h).symm⟩
  · cases h

/-- A payout that succeeded leaves nothing to do. -/
theorem resume_eq_ok {k : Cont} {success : Bool} {w w' : World}
    (h : resume k success w = .ok (w', evs)) : success = true ∧ w' = w := by
  cases k <;> cases success <;> cases h
  all_goals exact ⟨rfl, rfl⟩

end Inversion

end RelayerFeeVault
