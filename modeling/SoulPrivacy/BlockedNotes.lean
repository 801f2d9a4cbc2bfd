import SoulPrivacy.ClientHashes
import SoulPrivacy.ComplianceOracle
import SoulPrivacy.PoolCommitments
import SoulPrivacy.Projection

/-!
# Blocked notes

The pool and the compliance oracle as one machine: calls of the two contracts come in
any order, also while a payee of the pool is being paid. What the pool's checks turn on
is which oracle it asks, whether that one is enabled, and which commitments it has
blocked (`Policy`); all of this can be read off the trace.

With the oracle attached and enabled, no word that goes into a transfer or a withdrawal
is blocked (`Screened`), be it a nullifier or an output. This keeps a blocked note out
only as far as the words are the note: deposits and reveals ask no oracle, and a
nullifier is not the commitment it was derived from, but a hash of it. So a blocked note
is kept out of a run exactly as long as nobody deposits it and the nullifiers derived
from it have been put on the list of the commitments as well (`keptOut_iff`).
-/

namespace CompliantPool

open PrivacyPool (World Interfaces Cont Pair Deployed)
open CallStack (Receipt Config Reachable Projection ReadOff Along)

variable {X : Type}

/-! ## The pool with the oracle -/

/-- **The surroundings of a pool with the compliance oracle at an address**: the
oracle's storage comes before the state of all the others. `verify` is what the
verifiers of viewing-key proofs answer. -/
def withComplianceOracle (verify : X → Address → Bytes → Bytes → Option Bytes)
    (oracle : Address) (E : Interfaces X) : Interfaces (ComplianceOracle.Storage × X) where
  verifyTransferProof x := E.verifyTransferProof x.2
  verifyWithdrawProof x := E.verifyWithdrawProof x.2
  registerNullifier a x nullifier :=
    (E.registerNullifier a x.2 nullifier).map (fun others => (x.1, others))
  checkCompliance a x nullifiers outputs proof :=
    if a = oracle then
      (ComplianceOracle.checkCompliance (verify x.2) nullifiers outputs proof x.1).toOption
    else E.checkCompliance a x.2 nullifiers outputs proof
  isBlocked a x account :=
    if a = oracle then some (ComplianceOracle.isBlocked account x.1)
    else E.isBlocked a x.2 account
  keccak256 := E.keccak256
  hash := E.hash
  moves x x' := E.moves x.2 x'.2 ∧ x'.1 = x.1

/-- A call of one of the two contracts. -/
inductive Call where
  | pool (c : PrivacyPool.Call)
  | oracle (c : ComplianceOracle.Call)

/-- An event of one of them. -/
inductive Event where
  | pool (e : PrivacyPool.Event)
  | oracle (e : ComplianceOracle.Event)

/-- A revert of one of them. -/
inductive Error where
  | pool (e : PrivacyPool.Error)
  | oracle (e : ComplianceOracle.Error)

variable (verify : X → Address → Bytes → Bytes → Option Bytes) (oracle : Address)
variable (E : Interfaces X)

/-- A call of the pool, or of the oracle. -/
def enter (c : Call) (w : World (ComplianceOracle.Storage × X)) :
    Except Error (World (ComplianceOracle.Storage × X) × List Event × Option Cont) :=
  match c with
  | .pool c =>
    ((PrivacyPool.enter (withComplianceOracle verify oracle E) c w).mapError .pool).map
      (fun r => (r.1, r.2.1.map .pool, r.2.2))
  | .oracle c =>
    ((ComplianceOracle.exec c w.others.1).mapError .oracle).map
      (fun r => ({ w with others := (r.1, w.others.2) }, r.2.map .oracle, none))

/-- The rest of a call of the pool. -/
def resume (k : Cont) (success : Bool) (w : World (ComplianceOracle.Storage × X)) :
    Except Error (World (ComplianceOracle.Storage × X) × List Event) :=
  ((PrivacyPool.resume k success w).mapError .pool).map (fun r => (r.1, r.2.map .pool))

/-- **The two contracts as a machine.** -/
def machine : CallStack.Contract (World (ComplianceOracle.Storage × X)) Call Cont Event
    Error where
  enter := enter verify oracle E
  send := PrivacyPool.send
  resume := resume
  outside := PrivacyPool.Outside (withComplianceOracle verify oracle E)
  tick := PrivacyPool.Tick

/-! ## The policy -/

/-- **What the checks of the pool turn on**: the oracle it asks, and the policy
there. -/
structure Policy where
  complianceOracle : Address
  complianceEnabled : Bool
  blockedCommitments : Bytes32 → Bool

/-- The policy in a world. -/
def policyOf (w : World (ComplianceOracle.Storage × X)) : Policy :=
  ⟨w.pool.complianceOracle, w.others.1.complianceEnabled, w.others.1.blockedCommitments⟩

/-- The oracle that a pool asks after a call. -/
def attaches : PrivacyPool.Entry → Address → Address
  | .setComplianceOracle a, _ => a
  | _, a => a

/-- **The policy after a receipt.** -/
def Policy.next (policy : Policy) : Receipt Call Cont Event → Policy
  | .entered (.pool c) _ =>
    { policy with complianceOracle := attaches c.entry policy.complianceOracle }
  | .entered (.oracle c) _ =>
    { policy with
      complianceEnabled := c.entry.enables policy.complianceEnabled
      blockedCommitments := c.entry.blocks policy.blockedCommitments }
  | .resumed _ _ => policy

/-- **The oracle at an address is attached and enabled.** -/
structure Policy.Enforced (oracle : Address) (policy : Policy) : Prop where
  attached : policy.complianceOracle = oracle
  enabled : policy.complianceEnabled = true

/-- A property of the calls of the pool that are made while the oracle is attached and
enabled, given the commitments that are blocked then. -/
def WhileEnforced (oracle : Address)
    (P : (Bytes32 → Bool) → PrivacyPool.Entry → Prop) (policy : Policy) :
    Receipt Call Cont Event → Prop
  | .entered (.pool c) _ => policy.Enforced oracle → P policy.blockedCommitments c.entry
  | _ => True

/-- Such properties agree where one call at a time they do. -/
theorem WhileEnforced.congr {P Q R : (Bytes32 → Bool) → PrivacyPool.Entry → Prop}
    (h : ∀ blocked entry, R blocked entry → (P blocked entry ↔ Q blocked entry))
    (policy : Policy) (receipt : Receipt Call Cont Event)
    (hR : WhileEnforced oracle R policy receipt) :
    WhileEnforced oracle P policy receipt ↔ WhileEnforced oracle Q policy receipt := by
  cases receipt with
  | entered c evs =>
    cases c with
    | pool c => exact forall_congr' (fun henforced => h _ _ (hR henforced))
    | oracle c => exact Iff.rfl
  | resumed k evs => exact Iff.rfl

/-- **A commitment that was blocked by a call stays blocked.** -/
theorem blocked_of_mem {policy : Policy} {trace : List (Receipt Call Cont Event)}
    {sender : Address} {commitment : Bytes32} {reason : String} {evs : List Event}
    (h : .entered (.oracle ⟨sender, .blockCommitment commitment reason⟩) evs ∈ trace) :
    (trace.foldl Policy.next policy).blockedCommitments commitment = true := by
  -- no receipt takes a commitment off the list
  have hstay : ∀ (policy : Policy) (receipt : Receipt Call Cont Event),
      policy.blockedCommitments commitment = true →
        (policy.next receipt).blockedCommitments commitment = true := by
    intro policy receipt hblocked
    cases receipt with
    | entered c evs =>
      cases c with
      | pool c => exact hblocked
      | oracle c => exact c.entry.blocks_mono hblocked
    | resumed k evs => exact hblocked
  have hall : ∀ (trace : List (Receipt Call Cont Event)) (policy : Policy),
      policy.blockedCommitments commitment = true →
        (trace.foldl Policy.next policy).blockedCommitments commitment = true := by
    intro trace
    induction trace with
    | nil => exact fun _ hblocked => hblocked
    | cons receipt trace ih => exact fun policy hblocked => ih _ (hstay policy receipt hblocked)
  obtain ⟨before, after, rfl⟩ := List.append_of_mem h
  rw [List.foldl_append, List.foldl_cons]
  exact hall after _ (Function.update_self ..)

/-! ## What is screened -/

/-- **No nullifier and no output is a blocked word.** -/
structure Screened (blocked : Bytes32 → Bool) (entry : PrivacyPool.Entry) : Prop where
  nullifiers : ∀ nullifier ∈ entry.nullifiers, blocked nullifier = false
  outputs : ∀ output ∈ entry.outputs, blocked output = false

variable {verify oracle E}

/-- An oracle that is attached and enabled has screened what passed the pool's
check. -/
theorem unblocked_of_checkCompliance (horacle : oracle ≠ 0)
    {w : World (ComplianceOracle.Storage × X)} (henforced : (policyOf w).Enforced oracle)
    {nullifiers outputs : Pair} {proof : Bytes}
    (h : PrivacyPool.checkCompliance (withComplianceOracle verify oracle E) w nullifiers
      outputs proof = .ok ()) :
    ∀ word ∈ [nullifiers.1, nullifiers.2, outputs.1, outputs.2],
      w.others.1.blockedCommitments word = false := by
  have hattached : w.pool.complianceOracle = oracle := henforced.attached
  unfold PrivacyPool.checkCompliance at h
  rw [hattached, if_neg horacle] at h
  obtain ⟨compliant, hanswer, h⟩ := (Except.bind_eq_ok _ _ _).mp h
  rw [revertIf_eq_ok, Bool.not_eq_false] at h
  rw [orRevert_eq_ok, h] at hanswer
  unfold withComplianceOracle at hanswer
  dsimp only at hanswer
  rw [if_pos rfl] at hanswer
  cases hcheck : ComplianceOracle.checkCompliance (verify w.others.2) nullifiers outputs proof
      w.others.1 with
  | error e =>
    rw [hcheck] at hanswer
    cases hanswer
  | ok answer =>
    rw [hcheck] at hanswer
    cases hanswer
    exact ComplianceOracle.unblocked_of_checkCompliance henforced.enabled hcheck

/-- Reports leave the oracle alone. -/
theorem reported_oracle {w : World (ComplianceOracle.Storage × X)} {nullifiers : Pair}
    {others : ComplianceOracle.Storage × X}
    (h : PrivacyPool.Reported (withComplianceOracle verify oracle E) w nullifiers others) :
    others.1 = w.others.1 := by
  have hone : ∀ {a : Address} {x x' : ComplianceOracle.Storage × X} {n : Bytes32},
      (withComplianceOracle verify oracle E).registerNullifier a x n = some x' →
        x'.1 = x.1 := by
    intro a x x' n hreg
    obtain ⟨y, -, rfl⟩ := Option.map_eq_some_iff.mp hreg
    rfl
  unfold PrivacyPool.Reported at h
  split at h
  · rw [h]
  · obtain ⟨others₁, h₁, h₂⟩ := h
    exact (hone h₂).trans (hone h₁)

/-- **A call of the pool changes the policy only by attaching another oracle**, and an
oracle that is attached and enabled has screened it. -/
theorem effect_policy (horacle : oracle ≠ 0) {msg : PrivacyPool.Msg}
    {w w' : World (ComplianceOracle.Storage × X)} {entry : PrivacyPool.Entry}
    {evs : List PrivacyPool.Event} {k : Option Cont}
    (h : PrivacyPool.Effect (withComplianceOracle verify oracle E) msg w entry w' evs k) :
    policyOf w' = { policyOf w with
        complianceOracle := attaches entry (policyOf w).complianceOracle }
      ∧ ((policyOf w).Enforced oracle →
          Screened (policyOf w).blockedCommitments entry) := by
  have hspend : ∀ {nullifiers outputs : Pair} {proof : Bytes},
      PrivacyPool.checkCompliance (withComplianceOracle verify oracle E) w nullifiers outputs
        proof = .ok () → (policyOf w).Enforced oracle →
      (∀ n ∈ [nullifiers.1, nullifiers.2], (policyOf w).blockedCommitments n = false)
        ∧ ∀ c ∈ [outputs.1, outputs.2], (policyOf w).blockedCommitments c = false := by
    intro nullifiers outputs proof hcheck henforced
    have hall := unblocked_of_checkCompliance horacle henforced hcheck
    rw [List.forall_mem_cons, List.forall_mem_cons] at hall
    exact ⟨List.forall_mem_cons.mpr ⟨hall.1, List.forall_mem_singleton.mpr hall.2.1⟩,
      hall.2.2⟩
  -- transfers and withdrawals are screened, and no other call has words to screen
  cases h
  case transfer compliant _ reported _ _ =>
    refine ⟨?_, fun henforced => ?_⟩
    · unfold policyOf
      rw [reported_oracle reported]
      rfl
    · obtain ⟨hnullifiers, houtputs⟩ := hspend compliant henforced
      exact ⟨hnullifiers, houtputs⟩
  case withdraw compliant _ _ reported _ _ _ =>
    refine ⟨?_, fun henforced => ?_⟩
    · unfold policyOf
      rw [reported_oracle reported]
      rfl
    · obtain ⟨hnullifiers, houtputs⟩ := hspend compliant henforced
      exact ⟨hnullifiers, houtputs⟩
  all_goals exact ⟨rfl, fun _ => ⟨nofun, nofun⟩⟩

/-- **The policy can be read off the trace, and what the oracle enforces is
screened.** -/
theorem policy_projection (horacle : oracle ≠ 0) :
    Projection (machine verify oracle E) policyOf Policy.next
      (WhileEnforced oracle Screened) where
  enter {s c s' evs k} h := by
    cases c with
    | pool c =>
      obtain ⟨⟨w', evs', k'⟩, henter, heq⟩ := Except.map_eq_ok.mp h
      cases heq
      have heff := (PrivacyPool.enter_effect (Except.mapError_eq_ok.mp henter)).2
      have hpolicy := effect_policy horacle heff
      exact hpolicy
    | oracle c =>
      obtain ⟨⟨storage, evs'⟩, hexec, heq⟩ := Except.map_eq_ok.mp h
      cases heq
      have heff := ComplianceOracle.exec_effect (Except.mapError_eq_ok.mp hexec)
      refine ⟨?_, trivial⟩
      show Policy.mk _ storage.complianceEnabled storage.blockedCommitments = _
      rw [heff.complianceEnabled, heff.blockedCommitments]
      rfl
  send h := by
    obtain ⟨-, rfl⟩ := PrivacyPool.send_eq_some h
    rfl
  resume {s k success s' evs} h := by
    obtain ⟨⟨w', evs'⟩, hresume, heq⟩ := Except.map_eq_ok.mp h
    cases heq
    obtain ⟨-, rfl⟩ := PrivacyPool.resume_eq_ok (Except.mapError_eq_ok.mp hresume)
    exact ⟨rfl, trivial⟩
  outside {s s'} h := by
    obtain ⟨hothers, -, hpool, -⟩ := h
    have horacle' : s'.others.1 = s.others.1 := by
      rcases hothers with heq | hmoves
      · rw [heq]
      · exact hmoves.2
    unfold policyOf
    rw [hpool, horacle']
  tick {s s'} h := by
    obtain ⟨-, -, hpool, -, hothers⟩ := h
    unfold policyOf
    rw [hpool, hothers]

/-- When a call of the pool goes through here. -/
theorem enter_pool {c : PrivacyPool.Call} {w w' : World (ComplianceOracle.Storage × X)}
    {evs : List PrivacyPool.Event} {k : Option Cont}
    (h : PrivacyPool.enter (withComplianceOracle verify oracle E) c w = .ok (w', evs, k)) :
    enter verify oracle E (.pool c) w = .ok (w', evs.map .pool, k) := by
  unfold enter
  dsimp only
  rw [h]
  rfl

/-- The verifier is the one that the pool has without the oracle. -/
theorem verifyTransferProof_withComplianceOracle {x : ComplianceOracle.Storage × X}
    {proof : Bytes} {publicInputs : List Uint256} :
    (withComplianceOracle verify oracle E).verifyTransferProof x proof publicInputs
      = E.verifyTransferProof x.2 proof publicInputs := rfl

/-- When the oracle lets words through. -/
theorem checkCompliance_of_unblocked {w : World (ComplianceOracle.Storage × X)}
    (hattached : w.pool.complianceOracle = oracle) (horacle : oracle ≠ 0)
    (hverifier : w.others.1.viewingKeyVerifier = 0) {nullifiers outputs : Pair} {proof : Bytes}
    (h : ∀ word ∈ [nullifiers.1, nullifiers.2, outputs.1, outputs.2],
      w.others.1.blockedCommitments word = false) :
    PrivacyPool.checkCompliance (withComplianceOracle verify oracle E) w nullifiers outputs
      proof = .ok () := by
  have hcheck : ComplianceOracle.checkCompliance (verify w.others.2) nullifiers outputs proof
      w.others.1 = .ok true := ComplianceOracle.checkCompliance_of_unblocked hverifier h
  unfold PrivacyPool.checkCompliance withComplianceOracle
  dsimp only
  rw [hattached, if_neg horacle, if_pos rfl, hcheck]
  rfl

/-! ## What is kept out -/

/-- **A nullifier is derived from a commitment**, with some spending key. -/
def DerivedFrom (chainId appId nullifier commitment : Uint256) : Prop :=
  ∃ spendingKey, nullifier = DomainNullifier.computeV2 spendingKey commitment chainId appId

/-- **A call keeps the blocked notes out**: it inserts no blocked commitment by a deposit
or a reveal, and spends no nullifier that was derived from one. -/
structure KeepsOut (chainId appId : Uint256) (blocked : Bytes32 → Bool)
    (entry : PrivacyPool.Entry) : Prop where
  inserted : ∀ commitment, blocked commitment = true → commitment ∉ entry.deposits
  spent : ∀ commitment, blocked commitment = true →
    ∀ nullifier ∈ entry.nullifiers, ¬ DerivedFrom chainId appId nullifier commitment

/-- **What the pool leaves to others**: that nobody deposits a commitment on the list,
and that a nullifier derived from one is on the list itself. -/
structure LeftToOthers (chainId appId : Uint256) (blocked : Bytes32 → Bool)
    (entry : PrivacyPool.Entry) : Prop where
  deposits : ∀ commitment ∈ entry.deposits, blocked commitment = false
  nullifiers : ∀ nullifier ∈ entry.nullifiers,
    (∃ commitment, blocked commitment = true
      ∧ DerivedFrom chainId appId nullifier commitment) → blocked nullifier = true

/-- **A screened call keeps the blocked notes out if and only if the others did what is
left to them.** -/
theorem Screened.keepsOut_iff {chainId appId : Uint256} {blocked : Bytes32 → Bool}
    {entry : PrivacyPool.Entry} (h : Screened blocked entry) :
    KeepsOut chainId appId blocked entry ↔ LeftToOthers chainId appId blocked entry := by
  constructor
  · intro hkeeps
    refine ⟨fun commitment hmem => ?_, fun nullifier hmem hderived => ?_⟩
    · exact Bool.eq_false_iff.mpr (fun hblocked => hkeeps.inserted commitment hblocked hmem)
    · obtain ⟨commitment, hblocked, hderived⟩ := hderived
      exact absurd hderived (hkeeps.spent commitment hblocked nullifier hmem)
  · intro hleft
    refine ⟨fun commitment hblocked hmem => ?_,
      fun commitment hblocked nullifier hmem hderived => ?_⟩
    · exact Bool.false_ne_true ((hleft.deposits commitment hmem).symm.trans hblocked)
    · -- the nullifier would be on the list, and the call would not have gone through
      have hlisted := hleft.nullifiers nullifier hmem ⟨commitment, hblocked, hderived⟩
      exact Bool.false_ne_true ((h.nullifiers nullifier hmem).symm.trans hlisted)

/-- **Blocked notes are kept out of a trace**: each call of the pool that went through
while the oracle was attached and enabled kept those out that were blocked by then. -/
def KeptOut (oracle : Address) (chainId appId : Uint256)
    (w₀ : World (ComplianceOracle.Storage × X)) (trace : List (Receipt Call Cont Event)) :
    Prop :=
  Along Policy.next (WhileEnforced oracle (KeepsOut chainId appId)) (policyOf w₀) trace

/-- A pool with its oracle, both just deployed. -/
def compliantWorld : World (ComplianceOracle.Storage × Unit) :=
  ⟨⟨0, 0⟩, 0, PrivacyPool.construct PrivacyPool.infinityPool.hash 1 0 3 4 5 9,
    (ComplianceOracle.construct 2, ())⟩

/-- The two as a machine, without a verifier for viewing keys. -/
def compliantPool : CallStack.Contract (World (ComplianceOracle.Storage × Unit)) Call Cont
    Event Error :=
  machine (fun _ _ _ _ => none) 9 PrivacyPool.infinityPool

theorem compliantPool_enter (c : Call) (w : World (ComplianceOracle.Storage × Unit)) :
    compliantPool.enter c w
      = enter (fun _ _ _ _ => none) 9 PrivacyPool.infinityPool c w := rfl

/-- Governance of the oracle blocks the commitment 7. -/
def blockSeven : ComplianceOracle.Call := ⟨2, .blockCommitment 7 "tainted note"⟩

/-- A deposit. -/
def depositOf (commitment : Bytes32) : PrivacyPool.Call :=
  ⟨⟨1, 10, Address.one_ne_zero⟩, .deposit commitment 10⟩

/-- The world after that. -/
def afterBlock (w : World (ComplianceOracle.Storage × Unit)) :
    World (ComplianceOracle.Storage × Unit) :=
  { w with
    others := ({ w.others.1 with
      blockedCommitments := Function.update w.others.1.blockedCommitments 7 true }, ()) }

/-- **Blocking goes through at any time.** -/
theorem enter_blockSeven {w : World (ComplianceOracle.Storage × Unit)}
    (hgovernance : w.others.1.governance = 2) :
    compliantPool.enter (.oracle blockSeven) w
      = .ok (afterBlock w, [.oracle (.commitmentBlocked 7 "tainted note")], none) := by
  have hexec : ComplianceOracle.exec blockSeven w.others.1 = .ok (_, _) :=
    ComplianceOracle.onlyGovernance_bind_eq_ok.mpr ⟨hgovernance.symm, rfl⟩
  show Except.map _ (Except.mapError _ (ComplianceOracle.exec blockSeven w.others.1)) = _
  rw [hexec]
  rfl

/-- **A deposit into the fresh pool goes through**, whatever is blocked. -/
theorem enter_depositOf {w : World (ComplianceOracle.Storage × Unit)}
    (hpool : w.pool = compliantWorld.pool) (commitment : Bytes32) :
    ∃ tree, MerkleTree.Represents PrivacyPool.infinityPool.hash tree [commitment]
      ∧ compliantPool.enter (.pool (depositOf commitment)) w
        = .ok ((PrivacyPool.credit (depositOf commitment).msg w).withPool
            { compliantWorld.pool with
              commitmentExists := Function.update (fun _ => false) commitment true
              tree := tree
              poolBalance := 10 },
          [.pool (.deposit commitment 0 10 w.block.timestamp)], none) := by
  obtain ⟨block, balance, pool, others⟩ := w
  cases hpool
  have hrep₀ : MerkleTree.Represents PrivacyPool.infinityPool.hash compliantWorld.pool.tree [] :=
    MerkleTree.fresh_represents _
  obtain ⟨tree, hins, hrep⟩ :=
    MerkleTree.insert_represents PrivacyPool.infinityPool.hash hrep₀ (by decide) commitment
  have heff : PrivacyPool.Effect
      (withComplianceOracle (fun _ _ _ _ => none) 9 PrivacyPool.infinityPool)
      (depositOf commitment).msg
      (PrivacyPool.credit (depositOf commitment).msg
        ⟨block, balance, compliantWorld.pool, others⟩)
      (depositOf commitment).entry _ _ none :=
    .deposit rfl (by decide) rfl rfl (fun h => (Bool.false_ne_true h).elim) hins rfl
  have hpayable : (depositOf commitment).entry.payable = false →
      (depositOf commitment).msg.value = 0 := fun h => (Bool.false_ne_true h.symm).elim
  exact ⟨tree, hrep, enter_pool (PrivacyPool.enter_eq_ok.mpr ⟨hpayable, heff⟩)⟩

/-- A run that blocks the commitment 7 and then makes a deposit. -/
theorem exists_deposit_after_block (commitment : Bytes32) :
    ∃ c, Reachable compliantPool (fun _ _ => True) compliantWorld c
      ∧ ∃ evs₁ evs₂, c.now.trace
          = [.entered (.oracle blockSeven) evs₁, .entered (.pool (depositOf commitment)) evs₂] := by
  have hblock := enter_blockSeven (w := compliantWorld) rfl
  obtain ⟨tree, -, hdeposit⟩ := enter_depositOf (w := afterBlock compliantWorld) rfl commitment
  have hreach : Reachable compliantPool (fun _ _ => True) compliantWorld _ :=
    .tail (.tail .refl (.call trivial hblock)) (.call trivial hdeposit)
  exact ⟨_, hreach, _, _, rfl⟩

/-- **The oracle lets any other nullifier pass**: a run that deposits the commitment 7,
blocks it and then makes a transfer. -/
theorem exists_transfer_after_block {nullifier : Bytes32} (hseven : nullifier ≠ 7)
    (hone : nullifier ≠ 1) :
    ∃ c, Reachable compliantPool (fun _ _ => True) compliantWorld c
      ∧ ∃ evs₁ evs₂ evs₃, c.now.trace
          = [.entered (.pool (depositOf 7)) evs₁, .entered (.oracle blockSeven) evs₂,
            .entered (.pool (PrivacyPool.infinityTransfer (nullifier, 1) (3, 4))) evs₃] := by
  obtain ⟨tree, hrep, hdeposit⟩ := enter_depositOf (w := compliantWorld) rfl 7
  let deposited := (PrivacyPool.credit (depositOf 7).msg compliantWorld).withPool
    { compliantWorld.pool with
      commitmentExists := Function.update (fun _ => false) 7 true
      tree := tree
      poolBalance := 10 }
  have hblock := enter_blockSeven (w := deposited) rfl
  have known : MerkleTree.isKnownRoot tree
      (MerkleTree.treeRoot PrivacyPool.infinityPool.hash []) = true :=
    hrep.exactWindow.kept [] [7] rfl (by decide) PrivacyPool.infinityRoot_ne_zero
  have compliant : PrivacyPool.checkCompliance (withComplianceOracle (fun _ _ _ _ => none) 9
      PrivacyPool.infinityPool) (afterBlock deposited) (nullifier, 1) (3, 4)
        (List.replicate 256 0) = .ok () := by
    have horacle : (9 : Address) ≠ 0 := by decide
    refine checkCompliance_of_unblocked rfl horacle rfl (fun word hword => ?_)
    have hword_ne : word ≠ 7 := by
      rcases List.mem_cons.mp hword with rfl | hother
      · exact hseven
      · rintro rfl
        simp at hother
    exact Function.update_of_ne hword_ne _ _
  have verified : (withComplianceOracle (fun _ _ _ _ => none) 9
      PrivacyPool.infinityPool).verifyTransferProof (afterBlock deposited).others
        (List.replicate 256 0) (PrivacyPool.buildTransferPublicInputs
          (MerkleTree.treeRoot PrivacyPool.infinityPool.hash []) (nullifier, 1) (3, 4) 3 4)
      = some true :=
    verifyTransferProof_withComplianceOracle.trans
      (PrivacyPool.infinityPool_verifies _ _ _ _ _)
  obtain ⟨tree', -, hspend⟩ := @PrivacyPool.enter_transfer _
    (withComplianceOracle (fun _ _ _ _ => none) 9 PrivacyPool.infinityPool)
    (afterBlock deposited) [7] hrep (by decide) rfl rfl ⟨1, 0, by decide⟩ rfl
    (List.replicate 256 0) _ known (nullifier, 1) (3, 4) ⟨rfl, rfl, hone⟩ rfl compliant
    verified
  have hcall : compliantPool.enter
      (.pool (PrivacyPool.infinityTransfer (nullifier, 1) (3, 4))) (afterBlock deposited)
        = .ok (_, _, none) := (compliantPool_enter ..).trans (enter_pool hspend)
  have hreach₁ : Reachable compliantPool (fun _ _ => True) compliantWorld
      ⟨⟨deposited, [.entered _ _]⟩, []⟩ := .tail .refl (.call trivial hdeposit)
  have hreach₂ : Reachable compliantPool (fun _ _ => True) compliantWorld
      ⟨⟨afterBlock deposited, _⟩, []⟩ := hreach₁.tail (.call trivial hblock)
  exact ⟨_, hreach₂.tail (.call trivial hcall), _, _, _, rfl⟩

end CompliantPool
