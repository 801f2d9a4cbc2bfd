import SoulPrivacy.EpochLists
import SoulPrivacy.NullifierCanonicality

/-!
# The pool and its epoch manager

A pool reports every nullifier it spends to its epoch manager, within the
call that spends it. With a manager that takes reports from that pool only,
the two contracts keep the same books at every point of every run
(`spent_eq_listed`): the lists of the epochs are, one after the other, the
spent nullifiers in the order in which they were spent. Epochs may be
started and finalized by anyone in between, also while a payee is being
paid, and the payee may withdraw again.

A frame that reverts takes both contracts back to where it was opened
(`Step.eq_of_reverts`), so a nullifier is never spent in one and not
reported to the other.
-/

/-! ## Reverts -/

namespace CallStack

variable {σ Call Cont Event ε : Type}

/-- **The open frame on top reverts**, be it the contract's own code after
its handover or foreign code. -/
inductive Reverts {ρ : Type} : Config σ ρ Cont → Config σ ρ Cont → Prop
  | code {p saved atSend stk k} : Reverts ⟨p, .code saved atSend k :: stk⟩ ⟨saved, stk⟩
  | guest {p saved stk} : Reverts ⟨p, .guest saved :: stk⟩ ⟨saved, stk⟩

/-- It is a step of the machine. -/
theorem Reverts.step (M : Contract σ Call Cont Event ε) (allowed : σ → Call → Prop)
    {c c' : Config σ (Receipt Call Cont Event) Cont} (h : Reverts c c') :
    Step M allowed c c' := by
  cases h with
  | code => exact .reverted
  | guest => exact .guestRevert

/-- **A frame that reverts takes everything back to where it was opened**,
whatever happened while it was open. -/
theorem Step.eq_of_reverts {M : Contract σ Call Cont Event ε} {allowed : σ → Call → Prop}
    {c c₁ c₂ c₃ : Config σ (Receipt Call Cont Event) Cont}
    {f : Frame σ (Receipt Call Cont Event) Cont} (hopen : Step M allowed c c₁)
    (hframe : c₁.stack = f :: c.stack) (htop : c₂.stack = f :: c.stack)
    (hrevert : Reverts c₂ c₃) : c₃ = c := by
  have hlen : c₁.stack.length = c.stack.length + 1 := by rw [hframe]; rfl
  cases hopen with
  | handover =>
    cases hframe
    cases hrevert with
    | code =>
      cases htop
      rfl
    | guest => cases htop
  | guestOpen =>
    cases hframe
    cases hrevert with
    | code => cases htop
    | guest =>
      cases htop
      rfl
  | call | uncovered | outside | tick => exact absurd hlen (Nat.lt_succ_self _).ne
  | returned | failed | reverted | guestReturn | guestRevert =>
    exact absurd hlen (Nat.lt_succ_of_lt (Nat.lt_succ_self _)).ne

end CallStack

namespace PrivacyPool

variable {X : Type}

/-! ## The pool with the epoch manager -/

/-- A call of the manager by another account than the pool, which leaves
the authorized pools alone. -/
def ManagerCall (pool : Address) (c : EpochManager.Call) : Prop :=
  c.sender ≠ pool ∧ (∀ a, c.entry ≠ .authorizePool a) ∧ ∀ a, c.entry ≠ .revokePool a

/-- **The surroundings of a pool at the address `pool` with the epoch
manager at the address `manager`**: the manager's storage comes before the
state of all the others, its `registerNullifier` is called by the pool, and
other accounts call it at any time. -/
def withEpochManager (H : EpochManager.Hashes) (pool manager : Address)
    (E : Interfaces X) : Interfaces (EpochManager.Storage × X) where
  verifyTransferProof x := E.verifyTransferProof x.2
  verifyWithdrawProof x := E.verifyWithdrawProof x.2
  registerNullifier a x nullifier :=
    if a = manager then
      ((EpochManager.registerNullifier pool nullifier x.1).map
        (fun r => (r.1, x.2))).toOption
    else (E.registerNullifier a x.2 nullifier).map (fun others => (x.1, others))
  checkCompliance a x := E.checkCompliance a x.2
  isBlocked a x := E.isBlocked a x.2
  keccak256 := E.keccak256
  hash := E.hash
  moves x x' :=
    (∃ c, ManagerCall pool c ∧ EpochManager.step H c x.1 = .ok x'.1 ∧ x'.2 = x.2)
      ∨ E.moves x.2 x'.2 ∧ x'.1 = x.1

/-- The pool stays with its manager. -/
def KeepsManager {Y : Type} (manager : Address) (_ : World Y) (c : Call) : Prop :=
  ∀ a, c.entry = .setEpochManager a → a = manager

variable {H : EpochManager.Hashes} {E : Interfaces X} {pool manager : Address}

/-! ## Reports -/

/-- A call either spends nothing and leaves the other contracts alone, or
reports the two nullifiers it spends. -/
theorem Effect.reports {E : Interfaces X} {msg : Msg} {w w' : World X} {entry : Entry}
    {evs : List Event} {k : Option Cont} (h : Effect E msg w entry w' evs k) :
    (entry.nullifiers = [] ∧ w'.others = w.others)
      ∨ ∃ nullifiers : Pair, entry.nullifiers = [nullifiers.1, nullifiers.2]
        ∧ Reported E w nullifiers w'.others := by
  cases h
  case transfer reported _ _ => exact Or.inr ⟨_, rfl, reported⟩
  case withdraw reported _ _ _ => exact Or.inr ⟨_, rfl, reported⟩
  all_goals exact Or.inl ⟨rfl, rfl⟩

/-- The manager of a pool that stays with it. -/
theorem Effect.epochManager_eq {E : Interfaces X} {msg : Msg} {w w' : World X}
    {entry : Entry} {evs : List Event} {k : Option Cont}
    (h : Effect E msg w entry w' evs k)
    (hkeep : ∀ a, entry = .setEpochManager a → a = manager)
    (hmanager : w.pool.epochManager = manager) : w'.pool.epochManager = manager := by
  cases h
  case setEpochManager => exact hkeep _ rfl
  all_goals exact hmanager

/-- **A report is a registration by the pool.** -/
theorem registerNullifier_eq_some {x x' : EpochManager.Storage × X} {n : Bytes32}
    (h : (withEpochManager H pool manager E).registerNullifier manager x n = some x') :
    EpochManager.step H ⟨pool, 0, .registerNullifier n⟩ x.1 = .ok x'.1 := by
  unfold withEpochManager at h
  dsimp only at h
  rw [if_pos rfl] at h
  cases hreg : EpochManager.registerNullifier pool n x.1 with
  | error e =>
    rw [hreg] at h
    cases h
  | ok r =>
    rw [hreg] at h
    cases h
    exact congrArg (Except.map Prod.fst) hreg

/-- **The books of the two contracts agree.** -/
structure SameBooks (pool manager : Address) (p : Point (EpochManager.Storage × X)) :
    Prop where
  once : SpentOnce p
  wired : p.state.pool.epochManager = manager
  only : ∀ a, p.state.others.1.authorizedPools a = true → a = pool
  tallied : EpochManager.Tallied (acceptedNullifiers p.trace) p.state.others.1

/-- A registration by the pool leaves the authorized pools as they were. -/
theorem tallied_registered {m m' : EpochManager.Storage} {n : Bytes32}
    {ns : List Bytes32} (ht : EpochManager.Tallied ns m)
    (h : EpochManager.step H ⟨pool, 0, .registerNullifier n⟩ m = .ok m') :
    EpochManager.Tallied (ns ++ [n]) m' ∧ m'.authorizedPools = m.authorizedPools :=
  ⟨ht.step h, (EpochManager.step_setsEffect h).pools nofun nofun⟩

/-- **A call keeps the books the same**: it reports what it spends. -/
theorem SameBooks.enter (hmanager : manager ≠ 0)
    {p : Point (EpochManager.Storage × X)} (hp : SameBooks pool manager p) {c : Call}
    (hkeep : KeepsManager manager p.state c) {w' : World (EpochManager.Storage × X)}
    {evs : List Event} {k : Option Cont}
    (h : PrivacyPool.enter (withEpochManager H pool manager E) c p.state
      = .ok (w', evs, k)) :
    SameBooks pool manager (⟨w', p.trace ++ [.entered c evs]⟩ : Point _) := by
  have heff := (enter_effect h).2
  have hbooks : EpochManager.Tallied (acceptedNullifiers p.trace ++ c.entry.nullifiers)
        w'.others.1 ∧ w'.others.1.authorizedPools = p.state.others.1.authorizedPools := by
    -- nothing was spent, or two nullifiers were, and registered one after the other
    rcases heff.reports with ⟨hnone, hothers⟩ | ⟨nullifiers, htwo, hreported⟩
    · rw [hnone, hothers, List.append_nil]
      exact ⟨hp.tallied, rfl⟩
    · have hne : (credit c.msg p.state).pool.epochManager ≠ 0 := hp.wired ▸ hmanager
      unfold Reported at hreported
      rw [if_neg hne, show (credit c.msg p.state).pool.epochManager = manager from hp.wired]
        at hreported
      obtain ⟨others₁, h₁, h₂⟩ := hreported
      obtain ⟨ht₁, hpools₁⟩ := tallied_registered hp.tallied (registerNullifier_eq_some h₁)
      obtain ⟨ht₂, hpools₂⟩ := tallied_registered ht₁ (registerNullifier_eq_some h₂)
      rw [htwo]
      exact ⟨by rwa [List.append_assoc] at ht₂, hpools₂.trans hpools₁⟩
  refine ⟨hp.once.enter h, heff.epochManager_eq hkeep hp.wired, ?_, ?_⟩
  · exact fun a ha => hp.only a (hbooks.2 ▸ ha)
  · dsimp only
    rw [acceptedNullifiers_snoc]
    exact hbooks.1

theorem SameBooks.resume {p : Point (EpochManager.Storage × X)}
    (hp : SameBooks pool manager p) {k : Cont} {success : Bool}
    {w' : World (EpochManager.Storage × X)} {evs : List Event}
    (h : PrivacyPool.resume k success p.state = .ok (w', evs)) :
    SameBooks pool manager (⟨w', p.trace ++ [.resumed k evs]⟩ : Point _) := by
  have honce := hp.once.resume h
  obtain ⟨-, rfl⟩ := resume_eq_ok h
  refine ⟨honce, hp.wired, hp.only, ?_⟩
  dsimp only
  rw [acceptedNullifiers_snoc, receiptNullifiers, List.append_nil]
  exact hp.tallied

/-- **Calls of the manager by others keep the books the same**: their
registrations are refused. -/
theorem SameBooks.managerCall {p : Point (EpochManager.Storage × X)}
    (hp : SameBooks pool manager p) {c : EpochManager.Call} (hc : ManagerCall pool c)
    {m' : EpochManager.Storage}
    (h : EpochManager.step H c p.state.others.1 = .ok m') :
    EpochManager.Tallied (acceptedNullifiers p.trace) m'
      ∧ ∀ a, m'.authorizedPools a = true → a = pool := by
  obtain ⟨hsender, hauthorize, hrevoke⟩ := hc
  have hpools := (EpochManager.step_setsEffect h).pools hauthorize hrevoke
  have hnone : c.entry.nullifiers = [] := by
    cases EpochManager.step_effect h with
    | register _ auth => exact absurd (hp.only _ auth) hsender
    | finalize entry_eq => rw [entry_eq]; rfl
    | start _ entry_eq => rw [entry_eq]; rfl
    | other entry_ne => exact EpochManager.Entry.nullifiers_eq_nil entry_ne
  have ht := hp.tallied.step h
  rw [hnone, List.append_nil] at ht
  exact ⟨ht, fun a ha => hp.only a (hpools ▸ ha)⟩

/-- **The books agree at every point of every run.** -/
theorem sameBooks_invariant (hmanager : manager ≠ 0) :
    CallStack.Invariant (machine (withEpochManager H pool manager E))
      (KeepsManager manager) (fun _ p => SameBooks pool manager p)
      (fun _ _ p => SameBooks pool manager p) where
  enter_done hp hkeep h := hp.enter hmanager hkeep h
  enter_send hp hkeep h := hp.enter hmanager hkeep h
  send hp h := by
    obtain ⟨-, rfl⟩ := send_eq_some h
    exact ⟨⟨hp.once.spent, hp.once.nodup⟩, hp.wired, hp.only, hp.tallied⟩
  resume_true hp h := hp.resume h
  resume_false hp h := hp.resume h
  outside := by
    rintro ks p s' hp ⟨hmoves, -, hpool, -⟩
    have honce : SpentOnce (⟨s', p.trace⟩ : Point _) :=
      ⟨hpool ▸ hp.once.spent, hp.once.nodup⟩
    have hwired : s'.pool.epochManager = manager := hpool ▸ hp.wired
    -- the manager is left alone, or called, or only something else moves
    rcases hmoves with hsame | ⟨c, hc, hstep, -⟩ | ⟨-, hsame⟩
    · exact ⟨honce, hwired, hsame ▸ hp.only, hsame ▸ hp.tallied⟩
    · obtain ⟨ht, honly⟩ := hp.managerCall hc hstep
      exact ⟨honce, hwired, honly, ht⟩
    · refine ⟨honce, hwired, ?_, ?_⟩
      · exact fun a ha => hp.only a (hsame ▸ ha)
      · exact hsame.symm ▸ hp.tallied
  tick := by
    rintro p s' hp ⟨-, -, hpool, -, hothers⟩
    exact ⟨⟨hpool ▸ hp.once.spent, hp.once.nodup⟩, hpool ▸ hp.wired, hothers ▸ hp.only,
      hothers ▸ hp.tallied⟩

/-! ## Agreement -/

/-- **A manager set up for one pool**: since its deployment anything may
have been called but no nullifier registered, and the pool is the one that
may. -/
def SetUpFor (H : EpochManager.Hashes) (pool : Address) (m : EpochManager.Storage) :
    Prop :=
  (∃ m₀ tr, EpochManager.Deployed m₀
    ∧ Run (EpochManager.step H) (fun _ c => ∀ n, c.entry ≠ .registerNullifier n) m₀ tr m)
  ∧ ∀ a, m.authorizedPools a = true ↔ a = pool

theorem SetUpFor.tallied {m : EpochManager.Storage} (h : SetUpFor H pool m) :
    EpochManager.Tallied [] m := by
  obtain ⟨⟨m₀, tr, hdeployed, hrun⟩, -⟩ := h
  refine hrun.invariant (I := fun _ m => EpochManager.Tallied [] m)
    (EpochManager.Tallied.init hdeployed) (fun tr s c s' hs hc hstep => ?_)
  have ht := hs.step hstep
  rwa [EpochManager.Entry.nullifiers_eq_nil hc] at ht

/-- The books of a pool that has just been deployed. -/
theorem SameBooks.init {w : World (EpochManager.Storage × X)}
    (hdeployed : Deployed (withEpochManager H pool manager E) w)
    (hwired : w.pool.epochManager = manager) (hsetup : SetUpFor H pool w.others.1) :
    SameBooks pool manager ⟨w, []⟩ where
  once := SpentOnce.init hdeployed
  wired := hwired
  only a ha := (hsetup.2 a).mp ha
  tallied := hsetup.tallied

/-- **The nullifiers the pool spent are, in this order, those on the lists
of the epochs**, none twice; the counters are the lengths of the lists, and
both contracts have exactly these nullifiers marked. A frame opened here
that reverts leads back here. -/
theorem spent_eq_listed (hmanager : manager ≠ 0)
    {w₀ : World (EpochManager.Storage × X)}
    (hdeployed : Deployed (withEpochManager H pool manager E) w₀)
    (hwired : w₀.pool.epochManager = manager) (hsetup : SetUpFor H pool w₀.others.1)
    {c : CallStack.Config (World (EpochManager.Storage × X))
      (CallStack.Receipt Call Cont Event) Cont}
    (hreach : CallStack.Reachable (machine (withEpochManager H pool manager E))
      (KeepsManager manager) w₀ c) :
    EpochManager.listed c.now.state.others.1 = acceptedNullifiers c.now.trace
      ∧ (acceptedNullifiers c.now.trace).Nodup
      ∧ (∀ e, (c.now.state.others.1.epochs e).nullifierCount
          = (c.now.state.others.1.epochNullifiers e).length)
      ∧ (∀ n, c.now.state.pool.nullifierSpent n = true
          ↔ n ∈ acceptedNullifiers c.now.trace)
      ∧ (∀ n, c.now.state.others.1.localNullifiers n = true
          ↔ n ∈ acceptedNullifiers c.now.trace)
      ∧ ∀ c₁ c₂ c₃ f, CallStack.Step (machine (withEpochManager H pool manager E))
          (KeepsManager manager) c c₁ → c₁.stack = f :: c.stack →
          c₂.stack = f :: c.stack → CallStack.Reverts c₂ c₃ → c₃ = c := by
  have hbooks := (sameBooks_invariant hmanager).holds
    (SameBooks.init hdeployed hwired hsetup) hreach
  refine ⟨hbooks.tallied.listed_eq, hbooks.once.nodup, hbooks.tallied.count,
    hbooks.once.spent, hbooks.tallied.marked, ?_⟩
  intro c₁ c₂ c₃ f hopen hframe htop hrevert
  exact hopen.eq_of_reverts hframe htop hrevert

/-- The manager has no part in the verdict on a proof. -/
theorem withEpochManager_verifies (x : EpochManager.Storage × X) (proof : Bytes)
    (publicInputs : List Uint256) :
    (withEpochManager H pool manager E).verifyTransferProof x proof publicInputs
      = E.verifyTransferProof x.2 proof publicInputs := rfl

/-- The pool at 10 with its manager at 20, whose verifier accepts the proof
of zeros. -/
def wiredPool : Interfaces (EpochManager.Storage × Unit) :=
  withEpochManager EpochManager.toyHashes 10 20 infinityPool

/-- A manager that has authorized this pool. -/
def wiredManager : EpochManager.Storage :=
  { EpochManager.toyManager with
    authorizedPools := Function.update (fun _ => false) 10 true }

/-- The pool just deployed. -/
def wiredWorld : World (EpochManager.Storage × Unit) :=
  ⟨⟨0, 0⟩, 0, construct wiredPool.hash 1 20 3 4 5 0, (wiredManager, ())⟩

theorem wiredManager_setUpFor : SetUpFor EpochManager.toyHashes 10 wiredManager := by
  refine ⟨⟨EpochManager.toyManager, _, ⟨1, 0, 10, 7, rfl⟩,
    Run.nil.snoc (c := ⟨1, 0, .authorizePool 10⟩) nofun rfl⟩, fun a => ?_⟩
  show Function.update (fun _ => false) 10 true a = true ↔ a = 10
  rw [update_true_eq_true]
  exact or_iff_right Bool.false_ne_true

/-- A transfer goes through there. -/
theorem exists_wiredTransfer :
    ∃ w evs, enter wiredPool (infinityTransfer (1, 2) (3, 4)) wiredWorld
      = .ok (w, evs, none) := by
  have hrep₀ : MerkleTree.Represents wiredPool.hash wiredWorld.pool.tree [] :=
    MerkleTree.fresh_represents _
  obtain ⟨tree₁, hins₁, hrep₁⟩ :=
    MerkleTree.insert_represents wiredPool.hash hrep₀ (by decide) 3
  obtain ⟨tree₂, hins₂, -⟩ :=
    MerkleTree.insert_represents wiredPool.hash hrep₁ (by decide) 4
  have known : MerkleTree.isKnownRoot wiredWorld.pool.tree
      (MerkleTree.treeRoot infinityPool.hash []) = true :=
    hrep₀.exactWindow.kept [] [] rfl (by decide) infinityRoot_ne_zero
  have verified : ∀ x, wiredPool.verifyTransferProof x (List.replicate 256 0)
      (buildTransferPublicInputs (MerkleTree.treeRoot infinityPool.hash []) (1, 2) (3, 4)
        3 4) = some true :=
    fun x => (withEpochManager_verifies x _ _).trans (infinityPool_verifies _ _ _ _ _)
  have reported : Reported wiredPool wiredWorld (1, 2) _ :=
    (if_neg (by decide)).mpr ⟨_, rfl, rfl⟩
  have heff : Effect wiredPool ⟨1, 0, by decide⟩ wiredWorld
      (infinityTransfer (1, 2) (3, 4)).entry _ _ none :=
    .transfer rfl rfl rfl known rfl rfl ⟨rfl, rfl, by decide⟩ reported
      (verified _) ⟨_, _, _, _, hins₁, hins₂⟩
  exact ⟨_, _, (enter_eq_ok (c := infinityTransfer (1, 2) (3, 4))).mpr
    ⟨fun _ => rfl, heff⟩⟩

/-- A run of one transfer there: its two nullifiers are on the list of the
first epoch. -/
theorem spent_eq_listed_one :
    ∃ c, CallStack.Reachable (machine wiredPool) (KeepsManager 20) wiredWorld c
      ∧ acceptedNullifiers c.now.trace = [1, 2]
      ∧ EpochManager.listed c.now.state.others.1 = [1, 2]
      ∧ ∀ e, (c.now.state.others.1.epochs e).nullifierCount
          = (c.now.state.others.1.epochNullifiers e).length := by
  obtain ⟨w, evs, henter⟩ := exists_wiredTransfer
  have hkeep : KeepsManager 20 wiredWorld (infinityTransfer (1, 2) (3, 4)) :=
    fun _ h => Entry.noConfusion h
  have hreach : CallStack.Reachable (machine wiredPool) (KeepsManager 20) wiredWorld _ :=
    .tail .refl (.call hkeep henter)
  have hdeployed : Deployed wiredPool wiredWorld := ⟨1, 20, 3, 4, 5, 0, rfl⟩
  have hwired : wiredWorld.pool.epochManager = 20 := rfl
  have hmanager : (20 : Address) ≠ 0 := by decide
  obtain ⟨hlisted, -, hcount, -⟩ := spent_eq_listed hmanager hdeployed hwired
    wiredManager_setUpFor hreach
  have htwo : acceptedNullifiers [.entered (infinityTransfer (1, 2) (3, 4)) evs] = [1, 2] :=
    rfl
  exact ⟨_, hreach, htwo, hlisted.trans htwo, hcount⟩

end PrivacyPool
