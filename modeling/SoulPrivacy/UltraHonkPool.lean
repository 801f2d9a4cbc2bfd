import SoulPrivacy.PoolSolvency
import SoulPrivacy.UltraHonkVerifier

/-!
# A pool on the UltraHonk verifier

A pool moves notes only with proofs that its verifier accepts, and the verifier of a pool
is set at its construction. Where it is the UltraHonk verifier, which accepts none, the
pool takes in and gives nothing out: no nullifier is ever spent, and what deposits and
reveals credited to the notes stays credited (`locked_of_reachable`). The only ether that
comes back is that of commits that were never revealed.

That holds at every point of every run, with any nesting of calls, and however governance
changes the verifier, the pool and the contracts around it in between.
-/

namespace PrivacyPool

variable {X : Type} {E : Interfaces X}

variable (E) in
/-- **The verifier of the pool accepts no proof**, whatever state it is in. -/
structure Refuses : Prop where
  transfer : ∀ x proof inputs, E.verifyTransferProof x proof inputs ≠ some true
  withdraw : ∀ x proof inputs, E.verifyWithdrawProof x proof inputs ≠ some true

/-- The entry points that need a proof. -/
def Entry.proves : Entry → Bool
  | .transfer .. => true
  | .withdraw .. => true
  | _ => false

/-- The receipts of the other entry points. -/
def Proofless : CallStack.Receipt Call Cont Event → Prop
  | .entered c _ => c.entry.proves = false
  | .resumed k _ => ∃ payee refundValue, k = .reclaim payee refundValue

/-- **A call that went through needed no proof** and spent nothing, and what it hands over
is a refund. -/
theorem Effect.proofless (hE : Refuses E) {msg : Msg} {w w' : World X} {entry : Entry}
    {evs : List Event} {k : Option Cont} (h : Effect E msg w entry w' evs k) :
    entry.proves = false ∧ w'.pool.nullifierSpent = w.pool.nullifierSpent ∧
      ∀ k' ∈ k, ∃ payee refundValue, k' = .reclaim payee refundValue := by
  cases h
  case transfer verified _ => exact absurd verified (hE.transfer _ _ _)
  case withdraw verified _ _ => exact absurd verified (hE.withdraw _ _ _)
  case reclaimExpiredCommit =>
    refine ⟨rfl, rfl, fun k' hk => ?_⟩
    exact ⟨_, _, (Option.some.inj hk).symm⟩
  all_goals exact ⟨rfl, rfl, fun _ hk => absurd hk (Option.not_mem_none _)⟩

/-- **What stays true of such a pool**: nothing is spent, the trace has no receipt of a
proof, and the open handovers are refunds. -/
structure TakesIn (ks : List Cont) (p : Point X) : Prop where
  unspent : ∀ nullifier, p.state.pool.nullifierSpent nullifier = false
  proofless : ∀ receipt ∈ p.trace, Proofless receipt
  refunds : ∀ k ∈ ks, ∃ payee refundValue, k = .reclaim payee refundValue

theorem TakesIn.enter (hE : Refuses E) {ks : List Cont} {p : Point X} (hp : TakesIn ks p)
    {c : Call} {w' : World X} {evs : List Event} {k : Option Cont}
    (h : enter E c p.state = .ok (w', evs, k)) :
    TakesIn (k.toList ++ ks) (⟨w', p.trace ++ [.entered c evs]⟩ : Point X) := by
  obtain ⟨hentry, hspent, hk⟩ := (enter_effect h).2.proofless hE
  refine ⟨fun nullifier => ?_, fun receipt hmem => ?_, fun k' hmem => ?_⟩
  · show w'.pool.nullifierSpent nullifier = false
    rw [hspent]
    exact hp.unspent nullifier
  · rcases List.mem_append.mp hmem with hold | hnew
    · exact hp.proofless receipt hold
    · rw [List.mem_singleton.mp hnew]
      exact hentry
  · rcases List.mem_append.mp hmem with hnew | hold
    · exact hk k' (Option.mem_toList.mp hnew)
    · exact hp.refunds k' hold

theorem TakesIn.resume {ks : List Cont} {p : Point X} {k : Cont} (hp : TakesIn (k :: ks) p)
    {success : Bool} {w' : World X} {evs : List Event}
    (h : resume k success p.state = .ok (w', evs)) :
    TakesIn ks (⟨w', p.trace ++ [.resumed k evs]⟩ : Point X) := by
  obtain ⟨-, rfl⟩ := resume_eq_ok h
  refine ⟨hp.unspent, fun receipt hmem => ?_,
    fun k' hk => hp.refunds k' (List.mem_cons_of_mem _ hk)⟩
  rcases List.mem_append.mp hmem with hold | hnew
  · exact hp.proofless receipt hold
  · rw [List.mem_singleton.mp hnew]
    exact hp.refunds k List.mem_cons_self

/-- **… whatever the payees do.** -/
theorem takesIn_invariant (hE : Refuses E) :
    CallStack.Invariant (machine E) (fun _ _ => True) TakesIn (fun k ks p => TakesIn (k :: ks) p)
    where
  enter_done hp _ h := hp.enter hE h
  enter_send hp _ h := hp.enter hE h
  send hp h := by
    obtain ⟨-, rfl⟩ := send_eq_some h
    exact ⟨hp.unspent, hp.proofless, hp.refunds⟩
  resume_true hp h := hp.resume h
  resume_false hp h := hp.resume h
  outside := by
    rintro ks p s' hp ⟨-, -, hpool, -⟩
    exact ⟨hpool ▸ hp.unspent, hp.proofless, hp.refunds⟩
  tick := by
    rintro p s' hp ⟨-, -, hpool, -⟩
    exact ⟨hpool ▸ hp.unspent, hp.proofless, hp.refunds⟩

/-- A trace without proofs debits nothing. -/
theorem debited_eq_zero {trace : List (CallStack.Receipt Call Cont Event)}
    (h : ∀ receipt ∈ trace, Proofless receipt) : debited trace = 0 := by
  refine List.sum_eq_zero (fun v hv => ?_)
  obtain ⟨receipt, hmem, rfl⟩ := List.mem_map.mp hv
  cases receipt with
  | resumed k evs => rfl
  | entered c evs =>
    have hentry := h _ hmem
    obtain ⟨msg, entry⟩ := c
    cases entry
    case withdraw => cases hentry
    all_goals rfl

/-! ## The UltraHonk verifier -/

open Halo2SnarkVerifier (Precompiles bn254)

/-- **The verifier of the pool is the UltraHonk verifier**, whose storage is part of the
state of the other contracts. -/
structure OnUltraHonk (P : Precompiles) (honk : X → UltraHonkVerifier.Storage)
    (E : Interfaces X) : Prop where
  transfer : ∀ x proof inputs, E.verifyTransferProof x proof inputs
    = (UltraHonkVerifier.verifyTransferProof P (honk x) proof inputs).toOption
  withdraw : ∀ x proof inputs, E.verifyWithdrawProof x proof inputs
    = (UltraHonkVerifier.verifyWithdrawProof P (honk x) proof inputs).toOption

variable {GT : Type} [CommGroup GT] [DecidableEq GT]

theorem OnUltraHonk.refuses {e : Bn254.G1 →+ Bn254.G2 →+ Additive GT}
    {honk : X → UltraHonkVerifier.Storage} (hE : OnUltraHonk (bn254 e) honk E) : Refuses E := by
  have hnever : ∀ circuit s proof inputs,
      (UltraHonkVerifier.verifyProof (bn254 e) circuit s proof inputs).toOption ≠ some true := by
    intro circuit s proof inputs h
    cases hverdict : UltraHonkVerifier.verifyProof (bn254 e) circuit s proof inputs with
    | error err =>
      rw [hverdict] at h
      cases h
    | ok b =>
      rw [hverdict] at h
      obtain rfl : b = true := Option.some.inj h
      exact UltraHonkVerifier.verifyProof_ne_true e circuit s proof inputs hverdict
  refine ⟨fun x proof inputs => ?_, fun x proof inputs => ?_⟩
  · rw [hE.transfer]
    exact hnever .transfer _ _ _
  · rw [hE.withdraw]
    exact hnever .withdraw _ _ _

/-- **A pool on the UltraHonk verifier never gives a note's value back.** At every point of
every run no nullifier is spent, no transfer or withdrawal has gone through, `poolBalance`
is all that deposits and reveals ever credited, and the ether for it is there. -/
theorem locked_of_reachable {e : Bn254.G1 →+ Bn254.G2 →+ Additive GT}
    {honk : X → UltraHonkVerifier.Storage} (hE : OnUltraHonk (bn254 e) honk E) {w₀ : World X}
    (hdeployed : Deployed E w₀)
    {c : CallStack.Config (World X) (CallStack.Receipt Call Cont Event) Cont}
    (hreach : CallStack.Reachable (machine E) (fun _ _ => True) w₀ c) :
    (∀ nullifier, c.now.state.pool.nullifierSpent nullifier = false)
      ∧ (∀ receipt ∈ c.now.trace, Proofless receipt)
      ∧ c.now.state.pool.poolBalance.toNat = credited c.now.trace
      ∧ credited c.now.trace + pendingTotal c.now.state.pool.pendingCommits
          ≤ c.now.state.balance := by
  have hsolvent := (solvent_invariant E).holds (Solvent.init hdeployed) hreach
  have hinit : TakesIn [] (⟨w₀, []⟩ : Point X) := by
    obtain ⟨_, _, _, _, _, _, hpool⟩ := hdeployed
    refine ⟨fun nullifier => ?_, fun _ h => absurd h List.not_mem_nil,
      fun _ h => absurd h List.not_mem_nil⟩
    show w₀.pool.nullifierSpent nullifier = false
    rw [hpool]
    rfl
  have htakes := (takesIn_invariant hE.refuses).holds hinit hreach
  have hbooked : c.now.state.pool.poolBalance.toNat = credited c.now.trace := by
    rw [← hsolvent.booked, debited_eq_zero htakes.proofless, Nat.add_zero]
  refine ⟨htakes.unspent, htakes.proofless, hbooked, ?_⟩
  rw [← hbooked]
  exact hsolvent.covered

/-- Surroundings that allow everything but what the UltraHonk verifier decides. -/
def onUltraHonk (P : Precompiles) : Interfaces UltraHonkVerifier.Storage :=
  { permissive UltraHonkVerifier.Storage with
    verifyTransferProof := fun x proof inputs =>
      (UltraHonkVerifier.verifyTransferProof P x proof inputs).toOption
    verifyWithdrawProof := fun x proof inputs =>
      (UltraHonkVerifier.verifyWithdrawProof P x proof inputs).toOption }

/-- A deposit of 5, while a commit of 7 is pending. -/
theorem locked_deposit :
    (5 : Uint256).toNat + (7 : Uint256).toNat = 12 ∧
      ∀ (GT : Type) [CommGroup GT] [DecidableEq GT]
        (e : Bn254.G1 →+ Bn254.G2 →+ Additive GT),
        ∃ w₀ : World UltraHonkVerifier.Storage, ∃ c,
          CallStack.Reachable (machine (onUltraHonk (bn254 e))) (fun _ _ => True) w₀ c
          ∧ c.now.trace.length = 2
          ∧ c.now.state.pool.nullifierSpent 9 = false
          ∧ c.now.state.pool.poolBalance.toNat = credited c.now.trace
          ∧ credited c.now.trace + pendingTotal c.now.state.pool.pendingCommits
            ≤ c.now.state.balance := by
  refine ⟨rfl, fun GT _ _ e => ?_⟩
  let w₀ : World UltraHonkVerifier.Storage :=
    ⟨⟨0, 0⟩, 0, construct (permissive Unit).hash 1 2 3 4 5 0, UltraHonkVerifier.construct 1⟩
  let commit : Call := ⟨⟨1, 7, by decide⟩, .commitDeposit 77⟩
  let deposit : Call := ⟨⟨1, 5, by decide⟩, .deposit 21 5⟩
  have hdep : Deployed (onUltraHonk (bn254 e)) w₀ := ⟨1, 2, 3, 4, 5, 0, rfl⟩
  have hreach : ∃ c, CallStack.Reachable (machine (onUltraHonk (bn254 e))) (fun _ _ => True) w₀ c
      ∧ c.now.trace.length = 2 := by
    exact ⟨_, .tail (.tail .refl (.call (c := commit) trivial rfl))
      (.call (c := deposit) trivial rfl), rfl⟩
  obtain ⟨c, hreach, htrace⟩ := hreach
  have hon : OnUltraHonk (bn254 e) id (onUltraHonk (bn254 e)) :=
    ⟨fun _ _ _ => rfl, fun _ _ _ => rfl⟩
  obtain ⟨hspent, -, hbooked, hcovered⟩ := locked_of_reachable hon hdep hreach
  exact ⟨w₀, c, hreach, htrace, hspent 9, hbooked, hcovered⟩

end PrivacyPool
