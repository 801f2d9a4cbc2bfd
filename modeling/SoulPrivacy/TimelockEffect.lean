import SoulPrivacy.GovernanceTimelock

/-!
# What a successful call of the timelock did

`Effect` lists, entry point by entry point, what a call that did not revert
says: the guards that did not fire, the storage it left, and the call it is
about to make. `enter_effect` is the inversion of the entry points, and the
only place where their bodies are unfolded.

Of the guards of `executeTransaction` those on the marks `executed` and
`cancelled` are not among the facts kept: what is queued has neither mark.
-/

namespace GovernanceTimelock

open SelfCall (Msg Outgoing)

/-- The hash of a transaction in a deployment. -/
abbrev Deployment.hash (d : Deployment) (tx : Transaction) : Bytes32 :=
  computeTxHash d.keccak256 tx

/-- **What a successful call did.** -/
inductive Effect (d : Deployment) (msg : Msg) (s : Storage) :
    Entry → Storage → Option (Outgoing Transaction) → Prop
  | queueTransaction {tx : Transaction} (auth : msg.sender = s.admin)
      (late : msg.timestamp.toNat + s.delay.toNat ≤ tx.eta.toNat)
      (new : s.isQueued (d.hash tx) = false) :
      Effect d msg s (.queueTransaction tx)
        { s with
          queuedTransactions := Function.update s.queuedTransactions (d.hash tx)
            ⟨tx, false, false⟩
          isQueued := Function.update s.isQueued (d.hash tx) true } none
  | executeTransaction {tx : Transaction} (auth : msg.sender = s.admin)
      (queued : s.isQueued (d.hash tx) = true)
      (ready : (s.queuedTransactions (d.hash tx)).eta.toNat ≤ msg.timestamp.toNat)
      (fresh : msg.timestamp.toNat
        ≤ (s.queuedTransactions (d.hash tx)).eta.toNat + GRACE_PERIOD.toNat) :
      Effect d msg s (.executeTransaction tx)
        { s with
          queuedTransactions := Function.update s.queuedTransactions (d.hash tx)
            { s.queuedTransactions (d.hash tx) with executed := true }
          isQueued := Function.update s.isQueued (d.hash tx) false }
        (some ⟨tx.target, tx.value, tx.data, tx⟩)
  | cancelTransaction {tx : Transaction} (auth : msg.sender = s.admin)
      (queued : s.isQueued (d.hash tx) = true) :
      Effect d msg s (.cancelTransaction tx)
        { s with
          queuedTransactions := Function.update s.queuedTransactions (d.hash tx)
            { s.queuedTransactions (d.hash tx) with cancelled := true }
          isQueued := Function.update s.isQueued (d.hash tx) false } none
  | setPendingAdmin {pendingAdmin : Address} (own : msg.sender = d.self) :
      Effect d msg s (.setPendingAdmin pendingAdmin) { s with pendingAdmin } none
  | acceptAdmin (nominee : msg.sender = s.pendingAdmin) :
      Effect d msg s .acceptAdmin { s with admin := s.pendingAdmin, pendingAdmin := 0 } none
  | setDelay {delay : Uint256} (own : msg.sender = d.self) (ge : MINIMUM_DELAY ≤ delay)
      (le : delay ≤ MAXIMUM_DELAY) :
      Effect d msg s (.setDelay delay) { s with delay } none
  | receive : Effect d msg s .receive s none

/-! ## Inverting the entry points -/

section Inversion

variable {d : Deployment} {msg : Msg} {s s' : Storage} {evs : List Event}
variable {out : Option (Outgoing Transaction)}

theorem onlyAdmin_eq_ok {u : Unit} : onlyAdmin msg s = .ok u ↔ msg.sender = s.admin := by
  simp [onlyAdmin]

theorem onlyTimelock_eq_ok {self : Address} {u : Unit} :
    onlyTimelock self msg = .ok u ↔ msg.sender = self := by
  simp [onlyTimelock]

theorem checkDelay_eq_ok {delay : Uint256} {u : Unit} :
    checkDelay delay = .ok u ↔ MINIMUM_DELAY ≤ delay ∧ delay ≤ MAXIMUM_DELAY := by
  simp [checkDelay]

theorem nonPayable_eq_ok {body : Except Error Outcome} {r : Outcome}
    (h : nonPayable msg body = .ok r) : body = .ok r :=
  ((revertIf_bind_eq_ok _ _ _ _).mp h).2

theorem queueTransaction_effect {tx : Transaction}
    (h : queueTransaction d.keccak256 msg s tx = .ok (s', evs, out)) :
    Effect d msg s (.queueTransaction tx) s' out := by
  unfold queueTransaction at h
  obtain ⟨hadmin, h⟩ := (Except.unit_bind_eq_ok _ _ _).mp h
  obtain ⟨earliest, hsum, h⟩ := (Except.bind_eq_ok _ _ _).mp h
  obtain ⟨hlate, h⟩ := (revertIf_bind_eq_ok _ _ _ _).mp h
  obtain ⟨hnew, h⟩ := (revertIf_bind_eq_ok _ _ _ _).mp h
  cases h
  refine .queueTransaction (onlyAdmin_eq_ok.mp hadmin) ?_ (Bool.not_eq_true _ ▸ hnew)
  rw [← toNat_of_checkedAdd hsum]
  exact BitVec.le_def.mp (BitVec.not_lt.mp hlate)

theorem executeTransaction_effect {tx : Transaction}
    (h : executeTransaction d.keccak256 msg s tx = .ok (s', evs, out)) :
    Effect d msg s (.executeTransaction tx) s' out := by
  unfold executeTransaction at h
  obtain ⟨hadmin, h⟩ := (Except.unit_bind_eq_ok _ _ _).mp h
  obtain ⟨hqueued, h⟩ := (revertIf_bind_eq_ok _ _ _ _).mp h
  obtain ⟨-, h⟩ := (revertIf_bind_eq_ok _ _ _ _).mp h
  obtain ⟨-, h⟩ := (revertIf_bind_eq_ok _ _ _ _).mp h
  obtain ⟨hready, h⟩ := (revertIf_bind_eq_ok _ _ _ _).mp h
  obtain ⟨latest, hsum, h⟩ := (Except.bind_eq_ok _ _ _).mp h
  obtain ⟨hfresh, h⟩ := (revertIf_bind_eq_ok _ _ _ _).mp h
  cases h
  refine .executeTransaction (onlyAdmin_eq_ok.mp hadmin) (Bool.not_eq_false _ ▸ hqueued)
    (BitVec.le_def.mp (BitVec.not_lt.mp hready)) ?_
  rw [← toNat_of_checkedAdd hsum]
  exact BitVec.le_def.mp (BitVec.not_lt.mp hfresh)

theorem cancelTransaction_effect {tx : Transaction}
    (h : cancelTransaction d.keccak256 msg s tx = .ok (s', evs, out)) :
    Effect d msg s (.cancelTransaction tx) s' out := by
  unfold cancelTransaction at h
  obtain ⟨hadmin, h⟩ := (Except.unit_bind_eq_ok _ _ _).mp h
  obtain ⟨hqueued, h⟩ := (revertIf_bind_eq_ok _ _ _ _).mp h
  cases h
  exact .cancelTransaction (onlyAdmin_eq_ok.mp hadmin) (Bool.not_eq_false _ ▸ hqueued)

theorem setPendingAdmin_effect {pendingAdmin : Address}
    (h : setPendingAdmin d.self msg s pendingAdmin = .ok (s', evs, out)) :
    Effect d msg s (.setPendingAdmin pendingAdmin) s' out := by
  unfold setPendingAdmin at h
  obtain ⟨hself, h⟩ := (Except.unit_bind_eq_ok _ _ _).mp h
  cases h
  exact .setPendingAdmin (onlyTimelock_eq_ok.mp hself)

theorem acceptAdmin_effect (h : acceptAdmin msg s = .ok (s', evs, out)) :
    Effect d msg s .acceptAdmin s' out := by
  unfold acceptAdmin at h
  obtain ⟨hnominee, h⟩ := (revertIf_bind_eq_ok _ _ _ _).mp h
  cases h
  exact .acceptAdmin (not_not.mp hnominee)

theorem setDelay_effect {delay : Uint256}
    (h : setDelay d.self msg s delay = .ok (s', evs, out)) :
    Effect d msg s (.setDelay delay) s' out := by
  unfold setDelay at h
  obtain ⟨hself, h⟩ := (Except.unit_bind_eq_ok _ _ _).mp h
  obtain ⟨hdelay, h⟩ := (Except.unit_bind_eq_ok _ _ _).mp h
  cases h
  obtain ⟨hge, hle⟩ := checkDelay_eq_ok.mp hdelay
  exact .setDelay (onlyTimelock_eq_ok.mp hself) hge hle

/-- **The inversion of a call.** -/
theorem enter_effect {entry : Entry} (h : enter d msg entry s = .ok (s', evs, out)) :
    Effect d msg s entry s' out := by
  cases entry with
  | queueTransaction => exact queueTransaction_effect (nonPayable_eq_ok h)
  | executeTransaction => exact executeTransaction_effect (nonPayable_eq_ok h)
  | cancelTransaction => exact cancelTransaction_effect (nonPayable_eq_ok h)
  | setPendingAdmin => exact setPendingAdmin_effect (nonPayable_eq_ok h)
  | acceptAdmin => exact acceptAdmin_effect (nonPayable_eq_ok h)
  | setDelay => exact setDelay_effect (nonPayable_eq_ok h)
  | receive =>
    cases h
    exact .receive

end Inversion

end GovernanceTimelock
