import SoulPrivacy.MultiSigStranded

/-!
# What the trace tells of the wallet

Who the owners are can be read off the trace of a wallet (`ownersAfter`). And each
confirmation that counts is in it: as a call of the account it is counted for, which was
an owner at that time (`SignedBy`). So behind a proposal that may be performed there are
as many signatures of owners in the trace as it requires (`Recorded.exists_signers`), and
what was performed once is not open again (`Recorded.performed`).
-/

namespace MultiSigGovernance

open SelfCall (Msg Call Outgoing Cont)

/-- What is in effect, one part of a call. -/
abbrev Receipt := SelfCall.Receipt Entry Uint256 Event

/-! ## Reading the trace -/

/-- Who the owners are after a receipt, … -/
def ownersBy (isOwner : Address → Bool) : Receipt → Address → Bool
  | .entered ⟨_, .addOwner owner⟩ _ => Function.update isOwner owner true
  | .entered ⟨_, .removeOwner owner⟩ _ => Function.update isOwner owner false
  | _ => isOwner

/-- … and after a trace, when `first` were the first ones. -/
def ownersAfter (first : Address → Bool) (trace : List Receipt) : Address → Bool :=
  trace.foldl ownersBy first

theorem ownersAfter_concat (first : Address → Bool) (trace : List Receipt) (r : Receipt) :
    ownersAfter first (trace ++ [r]) = ownersBy (ownersAfter first trace) r := by
  unfold ownersAfter
  rw [List.foldl_append]
  rfl

/-- A receipt in which an account confirms a proposal, by itself or by submitting it. -/
def Signs (id : Uint256) (a : Address) (r : Receipt) : Prop :=
  ∃ msg entry evs, r = .entered ⟨msg, entry⟩ evs ∧ msg.sender = a
    ∧ .proposalConfirmed id a ∈ evs

/-- **An account signed a proposal, as an owner.** -/
def SignedBy (first : Address → Bool) (trace : List Receipt) (id : Uint256) (a : Address) :
    Prop :=
  ∃ early r late, trace = early ++ r :: late ∧ Signs id a r ∧ ownersAfter first early a = true

theorem SignedBy.concat {first : Address → Bool} {trace : List Receipt} {id : Uint256}
    {a : Address} (h : SignedBy first trace id a) (r : Receipt) :
    SignedBy first (trace ++ [r]) id a := by
  obtain ⟨early, r', late, rfl, hsigns, howner⟩ := h
  refine ⟨early, r', late ++ [r], ?_, hsigns, howner⟩
  rw [List.append_assoc, List.cons_append]

/-! ## The invariant -/

/-- **The trace tells what the wallet holds.** -/
structure Recorded (first : Address → Bool) (s : Storage) (trace : List Receipt) : Prop where
  owners : s.isOwner = ownersAfter first trace
  signed : ∀ id a, s.hasConfirmed id a = true → SignedBy first trace id a
  required : ∀ id, id < s.proposalCount → 1 ≤ (s.proposals id).requiredThreshold.toNat
  performed : ∀ msg id evs, .entered ⟨msg, .executeProposal id⟩ evs ∈ trace →
    (s.proposals id).executed = true

section Step

variable {self : Address} {msg : Msg} {s s' : Storage} {entry : Entry} {evs : List Event}
variable {out : Option (Outgoing Uint256)} {first : Address → Bool} {trace : List Receipt}

/-- **The wallet makes a call only in performing a proposal.** -/
theorem Effect.performs_of_call {call : Outgoing Uint256}
    (h : Effect self msg s entry s' (some call)) :
    ∃ id, entry = .executeProposal id ∧ Open s id
      ∧ (s.proposals id).requiredThreshold ≤ (s.proposals id).confirmationCount
      ∧ call = ⟨(s.proposals id).target, (s.proposals id).value, (s.proposals id).data, id⟩ := by
  cases h
  case executeProposal id owner isOpen enough => exact ⟨id, rfl, isOpen, enough, rfl⟩

/-- Who the owners are, after a call. -/
theorem Effect.owners_eq (h : Effect self msg s entry s' out) (evs : List Event) :
    s'.isOwner = ownersBy s.isOwner (.entered ⟨msg, entry⟩ evs) := by
  cases h <;> rfl

/-- What submitting a proposal announces, … -/
theorem mem_of_submitProposal {target : Address} {value : Uint256} {data : Bytes}
    (h : enter self msg (.submitProposal target value data) s = .ok (s', evs, out)) :
    .proposalConfirmed s.proposalCount msg.sender ∈ evs := by
  unfold enter submitProposal at h
  obtain ⟨-, h⟩ := (Except.unit_bind_eq_ok _ _ _).mp (nonPayable_eq_ok h)
  obtain ⟨count, -, h⟩ := (Except.bind_eq_ok _ _ _).mp h
  cases h
  exact List.mem_cons_of_mem _ (List.mem_singleton_self _)

/-- … and confirming one. -/
theorem mem_of_confirmProposal {id : Uint256}
    (h : enter self msg (.confirmProposal id) s = .ok (s', evs, out)) :
    .proposalConfirmed id msg.sender ∈ evs := by
  unfold enter confirmProposal at h
  obtain ⟨-, -, h⟩ := onOpen_eq_ok (nonPayable_eq_ok h)
  obtain ⟨-, h⟩ := (revertIf_bind_eq_ok _ _ _ _).mp h
  obtain ⟨count, -, h⟩ := (Except.bind_eq_ok _ _ _).mp h
  cases h
  exact List.mem_singleton_self _

/-- **A confirmation that is there after a call** was there before, or the call is one of
the account, which is an owner, and says so. -/
theorem confirmed_of_enter (h : enter self msg entry s = .ok (s', evs, out)) {id : Uint256}
    {a : Address} (ha : s'.hasConfirmed id a = true) :
    s.hasConfirmed id a = true ∨
      (msg.sender = a ∧ s.isOwner a = true ∧ .proposalConfirmed id a ∈ evs) := by
  have heff := enter_effect h
  cases heff
  case submitProposal target value data owner room =>
    obtain hold | ⟨rfl, rfl⟩ := of_setConfirmed ha
    · exact .inl hold
    · exact .inr ⟨rfl, owner, mem_of_submitProposal h⟩
  case confirmProposal id' owner isOpen new room =>
    obtain hold | ⟨rfl, rfl⟩ := of_setConfirmed ha
    · exact .inl hold
    · exact .inr ⟨rfl, owner, mem_of_confirmProposal h⟩
  case revokeConfirmation id' owner isOpen given positive =>
    obtain hold | ⟨rfl, rfl⟩ := of_setConfirmed ha
    · exact .inl hold
    · exact .inl given
  all_goals exact .inl ha

/-- What is performed stays so. -/
theorem Effect.executed_of_executed (h : Effect self msg s entry s' out) (hs : Tallied s)
    {id : Uint256} (hexecuted : (s.proposals id).executed = true) :
    (s'.proposals id).executed = true := by
  by_contra hpending
  have hsum := h.executions_eq hs id
  rw [executions_of_pending (Bool.eq_false_of_not_eq_true hpending), Storage.executions,
    if_pos hexecuted] at hsum
  omega

/-- A proposal requires what the threshold was, and the threshold is never zero. -/
theorem Effect.required (h : Effect self msg s entry s' out) (hs : WellFormed s)
    (hrequired : ∀ id, id < s.proposalCount → 1 ≤ (s.proposals id).requiredThreshold.toNat)
    {id : Uint256} (hlt : id < s'.proposalCount) :
    1 ≤ (s'.proposals id).requiredThreshold.toNat := by
  by_cases hold : id < s.proposalCount
  · rw [h.requiredThreshold_eq hold]
    exact hrequired id hold
  · cases h
    case submitProposal target value data owner room =>
      have hnew : id = s.proposalCount := by
        have hlt' : id.toNat < (s.proposalCount + 1).toNat := BitVec.lt_def.mp hlt
        rw [toNat_add_one room] at hlt'
        have hge : s.proposalCount.toNat ≤ id.toNat := BitVec.le_def.mp (BitVec.not_lt.mp hold)
        exact BitVec.eq_of_toNat_eq (Nat.le_antisymm (Nat.le_of_lt_succ hlt') hge)
      subst hnew
      dsimp only
      rw [Function.update_self]
      exact hs.threshold.pos
    all_goals exact absurd hlt hold

/-- **A call is recorded.** -/
theorem Recorded.entered (hr : Recorded first s trace) (hs : WellFormed s)
    (h : enter self msg entry s = .ok (s', evs, out)) :
    Recorded first s' (trace ++ [.entered ⟨msg, entry⟩ evs]) where
  owners := by rw [ownersAfter_concat, ← hr.owners, (enter_effect h).owners_eq evs]
  signed id a ha := by
    obtain hold | ⟨hsender, howner, hevent⟩ := confirmed_of_enter h ha
    · exact (hr.signed id a hold).concat _
    · exact ⟨trace, _, [], rfl, ⟨msg, entry, evs, rfl, hsender, hevent⟩, hr.owners ▸ howner⟩
  required _ hlt := (enter_effect h).required hs hr.required hlt
  performed msg' id evs' hmem := by
    obtain hold | hnew := List.mem_append.mp hmem
    · exact (enter_effect h).executed_of_executed hs.tallied (hr.performed msg' id evs' hold)
    · cases List.mem_singleton.mp hnew
      have heff := enter_effect h
      cases heff
      case executeProposal owner isOpen enough =>
        dsimp only
        rw [Function.update_self]

end Step

/-- The end of an entry point records nothing. -/
theorem Recorded.resumed {first : Address → Bool} {s : Storage} {trace : List Receipt}
    (hr : Recorded first s trace) (k : Cont Uint256) (evs : List Event) :
    Recorded first s (trace ++ [.resumed k evs]) where
  owners := by
    rw [ownersAfter_concat, ← hr.owners]
    rfl
  signed id a ha := (hr.signed id a ha).concat _
  required := hr.required
  performed msg' id evs' hmem := by
    obtain hold | hnew := List.mem_append.mp hmem
    · exact hr.performed msg' id evs' hold
    · cases List.mem_singleton.mp hnew

/-! ## Over whole runs -/

theorem recorded_keeps (d : Deployment) (first : Address → Bool) :
    SelfCall.Keeps (body d) (fun _ _ => True)
      (fun _ _ s _ trace => WellFormed s ∧ Recorded first s trace) where
  enter h _ _ _ he := ⟨(enter_effect he).wellFormed h.1, h.2.entered h.1 he⟩
  enterCall h _ _ _ he _ := ⟨(enter_effect he).wellFormed h.1, h.2.entered h.1 he⟩
  finish h hf := by
    cases hf
    exact ⟨h.1, h.2.resumed _ _⟩
  tick h _ := h

/-- A new wallet has nothing to record. -/
theorem recorded_of_constructor {owners : List Address} {threshold : Uint256} {s : Storage}
    (h : constructor owners threshold = .ok s) :
    WellFormed s ∧ Recorded s.isOwner s [] := by
  obtain ⟨hwf, hproposals, hcount⟩ := constructor_spec h
  refine ⟨hwf, rfl, fun id a ha => ?_, fun id hlt => ?_, fun _ _ _ hmem => ?_⟩
  · rw [(hwf.tallied.fresh id (hcount ▸ BitVec.le_def.mpr (Nat.zero_le _))).2] at ha
    cases ha
  · rw [hcount] at hlt
    exact absurd (BitVec.lt_def.mp hlt) (Nat.not_lt_zero _)
  · exact absurd hmem List.not_mem_nil

/-- **Behind a proposal that has its count** there are as many owners' signatures in the
trace as it requires. -/
theorem Recorded.exists_signers {first : Address → Bool} {s : Storage} {trace : List Receipt}
    (hr : Recorded first s trace) (hs : WellFormed s) {id : Uint256}
    (henough : (s.proposals id).requiredThreshold ≤ (s.proposals id).confirmationCount) :
    ∃ signers : Finset Address, (s.proposals id).requiredThreshold.toNat ≤ signers.card
      ∧ ∀ a ∈ signers, SignedBy first trace id a := by
  refine ⟨(finite_confirmers s id).toFinset, ?_, fun a ha => ?_⟩
  · rw [← Set.ncard_eq_toFinset_card _ (finite_confirmers s id), ← hs.tallied.count_eq id]
    exact BitVec.le_def.mp henough
  · exact hr.signed id a ((finite_confirmers s id).mem_toFinset.mp ha)

end MultiSigGovernance
