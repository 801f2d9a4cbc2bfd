import SoulPrivacy.MultiSigWellFormed

/-!
# Whose confirmations are counted

A confirmation is counted when it is given, and stays counted when the
owner who gave it is removed. So the counter of a proposal is the number of
the current owners that have confirmed it (`quorum`) and of the former ones
(`former`), and a proposal is performed with as many current owners behind
it as it requires exactly when the former ones are not needed
(`quorum_iff`).

Former owners come from `removeOwner`, and only where the owner that leaves
has a standing confirmation of a proposal that is still open. **In a run
without such a removal the current owners are a quorum whenever a proposal
is performed** (`quorum_of_current_owners`). With one, a single owner can
be enough where two are required (`former_owner_counts`).
-/

namespace MultiSigGovernance

open SelfCall (Msg Call Outgoing Cont)

/-! ## Current and former owners -/

/-- The current owners with a standing confirmation of a proposal. -/
def quorum (s : Storage) (id : Uint256) : ℕ :=
  (s.owners.filter (s.hasConfirmed id)).length

/-- The confirmations of addresses that are no longer owners. -/
def former (s : Storage) (id : Uint256) : Set Address :=
  {a | s.hasConfirmed id a = true ∧ s.isOwner a = false}

theorem finite_former (s : Storage) (id : Uint256) : (former s id).Finite :=
  (finite_confirmers s id).subset (fun _ ha => ha.1)

/-- **What the counter counts**: the current owners and the former ones. -/
theorem count_eq_quorum_add_former {s : Storage} (hs : WellFormed s) (id : Uint256) :
    (s.proposals id).confirmationCount.toNat = quorum s id + (former s id).ncard := by
  have hcurrent : {a | a ∈ s.owners.filter (s.hasConfirmed id)}.ncard = quorum s id := by
    rw [← List.coe_toFinset, Set.ncard_coe_finset,
      List.toFinset_card_of_nodup (hs.members.nodup.filter _)]
    rfl
  have hsplit : confirmers s id
      = {a | a ∈ s.owners.filter (s.hasConfirmed id)} ∪ former s id := by
    ext a
    simp only [confirmers, former, Set.mem_union, Set.mem_ofPred_eq, List.mem_filter]
    rw [← hs.members.isOwner_iff, ← Bool.not_eq_true]
    tauto
  have hdisjoint : Disjoint {a | a ∈ s.owners.filter (s.hasConfirmed id)} (former s id) := by
    refine Set.disjoint_left.mpr (fun a ha hformer => ?_)
    have howner := (hs.members.isOwner_iff a).mpr (List.mem_filter.mp ha).1
    rw [hformer.2] at howner
    cases howner
  rw [hs.tallied.count_eq id, hsplit,
    Set.ncard_union_eq hdisjoint (List.finite_toSet _) (finite_former s id), hcurrent]

/-- **A proposal that may be performed has a quorum of current owners behind
it exactly when it does not need the former ones.** -/
theorem quorum_iff {s : Storage} (hs : WellFormed s) (id : Uint256) :
    (s.proposals id).requiredThreshold.toNat ≤ quorum s id ↔
      (s.proposals id).requiredThreshold.toNat + (former s id).ncard
        ≤ (s.proposals id).confirmationCount.toNat := by
  rw [count_eq_quorum_add_former hs id]
  exact (Nat.add_le_add_iff_right).symm

/-! ## Runs that keep the confirmers -/

/-- **No owner is removed that stands behind an open proposal.** -/
def KeepsConfirmers (s : Storage) (c : Call Entry) : Prop :=
  ∀ owner, c.entry = .removeOwner owner → ∀ id, Open s id →
    s.hasConfirmed id owner = false

/-- Whoever stands behind an open proposal is an owner. -/
def ConfirmedByOwners (s : Storage) : Prop :=
  ∀ id, Open s id → ∀ a, s.hasConfirmed id a = true → s.isOwner a = true

/-- Whoever has confirmed after a confirmation is given or taken back. -/
theorem of_setConfirmed {hasConfirmed : Uint256 → Address → Bool} {id id' : Uint256}
    {owner a : Address} {b : Bool} (h : setConfirmed hasConfirmed id owner b id' a = true) :
    hasConfirmed id' a = true ∨ (id' = id ∧ a = owner) := by
  unfold setConfirmed at h
  by_cases hid : id' = id
  · subst hid
    rw [Function.update_self, Function.update_apply] at h
    split at h
    · rename_i ha
      exact Or.inr ⟨rfl, ha⟩
    · exact Or.inl h
  · rw [Function.update_of_ne hid] at h
    exact Or.inl h

/-- A proposal that is open after a call was open before, or is the one
submitted. -/
theorem Effect.open_of_open {self : Address} {msg : Msg} {s s' : Storage} {entry : Entry}
    {out : Option (Outgoing Uint256)} (h : Effect self msg s entry s' out) (hs : Tallied s)
    {id : Uint256} (ho : Open s' id) :
    Open s id ∨ ((∃ target value data, entry = .submitProposal target value data) ∧
      id = s.proposalCount) := by
  have hexecutions := h.executions_eq hs id
  rw [executions_of_pending ho.pending] at hexecutions
  have hpending : (s.proposals id).executed = false := by
    by_contra hne
    rw [Storage.executions, if_pos (Bool.not_eq_false _ ▸ hne)] at hexecutions
    omega
  cases h
  case submitProposal target value data owner room =>
    by_cases heq : id = s.proposalCount
    · exact Or.inr ⟨⟨target, value, data, rfl⟩, heq⟩
    · have hlt : id.toNat < (s.proposalCount + 1).toNat := BitVec.lt_def.mp ho.lt
      rw [toNat_add_one room] at hlt
      have hne : id.toNat ≠ s.proposalCount.toNat := fun h => heq (BitVec.eq_of_toNat_eq h)
      exact Or.inl ⟨BitVec.lt_def.mpr (by omega), hpending⟩
  all_goals exact Or.inl ⟨ho.lt, hpending⟩

theorem Effect.confirmedByOwners {self : Address} {msg : Msg} {s s' : Storage}
    {entry : Entry} {out : Option (Outgoing Uint256)}
    (h : Effect self msg s entry s' out) (hwf : WellFormed s) (hs : ConfirmedByOwners s)
    (hkeeps : KeepsConfirmers s ⟨msg, entry⟩) : ConfirmedByOwners s' := by
  intro id ho a ha
  have hopen := h.open_of_open hwf.tallied ho
  cases h
  case submitProposal target value data owner room =>
    obtain hold | ⟨rfl, rfl⟩ := of_setConfirmed ha
    · obtain hbefore | ⟨-, rfl⟩ := hopen
      · exact hs id hbefore a hold
      · rw [(hwf.tallied.fresh _ (BitVec.le_refl _)).2] at hold
        cases hold
    · exact owner
  case confirmProposal id' owner isOpen new room =>
    obtain hold | ⟨rfl, rfl⟩ := of_setConfirmed ha
    · exact hs id (hopen.resolve_right (by simp)) a hold
    · exact owner
  case revokeConfirmation id' owner isOpen given positive =>
    obtain hold | ⟨rfl, rfl⟩ := of_setConfirmed ha
    · exact hs id (hopen.resolve_right (by simp)) a hold
    · exact owner
  case addOwner owner own owner_ne new room =>
    refine (update_true_eq_true _ _ _).mpr (Or.inl ?_)
    exact hs id (hopen.resolve_right (by simp)) a ha
  case removeOwner owner threshold own member more threshold_eq =>
    have hbefore := hopen.resolve_right (by simp)
    refine update_false_eq_true.mpr ⟨?_, hs id hbefore a ha⟩
    rintro rfl
    rw [show s.hasConfirmed id a = false from hkeeps a rfl id hbefore] at ha
    cases ha
  all_goals exact hs id (hopen.resolve_right (by simp)) a ha

variable (d : Deployment)

theorem confirmedByOwners_keeps :
    SelfCall.Keeps (body d) KeepsConfirmers
      (fun _ _ s _ _ => WellFormed s ∧ ConfirmedByOwners s) where
  enter h _ _ hside he :=
    have heff := enter_effect he
    ⟨heff.wellFormed h.1, heff.confirmedByOwners h.1 h.2 hside⟩
  enterCall h _ _ hside he _ :=
    have heff := enter_effect he
    ⟨heff.wellFormed h.1, heff.confirmedByOwners h.1 h.2 hside⟩
  finish h hf := by
    cases hf
    exact h
  tick h _ := h

/-! ## The quorum of an execution -/

/-- **A proposal is about to be performed**: a call of `executeProposal` that
goes through. -/
def Executes (d : Deployment) (s : SelfCall.State Storage Entry) (id : Uint256) : Prop :=
  ∃ c s' evs k, (body d).Allowed (fun _ _ => True) s c ∧ c.entry = .executeProposal id ∧
    (body d).machine.enter c s = .ok (s', evs, some k)

/-- An execution has the count the proposal requires. -/
theorem Executes.enough {s : SelfCall.State Storage Entry} {id : Uint256}
    (h : Executes d s id) :
    Open s.storage id ∧ (s.storage.proposals id).requiredThreshold.toNat
      ≤ (s.storage.proposals id).confirmationCount.toNat := by
  obtain ⟨⟨msg, entry⟩, ⟨s', balance', now', control'⟩, evs, k, -, hentry, he⟩ := h
  obtain rfl : entry = .executeProposal id := hentry
  obtain ⟨out, henter, -⟩ := SelfCall.Body.enter_eq_ok he
  have heff : Effect d.self msg s.storage (.executeProposal id) s' out := enter_effect henter
  cases heff
  case executeProposal owner isOpen enough => exact ⟨isOpen, BitVec.le_def.mp enough⟩

/-- Any owner but the wallet may perform an open proposal that has its
count. -/
theorem executes_of {s : SelfCall.State Storage Entry} {id : Uint256} {owner : Address}
    (hctl : s.control = .outside) (hne : owner ≠ 0) (hself : owner ≠ d.self)
    (howner : s.storage.isOwner owner = true) (hopen : Open s.storage id)
    (henough : (s.storage.proposals id).requiredThreshold
      ≤ (s.storage.proposals id).confirmationCount) : Executes d s id := by
  have henter : (body d).enter ⟨owner, 0, s.now, hne⟩ (.executeProposal id) s.storage
      = .ok ({ s.storage with
          proposals := Function.update s.storage.proposals id
            { s.storage.proposals id with executed := true } }, [],
        some ⟨(s.storage.proposals id).target, (s.storage.proposals id).value,
          (s.storage.proposals id).data, id⟩) := by
    show nonPayable _ (executeProposal _ _ _) = _
    unfold nonPayable executeProposal onlyOwner proposalExists
    rw [revertIf_bind_of_neg (not_not_intro rfl),
      revertIf_bind_of_neg (Bool.not_eq_false _ ▸ howner),
      revertIf_bind_of_neg (BitVec.not_le.mpr hopen.lt),
      revertIf_bind_of_neg (Bool.not_eq_true _ ▸ hopen.pending),
      revertIf_bind_of_neg (BitVec.not_lt.mpr henough)]
    rfl
  refine ⟨⟨⟨owner, 0, s.now, hne⟩, .executeProposal id⟩, _, _, _, ⟨?_, rfl, trivial⟩, rfl,
    Except.map_eq_ok.mpr ⟨_, henter, rfl⟩⟩
  rw [hctl]
  exact hself

/-- **Whenever a proposal is performed, a quorum of the current owners has
confirmed it**, in every run in which no owner is removed that stands
behind an open proposal. -/
theorem quorum_of_current_owners {c : Config} (h : Reachable d KeepsConfirmers c)
    {id : Uint256} (hexecutes : Executes d c.now.state id) :
    (c.now.state.storage.proposals id).requiredThreshold.toNat
      ≤ quorum c.now.state.storage id := by
  obtain ⟨owners, threshold, s, balance, now, hs, hc⟩ := h
  obtain ⟨hwf₀, -, hcount⟩ := constructor_spec hs
  have hnone : ConfirmedByOwners s := fun id ho => by
    have hlt := ho.lt
    rw [hcount] at hlt
    exact absurd (BitVec.lt_def.mp hlt) (Nat.not_lt_zero _)
  obtain ⟨hwf, hconfirmed⟩ := (confirmedByOwners_keeps d).holds ⟨hwf₀, hnone⟩ hc
  obtain ⟨hopen, henough⟩ := hexecutes.enough
  have hempty : former c.now.state.storage id = ∅ := by
    refine Set.eq_empty_of_forall_notMem (fun a ha => ?_)
    have howner := hconfirmed id hopen a ha.1
    rw [ha.2] at howner
    cases howner
  rw [quorum_iff hwf, hempty, Set.ncard_empty]
  exact henough

/-- Two owners of two, and no removal. -/
theorem quorum_of_current_owners_sample :
    ∃ c, Reachable sample KeepsConfirmers c ∧ Executes sample c.now.state 0 ∧
      (c.now.state.storage.proposals 0).requiredThreshold.toNat
        ≤ quorum c.now.state.storage 0 := by
  obtain ⟨c, hc, hP⟩ := exists_reachable sample KeepsConfirmers [1, 2] 2
    [byOwner 0 (.submitProposal 0xdead 0 []), byOwner 1 (.confirmProposal 0)]
    (fun c => decide (c.now.state.control = .outside
      ∧ c.now.state.storage.isOwner 1 = true
      ∧ 0 < c.now.state.storage.proposalCount
      ∧ (c.now.state.storage.proposals 0).executed = false
      ∧ (c.now.state.storage.proposals 0).requiredThreshold
        ≤ (c.now.state.storage.proposals 0).confirmationCount))
    (fun c hc s owner howner => by
      simp only [byOwner, List.mem_cons, SelfCall.Move.call.injEq, List.not_mem_nil,
        or_false] at hc
      rcases hc with rfl | rfl
      · cases howner
      · cases howner)
    (by decide)
  obtain ⟨hctl, howner, hlt, hpending, henough⟩ := of_decide_eq_true hP
  have hexecutes : Executes sample c.now.state 0 :=
    executes_of sample hctl (by decide) (by decide) howner ⟨hlt, hpending⟩ henough
  exact ⟨c, hc, hexecutes, quorum_of_current_owners sample hc hexecutes⟩

/-- **A former owner still counts.** Of three owners two are required. The
second one proposes and is removed; then the first one alone confirms and
performs the proposal. -/
theorem former_owner_counts :
    ∃ c, Reachable sample (fun _ _ => True) c ∧ Executes sample c.now.state 0 ∧
      quorum c.now.state.storage 0
        < (c.now.state.storage.proposals 0).requiredThreshold.toNat := by
  obtain ⟨c, hc, hP⟩ := exists_reachable sample (fun _ _ => True) [1, 2, 3] 2
    [byOwner 1 (.submitProposal 0xdead 0 []),
      byOwner 0 (.submitProposal sample.self 0 (calldata [0x17, 0x38, 0x25, 0xd9] 2)),
      byOwner 2 (.confirmProposal 1), byOwner 0 (.executeProposal 1),
      byWallet (.removeOwner 2), .back, byOwner 0 (.confirmProposal 0)]
    (fun c => decide (c.now.state.control = .outside
      ∧ c.now.state.storage.isOwner 1 = true
      ∧ 0 < c.now.state.storage.proposalCount
      ∧ (c.now.state.storage.proposals 0).executed = false
      ∧ (c.now.state.storage.proposals 0).requiredThreshold
        ≤ (c.now.state.storage.proposals 0).confirmationCount
      ∧ quorum c.now.state.storage 0
        < (c.now.state.storage.proposals 0).requiredThreshold.toNat))
    (fun _ _ _ => trivial) (by decide)
  obtain ⟨hctl, howner, hlt, hpending, henough, hquorum⟩ := of_decide_eq_true hP
  exact ⟨c, hc,
    executes_of sample hctl (by decide) (by decide) howner ⟨hlt, hpending⟩ henough, hquorum⟩

end MultiSigGovernance
