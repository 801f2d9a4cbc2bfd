import SoulPrivacy.MultiSigQuorum

/-!
# Proposals out of reach

A proposal requires what the threshold was when it was submitted. When
owners leave, the threshold is lowered to their number, but what the open
proposals require is not. So a proposal may come to require more than all
the current owners and the confirmations that former owners left behind
(`reach`).

Only a removal lowers the reach of a proposal, by one, and only where the
owner that leaves has not confirmed it (`reach_removeOwner`). **As long as
each removal leaves every such proposal within reach, all of them stay
within reach**, and then the owners can bring each of them to the count it
requires, by confirming one after the other (`proposals_within_reach`).
Otherwise a proposal is stranded at once (`withinReach_removeOwner_iff`,
`stranded_proposal`).
-/

namespace MultiSigGovernance

open SelfCall (Msg Call Outgoing Cont)

/-- The confirmations a proposal can get to: the current owners, and the
former ones that have confirmed. -/
noncomputable def reach (s : Storage) (id : Uint256) : ℕ :=
  s.owners.length + (former s id).ncard

/-- **Every open proposal is within reach.** -/
def WithinReach (s : Storage) : Prop :=
  ∀ id, Open s id → (s.proposals id).requiredThreshold.toNat ≤ reach s id

/-- **A removal leaves the open proposals within reach** that the owner has
not confirmed. -/
def LeavesWithinReach (s : Storage) (c : Call Entry) : Prop :=
  ∀ owner, c.entry = .removeOwner owner → ∀ id, Open s id →
    s.hasConfirmed id owner = false →
      (s.proposals id).requiredThreshold.toNat + 1 ≤ reach s id

/-! ## What a call does to the reach -/

/-- An owner's confirmation is none of a former owner. -/
theorem former_setConfirmed {s : Storage} {owner : Address}
    (howner : s.isOwner owner = true) (id id' : Uint256) (b : Bool) :
    former { s with hasConfirmed := setConfirmed s.hasConfirmed id owner b } id'
      = former s id' := by
  ext a
  refine and_congr_left (fun ha => ?_)
  have hne : a ≠ owner := by
    rintro rfl
    rw [howner] at ha
    cases ha
  show setConfirmed s.hasConfirmed id owner b id' a = true ↔ _
  unfold setConfirmed
  by_cases hid : id' = id
  · subst hid
    rw [Function.update_self, Function.update_of_ne hne]
  · rw [Function.update_of_ne hid]

/-- A new owner is no longer a former one. -/
theorem former_addOwner (s : Storage) (id : Uint256) (owner : Address)
    (owners : List Address) :
    former { s with owners, isOwner := Function.update s.isOwner owner true } id
      = former s id \ {owner} := by
  ext a
  simp only [former, Set.mem_ofPred_eq, Set.mem_sdiff, Set.mem_singleton_iff, ← Bool.not_eq_true,
    update_true_eq_true, not_or, and_assoc]

/-- An owner that leaves is a former one, where it has confirmed. -/
theorem former_removeOwner (s : Storage) (id : Uint256) (owner : Address)
    (owners : List Address) (threshold : Uint256) :
    former { s with
        owners, isOwner := Function.update s.isOwner owner false, threshold } id
      = if s.hasConfirmed id owner = true then insert owner (former s id)
        else former s id := by
  ext a
  have hmem : a ∈ former { s with
      owners, isOwner := Function.update s.isOwner owner false, threshold } id ↔
      s.hasConfirmed id a = true ∧ (a = owner ∨ s.isOwner a = false) := by
    refine and_congr_right (fun _ => ?_)
    show Function.update s.isOwner owner false a = false ↔ _
    rw [← Bool.not_eq_true, update_false_eq_true, not_and_or, not_not, Bool.not_eq_true]
  rw [hmem]
  split
  · rename_i hconfirmed
    rw [Set.mem_insert_iff, and_or_left]
    refine or_congr_left ⟨fun h => h.2, ?_⟩
    rintro rfl
    exact ⟨hconfirmed, rfl⟩
  · rename_i hnot
    rw [and_or_left]
    refine or_iff_right ?_
    rintro ⟨ha, rfl⟩
    exact hnot ha

section Step

variable {self : Address} {msg : Msg} {s s' : Storage} {entry : Entry}
variable {out : Option (Outgoing Uint256)}

/-- **A removal lowers the reach by one where the owner has not
confirmed**, and else not at all. -/
theorem reach_removeOwner {owner : Address}
    (h : Effect self msg s (.removeOwner owner) s' out) (hwf : WellFormed s)
    (id : Uint256) :
    reach s' id + (if s.hasConfirmed id owner = true then 0 else 1) = reach s id := by
  cases h
  case removeOwner own more member threshold_eq =>
    have hlen := (hwf.members.remove member).2
    unfold reach
    rw [former_removeOwner]
    dsimp only
    split
    · have hnot : owner ∉ former s id := fun hmem => by
        rw [hmem.2] at member
        cases member
      rw [Set.ncard_insert_of_notMem hnot (finite_former s id)]
      omega
    · omega

/-- No other call lowers it. -/
theorem Effect.reach_le (h : Effect self msg s entry s' out)
    (hne : ∀ owner, entry ≠ .removeOwner owner) (id : Uint256) :
    reach s id ≤ reach s' id := by
  cases h
  case submitProposal target value data owner room =>
    exact Nat.add_le_add_left
      (congrArg Set.ncard (former_setConfirmed owner s.proposalCount id true)).ge _
  case confirmProposal id' owner isOpen new room =>
    exact Nat.add_le_add_left
      (congrArg Set.ncard (former_setConfirmed owner id' id true)).ge _
  case revokeConfirmation id' owner isOpen given positive =>
    exact Nat.add_le_add_left
      (congrArg Set.ncard (former_setConfirmed owner id' id false)).ge _
  case addOwner owner own owner_ne new room =>
    have hless := Set.pred_ncard_le_ncard_sdiff_singleton (former s id) owner
    unfold reach
    rw [former_addOwner, List.length_append, List.length_singleton]
    omega
  case removeOwner owner threshold own member more threshold_eq =>
    exact absurd rfl (hne owner)
  all_goals exact le_rfl

/-- What a proposal requires is fixed when it is submitted. -/
theorem Effect.requiredThreshold_eq (h : Effect self msg s entry s' out) {id : Uint256}
    (hlt : id < s.proposalCount) :
    (s'.proposals id).requiredThreshold = (s.proposals id).requiredThreshold := by
  have hupdate : ∀ id' p, p.requiredThreshold = (s.proposals id').requiredThreshold →
      (Function.update s.proposals id' p id).requiredThreshold
        = (s.proposals id).requiredThreshold := by
    intro id' p hp
    rw [Function.update_apply]
    split
    · rename_i heq
      rw [hp, heq]
    · rfl
  cases h
  case submitProposal target value data owner room =>
    have hne : id ≠ s.proposalCount := fun heq => by
      rw [heq] at hlt
      exact absurd hlt (BitVec.lt_irrefl _)
    exact congrArg Proposal.requiredThreshold (Function.update_of_ne hne _ _)
  case confirmProposal => exact hupdate _ _ rfl
  case revokeConfirmation => exact hupdate _ _ rfl
  case executeProposal => exact hupdate _ _ rfl
  all_goals rfl

/-- **A call keeps the open proposals within reach**, where it is a removal
under the condition. -/
theorem Effect.withinReach (h : Effect self msg s entry s' out) (hwf : WellFormed s)
    (hs : WithinReach s) (hleaves : LeavesWithinReach s ⟨msg, entry⟩) : WithinReach s' := by
  intro id ho
  obtain hopen | ⟨⟨target, value, data, rfl⟩, rfl⟩ := h.open_of_open hwf.tallied ho
  · rw [h.requiredThreshold_eq hopen.lt]
    by_cases hremove : ∃ owner, entry = .removeOwner owner
    · obtain ⟨owner, rfl⟩ := hremove
      have hreach := reach_removeOwner h hwf id
      have hbefore := hs id hopen
      split at hreach
      · omega
      · rename_i hnot
        have hleft := hleaves owner rfl id hopen (Bool.not_eq_true _ ▸ hnot)
        omega
    · exact (hs id hopen).trans
        (h.reach_le (fun owner heq => hremove ⟨owner, heq⟩) id)
  -- a new proposal requires the threshold
  · cases h
    case submitProposal owner room =>
      simp only [Function.update_self]
      exact hwf.threshold.le.trans (Nat.le_add_right _ _)

/-- **The condition is exact**: after a removal the open proposals are within
reach when it holds, and only then. -/
theorem withinReach_removeOwner_iff {owner : Address}
    (h : Effect self msg s (.removeOwner owner) s' out) (hwf : WellFormed s)
    (hs : WithinReach s) :
    WithinReach s' ↔ LeavesWithinReach s ⟨msg, .removeOwner owner⟩ := by
  refine ⟨?_, h.withinReach hwf hs⟩
  rintro hs' owner' heq id hopen hnot
  obtain rfl : owner = owner' := Entry.removeOwner.inj heq
  have hreach := reach_removeOwner h hwf id
  have hopen' : Open s' id := by
    cases h
    exact ⟨hopen.lt, hopen.pending⟩
  have hafter := hs' id hopen'
  rw [h.requiredThreshold_eq hopen.lt] at hafter
  rw [if_neg (by rw [hnot]; exact Bool.false_ne_true)] at hreach
  omega

end Step

variable (d : Deployment)

theorem withinReach_keeps :
    SelfCall.Keeps (body d) LeavesWithinReach
      (fun _ _ s _ _ => WellFormed s ∧ WithinReach s) where
  enter h _ _ hside he :=
    have heff := enter_effect he
    ⟨heff.wellFormed h.1, heff.withinReach h.1 h.2 hside⟩
  enterCall h _ _ hside he _ :=
    have heff := enter_effect he
    ⟨heff.wellFormed h.1, heff.withinReach h.1 h.2 hside⟩
  finish h hf := by
    cases hf
    exact h
  tick h _ := h

/-! ## Bringing a proposal to its count -/

/-- Steps of a run under the condition. -/
abbrev Steps : Config → Config → Prop :=
  Relation.ReflTransGen (CallStack.Step (body d).machine ((body d).Allowed LeavesWithinReach))

/-- A counter has room for one more. -/
theorem count_add_one_lt {s : Storage} (hs : Tallied s) (id : Uint256) :
    (s.proposals id).confirmationCount.toNat + 1 < 2 ^ 256 := by
  have hfinite := Address.finite
  have hall : (confirmers s id).ncard ≤ 2 ^ 160 := by
    refine (Set.ncard_le_ncard (Set.subset_univ _)).trans_eq ?_
    rw [Set.ncard_univ, Nat.card_congr (BitVec.equivFin (m := 160)).toEquiv, Nat.card_fin]
  rw [hs.count_eq id]
  omega

/-- The storage after a confirmation. -/
def confirmed (s : Storage) (id : Uint256) (owner : Address) : Storage :=
  { s with
    hasConfirmed := setConfirmed s.hasConfirmed id owner true
    proposals := Function.update s.proposals id
      { s.proposals id with
        confirmationCount := (s.proposals id).confirmationCount + 1 } }

/-- **An owner that has not confirmed may do so**, unless it is the wallet
itself. -/
theorem confirm_step {c : Config} {id : Uint256} {owner : Address}
    (hwf : WellFormed c.now.state.storage) (hctl : c.now.state.control = .outside)
    (hopen : Open c.now.state.storage id) (howner : owner ∈ c.now.state.storage.owners)
    (hself : owner ≠ d.self) (hnew : c.now.state.storage.hasConfirmed id owner = false) :
    ∃ c', Steps d c c' ∧ c'.now.state.control = .outside ∧
      c'.now.state.storage = confirmed c.now.state.storage id owner := by
  obtain ⟨⟨s, trace⟩, stack⟩ := c
  have hne : owner ≠ 0 := fun h0 => hwf.members.zero_notMem (h0 ▸ howner)
  have hisOwner := (hwf.members.isOwner_iff owner).mpr howner
  have hroom : (s.storage.proposals id).confirmationCount.toNat + (1 : Uint256).toNat
      < 2 ^ 256 := count_add_one_lt hwf.tallied id
  have henter : (body d).enter ⟨owner, 0, s.now, hne⟩ (.confirmProposal id) s.storage
      = .ok (confirmed s.storage id owner, [.proposalConfirmed id owner], none) := by
    show nonPayable _ (confirmProposal _ _ _) = _
    unfold nonPayable confirmProposal onlyOwner proposalExists checkedAdd
    rw [revertIf_bind_of_neg (not_not_intro rfl),
      revertIf_bind_of_neg (Bool.not_eq_false _ ▸ hisOwner),
      revertIf_bind_of_neg (BitVec.not_le.mpr hopen.lt),
      revertIf_bind_of_neg (Bool.not_eq_true _ ▸ hopen.pending),
      revertIf_bind_of_neg (Bool.not_eq_true _ ▸ hnew), if_pos hroom]
    rfl
  have hallowed : (body d).Allowed LeavesWithinReach s
      ⟨⟨owner, 0, s.now, hne⟩, .confirmProposal id⟩ := by
    refine ⟨?_, rfl, fun _ h => Entry.noConfusion h⟩
    rw [show s.control = .outside from hctl]
    exact hself
  refine ⟨_, .single (.call hallowed (Except.map_eq_ok.mpr ⟨_, henter, rfl⟩)), ?_, rfl⟩
  show SelfCall.Control.ended (SelfCall.Control.own s.control) = _
  rw [show s.control = .outside from hctl]
  rfl

/-- A confirmation is an effect of a call. -/
theorem confirmed_wellFormed {s : Storage} (hwf : WellFormed s) {id : Uint256}
    {owner : Address} (hopen : Open s id) (howner : owner ∈ s.owners)
    (hnew : s.hasConfirmed id owner = false) : WellFormed (confirmed s id owner) := by
  have hne : owner ≠ 0 := fun h0 => hwf.members.zero_notMem (h0 ▸ howner)
  have heff : Effect 0 ⟨owner, 0, 0, hne⟩ s (.confirmProposal id) (confirmed s id owner)
      none :=
    .confirmProposal ((hwf.members.isOwner_iff owner).mpr howner) hopen hnew
      (count_add_one_lt hwf.tallied id)
  exact heff.wellFormed hwf

/-- **The owners of a list confirm one after the other**, by induction on
the list. -/
theorem confirm_all {id : Uint256} (l : List Address) (hnodup : l.Nodup) {c : Config}
    (hwf : WellFormed c.now.state.storage) (hctl : c.now.state.control = .outside)
    (hopen : Open c.now.state.storage id)
    (hl : ∀ a ∈ l, a ∈ c.now.state.storage.owners ∧ a ≠ d.self ∧
      c.now.state.storage.hasConfirmed id a = false) :
    ∃ c', Steps d c c' ∧
      (c'.now.state.storage.proposals id).confirmationCount.toNat
        = (c.now.state.storage.proposals id).confirmationCount.toNat + l.length := by
  induction l generalizing c with
  | nil => exact ⟨c, .refl, rfl⟩
  | cons owner l ih =>
    obtain ⟨hnot, hnodup⟩ := List.nodup_cons.mp hnodup
    obtain ⟨howner, hself, hnew⟩ := hl owner List.mem_cons_self
    obtain ⟨c₁, hstep, hctl₁, hstorage⟩ := confirm_step d hwf hctl hopen howner hself hnew
    have hwf₁ : WellFormed c₁.now.state.storage :=
      hstorage ▸ confirmed_wellFormed hwf hopen howner hnew
    have hopen₁ : Open c₁.now.state.storage id := by
      rw [hstorage]
      refine ⟨hopen.lt, ?_⟩
      simp only [confirmed, Function.update_self]
      exact hopen.pending
    have hl₁ : ∀ a ∈ l, a ∈ c₁.now.state.storage.owners ∧ a ≠ d.self ∧
        c₁.now.state.storage.hasConfirmed id a = false := by
      intro a ha
      obtain ⟨haowner, haself, hanew⟩ := hl a (List.mem_cons_of_mem owner ha)
      rw [hstorage]
      refine ⟨haowner, haself, ?_⟩
      have hne : a ≠ owner := fun heq => hnot (heq ▸ ha)
      simp only [confirmed, setConfirmed, Function.update_self, Function.update_of_ne hne]
      exact hanew
    obtain ⟨c', hsteps, hcount⟩ := ih hnodup hwf₁ hctl₁ hopen₁ hl₁
    refine ⟨c', hstep.trans hsteps, ?_⟩
    rw [hcount, hstorage]
    simp only [confirmed, Function.update_self, List.length_cons]
    rw [toNat_add_one (count_add_one_lt hwf.tallied id)]
    omega

/-- **Open proposals stay within reach**, in every run in which each removal
leaves them there; and unless the wallet is one of its own owners, they can
bring each of them to the count it requires. -/
theorem proposals_within_reach {c : Config} (h : Reachable d LeavesWithinReach c)
    {id : Uint256} (hopen : Open c.now.state.storage id) :
    (c.now.state.storage.proposals id).requiredThreshold.toNat
        ≤ c.now.state.storage.owners.length + (former c.now.state.storage id).ncard ∧
      (d.self ∉ c.now.state.storage.owners → c.now.state.control = .outside →
        ∃ c', Steps d c c' ∧ (c.now.state.storage.proposals id).requiredThreshold.toNat
          ≤ (c'.now.state.storage.proposals id).confirmationCount.toNat) := by
  obtain ⟨owners, threshold, s, balance, now, hs, hc⟩ := h
  obtain ⟨hwf₀, -, hcount⟩ := constructor_spec hs
  have hnone : WithinReach s := fun id ho => by
    have hlt := ho.lt
    rw [hcount] at hlt
    exact absurd (BitVec.lt_def.mp hlt) (Nat.not_lt_zero _)
  obtain ⟨hwf, hreach⟩ := (withinReach_keeps d).holds ⟨hwf₀, hnone⟩ hc
  refine ⟨hreach id hopen, fun hself hctl => ?_⟩
  have hothers : ∀ a ∈ c.now.state.storage.owners.filter
      (fun a => !c.now.state.storage.hasConfirmed id a),
      a ∈ c.now.state.storage.owners ∧ a ≠ d.self ∧
        c.now.state.storage.hasConfirmed id a = false := by
    intro a ha
    obtain ⟨howner, hnot⟩ := List.mem_filter.mp ha
    exact ⟨howner, fun heq => hself (heq ▸ howner), Bool.not_eq_true' _ ▸ hnot⟩
  obtain ⟨c', hsteps, hcount'⟩ := confirm_all d _ (hwf.members.nodup.filter _) hwf hctl
    hopen hothers
  refine ⟨c', hsteps, ?_⟩
  have hall := List.length_eq_length_filter_add (l := c.now.state.storage.owners)
    (c.now.state.storage.hasConfirmed id)
  have hsum := count_eq_quorum_add_former hwf id
  have hrequired := hreach id hopen
  unfold quorum at hsum
  unfold reach at hrequired
  omega

/-- Two of three owners, both of which have confirmed. -/
theorem proposals_within_reach_sample :
    ∃ c, Reachable sample LeavesWithinReach c ∧ Open c.now.state.storage 0 ∧
      (c.now.state.storage.proposals 0).requiredThreshold.toNat
        ≤ c.now.state.storage.owners.length + (former c.now.state.storage 0).ncard := by
  obtain ⟨c, hc, hP⟩ := exists_reachable sample LeavesWithinReach [1, 2, 3] 2
    [byOwner 0 (.submitProposal 0xdead 0 []), byOwner 1 (.confirmProposal 0)]
    (fun c => decide (0 < c.now.state.storage.proposalCount
      ∧ (c.now.state.storage.proposals 0).executed = false))
    (fun c hc s owner howner => by
      simp only [byOwner, List.mem_cons, SelfCall.Move.call.injEq, List.not_mem_nil,
        or_false] at hc
      rcases hc with rfl | rfl
      · cases howner
      · cases howner)
    (by decide)
  obtain ⟨hlt, hpending⟩ := of_decide_eq_true hP
  have hopen : Open c.now.state.storage 0 := ⟨hlt, hpending⟩
  exact ⟨c, hc, hopen, (proposals_within_reach sample hc hopen).1⟩

/-- **A stranded proposal.** Three of three owners are required. One
proposes, then all three remove an owner that has not confirmed: the
threshold is lowered to two, the proposal still requires three. -/
theorem stranded_proposal :
    ∃ c, Reachable sample (fun _ _ => True) c ∧ Open c.now.state.storage 0 ∧
      c.now.state.storage.owners.length + (former c.now.state.storage 0).ncard
        < (c.now.state.storage.proposals 0).requiredThreshold.toNat := by
  obtain ⟨c, hc, hP⟩ := exists_reachable sample (fun _ _ => True) [1, 2, 3] 3
    [byOwner 0 (.submitProposal 0xdead 0 []),
      byOwner 0 (.submitProposal sample.self 0 (calldata [0x17, 0x38, 0x25, 0xd9] 2)),
      byOwner 1 (.confirmProposal 1), byOwner 2 (.confirmProposal 1),
      byOwner 0 (.executeProposal 1), byWallet (.removeOwner 2), .back]
    (fun c => decide (0 < c.now.state.storage.proposalCount
      ∧ (c.now.state.storage.proposals 0).executed = false
      ∧ (c.now.state.storage.proposals 0).confirmationCount.toNat
        = quorum c.now.state.storage 0
      ∧ c.now.state.storage.owners.length
        < (c.now.state.storage.proposals 0).requiredThreshold.toNat))
    (fun _ _ _ => trivial) (by decide)
  obtain ⟨hlt, hpending, hcount, hrequired⟩ := of_decide_eq_true hP
  have hsum := count_eq_quorum_add_former (wellFormed_of_reachable sample hc).1 0
  exact ⟨c, hc, ⟨hlt, hpending⟩, by omega⟩

end MultiSigGovernance
