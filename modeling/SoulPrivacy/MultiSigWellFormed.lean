import SoulPrivacy.Abi
import SoulPrivacy.MultiSigEffect
import Mathlib.Data.Set.Card

/-!
# The wallet is well formed

Three things are kept in step, each by operations of its own: the array of
owners and the mapping that looks them up (`Members`), the threshold and
the number of owners (`Threshold`), and the counters of the proposals and
the confirmations they count (`Tallied`). Every call keeps all three
(`Effect.wellFormed`), and with them that a proposal is marked executed
exactly as often as its call has been performed or is under way
(`Ledger`), which is at most once.

None of this depends on who calls: that the operations on owners may only
be called by the wallet is not used. What a proposal's target does while it
runs makes no difference either, since the mark is set before the call.
-/

namespace MultiSigGovernance

open SelfCall (Msg Call Outgoing Cont)

/-! ## The invariants -/

/-- The array of owners and the mapping agree. -/
structure Members (owners : List Address) (isOwner : Address → Bool) : Prop where
  nodup : owners.Nodup
  zero_notMem : 0 ∉ owners
  isOwner_iff : ∀ a, isOwner a = true ↔ a ∈ owners
  length_le : owners.length ≤ 2 ^ 64

/-- The threshold can be met by the owners. -/
structure Threshold (owners : List Address) (threshold : Uint256) : Prop where
  pos : 1 ≤ threshold.toNat
  le : threshold.toNat ≤ owners.length

/-- The addresses that have confirmed a proposal. -/
def confirmers (s : Storage) (proposalId : Uint256) : Set Address :=
  {a | s.hasConfirmed proposalId a = true}

/-- The counters count, and nothing is known of proposals to come. -/
structure Tallied (s : Storage) : Prop where
  count_eq : ∀ id, (s.proposals id).confirmationCount.toNat = (confirmers s id).ncard
  fresh : ∀ id, s.proposalCount ≤ id →
    s.proposals id = Proposal.blank ∧ s.hasConfirmed id = fun _ => false

/-- **The wallet is well formed.** -/
structure WellFormed (s : Storage) : Prop where
  members : Members s.owners s.isOwner
  threshold : Threshold s.owners s.threshold
  tallied : Tallied s

/-! ## Owners -/

theorem Members.push {owners : List Address} {isOwner : Address → Bool}
    (h : Members owners isOwner) {owner : Address} (hne : owner ≠ 0)
    (hnew : isOwner owner = false) (hroom : owners.length < 2 ^ 64) :
    Members (owners ++ [owner]) (Function.update isOwner owner true) := by
  refine ⟨nodup_append_of_marked h.isOwner_iff h.nodup hnew, ?_,
    update_true_iff_mem_append h.isOwner_iff owner, ?_⟩
  · rw [List.mem_append, List.mem_singleton]
    rintro (hmem | heq)
    · exact h.zero_notMem hmem
    · exact hne heq.symm
  · rw [List.length_append, List.length_singleton]
    exact hroom

theorem Members.remove {owners : List Address} {isOwner : Address → Bool}
    (h : Members owners isOwner) {owner : Address} (hmem : isOwner owner = true) :
    Members (swapAndPop owner owners 0 owners.length)
        (Function.update isOwner owner false) ∧
      (swapAndPop owner owners 0 owners.length).length + 1 = owners.length := by
  have hin : owner ∈ owners := (h.isOwner_iff owner).mp hmem
  have hperm := swapAndPop_perm hin
  have hlen : (swapAndPop owner owners 0 owners.length).length + 1 = owners.length := by
    rw [hperm.length_eq]
    exact List.length_erase_add_one hin
  refine ⟨⟨?_, ?_, fun a => ?_, ?_⟩, hlen⟩
  · exact hperm.nodup_iff.mpr (h.nodup.erase owner)
  · exact fun h0 => h.zero_notMem (List.mem_of_mem_erase (hperm.mem_iff.mp h0))
  · rw [update_false_eq_true, h.isOwner_iff, hperm.mem_iff, h.nodup.mem_erase_iff]
  · exact (Nat.le_of_lt (Nat.lt_of_succ_le hlen.le)).trans h.length_le

/-- **Lowering the threshold to the owners that are left** keeps it in
bounds. -/
theorem Threshold.remove {owners owners' : List Address} {threshold : Uint256}
    (h : Threshold owners threshold) (hpos : 1 ≤ owners'.length)
    (hlen : owners'.length ≤ 2 ^ 64) :
    Threshold owners' (if owners'.length < threshold.toNat then
      BitVec.ofNat 256 owners'.length else threshold) := by
  have hnat : (BitVec.ofNat 256 owners'.length).toNat = owners'.length := by
    rw [BitVec.toNat_ofNat]
    exact Nat.mod_eq_of_lt (by omega)
  split
  · exact ⟨hnat.symm ▸ hpos, hnat.le⟩
  · rename_i hnot
    exact ⟨h.pos, Nat.le_of_not_lt hnot⟩

/-! ## Confirmations -/

theorem finite_confirmers (s : Storage) (id : Uint256) : (confirmers s id).Finite := by
  have hfinite := Address.finite
  exact Set.toFinite _

theorem confirmers_setConfirmed_of_ne (s : Storage) {id id' : Uint256} (hne : id' ≠ id)
    (owner : Address) (b : Bool) :
    confirmers { s with hasConfirmed := setConfirmed s.hasConfirmed id owner b } id'
      = confirmers s id' := by
  unfold confirmers setConfirmed
  simp only [Function.update_of_ne hne]

theorem confirmers_setConfirmed_true (s : Storage) (id : Uint256) (owner : Address) :
    confirmers { s with hasConfirmed := setConfirmed s.hasConfirmed id owner true } id
      = insert owner (confirmers s id) := by
  ext a
  simp only [confirmers, setConfirmed, Function.update_self, Set.mem_ofPred_eq,
    Set.mem_insert_iff, update_true_eq_true, or_comm]

theorem confirmers_setConfirmed_false (s : Storage) (id : Uint256) (owner : Address) :
    confirmers { s with hasConfirmed := setConfirmed s.hasConfirmed id owner false } id
      = confirmers s id \ {owner} := by
  ext a
  simp only [confirmers, setConfirmed, Function.update_self, Set.mem_ofPred_eq,
    Set.mem_sdiff, Set.mem_singleton_iff, update_false_eq_true, and_comm]

/-- A confirmation more. -/
theorem ncard_confirmers_confirm {s : Storage} {id : Uint256} {owner : Address}
    (hnew : s.hasConfirmed id owner = false) :
    (confirmers { s with hasConfirmed := setConfirmed s.hasConfirmed id owner true }
      id).ncard = (confirmers s id).ncard + 1 := by
  have hnot : owner ∉ confirmers s id := fun hmem => by
    rw [show s.hasConfirmed id owner = true from hmem] at hnew
    cases hnew
  rw [confirmers_setConfirmed_true,
    Set.ncard_insert_of_notMem hnot (finite_confirmers s id)]

/-- A confirmation less. -/
theorem ncard_confirmers_revoke {s : Storage} {id : Uint256} {owner : Address}
    (hgiven : s.hasConfirmed id owner = true) :
    (confirmers { s with hasConfirmed := setConfirmed s.hasConfirmed id owner false }
      id).ncard + 1 = (confirmers s id).ncard := by
  rw [confirmers_setConfirmed_false]
  exact Set.ncard_sdiff_singleton_add_one hgiven (finite_confirmers s id)

/-- What the tallies are about. -/
theorem Tallied.congr {s s' : Storage} (h : Tallied s)
    (hproposals : ∀ id, (s'.proposals id).confirmationCount
      = (s.proposals id).confirmationCount)
    (hfresh : ∀ id, s'.proposalCount ≤ id → s'.proposals id = s.proposals id)
    (hcount : s'.proposalCount = s.proposalCount)
    (hconfirmed : s'.hasConfirmed = s.hasConfirmed) : Tallied s' := by
  refine ⟨fun id => ?_, fun id hid => ?_⟩
  · rw [hproposals id, h.count_eq id, confirmers, confirmers, hconfirmed]
  · rw [hfresh id hid, hconfirmed]
    exact h.fresh id (hcount ▸ hid)

/-- A proposal that exists is none of those to come. -/
theorem ne_of_fresh {s : Storage} {id id' : Uint256} (hlt : id < s.proposalCount)
    (hle : s.proposalCount ≤ id') : id' ≠ id := by
  rintro rfl
  exact absurd hlt (BitVec.not_lt.mpr hle)

/-- **A confirmation given or taken back, with its counter**, keeps the
tallies. -/
theorem Tallied.recount {s : Storage} (h : Tallied s) {id : Uint256}
    (hlt : id < s.proposalCount) {owner : Address} {b : Bool} {count : Uint256}
    (hcount : count.toNat = (confirmers
      { s with hasConfirmed := setConfirmed s.hasConfirmed id owner b } id).ncard) :
    Tallied { s with
      hasConfirmed := setConfirmed s.hasConfirmed id owner b
      proposals := Function.update s.proposals id
        { s.proposals id with confirmationCount := count } } := by
  refine ⟨fun id' => ?_, fun id' hid' => ⟨?_, ?_⟩⟩
  · by_cases heq : id' = id
    · subst heq
      simp only [Function.update_self]
      exact hcount
    · simp only [Function.update_of_ne heq]
      exact (h.count_eq id').trans
        (congrArg Set.ncard (confirmers_setConfirmed_of_ne s heq owner b).symm)
  · exact (Function.update_of_ne (ne_of_fresh hlt hid') _ _).trans (h.fresh id' hid').1
  · exact (Function.update_of_ne (ne_of_fresh hlt hid') _ _).trans (h.fresh id' hid').2

/-! ## Every call keeps them -/

section Step

variable {self : Address} {msg : Msg} {s s' : Storage} {entry : Entry}
variable {out : Option (Outgoing Uint256)}

/-- A word one larger. -/
theorem toNat_add_one {a : Uint256} (h : a.toNat + 1 < 2 ^ 256) :
    (a + 1).toNat = a.toNat + 1 := by
  rw [BitVec.toNat_add]
  exact Nat.mod_eq_of_lt h

/-- … and one smaller. -/
theorem toNat_sub_one {a : Uint256} (h : 1 ≤ a.toNat) : (a - 1).toNat + 1 = a.toNat := by
  have hone : (1 : Uint256).toNat = 1 := rfl
  rw [BitVec.toNat_sub_of_le (BitVec.le_def.mpr (hone.symm ▸ h)), hone]
  exact Nat.sub_add_cancel h

theorem Effect.members (h : Effect self msg s entry s' out)
    (hs : Members s.owners s.isOwner) : Members s'.owners s'.isOwner := by
  cases h
  case addOwner own owner_ne new room => exact hs.push owner_ne new room
  case removeOwner own member more threshold_eq => exact (hs.remove member).1
  all_goals exact hs

theorem Effect.threshold (h : Effect self msg s entry s' out)
    (hs : Members s.owners s.isOwner) (ht : Threshold s.owners s.threshold) :
    Threshold s'.owners s'.threshold := by
  cases h
  case addOwner =>
    refine ⟨ht.pos, ht.le.trans ?_⟩
    rw [List.length_append]
    exact Nat.le_add_right _ _
  case removeOwner owner threshold own member more threshold_eq =>
    obtain ⟨hs', hlen⟩ := hs.remove member
    have hpos : 1 ≤ (swapAndPop owner s.owners 0 s.owners.length).length :=
      Nat.le_of_lt_succ (more.trans_eq hlen.symm)
    rw [threshold_eq]
    exact ht.remove hpos hs'.length_le
  case changeThreshold threshold own threshold_ne le =>
    refine ⟨Nat.one_le_iff_ne_zero.mpr (fun h0 => threshold_ne ?_), le⟩
    exact BitVec.eq_of_toNat_eq h0
  all_goals exact ht

theorem Effect.tallied (h : Effect self msg s entry s' out) (hs : Tallied s) :
    Tallied s' := by
  cases h
  case submitProposal target value data owner room =>
    have hnew := hs.fresh s.proposalCount (BitVec.le_refl _)
    have hnext : (s.proposalCount + 1).toNat = s.proposalCount.toNat + 1 :=
      toNat_add_one room
    refine ⟨fun id => ?_, fun id hid => ?_⟩
    · by_cases heq : id = s.proposalCount
      · subst heq
        have hnone : confirmers s s.proposalCount = ∅ := by
          unfold confirmers
          rw [hnew.2]
          simp
        simp only [Function.update_self]
        have hone := ncard_confirmers_confirm (s := s) (congrFun hnew.2 msg.sender)
        rw [hnone, Set.ncard_empty] at hone
        exact hone.symm
      · simp only [Function.update_of_ne heq]
        exact (hs.count_eq id).trans
          (congrArg Set.ncard (confirmers_setConfirmed_of_ne s heq _ _).symm)
    · have hle : s.proposalCount.toNat + 1 ≤ id.toNat := hnext ▸ BitVec.le_def.mp hid
      have hne : id ≠ s.proposalCount := fun heq => by
        rw [heq] at hle
        exact absurd hle (Nat.not_succ_le_self _)
      have hold := hs.fresh id (BitVec.le_def.mpr (Nat.le_of_succ_le hle))
      exact ⟨(Function.update_of_ne hne _ _).trans hold.1,
        (Function.update_of_ne hne _ _).trans hold.2⟩
  case confirmProposal id owner isOpen new room =>
    refine hs.recount isOpen.lt ?_
    rw [toNat_add_one room, hs.count_eq id, ncard_confirmers_confirm new]
  case revokeConfirmation id owner isOpen given positive =>
    refine hs.recount isOpen.lt (Nat.add_right_cancel (m := 1) ?_)
    rw [toNat_sub_one positive, hs.count_eq id, ncard_confirmers_revoke given]
  case executeProposal id owner isOpen enough =>
    refine hs.congr (fun id' => ?_)
      (fun id' hid' => Function.update_of_ne (ne_of_fresh isOpen.lt hid') _ _) rfl rfl
    by_cases heq : id' = id
    · subst heq
      simp only [Function.update_self]
    · simp only [Function.update_of_ne heq]
  all_goals exact hs.congr (fun _ => rfl) (fun _ _ => rfl) rfl rfl

/-- **Every call keeps the wallet well formed.** -/
theorem Effect.wellFormed (h : Effect self msg s entry s' out) (hs : WellFormed s) :
    WellFormed s' :=
  ⟨h.members hs.members, h.threshold hs.members hs.threshold, h.tallied hs.tallied⟩

/-- The proposal a call is about to perform. -/
def performs (id : Uint256) : Option (Outgoing Uint256) → ℕ
  | none => 0
  | some out => if out.rest = id then 1 else 0

/-- How often a proposal is marked executed. -/
def Storage.executions (s : Storage) (id : Uint256) : ℕ :=
  if (s.proposals id).executed = true then 1 else 0

theorem executions_of_pending {s : Storage} {id : Uint256}
    (h : (s.proposals id).executed = false) : s.executions id = 0 := by
  rw [Storage.executions, h]
  rfl

/-- **A call marks the proposal it performs**, which was not marked, and no
other. -/
theorem Effect.executions_eq (h : Effect self msg s entry s' out) (hs : Tallied s)
    (id : Uint256) : s'.executions id = s.executions id + performs id out := by
  cases h
  case executeProposal id' owner isOpen enough =>
    by_cases heq : id' = id
    · subst heq
      rw [executions_of_pending isOpen.pending]
      simp [Storage.executions, performs]
    · simp [Storage.executions, performs, heq, Function.update_of_ne (Ne.symm heq)]
  case submitProposal target value data owner room =>
    by_cases heq : id = s.proposalCount
    · subst heq
      have hblank := (hs.fresh s.proposalCount (BitVec.le_refl _)).1
      simp [Storage.executions, performs, hblank, Proposal.blank]
    · simp [Storage.executions, performs, Function.update_of_ne heq]
  case confirmProposal id' owner isOpen new room =>
    by_cases heq : id = id'
    · subst heq
      simp [Storage.executions, performs]
    · simp [Storage.executions, performs, Function.update_of_ne heq]
  case revokeConfirmation id' owner isOpen given positive =>
    by_cases heq : id = id'
    · subst heq
      simp [Storage.executions, performs]
    · simp [Storage.executions, performs, Function.update_of_ne heq]
  all_goals rfl

end Step

/-! ## The constructor -/

theorem construct_members {s s' : Storage} {owner : Address}
    (hs : Members s.owners s.isOwner) (h : construct s owner = .ok s') :
    Members s'.owners s'.isOwner ∧
      s' = { s with owners := s.owners ++ [owner], isOwner := s'.isOwner } := by
  unfold construct at h
  obtain ⟨hne, h⟩ := (revertIf_bind_eq_ok _ _ _ _).mp h
  obtain ⟨hnew, h⟩ := (revertIf_bind_eq_ok _ _ _ _).mp h
  obtain ⟨owners, hpush, h⟩ := (Except.bind_eq_ok _ _ _).mp h
  obtain ⟨hroom, rfl⟩ := push_eq_ok.mp hpush
  cases h
  exact ⟨hs.push hne (Bool.not_eq_true _ ▸ hnew) hroom, rfl⟩

/-- The loop of the constructor, by induction on the owners to come. -/
theorem constructor_loop {owners : List Address} {s s' : Storage}
    (hs : Members s.owners s.isOwner) (h : owners.foldlM construct s = .ok s') :
    Members s'.owners s'.isOwner ∧
      s' = { s with owners := s.owners ++ owners, isOwner := s'.isOwner } := by
  induction owners generalizing s with
  | nil =>
    cases h
    exact ⟨hs, by rw [List.append_nil]⟩
  | cons owner owners ih =>
    rw [List.foldlM_cons] at h
    obtain ⟨s₁, hfirst, hrest⟩ := (Except.bind_eq_ok _ _ _).mp h
    obtain ⟨hs₁, heq₁⟩ := construct_members hs hfirst
    obtain ⟨hs', heq'⟩ := ih hs₁ hrest
    refine ⟨hs', ?_⟩
    rw [heq₁] at heq'
    simpa only [List.append_assoc, List.singleton_append] using heq'

theorem Tallied.blank : Tallied Storage.blank := by
  refine ⟨fun id => ?_, fun _ _ => ⟨rfl, rfl⟩⟩
  have hnone : confirmers Storage.blank id = ∅ := by
    simp [confirmers, Storage.blank]
  rw [hnone, Set.ncard_empty]
  rfl

/-- **The constructor builds a well-formed wallet**, without proposals. -/
theorem constructor_spec {owners : List Address} {threshold : Uint256} {s : Storage}
    (h : constructor owners threshold = .ok s) :
    WellFormed s ∧ s.proposals = (fun _ => Proposal.blank) ∧ s.proposalCount = 0 := by
  unfold constructor at h
  obtain ⟨hlen, h⟩ := (revertIf_bind_eq_ok _ _ _ _).mp h
  obtain ⟨hvalid, h⟩ := (revertIf_bind_eq_ok _ _ _ _).mp h
  obtain ⟨s₁, hloop, h⟩ := (Except.bind_eq_ok _ _ _).mp h
  rw [not_or, not_lt] at hvalid
  have hblank : Members Storage.blank.owners Storage.blank.isOwner :=
    ⟨List.nodup_nil, List.not_mem_nil, fun a => by simp [Storage.blank], Nat.zero_le _⟩
  obtain ⟨hmembers, heq⟩ := constructor_loop hblank hloop
  cases h
  have howners : s₁.owners = owners := by rw [heq]; rfl
  have hproposals : s₁.proposals = fun _ => Proposal.blank := by rw [heq]; rfl
  have hconfirmed : s₁.hasConfirmed = fun _ _ => false := by rw [heq]; rfl
  have hcount : s₁.proposalCount = 0 := by rw [heq]; rfl
  refine ⟨⟨hmembers, ⟨?_, ?_⟩, ?_⟩, hproposals, hcount⟩
  · exact Nat.one_le_iff_ne_zero.mpr (fun h0 => hvalid.1 (BitVec.eq_of_toNat_eq h0))
  · exact howners.symm ▸ hvalid.2
  · exact Tallied.blank.congr (fun id => by rw [hproposals]; rfl)
      (fun id _ => by rw [hproposals]; rfl) hcount hconfirmed

/-- **Taking a confirmation back does not underflow.** -/
theorem revokeConfirmation_ne_panic {s : Storage} (hs : Tallied s) (msg : Msg)
    (id : Uint256) : revokeConfirmation msg s id ≠ .error .panic := by
  have hfails : (revokeConfirmation msg s id).FailsIn (· ≠ .panic) := by
    unfold revokeConfirmation onlyOwner proposalExists
    refine (revertIf_failsIn (fun _ => by decide)).bind (fun _ _ => ?_)
    refine (revertIf_failsIn (fun _ => by decide)).bind (fun _ _ => ?_)
    refine (revertIf_failsIn (fun _ => by decide)).bind (fun _ _ => ?_)
    refine (revertIf_failsIn (fun _ => by decide)).bind (fun _ hgiven => ?_)
    rw [revertIf_eq_ok, Bool.not_eq_false] at hgiven
    have hpos : 1 ≤ (s.proposals id).confirmationCount.toNat := by
      rw [hs.count_eq id]
      exact (Set.ncard_pos (finite_confirmers s id)).mpr ⟨msg.sender, hgiven⟩
    simp only [checkedSub]
    rw [if_pos (show (1 : Uint256).toNat ≤ _ from hpos)]
    exact Except.failsIn_ok _ _
  exact fun h => hfails _ h rfl

/-! ## Over whole runs -/

/-- Whether a receipt says that a proposal's call went through. -/
def performedBy (id : Uint256) : SelfCall.Receipt Entry Uint256 Event → Bool
  | .entered _ _ => false
  | .resumed k _ => k.call.rest = id

/-- How often the call of a proposal was performed successfully, … -/
def performed (id : Uint256) (trace : List (SelfCall.Receipt Entry Uint256 Event)) : ℕ :=
  trace.countP (performedBy id)

/-- … and how often it is under way. -/
def underWay (id : Uint256) (ks : List (Cont Uint256)) : ℕ :=
  ks.countP (fun k => k.call.rest = id)

/-- **A proposal is marked as often as its call was performed or is under
way.** -/
def Ledger (ks : List (Cont Uint256)) (s : Storage)
    (trace : List (SelfCall.Receipt Entry Uint256 Event)) : Prop :=
  ∀ id, performed id trace + underWay id ks = s.executions id

variable (d : Deployment)

/-- The two invariants, of a run under any condition. -/
theorem wellFormed_keeps (side : Storage → Call Entry → Prop) :
    SelfCall.Keeps (body d) side (fun _ ks s _ trace => WellFormed s ∧ Ledger ks s trace) where
  enter := by
    rintro ctl ks s now tr c s' evs ⟨hs, hledger⟩ _ _ _ he
    have heff := enter_effect he
    refine ⟨heff.wellFormed hs, fun id => ?_⟩
    rw [heff.executions_eq hs.tallied id, performs, ← hledger id]
    simp [performed, performedBy]
  enterCall := by
    rintro ctl ks s now tr c s' evs out ctl' ⟨hs, hledger⟩ _ _ _ he _
    have heff := enter_effect he
    refine ⟨heff.wellFormed hs, fun id => ?_⟩
    rw [heff.executions_eq hs.tallied id, ← hledger id]
    simp [performed, performedBy, underWay, performs, List.countP_cons, Nat.add_assoc]
  finish := by
    rintro ctl ks s now tr k s' evs ⟨hs, hledger⟩ hf
    cases hf
    refine ⟨hs, fun id => ?_⟩
    rw [← hledger id]
    simp [performed, performedBy, underWay, List.countP_cons, List.countP_append]
    omega
  tick h _ := h

/-- The invariants in every configuration of a run. -/
theorem wellFormed_of_reachable {side : Storage → Call Entry → Prop} {c : Config}
    (h : Reachable d side c) :
    WellFormed c.now.state.storage ∧
      Ledger (CallStack.conts c.stack) c.now.state.storage c.now.trace := by
  obtain ⟨owners, threshold, s, balance, now, hs, hc⟩ := h
  obtain ⟨hwf, hblank, -⟩ := constructor_spec hs
  refine (wellFormed_keeps d side).holds ⟨hwf, fun id => ?_⟩ hc
  rw [executions_of_pending (by rw [hblank]; rfl)]
  rfl

/-- **The wallet stays well formed**, in every configuration of every run:
the array of owners has no duplicates, no zero and agrees with the mapping,
the threshold can be met, each counter is the number of the addresses that
have confirmed – so that taking a confirmation back never underflows – and
the call of each proposal is performed at most once. -/
theorem wallet_wellFormed {c : Config} (h : Reachable d (fun _ _ => True) c) :
    let s := c.now.state.storage
    (s.owners.Nodup ∧ 0 ∉ s.owners ∧ ∀ a, s.isOwner a = true ↔ a ∈ s.owners) ∧
    (1 ≤ s.threshold.toNat ∧ s.threshold.toNat ≤ s.owners.length) ∧
    (∀ id, (s.proposals id).confirmationCount.toNat
      = {a | s.hasConfirmed id a = true}.ncard) ∧
    (∀ msg id, revokeConfirmation msg s id ≠ .error .panic) ∧
    ∀ id, performed id c.now.trace + underWay id (CallStack.conts c.stack) ≤ 1 := by
  intro s
  obtain ⟨hs, hledger⟩ := wellFormed_of_reachable d h
  refine ⟨⟨hs.members.nodup, hs.members.zero_notMem, hs.members.isOwner_iff⟩,
    ⟨hs.threshold.pos, hs.threshold.le⟩, hs.tallied.count_eq, fun msg id => ?_, fun id => ?_⟩
  · exact revokeConfirmation_ne_panic hs.tallied msg id
  · rw [hledger id, Storage.executions]
    split
    · exact le_rfl
    · exact Nat.zero_le _

/-! ## A sample wallet -/

/-- Calldata with one argument. -/
def calldata (selector : Bytes) (argument : Uint256) : Bytes :=
  selector ++ Bytes32.toBytes argument

/-- A wallet at an address of its own, and what its dispatcher makes of
calls of the governance functions. -/
def sample : Deployment where
  self := 0x100
  self_ne_zero := by decide
  decode data :=
    let argument := Abi.readWord data 4
    if data.length < 36 then .revert
    else if data.take 4 = [0x70, 0x65, 0xcb, 0x48] then
      .run (.addOwner (BitVec.ofNat 160 argument))
    else if data.take 4 = [0x17, 0x38, 0x25, 0xd9] then
      .run (.removeOwner (BitVec.ofNat 160 argument))
    else if data.take 4 = [0x69, 0x4e, 0x80, 0xc3] then
      .run (.changeThreshold (BitVec.ofNat 256 argument))
    else .revert

/-- A call from one of the owners `1`, `2`, `3` of the sample, … -/
def byOwner (i : Fin 3) (entry : Entry) : SelfCall.Move Entry :=
  .call ⟨⟨BitVec.ofNat 160 (i + 1), 0, 0, by revert i; decide⟩, entry⟩

/-- … and from the wallet. -/
def byWallet (entry : Entry) : SelfCall.Move Entry :=
  .call ⟨⟨sample.self, 0, 0, sample.self_ne_zero⟩, entry⟩

/-- A wallet right after the constructor. -/
def deployed (owners : List Address) (threshold : Uint256) : Option Config :=
  (constructor owners threshold).toOption.map fun s =>
    ⟨⟨SelfCall.Body.start s 0 0, []⟩, []⟩

/-- **What a computed run of a wallet shows is reached.** -/
theorem exists_reachable (d : Deployment) (side : Storage → Call Entry → Prop)
    (owners : List Address) (threshold : Uint256) (moves : List (SelfCall.Move Entry))
    (P : Config → Bool) (hside : ∀ c, .call c ∈ moves → ∀ s, side s c)
    (h : ((deployed owners threshold).any fun c => ((body d).run c moves).any P) = true) :
    ∃ c, Reachable d side c ∧ P c = true := by
  obtain ⟨start, hstart, hrun⟩ := (Option.any_eq_true _ _).mp h
  obtain ⟨s, hs, rfl⟩ := Option.map_eq_some_iff.mp hstart
  obtain ⟨c, hsteps, hP⟩ := SelfCall.Body.exists_of_run hside hrun
  exact ⟨c, ⟨owners, threshold, s, 0, 0, SelfCall.Body.toOption_eq_some.mp hs, hsteps⟩, hP⟩

/-- Two owners add a third one. -/
theorem wallet_wellFormed_sample :
    ∃ c, Reachable sample (fun _ _ => True) c ∧
      c.now.state.storage.owners = [1, 2, 3] ∧ performed 0 c.now.trace = 1 ∧
      c.now.state.storage.owners.Nodup ∧
      performed 0 c.now.trace + underWay 0 (CallStack.conts c.stack) ≤ 1 := by
  obtain ⟨c, hc, hP⟩ := exists_reachable sample (fun _ _ => True) [1, 2] 2
    [byOwner 0 (.submitProposal sample.self 0 (calldata [0x70, 0x65, 0xcb, 0x48] 3)),
      byOwner 1 (.confirmProposal 0), byOwner 1 (.executeProposal 0),
      byWallet (.addOwner 3), .back]
    (fun c => decide (c.now.state.storage.owners = [1, 2, 3]
      ∧ performed 0 c.now.trace = 1))
    (fun _ _ _ => trivial) (by decide)
  obtain ⟨howners, hperformed⟩ := of_decide_eq_true hP
  have h := wallet_wellFormed sample hc
  exact ⟨c, hc, howners, hperformed, h.1.1, h.2.2.2.2 0⟩

end MultiSigGovernance
