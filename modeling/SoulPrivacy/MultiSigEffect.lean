import SoulPrivacy.MultiSigGovernance

/-!
# What a successful call of the wallet did

`Effect` lists, entry point by entry point, what a call that did not revert
says: the guards that did not fire, the storage it left, and the call it is
about to make. `enter_effect` is the inversion of the entry points, and
with `constructor_spec` the only place where their bodies are unfolded.

The loop of `removeOwner` is a matter of its own: whatever the position of
the owner, what is left is the array without it, in another order
(`swapAndPop_perm`).
-/

/-! ## Swap and pop -/

/-- **Swap and pop.** Putting the last element at an index and dropping the
last place takes the element at the index away, up to order. -/
theorem List.set_getLast_dropLast_perm {α : Type} (front back : List α) (a b : α) :
    (((front ++ a :: back).set front.length
      ((front ++ a :: back).getLast?.getD b)).dropLast).Perm (front ++ back) := by
  rcases List.eq_nil_or_concat back with rfl | ⟨rest, z, rfl⟩
  · rw [List.getLast?_concat, List.set_append_right _ _ le_rfl, Nat.sub_self,
      List.set_cons_zero, List.dropLast_concat, List.append_nil]
  · have hassoc : front ++ a :: rest.concat z = (front ++ a :: rest) ++ [z] := by
      rw [List.concat_eq_append, List.append_assoc, List.cons_append]
    rw [hassoc, List.getLast?_concat, ← hassoc, List.set_append_right _ _ le_rfl,
      Nat.sub_self, List.set_cons_zero, Option.getD_some, List.concat_eq_append]
    have hdrop : (front ++ z :: (rest ++ [z])).dropLast = front ++ z :: rest := by
      rw [← List.cons_append, ← List.append_assoc, List.dropLast_concat]
    rw [hdrop]
    exact List.Perm.append_left front (List.perm_append_singleton z rest).symm

namespace MultiSigGovernance

open SelfCall (Msg Outgoing)

/-- The loop skips the elements that are not the owner. -/
theorem swapAndPop_skip {owner : Address} (front back : List Address) (i n : ℕ)
    (hi : i + n = front.length) (hfront : ∀ a ∈ front.drop i, a ≠ owner) (m : ℕ) :
    swapAndPop owner (front ++ back) i (n + m)
      = swapAndPop owner (front ++ back) front.length m := by
  induction n generalizing i with
  | zero =>
    obtain rfl : i = front.length := hi
    rw [Nat.zero_add]
  | succ n ih =>
    have hlt : i < front.length := by omega
    have hne : (front ++ back)[i]? ≠ some owner := by
      rw [List.getElem?_append_left hlt, List.getElem?_eq_getElem hlt]
      intro heq
      refine hfront front[i] ?_ (Option.some.inj heq)
      rw [List.drop_eq_getElem_cons hlt]
      exact List.mem_cons_self
    have hrest : ∀ a ∈ front.drop (i + 1), a ≠ owner := fun a ha =>
      hfront a (List.mem_of_mem_drop (by rwa [List.drop_drop] : a ∈ (front.drop i).drop 1))
    rw [show n + 1 + m = (n + m) + 1 from by omega, swapAndPop, if_neg hne]
    exact ih (i + 1) (by omega) hrest

/-- **What the loop of `removeOwner` leaves** is the array without the
owner, in another order. -/
theorem swapAndPop_perm {owner : Address} {owners : List Address} (h : owner ∈ owners) :
    (swapAndPop owner owners 0 owners.length).Perm (owners.erase owner) := by
  obtain ⟨front, back, hnot, hsplit, herase⟩ := List.exists_erase_eq h
  have hskip := swapAndPop_skip front (owner :: back) 0 front.length (Nat.zero_add _)
    (fun a ha heq => hnot (by rwa [heq, List.drop_zero] at ha)) (back.length + 1)
  have hlen : (front ++ owner :: back).length = front.length + (back.length + 1) := by
    rw [List.length_append, List.length_cons]
  have hat : (front ++ owner :: back)[front.length]? = some owner := by
    rw [List.getElem?_append_right le_rfl, Nat.sub_self]
    rfl
  rw [herase, hsplit, hlen, hskip, swapAndPop, if_pos hat]
  exact List.set_getLast_dropLast_perm front back owner 0

/-! ## The effect of a call -/

/-- The confirmations after one of them is given or taken back. -/
def setConfirmed (hasConfirmed : Uint256 → Address → Bool) (proposalId : Uint256)
    (owner : Address) (b : Bool) : Uint256 → Address → Bool :=
  Function.update hasConfirmed proposalId
    (Function.update (hasConfirmed proposalId) owner b)

/-- What an owner may do to a proposal: it exists and is not executed. -/
structure Open (s : Storage) (proposalId : Uint256) : Prop where
  lt : proposalId < s.proposalCount
  pending : (s.proposals proposalId).executed = false

/-- **What a successful call did.** -/
inductive Effect (self : Address) (msg : Msg) (s : Storage) :
    Entry → Storage → Option (Outgoing Uint256) → Prop
  | submitProposal {target : Address} {value : Uint256} {data : Bytes}
      (owner : s.isOwner msg.sender = true) (room : s.proposalCount.toNat + 1 < 2 ^ 256) :
      Effect self msg s (.submitProposal target value data)
        { s with
          proposalCount := s.proposalCount + 1
          proposals := Function.update s.proposals s.proposalCount
            ⟨target, value, data, 1, s.threshold, false⟩
          hasConfirmed := setConfirmed s.hasConfirmed s.proposalCount msg.sender true } none
  | confirmProposal {proposalId : Uint256} (owner : s.isOwner msg.sender = true)
      (isOpen : Open s proposalId) (new : s.hasConfirmed proposalId msg.sender = false)
      (room : (s.proposals proposalId).confirmationCount.toNat + 1 < 2 ^ 256) :
      Effect self msg s (.confirmProposal proposalId)
        { s with
          hasConfirmed := setConfirmed s.hasConfirmed proposalId msg.sender true
          proposals := Function.update s.proposals proposalId
            { s.proposals proposalId with
              confirmationCount := (s.proposals proposalId).confirmationCount + 1 } } none
  | revokeConfirmation {proposalId : Uint256} (owner : s.isOwner msg.sender = true)
      (isOpen : Open s proposalId) (given : s.hasConfirmed proposalId msg.sender = true)
      (positive : 1 ≤ (s.proposals proposalId).confirmationCount.toNat) :
      Effect self msg s (.revokeConfirmation proposalId)
        { s with
          hasConfirmed := setConfirmed s.hasConfirmed proposalId msg.sender false
          proposals := Function.update s.proposals proposalId
            { s.proposals proposalId with
              confirmationCount := (s.proposals proposalId).confirmationCount - 1 } } none
  | executeProposal {proposalId : Uint256} (owner : s.isOwner msg.sender = true)
      (isOpen : Open s proposalId)
      (enough : (s.proposals proposalId).requiredThreshold
        ≤ (s.proposals proposalId).confirmationCount) :
      Effect self msg s (.executeProposal proposalId)
        { s with
          proposals := Function.update s.proposals proposalId
            { s.proposals proposalId with executed := true } }
        (some ⟨(s.proposals proposalId).target, (s.proposals proposalId).value,
          (s.proposals proposalId).data, proposalId⟩)
  | addOwner {owner : Address} (own : msg.sender = self) (owner_ne : owner ≠ 0)
      (new : s.isOwner owner = false) (room : s.owners.length < 2 ^ 64) :
      Effect self msg s (.addOwner owner)
        { s with
          owners := s.owners ++ [owner]
          isOwner := Function.update s.isOwner owner true } none
  | removeOwner {owner : Address} {threshold : Uint256} (own : msg.sender = self)
      (member : s.isOwner owner = true) (more : 1 < s.owners.length)
      (threshold_eq : threshold
        = if (swapAndPop owner s.owners 0 s.owners.length).length < s.threshold.toNat then
            BitVec.ofNat 256 (swapAndPop owner s.owners 0 s.owners.length).length
          else s.threshold) :
      Effect self msg s (.removeOwner owner)
        { s with
          owners := swapAndPop owner s.owners 0 s.owners.length
          isOwner := Function.update s.isOwner owner false
          threshold } none
  | changeThreshold {threshold : Uint256} (own : msg.sender = self)
      (threshold_ne : threshold ≠ 0) (le : threshold.toNat ≤ s.owners.length) :
      Effect self msg s (.changeThreshold threshold) { s with threshold } none
  | receive : Effect self msg s .receive s none

/-! ## Inverting the entry points -/

section Inversion

variable {self : Address} {msg : Msg} {s s' : Storage} {evs : List Event}
variable {out : Option (Outgoing Uint256)}

theorem onlyOwner_eq_ok {u : Unit} :
    onlyOwner msg s = .ok u ↔ s.isOwner msg.sender = true := by
  simp [onlyOwner]

theorem proposalExists_eq_ok {proposalId : Uint256} {u : Unit} :
    proposalExists s proposalId = .ok u ↔ proposalId < s.proposalCount := by
  simp [proposalExists]

theorem onlySelf_eq_ok {u : Unit} : onlySelf self msg = .ok u ↔ msg.sender = self := by
  simp [onlySelf]

theorem push_eq_ok {owners owners' : List Address} {owner : Address} :
    push owners owner = .ok owners' ↔
      owners.length < 2 ^ 64 ∧ owners' = owners ++ [owner] := by
  unfold push
  rw [revertIf_bind_eq_ok, not_le]
  exact and_congr_right (fun _ => ⟨fun h => (Except.ok.inj h).symm, fun h => h ▸ rfl⟩)

theorem checkedAdd_one_eq_ok {a b : Uint256}
    (h : checkedAdd Error.panic a 1 = .ok b) : a.toNat + 1 < 2 ^ 256 ∧ b = a + 1 := by
  unfold checkedAdd at h
  split at h
  · rename_i hlt
    exact ⟨hlt, (Except.ok.inj h).symm⟩
  · cases h

theorem checkedSub_one_eq_ok {a b : Uint256}
    (h : checkedSub Error.panic a 1 = .ok b) : 1 ≤ a.toNat ∧ b = a - 1 := by
  unfold checkedSub at h
  split at h
  · rename_i hle
    exact ⟨hle, (Except.ok.inj h).symm⟩
  · cases h

theorem nonPayable_eq_ok {body : Except Error Outcome} {r : Outcome}
    (h : nonPayable msg body = .ok r) : body = .ok r :=
  ((revertIf_bind_eq_ok _ _ _ _).mp h).2

theorem submitProposal_effect {target : Address} {value : Uint256} {data : Bytes}
    (h : submitProposal msg s target value data = .ok (s', evs, out)) :
    Effect self msg s (.submitProposal target value data) s' out := by
  unfold submitProposal at h
  obtain ⟨howner, h⟩ := (Except.unit_bind_eq_ok _ _ _).mp h
  obtain ⟨proposalCount, hcount, h⟩ := (Except.bind_eq_ok _ _ _).mp h
  obtain ⟨hroom, rfl⟩ := checkedAdd_one_eq_ok hcount
  cases h
  exact .submitProposal (onlyOwner_eq_ok.mp howner) hroom

/-- **What every call on a proposal checks first**: an owner makes it, and the proposal is
open. -/
theorem onOpen_eq_ok {proposalId : Uint256} {body : Except Error Outcome} {r : Outcome}
    (h : (do
      onlyOwner msg s
      proposalExists s proposalId
      revertIf ((s.proposals proposalId).executed = true) .proposalAlreadyExecuted
      body) = .ok r) :
    s.isOwner msg.sender = true ∧ Open s proposalId ∧ body = .ok r := by
  obtain ⟨howner, h⟩ := (Except.unit_bind_eq_ok _ _ _).mp h
  obtain ⟨hexists, h⟩ := (Except.unit_bind_eq_ok _ _ _).mp h
  obtain ⟨hpending, h⟩ := (revertIf_bind_eq_ok _ _ _ _).mp h
  exact ⟨onlyOwner_eq_ok.mp howner,
    ⟨proposalExists_eq_ok.mp hexists, Bool.not_eq_true _ ▸ hpending⟩, h⟩

theorem confirmProposal_effect {proposalId : Uint256}
    (h : confirmProposal msg s proposalId = .ok (s', evs, out)) :
    Effect self msg s (.confirmProposal proposalId) s' out := by
  unfold confirmProposal at h
  obtain ⟨howner, hopen, h⟩ := onOpen_eq_ok h
  obtain ⟨hnew, h⟩ := (revertIf_bind_eq_ok _ _ _ _).mp h
  obtain ⟨confirmationCount, hcount, h⟩ := (Except.bind_eq_ok _ _ _).mp h
  obtain ⟨hroom, rfl⟩ := checkedAdd_one_eq_ok hcount
  cases h
  exact .confirmProposal howner hopen (Bool.not_eq_true _ ▸ hnew) hroom

theorem revokeConfirmation_effect {proposalId : Uint256}
    (h : revokeConfirmation msg s proposalId = .ok (s', evs, out)) :
    Effect self msg s (.revokeConfirmation proposalId) s' out := by
  unfold revokeConfirmation at h
  obtain ⟨howner, hopen, h⟩ := onOpen_eq_ok h
  obtain ⟨hgiven, h⟩ := (revertIf_bind_eq_ok _ _ _ _).mp h
  obtain ⟨confirmationCount, hcount, h⟩ := (Except.bind_eq_ok _ _ _).mp h
  obtain ⟨hpositive, rfl⟩ := checkedSub_one_eq_ok hcount
  cases h
  exact .revokeConfirmation howner hopen (Bool.not_eq_false _ ▸ hgiven) hpositive

theorem executeProposal_effect {proposalId : Uint256}
    (h : executeProposal msg s proposalId = .ok (s', evs, out)) :
    Effect self msg s (.executeProposal proposalId) s' out := by
  unfold executeProposal at h
  obtain ⟨howner, hopen, h⟩ := onOpen_eq_ok h
  obtain ⟨henough, h⟩ := (revertIf_bind_eq_ok _ _ _ _).mp h
  cases h
  exact .executeProposal howner hopen (BitVec.not_lt.mp henough)

theorem addOwner_effect {owner : Address}
    (h : addOwner self msg s owner = .ok (s', evs, out)) :
    Effect self msg s (.addOwner owner) s' out := by
  unfold addOwner at h
  obtain ⟨hself, h⟩ := (Except.unit_bind_eq_ok _ _ _).mp h
  obtain ⟨hne, h⟩ := (revertIf_bind_eq_ok _ _ _ _).mp h
  obtain ⟨hnew, h⟩ := (revertIf_bind_eq_ok _ _ _ _).mp h
  obtain ⟨owners, hpush, h⟩ := (Except.bind_eq_ok _ _ _).mp h
  obtain ⟨hroom, rfl⟩ := push_eq_ok.mp hpush
  cases h
  exact .addOwner (onlySelf_eq_ok.mp hself) hne (Bool.not_eq_true _ ▸ hnew) hroom

theorem removeOwner_effect {owner : Address}
    (h : removeOwner self msg s owner = .ok (s', evs, out)) :
    Effect self msg s (.removeOwner owner) s' out := by
  unfold removeOwner at h
  obtain ⟨hself, h⟩ := (Except.unit_bind_eq_ok _ _ _).mp h
  obtain ⟨hmember, h⟩ := (revertIf_bind_eq_ok _ _ _ _).mp h
  obtain ⟨hmore, h⟩ := (revertIf_bind_eq_ok _ _ _ _).mp h
  have hown := onlySelf_eq_ok.mp hself
  rw [Bool.not_eq_false] at hmember
  rw [not_le] at hmore
  simp only at h
  split at h
  · rename_i hlt
    cases h
    exact .removeOwner hown hmember hmore (if_pos hlt).symm
  · rename_i hnot
    cases h
    exact .removeOwner hown hmember hmore (if_neg hnot).symm

theorem changeThreshold_effect {threshold : Uint256}
    (h : changeThreshold self msg s threshold = .ok (s', evs, out)) :
    Effect self msg s (.changeThreshold threshold) s' out := by
  unfold changeThreshold at h
  obtain ⟨hself, h⟩ := (Except.unit_bind_eq_ok _ _ _).mp h
  obtain ⟨hvalid, h⟩ := (revertIf_bind_eq_ok _ _ _ _).mp h
  rw [not_or, not_lt] at hvalid
  cases h
  exact .changeThreshold (onlySelf_eq_ok.mp hself) hvalid.1 hvalid.2

/-- **The inversion of a call.** -/
theorem enter_effect {entry : Entry} (h : enter self msg entry s = .ok (s', evs, out)) :
    Effect self msg s entry s' out := by
  cases entry with
  | submitProposal => exact submitProposal_effect (nonPayable_eq_ok h)
  | confirmProposal => exact confirmProposal_effect (nonPayable_eq_ok h)
  | revokeConfirmation => exact revokeConfirmation_effect (nonPayable_eq_ok h)
  | executeProposal => exact executeProposal_effect (nonPayable_eq_ok h)
  | addOwner => exact addOwner_effect (nonPayable_eq_ok h)
  | removeOwner => exact removeOwner_effect (nonPayable_eq_ok h)
  | changeThreshold => exact changeThreshold_effect (nonPayable_eq_ok h)
  | receive =>
    cases h
    exact .receive

end Inversion

end MultiSigGovernance
