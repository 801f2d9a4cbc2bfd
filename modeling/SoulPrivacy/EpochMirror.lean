import SoulPrivacy.EpochSubgraph
import SoulPrivacy.SubgraphClient

/-!
# The subgraph mirrors the epoch manager

What the entity of an epoch says is fixed when the epoch is finalized. The
contract lets nullifiers into the epoch even then, and counts them. So the count
of the entity is not that of the contract, but it is the one that the root
belongs to: the root is over so many nullifiers, the first of the list
(`Faithful.covers`).

The invariant is kept by the three things that can happen to the epochs, and
`startNewEpoch` does two of them: it finalizes the current epoch, unless that is
done, and starts the next one. Therefore all epochs but the current one are
finalized, and the latest entity is that of the current epoch or of the one
before (`getLatestEpoch_of_run`).
-/

namespace EpochSubgraph

open EpochManager (Storage Hashes Event Call Entry)
open Subgraph (Meta)

variable (H : Hashes)

/-! ## The invariant -/

/-- **An entity of an epoch** says what was so when the epoch was finalized. -/
structure Faithful (s : Storage) (epochId : ℕ) (entity : Epoch) : Prop where
  epochId_eq : entity.epochId = epochId
  root_eq : entity.nullifierRoot = (s.epochs epochId).nullifierRoot
  finalizedAt_eq : entity.finalizedAt = (s.epochs epochId).endTime
  count_le : entity.nullifierCount ≤ (s.epochNullifiers epochId).length
  covers : entity.nullifierRoot
    = EpochManager.merkleRoot H.poseidon
      ((s.epochNullifiers epochId).take entity.nullifierCount)

/-- **The epochs of the store are those of the contract.** -/
structure SameEpochs (s : Storage) (store : Store) : Prop where
  started : ∀ e, (store.started e).map (·.startTime)
    = if e ≤ s.currentEpochId then some (s.epochs e).startTime else none
  finalized_iff : ∀ e, (store.epochs e).isSome ↔ (s.epochs e).finalized = true
  faithful : ∀ e entity, store.epochs e = some entity → Faithful H s e entity
  counted : ∀ e, (s.epochs e).nullifierCount = (s.epochNullifiers e).length
  past : ∀ e, e < s.currentEpochId → (s.epochs e).finalized = true
  future : ∀ e, s.currentEpochId < e → (s.epochs e).finalized = false
  empty : ∀ e, s.currentEpochId < e → s.epochNullifiers e = []

/-- **The remote roots of the store are those of the contract.** -/
structure SameRoots (pairs : List (Uint256 × Uint256)) (s : Storage) (store : Store) :
    Prop where
  known : ∀ p ∈ pairs, (store.syncs p).map (fun sync => (sync.root, sync.receivedAt))
      = some ((s.remoteRoots (keyOf H p)).nullifierRoot, (s.remoteRoots (keyOf H p)).receivedAt)
    ∧ (s.remoteRoots (keyOf H p)).nullifierRoot ≠ 0
  unknown : ∀ p, p ∉ pairs → store.syncs p = none
  blank : ∀ key, (∀ p ∈ pairs, keyOf H p ≠ key) → (s.remoteRoots key).nullifierRoot = 0

variable {H} {s s' : Storage} {store store' : Store}

/-- **An entity stays faithful** while the epoch keeps its root and its end: the first
nullifiers of a list are the first of a longer one. -/
theorem Faithful.of_isPrefix {e : ℕ} {entity : Epoch} (h : Faithful H s e entity)
    (hroot : (s'.epochs e).nullifierRoot = (s.epochs e).nullifierRoot)
    (hend : (s'.epochs e).endTime = (s.epochs e).endTime)
    (hlist : s.epochNullifiers e <+: s'.epochNullifiers e) : Faithful H s' e entity := by
  obtain ⟨hid, hentityRoot, hfinalized, hcount, hcovers⟩ := h
  refine ⟨hid, hentityRoot.trans hroot.symm, hfinalized.trans hend.symm,
    hcount.trans hlist.length_le, ?_⟩
  obtain ⟨more, hmore⟩ := hlist
  rw [hcovers, ← hmore, List.take_append_of_le_length hcount]

/-- **An epoch is finalized.** -/
theorem SameEpochs.finalize (h : SameEpochs H s store) {e : ℕ} (hcurrent : e ≤ s.currentEpochId)
    (hopen : (s.epochs e).finalized = false) {m : Meta} {timestamp : ℕ}
    (hm : m.blockTimestamp = timestamp)
    (hepochs : s'.epochs = Function.update s.epochs e (EpochManager.finalizedAt timestamp
      (s.epochs e) (EpochManager.merkleRoot H.poseidon (s.epochNullifiers e))))
    (hlists : s'.epochNullifiers = s.epochNullifiers)
    (hsame : s'.currentEpochId = s.currentEpochId) :
    SameEpochs H s' (handleEpochFinalized m e
      (EpochManager.merkleRoot H.poseidon (s.epochNullifiers e)) (s.epochs e).nullifierCount
      store) := by
  have hother : ∀ {e'}, e' ≠ e → s'.epochs e' = s.epochs e' := fun hne => by
    rw [hepochs, Function.update_of_ne hne]
  have hself : s'.epochs e = EpochManager.finalizedAt timestamp (s.epochs e)
      (EpochManager.merkleRoot H.poseidon (s.epochNullifiers e)) := by
    rw [hepochs, Function.update_self]
  refine ⟨fun e' => ?_, fun e' => ?_, fun e' entity hentity => ?_, fun e' => ?_, fun e' hlt => ?_,
    fun e' hlt => ?_, fun e' hlt => ?_⟩
  · rw [hsame]
    by_cases heq : e' = e
    · subst heq
      rw [hself]
      exact h.started e'
    · rw [hother heq]
      exact h.started e'
  · by_cases heq : e' = e
    · subst heq
      rw [hself]
      show (Function.update store.epochs e' _ e').isSome ↔ _
      rw [Function.update_self]
      exact iff_of_true rfl rfl
    · rw [hother heq]
      show (Function.update store.epochs e _ e').isSome ↔ _
      rw [Function.update_of_ne heq]
      exact h.finalized_iff e'
  · replace hentity : Function.update store.epochs e _ e' = some entity := hentity
    by_cases heq : e' = e
    · subst heq
      rw [Function.update_self] at hentity
      cases hentity
      refine ⟨rfl, ?_, ?_, ?_, ?_⟩
      · rw [hself]
        rfl
      · rw [hself]
        exact hm
      · rw [hlists]
        exact (h.counted e').le
      · rw [hlists, List.take_of_length_le (h.counted e').ge]
    · rw [Function.update_of_ne heq] at hentity
      refine (h.faithful e' entity hentity).of_isPrefix ?_ ?_ ?_
      · rw [hother heq]
      · rw [hother heq]
      · rw [hlists]
  · rw [hlists]
    by_cases heq : e' = e
    · subst heq
      rw [hself]
      exact h.counted e'
    · rw [hother heq]
      exact h.counted e'
  · by_cases heq : e' = e
    · subst heq
      rw [hself]
      rfl
    · rw [hother heq]
      exact h.past e' (hsame ▸ hlt)
  · have hne : e' ≠ e := (hcurrent.trans_lt (hsame ▸ hlt)).ne'
    rw [hother hne]
    exact h.future e' (hsame ▸ hlt)
  · rw [hlists]
    exact h.empty e' (hsame ▸ hlt)

/-- **The next epoch is started**, behind one that is finalized. -/
theorem SameEpochs.advance (h : SameEpochs H s store)
    (hclosed : (s.epochs s.currentEpochId).finalized = true) (m : Meta) {timestamp endTime : ℕ}
    (hepochs : s'.epochs = Function.update s.epochs (s.currentEpochId + 1)
      ⟨timestamp, endTime, 0, 0, false⟩)
    (hlists : s'.epochNullifiers = s.epochNullifiers)
    (hnext : s'.currentEpochId = s.currentEpochId + 1) :
    SameEpochs H s' (handleEpochStarted m (s.currentEpochId + 1) timestamp store) := by
  have hother : ∀ {e}, e ≠ s.currentEpochId + 1 → s'.epochs e = s.epochs e := fun hne => by
    rw [hepochs, Function.update_of_ne hne]
  have hself : s'.epochs (s.currentEpochId + 1) = ⟨timestamp, endTime, 0, 0, false⟩ := by
    rw [hepochs, Function.update_self]
  refine ⟨fun e => ?_, fun e => ?_, fun e entity hentity => ?_, fun e => ?_, fun e hlt => ?_,
    fun e hlt => ?_, fun e hlt => ?_⟩
  · show (Function.update store.started (s.currentEpochId + 1) _ e).map _ = _
    rw [hnext]
    by_cases heq : e = s.currentEpochId + 1
    · subst heq
      rw [Function.update_self, hself, if_pos le_rfl]
      rfl
    · rw [Function.update_of_ne heq, hother heq, h.started e]
      have hiff : e ≤ s.currentEpochId + 1 ↔ e ≤ s.currentEpochId :=
        ⟨fun hle => Nat.lt_succ_iff.mp (lt_of_le_of_ne hle heq),
          fun hle => hle.trans (Nat.le_succ _)⟩
      rw [if_congr hiff rfl rfl]
  · by_cases heq : e = s.currentEpochId + 1
    · subst heq
      rw [hself]
      refine iff_of_false (fun hsome => ?_) Bool.false_ne_true
      exact Bool.false_ne_true ((h.future _ (Nat.lt_succ_self _)).symm.trans
        ((h.finalized_iff _).mp hsome))
    · rw [hother heq]
      exact h.finalized_iff e
  · have hne : e ≠ s.currentEpochId + 1 := by
      rintro rfl
      have hdone := (h.finalized_iff _).mp (Option.isSome_iff_exists.mpr ⟨entity, hentity⟩)
      rw [h.future _ (Nat.lt_succ_self _)] at hdone
      cases hdone
    refine (h.faithful e entity hentity).of_isPrefix ?_ ?_ ?_
    · rw [hother hne]
    · rw [hother hne]
    · rw [hlists]
  · rw [hlists]
    by_cases heq : e = s.currentEpochId + 1
    · subst heq
      rw [hself, h.empty _ (Nat.lt_succ_self _)]
      rfl
    · rw [hother heq]
      exact h.counted e
  · rw [hnext] at hlt
    rw [hother hlt.ne]
    obtain hlt' | rfl := Nat.lt_succ_iff_lt_or_eq.mp hlt
    · exact h.past e hlt'
    · exact hclosed
  · rw [hnext] at hlt
    rw [hother hlt.ne']
    exact h.future e ((Nat.lt_succ_self _).trans hlt)
  · rw [hnext] at hlt
    rw [hlists]
    exact h.empty e ((Nat.lt_succ_self _).trans hlt)

/-- **A nullifier is registered** in the current epoch, be it finalized or not. -/
theorem SameEpochs.register (h : SameEpochs H s store) {nullifier : Bytes32}
    (hepochs : s'.epochs = Function.update s.epochs s.currentEpochId
      { s.epochs s.currentEpochId with
        nullifierCount := (s.epochs s.currentEpochId).nullifierCount + 1 })
    (hlists : s'.epochNullifiers = Function.update s.epochNullifiers s.currentEpochId
      (s.epochNullifiers s.currentEpochId ++ [nullifier]))
    (hsame : s'.currentEpochId = s.currentEpochId) : SameEpochs H s' store := by
  have hepoch : ∀ e, (s'.epochs e).startTime = (s.epochs e).startTime
      ∧ (s'.epochs e).endTime = (s.epochs e).endTime
      ∧ (s'.epochs e).nullifierRoot = (s.epochs e).nullifierRoot
      ∧ (s'.epochs e).finalized = (s.epochs e).finalized := by
    intro e
    rw [hepochs]
    by_cases heq : e = s.currentEpochId
    · subst heq
      rw [Function.update_self]
      exact ⟨rfl, rfl, rfl, rfl⟩
    · rw [Function.update_of_ne heq]
      exact ⟨rfl, rfl, rfl, rfl⟩
  have hfirst : ∀ e, s.epochNullifiers e <+: s'.epochNullifiers e := by
    intro e
    rw [hlists]
    by_cases heq : e = s.currentEpochId
    · subst heq
      rw [Function.update_self]
      exact List.prefix_append _ _
    · rw [Function.update_of_ne heq]
  refine ⟨fun e => ?_, fun e => ?_, fun e entity hentity => ?_, fun e => ?_, fun e hlt => ?_,
    fun e hlt => ?_, fun e hlt => ?_⟩
  · rw [hsame, (hepoch e).1]
    exact h.started e
  · rw [(hepoch e).2.2.2]
    exact h.finalized_iff e
  · exact (h.faithful e entity hentity).of_isPrefix (hepoch e).2.2.1 (hepoch e).2.1 (hfirst e)
  · rw [hepochs, hlists]
    by_cases heq : e = s.currentEpochId
    · subst heq
      rw [Function.update_self, Function.update_self, List.length_append, ← h.counted]
      rfl
    · rw [Function.update_of_ne heq, Function.update_of_ne heq]
      exact h.counted e
  · rw [(hepoch e).2.2.2]
    exact h.past e (hsame ▸ hlt)
  · rw [(hepoch e).2.2.2]
    exact h.future e (hsame ▸ hlt)
  · have hlt' : s.currentEpochId < e := hsame ▸ hlt
    rw [hlists, Function.update_of_ne hlt'.ne']
    exact h.empty e hlt'

/-- Nothing else matters to the epochs. -/
theorem SameEpochs.of_eq (h : SameEpochs H s store) (hepochs : s'.epochs = s.epochs)
    (hlists : s'.epochNullifiers = s.epochNullifiers)
    (hsame : s'.currentEpochId = s.currentEpochId) (hstarted : store'.started = store.started)
    (hentities : store'.epochs = store.epochs) : SameEpochs H s' store' := by
  refine ⟨?_, ?_, fun e entity hentity => ?_, ?_, ?_, ?_, ?_⟩
  · rw [hstarted, hsame, hepochs]
    exact h.started
  · rw [hentities, hepochs]
    exact h.finalized_iff
  · rw [hentities] at hentity
    refine (h.faithful e entity hentity).of_isPrefix ?_ ?_ ?_
    · rw [hepochs]
    · rw [hepochs]
    · rw [hlists]
  · rw [hepochs, hlists]
    exact h.counted
  · rw [hsame, hepochs]
    exact h.past
  · rw [hsame, hepochs]
    exact h.future
  · rw [hsame, hlists]
    exact h.empty

/-! ## Remote roots -/

/-- **A root is received.** -/
theorem SameRoots.receive {pairs : List (Uint256 × Uint256)} (h : SameRoots H pairs s store)
    {sourceChainId epochId : Uint256} {root : Bytes32} {timestamp : ℕ} {m : Meta}
    (hfree : KeysApart H (pairs ++ [(sourceChainId, epochId)])) (hroot : root ≠ 0)
    (hm : m.blockTimestamp = timestamp)
    (hroots : s'.remoteRoots = Function.update s.remoteRoots (keyOf H (sourceChainId, epochId))
      ⟨sourceChainId, epochId, root, timestamp⟩) :
    SameRoots H (pairs ++ [(sourceChainId, epochId)]) s'
      (handleRemoteEpochRootReceived m sourceChainId epochId root store) := by
  have hnew : (sourceChainId, epochId) ∈ pairs ++ [(sourceChainId, epochId)] :=
    List.mem_append_right _ (List.mem_singleton_self _)
  have hmem : ∀ {p}, p ≠ (sourceChainId, epochId) →
      (p ∈ pairs ++ [(sourceChainId, epochId)] ↔ p ∈ pairs) := by
    intro p hne
    rw [List.mem_append, List.mem_singleton]
    exact or_iff_left hne
  have hsync : ∀ {p}, p ≠ (sourceChainId, epochId) →
      (handleRemoteEpochRootReceived m sourceChainId epochId root store).syncs p
        = store.syncs p :=
    fun hne => Function.update_of_ne hne _ _
  refine ⟨fun p hp => ?_, fun p hp => ?_, fun key hkey => ?_⟩
  · by_cases heq : p = (sourceChainId, epochId)
    · subst heq
      rw [hroots, Function.update_self]
      refine ⟨?_, hroot⟩
      show (Function.update store.syncs _ _ _).map _ = _
      rw [Function.update_self]
      exact congrArg (fun t => some (root, t)) hm
    · have hkey : keyOf H p ≠ keyOf H (sourceChainId, epochId) :=
        fun hkey => heq (hfree p hp _ hnew hkey)
      rw [hsync heq, hroots, Function.update_of_ne hkey]
      exact h.known p ((hmem heq).mp hp)
  · have heq : p ≠ (sourceChainId, epochId) := by
      rintro rfl
      exact hp hnew
    rw [hsync heq]
    exact h.unknown p (fun hold => hp ((hmem heq).mpr hold))
  · rw [hroots, Function.update_of_ne (hkey _ hnew).symm]
    exact h.blank key (fun p hp => hkey p (List.mem_append_left _ hp))

/-- Nothing else matters to the remote roots. -/
theorem SameRoots.of_eq {pairs : List (Uint256 × Uint256)} (h : SameRoots H pairs s store)
    (hroots : s'.remoteRoots = s.remoteRoots) (hsyncs : store'.syncs = store.syncs) :
    SameRoots H pairs s' store' := by
  refine ⟨?_, ?_, ?_⟩
  · rw [hroots, hsyncs]
    exact h.known
  · rw [hsyncs]
    exact h.unknown
  · rw [hroots]
    exact h.blank

/-! ## Calls -/

/-- **The store mirrors the contract.** -/
structure Mirrored (H : Hashes) (pairs : List (Uint256 × Uint256)) (s : Storage)
    (store : Store) : Prop where
  epochs : SameEpochs H s store
  roots : SameRoots H pairs s store

/-- One event of a log. -/
theorem exists_of_map_eq_singleton {log : List (Meta × Event)} {time : ℕ} {event : Event}
    (h : log.map stamp = [(time, event)]) :
    ∃ m : Meta, m.blockTimestamp = time ∧ log = [(m, event)] := by
  obtain ⟨⟨m, event'⟩, rfl, heq⟩ := List.map_eq_singleton_iff.mp h
  cases heq
  exact ⟨m, rfl, rfl⟩

section Calls

variable {pairs : List (Uint256 × Uint256)} {events : List Event} {log : List (Meta × Event)}
  {timestamp : ℕ}

/-- **The current epoch is finalized.** -/
theorem Mirrored.finalizeEpochInternal (h : Mirrored H pairs s store)
    (he : EpochManager.finalizeEpochInternal H timestamp s.currentEpochId s = .ok (s', events))
    (hlog : log.map stamp = events.map (fun e => (timestamp, e))) :
    Mirrored H pairs s' (handleAll log store) ∧ s'.currentEpochId = s.currentEpochId
      ∧ (s'.epochs s'.currentEpochId).finalized = true := by
  obtain ⟨hopen, -⟩ := EpochManager.finalizeEpochInternal_eq_ok he
  rw [EpochManager.finalizeEpochInternal_of_open hopen] at he
  cases he
  obtain ⟨m, hm, rfl⟩ := exists_of_map_eq_singleton hlog
  refine ⟨⟨h.epochs.finalize le_rfl hopen hm rfl rfl rfl, h.roots.of_eq rfl rfl⟩, rfl, ?_⟩
  dsimp only
  rw [Function.update_self]
  rfl

/-- **The current epoch is finalized if it was not.** -/
theorem Mirrored.closeCurrent (h : Mirrored H pairs s store)
    (he : EpochManager.closeCurrent H timestamp s = .ok (s', events))
    (hlog : log.map stamp = events.map (fun e => (timestamp, e))) :
    Mirrored H pairs s' (handleAll log store) ∧ s'.currentEpochId = s.currentEpochId
      ∧ (s'.epochs s'.currentEpochId).finalized = true := by
  unfold EpochManager.closeCurrent at he
  split at he
  case isTrue => exact h.finalizeEpochInternal he hlog
  case isFalse hclosed =>
    cases he
    cases List.map_eq_nil_iff.mp hlog
    exact ⟨h, rfl, Bool.eq_true_of_not_eq_false hclosed⟩

/-- **The next epoch is started.** -/
theorem Mirrored.advance (h : Mirrored H pairs s store)
    (hclosed : (s.epochs s.currentEpochId).finalized = true)
    (he : EpochManager.advance timestamp s = .ok (s', events))
    (hlog : log.map stamp = events.map (fun e => (timestamp, e))) :
    Mirrored H pairs s' (handleAll log store) := by
  unfold EpochManager.advance at he
  obtain ⟨epoch, hepoch, he⟩ := (Except.bind_eq_ok _ _ _).mp he
  obtain rfl := EpochManager.newEpoch_eq_ok hepoch
  cases he
  obtain ⟨m, -, rfl⟩ := exists_of_map_eq_singleton hlog
  exact ⟨h.epochs.advance hclosed m rfl rfl rfl, h.roots.of_eq rfl rfl⟩

/-- **An epoch is closed and the next one started.** -/
theorem Mirrored.startNewEpoch (h : Mirrored H pairs s store)
    (he : EpochManager.startNewEpoch H timestamp s = .ok (s', events))
    (hlog : log.map stamp = events.map (fun e => (timestamp, e))) :
    Mirrored H pairs s' (handleAll log store) := by
  unfold EpochManager.startNewEpoch at he
  obtain ⟨-, he⟩ := (revertIf_bind_eq_ok _ _ _ _).mp he
  obtain ⟨⟨s₁, events₁⟩, hclose, he⟩ := (Except.bind_eq_ok _ _ _).mp he
  obtain ⟨⟨s₂, events₂⟩, hadvance, he⟩ := (Except.bind_eq_ok _ _ _).mp he
  cases he
  rw [List.map_append] at hlog
  obtain ⟨before, after, rfl, hbefore, hafter⟩ := List.map_eq_append_iff.mp hlog
  obtain ⟨hmirrored, -, hclosed⟩ := h.closeCurrent hclose hbefore
  rw [handleAll, List.foldl_append]
  exact hmirrored.advance hclosed hadvance hafter

/-- Governance is not indexed. -/
theorem Mirrored.governed (h : Mirrored H pairs s store) {sender : Address} {s₁ : Storage}
    (he : EpochManager.governed sender s s₁ = .ok (s', events))
    (hlog : log.map stamp = events.map (fun e => (timestamp, e)))
    (hepochs : s₁.epochs = s.epochs) (hlists : s₁.epochNullifiers = s.epochNullifiers)
    (hcurrent : s₁.currentEpochId = s.currentEpochId)
    (hroots : s₁.remoteRoots = s.remoteRoots) : Mirrored H pairs s' (handleAll log store) := by
  obtain ⟨-, he⟩ := (Except.unit_bind_eq_ok _ _ _).mp he
  cases he
  cases List.map_eq_nil_iff.mp hlog
  exact ⟨h.epochs.of_eq hepochs hlists hcurrent rfl rfl, h.roots.of_eq hroots rfl⟩

/-- **Every call keeps it.** -/
theorem Mirrored.exec (h : Mirrored H pairs s store) {c : Call}
    (he : EpochManager.exec H c s = .ok (s', events))
    (hlog : log.map stamp = events.map (fun e => (c.timestamp, e)))
    (hfree : KeysApart H (pairs ++ received [(s, c)])) :
    Mirrored H (pairs ++ received [(s, c)]) s' (handleAll log store) := by
  obtain ⟨sender, timestamp, entry⟩ := c
  unfold EpochManager.exec at he
  have hnil : pairs ++ [] = pairs := List.append_nil pairs
  cases entry with
  | startNewEpoch => exact hnil.symm ▸ h.startNewEpoch he hlog
  | finalizeEpoch => exact hnil.symm ▸ (h.finalizeEpochInternal he hlog).1
  | registerNullifier nullifier =>
    obtain ⟨-, he⟩ := (Except.unit_bind_eq_ok _ _ _).mp he
    cases he
    cases List.map_eq_nil_iff.mp hlog
    exact hnil.symm ▸ ⟨h.epochs.register rfl rfl rfl, h.roots.of_eq rfl rfl⟩
  | receiveRemoteEpochRoot sourceChainId epochId nullifierRoot =>
    obtain ⟨-, he⟩ := (Except.unit_bind_eq_ok _ _ _).mp he
    obtain ⟨hroot, he⟩ := (revertIf_bind_eq_ok _ _ _ _).mp he
    cases he
    obtain ⟨m, hm, rfl⟩ := exists_of_map_eq_singleton hlog
    exact ⟨h.epochs.of_eq rfl rfl rfl rfl rfl, h.roots.receive hfree hroot hm rfl⟩
  | authorizePool | revokePool | authorizeBridge | revokeBridge | setGovernance =>
    exact hnil.symm ▸ h.governed he hlog rfl rfl rfl rfl

end Calls

/-! ## Runs -/

/-- What a constructor leaves is mirrored by the store behind its event. -/
theorem Mirrored.init {sender : Address} {deployedAt duration : ℕ} {domainChainId : Uint256}
    (h : EpochManager.construct sender deployedAt duration domainChainId = .ok s)
    {log : List (Meta × Event)} (hlog : log.map stamp = timed H deployedAt []) :
    Mirrored H [] s (index log) := by
  obtain ⟨first, hfirst, h⟩ := (Except.bind_eq_ok _ _ _).mp h
  obtain rfl := EpochManager.newEpoch_eq_ok hfirst
  cases h
  obtain ⟨m, -, rfl⟩ := exists_of_map_eq_singleton hlog
  refine ⟨⟨fun e => ?_, fun e => ?_, nofun, fun e => ?_, nofun, fun e hlt => ?_,
    fun _ _ => rfl⟩, ⟨nofun, fun _ _ => rfl, fun _ _ => rfl⟩⟩
  · show (Function.update (fun _ => none) 0 _ e).map _ = if e ≤ 0 then _ else none
    by_cases heq : e = 0
    · subst heq
      rw [Function.update_self, if_pos le_rfl]
      rfl
    · rw [Function.update_of_ne heq, if_neg (fun hle => heq (Nat.le_zero.mp hle))]
      rfl
  · refine iff_of_false Bool.false_ne_true ?_
    dsimp only
    rw [Function.update_apply]
    split <;> exact Bool.false_ne_true
  · dsimp only
    rw [Function.update_apply]
    split <;> rfl
  · have hne : e ≠ 0 := Nat.ne_of_gt hlt
    dsimp only
    rw [Function.update_of_ne hne]

theorem KeysApart.mono {pairs pairs' : List (Uint256 × Uint256)} (h : KeysApart H pairs')
    (hsub : pairs ⊆ pairs') : KeysApart H pairs :=
  fun p hp q hq => h p (hsub hp) q (hsub hq)

theorem received_append (tr tr' : List (Storage × Call)) :
    received (tr ++ tr') = received tr ++ received tr' :=
  List.flatMap_append

/-- **The store mirrors the contract in every run**, as long as the keys of the
received roots are different. -/
theorem mirrored_of_run {sender : Address} {deployedAt duration : ℕ} {domainChainId : Uint256}
    {s₀ : Storage} (h₀ : EpochManager.construct sender deployedAt duration domainChainId = .ok s₀)
    {tr : List (Storage × Call)} (hrun : Run (EpochManager.step H) (fun _ _ => True) s₀ tr s) :
    KeysApart H (received tr) → ∀ log, log.map stamp = timed H deployedAt tr →
      Mirrored H (received tr) s (index log) := by
  refine hrun.invariant (I := fun tr s => KeysApart H (received tr) → ∀ log,
    log.map stamp = timed H deployedAt tr → Mirrored H (received tr) s (index log))
    (fun _ log hlog => Mirrored.init h₀ hlog) ?_
  intro tr s c s' ih _ hstep hfree log hlog
  obtain ⟨⟨s₁, events⟩, hexec, rfl⟩ := Except.map_eq_ok.mp hstep
  rw [received_append] at hfree ⊢
  have hevents : timedOf H (s, c) = events.map (fun e => (c.timestamp, e)) := by
    unfold timedOf emitted
    rw [hexec]
  rw [timed_append_singleton, hevents] at hlog
  obtain ⟨before, after, rfl, hbefore, hafter⟩ := List.map_eq_append_iff.mp hlog
  rw [index_append]
  exact (ih (hfree.mono (List.subset_append_left _ _)) before hbefore).exec hexec hafter hfree

/-- **The subgraph mirrors the epoch manager** in every run, as long as the keys of
the received roots are different: it has the started epochs with their times, the
finalized ones, each faithful, and the remote roots that the contract has. -/
theorem mirrors_epochs_of_run {sender : Address} {deployedAt duration : ℕ} {domainChainId : Uint256}
    {s₀ : Storage} (h₀ : EpochManager.construct sender deployedAt duration domainChainId = .ok s₀)
    {tr : List (Storage × Call)} (hrun : Run (EpochManager.step H) (fun _ _ => True) s₀ tr s)
    (hfree : KeysApart H (received tr)) {log : List (Meta × Event)}
    (hlog : log.map stamp = timed H deployedAt tr) :
    (∀ e, ((index log).started e).map (·.startTime)
        = if e ≤ s.currentEpochId then some (s.epochs e).startTime else none)
      ∧ (∀ e, ((index log).epochs e).isSome ↔ (s.epochs e).finalized = true)
      ∧ (∀ e entity, (index log).epochs e = some entity → Faithful H s e entity)
      ∧ ∀ p, KeysApart H (p :: received tr) →
        ((index log).syncs p).map (·.root)
          = if EpochManager.getRemoteEpochRoot H s p.1 p.2 = 0 then none
            else some (EpochManager.getRemoteEpochRoot H s p.1 p.2) := by
  obtain ⟨hepochs, hroots⟩ := mirrored_of_run h₀ hrun hfree log hlog
  refine ⟨hepochs.started, hepochs.finalized_iff, hepochs.faithful, fun p hp => ?_⟩
  show _ = if (s.remoteRoots (keyOf H p)).nullifierRoot = 0 then none
    else some (s.remoteRoots (keyOf H p)).nullifierRoot
  by_cases hmem : p ∈ received tr
  · obtain ⟨hsync, hne⟩ := hroots.known p hmem
    obtain ⟨sync, hsync, heq⟩ := Option.map_eq_some_iff.mp hsync
    rw [hsync, if_neg hne]
    exact congrArg some (Prod.mk.inj heq).1
  · have hother : ∀ q ∈ received tr, keyOf H q ≠ keyOf H p := by
      rintro q hq hkey
      have heq := hp q (List.mem_cons_of_mem p hq) p List.mem_cons_self hkey
      exact hmem (heq ▸ hq)
    rw [hroots.unknown p hmem, if_pos (hroots.blank _ hother)]
    rfl

/-- The last epoch that is finalized, if there is one. -/
def lastFinalized (s : Storage) : Option ℕ :=
  if (s.epochs s.currentEpochId).finalized = true then some s.currentEpochId
  else if s.currentEpochId = 0 then none
  else some (s.currentEpochId - 1)

/-- A log of a run, with nothing else of its blocks. -/
def logOf (H : Hashes) (deployedAt : ℕ) (tr : List (Storage × Call)) : List (Meta × Event) :=
  (timed H deployedAt tr).map (fun e => (⟨0, 0, 1, 0, e.1⟩, e.2))

theorem map_stamp_logOf (H : Hashes) (deployedAt : ℕ) (tr : List (Storage × Call)) :
    (logOf H deployedAt tr).map stamp = timed H deployedAt tr := by
  unfold logOf
  rw [List.map_map]
  exact List.map_id _

open EpochManager (toyHashes toyManager)

/-- A nullifier, the end of the epoch, and another nullifier in it. -/
theorem exists_late_run :
    ∃ tr s, Run (EpochManager.step toyHashes) (fun _ _ => True) toyManager tr s
      ∧ received tr = [] ∧ (s.epochs 0).nullifierCount = 2 ∧ lastFinalized s = some 0
      ∧ ((index (logOf toyHashes 0 tr)).epochs 0).map (·.nullifierCount) = some 1 := by
  refine ⟨_, _, (((Run.nil.snoc (c := ⟨1, 0, .authorizePool 2⟩) trivial rfl).snoc
    (c := ⟨2, 1, .registerNullifier 5⟩) trivial rfl).snoc
    (c := ⟨3, 4, .finalizeEpoch⟩) trivial rfl).snoc
    (c := ⟨2, 5, .registerNullifier 9⟩) trivial rfl, ?_, ?_, ?_, ?_⟩
  all_goals rfl

/-- The entity counts one and the contract two, and the root is over the one. -/
theorem mirrors_epochs_of_run_late :
    ∃ (tr : List (Storage × Call)) (s : Storage) (entity : Epoch),
      Run (EpochManager.step toyHashes) (fun _ _ => True) toyManager tr s
        ∧ (index (logOf toyHashes 0 tr)).epochs 0 = some entity
        ∧ entity.nullifierCount = 1 ∧ (s.epochs 0).nullifierCount = 2
        ∧ entity.nullifierRoot
          = EpochManager.merkleRoot toyHashes.poseidon ((s.epochNullifiers 0).take 1) := by
  obtain ⟨tr, s, hrun, hreceived, hcount, -, hentity⟩ := exists_late_run
  obtain ⟨entity, hentity, hone⟩ := Option.map_eq_some_iff.mp hentity
  have h₀ : EpochManager.construct 1 0 10 7 = .ok toyManager := rfl
  obtain ⟨-, -, hfaithful, -⟩ := mirrors_epochs_of_run h₀ hrun (by rw [hreceived]; exact nofun)
    (map_stamp_logOf toyHashes 0 tr)
  have hcovers := (hfaithful 0 entity hentity).covers
  rw [hone] at hcovers
  exact ⟨tr, s, entity, hrun, hentity, hone, hcount, hcovers⟩

/-! ## The latest epoch -/

open SubgraphClient (Requests Response query query_eq_ok bind_eq_ok)
open EntityTable (FindsLast)

/-- `getLatestEpoch` of the toolkit, by what the endpoint replies to a query for
one epoch, the largest number first. -/
def getLatestEpoch (reply : ℕ → Response (List Epoch)) : Requests (Option Epoch) := do
  let data ← query reply
  return data.head?

/-- **The finalized epochs** are those up to the last one. -/
theorem SameEpochs.finalized_iff_le (h : SameEpochs H s store) {e : ℕ} :
    (s.epochs e).finalized = true ↔ ∃ last, lastFinalized s = some last ∧ e ≤ last := by
  unfold lastFinalized
  split
  case isTrue hclosed =>
    constructor
    · intro hfinalized
      refine ⟨_, rfl, le_of_not_gt (fun hlt => ?_)⟩
      rw [h.future e hlt] at hfinalized
      cases hfinalized
    · rintro ⟨last, ⟨⟩, hle⟩
      obtain hlt | rfl := Nat.lt_or_eq_of_le hle
      · exact h.past e hlt
      · exact hclosed
  case isFalse hopen =>
    have hlt : (s.epochs e).finalized = true ↔ e < s.currentEpochId := by
      refine ⟨fun hfinalized => ?_, h.past e⟩
      by_contra hge
      obtain hlt | rfl := Nat.lt_or_eq_of_le (not_lt.mp hge)
      · rw [h.future e hlt] at hfinalized
        cases hfinalized
      · exact hopen hfinalized
    rw [hlt]
    split
    case isTrue hzero => exact iff_of_false (by omega) nofun
    case isFalse hpos =>
      constructor
      · exact fun h => ⟨_, rfl, by omega⟩
      · rintro ⟨last, ⟨⟩, hle⟩
        omega

/-- **The latest epoch that the toolkit gets** is the last that is finalized, with
the root that the contract has: in every run, wherever the store is at the
request. -/
theorem getLatestEpoch_of_run {sender : Address} {deployedAt duration : ℕ}
    {domainChainId : Uint256} {s₀ : Storage}
    (h₀ : EpochManager.construct sender deployedAt duration domainChainId = .ok s₀)
    {tr : List (Storage × Call)} (hrun : Run (EpochManager.step H) (fun _ _ => True) s₀ tr s)
    (hfree : KeysApart H (received tr)) {log : List (Meta × Event)}
    (hlog : log.map stamp = timed H deployedAt tr) {reply : ℕ → Response (List Epoch)} {i j : ℕ}
    (hserves : (reply i).IsAnswer →
      FindsLast (index log).epochs (·.epochId) (reply i).data)
    {o : Option Epoch} (h : getLatestEpoch reply i = .ok (o, j)) :
    o.map (·.epochId) = lastFinalized s
      ∧ ∀ entity ∈ o, entity.nullifierRoot = EpochManager.getEpochRoot s entity.epochId := by
  obtain ⟨hepochs, -⟩ := mirrored_of_run h₀ hrun hfree log hlog
  obtain ⟨data, i', hquery, h⟩ := bind_eq_ok.mp h
  obtain ⟨hanswer, rfl, rfl⟩ := query_eq_ok.mp hquery
  have hfinds := hserves hanswer
  cases h
  cases hdata : (reply i).data with
  | nil =>
    refine ⟨?_, nofun⟩
    -- no entity, so not even the last epoch is finalized
    cases hlast : lastFinalized s with
    | none => rfl
    | some last =>
      have hfinalized := hepochs.finalized_iff_le.mpr ⟨last, hlast, le_rfl⟩
      have hsome := (hepochs.finalized_iff last).mpr hfinalized
      rw [hfinds.complete hdata last] at hsome
      cases hsome
  | cons entity rest =>
    have hmem : entity ∈ (reply i).data := hdata ▸ List.mem_cons_self
    obtain ⟨e, he⟩ := hfinds.sound entity hmem
    have hfaithful := hepochs.faithful e entity he
    have hid : entity.epochId = e := hfaithful.epochId_eq
    have hfinalized := (hepochs.finalized_iff e).mp (Option.isSome_iff_exists.mpr ⟨entity, he⟩)
    obtain ⟨last, hlast, hle⟩ := hepochs.finalized_iff_le.mp hfinalized
    refine ⟨?_, ?_⟩
    · obtain ⟨other, hother⟩ := Option.isSome_iff_exists.mp ((hepochs.finalized_iff last).mpr
        (hepochs.finalized_iff_le.mpr ⟨last, hlast, le_rfl⟩))
      have hge := hfinds.last entity hmem last other hother
      rw [(hepochs.faithful last other hother).epochId_eq, hid] at hge
      rw [hlast]
      exact congrArg some (hid.trans (le_antisymm hle hge))
    · rintro _ ⟨⟩
      rw [hfaithful.root_eq, hid]
      rfl

/-- The epoch is the latest, for an endpoint that has one reply. -/
theorem getLatestEpoch_of_run_late :
    ∃ (tr : List (Storage × Call)) (s : Storage) (entity : Epoch),
      Run (EpochManager.step toyHashes) (fun _ _ => True) toyManager tr s
        ∧ getLatestEpoch (fun _ => ⟨true, 200, [],
            ((index (logOf toyHashes 0 tr)).epochs 0).toList⟩) 0 = .ok (some entity, 1)
        ∧ some entity.epochId = lastFinalized s := by
  obtain ⟨tr, s, hrun, hreceived, -, hlast, hentity⟩ := exists_late_run
  obtain ⟨entity, hentity, -⟩ := Option.map_eq_some_iff.mp hentity
  have h₀ : EpochManager.construct 1 0 10 7 = .ok toyManager := rfl
  have hfree : KeysApart toyHashes (received tr) := by
    rw [hreceived]
    exact nofun
  obtain ⟨hepochs, -⟩ := mirrored_of_run h₀ hrun hfree _ (map_stamp_logOf toyHashes 0 tr)
  have hreply : getLatestEpoch (fun _ => ⟨true, 200, [],
      ((index (logOf toyHashes 0 tr)).epochs 0).toList⟩) 0 = .ok (some entity, 1) := by
    rw [hentity]
    rfl
  have hserves : FindsLast (index (logOf toyHashes 0 tr)).epochs (·.epochId)
      ((index (logOf toyHashes 0 tr)).epochs 0).toList := by
    rw [hentity]
    refine ⟨le_rfl, fun a ha => ⟨0, ?_⟩, fun a ha k b hb => ?_, nofun⟩
    · rw [hentity, List.mem_singleton.mp ha]
    · rw [(hepochs.faithful k b hb).epochId_eq, List.mem_singleton.mp ha,
        (hepochs.faithful 0 entity hentity).epochId_eq]
      -- no later epoch is finalized
      obtain ⟨last, hsome, hle⟩ := hepochs.finalized_iff_le.mp
        ((hepochs.finalized_iff k).mp (Option.isSome_iff_exists.mpr ⟨b, hb⟩))
      rw [hlast] at hsome
      cases hsome
      exact hle
  obtain ⟨hid, -⟩ := getLatestEpoch_of_run h₀ hrun hfree (map_stamp_logOf toyHashes 0 tr)
    (fun _ => hserves) hreply
  exact ⟨tr, s, entity, hrun, hreply, hid⟩

end EpochSubgraph
