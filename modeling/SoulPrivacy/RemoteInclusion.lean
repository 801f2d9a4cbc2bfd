import SoulPrivacy.FreeHash
import SoulPrivacy.Inclusion
import SoulPrivacy.PrivacyPoolPallet

/-!
# Remote nullifiers and the proofs of the registry

The pools outside of the EVM hash the nullifiers of an epoch one after the
other, so the first of them is as deep as the list is long, less one. The
registry takes proofs of one to 32 siblings. Up to 33 nullifiers every one
has such a proof; from 34 on the first has none, unless the hash happens to
lead from it to the root in another way (`remotelyProvable_iff`). A hash
that is free on the list does not.
-/

namespace LinearRoots

open FreeHash

variable {α : Type}

/-- The term that is evaluated, of the first nullifier and the rest. -/
def linearTerm (first : α) (rest : List α) : FreeMagma α :=
  rest.foldl (fun t n => t * .of n) (.of first)

theorem linearTerm_append_singleton (first : α) (rest : List α) (last : α) :
    linearTerm first (rest ++ [last]) = linearTerm first rest * .of last :=
  List.foldl_append

/-- It evaluates to the root. -/
theorem eval_linearTerm (zero : α) (hash : α → α → α) (first : α) (rest : List α) :
    eval hash (linearTerm first rest) = linearRoot zero hash (first :: rest) := by
  induction rest using List.reverseRecOn with
  | nil => rfl
  | append_singleton rest last ih =>
    rw [linearTerm_append_singleton, ← List.cons_append,
      linearRoot_append_singleton zero hash (List.cons_ne_nil first rest), ← ih]
    rfl

theorem length_linearTerm (first : α) (rest : List α) :
    (linearTerm first rest).length = rest.length + 1 := by
  induction rest using List.reverseRecOn with
  | nil => rfl
  | append_singleton rest last ih =>
    rw [linearTerm_append_singleton, List.length_append, List.length_singleton, ← ih]
    rfl

/-- **Every nullifier is in it**, below the root and no deeper than the
rest is long. -/
theorem exists_atDepth {first : α} {rest : List α} (hrest : rest ≠ []) {n : α}
    (hmem : n ∈ first :: rest) :
    ∃ depth, depth ≠ 0 ∧ depth ≤ rest.length
      ∧ AtDepth (.of n) depth (linearTerm first rest) := by
  induction rest using List.reverseRecOn with
  | nil => exact absurd rfl hrest
  | append_singleton rest last ih =>
    rw [linearTerm_append_singleton, List.length_append, List.length_singleton]
    rw [← List.cons_append, List.mem_append, List.mem_singleton] at hmem
    rcases hmem with hmem | rfl
    · by_cases hnil : rest = []
      · subst hnil
        obtain rfl := List.mem_singleton.mp hmem
        exact ⟨1, one_ne_zero, le_rfl, .left .refl⟩
      · obtain ⟨depth, -, hle, hdepth⟩ := ih hnil hmem
        exact ⟨depth + 1, Nat.succ_ne_zero _, Nat.succ_le_succ hle, .left hdepth⟩
    · exact ⟨1, one_ne_zero, Nat.le_add_left 1 _, .right .refl⟩

/-- **The first is as deep as the rest is long**, if it does not come
again. -/
theorem atDepth_first {first : α} {rest : List α} (hnew : first ∉ rest) {depth : ℕ}
    (h : AtDepth (.of first) depth (linearTerm first rest)) : depth = rest.length := by
  induction rest using List.reverseRecOn generalizing depth with
  | nil => cases h with
    | refl => rfl
  | append_singleton rest last ih =>
    rw [linearTerm_append_singleton] at h
    rw [List.mem_append, List.mem_singleton, not_or] at hnew
    rw [List.length_append, List.length_singleton]
    cases h with
    | left h => rw [ih hnew.1 h]
    | right h =>
      cases h with
      | refl => exact absurd rfl hnew.2

/-- It is no value that is not among the nullifiers. -/
theorem linearTerm_ne_of {first a : α} {rest : List α} (h : a ∉ first :: rest) :
    linearTerm first rest ≠ .of a := by
  intro heq
  induction rest using List.reverseRecOn with
  | nil =>
    cases show FreeMagma.of first = .of a from heq
    exact h (List.mem_cons_self ..)
  | append_singleton rest last _ =>
    rw [linearTerm_append_singleton] at heq
    cases heq

/-- **A hash for which only paths of that length lead from the first to the
root**, which is not zero. -/
theorem exists_long_hash {first : Bytes32} {rest : List Bytes32} (hnew : first ∉ rest)
    (hzero : 0 ∉ first :: rest) (hmax : rest.length < 2 ^ 32) :
    ∃ hash, linearRoot 0 hash (first :: rest) ≠ 0
      ∧ ∀ p, HashTree.climb hash p first = linearRoot 0 hash (first :: rest) →
        p.length = rest.length := by
  -- with the zero word in the term as well, the root is not named zero
  let root := linearTerm first rest
  let t : FreeMagma Bytes32 := root * .of 0
  have hcard : 2 * t.length ≤ Nat.card Bytes32 := by
    have hlen : t.length = rest.length + 1 + 1 := by
      rw [← length_linearTerm first rest]
      rfl
    rw [hlen, Bytes32.card]
    omega
  have := Bytes32.finite
  obtain ⟨hash, garbage, hfree⟩ := exists_freeOn t hcard
  have hroot : Subterm root t := ⟨1, .left .refl⟩
  have hnull : Subterm (.of 0) t := ⟨1, .right .refl⟩
  have hfirst : Subterm (.of first) t := by
    by_cases hnil : rest = []
    · subst hnil
      exact hroot
    · obtain ⟨depth, -, -, hdepth⟩ := exists_atDepth hnil (List.mem_cons_self ..)
      exact ⟨depth + 1, .left hdepth⟩
  refine ⟨hash, ?_, fun p hp => ?_⟩
  · rw [← eval_linearTerm]
    intro heq
    exact linearTerm_ne_of hzero (hfree.inj hroot hnull heq)
  · rw [← eval_linearTerm] at hp
    have hdepth := (hfree.exists_climb_iff hfirst hroot p.length).mp ⟨p, rfl, hp⟩
    exact atDepth_first hnew hdepth

end LinearRoots

/-- The root that `finalize_epoch` stores. -/
theorem PrivacyPoolPallet.finalizeEpoch_root {AccountId L : Type}
    {R : Runtime AccountId L} {origin : Origin AccountId} {blockNumber : ℕ}
    {w w' : World L} {evs : List (Event AccountId)}
    (h : finalizeEpoch R origin blockNumber w = .ok (w', evs)) {epoch : EpochInfo}
    (hepoch : w'.pallet.epochs w.pallet.currentEpochId = some epoch) :
    epoch.nullifierRoot = computeNullifierRoot R.poseidonHash
      (w.pallet.epochNullifiers w.pallet.currentEpochId) := by
  unfold finalizeEpoch at h
  obtain ⟨-, h⟩ := (Except.unit_bind_eq_ok _ _ _).mp h
  obtain ⟨old, -, h⟩ := (Except.bind_eq_ok _ _ _).mp h
  obtain ⟨-, h⟩ := (revertIf_bind_eq_ok _ _ _ _).mp h
  cases h
  dsimp only at hepoch
  rw [Function.update_of_ne (Nat.lt_succ_self _).ne, Function.update_self] at hepoch
  cases hepoch
  rfl

namespace UniversalNullifierRegistry

open LinearRoots

/-- **The root of an epoch with given nullifiers on a remote chain**: the
pallet has finalized it, or the CosmWasm pool has computed it. -/
inductive RemoteRoot (hash : Bytes32 → Bytes32 → Bytes32) (nullifiers : List Bytes32) :
    Bytes32 → Prop
  | pallet {AccountId L : Type} {R : PrivacyPoolPallet.Runtime AccountId L}
      {origin : PrivacyPoolPallet.Origin AccountId} {blockNumber : ℕ}
      {w w' : PrivacyPoolPallet.World L} {evs : List (PrivacyPoolPallet.Event AccountId)}
      {epoch : PrivacyPoolPallet.EpochInfo} (hash_eq : R.poseidonHash = hash)
      (list_eq : w.pallet.epochNullifiers w.pallet.currentEpochId = nullifiers)
      (finalized : PrivacyPoolPallet.finalizeEpoch R origin blockNumber w = .ok (w', evs))
      (stored : w'.pallet.epochs w.pallet.currentEpochId = some epoch) :
      RemoteRoot hash nullifiers epoch.nullifierRoot
  | cosmWasm {hashHex : String → String → String} {root : Bytes32}
      (same : SameHash hash hashHex)
      (computed : CosmWasmPool.computeNullifierRoot hashHex
        (nullifiers.map Bytes32.toHex) = Bytes32.toHex root) :
      RemoteRoot hash nullifiers root

theorem RemoteRoot.eq_linearRoot {hash : Bytes32 → Bytes32 → Bytes32}
    {nullifiers : List Bytes32} {root : Bytes32} (h : RemoteRoot hash nullifiers root) :
    root = linearRoot 0 hash nullifiers := by
  cases h with
  | pallet hash_eq list_eq finalized stored =>
    rw [PrivacyPoolPallet.finalizeEpoch_root finalized stored, hash_eq, list_eq]
    rfl
  | cosmWasm same computed =>
    exact Bytes32.toHex_injective (computed.symm.trans (linearRoot_toHex same nullifiers))

/-- **Every nullifier of a remote epoch can be reported**: whatever the
common hash, once the root of the epoch is recorded for the chain, each
nullifier not reported yet has a proof with which the report goes
through. -/
def RemotelyProvable (chainId : Uint256) (nullifiers : List Bytes32) : Prop :=
  ∀ hash root, RemoteRoot hash nullifiers root →
    ∀ governance tr s epochId,
      Run (step hash) (fun _ _ => True) (construct governance) tr s →
      s.epochRoots chainId epochId = root → root ≠ 0 →
      ∀ nullifier ∈ nullifiers, s.nullifierSpentGlobal chainId nullifier = false →
      ∀ sender timestamp, ∃ proof pathIndices s', proof.length ≤ MAX_PROOF_DEPTH
        ∧ step hash ⟨sender, timestamp,
            .reportNullifierSpent chainId nullifier epochId proof pathIndices⟩ s = .ok s'

/-- **Two to 33 nullifiers can be reported.** -/
theorem remotelyProvable_of_le {chainId : Uint256} (hchain : chainId ≠ 0)
    {nullifiers : List Bytes32} (htwo : 2 ≤ nullifiers.length)
    (hmax : nullifiers.length ≤ 33) : RemotelyProvable chainId nullifiers := by
  intro hash root hremote governance tr s epochId hrun hrecorded hne nullifier hmem hnew
    sender timestamp
  obtain ⟨first, rest, rfl⟩ :=
    List.exists_cons_of_ne_nil (List.ne_nil_of_length_pos (Nat.lt_of_succ_lt htwo))
  have hrest : rest ≠ [] := by
    rintro rfl
    exact absurd htwo (by simp)
  obtain ⟨depth, hzero, hle, hdepth⟩ := exists_atDepth hrest hmem
  obtain ⟨p, hlen, hclimb⟩ := FreeHash.exists_climb_of_atDepth hash hdepth
  have hroot : HashTree.climb hash p nullifier = s.epochRoots chainId epochId :=
    hclimb.trans ((eval_linearTerm 0 hash first rest).trans
      (hremote.eq_linearRoot.symm.trans hrecorded.symm))
  have hbound : p.length ≤ MAX_PROOF_DEPTH :=
    hlen ▸ hle.trans (Nat.le_of_succ_le_succ hmax)
  have hid : (s.chains chainId).chainId = chainId :=
    identified_of_run hrun chainId (Or.inr ⟨epochId, hrecorded ▸ hne⟩)
  have hverify := verifyInclusion_of_climb hash (hlen ▸ hzero) hbound hroot
  obtain ⟨s', hs'⟩ : ∃ s', step hash ⟨sender, timestamp, .reportNullifierSpent chainId
      nullifier epochId (p.map Prod.snd) (indicesOf (p.map Prod.fst))⟩ s = .ok s' :=
    reportNullifierSpent_isOk.mpr ⟨hid.symm ▸ hchain, hnew, hrecorded ▸ hne, hverify⟩
  exact ⟨_, _, s', by rwa [List.length_map], hs'⟩

/-- **What it takes that they can**: a chain with an id, and a proof of the
first as long as the rest. -/
theorem RemotelyProvable.bounds {chainId : Uint256} {first : Bytes32}
    {rest : List Bytes32} (h : RemotelyProvable chainId (first :: rest))
    (hnew : first ∉ rest) (hzero : 0 ∉ first :: rest) (hmax : rest.length < 2 ^ 32) :
    chainId ≠ 0 ∧ rest.length ≠ 0 ∧ rest.length ≤ MAX_PROOF_DEPTH := by
  obtain ⟨hash, hne, hlong⟩ := exists_long_hash hnew hzero hmax
  obtain ⟨hashHex, hsame⟩ := exists_sameHash hash
  have hremote : RemoteRoot hash (first :: rest) (linearRoot 0 hash (first :: rest)) :=
    .cosmWasm hsame (linearRoot_toHex hsame (first :: rest))
  obtain ⟨tr, s, hrun, hrecorded, hid, hunspent⟩ :=
    exists_recorded hash chainId (linearRoot 0 hash (first :: rest))
  obtain ⟨proof, pathIndices, s', -, hstep⟩ := h hash _ hremote 1 tr s 0 hrun hrecorded hne
    first (List.mem_cons_self ..) (hunspent first) 0 0
  obtain ⟨hchain, -, -, hverify⟩ := reportNullifierSpent_isOk.mp ⟨s', hstep⟩
  obtain ⟨hlen, hnonempty, hdepth, -, hclimb⟩ := (verifyInclusion_iff hash).mp hverify
  -- there is no shorter way from the first nullifier to the root
  have hlength := hlong _ (hclimb.trans hrecorded)
  rw [List.length_zip, length_sidesOf, ← hlen, min_self] at hlength
  exact ⟨hid ▸ hchain, hlength ▸ hnonempty, hlength ▸ hdepth⟩

/-- **The nullifiers of a remote epoch can be reported if and only if the
chain has an id other than 0 and they are two to 33**, or there are none. -/
theorem remotelyProvable_iff {nullifiers : List Bytes32} (hnodup : nullifiers.Nodup)
    (hzero : 0 ∉ nullifiers) (hmax : nullifiers.length ≤ 2 ^ 32) (chainId : Uint256) :
    RemotelyProvable chainId nullifiers ↔
      nullifiers = [] ∨ chainId ≠ 0 ∧ 2 ≤ nullifiers.length ∧ nullifiers.length ≤ 33 := by
  constructor
  · intro h
    cases nullifiers with
    | nil => exact Or.inl rfl
    | cons first rest =>
      obtain ⟨hchain, hrest, hdepth⟩ := h.bounds (List.nodup_cons.mp hnodup).1 hzero hmax
      rw [List.length_cons]
      exact Or.inr ⟨hchain, Nat.succ_le_succ (Nat.one_le_iff_ne_zero.mpr hrest),
        Nat.succ_le_succ hdepth⟩
  · rintro (rfl | ⟨hchain, htwo, hle⟩)
    · intro _ _ _ _ _ _ _ _ _ _ nullifier hmem
      exact absurd hmem List.not_mem_nil
    · exact remotelyProvable_of_le hchain htwo hle

/-- Two nullifiers of the chain 7. -/
theorem remotelyProvable_iff_two : RemotelyProvable 7 [5, 6] :=
  (remotelyProvable_iff (by decide) (by decide) (by decide) 7).mpr
    (Or.inr ⟨by decide, by decide, by decide⟩)

/-- **Thirty-four nullifiers**, as 17 transfers leave them. -/
theorem exists_unreportable :
    ((List.range 34).map (fun i => BitVec.ofNat 256 (i + 1))).Nodup
      ∧ ¬ RemotelyProvable 7 ((List.range 34).map (fun i => BitVec.ofNat 256 (i + 1))) := by
  refine ⟨by decide, fun h => ?_⟩
  have hcons : (List.range 34).map (fun i => BitVec.ofNat 256 (i + 1))
      = 1 :: (List.range 33).map (fun i => BitVec.ofNat 256 (i + 2)) := by decide
  rw [hcons] at h
  have hbounds := h.bounds (by decide) (by decide) (by decide)
  exact absurd hbounds.2.2 (by decide)

end UniversalNullifierRegistry
