import SoulPrivacy.InkBinding

/-!
# What the ink! pool takes once

Nullifiers and commitments are kept in tables, and a call looks up what it is about to
enter. It looks up both of its nullifiers before it enters one, so two that are the same
would pass; that they differ is left to the check of the proof. The outputs are looked up
one after the other, the second after the first is entered.

So no nullifier is spent twice and no commitment is inserted twice, in one call or in
two, and the tables hold what the run has taken and nothing else (`notes_of_run`). The
index that is kept for a commitment counts the commitments before it, and where overflow
is not checked it counts modulo 2^32.
-/

namespace InkPool

variable {keccak256 : Bytes → Bytes32} {build : Build} {s s' : State} {c : Call}
  {tr : List (State × Call)} {payments : List Payment}

/-- `is_nullifier_spent`. -/
def isNullifierSpent (s : State) (nullifier : Bytes32) : Bool :=
  (s.nullifiers nullifier).getD false

/-! ## Nullifiers -/

/-- The nullifiers a message spends. -/
def Message.spends : Message → List Bytes32
  | .transfer _ _ nullifiers _ => [nullifiers.1, nullifiers.2]
  | .withdraw _ _ nullifiers _ _ _ => [nullifiers.1, nullifiers.2]
  | _ => []

/-- **The nullifiers spent in a run.** -/
def spentIn (tr : List (State × Call)) : List Bytes32 := tr.flatMap (fun p => p.2.message.spends)

/-- **What a spend does to the nullifiers**: it marks its own two, which were not marked
and differ. -/
theorem Spends.nullifiers {proof : Bytes} {merkleRoot : Bytes32}
    {nullifiers outputs : Bytes32 × Bytes32}
    (h : Spends keccak256 s proof merkleRoot nullifiers outputs) :
    [nullifiers.1, nullifiers.2].Nodup
      ∧ (∀ n ∈ [nullifiers.1, nullifiers.2], isNullifierSpent s n = false)
      ∧ ∀ n, isNullifierSpent (afterSpend keccak256 s nullifiers outputs) n = true
        ↔ isNullifierSpent s n = true ∨ n ∈ [nullifiers.1, nullifiers.2] := by
  obtain ⟨hne, -⟩ := ne_of_verified h.verified
  have hkept : (afterSpend keccak256 s nullifiers outputs).nullifiers
      = (markSpent nullifiers s).nullifiers :=
    insertedAll_keeps (f := State.nullifiers) (fun _ _ => rfl) (markSpent nullifiers s) _
  refine ⟨by simpa using hne, ?_, fun n => ?_⟩
  · obtain ⟨hfst, hsnd⟩ := Bool.or_eq_false_iff.mp h.unspent
    rw [List.forall_mem_cons, List.forall_mem_singleton]
    exact ⟨hfst, hsnd⟩
  · unfold isNullifierSpent
    rw [hkept]
    unfold markSpent
    dsimp only
    rw [Function.update_apply, Function.update_apply, List.mem_cons, List.mem_singleton]
    split_ifs with hsnd hfst <;> simp_all

theorem Effect.nullifiers (h : Effect keccak256 build s c s' payments) :
    c.message.spends.Nodup ∧ (∀ n ∈ c.message.spends, isNullifierSpent s n = false)
      ∧ ∀ n, isNullifierSpent s' n = true
        ↔ isNullifierSpent s n = true ∨ n ∈ c.message.spends := by
  cases h with
  | transfer _ spends _ => exact spends.nullifiers
  | withdraw _ spends _ _ _ => exact spends.nullifiers
  | _ => exact ⟨List.nodup_nil, fun _ hn => absurd hn List.not_mem_nil,
      fun _ => (or_iff_left List.not_mem_nil).symm⟩

/-! ## Commitments -/

/-- **Commitments that can be inserted**: they are new and differ. -/
def Fresh (s : State) (cms : List Bytes32) : Prop := cms.Nodup ∧ ∀ cm ∈ cms, s.leaves cm = none

theorem Outputs.fresh {outputs : Bytes32 × Bytes32} (h : Outputs build s outputs) :
    Fresh s [outputs.1, outputs.2] := by
  refine ⟨by simpa using h.ne.symm, ?_⟩
  rw [List.forall_mem_cons, List.forall_mem_singleton]
  exact ⟨h.fst, h.snd⟩

theorem Effect.fresh (h : Effect keccak256 build s c s' payments) :
    Fresh s c.message.inserts := by
  cases h with
  | deposit _ _ fresh _ _ => exact ⟨List.nodup_singleton _, List.forall_mem_singleton.mpr fresh⟩
  | transfer _ _ new => exact new.fresh
  | withdraw _ _ new _ _ => exact new.fresh
  | revealDeposit _ _ fresh _ _ =>
    exact ⟨List.nodup_singleton _, List.forall_mem_singleton.mpr fresh⟩
  | _ => exact ⟨List.nodup_nil, fun _ hcm => absurd hcm List.not_mem_nil⟩

/-- **The table of the commitments** holds the place of each. -/
structure Records (ls : List Bytes32) (s : State) : Prop where
  index : s.nextLeafIndex = BitVec.ofNat 32 ls.length
  leaf : ∀ cm i, s.leaves cm = some i ↔ ∃ k, ls[k]? = some cm ∧ i = BitVec.ofNat 32 k
  nodup : ls.Nodup

/-- A commitment that is not in the table is not in the list. -/
theorem Records.notMem {ls : List Bytes32} {cm : Bytes32} (h : Records ls s)
    (hfresh : s.leaves cm = none) : cm ∉ ls := by
  intro hmem
  obtain ⟨k, hk⟩ := List.mem_iff_getElem?.mp hmem
  have hsome := (h.leaf cm _).mpr ⟨k, hk, rfl⟩
  rw [hfresh] at hsome
  cases hsome

/-- **One commitment more.** -/
theorem Records.inserted {ls : List Bytes32} {cm : Bytes32} (h : Records ls s)
    (hfresh : s.leaves cm = none) : Records (ls ++ [cm]) (InkPool.inserted keccak256 s cm) := by
  have hnew := h.notMem hfresh
  have hlast : (ls ++ [cm])[ls.length]? = some cm := List.getElem?_concat_length
  refine ⟨?_, fun cm' i => ?_, ?_⟩
  · rw [nextLeafIndex_inserted, h.index, List.length_append, List.length_singleton,
      BitVec.ofNat_add]
    rfl
  · rw [leaves_inserted]
    by_cases heq : cm' = cm
    · subst heq
      rw [Function.update_self, h.index]
      constructor
      · rintro ⟨⟩
        exact ⟨ls.length, hlast, rfl⟩
      · rintro ⟨k, hk, rfl⟩
        -- the list has the new commitment at its end only
        have hle : ls.length ≤ k := by
          refine not_lt.mp (fun hlt => hnew ?_)
          rw [List.getElem?_append_left hlt] at hk
          exact List.mem_of_getElem? hk
        have hlt := (List.getElem?_eq_some_iff.mp hk).1
        rw [List.length_append, List.length_singleton] at hlt
        rw [le_antisymm hle (Nat.lt_succ_iff.mp hlt)]
    · rw [Function.update_of_ne heq, h.leaf]
      refine exists_congr (fun k => and_congr_left' ?_)
      by_cases hlt : k < ls.length
      · rw [List.getElem?_append_left hlt]
      · refine iff_of_false (fun hk => hlt (List.getElem?_eq_some_iff.mp hk).1) (fun hk => ?_)
        have hlt' := (List.getElem?_eq_some_iff.mp hk).1
        rw [List.length_append, List.length_singleton] at hlt'
        obtain rfl := le_antisymm (not_lt.mp hlt) (Nat.lt_succ_iff.mp hlt')
        rw [hlast] at hk
        exact heq (Option.some.inj hk).symm
  · exact List.nodup_append_comm.mp (List.nodup_cons.mpr ⟨hnew, h.nodup⟩)

/-- **Several more**, one after the other. -/
theorem Records.insertedAll {ls cms : List Bytes32} (h : Records ls s) (hfresh : Fresh s cms) :
    Records (ls ++ cms) (InkPool.insertedAll keccak256 s cms) := by
  induction cms generalizing ls s with
  | nil =>
    rw [List.append_nil]
    exact h
  | cons cm cms ih =>
    obtain ⟨hnodup, hnone⟩ := hfresh
    obtain ⟨hnotMem, hnodup⟩ := List.nodup_cons.mp hnodup
    obtain ⟨hfst, hrest⟩ := List.forall_mem_cons.mp hnone
    rw [List.append_cons]
    refine ih (h.inserted hfst) ⟨hnodup, fun cm' hcm' => ?_⟩
    have hne : cm' ≠ cm := by
      rintro rfl
      exact hnotMem hcm'
    rw [leaves_inserted, Function.update_of_ne hne]
    exact hrest cm' hcm'

theorem Records.of_sameTree {ls : List Bytes32} (h : Records ls s) (hsame : SameTree s s') :
    Records ls s' :=
  ⟨hsame.nextLeafIndex.trans h.index, hsame.leaves ▸ h.leaf, h.nodup⟩

/-! ## Runs -/

/-- **What the tables hold after some calls.** -/
structure Noted (tr : List (State × Call)) (s : State) : Prop where
  spent_once : (spentIn tr).Nodup
  marked : ∀ n, isNullifierSpent s n = true ↔ n ∈ spentIn tr
  records : Records (insertedIn tr) s

theorem noted_new (env : Env) (epochDuration : BitVec 32) : Noted [] (new env epochDuration) where
  spent_once := List.nodup_nil
  marked _ := iff_of_false Bool.false_ne_true List.not_mem_nil
  records := ⟨rfl, fun _ _ => iff_of_false nofun (by rintro ⟨k, hk, -⟩; cases hk), List.nodup_nil⟩

/-- **A call notes what it takes.** -/
theorem Noted.step (h : Noted tr s) (heffect : Effect keccak256 build s c s' payments) :
    Noted (tr ++ [(s, c)]) s' := by
  obtain ⟨hdistinct, hunspent, hmarked⟩ := heffect.nullifiers
  have hspent : spentIn (tr ++ [(s, c)]) = spentIn tr ++ c.message.spends := by
    unfold spentIn
    rw [List.flatMap_append, List.flatMap_singleton]
  refine ⟨?_, fun n => ?_, ?_⟩
  · rw [hspent]
    refine List.Nodup.append h.spent_once hdistinct (fun n hold hnew => ?_)
    exact Bool.false_ne_true ((hunspent n hnew).symm.trans ((h.marked n).mpr hold))
  · rw [hspent, List.mem_append, hmarked, h.marked]
  · rw [insertedIn_snoc]
    exact (h.records.insertedAll heffect.fresh).of_sameTree heffect.sameTree

/-- **No nullifier is spent twice and no commitment is inserted twice**, in any run, and
the tables hold those of the run: a nullifier is marked if it was spent, and a commitment
has its place in the order of the insertions. -/
theorem notes_of_run (h : RunFrom keccak256 build tr s) :
    (spentIn tr).Nodup ∧ (∀ n, isNullifierSpent s n = true ↔ n ∈ spentIn tr)
      ∧ (insertedIn tr).Nodup
      ∧ ∀ cm i, s.leaves cm = some i
        ↔ ∃ k, (insertedIn tr)[k]? = some cm ∧ i = BitVec.ofNat 32 k := by
  obtain ⟨env, epochDuration, hrun⟩ := h
  have hnoted : Noted tr s := by
    refine hrun.invariant (I := Noted) (noted_new env epochDuration) ?_
    intro tr s c s' hnoted _ hstep
    obtain ⟨payments, heffect⟩ := step_effect hstep
    exact hnoted.step heffect
  exact ⟨hnoted.spent_once, hnoted.marked, hnoted.records.nodup, hnoted.records.leaf⟩

/-- A transfer of two notes after the first deposit. -/
def transferAfterDeposit (keccak256 : Bytes → Bytes32) : SpendCall :=
  .transfer (depositedPool keccak256).currentRoot (1, 2) (4, 5)

theorem accepts_transferAfterDeposit (keccak256 : Bytes → Bytes32) :
    Accepts keccak256 .wrapping (depositedPool keccak256) (proofOf keccak256 (1, 2) (4, 5))
      (transferAfterDeposit keccak256) := by
  refine accepts_iff.mpr ⟨⟨rfl, ?_, rfl, ?_, ?_, BitVec.le_def.mpr (Nat.zero_le _)⟩,
    shaped_proofOf _ _, tagged_proofOf _ _⟩
  · show isKnownRoot _ (depositedPool keccak256).currentRoot = true
    unfold isKnownRoot
    rw [beq_self_eq_true, Bool.true_or]
  · show WellFormed (1, 2) (4, 5)
    exact ⟨by decide, by decide, by decide, by decide, by decide⟩
  · show Outputs .wrapping (depositedPool keccak256) (4, 5)
    exact ⟨leaves_depositedPool keccak256 (by decide), leaves_depositedPool keccak256 (by decide),
      by decide, nofun⟩

/-- The notes of a deposit and that transfer. -/
theorem notes_of_run_transfer :
    ∃ tr s, RunFrom (fun _ => 1) .wrapping tr s ∧ insertedIn tr = [7, 4, 5]
      ∧ spentIn tr = [1, 2] ∧ isNullifierSpent s 2 = true ∧ s.leaves 5 = some 2 := by
  obtain ⟨env, r, hexec⟩ := accepts_transferAfterDeposit (fun _ => 1)
  obtain ⟨first, duration, hrun⟩ := runFrom_depositedPool (fun _ => 1)
  have hstep : step (fun _ => 1) .wrapping
      ⟨env, (transferAfterDeposit (fun _ => 1)).message (proofOf (fun _ => 1) (1, 2) (4, 5))⟩
      (depositedPool (fun _ => 1)) = .ok r.1 := congrArg (Except.map Prod.fst) hexec
  have hall : RunFrom (fun _ => 1) .wrapping _ r.1 :=
    ⟨first, duration, hrun.snoc trivial hstep⟩
  obtain ⟨-, hspent, -, hleaf⟩ := notes_of_run hall
  refine ⟨_, r.1, hall, rfl, rfl, (hspent 2).mpr ?_, (hleaf 5 2).mpr ⟨2, rfl, rfl⟩⟩
  exact List.mem_cons_of_mem _ List.mem_cons_self

end InkPool
