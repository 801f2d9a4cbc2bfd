import SoulPrivacy.BigEndian
import SoulPrivacy.Keccak
import SoulPrivacy.NearPayouts
import SoulPrivacy.NearTree
import SoulPrivacy.Segments
import SoulPrivacy.TextDigits

/-!
# The epochs of the NEAR pool

The contract keeps the list of an epoch as an entry that may not be there, closes an epoch
with a count of 32 bits, and panics where there is no current epoch or it is closed
already. None of this is felt: the entries that are missing are empty lists, an epoch has
room for ten thousand nullifiers and no more, and the current epoch is there and open in
every state (`Booked`). So the books are those of the other pools: the lists of all epochs
are the nullifiers spent so far, in that order and without repeats, and what is closed
stays (`epochs_of_run`). A call of governance to close the epoch goes through whenever it
is made (`exists_finalizeEpoch`).

The roots that remote epochs are reported with share one mapping, under a text made of
two numbers. The text can be cut again where its colon is, so a report is read back by its
chain and its epoch until the next one for both (`remoteRoot_of_run`).
-/

namespace NearPool

open Segments (Hold)

variable {AccountId : Type} {keccak256 : Bytes → Bytes32}

/-! ## Views -/

/-- `is_nullifier_spent`. -/
def isNullifierSpent (s : State AccountId) (nullifier : String) : Bool :=
  s.nullifierSpent nullifier

/-- `get_epoch_info`. -/
def getEpochInfo (s : State AccountId) (epochId : ℕ) : Option EpochInfo := s.epochs epochId

/-- The text of a remote epoch, `format!("{}:{}", source_chain_id, epoch_id)`. -/
def remoteKey (sourceChainId : BitVec 32) (epochId : ℕ) : String :=
  toString sourceChainId.toNat ++ ":" ++ toString epochId

/-- `get_remote_epoch_root`. -/
def getRemoteEpochRoot (s : State AccountId) (sourceChainId : BitVec 32) (epochId : ℕ) :
    Option String :=
  s.remoteEpochRoots (remoteKey sourceChainId epochId)

/-- The nullifiers of an epoch, none where there is no entry. -/
def epochList (s : State AccountId) (e : ℕ) : List String := (s.epochNullifiers e).getD []

/-! ## The nullifiers of a run -/

/-- **The nullifiers spent in a run**, in that order. -/
def spentIn (tr : List (State AccountId × Call AccountId)) : List String :=
  tr.flatMap (fun p => p.2.method.spends)

theorem spentIn_snoc (tr : List (State AccountId × Call AccountId))
    (p : State AccountId × Call AccountId) :
    spentIn (tr ++ [p]) = spentIn tr ++ p.2.method.spends := by
  unfold spentIn
  rw [List.flatMap_append, List.flatMap_singleton]

/-! ## The invariant -/

/-- **A closed epoch**, with the root and the length of its list. -/
structure EpochInfo.Closes (keccak256 : Bytes → Bytes32) (info : EpochInfo)
    (nullifiers : List String) : Prop where
  finalized : info.finalized = true
  nullifierRoot : info.nullifierRoot
    = computeNullifierRoot (poseidonHashHex keccak256) nullifiers
  nullifierCount : info.nullifierCount.toNat = nullifiers.length

/-- **The books of the pool are right**, for the nullifiers spent so far. -/
structure Booked (keccak256 : Bytes → Bytes32) (spent : List String) (s : State AccountId) :
    Prop where
  lists : Hold (epochList s) s.currentEpochId spent
  nodup : spent.Nodup
  marked : ∀ n, s.nullifierSpent n = true ↔ n ∈ spent
  bounded : (epochList s s.currentEpochId).length ≤ MAX_NULLIFIERS_PER_EPOCH
  closed : ∀ e < s.currentEpochId, ∃ info, s.epochs e = some info
    ∧ info.Closes keccak256 (epochList s e)
  running : ∃ info, s.epochs s.currentEpochId = some info ∧ info.finalized = false

/-- A new contract has spent nothing, and epoch 0 is open. -/
theorem booked_new (governance : AccountId) (domainChainId domainAppId : BitVec 32)
    (blockHeight : ℕ) :
    Booked keccak256 [] (new keccak256 governance domainChainId domainAppId blockHeight) where
  lists := by
    have hempty : epochList (new keccak256 governance domainChainId domainAppId blockHeight)
        = fun _ => [] := by
      funext e
      unfold epochList new
      dsimp only
      rw [Function.update_apply]
      split <;> rfl
    rw [hempty]
    exact Hold.empty 0
  nodup := List.nodup_nil
  marked _ := iff_of_false Bool.false_ne_true List.not_mem_nil
  bounded := Nat.zero_le _
  closed e he := absurd he (Nat.not_lt_zero e)
  running := ⟨⟨blockHeight, none, ZERO_HASH, 0, false⟩, rfl, rfl⟩

/-- The list of the current epoch is extended. -/
theorem epochList_spentTwo (s : State AccountId) (nullifiers : String × String) :
    epochList (spentTwo s nullifiers) = Function.update (epochList s) s.currentEpochId
      (epochList s s.currentEpochId ++ [nullifiers.1, nullifiers.2]) := by
  funext e
  unfold epochList spentTwo
  dsimp only
  rw [Function.update_apply, Function.update_apply]
  split
  · rw [Option.getD_some, List.append_assoc]
    rfl
  · rfl

/-- **Two more nullifiers.** -/
theorem Booked.spendTwo {spent : List String} {s : State AccountId}
    (h : Booked keccak256 spent s) {nullifiers : String × String}
    (hspendable : Spendable s nullifiers) :
    Booked keccak256 (spent ++ [nullifiers.1, nullifiers.2]) (spentTwo s nullifiers) := by
  have hmarkFst := update_true_iff_mem_append h.marked nullifiers.1
  have hsnd : Function.update s.nullifierSpent nullifiers.1 true nullifiers.2 = false :=
    (Function.update_of_ne hspendable.ne.symm ..).trans hspendable.snd
  have hnodup := nodup_append_of_marked hmarkFst
    (nodup_append_of_marked h.marked h.nodup hspendable.fst) hsnd
  have hmark := update_true_iff_mem_append hmarkFst nullifiers.2
  rw [List.append_assoc] at hnodup
  refine ⟨?_, hnodup, fun n => ?_, ?_, fun e he => ?_, h.running⟩
  · rw [epochList_spentTwo]
    exact h.lists.append _
  · have hn := hmark n
    rwa [List.append_assoc] at hn
  · show (epochList (spentTwo s nullifiers) s.currentEpochId).length ≤ _
    rw [epochList_spentTwo, Function.update_self, List.length_append]
    exact hspendable.room
  · obtain ⟨info, hinfo, hcloses⟩ := h.closed e he
    have hne : e ≠ s.currentEpochId := ne_of_lt he
    refine ⟨info, hinfo, ?_⟩
    rwa [epochList_spentTwo, Function.update_of_ne hne]

/-- The tree and the balance are not in the books. -/
theorem Booked.of_eq {spent : List String} {s s' : State AccountId}
    (h : Booked keccak256 spent s) (hlists : s'.epochNullifiers = s.epochNullifiers)
    (hcurrent : s'.currentEpochId = s.currentEpochId)
    (hmarks : s'.nullifierSpent = s.nullifierSpent) (hepochs : s'.epochs = s.epochs) :
    Booked keccak256 spent s' := by
  have hlist : epochList s' = epochList s := by
    funext e
    unfold epochList
    rw [hlists]
  obtain ⟨lists, nodup, marked, bounded, closed, running⟩ := h
  rw [← hlist, ← hcurrent] at lists bounded
  rw [← hmarks] at marked
  rw [← hlist, ← hcurrent, ← hepochs] at closed
  rw [← hcurrent, ← hepochs] at running
  exact ⟨lists, nodup, marked, bounded, closed, running⟩

/-! ## Closing an epoch -/

/-- The epoch as `finalize_epoch` closes it. -/
def closedEpoch (keccak256 : Bytes → Bytes32) (epoch : EpochInfo) (nullifiers : List String)
    (blockHeight : ℕ) : EpochInfo :=
  { epoch with
    nullifierRoot := computeNullifierRoot (poseidonHashHex keccak256) nullifiers
    nullifierCount := BitVec.ofNat 32 nullifiers.length
    endBlock := some blockHeight
    finalized := true }

/-- … and the state after it. -/
def afterFinalize (keccak256 : Bytes → Bytes32) (s : State AccountId) (epoch : EpochInfo)
    (blockHeight : ℕ) : State AccountId :=
  { s with
    epochs := Function.update
      (Function.update s.epochs s.currentEpochId
        (some (closedEpoch keccak256 epoch (epochList s s.currentEpochId) blockHeight)))
      (s.currentEpochId + 1) (some ⟨blockHeight, none, ZERO_HASH, 0, false⟩)
    currentEpochId := s.currentEpochId + 1
    epochNullifiers := Function.update s.epochNullifiers (s.currentEpochId + 1) (some []) }

/-- A list of the next epoch that is written anew was empty. -/
theorem epochList_afterFinalize {spent : List String} {s : State AccountId}
    (h : Booked keccak256 spent s) (epoch : EpochInfo) (blockHeight : ℕ) :
    epochList (afterFinalize keccak256 s epoch blockHeight) = epochList s := by
  funext e
  unfold epochList afterFinalize
  dsimp only
  rw [Function.update_apply]
  split
  · rename_i heq
    have hfuture := h.lists.future e (heq ▸ Nat.lt_succ_self s.currentEpochId)
    exact hfuture.symm
  · rfl

/-- **The current epoch is closed and the next one is opened.** -/
theorem Booked.finalize {spent : List String} {s : State AccountId}
    (h : Booked keccak256 spent s) (epoch : EpochInfo) (blockHeight : ℕ) :
    Booked keccak256 spent (afterFinalize keccak256 s epoch blockHeight) := by
  have hlists := epochList_afterFinalize h epoch blockHeight
  have hcount : (BitVec.ofNat 32 (epochList s s.currentEpochId).length).toNat
      = (epochList s s.currentEpochId).length := by
    rw [BitVec.toNat_ofNat]
    exact Nat.mod_eq_of_lt (h.bounded.trans_lt (by decide))
  refine ⟨?_, h.nodup, h.marked, ?_, fun e he => ?_, _, Function.update_self .., rfl⟩
  · rw [hlists]
    exact h.lists.advance
  · rw [hlists]
    show (epochList s (s.currentEpochId + 1)).length ≤ _
    rw [h.lists.future _ (Nat.lt_succ_self _)]
    exact Nat.zero_le _
  · have hlt : e < s.currentEpochId + 1 := he
    rw [hlists]
    unfold afterFinalize
    dsimp only
    rw [Function.update_of_ne (ne_of_lt hlt)]
    rcases Nat.lt_succ_iff_lt_or_eq.mp hlt with hlt | rfl
    · rw [Function.update_of_ne (ne_of_lt hlt)]
      exact h.closed e hlt
    · rw [Function.update_self]
      exact ⟨_, rfl, rfl, rfl, hcount⟩

variable [DecidableEq AccountId]

/-- **What `finalize_epoch` asks for and does.** -/
theorem step_finalizeEpoch_eq_ok {ctx : Context AccountId} {s s' : State AccountId} :
    step keccak256 ⟨ctx, .finalizeEpoch⟩ s = .ok s' ↔
      ctx.attachedDeposit = 0 ∧ ctx.predecessor = s.governance
        ∧ ∃ epoch, s.epochs s.currentEpochId = some epoch ∧ epoch.finalized = false
          ∧ afterFinalize keccak256 s epoch ctx.blockHeight = s' := by
  unfold step
  rw [Except.map_eq_ok]
  unfold exec finalizeEpoch
  simp only [Except.bind_eq_ok, revertIf_eq_ok, orRevert_eq_ok, not_not, Bool.not_eq_true]
  constructor
  · rintro ⟨_, ⟨-, hunpaid, _, ⟨-, hgov, epoch, hepoch, -, hopen, hs⟩, hr⟩, rfl⟩
    cases hs
    cases hr
    exact ⟨hunpaid, hgov, epoch, hepoch, hopen, rfl⟩
  · rintro ⟨hunpaid, hgov, epoch, hepoch, hopen, rfl⟩
    exact ⟨_, ⟨(), hunpaid, _, ⟨(), hgov, epoch, hepoch, (), hopen, rfl⟩, rfl⟩, rfl⟩

/-- **A step keeps the books right.** -/
theorem Booked.step {spent : List String} {s s' : State AccountId} {c : Call AccountId}
    (h : Booked keccak256 spent s) (hstep : NearPool.step keccak256 c s = .ok s') :
    Booked keccak256 (spent ++ c.method.spends) s' := by
  have hsame := h
  rw [← List.append_nil spent] at hsame
  obtain ⟨promises, heffect⟩ := step_effect hstep
  cases heffect with
  | deposit _ _ _ _ => exact hsame.of_eq rfl rfl rfl rfl
  | transfer _ spends => exact (h.spendTwo spends.spendable).of_eq rfl rfl rfl rfl
  | withdraw _ _ _ spends => exact (h.spendTwo spends.spendable).of_eq rfl rfl rfl rfl
  | setAuthorizedRelayer _ _ => exact hsame.of_eq rfl rfl rfl rfl
  | @finalizeEpoch ctx _ _ _ _ =>
    obtain ⟨-, -, epoch, -, -, heq⟩ := step_finalizeEpoch_eq_ok.mp hstep
    rw [← heq]
    exact hsame.finalize epoch ctx.blockHeight
  | syncEpochRoot _ _ => exact hsame.of_eq rfl rfl rfl rfl

/-- **The books are right in every run.** -/
theorem booked_of_run {tr : List (State AccountId × Call AccountId)} {s : State AccountId}
    (h : RunFrom keccak256 tr s) : Booked keccak256 (spentIn tr) s := by
  obtain ⟨governance, domainChainId, domainAppId, blockHeight, hrun⟩ := h
  refine hrun.invariant (I := fun tr s => Booked keccak256 (spentIn tr) s)
    (booked_new governance domainChainId domainAppId blockHeight) ?_
  intro tr s c s' hbooked _ hstep
  rw [spentIn_snoc]
  exact hbooked.step hstep

/-! ## What is closed stays -/

/-- **The epochs before the current one are as they were.** -/
structure Frozen (s s' : State AccountId) : Prop where
  current_le : s.currentEpochId ≤ s'.currentEpochId
  epochs_eq : ∀ e < s.currentEpochId, s'.epochs e = s.epochs e
  lists_eq : ∀ e < s.currentEpochId, epochList s' e = epochList s e

omit [DecidableEq AccountId] in
theorem Frozen.refl (s : State AccountId) : Frozen s s := ⟨le_rfl, fun _ _ => rfl, fun _ _ => rfl⟩

omit [DecidableEq AccountId] in
theorem Frozen.trans {s s' s'' : State AccountId} (h : Frozen s s') (h' : Frozen s' s'') :
    Frozen s s'' where
  current_le := h.current_le.trans h'.current_le
  epochs_eq e he := (h'.epochs_eq e (he.trans_le h.current_le)).trans (h.epochs_eq e he)
  lists_eq e he := (h'.lists_eq e (he.trans_le h.current_le)).trans (h.lists_eq e he)

omit [DecidableEq AccountId] in
theorem frozen_spentTwo (s : State AccountId) (nullifiers : String × String) :
    Frozen s (spentTwo s nullifiers) where
  current_le := le_rfl
  epochs_eq _ _ := rfl
  lists_eq e he := by
    rw [epochList_spentTwo, Function.update_of_ne (ne_of_lt he)]

omit [DecidableEq AccountId] in
theorem frozen_afterFinalize (s : State AccountId) (epoch : EpochInfo) (blockHeight : ℕ) :
    Frozen s (afterFinalize keccak256 s epoch blockHeight) where
  current_le := Nat.le_succ _
  epochs_eq e he := by
    unfold afterFinalize
    dsimp only
    rw [Function.update_of_ne (ne_of_lt (Nat.lt_succ_of_lt he)),
      Function.update_of_ne (ne_of_lt he)]
  lists_eq e he := by
    unfold epochList afterFinalize
    dsimp only
    rw [Function.update_of_ne (ne_of_lt (Nat.lt_succ_of_lt he))]

/-- **A step leaves them as they are.** -/
theorem frozen_step {s s' : State AccountId} {c : Call AccountId}
    (hstep : step keccak256 c s = .ok s') : Frozen s s' := by
  obtain ⟨promises, heffect⟩ := step_effect hstep
  cases heffect with
  | deposit _ _ _ _ => exact ⟨le_rfl, fun _ _ => rfl, fun _ _ => rfl⟩
  | @transfer _ _ c _ _ =>
    have hspent := frozen_spentTwo s c.nullifiers
    exact ⟨hspent.current_le, hspent.epochs_eq, hspent.lists_eq⟩
  | @withdraw _ _ c _ _ _ _ _ _ =>
    have hspent := frozen_spentTwo s c.nullifiers
    exact ⟨hspent.current_le, hspent.epochs_eq, hspent.lists_eq⟩
  | setAuthorizedRelayer _ _ => exact ⟨le_rfl, fun _ _ => rfl, fun _ _ => rfl⟩
  | @finalizeEpoch ctx _ _ _ _ =>
    obtain ⟨-, -, epoch, -, -, heq⟩ := step_finalizeEpoch_eq_ok.mp hstep
    rw [← heq]
    exact frozen_afterFinalize s epoch ctx.blockHeight
  | syncEpochRoot _ _ => exact ⟨le_rfl, fun _ _ => rfl, fun _ _ => rfl⟩

/-- **… and so does any run.** -/
theorem frozen_of_run {s s' : State AccountId} {tr : List (State AccountId × Call AccountId)}
    (h : Run (step keccak256) (fun _ _ => True) s tr s') : Frozen s s' :=
  h.invariant (I := fun _ s' => Frozen s s') (Frozen.refl s)
    (fun _ _ _ _ hfrozen _ hstep => hfrozen.trans (frozen_step hstep))

/-- **Governance can close the current epoch** whenever the books are right. -/
theorem Booked.exists_finalizeEpoch {spent : List String} {s : State AccountId}
    (h : Booked keccak256 spent s) (blockHeight : ℕ) :
    ∃ s', NearPool.step keccak256 ⟨⟨s.governance, 0, blockHeight⟩, .finalizeEpoch⟩ s
      = .ok s' := by
  obtain ⟨epoch, hepoch, hopen⟩ := h.running
  exact ⟨_, step_finalizeEpoch_eq_ok.mpr ⟨rfl, rfl, epoch, hepoch, hopen, rfl⟩⟩

/-- **The epochs of the NEAR pool are complete and frozen**: in every state of a run the
epochs before the current one are closed, with the root and the number of their
nullifiers, and are the same in every state after it; governance can close the current
one; and the lists are the nullifiers spent so far, in that order and without repeats. -/
theorem epochs_of_run {tr tr' : List (State AccountId × Call AccountId)}
    {s s' : State AccountId} (h : RunFrom keccak256 tr s)
    (h' : Run (step keccak256) (fun _ _ => True) s tr' s') :
    (∀ e < s.currentEpochId, ∃ info, getEpochInfo s e = some info
        ∧ info.finalized = true
        ∧ info.nullifierRoot
          = computeNullifierRoot (poseidonHashHex keccak256) (epochList s e)
        ∧ info.nullifierCount.toNat = (epochList s e).length
        ∧ getEpochInfo s' e = some info
        ∧ epochList s' e = epochList s e)
      ∧ (∀ blockHeight, ∃ s'', step keccak256
          ⟨⟨s.governance, 0, blockHeight⟩, .finalizeEpoch⟩ s = .ok s'')
      ∧ (List.range (s.currentEpochId + 1)).flatMap (epochList s) = spentIn tr
      ∧ (spentIn tr).Nodup
      ∧ ∀ n, isNullifierSpent s n = true ↔ n ∈ spentIn tr := by
  have hbooked := booked_of_run h
  have hfrozen := frozen_of_run h'
  refine ⟨fun e he => ?_, hbooked.exists_finalizeEpoch, hbooked.lists.joined_eq, hbooked.nodup,
    hbooked.marked⟩
  obtain ⟨info, hinfo, hcloses⟩ := hbooked.closed e he
  exact ⟨info, hinfo, hcloses.finalized, hcloses.nullifierRoot, hcloses.nullifierCount,
    (hfrozen.epochs_eq e he).trans hinfo, hfrozen.lists_eq e he⟩

/-- The hash function of the host. -/
def hostKeccak256 (text : Bytes) : Bytes32 := BitVec.ofNat 256 (beNat (Keccak.keccak256 text))

/-- A contract of governance `"gov"`. -/
def govPool : State String := new hostKeccak256 "gov" 1313 1 7

/-- **Two epochs**, closed one after the other. -/
theorem epochs_of_run_two :
    ∃ s s' : State String, s.currentEpochId = 1 ∧ s'.currentEpochId = 2
      ∧ ∃ info, getEpochInfo s 0 = some info ∧ info.finalized = true
        ∧ getEpochInfo s' 0 = some info := by
  let close : Call String := ⟨⟨"gov", 0, 9⟩, .finalizeEpoch⟩
  obtain ⟨s, s', hstep, hstep', hcurrent, hcurrent'⟩ : ∃ s s' : State String,
      step hostKeccak256 close govPool = .ok s ∧ step hostKeccak256 close s = .ok s'
        ∧ s.currentEpochId = 1 ∧ s'.currentEpochId = 2 :=
    ⟨_, _, step_finalizeEpoch_eq_ok.mpr ⟨rfl, rfl, _, rfl, rfl, rfl⟩,
      step_finalizeEpoch_eq_ok.mpr ⟨rfl, rfl, _, rfl, rfl, rfl⟩, rfl, rfl⟩
  have hrun : RunFrom hostKeccak256 _ s := ⟨"gov", 1313, 1, 7, Run.nil.snoc trivial hstep⟩
  have hrun' : Run (step hostKeccak256) (fun _ _ => True) s _ s' := Run.nil.snoc trivial hstep'
  obtain ⟨info, hinfo, hfinalized, -, -, hlater, -⟩ :=
    (epochs_of_run hrun hrun').1 0 (hcurrent ▸ Nat.one_pos)
  exact ⟨s, s', hcurrent, hcurrent', info, hinfo, hfinalized, hlater⟩

/-! ## Remote roots -/

theorem toDigits_inj {m n : ℕ} (h : Nat.toDigits 10 m = Nat.toDigits 10 n) : m = n := by
  rw [← Nat.ofDigitChars_ten_toDigits (n := m), h, Nat.ofDigitChars_ten_toDigits]

/-- **The text of a remote epoch is cut at its colon.** -/
theorem remoteKey_inj {c c' : BitVec 32} {e e' : ℕ} (h : remoteKey c e = remoteKey c' e') :
    c = c' ∧ e = e' := by
  have hlist : ∀ (c : BitVec 32) (e : ℕ), (remoteKey c e).toList
      = Nat.toDigits 10 c.toNat ++ ':' :: Nat.toDigits 10 e := by
    intro c e
    show (Nat.repr c.toNat ++ ":" ++ Nat.repr e).toList = _
    rw [String.toList_append, String.toList_append, Nat.toList_repr, Nat.toList_repr,
      List.append_assoc]
    rfl
  have hdigits : ∀ n, ∀ b ∈ Nat.toDigits 10 n, b.isDigit = true :=
    fun n b hb => Nat.isDigit_of_mem_toDigits (by decide) (by decide) hb
  have htext := congrArg String.toList h
  rw [hlist, hlist] at htext
  have hfront := congrArg (List.takeWhile Char.isDigit) htext
  rw [TextDigits.takeWhile_field (hdigits _) (by decide),
    TextDigits.takeWhile_field (hdigits _) (by decide)] at hfront
  have hrest := congrArg (List.dropWhile Char.isDigit) htext
  rw [TextDigits.dropWhile_field (hdigits _) (by decide),
    TextDigits.dropWhile_field (hdigits _) (by decide)] at hrest
  exact ⟨BitVec.eq_of_toNat_eq (toDigits_inj hfront), toDigits_inj (List.cons.inj hrest).2⟩

/-- What a method reports for a remote epoch. -/
def Method.report (sourceChainId : BitVec 32) (epochId : ℕ) : Method AccountId → Option String
  | .syncEpochRoot c e nullifierRoot =>
    if c = sourceChainId ∧ e = epochId then some nullifierRoot else none
  | _ => none

/-- **The last report for a remote epoch** in a run. -/
def lastReport (sourceChainId : BitVec 32) (epochId : ℕ)
    (tr : List (State AccountId × Call AccountId)) : Option String :=
  tr.reverse.findSome? (fun p => p.2.method.report sourceChainId epochId)

/-- Who may report: governance, and the relayer if there is one. -/
def MayReport (s : State AccountId) (account : AccountId) : Prop :=
  account = s.governance ∨ some account = s.authorizedRelayer

/-- **What `sync_epoch_root` asks for and does.** -/
theorem step_syncEpochRoot {ctx : Context AccountId} {c : BitVec 32} {e : ℕ} {root : String}
    {s s' : State AccountId}
    (h : step keccak256 ⟨ctx, .syncEpochRoot c e root⟩ s = .ok s') :
    MayReport s ctx.predecessor ∧ root ≠ ""
      ∧ s'.remoteEpochRoots = Function.update s.remoteEpochRoots (remoteKey c e) (some root) := by
  unfold step at h
  obtain ⟨⟨_, promises⟩, hexec, rfl⟩ := Except.map_eq_ok.mp h
  unfold exec syncEpochRoot at hexec
  simp only [Except.bind_eq_ok, revertIf_eq_ok, not_and_or, not_not, Bool.not_eq_true] at hexec
  obtain ⟨-, -, _, ⟨-, hauth, -, hroot, hs⟩, hr⟩ := hexec
  cases hs
  cases hr
  refine ⟨hauth, fun hempty => ?_, rfl⟩
  rw [hempty] at hroot
  cases hroot

/-- **A step reports for no other remote epoch** than its method names. -/
theorem getRemoteEpochRoot_step {s s' : State AccountId} {c : Call AccountId}
    (hstep : step keccak256 c s = .ok s') (sourceChainId : BitVec 32) (epochId : ℕ) :
    getRemoteEpochRoot s' sourceChainId epochId
      = (c.method.report sourceChainId epochId).or
        (getRemoteEpochRoot s sourceChainId epochId) := by
  obtain ⟨promises, heffect⟩ := step_effect hstep
  cases heffect with
  | deposit _ _ _ _ => rfl
  | transfer _ _ => rfl
  | withdraw _ _ _ _ => rfl
  | setAuthorizedRelayer _ _ => rfl
  | finalizeEpoch _ _ => rfl
  | @syncEpochRoot ctx c e root _ _ _ =>
    obtain ⟨-, -, hroots⟩ := step_syncEpochRoot hstep
    unfold getRemoteEpochRoot Method.report
    rw [hroots, Function.update_apply]
    dsimp only
    by_cases heq : c = sourceChainId ∧ e = epochId
    · rw [if_pos heq, if_pos (by rw [heq.1, heq.2])]
      rfl
    · have hkey : ¬remoteKey sourceChainId epochId = remoteKey c e := by
        intro h
        obtain ⟨hc, he⟩ := remoteKey_inj h
        exact heq ⟨hc.symm, he.symm⟩
      rw [if_neg heq, if_neg hkey]
      rfl

/-- **A remote root is read back** as it was last reported for its chain and its epoch, and
whoever reported was allowed to at that moment. -/
theorem remoteRoot_of_run {tr : List (State AccountId × Call AccountId)} {s : State AccountId}
    (h : RunFrom keccak256 tr s) (sourceChainId : BitVec 32) (epochId : ℕ) :
    getRemoteEpochRoot s sourceChainId epochId = lastReport sourceChainId epochId tr
      ∧ ∀ p ∈ tr, ∀ root, p.2.method.report sourceChainId epochId = some root →
        MayReport p.1 p.2.ctx.predecessor ∧ root ≠ "" := by
  obtain ⟨governance, domainChainId, domainAppId, blockHeight, hrun⟩ := h
  refine hrun.invariant (I := fun tr s =>
    getRemoteEpochRoot s sourceChainId epochId = lastReport sourceChainId epochId tr
      ∧ ∀ p ∈ tr, ∀ root, p.2.method.report sourceChainId epochId = some root →
        MayReport p.1 p.2.ctx.predecessor ∧ root ≠ "") ?_ ?_
  · exact ⟨rfl, fun p hp => absurd hp List.not_mem_nil⟩
  · rintro tr s c s' ⟨hread, hall⟩ - hstep
    refine ⟨?_, fun p hp root hreport => ?_⟩
    · unfold lastReport at hread ⊢
      rw [List.reverse_append, List.reverse_singleton, List.singleton_append,
        List.findSome?_cons, getRemoteEpochRoot_step hstep, hread]
      cases c.method.report sourceChainId epochId <;> rfl
    · rcases List.mem_append.mp hp with hold | hnew
      · exact hall p hold root hreport
      · obtain rfl := List.mem_singleton.mp hnew
        obtain ⟨ctx, method⟩ := c
        cases method
        case syncEpochRoot c e root' =>
          obtain ⟨hmay, hne, -⟩ := step_syncEpochRoot hstep
          have hroot : (if c = sourceChainId ∧ e = epochId then some root' else none)
              = some root := hreport
          by_cases heq : c = sourceChainId ∧ e = epochId
          · rw [if_pos heq] at hroot
            cases hroot
            exact ⟨hmay, hne⟩
          · rw [if_neg heq] at hroot
            cases hroot
        all_goals cases hreport

/-- Two reports whose numbers have the same digits. -/
theorem remoteRoot_of_reports :
    ∃ s : State String, getRemoteEpochRoot s 1 23 = some "aa"
      ∧ getRemoteEpochRoot s 12 3 = some "bb" ∧ getRemoteEpochRoot s 123 0 = none := by
  let report (c : BitVec 32) (e : ℕ) (root : String) : Call String :=
    ⟨⟨"gov", 0, 9⟩, .syncEpochRoot c e root⟩
  obtain ⟨s, s', hstep, hstep'⟩ : ∃ s s' : State String,
      step hostKeccak256 (report 1 23 "aa") govPool = .ok s
        ∧ step hostKeccak256 (report 12 3 "bb") s = .ok s' := ⟨_, _, rfl, rfl⟩
  have hrun : RunFrom hostKeccak256 _ s' :=
    ⟨"gov", 1313, 1, 7, (Run.nil.snoc trivial hstep).snoc trivial hstep'⟩
  exact ⟨s', (remoteRoot_of_run hrun 1 23).1, (remoteRoot_of_run hrun 12 3).1,
    (remoteRoot_of_run hrun 123 0).1⟩

end NearPool
