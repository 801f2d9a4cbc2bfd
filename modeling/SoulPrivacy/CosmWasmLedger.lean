import SoulPrivacy.CosmWasmBooks
import SoulPrivacy.CosmWasmNullifiers
import SoulPrivacy.ShieldedPool

/-!
# The CosmWasm pool keeps a ledger

This contract can be instantiated with any depth of the tree and any length of the history,
and it takes any texts for leaves. Its insertion reads the first digits of a text, so a leaf
that is longer is another leaf to the tree than to whoever sent it. For the depths its
arithmetic has room for and leaves of 64 digits (`OfDigits`) it keeps a ledger
(`keepsLedger_of_messages`); the nullifiers and the roots of the spends may be any texts.

What a deposit brings in is what the contract finds for it among the coins that are sent,
which need not be all of them.
-/

namespace CosmWasmPool

open ShieldedPool (Rules Ledger Op Allowed AllowedAll View Shows Keeps Accounted Simulation)

variable {C : Crypto}

/-- **The rules of a pool** that was instantiated with a message. -/
def rules (C : Crypto) (msg : InstantiateMsg) : Rules String String where
  rootOf := HashTree.root (hashText C.hash) ZERO_HASH msg.treeDepth.toNat
  Admissible root := root ≠ ZERO_HASH
  window := msg.rootHistorySize.toNat
  capacity := 2 ^ msg.treeDepth.toNat

/-- What a message does, if it goes through. -/
def opsOf (s : State) (c : Call) : List (Op String String String) :=
  match c.msg with
  | .deposit commitment =>
    [.deposit commitment (amountIn s.config.acceptedDenom c.info.funds).toNat]
  | .transfer _ merkleRoot nullifiers outputs =>
    [.spend merkleRoot [nullifiers.1, nullifiers.2] [outputs.1, outputs.2] 0]
  | .withdraw _ merkleRoot nullifiers outputs _ exitValue =>
    [.spend merkleRoot [nullifiers.1, nullifiers.2] [outputs.1, outputs.2] exitValue.toNat]
  | _ => []

/-- **What happened in a run.** -/
def opsIn (tr : List (State × Call)) : List (Op String String String) :=
  tr.flatMap (fun p => opsOf p.1 p.2)

/-- **The leaves of a message have 64 digits.** -/
def OfDigits (s : State) (c : Call) : Prop :=
  ∀ op ∈ opsOf s c, ∀ leaf ∈ op.leaves, IsHex64 leaf

/-- What the queries show. -/
def view (s : State) : View String String where
  latestRoot := (latestRoot s).getD ""
  isKnownRoot root := (isKnownRoot s root).toOption == some true
  isSpent := s.nullifierSpent
  balance := s.poolBalance.toNat
  nextLeafIndex := s.nextLeafIndex

/-- **A state is one of a ledger.** -/
structure Matches (C : Crypto) (msg : InstantiateMsg) (l : Ledger String String) (s : State) :
    Prop where
  tree : TreeHolds C msg.treeDepth.toNat msg.rootHistorySize.toNat l.leaves s
  books : ∃ pending, Booked l.spent pending s
  balance : s.poolBalance.toNat = l.balance

variable {msg : InstantiateMsg} {l : Ledger String String} {s : State}

theorem Matches.isKnownRoot_iff (h : Matches C msg l s) (root : String) :
    (view s).isKnownRoot root = true ↔ (rules C msg).Knows l.leaves root := by
  show ((isKnownRoot s root).toOption == some true) = true ↔ _
  by_cases hzero : root = ZERO_HASH
  · have hunknown : isKnownRoot s root = .ok false := if_pos hzero
    rw [hunknown]
    exact iff_of_false Bool.false_ne_true (fun hknows => hknows.1 hzero)
  · rw [h.tree.isKnownRoot_eq hzero, beq_iff_eq]
    refine (Option.some_inj.trans decide_eq_true_iff).trans ?_
    exact (and_iff_right hzero).symm

theorem Matches.shows (h : Matches C msg l s) (hdepth : msg.treeDepth.toNat ≤ 63) :
    Shows (rules C msg) l (view s) where
  latestRoot := congrArg (fun root => root.getD "") (h.tree.shows hdepth).latestRoot
  isKnownRoot := h.isKnownRoot_iff
  isSpent n := h.books.elim (fun _ hbooked => hbooked.marked n)
  balance := h.balance
  nextLeafIndex := h.tree.tree.nextIndex

/-- **An insertion that goes through** had room for its leaf. -/
theorem TreeHolds.of_insertLeaf {depth size : ℕ} {leaves : List String} {s s' : State}
    (h : TreeHolds C depth size leaves s) (hdepth : depth ≤ 63) {leaf : String}
    (hleaf : IsHex64 leaf) {i : ℕ} (hinsert : insertLeaf C leaf s = .ok (i, s')) :
    leaves.length < 2 ^ depth ∧ TreeHolds C depth size (leaves ++ [leaf]) s' := by
  have hroom : leaves.length < 2 ^ depth := by
    have hparts := hinsert
    unfold insertLeaf at hparts
    rw [h.depth_eq, powTwo_of_le hdepth] at hparts
    obtain ⟨hroom, -⟩ := (revertIf_bind_eq_ok _ _ _ _).mp hparts
    rw [h.tree.nextIndex] at hroom
    exact not_le.mp hroom
  obtain ⟨i', s'', hinsert', hholds⟩ := h.exists_insertLeaf hdepth hroom hleaf
  cases hinsert.symm.trans hinsert'
  exact ⟨hroom, hholds⟩

/-- … and two. -/
theorem TreeHolds.of_insertTwo {depth size : ℕ} {leaves : List String} {s s' : State}
    (h : TreeHolds C depth size leaves s) (hdepth : depth ≤ 63) {outputs : String × String}
    (hfst : IsHex64 outputs.1) (hsnd : IsHex64 outputs.2) (hinsert : InsertTwo C outputs s s') :
    leaves.length + 2 ≤ 2 ^ depth
      ∧ TreeHolds C depth size (leaves ++ [outputs.1, outputs.2]) s' := by
  obtain ⟨_, _, _, h₁, h₂⟩ := hinsert
  obtain ⟨-, hholds₁⟩ := h.of_insertLeaf hdepth hfst h₁
  obtain ⟨hroom, hholds₂⟩ := hholds₁.of_insertLeaf hdepth hsnd h₂
  rw [List.length_append, List.length_singleton] at hroom
  rw [List.append_assoc] at hholds₂
  exact ⟨hroom, hholds₂⟩

/-- **A spend that goes through is allowed.** -/
theorem Matches.allowed_spend (h : Matches C msg l s) {merkleRoot : String}
    {nullifiers outputs : String × String} {exit : ℕ} (hknown : isKnownRoot s merkleRoot = .ok true)
    (hspendable : Spendable s nullifiers)
    (hroom : l.leaves.length + 2 ≤ 2 ^ msg.treeDepth.toNat) (hexit : exit ≤ s.poolBalance.toNat) :
    Allowed (rules C msg) l
      (.spend merkleRoot [nullifiers.1, nullifiers.2] [outputs.1, outputs.2] exit) := by
  obtain ⟨pending, hbooked⟩ := h.books
  have hunspent : ∀ {n : String}, s.nullifierSpent n = false → n ∉ l.spent := by
    intro n hfalse hmem
    exact Bool.false_ne_true (hfalse.symm.trans ((hbooked.marked n).mpr hmem))
  have hshown : (view s).isKnownRoot merkleRoot = true := by
    show ((isKnownRoot s merkleRoot).toOption == some true) = true
    rw [hknown]
    rfl
  refine .spend ((h.isKnownRoot_iff merkleRoot).mp hshown) ?_ ?_ hroom (h.balance ▸ hexit)
  · exact List.nodup_cons.mpr ⟨List.mem_singleton.not.mpr hspendable.ne, List.nodup_singleton _⟩
  · rintro n (_ | ⟨_, (_ | ⟨_, hnil⟩)⟩)
    · exact hunspent hspendable.fst
    · exact hunspent hspendable.snd
    · exact absurd hnil List.not_mem_nil

/-- **A message is one operation of the ledger, or none.** -/
theorem simulation (hdepth : msg.treeDepth.toNat ≤ 63) {s₀ : State}
    (hinit : Matches C msg Ledger.empty s₀) :
    Simulation (step C) OfDigits s₀ (rules C msg) opsOf (Matches C msg) where
  init := hinit
  next := by
    intro l s c s' h hdigits hstep
    obtain ⟨pending, hbooked⟩ := h.books
    have hbooks : ∃ pending, Booked (l.spent ++ c.msg.spends) pending s' :=
      ⟨_, hbooked.step hstep⟩
    -- the governance messages leave leaves, nullifiers and balance alone
    have hsame : c.msg.spends = [] → opsOf s c = [] → s'.poolBalance = s.poolBalance →
        TreeHolds C msg.treeDepth.toNat msg.rootHistorySize.toNat l.leaves s' →
          AllowedAll (rules C msg) l (opsOf s c)
            ∧ Matches C msg (l.afterAll (opsOf s c)) s' := by
      intro hspends hops hbalance htree
      rw [hspends, List.append_nil] at hbooks
      rw [hops]
      exact ⟨trivial, htree, hbooks, hbalance ▸ h.balance⟩
    cases step_effect hstep with
    | @deposit height info commitment i s₁ amount_ne fresh insert fits =>
      have hleaf : IsHex64 commitment :=
        hdigits _ (List.mem_cons_self ..) _ (List.mem_cons_self ..)
      have hrecorded : TreeHolds C msg.treeDepth.toNat msg.rootHistorySize.toNat l.leaves
          (recorded s commitment) := h.tree.of_eq rfl rfl rfl rfl rfl
      obtain ⟨hroom, htree⟩ := hrecorded.of_insertLeaf hdepth hleaf insert
      have hpos : 0 < (amountIn s.config.acceptedDenom info.funds).toNat :=
        Nat.pos_of_ne_zero (fun h0 => amount_ne (BitVec.toNat_inj.mp h0))
      refine ⟨⟨.deposit hpos hroom, trivial⟩, htree.of_eq rfl rfl rfl rfl rfl, hbooks, ?_⟩
      show (s.poolBalance + amountIn s.config.acceptedDenom info.funds).toNat
        = l.balance + (amountIn s.config.acceptedDenom info.funds).toNat
      rw [BitVec.toNat_add, Nat.mod_eq_of_lt fits, h.balance]
    | @transfer height info proof merkleRoot nullifiers outputs s' known spendable _ insert =>
      have hleaf := hdigits _ (List.mem_cons_self ..)
      have hspent : TreeHolds C msg.treeDepth.toNat msg.rootHistorySize.toNat l.leaves
          (spentTwo s nullifiers) := h.tree.of_eq rfl rfl rfl rfl rfl
      obtain ⟨hroom, htree⟩ := hspent.of_insertTwo hdepth (hleaf _ (List.mem_cons_self ..))
        (hleaf _ (List.mem_cons_of_mem _ (List.mem_cons_self ..))) insert
      obtain ⟨hbalance, -⟩ := insert.pool_denom_eq
      exact ⟨⟨h.allowed_spend known spendable hroom (Nat.zero_le _), trivial⟩, htree, hbooks,
        hbalance ▸ h.balance⟩
    | @withdraw height info proof merkleRoot nullifiers outputs recipient exitValue s' _ balance
        known spendable _ insert =>
      have hleaf := hdigits _ (List.mem_cons_self ..)
      have hspent : TreeHolds C msg.treeDepth.toNat msg.rootHistorySize.toNat l.leaves
          (spentTwo s nullifiers) := h.tree.of_eq rfl rfl rfl rfl rfl
      obtain ⟨hroom, htree⟩ := hspent.of_insertTwo hdepth (hleaf _ (List.mem_cons_self ..))
        (hleaf _ (List.mem_cons_of_mem _ (List.mem_cons_self ..))) insert
      refine ⟨⟨h.allowed_spend known spendable hroom balance, trivial⟩,
        htree.of_eq rfl rfl rfl rfl rfl, hbooks, ?_⟩
      show (s.poolBalance - exitValue).toNat = l.balance - exitValue.toNat
      rw [BitVec.toNat_sub_of_le balance, h.balance]
    | finalizeEpoch _ _ _ _ _ => exact hsame rfl rfl rfl (h.tree.of_eq rfl rfl rfl rfl rfl)
    | syncEpochRoot _ _ => exact hsame rfl rfl rfl (h.tree.of_eq rfl rfl rfl rfl rfl)
    | updateGovernance _ =>
      exact hsame rfl rfl rfl
        ⟨h.tree.depth_eq, h.tree.size_eq, h.tree.written, h.tree.tree, h.tree.history⟩
    | setAuthorizedRelayer _ =>
      exact hsame rfl rfl rfl
        ⟨h.tree.depth_eq, h.tree.size_eq, h.tree.written, h.tree.tree, h.tree.history⟩

/-- **The CosmWasm pool keeps a ledger**, and with it the promises of a shielded pool. -/
theorem keepsLedger_of_messages {height : ℕ} (hdepth : msg.treeDepth.toNat ≤ 63)
    (hsize : 1 ≤ msg.rootHistorySize.toNat) {tr : List (State × Call)}
    (h : RunFrom C height msg OfDigits tr s) :
    Keeps (rules C msg) (opsIn tr) (view s) ∧ Accounted (rules C msg) (opsIn tr) (view s) := by
  obtain ⟨s₀, hs₀, hrun⟩ := h
  obtain ⟨s₀', hs₀', htree⟩ := exists_instantiate (C := C) height hsize
  cases hs₀.symm.trans hs₀'
  obtain ⟨st, rfl⟩ := exists_initial hs₀
  have hinit : Matches C msg Ledger.empty (initial height msg st) :=
    ⟨htree, ⟨[], booked_initial height msg st⟩, rfl⟩
  obtain ⟨l, hexec, hmatches⟩ := (simulation hdepth hinit).exists_execution hrun
  have hkeeps : Keeps (rules C msg) (opsIn tr) (view s) := ⟨l, hexec, hmatches.shows hdepth⟩
  exact ⟨hkeeps, hkeeps.accounted⟩

/-- A deposit and a transfer of what was deposited, in a tree of four leaves. -/
theorem keepsLedger_of_two_messages :
    ∃ tr s, RunFrom ⟨PoseidonHasher.hash, fun _ => 0⟩ 1 shallowMsg OfDigits tr s
      ∧ (opsIn tr).length = 2 ∧ (view s).balance + 0 = 100
      ∧ (view s).isSpent (Bytes32.toHex 2) = true ∧ (view s).nextLeafIndex = 3 := by
  obtain ⟨s₀, s₁, hs₀, hdeposit, hdeposited⟩ := exists_deposited ⟨PoseidonHasher.hash, fun _ => 0⟩
    (Bytes32.isLowerHex64_toHex 7).isHex64 (show (100 : BitVec 128) ≠ 0 by decide)
  obtain ⟨st, rfl⟩ := exists_initial hs₀
  have hhex : ∀ w, IsHex64 (Bytes32.toHex w) := fun w => (Bytes32.isLowerHex64_toHex w).isHex64
  have hzeros : ∀ {w : Bytes32}, w ≠ 0 → HexProof.isZeros (Bytes32.toHex w) = false :=
    HexProof.isZeros_toHex
  let spend := HexProof.spendOf firstRoot (Bytes32.toHex 2, Bytes32.toHex 3)
  have hwf : spend.WellFormed := ⟨isZeros_firstRoot, hzeros (by decide), hzeros (by decide),
    Bytes32.toHex_injective.ne (by decide), hzeros (by decide), hzeros (by decide),
    Bytes32.toHex_injective.ne (by decide)⟩
  have hcovers : Covers ⟨PoseidonHasher.hash, fun _ => 0⟩ s₁ (.transfer spend) :=
    hdeposited.covers hwf trivial (root_eq_firstRoot fun _ => 0).symm (hhex 4) (hhex 5)
  obtain ⟨height, info, ⟨s₂, msgs⟩, hexec⟩ := accepts_iff.mpr ⟨hcovers,
    HexProof.shaped_proofOf spend.text, HexProof.tagged_proofOf spend.text⟩
  let transfer : Call :=
    ⟨height, info, msgOf (HexProof.proofOf (fun _ => 0) spend.text) (.transfer spend)⟩
  have htransfer : step ⟨PoseidonHasher.hash, fun _ => 0⟩ transfer s₁ = .ok s₂ :=
    congrArg (Except.map Prod.fst) hexec
  have hone : OfDigits (initial 1 shallowMsg st) (depositCall (Bytes32.toHex 7) 100) :=
    List.forall_mem_singleton.mpr (List.forall_mem_singleton.mpr (hhex 7))
  have htwo : OfDigits s₁ transfer := List.forall_mem_singleton.mpr
    (List.forall_mem_cons.mpr ⟨hhex 4, List.forall_mem_singleton.mpr (hhex 5)⟩)
  have hrun : RunFrom ⟨PoseidonHasher.hash, fun _ => 0⟩ 1 shallowMsg OfDigits _ s₂ :=
    ⟨_, hs₀, (Run.nil.snoc hone hdeposit).snoc htwo htransfer⟩
  have hdepth : shallowMsg.treeDepth.toNat ≤ 63 := by decide
  have hsize : 1 ≤ shallowMsg.rootHistorySize.toNat := by decide
  obtain ⟨-, haccounted⟩ := keepsLedger_of_messages hdepth hsize hrun
  refine ⟨_, s₂, hrun, rfl, haccounted.balance, (haccounted.isSpent _).mpr ?_,
    haccounted.nextLeafIndex⟩
  exact List.mem_cons_self ..

end CosmWasmPool
