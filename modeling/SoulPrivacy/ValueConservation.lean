import SoulPrivacy.Circuits
import Mathlib.Algebra.Order.BigOperators.Group.Multiset

/-!
# Conservation of value

Both circuits conserve value in the field, that is modulo `r`. Nothing in
them bounds a value, so conservation of natural numbers depends on which
values a prover chooses. If the inputs are below `2 ^ 128`, a transfer
conserves value exactly when its first output neither exceeds the inputs
nor leaves more than a value for the second (`transfer_conserved_iff`), and
a withdrawal when it does not withdraw more than the note holds
(`withdraw_conserved_iff`).

A chain of deposits, transfers and withdrawals that stay in range keeps
the notes and what was withdrawn equal to what was deposited, so no note
exceeds the deposits. Out of range, two deposits of 500 make a note of
`r - 1` (`exists_inflation`).
-/

namespace Circuit

open Bn254 (Element)

/-- **Value is conserved**: what comes out is in range, and adds up to
what went in, as natural numbers. -/
def Conserved (ins outs : List Element) : Prop :=
  (∀ v ∈ outs, v.val < 2 ^ 128) ∧ (outs.map ZMod.val).sum = (ins.map ZMod.val).sum

/-- **The condition on a transfer**: the first output is in range, does
not exceed the inputs, and leaves less than `2 ^ 128` of them. -/
def TransferInRange (priv : TransferPrivate) : Prop :=
  priv.out0.value.val < 2 ^ 128
    ∧ priv.out0.value.val ≤ priv.in0.value.val + priv.in1.value.val
    ∧ priv.in0.value.val + priv.in1.value.val < priv.out0.value.val + 2 ^ 128

/-- **The condition on a withdrawal**: it does not withdraw more than the
note holds. -/
def WithdrawInRange (pub : WithdrawPublic) (priv : WithdrawPrivate) : Prop :=
  pub.withdrawValue.val ≤ priv.input.value.val

/-! ## One proof -/

/-- **Sums that do not wrap around**: if the second summand is what is
left of a small number, the sum is one of natural numbers. -/
theorem val_add_val_of_le {n s : ℕ} [NeZero n] {x y : ZMod n} (hs : s < n)
    (h : x + y = (s : ZMod n)) (hle : x.val ≤ s) : x.val + y.val = s := by
  have hy : y = ((s - x.val : ℕ) : ZMod n) := by
    rw [Nat.cast_sub hle, ZMod.natCast_zmod_val, ← h, add_sub_cancel_left]
  rw [hy, ZMod.val_natCast_of_lt (lt_of_le_of_lt (Nat.sub_le ..) hs)]
  exact Nat.add_sub_of_le hle

theorem two_pow_lt_r : 2 ^ 129 < Bn254.r := by decide

variable {P : Poseidon}

/-- **When a transfer conserves value.** -/
theorem transfer_conserved_iff {pub : TransferPublic} {priv : TransferPrivate}
    (h : TransferSatisfied P pub priv) (hin0 : priv.in0.value.val < 2 ^ 128)
    (hin1 : priv.in1.value.val < 2 ^ 128) :
    Conserved [priv.in0.value, priv.in1.value] [priv.out0.value, priv.out1.value]
      ↔ TransferInRange priv := by
  have hsum : priv.out0.value + priv.out1.value
      = ((priv.in0.value.val + priv.in1.value.val : ℕ) : Element) := by
    rw [Nat.cast_add, ZMod.natCast_zmod_val, ZMod.natCast_zmod_val]
    exact h.value.symm
  have hlt : priv.in0.value.val + priv.in1.value.val < Bn254.r :=
    lt_trans (Nat.add_lt_add hin0 hin1) two_pow_lt_r
  have hlist : Conserved [priv.in0.value, priv.in1.value] [priv.out0.value, priv.out1.value]
      ↔ (priv.out0.value.val < 2 ^ 128 ∧ priv.out1.value.val < 2 ^ 128)
        ∧ priv.out0.value.val + priv.out1.value.val
          = priv.in0.value.val + priv.in1.value.val := by
    simp [Conserved]
  rw [hlist]
  constructor
  · rintro ⟨⟨hout0, hout1⟩, heq⟩
    refine ⟨hout0, ?_, ?_⟩
    · exact heq ▸ Nat.le_add_right _ _
    · exact heq ▸ Nat.add_lt_add_left hout1 _
  · rintro ⟨hout0, hle, hleft⟩
    have heq := val_add_val_of_le hlt hsum hle
    rw [← heq] at hleft
    exact ⟨⟨hout0, Nat.lt_of_add_lt_add_left hleft⟩, heq⟩

/-- **When a withdrawal conserves value.** -/
theorem withdraw_conserved_iff {pub : WithdrawPublic} {priv : WithdrawPrivate}
    (h : WithdrawSatisfied P pub priv) (hin : priv.input.value.val < 2 ^ 128) :
    Conserved [priv.input.value] [pub.withdrawValue, priv.change.value]
      ↔ WithdrawInRange pub priv := by
  have hsum : pub.withdrawValue + priv.change.value
      = ((priv.input.value.val : ℕ) : Element) := by
    rw [ZMod.natCast_zmod_val]
    exact h.value.symm
  have hlist : Conserved [priv.input.value] [pub.withdrawValue, priv.change.value]
      ↔ (pub.withdrawValue.val < 2 ^ 128 ∧ priv.change.value.val < 2 ^ 128)
        ∧ pub.withdrawValue.val + priv.change.value.val = priv.input.value.val := by
    simp [Conserved]
  rw [hlist, WithdrawInRange]
  constructor
  · rintro ⟨-, heq⟩
    exact heq ▸ Nat.le_add_right _ _
  · intro hle
    have heq := val_add_val_of_le (ZMod.val_lt _) hsum hle
    refine ⟨⟨lt_of_le_of_lt hle hin, lt_of_le_of_lt ?_ hin⟩, heq⟩
    exact heq ▸ Nat.le_add_left _ _

/-! ## Chains -/

/-- The note of the change of a withdrawal; there is none for no change. -/
def WithdrawPrivate.changeNotes (priv : WithdrawPrivate) : Multiset Note :=
  if priv.change.value = 0 then 0 else {priv.change}

/-- A deposit of a note, or a proof. -/
inductive Move where
  | deposit (note : Note)
  | transfer (pub : TransferPublic) (priv : TransferPrivate)
  | withdraw (pub : WithdrawPublic) (priv : WithdrawPrivate)

namespace Move

/-- The circuit of the proof is satisfied. -/
def Satisfied (P : Poseidon) : Move → Prop
  | .deposit _ => True
  | .transfer pub priv => Circuit.transfer P pub priv = .ok ()
  | .withdraw pub priv => Circuit.withdraw P pub priv = .ok ()

/-- **The condition**: a deposited value is in range, and so are the
proofs. -/
def InRange : Move → Prop
  | .deposit note => note.value.val < 2 ^ 128
  | .transfer _ priv => TransferInRange priv
  | .withdraw pub priv => WithdrawInRange pub priv

/-- The notes a move consumes, … -/
def consumed : Move → Multiset Note
  | .deposit _ => 0
  | .transfer _ priv => {priv.in0.toNote, priv.in1.toNote}
  | .withdraw _ priv => {priv.input.toNote}

/-- … and the notes it makes. -/
def produced : Move → Multiset Note
  | .deposit note => {note}
  | .transfer _ priv => {priv.out0, priv.out1}
  | .withdraw _ priv => priv.changeNotes

/-- The value a move brings in, … -/
def deposited : Move → ℕ
  | .deposit note => note.value.val
  | _ => 0

/-- … and the value it takes out. -/
def withdrawn : Move → ℕ
  | .withdraw pub _ => pub.withdrawValue.val
  | _ => 0

end Move

/-- **A chain of moves** and the notes it leaves: each move consumes notes
that are there. -/
inductive Chain (P : Poseidon) (allowed : Move → Prop) : List Move → Multiset Note → Prop
  | nil : Chain P allowed [] 0
  | snoc {moves : List Move} {notes : Multiset Note} (m : Move) :
      Chain P allowed moves (m.consumed + notes) → m.Satisfied P → allowed m →
        Chain P allowed (moves ++ [m]) (m.produced + notes)

/-- The value of some notes. -/
def total (notes : Multiset Note) : ℕ := (notes.map (fun n => n.value.val)).sum

/-- All that was deposited. -/
def totalDeposited (moves : List Move) : ℕ := (moves.map Move.deposited).sum

/-- All that was withdrawn. -/
def totalWithdrawn (moves : List Move) : ℕ := (moves.map Move.withdrawn).sum

theorem total_add (notes notes' : Multiset Note) :
    total (notes + notes') = total notes + total notes' := by
  rw [total, Multiset.map_add, Multiset.sum_add]
  rfl

/-- The note of the change is worth the change, … -/
theorem total_changeNotes (priv : WithdrawPrivate) :
    total priv.changeNotes = priv.change.value.val := by
  unfold WithdrawPrivate.changeNotes
  split_ifs with hzero
  · rw [hzero, ZMod.val_zero]
    rfl
  · simp [total]

/-- … and it is the only one. -/
theorem eq_of_mem_changeNotes {priv : WithdrawPrivate} {n : Note}
    (hn : n ∈ priv.changeNotes) : n = priv.change := by
  unfold WithdrawPrivate.changeNotes at hn
  split_ifs at hn with hzero
  · exact absurd hn (Multiset.notMem_zero n)
  · exact Multiset.mem_singleton.mp hn

/-- **A move in range is balanced**: what it makes is in range, and with
what it takes out it is worth what it consumes and brings in. -/
theorem Move.balanced {m : Move} (hsat : m.Satisfied P) (hrange : m.InRange)
    (hin : ∀ n ∈ m.consumed, n.value.val < 2 ^ 128) :
    (∀ n ∈ m.produced, n.value.val < 2 ^ 128)
      ∧ total m.produced + m.withdrawn = total m.consumed + m.deposited := by
  cases m with
  | deposit note =>
    refine ⟨fun n hn => ?_, ?_⟩
    · rw [Multiset.mem_singleton.mp hn]
      exact hrange
    · simp [total, produced, consumed, withdrawn, deposited]
  | transfer pub priv =>
    have hin0 := hin priv.in0.toNote (by simp [consumed])
    have hin1 := hin priv.in1.toNote (by simp [consumed])
    obtain ⟨hout, hsum⟩ :=
      (transfer_conserved_iff (transfer_eq_ok.mp hsat) hin0 hin1).mpr hrange
    refine ⟨fun n hn => ?_, ?_⟩
    · have hmem : n = priv.out0 ∨ n = priv.out1 := by simpa [produced] using hn
      rcases hmem with rfl | rfl
      · exact hout _ (by simp)
      · exact hout _ (by simp)
    · simpa [total, produced, consumed, withdrawn, deposited] using hsum
  | withdraw pub priv =>
    have hin := hin priv.input.toNote (by simp [consumed])
    obtain ⟨hout, hsum⟩ :=
      (withdraw_conserved_iff (withdraw_eq_ok.mp hsat) hin).mpr hrange
    refine ⟨fun n hn => ?_, ?_⟩
    · rw [eq_of_mem_changeNotes hn]
      exact hout _ (by simp)
    · rw [produced, total_changeNotes]
      simpa [total, consumed, withdrawn, deposited, add_comm] using hsum

/-- **A chain in range is balanced**: the notes are in range, and with
what was withdrawn they are worth what was deposited. -/
theorem Chain.balanced {moves : List Move} {notes : Multiset Note}
    (h : Chain P Move.InRange moves notes) :
    (∀ n ∈ notes, n.value.val < 2 ^ 128)
      ∧ total notes + totalWithdrawn moves = totalDeposited moves := by
  induction h with
  | nil => exact ⟨fun n hn => absurd hn (Multiset.notMem_zero n), rfl⟩
  | @snoc moves notes m _ hsat hrange ih =>
    obtain ⟨hbelow, htotal⟩ := ih
    obtain ⟨hout, hmove⟩ := m.balanced hsat hrange
      (fun n hn => hbelow n (Multiset.mem_add.mpr (Or.inl hn)))
    refine ⟨fun n hn => ?_, ?_⟩
    · rcases Multiset.mem_add.mp hn with hn | hn
      · exact hout n hn
      · exact hbelow n (Multiset.mem_add.mpr (Or.inr hn))
    · unfold totalDeposited totalWithdrawn at htotal ⊢
      rw [total_add] at htotal ⊢
      rw [List.map_append, List.map_append, List.sum_append, List.sum_append,
        List.map_singleton, List.map_singleton, List.sum_singleton, List.sum_singleton,
        ← htotal]
      linarith

/-! ## Two notes of 500 -/

/-- Toy hashes. -/
def toyPoseidon : Poseidon where
  hash2 a b := 3 * a + b + 1
  hash3 a b c := a + 2 * b + 4 * c

/-- Two notes … -/
def toyNote (i : Fin 2) : Note := if i = 0 then ⟨111, 222, 500⟩ else ⟨333, 444, 500⟩

/-- … which are siblings in an otherwise empty tree. -/
def toyInput (i : Fin 2) : Input :=
  { toyNote i with
    path := fun k => if k.val = 0 then (toyNote (1 - i)).commitment toyPoseidon else 0
    indices := fun k => if k.val = 0 then BitVec.ofNat 1 i else 0 }

/-- The root of the tree. -/
def toyRoot : Element :=
  computeMerkleRoot toyPoseidon ((toyInput 0).commitment toyPoseidon) (toyInput 0).path
    (toyInput 0).indices

/-- The nullifier of a note. -/
def toyNullifier (i : Fin 2) : Element :=
  computeNullifierV2 toyPoseidon (toyInput i).secret
    ((toyInput i).commitment toyPoseidon) 43113 1

/-- The outputs of a transfer of both notes. -/
def toyOutputs (v₀ v₁ : Element) : Note × Note := (⟨555, 666, v₀⟩, ⟨777, 888, v₁⟩)

/-- A transfer of both notes. -/
def toyTransfer (v₀ v₁ : Element) : TransferPublic × TransferPrivate :=
  (⟨toyRoot, toyNullifier 0, toyNullifier 1,
      (toyOutputs v₀ v₁).1.commitment toyPoseidon,
      (toyOutputs v₀ v₁).2.commitment toyPoseidon, 43113, 1⟩,
    ⟨toyInput 0, toyInput 1, (toyOutputs v₀ v₁).1, (toyOutputs v₀ v₁).2⟩)

/-- A withdrawal of `w` from the first, with change. -/
def toyWithdraw (w change : Element) : WithdrawPublic × WithdrawPrivate :=
  (⟨toyRoot, toyNullifier 0, 0xdeadbeef, w,
      Note.commitment toyPoseidon ⟨555, 666, change⟩, 43113, 1⟩,
    ⟨toyInput 0, ⟨555, 666, change⟩⟩)

/-- The transfer goes through for all outputs that add up in the field. -/
theorem toyTransfer_eq_ok (v₀ v₁ : Element) (h : v₀ + v₁ = 1000) :
    transfer toyPoseidon (toyTransfer v₀ v₁).1 (toyTransfer v₀ v₁).2 = .ok () := by
  refine transfer_eq_ok.mpr ⟨Eq.refl toyRoot, ?_, rfl, rfl, ?_, rfl, rfl, ?_⟩
  · show computeMerkleRoot toyPoseidon ((toyInput 1).commitment toyPoseidon)
      (toyInput 1).path (toyInput 1).indices = toyRoot
    decide +kernel
  · show toyNullifier 0 ≠ toyNullifier 1
    decide +kernel
  · have hin : (500 : Element) + 500 = 1000 := by decide +kernel
    exact hin.trans h.symm

/-- The withdrawal goes through for all amounts that add up in the
field. -/
theorem toyWithdraw_eq_ok (w change : Element) (hw : w ≠ 0) (hchange : change ≠ 0)
    (h : w + change = 500) :
    withdraw toyPoseidon (toyWithdraw w change).1 (toyWithdraw w change).2 = .ok () := by
  refine withdraw_eq_ok.mpr ⟨Eq.refl toyRoot, rfl, hw, ?_, h.symm, fun _ => rfl,
    fun hzero => absurd hzero hchange, ?_⟩
  · show (0xdeadbeef : Element) ≠ 0
    decide +kernel
  · show (111 : Element) ≠ 0
    decide +kernel

/-- The chain of both deposits. -/
theorem toyChain (allowed : Move → Prop) (h₀ : allowed (.deposit (toyNote 0)))
    (h₁ : allowed (.deposit (toyNote 1))) :
    Chain toyPoseidon allowed [.deposit (toyNote 1), .deposit (toyNote 0)]
      ({(toyInput 0).toNote, (toyInput 1).toNote} + 0) := by
  have hnil : Chain toyPoseidon allowed [] ((Move.deposit (toyNote 1)).consumed + 0) := .nil
  have hone := Chain.snoc (.deposit (toyNote 1)) hnil trivial h₁
  have htwo : Chain toyPoseidon allowed [.deposit (toyNote 1)]
      ((Move.deposit (toyNote 0)).consumed + {toyNote 1}) := hone
  exact .snoc (.deposit (toyNote 0)) htwo trivial h₀

/-! ## Conservation -/

/-- **When the circuits conserve value**: a proof with inputs in range
exactly when it is in range itself, and a chain whose moves are all in
range throughout, so that no note exceeds what was deposited. -/
theorem value_conserved (P : Poseidon) :
    (∀ pub priv, transfer P pub priv = .ok () → priv.in0.value.val < 2 ^ 128 →
      priv.in1.value.val < 2 ^ 128 →
        (Conserved [priv.in0.value, priv.in1.value] [priv.out0.value, priv.out1.value]
          ↔ TransferInRange priv))
    ∧ (∀ pub priv, withdraw P pub priv = .ok () → priv.input.value.val < 2 ^ 128 →
        (Conserved [priv.input.value] [pub.withdrawValue, priv.change.value]
          ↔ WithdrawInRange pub priv))
    ∧ (∀ moves notes, Chain P Move.InRange moves notes →
        ∀ n ∈ notes, n.value.val ≤ totalDeposited moves) := by
  refine ⟨fun pub priv hsat hin0 hin1 => ?_, fun pub priv hsat hin => ?_,
    fun moves notes hchain n hn => ?_⟩
  · exact transfer_conserved_iff (transfer_eq_ok.mp hsat) hin0 hin1
  · exact withdraw_conserved_iff (withdraw_eq_ok.mp hsat) hin
  · have hle : n.value.val ≤ total notes :=
      Multiset.single_le_sum (fun _ _ => Nat.zero_le _) _
        (Multiset.mem_map_of_mem (fun n : Note => n.value.val) hn)
    exact hle.trans (hchain.balanced.2 ▸ Nat.le_add_right _ _)

/-- The two notes are deposited and transferred as 600 and 400; another
time 300 are withdrawn from the first. -/
theorem value_conserved_thousand :
    Conserved [500, 500] [(600 : Element), 400] ∧ Conserved [500] [(300 : Element), 200]
      ∧ ∃ moves notes, Chain toyPoseidon Move.InRange moves notes
        ∧ totalDeposited moves = 1000 ∧ ∀ n ∈ notes, n.value.val ≤ 1000 := by
  have hmain := value_conserved toyPoseidon
  have htransfer := toyTransfer_eq_ok 600 400 (by decide +kernel)
  have hwithdraw := toyWithdraw_eq_ok 300 200 (by decide +kernel)
    (by decide +kernel) (by decide +kernel)
  have hrange : TransferInRange (toyTransfer 600 400).2 := by
    unfold TransferInRange
    decide +kernel
  have h500 : ZMod.val (500 : Element) < 2 ^ 128 := by decide +kernel
  refine ⟨(hmain.1 _ _ htransfer h500 h500).mpr hrange,
    (hmain.2.1 _ _ hwithdraw h500).mpr ?_, ?_⟩
  · show ZMod.val (300 : Element) ≤ ZMod.val (500 : Element)
    decide +kernel
  · have hchain := (toyChain Move.InRange h500 h500).snoc
      (.transfer (toyTransfer 600 400).1 (toyTransfer 600 400).2) htransfer hrange
    have htotal : totalDeposited ([.deposit (toyNote 1), .deposit (toyNote 0)]
        ++ [.transfer (toyTransfer 600 400).1 (toyTransfer 600 400).2]) = 1000 := by
      decide +kernel
    exact ⟨_, _, hchain, htotal, fun n hn => htotal ▸ hmain.2.2 _ _ hchain n hn⟩

/-- **Value can be made**: the two notes of 500 can be transferred as
`r - 1` and 1001, and 501 can be withdrawn from a note of 500. -/
theorem exists_inflation :
    ∃ P : Poseidon,
      (∃ pub priv, transfer P pub priv = .ok () ∧ priv.in0.value.val < 2 ^ 128
        ∧ priv.in1.value.val < 2 ^ 128
        ∧ ¬ Conserved [priv.in0.value, priv.in1.value] [priv.out0.value, priv.out1.value])
      ∧ (∃ pub priv, withdraw P pub priv = .ok () ∧ priv.input.value.val < 2 ^ 128
        ∧ ¬ Conserved [priv.input.value] [pub.withdrawValue, priv.change.value])
      ∧ (∃ moves notes, Chain P (fun _ => True) moves notes
        ∧ ∃ n ∈ notes, totalDeposited moves < n.value.val) := by
  have htransfer := toyTransfer_eq_ok (-1) 1001 (by decide +kernel)
  have hwithdraw := toyWithdraw_eq_ok 501 (-1) (by decide +kernel)
    (by decide +kernel) (by decide +kernel)
  have h500 : ZMod.val (500 : Element) < 2 ^ 128 := by decide +kernel
  have hlarge : 2 ^ 128 ≤ ZMod.val (-1 : Element) := by decide +kernel
  refine ⟨toyPoseidon, ⟨_, _, htransfer, h500, h500, fun h => ?_⟩,
    ⟨_, _, hwithdraw, h500, fun h => ?_⟩, ?_⟩
  · exact absurd (h.1 (-1) (by simp [toyTransfer, toyOutputs])) (not_lt.mpr hlarge)
  · exact absurd (h.1 (-1) (by simp [toyWithdraw])) (not_lt.mpr hlarge)
  · have hchain := (toyChain (fun _ => True) trivial trivial).snoc
      (.transfer (toyTransfer (-1) 1001).1 (toyTransfer (-1) 1001).2) htransfer trivial
    refine ⟨_, _, hchain, (toyOutputs (-1) 1001).1, ?_, ?_⟩
    · simp [Move.produced, toyTransfer]
    · exact lt_of_lt_of_le (by decide +kernel) hlarge

end Circuit
