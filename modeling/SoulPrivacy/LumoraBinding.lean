import SoulPrivacy.LumoraPoseidon
import SoulPrivacy.LumoraMerkle
import SoulPrivacy.Solidity

/-!
# What the coprocessor's proofs are bound to

A value that a proof is to be about is either an instance cell or reaches one
through constraints. The chain id and the application id are witnesses that
only go into a hash, and the chip lets its output be anything, so they are
free for the prover. The recipient of a withdrawal is not in the circuit at
all: it is named in the transaction, beside the proof. The exit value is an
instance cell.

Nothing compares nullifiers. The two of a transfer are two instance cells and
differ when those do; a withdrawal has one. That is not for want of a hash:
with an exact gadget too, a note spent twice in one transfer satisfies the
circuit (`sameNote_satisfiable`).
-/

namespace Lumora

open Halo2 PoseidonConfig

/-- The gadget of the repository. -/
abbrev chip : Gadget := configure.hash

/-- A relation that always holds. -/
def anyHash : HashRel := fun _ _ _ => True

/-- Different nullifiers among the nullifiers of a proof. -/
def TwoNullifiers (nullifiers : List Fp) : Prop :=
  ∃ a ∈ nullifiers, ∃ b ∈ nullifiers, a ≠ b

def TransferCells.nullifiers (cells : TransferCells) : List Fp :=
  [cells.nullifier0, cells.nullifier1]

def WithdrawCells.nullifiers (cells : WithdrawCells) : List Fp := [cells.nullifier]

/-- **A withdrawal as it is submitted** (`submit_withdraw`): the recipient,
and the assignment behind the proof. -/
structure Withdrawal where
  recipient : Address
  regions : List (Region Column Fp)
  cells : WithdrawCells

/-- The proof verifies against the instance column. -/
def Withdrawal.Verifies (inst : ℕ → Fp) (w : Withdrawal) : Prop :=
  Satisfies (withdraw chip inst) w.regions w.cells

/-- **A transfer is bound to its statement.** -/
structure TransferBinding (inst : ℕ → Fp) : Prop where
  chainId : Determines (transfer chip inst) TransferCells.chainId
  appId : Determines (transfer chip inst) TransferCells.appId
  twoNullifiers : ∀ regions cells, Satisfies (transfer chip inst) regions cells →
    TwoNullifiers cells.nullifiers

/-- **A withdrawal is bound to its statement.** -/
structure WithdrawBinding (inst : ℕ → Fp) : Prop where
  recipient : ∀ w w' : Withdrawal, w.Verifies inst → w'.Verifies inst →
    w.recipient = w'.recipient
  exitValue : Determines (withdraw chip inst) WithdrawCells.withdraw
  chainId : Determines (withdraw chip inst) WithdrawCells.chainId
  appId : Determines (withdraw chip inst) WithdrawCells.appId
  twoNullifiers : ∀ regions cells, Satisfies (withdraw chip inst) regions cells →
    TwoNullifiers cells.nullifiers

/-! ## What the circuits check with the chip -/

theorem transfer_chip (inst : ℕ → Fp) :
    Spec (transfer chip inst) (fun cells => cells.Checked anyHash inst) :=
  transfer_spec hash_spec inst

theorem withdraw_chip (inst : ℕ → Fp) :
    Spec (withdraw chip inst) (fun cells => cells.Checked anyHash inst) :=
  withdraw_spec hash_spec inst

theorem commits_anyHash (note : Note) (cm : Fp) : Commits anyHash note cm :=
  ⟨0, trivial, trivial⟩

theorem nullifies_anyHash (secret cm domainHash nul : Fp) :
    Nullifies anyHash secret cm domainHash nul :=
  ⟨0, trivial, trivial⟩

/-- A path from zero to any root. -/
def anyPath (root : Fp) : List MerkleLevel := forgedPath (fun _ _ => 0) TREE_DEPTH 0 root

theorem anyPath_checked (root : Fp) : PathChecked anyHash TREE_DEPTH 0 (anyPath root) root :=
  (forgedPath_checked 31 0 root).mono fun _ _ _ _ => trivial

/-- Cells of a transfer for any public inputs and any domain. -/
def anyTransfer (inst : ℕ → Fp) (chainId appId : Fp) : TransferCells where
  in0 := ⟨0, 0, 0⟩
  inCommitment0 := 0
  in1 := ⟨0, 0, 0⟩
  inCommitment1 := 0
  out0 := ⟨0, 0, 0⟩
  outCommitment0 := inst 3
  out1 := ⟨0, 0, 0⟩
  outCommitment1 := inst 4
  chainId := chainId
  appId := appId
  domainHash := 0
  nullifier0 := inst 1
  nullifier1 := inst 2
  path0 := anyPath (inst 0)
  merkleRoot0 := inst 0
  path1 := anyPath (inst 0)
  merkleRoot1 := inst 0

/-- Cells of a withdrawal for any public inputs and any domain. -/
def anyWithdraw (inst : ℕ → Fp) (chainId appId : Fp) : WithdrawCells where
  input := ⟨0, 0, inst 2⟩
  commitment := 0
  withdraw := inst 2
  chainId := chainId
  appId := appId
  domainHash := 0
  nullifier := inst 1
  change := ⟨0, 0, 0⟩
  changeCommitment := inst 3
  path := anyPath (inst 0)
  merkleRoot := inst 0

theorem anyTransfer_checked (inst : ℕ → Fp) (chainId appId : Fp) :
    (anyTransfer inst chainId appId).Checked anyHash inst where
  inCommitment0 := commits_anyHash _ _
  inCommitment1 := commits_anyHash _ _
  outCommitment0 := commits_anyHash _ _
  conserved := rfl
  outCommitment1 := commits_anyHash _ _
  domain := trivial
  nullifier0 := nullifies_anyHash _ _ _ _
  nullifier1 := nullifies_anyHash _ _ _ _
  path0 := anyPath_checked _
  path1 := anyPath_checked _
  inst0 := rfl
  inst0' := rfl
  inst1 := rfl
  inst2 := rfl
  inst3 := rfl
  inst4 := rfl

theorem anyWithdraw_checked (inst : ℕ → Fp) (chainId appId : Fp) :
    (anyWithdraw inst chainId appId).Checked anyHash inst where
  commitment := commits_anyHash _ _
  split := (add_zero (inst 2)).symm
  domain := trivial
  nullifier := nullifies_anyHash _ _ _ _
  changeCommitment := commits_anyHash _ _
  path := anyPath_checked _
  inst0 := rfl
  inst1 := rfl
  inst2 := rfl
  inst3 := rfl

/-! ## The parts of the statement -/

theorem transfer_chainId_free (inst : ℕ → Fp) :
    ¬ Determines (transfer chip inst) TransferCells.chainId :=
  (transfer_chip inst).not_determines (anyTransfer_checked inst 0 0)
    (anyTransfer_checked inst 1 0) zero_ne_one

theorem transfer_appId_free (inst : ℕ → Fp) :
    ¬ Determines (transfer chip inst) TransferCells.appId :=
  (transfer_chip inst).not_determines (anyTransfer_checked inst 0 0)
    (anyTransfer_checked inst 0 1) zero_ne_one

/-- The nullifiers of a transfer differ when the public ones do. -/
theorem transfer_twoNullifiers_iff (inst : ℕ → Fp) :
    (∀ regions cells, Satisfies (transfer chip inst) regions cells →
      TwoNullifiers cells.nullifiers) ↔ inst 1 ≠ inst 2 := by
  constructor
  · intro h heq
    obtain ⟨regions, hs⟩ :=
      (transfer_chip inst).exists_satisfies (anyTransfer_checked inst 0 0)
    obtain ⟨a, ha, b, hb, hne⟩ := h _ _ hs
    have hall : ∀ x ∈ (anyTransfer inst 0 0).nullifiers, x = inst 1 :=
      List.forall_mem_cons.mpr ⟨rfl, List.forall_mem_singleton.mpr heq.symm⟩
    exact hne ((hall a ha).trans (hall b hb).symm)
  · intro hne regions cells hs
    have hchecked := (transfer_chip inst).of_satisfies hs
    refine ⟨cells.nullifier0, List.mem_cons_self, cells.nullifier1,
      List.mem_cons_of_mem _ (List.mem_singleton_self _), ?_⟩
    rw [hchecked.inst1, hchecked.inst2]
    exact hne

/-- Anyone may be named as the recipient. -/
theorem withdraw_recipient_free (inst : ℕ → Fp) (recipient : Address) :
    ∃ w : Withdrawal, w.Verifies inst ∧ w.recipient = recipient := by
  obtain ⟨regions, hs⟩ :=
    (withdraw_chip inst).exists_satisfies (anyWithdraw_checked inst 0 0)
  exact ⟨⟨recipient, regions, _⟩, hs, rfl⟩

/-- **The exit value is bound.** -/
theorem withdraw_exitValue (inst : ℕ → Fp) :
    Determines (withdraw chip inst) WithdrawCells.withdraw :=
  (withdraw_chip inst).determines_iff.mpr fun _ _ h h' => h.inst2.trans h'.inst2.symm

theorem withdraw_chainId_free (inst : ℕ → Fp) :
    ¬ Determines (withdraw chip inst) WithdrawCells.chainId :=
  (withdraw_chip inst).not_determines (anyWithdraw_checked inst 0 0)
    (anyWithdraw_checked inst 1 0) zero_ne_one

theorem withdraw_appId_free (inst : ℕ → Fp) :
    ¬ Determines (withdraw chip inst) WithdrawCells.appId :=
  (withdraw_chip inst).not_determines (anyWithdraw_checked inst 0 0)
    (anyWithdraw_checked inst 0 1) zero_ne_one

/-- **A transfer of the same note twice**, with a gadget that computes a hash
exactly. -/
theorem sameNote_satisfiable {H : Fp → Fp → Fp} {hash : Gadget} (hhash : Exact hash H)
    {note out0 out1 : Note} (hvalue : note.value + note.value = out0.value + out1.value)
    (root chainId appId : Fp) :
    Satisfiable (transfer hash fun row =>
      [root, noteNullifier H note chainId appId, noteNullifier H note chainId appId,
        noteCommitment H out0, noteCommitment H out1].getD row 0) :=
  (transfer_satisfiable_iff hhash _).mpr
    ⟨⟨note, note, out0, out1, chainId, appId⟩, hvalue, rfl, rfl, rfl, rfl⟩

/-! ## The statement -/

/-- **For no public inputs is a proof bound to its statement**, neither a
transfer nor a withdrawal. -/
theorem statement_never_bound (inst : ℕ → Fp) :
    ¬ TransferBinding inst ∧ ¬ WithdrawBinding inst :=
  ⟨fun h => transfer_chainId_free inst h.chainId,
    fun h => withdraw_chainId_free inst h.chainId⟩

/-- **One statement, two recipients**, and a transfer with one nullifier
twice: the public inputs are zero. -/
theorem unbound_statement :
    ¬ TransferBinding (fun _ => 0) ∧ ¬ WithdrawBinding (fun _ => 0) := by
  constructor
  · intro h
    exact (transfer_twoNullifiers_iff fun _ => 0).mp h.twoNullifiers rfl
  · intro h
    obtain ⟨w, hw, hone⟩ := withdraw_recipient_free (fun _ => 0) 1
    obtain ⟨w', hw', htwo⟩ := withdraw_recipient_free (fun _ => 0) 2
    have heq := h.recipient w w' hw hw'
    rw [hone, htwo] at heq
    exact absurd heq (by decide)

end Lumora
