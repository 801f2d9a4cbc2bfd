import SoulPrivacy.LumoraCircuits

/-!
# What the circuits check of their cells

A hash gadget that checks `R` of its inputs and its output makes the
circuits check a relation between their cells, and nothing else: all cells
with that relation, and with the public inputs, are those of an assignment
that satisfies the circuit (`transfer_spec`, `withdraw_spec`). What is absent
from the relation is what the prover is free to choose.

A level of a Merkle path contributes both hashes and the path bit. Its
selected cell is not mentioned: it is where the next level starts, and
nothing ties it to this one (`MerkleLevel.Checked`, `PathChecked`).
-/

namespace Lumora

open Halo2

/-! ## The regions -/

/-- A region that holds a list of values in its own columns. -/
def adviceRow (values : List Fp) : Region Column Fp
  | .advice i, _ => values.getD i 0
  | _, _ => 0

theorem assignCell_spec : Spec assignCell (fun _ => True) :=
  Spec.assignRegion fun cell => iff_true_intro ⟨adviceRow [cell], rfl⟩

theorem assignPair_spec : Spec assignPair (fun _ => True) :=
  Spec.assignRegion fun cells => iff_true_intro ⟨adviceRow [cells.1, cells.2], rfl⟩

theorem assignNote_spec : Spec assignNote (fun _ => True) :=
  Spec.assignRegion fun note =>
    iff_true_intro ⟨adviceRow [note.secret, note.nonce, note.value], rfl⟩

/-- A region that holds a sibling and a path bit. -/
def stepRow (pathElem pathBit : Fp) : Region Column Fp
  | .pathBits, _ => pathBit
  | _, _ => pathElem

/-- **The path bit is zero or one**, as a product. -/
theorem assignStep_spec : Spec assignStep (fun step => step.2 * (step.2 - 1) = 0) := by
  refine Spec.assignRegion fun step => ?_
  simp only [Option.bind_eq_bind, Option.bind_eq_some_iff, enable_eq_some]
  constructor
  · rintro ⟨region, -, hbit, heq⟩
    cases heq
    exact hbit _ (List.mem_singleton_self _)
  · intro hbit
    refine ⟨stepRow step.1 step.2, (), ?_, rfl⟩
    exact List.forall_mem_singleton.mpr hbit

theorem conserveValue_spec (inValue0 inValue1 outValue0 : Fp) :
    Spec (conserveValue inValue0 inValue1 outValue0)
      (fun outValue1 => inValue0 + inValue1 = outValue0 + outValue1) := by
  refine Spec.assignRegion fun outValue1 => ?_
  simp only [Option.bind_eq_bind, Option.bind_eq_some_iff, enable_eq_some, copyAdvice_eq_some]
  constructor
  · rintro ⟨region, -, hgate, -, rfl, -, rfl, -, rfl, heq⟩
    cases heq
    exact sub_eq_zero.mp (hgate _ (List.mem_singleton_self _))
  · intro hsum
    refine ⟨adviceRow [inValue0, inValue1, outValue0, outValue1], (), ?_, (), rfl, (), rfl,
      (), rfl, rfl⟩
    exact List.forall_mem_singleton.mpr (sub_eq_zero.mpr hsum)

theorem splitValue_spec (inValue : Fp) :
    Spec (splitValue inValue) (fun parts => inValue = parts.1 + parts.2) := by
  refine Spec.assignRegion fun parts => ?_
  simp only [Option.bind_eq_bind, Option.bind_eq_some_iff, enable_eq_some, copyAdvice_eq_some]
  constructor
  · rintro ⟨region, -, hgate, -, rfl, heq⟩
    cases heq
    exact sub_eq_zero.mp (hgate _ (List.mem_singleton_self _))
  · intro hsum
    refine ⟨adviceRow [inValue, parts.1, parts.2], (), ?_, (), rfl, rfl⟩
    exact List.forall_mem_singleton.mpr (sub_eq_zero.mpr hsum)

/-! ## Gadgets that compute a hash -/

/-- **The gadget computes `H` exactly**: it is satisfied for all inputs, by
assignments whose output is their hash. -/
def Exact (hash : Gadget) (H : Fp → Fp → Fp) : Prop :=
  ∀ left right, Spec (hash left right) (fun out => out = H left right)

/-- A gadget of one region: copies of the inputs, and one gate that ties the
output to them. -/
def idealHash (H : Fp → Fp → Fp) : Gadget := fun left right =>
  assignRegion fun region => do
    copyAdvice left region (.advice 0) 0
    copyAdvice right region (.advice 1) 0
    enable (fun region row =>
      [region (.advice 2) row - H (region (.advice 0) row) (region (.advice 1) row)]) region 0
    return region.assignAdvice (.advice 2) 0

theorem idealHash_exact (H : Fp → Fp → Fp) : Exact (idealHash H) H := by
  intro left right
  refine Spec.assignRegion fun out => ?_
  simp only [Option.bind_eq_bind, Option.bind_eq_some_iff, enable_eq_some, copyAdvice_eq_some]
  constructor
  · rintro ⟨region, -, rfl, -, rfl, -, hgate, heq⟩
    cases heq
    exact sub_eq_zero.mp (hgate _ (List.mem_singleton_self _))
  · rintro rfl
    refine ⟨adviceRow [left, right, H left right], (), rfl, (), rfl, (), ?_, rfl⟩
    exact List.forall_mem_singleton.mpr (sub_self _)

/-! ## Hashes, with a gadget that checks `R` -/

/-- A relation between the inputs and the output of a hash. -/
abbrev HashRel : Type := Fp → Fp → Fp → Prop

/-- The commitment of a note. -/
def Commits (R : HashRel) (note : Note) (cm : Fp) : Prop :=
  ∃ inner, R note.secret note.nonce inner ∧ R inner note.value cm

/-- The nullifier of a commitment under a secret. -/
def Nullifies (R : HashRel) (secret cm domainHash nul : Fp) : Prop :=
  ∃ inner, R secret cm inner ∧ R inner domainHash nul

/-- **What a level checks**: the bit and both hashes. -/
structure MerkleLevel.Checked (R : HashRel) (current : Fp) (level : MerkleLevel) : Prop where
  bit : level.pathBit * (level.pathBit - 1) = 0
  lr : R current level.pathElem level.hashLr
  rl : R level.pathElem current level.hashRl

/-- The path bit is zero or one. -/
theorem MerkleLevel.Checked.pathBit {R : HashRel} {current : Fp} {level : MerkleLevel}
    (h : level.Checked R current) : level.pathBit = 0 ∨ level.pathBit = 1 := by
  rcases mul_eq_zero.mp h.bit with hzero | hone
  · exact Or.inl hzero
  · exact Or.inr (sub_eq_zero.mp hone)

/-- **What a path checks**: each level starts at the selected cell of the one
below it. -/
inductive PathChecked (R : HashRel) : ℕ → Fp → List MerkleLevel → Fp → Prop
  | nil {current : Fp} : PathChecked R 0 current [] current
  | cons {depth : ℕ} {current root : Fp} {level : MerkleLevel} {levels : List MerkleLevel} :
      level.Checked R current → PathChecked R depth level.selected levels root →
        PathChecked R (depth + 1) current (level :: levels) root

theorem PathChecked.mono {R S : HashRel} (hRS : ∀ left right out, R left right out →
    S left right out) {depth : ℕ} {current root : Fp} {levels : List MerkleLevel}
    (h : PathChecked R depth current levels root) : PathChecked S depth current levels root := by
  induction h with
  | nil => exact PathChecked.nil
  | cons hlevel _ ih =>
    exact PathChecked.cons ⟨hlevel.bit, hRS _ _ _ hlevel.lr, hRS _ _ _ hlevel.rl⟩ ih

/-- **What the transfer circuit checks**, with the instance column. -/
structure TransferCells.Checked (R : HashRel) (inst : ℕ → Fp) (cells : TransferCells) :
    Prop where
  inCommitment0 : Commits R cells.in0 cells.inCommitment0
  inCommitment1 : Commits R cells.in1 cells.inCommitment1
  outCommitment0 : Commits R cells.out0 cells.outCommitment0
  conserved : cells.in0.value + cells.in1.value = cells.out0.value + cells.out1.value
  outCommitment1 : Commits R cells.out1 cells.outCommitment1
  domain : R cells.chainId cells.appId cells.domainHash
  nullifier0 :
    Nullifies R cells.in0.secret cells.inCommitment0 cells.domainHash cells.nullifier0
  nullifier1 :
    Nullifies R cells.in1.secret cells.inCommitment1 cells.domainHash cells.nullifier1
  path0 : PathChecked R TREE_DEPTH cells.inCommitment0 cells.path0 cells.merkleRoot0
  path1 : PathChecked R TREE_DEPTH cells.inCommitment1 cells.path1 cells.merkleRoot1
  inst0 : cells.merkleRoot0 = inst 0
  inst0' : cells.merkleRoot1 = inst 0
  inst1 : cells.nullifier0 = inst 1
  inst2 : cells.nullifier1 = inst 2
  inst3 : cells.outCommitment0 = inst 3
  inst4 : cells.outCommitment1 = inst 4

/-- **What the withdraw circuit checks**, with the instance column. -/
structure WithdrawCells.Checked (R : HashRel) (inst : ℕ → Fp) (cells : WithdrawCells) :
    Prop where
  commitment : Commits R cells.input cells.commitment
  split : cells.input.value = cells.withdraw + cells.change.value
  domain : R cells.chainId cells.appId cells.domainHash
  nullifier :
    Nullifies R cells.input.secret cells.commitment cells.domainHash cells.nullifier
  changeCommitment : Commits R cells.change cells.changeCommitment
  path : PathChecked R TREE_DEPTH cells.commitment cells.path cells.merkleRoot
  inst0 : cells.merkleRoot = inst 0
  inst1 : cells.nullifier = inst 1
  inst2 : cells.withdraw = inst 2
  inst3 : cells.changeCommitment = inst 3

section

variable {hash : Gadget} {R : HashRel} (hhash : ∀ l r, Spec (hash l r) (R l r))

include hhash

theorem commitment_spec (note : Note) : Spec (commitment hash note) (Commits R note) :=
  (hhash note.secret note.nonce).bind fun inner => hhash inner note.value

theorem nullifier_spec (secret cm domainHash : Fp) :
    Spec (nullifier hash secret cm domainHash) (Nullifies R secret cm domainHash) :=
  (hhash secret cm).bind fun inner => hhash inner domainHash

theorem merkleLevel_spec (current : Fp) :
    Spec (merkleLevel hash current) (fun level => level.Checked R current) := by
  refine (assignStep_spec.bind fun step => (hhash current step.1).bind fun hashLr =>
    (hhash step.1 current).bind fun hashRl => assignCell_spec.bind fun selected =>
      Spec.pure (⟨step.1, step.2, hashLr, hashRl, selected⟩ : MerkleLevel)).congr
        fun level => ?_
  constructor
  · rintro ⟨step, hbit, hashLr, hlr, hashRl, hrl, selected, -, rfl⟩
    exact ⟨hbit, hlr, hrl⟩
  · rintro ⟨hbit, hlr, hrl⟩
    exact ⟨(level.pathElem, level.pathBit), hbit, _, hlr, _, hrl, level.selected, trivial, rfl⟩

theorem merklePath_spec (depth : ℕ) (current : Fp) :
    Spec (merklePath hash depth current)
      (fun path => PathChecked R depth current path.1 path.2) := by
  induction depth generalizing current with
  | zero =>
    refine (Spec.pure (([], current) : List MerkleLevel × Fp)).congr fun path => ?_
    constructor
    · rintro rfl
      exact PathChecked.nil
    · rcases path with ⟨levels, root⟩
      intro h
      cases h
      rfl
  | succ depth ih =>
    refine ((merkleLevel_spec hhash current).bind fun level =>
      (ih level.selected).bind fun path =>
        Spec.pure ((level :: path.1, path.2) : List MerkleLevel × Fp)).congr fun path => ?_
    constructor
    · rintro ⟨level, hlevel, upper, hupper, rfl⟩
      exact PathChecked.cons hlevel hupper
    · rcases path with ⟨levels, root⟩
      intro h
      cases h with
      | cons hlevel hupper => exact ⟨_, hlevel, (_, root), hupper, rfl⟩

/-- **The constraints of the transfer circuit.** -/
theorem transfer_spec (inst : ℕ → Fp) :
    Spec (transfer hash inst) (fun cells => cells.Checked R inst) := by
  refine (assignNote_spec.bind fun in0 => (commitment_spec hhash in0).bind fun cm0 =>
    assignNote_spec.bind fun in1 => (commitment_spec hhash in1).bind fun cm1 =>
    assignNote_spec.bind fun out0 => (commitment_spec hhash out0).bind fun outCm0 =>
    (conserveValue_spec in0.value in1.value out0.value).bind fun outValue1 =>
    assignPair_spec.bind fun out1 =>
    (commitment_spec hhash ⟨out1.1, out1.2, outValue1⟩).bind fun outCm1 =>
    assignPair_spec.bind fun domain => (hhash domain.1 domain.2).bind fun domainHash =>
    (nullifier_spec hhash in0.secret cm0 domainHash).bind fun nul0 =>
    (nullifier_spec hhash in1.secret cm1 domainHash).bind fun nul1 =>
    (merklePath_spec hhash TREE_DEPTH cm0).bind fun path0 =>
    (merklePath_spec hhash TREE_DEPTH cm1).bind fun path1 =>
    (Spec.constrainInstance path0.2 inst 0).bind fun _ =>
    (Spec.constrainInstance path1.2 inst 0).bind fun _ =>
    (Spec.constrainInstance nul0 inst 1).bind fun _ =>
    (Spec.constrainInstance nul1 inst 2).bind fun _ =>
    (Spec.constrainInstance outCm0 inst 3).bind fun _ =>
    (Spec.constrainInstance outCm1 inst 4).bind fun _ =>
    Spec.pure (⟨in0, cm0, in1, cm1, out0, outCm0, ⟨out1.1, out1.2, outValue1⟩, outCm1,
      domain.1, domain.2, domainHash, nul0, nul1, path0.1, path0.2, path1.1, path1.2⟩ :
        TransferCells)).congr fun cells => ?_
  constructor
  · rintro ⟨in0, -, cm0, hcm0, in1, -, cm1, hcm1, out0, -, outCm0, hout0, outValue1, hsum,
      out1, -, outCm1, hout1, domain, -, domainHash, hdomain, nul0, hnul0, nul1, hnul1,
      path0, hpath0, path1, hpath1, -, h0, -, h0', -, h1, -, h2, -, h3, -, h4, rfl⟩
    exact ⟨hcm0, hcm1, hout0, hsum, hout1, hdomain, hnul0, hnul1, hpath0, hpath1, h0, h0',
      h1, h2, h3, h4⟩
  · intro h
    exact ⟨_, trivial, _, h.inCommitment0, _, trivial, _, h.inCommitment1, _, trivial, _,
      h.outCommitment0, cells.out1.value, h.conserved, (cells.out1.secret, cells.out1.nonce),
      trivial, _, h.outCommitment1, (cells.chainId, cells.appId), trivial, _, h.domain, _,
      h.nullifier0, _, h.nullifier1, (_, _), h.path0, (_, _), h.path1, (), h.inst0, (),
      h.inst0', (), h.inst1, (), h.inst2, (), h.inst3, (), h.inst4, rfl⟩

/-- **The constraints of the withdraw circuit.** -/
theorem withdraw_spec (inst : ℕ → Fp) :
    Spec (withdraw hash inst) (fun cells => cells.Checked R inst) := by
  refine (assignNote_spec.bind fun input => (commitment_spec hhash input).bind fun cm =>
    (splitValue_spec input.value).bind fun parts =>
    assignPair_spec.bind fun domain => (hhash domain.1 domain.2).bind fun domainHash =>
    (nullifier_spec hhash input.secret cm domainHash).bind fun nul =>
    assignPair_spec.bind fun change =>
    (commitment_spec hhash ⟨change.1, change.2, parts.2⟩).bind fun changeCm =>
    (merklePath_spec hhash TREE_DEPTH cm).bind fun path =>
    (Spec.constrainInstance path.2 inst 0).bind fun _ =>
    (Spec.constrainInstance nul inst 1).bind fun _ =>
    (Spec.constrainInstance parts.1 inst 2).bind fun _ =>
    (Spec.constrainInstance changeCm inst 3).bind fun _ =>
    Spec.pure (⟨input, cm, parts.1, domain.1, domain.2, domainHash, nul,
      ⟨change.1, change.2, parts.2⟩, changeCm, path.1, path.2⟩ : WithdrawCells)).congr
        fun cells => ?_
  constructor
  · rintro ⟨input, -, cm, hcm, parts, hparts, domain, -, domainHash, hdomain, nul, hnul,
      change, -, changeCm, hchange, path, hpath, -, h0, -, h1, -, h2, -, h3, rfl⟩
    exact ⟨hcm, hparts, hdomain, hnul, hchange, hpath, h0, h1, h2, h3⟩
  · intro h
    exact ⟨_, trivial, _, h.commitment, (cells.withdraw, cells.change.value), h.split,
      (cells.chainId, cells.appId), trivial, _, h.domain, _, h.nullifier,
      (cells.change.secret, cells.change.nonce), trivial, _, h.changeCommitment, (_, _),
      h.path, (), h.inst0, (), h.inst1, (), h.inst2, (), h.inst3, rfl⟩

end

end Lumora
