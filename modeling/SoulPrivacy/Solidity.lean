import Mathlib.Algebra.BigOperators.Fin
import Mathlib.Algebra.BigOperators.Finprod
import Mathlib.Data.BitVec
import Mathlib.Data.Fintype.Card
import Mathlib.SetTheory.Cardinal.Finite

/-!
# Solidity words, checked arithmetic and reverts

The contracts compute on 256-bit words, store them in mappings that read
as zero where nothing was written, and revert. A `bytes32` and a
`uint256` are the same word read in two ways, so both are `BitVec 256`
and the casts `uint256(x)` and `bytes32(x)` are the identity. A mapping
is a total function, updated with `Function.update`.

An entry point that may revert returns an `Except`. A revert undoes the
whole frame, so the error carries no state, and a body is a `do` block
whose guards are `revertIf`. The lemmas below invert such a block: what
a successful call tells is that no guard fired.
-/

/-- A `uint256`. -/
abbrev Uint256 := BitVec 256

/-- A `bytes32`, the same word as a `uint256`. -/
abbrev Bytes32 := BitVec 256

/-- An `address`. -/
abbrev Address := BitVec 160

/-- A `bytes` string. -/
abbrev Bytes := List (BitVec 8)

/-- There are finitely many words, so a mapping keyed by words can be
summed over all of its keys. No instance, since nothing may enumerate
them. -/
theorem Bytes32.finite : Finite Bytes32 :=
  Finite.of_equiv (Fin (2 ^ 256)) (BitVec.equivFin (m := 256)).symm.toEquiv

/-- The number of words. -/
theorem Bytes32.card : Nat.card Bytes32 = 2 ^ 256 := by
  rw [Nat.card_congr (BitVec.equivFin (m := 256)).toEquiv, Nat.card_eq_fintype_card,
    Fintype.card_fin]

/-- … and finitely many addresses. -/
theorem Address.finite : Finite Address :=
  Finite.of_equiv (Fin (2 ^ 160)) (BitVec.equivFin (m := 160)).symm.toEquiv

theorem Address.one_ne_zero : (1 : Address) ≠ 0 := by decide

/-- **Writing one key of a mapping** puts the new value in the place of the
old one in the sum over all keys. -/
theorem finsum_update_add {α : Type} [Finite α] [DecidableEq α] (f : α → ℕ) (a : α) (v : ℕ) :
    ∑ᶠ x, Function.update f a v x + f a = ∑ᶠ x, f x + v := by
  have hfintype : Fintype α := Fintype.ofFinite α
  have hrest : ∑ x ∈ Finset.univ.erase a, Function.update f a v x
      = ∑ x ∈ Finset.univ.erase a, f x := by
    refine Finset.sum_congr rfl (fun x hx => ?_)
    rw [Function.update_of_ne (Finset.ne_of_mem_erase hx)]
  rw [finsum_eq_sum_of_fintype, finsum_eq_sum_of_fintype,
    ← Finset.add_sum_erase _ _ (Finset.mem_univ a),
    ← Finset.add_sum_erase _ f (Finset.mem_univ a), Function.update_self, hrest]
  ring

/-- The bytes of a word, most significant first. -/
def Bytes32.toBytes (w : Bytes32) : Bytes :=
  (List.range 32).map (fun i => w.extractLsb' (8 * (31 - i)) 8)

variable {ε α β : Type}

/-- A set kept as a mapping to `bool`, after one more key was added. -/
theorem update_true_eq_true [DecidableEq α] (set : α → Bool) (key a : α) :
    Function.update set key true a = true ↔ set a = true ∨ a = key := by
  rw [Function.update_apply]
  split
  · rename_i heq
    exact iff_of_true rfl (Or.inr heq)
  · rename_i hne
    exact (or_iff_left hne).symm

/-- … and after one was taken out. -/
theorem update_false_eq_true [DecidableEq α] {set : α → Bool} {key a : α} :
    Function.update set key false a = true ↔ a ≠ key ∧ set a = true := by
  rw [Function.update_apply]
  split
  · rename_i heq
    exact iff_of_false Bool.false_ne_true (fun h => h.1 heq)
  · rename_i hne
    exact (and_iff_right hne).symm

/-- A set kept as a mapping and as a list gets one more key in both, … -/
theorem update_true_iff_mem_append [DecidableEq α] {set : α → Bool} {l : List α}
    (h : ∀ a, set a = true ↔ a ∈ l) (key a : α) :
    Function.update set key true a = true ↔ a ∈ l ++ [key] := by
  rw [update_true_eq_true, h, List.mem_append, List.mem_singleton]

/-- … and the list has no duplicates if the key was looked up first. -/
theorem nodup_append_of_marked {set : α → Bool} {l : List α} (h : ∀ a, set a = true ↔ a ∈ l)
    (hnodup : l.Nodup) {key : α} (hnew : set key = false) : (l ++ [key]).Nodup := by
  have hmem : key ∉ l := fun hmem =>
    Bool.false_ne_true (hnew.symm.trans ((h key).mpr hmem))
  exact List.nodup_append_comm.mp (List.nodup_cons.mpr ⟨hmem, hnodup⟩)

/-- `if (c) revert e`, and `require(!c, e)`. -/
def revertIf (c : Prop) [Decidable c] (e : ε) : Except ε Unit :=
  if c then .error e else .ok ()

@[simp] theorem revertIf_eq_ok (c : Prop) [Decidable c] (e : ε) (u : Unit) :
    revertIf c e = .ok u ↔ ¬ c := by
  unfold revertIf
  split <;> simp_all

/-- A sequence goes through when its first part does and its second does
on what the first returned. -/
theorem Except.bind_eq_ok (x : Except ε α) (f : α → Except ε β) (b : β) :
    (x >>= f) = .ok b ↔ ∃ a, x = .ok a ∧ f a = .ok b := by
  cases x with
  | error e => simp [bind, Except.bind]
  | ok a => simp [bind, Except.bind]

/-- … and when the first part returns nothing, it is only known to go
through. -/
theorem Except.unit_bind_eq_ok (x : Except ε Unit) (f : Unit → Except ε β) (b : β) :
    (x >>= f) = .ok b ↔ x = .ok () ∧ f () = .ok b := by
  rw [Except.bind_eq_ok]
  constructor
  · rintro ⟨⟨⟩, hx, hb⟩
    exact ⟨hx, hb⟩
  · rintro ⟨hx, hb⟩
    exact ⟨(), hx, hb⟩

/-- A body behind a guard goes through when the guard does not fire and
the body goes through. -/
theorem revertIf_bind_eq_ok (c : Prop) [Decidable c] (e : ε)
    (f : Unit → Except ε β) (b : β) :
    (revertIf c e >>= f) = .ok b ↔ ¬ c ∧ f () = .ok b := by
  rw [Except.unit_bind_eq_ok, revertIf_eq_ok]

/-- A guard that fires. -/
theorem revertIf_bind_of_pos {c : Prop} [Decidable c] (hc : c) (e : ε)
    (f : Unit → Except ε β) : (revertIf c e >>= f) = .error e := by
  rw [revertIf, if_pos hc]
  rfl

/-- A guard that does not. -/
theorem revertIf_bind_of_neg {c : Prop} [Decidable c] (hc : ¬ c) (e : ε)
    (f : Unit → Except ε β) : (revertIf c e >>= f) = f () := by
  rw [revertIf, if_neg hc]
  rfl

theorem Except.map_eq_ok {x : Except ε α} {f : α → β} {b : β} :
    x.map f = .ok b ↔ ∃ a, x = .ok a ∧ f a = b := by
  cases x <;> simp [Except.map]

theorem Except.mapError_eq_ok {ε' : Type} {x : Except ε α} {f : ε → ε'} {a : α} :
    x.mapError f = .ok a ↔ x = .ok a := by
  cases x <;> simp [Except.mapError]

/-- The outcome of a call on the outside of a contract that may revert:
`none` is a revert of the callee, which the caller passes on as `e`. -/
def orRevert (e : ε) : Option α → Except ε α
  | none => .error e
  | some a => .ok a

@[simp] theorem orRevert_eq_ok (e : ε) (x : Option α) (a : α) :
    orRevert e x = .ok a ↔ x = some a := by
  cases x <;> simp [orRevert]

theorem orRevert_some_bind (e : ε) (a : α) (f : α → Except ε β) :
    (orRevert e (some a) >>= f) = f a := rfl

/-- **A computation fails in ways that meet a condition only.** -/
def Except.FailsIn (P : ε → Prop) (x : Except ε α) : Prop := ∀ e, x = .error e → P e

theorem Except.failsIn_ok (P : ε → Prop) (a : α) : (Except.ok a).FailsIn P := nofun

/-- A sequence fails as its first part does, or as its second does on what the
first returned. -/
theorem Except.FailsIn.bind {P : ε → Prop} {x : Except ε α} {f : α → Except ε β}
    (hx : x.FailsIn P) (hf : ∀ a, x = .ok a → (f a).FailsIn P) : (x >>= f).FailsIn P := by
  intro e he
  cases x with
  | error e' =>
    cases he
    exact hx e rfl
  | ok a => exact hf a rfl e he

/-- A result that is only read fails as before. -/
theorem Except.FailsIn.map {P : ε → Prop} {x : Except ε α} (hx : x.FailsIn P) (f : α → β) :
    (x.map f).FailsIn P := by
  intro e he
  cases x with
  | error e' =>
    cases he
    exact hx e rfl
  | ok a => cases he

theorem revertIf_failsIn {P : ε → Prop} {c : Prop} [Decidable c] {e : ε} (h : c → P e) :
    (revertIf c e).FailsIn P := by
  intro e' he
  unfold revertIf at he
  split at he
  · rename_i hc
    cases he
    exact h hc
  · cases he

theorem orRevert_failsIn {P : ε → Prop} {e : ε} (h : P e) (x : Option α) :
    (orRevert e x).FailsIn P := by
  intro e' he
  cases x with
  | none =>
    cases he
    exact h
  | some a => cases he

/-- A loop fails as one of its steps does. -/
theorem Except.failsIn_foldlM {P : ε → Prop} {f : β → α → Except ε β}
    (h : ∀ b a, (f b a).FailsIn P) (l : List α) (b : β) : (l.foldlM f b).FailsIn P := by
  induction l generalizing b with
  | nil => exact Except.failsIn_ok P b
  | cons a l ih =>
    rw [List.foldlM_cons]
    exact (h b a).bind (fun b' _ => ih b')

/-- Checked addition of Solidity 0.8: it panics on overflow. -/
def checkedAdd (panic : ε) (a b : Uint256) : Except ε Uint256 :=
  if a.toNat + b.toNat < 2 ^ 256 then .ok (a + b) else .error panic

/-- Checked subtraction of Solidity 0.8: it panics on underflow. -/
def checkedSub (panic : ε) (a b : Uint256) : Except ε Uint256 :=
  if b.toNat ≤ a.toNat then .ok (a - b) else .error panic

/-- `addmod`, of the unbounded sum. -/
def addmod (a b m : Uint256) : Uint256 :=
  BitVec.ofNat 256 ((a.toNat + b.toNat) % m.toNat)

/-- `mulmod`, of the unbounded product. -/
def mulmod (a b m : Uint256) : Uint256 :=
  BitVec.ofNat 256 (a.toNat * b.toNat % m.toNat)

/-- A remainder is below its modulus. -/
theorem toNat_addmod_lt (a b : Uint256) {m : Uint256} (hm : m ≠ 0) :
    (addmod a b m).toNat < m.toNat := by
  have hpos : 0 < m.toNat := Nat.pos_of_ne_zero (fun h => hm (BitVec.eq_of_toNat_eq h))
  unfold addmod
  rw [BitVec.toNat_ofNat]
  exact (Nat.mod_le _ _).trans_lt (Nat.mod_lt _ hpos)

/-- **A checked sum is the sum of the naturals.** -/
theorem toNat_of_checkedAdd {panic : ε} {a b c : Uint256}
    (h : checkedAdd panic a b = .ok c) : c.toNat = a.toNat + b.toNat := by
  unfold checkedAdd at h
  split at h
  · rename_i hlt
    cases h
    rw [BitVec.toNat_add, Nat.mod_eq_of_lt hlt]
  · cases h

/-- **A checked difference is the difference of the naturals**, and the
subtrahend is no larger. -/
theorem toNat_of_checkedSub {panic : ε} {a b c : Uint256}
    (h : checkedSub panic a b = .ok c) : c.toNat + b.toNat = a.toNat := by
  unfold checkedSub at h
  split at h
  · rename_i hle
    cases h
    rw [BitVec.toNat_sub_of_le (BitVec.le_def.mpr hle)]
    omega
  · cases h
