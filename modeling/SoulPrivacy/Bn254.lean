import SoulPrivacy.Solidity
import Mathlib.Data.ZMod.Basic

/-!
# The scalar field of BN254

Contracts hold field elements as words, circuits as elements of `ZMod r`.
A word is the field element it is modulo `r`, so two words are the same
element when they are congruent (`SameElement`), and words from `r` on are
second names of elements that have a name below `r` already.

A hash over the field (`FieldHash`) is given on words: it cannot tell
congruent words apart, and its values are below `r`.
-/

namespace Bn254

/-- **The order of the scalar field.** -/
def r : ℕ :=
  21888242871839275222246405745257275088548364400416034343698204186575808495617

/-- An element of the field, the circuits' `Field`. -/
abbrev Element : Type := ZMod r

/-- The field element of a word. -/
def toField (a : Uint256) : Element := (a.toNat : ZMod r)

instance : NeZero r := ⟨by decide⟩

-- the small numerals of the field, under one name in all the modules
instance atLeastTwo_two : Nat.AtLeastTwo 2 := ⟨by decide⟩
instance atLeastTwo_three : Nat.AtLeastTwo 3 := ⟨by decide⟩
instance atLeastTwo_four : Nat.AtLeastTwo 4 := ⟨by decide⟩

/-- The word below `r` of a field element. -/
def ofField (x : Element) : Uint256 := BitVec.ofNat 256 x.val

theorem toNat_ofField (x : Element) : (ofField x).toNat = x.val := by
  unfold ofField
  rw [BitVec.toNat_ofNat]
  exact Nat.mod_eq_of_lt (lt_trans (ZMod.val_lt x) (by decide))

theorem toField_ofField (x : Element) : toField (ofField x) = x := by
  rw [toField, toNat_ofField, ZMod.natCast_zmod_val]

/-- **Two words are the same field element.** -/
def SameElement (a b : Uint256) : Prop := a.toNat ≡ b.toNat [MOD r]

instance (a b : Uint256) : Decidable (SameElement a b) :=
  inferInstanceAs (Decidable (_ % _ = _ % _))

theorem sameElement_equivalence : Equivalence SameElement :=
  ⟨fun _ => Nat.ModEq.refl _, Nat.ModEq.symm, Nat.ModEq.trans⟩

theorem toField_eq_iff {a b : Uint256} :
    toField a = toField b ↔ SameElement a b :=
  ZMod.natCast_eq_natCast_iff _ _ _

/-- A word below `r` is the only such name of its element. -/
theorem SameElement.eq_of_lt {a b : Uint256} (h : SameElement a b)
    (ha : a.toNat < r) (hb : b.toNat < r) : a = b :=
  BitVec.eq_of_toNat_eq (Nat.ModEq.eq_of_lt_of_lt h ha hb)

/-- **A hash over the field**, on words. -/
structure FieldHash where
  hash : Uint256 → Uint256 → Uint256
  lt : ∀ a b, (hash a b).toNat < r
  congr : ∀ {a a' b b'}, SameElement a a' → SameElement b b' → hash a b = hash a' b'

/-- Hash values that are the same element are the same word. -/
theorem FieldHash.eq_of_sameElement (F : FieldHash) (a b c d : Uint256)
    (h : SameElement (F.hash a b) (F.hash c d)) : F.hash a b = F.hash c d :=
  h.eq_of_lt (F.lt a b) (F.lt c d)

end Bn254
