import SoulPrivacy.BigEndian
import Mathlib.Logic.Equiv.Defs

/-!
# The SCALE codec

Nothing in the encoding of a value says where it ends. A decoder takes from
the front of its input the bytes that are the value and leaves the others
for whoever comes next; it does not know whether anyone does. `Codec` says
just this: **the decoder finds a value exactly where its encoding starts the
input.**

So codecs can be put one behind the other (`Codec.pair`) and behind a byte
that tells which one it is (`Codec.enum`), without any of them being told
how long the others are.
-/

namespace Scale

/-- **A codec**: how values are written, and how one is read off the front
of an input. -/
structure Codec (α : Type) where
  encode : α → List (BitVec 8)
  decode : List (BitVec 8) → Option (α × List (BitVec 8))
  decode_eq_some_iff : ∀ {input a rest}, decode input = some (a, rest) ↔ input = encode a ++ rest

namespace Codec

variable {α β : Type}

/-! ## Values of a fixed width -/

/-- **A value of `k` bytes.** -/
def fixed (k : ℕ) (toBytes : α → List (BitVec 8)) (ofBytes : List (BitVec 8) → α)
    (length_toBytes : ∀ a, (toBytes a).length = k) (ofBytes_toBytes : ∀ a, ofBytes (toBytes a) = a)
    (toBytes_ofBytes : ∀ bytes, bytes.length = k → toBytes (ofBytes bytes) = bytes) :
    Codec α where
  encode := toBytes
  decode := fun input =>
    if k ≤ input.length then some (ofBytes (input.take k), input.drop k) else none
  decode_eq_some_iff := by
    intro input a rest
    constructor
    · intro h
      split at h
      · rename_i hle
        cases h
        rw [toBytes_ofBytes _ (List.length_take_of_le hle), List.take_append_drop]
      · exact absurd h nofun
    · rintro rfl
      have hle : k ≤ (toBytes a ++ rest).length := by
        rw [List.length_append, length_toBytes]
        exact Nat.le_add_right _ _
      rw [if_pos hle, List.take_left' (length_toBytes a), List.drop_left' (length_toBytes a),
        ofBytes_toBytes]

/-- A word as a number of that many bytes. -/
theorem toNat_lt_pow {w k : ℕ} (hw : w = 8 * k) (a : BitVec w) : a.toNat < 256 ^ k := by
  have hpow : 2 ^ w = 256 ^ k := by
    rw [hw, pow_mul, show 2 ^ 8 = 256 by rfl]
  exact hpow ▸ a.isLt

/-- **A word with its most significant byte first**, as an array of bytes
is written. -/
def bigEndian (w k : ℕ) (hw : w = 8 * k) : Codec (BitVec w) :=
  fixed k (fun a => beBytes k a.toNat) (fun bytes => BitVec.ofNat w (beNat bytes))
    (fun a => length_beBytes k a.toNat)
    (fun a => by rw [beNat_beBytes, Nat.mod_eq_of_lt (toNat_lt_pow hw a), BitVec.ofNat_toNat,
      BitVec.setWidth_eq])
    (fun bytes hlen => by
      have hlt : beNat bytes < 2 ^ w := by
        rw [hw, pow_mul, ← hlen]
        exact beNat_lt bytes
      rw [BitVec.toNat_ofNat, Nat.mod_eq_of_lt hlt, ← hlen, beBytes_beNat])

/-- **A word with its least significant byte first**, as an integer is
written. -/
def littleEndian (w k : ℕ) (hw : w = 8 * k) : Codec (BitVec w) :=
  fixed k (fun a => (beBytes k a.toNat).reverse)
    (fun bytes => BitVec.ofNat w (beNat bytes.reverse))
    (fun a => by rw [List.length_reverse, length_beBytes])
    (fun a => by rw [List.reverse_reverse, beNat_beBytes, Nat.mod_eq_of_lt (toNat_lt_pow hw a),
      BitVec.ofNat_toNat, BitVec.setWidth_eq])
    (fun bytes hlen => by
      have hlt : beNat bytes.reverse < 2 ^ w := by
        rw [hw, pow_mul, ← hlen, ← List.length_reverse]
        exact beNat_lt bytes.reverse
      rw [BitVec.toNat_ofNat, Nat.mod_eq_of_lt hlt, ← hlen, ← List.length_reverse, beBytes_beNat,
        List.reverse_reverse])

/-- **A truth value** is the byte 0 or 1, and no other byte is one. -/
def bool : Codec Bool where
  encode := fun b => [if b then 1 else 0]
  decode := fun
    | [] => none
    | b :: rest => if b = 0 then some (false, rest) else if b = 1 then some (true, rest) else none
  decode_eq_some_iff := by
    intro input a rest
    cases input with
    | nil => exact iff_of_false nofun nofun
    | cons b input =>
      show (if b = 0 then some (false, input) else if b = 1 then some (true, input) else none)
        = some (a, rest) ↔ b :: input = (if a then 1 else 0) :: rest
      rw [List.cons.injEq]
      by_cases hzero : b = 0
      · subst hzero
        cases a <;> simp
      · by_cases hone : b = 1
        · subst hone
          cases a <;> simp
        · rw [if_neg hzero, if_neg hone]
          refine iff_of_false nofun (fun h => ?_)
          cases a with
          | false => exact hzero h.1
          | true => exact hone h.1

/-! ## Values made of others -/

/-- **One value behind another.** -/
def pair (C : Codec α) (D : Codec β) : Codec (α × β) where
  encode := fun p => C.encode p.1 ++ D.encode p.2
  decode := fun input => do
    let (a, input) ← C.decode input
    let (b, input) ← D.decode input
    some ((a, b), input)
  decode_eq_some_iff := by
    rintro input ⟨a, b⟩ rest
    simp only [Option.bind_eq_bind, Option.bind_eq_some_iff, Option.some.injEq, Prod.mk.injEq,
      Prod.exists, C.decode_eq_some_iff, D.decode_eq_some_iff, List.append_assoc]
    constructor
    · rintro ⟨a', rest', rfl, b', rest'', rfl, ⟨rfl, rfl⟩, rfl⟩
      rfl
    · rintro rfl
      exact ⟨a, _, rfl, b, rest, rfl, ⟨rfl, rfl⟩, rfl⟩

/-- **A record**, by its fields. -/
def map (C : Codec α) (e : α ≃ β) : Codec β where
  encode := fun b => C.encode (e.symm b)
  decode := fun input => (C.decode input).map (fun p => (e p.1, p.2))
  decode_eq_some_iff := by
    intro input b rest
    simp only [Option.map_eq_some_iff, Prod.mk.injEq, Prod.exists, C.decode_eq_some_iff]
    constructor
    · rintro ⟨a, rest', rfl, rfl, rfl⟩
      rw [e.symm_apply_apply]
    · rintro rfl
      exact ⟨e.symm b, rest, rfl, e.apply_symm_apply b, rfl⟩

/-- **An enumeration**: one byte tells the variant, and its fields follow. -/
def enum {ι : Type} {Fields : ι → Type} (index : ι → BitVec 8) (variant : BitVec 8 → Option ι)
    (variant_eq_some_iff : ∀ b i, variant b = some i ↔ index i = b)
    (fields : ∀ i, Codec (Fields i)) : Codec (Σ i, Fields i) where
  encode := fun v => index v.1 :: (fields v.1).encode v.2
  decode := fun
    | [] => none
    | b :: input => do
      let i ← variant b
      let (v, rest) ← (fields i).decode input
      some (⟨i, v⟩, rest)
  decode_eq_some_iff := by
    rintro input ⟨i, v⟩ rest
    cases input with
    | nil => exact iff_of_false nofun nofun
    | cons b input =>
      simp only [Option.bind_eq_bind, Option.bind_eq_some_iff, Option.some.injEq, Prod.mk.injEq,
        Prod.exists, Codec.decode_eq_some_iff, variant_eq_some_iff, List.cons_append,
        List.cons.injEq]
      constructor
      · rintro ⟨i', rfl, v', rest', rfl, heq, rfl⟩
        cases heq
        exact ⟨rfl, rfl⟩
      · rintro ⟨rfl, rfl⟩
        exact ⟨i, rfl, v, rest, rfl, rfl, rfl⟩

end Codec

end Scale
