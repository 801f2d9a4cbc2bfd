import SoulPrivacy.RustStrings
import SoulPrivacy.Solidity

/-!
# Words as texts of 64 digits

Some of the pools hold words as text. What they write is lower case
(`Bytes32.toHex`); what they are given may be any text. A text of 64 digits
of either case is the word `hexWord`, and reading back what was written gives
the word that was written (`hexWord_toHex`). Among the lower-case texts each
word has one (`toHex_hexWord`).
-/

open RustString

/-- The lower-case digits of a word, `hex::encode`. -/
def Bytes32.toHex (w : Bytes32) : String :=
  String.ofList ((List.range 64).map (fun i => Nat.digitChar (w.toNat / 16 ^ (63 - i) % 16)))

/-- **A text of 64 digits.** -/
structure IsHex64 (s : String) : Prop where
  length_eq : s.toList.length = 64
  isHex : IsHex s.toList

/-- … all of them in lower case. -/
structure IsLowerHex64 (s : String) : Prop where
  length_eq : s.toList.length = 64
  isLowerHex : IsLowerHex s.toList

instance (s : String) : Decidable (IsHex64 s) :=
  decidable_of_iff (s.toList.length = 64 ∧ IsHex s.toList)
    ⟨fun h => ⟨h.1, h.2⟩, fun h => ⟨h.1, h.2⟩⟩

instance (s : String) : Decidable (IsLowerHex64 s) :=
  decidable_of_iff (s.toList.length = 64 ∧ IsLowerHex s.toList)
    ⟨fun h => ⟨h.1, h.2⟩, fun h => ⟨h.1, h.2⟩⟩

theorem IsLowerHex64.isHex64 {s : String} (h : IsLowerHex64 s) : IsHex64 s :=
  ⟨h.length_eq, h.isLowerHex.isHex⟩

/-- **The word of a text of digits.** -/
def hexWord (s : String) : Bytes32 := BitVec.ofNat 256 (hexValue s.toList)

/-- Sixty-four digits fit into a word. -/
theorem IsHex64.toNat_hexWord {s : String} (h : IsHex64 s) :
    (hexWord s).toNat = hexValue s.toList := by
  have hlt := hexValue_lt s.toList
  rw [h.length_eq] at hlt
  exact (BitVec.toNat_ofNat _ _).trans (Nat.mod_eq_of_lt hlt)

/-- The digit of a number below 16. -/
theorem digitChar_spec :
    ∀ d < 16, Nat.digitChar d ∈ lowerDigits ∧ digitValue (Nat.digitChar d) = d := by
  decide +kernel

/-- The value of the last digits of a number. -/
theorem hexValue_digits (k n : ℕ) :
    hexValue ((List.range k).map (fun i => Nat.digitChar (n / 16 ^ (k - 1 - i) % 16)))
      = n % 16 ^ k := by
  induction k generalizing n with
  | zero => rw [pow_zero, Nat.mod_one]; rfl
  | succ k ih =>
    have hfront : (List.range k).map (fun i => Nat.digitChar (n / 16 ^ (k + 1 - 1 - i) % 16))
        = (List.range k).map (fun i => Nat.digitChar (n / 16 / 16 ^ (k - 1 - i) % 16)) := by
      refine List.map_congr_left (fun i hi => ?_)
      have hpow : k + 1 - 1 - i = k - 1 - i + 1 := by
        have hlt := List.mem_range.mp hi
        omega
      rw [hpow, pow_succ', Nat.div_div_eq_div_mul]
    have hlast := (digitChar_spec (n % 16) (Nat.mod_lt n (Nat.succ_pos 15))).2
    rw [List.range_succ, List.map_append, List.map_singleton, hexValue_append_singleton,
      hfront, ih, Nat.add_sub_cancel, Nat.sub_self, pow_zero, Nat.div_one, hlast, pow_succ',
      Nat.mod_mul, Nat.add_comm]

namespace Bytes32

theorem isLowerHex64_toHex (w : Bytes32) : IsLowerHex64 (toHex w) where
  length_eq := by
    unfold toHex
    rw [String.toList_ofList, List.length_map, List.length_range]
  isLowerHex := by
    unfold toHex
    intro c hc
    rw [String.toList_ofList] at hc
    obtain ⟨i, -, rfl⟩ := List.mem_map.mp hc
    exact (digitChar_spec _ (Nat.mod_lt _ (Nat.succ_pos 15))).1

/-- **What is written is read back.** -/
@[simp] theorem hexWord_toHex (w : Bytes32) : hexWord (toHex w) = w := by
  have hlt : w.toNat < 16 ^ 64 := w.isLt
  unfold hexWord toHex
  rw [String.toList_ofList, hexValue_digits 64, Nat.mod_eq_of_lt hlt, BitVec.ofNat_toNat,
    BitVec.setWidth_eq]

/-- **The digits tell which word it is.** -/
theorem toHex_injective : Function.Injective toHex :=
  Function.LeftInverse.injective hexWord_toHex

/-- **Lower-case digits are those of their word.** -/
theorem toHex_hexWord {s : String} (h : IsLowerHex64 s) : toHex (hexWord s) = s := by
  have htext := isLowerHex64_toHex (hexWord s)
  have hvalue : hexValue (toHex (hexWord s)).toList = hexValue s.toList := by
    rw [← htext.isHex64.toNat_hexWord, hexWord_toHex, h.isHex64.toNat_hexWord]
  exact String.toList_inj.mp (hexValue_inj (htext.length_eq.trans h.length_eq.symm)
    htext.isLowerHex h.isLowerHex hvalue)

end Bytes32

/-! ## Texts and their words -/

/-- **A text of 64 digits, read as a word.** -/
structure ReadsAs (s : String) (w : Bytes32) : Prop where
  isHex64 : IsHex64 s
  hexWord_eq : hexWord s = w

/-- A given text, by its characters. -/
theorem readsAs_ofList {cs : List Char} {w : Bytes32}
    (h : cs.length = 64 ∧ IsHex cs ∧ BitVec.ofNat 256 (hexValue cs) = w) :
    ReadsAs (String.ofList cs) w := by
  obtain ⟨hlen, hhex, hword⟩ := h
  refine ⟨⟨?_, ?_⟩, ?_⟩
  · rwa [String.toList_ofList]
  · rwa [String.toList_ofList]
  · rwa [hexWord, String.toList_ofList]
