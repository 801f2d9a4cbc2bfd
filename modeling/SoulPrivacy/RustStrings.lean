import SoulPrivacy.BigEndian
import Mathlib.Data.List.Nodup
import Mathlib.Data.Nat.Digits.Lemmas

/-!
# Rust strings and their hexadecimal digits

A Rust string is a sequence of characters kept as the bytes of their UTF-8
encoding. Its length counts bytes, and a slice is cut at byte positions:
cutting a character in two is a panic (`slice` is `none`).

`u8::from_str_radix(_, 16)` reads digits of either case, and a sign in front
of them. So among the texts it reads there are more than the two digits that
`hex::encode` writes.

The value of a text of digits is `hexValue`. Lower-case texts of the same
length with the same value are the same (`hexValue_inj`).
-/

namespace RustString

/-! ## Bytes -/

/-- `as_bytes`. -/
def asBytes (s : String) : List (BitVec 8) :=
  (s.toList.flatMap String.utf8EncodeChar).map UInt8.toBitVec

/-- `len`, in bytes. -/
def len (s : String) : ℕ := (asBytes s).length

theorem asBytes_append (s t : String) : asBytes (s ++ t) = asBytes s ++ asBytes t := by
  unfold asBytes
  rw [String.toList_append, List.flatMap_append, List.map_append]

/-- **The bytes tell the string.** -/
theorem asBytes_injective : Function.Injective asBytes := by
  intro s t h
  have hbytes : Function.Injective UInt8.toBitVec := fun _ _ => UInt8.eq_of_toBitVec_eq
  have hflat := List.map_injective_iff.mpr hbytes h
  apply String.toByteArray_inj.mp
  rw [← String.utf8Encode_toList, ← String.utf8Encode_toList]
  exact congrArg List.toByteArray hflat

/-! ## Slices -/

/-- The characters after some bytes. -/
def dropBytes : ℕ → List Char → Option (List Char)
  | 0, cs => some cs
  | _ + 1, [] => none
  | n + 1, c :: cs => if c.utf8Size ≤ n + 1 then dropBytes (n + 1 - c.utf8Size) cs else none

/-- The characters that some bytes are. -/
def takeBytes : ℕ → List Char → Option (List Char)
  | 0, _ => some []
  | _ + 1, [] => none
  | n + 1, c :: cs =>
    if c.utf8Size ≤ n + 1 then (takeBytes (n + 1 - c.utf8Size) cs).map (c :: ·) else none

/-- `&s[start..stop]`, for `start ≤ stop`. It panics outside of the string
and inside of a character. -/
def slice (cs : List Char) (start stop : ℕ) : Option (List Char) :=
  (dropBytes start cs).bind (takeBytes (stop - start))

/-- Past a character of one byte. -/
theorem slice_cons {c : Char} (hc : c.utf8Size = 1) (cs : List Char) (start stop : ℕ) :
    slice (c :: cs) (start + 1) (stop + 1) = slice cs start stop := by
  unfold slice
  rw [dropBytes, hc, if_pos (Nat.le_add_left 1 start), Nat.add_sub_cancel,
    Nat.add_sub_add_right]

/-- Two characters of one byte. -/
theorem slice_two {c d : Char} (hc : c.utf8Size = 1) (hd : d.utf8Size = 1)
    (cs : List Char) : slice (c :: d :: cs) 0 2 = some [c, d] := by
  unfold slice
  rw [dropBytes, Option.bind_some, takeBytes, hc, if_pos (Nat.le_add_left 1 1), takeBytes,
    hd, if_pos le_rfl, takeBytes]
  rfl

/-! ## Digits -/

/-- `to_digit(16)`. -/
def hexDigit (c : Char) : Option ℕ :=
  if '0' ≤ c ∧ c ≤ '9' then some (c.toNat - '0'.toNat)
  else if 'a' ≤ c ∧ c ≤ 'f' then some (c.toNat - 'a'.toNat + 10)
  else if 'A' ≤ c ∧ c ≤ 'F' then some (c.toNat - 'A'.toNat + 10)
  else none

/-- `is_ascii_hexdigit`. -/
def isAsciiHexdigit (c : Char) : Bool := (hexDigit c).isSome

/-- The digits of a `u8`, after some of them. It fails on other characters
and on overflow. -/
def parseDigits : ℕ → List Char → Option ℕ
  | acc, [] => some acc
  | acc, c :: cs =>
    (hexDigit c).bind (fun d => if acc * 16 + d < 256 then parseDigits (acc * 16 + d) cs else none)

/-- `u8::from_str_radix(_, 16)`. -/
def u8FromStrRadix16 : List Char → Option (BitVec 8)
  | [] => none
  | ['+'] => none
  | ['-'] => none
  | '+' :: cs => (parseDigits 0 cs).map (BitVec.ofNat 8)
  | cs => (parseDigits 0 cs).map (BitVec.ofNat 8)

/-- What the characters are that have a value. -/
theorem hexDigit_eq_some {c : Char} {d : ℕ} (h : hexDigit c = some d) :
    d < 16 ∧ 48 ≤ c.toNat ∧ c.toNat < 103 := by
  have h0 : '0'.toNat = 48 := rfl
  have h9 : '9'.toNat = 57 := rfl
  have ha : 'a'.toNat = 97 := rfl
  have hf : 'f'.toNat = 102 := rfl
  have hA : 'A'.toNat = 65 := rfl
  have hF : 'F'.toNat = 70 := rfl
  unfold hexDigit at h
  simp only [Char.le_def, UInt32.le_iff_toNat_le, Char.toNat_val] at h
  split at h
  · cases h
    omega
  · split at h
    · cases h
      omega
    · split at h
      · cases h
        omega
      · cases h

/-- A digit is one byte. -/
theorem utf8Size_of_hexDigit {c : Char} {d : ℕ} (h : hexDigit c = some d) :
    c.utf8Size = 1 := by
  have hle := (hexDigit_eq_some h).2.2
  have h127 : (127 : UInt32).toNat = 127 := rfl
  rw [Char.utf8Size_eq_one_iff, UInt32.le_iff_toNat_le, Char.toNat_val, h127]
  omega

/-- **Two digits are read as a byte.** -/
theorem u8FromStrRadix16_digits {c d : Char} {x y : ℕ} (hc : hexDigit c = some x)
    (hd : hexDigit d = some y) :
    u8FromStrRadix16 [c, d] = some (BitVec.ofNat 8 (16 * x + y)) := by
  obtain ⟨hx, hc48, -⟩ := hexDigit_eq_some hc
  obtain ⟨hy, -, -⟩ := hexDigit_eq_some hd
  have hplus : c ≠ '+' := by
    rintro rfl
    exact absurd hc48 (by decide)
  have hparse : parseDigits 0 [c, d] = some (16 * x + y) := by
    rw [parseDigits, hc, Option.bind_some, if_pos (by omega), parseDigits, hd,
      Option.bind_some, if_pos (by omega), parseDigits]
    congr 1
    omega
  unfold u8FromStrRadix16
  split
  · rename_i heq
    cases heq
  · rename_i heq
    cases heq
  · rename_i heq
    cases heq
  · rename_i heq
    cases heq
    exact absurd rfl hplus
  · rw [hparse]
    rfl

/-! ## Texts of digits -/

/-- The value of a digit, zero for other characters. -/
def digitValue (c : Char) : ℕ := (hexDigit c).getD 0

/-- **The value of a text of digits**, most significant first. -/
def hexValue (cs : List Char) : ℕ := cs.foldl (fun n c => 16 * n + digitValue c) 0

/-- All the characters are digits. -/
def IsHex (cs : List Char) : Prop := ∀ c ∈ cs, isAsciiHexdigit c = true

instance (cs : List Char) : Decidable (IsHex cs) :=
  List.decidableBAll (fun c => isAsciiHexdigit c = true) cs

/-- A digit has its value. -/
theorem hexDigit_eq_digitValue {c : Char} (h : isAsciiHexdigit c = true) :
    hexDigit c = some (digitValue c) := by
  obtain ⟨d, hd⟩ := Option.isSome_iff_exists.mp h
  unfold digitValue
  rw [hd]
  rfl

theorem digitValue_lt (c : Char) : digitValue c < 16 := by
  unfold digitValue
  cases h : hexDigit c with
  | none => exact Nat.succ_pos 15
  | some d => exact (hexDigit_eq_some h).1

theorem hexValue_append_singleton (cs : List Char) (c : Char) :
    hexValue (cs ++ [c]) = 16 * hexValue cs + digitValue c := by
  unfold hexValue
  rw [List.foldl_append]
  rfl

theorem hexValue_lt (cs : List Char) : hexValue cs < 16 ^ cs.length := by
  induction cs using List.reverseRecOn with
  | nil => exact Nat.one_pos
  | append_singleton cs c ih =>
    have hc := digitValue_lt c
    rw [hexValue_append_singleton, List.length_append, List.length_singleton, pow_succ]
    omega

/-- The digits `hex::encode` writes. -/
def lowerDigits : List Char := "0123456789abcdef".toList

/-- All the characters are digits in lower case. -/
def IsLowerHex (cs : List Char) : Prop := ∀ c ∈ cs, c ∈ lowerDigits

instance (cs : List Char) : Decidable (IsLowerHex cs) :=
  List.decidableBAll (fun c => c ∈ lowerDigits) cs

theorem digitValue_inj :
    ∀ c ∈ lowerDigits, ∀ d ∈ lowerDigits, digitValue c = digitValue d → c = d := by
  have hnodup : (lowerDigits.map digitValue).Nodup := by decide +kernel
  intro c hc d hd heq
  exact List.inj_on_of_nodup_map hnodup hc hd heq

theorem isAsciiHexdigit_of_mem : ∀ c ∈ lowerDigits, isAsciiHexdigit c = true :=
  List.all_eq_true.mp (by decide +kernel)

theorem IsLowerHex.isHex {cs : List Char} (h : IsLowerHex cs) : IsHex cs :=
  fun c hc => isAsciiHexdigit_of_mem c (h c hc)

/-- **Lower-case digits of the same value are the same.** -/
theorem hexValue_inj {cs ds : List Char} (hlen : cs.length = ds.length)
    (hcs : IsLowerHex cs) (hds : IsLowerHex ds) (h : hexValue cs = hexValue ds) :
    cs = ds := by
  induction cs using List.reverseRecOn generalizing ds with
  | nil => exact (List.length_eq_zero_iff.mp hlen.symm).symm
  | append_singleton cs c ih =>
    obtain rfl | ⟨ds, d, rfl⟩ := List.eq_nil_or_concat' ds
    · simp at hlen
    rw [hexValue_append_singleton, hexValue_append_singleton] at h
    have hc := digitValue_lt c
    have hd := digitValue_lt d
    have hlast : c = d := digitValue_inj c (hcs c (by simp)) d (hds d (by simp)) (by omega)
    have hfront : cs = ds := ih (by simpa using hlen)
      (fun x hx => hcs x (List.mem_append_left _ hx))
      (fun x hx => hds x (List.mem_append_left _ hx)) (by omega)
    rw [hlast, hfront]

end RustString
