import Mathlib.Data.BitVec
import Mathlib.Data.List.DropRight
import Mathlib.Data.Nat.Digits.Defs

/-!
# Numbers and bytes as text

The decimal text of a number has its digits, the most significant first; the
hexadecimal text of some bytes has two digits for each. Both are read back
(`decimalValue_decimal`, `hexDecode_hexEncode`).

A text of several fields can be cut where a byte stands that the field before
it cannot have. The last lemmas say where the cut is, from the left and from
the right.
-/

namespace TextDigits

/-! ## Decimal -/

/-- The byte of a decimal digit. -/
def digitByte (d : ℕ) : BitVec 8 := BitVec.ofNat 8 (48 + d)

/-- **The decimal text of a number.** Zero has a digit as well. -/
def decimal (n : ℕ) : List (BitVec 8) :=
  if n = 0 then [digitByte 0] else (Nat.digits 10 n).reverse.map digitByte

/-- The number of a decimal text. -/
def decimalValue (text : List (BitVec 8)) : ℕ :=
  text.foldl (fun n b => 10 * n + (b.toNat - 48)) 0

/-- The byte is a decimal digit. -/
def isDigit (b : BitVec 8) : Bool := decide (48 ≤ b.toNat ∧ b.toNat ≤ 57)

theorem toNat_digitByte {d : ℕ} (h : d < 10) : (digitByte d).toNat = 48 + d := by
  unfold digitByte
  rw [BitVec.toNat_ofNat, Nat.mod_eq_of_lt (by omega)]

theorem isDigit_digitByte {d : ℕ} (h : d < 10) : isDigit (digitByte d) = true := by
  unfold isDigit
  rw [toNat_digitByte h]
  exact decide_eq_true (by omega)

/-- The value of digits, from the most significant on. -/
theorem decimalValue_map {ds : List ℕ} (h : ∀ d ∈ ds, d < 10) :
    decimalValue (ds.reverse.map digitByte) = Nat.ofDigits 10 ds := by
  induction ds with
  | nil => rfl
  | cons d ds ih =>
    have hd : d < 10 := h d (List.mem_cons_self ..)
    have hds := ih (fun e he => h e (List.mem_cons_of_mem d he))
    unfold decimalValue at hds ⊢
    rw [List.reverse_cons, List.map_append, List.foldl_append, hds, Nat.ofDigits_cons,
      List.map_singleton, List.foldl_cons, List.foldl_nil, toNat_digitByte hd]
    omega

/-- **The decimal text is read back.** -/
theorem decimalValue_decimal (n : ℕ) : decimalValue (decimal n) = n := by
  unfold decimal
  split
  · rename_i h
    rw [h]
    rfl
  · rw [decimalValue_map (fun d hd => Nat.digits_lt_base (by norm_num) hd),
      Nat.ofDigits_digits]

/-- There is nothing but digits in it. -/
theorem isDigit_of_mem_decimal {n : ℕ} {b : BitVec 8} (h : b ∈ decimal n) :
    isDigit b = true := by
  unfold decimal at h
  split at h
  · rw [List.mem_singleton.mp h]
    rfl
  · obtain ⟨d, hd, rfl⟩ := List.mem_map.mp h
    exact isDigit_digitByte (Nat.digits_lt_base (by norm_num) (List.mem_reverse.mp hd))

/-! ## Hexadecimal -/

/-- The byte of a hexadecimal digit, in lower case. -/
def hexByte (d : BitVec 8) : BitVec 8 := if d < 10 then 48 + d else 87 + d

/-- **The hexadecimal text of some bytes.** -/
def hexEncode (data : List (BitVec 8)) : List (BitVec 8) :=
  data.flatMap (fun b : BitVec 8 => [hexByte (b >>> 4), hexByte (b &&& 0x0f)])

/-- A digit, read. -/
def hexNibble (c : BitVec 8) : Option (BitVec 8) :=
  if 48 ≤ c ∧ c ≤ 57 then some (c - 48)
  else if 97 ≤ c ∧ c ≤ 102 then some (c - 87)
  else none

/-- A hexadecimal text, read. -/
def hexDecode : List (BitVec 8) → Option (List (BitVec 8))
  | [] => some []
  | [_] => none
  | a :: b :: rest => do
    let x ← hexNibble a
    let y ← hexNibble b
    let bytes ← hexDecode rest
    some ((x <<< 4 ||| y) :: bytes)

/-- The digits of a byte give the byte. -/
theorem hexNibble_hexByte : ∀ b : BitVec 8,
    hexNibble (hexByte (b >>> 4)) = some (b >>> 4)
      ∧ hexNibble (hexByte (b &&& 0x0f)) = some (b &&& 0x0f)
      ∧ (b >>> 4) <<< 4 ||| (b &&& 0x0f) = b := by
  decide +kernel

@[simp] theorem hexEncode_nil : hexEncode [] = [] := rfl

theorem hexEncode_cons (b : BitVec 8) (data : List (BitVec 8)) :
    hexEncode (b :: data)
      = hexByte (b >>> 4) :: hexByte (b &&& 0x0f) :: hexEncode data := rfl

theorem hexEncode_append (a b : List (BitVec 8)) :
    hexEncode (a ++ b) = hexEncode a ++ hexEncode b := by
  unfold hexEncode
  rw [List.flatMap_append]

@[simp] theorem length_hexEncode (data : List (BitVec 8)) :
    (hexEncode data).length = 2 * data.length := by
  induction data with
  | nil => rfl
  | cons b data ih =>
    rw [hexEncode_cons, List.length_cons, List.length_cons, List.length_cons, ih]
    omega

/-- **The hexadecimal text is read back.** -/
theorem hexDecode_hexEncode (data : List (BitVec 8)) :
    hexDecode (hexEncode data) = some data := by
  induction data with
  | nil => rfl
  | cons b data ih =>
    obtain ⟨hhigh, hlow, hjoin⟩ := hexNibble_hexByte b
    rw [hexEncode_cons, hexDecode, hhigh, hlow, ih]
    show some (((b >>> 4) <<< 4 ||| (b &&& 0x0f)) :: data) = some (b :: data)
    rw [hjoin]

/-- There is nothing but digits in it. -/
theorem isSome_hexNibble_of_mem {data : List (BitVec 8)} {c : BitVec 8}
    (h : c ∈ hexEncode data) : (hexNibble c).isSome = true := by
  obtain ⟨b, -, hc⟩ := List.mem_flatMap.mp h
  obtain ⟨hhigh, hlow, -⟩ := hexNibble_hexByte b
  rcases List.mem_cons.mp hc with rfl | hc
  · rw [hhigh]
    rfl
  · rw [List.mem_singleton.mp hc, hlow]
    rfl

/-! ## Fields -/

variable {α : Type}

/-- Take a fixed text off the front. -/
def expect [DecidableEq α] (text data : List α) : Option (List α) :=
  if data.take text.length = text then some (data.drop text.length) else none

theorem expect_append [DecidableEq α] (text rest : List α) :
    expect text (text ++ rest) = some rest := by
  unfold expect
  rw [List.take_left, if_pos rfl, List.drop_left]

variable {p : α → Bool} {field rest : List α} {stop : α}

/-- **A field ends at the first byte it cannot have.** -/
theorem takeWhile_field (hfield : ∀ b ∈ field, p b = true) (hstop : p stop = false) :
    (field ++ stop :: rest).takeWhile p = field := by
  rw [List.takeWhile_append_of_pos hfield, List.takeWhile_cons_of_neg (by simp [hstop]),
    List.append_nil]

/-- … and what follows starts there. -/
theorem dropWhile_field (hfield : ∀ b ∈ field, p b = true) (hstop : p stop = false) :
    (field ++ stop :: rest).dropWhile p = stop :: rest := by
  rw [List.dropWhile_append_of_pos hfield, List.dropWhile_cons_of_neg (by simp [hstop])]

/-- The same where a fixed text follows the field, … -/
theorem takeWhile_text (hfield : ∀ b ∈ field, p b = true) {text : List α}
    (htext : text.head?.map p = some false) :
    (field ++ (text ++ rest)).takeWhile p = field := by
  cases text with
  | nil => cases htext
  | cons stop text => exact takeWhile_field hfield (Option.some.inj htext)

/-- … which is what is left to read. -/
theorem dropWhile_text (hfield : ∀ b ∈ field, p b = true) {text : List α}
    (htext : text.head?.map p = some false) :
    (field ++ (text ++ rest)).dropWhile p = text ++ rest := by
  cases text with
  | nil => cases htext
  | cons stop text => exact dropWhile_field hfield (Option.some.inj htext)

/-- **From the right** a field starts after the last byte it cannot have. -/
theorem rtakeWhile_field (hrest : ∀ b ∈ rest, p b = true) (hstop : p stop = false) :
    (field ++ stop :: rest).rtakeWhile p = rest := by
  rw [List.rtakeWhile, List.reverse_append, List.reverse_cons, List.append_assoc,
    List.singleton_append, takeWhile_field (fun b hb => hrest b (List.mem_reverse.mp hb)) hstop,
    List.reverse_reverse]

/-- … and what precedes ends there. -/
theorem rdropWhile_field (hrest : ∀ b ∈ rest, p b = true) (hstop : p stop = false) :
    (field ++ stop :: rest).rdropWhile p = field ++ [stop] := by
  rw [List.rdropWhile, List.reverse_append, List.reverse_cons, List.append_assoc,
    List.singleton_append, dropWhile_field (fun b hb => hrest b (List.mem_reverse.mp hb)) hstop,
    List.reverse_cons, List.reverse_reverse]

end TextDigits
