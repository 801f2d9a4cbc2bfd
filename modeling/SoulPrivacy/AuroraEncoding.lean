import Mathlib.Data.Nat.Digits.Lemmas
import SoulPrivacy.AuroraRainbowAdapter
import SoulPrivacy.SolidityLoop
import SoulPrivacy.TextDigits

/-!
# The text of a call to Near (`AuroraRainbowAdapter.sendMessage`)

A message for Near is one text: the account, and behind it a record with the
chain, the sender and the payload, written by three converters. All of it can
be read back (`decodeCall_callData`), so two messages with one text are the
same. The account is the one field without an end of its own: it ends at the
last opening brace of the text, for no digit that follows is one. A brace in
the account itself would do no harm.

The converters are followed down to their words. The loop that writes a
number runs backwards, and its index is the number of digits that are still
to be written; what the first loop counted is what the second one needs, so
the index does not pass zero (`uintToStringWord_eq`).
-/

open BridgeAdapter (Context)
open TextDigits

namespace AuroraRainbowAdapter

/-! ## The converters on words -/

/-- A round of the first loop of `_uintToString`. -/
def countDigit (p : Uint256 × Uint256) : Except Panic (Uint256 × Uint256) := do
  let digits ← checkedAdd Panic.arithmetic p.2 1
  .ok (p.1 / 10, digits)

/-- A round of the second loop of `_uintToString`. -/
def fillDigit (p : Uint256 × Uint256 × Bytes) : Except Panic (Uint256 × Uint256 × Bytes) := do
  let digits ← checkedSub Panic.arithmetic p.2.1 1
  let c ← checkedAdd Panic.arithmetic 48 (p.1 % 10)
  let buffer ← store p.2.2 digits (c.setWidth 8)
  .ok (p.1 / 10, digits, buffer)

/-- **`_uintToString`, on words.** -/
def uintToStringWord (fuel : ℕ) (value : Uint256) : Except Panic Bytes :=
  if value = 0 then .ok (ascii "0")
  else do
    let counted ← whileLoop (fun p => decide (p.1 ≠ 0)) countDigit fuel (value, 0)
    let buffer := List.replicate counted.2.toNat (0 : BitVec 8)
    let filled ← whileLoop (fun p => decide (p.1 ≠ 0)) fillDigit fuel
      (value, counted.2, buffer)
    .ok filled.2.2

/-- `str[high] = alphabet[uint8(data[i] >> 4)]` and
`str[low] = alphabet[uint8(data[i] & 0x0f)]`. -/
def writeDigits (data : Bytes) (i high low : Uint256) (str : Bytes) : Except Panic Bytes := do
  let b ← load data i
  let c ← load (ascii "0123456789abcdef") ((b >>> 4).setWidth 256)
  let str ← store str high c
  let b ← load data i
  let c ← load (ascii "0123456789abcdef") ((b &&& 0x0f).setWidth 256)
  store str low c

/-- A round of the loop of `_addressToString`. -/
def addressRound (data : Bytes) (i : Uint256) (str : Bytes) : Except Panic Bytes := do
  let m ← checkedMul Panic.arithmetic i 2
  let high ← checkedAdd Panic.arithmetic 2 m
  let low ← checkedAdd Panic.arithmetic 3 m
  writeDigits data i high low str

/-- **`_addressToString`, on words.** -/
def addressToStringWord (fuel : ℕ) (addr : Address) : Except Panic Bytes := do
  let str := List.replicate 42 (0 : BitVec 8)
  let str ← store str 0 0x30
  let str ← store str 1 0x78
  forLoop 20 (addressRound addr.toBytes) fuel str

/-- A round of the loop of `_bytesToHex`. -/
def hexRound (data : Bytes) (i : Uint256) (str : Bytes) : Except Panic Bytes := do
  let high ← checkedMul Panic.arithmetic i 2
  let m ← checkedMul Panic.arithmetic i 2
  let low ← checkedAdd Panic.arithmetic m 1
  writeDigits data i high low str

/-- **`_bytesToHex`, on words.** -/
def bytesToHexWord (fuel : ℕ) (data : Bytes) : Except Panic Bytes := do
  let length : Uint256 := BitVec.ofNat 256 data.length
  let n ← checkedMul Panic.arithmetic length 2
  forLoop length (hexRound data) fuel (List.replicate n.toNat 0)

/-! ## Decimal digits -/

/-- The first loop adds the number of digits to what it has. -/
theorem countDigits_eq (n d : ℕ) : countDigits n d = d + (Nat.digits 10 n).length := by
  induction n using Nat.strong_induction_on generalizing d with
  | _ n ih =>
    rw [countDigits]
    split
    · rename_i h
      rw [h, Nat.digits_zero, List.length_nil, Nat.add_zero]
    · rename_i h
      rw [ih (n / 10) (Nat.div_lt_self (Nat.pos_of_ne_zero h) (by norm_num)),
        Nat.digits_eq_cons_digits_div (by norm_num) h, List.length_cons]
      omega

theorem fillDigits_zero (digits : ℕ) (buffer : Bytes) :
    fillDigits 0 digits buffer = .ok buffer := by
  rw [fillDigits.eq_def, if_pos rfl]

/-- A round that has a place to write to. -/
theorem fillDigits_succ {n : ℕ} (hn : n ≠ 0) (digits : ℕ) (buffer : Bytes) :
    fillDigits n (digits + 1) buffer
      = fillDigits (n / 10) digits (buffer.set digits (digitByte (n % 10))) := by
  rw [fillDigits.eq_def, if_neg hn]
  rfl

/-- **The second loop writes the digits in front of what is written**, with an
index that is the number of digits to come. -/
theorem fillDigits_eq (n : ℕ) {buffer : Bytes}
    (hlen : (Nat.digits 10 n).length ≤ buffer.length) :
    fillDigits n (Nat.digits 10 n).length buffer
      = .ok ((Nat.digits 10 n).reverse.map digitByte
          ++ buffer.drop (Nat.digits 10 n).length) := by
  induction n using Nat.strong_induction_on generalizing buffer with
  | _ n ih =>
    by_cases h : n = 0
    · rw [h, Nat.digits_zero, List.length_nil, fillDigits_zero]
      rfl
    · rw [Nat.digits_eq_cons_digits_div (by norm_num) h, List.length_cons] at hlen ⊢
      have hset : (Nat.digits 10 (n / 10)).length
          ≤ (buffer.set (Nat.digits 10 (n / 10)).length (digitByte (n % 10))).length := by
        rw [List.length_set]
        omega
      have hdrop : (buffer.set (Nat.digits 10 (n / 10)).length (digitByte (n % 10))).drop
            (Nat.digits 10 (n / 10)).length
          = digitByte (n % 10) :: buffer.drop ((Nat.digits 10 (n / 10)).length + 1) := by
        rw [List.drop_set, if_neg (lt_irrefl _), Nat.sub_self,
          List.drop_eq_getElem_cons (by omega), List.set_cons_zero]
      rw [fillDigits_succ h,
        ih (n / 10) (Nat.div_lt_self (Nat.pos_of_ne_zero h) (by norm_num)) hset, hdrop,
        List.reverse_cons, List.map_append, List.append_assoc]
      rfl

/-- **`_uintToString` writes the decimal text**, of every word. -/
theorem uintToString_eq (value : Uint256) :
    uintToString value = .ok (decimal value.toNat) := by
  unfold uintToString
  split
  · rename_i h
    rw [h]
    rfl
  · rename_i h
    have hne : value.toNat ≠ 0 := fun h0 => h (BitVec.eq_of_toNat_eq h0)
    dsimp only
    rw [countDigits_eq, Nat.zero_add, fillDigits_eq value.toNat (by rw [List.length_replicate]),
      List.drop_replicate, Nat.sub_self, List.replicate_zero, List.append_nil, decimal,
      if_neg hne]

/-- A word has no more than 78 digits. -/
theorem length_digits_le (value : Uint256) : (Nat.digits 10 value.toNat).length ≤ 78 := by
  refine (Nat.digits_length_le_iff (by norm_num) _).mpr ?_
  exact value.isLt.trans (by norm_num)

/-- A word that is not zero loses a digit. -/
theorem digits_div_ten {value : Uint256} (h : value ≠ 0) :
    (Nat.digits 10 value.toNat).length
      = (Nat.digits 10 (value / 10).toNat).length + 1 := by
  have hne : value.toNat ≠ 0 := fun h0 => h (BitVec.eq_of_toNat_eq h0)
  rw [Nat.digits_eq_cons_digits_div (by norm_num) hne, List.length_cons, BitVec.toNat_udiv]
  rfl

theorem eq_zero_of_guard {value : Uint256} (h : decide (value ≠ 0) = false) : value = 0 :=
  not_not.mp (of_decide_eq_false h)

/-- **The first loop counts the digits**, in as many rounds. -/
theorem countDigits_word {value : Uint256} {fuel : ℕ} (hfuel : 78 ≤ fuel) :
    whileLoop (fun p => decide (p.1 ≠ 0)) countDigit fuel (value, 0)
      = .ok (0, BitVec.ofNat 256 (Nat.digits 10 value.toNat).length) := by
  have htotal := length_digits_le value
  set total := (Nat.digits 10 value.toNat).length with htotal_eq
  have hrounds : ∀ n (p : Uint256 × Uint256),
      ((Nat.digits 10 p.1.toNat).length = n ∧ n ≤ total ∧ p.2 = BitVec.ofNat 256 (total - n)) →
      decide (p.1 ≠ 0) = true →
      ∃ m p', m < n ∧ countDigit p = .ok p' ∧ (Nat.digits 10 p'.1.toNat).length = m ∧ m ≤ total
        ∧ p'.2 = BitVec.ofNat 256 (total - m) := by
    rintro n ⟨temp, _⟩ ⟨hlen, hn, rfl⟩ hguard
    dsimp only at hlen hguard
    have hdigits := digits_div_ten (of_decide_eq_true hguard)
    have hadd : checkedAdd Panic.arithmetic (BitVec.ofNat 256 (total - n)) 1
        = .ok (BitVec.ofNat 256 (total - n + 1)) := checkedAdd_ofNat (b := 1) _ (by omega)
    have hcount : total - n + 1 = total - (n - 1) := by omega
    have hleft : (Nat.digits 10 (temp / 10).toNat).length = n - 1 := by omega
    refine ⟨n - 1, (temp / 10, BitVec.ofNat 256 (total - n + 1)), by omega, ?_, hleft, by omega,
      by rw [hcount]⟩
    unfold countDigit
    dsimp only
    rw [hadd]
    rfl
  obtain ⟨n, ⟨temp, _⟩, hrun, ⟨hlen, hn, rfl⟩, hexit⟩ :=
    whileLoop_total hrounds (htotal.trans hfuel) (s := (value, 0))
      ⟨rfl, le_rfl, by rw [Nat.sub_self]; rfl⟩
  obtain rfl := eq_zero_of_guard hexit
  obtain rfl : 0 = n := hlen
  rw [hrun, Nat.sub_zero]

/-- A round of the second loop: its index does not underflow, and the digit fits a byte. -/
theorem fillDigit_word {v : Uint256} {m : ℕ} {buffer : Bytes} (hm : m < 78)
    (hroom : m < buffer.length) :
    fillDigit (v, BitVec.ofNat 256 (m + 1), buffer)
      = .ok (v / 10, BitVec.ofNat 256 m, buffer.set m (digitByte (v.toNat % 10))) := by
  have hmod : v % 10 = BitVec.ofNat 256 (v.toNat % 10) := by
    apply BitVec.eq_of_toNat_eq
    rw [BitVec.toNat_umod, toNat_ofNat_of_lt (by omega)]
    rfl
  have hsub : checkedSub Panic.arithmetic (BitVec.ofNat 256 (m + 1)) 1
      = .ok (BitVec.ofNat 256 m) := checkedSub_ofNat (b := 1) _ (by omega) (by omega)
  have hadd : checkedAdd Panic.arithmetic 48 (v % 10)
      = .ok (BitVec.ofNat 256 (48 + v.toNat % 10)) := by
    rw [hmod]
    exact checkedAdd_ofNat (a := 48) _ (by omega)
  have hbyte : (BitVec.ofNat 256 (48 + v.toNat % 10)).setWidth 8 = digitByte (v.toNat % 10) :=
    BitVec.setWidth_ofNat_of_le (by norm_num) _
  unfold fillDigit
  dsimp only
  rw [hsub]
  show (checkedAdd Panic.arithmetic 48 (v % 10) >>= _) = _
  rw [hadd]
  show (store buffer _ (BitVec.setWidth 8 _) >>= _) = _
  rw [hbyte, store_ofNat (by omega) hroom]
  rfl

/-- **The second loop writes them.** -/
theorem fillDigits_word {value : Uint256} {buffer text : Bytes} {fuel : ℕ} (hfuel : 78 ≤ fuel)
    (hlen : (Nat.digits 10 value.toNat).length ≤ buffer.length)
    (h : fillDigits value.toNat (Nat.digits 10 value.toNat).length buffer = .ok text) :
    whileLoop (fun p => decide (p.1 ≠ 0)) fillDigit fuel
        (value, BitVec.ofNat 256 (Nat.digits 10 value.toNat).length, buffer)
      = .ok (0, 0, text) := by
  have hrounds : ∀ n (p : Uint256 × Uint256 × Bytes),
      ((Nat.digits 10 p.1.toNat).length = n ∧ n ≤ 78 ∧ n ≤ p.2.2.length
        ∧ p.2.1 = BitVec.ofNat 256 n ∧ fillDigits p.1.toNat n p.2.2 = .ok text) →
      decide (p.1 ≠ 0) = true →
      ∃ m p', m < n ∧ fillDigit p = .ok p' ∧ (Nat.digits 10 p'.1.toNat).length = m ∧ m ≤ 78
        ∧ m ≤ p'.2.2.length ∧ p'.2.1 = BitVec.ofNat 256 m
        ∧ fillDigits p'.1.toNat m p'.2.2 = .ok text := by
    rintro n ⟨v, _, buffer⟩ ⟨hv, hn, hroom, rfl, hrest⟩ hguard
    dsimp only at hv hroom hrest hguard
    have hne : v ≠ 0 := of_decide_eq_true hguard
    have hdigits := digits_div_ten hne
    obtain ⟨m, rfl⟩ : ∃ m, n = m + 1 := ⟨_, hv.symm.trans hdigits⟩
    rw [fillDigits_succ (fun h0 => hne (BitVec.eq_of_toNat_eq h0))] at hrest
    refine ⟨m, _, Nat.lt_succ_self m, fillDigit_word hn hroom,
      Nat.succ.inj (hdigits.symm.trans hv), Nat.le_of_succ_le hn, ?_, rfl, ?_⟩
    · rw [List.length_set]
      exact Nat.le_of_succ_le hroom
    · rw [BitVec.toNat_udiv]
      exact hrest
  obtain ⟨n, ⟨v, _, last⟩, hrun, ⟨hv, -, -, rfl, hlast⟩, hexit⟩ :=
    whileLoop_total hrounds ((length_digits_le value).trans hfuel)
      (s := (value, BitVec.ofNat 256 (Nat.digits 10 value.toNat).length, buffer))
      ⟨rfl, length_digits_le value, hlen, rfl, h⟩
  obtain rfl := eq_zero_of_guard hexit
  obtain rfl : 0 = n := hv
  have htext := (fillDigits_zero 0 last).symm.trans hlast
  cases htext
  exact hrun

/-- **The code on words writes the decimal text of every word**, with no more
than 78 rounds for each loop. -/
theorem uintToStringWord_eq (value : Uint256) {fuel : ℕ} (hfuel : 78 ≤ fuel) :
    uintToStringWord fuel value = .ok (decimal value.toNat) := by
  have htext := uintToString_eq value
  unfold uintToString at htext
  unfold uintToStringWord
  split
  · rename_i h
    rw [if_pos h] at htext
    exact congrArg Except.ok (Except.ok.inj htext)
  · rename_i h
    have hlt : (Nat.digits 10 value.toNat).length < 2 ^ 256 :=
      (length_digits_le value).trans_lt (by norm_num)
    rw [if_neg h] at htext
    dsimp only at htext
    rw [countDigits_eq, Nat.zero_add] at htext
    rw [countDigits_word hfuel]
    show (whileLoop _ fillDigit fuel
      (value, _, List.replicate (BitVec.ofNat 256 _).toNat 0) >>= _) = _
    rw [toNat_ofNat_of_lt hlt,
      fillDigits_word hfuel (by rw [List.length_replicate]) htext]
    rfl

/-! ## Hexadecimal digits -/

/-- The alphabet, by the value of a digit. -/
theorem load_alphabet : ∀ d : BitVec 8, d < 16 →
    load (ascii "0123456789abcdef") (d.setWidth 256) = .ok (hexByte d)
      ∧ alphabet d = hexByte d := by
  decide +kernel

theorem nibble_lt : ∀ b : BitVec 8, b >>> 4 < 16 ∧ b &&& 0x0f < 16 := by
  decide +kernel

/-- **`_bytesToHex` writes the hexadecimal text.** -/
theorem bytesToHex_eq (data : Bytes) : bytesToHex data = hexEncode data := by
  unfold bytesToHex hexEncode
  congr 1
  funext b
  rw [(load_alphabet _ (nibble_lt b).1).2, (load_alphabet _ (nibble_lt b).2).2]

/-- **A round writes the two digits of a byte** behind what is written. -/
theorem writeDigits_eq {data front : Bytes} {b : BitVec 8} {i m : ℕ} (hi : i < 2 ^ 256)
    (hfront : front.length + 1 < 2 ^ 256) (hb : data[i]? = some b) :
    writeDigits data (BitVec.ofNat 256 i) (BitVec.ofNat 256 front.length)
        (BitVec.ofNat 256 (front.length + 1)) (front ++ List.replicate (m + 2) 0)
      = .ok (front ++ hexEncode [b] ++ List.replicate m 0) := by
  have hhigh : store (front ++ List.replicate (m + 2) 0) (BitVec.ofNat 256 front.length)
      (hexByte (b >>> 4)) = .ok (front ++ hexByte (b >>> 4) :: List.replicate (m + 1) 0) := by
    rw [store_ofNat (by omega) (by simp), List.set_append_right _ _ le_rfl, Nat.sub_self]
    rfl
  have hlow : store (front ++ hexByte (b >>> 4) :: List.replicate (m + 1) 0)
      (BitVec.ofNat 256 (front.length + 1)) (hexByte (b &&& 0x0f))
        = .ok (front ++ hexEncode [b] ++ List.replicate m 0) := by
    rw [store_ofNat hfront (by simp), List.set_append_right _ _ (Nat.le_add_right _ 1),
      Nat.add_sub_cancel_left, List.append_assoc]
    rfl
  unfold writeDigits
  rw [load_ofNat hi hb]
  show (load _ (BitVec.setWidth 256 (b >>> 4)) >>= _) = _
  rw [(load_alphabet _ (nibble_lt b).1).1]
  show (store _ _ _ >>= _) = _
  rw [hhigh]
  show (load _ (BitVec.setWidth 256 (b &&& 0x0f)) >>= _) = _
  rw [(load_alphabet _ (nibble_lt b).2).1]
  exact hlow

/-- **A loop that writes the digits of byte `i` at `front + 2i`** writes the
hexadecimal text behind the front. -/
theorem forLoop_writeDigits {data : Bytes} (front : Bytes)
    {round : Uint256 → Bytes → Except Panic Bytes}
    (hword : front.length + 2 * data.length < 2 ^ 256)
    (hround : ∀ i < data.length, ∀ str, round (BitVec.ofNat 256 i) str
      = writeDigits data (BitVec.ofNat 256 i) (BitVec.ofNat 256 (front.length + 2 * i))
          (BitVec.ofNat 256 (front.length + 2 * i + 1)) str)
    {fuel : ℕ} (hfuel : data.length ≤ fuel) :
    forLoop (BitVec.ofNat 256 data.length) round fuel
        (front ++ List.replicate (2 * data.length) 0)
      = .ok (front ++ hexEncode data) := by
  have hbound := toNat_ofNat_of_lt (show data.length < 2 ^ 256 by omega)
  have hstep : ∀ i < (BitVec.ofNat 256 data.length).toNat, ∀ str : Bytes,
      str = front ++ hexEncode (data.take i) ++ List.replicate (2 * (data.length - i)) 0 →
      ∃ str', round (BitVec.ofNat 256 i) str = .ok str'
        ∧ str' = front ++ hexEncode (data.take (i + 1))
          ++ List.replicate (2 * (data.length - (i + 1))) 0 := by
    rintro i hi _ rfl
    rw [hbound] at hi
    have hlen : (front ++ hexEncode (data.take i)).length = front.length + 2 * i := by
      rw [List.length_append, length_hexEncode, List.length_take_of_le hi.le]
    have hrest : 2 * (data.length - i) = 2 * (data.length - (i + 1)) + 2 := by omega
    refine ⟨_, ?_, rfl⟩
    rw [hround i hi, ← hlen, hrest,
      writeDigits_eq (by omega) (by rw [hlen]; omega) (List.getElem?_eq_getElem hi),
      List.take_succ_eq_append_getElem hi, hexEncode_append, ← List.append_assoc front]
  obtain ⟨_, hrun, rfl⟩ := forLoop_total hstep (hbound.trans_le hfuel)
    (s := front ++ List.replicate (2 * data.length) 0)
    (by rw [List.take_zero, Nat.sub_zero, hexEncode_nil, List.append_nil])
  rw [hrun, hbound, List.take_length, Nat.sub_self]
  exact congrArg Except.ok (List.append_nil _)

/-- The places a round of `_bytesToHex` writes to. -/
theorem hexRound_eq (data str : Bytes) {i : ℕ} (hi : 2 * i + 1 < 2 ^ 256) :
    hexRound data (BitVec.ofNat 256 i) str
      = writeDigits data (BitVec.ofNat 256 i) (BitVec.ofNat 256 (i * 2))
          (BitVec.ofNat 256 (i * 2 + 1)) str := by
  have hmul : checkedMul Panic.arithmetic (BitVec.ofNat 256 i) 2
      = .ok (BitVec.ofNat 256 (i * 2)) :=
    checkedMul_ofNat (b := 2) _ (by omega) (by norm_num) (by omega)
  have hadd : checkedAdd Panic.arithmetic (BitVec.ofNat 256 (i * 2)) 1
      = .ok (BitVec.ofNat 256 (i * 2 + 1)) := checkedAdd_ofNat (b := 1) _ (by omega)
  unfold hexRound
  rw [hmul, Except.ok_bind, Except.ok_bind, hadd, Except.ok_bind]

/-- … and one of `_addressToString`. -/
theorem addressRound_eq (data str : Bytes) {i : ℕ} (hi : 3 + i * 2 < 2 ^ 256) :
    addressRound data (BitVec.ofNat 256 i) str
      = writeDigits data (BitVec.ofNat 256 i) (BitVec.ofNat 256 (2 + i * 2))
          (BitVec.ofNat 256 (3 + i * 2)) str := by
  have hmul : checkedMul Panic.arithmetic (BitVec.ofNat 256 i) 2
      = .ok (BitVec.ofNat 256 (i * 2)) :=
    checkedMul_ofNat (b := 2) _ (by omega) (by norm_num) (by omega)
  have hhigh : checkedAdd Panic.arithmetic 2 (BitVec.ofNat 256 (i * 2))
      = .ok (BitVec.ofNat 256 (2 + i * 2)) := checkedAdd_ofNat (a := 2) _ (by omega)
  have hlow : checkedAdd Panic.arithmetic 3 (BitVec.ofNat 256 (i * 2))
      = .ok (BitVec.ofNat 256 (3 + i * 2)) := checkedAdd_ofNat (a := 3) _ (by omega)
  unfold addressRound
  rw [hmul, Except.ok_bind, hhigh, Except.ok_bind, hlow, Except.ok_bind]

/-- **The code on words writes the hexadecimal text of a payload.** -/
theorem bytesToHexWord_eq {data : Bytes} (hword : 2 * data.length < 2 ^ 256) {fuel : ℕ}
    (hfuel : data.length ≤ fuel) :
    bytesToHexWord fuel data = .ok (hexEncode data) := by
  have hmul : checkedMul Panic.arithmetic (BitVec.ofNat 256 data.length) 2
      = .ok (BitVec.ofNat 256 (data.length * 2)) :=
    checkedMul_ofNat (b := 2) _ (by omega) (by norm_num) (by omega)
  have hround : ∀ i < data.length, ∀ str, hexRound data (BitVec.ofNat 256 i) str
      = writeDigits data (BitVec.ofNat 256 i) (BitVec.ofNat 256 (([] : Bytes).length + 2 * i))
          (BitVec.ofNat 256 (([] : Bytes).length + 2 * i + 1)) str := by
    intro i hi str
    rw [hexRound_eq data str (by omega), List.length_nil, Nat.zero_add, Nat.mul_comm 2 i]
  have hrun := forLoop_writeDigits [] (by rw [List.length_nil, Nat.zero_add]; exact hword)
    hround hfuel
  rw [List.nil_append, List.nil_append] at hrun
  unfold bytesToHexWord
  dsimp only
  rw [hmul, Except.ok_bind, toNat_ofNat_of_lt (by omega), Nat.mul_comm]
  exact hrun

/-- **… and that of an address.** -/
theorem addressToStringWord_eq (addr : Address) {fuel : ℕ} (hfuel : 20 ≤ fuel) :
    addressToStringWord fuel addr = .ok (ascii "0x" ++ hexEncode addr.toBytes) := by
  have hlen : addr.toBytes.length = 20 := Address.length_toBytes addr
  have hfront : store (List.replicate 42 (0 : BitVec 8)) 0 0x30
      = .ok (0x30 :: List.replicate 41 0) := by decide
  have hfront' : store (0x30 :: List.replicate 41 (0 : BitVec 8)) 1 0x78
      = .ok (ascii "0x" ++ List.replicate 40 0) := by decide
  have hround : ∀ i < addr.toBytes.length, ∀ str,
      addressRound addr.toBytes (BitVec.ofNat 256 i) str
        = writeDigits addr.toBytes (BitVec.ofNat 256 i)
            (BitVec.ofNat 256 ((ascii "0x").length + 2 * i))
            (BitVec.ofNat 256 ((ascii "0x").length + 2 * i + 1)) str := by
    intro i hi str
    rw [hlen] at hi
    rw [addressRound_eq addr.toBytes str (by omega), show (ascii "0x").length = 2 from rfl,
      show 2 + 2 * i = 2 + i * 2 from by omega, show 2 + i * 2 + 1 = 3 + i * 2 from by omega]
  have hrun := forLoop_writeDigits (ascii "0x") (by rw [hlen]; decide) hround
    (hlen.trans_le hfuel)
  rw [hlen] at hrun
  unfold addressToStringWord
  dsimp only
  rw [hfront, Except.ok_bind, hfront', Except.ok_bind]
  exact hrun

/-! ## The text of a call -/

/-- What a call says. -/
structure Call where
  nearAccount : Bytes
  chainId : Uint256
  sender : Address
  payload : Bytes

/-- The byte of an opening brace. -/
def openBrace : BitVec 8 := 0x7b

/-- **The reader of a call.** The account ends at the last opening brace; the
other fields end at the first byte they cannot have. -/
def decodeCall (data : Bytes) : Option Call := do
  let nearAccount := (data.rdropWhile (fun b => decide (b ≠ openBrace))).dropLast
  let rest ← expect (ascii "\"source_chain\":") (data.rtakeWhile (fun b => decide (b ≠ openBrace)))
  let chain := rest.takeWhile isDigit
  let rest ← expect (ascii ",\"sender\":\"0x") (rest.dropWhile isDigit)
  let sender ← hexDecode (rest.take 40)
  let rest ← expect (ascii "\",\"payload\":\"") (rest.drop 40)
  let payload ← hexDecode (rest.takeWhile (fun b => (hexNibble b).isSome))
  let rest ← expect (ascii "\"\x7d") (rest.dropWhile (fun b => (hexNibble b).isSome))
  if rest = [] then
    some ⟨nearAccount, BitVec.ofNat 256 (decimalValue chain), BitVec.ofNat 160 (beNat sender),
      payload⟩
  else none

/-- The text of a call, with its digits. -/
theorem callData_eq (nearAccount : Bytes) (chainId : Uint256) (sender : Address)
    (payload : Bytes) :
    callData nearAccount chainId sender payload
      = .ok (nearAccount ++ openBrace :: (ascii "\"source_chain\":" ++ (decimal chainId.toNat
          ++ (ascii ",\"sender\":\"0x" ++ (hexEncode sender.toBytes
          ++ (ascii "\",\"payload\":\"" ++ (hexEncode payload ++ ascii "\"\x7d"))))))) := by
  have hopen : ascii "\x7b\"source_chain\":" = openBrace :: ascii "\"source_chain\":" := by decide
  have hsender : ascii ",\"sender\":\"0x" = ascii ",\"sender\":\"" ++ ascii "0x" := by decide
  unfold callData
  rw [uintToString_eq, Except.ok_bind, addressToString, bytesToHex_eq, bytesToHex_eq, hopen,
    hsender]
  simp only [List.append_assoc, List.cons_append]

/-- Digits are no braces. -/
theorem ne_openBrace_of_isDigit : ∀ b : BitVec 8, isDigit b = true → b ≠ openBrace := by
  decide +kernel

theorem ne_openBrace_of_hexNibble : ∀ b : BitVec 8, (hexNibble b).isSome = true →
    b ≠ openBrace := by
  decide +kernel

/-- The bytes of an address are read back. -/
theorem ofNat_beNat_toBytes (a : Address) : BitVec.ofNat 160 (beNat a.toBytes) = a := by
  have hlt : a.toNat < 256 ^ 20 := a.isLt
  unfold Address.toBytes
  rw [beNat_beBytes, Nat.mod_eq_of_lt hlt, BitVec.ofNat_toNat, BitVec.setWidth_eq]

/-- **The text of a call is read back**, whatever the account is. -/
theorem decodeCall_callData {nearAccount : Bytes} {chainId : Uint256} {sender : Address}
    {payload data : Bytes} (h : callData nearAccount chainId sender payload = .ok data) :
    decodeCall data = some ⟨nearAccount, chainId, sender, payload⟩ := by
  rw [callData_eq] at h
  cases h
  set tail := ascii "\"source_chain\":" ++ (decimal chainId.toNat
    ++ (ascii ",\"sender\":\"0x" ++ (hexEncode sender.toBytes
    ++ (ascii "\",\"payload\":\"" ++ (hexEncode payload ++ ascii "\"\x7d"))))) with htail
  have hdigits : ∀ b ∈ decimal chainId.toNat, isDigit b = true := fun b hb =>
    isDigit_of_mem_decimal hb
  have hnibbles : ∀ b ∈ hexEncode payload, (hexNibble b).isSome = true := fun b hb =>
    isSome_hexNibble_of_mem hb
  have hbraces : ∀ b ∈ tail, decide (b ≠ openBrace) = true := by
    have hchain : ∀ b ∈ decimal chainId.toNat, decide (b ≠ openBrace) = true := fun b hb =>
      decide_eq_true (ne_openBrace_of_isDigit b (hdigits b hb))
    have hhex : ∀ (data : Bytes), ∀ b ∈ hexEncode data, decide (b ≠ openBrace) = true :=
      fun data b hb => decide_eq_true (ne_openBrace_of_hexNibble b (isSome_hexNibble_of_mem hb))
    simp only [htail, List.forall_mem_append]
    exact ⟨by decide, hchain, by decide, hhex _, by decide, hhex _, by decide⟩
  have hlast : hexEncode payload ++ ascii "\"\x7d"
      = hexEncode payload ++ (ascii "\"\x7d" ++ []) := by rw [List.append_nil]
  have hsender : (hexEncode sender.toBytes).length = 40 := by
    rw [length_hexEncode, Address.length_toBytes]
  unfold decodeCall
  dsimp only
  rw [rtakeWhile_field hbraces (by decide), rdropWhile_field hbraces (by decide),
    List.dropLast_concat, htail, expect_append, Option.bind_eq_bind, Option.bind_some,
    takeWhile_text hdigits (by decide), dropWhile_text hdigits (by decide), expect_append,
    Option.bind_some, List.take_left' hsender, List.drop_left' hsender, hexDecode_hexEncode,
    Option.bind_some, expect_append, Option.bind_some, hlast, takeWhile_text hnibbles (by decide),
    dropWhile_text hnibbles (by decide), hexDecode_hexEncode, Option.bind_some, expect_append,
    Option.bind_some, if_pos rfl, decimalValue_decimal, ofNat_beNat_toBytes, BitVec.ofNat_toNat,
    BitVec.setWidth_eq]

/-! ## What the bridge is given -/

/-- **`sendMessage` passes these bytes to the precompile**: whatever the
precompile does, the message is sent if and only if the call with these bytes
succeeds. -/
def Passes (keccak256 : Bytes → Bytes32) (s : Storage) (ctx : Context)
    (destinationChainId : Uint256) (payload data : Bytes) : Prop :=
  ∀ (near : CrossContract) (gasLimit : Uint256),
    (∃ r, sendMessage keccak256 ctx near destinationChainId payload gasLimit s = .ok r)
      ↔ near.call gasLimit data = true

variable {keccak256 : Bytes → Bytes32} {s : Storage} {ctx : Context}
  {destinationChainId : Uint256} {payload data : Bytes}

/-- A call with a text is what a registered chain gets. -/
theorem passes_of_callData (hreg : s.chainToNearAccount destinationChainId ≠ [])
    (h : callData (s.chainToNearAccount destinationChainId) ctx.chainId ctx.sender payload
      = .ok data) : Passes keccak256 s ctx destinationChainId payload data := by
  intro near gasLimit
  have hlen : ¬ (s.chainToNearAccount destinationChainId).length = 0 := fun h0 =>
    hreg (List.eq_nil_of_length_eq_zero h0)
  unfold sendMessage
  dsimp only
  rw [revertIf_bind_of_neg hlen, h, Except.ok_bind]
  cases hcall : near.call gasLimit data with
  | true =>
    rw [revertIf_bind_of_neg (fun h => Bool.false_ne_true h.symm)]
    exact iff_of_true ⟨_, rfl⟩ rfl
  | false =>
    rw [revertIf_bind_of_pos rfl]
    exact iff_of_false (fun ⟨_, h⟩ => nomatch h) Bool.false_ne_true

/-- There are no two texts the precompile is given, … -/
theorem Passes.unique {data' : Bytes} (h : Passes keccak256 s ctx destinationChainId payload data)
    (h' : Passes keccak256 s ctx destinationChainId payload data') : data = data' := by
  have hcall := (h' ⟨fun _ d => decide (d = data)⟩ 0).mp
    ((h ⟨fun _ d => decide (d = data)⟩ 0).mpr (decide_eq_true rfl))
  exact (of_decide_eq_true hcall).symm

/-- … and a chain that is not registered gets none. -/
theorem Passes.registered (h : Passes keccak256 s ctx destinationChainId payload data) :
    s.chainToNearAccount destinationChainId ≠ [] := by
  intro h0
  obtain ⟨r, hr⟩ := (h ⟨fun _ _ => true⟩ 0).mpr rfl
  obtain ⟨hlen, -⟩ := (revertIf_bind_eq_ok _ _ _ _).mp hr
  exact hlen (by rw [h0, List.length_nil])

/-- **Calls to Near are unambiguous.** For each registered account – with or
without a brace – the precompile is given one text. It is read back as the
account, the chain, the sender and the payload, so two messages with the same
text have these in common. Its parts are read back on their own as well: the
number, and the bytes of the address and of the payload; and the code on words
writes them, with no panic and in so many rounds. -/
theorem sendMessage_unambiguous (keccak256 : Bytes → Bytes32) (s : Storage) (ctx : Context)
    (destinationChainId : Uint256) (payload : Bytes)
    (hreg : s.chainToNearAccount destinationChainId ≠ []) :
    (∃ data, Passes keccak256 s ctx destinationChainId payload data
      ∧ decodeCall data = some ⟨s.chainToNearAccount destinationChainId, ctx.chainId, ctx.sender,
          payload⟩
      ∧ ∀ s' ctx' destinationChainId' payload',
          Passes keccak256 s' ctx' destinationChainId' payload' data →
          s'.chainToNearAccount destinationChainId' = s.chainToNearAccount destinationChainId
            ∧ ctx'.chainId = ctx.chainId ∧ ctx'.sender = ctx.sender ∧ payload' = payload)
    ∧ (∃ digits, uintToString ctx.chainId = .ok digits
        ∧ decimalValue digits = ctx.chainId.toNat
        ∧ ∀ fuel, 78 ≤ fuel → uintToStringWord fuel ctx.chainId = .ok digits)
    ∧ (hexDecode ((addressToString ctx.sender).drop 2) = some ctx.sender.toBytes
        ∧ ∀ fuel, 20 ≤ fuel →
            addressToStringWord fuel ctx.sender = .ok (addressToString ctx.sender))
    ∧ (hexDecode (bytesToHex payload) = some payload
        ∧ (2 * payload.length < 2 ^ 256 → ∀ fuel, payload.length ≤ fuel →
            bytesToHexWord fuel payload = .ok (bytesToHex payload))) := by
  have haddress : addressToString ctx.sender = ascii "0x" ++ hexEncode ctx.sender.toBytes := by
    rw [addressToString, bytesToHex_eq]
  refine ⟨?_, ⟨_, uintToString_eq ctx.chainId, decimalValue_decimal _, fun fuel hfuel =>
    uintToStringWord_eq ctx.chainId hfuel⟩, ⟨?_, fun fuel hfuel => ?_⟩, ?_,
    fun hword fuel hfuel => ?_⟩
  · obtain ⟨data, hdata⟩ : ∃ data, callData (s.chainToNearAccount destinationChainId) ctx.chainId
        ctx.sender payload = .ok data := ⟨_, callData_eq _ _ _ _⟩
    refine ⟨data, passes_of_callData hreg hdata, decodeCall_callData hdata, ?_⟩
    intro s' ctx' destinationChainId' payload' h'
    have hdata' := callData_eq (s'.chainToNearAccount destinationChainId') ctx'.chainId
      ctx'.sender payload'
    have hsame := (passes_of_callData h'.registered hdata').unique h'
    have hcall := (decodeCall_callData hdata').symm.trans
      ((congrArg decodeCall hsame).trans (decodeCall_callData hdata))
    exact Call.mk.inj (Option.some.inj hcall)
  · rw [haddress, List.drop_left' (show (ascii "0x").length = 2 from rfl)]
    exact hexDecode_hexEncode _
  · rw [haddress]
    exact addressToStringWord_eq ctx.sender hfuel
  · rw [bytesToHex_eq]
    exact hexDecode_hexEncode payload
  · rw [bytesToHex_eq]
    exact bytesToHexWord_eq hword hfuel

/-- Two bytes sent to an account. -/
theorem sendMessage_unambiguous_bridge :
    ∃ data, Passes (fun _ => 0) { construct 1 with chainToNearAccount := fun _ => ascii "bridge" }
        ⟨2, 7, 1313161554⟩ 397 [1, 2] data
      ∧ decodeCall data = some ⟨ascii "bridge", 1313161554, 2, [1, 2]⟩ := by
  obtain ⟨⟨data, hpasses, hcall, -⟩, -⟩ :=
    sendMessage_unambiguous (fun _ => 0)
      { construct 1 with chainToNearAccount := fun _ => ascii "bridge" } ⟨2, 7, 1313161554⟩ 397
      [1, 2] (by decide)
  exact ⟨data, hpasses, hcall⟩

end AuroraRainbowAdapter
