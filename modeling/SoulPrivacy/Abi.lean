import SoulPrivacy.BigEndian
import SoulPrivacy.Solidity

/-!
# Encodings of arguments

`abi.encodePacked` puts the bytes of its arguments one after the other.
Words and addresses have a fixed width, so what follows them can be told
from them.

`abi.encode` takes a word for each argument. Here it is only used with one
`bytes` argument, the last one: its word is the place where its length and
its content follow. `abi.decode` finds it there, and reads back what was
encoded (`decodeAddressBytes_encode`).
-/

/-! ## Words and addresses -/

namespace Bytes32

/-- The bytes of a word. -/
theorem toBytes_eq_beBytes (w : Bytes32) : toBytes w = beBytes 32 w.toNat := by
  unfold toBytes
  rw [beBytes_eq_map]
  refine List.map_congr_left (fun i _ => BitVec.eq_of_toNat_eq ?_)
  have hpow : 2 ^ (8 * (31 - i)) = 256 ^ (32 - 1 - i) := by
    rw [pow_mul]
    rfl
  rw [BitVec.extractLsb'_toNat, BitVec.toNat_ofNat, Nat.shiftRight_eq_div_pow, hpow]

@[simp] theorem length_toBytes (w : Bytes32) : (toBytes w).length = 32 := by
  rw [toBytes_eq_beBytes, length_beBytes]

theorem toBytes_inj {v w : Bytes32} : toBytes v = toBytes w ↔ v = w := by
  refine ⟨fun h => ?_, congrArg _⟩
  rw [toBytes_eq_beBytes, toBytes_eq_beBytes] at h
  exact beBytes_toNat_inj le_rfl h

/-- The first field of what follows. -/
theorem toBytes_append_inj {v w : Bytes32} {a b : Bytes} :
    toBytes v ++ a = toBytes w ++ b ↔ v = w ∧ a = b := by
  constructor
  · intro h
    obtain ⟨hw, hrest⟩ := List.append_inj h (by rw [length_toBytes, length_toBytes])
    exact ⟨toBytes_inj.mp hw, hrest⟩
  · rintro ⟨rfl, rfl⟩
    rfl

/-- Only the zero word has no byte but zero. -/
theorem exists_byte_ne_zero {w : Bytes32} (h : w ≠ 0) : ∃ b ∈ toBytes w, b ≠ 0 := by
  by_contra hall
  have hzero : ∀ b ∈ toBytes w, b = 0 := fun b hb =>
    not_not.mp (fun hne => hall ⟨b, hb, hne⟩)
  have hrep := List.eq_replicate_of_mem hzero
  rw [length_toBytes] at hrep
  exact h (toBytes_inj.mp (hrep.trans (by decide)))

end Bytes32

namespace Address

/-- The bytes of an address, as `abi.encodePacked` has them. -/
def toBytes (a : Address) : Bytes := beBytes 20 a.toNat

/-- The word of an address, as `abi.encode` has it. -/
def toWord (a : Address) : Uint256 := a.setWidth 256

@[simp] theorem length_toBytes (a : Address) : (toBytes a).length = 20 :=
  length_beBytes 20 a.toNat

theorem toNat_toWord (a : Address) : (toWord a).toNat = a.toNat := by
  unfold toWord
  exact BitVec.toNat_setWidth_of_le (by decide)

theorem toBytes_append_inj {a b : Address} {x y : Bytes} :
    toBytes a ++ x = toBytes b ++ y ↔ a = b ∧ x = y := by
  constructor
  · intro h
    obtain ⟨ha, hrest⟩ := List.append_inj h (by rw [length_toBytes, length_toBytes])
    exact ⟨beBytes_toNat_inj le_rfl ha, hrest⟩
  · rintro ⟨rfl, rfl⟩
    rfl

end Address

/-- The bytes of an ASCII text. -/
def ascii (text : String) : Bytes := text.toList.map (fun c => BitVec.ofNat 8 c.toNat)

/-! ## `abi.encode` -/

namespace Abi

/-- The zeros that fill the last word of a `bytes` argument. -/
def padding (length : ℕ) : Bytes := List.replicate ((32 - length % 32) % 32) 0

/-- **`abi.encode` of some words and a `bytes`.** The head has a word for
each argument, the last of which is the length of the head. -/
def encode (words : List Uint256) (payload : Bytes) : Bytes :=
  words.flatMap Bytes32.toBytes ++ beBytes 32 (32 * (words.length + 1))
    ++ beBytes 32 payload.length ++ payload ++ padding payload.length

/-- **The tail of a `bytes` argument** – its length, its content and the zeros
that fill the last word – tells the argument, however long it is. -/
theorem tail_inj {a b : Bytes}
    (h : beBytes 32 a.length ++ (a ++ padding a.length)
      = beBytes 32 b.length ++ (b ++ padding b.length)) : a = b := by
  obtain ⟨hword, hrest⟩ := List.append_inj h (by rw [length_beBytes, length_beBytes])
  have hmod := congrArg beNat hword
  rw [beNat_beBytes, beNat_beBytes] at hmod
  have htotal := congrArg List.length hrest
  simp only [List.length_append, padding, List.length_replicate] at htotal
  -- the lengths differ by less than a word, and agree modulo `256 ^ 32`
  have hlen : a.length = b.length := by omega
  exact (List.append_inj hrest hlen).1

/-- The word at a place. -/
def readWord (data : Bytes) (offset : ℕ) : ℕ := beNat ((data.drop offset).take 32)

/-- **`abi.decode(data, (address, bytes))`.** It reverts when a word is no
address, or when a place or a length leads out of the data. -/
def decodeAddressBytes (data : Bytes) : Option (Address × Bytes) :=
  let word := readWord data 0
  let offset := readWord data 32
  let length := readWord data offset
  if 64 ≤ data.length ∧ word < 2 ^ 160 ∧ offset < 2 ^ 64 ∧ offset + 32 ≤ data.length
      ∧ length < 2 ^ 64 ∧ offset + 32 + length ≤ data.length then
    some (BitVec.ofNat 160 word, (data.drop (offset + 32)).take length)
  else none

/-- A word after some data. -/
theorem readWord_append (front rest : Bytes) {n : ℕ} (hn : n < 256 ^ 32) :
    readWord (front ++ (beBytes 32 n ++ rest)) front.length = n := by
  unfold readWord
  rw [List.drop_left, List.take_left' (length_beBytes 32 n), beNat_beBytes,
    Nat.mod_eq_of_lt hn]

/-- An encoded address and `bytes`, field by field. -/
theorem encode_address (a : Address) (payload : Bytes) :
    encode [a.toWord] payload
      = beBytes 32 a.toNat ++ (beBytes 32 64 ++ (beBytes 32 payload.length
          ++ (payload ++ padding payload.length))) := by
  unfold encode
  rw [List.flatMap_singleton, Bytes32.toBytes_eq_beBytes, Address.toNat_toWord]
  simp only [List.append_assoc, List.length_singleton]

/-- **What was encoded is read back.** -/
theorem decodeAddressBytes_encode (a : Address) {payload : Bytes}
    (hlen : payload.length < 2 ^ 64) :
    decodeAddressBytes (encode [a.toWord] payload) = some (a, payload) := by
  have hpow : 2 ^ 64 ≤ 256 ^ 32 := by decide
  rw [encode_address]
  -- the words by name, since their bytes play no part
  generalize hw : beBytes 32 a.toNat = word
  generalize ho : beBytes 32 64 = offset
  generalize hl : beBytes 32 payload.length = length
  have hwlen : word.length = 32 := hw ▸ length_beBytes 32 _
  have holen : (word ++ offset).length = 64 := by
    rw [List.length_append, hwlen, ← ho, length_beBytes]
  have hllen : (word ++ offset ++ length).length = 96 := by
    rw [List.length_append, holen, ← hl, length_beBytes]
  have hdata : word ++ (offset ++ (length ++ (payload ++ padding payload.length)))
      = word ++ offset ++ length ++ (payload ++ padding payload.length) := by
    simp only [List.append_assoc]
  have hword := readWord_append [] (offset ++ (length ++ (payload
    ++ padding payload.length))) (a.isLt.trans_le (show 2 ^ 160 ≤ 256 ^ 32 by decide))
  have hoffset := readWord_append word (length ++ (payload ++ padding payload.length))
    (show 64 < 256 ^ 32 by decide)
  have hlength := readWord_append (word ++ offset) (payload ++ padding payload.length)
    (hlen.trans_le hpow)
  rw [List.nil_append, List.length_nil, hw] at hword
  rw [ho, hwlen] at hoffset
  rw [hl, holen, List.append_assoc] at hlength
  have hsize : (word ++ (offset ++ (length ++ (payload ++ padding payload.length)))).length
      = 96 + payload.length + (padding payload.length).length := by
    rw [hdata, List.length_append, hllen, List.length_append, Nat.add_assoc]
  have hrest : ((word ++ (offset ++ (length ++ (payload
      ++ padding payload.length)))).drop (64 + 32)).take payload.length = payload := by
    rw [hdata, List.drop_left' hllen, List.take_left]
  unfold decodeAddressBytes
  simp only [hword, hoffset, hlength, hrest, hsize]
  rw [if_pos ⟨by omega, a.isLt, by decide, by omega, hlen, by omega⟩, BitVec.ofNat_toNat,
    BitVec.setWidth_eq]

end Abi
