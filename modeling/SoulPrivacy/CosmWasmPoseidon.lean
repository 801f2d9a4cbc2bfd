import SoulPrivacy.Abi
import SoulPrivacy.HexWords
import SoulPrivacy.Poseidon

/-!
# The Poseidon hash of the CosmWasm pool (`poseidon.rs`)

The hash takes two texts and returns one. It computes on the wide integers of
`cosmwasm_std`. What panics is `none`: the parsing of the texts
(`hexTo32`), and the conversions back to 256 bits, which never do.

The parser reads 32 slices of two bytes. Of a text of 64 digits it reads the
word (`hexTo32_of_isHex64`); but it looks at the first 64 bytes only, and
takes a sign in front of a digit.
-/

namespace CosmWasmPoseidon

open RustString

/-! ## Parsing -/

/-- `hex_to_32`. -/
def hexTo32 (s : String) : Option Bytes :=
  (List.range 32).mapM
    (fun i => (slice s.toList (i * 2) (i * 2 + 2)).bind u8FromStrRadix16)

/-- `Uint256::from_be_bytes`. -/
def fromBeBytes (bytes : Bytes) : Uint256 := BitVec.ofNat 256 (beNat bytes)

/-- `rc_from_hex`. -/
def rcFromHex (s : String) : Option Uint256 := (hexTo32 s).map fromBeBytes

/-! ## Field arithmetic -/

/-- `Uint512`. -/
abbrev Uint512 := BitVec 512

/-- `Uint512::from`. -/
def Uint512.ofUint256 (a : Uint256) : Uint512 := a.setWidth 512

/-- `Uint256::try_from(_).unwrap()`. -/
def tryFrom (x : Uint512) : Option Uint256 :=
  if x.toNat < 2 ^ 256 then some (x.setWidth 256) else none

/-- `BN254_P_BYTES`. -/
def BN254_P_BYTES : Bytes :=
  [0x30, 0x64, 0x4e, 0x72, 0xe1, 0x31, 0xa0, 0x29, 0xb8, 0x50, 0x45,
    0xb6, 0x81, 0x81, 0x58, 0x5d, 0x28, 0x33, 0xe8, 0x48, 0x79, 0xb9,
    0x70, 0x91, 0x43, 0xe1, 0xf5, 0x93, 0xf0, 0x00, 0x00, 0x01]

/-- `p`. -/
def p : Uint256 := fromBeBytes BN254_P_BYTES

/-- `addmod`. The sum of two `Uint256` fits into a `Uint512`. -/
def addmod (a b : Uint256) : Option Uint256 :=
  let pVal := p
  let sum := Uint512.ofUint256 a + Uint512.ofUint256 b
  let r := sum % Uint512.ofUint256 pVal
  tryFrom r

/-- `mulmod`. -/
def mulmod (a b : Uint256) : Option Uint256 :=
  let pVal := p
  let prod := (Uint512.ofUint256 a * Uint512.ofUint256 b) % Uint512.ofUint256 pVal
  tryFrom prod

/-- `sbox`. -/
def sbox (x : Uint256) : Option Uint256 := do
  let x2 ← mulmod x x
  let x4 ← mulmod x2 x2
  mulmod x4 x

/-- The entries of the matrix, `mds00` to `mds22`. -/
def mdsMatrix : Poseidon.State (Poseidon.State String) :=
  ⟨⟨"109b7f411ba0e4c9b2b70caf5c36a7b194be7c11ad24378bfedb68592ba8118b",
      "2969f27eed31a480b9c36c764379dbca2cc8fdd1415c3dded62940bcde0bd771",
      "143021ec686a3f330d5f9e654638065ce6cd79e28c5b3753326244ee65a1b1a7"⟩,
    ⟨"16ed41e13bb9c0c66ae119424fddbcbc9314dc9fdbdeea55d6c64543dc4903e0",
      "2e2419f9ec02ec394c9871c832963dc1b89d743c8c7b964029b2311687b1fe23",
      "176cc029695ad02582a70eff08a6fd99d057e12e58e7d7b6b16cdfabc8ee2911"⟩,
    ⟨"2b90bba00fca0589f617e7dcbfe82e0df706ab640ceb247b791a93b74e36736d",
      "101071f0032379b697315571086d26850e39a080c3a3118b11aced26d3de9c1a",
      "19a3fc0a56702bf417ba7fee3802593fa644470307043f7773e0e01e2680fb05"⟩⟩

/-- A row of the matrix, applied to the state. -/
def mdsRow (r : Poseidon.State String) (state : Poseidon.State Uint256) : Option Uint256 := do
  let a ← mulmod (← rcFromHex r.s0) state.s0
  let b ← mulmod (← rcFromHex r.s1) state.s1
  let c ← mulmod (← rcFromHex r.s2) state.s2
  addmod (← addmod a b) c

/-- `mds`. -/
def mds (state : Poseidon.State Uint256) : Option (Poseidon.State Uint256) := do
  let r0 ← mdsRow mdsMatrix.s0 state
  let r1 ← mdsRow mdsMatrix.s1 state
  let r2 ← mdsRow mdsMatrix.s2 state
  some ⟨r0, r1, r2⟩

/-! ## The permutation -/

/-- `FULL_RC_FIRST`. -/
def FULL_RC_FIRST : List (Poseidon.State String) :=
  [⟨"0ee9a592ba9a9518d05986d656f40c2114c4993c11bb29571f29d4ac50a4b6b1",
      "00f1445235f2148c5986587169fc1bcd887b08d4d00868df5696fff40956e864",
      "08dff3487e8ac99e1f29a058d0fa80b930c728730b7ab36ce879f3890ecf73f5"⟩,
    ⟨"2f27be690fdaee46c3ce28f7532b13c856c35342c84bda6e20966310fadc01d0",
      "2b2ae1acf68b7b8d2416571a5e5d76ab4fe18b07f2a6f63f63f7c8b0d12e0aab",
      "0d4c5de80775b15580ae0631da32c4bbfecb5b0fa26ce7cd2c4f36a12d5a0a29"⟩,
    ⟨"1a5b6e41af31d9e7742f12d70a77ff91cae77d594a4e80d0bb8cc247920a4b6a",
      "30644e72e131a029b85045b68181585d97816a916871ca8d3c208c16d87cfd15",
      "061b11060fcc69d16e44e0e23b1b3c2e5db7e7536e1e8ca83a8b3b41e6c0259c"⟩,
    ⟨"197e89ac09ad23a3c76a7f3f27c5bb90aa9e2dcf4d3f8837be7dfd637ee9fee6",
      "103e21d1e80efa38c8e89b02cef75a4942a1e67fdf10b0dd4f1a7a0c9bf62037",
      "0e0c82b0b71c1bcdf5283e8e5b6683a68b0e79f93ca9faba7f67854de6a2b59d"⟩]

/-- `PARTIAL_RC`. -/
def PARTIAL_RC : List String :=
  ["2c4c5de8b4f2a1e3d7b9c6f0a5e8d3c1b4f7a2e6d9c3b8f1a5e2d7c4b9f6a3e0",
    "1a3b5c7d9e0f2a4b6c8d0e1f3a5b7c9d1e3f5a7b9c1d3e5f7a9b1c3d5e7f9a1b",
    "0e1d2c3b4a5f6e7d8c9b0a1f2e3d4c5b6a7f8e9d0c1b2a3f4e5d6c7b8a9f0e1d",
    "1f0e2d3c4b5a6f7e8d9c0b1a2f3e4d5c6b7a8f9e0d1c2b3a4f5e6d7c8b9a0f1e",
    "2a1b3c4d5e6f7a8b9c0d1e2f3a4b5c6d7e8f9a0b1c2d3e4f5a6b7c8d9e0f1a2b",
    "0b2c3d4e5f6a7b8c9d0e1f2a3b4c5d6e7f8a9b0c1d2e3f4a5b6c7d8e9f0a1b2c",
    "1c3d4e5f6a7b8c9d0e1f2a3b4c5d6e7f8a9b0c1d2e3f4a5b6c7d8e9f0a1b2c3d",
    "2d4e5f6a7b8c9d0e1f2a3b4c5d6e7f8a9b0c1d2e3f4a5b6c7d8e9f0a1b2c3d4e",
    "0e5f6a7b8c9d0e1f2a3b4c5d6e7f8a9b0c1d2e3f4a5b6c7d8e9f0a1b2c3d4e5f",
    "1f6a7b8c9d0e1f2a3b4c5d6e7f8a9b0c1d2e3f4a5b6c7d8e9f0a1b2c3d4e5f6a",
    "2a7b8c9d0e1f2a3b4c5d6e7f8a9b0c1d2e3f4a5b6c7d8e9f0a1b2c3d4e5f6a7b",
    "0b8c9d0e1f2a3b4c5d6e7f8a9b0c1d2e3f4a5b6c7d8e9f0a1b2c3d4e5f6a7b8c",
    "1c9d0e1f2a3b4c5d6e7f8a9b0c1d2e3f4a5b6c7d8e9f0a1b2c3d4e5f6a7b8c9d",
    "2d0e1f2a3b4c5d6e7f8a9b0c1d2e3f4a5b6c7d8e9f0a1b2c3d4e5f6a7b8c9d0e",
    "0e1f2a3b4c5d6e7f8a9b0c1d2e3f4a5b6c7d8e9f0a1b2c3d4e5f6a7b8c9d0e1f",
    "1f2a3b4c5d6e7f8a9b0c1d2e3f4a5b6c7d8e9f0a1b2c3d4e5f6a7b8c9d0e1f2a",
    "2a3b4c5d6e7f8a9b0c1d2e3f4a5b6c7d8e9f0a1b2c3d4e5f6a7b8c9d0e1f2a3b",
    "0b4c5d6e7f8a9b0c1d2e3f4a5b6c7d8e9f0a1b2c3d4e5f6a7b8c9d0e1f2a3b4c",
    "1c5d6e7f8a9b0c1d2e3f4a5b6c7d8e9f0a1b2c3d4e5f6a7b8c9d0e1f2a3b4c5d",
    "2d6e7f8a9b0c1d2e3f4a5b6c7d8e9f0a1b2c3d4e5f6a7b8c9d0e1f2a3b4c5d6e",
    "0e7f8a9b0c1d2e3f4a5b6c7d8e9f0a1b2c3d4e5f6a7b8c9d0e1f2a3b4c5d6e7f",
    "1f8a9b0c1d2e3f4a5b6c7d8e9f0a1b2c3d4e5f6a7b8c9d0e1f2a3b4c5d6e7f8a",
    "2a9b0c1d2e3f4a5b6c7d8e9f0a1b2c3d4e5f6a7b8c9d0e1f2a3b4c5d6e7f8a9b",
    "0b0c1d2e3f4a5b6c7d8e9f0a1b2c3d4e5f6a7b8c9d0e1f2a3b4c5d6e7f8a9b0c",
    "1c1d2e3f4a5b6c7d8e9f0a1b2c3d4e5f6a7b8c9d0e1f2a3b4c5d6e7f8a9b0c1d",
    "2d2e3f4a5b6c7d8e9f0a1b2c3d4e5f6a7b8c9d0e1f2a3b4c5d6e7f8a9b0c1d2e",
    "0e3f4a5b6c7d8e9f0a1b2c3d4e5f6a7b8c9d0e1f2a3b4c5d6e7f8a9b0c1d2e3f",
    "1f4a5b6c7d8e9f0a1b2c3d4e5f6a7b8c9d0e1f2a3b4c5d6e7f8a9b0c1d2e3f4a",
    "2a5b6c7d8e9f0a1b2c3d4e5f6a7b8c9d0e1f2a3b4c5d6e7f8a9b0c1d2e3f4a5b",
    "0b6c7d8e9f0a1b2c3d4e5f6a7b8c9d0e1f2a3b4c5d6e7f8a9b0c1d2e3f4a5b6c",
    "1c7d8e9f0a1b2c3d4e5f6a7b8c9d0e1f2a3b4c5d6e7f8a9b0c1d2e3f4a5b6c7d",
    "2d8e9f0a1b2c3d4e5f6a7b8c9d0e1f2a3b4c5d6e7f8a9b0c1d2e3f4a5b6c7d8e",
    "0e9f0a1b2c3d4e5f6a7b8c9d0e1f2a3b4c5d6e7f8a9b0c1d2e3f4a5b6c7d8e9f",
    "1f0a1b2c3d4e5f6a7b8c9d0e1f2a3b4c5d6e7f8a9b0c1d2e3f4a5b6c7d8e9f0a",
    "2a1b2c3d4e5f6a7b8c9d0e1f2a3b4c5d6e7f8a9b0c1d2e3f4a5b6c7d8e9f0a1b",
    "0b2c3d4e5f6a7b8c9d0e1f2a3b4c5d6e7f8a9b0c1d2e3f4a5b6c7d8e9f0a1b2c",
    "1c3d4e5f6a7b8c9d0e1f2a3b4c5d6e7f8a9b0c1d2e3f4a5b6c7d8e9f0a1b2c3d",
    "2d4e5f6a7b8c9d0e1f2a3b4c5d6e7f8a9b0c1d2e3f4a5b6c7d8e9f0a1b2c3d4e",
    "0e5f6a7b8c9d0e1f2a3b4c5d6e7f8a9b0c1d2e3f4a5b6c7d8e9f0a1b2c3d4e5f",
    "1f6a7b8c9d0e1f2a3b4c5d6e7f8a9b0c1d2e3f4a5b6c7d8e9f0a1b2c3d4e5f6a",
    "2a7b8c9d0e1f2a3b4c5d6e7f8a9b0c1d2e3f4a5b6c7d8e9f0a1b2c3d4e5f6a7b",
    "0b8c9d0e1f2a3b4c5d6e7f8a9b0c1d2e3f4a5b6c7d8e9f0a1b2c3d4e5f6a7b8c",
    "1c9d0e1f2a3b4c5d6e7f8a9b0c1d2e3f4a5b6c7d8e9f0a1b2c3d4e5f6a7b8c9d",
    "2d0e1f2a3b4c5d6e7f8a9b0c1d2e3f4a5b6c7d8e9f0a1b2c3d4e5f6a7b8c9d0e",
    "0e1f2a3b4c5d6e7f8a9b0c1d2e3f4a5b6c7d8e9f0a1b2c3d4e5f6a7b8c9d0e1e",
    "1f2a3b4c5d6e7f8a9b0c1d2e3f4a5b6c7d8e9f0a1b2c3d4e5f6a7b8c9d0e1f29",
    "2a3b4c5d6e7f8a9b0c1d2e3f4a5b6c7d8e9f0a1b2c3d4e5f6a7b8c9d0e1f2a3a",
    "0b4c5d6e7f8a9b0c1d2e3f4a5b6c7d8e9f0a1b2c3d4e5f6a7b8c9d0e1f2a3b4b",
    "1c5d6e7f8a9b0c1d2e3f4a5b6c7d8e9f0a1b2c3d4e5f6a7b8c9d0e1f2a3b4c5c",
    "2d6e7f8a9b0c1d2e3f4a5b6c7d8e9f0a1b2c3d4e5f6a7b8c9d0e1f2a3b4c5d6d",
    "0e7f8a9b0c1d2e3f4a5b6c7d8e9f0a1b2c3d4e5f6a7b8c9d0e1f2a3b4c5d6e7e",
    "1f8a9b0c1d2e3f4a5b6c7d8e9f0a1b2c3d4e5f6a7b8c9d0e1f2a3b4c5d6e7f8f",
    "2a9b0c1d2e3f4a5b6c7d8e9f0a1b2c3d4e5f6a7b8c9d0e1f2a3b4c5d6e7f8a90",
    "0b0c1d2e3f4a5b6c7d8e9f0a1b2c3d4e5f6a7b8c9d0e1f2a3b4c5d6e7f8a9b01",
    "1c1d2e3f4a5b6c7d8e9f0a1b2c3d4e5f6a7b8c9d0e1f2a3b4c5d6e7f8a9b0c12",
    "2d2e3f4a5b6c7d8e9f0a1b2c3d4e5f6a7b8c9d0e1f2a3b4c5d6e7f8a9b0c1d23",
    "0e3f4a5b6c7d8e9f0a1b2c3d4e5f6a7b8c9d0e1f2a3b4c5d6e7f8a9b0c1d2e34"]

/-- `FULL_RC_LAST`. -/
def FULL_RC_LAST : List (Poseidon.State String) :=
  [⟨"2a3c4b4e8a85c73ab72f434436ac13b24e72e9c3affa7d9a1ae3f9437bec1a30",
      "14c462ddcd20ee7270b568f6fa18de39b20a3e5e9e113a5dbaf06e3ac3740e87",
      "2ed5f0c2e5c21db56ded40ab1dfc01c00015b42de8eac7b02bf4369aa67cdef3"⟩,
    ⟨"1db77fd6dc7e6ecd8bb6beb7e0f4ac2e63756cd0caa6f1ce3bddd41ecb8a7f4b",
      "12b16a15f89fbb8b44b7dc1f3c4e26f7632d74f5ec4680ec40acf1a0cc4a3564",
      "26c7b01d4cf0a0466c85e06929d38c9af224ed7e0e3a40e08c5b96eb1ad9a0f3"⟩,
    ⟨"0eedab92c2ecc86f52cc18c3cac2fd7e5a3ce5c5e38ad481a0b2c214f2d5a47c",
      "23e5cd4b30fb42e4c2e86143fbe3de7ed95d8f9a459e2c2d3ad7b9bea651c7d7",
      "02b4a3ef3e127d9af8f3a8dd6547ddbff086e64d6db62cf6fb674e7a9f8e7be3"⟩,
    ⟨"1eb9b4e7e3c75b1f9e4c2ed4b7f0ced37c0aef3db4a1d7e5b3c0f38a6c12d045",
      "2d8a2c4c2e5f67c1b0d89a34e5fc7db3a4c5b6e2f1a3d9e8b7c5a6f3d1e2b4a8",
      "0f3e29c4b7a8d1e5f2c6b3a9d8e7f5c4b1a6d3e2f9c8b7a5d4e3f1c2b6a9d8e7"⟩]

/-- `full_round`. -/
def fullRound (state : Poseidon.State Uint256) (rc : Poseidon.State String) :
    Option (Poseidon.State Uint256) := do
  let s0 ← sbox (← addmod state.s0 (← rcFromHex rc.s0))
  let s1 ← sbox (← addmod state.s1 (← rcFromHex rc.s1))
  let s2 ← sbox (← addmod state.s2 (← rcFromHex rc.s2))
  mds ⟨s0, s1, s2⟩

/-- The body of the loop of the partial rounds. -/
def partialRound (state : Poseidon.State Uint256) (rcHex : String) :
    Option (Poseidon.State Uint256) := do
  let s0 ← sbox (← addmod state.s0 (← rcFromHex rcHex))
  mds { state with s0 := s0 }

/-- `permute`. -/
def permute (state : Poseidon.State Uint256) : Option (Poseidon.State Uint256) := do
  let state ← FULL_RC_FIRST.foldlM fullRound state
  let state ← PARTIAL_RC.foldlM partialRound state
  FULL_RC_LAST.foldlM fullRound state

/-- **`poseidon_hash_hex`.** -/
def poseidonHashHex (left right : String) : Option String := do
  let leftBytes ← hexTo32 left
  let rightBytes ← hexTo32 right
  let pVal := p
  let l := fromBeBytes leftBytes % pVal
  let r := fromBeBytes rightBytes % pVal
  let state ← permute ⟨0, l, r⟩
  some (Bytes32.toHex state.s0)

/-- A hash of words, on texts: both are read, and the digits of the hash are
written. -/
def hashHex (hash : Uint256 → Uint256 → Uint256) (left right : String) : Option String := do
  let leftBytes ← hexTo32 left
  let rightBytes ← hexTo32 right
  some (Bytes32.toHex (hash (fromBeBytes leftBytes) (fromBeBytes rightBytes)))

/-! ## Texts of 64 digits -/

/-- The bytes that digits are, two by two. -/
def pairBytes : List Char → Bytes
  | c :: d :: cs => BitVec.ofNat 8 (16 * digitValue c + digitValue d) :: pairBytes cs
  | _ => []

/-- A text of some more pairs has two characters in front. -/
theorem exists_eq_cons_cons {cs : List Char} {n : ℕ} (hlen : cs.length = (n + 1) * 2) :
    ∃ c d rest, cs = c :: d :: rest ∧ rest.length = n * 2 := by
  match cs, hlen with
  | [], hlen => exact absurd hlen (by rw [List.length_nil]; omega)
  | [_], hlen => exact absurd hlen (by rw [List.length_singleton]; omega)
  | c :: d :: rest, hlen =>
    refine ⟨c, d, rest, rfl, ?_⟩
    rw [List.length_cons, List.length_cons] at hlen
    omega

/-- The slices of two bytes, read one after the other. -/
theorem mapM_slices {cs : List Char} {n : ℕ} (hlen : cs.length = n * 2) (hcs : IsHex cs) :
    (List.range n).mapM (fun i => (slice cs (i * 2) (i * 2 + 2)).bind u8FromStrRadix16)
      = some (pairBytes cs) := by
  induction n generalizing cs with
  | zero =>
    obtain rfl := List.length_eq_zero_iff.mp (hlen.trans (Nat.zero_mul 2))
    rfl
  | succ n ih =>
    obtain ⟨c, d, rest, rfl, hrest⟩ := exists_eq_cons_cons hlen
    have hc := hexDigit_eq_digitValue (hcs c (by simp))
    have hd := hexDigit_eq_digitValue (hcs d (by simp))
    have hc1 := utf8Size_of_hexDigit hc
    have hd1 := utf8Size_of_hexDigit hd
    have hshift : ∀ i, slice (c :: d :: rest) ((i + 1) * 2) ((i + 1) * 2 + 2)
        = slice rest (i * 2) (i * 2 + 2) := by
      intro i
      rw [Nat.succ_mul]
      exact (slice_cons hc1 _ _ _).trans (slice_cons hd1 _ _ _)
    have hbytes := ih hrest (fun x hx => hcs x (by simp [hx]))
    rw [List.range_succ_eq_map, List.mapM_cons, List.mapM_map]
    simp only [Function.comp_def, Nat.succ_eq_add_one, hshift, hbytes, Nat.zero_mul,
      Nat.zero_add, slice_two hc1 hd1, Option.bind_some, u8FromStrRadix16_digits hc hd]
    rfl

/-- The number of the bytes is the value of the digits. -/
theorem foldl_pairBytes {cs : List Char} {n : ℕ} (hlen : cs.length = n * 2) (acc : ℕ) :
    (pairBytes cs).foldl (fun n b => 256 * n + b.toNat) acc
      = cs.foldl (fun n c => 16 * n + digitValue c) acc := by
  induction n generalizing cs acc with
  | zero =>
    obtain rfl := List.length_eq_zero_iff.mp (hlen.trans (Nat.zero_mul 2))
    rfl
  | succ n ih =>
    obtain ⟨c, d, rest, rfl, hrest⟩ := exists_eq_cons_cons hlen
    have hc := digitValue_lt c
    have hd := digitValue_lt d
    have hbyte : (BitVec.ofNat 8 (16 * digitValue c + digitValue d)).toNat
        = 16 * digitValue c + digitValue d := by
      rw [BitVec.toNat_ofNat]
      omega
    rw [pairBytes, List.foldl_cons, List.foldl_cons, List.foldl_cons, hbyte, ih hrest]
    congr 1
    omega

/-- **A text of 64 digits is read as its word.** -/
theorem hexTo32_of_isHex64 {s : String} (h : IsHex64 s) :
    ∃ bytes, hexTo32 s = some bytes ∧ fromBeBytes bytes = hexWord s := by
  refine ⟨pairBytes s.toList, mapM_slices h.length_eq h.isHex, ?_⟩
  unfold fromBeBytes hexWord
  exact congrArg _ (foldl_pairBytes (n := 32) h.length_eq 0)

theorem rcFromHex_of_isHex64 {s : String} (h : IsHex64 s) :
    rcFromHex s = some (hexWord s) := by
  obtain ⟨bytes, hbytes, hword⟩ := hexTo32_of_isHex64 h
  unfold rcFromHex
  rw [hbytes, ← hword]
  rfl

end CosmWasmPoseidon
