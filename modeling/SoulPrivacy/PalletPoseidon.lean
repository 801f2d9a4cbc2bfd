import SoulPrivacy.Abi
import SoulPrivacy.HexWords
import SoulPrivacy.PalletVerifier
import SoulPrivacy.Poseidon

/-!
# The Poseidon hash of the pallet (`pallets/privacy-pool/src/lib.rs`)

The pallet computes on the wide integers of `sp_core`. A `U256` is built from
four limbs, the least significant first, and so is the modulus
(`BN254_MODULUS`): its four limbs are written in the opposite order, and are
those of another prime besides.

The round constants and the matrix are parsed from their digits, with zero
for what cannot be parsed.
-/

namespace PalletPoseidon

open RustString

/-! ## Wide integers -/

/-- `U256`. -/
abbrev U256 := BitVec 256

/-- `U512`. -/
abbrev U512 := BitVec 512

/-- `U256([l0, l1, l2, l3])`, the least significant limb first. -/
def U256.ofLimbs (l0 l1 l2 l3 : BitVec 64) : U256 := l3 ++ l2 ++ l1 ++ l0

/-- `x.0[i]` of a `U512`. -/
def U512.limb (x : U512) (i : ℕ) : BitVec 64 := x.extractLsb' (64 * i) 64

/-- `U512::from`. -/
def U512.ofU256 (a : U256) : U512 := a.setWidth 512

/-- `U256::from_big_endian`. -/
def U256.fromBigEndian (bytes : Bytes) : U256 := BitVec.ofNat 256 (beNat bytes)

/-- `U256::from_str_radix(_, 16)`. -/
def U256.fromStrRadix16 (s : String) : Option U256 :=
  if IsHex s.toList ∧ s.toList.length ≤ 64 then some (BitVec.ofNat 256 (hexValue s.toList))
  else none

/-- A constant, `U256::from_str_radix(_, 16).unwrap_or_default()`. -/
def hexConst (s : String) : U256 := (U256.fromStrRadix16 s).getD 0

/-! ## The hash -/

/-- `BN254_MODULUS`. -/
def BN254_MODULUS : U256 :=
  U256.ofLimbs 0x30644e72e131a029 0xb85045b68181585d 0x97816a916871ca8d 0x3c208c16d87cfd47

/-- `u256_addmod`. -/
def u256Addmod (a b m : U256) : U256 :=
  let a512 := U512.ofU256 a
  let b512 := U512.ofU256 b
  let m512 := U512.ofU256 m
  let result := (a512 + b512) % m512
  U256.ofLimbs (U512.limb result 0) (U512.limb result 1) (U512.limb result 2)
    (U512.limb result 3)

/-- `u256_mulmod`. -/
def u256Mulmod (a b m : U256) : U256 :=
  let a512 := U512.ofU256 a
  let b512 := U512.ofU256 b
  let m512 := U512.ofU256 m
  let result := (a512 * b512) % m512
  U256.ofLimbs (U512.limb result 0) (U512.limb result 1) (U512.limb result 2)
    (U512.limb result 3)

/-- `sbox`. -/
def sbox (x : U256) : U256 :=
  let m := BN254_MODULUS
  let x2 := u256Mulmod x x m
  let x4 := u256Mulmod x2 x2 m
  u256Mulmod x4 x m

/-- The matrix of `mds`, by rows. -/
def mdsMatrix : Poseidon.State (Poseidon.State U256) :=
  ⟨⟨hexConst "109b7f411ba0e4c9b2b70caf5c36a7b194be7c11ad24378bfedb68592ba8118b",
      hexConst "2969f27eed31a480b9c36c764379dbca2cc8fdd1415c3dded62940bcde0bd771",
      hexConst "143021ec686a3f330d5f9e654638065ce6cd79e28c5b3753326244ee65a1b1a7"⟩,
    ⟨hexConst "16ed41e13bb9c0c66ae119424fddbcbc9314dc9fdbdeea55d6c64543dc4903e0",
      hexConst "2e2419f9ec02ec394c9871c832963dc1b89d743c8c7b964029b2311687b1fe23",
      hexConst "176cc029695ad02582a70eff08a6fd99d057e12e58e7d7b6b16cdfabc8ee2911"⟩,
    ⟨hexConst "2b90bba00fca0589f617e7dcbfe82e0df706ab640ceb247b791a93b74e36736d",
      hexConst "101071f0032379b697315571086d26850e39a080c3a3118b11aced26d3de9c1a",
      hexConst "19a3fc0a56702bf417ba7fee3802593fa644470307043f7773e0e01e2680fb05"⟩⟩

/-- A row of the matrix, applied to the state. -/
def mdsRow (r state : Poseidon.State U256) : U256 :=
  let m := BN254_MODULUS
  u256Addmod (u256Addmod (u256Mulmod r.s0 state.s0 m) (u256Mulmod r.s1 state.s1 m) m)
    (u256Mulmod r.s2 state.s2 m) m

/-- `mds`. -/
def mds (state : Poseidon.State U256) : Poseidon.State U256 :=
  ⟨mdsRow mdsMatrix.s0 state, mdsRow mdsMatrix.s1 state, mdsRow mdsMatrix.s2 state⟩

/-- `full_rc_first`. -/
def fullRcFirst : List (Poseidon.State U256) :=
  [⟨hexConst "0ee9a592ba9a9518d05986d656f40c2114c4993c11bb29571f29d4ac50a4b6b1",
      hexConst "00f1445235f2148c5986587169fc1bcd887b08d4d00868df5696fff40956e864",
      hexConst "08dff3487e8ac99e1f29a058d0fa80b930c728730b7ab36ce879f3890ecf73f5"⟩,
    ⟨hexConst "2f27be690fdaee46c3ce28f7532b13c856c35342c84bda6e20966310fadc01d0",
      hexConst "2b2ae1acf68b7b8d2416571a5e5d76ab4fe18b07f2a6f63f63f7c8b0d12e0aab",
      hexConst "0d4c5de80775b15580ae0631da32c4bbfecb5b0fa26ce7cd2c4f36a12d5a0a29"⟩,
    ⟨hexConst "1a5b6e41af31d9e7742f12d70a77ff91cae77d594a4e80d0bb8cc247920a4b6a",
      hexConst "30644e72e131a029b85045b68181585d97816a916871ca8d3c208c16d87cfd15",
      hexConst "061b11060fcc69d16e44e0e23b1b3c2e5db7e7536e1e8ca83a8b3b41e6c0259c"⟩,
    ⟨hexConst "197e89ac09ad23a3c76a7f3f27c5bb90aa9e2dcf4d3f8837be7dfd637ee9fee6",
      hexConst "103e21d1e80efa38c8e89b02cef75a4942a1e67fdf10b0dd4f1a7a0c9bf62037",
      hexConst "0e0c82b0b71c1bcdf5283e8e5b6683a68b0e79f93ca9faba7f67854de6a2b59d"⟩]

/-- `partial_rc`. -/
def partialRc : List String :=
  ["2c4c5de8b4f2a1e3d7b9c6f0a5e8d3c1b4f7a2e6d9c3b8f1a5e2d7c4b9f6a3e0",
    "1a3b5c7d9e0f2a4b6c8d0e1f3a5b7c9d1e3f5a7b9c1d3e5f7a9b1c3d5e7f9a1b",
    "0e1d2c3b4a5f6e7d8c9b0a1f2e3d4c5b6a7f8e9d0c1b2a3f4e5d6c7b8a9f0e1d",
    "1f0e2d3c4b5a6f7e8d9c0b1a2f3e4d5c6b7a8f9e0d1c2b3a4f5e6d7c8b9a0f1e",
    "2a1b3c4d5e6f7a8b9c0d1e2f3a4b5c6d7e8f9a0b1c2d3e4f5a6b7c8d9e0f1a2b",
    "0b2c3d4e5f6a7b8c9d0e1f2a3b4c5d6e7f8a9b0c1d2e3f4a5b6c7d8e9f0a1b2c",
    "1c3d4e5f6a7b8c9d0e1f2a3b4c5d6e7f8a9b0c1d2e3f4a5b6c7d8e9f0a1b2c3d",
    "2d4e5f6a7b8c9d0e1f2a3b4c5d6e7f8a9b0c1d2e3f4a5b6c7d8e9f0a1b2c3d4e",
    "0e5f6a7b8c9d0e1f2a3b4c5d6e7f8a9b0c1d2e3f4a5b6c7d8e9f0a1b2c3d4e5f",
    "1f6a7b8c9d0e1f2a3b4c5d6e7f8a9b0c1d2e3f4a5b6c7d8e9f0a1b2c3d4e5f6a",
    "2a7b8c9d0e1f2a3b4c5d6e7f8a9b0c1d2e3f4a5b6c7d8e9f0a1b2c3d4e5f6a7b",
    "0b8c9d0e1f2a3b4c5d6e7f8a9b0c1d2e3f4a5b6c7d8e9f0a1b2c3d4e5f6a7b8c",
    "1c9d0e1f2a3b4c5d6e7f8a9b0c1d2e3f4a5b6c7d8e9f0a1b2c3d4e5f6a7b8c9d",
    "2d0e1f2a3b4c5d6e7f8a9b0c1d2e3f4a5b6c7d8e9f0a1b2c3d4e5f6a7b8c9d0e",
    "0e1f2a3b4c5d6e7f8a9b0c1d2e3f4a5b6c7d8e9f0a1b2c3d4e5f6a7b8c9d0e1f",
    "1f2a3b4c5d6e7f8a9b0c1d2e3f4a5b6c7d8e9f0a1b2c3d4e5f6a7b8c9d0e1f2a",
    "2a3b4c5d6e7f8a9b0c1d2e3f4a5b6c7d8e9f0a1b2c3d4e5f6a7b8c9d0e1f2a3b",
    "0b4c5d6e7f8a9b0c1d2e3f4a5b6c7d8e9f0a1b2c3d4e5f6a7b8c9d0e1f2a3b4c",
    "1c5d6e7f8a9b0c1d2e3f4a5b6c7d8e9f0a1b2c3d4e5f6a7b8c9d0e1f2a3b4c5d",
    "2d6e7f8a9b0c1d2e3f4a5b6c7d8e9f0a1b2c3d4e5f6a7b8c9d0e1f2a3b4c5d6e",
    "0e7f8a9b0c1d2e3f4a5b6c7d8e9f0a1b2c3d4e5f6a7b8c9d0e1f2a3b4c5d6e7f",
    "1f8a9b0c1d2e3f4a5b6c7d8e9f0a1b2c3d4e5f6a7b8c9d0e1f2a3b4c5d6e7f8a",
    "2a9b0c1d2e3f4a5b6c7d8e9f0a1b2c3d4e5f6a7b8c9d0e1f2a3b4c5d6e7f8a9b",
    "0b0c1d2e3f4a5b6c7d8e9f0a1b2c3d4e5f6a7b8c9d0e1f2a3b4c5d6e7f8a9b0c",
    "1c1d2e3f4a5b6c7d8e9f0a1b2c3d4e5f6a7b8c9d0e1f2a3b4c5d6e7f8a9b0c1d",
    "2d2e3f4a5b6c7d8e9f0a1b2c3d4e5f6a7b8c9d0e1f2a3b4c5d6e7f8a9b0c1d2e",
    "0e3f4a5b6c7d8e9f0a1b2c3d4e5f6a7b8c9d0e1f2a3b4c5d6e7f8a9b0c1d2e3f",
    "1f4a5b6c7d8e9f0a1b2c3d4e5f6a7b8c9d0e1f2a3b4c5d6e7f8a9b0c1d2e3f4a",
    "2a5b6c7d8e9f0a1b2c3d4e5f6a7b8c9d0e1f2a3b4c5d6e7f8a9b0c1d2e3f4a5b",
    "0b6c7d8e9f0a1b2c3d4e5f6a7b8c9d0e1f2a3b4c5d6e7f8a9b0c1d2e3f4a5b6c",
    "1c7d8e9f0a1b2c3d4e5f6a7b8c9d0e1f2a3b4c5d6e7f8a9b0c1d2e3f4a5b6c7d",
    "2d8e9f0a1b2c3d4e5f6a7b8c9d0e1f2a3b4c5d6e7f8a9b0c1d2e3f4a5b6c7d8e",
    "0e9f0a1b2c3d4e5f6a7b8c9d0e1f2a3b4c5d6e7f8a9b0c1d2e3f4a5b6c7d8e9f",
    "1f0a1b2c3d4e5f6a7b8c9d0e1f2a3b4c5d6e7f8a9b0c1d2e3f4a5b6c7d8e9f0a",
    "2a1b2c3d4e5f6a7b8c9d0e1f2a3b4c5d6e7f8a9b0c1d2e3f4a5b6c7d8e9f0a1b",
    "0b2c3d4e5f6a7b8c9d0e1f2a3b4c5d6e7f8a9b0c1d2e3f4a5b6c7d8e9f0a1b2c",
    "1c3d4e5f6a7b8c9d0e1f2a3b4c5d6e7f8a9b0c1d2e3f4a5b6c7d8e9f0a1b2c3d",
    "2d4e5f6a7b8c9d0e1f2a3b4c5d6e7f8a9b0c1d2e3f4a5b6c7d8e9f0a1b2c3d4e",
    "0e5f6a7b8c9d0e1f2a3b4c5d6e7f8a9b0c1d2e3f4a5b6c7d8e9f0a1b2c3d4e5f",
    "1f6a7b8c9d0e1f2a3b4c5d6e7f8a9b0c1d2e3f4a5b6c7d8e9f0a1b2c3d4e5f6a",
    "2a7b8c9d0e1f2a3b4c5d6e7f8a9b0c1d2e3f4a5b6c7d8e9f0a1b2c3d4e5f6a7b",
    "0b8c9d0e1f2a3b4c5d6e7f8a9b0c1d2e3f4a5b6c7d8e9f0a1b2c3d4e5f6a7b8c",
    "1c9d0e1f2a3b4c5d6e7f8a9b0c1d2e3f4a5b6c7d8e9f0a1b2c3d4e5f6a7b8c9d",
    "2d0e1f2a3b4c5d6e7f8a9b0c1d2e3f4a5b6c7d8e9f0a1b2c3d4e5f6a7b8c9d0e",
    "0e1f2a3b4c5d6e7f8a9b0c1d2e3f4a5b6c7d8e9f0a1b2c3d4e5f6a7b8c9d0e1e",
    "1f2a3b4c5d6e7f8a9b0c1d2e3f4a5b6c7d8e9f0a1b2c3d4e5f6a7b8c9d0e1f29",
    "2a3b4c5d6e7f8a9b0c1d2e3f4a5b6c7d8e9f0a1b2c3d4e5f6a7b8c9d0e1f2a3a",
    "0b4c5d6e7f8a9b0c1d2e3f4a5b6c7d8e9f0a1b2c3d4e5f6a7b8c9d0e1f2a3b4b",
    "1c5d6e7f8a9b0c1d2e3f4a5b6c7d8e9f0a1b2c3d4e5f6a7b8c9d0e1f2a3b4c5c",
    "2d6e7f8a9b0c1d2e3f4a5b6c7d8e9f0a1b2c3d4e5f6a7b8c9d0e1f2a3b4c5d6d",
    "0e7f8a9b0c1d2e3f4a5b6c7d8e9f0a1b2c3d4e5f6a7b8c9d0e1f2a3b4c5d6e7e",
    "1f8a9b0c1d2e3f4a5b6c7d8e9f0a1b2c3d4e5f6a7b8c9d0e1f2a3b4c5d6e7f8f",
    "2a9b0c1d2e3f4a5b6c7d8e9f0a1b2c3d4e5f6a7b8c9d0e1f2a3b4c5d6e7f8a90",
    "0b0c1d2e3f4a5b6c7d8e9f0a1b2c3d4e5f6a7b8c9d0e1f2a3b4c5d6e7f8a9b01",
    "1c1d2e3f4a5b6c7d8e9f0a1b2c3d4e5f6a7b8c9d0e1f2a3b4c5d6e7f8a9b0c12",
    "2d2e3f4a5b6c7d8e9f0a1b2c3d4e5f6a7b8c9d0e1f2a3b4c5d6e7f8a9b0c1d23",
    "0e3f4a5b6c7d8e9f0a1b2c3d4e5f6a7b8c9d0e1f2a3b4c5d6e7f8a9b0c1d2e34"]

/-- `full_rc_last`. -/
def fullRcLast : List (Poseidon.State U256) :=
  [⟨hexConst "2a3c4b4e8a85c73ab72f434436ac13b24e72e9c3affa7d9a1ae3f9437bec1a30",
      hexConst "14c462ddcd20ee7270b568f6fa18de39b20a3e5e9e113a5dbaf06e3ac3740e87",
      hexConst "2ed5f0c2e5c21db56ded40ab1dfc01c00015b42de8eac7b02bf4369aa67cdef3"⟩,
    ⟨hexConst "1db77fd6dc7e6ecd8bb6beb7e0f4ac2e63756cd0caa6f1ce3bddd41ecb8a7f4b",
      hexConst "12b16a15f89fbb8b44b7dc1f3c4e26f7632d74f5ec4680ec40acf1a0cc4a3564",
      hexConst "26c7b01d4cf0a0466c85e06929d38c9af224ed7e0e3a40e08c5b96eb1ad9a0f3"⟩,
    ⟨hexConst "0eedab92c2ecc86f52cc18c3cac2fd7e5a3ce5c5e38ad481a0b2c214f2d5a47c",
      hexConst "23e5cd4b30fb42e4c2e86143fbe3de7ed95d8f9a459e2c2d3ad7b9bea651c7d7",
      hexConst "02b4a3ef3e127d9af8f3a8dd6547ddbff086e64d6db62cf6fb674e7a9f8e7be3"⟩,
    ⟨hexConst "1eb9b4e7e3c75b1f9e4c2ed4b7f0ced37c0aef3db4a1d7e5b3c0f38a6c12d045",
      hexConst "2d8a2c4c2e5f67c1b0d89a34e5fc7db3a4c5b6e2f1a3d9e8b7c5a6f3d1e2b4a8",
      hexConst "0f3e29c4b7a8d1e5f2c6b3a9d8e7f5c4b1a6d3e2f9c8b7a5d4e3f1c2b6a9d8e7"⟩]

/-- The body of the loops of the full rounds. -/
def fullRound (state roundRc : Poseidon.State U256) : Poseidon.State U256 :=
  let m := BN254_MODULUS
  mds ⟨sbox (u256Addmod state.s0 roundRc.s0 m), sbox (u256Addmod state.s1 roundRc.s1 m),
    sbox (u256Addmod state.s2 roundRc.s2 m)⟩

/-- The body of the loop of the partial rounds. -/
def partialRound (state : Poseidon.State U256) (rcHex : String) : Poseidon.State U256 :=
  let m := BN254_MODULUS
  let rc := hexConst rcHex % m
  mds { state with s0 := sbox (u256Addmod state.s0 rc m) }

/-- **`poseidon_hash`.** -/
def poseidonHash (left right : H256) : H256 :=
  let m := BN254_MODULUS
  let l := U256.fromBigEndian (Bytes32.toBytes left) % m
  let r := U256.fromBigEndian (Bytes32.toBytes right) % m
  let state : Poseidon.State U256 := ⟨0, l, r⟩
  let state := fullRcFirst.foldl fullRound state
  let state := partialRc.foldl partialRound state
  let state := fullRcLast.foldl fullRound state
  let resultBytes := Bytes32.toBytes state.s0
  BitVec.ofNat 256 (beNat resultBytes)

end PalletPoseidon
