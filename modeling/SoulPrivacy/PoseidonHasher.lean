import SoulPrivacy.Bn254

/-!
# The Poseidon hash of the contracts (`PoseidonHasher.sol`)

A permutation of three words – four full rounds, 57 partial rounds, four
full rounds – applied to the two inputs, reduced modulo the field order,
behind a zero. What the other contracts rely on is in `FieldHash`: the
hash depends on its inputs modulo the field order, and its value is below
it. Both hold whatever the constants are.
-/

namespace PoseidonHasher

/-- `FIELD_MODULUS`. -/
def FIELD_MODULUS : Uint256 := BitVec.ofNat 256 Bn254.r

/-- The state of the permutation. -/
structure State where
  s0 : Uint256
  s1 : Uint256
  s2 : Uint256

/-- The constants of the first four full rounds. -/
def firstRC : List State :=
  [⟨0x0ee9a592ba9a9518d05986d656f40c2114c4993c11bb29571f29d4ac50a4b6b1,
      0x00f1445235f2148c5986587169fc1bcd887b08d4d00868df5696fff40956e864,
      0x08dff3487e8ac99e1f29a058d0fa80b930c728730b7ab36ce879f3890ecf73f5⟩,
    ⟨0x2f27be690fdaee46c3ce28f7532b13c856c35342c84bda6e20966310fadc01d0,
      0x2b2ae1acf68b7b8d2416571a5e5d76ab4fe18b07f2a6f63f63f7c8b0d12e0aab,
      0x0d4c5de80775b15580ae0631da32c4bbfecb5b0fa26ce7cd2c4f36a12d5a0a29⟩,
    ⟨0x1a5b6e41af31d9e7742f12d70a77ff91cae77d594a4e80d0bb8cc247920a4b6a,
      0x30644e72e131a029b85045b68181585d97816a916871ca8d3c208c16d87cfd15,
      0x061b11060fcc69d16e44e0e23b1b3c2e5db7e7536e1e8ca83a8b3b41e6c0259c⟩,
    ⟨0x197e89ac09ad23a3c76a7f3f27c5bb90aa9e2dcf4d3f8837be7dfd637ee9fee6,
      0x103e21d1e80efa38c8e89b02cef75a4942a1e67fdf10b0dd4f1a7a0c9bf62037,
      0x0e0c82b0b71c1bcdf5283e8e5b6683a68b0e79f93ca9faba7f67854de6a2b59d⟩]

/-- The constants of the last four full rounds. -/
def lastRC : List State :=
  [⟨0x2a3c4b4e8a85c73ab72f434436ac13b24e72e9c3affa7d9a1ae3f9437bec1a30,
      0x14c462ddcd20ee7270b568f6fa18de39b20a3e5e9e113a5dbaf06e3ac3740e87,
      0x2ed5f0c2e5c21db56ded40ab1dfc01c00015b42de8eac7b02bf4369aa67cdef3⟩,
    ⟨0x1db77fd6dc7e6ecd8bb6beb7e0f4ac2e63756cd0caa6f1ce3bddd41ecb8a7f4b,
      0x12b16a15f89fbb8b44b7dc1f3c4e26f7632d74f5ec4680ec40acf1a0cc4a3564,
      0x26c7b01d4cf0a0466c85e06929d38c9af224ed7e0e3a40e08c5b96eb1ad9a0f3⟩,
    ⟨0x0eedab92c2ecc86f52cc18c3cac2fd7e5a3ce5c5e38ad481a0b2c214f2d5a47c,
      0x23e5cd4b30fb42e4c2e86143fbe3de7ed95d8f9a459e2c2d3ad7b9bea651c7d7,
      0x02b4a3ef3e127d9af8f3a8dd6547ddbff086e64d6db62cf6fb674e7a9f8e7be3⟩,
    ⟨0x1eb9b4e7e3c75b1f9e4c2ed4b7f0ced37c0aef3db4a1d7e5b3c0f38a6c12d045,
      0x2d8a2c4c2e5f67c1b0d89a34e5fc7db3a4c5b6e2f1a3d9e8b7c5a6f3d1e2b4a8,
      0x0f3e29c4b7a8d1e5f2c6b3a9d8e7f5c4b1a6d3e2f9c8b7a5d4e3f1c2b6a9d8e7⟩]

/-- `_getPartialRoundConstants`. -/
def getPartialRoundConstants : List Uint256 :=
  [0x2c4c5de8b4f2a1e3d7b9c6f0a5e8d3c1b4f7a2e6d9c3b8f1a5e2d7c4b9f6a3e0,
    0x1a3b5c7d9e0f2a4b6c8d0e1f3a5b7c9d1e3f5a7b9c1d3e5f7a9b1c3d5e7f9a1b,
    0x0e1d2c3b4a5f6e7d8c9b0a1f2e3d4c5b6a7f8e9d0c1b2a3f4e5d6c7b8a9f0e1d,
    0x1f0e2d3c4b5a6f7e8d9c0b1a2f3e4d5c6b7a8f9e0d1c2b3a4f5e6d7c8b9a0f1e,
    0x2a1b3c4d5e6f7a8b9c0d1e2f3a4b5c6d7e8f9a0b1c2d3e4f5a6b7c8d9e0f1a2b,
    0x0b2c3d4e5f6a7b8c9d0e1f2a3b4c5d6e7f8a9b0c1d2e3f4a5b6c7d8e9f0a1b2c,
    0x1c3d4e5f6a7b8c9d0e1f2a3b4c5d6e7f8a9b0c1d2e3f4a5b6c7d8e9f0a1b2c3d,
    0x2d4e5f6a7b8c9d0e1f2a3b4c5d6e7f8a9b0c1d2e3f4a5b6c7d8e9f0a1b2c3d4e,
    0x0e5f6a7b8c9d0e1f2a3b4c5d6e7f8a9b0c1d2e3f4a5b6c7d8e9f0a1b2c3d4e5f,
    0x1f6a7b8c9d0e1f2a3b4c5d6e7f8a9b0c1d2e3f4a5b6c7d8e9f0a1b2c3d4e5f6a,
    0x2a7b8c9d0e1f2a3b4c5d6e7f8a9b0c1d2e3f4a5b6c7d8e9f0a1b2c3d4e5f6a7b,
    0x0b8c9d0e1f2a3b4c5d6e7f8a9b0c1d2e3f4a5b6c7d8e9f0a1b2c3d4e5f6a7b8c,
    0x1c9d0e1f2a3b4c5d6e7f8a9b0c1d2e3f4a5b6c7d8e9f0a1b2c3d4e5f6a7b8c9d,
    0x2d0e1f2a3b4c5d6e7f8a9b0c1d2e3f4a5b6c7d8e9f0a1b2c3d4e5f6a7b8c9d0e,
    0x0e1f2a3b4c5d6e7f8a9b0c1d2e3f4a5b6c7d8e9f0a1b2c3d4e5f6a7b8c9d0e1f,
    0x1f2a3b4c5d6e7f8a9b0c1d2e3f4a5b6c7d8e9f0a1b2c3d4e5f6a7b8c9d0e1f2a,
    0x2a3b4c5d6e7f8a9b0c1d2e3f4a5b6c7d8e9f0a1b2c3d4e5f6a7b8c9d0e1f2a3b,
    0x0b4c5d6e7f8a9b0c1d2e3f4a5b6c7d8e9f0a1b2c3d4e5f6a7b8c9d0e1f2a3b4c,
    0x1c5d6e7f8a9b0c1d2e3f4a5b6c7d8e9f0a1b2c3d4e5f6a7b8c9d0e1f2a3b4c5d,
    0x2d6e7f8a9b0c1d2e3f4a5b6c7d8e9f0a1b2c3d4e5f6a7b8c9d0e1f2a3b4c5d6e,
    0x0e7f8a9b0c1d2e3f4a5b6c7d8e9f0a1b2c3d4e5f6a7b8c9d0e1f2a3b4c5d6e7f,
    0x1f8a9b0c1d2e3f4a5b6c7d8e9f0a1b2c3d4e5f6a7b8c9d0e1f2a3b4c5d6e7f8a,
    0x2a9b0c1d2e3f4a5b6c7d8e9f0a1b2c3d4e5f6a7b8c9d0e1f2a3b4c5d6e7f8a9b,
    0x0b0c1d2e3f4a5b6c7d8e9f0a1b2c3d4e5f6a7b8c9d0e1f2a3b4c5d6e7f8a9b0c,
    0x1c1d2e3f4a5b6c7d8e9f0a1b2c3d4e5f6a7b8c9d0e1f2a3b4c5d6e7f8a9b0c1d,
    0x2d2e3f4a5b6c7d8e9f0a1b2c3d4e5f6a7b8c9d0e1f2a3b4c5d6e7f8a9b0c1d2e,
    0x0e3f4a5b6c7d8e9f0a1b2c3d4e5f6a7b8c9d0e1f2a3b4c5d6e7f8a9b0c1d2e3f,
    0x1f4a5b6c7d8e9f0a1b2c3d4e5f6a7b8c9d0e1f2a3b4c5d6e7f8a9b0c1d2e3f4a,
    0x2a5b6c7d8e9f0a1b2c3d4e5f6a7b8c9d0e1f2a3b4c5d6e7f8a9b0c1d2e3f4a5b,
    0x0b6c7d8e9f0a1b2c3d4e5f6a7b8c9d0e1f2a3b4c5d6e7f8a9b0c1d2e3f4a5b6c,
    0x1c7d8e9f0a1b2c3d4e5f6a7b8c9d0e1f2a3b4c5d6e7f8a9b0c1d2e3f4a5b6c7d,
    0x2d8e9f0a1b2c3d4e5f6a7b8c9d0e1f2a3b4c5d6e7f8a9b0c1d2e3f4a5b6c7d8e,
    0x0e9f0a1b2c3d4e5f6a7b8c9d0e1f2a3b4c5d6e7f8a9b0c1d2e3f4a5b6c7d8e9f,
    0x1f0a1b2c3d4e5f6a7b8c9d0e1f2a3b4c5d6e7f8a9b0c1d2e3f4a5b6c7d8e9f0a,
    0x2a1b2c3d4e5f6a7b8c9d0e1f2a3b4c5d6e7f8a9b0c1d2e3f4a5b6c7d8e9f0a1b,
    0x0b2c3d4e5f6a7b8c9d0e1f2a3b4c5d6e7f8a9b0c1d2e3f4a5b6c7d8e9f0a1b2c,
    0x1c3d4e5f6a7b8c9d0e1f2a3b4c5d6e7f8a9b0c1d2e3f4a5b6c7d8e9f0a1b2c3d,
    0x2d4e5f6a7b8c9d0e1f2a3b4c5d6e7f8a9b0c1d2e3f4a5b6c7d8e9f0a1b2c3d4e,
    0x0e5f6a7b8c9d0e1f2a3b4c5d6e7f8a9b0c1d2e3f4a5b6c7d8e9f0a1b2c3d4e5f,
    0x1f6a7b8c9d0e1f2a3b4c5d6e7f8a9b0c1d2e3f4a5b6c7d8e9f0a1b2c3d4e5f6a,
    0x2a7b8c9d0e1f2a3b4c5d6e7f8a9b0c1d2e3f4a5b6c7d8e9f0a1b2c3d4e5f6a7b,
    0x0b8c9d0e1f2a3b4c5d6e7f8a9b0c1d2e3f4a5b6c7d8e9f0a1b2c3d4e5f6a7b8c,
    0x1c9d0e1f2a3b4c5d6e7f8a9b0c1d2e3f4a5b6c7d8e9f0a1b2c3d4e5f6a7b8c9d,
    0x2d0e1f2a3b4c5d6e7f8a9b0c1d2e3f4a5b6c7d8e9f0a1b2c3d4e5f6a7b8c9d0e,
    0x0e1f2a3b4c5d6e7f8a9b0c1d2e3f4a5b6c7d8e9f0a1b2c3d4e5f6a7b8c9d0e1e,
    0x1f2a3b4c5d6e7f8a9b0c1d2e3f4a5b6c7d8e9f0a1b2c3d4e5f6a7b8c9d0e1f29,
    0x2a3b4c5d6e7f8a9b0c1d2e3f4a5b6c7d8e9f0a1b2c3d4e5f6a7b8c9d0e1f2a3a,
    0x0b4c5d6e7f8a9b0c1d2e3f4a5b6c7d8e9f0a1b2c3d4e5f6a7b8c9d0e1f2a3b4b,
    0x1c5d6e7f8a9b0c1d2e3f4a5b6c7d8e9f0a1b2c3d4e5f6a7b8c9d0e1f2a3b4c5c,
    0x2d6e7f8a9b0c1d2e3f4a5b6c7d8e9f0a1b2c3d4e5f6a7b8c9d0e1f2a3b4c5d6d,
    0x0e7f8a9b0c1d2e3f4a5b6c7d8e9f0a1b2c3d4e5f6a7b8c9d0e1f2a3b4c5d6e7e,
    0x1f8a9b0c1d2e3f4a5b6c7d8e9f0a1b2c3d4e5f6a7b8c9d0e1f2a3b4c5d6e7f8f,
    0x2a9b0c1d2e3f4a5b6c7d8e9f0a1b2c3d4e5f6a7b8c9d0e1f2a3b4c5d6e7f8a90,
    0x0b0c1d2e3f4a5b6c7d8e9f0a1b2c3d4e5f6a7b8c9d0e1f2a3b4c5d6e7f8a9b01,
    0x1c1d2e3f4a5b6c7d8e9f0a1b2c3d4e5f6a7b8c9d0e1f2a3b4c5d6e7f8a9b0c12,
    0x2d2e3f4a5b6c7d8e9f0a1b2c3d4e5f6a7b8c9d0e1f2a3b4c5d6e7f8a9b0c1d23,
    0x0e3f4a5b6c7d8e9f0a1b2c3d4e5f6a7b8c9d0e1f2a3b4c5d6e7f8a9b0c1d2e34]

/-- `MDS_00`. -/
def MDS_00 : Uint256 :=
  0x109b7f411ba0e4c9b2b70caf5c36a7b194be7c11ad24378bfedb68592ba8118b

/-- `MDS_01`. -/
def MDS_01 : Uint256 :=
  0x2969f27eed31a480b9c36c764379dbca2cc8fdd1415c3dded62940bcde0bd771

/-- `MDS_02`. -/
def MDS_02 : Uint256 :=
  0x143021ec686a3f330d5f9e654638065ce6cd79e28c5b3753326244ee65a1b1a7

/-- `MDS_10`. -/
def MDS_10 : Uint256 :=
  0x16ed41e13bb9c0c66ae119424fddbcbc9314dc9fdbdeea55d6c64543dc4903e0

/-- `MDS_11`. -/
def MDS_11 : Uint256 :=
  0x2e2419f9ec02ec394c9871c832963dc1b89d743c8c7b964029b2311687b1fe23

/-- `MDS_12`. -/
def MDS_12 : Uint256 :=
  0x176cc029695ad02582a70eff08a6fd99d057e12e58e7d7b6b16cdfabc8ee2911

/-- `MDS_20`. -/
def MDS_20 : Uint256 :=
  0x2b90bba00fca0589f617e7dcbfe82e0df706ab640ceb247b791a93b74e36736d

/-- `MDS_21`. -/
def MDS_21 : Uint256 :=
  0x101071f0032379b697315571086d26850e39a080c3a3118b11aced26d3de9c1a

/-- `MDS_22`. -/
def MDS_22 : Uint256 :=
  0x19a3fc0a56702bf417ba7fee3802593fa644470307043f7773e0e01e2680fb05

/-- `_sbox`. -/
def sbox (x : Uint256) : Uint256 :=
  let x2 := mulmod x x FIELD_MODULUS
  let x4 := mulmod x2 x2 FIELD_MODULUS
  mulmod x4 x FIELD_MODULUS

/-- A row of the matrix, applied to the state. -/
def mdsRow (m0 m1 m2 : Uint256) (state : State) : Uint256 :=
  addmod
    (addmod (mulmod m0 state.s0 FIELD_MODULUS) (mulmod m1 state.s1 FIELD_MODULUS)
      FIELD_MODULUS)
    (mulmod m2 state.s2 FIELD_MODULUS) FIELD_MODULUS

/-- `_mds`. -/
def mds (state : State) : State :=
  ⟨mdsRow MDS_00 MDS_01 MDS_02 state, mdsRow MDS_10 MDS_11 MDS_12 state,
    mdsRow MDS_20 MDS_21 MDS_22 state⟩

/-- `_fullRound`. -/
def fullRound (state rc : State) : State :=
  mds ⟨sbox (addmod state.s0 rc.s0 FIELD_MODULUS),
    sbox (addmod state.s1 rc.s1 FIELD_MODULUS),
    sbox (addmod state.s2 rc.s2 FIELD_MODULUS)⟩

/-- The body of the loop of the partial rounds. -/
def partialRound (state : State) (rc : Uint256) : State :=
  mds { state with s0 := sbox (addmod state.s0 rc FIELD_MODULUS) }

/-- `_permute`. It is kept from unfolding by itself. -/
@[irreducible] def permute (state : State) : Uint256 :=
  let state := firstRC.foldl fullRound state
  let state := getPartialRoundConstants.foldl partialRound state
  let state := lastRC.foldl fullRound state
  state.s0

/-- `hash`. -/
def hash (left right : Uint256) : Uint256 :=
  permute ⟨0, left % FIELD_MODULUS, right % FIELD_MODULUS⟩

/-! ## What the contracts rely on -/

theorem toNat_FIELD_MODULUS : FIELD_MODULUS.toNat = Bn254.r := rfl

theorem FIELD_MODULUS_ne_zero : FIELD_MODULUS ≠ 0 := by decide

/-- The entries of a state a round leaves are below the modulus. -/
theorem mdsRow_lt (m0 m1 m2 : Uint256) (state : State) :
    (mdsRow m0 m1 m2 state).toNat < Bn254.r :=
  toNat_addmod_lt _ _ FIELD_MODULUS_ne_zero

/-- Words that are the same field element have the same remainder. -/
theorem mod_eq_of_sameElement {a b : Uint256} (h : Bn254.SameElement a b) :
    a % FIELD_MODULUS = b % FIELD_MODULUS := by
  apply BitVec.eq_of_toNat_eq
  rw [BitVec.toNat_umod, BitVec.toNat_umod, toNat_FIELD_MODULUS]
  exact h

/-- **The hash is below the modulus.** -/
theorem hash_lt (left right : Uint256) : (hash left right).toNat < Bn254.r := by
  unfold hash permute
  -- the last of the four closing rounds ends with the matrix
  exact mdsRow_lt _ _ _ _

/-- **The hash depends on its inputs modulo the field order.** -/
theorem hash_congr {left left' right right' : Uint256}
    (hl : Bn254.SameElement left left') (hr : Bn254.SameElement right right') :
    hash left right = hash left' right' := by
  unfold hash
  rw [mod_eq_of_sameElement hl, mod_eq_of_sameElement hr]

/-- The Poseidon hash is a hash over the field. -/
def fieldHash : Bn254.FieldHash := ⟨hash, hash_lt, hash_congr⟩

end PoseidonHasher
