import SoulPrivacy.Poseidon

/-!
# The Poseidon hash of the Python SDK (`poseidon.py`)

The SDK computes on Python's integers, of which the inputs are not negative.
-/

namespace PythonPoseidon

/-- `FIELD_MODULUS`. -/
def FIELD_MODULUS : ℕ :=
  21888242871839275222246405745257275088548364400416034343698204186575808495617

/-- `MDS`. -/
def MDS : Poseidon.State (Poseidon.State ℕ) :=
  ⟨⟨0x109B7F411BA0E4C9B2B70CAF5C36A7B194BE7C11AD24378BFEDB68592BA8118B,
      0x2969F27EED31A480B9C36C764379DBCA2CC8FDD1415C3DDED62940BCDE0BD771,
      0x143021EC686A3F330D5F9E654638065CE6CD79E28C5B3753326244EE65A1B1A7⟩,
    ⟨0x16ED41E13BB9C0C66AE119424FDDBCBC9314DC9FDBDEEA55D6C64543DC4903E0,
      0x2E2419F9EC02EC394C9871C832963DC1B89D743C8C7B964029B2311687B1FE23,
      0x176CC029695AD02582A70EFF08A6FD99D057E12E58E7D7B6B16CDFABC8EE2911⟩,
    ⟨0x2B90BBA00FCA0589F617E7DCBFE82E0DF706AB640CEB247B791A93B74E36736D,
      0x101071F0032379B697315571086D26850E39A080C3A3118B11ACED26D3DE9C1A,
      0x19A3FC0A56702BF417BA7FEE3802593FA644470307043F7773E0E01E2680FB05⟩⟩

/-- `FULL_RC_FIRST`. -/
def FULL_RC_FIRST : List (Poseidon.State ℕ) :=
  [⟨0x0EE9A592BA9A9518D05986D656F40C2114C4993C11BB29571F29D4AC50A4B6B1,
      0x00F1445235F2148C5986587169FC1BCD887B08D4D00868DF5696FFF40956E864,
      0x08DFF3487E8AC99E1F29A058D0FA80B930C728730B7AB36CE879F3890ECF73F5⟩,
    ⟨0x2F27BE690FDAEE46C3CE28F7532B13C856C35342C84BDA6E20966310FADC01D0,
      0x2B2AE1ACF68B7B8D2416571A5E5D76AB4FE18B07F2A6F63F63F7C8B0D12E0AAB,
      0x0D4C5DE80775B15580AE0631DA32C4BBFECB5B0FA26CE7CD2C4F36A12D5A0A29⟩,
    ⟨0x1A5B6E41AF31D9E7742F12D70A77FF91CAE77D594A4E80D0BB8CC247920A4B6A,
      0x30644E72E131A029B85045B68181585D97816A916871CA8D3C208C16D87CFD15,
      0x061B11060FCC69D16E44E0E23B1B3C2E5DB7E7536E1E8CA83A8B3B41E6C0259C⟩,
    ⟨0x197E89AC09AD23A3C76A7F3F27C5BB90AA9E2DCF4D3F8837BE7DFD637EE9FEE6,
      0x103E21D1E80EFA38C8E89B02CEF75A4942A1E67FDF10B0DD4F1A7A0C9BF62037,
      0x0E0C82B0B71C1BCDF5283E8E5B6683A68B0E79F93CA9FABA7F67854DE6A2B59D⟩]

/-- `PARTIAL_RC`. -/
def PARTIAL_RC : List ℕ :=
  [0x2C4C5DE8B4F2A1E3D7B9C6F0A5E8D3C1B4F7A2E6D9C3B8F1A5E2D7C4B9F6A3E0,
    0x1A3B5C7D9E0F2A4B6C8D0E1F3A5B7C9D1E3F5A7B9C1D3E5F7A9B1C3D5E7F9A1B,
    0x0E1D2C3B4A5F6E7D8C9B0A1F2E3D4C5B6A7F8E9D0C1B2A3F4E5D6C7B8A9F0E1D,
    0x1F0E2D3C4B5A6F7E8D9C0B1A2F3E4D5C6B7A8F9E0D1C2B3A4F5E6D7C8B9A0F1E,
    0x2A1B3C4D5E6F7A8B9C0D1E2F3A4B5C6D7E8F9A0B1C2D3E4F5A6B7C8D9E0F1A2B,
    0x0B2C3D4E5F6A7B8C9D0E1F2A3B4C5D6E7F8A9B0C1D2E3F4A5B6C7D8E9F0A1B2C,
    0x1C3D4E5F6A7B8C9D0E1F2A3B4C5D6E7F8A9B0C1D2E3F4A5B6C7D8E9F0A1B2C3D,
    0x2D4E5F6A7B8C9D0E1F2A3B4C5D6E7F8A9B0C1D2E3F4A5B6C7D8E9F0A1B2C3D4E,
    0x0E5F6A7B8C9D0E1F2A3B4C5D6E7F8A9B0C1D2E3F4A5B6C7D8E9F0A1B2C3D4E5F,
    0x1F6A7B8C9D0E1F2A3B4C5D6E7F8A9B0C1D2E3F4A5B6C7D8E9F0A1B2C3D4E5F6A,
    0x2A7B8C9D0E1F2A3B4C5D6E7F8A9B0C1D2E3F4A5B6C7D8E9F0A1B2C3D4E5F6A7B,
    0x0B8C9D0E1F2A3B4C5D6E7F8A9B0C1D2E3F4A5B6C7D8E9F0A1B2C3D4E5F6A7B8C,
    0x1C9D0E1F2A3B4C5D6E7F8A9B0C1D2E3F4A5B6C7D8E9F0A1B2C3D4E5F6A7B8C9D,
    0x2D0E1F2A3B4C5D6E7F8A9B0C1D2E3F4A5B6C7D8E9F0A1B2C3D4E5F6A7B8C9D0E,
    0x0E1F2A3B4C5D6E7F8A9B0C1D2E3F4A5B6C7D8E9F0A1B2C3D4E5F6A7B8C9D0E1F,
    0x1F2A3B4C5D6E7F8A9B0C1D2E3F4A5B6C7D8E9F0A1B2C3D4E5F6A7B8C9D0E1F2A,
    0x2A3B4C5D6E7F8A9B0C1D2E3F4A5B6C7D8E9F0A1B2C3D4E5F6A7B8C9D0E1F2A3B,
    0x0B4C5D6E7F8A9B0C1D2E3F4A5B6C7D8E9F0A1B2C3D4E5F6A7B8C9D0E1F2A3B4C,
    0x1C5D6E7F8A9B0C1D2E3F4A5B6C7D8E9F0A1B2C3D4E5F6A7B8C9D0E1F2A3B4C5D,
    0x2D6E7F8A9B0C1D2E3F4A5B6C7D8E9F0A1B2C3D4E5F6A7B8C9D0E1F2A3B4C5D6E,
    0x0E7F8A9B0C1D2E3F4A5B6C7D8E9F0A1B2C3D4E5F6A7B8C9D0E1F2A3B4C5D6E7F,
    0x1F8A9B0C1D2E3F4A5B6C7D8E9F0A1B2C3D4E5F6A7B8C9D0E1F2A3B4C5D6E7F8A,
    0x2A9B0C1D2E3F4A5B6C7D8E9F0A1B2C3D4E5F6A7B8C9D0E1F2A3B4C5D6E7F8A9B,
    0x0B0C1D2E3F4A5B6C7D8E9F0A1B2C3D4E5F6A7B8C9D0E1F2A3B4C5D6E7F8A9B0C,
    0x1C1D2E3F4A5B6C7D8E9F0A1B2C3D4E5F6A7B8C9D0E1F2A3B4C5D6E7F8A9B0C1D,
    0x2D2E3F4A5B6C7D8E9F0A1B2C3D4E5F6A7B8C9D0E1F2A3B4C5D6E7F8A9B0C1D2E,
    0x0E3F4A5B6C7D8E9F0A1B2C3D4E5F6A7B8C9D0E1F2A3B4C5D6E7F8A9B0C1D2E3F,
    0x1F4A5B6C7D8E9F0A1B2C3D4E5F6A7B8C9D0E1F2A3B4C5D6E7F8A9B0C1D2E3F4A,
    0x2A5B6C7D8E9F0A1B2C3D4E5F6A7B8C9D0E1F2A3B4C5D6E7F8A9B0C1D2E3F4A5B,
    0x0B6C7D8E9F0A1B2C3D4E5F6A7B8C9D0E1F2A3B4C5D6E7F8A9B0C1D2E3F4A5B6C,
    0x1C7D8E9F0A1B2C3D4E5F6A7B8C9D0E1F2A3B4C5D6E7F8A9B0C1D2E3F4A5B6C7D,
    0x2D8E9F0A1B2C3D4E5F6A7B8C9D0E1F2A3B4C5D6E7F8A9B0C1D2E3F4A5B6C7D8E,
    0x0E9F0A1B2C3D4E5F6A7B8C9D0E1F2A3B4C5D6E7F8A9B0C1D2E3F4A5B6C7D8E9F,
    0x1F0A1B2C3D4E5F6A7B8C9D0E1F2A3B4C5D6E7F8A9B0C1D2E3F4A5B6C7D8E9F0A,
    0x2A1B2C3D4E5F6A7B8C9D0E1F2A3B4C5D6E7F8A9B0C1D2E3F4A5B6C7D8E9F0A1B,
    0x0B2C3D4E5F6A7B8C9D0E1F2A3B4C5D6E7F8A9B0C1D2E3F4A5B6C7D8E9F0A1B2C,
    0x1C3D4E5F6A7B8C9D0E1F2A3B4C5D6E7F8A9B0C1D2E3F4A5B6C7D8E9F0A1B2C3D,
    0x2D4E5F6A7B8C9D0E1F2A3B4C5D6E7F8A9B0C1D2E3F4A5B6C7D8E9F0A1B2C3D4E,
    0x0E5F6A7B8C9D0E1F2A3B4C5D6E7F8A9B0C1D2E3F4A5B6C7D8E9F0A1B2C3D4E5F,
    0x1F6A7B8C9D0E1F2A3B4C5D6E7F8A9B0C1D2E3F4A5B6C7D8E9F0A1B2C3D4E5F6A,
    0x2A7B8C9D0E1F2A3B4C5D6E7F8A9B0C1D2E3F4A5B6C7D8E9F0A1B2C3D4E5F6A7B,
    0x0B8C9D0E1F2A3B4C5D6E7F8A9B0C1D2E3F4A5B6C7D8E9F0A1B2C3D4E5F6A7B8C,
    0x1C9D0E1F2A3B4C5D6E7F8A9B0C1D2E3F4A5B6C7D8E9F0A1B2C3D4E5F6A7B8C9D,
    0x2D0E1F2A3B4C5D6E7F8A9B0C1D2E3F4A5B6C7D8E9F0A1B2C3D4E5F6A7B8C9D0E,
    0x0E1F2A3B4C5D6E7F8A9B0C1D2E3F4A5B6C7D8E9F0A1B2C3D4E5F6A7B8C9D0E1E,
    0x1F2A3B4C5D6E7F8A9B0C1D2E3F4A5B6C7D8E9F0A1B2C3D4E5F6A7B8C9D0E1F29,
    0x2A3B4C5D6E7F8A9B0C1D2E3F4A5B6C7D8E9F0A1B2C3D4E5F6A7B8C9D0E1F2A3A,
    0x0B4C5D6E7F8A9B0C1D2E3F4A5B6C7D8E9F0A1B2C3D4E5F6A7B8C9D0E1F2A3B4B,
    0x1C5D6E7F8A9B0C1D2E3F4A5B6C7D8E9F0A1B2C3D4E5F6A7B8C9D0E1F2A3B4C5C,
    0x2D6E7F8A9B0C1D2E3F4A5B6C7D8E9F0A1B2C3D4E5F6A7B8C9D0E1F2A3B4C5D6D,
    0x0E7F8A9B0C1D2E3F4A5B6C7D8E9F0A1B2C3D4E5F6A7B8C9D0E1F2A3B4C5D6E7E,
    0x1F8A9B0C1D2E3F4A5B6C7D8E9F0A1B2C3D4E5F6A7B8C9D0E1F2A3B4C5D6E7F8F,
    0x2A9B0C1D2E3F4A5B6C7D8E9F0A1B2C3D4E5F6A7B8C9D0E1F2A3B4C5D6E7F8A90,
    0x0B0C1D2E3F4A5B6C7D8E9F0A1B2C3D4E5F6A7B8C9D0E1F2A3B4C5D6E7F8A9B01,
    0x1C1D2E3F4A5B6C7D8E9F0A1B2C3D4E5F6A7B8C9D0E1F2A3B4C5D6E7F8A9B0C12,
    0x2D2E3F4A5B6C7D8E9F0A1B2C3D4E5F6A7B8C9D0E1F2A3B4C5D6E7F8A9B0C1D23,
    0x0E3F4A5B6C7D8E9F0A1B2C3D4E5F6A7B8C9D0E1F2A3B4C5D6E7F8A9B0C1D2E34]

/-- `FULL_RC_LAST`. -/
def FULL_RC_LAST : List (Poseidon.State ℕ) :=
  [⟨0x2A3C4B4E8A85C73AB72F434436AC13B24E72E9C3AFFA7D9A1AE3F9437BEC1A30,
      0x14C462DDCD20EE7270B568F6FA18DE39B20A3E5E9E113A5DBAF06E3AC3740E87,
      0x2ED5F0C2E5C21DB56DED40AB1DFC01C00015B42DE8EAC7B02BF4369AA67CDEF3⟩,
    ⟨0x1DB77FD6DC7E6ECD8BB6BEB7E0F4AC2E63756CD0CAA6F1CE3BDDD41ECB8A7F4B,
      0x12B16A15F89FBB8B44B7DC1F3C4E26F7632D74F5EC4680EC40ACF1A0CC4A3564,
      0x26C7B01D4CF0A0466C85E06929D38C9AF224ED7E0E3A40E08C5B96EB1AD9A0F3⟩,
    ⟨0x0EEDAB92C2ECC86F52CC18C3CAC2FD7E5A3CE5C5E38AD481A0B2C214F2D5A47C,
      0x23E5CD4B30FB42E4C2E86143FBE3DE7ED95D8F9A459E2C2D3AD7B9BEA651C7D7,
      0x02B4A3EF3E127D9AF8F3A8DD6547DDBFF086E64D6DB62CF6FB674E7A9F8E7BE3⟩,
    ⟨0x1EB9B4E7E3C75B1F9E4C2ED4B7F0CED37C0AEF3DB4A1D7E5B3C0F38A6C12D045,
      0x2D8A2C4C2E5F67C1B0D89A34E5FC7DB3A4C5B6E2F1A3D9E8B7C5A6F3D1E2B4A8,
      0x0F3E29C4B7A8D1E5F2C6B3A9D8E7F5C4B1A6D3E2F9C8B7A5D4E3F1C2B6A9D8E7⟩]

/-- `_sbox`. -/
def sbox (x : ℕ) : ℕ :=
  let x2 := (x * x) % FIELD_MODULUS
  let x4 := (x2 * x2) % FIELD_MODULUS
  (x4 * x) % FIELD_MODULUS

/-- The inner loop of `_mds`. -/
def mdsRow (r state : Poseidon.State ℕ) : ℕ :=
  let acc := (0 + r.s0 * state.s0) % FIELD_MODULUS
  let acc := (acc + r.s1 * state.s1) % FIELD_MODULUS
  (acc + r.s2 * state.s2) % FIELD_MODULUS

/-- `_mds`. -/
def mds (state : Poseidon.State ℕ) : Poseidon.State ℕ :=
  ⟨mdsRow MDS.s0 state, mdsRow MDS.s1 state, mdsRow MDS.s2 state⟩

/-- The body of the loops of the full rounds. -/
def fullRound (state rc : Poseidon.State ℕ) : Poseidon.State ℕ :=
  mds ⟨sbox ((state.s0 + rc.s0) % FIELD_MODULUS), sbox ((state.s1 + rc.s1) % FIELD_MODULUS),
    sbox ((state.s2 + rc.s2) % FIELD_MODULUS)⟩

/-- The body of the loop of the partial rounds. -/
def partialRound (state : Poseidon.State ℕ) (rc : ℕ) : Poseidon.State ℕ :=
  mds { state with s0 := sbox ((state.s0 + rc) % FIELD_MODULUS) }

/-- `_permute`. -/
def permute (state : Poseidon.State ℕ) : ℕ :=
  let state := FULL_RC_FIRST.foldl fullRound state
  let state := PARTIAL_RC.foldl partialRound state
  let state := FULL_RC_LAST.foldl fullRound state
  state.s0

/-- **`poseidon_hash`.** -/
def poseidonHash (left right : ℕ) : ℕ :=
  permute ⟨0, left % FIELD_MODULUS, right % FIELD_MODULUS⟩

end PythonPoseidon
