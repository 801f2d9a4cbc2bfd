import Mathlib.Data.BitVec

/-!
# Keccak-256

The sponge over the permutation of 25 lanes, with the padding that Ethereum
uses. The lane of the column `x` in the row `y` is the one at `x + 5 * y`.
-/

namespace Keccak

/-- A lane. -/
abbrev Lane := BitVec 64

/-- The 25 lanes. -/
abbrev State := List Lane

/-- A lane of a state. -/
def lane (a : State) (i : ℕ) : Lane := a.getD i 0

/-- The rotations, lane by lane. -/
def rotations : List ℕ :=
  [0, 1, 62, 28, 27, 36, 44, 6, 55, 20, 3, 10, 43, 25, 39, 41, 45, 15, 21, 8, 18, 2, 61, 56, 14]

/-- The constants, round by round. -/
def roundConstants : List Lane :=
  [0x0000000000000001, 0x0000000000008082, 0x800000000000808A, 0x8000000080008000,
    0x000000000000808B, 0x0000000080000001, 0x8000000080008081, 0x8000000000008009,
    0x000000000000008A, 0x0000000000000088, 0x0000000080008009, 0x000000008000000A,
    0x000000008000808B, 0x800000000000008B, 0x8000000000008089, 0x8000000000008003,
    0x8000000000008002, 0x8000000000000080, 0x000000000000800A, 0x800000008000000A,
    0x8000000080008081, 0x8000000000008080, 0x0000000080000001, 0x8000000080008008]

/-! ## The permutation -/

/-- The parity of a column. -/
def column (a : State) (x : ℕ) : Lane :=
  lane a x ^^^ lane a (x + 5) ^^^ lane a (x + 10) ^^^ lane a (x + 15) ^^^ lane a (x + 20)

/-- `θ`. -/
def theta (a : State) : State :=
  let c := (List.range 5).map (column a)
  (List.range 25).map (fun i =>
    lane a i ^^^ lane c ((i + 4) % 5) ^^^ (lane c ((i + 1) % 5)).rotateLeft 1)

/-- `ρ` and `π`. -/
def rhoPi (a : State) : State :=
  (List.range 25).map (fun i =>
    let j := (i + 3 * (i / 5)) % 5 + 5 * (i % 5)
    (lane a j).rotateLeft (rotations.getD j 0))

/-- `χ`. -/
def chi (a : State) : State :=
  (List.range 25).map (fun i =>
    lane a i ^^^ (~~~ lane a ((i + 1) % 5 + 5 * (i / 5)) &&& lane a ((i + 2) % 5 + 5 * (i / 5))))

/-- `ι`. -/
def iota (c : Lane) (a : State) : State := (lane a 0 ^^^ c) :: a.tail

/-- A round. -/
def round (a : State) (c : Lane) : State := iota c (chi (rhoPi (theta a)))

/-- **The permutation.** -/
def keccakF (a : State) : State := roundConstants.foldl round a

/-! ## The sponge -/

/-- The bytes of a block. -/
def rate : ℕ := 136

/-- A lane from its bytes, the least significant one first. -/
def leLane (bytes : List (BitVec 8)) : Lane :=
  BitVec.ofNat 64 (bytes.foldr (fun b n => b.toNat + 256 * n) 0)

/-- The bytes of a lane. -/
def laneBytes (a : Lane) : List (BitVec 8) := (List.range 8).map (fun i => a.extractLsb' (8 * i) 8)

/-- The padding of a message, to whole blocks. -/
def pad (message : List (BitVec 8)) : List (BitVec 8) :=
  let zeros := rate - 1 - message.length % rate
  if zeros = 0 then message ++ [0x81]
  else message ++ [0x01] ++ List.replicate (zeros - 1) 0 ++ [0x80]

/-- A block is absorbed. -/
def absorb (a : State) (block : List (BitVec 8)) : State :=
  keccakF ((List.range 25).map (fun i => lane a i ^^^ leLane ((block.drop (8 * i)).take 8)))

/-- The first blocks of a message are absorbed. -/
def absorbBlocks : ℕ → State → List (BitVec 8) → State
  | 0, a, _ => a
  | blocks + 1, a, message => absorbBlocks blocks (absorb a (message.take rate)) (message.drop rate)

/-- **Keccak-256** of a message. -/
def keccak256 (message : List (BitVec 8)) : List (BitVec 8) :=
  let a := absorbBlocks ((pad message).length / rate) (List.replicate 25 0) (pad message)
  (List.range 4).flatMap (fun i => laneBytes (lane a i))

@[simp] theorem length_laneBytes (a : Lane) : (laneBytes a).length = 8 := by
  rw [laneBytes, List.length_map, List.length_range]

@[simp] theorem length_keccak256 (message : List (BitVec 8)) : (keccak256 message).length = 32 := by
  simp [keccak256, List.length_flatMap]

example : (keccak256 []).take 4 = [0xc5, 0xd2, 0x46, 0x01] := by decide +kernel

end Keccak
