import SoulPrivacy.CosmWasmPoseidon
import SoulPrivacy.PalletPoseidon
import SoulPrivacy.PoseidonHasher
import SoulPrivacy.PythonPoseidon

/-!
# The Poseidon hashes of the four code bases

The contracts, the pallet, the CosmWasm pool and the Python SDK have the same
constants. So each of them computes one number, `poseidonNat`, reduced modulo
the number it takes for the field order.

Three of them take the field order, and their hashes are the same
(`hashes_agree`). The pallet takes another number, `BN254_MODULUS` as its
limbs are read, which has no factor in common with the field order. Its hash
is that of the contracts exactly where `poseidonNat` is one of the first `r`
remainders modulo the product of the two (`palletHash_eq_iff`). Of two inputs
that are the same for the pallet and not for the contracts, one hash differs
at least, unless the hash of the contracts has a collision there
(`not_agree_of_shift`).
-/

namespace PoseidonAgreement

open Poseidon (Arith permute permuteNat)

/-! ## Words modulo a number -/

/-- Words with `addmod` and `mulmod`. -/
def wordArith (m : Uint256) : Arith Uint256 := ⟨fun a b => addmod a b m, fun a b => mulmod a b m⟩

theorem toNat_ofNat_mod (n : ℕ) {m : Uint256} (hm : 0 < m.toNat) :
    (BitVec.ofNat 256 (n % m.toNat)).toNat = n % m.toNat := by
  rw [BitVec.toNat_ofNat]
  exact Nat.mod_eq_of_lt ((Nat.mod_lt _ hm).trans m.isLt)

theorem wordArith_modularOn {m : Uint256} (hm : 0 < m.toNat) :
    (wordArith m).ModularOn BitVec.toNat m.toNat where
  add _ _ := toNat_ofNat_mod _ hm
  mul _ _ := toNat_ofNat_mod _ hm

/-- A state of the contracts. -/
def toState (s : PoseidonHasher.State) : Poseidon.State Uint256 := ⟨s.s0, s.s1, s.s2⟩

/-- **The constants of the contracts.** -/
def params : Poseidon.Params Uint256 where
  first := PoseidonHasher.firstRC.map toState
  middle := PoseidonHasher.getPartialRoundConstants
  last := PoseidonHasher.lastRC.map toState
  matrix := ⟨⟨PoseidonHasher.MDS_00, PoseidonHasher.MDS_01, PoseidonHasher.MDS_02⟩,
    ⟨PoseidonHasher.MDS_10, PoseidonHasher.MDS_11, PoseidonHasher.MDS_12⟩,
    ⟨PoseidonHasher.MDS_20, PoseidonHasher.MDS_21, PoseidonHasher.MDS_22⟩⟩

/-- **The number every hash is a remainder of.** -/
def poseidonNat (left right : ℕ) : ℕ :=
  (permuteNat (params.map BitVec.toNat) ⟨0, left, right⟩).s0

/-- The hash with reductions modulo a word. -/
def hashMod (m left right : Uint256) : Uint256 :=
  (permute (wordArith m) params ⟨0, left % m, right % m⟩).s0

theorem toNat_hashMod {m : Uint256} (hm : 0 < m.toNat) (left right : Uint256) :
    (hashMod m left right).toNat = poseidonNat left.toNat right.toNat % m.toNat := by
  have hreduced : ∀ a : Uint256, (a % m).toNat ≡ a.toNat [MOD m.toNat] := by
    intro a
    rw [BitVec.toNat_umod]
    exact Nat.mod_modEq _ _
  exact Poseidon.value_permute_s0 (wordArith_modularOn hm) hm (List.cons_ne_nil _ _)
    ⟨Nat.ModEq.refl 0, hreduced left, hreduced right⟩

/-! ## The contracts -/

theorem foldl_toState {C : Type} {f : PoseidonHasher.State → C → PoseidonHasher.State}
    {g : Poseidon.State Uint256 → C → Poseidon.State Uint256}
    (hstep : ∀ s c, toState (f s c) = g (toState s) c) (cs : List C)
    (s : PoseidonHasher.State) : toState (cs.foldl f s) = cs.foldl g (toState s) := by
  induction cs generalizing s with
  | nil => rfl
  | cons c cs ih => rw [List.foldl_cons, List.foldl_cons, ih, hstep]

theorem toState_s0 (s : PoseidonHasher.State) : (toState s).s0 = s.s0 := rfl

/-- The full rounds of the contracts. -/
theorem foldl_fullRound (rcs : List PoseidonHasher.State) (s : PoseidonHasher.State) :
    toState (rcs.foldl PoseidonHasher.fullRound s)
      = (rcs.map toState).foldl
        (Poseidon.fullRound (wordArith PoseidonHasher.FIELD_MODULUS) params) (toState s) := by
  rw [List.foldl_map]
  exact foldl_toState (fun _ _ => rfl) rcs s

/-- The partial rounds of the contracts. -/
theorem foldl_partialRound (rcs : List Uint256) (s : PoseidonHasher.State) :
    toState (rcs.foldl PoseidonHasher.partialRound s)
      = rcs.foldl (Poseidon.partialRound (wordArith PoseidonHasher.FIELD_MODULUS) params)
        (toState s) :=
  foldl_toState (fun _ _ => rfl) rcs s

/-- **The permutation of the contracts.** -/
theorem permute_eq (s : PoseidonHasher.State) : PoseidonHasher.permute s
    = (permute (wordArith PoseidonHasher.FIELD_MODULUS) params (toState s)).s0 := by
  unfold PoseidonHasher.permute permute
  rw [← toState_s0, foldl_fullRound, foldl_partialRound, foldl_fullRound]
  rfl

theorem hash_eq_hashMod (left right : Uint256) :
    PoseidonHasher.hash left right = hashMod PoseidonHasher.FIELD_MODULUS left right :=
  permute_eq _

/-- **What the contracts compute.** -/
theorem toNat_hash (left right : Uint256) :
    (PoseidonHasher.hash left right).toNat = poseidonNat left.toNat right.toNat % Bn254.r := by
  rw [hash_eq_hashMod, toNat_hashMod (by decide), PoseidonHasher.toNat_FIELD_MODULUS]

/-! ## The texts of the constants -/

/-- **The constants as texts**, those of the CosmWasm pool. -/
def texts : Poseidon.Params String where
  first := CosmWasmPoseidon.FULL_RC_FIRST
  middle := CosmWasmPoseidon.PARTIAL_RC
  last := CosmWasmPoseidon.FULL_RC_LAST
  matrix := CosmWasmPoseidon.mdsMatrix

/-- **The texts are the constants of the contracts.** -/
theorem texts_readAs_params : texts.Related ReadsAs params := by
  refine ⟨?_, ?_, ?_, ?_⟩
  all_goals repeat' first | exact readsAs_ofList (by decide) | constructor

/-! ## Wide integers -/

section Wide

variable {w : ℕ} (a b : BitVec w)

theorem toNat_widen : (a.setWidth (w + w)).toNat = a.toNat :=
  BitVec.toNat_setWidth_of_le (Nat.le_add_left w w)

/-- Sums fit into the double width. -/
theorem toNat_widen_add (hw : 0 < w) :
    (a.setWidth (w + w) + b.setWidth (w + w)).toNat = a.toNat + b.toNat := by
  have hlt : a.toNat + b.toNat < 2 ^ (w + w) :=
    calc a.toNat + b.toNat < 2 ^ w + 2 ^ w := Nat.add_lt_add a.isLt b.isLt
      _ = 2 ^ (w + 1) := by rw [pow_succ, Nat.mul_two]
      _ ≤ 2 ^ (w + w) := Nat.pow_le_pow_right Nat.two_pos (Nat.add_le_add_left hw w)
  rw [BitVec.toNat_add, toNat_widen, toNat_widen, Nat.mod_eq_of_lt hlt]

/-- Products fit into the double width. -/
theorem toNat_widen_mul :
    (a.setWidth (w + w) * b.setWidth (w + w)).toNat = a.toNat * b.toNat := by
  have hlt : a.toNat * b.toNat < 2 ^ (w + w) :=
    calc a.toNat * b.toNat < 2 ^ w * 2 ^ w := Nat.mul_lt_mul'' a.isLt b.isLt
      _ = 2 ^ (w + w) := (pow_add 2 w w).symm
  rw [BitVec.toNat_mul, toNat_widen, toNat_widen, Nat.mod_eq_of_lt hlt]

end Wide

/-! ## The CosmWasm pool -/

section CosmWasm

open CosmWasmPoseidon (Uint512 Uint512.ofUint256)

/-- What the CosmWasm pool takes for the field order is the field order. -/
theorem cosmWasm_p : CosmWasmPoseidon.p = PoseidonHasher.FIELD_MODULUS := by decide

/-- A remainder fits back into a word. -/
theorem tryFrom_mod {x : Uint512} {m : Uint256} (hm : 0 < m.toNat) :
    CosmWasmPoseidon.tryFrom (x % Uint512.ofUint256 m)
      = some (BitVec.ofNat 256 (x.toNat % m.toNat)) := by
  have hwide : (x % Uint512.ofUint256 m).toNat = x.toNat % m.toNat := by
    rw [BitVec.toNat_umod]
    exact congrArg _ (toNat_widen m)
  have hlt : (x % Uint512.ofUint256 m).toNat < 2 ^ 256 :=
    hwide.trans_lt ((Nat.mod_lt _ hm).trans m.isLt)
  unfold CosmWasmPoseidon.tryFrom
  rw [if_pos hlt]
  refine congrArg some (BitVec.eq_of_toNat_eq ?_)
  rw [BitVec.toNat_setWidth, hwide, BitVec.toNat_ofNat]

theorem cosmWasm_addmod (a b : Uint256) :
    CosmWasmPoseidon.addmod a b = some (addmod a b PoseidonHasher.FIELD_MODULUS) := by
  unfold CosmWasmPoseidon.addmod addmod
  rw [cosmWasm_p, tryFrom_mod (by decide)]
  exact congrArg (fun n => some (BitVec.ofNat 256 (n % _))) (toNat_widen_add a b (by decide))

theorem cosmWasm_mulmod (a b : Uint256) :
    CosmWasmPoseidon.mulmod a b = some (mulmod a b PoseidonHasher.FIELD_MODULUS) := by
  unfold CosmWasmPoseidon.mulmod mulmod
  rw [cosmWasm_p, tryFrom_mod (by decide)]
  exact congrArg (fun n => some (BitVec.ofNat 256 (n % _))) (toNat_widen_mul a b)

theorem cosmWasm_sbox (x : Uint256) : CosmWasmPoseidon.sbox x
    = some (Poseidon.sbox (wordArith PoseidonHasher.FIELD_MODULUS) x) := by
  simp only [CosmWasmPoseidon.sbox, cosmWasm_mulmod, Option.bind_eq_bind, Option.bind_some]
  rfl

theorem rcFromHex_of_readsAs {s : String} {w : Uint256} (h : ReadsAs s w) :
    CosmWasmPoseidon.rcFromHex s = some w := by
  rw [CosmWasmPoseidon.rcFromHex_of_isHex64 h.isHex64, h.hexWord_eq]

theorem cosmWasm_mdsRow {r : Poseidon.State String} {q : Poseidon.State Uint256}
    (h : Poseidon.State.Related ReadsAs r q) (s : Poseidon.State Uint256) :
    CosmWasmPoseidon.mdsRow r s
      = some (Poseidon.row (wordArith PoseidonHasher.FIELD_MODULUS) q s) := by
  simp only [CosmWasmPoseidon.mdsRow, rcFromHex_of_readsAs h.s0, rcFromHex_of_readsAs h.s1,
    rcFromHex_of_readsAs h.s2, cosmWasm_mulmod, cosmWasm_addmod, Option.bind_eq_bind,
    Option.bind_some]
  rfl

theorem cosmWasm_mds (s : Poseidon.State Uint256) : CosmWasmPoseidon.mds s
    = some (Poseidon.mix (wordArith PoseidonHasher.FIELD_MODULUS) params s) := by
  have hmatrix : Poseidon.State.Related (Poseidon.State.Related ReadsAs)
    CosmWasmPoseidon.mdsMatrix params.matrix := texts_readAs_params.matrix
  unfold CosmWasmPoseidon.mds
  rw [cosmWasm_mdsRow hmatrix.s0, cosmWasm_mdsRow hmatrix.s1, cosmWasm_mdsRow hmatrix.s2]
  rfl

theorem cosmWasm_fullRound (s : Poseidon.State Uint256) (rc : Poseidon.State String)
    (c : Poseidon.State Uint256) (h : Poseidon.State.Related ReadsAs rc c) :
    CosmWasmPoseidon.fullRound s rc
      = some (Poseidon.fullRound (wordArith PoseidonHasher.FIELD_MODULUS) params s c) := by
  simp only [CosmWasmPoseidon.fullRound, rcFromHex_of_readsAs h.s0, rcFromHex_of_readsAs h.s1,
    rcFromHex_of_readsAs h.s2, cosmWasm_addmod, cosmWasm_sbox, cosmWasm_mds,
    Option.bind_eq_bind, Option.bind_some]
  rfl

theorem cosmWasm_partialRound (s : Poseidon.State Uint256) (rc : String) (c : Uint256)
    (h : ReadsAs rc c) : CosmWasmPoseidon.partialRound s rc
      = some (Poseidon.partialRound (wordArith PoseidonHasher.FIELD_MODULUS) params s c) := by
  simp only [CosmWasmPoseidon.partialRound, rcFromHex_of_readsAs h, cosmWasm_addmod,
    cosmWasm_sbox, cosmWasm_mds, Option.bind_eq_bind, Option.bind_some]
  rfl

/-- **The permutation of the CosmWasm pool** goes through. -/
theorem cosmWasm_permute (s : Poseidon.State Uint256) : CosmWasmPoseidon.permute s
    = some (permute (wordArith PoseidonHasher.FIELD_MODULUS) params s) := by
  have hfirst : List.Forall₂ (Poseidon.State.Related ReadsAs)
    CosmWasmPoseidon.FULL_RC_FIRST params.first := texts_readAs_params.first
  have hmiddle : List.Forall₂ ReadsAs CosmWasmPoseidon.PARTIAL_RC params.middle :=
    texts_readAs_params.middle
  have hlast : List.Forall₂ (Poseidon.State.Related ReadsAs)
    CosmWasmPoseidon.FULL_RC_LAST params.last := texts_readAs_params.last
  unfold CosmWasmPoseidon.permute
  rw [Poseidon.foldlM_eq_some hfirst cosmWasm_fullRound, Option.bind_eq_bind,
    Option.bind_some, Poseidon.foldlM_eq_some hmiddle cosmWasm_partialRound,
    Option.bind_some,
    Poseidon.foldlM_eq_some hlast cosmWasm_fullRound]
  rfl

/-- **What the CosmWasm pool computes**: the hash of the contracts, of whatever
it reads. -/
theorem poseidonHashHex_eq_hashHex (s t : String) : CosmWasmPoseidon.poseidonHashHex s t
    = CosmWasmPoseidon.hashHex PoseidonHasher.hash s t := by
  unfold CosmWasmPoseidon.poseidonHashHex CosmWasmPoseidon.hashHex
  simp only [cosmWasm_permute, cosmWasm_p, Option.bind_eq_bind, Option.bind_some,
    hash_eq_hashMod]
  rfl

/-- … of texts of 64 digits. -/
theorem poseidonHashHex_eq {a b : Uint256} {s t : String} (hs : ReadsAs s a)
    (ht : ReadsAs t b) : CosmWasmPoseidon.poseidonHashHex s t
      = some (Bytes32.toHex (PoseidonHasher.hash a b)) := by
  obtain ⟨left, hleft, hl⟩ := CosmWasmPoseidon.hexTo32_of_isHex64 hs.isHex64
  obtain ⟨right, hright, hr⟩ := CosmWasmPoseidon.hexTo32_of_isHex64 ht.isHex64
  rw [poseidonHashHex_eq_hashHex, CosmWasmPoseidon.hashHex, hleft, hright, ← hs.hexWord_eq,
    ← ht.hexWord_eq, ← hl, ← hr]
  rfl

end CosmWasm

/-! ## The Python SDK -/

section Python

theorem python_FIELD_MODULUS : PythonPoseidon.FIELD_MODULUS = Bn254.r := rfl

/-- The constants of the SDK, as numbers. -/
def pythonParams : Poseidon.Params ℕ where
  first := PythonPoseidon.FULL_RC_FIRST
  middle := PythonPoseidon.PARTIAL_RC
  last := PythonPoseidon.FULL_RC_LAST
  matrix := PythonPoseidon.MDS

/-- **The constants of the SDK are those of the contracts.** -/
theorem pythonParams_eq : pythonParams = params.map BitVec.toNat := by decide

/-- The SDK adds products before they are reduced. -/
theorem python_mdsRow (r s : Poseidon.State ℕ) :
    PythonPoseidon.mdsRow r s = Poseidon.row (Poseidon.modular Bn254.r) r s := by
  simp only [PythonPoseidon.mdsRow, Poseidon.row, Poseidon.modular, python_FIELD_MODULUS,
    Nat.zero_add, Nat.mod_add_mod, Nat.add_mod_mod]

theorem python_mds (s : Poseidon.State ℕ) :
    PythonPoseidon.mds s = Poseidon.mix (Poseidon.modular Bn254.r) pythonParams s := by
  unfold PythonPoseidon.mds Poseidon.mix
  rw [python_mdsRow, python_mdsRow, python_mdsRow]
  rfl

theorem python_fullRound :
    PythonPoseidon.fullRound = Poseidon.fullRound (Poseidon.modular Bn254.r) pythonParams := by
  funext s rc
  unfold PythonPoseidon.fullRound
  rw [python_mds]
  rfl

theorem python_partialRound : PythonPoseidon.partialRound
    = Poseidon.partialRound (Poseidon.modular Bn254.r) pythonParams := by
  funext s rc
  unfold PythonPoseidon.partialRound
  rw [python_mds]
  rfl

/-- **The permutation of the SDK.** -/
theorem python_permute (s : Poseidon.State ℕ) : PythonPoseidon.permute s
    = (permute (Poseidon.modular Bn254.r) pythonParams s).s0 := by
  unfold PythonPoseidon.permute permute
  rw [python_fullRound, python_partialRound]
  rfl

/-- **What the SDK computes.** -/
theorem python_poseidonHash (left right : ℕ) :
    PythonPoseidon.poseidonHash left right = poseidonNat left right % Bn254.r := by
  have hvalue := Poseidon.value_permute_s0 (Poseidon.modular_modularOn Bn254.r) (P := pythonParams)
    (by decide) (List.cons_ne_nil _ _) (s := ⟨0, left % Bn254.r, right % Bn254.r⟩)
    (t := ⟨0, left, right⟩) ⟨Nat.ModEq.refl 0, Nat.mod_modEq _ _, Nat.mod_modEq _ _⟩
  rw [Poseidon.Params.map_id, pythonParams_eq] at hvalue
  unfold PythonPoseidon.poseidonHash poseidonNat
  rw [python_permute, pythonParams_eq]
  exact hvalue

end Python

/-! ## The hashes that agree -/

/-- **The CosmWasm pool, the Python SDK and the contracts hash alike.** -/
theorem hashes_agree {a b : Uint256} {s t : String} (hs : ReadsAs s a) (ht : ReadsAs t b) :
    ∃ h, CosmWasmPoseidon.poseidonHashHex s t = some h ∧ IsLowerHex64 h
      ∧ hexWord h = PoseidonHasher.hash a b
      ∧ PythonPoseidon.poseidonHash a.toNat b.toNat = (PoseidonHasher.hash a b).toNat
      ∧ (PoseidonHasher.hash a b).toNat < Bn254.r :=
  ⟨_, poseidonHashHex_eq hs ht, Bytes32.isLowerHex64_toHex _, Bytes32.hexWord_toHex _,
    (python_poseidonHash _ _).trans (toNat_hash a b).symm, PoseidonHasher.hash_lt a b⟩

/-- … such as for two texts of which one is in upper case. -/
theorem hashes_agree_upper :
    ∃ h, CosmWasmPoseidon.poseidonHashHex
        "000000000000000000000000000000000000000000000000000000000000000A"
        "ffffffffffffffffffffffffffffffffffffffffffffffffffffffffffffffff" = some h
      ∧ IsLowerHex64 h ∧ hexWord h = PoseidonHasher.hash 10 (BitVec.allOnes 256)
      ∧ PythonPoseidon.poseidonHash (10 : Uint256).toNat (BitVec.allOnes 256).toNat
        = (PoseidonHasher.hash 10 (BitVec.allOnes 256)).toNat
      ∧ (PoseidonHasher.hash 10 (BitVec.allOnes 256)).toNat < Bn254.r :=
  hashes_agree (readsAs_ofList (by decide)) (readsAs_ofList (by decide))

/-! ## The pallet -/

section Pallet

open PalletPoseidon (U256 U512 BN254_MODULUS)

/-- The four lower limbs of a wide integer. -/
theorem ofLimbs_limb (x : U512) :
    U256.ofLimbs (U512.limb x 0) (U512.limb x 1) (U512.limb x 2) (U512.limb x 3)
      = x.setWidth 256 := by
  unfold U256.ofLimbs U512.limb
  rw [BitVec.extractLsb'_append_extractLsb'_eq_extractLsb' (by rfl),
    BitVec.extractLsb'_append_extractLsb'_eq_extractLsb' (by rfl),
    BitVec.extractLsb'_append_extractLsb'_eq_extractLsb' (by rfl)]
  rfl

theorem u256Addmod_eq (a b m : U256) : PalletPoseidon.u256Addmod a b m = addmod a b m := by
  have hsum : (U512.ofU256 a + U512.ofU256 b).toNat = a.toNat + b.toNat :=
    toNat_widen_add a b (by decide)
  have hm : (U512.ofU256 m).toNat = m.toNat := toNat_widen m
  unfold PalletPoseidon.u256Addmod addmod
  rw [ofLimbs_limb]
  apply BitVec.eq_of_toNat_eq
  rw [BitVec.toNat_setWidth, BitVec.toNat_umod, hsum, hm, BitVec.toNat_ofNat]

theorem u256Mulmod_eq (a b m : U256) : PalletPoseidon.u256Mulmod a b m = mulmod a b m := by
  have hprod : (U512.ofU256 a * U512.ofU256 b).toNat = a.toNat * b.toNat :=
    toNat_widen_mul a b
  have hm : (U512.ofU256 m).toNat = m.toNat := toNat_widen m
  unfold PalletPoseidon.u256Mulmod mulmod
  rw [ofLimbs_limb]
  apply BitVec.eq_of_toNat_eq
  rw [BitVec.toNat_setWidth, BitVec.toNat_umod, hprod, hm, BitVec.toNat_ofNat]

/-- A constant of the pallet. -/
theorem hexConst_of_readsAs {s : String} {w : U256} (h : ReadsAs s w) :
    PalletPoseidon.hexConst s = w := by
  have hparse : PalletPoseidon.U256.fromStrRadix16 s = some (hexWord s) :=
    if_pos ⟨h.isHex64.isHex, h.isHex64.length_eq.le⟩
  unfold PalletPoseidon.hexConst
  rw [hparse, h.hexWord_eq]
  rfl

/-- **The constants of the pallet are those of the contracts.** -/
theorem texts_map_hexConst : texts.map PalletPoseidon.hexConst = params :=
  texts_readAs_params.map_eq hexConst_of_readsAs

/-- The constants of the partial rounds are below the modulus of the pallet. -/
theorem middle_mod : params.middle.map (· % BN254_MODULUS) = params.middle := by
  decide

theorem pallet_sbox (x : U256) :
    PalletPoseidon.sbox x = Poseidon.sbox (wordArith BN254_MODULUS) x := by
  simp only [PalletPoseidon.sbox, u256Mulmod_eq]
  rfl

theorem pallet_mdsRow (r s : Poseidon.State U256) :
    PalletPoseidon.mdsRow r s = Poseidon.row (wordArith BN254_MODULUS) r s := by
  simp only [PalletPoseidon.mdsRow, u256Mulmod_eq, u256Addmod_eq]
  rfl

theorem pallet_mds (s : Poseidon.State U256) :
    PalletPoseidon.mds s = Poseidon.mix (wordArith BN254_MODULUS) params s := by
  have hmatrix : PalletPoseidon.mdsMatrix = params.matrix :=
    congrArg Poseidon.Params.matrix texts_map_hexConst
  unfold PalletPoseidon.mds Poseidon.mix
  rw [pallet_mdsRow, pallet_mdsRow, pallet_mdsRow, hmatrix]

theorem pallet_fullRound :
    PalletPoseidon.fullRound = Poseidon.fullRound (wordArith BN254_MODULUS) params := by
  funext s rc
  simp only [PalletPoseidon.fullRound, pallet_mds, pallet_sbox, u256Addmod_eq]
  rfl

theorem pallet_partialRound :
    PalletPoseidon.partialRound = fun s rc => Poseidon.partialRound (wordArith BN254_MODULUS)
      params s (PalletPoseidon.hexConst rc % BN254_MODULUS) := by
  funext s rc
  simp only [PalletPoseidon.partialRound, pallet_mds, pallet_sbox, u256Addmod_eq]
  rfl

/-- A word is read back from its bytes. -/
theorem ofNat_beNat_toBytes (w : Bytes32) :
    BitVec.ofNat 256 (beNat (Bytes32.toBytes w)) = w := by
  apply BitVec.eq_of_toNat_eq
  rw [Bytes32.toBytes_eq_beBytes, beNat_beBytes, BitVec.toNat_ofNat,
    Nat.mod_eq_of_lt (b := 256 ^ 32) w.isLt, Nat.mod_eq_of_lt w.isLt]

/-- **What the pallet computes.** -/
theorem pallet_poseidonHash (left right : H256) :
    PalletPoseidon.poseidonHash left right = hashMod BN254_MODULUS left right := by
  have hfirst : PalletPoseidon.fullRcFirst = params.first :=
    congrArg Poseidon.Params.first texts_map_hexConst
  have hlast : PalletPoseidon.fullRcLast = params.last :=
    congrArg Poseidon.Params.last texts_map_hexConst
  have hmiddle : PalletPoseidon.partialRc.map (fun rc => PalletPoseidon.hexConst rc
      % BN254_MODULUS) = params.middle := by
    rw [← middle_mod, ← congrArg Poseidon.Params.middle texts_map_hexConst]
    exact (List.map_map).symm
  unfold PalletPoseidon.poseidonHash hashMod permute
  simp only [PalletPoseidon.U256.fromBigEndian, ofNat_beNat_toBytes, pallet_fullRound,
    pallet_partialRound, hfirst, hlast, ← hmiddle, List.foldl_map]

end Pallet

/-! ## The pallet and the contracts -/

/-- **Remainders modulo two coprime numbers** are the same for the first ones
modulo their product only. -/
theorem mod_eq_mod_iff {m r : ℕ} (hcoprime : m.Coprime r) (hle : r ≤ m) (hr : 0 < r) (n : ℕ) :
    n % m = n % r ↔ n % (m * r) < r := by
  constructor
  · intro h
    have hlt : n % r < r := Nat.mod_lt n hr
    have hm : n ≡ n % r [MOD m] := h.trans (Nat.mod_eq_of_lt (hlt.trans_le hle)).symm
    have hmr : n ≡ n % r [MOD m * r] :=
      (Nat.modEq_and_modEq_iff_modEq_mul hcoprime).mp ⟨hm, (Nat.mod_modEq n r).symm⟩
    exact (hmr.trans_le (Nat.mod_le _ _)).trans_lt hlt
  · intro h
    have hm : n % (m * r) % m = n % m := Nat.mod_mul_right_mod n m r
    have hn : n % (m * r) % r = n % r := Nat.mod_mul_left_mod n m r
    rw [← hm, ← hn, Nat.mod_eq_of_lt h, Nat.mod_eq_of_lt (h.trans_le hle)]

/-- **Where the pallet hashes as the contracts do**: of the remainders modulo
the product of the two moduli only the first `r` are good. -/
theorem palletHash_eq_iff (left right : Bytes32) :
    Bytes32.toBytes (PalletPoseidon.poseidonHash left right)
        = beBytes 32 (PoseidonHasher.hash left right).toNat
      ↔ poseidonNat left.toNat right.toNat
          % (PalletPoseidon.BN254_MODULUS.toNat * Bn254.r) < Bn254.r := by
  have hcoprime : PalletPoseidon.BN254_MODULUS.toNat.Coprime Bn254.r := by decide
  rw [← Bytes32.toBytes_eq_beBytes, Bytes32.toBytes_inj, pallet_poseidonHash,
    ← BitVec.toNat_inj, toNat_hashMod (by decide), toNat_hash,
    mod_eq_mod_iff hcoprime (by decide) (by decide)]

/-- **One of two inputs is hashed differently**, when the pallet takes them
for the same field element and the contracts do not hash them to the same. -/
theorem not_agree_of_shift {left left' right : Bytes32}
    (hsame : left.toNat ≡ left'.toNat [MOD PalletPoseidon.BN254_MODULUS.toNat])
    (hne : PoseidonHasher.hash left right ≠ PoseidonHasher.hash left' right) :
    ¬ (PalletPoseidon.poseidonHash left right = PoseidonHasher.hash left right
      ∧ PalletPoseidon.poseidonHash left' right = PoseidonHasher.hash left' right) := by
  rintro ⟨h, h'⟩
  have hmod : left % PalletPoseidon.BN254_MODULUS = left' % PalletPoseidon.BN254_MODULUS := by
    apply BitVec.eq_of_toNat_eq
    rw [BitVec.toNat_umod, BitVec.toNat_umod]
    exact hsame
  have hpallet : PalletPoseidon.poseidonHash left right
      = PalletPoseidon.poseidonHash left' right := by
    rw [pallet_poseidonHash, pallet_poseidonHash, hashMod, hashMod, hmod]
  exact hne (h.symm.trans (hpallet.trans h'))

/-- **The two hashes of two zeros** are not the same. -/
theorem palletHash_zero_ne :
    ¬ Bytes32.toBytes (PalletPoseidon.poseidonHash 0 0)
      = beBytes 32 (PoseidonHasher.hash 0 0).toNat := by
  rw [← Bytes32.toBytes_eq_beBytes, Bytes32.toBytes_inj, pallet_poseidonHash,
    hash_eq_hashMod]
  decide +kernel

end PoseidonAgreement
