import SoulPrivacy.HexWords
import SoulPrivacy.NullifierRoot
import SoulPrivacy.PoseidonHasher

/-!
# The epoch roots of the other chains

The Substrate pallet, the CosmWasm pool and the NEAR pool hash the
nullifiers of an epoch one after the other (`linearRoot`); the pallet does
so on words, the other two on their hexadecimal digits. The epoch manager
hashes them in a tree. For up to two nullifiers this makes no difference;
for any longer list the roots are those of different expressions, and
there are hash functions that tell them apart (`epochRoots_agree_iff`).
-/

/-! ## The roots -/

namespace LinearRoots

variable {α β : Type}

/-- **The nullifiers hashed one after the other**, starting from the
first. -/
def linearRoot (zero : α) (hash : α → α → α) : List α → α
  | [] => zero
  | first :: rest => rest.foldl hash first

/-- On another representation of the words, the root is represented
likewise. -/
theorem linearRoot_map {zero : α} {hash : α → α → α} {hash' : β → β → β} {f : α → β}
    (hf : ∀ a b, hash' (f a) (f b) = f (hash a b)) (nullifiers : List α) :
    linearRoot (f zero) hash' (nullifiers.map f) = f (linearRoot zero hash nullifiers) := by
  cases nullifiers with
  | nil => rfl
  | cons first rest =>
    show (rest.map f).foldl hash' (f first) = f (rest.foldl hash first)
    induction rest generalizing first with
    | nil => rfl
    | cons second rest ih => rw [List.map_cons, List.foldl_cons, hf, ih, List.foldl_cons]

/-- The last nullifier is hashed last. -/
theorem linearRoot_append_singleton (zero : α) (hash : α → α → α) {nullifiers : List α}
    (hne : nullifiers ≠ []) (last : α) :
    linearRoot zero hash (nullifiers ++ [last])
      = hash (linearRoot zero hash nullifiers) last := by
  cases nullifiers with
  | nil => exact absurd rfl hne
  | cons first rest =>
    show (rest ++ [last]).foldl hash first = _
    rw [List.foldl_append]
    rfl

end LinearRoots

open LinearRoots (linearRoot)

/-- `compute_nullifier_root` of the Substrate pallet. -/
def PrivacyPoolPallet.computeNullifierRoot (hash : Bytes32 → Bytes32 → Bytes32)
    (nullifiers : List Bytes32) : Bytes32 :=
  linearRoot 0 hash nullifiers

/-- `ZERO_HASH` of the two pools that work on digits. -/
def ZERO_HASH : String := "0000000000000000000000000000000000000000000000000000000000000000"

/-- `compute_nullifier_root` of the CosmWasm pool. -/
def CosmWasmPool.computeNullifierRoot (hash : String → String → String)
    (nullifiers : List String) : String :=
  linearRoot ZERO_HASH hash nullifiers

/-- `compute_nullifier_root` of the NEAR pool. -/
def NearPool.computeNullifierRoot (hash : String → String → String)
    (nullifiers : List String) : String :=
  linearRoot ZERO_HASH hash nullifiers

namespace LinearRoots

theorem toHex_zero : Bytes32.toHex 0 = ZERO_HASH := by decide +kernel

/-- **The same hash on digits.** -/
def SameHash (hash : Bytes32 → Bytes32 → Bytes32) (hashHex : String → String → String) :
    Prop :=
  ∀ a b, hashHex (Bytes32.toHex a) (Bytes32.toHex b) = Bytes32.toHex (hash a b)

/-- Every hash is one on digits as well. -/
theorem exists_sameHash (hash : Bytes32 → Bytes32 → Bytes32) :
    ∃ hashHex, SameHash hash hashHex := by
  have hleft := Function.leftInverse_invFun Bytes32.toHex_injective
  refine ⟨fun s t => Bytes32.toHex (hash (Function.invFun Bytes32.toHex s)
    (Function.invFun Bytes32.toHex t)), fun a b => ?_⟩
  dsimp only
  rw [hleft a, hleft b]

/-- The root on digits is that of the pallet. -/
theorem linearRoot_toHex {hash : Bytes32 → Bytes32 → Bytes32}
    {hashHex : String → String → String} (h : SameHash hash hashHex)
    (nullifiers : List Bytes32) :
    linearRoot ZERO_HASH hashHex (nullifiers.map Bytes32.toHex)
      = Bytes32.toHex (PrivacyPoolPallet.computeNullifierRoot hash nullifiers) := by
  rw [← toHex_zero]
  exact linearRoot_map h nullifiers

/-! ## Agreement -/

/-- **The four roots are the same.** -/
structure EpochRootsAgree (hash : Bytes32 → Bytes32 → Bytes32)
    (hashHex : String → String → String) (nullifiers : List Bytes32) : Prop where
  pallet : EpochManager.computeNullifierRoot hash nullifiers
    = some (PrivacyPoolPallet.computeNullifierRoot hash nullifiers)
  cosmWasm : (EpochManager.computeNullifierRoot hash nullifiers).map Bytes32.toHex
    = some (CosmWasmPool.computeNullifierRoot hashHex (nullifiers.map Bytes32.toHex))
  near : (EpochManager.computeNullifierRoot hash nullifiers).map Bytes32.toHex
    = some (NearPool.computeNullifierRoot hashHex (nullifiers.map Bytes32.toHex))

/-- It is enough to look at words. -/
theorem epochRootsAgree_iff {hash : Bytes32 → Bytes32 → Bytes32}
    {hashHex : String → String → String} (h : SameHash hash hashHex)
    (nullifiers : List Bytes32) :
    EpochRootsAgree hash hashHex nullifiers
      ↔ EpochManager.merkleRoot hash nullifiers = linearRoot 0 hash nullifiers := by
  have hwords := EpochManager.computeNullifierRoot_eq hash nullifiers
  constructor
  · intro hagree
    exact Option.some.inj (hwords.symm.trans hagree.pallet)
  · intro heq
    have hpallet : EpochManager.computeNullifierRoot hash nullifiers
        = some (PrivacyPoolPallet.computeNullifierRoot hash nullifiers) :=
      hwords.trans (congrArg some heq)
    have hhex : (EpochManager.computeNullifierRoot hash nullifiers).map Bytes32.toHex
        = some (linearRoot ZERO_HASH hashHex (nullifiers.map Bytes32.toHex)) := by
      rw [hpallet, linearRoot_toHex h]
      rfl
    exact ⟨hpallet, hhex, hhex⟩

/-- Up to two nullifiers, both are the same expression. -/
theorem merkleRoot_eq_linearRoot (hash : Bytes32 → Bytes32 → Bytes32)
    {nullifiers : List Bytes32} (h : nullifiers.length ≤ 2) :
    EpochManager.merkleRoot hash nullifiers = linearRoot 0 hash nullifiers := by
  match nullifiers, h with
  | [], _ => rfl
  | [n], _ => exact EpochManager.merkleRoot_singleton hash n
  | [m, n], _ => exact EpochManager.merkleRoot_pair hash m n
  | _ :: _ :: _ :: _, h => exact absurd h (by simp)

/-- From three on, the tree hashes two hash values last. -/
theorem merkleRoot_of_two_lt (hash : Bytes32 → Bytes32 → Bytes32)
    {nullifiers : List Bytes32} (h : 2 < nullifiers.length) :
    ∃ a b c d, EpochManager.merkleRoot hash nullifiers = hash (hash a b) (hash c d) := by
  have hdepth : 1 < Nat.clog 2 nullifiers.length :=
    (Nat.lt_clog_iff_pow_lt Nat.one_lt_two).mpr h
  obtain ⟨k, hk⟩ := Nat.exists_eq_add_of_lt hdepth
  have hk' : Nat.clog 2 nullifiers.length = k + 1 + 1 := by omega
  unfold EpochManager.merkleRoot HashTree.root
  rw [hk', HashTree.node_succ, HashTree.node_succ, HashTree.node_succ]
  exact ⟨_, _, _, _, rfl⟩

/-- A hash with two values: one if a given element is on the right, and the
other one otherwise. Neither is that element. -/
def marking (x : Bn254.Element) : Bn254.FieldHash where
  hash _ right := if Bn254.toField right = x then Bn254.ofField (x + 1)
    else Bn254.ofField (x + 2)
  lt _ _ := by
    split <;> exact (Bn254.toNat_ofField _).trans_lt (ZMod.val_lt _)
  congr _ hright := by rw [Bn254.toField_eq_iff.mpr hright]

theorem marking_of_eq (left : Bytes32) {right : Bytes32} {x : Bn254.Element}
    (h : Bn254.toField right = x) : Bn254.toField ((marking x).hash left right) = x + 1 :=
  (congrArg Bn254.toField (if_pos h)).trans (Bn254.toField_ofField _)

theorem marking_of_ne (left : Bytes32) {right : Bytes32} {x : Bn254.Element}
    (h : Bn254.toField right ≠ x) : Bn254.toField ((marking x).hash left right) = x + 2 :=
  (congrArg Bn254.toField (if_neg h)).trans (Bn254.toField_ofField _)

theorem marking_ne (left right : Bytes32) (x : Bn254.Element) :
    Bn254.toField ((marking x).hash left right) ≠ x := by
  by_cases h : Bn254.toField right = x
  · have hone : (1 : Bn254.Element) ≠ 0 := by decide
    rw [marking_of_eq left h]
    simpa using hone
  · have htwo : (2 : Bn254.Element) ≠ 0 := by decide
    rw [marking_of_ne left h]
    simpa using htwo

/-- **Such a hash tells the expressions apart**: of the two, only the
linear one hashes the last nullifier at the end. -/
theorem exists_separating_hash {nullifiers : List Bytes32} (h : 2 < nullifiers.length) :
    ∃ F : Bn254.FieldHash,
      EpochManager.merkleRoot F.hash nullifiers ≠ linearRoot 0 F.hash nullifiers := by
  have hne : nullifiers ≠ [] := List.ne_nil_of_length_pos (by omega)
  obtain ⟨front, last, rfl⟩ := (List.eq_nil_or_concat nullifiers).resolve_left hne
  rw [List.concat_eq_append] at h ⊢
  have hfront : front ≠ [] := by
    rintro rfl
    exact absurd h (by simp)
  let F := marking (Bn254.toField last)
  obtain ⟨a, b, c, d, htree⟩ := merkleRoot_of_two_lt F.hash h
  refine ⟨F, fun heq => ?_⟩
  -- the tree ends with a hash on the right, the other with the last nullifier
  rw [htree, linearRoot_append_singleton 0 F.hash hfront] at heq
  have hsame := congrArg Bn254.toField heq
  rw [marking_of_ne _ (marking_ne c d _), marking_of_eq _ rfl] at hsame
  exact absurd (add_left_cancel hsame) (by decide)

/-- **The roots of the four chains are the same for every hash function if
and only if there are at most two nullifiers.** -/
theorem epochRoots_agree_iff (nullifiers : List Bytes32) :
    (∀ hash hashHex, SameHash hash hashHex → EpochRootsAgree hash hashHex nullifiers)
      ↔ nullifiers.length ≤ 2 := by
  constructor
  · intro hagree
    by_contra hlong
    obtain ⟨F, hF⟩ := exists_separating_hash (not_le.mp hlong)
    obtain ⟨hashHex, hsame⟩ := exists_sameHash F.hash
    exact hF ((epochRootsAgree_iff hsame nullifiers).mp (hagree F.hash hashHex hsame))
  · intro hshort hash hashHex hsame
    exact (epochRootsAgree_iff hsame nullifiers).mpr (merkleRoot_eq_linearRoot hash hshort)

/-- **Four nullifiers, with the hash of the contracts.** -/
theorem exists_different_roots :
    ∃ hashHex, SameHash PoseidonHasher.hash hashHex
      ∧ ¬ EpochRootsAgree PoseidonHasher.hash hashHex [5, 6, 7, 8] := by
  obtain ⟨hashHex, hsame⟩ := exists_sameHash PoseidonHasher.hash
  refine ⟨hashHex, hsame, fun h => ?_⟩
  have heq := (epochRootsAgree_iff hsame [5, 6, 7, 8]).mp h
  rw [EpochManager.merkleRoot_four] at heq
  have hdiffer : PoseidonHasher.hash (PoseidonHasher.hash 5 6) (PoseidonHasher.hash 7 8)
      ≠ PoseidonHasher.hash (PoseidonHasher.hash (PoseidonHasher.hash 5 6) 7) 8 := by
    decide +kernel
  exact hdiffer heq

end LinearRoots
