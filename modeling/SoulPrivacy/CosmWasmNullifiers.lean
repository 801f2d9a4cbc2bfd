import SoulPrivacy.CosmWasmBinding
import SoulPrivacy.CosmWasmBooks

/-!
# What the nullifiers of the CosmWasm pool denote

A nullifier is marked as a text, and what it denotes is the field element that
the hash reads from it (`fieldElement`). Among the texts that are canonical, one
and only one denotes each element (`Canonical.eq_of_sameElement`,
`exists_canonical`), so a run whose nullifiers are canonical – or cannot be read
at all – spends each element once (`elements_differ_of_run`). But the contract
takes any text: the other case, more characters after the last, a sign, or a
value that is not reduced is a second nullifier for the same element
(`exists_run_alias`).
-/

namespace CosmWasmPool

open CosmWasmPoseidon (hexTo32 fromBeBytes p)

variable {C : Crypto}

/-! ## Field elements -/

/-- **The field element that the hash reads from a text**, where it can. -/
def fieldElement (s : String) : Option Uint256 :=
  (hexTo32 s).map (fun bytes => fromBeBytes bytes % p)

/-- A given text, by its characters. -/
theorem fieldElement_ofList {cs : List Char} {x : Option Uint256}
    (h : ((List.range 32).mapM (fun i => (RustString.slice cs (i * 2) (i * 2 + 2)).bind
      RustString.u8FromStrRadix16)).map (fun bytes => fromBeBytes bytes % p) = x) :
    fieldElement (String.ofList cs) = x := by
  unfold fieldElement hexTo32
  rwa [String.toList_ofList]

/-- Two texts denote the same element. -/
def SameElement (s t : String) : Prop :=
  ∃ x, fieldElement s = some x ∧ fieldElement t = some x

/-- **A text as it is written for an element**: lower-case digits, of a value
below the order of the field. -/
structure Canonical (s : String) : Prop where
  isLowerHex64 : IsLowerHex64 s
  lt : (hexWord s).toNat < Bn254.r

theorem toNat_p : p.toNat = Bn254.r := by decide +kernel

/-- A canonical text denotes its word. -/
theorem Canonical.fieldElement_eq {s : String} (h : Canonical s) :
    fieldElement s = some (hexWord s) := by
  obtain ⟨bytes, hbytes, hword⟩ := CosmWasmPoseidon.hexTo32_of_isHex64 h.isLowerHex64.isHex64
  have hmod : hexWord s % p = hexWord s := by
    apply BitVec.eq_of_toNat_eq
    rw [BitVec.toNat_umod, toNat_p, Nat.mod_eq_of_lt h.lt]
  unfold fieldElement
  rw [hbytes, Option.map_some, hword, hmod]

/-- **Canonical texts of one element are the same.** -/
theorem Canonical.eq_of_sameElement {s t : String} (hs : Canonical s) (ht : Canonical t)
    (h : SameElement s t) : s = t := by
  obtain ⟨x, hsx, htx⟩ := h
  rw [hs.fieldElement_eq, ← htx, ht.fieldElement_eq] at hsx
  rw [← Bytes32.toHex_hexWord hs.isLowerHex64, ← Bytes32.toHex_hexWord ht.isLowerHex64,
    Option.some.inj hsx]

/-- **Every element has a canonical text**, so whatever else denotes it is one
more. -/
theorem exists_canonical {s : String} {x : Uint256} (h : fieldElement s = some x) :
    Canonical (Bytes32.toHex x) ∧ SameElement s (Bytes32.toHex x) := by
  have hlt : x.toNat < Bn254.r := by
    obtain ⟨bytes, -, rfl⟩ := Option.map_eq_some_iff.mp h
    rw [BitVec.toNat_umod, toNat_p]
    exact Nat.mod_lt _ (by decide)
  have hcanonical : Canonical (Bytes32.toHex x) :=
    ⟨Bytes32.isLowerHex64_toHex x, by rwa [Bytes32.hexWord_toHex]⟩
  refine ⟨hcanonical, x, h, ?_⟩
  rw [hcanonical.fieldElement_eq, Bytes32.hexWord_toHex]

/-! ## Runs -/

/-- **A nullifier that is canonical, if it can be read.** -/
def CanonicalIfRead (s : String) : Prop := fieldElement s = none ∨ Canonical s

/-- **The elements differ** in every run whose nullifiers are canonical or
cannot be read. -/
theorem elements_differ_of_run {height : ℕ} {msg : InstantiateMsg}
    {tr : List (State × Call)} {s : State}
    (h : RunFrom C height msg (fun _ c => ∀ n ∈ c.msg.spends, CanonicalIfRead n) tr s) :
    (spentIn tr).Pairwise (fun m n => ¬ SameElement m n) := by
  have hcanonical : ∀ n ∈ spentIn tr, CanonicalIfRead n := by
    obtain ⟨s₀, -, hrun⟩ := h
    refine hrun.invariant (I := fun tr _ => ∀ n ∈ spentIn tr, CanonicalIfRead n) nofun ?_
    intro tr s c s' hspent hallowed _ n hn
    rw [spentIn_snoc] at hn
    exact (List.mem_append.mp hn).elim (hspent n) (hallowed n)
  refine (booked_of_run h).nodup.imp_of_mem (fun {m n} hm hn hne hsame => ?_)
  obtain ⟨x, hmx, hnx⟩ := hsame
  rcases hcanonical m hm with hm | hm
  · exact Option.some_ne_none x (hmx.symm.trans hm)
  · rcases hcanonical n hn with hn | hn
    · exact Option.some_ne_none x (hnx.symm.trans hn)
    · exact hne (hm.eq_of_sameElement hn ⟨x, hmx, hnx⟩)

/-- **Any two nullifiers are spent by one transfer** after the first deposit, as
long as they differ and neither is zero. -/
theorem exists_run_spending (sha256 : Bytes → Bytes32) {m n : String}
    (hm : HexProof.isZeros m = false) (hn : HexProof.isZeros n = false) (hne : m ≠ n) :
    ∃ tr s, RunFrom ⟨PoseidonHasher.hash, sha256⟩ 1 shallowMsg
        (fun _ c => c.msg.spends = [] ∨ c.msg.spends = [m, n]) tr s
      ∧ spentIn tr = [m, n] ∧ pendingIn tr = [m, n]
      ∧ s.config.governance = "gov" := by
  obtain ⟨s₀, s₁, hs₀, hdeposit, hdeposited⟩ := exists_deposited ⟨PoseidonHasher.hash, sha256⟩
    (Bytes32.isLowerHex64_toHex 7).isHex64 (show (100 : BitVec 128) ≠ 0 by decide)
  let spend := HexProof.spendOf firstRoot (m, n)
  have hhex : ∀ w, IsHex64 (Bytes32.toHex w) := fun w => (Bytes32.isLowerHex64_toHex w).isHex64
  have hout₁ : HexProof.isZeros (Bytes32.toHex 4) = false := HexProof.isZeros_toHex (by decide)
  have hout₂ : HexProof.isZeros (Bytes32.toHex 5) = false := HexProof.isZeros_toHex (by decide)
  have hwf : spend.WellFormed := ⟨isZeros_firstRoot, hm, hn, hne, hout₁, hout₂,
    Bytes32.toHex_injective.ne (by decide)⟩
  have hcovers : Covers ⟨PoseidonHasher.hash, sha256⟩ s₁ (.transfer spend) :=
    hdeposited.covers hwf trivial (root_eq_firstRoot sha256).symm (hhex 4) (hhex 5)
  obtain ⟨height, info, ⟨s₂, msgs⟩, hexec⟩ := accepts_iff.mpr ⟨hcovers,
    HexProof.shaped_proofOf spend.text, HexProof.tagged_proofOf spend.text⟩
  have htransfer : step ⟨PoseidonHasher.hash, sha256⟩
      ⟨height, info, msgOf (HexProof.proofOf sha256 spend.text) (.transfer spend)⟩ s₁ = .ok s₂ :=
    congrArg (Except.map Prod.fst) hexec
  refine ⟨_, s₂, ⟨s₀, hs₀, (Run.nil.snoc (.inl rfl) hdeposit).snoc (.inr rfl) htransfer⟩, rfl,
    rfl, ?_⟩
  obtain ⟨-, -, -, s', htwo, heq⟩ := executeTransfer_eq_ok.mp hexec
  cases heq
  obtain ⟨t, rfl⟩ := htwo.exists_withTree
  exact hdeposited.governance

/-- **Two canonical nullifiers.** -/
theorem elements_differ_of_run_two : ∃ tr s,
    RunFrom ⟨PoseidonHasher.hash, fun _ => 0⟩ 1 shallowMsg
        (fun _ c => ∀ n ∈ c.msg.spends, CanonicalIfRead n) tr s
      ∧ spentIn tr = [Bytes32.toHex 2, Bytes32.toHex 3]
      ∧ (spentIn tr).Pairwise (fun m n => ¬ SameElement m n) := by
  have hcanonical : ∀ w : Bytes32, w.toNat < Bn254.r → CanonicalIfRead (Bytes32.toHex w) :=
    fun w hlt => .inr ⟨Bytes32.isLowerHex64_toHex w, by rwa [Bytes32.hexWord_toHex]⟩
  obtain ⟨tr, s, ⟨s₀, hs₀, hrun⟩, hspent, -, -⟩ := exists_run_spending (fun _ => 0)
    (HexProof.isZeros_toHex (show (2 : Bytes32) ≠ 0 by decide))
    (HexProof.isZeros_toHex (show (3 : Bytes32) ≠ 0 by decide))
    (Bytes32.toHex_injective.ne (show (2 : Bytes32) ≠ 3 by decide))
  have hrun' : RunFrom ⟨PoseidonHasher.hash, fun _ => 0⟩ 1 shallowMsg
      (fun _ c => ∀ n ∈ c.msg.spends, CanonicalIfRead n) tr s := by
    refine ⟨s₀, hs₀, hrun.mono (fun _ c hc n hn => ?_)⟩
    rcases hc with hc | hc
    · rw [hc] at hn
      exact absurd hn List.not_mem_nil
    · rw [hc] at hn
      rcases List.mem_pair.mp hn with rfl | rfl
      · exact hcanonical 2 (by decide)
      · exact hcanonical 3 (by decide)
  exact ⟨tr, s, hrun', hspent, elements_differ_of_run hrun'⟩

/-! ## One element under two names -/

/-- **Two texts of one element are spent by one transfer.** -/
theorem exists_run_sameElement (sha256 : Bytes → Bytes32) {m n : String}
    (hm : HexProof.isZeros m = false) (hn : HexProof.isZeros n = false) (hne : m ≠ n)
    (hsame : SameElement m n) :
    ∃ tr s, RunFrom ⟨PoseidonHasher.hash, sha256⟩ 1 shallowMsg (fun _ _ => True) tr s
      ∧ spentIn tr = [m, n] ∧ ¬ (spentIn tr).Pairwise (fun m n => ¬ SameElement m n) := by
  obtain ⟨tr, s, ⟨s₀, hs₀, hrun⟩, hspent, -, -⟩ := exists_run_spending sha256 hm hn hne
  refine ⟨tr, s, ⟨s₀, hs₀, hrun.mono (fun _ _ _ => trivial)⟩, hspent, fun hpairwise => ?_⟩
  rw [hspent, List.pairwise_pair] at hpairwise
  exact hpairwise hsame

/-- Two texts of zero that do not count as zero. -/
def zeroTexts : String × String :=
  ("30644e72e131a029b85045b68181585d2833e84879b9709143e1f593f0000001",
    "60c89ce5c263405370a08b6d0302b0ba5067d090f372e12287c3eb27e0000002")

/-- **Every text that can be read and is not canonical** has another one beside
which it is spent. -/
theorem exists_run_of_not_canonical (sha256 : Bytes → Bytes32) {n : String}
    (hn : HexProof.isZeros n = false) (hread : fieldElement n ≠ none) (hnot : ¬ Canonical n) :
    ∃ m tr s, SameElement n m
      ∧ RunFrom ⟨PoseidonHasher.hash, sha256⟩ 1 shallowMsg (fun _ _ => True) tr s
      ∧ spentIn tr = [n, m] := by
  obtain ⟨x, hx⟩ := Option.ne_none_iff_exists'.mp hread
  obtain ⟨m, hm, hne, hsame⟩ : ∃ m, HexProof.isZeros m = false ∧ n ≠ m ∧ SameElement n m := by
    by_cases hzero : x = 0
    · -- zero has no canonical text that is taken, but it has others
      have hzeros : HexProof.isZeros zeroTexts.1 = false ∧ HexProof.isZeros zeroTexts.2 = false
          ∧ zeroTexts.1 ≠ zeroTexts.2 :=
        ⟨HexProof.isZeros_ofList (by decide +kernel), HexProof.isZeros_ofList (by decide +kernel),
          by decide +kernel⟩
      have helements : fieldElement zeroTexts.1 = some 0 ∧ fieldElement zeroTexts.2 = some 0 :=
        ⟨fieldElement_ofList (by decide +kernel), fieldElement_ofList (by decide +kernel)⟩
      by_cases hfirst : n = zeroTexts.1
      · exact ⟨_, hzeros.2.1, hfirst ▸ hzeros.2.2, 0, hzero ▸ hx, helements.2⟩
      · exact ⟨_, hzeros.1, hfirst, 0, hzero ▸ hx, helements.1⟩
    · obtain ⟨hcanonical, hsame⟩ := exists_canonical hx
      exact ⟨_, HexProof.isZeros_toHex hzero, fun heq => hnot (heq ▸ hcanonical), hsame⟩
  obtain ⟨tr, s, hrun, hspent, -⟩ := exists_run_sameElement sha256 hn hm hne hsame
  exact ⟨m, tr, s, hsame, hrun, hspent⟩

/-- **Five texts of ten**: the canonical one, one in the other case, one with
more behind it, one with a sign, and one that is not reduced. -/
def tenTexts : List String :=
  ["000000000000000000000000000000000000000000000000000000000000000a",
    "000000000000000000000000000000000000000000000000000000000000000A",
    "000000000000000000000000000000000000000000000000000000000000000azz",
    "00000000000000000000000000000000000000000000000000000000000000+a",
    "30644e72e131a029b85045b68181585d2833e84879b9709143e1f593f000000b"]

/-- **Any two of them are spent by one transfer**, whatever the hash of the
proofs. -/
theorem exists_run_alias : (∀ t ∈ tenTexts, fieldElement t = some 10) ∧ tenTexts.Nodup
    ∧ ∀ sha256 : Bytes → Bytes32, ∀ m ∈ tenTexts, ∀ n ∈ tenTexts, m ≠ n →
      ∃ tr s, RunFrom ⟨PoseidonHasher.hash, sha256⟩ 1 shallowMsg (fun _ _ => True) tr s
        ∧ spentIn tr = [m, n] ∧ ¬ (spentIn tr).Pairwise (fun m n => ¬ SameElement m n) := by
  have htexts : ∀ t ∈ tenTexts, fieldElement t = some 10 ∧ HexProof.isZeros t = false := by
    intro t ht
    simp only [tenTexts, List.mem_cons, List.not_mem_nil, or_false] at ht
    rcases ht with rfl | rfl | rfl | rfl | rfl
    all_goals exact ⟨fieldElement_ofList (by decide +kernel),
      HexProof.isZeros_ofList (by decide +kernel)⟩
  refine ⟨fun t ht => (htexts t ht).1, by decide +kernel, fun sha256 m hm n hn hne => ?_⟩
  obtain ⟨hm10, hmzeros⟩ := htexts m hm
  obtain ⟨hn10, hnzeros⟩ := htexts n hn
  exact exists_run_sameElement sha256 hmzeros hnzeros hne ⟨10, hm10, hn10⟩

end CosmWasmPool
