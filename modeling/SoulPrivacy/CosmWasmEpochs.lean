import SoulPrivacy.CosmWasmNullifiers

/-!
# When an epoch of the CosmWasm pool can be finalized

Finalizing hashes the nullifiers of the epoch one into the other, and the hash
panics on a text that it cannot read. Nothing checks that when a nullifier is
spent. So governance can finalize the current epoch exactly when every nullifier
spent since the last one was finalized can be read (`finalizeEpoch_ok_iff`); one
that cannot be read keeps the epoch open for good (`exists_run_stuck`).
-/

namespace CosmWasmPool

open CosmWasmPoseidon (hexTo32)

variable {C : Crypto}

/-! ## Texts that can be read -/

/-- **The parser reads a text.** -/
def Readable (s : String) : Prop := (hexTo32 s).isSome = true

instance (s : String) : Decidable (Readable s) :=
  inferInstanceAs (Decidable ((hexTo32 s).isSome = true))

theorem readable_toHex (w : Bytes32) : Readable (Bytes32.toHex w) := by
  obtain ⟨bytes, hbytes, -⟩ :=
    CosmWasmPoseidon.hexTo32_of_isHex64 (Bytes32.isLowerHex64_toHex w).isHex64
  exact Option.isSome_iff_exists.mpr ⟨bytes, hbytes⟩

/-- **The hash needs both texts**, and its own can be read. -/
theorem poseidonHashHex_eq_ok {left right h : String} :
    poseidonHashHex C left right = .ok h →
      Readable left ∧ Readable right ∧ Readable h := by
  intro hhash
  unfold poseidonHashHex CosmWasmPoseidon.hashHex at hhash
  rw [orRevert_eq_ok] at hhash
  simp only [Option.bind_eq_bind, Option.bind_eq_some_iff] at hhash
  obtain ⟨leftBytes, hleft, rightBytes, hright, hh⟩ := hhash
  refine ⟨Option.isSome_iff_exists.mpr ⟨leftBytes, hleft⟩,
    Option.isSome_iff_exists.mpr ⟨rightBytes, hright⟩, ?_⟩
  cases hh
  exact readable_toHex _

theorem exists_poseidonHashHex {left right : String} (hleft : Readable left)
    (hright : Readable right) : ∃ h, poseidonHashHex C left right = .ok h := by
  obtain ⟨leftBytes, hl⟩ := Option.isSome_iff_exists.mp hleft
  obtain ⟨rightBytes, hr⟩ := Option.isSome_iff_exists.mp hright
  unfold poseidonHashHex CosmWasmPoseidon.hashHex
  rw [hl, hr]
  exact ⟨_, rfl⟩

/-- **Hashing a list into a text** needs all of them, unless there is nothing to
hash. -/
theorem foldlM_poseidonHashHex_iff {first : String} {rest : List String} :
    (∃ root, rest.foldlM (poseidonHashHex C) first = .ok root) ↔
      rest = [] ∨ ∀ n ∈ first :: rest, Readable n := by
  induction rest generalizing first with
  | nil => exact iff_of_true ⟨first, rfl⟩ (.inl rfl)
  | cons n rest ih =>
    simp only [List.foldlM_cons, Except.bind_eq_ok, reduceCtorEq, false_or]
    constructor
    · rintro ⟨root, h, hhash, hrest⟩
      obtain ⟨hfirst, hn, -⟩ := poseidonHashHex_eq_ok hhash
      rw [List.forall_mem_cons, List.forall_mem_cons]
      refine ⟨hfirst, hn, ?_⟩
      rcases ih.mp ⟨root, hrest⟩ with rfl | hall
      · exact nofun
      · exact (List.forall_mem_cons.mp hall).2
    · intro hall
      rw [List.forall_mem_cons, List.forall_mem_cons] at hall
      obtain ⟨hfirst, hn, hrest⟩ := hall
      obtain ⟨h, hhash⟩ := exists_poseidonHashHex (C := C) hfirst hn
      have hh := (poseidonHashHex_eq_ok hhash).2.2
      obtain ⟨root, hroot⟩ := ih.mpr (.inr (List.forall_mem_cons.mpr ⟨hh, hrest⟩))
      exact ⟨root, h, hhash, hroot⟩

/-- **The root of a list** other than one of a single nullifier needs all of
them. -/
theorem nullifierRootOf_iff {nullifiers : List String} (hlen : nullifiers.length ≠ 1) :
    (∃ root, nullifierRootOf C nullifiers = .ok root) ↔ ∀ n ∈ nullifiers, Readable n := by
  cases nullifiers with
  | nil => exact iff_of_true ⟨_, rfl⟩ nofun
  | cons first rest =>
    have hne : rest ≠ [] := by
      rintro rfl
      exact hlen rfl
    exact foldlM_poseidonHashHex_iff.trans (or_iff_right hne)

/-! ## Finalizing -/

/-- Nullifiers are spent in pairs. -/
theorem even_length_pendingIn (tr : List (State × Call)) : Even (pendingIn tr).length := by
  induction tr using List.reverseRecOn with
  | nil => exact Even.zero
  | append_singleton tr p ih =>
    rw [pendingIn_snoc]
    unfold pendingStep
    split
    · exact Even.zero
    · rw [List.length_append]
      refine ih.add ?_
      unfold ExecuteMsg.spends
      split
      · exact even_two
      · exact even_two
      · exact Even.zero

/-- Governance finalizes an epoch when its root can be computed. -/
theorem Booked.finalizeEpoch_iff {spent pending : List String} {s : State}
    (h : Booked spent pending s) {height : ℕ} {info : MessageInfo}
    (hgovernance : info.sender = s.config.governance) :
    (∃ r, execute C height info .finalizeEpoch s = .ok r)
      ↔ ∃ root, nullifierRootOf C pending = .ok root := by
  constructor
  · rintro ⟨r, hr⟩
    obtain ⟨-, _, _, root, -, -, hlisted, hroot, -⟩ := executeFinalizeEpoch_eq_ok.mp hr
    cases h.listed.symm.trans hlisted
    exact ⟨root, hroot⟩
  · rintro ⟨root, hroot⟩
    obtain ⟨epoch, hepoch, hrunning⟩ := h.running
    exact ⟨_, executeFinalizeEpoch_eq_ok.mpr
      ⟨hgovernance, epoch, pending, root, hepoch, hrunning, h.listed, hroot, rfl⟩⟩

/-- **The current epoch can be finalized** – in any state of any run, by
governance at any height – exactly when every nullifier spent since the last one
was finalized can be read. -/
theorem finalizeEpoch_ok_iff {height : ℕ} {msg : InstantiateMsg} {tr : List (State × Call)}
    {s : State} (h : RunFrom C height msg (fun _ _ => True) tr s) (height' : ℕ)
    (info : MessageInfo) (hgovernance : info.sender = s.config.governance) :
    (∃ r, execute C height' info .finalizeEpoch s = .ok r)
      ↔ ∀ n ∈ pendingIn tr, Readable n := by
  have hlen : (pendingIn tr).length ≠ 1 := by
    intro hone
    have heven := even_length_pendingIn tr
    rw [hone] at heven
    exact Nat.not_even_one heven
  rw [(booked_of_run h).finalizeEpoch_iff hgovernance, nullifierRootOf_iff hlen]

/-- Two nullifiers that can be read, and an epoch that is finalized. -/
theorem finalizeEpoch_ok_iff_two : ∃ tr s r,
    RunFrom ⟨PoseidonHasher.hash, fun _ => 0⟩ 1 shallowMsg (fun _ _ => True) tr s
      ∧ pendingIn tr = [Bytes32.toHex 2, Bytes32.toHex 3]
      ∧ execute ⟨PoseidonHasher.hash, fun _ => 0⟩ 9 ⟨"gov", []⟩ .finalizeEpoch s = .ok r := by
  obtain ⟨tr, s, ⟨s₀, hs₀, hrun⟩, -, hpending, hgovernance⟩ := exists_run_spending (fun _ => 0)
    (HexProof.isZeros_toHex (show (2 : Bytes32) ≠ 0 by decide))
    (HexProof.isZeros_toHex (show (3 : Bytes32) ≠ 0 by decide))
    (Bytes32.toHex_injective.ne (show (2 : Bytes32) ≠ 3 by decide))
  have hrun' : RunFrom ⟨PoseidonHasher.hash, fun _ => 0⟩ 1 shallowMsg (fun _ _ => True) tr s :=
    ⟨s₀, hs₀, hrun.mono (fun _ _ _ => trivial)⟩
  have hreadable : ∀ n ∈ pendingIn tr, Readable n := by
    rw [hpending]
    intro n hn
    rcases List.mem_pair.mp hn with rfl | rfl
    · exact readable_toHex 2
    · exact readable_toHex 3
  obtain ⟨r, hr⟩ :=
    (finalizeEpoch_ok_iff hrun' 9 ⟨"gov", []⟩ hgovernance.symm).mpr hreadable
  exact ⟨tr, s, r, hrun', hpending, hr⟩

/-- **An epoch that stays open**: a transfer spends two nullifiers of one digit,
and from then on governance cannot finalize the epoch at any height, whatever
the hash of the proofs. -/
theorem exists_run_stuck : ¬ Readable "1" ∧ ∀ sha256 : Bytes → Bytes32, ∃ tr s,
    RunFrom ⟨PoseidonHasher.hash, sha256⟩ 1 shallowMsg (fun _ _ => True) tr s
      ∧ pendingIn tr = ["1", "2"]
      ∧ ∀ height info, info.sender = s.config.governance →
        ¬ ∃ r, execute ⟨PoseidonHasher.hash, sha256⟩ height info .finalizeEpoch s = .ok r := by
  have htexts : HexProof.isZeros "1" = false ∧ HexProof.isZeros "2" = false := by decide
  have hunreadable : ¬ Readable "1" := by decide +kernel
  refine ⟨hunreadable, fun sha256 => ?_⟩
  obtain ⟨tr, s, ⟨s₀, hs₀, hrun⟩, -, hpending, -⟩ :=
    exists_run_spending sha256 htexts.1 htexts.2 (by decide)
  have hrun' : RunFrom ⟨PoseidonHasher.hash, sha256⟩ 1 shallowMsg (fun _ _ => True) tr s :=
    ⟨s₀, hs₀, hrun.mono (fun _ _ _ => trivial)⟩
  have hbooked := booked_of_run hrun'
  rw [hpending] at hbooked
  refine ⟨tr, s, hrun', hpending, fun height info hgovernance hok => ?_⟩
  obtain ⟨root, hroot⟩ := (hbooked.finalizeEpoch_iff hgovernance).mp hok
  have hall := (nullifierRootOf_iff (by decide)).mp ⟨root, hroot⟩
  exact hunreadable (hall "1" List.mem_cons_self)

end CosmWasmPool
