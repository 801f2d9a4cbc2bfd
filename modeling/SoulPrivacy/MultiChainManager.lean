import SoulPrivacy.InsertionMap
import SoulPrivacy.Solidity

/-!
# All chains at once (`client.ts`, `router.ts`)

The manager asks every registered chain and merges the answers. Of the pool
status, a chain that fails is told apart from one that answers. Of a
nullifier, a chain that fails is counted as one where it is unspent, so that
an all-clear says something only if no chain failed (`allClear_iff`).
-/

/-- `PoolStatus`. -/
structure PoolStatus where
  latestRoot : Bytes32
  nextLeafIndex : ℕ
  isActive : Bool

/-- A client, as what the contract of its chain answers, or the failure of a
call. -/
structure SoulPrivacyClient where
  chainKey : String
  isSpent : Bytes32 → Option Bool
  getLatestRoot : Option Bytes32
  getNextLeafIndex : Option ℕ

namespace SoulPrivacyClient

/-- `isNullifierSpent`. -/
def isNullifierSpent (c : SoulPrivacyClient) (nullifier : Bytes32) : Option Bool :=
  c.isSpent nullifier

/-- `getPoolStatus`, which fails with either of its calls. -/
def getPoolStatus (c : SoulPrivacyClient) : Option PoolStatus := do
  let root ← c.getLatestRoot
  let nextIndex ← c.getNextLeafIndex
  some { latestRoot := root, nextLeafIndex := nextIndex, isActive := true }

end SoulPrivacyClient

/-- `MultiChainPrivacyManager`: the clients under their chains. -/
abbrev MultiChainPrivacyManager := InsertionMap SoulPrivacyClient.chainKey

namespace MultiChainPrivacyManager

/-- `addChain`, with the client that is made for it. -/
def addChain (m : MultiChainPrivacyManager) (client : SoulPrivacyClient) :
    MultiChainPrivacyManager :=
  m.set client

/-- `getClient`, unless the chain is not registered. -/
def getClient (m : MultiChainPrivacyManager) (chainKey : String) : Option SoulPrivacyClient :=
  m.get chainKey

/-- `getRegisteredChains`. -/
def getRegisteredChains (m : MultiChainPrivacyManager) : List String :=
  m.values.map SoulPrivacyClient.chainKey

/-- What `isNullifierSpentAnywhere` returns. -/
structure SpentAnswer where
  spent : Bool
  chain : Option String
  deriving DecidableEq

/-- The result of one chain. -/
def spentOn (m : MultiChainPrivacyManager) (nullifier : Bytes32) (chainKey : String) :
    String × Bool :=
  match (getClient m chainKey).bind (fun client => client.isNullifierSpent nullifier) with
  | some spent => (chainKey, spent)
  | none => (chainKey, false)

/-- **`isNullifierSpentAnywhere`.** -/
def isNullifierSpentAnywhere (m : MultiChainPrivacyManager) (nullifier : Bytes32) :
    SpentAnswer :=
  let results := (getRegisteredChains m).map (spentOn m nullifier)
  match results.find? (fun r => r.2) with
  | some spentOn => ⟨true, some spentOn.1⟩
  | none => ⟨false, none⟩

/-- The status of one chain. -/
structure ChainStatus where
  chain : String
  latestRoot : Bytes32
  leafCount : ℕ
  reachable : Bool

/-- `GlobalPoolStatus`. -/
structure GlobalPoolStatus where
  chains : List ChainStatus
  totalLeaves : ℕ
  reachableChains : ℕ

/-- The status of one chain, or of one that does not answer. -/
def statusOf (m : MultiChainPrivacyManager) (chainKey : String) : ChainStatus :=
  match (getClient m chainKey).bind SoulPrivacyClient.getPoolStatus with
  | some status => ⟨chainKey, status.latestRoot, status.nextLeafIndex, true⟩
  | none => ⟨chainKey, 0, 0, false⟩

/-- **`getGlobalPoolStatus`.** -/
def getGlobalPoolStatus (m : MultiChainPrivacyManager) : GlobalPoolStatus :=
  let statuses := (getRegisteredChains m).map (statusOf m)
  { chains := statuses
    totalLeaves := (statuses.map ChainStatus.leafCount).sum
    reachableChains := (statuses.filter ChainStatus.reachable).length }

/-! ## Every chain is asked -/

variable {m : MultiChainPrivacyManager}

/-- **The client of a registered chain** is the one that is asked. -/
theorem getClient_chainKey {c : SoulPrivacyClient} (h : c ∈ m.values) :
    getClient m c.chainKey = some c :=
  InsertionMap.get_eq_some_iff.mpr ⟨h, rfl⟩

/-- A failure is merged into the answers as unspent. -/
theorem spentOn_chainKey {c : SoulPrivacyClient} (h : c ∈ m.values) (nullifier : Bytes32) :
    spentOn m nullifier c.chainKey
      = (c.chainKey, (c.isNullifierSpent nullifier).getD false) := by
  unfold spentOn
  rw [getClient_chainKey h, Option.bind_some]
  cases c.isNullifierSpent nullifier with
  | none => rfl
  | some spent => rfl

/-- A failure is merged into the statuses as unreachable. -/
theorem statusOf_chainKey {c : SoulPrivacyClient} (h : c ∈ m.values) :
    (statusOf m c.chainKey).reachable = c.getPoolStatus.isSome := by
  unfold statusOf
  rw [getClient_chainKey h, Option.bind_some]
  cases c.getPoolStatus with
  | none => rfl
  | some status => rfl

/-- **The chains that are counted as reachable** are those that answer. -/
theorem reachableChains_eq (m : MultiChainPrivacyManager) :
    (getGlobalPoolStatus m).reachableChains
      = (m.values.filter (fun c => c.getPoolStatus.isSome)).length := by
  show (((getRegisteredChains m).map (statusOf m)).filter ChainStatus.reachable).length = _
  unfold getRegisteredChains
  rw [List.map_map, List.filter_map, List.length_map]
  exact congrArg List.length (List.filter_congr (fun c hc => statusOf_chainKey hc))

/-- **The pool status tells whether a chain failed**: the reachable chains
are all of them if and only if every chain answers. -/
theorem reachableChains_eq_length_iff (m : MultiChainPrivacyManager) :
    (getGlobalPoolStatus m).reachableChains = (getRegisteredChains m).length
      ↔ ∀ c ∈ m.values, c.getPoolStatus.isSome = true := by
  rw [reachableChains_eq, getRegisteredChains, List.length_map, List.length_filter_eq_length_iff]

/-! ## What an answer says -/

/-- The answers, chain by chain. -/
theorem map_spentOn (m : MultiChainPrivacyManager) (nullifier : Bytes32) :
    (getRegisteredChains m).map (spentOn m nullifier)
      = m.values.map (fun c => (c.chainKey, (c.isNullifierSpent nullifier).getD false)) := by
  unfold getRegisteredChains
  rw [List.map_map]
  exact List.map_congr_left (fun c hc => spentOn_chainKey hc nullifier)

/-- **The first chain that answers that the nullifier is spent** is the one
that is reported. -/
theorem isNullifierSpentAnywhere_eq (m : MultiChainPrivacyManager) (nullifier : Bytes32) :
    isNullifierSpentAnywhere m nullifier
      = match m.values.find? (fun c => c.isNullifierSpent nullifier = some true) with
        | some c => ⟨true, some c.chainKey⟩
        | none => ⟨false, none⟩ := by
  have hanswer : ∀ c : SoulPrivacyClient, (c.isNullifierSpent nullifier).getD false
      = decide (c.isNullifierSpent nullifier = some true) := by
    intro c
    cases c.isNullifierSpent nullifier with
    | none => rfl
    | some spent => simp
  unfold isNullifierSpentAnywhere
  dsimp only
  rw [map_spentOn, List.find?_map]
  simp only [Function.comp_def, hanswer]
  cases m.values.find? (fun c => c.isNullifierSpent nullifier = some true) with
  | none => rfl
  | some c => rfl

/-- **Spent is reported** if and only if a chain answers so. -/
theorem spent_iff (m : MultiChainPrivacyManager) (nullifier : Bytes32) :
    (isNullifierSpentAnywhere m nullifier).spent = true
      ↔ ∃ c ∈ m.values, c.isNullifierSpent nullifier = some true := by
  have hsome : (∃ c ∈ m.values, c.isNullifierSpent nullifier = some true)
      ↔ (m.values.find? (fun c => c.isNullifierSpent nullifier = some true)).isSome := by
    rw [List.find?_isSome]
    simp only [decide_eq_true_eq]
  rw [isNullifierSpentAnywhere_eq, hsome]
  cases m.values.find? (fun c => c.isNullifierSpent nullifier = some true) with
  | none => rfl
  | some c => rfl

/-- The chain that is named is one that answers so. -/
theorem isNullifierSpent_of_chain {nullifier : Bytes32} {chainKey : String}
    (h : (isNullifierSpentAnywhere m nullifier).chain = some chainKey) :
    ∃ c ∈ m.values, c.chainKey = chainKey ∧ c.isNullifierSpent nullifier = some true := by
  rw [isNullifierSpentAnywhere_eq] at h
  split at h
  · rename_i c hfind
    have hspent := List.find?_some hfind
    exact ⟨c, List.mem_of_find?_eq_some hfind, Option.some.inj h, of_decide_eq_true hspent⟩
  · cases h

/-- **An all-clear is one of every chain** if and only if there is none, as a
chain answers that the nullifier is spent, or no chain fails. -/
theorem allClear_iff (m : MultiChainPrivacyManager) (nullifier : Bytes32) :
    ((isNullifierSpentAnywhere m nullifier).spent = false →
        ∀ c ∈ m.values, c.isNullifierSpent nullifier = some false)
      ↔ (∃ c ∈ m.values, c.isNullifierSpent nullifier = some true)
        ∨ ∀ c ∈ m.values, c.isNullifierSpent nullifier ≠ none := by
  rw [← spent_iff]
  cases hspent : (isNullifierSpentAnywhere m nullifier).spent with
  | true => simp
  | false =>
    have hnot : ∀ c ∈ m.values, c.isNullifierSpent nullifier ≠ some true := by
      intro c hc htrue
      have h := (spent_iff m nullifier).mpr ⟨c, hc, htrue⟩
      rw [hspent] at h
      cases h
    simp only [Bool.false_eq_true, false_or, true_implies]
    refine forall₂_congr (fun c hc => ?_)
    cases hanswer : c.isNullifierSpent nullifier with
    | none => simp
    | some spent =>
      have hfalse : spent = false := by
        have hne := hnot c hc
        rw [hanswer] at hne
        simpa using hne
      simp [hfalse]

/-- Two chains, one that answers and one that fails: the nullifier may be
spent on that one, and the answer is that it is not spent. -/
theorem exists_false_allClear :
    isNullifierSpentAnywhere
        ⟨[⟨"avalanche_fuji", fun _ => some false, some 0, some 0⟩,
          ⟨"moonbase_alpha", fun _ => none, none, none⟩], by decide⟩ 7 = ⟨false, none⟩
      ∧ ¬ ∀ c ∈ [(⟨"avalanche_fuji", fun _ => some false, some 0, some 0⟩ : SoulPrivacyClient),
          ⟨"moonbase_alpha", fun _ => none, none, none⟩],
        c.isNullifierSpent 7 = some false := by
  decide

end MultiChainPrivacyManager
