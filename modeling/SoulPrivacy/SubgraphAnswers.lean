import SoulPrivacy.SubgraphClient
import SoulPrivacy.SubgraphRecords

/-!
# What the toolkit learns of the pool from the subgraph

The toolkit asks an endpoint, the endpoint has a store, and the store was made
of the events of a run that goes on. So what the pool was when the first query
was served is not what it is when the last one is, and an answer can be right
about one of the two only. It says of a nullifier that it is spent if it was at
the first query, and it does not say so unless it was at the last
(`isNullifierSpent_of_run`): if nothing happens in between, the answer is that of
the pool.

What is found is not found by chance. A transfer that is found for a nullifier
is the one that spent it, now and later (`getTransferByNullifier_of_run`), and a
deposit that is found for a commitment has the place of its leaf in the tree
(`getDepositByCommitment_of_run`).
-/

namespace SubgraphClient

open Subgraph
open PrivacyPool (Call Cont Event Interfaces World machine Deployed)
open EntityTable (Finds)

variable {X : Type} {E : Interfaces X} {w₀ : World X}

/-- **An indexer along a run**: for each request, where the run is at the end of
some transaction, and the events up to there. -/
structure Indexes (E : Interfaces X) (w₀ : World X)
    (configs : ℕ → CallStack.Config (World X) Receipt Cont)
    (logs : ℕ → List (Meta × Event)) : Prop where
  reachable : ∀ i, CallStack.Reachable (machine E) (fun _ _ => True) w₀ (configs i)
  finished : ∀ i, (configs i).stack = []
  events : ∀ i, (logs i).map Prod.snd = eventsOf (configs i).now.trace
  later : ∀ i k, i ≤ k → logs i <+: logs k
  ids : ∀ i, DistinctIds (logs i)

variable {configs : ℕ → CallStack.Config (World X) Receipt Cont} {logs : ℕ → List (Meta × Event)}
  {round : ℕ → ℕ} {e : Endpoint}

/-- **Its stores grow.** -/
theorem Indexes.grows (h : Indexes E w₀ configs logs) :
    Grows (fun i => index round (logs i)) := by
  intro i k hle
  refine ⟨fun id t ht => ?_, fun id w hw => ?_⟩
  · rw [transfers_index] at ht ⊢
    exact EntityTable.table_of_prefix ((h.later i k hle).flatMap transferRows)
      (h.ids k).transfers ht
  · rw [withdrawals_index] at hw ⊢
    exact EntityTable.table_of_prefix ((h.later i k hle).flatMap withdrawalRows)
      (h.ids k).withdrawals hw

theorem Indexes.indexed (hdeployed : Deployed E w₀) (h : Indexes E w₀ configs logs) (i : ℕ) :
    Indexed E [] (configs i).now :=
  indexed_of_reachable hdeployed (h.reachable i) (h.finished i)

/-- The nullifier of a field is one of the two. -/
theorem exists_field_iff {nullifiers : PrivacyPool.Pair} {nullifier : Bytes32} :
    (∃ field, NullifierField.of field nullifiers = nullifier)
      ↔ nullifier ∈ [nullifiers.1, nullifiers.2] := by
  rw [List.mem_cons, List.mem_singleton]
  constructor
  · rintro ⟨field, rfl⟩
    cases field with
    | nullifier0 => exact Or.inl rfl
    | nullifier1 => exact Or.inr rfl
  · rintro (rfl | rfl)
    · exact ⟨.nullifier0, rfl⟩
    · exact ⟨.nullifier1, rfl⟩

/-- **A filter by a text finds** what spends the nullifier of the text. -/
theorem hasSpend_iff {s : Store} {text : String} :
    HasTransfer s text ∨ HasWithdrawal s text
      ↔ ∃ nullifier, text = hexText nullifier ∧ ∃ id, SpendsAt s id nullifier := by
  constructor
  · rintro (⟨field, id, t, ht, rfl⟩ | ⟨field, id, w, hw, rfl⟩)
    · exact ⟨_, rfl, id, Or.inl ⟨t, ht, exists_field_iff.mp ⟨field, rfl⟩⟩⟩
    · exact ⟨_, rfl, id, Or.inr ⟨w, hw, exists_field_iff.mp ⟨field, rfl⟩⟩⟩
  · rintro ⟨nullifier, rfl, id, ⟨t, ht, hn⟩ | ⟨w, hw, hn⟩⟩
    · obtain ⟨field, hfield⟩ := exists_field_iff.mpr hn
      exact Or.inl ⟨field, id, t, ht, congrArg hexText hfield⟩
    · obtain ⟨field, hfield⟩ := exists_field_iff.mpr hn
      exact Or.inr ⟨field, id, w, hw, congrArg hexText hfield⟩

/-- **Spent by an entity** is spent in the pool. -/
theorem Indexes.exists_spendsAt_iff (hdeployed : Deployed E w₀) (h : Indexes E w₀ configs logs)
    {i : ℕ} {nullifier : Bytes32} :
    (∃ id, SpendsAt (index round (logs i)) id nullifier)
      ↔ (configs i).now.state.pool.nullifierSpent nullifier = true := by
  rw [(h.indexed hdeployed i).nullifierSpent_iff (h.events i)]
  constructor
  · rintro ⟨id, hspends⟩
    obtain ⟨e, hmem, -, hn⟩ := (spendsAt_index_iff (h.ids i)).mp hspends
    exact ⟨e, hmem, hn⟩
  · rintro ⟨e, hmem, hn⟩
    exact ⟨e.1.id, (spendsAt_index_iff (h.ids i)).mpr ⟨e, hmem, rfl, hn⟩⟩

section Answers

variable (hdeployed : Deployed E w₀) (hindexes : Indexes E w₀ configs logs)
  (hserves : Serves e (fun i => index round (logs i))) {text : String} {i j : ℕ}
include hdeployed hindexes hserves

/-- **Whether a nullifier is spent.** Whatever happens between the queries, one
that is spent in the pool at the first is said to be spent, and one that is said
to be spent is so at the last. -/
theorem isNullifierSpent_of_run {b : Bool} (h : isNullifierSpent e text i = .ok (b, j)) :
    (∀ nullifier, sanitizeHex text = .ok (hexText nullifier) →
        (configs i).now.state.pool.nullifierSpent nullifier = true → b = true)
      ∧ (b = true → ∃ nullifier k, sanitizeHex text = .ok (hexText nullifier) ∧ i ≤ k ∧ k < j
        ∧ (configs k).now.state.pool.nullifierSpent nullifier = true) := by
  constructor
  · intro nullifier hclean hspent
    cases b with
    | true => rfl
    | false =>
      obtain ⟨safe, hsafe, htransfer, hwithdrawal⟩ :=
        isNullifierSpent_eq_ok_false hserves hindexes.grows h
      rw [hclean] at hsafe
      cases hsafe
      have hspends : ∃ id, SpendsAt (index round (logs i)) id nullifier :=
        (hindexes.exists_spendsAt_iff hdeployed).mpr hspent
      exact absurd (hasSpend_iff.mpr ⟨nullifier, rfl, hspends⟩)
        (not_or.mpr ⟨htransfer, hwithdrawal⟩)
  · rintro rfl
    obtain ⟨safe, k, hclean, hle, hlt, hhas⟩ :=
      isNullifierSpent_eq_ok_true hserves hindexes.grows h
    obtain ⟨nullifier, rfl, hspends⟩ := hasSpend_iff.mp hhas
    exact ⟨nullifier, k, hclean, hle, hlt, (hindexes.exists_spendsAt_iff hdeployed).mp hspends⟩

/-- **The transfer of a nullifier.** The one that is found is the one entity that
spends the nullifier, in this store and in all later ones, and where none is
found none spent it before the first query. -/
theorem getTransferByNullifier_of_run {o : Option (Id × Transfer)}
    (h : getTransferByNullifier e text i = .ok (o, j)) :
    (∀ row ∈ o, ∃ nullifier k, sanitizeHex text = .ok (hexText nullifier) ∧ i ≤ k ∧ k < j
        ∧ (index round (logs k)).transfers row.1 = some row.2
        ∧ ∀ later, k ≤ later → ∀ id,
          SpendsAt (index round (logs later)) id nullifier ↔ id = row.1)
      ∧ (o = none → ∀ nullifier, sanitizeHex text = .ok (hexText nullifier) →
        ∀ id t, (index round (logs i)).transfers id = some t →
          nullifier ∉ [t.nullifiers.1, t.nullifiers.2]) := by
  obtain ⟨safe, hclean, -, hfound, hnone⟩ :=
    getTransferByNullifier_eq_ok hserves hindexes.grows h
  constructor
  · intro row hrow
    obtain ⟨k, field, hle, hlt, hmem, hmatch⟩ := hfound row hrow
    refine ⟨field.of row.2.nullifiers, k, by rw [hclean, hmatch], hle, hlt, hmem, ?_⟩
    intro later hlater
    -- the entity is there later on, and a nullifier has one place
    have hkept := (hindexes.grows k later hlater).transfers row.1 row.2 hmem
    have hspends : SpendsAt (index round (logs later)) row.1 (field.of row.2.nullifiers) :=
      Or.inl ⟨row.2, hkept, exists_field_iff.mp ⟨field, rfl⟩⟩
    have hindexed := hindexes.indexed hdeployed later
    obtain ⟨event, hevent, -, hn⟩ := (spendsAt_index_iff (hindexes.ids later)).mp hspends
    have hspent : (index round (logs later)).nullifiersSpent _ = some (spentBy event.1 _) :=
      (hindexed.nullifiersSpent_eq_some_iff (hindexes.events later)).mpr ⟨event, hevent, hn, rfl⟩
    have honly : ∀ id, SpendsAt (index round (logs later)) id _ ↔ id = event.1.id :=
      fun id => hindexed.spendsAt_iff (hindexes.events later) (hindexes.ids later) hspent
    rw [(honly row.1).mp hspends]
    exact honly
  · rintro hno nullifier hnullifier id t ht hn
    rw [hclean] at hnullifier
    cases hnullifier
    obtain ⟨field, hfield⟩ := exists_field_iff.mpr hn
    exact hnone hno ⟨field, id, t, ht, congrArg hexText hfield⟩

/-- **The deposit of a commitment.** One is found exactly if the pool has the
commitment, and it says which leaf of the tree that is. -/
theorem getDepositByCommitment_of_run {o : Option (Id × Deposit)}
    (h : getDepositByCommitment e text i = .ok (o, j)) :
    (∀ commitment, sanitizeHex text = .ok (hexText commitment) →
        (o.isSome ↔ (configs i).now.state.pool.commitmentExists commitment = true))
      ∧ ∀ row ∈ o, sanitizeHex text = .ok (hexText row.2.commitment)
        ∧ (PrivacyPool.leavesOf (configs i).now.trace)[row.2.leafIndex]?
          = some row.2.commitment := by
  obtain ⟨safe, hclean, -, hfound, hnone⟩ := getDepositByCommitment_eq_ok hserves h
  have hindexed := hindexes.indexed hdeployed i
  constructor
  · intro commitment hcommitment
    rw [hclean] at hcommitment
    cases hcommitment
    rw [hindexed.commitmentExists_iff (hindexes.events i)]
    constructor
    · intro hsome
      obtain ⟨row, hrow⟩ := Option.isSome_iff_exists.mp hsome
      obtain ⟨hmem, hmatch⟩ := hfound row hrow
      obtain ⟨e, he, amount, timestamp, hevent⟩ := deposit_of_index round (hindexes.ids i) hmem
      refine ⟨e, he, ?_⟩
      rw [hevent, ← hexText_injective hmatch]
      exact List.mem_singleton_self _
    · rintro ⟨e, he, hmem⟩
      obtain ⟨id, d, hd, rfl⟩ := exists_deposit round (hindexes.ids i) he hmem
      exact Option.isSome_iff_ne_none.mpr (fun hno => hnone hno id d hd rfl)
  · intro row hrow
    obtain ⟨hmem, hmatch⟩ := hfound row hrow
    obtain ⟨e, he, amount, timestamp, hevent⟩ := deposit_of_index round (hindexes.ids i) hmem
    refine ⟨by rw [hclean, hmatch], hindexed.placed _ _ amount timestamp ?_⟩
    rw [← hindexes.events i, ← hevent]
    exact List.mem_map_of_mem he

end Answers

/-! ## An endpoint that answers from a log -/

/-- **An endpoint that answers every request** from the events up to there. -/
def endpointOf (logs : ℕ → List (Meta × Event)) : Endpoint where
  deposits commitment first i :=
    ⟨true, 200, [], EntityTable.search ((logs i).flatMap depositRows)
      (fun d => hexText d.commitment = commitment) first⟩
  transfers field nullifier first i :=
    ⟨true, 200, [], EntityTable.search ((logs i).flatMap transferRows)
      (fun t => hexText (field.of t.nullifiers) = nullifier) first⟩
  withdrawals field nullifier first i :=
    ⟨true, 200, [], EntityTable.search ((logs i).flatMap withdrawalRows)
      (fun w => hexText (field.of w.nullifiers) = nullifier) first⟩

theorem endpointOf_answers (logs : ℕ → List (Meta × Event)) : Answers (endpointOf logs) :=
  ⟨fun _ _ _ => ⟨rfl, rfl⟩, fun _ _ _ _ => ⟨rfl, rfl⟩, fun _ _ _ _ => ⟨rfl, rfl⟩⟩

variable (round) in
/-- It serves the stores of these events. -/
theorem endpointOf_serves (hids : ∀ i, DistinctIds (logs i)) :
    Serves (endpointOf logs) (fun i => index round (logs i)) where
  deposits commitment first i _ := by
    rw [deposits_index]
    exact EntityTable.search_finds (hids i).deposits _ first
  transfers field nullifier first i _ := by
    rw [transfers_index]
    exact EntityTable.search_finds (hids i).transfers _ first
  withdrawals field nullifier first i _ := by
    rw [withdrawals_index]
    exact EntityTable.search_finds (hids i).withdrawals _ first

/-- An indexer that has come to the end of a run. -/
theorem indexes_of_finished {c : CallStack.Config (World X) Receipt Cont}
    (hreach : CallStack.Reachable (machine E) (fun _ _ => True) w₀ c) (hend : c.stack = []) :
    Indexes E w₀ (fun _ => c) (fun _ => numbered (eventsOf c.now.trace)) where
  reachable _ := hreach
  finished _ := hend
  events _ := map_snd_numbered _
  later _ _ _ := List.prefix_refl _
  ids _ := distinctIds_numbered _

open PrivacyPool (permissive)

/-- The transfer of the run is found by its second nullifier, and so it is spent. -/
theorem isNullifierSpent_of_run_transfer :
    ∃ (c : CallStack.Config (World Unit) Receipt Cont) (j : ℕ),
      c.now.state.pool.nullifierSpent 2 = true
        ∧ isNullifierSpent (endpointOf (fun _ => numbered (eventsOf c.now.trace))) (hexText 2) 0
          = .ok (true, j) := by
  obtain ⟨c, hreach, hend, hmarked, -⟩ := exists_transfer_run
  obtain ⟨b, j, h⟩ :=
    (endpointOf_answers (fun _ => numbered (eventsOf c.now.trace))).exists_isNullifierSpent
      (sanitizeHex_hexText 2) 0
  have hspent : c.now.state.pool.nullifierSpent 2 = true := by
    rw [hmarked]
    exact Function.update_self ..
  obtain ⟨htrue, -⟩ := isNullifierSpent_of_run newWorld_deployed (indexes_of_finished hreach hend)
    (endpointOf_serves id (fun _ => distinctIds_numbered _)) h
  rw [htrue 2 (sanitizeHex_hexText 2) hspent] at h
  exact ⟨c, j, hspent, h⟩

/-- That transfer is found, and it is the only one. -/
theorem getTransferByNullifier_of_run_transfer :
    ∃ (c : CallStack.Config (World Unit) Receipt Cont) (row : Id × Transfer) (j : ℕ),
      getTransferByNullifier (endpointOf (fun _ => numbered (eventsOf c.now.trace)))
          (hexText 2) 0 = .ok (some row, j)
        ∧ ∀ id, SpendsAt (index (fun n => n) (numbered (eventsOf c.now.trace))) id 2 ↔ id = row.1 := by
  obtain ⟨c, hreach, hend, -, -, root, hevents⟩ := exists_transfer_run
  obtain ⟨o, j, h⟩ :=
    (endpointOf_answers (fun _ => numbered (eventsOf c.now.trace))).exists_getTransferByNullifier
      (sanitizeHex_hexText 2) 0
  obtain ⟨hfound, hnone⟩ := getTransferByNullifier_of_run newWorld_deployed
    (indexes_of_finished hreach hend)
    (endpointOf_serves (fun n => n) (fun _ => distinctIds_numbered _)) h
  cases o with
  | none =>
    refine absurd ?_ (hnone rfl 2 (sanitizeHex_hexText 2) (0, 1) ⟨(1, 2), (3, 4), root, 0, 0, 0⟩ ?_)
    · exact List.mem_cons_of_mem 1 (List.mem_singleton_self 2)
    · rw [hevents]
      rfl
  | some row =>
    obtain ⟨nullifier, k, hclean, -, -, -, honly⟩ := hfound row rfl
    rw [sanitizeHex_hexText] at hclean
    cases hexText_injective (Except.ok.inj hclean)
    exact ⟨c, row, j, h, honly k le_rfl⟩

/-- The deposit is found by its commitment. -/
theorem getDepositByCommitment_of_run_transfer :
    ∃ (c : CallStack.Config (World Unit) Receipt Cont) (row : Id × Deposit) (j : ℕ),
      getDepositByCommitment (endpointOf (fun _ => numbered (eventsOf c.now.trace)))
          (hexText 7) 0 = .ok (some row, j)
        ∧ (PrivacyPool.leavesOf c.now.trace)[row.2.leafIndex]? = some 7 := by
  obtain ⟨c, hreach, hend, -, hcommitments, -⟩ := exists_transfer_run
  obtain ⟨o, j, h⟩ :=
    (endpointOf_answers (fun _ => numbered (eventsOf c.now.trace))).exists_getDepositByCommitment
      (sanitizeHex_hexText 7) 0
  obtain ⟨hiff, hrow⟩ := getDepositByCommitment_of_run newWorld_deployed
    (indexes_of_finished hreach hend) (endpointOf_serves id (fun _ => distinctIds_numbered _)) h
  have hexists : c.now.state.pool.commitmentExists 7 = true := by
    rw [hcommitments]
    exact Function.update_self ..
  obtain ⟨row, rfl⟩ := Option.isSome_iff_exists.mp
    ((hiff 7 (sanitizeHex_hexText 7)).mpr hexists)
  obtain ⟨hclean, hplaced⟩ := hrow row rfl
  rw [sanitizeHex_hexText] at hclean
  rw [← hexText_injective (Except.ok.inj hclean)] at hplaced
  exact ⟨c, row, j, h, hplaced⟩

end SubgraphClient
