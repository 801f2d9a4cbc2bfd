import SoulPrivacy.EntityTable
import SoulPrivacy.SubgraphMirror

/-!
# What the subgraph records of a run

The indexer writes an entity for each deposit, transfer and withdrawal, under
the place of its event, and one for each nullifier, under the nullifier. Places
are different, so of the former nothing is ever replaced; nullifiers are
different because the pool spends each of them once.

The pool marks a nullifier when it is spent, and tells so at once of a transfer,
but of a withdrawal only behind its payout. While the payee is called there are
two nullifiers that are marked and not told (`pendingSpends`). At the end of a
transaction there are none: the nullifiers of the events are those that the pool
has marked, each of them once (`Indexed`), and the entity of a nullifier says
which transfer or withdrawal spent it (`nullifiersSpent_of_run`).
-/

namespace Subgraph

open PrivacyPool (Call Cont Entry Event Pair Interfaces World Effect machine Deployed)
open EntityTable (table)

/-! ## Rows -/

/-- The nullifiers of an event. -/
def spends : Event → List Bytes32
  | .transfer nullifiers _ _ => [nullifiers.1, nullifiers.2]
  | .withdrawal nullifiers _ _ _ => [nullifiers.1, nullifiers.2]
  | _ => []

/-- The commitment of a deposit. -/
def deposited : Event → List Bytes32
  | .deposit commitment _ _ _ => [commitment]
  | _ => []

/-- The row of a deposit. -/
def depositRows (e : Meta × Event) : List (Id × Deposit) :=
  match e.2 with
  | .deposit commitment leafIndex amount timestamp =>
    [(e.1.id,
      ⟨commitment, leafIndex, amount.toNat, timestamp, e.1.blockNumber, e.1.transactionHash⟩)]
  | _ => []

/-- The row of a transfer. -/
def transferRows (e : Meta × Event) : List (Id × Transfer) :=
  match e.2 with
  | .transfer nullifiers outputs newRoot =>
    [(e.1.id, ⟨nullifiers, outputs, newRoot, e.1.blockNumber, e.1.transactionHash,
      e.1.blockTimestamp⟩)]
  | _ => []

/-- The row of a withdrawal. -/
def withdrawalRows (e : Meta × Event) : List (Id × Withdrawal) :=
  match e.2 with
  | .withdrawal nullifiers recipient amount newRoot =>
    [(e.1.id, ⟨nullifiers, recipient, amount.toNat, newRoot, e.1.blockNumber,
      e.1.transactionHash, e.1.blockTimestamp⟩)]
  | _ => []

/-- What is recorded of a nullifier. -/
def spentBy (m : Meta) (nullifier : Bytes32) : NullifierSpent :=
  ⟨nullifier, m.id, m.blockTimestamp, m.blockNumber, m.transactionHash⟩

/-- The rows of nullifiers. -/
def spentRows (e : Meta × Event) : List (Bytes32 × NullifierSpent) :=
  (spends e.2).map (fun nullifier => (nullifier, spentBy e.1 nullifier))

variable (round : ℕ → ℕ)

/-- **The tables of a store are those of its log.** -/
theorem deposits_index (log : List (Meta × Event)) :
    (index round log).deposits = table (log.flatMap depositRows) :=
  EntityTable.foldl_eq_table (fun s e => by obtain ⟨m, event⟩ := e; cases event <;> rfl) rfl log

theorem transfers_index (log : List (Meta × Event)) :
    (index round log).transfers = table (log.flatMap transferRows) :=
  EntityTable.foldl_eq_table (fun s e => by obtain ⟨m, event⟩ := e; cases event <;> rfl) rfl log

theorem withdrawals_index (log : List (Meta × Event)) :
    (index round log).withdrawals = table (log.flatMap withdrawalRows) :=
  EntityTable.foldl_eq_table (fun s e => by obtain ⟨m, event⟩ := e; cases event <;> rfl) rfl log

theorem nullifiersSpent_index (log : List (Meta × Event)) :
    (index round log).nullifiersSpent = table (log.flatMap spentRows) :=
  EntityTable.foldl_eq_table (fun s e => by obtain ⟨m, event⟩ := e; cases event <;> rfl) rfl log

/-- The keys of nullifiers are the nullifiers of the events. -/
theorem keys_spentRows (log : List (Meta × Event)) :
    (log.flatMap spentRows).map Prod.fst = (log.map Prod.snd).flatMap spends := by
  rw [List.map_flatMap, List.flatMap_map]
  refine List.flatMap_congr (fun e _ => ?_)
  rw [spentRows, List.map_map]
  exact List.map_id _

/-- **The events of a log are in different places.** -/
def DistinctIds (log : List (Meta × Event)) : Prop := (log.map (fun e => e.1.id)).Nodup

variable {log : List (Meta × Event)}

theorem DistinctIds.deposits (h : DistinctIds log) :
    ((log.flatMap depositRows).map Prod.fst).Nodup := by
  refine EntityTable.nodup_keys_flatMap (fun e => ?_) h
  obtain ⟨m, event⟩ := e
  cases event
  case deposit => exact List.Sublist.refl _
  all_goals exact List.nil_sublist _

theorem DistinctIds.transfers (h : DistinctIds log) :
    ((log.flatMap transferRows).map Prod.fst).Nodup := by
  refine EntityTable.nodup_keys_flatMap (fun e => ?_) h
  obtain ⟨m, event⟩ := e
  cases event
  case transfer => exact List.Sublist.refl _
  all_goals exact List.nil_sublist _

theorem DistinctIds.withdrawals (h : DistinctIds log) :
    ((log.flatMap withdrawalRows).map Prod.fst).Nodup := by
  refine EntityTable.nodup_keys_flatMap (fun e => ?_) h
  obtain ⟨m, event⟩ := e
  cases event
  case withdrawal => exact List.Sublist.refl _
  all_goals exact List.nil_sublist _

/-- **The entity of a deposit** says what its event does, … -/
theorem deposit_of_index (h : DistinctIds log) {id : Id} {d : Deposit}
    (hd : (index round log).deposits id = some d) :
    ∃ e ∈ log, ∃ amount timestamp, e.2 = .deposit d.commitment d.leafIndex amount timestamp := by
  rw [deposits_index, EntityTable.table_eq_some_iff h.deposits] at hd
  obtain ⟨⟨m, event⟩, hmem, hrow⟩ := List.mem_flatMap.mp hd
  cases event
  case deposit commitment leafIndex amount timestamp =>
    cases List.mem_singleton.mp hrow
    exact ⟨_, hmem, amount, timestamp, rfl⟩
  all_goals exact absurd hrow List.not_mem_nil

/-- … and each deposit has one. -/
theorem exists_deposit (h : DistinctIds log) {e : Meta × Event} (he : e ∈ log)
    {commitment : Bytes32} (hmem : commitment ∈ deposited e.2) :
    ∃ id d, (index round log).deposits id = some d ∧ d.commitment = commitment := by
  rw [deposits_index]
  simp only [EntityTable.table_eq_some_iff h.deposits]
  obtain ⟨m, event⟩ := e
  cases event
  case deposit =>
    cases List.mem_singleton.mp hmem
    exact ⟨m.id, _, List.mem_flatMap.mpr ⟨_, he, List.mem_singleton_self _⟩, rfl⟩
  all_goals exact absurd hmem List.not_mem_nil

/-- **The entity at a place spends a nullifier.** -/
def SpendsAt (s : Store) (id : Id) (nullifier : Bytes32) : Prop :=
  (∃ t, s.transfers id = some t ∧ nullifier ∈ [t.nullifiers.1, t.nullifiers.2])
    ∨ ∃ w, s.withdrawals id = some w ∧ nullifier ∈ [w.nullifiers.1, w.nullifiers.2]

variable {round}

/-- **An entity spends what its event does.** -/
theorem spendsAt_index_iff (hids : DistinctIds log) {id : Id} {nullifier : Bytes32} :
    SpendsAt (index round log) id nullifier
      ↔ ∃ e ∈ log, e.1.id = id ∧ nullifier ∈ spends e.2 := by
  unfold SpendsAt
  rw [transfers_index, withdrawals_index]
  simp only [EntityTable.table_eq_some_iff hids.transfers,
    EntityTable.table_eq_some_iff hids.withdrawals, List.mem_flatMap]
  constructor
  · rintro (⟨t, ⟨⟨m, event⟩, hmem, hrow⟩, hn⟩ | ⟨w, ⟨⟨m, event⟩, hmem, hrow⟩, hn⟩)
    · cases event
      case transfer =>
        cases List.mem_singleton.mp hrow
        exact ⟨_, hmem, rfl, hn⟩
      all_goals exact absurd hrow List.not_mem_nil
    · cases event
      case withdrawal =>
        cases List.mem_singleton.mp hrow
        exact ⟨_, hmem, rfl, hn⟩
      all_goals exact absurd hrow List.not_mem_nil
  · rintro ⟨⟨m, event⟩, hmem, rfl, hn⟩
    cases event
    case transfer =>
      exact Or.inl ⟨_, ⟨_, hmem, List.mem_singleton_self _⟩, hn⟩
    case withdrawal =>
      exact Or.inr ⟨_, ⟨_, hmem, List.mem_singleton_self _⟩, hn⟩
    all_goals exact absurd hn List.not_mem_nil

/-! ## Marks -/

/-- **What is marked** is what is listed, and nothing is listed twice. -/
structure Marked (marks : Bytes32 → Bool) (l : List Bytes32) : Prop where
  nodup : l.Nodup
  mem_iff : ∀ a, marks a = true ↔ a ∈ l

theorem Marked.nil : Marked (fun _ => false) [] :=
  ⟨List.nodup_nil, fun _ => iff_of_false Bool.false_ne_true List.not_mem_nil⟩

/-- The order does not matter. -/
theorem Marked.perm {marks : Bytes32 → Bool} {l l' : List Bytes32} (h : Marked marks l)
    (hperm : l.Perm l') : Marked marks l' :=
  ⟨hperm.nodup_iff.mp h.nodup, fun a => (h.mem_iff a).trans hperm.mem_iff⟩

/-- One more mark. -/
theorem Marked.mark {marks : Bytes32 → Bool} {l : List Bytes32} (h : Marked marks l)
    {a : Bytes32} (hnew : marks a = false) :
    Marked (Function.update marks a true) (l ++ [a]) :=
  ⟨nodup_append_of_marked h.mem_iff h.nodup hnew, update_true_iff_mem_append h.mem_iff a⟩

/-- The two nullifiers of a call. -/
theorem Marked.spend {pool : PrivacyPool.Storage} {l : List Bytes32}
    (h : Marked pool.nullifierSpent l) {nullifiers : Pair}
    (hfresh : PrivacyPool.Fresh pool nullifiers) :
    Marked (PrivacyPool.spent pool nullifiers).nullifierSpent
      (l ++ [nullifiers.1, nullifiers.2]) := by
  have hsnd : Function.update pool.nullifierSpent nullifiers.1 true nullifiers.2 = false :=
    (Function.update_of_ne hfresh.ne.symm ..).trans hfresh.snd
  have htwo := (h.mark hfresh.fst).mark hsnd
  rwa [List.append_assoc] at htwo

/-! ## Calls -/

/-- What a handover still has to tell of nullifiers. -/
def pendingSpends : Cont → List Bytes32
  | .withdraw nullifiers _ _ _ => [nullifiers.1, nullifiers.2]
  | .reclaim _ _ => []

variable {X : Type} {E : Interfaces X}

section Effect

variable {msg : PrivacyPool.Msg} {w w' : World X} {entry : Entry} {events : List Event}
  {k : Option Cont}

/-- **A call marks the nullifiers that it tells**, and those that it is going to
tell. -/
theorem effect_spends (h : Effect E msg w entry w' events k) {l : List Bytes32}
    (hl : Marked w.pool.nullifierSpent l) :
    Marked w'.pool.nullifierSpent (l ++ (events.flatMap spends ++ k.elim [] pendingSpends)) := by
  cases h
  case transfer fresh _ _ _ => exact hl.spend fresh
  case withdraw fresh _ _ _ _ => exact hl.spend fresh
  all_goals exact (List.append_nil l).symm ▸ hl

/-- **A call marks the commitment that it tells.** -/
theorem effect_deposited (h : Effect E msg w entry w' events k) {l : List Bytes32}
    (hl : Marked w.pool.commitmentExists l) :
    Marked w'.pool.commitmentExists (l ++ events.flatMap deposited) := by
  cases h
  case deposit new _ _ _ => exact hl.mark new
  case revealDeposit new _ _ => exact hl.mark new
  all_goals exact (List.append_nil l).symm ▸ hl

/-- **A call tells the place of the leaf that it adds.** -/
theorem effect_placed (h : Effect E msg w entry w' events k) {leaves : List Uint256}
    (hrep : MerkleTree.Represents E.hash w.pool.tree leaves) {commitment : Bytes32}
    {leafIndex : ℕ} {amount : Uint256} {timestamp : ℕ}
    (hmem : .deposit commitment leafIndex amount timestamp ∈ events) :
    (leaves ++ entry.leaves)[leafIndex]? = some commitment := by
  cases h
  case deposit ins _ =>
    cases List.mem_singleton.mp hmem
    obtain ⟨-, rfl, -⟩ := MerkleTree.insert_eq_ok E.hash hrep ins
    exact List.getElem?_concat_length
  case revealDeposit ins _ =>
    obtain h | h := List.mem_cons.mp hmem
    · cases h
    · cases List.mem_singleton.mp h
      obtain ⟨-, rfl, -⟩ := MerkleTree.insert_eq_ok E.hash hrep ins
      exact List.getElem?_concat_length
  all_goals simp at hmem

end Effect

/-- **A payout tells the rest.** -/
theorem resume_tells {k : Cont} {w w' : World X} {events : List Event}
    (h : PrivacyPool.resume k true w = .ok (w', events)) :
    events.flatMap spends = pendingSpends k ∧ events.flatMap deposited = [] := by
  cases k with
  | reclaim payee value =>
    cases h
    exact ⟨rfl, rfl⟩
  | withdraw nullifiers recipient value newRoot =>
    cases h
    exact ⟨rfl, rfl⟩

/-! ## Runs -/

/-- **The invariant**: the pool has marked the nullifiers of the events and of the
open handovers, and the commitments of the events, which are where the events
say. -/
structure Indexed (E : Interfaces X) (ks : List Cont) (p : PrivacyPool.Point X) : Prop where
  nullifiers : Marked p.state.pool.nullifierSpent
    ((eventsOf p.trace).flatMap spends ++ ks.flatMap pendingSpends)
  commitments : Marked p.state.pool.commitmentExists ((eventsOf p.trace).flatMap deposited)
  represents : MerkleTree.Represents E.hash p.state.pool.tree (PrivacyPool.leavesOf p.trace)
  placed : ∀ commitment leafIndex amount timestamp,
    .deposit commitment leafIndex amount timestamp ∈ eventsOf p.trace →
      (PrivacyPool.leavesOf p.trace)[leafIndex]? = some commitment

/-- A pool that was just deployed has marked nothing. -/
theorem Indexed.init {w : World X} (h : Deployed E w) :
    Indexed E [] (⟨w, []⟩ : PrivacyPool.Point X) := by
  obtain ⟨sender, epochManager, chainId, appId, guardian, oracle, hpool⟩ := h
  refine ⟨?_, ?_, ?_, nofun⟩
  · show Marked w.pool.nullifierSpent []
    rw [hpool]
    exact Marked.nil
  · show Marked w.pool.commitmentExists []
    rw [hpool]
    exact Marked.nil
  · show MerkleTree.Represents E.hash w.pool.tree []
    rw [hpool]
    exact MerkleTree.fresh_represents E.hash

/-- A leaf stays where it is. -/
theorem getElem?_append_of_eq_some {leaves : List Uint256} {i : ℕ} {leaf : Uint256}
    (h : leaves[i]? = some leaf) (more : List Uint256) : (leaves ++ more)[i]? = some leaf := by
  obtain ⟨hlt, -⟩ := List.getElem?_eq_some_iff.mp h
  rw [List.getElem?_append_left hlt, h]

/-- **A call keeps the invariant**, with what it is going to tell. -/
theorem Indexed.enter {ks : List Cont} {p : PrivacyPool.Point X} (hp : Indexed E ks p) {c : Call}
    {w' : World X} {events : List Event} {k : Option Cont}
    (h : PrivacyPool.enter E c p.state = .ok (w', events, k)) :
    Indexed E (k.toList ++ ks) (⟨w', p.trace ++ [.entered c events]⟩ : PrivacyPool.Point X) := by
  obtain ⟨-, heff⟩ := PrivacyPool.enter_effect h
  have hevents : eventsOf (p.trace ++ [.entered c events]) = eventsOf p.trace ++ events :=
    eventsOf_append_singleton _ _
  have hleaves : PrivacyPool.leavesOf (p.trace ++ [.entered c events])
      = PrivacyPool.leavesOf p.trace ++ c.entry.leaves := by
    rw [PrivacyPool.leavesOf, List.flatMap_append, List.flatMap_singleton]
    rfl
  have hpending : (k.toList ++ ks).flatMap pendingSpends
      = k.elim [] pendingSpends ++ ks.flatMap pendingSpends := by
    rw [List.flatMap_append]
    cases k with
    | none => rfl
    | some k => rw [Option.toList_some, List.flatMap_singleton]; rfl
  refine ⟨?_, ?_, ?_, ?_⟩
  · rw [hevents, List.flatMap_append, hpending]
    refine (effect_spends heff hp.nullifiers).perm ?_
    -- what is told later goes behind what is told now
    rw [List.append_assoc, List.append_assoc, ← List.append_assoc (events.flatMap spends)]
    exact List.Perm.append_left _ List.perm_append_comm
  · rw [hevents, List.flatMap_append]
    exact effect_deposited heff hp.commitments
  · rw [hleaves]
    exact heff.represents hp.represents
  · intro commitment leafIndex amount timestamp hmem
    rw [hevents] at hmem
    rw [hleaves]
    obtain hold | hnew := List.mem_append.mp hmem
    · exact getElem?_append_of_eq_some (hp.placed _ _ _ _ hold) _
    · exact effect_placed heff hp.represents hnew

/-- **A payout keeps it.** -/
theorem Indexed.resume {ks : List Cont} {p : PrivacyPool.Point X} {k : Cont}
    (hp : Indexed E (k :: ks) p) {w' : World X} {events : List Event}
    (h : PrivacyPool.resume k true p.state = .ok (w', events)) :
    Indexed E ks (⟨w', p.trace ++ [.resumed k events]⟩ : PrivacyPool.Point X) := by
  obtain ⟨hspends, hdeposited⟩ := resume_tells h
  obtain ⟨-, rfl⟩ := PrivacyPool.resume_eq_ok h
  have hevents : eventsOf (p.trace ++ [.resumed k events]) = eventsOf p.trace ++ events :=
    eventsOf_append_singleton _ _
  have hleaves : PrivacyPool.leavesOf (p.trace ++ [.resumed k events])
      = PrivacyPool.leavesOf p.trace := by
    rw [PrivacyPool.leavesOf, List.flatMap_append, List.flatMap_singleton]
    exact List.append_nil _
  refine ⟨?_, ?_, ?_, ?_⟩
  · have hold := hp.nullifiers
    rw [List.flatMap_cons, ← hspends, ← List.append_assoc] at hold
    rw [hevents, List.flatMap_append]
    exact hold
  · rw [hevents, List.flatMap_append, hdeposited, List.append_nil]
    exact hp.commitments
  · rw [hleaves]
    exact hp.represents
  · intro commitment leafIndex amount timestamp hmem
    rw [hleaves]
    rw [hevents] at hmem
    obtain hold | hnew := List.mem_append.mp hmem
    · exact hp.placed _ _ _ _ hold
    · have hmem' : commitment ∈ events.flatMap deposited :=
        List.mem_flatMap.mpr ⟨_, hnew, List.mem_singleton_self _⟩
      rw [hdeposited] at hmem'
      exact absurd hmem' List.not_mem_nil

/-- The storage is all that matters of the world. -/
theorem Indexed.of_pool {ks : List Cont} {p : PrivacyPool.Point X} (hp : Indexed E ks p)
    {w' : World X} (hpool : w'.pool = p.state.pool) :
    Indexed E ks (⟨w', p.trace⟩ : PrivacyPool.Point X) := by
  refine ⟨?_, ?_, ?_, hp.placed⟩
  · rw [hpool]
    exact hp.nullifiers
  · rw [hpool]
    exact hp.commitments
  · rw [hpool]
    exact hp.represents

variable (E) in
/-- **What is recorded is an invariant of the pool.** -/
theorem indexed_invariant :
    CallStack.Invariant (machine E) (fun _ _ => True) (Indexed E)
      (fun k ks p => Indexed E (k :: ks) p) where
  enter_done hp _ h := hp.enter h
  enter_send hp _ h := hp.enter h
  send := by
    intro ks p k s' hp h
    obtain ⟨-, rfl⟩ := PrivacyPool.send_eq_some h
    exact hp.of_pool rfl
  resume_true hp h := hp.resume h
  resume_false _ h := nomatch (PrivacyPool.resume_eq_ok h).1
  outside := by
    rintro ks p s' hp ⟨-, -, hpool, -⟩
    exact hp.of_pool hpool
  tick := by
    rintro p s' hp ⟨-, -, hpool, -⟩
    exact hp.of_pool hpool

/-- **At the end of a transaction** the nullifiers of the events are those that
the pool has marked. -/
theorem indexed_of_reachable {w₀ : World X} (hdeployed : Deployed E w₀)
    {c : CallStack.Config (World X) Receipt Cont}
    (hreach : CallStack.Reachable (machine E) (fun _ _ => True) w₀ c) (hend : c.stack = []) :
    Indexed E [] c.now := by
  have hindexed := (indexed_invariant E).holds (Indexed.init hdeployed) hreach
  rwa [hend] at hindexed

section Finished

variable {p : PrivacyPool.Point X} (hlog : log.map Prod.snd = eventsOf p.trace)
include hlog

/-- A nullifier is marked exactly if an event has it. -/
theorem Indexed.nullifierSpent_iff (hp : Indexed E [] p) {nullifier : Bytes32} :
    p.state.pool.nullifierSpent nullifier = true ↔ ∃ e ∈ log, nullifier ∈ spends e.2 := by
  have hmarked := hp.nullifiers
  rw [List.flatMap_nil, List.append_nil, ← hlog, List.flatMap_map] at hmarked
  exact (hmarked.mem_iff nullifier).trans List.mem_flatMap

/-- … and a commitment if a deposit has it. -/
theorem Indexed.commitmentExists_iff (hp : Indexed E [] p) {commitment : Bytes32} :
    p.state.pool.commitmentExists commitment = true ↔ ∃ e ∈ log, commitment ∈ deposited e.2 := by
  have hmarked := hp.commitments
  rw [← hlog, List.flatMap_map] at hmarked
  exact (hmarked.mem_iff commitment).trans List.mem_flatMap

/-- **A nullifier has one row.** -/
theorem Indexed.nullifiersSpent_eq_some_iff (hp : Indexed E [] p) {nullifier : Bytes32}
    {spent : NullifierSpent} :
    (index round log).nullifiersSpent nullifier = some spent
      ↔ ∃ e ∈ log, nullifier ∈ spends e.2 ∧ spent = spentBy e.1 nullifier := by
  have hmarked := hp.nullifiers
  rw [List.flatMap_nil, List.append_nil, ← hlog, ← keys_spentRows] at hmarked
  rw [nullifiersSpent_index, EntityTable.table_eq_some_iff hmarked.nodup, List.mem_flatMap]
  refine exists_congr (fun e => and_congr_right (fun _ => ?_))
  rw [spentRows, List.mem_map]
  constructor
  · rintro ⟨n, hn, heq⟩
    cases heq
    exact ⟨hn, rfl⟩
  · rintro ⟨hn, rfl⟩
    exact ⟨nullifier, hn, rfl⟩

/-- **A nullifier is spent in one place.** -/
theorem Indexed.spendsAt_iff (hp : Indexed E [] p) (hids : DistinctIds log)
    {nullifier : Bytes32} {spent : NullifierSpent}
    (hspent : (index round log).nullifiersSpent nullifier = some spent) {id : Id} :
    SpendsAt (index round log) id nullifier ↔ id = spent.spentIn := by
  rw [spendsAt_index_iff hids]
  constructor
  · rintro ⟨e, hmem, rfl, hn⟩
    have hrow : (index round log).nullifiersSpent nullifier = some (spentBy e.1 nullifier) :=
      (hp.nullifiersSpent_eq_some_iff hlog).mpr ⟨e, hmem, hn, rfl⟩
    rw [hspent] at hrow
    rw [Option.some.inj hrow]
    rfl
  · rintro rfl
    obtain ⟨e, hmem, hn, rfl⟩ := (hp.nullifiersSpent_eq_some_iff hlog).mp hspent
    exact ⟨e, hmem, rfl, hn⟩

end Finished

variable (round) in
/-- **The nullifiers of the store are those of the pool**, at the end of every
transaction of every run, and the entity of a nullifier says in which transfer
or withdrawal it was spent: in that one, and in no other. -/
theorem nullifiersSpent_of_run {w₀ : World X} (hdeployed : Deployed E w₀)
    {c : CallStack.Config (World X) Receipt Cont}
    (hreach : CallStack.Reachable (machine E) (fun _ _ => True) w₀ c) (hend : c.stack = [])
    (hlog : log.map Prod.snd = eventsOf c.now.trace) (hids : DistinctIds log)
    (nullifier : Bytes32) :
    (((index round log).nullifiersSpent nullifier).isSome
        ↔ c.now.state.pool.nullifierSpent nullifier = true)
      ∧ ∀ spent, (index round log).nullifiersSpent nullifier = some spent →
        spent.nullifier = nullifier
          ∧ ∀ id, SpendsAt (index round log) id nullifier ↔ id = spent.spentIn := by
  have hindexed := indexed_of_reachable hdeployed hreach hend
  constructor
  · rw [Option.isSome_iff_exists, hindexed.nullifierSpent_iff hlog]
    constructor
    · rintro ⟨spent, hspent⟩
      obtain ⟨e, hmem, hn, -⟩ := (hindexed.nullifiersSpent_eq_some_iff hlog).mp hspent
      exact ⟨e, hmem, hn⟩
    · rintro ⟨e, hmem, hn⟩
      exact ⟨_, (hindexed.nullifiersSpent_eq_some_iff hlog).mpr ⟨e, hmem, hn, rfl⟩⟩
  · intro spent hspent
    refine ⟨?_, fun id => hindexed.spendsAt_iff hlog hids hspent⟩
    obtain ⟨e, -, -, rfl⟩ := (hindexed.nullifiersSpent_eq_some_iff hlog).mp hspent
    rfl

/-! ## A deposit and a transfer -/

open PrivacyPool (permissive)

/-- A transfer behind the deposit of ten. -/
def secondTransfer : Call :=
  ⟨⟨1, 0, Address.one_ne_zero⟩,
    .transfer [] (MerkleTree.treeRoot (permissive Unit).hash []) (1, 2) (3, 4) 3 4⟩

/-- **A pool with one deposit and one transfer.** -/
theorem exists_transfer_run :
    ∃ c, CallStack.Reachable (machine (permissive Unit)) (fun _ _ => True) newWorld c
      ∧ c.stack = [] ∧ c.now.state.pool.nullifierSpent = paidNullifiers
      ∧ c.now.state.pool.commitmentExists = firstCommitment
      ∧ ∃ root, eventsOf c.now.trace = [.deposit 7 0 10 0, .transfer (1, 2) (3, 4) root] := by
  have hne : MerkleTree.treeRoot (permissive Unit).hash [] ≠ 0 := by
    rw [MerkleTree.treeRoot, HashTree.root_nil]
    decide +kernel
  obtain ⟨tree₁, hins₁, hrep₁⟩ := MerkleTree.insert_represents (permissive Unit).hash
    (MerkleTree.fresh_represents _) (by decide) 7
  obtain ⟨tree₂, hins₂, hrep₂⟩ :=
    MerkleTree.insert_represents (permissive Unit).hash hrep₁ (by decide) 3
  obtain ⟨tree₃, hins₃, -⟩ :=
    MerkleTree.insert_represents (permissive Unit).hash hrep₂ (by decide) 4
  have known := hrep₁.exactWindow.kept [] [7] rfl (by decide) hne
  have hdeposit : Effect (permissive Unit) firstDeposit.msg
      (PrivacyPool.credit firstDeposit.msg newWorld) firstDeposit.entry
      (runWorld tree₁ 10 10 firstCommitment (fun _ => false) .notEntered)
      [.deposit 7 0 10 0] none :=
    .deposit rfl (by decide) rfl rfl (fun h => Bool.noConfusion h) hins₁ rfl
  have htransfer : Effect (permissive Unit) secondTransfer.msg
      (PrivacyPool.credit secondTransfer.msg
        (runWorld tree₁ 10 10 firstCommitment (fun _ => false) .notEntered))
      secondTransfer.entry (runWorld tree₃ 10 10 firstCommitment paidNullifiers .notEntered)
      [.transfer (1, 2) (3, 4) _] none :=
    .transfer rfl rfl rfl known rfl rfl ⟨rfl, rfl, by decide⟩ rfl rfl ⟨_, _, _, _, hins₂, hins₃⟩
  have hfirst := PrivacyPool.enter_eq_ok.mpr ⟨fun h => Bool.noConfusion h, hdeposit⟩
  have hsecond := PrivacyPool.enter_eq_ok.mpr ⟨fun _ => rfl, htransfer⟩
  exact ⟨_, .tail (.tail .refl (.call trivial hfirst)) (.call trivial hsecond), rfl, rfl, rfl, _,
    rfl⟩

/-- Events of one transaction, one behind the other. -/
def numbered (events : List Event) : List (Meta × Event) :=
  events.zipIdx.map (fun e => (⟨0, e.2, 1, 0, 0⟩, e.1))

theorem map_snd_numbered (events : List Event) : (numbered events).map Prod.snd = events := by
  unfold numbered
  rw [List.map_map]
  exact List.zipIdx_map_fst 0 events

theorem distinctIds_numbered (events : List Event) : DistinctIds (numbered events) := by
  unfold DistinctIds numbered
  rw [List.map_map]
  have hids : events.zipIdx.map (fun e => ((0, e.2) : Id))
      = (events.zipIdx.map Prod.snd).map (fun i => ((0, i) : Id)) := by
    rw [List.map_map]
    rfl
  show (events.zipIdx.map (fun e => ((0, e.2) : Id))).Nodup
  rw [hids, List.zipIdx_map_snd]
  exact (List.nodup_range' 1).map (fun _ _ h => (Prod.mk.inj h).2)

/-- The second nullifier of the transfer is recorded behind the transfer. -/
theorem nullifiersSpent_of_run_transfer :
    ∃ c : CallStack.Config (World Unit) Receipt Cont, ∃ log,
      log.map Prod.snd = eventsOf c.now.trace
        ∧ c.now.state.pool.nullifierSpent 2 = true
        ∧ (((index id log).nullifiersSpent 2).isSome
          ↔ c.now.state.pool.nullifierSpent 2 = true)
        ∧ SpendsAt (index id log) (0, 1) 2 := by
  obtain ⟨c, hreach, hend, hmarked, -, root, hevents⟩ := exists_transfer_run
  have hlog := map_snd_numbered (eventsOf c.now.trace)
  have hrun := nullifiersSpent_of_run id newWorld_deployed hreach hend hlog
    (distinctIds_numbered _) 2
  refine ⟨c, numbered (eventsOf c.now.trace), hlog, ?_, hrun.1, ?_⟩
  · rw [hmarked]
    exact Function.update_self ..
  · rw [hevents] at hrun ⊢
    exact (hrun.2 _ rfl).2 (0, 1) |>.mpr rfl

end Subgraph
