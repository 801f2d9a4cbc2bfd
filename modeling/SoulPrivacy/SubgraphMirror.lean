import SoulPrivacy.PoolCalls
import SoulPrivacy.PoolTree
import SoulPrivacy.Subgraph

/-!
# The subgraph and the pool

At the end of a transaction the indexer has seen all events of the run so far.
Its totals are those of the pool. About the tree it may be wrong in two ways.

A deposit tells the index of its leaf, and its handler sets the next index from
it; a transfer or a withdrawal adds two. A withdrawal tells so after its payout
only. So a deposit that the payee makes is counted on top of the two outputs,
and they are counted once more behind it: the next index is two too high, until
the next deposit (`Follows.next`).

A deposit does not tell the root, and its handler leaves the old one, or none.
So the root is the one that the last transfer or withdrawal computed, a
withdrawal before its payout (`Follows.root`).

Both are compared with a count of the run (`progress`), so it is known of every
run when the subgraph mirrors the pool (`mirrors_iff`).
-/

namespace Subgraph

open PrivacyPool (Call Cont Entry Event Interfaces Status World Effect machine Deployed)

/-- A receipt of the pool. -/
abbrev Receipt := CallStack.Receipt Call Cont Event

/-- The events of a receipt. -/
def receiptEvents : Receipt → List Event
  | .entered _ events => events
  | .resumed _ events => events

/-- **The events of a trace**, in the order in which they are emitted. -/
def eventsOf (trace : List Receipt) : List Event := trace.flatMap receiptEvents

/-! ## What a run did to the tree -/

/-- **The leaves of a run**: how many there are, how many there were after the
outputs of the withdrawal that is being paid, how many were under the root that
was told last, and whether the last deposit was made inside of a payout. -/
structure Progress where
  leaves : ℕ
  paying : Option ℕ
  recorded : Option ℕ
  inside : Bool
  deriving DecidableEq

/-- Nothing was done. -/
def Progress.initial : Progress := ⟨0, none, none, false⟩

/-- A deposit. -/
def Progress.deposit (m : Progress) : Progress :=
  { m with leaves := m.leaves + 1, inside := m.paying.isSome }

/-- What a call does. -/
def Progress.entered (m : Progress) : Entry → Progress
  | .deposit .. => m.deposit
  | .revealDeposit .. => m.deposit
  | .transfer .. => { m with leaves := m.leaves + 2, recorded := some (m.leaves + 2) }
  | .withdraw .. => { m with leaves := m.leaves + 2, paying := some (m.leaves + 2) }
  | _ => m

/-- **What a receipt adds.** -/
def Progress.step (m : Progress) : Receipt → Progress
  | .entered c _ => m.entered c.entry
  | .resumed (.withdraw ..) _ => { m with recorded := m.paying, paying := none }
  | .resumed (.reclaim ..) _ => m

/-- **What a trace did.** -/
def progress (trace : List Receipt) : Progress := trace.foldl Progress.step Progress.initial

theorem progress_append_singleton (trace : List Receipt) (r : Receipt) :
    progress (trace ++ [r]) = (progress trace).step r := by
  unfold progress
  rw [List.foldl_append]
  rfl

/-- The handover that is open, if any: its status, and for a withdrawal the
leaves that its root was computed over. -/
inductive Handover (hash : Uint256 → Uint256 → Uint256) (leaves : List Uint256) :
    Option ℕ → Status → List Cont → Prop
  | idle : Handover hash leaves none .notEntered []
  | reclaim {payee : Address} {value : Uint256} :
      Handover hash leaves none .entered [.reclaim payee value]
  | withdraw {nullifiers : PrivacyPool.Pair} {recipient : Address} {value : Uint256} {k : ℕ}
      (le : k ≤ leaves.length) :
      Handover hash leaves (some k) .entered
        [.withdraw nullifiers recipient value (MerkleTree.treeRoot hash (leaves.take k))]

/-- More leaves leave the first ones as they are. -/
theorem Handover.append {hash : Uint256 → Uint256 → Uint256} {leaves : List Uint256}
    {paying : Option ℕ} {status : Status} {ks : List Cont}
    (h : Handover hash leaves paying status ks) (more : List Uint256) :
    Handover hash (leaves ++ more) paying status ks := by
  cases h with
  | idle => exact .idle
  | reclaim => exact .reclaim
  | @withdraw _ _ _ k le =>
    have htake : (leaves ++ more).take k = leaves.take k := List.take_append_of_le_length le
    rw [← htake]
    exact .withdraw (le.trans (by rw [List.length_append]; exact Nat.le_add_right _ _))

/-- No other call hands over while one is open. -/
theorem Handover.of_notEntered {hash : Uint256 → Uint256 → Uint256} {leaves : List Uint256}
    {paying : Option ℕ} {status : Status} {ks : List Cont}
    (h : Handover hash leaves paying status ks) (hstatus : status = .notEntered) :
    paying = none ∧ ks = [] := by
  cases h with
  | idle => exact ⟨rfl, rfl⟩
  | reclaim => cases hstatus
  | withdraw le => cases hstatus

/-- Between transactions nothing is being paid. -/
theorem Handover.of_nil {hash : Uint256 → Uint256 → Uint256} {leaves : List Uint256}
    {paying : Option ℕ} {status : Status} (h : Handover hash leaves paying status []) :
    paying = none := by
  cases h
  rfl

/-! ## The subgraph follows -/

variable {X : Type} {E : Interfaces X}

/-- **What the subgraph says of a tree with some leaves**, and what the pool
is about to say. -/
structure Follows (E : Interfaces X) (leaves : List Uint256) (m : Progress) (v : Summary)
    (tree : MerkleTree.TreeData) (status : Status) (ks : List Cont) : Prop where
  represents : MerkleTree.Represents E.hash tree leaves
  count : m.leaves = leaves.length
  next : v.nextLeafIndex + (if m.paying.isSome then 2 else 0)
    = leaves.length + (if m.inside then 2 else 0)
  root : v.currentRoot
    = m.recorded.map (fun k => MerkleTree.treeRoot E.hash (leaves.take k))
  recorded_le : ∀ k ∈ m.recorded, k ≤ leaves.length
  handover : Handover E.hash leaves m.paying status ks

variable {leaves : List Uint256} {m : Progress} {v : Summary} {tree tree' : MerkleTree.TreeData}
  {status : Status} {ks : List Cont}

/-- The root that was told is one over the first leaves. -/
theorem Follows.root_append (h : Follows E leaves m v tree status ks) (more : List Uint256) :
    v.currentRoot
      = m.recorded.map (fun k => MerkleTree.treeRoot E.hash ((leaves ++ more).take k)) := by
  rw [h.root]
  refine Option.map_congr (fun k hk => ?_)
  rw [List.take_append_of_le_length (h.recorded_le k hk)]

theorem Follows.recorded_append (h : Follows E leaves m v tree status ks)
    (more : List Uint256) : ∀ k ∈ m.recorded, k ≤ (leaves ++ more).length := by
  intro k hk
  rw [List.length_append]
  exact (h.recorded_le k hk).trans (Nat.le_add_right _ _)

/-- **After a deposit.** -/
theorem Follows.deposit (h : Follows E leaves m v tree status ks) (round : ℕ → ℕ)
    {leaf root : Uint256} {index : ℕ} (amount : ℕ)
    (hins : MerkleTree.insert E.hash tree leaf = .ok (tree', index, root)) :
    Follows E (leaves ++ [leaf]) m.deposit (v.deposit round index amount) tree' status ks := by
  obtain ⟨hrep, hindex, -⟩ := MerkleTree.insert_eq_ok E.hash h.represents hins
  refine ⟨hrep, ?_, ?_, h.root_append [leaf], h.recorded_append [leaf], h.handover.append [leaf]⟩
  · show m.leaves + 1 = (leaves ++ [leaf]).length
    rw [h.count, List.length_append]
    rfl
  · show index + 1 + (if m.paying.isSome then 2 else 0)
      = (leaves ++ [leaf]).length + (if m.paying.isSome then 2 else 0)
    rw [hindex, List.length_append]
    rfl

/-- Two outputs in the tree, and the root over them. -/
theorem insertTwo_root {outputs : PrivacyPool.Pair} {newRoot : Uint256}
    (hrep : MerkleTree.Represents E.hash tree leaves)
    (hins : PrivacyPool.InsertTwo E tree tree' outputs newRoot) :
    newRoot = MerkleTree.treeRoot E.hash
      ((leaves ++ [outputs.1, outputs.2]).take (leaves.length + 2)) := by
  obtain ⟨tree₁, _, _, _, hins₁, hins₂⟩ := hins
  obtain ⟨hrep₁, -, -⟩ := MerkleTree.insert_eq_ok E.hash hrep hins₁
  obtain ⟨-, -, hroot⟩ := MerkleTree.insert_eq_ok E.hash hrep₁ hins₂
  rw [hroot, List.take_of_length_le (by rw [List.length_append]; rfl), List.append_assoc]
  rfl

/-- **After a transfer.** -/
theorem Follows.transfer (h : Follows E leaves m v tree status ks)
    {outputs : PrivacyPool.Pair} {newRoot : Uint256}
    (hins : PrivacyPool.InsertTwo E tree tree' outputs newRoot) :
    Follows E (leaves ++ [outputs.1, outputs.2])
      { m with leaves := m.leaves + 2, recorded := some (m.leaves + 2) } (v.outputs newRoot)
      tree' status ks := by
  have hlength : (leaves ++ [outputs.1, outputs.2]).length = leaves.length + 2 :=
    List.length_append
  refine ⟨hins.represents h.represents, ?_, ?_, ?_, ?_, h.handover.append _⟩
  · show m.leaves + 2 = _
    rw [h.count, hlength]
  · have hnext := h.next
    show v.nextLeafIndex + 2 + (if m.paying.isSome then 2 else 0)
      = (leaves ++ [outputs.1, outputs.2]).length + (if m.inside then 2 else 0)
    rw [hlength]
    omega
  · show some newRoot = some _
    rw [h.count, insertTwo_root h.represents hins]
  · rintro k ⟨⟩
    rw [h.count, hlength]

/-- **After a withdrawal, up to its payout.** -/
theorem Follows.withdraw (h : Follows E leaves m v tree .notEntered ks)
    {outputs nullifiers : PrivacyPool.Pair} {recipient : Address} {value newRoot : Uint256}
    (hins : PrivacyPool.InsertTwo E tree tree' outputs newRoot) :
    Follows E (leaves ++ [outputs.1, outputs.2])
      { m with leaves := m.leaves + 2, paying := some (m.leaves + 2) } v tree' .entered
      [.withdraw nullifiers recipient value newRoot] := by
  obtain ⟨hpaying, -⟩ := h.handover.of_notEntered rfl
  have hlength : (leaves ++ [outputs.1, outputs.2]).length = leaves.length + 2 :=
    List.length_append
  refine ⟨hins.represents h.represents, ?_, ?_, h.root_append _, h.recorded_append _, ?_⟩
  · show m.leaves + 2 = _
    rw [h.count, hlength]
  · have hnext := h.next
    rw [hpaying] at hnext
    show v.nextLeafIndex + 2 = (leaves ++ [outputs.1, outputs.2]).length
      + (if m.inside then 2 else 0)
    rw [hlength]
    simp only [Option.isSome_none, Bool.false_eq_true, if_false] at hnext
    omega
  · rw [insertTwo_root h.represents hins, h.count]
    exact .withdraw hlength.ge

/-- **After a refund, up to its payout.** -/
theorem Follows.reclaim (h : Follows E leaves m v tree .notEntered ks) {payee : Address}
    {value : Uint256} : Follows E leaves m v tree .entered [.reclaim payee value] := by
  obtain ⟨hpaying, -⟩ := h.handover.of_notEntered rfl
  refine ⟨h.represents, h.count, h.next, h.root, h.recorded_le, ?_⟩
  rw [hpaying]
  exact .reclaim

/-- **After a call.** A call that hands over finds no other one that did. -/
theorem Follows.effect (round : ℕ → ℕ) {msg : PrivacyPool.Msg} {w w' : World X} {entry : Entry}
    {events : List Event} {k : Option Cont}
    (h : Follows E leaves m v w.pool.tree w.pool.status ks)
    (heff : Effect E msg w entry w' events k) :
    Follows E (leaves ++ entry.leaves) (m.entered entry) (events.foldl (Summary.step round) v)
        w'.pool.tree w'.pool.status (k.elim ks (fun k => [k]))
      ∧ (k.isSome → ks = []) := by
  cases heff
  case deposit commitment amount tree index root poolBalance running amount_ne value_eq new
      denomination ins balance =>
    exact ⟨h.deposit round _ ins, nofun⟩
  case revealDeposit commitment salt tree index root poolBalance record running record_eq
      depositor unrevealed early late new ins balance =>
    exact ⟨h.deposit round _ ins, nofun⟩
  case transfer ins => exact ⟨h.transfer ins, nofun⟩
  case withdraw guard exit_ne known outputs_ok compliant unblocked fresh reported verified ins
      balance =>
    rw [guard] at h
    exact ⟨h.withdraw ins, fun _ => (h.handover.of_notEntered rfl).2⟩
  case reclaimExpiredCommit guard record_eq depositor unrevealed expired =>
    rw [guard] at h
    refine ⟨?_, fun _ => (h.handover.of_notEntered rfl).2⟩
    exact (List.append_nil leaves).symm ▸ h.reclaim
  -- the other entry points do nothing to the tree
  all_goals exact ⟨(List.append_nil leaves).symm ▸ h, nofun⟩

/-- **After a payout.** -/
theorem Follows.resume (round : ℕ → ℕ) {k : Cont} {w w' : World X} {events : List Event}
    (h : Follows E leaves m v w.pool.tree w.pool.status (k :: ks))
    (hresume : PrivacyPool.resume k true w = .ok (w', events)) :
    Follows E leaves (m.step (.resumed k events)) (events.foldl (Summary.step round) v)
        w'.pool.tree w'.pool.status []
      ∧ ks = [] := by
  obtain ⟨count, paying, recorded, inside⟩ := m
  obtain ⟨hrep, hcount, hnext, hroot, hle, hhandover⟩ := h
  generalize w.pool.status = status at hhandover
  cases k with
  | reclaim payee value =>
    cases hresume
    cases hhandover
    exact ⟨⟨hrep, hcount, hnext, hroot, hle, .idle⟩, rfl⟩
  | withdraw nullifiers recipient value newRoot =>
    cases hresume
    cases hhandover with
    | withdraw le =>
      refine ⟨⟨hrep, hcount, hnext, rfl, ?_, .idle⟩, rfl⟩
      rintro k ⟨⟩
      exact le

/-! ## Totals -/

/-- What a handover still has to tell as withdrawn. -/
def untold : Cont → ℕ
  | .withdraw _ _ value _ => value.toNat
  | .reclaim _ _ => 0

/-- **What a call tells**: its credits at once, its debits with its payout. -/
theorem effect_told {msg : PrivacyPool.Msg} {w w' : World X} {entry : Entry}
    {events : List Event} {k : Option Cont} (h : Effect E msg w entry w' events k) :
    (events.map depositedValue).sum = (events.map PrivacyPool.Event.credits).sum
      ∧ (events.map withdrawnValue).sum + k.elim 0 untold = entry.debits := by
  cases h
  case withdraw => exact ⟨rfl, Nat.zero_add _⟩
  all_goals exact ⟨rfl, rfl⟩

/-- A payout tells what was left to be told, and no deposit. -/
theorem resume_told {k : Cont} {w w' : World X} {events : List Event}
    (h : PrivacyPool.resume k true w = .ok (w', events)) :
    (events.map depositedValue).sum = 0 ∧ (events.map withdrawnValue).sum = untold k := by
  cases k with
  | reclaim payee value =>
    cases h
    exact ⟨rfl, rfl⟩
  | withdraw nullifiers recipient value newRoot =>
    cases h
    exact ⟨rfl, rfl⟩

/-! ## Runs -/

/-- What the subgraph says after a trace. -/
def told (round : ℕ → ℕ) (trace : List Receipt) : Summary :=
  (eventsOf trace).foldl (Summary.step round) Summary.initial

theorem eventsOf_append_singleton (trace : List Receipt) (r : Receipt) :
    eventsOf (trace ++ [r]) = eventsOf trace ++ receiptEvents r := by
  unfold eventsOf
  rw [List.flatMap_append, List.flatMap_singleton]

theorem told_append_singleton (round : ℕ → ℕ) (trace : List Receipt) (r : Receipt) :
    told round (trace ++ [r])
      = (receiptEvents r).foldl (Summary.step round) (told round trace) := by
  unfold told
  rw [eventsOf_append_singleton, List.foldl_append]

/-- **The invariant**: the subgraph follows, and it tells what was credited and
what was debited, but for the open handover. -/
structure Told (E : Interfaces X) (round : ℕ → ℕ) (ks : List Cont)
    (p : PrivacyPool.Point X) : Prop where
  follows : Follows E (PrivacyPool.leavesOf p.trace) (progress p.trace) (told round p.trace)
    p.state.pool.tree p.state.pool.status ks
  deposited : ((eventsOf p.trace).map depositedValue).sum = PrivacyPool.credited p.trace
  withdrawn : ((eventsOf p.trace).map withdrawnValue).sum + (ks.map untold).sum
    = PrivacyPool.debited p.trace

/-- Nothing was told of a pool that was just deployed. -/
theorem Told.init (round : ℕ → ℕ) {w : World X} (h : Deployed E w) :
    Told E round [] (⟨w, []⟩ : PrivacyPool.Point X) := by
  obtain ⟨sender, epochManager, chainId, appId, guardian, oracle, hpool⟩ := h
  refine ⟨?_, rfl, rfl⟩
  show Follows E [] Progress.initial Summary.initial w.pool.tree w.pool.status []
  rw [hpool]
  exact ⟨MerkleTree.fresh_represents E.hash, rfl, rfl, rfl, nofun, .idle⟩

/-- A receipt tells its events. -/
theorem sum_eventsOf_append (f : Event → ℕ) (trace : List Receipt) (r : Receipt) :
    ((eventsOf (trace ++ [r])).map f).sum
      = ((eventsOf trace).map f).sum + ((receiptEvents r).map f).sum := by
  rw [eventsOf_append_singleton, List.map_append, List.sum_append]

/-- **A call keeps the invariant.** -/
theorem Told.enter {round : ℕ → ℕ} {ks : List Cont} {p : PrivacyPool.Point X}
    (hp : Told E round ks p) {c : Call} {w' : World X} {events : List Event} {k : Option Cont}
    (h : PrivacyPool.enter E c p.state = .ok (w', events, k)) :
    Told E round (k.elim ks (fun k => [k]))
        (⟨w', p.trace ++ [.entered c events]⟩ : PrivacyPool.Point X)
      ∧ (k.isSome → ks = []) := by
  obtain ⟨-, heff⟩ := PrivacyPool.enter_effect h
  have hfollows : Follows E (PrivacyPool.leavesOf p.trace) (progress p.trace)
      (told round p.trace) (PrivacyPool.credit c.msg p.state).pool.tree
      (PrivacyPool.credit c.msg p.state).pool.status ks := hp.follows
  obtain ⟨hstep, hfirst⟩ := hfollows.effect round heff
  obtain ⟨hdeposits, hwithdrawals⟩ := effect_told heff
  refine ⟨⟨?_, ?_, ?_⟩, hfirst⟩
  · show Follows E (PrivacyPool.leavesOf (p.trace ++ [.entered c events])) _ _ _ _ _
    rw [PrivacyPool.leavesOf, List.flatMap_append, List.flatMap_singleton,
      progress_append_singleton, told_append_singleton]
    exact hstep
  · have hcredited : PrivacyPool.credited (p.trace ++ [.entered c events])
        = PrivacyPool.credited p.trace + (events.map PrivacyPool.Event.credits).sum := by
      simp [PrivacyPool.credited]
    show ((eventsOf (p.trace ++ [.entered c events])).map depositedValue).sum = _
    rw [sum_eventsOf_append, hp.deposited, hcredited, ← hdeposits]
    rfl
  · have hdebited : PrivacyPool.debited (p.trace ++ [.entered c events])
        = PrivacyPool.debited p.trace + c.entry.debits := by
      simp [PrivacyPool.debited]
    have hold := hp.withdrawn
    show ((eventsOf (p.trace ++ [.entered c events])).map withdrawnValue).sum + _ = _
    rw [sum_eventsOf_append, hdebited, ← hwithdrawals, ← hold]
    show _ + (events.map withdrawnValue).sum + _ = _
    cases k with
    | none =>
      show _ + _ + (ks.map untold).sum = _ + (ks.map untold).sum + (_ + 0)
      omega
    | some k =>
      rw [hfirst rfl]
      show _ + _ + (untold k + 0) = _ + 0 + (_ + untold k)
      omega

/-- **A payout keeps it.** -/
theorem Told.resume {round : ℕ → ℕ} {ks : List Cont} {p : PrivacyPool.Point X} {k : Cont}
    (hp : Told E round (k :: ks) p) {w' : World X} {events : List Event}
    (h : PrivacyPool.resume k true p.state = .ok (w', events)) :
    Told E round ks (⟨w', p.trace ++ [.resumed k events]⟩ : PrivacyPool.Point X) := by
  obtain ⟨hstep, rfl⟩ := hp.follows.resume round h
  obtain ⟨hdeposits, hwithdrawals⟩ := resume_told h
  refine ⟨?_, ?_, ?_⟩
  · show Follows E (PrivacyPool.leavesOf (p.trace ++ [.resumed k events])) _ _ _ _ _
    rw [PrivacyPool.leavesOf, List.flatMap_append, List.flatMap_singleton,
      progress_append_singleton, told_append_singleton]
    exact (List.append_nil (PrivacyPool.leavesOf p.trace)).symm ▸ hstep
  · have hcredited : PrivacyPool.credited (p.trace ++ [.resumed k events])
        = PrivacyPool.credited p.trace := by
      simp [PrivacyPool.credited]
    show ((eventsOf (p.trace ++ [.resumed k events])).map depositedValue).sum = _
    rw [sum_eventsOf_append, hp.deposited, hcredited]
    show _ + (events.map depositedValue).sum = _
    rw [hdeposits, Nat.add_zero]
  · have hdebited : PrivacyPool.debited (p.trace ++ [.resumed k events])
        = PrivacyPool.debited p.trace := by
      simp [PrivacyPool.debited]
    have hold := hp.withdrawn
    show ((eventsOf (p.trace ++ [.resumed k events])).map withdrawnValue).sum + 0 = _
    rw [sum_eventsOf_append, hdebited, ← hold]
    show _ + (events.map withdrawnValue).sum + 0 = _ + (untold k + 0)
    rw [hwithdrawals]
    rfl

variable (E) in
/-- **What the subgraph says is an invariant of the pool.** Before a payout no
other handover is open. -/
theorem told_invariant (round : ℕ → ℕ) :
    CallStack.Invariant (machine E) (fun _ _ => True) (fun ks p => Told E round ks p)
      (fun k ks p => ks = [] ∧ Told E round [k] p) where
  enter_done hp _ h := (hp.enter h).1
  enter_send hp _ h := ⟨(hp.enter h).2 rfl, (hp.enter h).1⟩
  send := by
    rintro ks p k s' ⟨rfl, hp⟩ h
    obtain ⟨-, rfl⟩ := PrivacyPool.send_eq_some h
    exact ⟨hp.follows, hp.deposited, hp.withdrawn⟩
  resume_true hp h := hp.resume h
  resume_false _ h := nomatch (PrivacyPool.resume_eq_ok h).1
  outside := by
    rintro ks p s' hp ⟨-, -, hpool, -⟩
    refine ⟨?_, hp.deposited, hp.withdrawn⟩
    rw [hpool]
    exact hp.follows
  tick := by
    rintro p s' hp ⟨-, -, hpool, -⟩
    refine ⟨?_, hp.deposited, hp.withdrawn⟩
    rw [hpool]
    exact hp.follows

/-! ## When the subgraph mirrors the pool -/

/-- **The store mirrors the pool**: the next leaf index, the root and the balance
are those of the pool. -/
structure Mirrors (s : Store) (pool : PrivacyPool.Storage) : Prop where
  nextLeafIndex : s.summary.nextLeafIndex = pool.tree.nextLeafIndex
  currentRoot : s.summary.currentRoot = some (MerkleTree.getLatestRoot pool.tree)
  poolBalance : s.summary.deposited = s.summary.withdrawn + pool.poolBalance.toNat

/-- **What was told of the tree is up to date**: the last deposit was not made
inside of a payout, and the leaves that came after the root that was told last,
if any, left it the root. -/
def UpToDate (hash : Uint256 → Uint256 → Uint256) (trace : List Receipt) : Prop :=
  (progress trace).inside = false
    ∧ ∃ k, (progress trace).recorded = some k
      ∧ MerkleTree.treeRoot hash ((PrivacyPool.leavesOf trace).take k)
        = MerkleTree.treeRoot hash (PrivacyPool.leavesOf trace)

/-- **The next index is right** unless the last deposit was made inside of a
payout. -/
theorem Told.nextLeafIndex_iff {round : ℕ → ℕ} {p : PrivacyPool.Point X}
    (hp : Told E round [] p) :
    (told round p.trace).nextLeafIndex = p.state.pool.tree.nextLeafIndex
      ↔ (progress p.trace).inside = false := by
  have hnext := hp.follows.next
  have hpaying : (progress p.trace).paying = none := hp.follows.handover.of_nil
  rw [hp.follows.represents.nextLeafIndex_eq]
  rw [hpaying] at hnext
  cases hinside : (progress p.trace).inside with
  | false =>
    rw [hinside] at hnext
    exact iff_of_true hnext rfl
  | true =>
    rw [hinside] at hnext
    refine iff_of_false (fun heq => ?_) nofun
    rw [heq] at hnext
    exact absurd hnext (by simp)

/-- **The root is right** where the one that was told last is still the root. -/
theorem Told.currentRoot_iff {round : ℕ → ℕ} {ks : List Cont} {p : PrivacyPool.Point X}
    (hp : Told E round ks p) :
    (told round p.trace).currentRoot = some (MerkleTree.getLatestRoot p.state.pool.tree)
      ↔ ∃ k, (progress p.trace).recorded = some k
        ∧ MerkleTree.treeRoot E.hash ((PrivacyPool.leavesOf p.trace).take k)
          = MerkleTree.treeRoot E.hash (PrivacyPool.leavesOf p.trace) := by
  rw [hp.follows.root, hp.follows.represents.getLatestRoot_eq E.hash]
  exact Option.map_eq_some_iff

/-- **The balance is right**, as long as the totals are exact. -/
theorem Told.poolBalance {round : ℕ → ℕ} (hround : ExactDecimals round)
    {p : PrivacyPool.Point X} (hp : Told E round [] p)
    (hbooked : p.state.pool.poolBalance.toNat + PrivacyPool.debited p.trace
      = PrivacyPool.credited p.trace)
    (hsmall : PrivacyPool.credited p.trace < 10 ^ SIGNIFICANT_DIGITS) :
    (told round p.trace).deposited
      = (told round p.trace).withdrawn + p.state.pool.poolBalance.toNat := by
  have hdeposited := hp.deposited
  have hwithdrawn := hp.withdrawn
  rw [List.map_nil, List.sum_nil, Nat.add_zero] at hwithdrawn
  have hdebited : PrivacyPool.debited p.trace ≤ PrivacyPool.credited p.trace :=
    hbooked ▸ Nat.le_add_left _ _
  obtain ⟨hd, hw⟩ := hround.totals (eventsOf p.trace) (hdeposited ▸ hsmall)
    (hwithdrawn ▸ hdebited.trans_lt hsmall)
  have hd' : (told round p.trace).deposited = PrivacyPool.credited p.trace := hd.trans hdeposited
  have hw' : (told round p.trace).withdrawn = PrivacyPool.debited p.trace := hw.trans hwithdrawn
  rw [hd', hw', ← hbooked, Nat.add_comm]

/-- **The subgraph mirrors the pool** at the end of a transaction of a run, as
long as its totals are exact, exactly where it is up to date about the tree. -/
theorem mirrors_iff {round : ℕ → ℕ} (hround : ExactDecimals round) {w₀ : World X}
    (hdeployed : Deployed E w₀) {c : CallStack.Config (World X) Receipt Cont}
    (hreach : CallStack.Reachable (machine E) (fun _ _ => True) w₀ c) (hend : c.stack = [])
    {log : List (Meta × Event)} (hlog : log.map Prod.snd = eventsOf c.now.trace)
    (hsmall : PrivacyPool.credited c.now.trace < 10 ^ SIGNIFICANT_DIGITS) :
    Mirrors (index round log) c.now.state.pool ↔ UpToDate E.hash c.now.trace := by
  have htold := (told_invariant E round).holds (Told.init round hdeployed) hreach
  have hsolvent := (PrivacyPool.solvent_invariant E).holds (PrivacyPool.Solvent.init hdeployed)
    hreach
  rw [hend] at htold
  have hsummary : (index round log).summary = told round c.now.trace := by
    rw [summary_index, hlog]
    rfl
  constructor
  · rintro ⟨hnext, hroot, -⟩
    rw [hsummary] at hnext hroot
    exact ⟨htold.nextLeafIndex_iff.mp hnext, htold.currentRoot_iff.mp hroot⟩
  · rintro ⟨hinside, hrecorded⟩
    refine ⟨?_, ?_, ?_⟩
    · rw [hsummary]
      exact htold.nextLeafIndex_iff.mpr hinside
    · rw [hsummary]
      exact htold.currentRoot_iff.mpr hrecorded
    · rw [hsummary]
      exact htold.poolBalance hround hsolvent.booked hsmall

/-! ## A payee that deposits -/

open PrivacyPool (permissive)

/-- A pool that has just been deployed, … -/
def newWorld : World Unit :=
  ⟨⟨0, 0⟩, 0, PrivacyPool.construct (permissive Unit).hash 1 0 3 4 5 0, ()⟩

theorem newWorld_deployed : Deployed (permissive Unit) newWorld := ⟨1, 0, 3, 4, 5, 0, rfl⟩

/-- … a deposit of ten, … -/
def firstDeposit : Call := ⟨⟨1, 10, Address.one_ne_zero⟩, .deposit 7 10⟩

/-- … a withdrawal of four … -/
def payingWithdraw : Call :=
  ⟨⟨1, 0, Address.one_ne_zero⟩,
    .withdraw [] (MerkleTree.treeRoot (permissive Unit).hash []) (1, 2) (3, 4) 1 4⟩

/-- … and a deposit of five by the payee. -/
def payeeDeposit : Call := ⟨⟨1, 5, Address.one_ne_zero⟩, .deposit 8 5⟩

/-- The pool on the way. -/
def runWorld (tree : MerkleTree.TreeData) (balance : ℕ) (poolBalance : Uint256)
    (commitments spent : Bytes32 → Bool) (status : Status) : World Unit :=
  { newWorld with
    balance := balance
    pool := { newWorld.pool with
      tree := tree
      poolBalance := poolBalance
      commitmentExists := commitments
      nullifierSpent := spent
      status := status } }

/-- The commitments after the first deposit. -/
def firstCommitment : Bytes32 → Bool := Function.update (fun _ => false) 7 true

/-- The nullifiers of the withdrawal. -/
def paidNullifiers : Bytes32 → Bool :=
  Function.update (Function.update (fun _ => false) 1 true) 2 true

/-- **A payee deposits while it is being paid.** There are four leaves then, the
root that is told is one over three, and the last deposit is inside. -/
theorem exists_reentrant_run :
    ∃ c, CallStack.Reachable (machine (permissive Unit)) (fun _ _ => True) newWorld c
      ∧ c.stack = [] ∧ progress c.now.trace = ⟨4, none, some 3, true⟩
      ∧ PrivacyPool.credited c.now.trace = 15 := by
  have hne : MerkleTree.treeRoot (permissive Unit).hash [] ≠ 0 := by
    rw [MerkleTree.treeRoot, HashTree.root_nil]
    decide +kernel
  obtain ⟨tree₁, hins₁, hrep₁⟩ := MerkleTree.insert_represents (permissive Unit).hash
    (MerkleTree.fresh_represents _) (by decide) 7
  obtain ⟨tree₂, hins₂, hrep₂⟩ :=
    MerkleTree.insert_represents (permissive Unit).hash hrep₁ (by decide) 3
  obtain ⟨tree₃, hins₃, hrep₃⟩ :=
    MerkleTree.insert_represents (permissive Unit).hash hrep₂ (by decide) 4
  obtain ⟨tree₄, hins₄, -⟩ :=
    MerkleTree.insert_represents (permissive Unit).hash hrep₃ (by decide) 8
  have known := hrep₁.exactWindow.kept [] [7] rfl (by decide) hne
  have hdeposit : Effect (permissive Unit) firstDeposit.msg
      (PrivacyPool.credit firstDeposit.msg newWorld) firstDeposit.entry
      (runWorld tree₁ 10 10 firstCommitment (fun _ => false) .notEntered)
      [.deposit 7 0 10 0] none :=
    .deposit rfl (by decide) rfl rfl (fun h => Bool.noConfusion h) hins₁ rfl
  have hwithdraw : Effect (permissive Unit) payingWithdraw.msg
      (PrivacyPool.credit payingWithdraw.msg
        (runWorld tree₁ 10 10 firstCommitment (fun _ => false) .notEntered))
      payingWithdraw.entry
      (runWorld tree₃ 10 (10 - 4) firstCommitment paidNullifiers .entered) [] (some _) :=
    .withdraw rfl rfl (by decide) known rfl rfl rfl ⟨rfl, rfl, by decide⟩ rfl rfl
      ⟨_, _, _, _, hins₂, hins₃⟩ rfl
  have hpayee : Effect (permissive Unit) payeeDeposit.msg
      (PrivacyPool.credit payeeDeposit.msg
        (runWorld tree₃ 6 (10 - 4) firstCommitment paidNullifiers .entered))
      payeeDeposit.entry
      (runWorld tree₄ 11 (10 - 4 + 5) (Function.update firstCommitment 8 true) paidNullifiers
        .entered)
      [.deposit 8 3 5 0] none :=
    .deposit rfl (by decide) rfl rfl (fun h => Bool.noConfusion h) hins₄ rfl
  have hfirst := PrivacyPool.enter_eq_ok.mpr ⟨fun h => Bool.noConfusion h, hdeposit⟩
  have hsecond := PrivacyPool.enter_eq_ok.mpr ⟨fun _ => rfl, hwithdraw⟩
  have hthird := PrivacyPool.enter_eq_ok.mpr ⟨fun h => Bool.noConfusion h, hpayee⟩
  exact ⟨_, .tail (.tail (.tail (.tail .refl (.call trivial hfirst))
      (.handover trivial hsecond rfl)) (.call trivial hthird)) (.returned rfl), rfl, rfl, rfl⟩

/-- All events in one transaction. -/
def oneTransaction (events : List Event) : List (Meta × Event) :=
  events.map (fun event => (⟨0, 0, 1, 0, 0⟩, event))

theorem map_snd_oneTransaction (events : List Event) :
    (oneTransaction events).map Prod.snd = events := by
  unfold oneTransaction
  rw [List.map_map]
  exact List.map_id events

/-- At the end of this run the subgraph does not mirror the pool. -/
theorem mirrors_iff_reentrant :
    ∃ c : CallStack.Config (World Unit) Receipt Cont, (progress c.now.trace).inside = true
      ∧ (Mirrors (index id (oneTransaction (eventsOf c.now.trace))) c.now.state.pool
        ↔ UpToDate (permissive Unit).hash c.now.trace) := by
  obtain ⟨c, hreach, hend, hprogress, hcredited⟩ := exists_reentrant_run
  have hsmall : PrivacyPool.credited c.now.trace < 10 ^ SIGNIFICANT_DIGITS := by
    rw [hcredited]
    decide
  have hiff := mirrors_iff (fun _ _ => rfl) newWorld_deployed hreach hend
    (map_snd_oneTransaction _) hsmall
  exact ⟨c, congrArg Progress.inside hprogress, hiff⟩

/-- The subgraph does not always mirror the pool. -/
theorem reentrant_not_mirrored :
    ¬ ∀ (E : Interfaces Unit) (w₀ : World Unit)
        (c : CallStack.Config (World Unit) Receipt Cont) (log : List (Meta × Event)),
      Deployed E w₀ → CallStack.Reachable (machine E) (fun _ _ => True) w₀ c → c.stack = [] →
        log.map Prod.snd = eventsOf c.now.trace →
          Mirrors (index id log) c.now.state.pool := by
  intro hall
  obtain ⟨c, hreach, hend, hprogress, -⟩ := exists_reentrant_run
  have htold := (told_invariant (permissive Unit) id).holds (Told.init id newWorld_deployed) hreach
  rw [hend] at htold
  have hmirrors := hall _ _ c (oneTransaction (eventsOf c.now.trace)) newWorld_deployed hreach hend
    (map_snd_oneTransaction _)
  have hnext := hmirrors.nextLeafIndex
  rw [summary_index, map_snd_oneTransaction] at hnext
  have hinside := htold.nextLeafIndex_iff.mp hnext
  rw [hprogress] at hinside
  cases hinside

end Subgraph
