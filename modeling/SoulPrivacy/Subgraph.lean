import SoulPrivacy.PrivacyPool

/-!
# The subgraph of the pool (`subgraph/src/privacy-pool.ts`)

The indexer calls a handler for each event of the pool, in the order of the
events, and the handlers write entities to a store. There is one entity for the
tree and one for the totals, which a handler creates when it does not find it.
The root of the tree is a field that only some handlers write, so it may be
there without one.

Totals are decimals, which keep a number of digits only: a sum is rounded. How is
a parameter.

What the store says about the tree and the totals depends on the events alone,
and not on the transactions that they come from (`summary_index`).
-/

namespace Subgraph

open PrivacyPool (Event Pair)

/-- What an event carries of its transaction and its block. -/
structure Meta where
  transactionHash : Bytes32
  logIndex : ℕ
  sender : Address
  blockNumber : ℕ
  blockTimestamp : ℕ

/-- The identifier of an entity that belongs to an event. -/
abbrev Id := Bytes32 × ℕ

/-- The text `hash-logIndex` has these two parts. -/
def Meta.id (m : Meta) : Id := (m.transactionHash, m.logIndex)

/-! ## Entities -/

/-- `Deposit`. -/
structure Deposit where
  commitment : Bytes32
  leafIndex : ℕ
  amount : ℕ
  timestamp : ℕ
  blockNumber : ℕ
  transactionHash : Bytes32

/-- `Transfer`. -/
structure Transfer where
  nullifiers : Pair
  outputCommitments : Pair
  newRoot : Bytes32
  blockNumber : ℕ
  transactionHash : Bytes32
  timestamp : ℕ

/-- `Withdrawal`. -/
structure Withdrawal where
  nullifiers : Pair
  recipient : Address
  exitValue : ℕ
  newRoot : Bytes32
  blockNumber : ℕ
  transactionHash : Bytes32
  timestamp : ℕ

/-- `NullifierSpent`. -/
structure NullifierSpent where
  nullifier : Bytes32
  spentIn : Id
  spentAt : ℕ
  blockNumber : ℕ
  transactionHash : Bytes32

/-- `Depositor`. -/
structure Depositor where
  address : Address
  totalDeposits : ℕ
  totalDepositedValue : ℕ
  firstDepositBlock : ℕ
  lastDepositBlock : ℕ

/-- `MerkleTreeState`, of which a new one has no root. -/
structure MerkleTreeState where
  currentRoot : Option Bytes32
  nextLeafIndex : ℕ
  lastUpdatedBlock : Option ℕ

/-- `PoolMetrics`. -/
structure PoolMetrics where
  totalDeposits : ℕ
  totalWithdrawals : ℕ
  totalTransfers : ℕ
  totalDepositedValue : ℕ
  totalWithdrawnValue : ℕ
  uniqueDepositors : ℕ
  paused : Bool
  lastPausedBy : Option Address
  lastPauseReason : Option String

/-- **The store.** -/
structure Store where
  deposits : Id → Option Deposit
  transfers : Id → Option Transfer
  withdrawals : Id → Option Withdrawal
  nullifiersSpent : Bytes32 → Option NullifierSpent
  depositors : Address → Option Depositor
  treeState : Option MerkleTreeState
  metrics : Option PoolMetrics

/-- A store without entities. -/
def Store.empty : Store where
  deposits := fun _ => none
  transfers := fun _ => none
  withdrawals := fun _ => none
  nullifiersSpent := fun _ => none
  depositors := fun _ => none
  treeState := none
  metrics := none

/-- `getOrCreateMetrics`. -/
def getOrCreateMetrics (s : Store) : PoolMetrics :=
  s.metrics.getD ⟨0, 0, 0, 0, 0, 0, false, none, none⟩

/-- `getOrCreateTreeState`. -/
def getOrCreateTreeState (s : Store) : MerkleTreeState := s.treeState.getD ⟨none, 0, none⟩

/-! ## Handlers -/

/-- The digits that a decimal keeps. -/
def SIGNIFICANT_DIGITS : ℕ := 34

variable (round : ℕ → ℕ)

/-- `handleDeposit`. -/
def handleDeposit (m : Meta) (commitment : Bytes32) (leafIndex amount timestamp : ℕ)
    (s : Store) : Store :=
  let found := s.depositors m.sender
  let depositor := found.getD ⟨m.sender, 0, 0, m.blockNumber, m.blockNumber⟩
  let depositor := { depositor with
    totalDeposits := depositor.totalDeposits + 1
    totalDepositedValue := round (depositor.totalDepositedValue + round amount)
    lastDepositBlock := m.blockNumber }
  let tree := getOrCreateTreeState s
  let metrics := getOrCreateMetrics s
  { s with
    deposits := Function.update s.deposits m.id (some
      ⟨commitment, leafIndex, amount, timestamp, m.blockNumber, m.transactionHash⟩)
    depositors := Function.update s.depositors m.sender (some depositor)
    treeState := some { tree with
      nextLeafIndex := leafIndex + 1
      lastUpdatedBlock := some m.blockNumber }
    metrics := some { metrics with
      totalDeposits := metrics.totalDeposits + 1
      totalDepositedValue := round (metrics.totalDepositedValue + round amount)
      uniqueDepositors := metrics.uniqueDepositors + if found.isNone then 1 else 0 } }

/-- What both spending handlers write for the two nullifiers. -/
def spend (m : Meta) (nullifiers : Pair) (s : Store) : Store :=
  let spent (nullifier : Bytes32) : NullifierSpent :=
    ⟨nullifier, m.id, m.blockTimestamp, m.blockNumber, m.transactionHash⟩
  { s with
    nullifiersSpent :=
      Function.update
        (Function.update s.nullifiersSpent nullifiers.1 (some (spent nullifiers.1)))
        nullifiers.2 (some (spent nullifiers.2)) }

/-- What they write for the two outputs. -/
def insertOutputs (m : Meta) (newRoot : Bytes32) (s : Store) : Store :=
  let tree := getOrCreateTreeState s
  { s with
    treeState := some { tree with
      currentRoot := some newRoot
      nextLeafIndex := tree.nextLeafIndex + 2
      lastUpdatedBlock := some m.blockNumber } }

/-- `handleTransfer`. -/
def handleTransfer (m : Meta) (nullifiers outputCommitments : Pair) (newRoot : Bytes32)
    (s : Store) : Store :=
  let metrics := getOrCreateMetrics s
  let s := insertOutputs m newRoot (spend m nullifiers s)
  { s with
    transfers := Function.update s.transfers m.id (some
      ⟨nullifiers, outputCommitments, newRoot, m.blockNumber, m.transactionHash,
        m.blockTimestamp⟩)
    metrics := some { metrics with totalTransfers := metrics.totalTransfers + 1 } }

/-- `handleWithdrawal`. -/
def handleWithdrawal (m : Meta) (nullifiers : Pair) (recipient : Address) (amount : ℕ)
    (newRoot : Bytes32) (s : Store) : Store :=
  let metrics := getOrCreateMetrics s
  let s := insertOutputs m newRoot (spend m nullifiers s)
  { s with
    withdrawals := Function.update s.withdrawals m.id (some
      ⟨nullifiers, recipient, amount, newRoot, m.blockNumber, m.transactionHash,
        m.blockTimestamp⟩)
    metrics := some { metrics with
      totalWithdrawals := metrics.totalWithdrawals + 1
      totalWithdrawnValue := round (metrics.totalWithdrawnValue + round amount) } }

/-- `handlePaused`. -/
def handlePaused (account : Address) (reason : String) (s : Store) : Store :=
  { s with
    metrics := some { getOrCreateMetrics s with
      paused := true
      lastPausedBy := some account
      lastPauseReason := some reason } }

/-- `handleUnpaused`. -/
def handleUnpaused (s : Store) : Store :=
  { s with metrics := some { getOrCreateMetrics s with paused := false } }

/-- **The handlers of the manifest.** Other events have none. -/
def handle (m : Meta) : Event → Store → Store
  | .deposit commitment leafIndex amount timestamp =>
    handleDeposit round m commitment leafIndex amount.toNat timestamp
  | .transfer nullifiers outputs newRoot => handleTransfer m nullifiers outputs newRoot
  | .withdrawal nullifiers recipient amount newRoot =>
    handleWithdrawal round m nullifiers recipient amount.toNat newRoot
  | .paused account reason => handlePaused account reason
  | .unpaused _ => handleUnpaused
  | .depositCommitted .. => id
  | .depositRevealed .. => id
  | .commitReclaimed .. => id
  | .guardianUpdated .. => id

/-- **The store after some events.** -/
def index (log : List (Meta × Event)) : Store :=
  log.foldl (fun s e => handle round e.1 e.2 s) Store.empty

/-! ## What the store says about the pool -/

/-- The tree and the totals. -/
@[ext] structure Summary where
  nextLeafIndex : ℕ
  currentRoot : Option Bytes32
  deposited : ℕ
  withdrawn : ℕ

/-- **What a store says.** An entity that is not there reads as a new one. -/
def Store.summary (s : Store) : Summary where
  nextLeafIndex := (getOrCreateTreeState s).nextLeafIndex
  currentRoot := (getOrCreateTreeState s).currentRoot
  deposited := (getOrCreateMetrics s).totalDepositedValue
  withdrawn := (getOrCreateMetrics s).totalWithdrawnValue

/-- A deposit tells the place of its leaf, and nothing about the root. -/
def Summary.deposit (leafIndex amount : ℕ) (v : Summary) : Summary :=
  { v with
    nextLeafIndex := leafIndex + 1
    deposited := round (v.deposited + round amount) }

/-- Two outputs tell the root, and nothing about the place of their leaves. -/
def Summary.outputs (newRoot : Bytes32) (v : Summary) : Summary :=
  { v with
    nextLeafIndex := v.nextLeafIndex + 2
    currentRoot := some newRoot }

/-- **What an event changes.** -/
def Summary.step (v : Summary) : Event → Summary
  | .deposit _ leafIndex amount _ => v.deposit round leafIndex amount.toNat
  | .transfer _ _ newRoot => v.outputs newRoot
  | .withdrawal _ _ amount newRoot =>
    { v.outputs newRoot with withdrawn := round (v.withdrawn + round amount.toNat) }
  | _ => v

/-- What an empty store says. -/
def Summary.initial : Summary := ⟨0, none, 0, 0⟩

/-- **Each handler changes the summary as its event does.** -/
theorem summary_handle (m : Meta) (event : Event) (s : Store) :
    (handle round m event s).summary = s.summary.step round event := by
  cases event <;> rfl

/-- **The summary is one of the events.** -/
theorem summary_index (log : List (Meta × Event)) :
    (index round log).summary = (log.map Prod.snd).foldl (Summary.step round) Summary.initial := by
  have hfold : ∀ s : Store, (log.foldl (fun s e => handle round e.1 e.2 s) s).summary
      = (log.map Prod.snd).foldl (Summary.step round) s.summary := by
    induction log with
    | nil => exact fun _ => rfl
    | cons e log ih =>
      intro s
      rw [List.foldl_cons, ih, summary_handle, List.map_cons, List.foldl_cons]
  exact hfold Store.empty

/-! ## Totals -/

/-- What an event adds to the withdrawals. -/
def withdrawnValue : Event → ℕ
  | .withdrawal _ _ amount _ => amount.toNat
  | _ => 0

/-- What an event adds to the deposits. -/
def depositedValue : Event → ℕ
  | .deposit _ _ amount _ => amount.toNat
  | _ => 0

/-- **Decimals are exact up to their number of digits.** -/
def ExactDecimals : Prop := ∀ n, n < 10 ^ SIGNIFICANT_DIGITS → round n = n

variable {round}

/-- A total that is small enough is exact after one more event. -/
theorem ExactDecimals.round_add (h : ExactDecimals round) {total n : ℕ}
    (hsmall : total + n < 10 ^ SIGNIFICANT_DIGITS) : round (total + round n) = total + n := by
  rw [h n ((Nat.le_add_left n total).trans_lt hsmall), h _ hsmall]

/-- **Totals are exact** while they are small enough. -/
theorem ExactDecimals.totals (h : ExactDecimals round) (events : List Event)
    (hdeposited : (events.map depositedValue).sum < 10 ^ SIGNIFICANT_DIGITS)
    (hwithdrawn : (events.map withdrawnValue).sum < 10 ^ SIGNIFICANT_DIGITS) :
    (events.foldl (Summary.step round) Summary.initial).deposited
        = (events.map depositedValue).sum
      ∧ (events.foldl (Summary.step round) Summary.initial).withdrawn
        = (events.map withdrawnValue).sum := by
  induction events using List.reverseRecOn with
  | nil => exact ⟨rfl, rfl⟩
  | append_singleton events event ih =>
    rw [List.map_append, List.sum_append, List.map_singleton, List.sum_singleton]
      at hdeposited hwithdrawn
    obtain ⟨hd, hw⟩ := ih ((Nat.le_add_right _ _).trans_lt hdeposited)
      ((Nat.le_add_right _ _).trans_lt hwithdrawn)
    rw [List.foldl_append, List.map_append, List.map_append, List.sum_append, List.sum_append,
      ← hd, ← hw]
    rw [← hd] at hdeposited
    rw [← hw] at hwithdrawn
    cases event
    case deposit commitment leafIndex amount timestamp =>
      exact ⟨h.round_add hdeposited, rfl⟩
    case withdrawal nullifiers recipient amount newRoot =>
      exact ⟨rfl, h.round_add hwithdrawn⟩
    all_goals exact ⟨rfl, rfl⟩

end Subgraph
