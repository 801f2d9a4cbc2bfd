import SoulPrivacy.BigEndian
import SoulPrivacy.HexWords
import SoulPrivacy.Relayer
import SoulPrivacy.Run

/-!
# The watcher of a chain (`relayer/src/watcher.rs`)

A watcher tells the aggregator of each `EpochFinalized` log of its chain. It
follows a subscription, and where none could be made it polls: a round asks
for the block number, then for the logs of the blocks since the last round,
and hands on those of them that have enough confirmations by then.

A round is what the provider answers in it. The chain itself does not change,
while the provider may answer with any block number, or with none. The task
ends when nobody receives its events any more, and it panics on a number that
does not fit, so a run is a list of rounds that the task came back from.

What went through the channel is kept with the log it was made of and the
block number that was known then (`Delivery`).
-/

namespace Relayer

/-- `Log`, as far as the watcher reads it. The logs of a block differ in their
`logIndex`. -/
structure Log where
  topics : List Bytes32
  data : Bytes
  blockNumber : Option ℕ
  logIndex : ℕ
  transactionHash : Option Bytes32
  deriving DecidableEq

/-- How a log is not parsed: with an error, or with the panic of a cast. -/
inductive ParseFailure where
  | err (text : String)
  | panic

/-- The bytes from one place to another, as a number (`U256::from`). -/
def sliceNat (data : Bytes) (first last : ℕ) : ℕ := beNat ((data.take last).drop first)

/-- `parse_epoch_finalized_log`, at the time `now`. -/
def parseEpochFinalizedLog (config : ChainWatchConfig) (now : ℕ) (log : Log) :
    Except ParseFailure EpochEvent := do
  revertIf (log.topics.length < 2) (.err "Missing topics in EpochFinalized log")
  let epochId := (log.topics.getD 1 0).toNat
  revertIf (2 ^ 64 ≤ epochId) .panic
  revertIf (log.data.length < 64) (.err "Insufficient data in EpochFinalized log")
  let nullifierCount := sliceNat log.data 32 64
  revertIf (2 ^ 32 ≤ nullifierCount) .panic
  .ok {
    chainId := config.chainId
    chainName := config.name
    epochId := BitVec.ofNat 64 epochId
    nullifierRoot := BitVec.ofNat 256 (sliceNat log.data 0 32)
    nullifierCount := BitVec.ofNat 32 nullifierCount
    blockNumber := log.blockNumber.getD 0
    txHash := (log.transactionHash.map (fun h => "0x" ++ h.toHex)).getD ""
    timestamp := now }

/-- **A log that was handed on**, with the block number known then. -/
structure Delivery where
  log : Log
  event : EpochEvent
  height : ℕ

/-- How the task ends. -/
inductive TaskEnd where
  | receiverDropped
  | panicked

/-! ## The subscription -/

/-- `wait_for_confirmations`: the first answer that is high enough, if there
is one. -/
def waitForConfirmations (targetBlock confirmations : ℕ) (answers : List (Option ℕ)) :
    Option ℕ :=
  (answers.filterMap id).find? (fun current => targetBlock + confirmations ≤ current)

/-- A log of the subscription, with what happens while it is handled: the
answers to `get_block_number`, the time, and whether the event is received. -/
structure Notice where
  log : Log
  answers : List (Option ℕ)
  now : ℕ
  received : Bool

/-- The confirmations of a log, if it has to wait for them. -/
def Notice.confirmedAt (config : ChainWatchConfig) (notice : Notice) : Option ℕ :=
  if 0 < config.confirmationBlocks then
    waitForConfirmations (notice.log.blockNumber.getD 0) config.confirmationBlocks notice.answers
  else some (notice.log.blockNumber.getD 0)

/-- `watch_via_ws`, from the subscription on. -/
def watchViaWs (config : ChainWatchConfig) : List Notice → List Delivery
  | [] => []
  | notice :: notices =>
    match parseEpochFinalizedLog config notice.now notice.log with
    | .error .panic => []
    | .error (.err _) => watchViaWs config notices
    | .ok event =>
      match notice.confirmedAt config with
      -- the wait goes on
      | none => []
      | some height =>
        if notice.received then ⟨notice.log, event, height⟩ :: watchViaWs config notices
        else []

/-! ## Polling -/

/-- The log that the contract's `EpochFinalized` leaves in a block. -/
structure Log.IsEpochFinalized (log : Log) (block : ℕ) : Prop where
  topics : log.topics.length = 2
  data : log.data.length = 64
  block : log.blockNumber = some block

/-- **A chain**, as the logs that the filter finds in its blocks. -/
structure Chain where
  logs : ℕ → List Log
  isEpochFinalized : ∀ b, ∀ log ∈ logs b, log.IsEpochFinalized b
  nodup : ∀ b, (logs b).Nodup

/-- The logs of the blocks after `last`, up to `current` (`get_logs`). -/
def Chain.window (chain : Chain) (last current : ℕ) : List Log :=
  (List.range' (last + 1) (current - last)).flatMap chain.logs

/-- **A round**: the answer to `get_block_number`, whether `get_logs` is
answered, and for each log the time and whether its event is received. -/
structure Round where
  blockNumber : Option ℕ
  logsAnswered : Bool
  now : Log → ℕ
  received : Log → Bool

/-- The loop's state, with what it sent so far. -/
structure WatchState where
  lastBlock : ℕ
  sent : List Delivery

/-- The loop's body for a log of the window. -/
def sendLog (config : ChainWatchConfig) (round : Round) (current : ℕ) (sent : List Delivery)
    (log : Log) : Except TaskEnd (List Delivery) :=
  match parseEpochFinalizedLog config (round.now log) log with
  | .error .panic => .error .panicked
  | .error (.err _) => .ok sent
  | .ok event =>
    if config.confirmationBlocks ≤ current - log.blockNumber.getD 0 then
      if round.received log then .ok (sent ++ [⟨log, event, current⟩])
      else .error .receiverDropped
    else .ok sent

/-- The logs of the window, if `get_logs` is answered. -/
def sendWindow (config : ChainWatchConfig) (chain : Chain) (round : Round) (last current : ℕ)
    (sent : List Delivery) : Except TaskEnd (List Delivery) :=
  if round.logsAnswered then
    (chain.window last current).foldlM (sendLog config round current) sent
  else .ok sent

/-- **A round of `watch_via_polling`.** -/
def poll (config : ChainWatchConfig) (chain : Chain) (round : Round) (s : WatchState) :
    Except TaskEnd WatchState :=
  match round.blockNumber with
  | none => .ok s
  | some current =>
    if current ≤ s.lastBlock then .ok s
    else do
      let sent ← sendWindow config chain round s.lastBlock current s.sent
      .ok ⟨current, sent⟩

/-- **The runs of `watch_via_polling`**, which starts behind the block `start`. -/
abbrev Polls (config : ChainWatchConfig) (chain : Chain) (start : ℕ) :
    List (WatchState × Round) → WatchState → Prop :=
  Run (poll config chain) (fun _ _ => True) ⟨start, []⟩

end Relayer
