import Mathlib.Data.List.Flatten
import SoulPrivacy.RelayDaemon
import SoulPrivacy.WatcherDelivery

/-!
# A watcher among the other tasks

The rounds of a polling watcher were taken as a whole before. Between two logs of a round
other tasks may run, and the watcher may have to wait for them. What it makes of a round does
not depend on this: whenever it waits for the next round, it is in a state of the watcher
that takes its rounds as a whole (`Watcher.Accounted.polls`).

So what it hands on are logs of its chain in their order, and each is confirmed. A watcher
with a subscription hands on each log that it could read (`Accounted`).
-/

namespace Relayer

variable {config : ChainWatchConfig} {chain : Chain}

/-! ## Logs that can be read -/

/-- A log is parsed alike at any time, but for the time. -/
theorem parse_eq_map (config : ChainWatchConfig) (now : ℕ) (log : Log) :
    parseEpochFinalizedLog config now log
      = (parseEpochFinalizedLog config 0 log).map
        (fun event => { event with timestamp := now }) := by
  unfold parseEpochFinalizedLog revertIf
  dsimp only
  split
  · rfl
  · split
    · rfl
    · split
      · rfl
      · split <;> rfl

/-- **A log can be read.** -/
def Log.Reads (config : ChainWatchConfig) (log : Log) : Bool :=
  (parseEpochFinalizedLog config 0 log).toOption.isSome

theorem Log.reads_of_ok {now : ℕ} {log : Log} {event : EpochEvent}
    (h : parseEpochFinalizedLog config now log = .ok event) : log.Reads config = true := by
  rw [parse_eq_map] at h
  unfold Log.Reads
  cases hparse : parseEpochFinalizedLog config 0 log with
  | error e =>
    rw [hparse] at h
    cases h
  | ok event => rfl

theorem Log.reads_of_error {now : ℕ} {log : Log} {e : ParseFailure}
    (h : parseEpochFinalizedLog config now log = .error e) : log.Reads config = false := by
  rw [parse_eq_map] at h
  unfold Log.Reads
  cases hparse : parseEpochFinalizedLog config 0 log with
  | error e => rfl
  | ok event =>
    rw [hparse] at h
    cases h

/-! ## What is handed on -/

/-- **A log was read and had its confirmations.** -/
def Delivery.Sound (config : ChainWatchConfig) (d : Delivery) : Prop :=
  (∃ now, parseEpochFinalizedLog config now d.log = .ok d.event)
    ∧ d.log.blockNumber.getD 0 + config.confirmationBlocks ≤ d.height

/-- Some logs are of the chain, from a block on, in its order. -/
def Chain.Lists (chain : Chain) (start : ℕ) (logs : List Log) : Prop :=
  ∃ last, logs.Sublist (chain.window start last)

/-- **A round that is half done**: so far it is that of a watcher which was not
interrupted. -/
def HalfPolled (config : ChainWatchConfig) (chain : Chain) (start last current : ℕ)
    (now : Log → ℕ) (pending : List Log) (handed : List Delivery) : Prop :=
  last < current ∧ ∃ tr sent handled, Polls config chain start tr ⟨last, sent⟩
    ∧ chain.window last current = handled ++ pending
    ∧ handled.foldlM (sendLog config ⟨some current, true, now, fun _ => true⟩ current) sent
      = .ok handed

/-- **What a watcher has handed on, where it is.** -/
def Follows (config : ChainWatchConfig) (chain : Chain) (start : Option ℕ) (noticed : List Log)
    (handed : List Delivery) : WatcherStage → Prop
  | .starting => start = none ∧ noticed = [] ∧ handed = []
  | .subscribed =>
    start = none ∧ handed.map Delivery.log = noticed.filter (Log.Reads config)
  | .confirming log event =>
    start = none ∧ ∃ before now, noticed = before ++ [log]
      ∧ parseEpochFinalizedLog config now log = .ok event
      ∧ handed.map Delivery.log = before.filter (Log.Reads config)
  | .polling last => ∃ b tr, start = some b ∧ Polls config chain b tr ⟨last, handed⟩
  | .scanning last current now pending =>
    ∃ b, start = some b ∧ HalfPolled config chain b last current now pending handed
  | .ended =>
    (∀ b, start = some b → chain.Lists b (handed.map Delivery.log))
      ∧ (start = none → (handed.map Delivery.log).Sublist noticed)

/-- **What holds of a watcher at any time.** -/
structure Watcher.Kept (config : ChainWatchConfig) (chain : Chain) (w : Watcher) : Prop where
  sound : ∀ d ∈ w.handed, d.Sound config
  follows : Follows config chain w.start w.noticed w.handed w.stage

/-! ## A round in pieces -/

/-- The blocks of two windows. -/
theorem Chain.window_append {start last current : ℕ} (hle : start ≤ last) (hlt : last < current) :
    chain.window start last ++ chain.window last current = chain.window start current := by
  rw [Chain.window, Chain.window, Chain.window, range'_blocks hle hlt, List.flatMap_append]

/-- What a polling watcher sent is of its chain. -/
theorem Polls.sublist {start : ℕ} {tr : List (WatchState × Round)} {s : WatchState}
    (h : Polls config chain start tr s) :
    (s.sent.map Delivery.log).Sublist (chain.window start s.lastBlock) := by
  rw [(sent_of_polls h).sent_eq]
  refine List.Sublist.flatMap_right _ (fun b _ => ?_)
  split
  · exact List.Sublist.refl _
  · exact List.nil_sublist _

/-- … also within a round. -/
theorem HalfPolled.lists {start last current : ℕ} {now : Log → ℕ} {pending : List Log}
    {handed : List Delivery}
    (h : HalfPolled config chain start last current now pending handed) :
    chain.Lists start (handed.map Delivery.log) := by
  obtain ⟨hlt, tr, sent, handled, hpolls, hwindow, hfold⟩ := h
  have hlogs : ∀ log ∈ handled, ∃ b, log.IsEpochFinalized b := by
    intro log hlog
    have hmem : log ∈ chain.window last current := hwindow ▸ List.mem_append_left _ hlog
    obtain ⟨b, -, hb⟩ := List.mem_flatMap.mp hmem
    exact ⟨b, chain.isEpochFinalized b log hb⟩
  obtain ⟨new, rfl, hmap, -⟩ := foldlM_sendLog handled hlogs hfold
  have hnew : (new.map Delivery.log).Sublist (chain.window last current) := by
    rw [hmap, hwindow]
    exact List.filter_sublist.trans (List.sublist_append_left _ _)
  refine ⟨current, ?_⟩
  rw [List.map_append, ← Chain.window_append (sent_of_polls hpolls).le hlt]
  exact hpolls.sublist.append hnew

/-- The round begins. -/
theorem HalfPolled.begin {start last current : ℕ} {tr : List (WatchState × Round)}
    {handed : List Delivery} (h : Polls config chain start tr ⟨last, handed⟩)
    (hlt : last < current) (now : Log → ℕ) :
    HalfPolled config chain start last current now (chain.window last current) handed :=
  ⟨hlt, tr, handed, [], h, rfl, rfl⟩

/-- **The next log of a round** is looked at as in a round that is not interrupted. -/
theorem HalfPolled.log {start last current : ℕ} {now : Log → ℕ} {log : Log} {pending : List Log}
    {handed handed' : List Delivery}
    (h : HalfPolled config chain start last current now (log :: pending) handed)
    (hsend : sendLog config ⟨some current, true, now, fun _ => true⟩ current handed log
      = .ok handed') :
    HalfPolled config chain start last current now pending handed' := by
  obtain ⟨hlt, tr, sent, handled, hpolls, hwindow, hfold⟩ := h
  refine ⟨hlt, tr, sent, handled ++ [log], hpolls, ?_, ?_⟩
  · rw [hwindow, List.append_assoc, List.singleton_append]
  · rw [List.foldlM_append, hfold]
    exact (Except.bind_eq_ok _ _ _).mpr
      ⟨handed, rfl, (Except.bind_eq_ok _ _ _).mpr ⟨handed', hsend, rfl⟩⟩

/-- The logs of a round are of blocks that the watcher knows. -/
theorem HalfPolled.block_le {start last current : ℕ} {now : Log → ℕ} {log : Log}
    {pending : List Log} {handed : List Delivery}
    (h : HalfPolled config chain start last current now (log :: pending) handed) :
    log.blockNumber.getD 0 ≤ current := by
  obtain ⟨hlt, -, -, handled, -, hwindow, -⟩ := h
  have hmem : log ∈ chain.window last current :=
    hwindow ▸ List.mem_append_right _ List.mem_cons_self
  obtain ⟨b, hb, hlog⟩ := List.mem_flatMap.mp hmem
  have hle := (List.mem_range'_1.mp hb).2
  rw [(chain.isEpochFinalized b log hlog).block, Option.getD_some]
  omega

/-- **The round ends**, and was a round. -/
theorem HalfPolled.polls {start last current : ℕ} {now : Log → ℕ} {handed : List Delivery}
    (h : HalfPolled config chain start last current now [] handed) :
    ∃ tr, Polls config chain start tr ⟨current, handed⟩ := by
  obtain ⟨hlt, tr, sent, handled, hpolls, hwindow, hfold⟩ := h
  rw [List.append_nil] at hwindow
  refine ⟨_, hpolls.snoc (c := ⟨some current, true, now, fun _ => true⟩) trivial ?_⟩
  show (if current ≤ last then Except.ok ⟨last, sent⟩ else do
    let sent ← sendWindow config chain ⟨some current, true, now, fun _ => true⟩ last current sent
    .ok ⟨current, sent⟩) = Except.ok (⟨current, handed⟩ : WatchState)
  rw [if_neg (Nat.not_le.mpr hlt)]
  unfold sendWindow
  rw [if_pos rfl, hwindow, hfold]
  rfl

/-- A round without an answer about the logs. -/
theorem Polls.skip {start last current : ℕ} {tr : List (WatchState × Round)}
    {handed : List Delivery} (h : Polls config chain start tr ⟨last, handed⟩)
    (hlt : last < current) : ∃ tr, Polls config chain start tr ⟨current, handed⟩ := by
  refine ⟨_, h.snoc (c := ⟨some current, false, fun _ => 0, fun _ => true⟩) trivial ?_⟩
  show (if current ≤ last then Except.ok ⟨last, handed⟩ else do
    let sent ← sendWindow config chain ⟨some current, false, fun _ => 0, fun _ => true⟩ last
      current handed
    .ok ⟨current, sent⟩) = Except.ok (⟨current, handed⟩ : WatchState)
  rw [if_neg (Nat.not_le.mpr hlt)]
  rfl

/-! ## A watcher's steps -/

/-- Whatever a watcher has followed, it may end with it. -/
theorem Follows.ended {start : Option ℕ} {noticed : List Log} {handed : List Delivery}
    {stage : WatcherStage} (h : Follows config chain start noticed handed stage) :
    Follows config chain start noticed handed .ended := by
  cases stage with
  | starting =>
    obtain ⟨rfl, rfl, rfl⟩ := h
    exact ⟨fun b hb => (nomatch hb), fun _ => List.Sublist.refl _⟩
  | subscribed =>
    obtain ⟨rfl, hmap⟩ := h
    exact ⟨fun b hb => (nomatch hb), fun _ => hmap ▸ List.filter_sublist⟩
  | confirming log event =>
    obtain ⟨rfl, before, now, rfl, -, hmap⟩ := h
    refine ⟨fun b hb => (nomatch hb), fun _ => ?_⟩
    rw [hmap]
    exact List.filter_sublist.trans (List.sublist_append_left _ _)
  | polling last =>
    obtain ⟨b, tr, rfl, hpolls⟩ := h
    refine ⟨fun c hc => ?_, fun hnone => (nomatch hnone)⟩
    obtain rfl := Option.some.inj hc
    exact ⟨last, hpolls.sublist⟩
  | scanning last current now pending =>
    obtain ⟨b, rfl, hhalf⟩ := h
    refine ⟨fun c hc => ?_, fun hnone => (nomatch hnone)⟩
    obtain rfl := Option.some.inj hc
    exact hhalf.lists
  | ended => exact h

/-- Nothing waits. -/
theorem Watcher.kept_waiting {w : Watcher} (hout : w.outbox = none) :
    w.Kept config chain
      ↔ (∀ d ∈ w.sent, d.Sound config) ∧ Follows config chain w.start w.noticed w.sent w.stage := by
  have hhanded : w.handed = w.sent := by
    rw [handed, hout]
    exact List.append_nil _
  constructor
  · rintro ⟨hsound, hfollows⟩
    exact ⟨hhanded ▸ hsound, hhanded ▸ hfollows⟩
  · rintro ⟨hsound, hfollows⟩
    exact ⟨hhanded.symm ▸ hsound, hhanded.symm ▸ hfollows⟩

/-- One more event waits. -/
theorem Watcher.kept_sending {w : Watcher} {d : Delivery} (hout : w.outbox = some d)
    (hsent : ∀ x ∈ w.sent, x.Sound config) (hd : d.Sound config)
    (hfollows : Follows config chain w.start w.noticed (w.sent ++ [d]) w.stage) :
    w.Kept config chain := by
  have hhanded : w.handed = w.sent ++ [d] := by
    rw [handed, hout]
    rfl
  refine ⟨?_, hhanded.symm ▸ hfollows⟩
  rw [hhanded]
  exact List.forall_mem_append.mpr ⟨hsent, List.forall_mem_singleton.mpr hd⟩

/-- **A log of the subscription.** -/
theorem Watcher.kept_notice {noticed : List Log} {sent : List Delivery}
    (hsound : ∀ d ∈ sent, d.Sound config)
    (hmap : sent.map Delivery.log = noticed.filter (Log.Reads config)) (log : Log) (now : ℕ) :
    (Watcher.notice config ⟨.subscribed, none, none, noticed, sent⟩ log now).Kept config chain := by
  have hfiltered : (noticed ++ [log]).filter (Log.Reads config)
      = sent.map Delivery.log ++ [log].filter (Log.Reads config) := by
    rw [List.filter_append, hmap]
  unfold Watcher.notice
  cases hparse : parseEpochFinalizedLog config now log with
  | error e =>
    have hunread : sent.map Delivery.log = (noticed ++ [log]).filter (Log.Reads config) := by
      rw [hfiltered, List.filter_singleton, Log.reads_of_error hparse]
      exact (List.append_nil _).symm
    cases e with
    | panic =>
      show Watcher.Kept config chain ⟨.ended, none, none, noticed ++ [log], sent⟩
      refine (kept_waiting rfl).mpr ⟨hsound, fun b hb => (nomatch hb), fun _ => ?_⟩
      rw [hunread]
      exact List.filter_sublist
    | err text => exact (kept_waiting rfl).mpr ⟨hsound, rfl, hunread⟩
  | ok event =>
    have hread := Log.reads_of_ok hparse
    dsimp only
    split
    · exact (kept_waiting rfl).mpr ⟨hsound, rfl, noticed, now, rfl, hparse, hmap⟩
    · rename_i hpos
      refine kept_sending rfl hsound ⟨⟨now, hparse⟩, ?_⟩ ⟨rfl, ?_⟩
      · rw [Nat.eq_zero_of_not_pos hpos]
        exact le_rfl
      · rw [hfiltered, List.filter_singleton, hread, List.map_append]
        rfl

/-- **A log of a round.** -/
theorem Watcher.kept_scan {b last current : ℕ} {now : Log → ℕ} {log : Log} {pending : List Log}
    {noticed : List Log} {sent : List Delivery} (hsound : ∀ d ∈ sent, d.Sound config)
    (hhalf : HalfPolled config chain b last current now (log :: pending) sent) :
    (Watcher.scan config ⟨.scanning last current now (log :: pending), none, some b, noticed, sent⟩
      last current now log pending).Kept config chain := by
  unfold Watcher.scan
  cases hparse : parseEpochFinalizedLog config (now log) log with
  | error e =>
    cases e with
    | panic =>
      refine (kept_waiting rfl).mpr ⟨hsound, fun c hc => ?_, fun hnone => (nomatch hnone)⟩
      obtain rfl := Option.some.inj hc
      exact hhalf.lists
    | err text =>
      refine (kept_waiting rfl).mpr ⟨hsound, b, rfl, hhalf.log ?_⟩
      rw [sendLog, hparse]
  | ok event =>
    dsimp only
    split
    · rename_i hconf
      refine kept_sending rfl hsound ⟨⟨now log, hparse⟩, ?_⟩ ⟨b, rfl, hhalf.log ?_⟩
      · exact Nat.add_le_of_le_sub' hhalf.block_le hconf
      · rw [sendLog, hparse]
        dsimp only
        rw [if_pos hconf, if_pos rfl]
    · rename_i hconf
      refine (kept_waiting rfl).mpr ⟨hsound, b, rfl, hhalf.log ?_⟩
      rw [sendLog, hparse]
      dsimp only
      rw [if_neg hconf]

/-- **Whatever a watcher learns, it keeps to its chain.** -/
theorem Watcher.kept_next {w w' : Watcher} {input : WatcherInput}
    (h : w.next config chain input = some w') (hw : w.Kept config chain) :
    w'.Kept config chain := by
  obtain ⟨stage, outbox, start, noticed, sent⟩ := w
  cases outbox with
  | some d => cases h
  | none =>
    obtain ⟨hsound, hfollows⟩ := (kept_waiting rfl).mp hw
    have hended := (kept_waiting (w := ⟨.ended, none, start, noticed, sent⟩) rfl).mpr
      ⟨hsound, hfollows.ended⟩
    cases stage with
    | starting =>
      obtain ⟨rfl, rfl, rfl⟩ := hfollows
      cases input with
      | subscribe =>
        cases h
        exact (kept_waiting rfl).mpr ⟨hsound, rfl, rfl⟩
      | fallBack b =>
        cases h
        exact (kept_waiting rfl).mpr ⟨hsound, b, [], rfl, .nil⟩
      | stop =>
        cases h
        exact hended
      | _ => cases h
    | subscribed =>
      obtain ⟨rfl, hmap⟩ := hfollows
      cases input with
      | notice log now =>
        cases h
        exact kept_notice hsound hmap log now
      | stop =>
        cases h
        exact hended
      | _ => cases h
    | confirming log event =>
      cases input with
      | answer height =>
        dsimp only [next] at h
        split at h
        · rename_i hconf
          cases h
          obtain ⟨rfl, before, now, rfl, hparse, hmap⟩ := hfollows
          refine kept_sending rfl hsound ⟨⟨now, hparse⟩, hconf⟩ ⟨rfl, ?_⟩
          rw [List.map_append, hmap, List.filter_append, List.filter_singleton,
            Log.reads_of_ok hparse]
          rfl
        · cases h
          exact hw
      | _ => cases h
    | polling last =>
      cases input with
      | poll blockNumber logsAnswered now =>
        obtain ⟨b, tr, rfl, hpolls⟩ := hfollows
        dsimp only [next] at h
        split at h
        · cases h
          exact hw
        · split at h
          · cases h
            exact hw
          · rename_i current hlt
            split at h
            · cases h
              exact (kept_waiting rfl).mpr
                ⟨hsound, b, rfl, .begin hpolls (Nat.lt_of_not_le hlt) now⟩
            · cases h
              obtain ⟨tr', hpolls'⟩ := hpolls.skip (Nat.lt_of_not_le hlt)
              exact (kept_waiting rfl).mpr ⟨hsound, b, tr', rfl, hpolls'⟩
      | stop =>
        cases h
        exact hended
      | _ => cases h
    | scanning last current now pending =>
      obtain ⟨b, rfl, hhalf⟩ := hfollows
      cases pending with
      | nil =>
        cases input with
        | scan =>
          cases h
          obtain ⟨tr, hpolls⟩ := hhalf.polls
          exact (kept_waiting rfl).mpr ⟨hsound, b, tr, rfl, hpolls⟩
        | _ => cases h
      | cons log pending =>
        cases input with
        | scan =>
          cases h
          exact kept_scan hsound hhalf
        | _ => cases h
    | ended => cases input <;> cases h

@[simp] theorem Watcher.sent_notice (w : Watcher) (log : Log) (now : ℕ) :
    (w.notice config log now).sent = w.sent := by
  unfold Watcher.notice
  dsimp only
  split
  · rfl
  · rfl
  · split <;> rfl

@[simp] theorem Watcher.sent_scan (w : Watcher) (last current : ℕ) (now : Log → ℕ) (log : Log)
    (pending : List Log) : (w.scan config last current now log pending).sent = w.sent := by
  unfold Watcher.scan
  split
  · rfl
  · rfl
  · dsimp only
    split <;> rfl

/-- To learn something is not to send. -/
theorem Watcher.sent_next {w w' : Watcher} {input : WatcherInput}
    (h : w.next config chain input = some w') : w'.sent = w.sent := by
  unfold Watcher.next at h
  split at h
  case h_4 => exact Option.some.inj h ▸ sent_notice w _ _
  case h_6 => split at h <;> exact Option.some.inj h ▸ rfl
  case h_7 =>
    split at h
    · exact Option.some.inj h ▸ rfl
    · split at h
      · exact Option.some.inj h ▸ rfl
      · split at h <;> exact Option.some.inj h ▸ rfl
  case h_10 => exact Option.some.inj h ▸ sent_scan w _ _ _ _ _
  case h_11 => cases h
  all_goals exact Option.some.inj h ▸ rfl

/-- An event that was sent. -/
theorem Watcher.kept_sent {w : Watcher} {d : Delivery} (hout : w.outbox = some d)
    (h : w.Kept config chain) :
    (w.deliver d).Kept config chain := by
  have hhanded : w.handed = w.sent ++ [d] := by
    rw [handed, hout]
    rfl
  refine (kept_waiting rfl).mpr ⟨?_, ?_⟩
  · show ∀ x ∈ w.sent ++ [d], x.Sound config
    exact hhanded ▸ h.sound
  · show Follows config chain w.start w.noticed (w.sent ++ [d]) w.stage
    exact hhanded ▸ h.follows

/-- A watcher that ends, with or without an event that was not received. -/
theorem Watcher.kept_ended {w : Watcher} (h : w.Kept config chain) :
    w.finish.Kept config chain :=
  ⟨h.sound, h.follows.ended⟩

theorem Watcher.kept_init : Watcher.init.Kept config chain :=
  (kept_waiting rfl).mpr ⟨fun _ hd => (nomatch hd), rfl, rfl, rfl⟩

/-! ## The account -/

/-- No log is twice in a window. -/
theorem Chain.nodup_window (chain : Chain) (start last : ℕ) :
    (chain.window start last).Nodup := by
  refine List.nodup_flatMap.mpr ⟨fun b _ => chain.nodup b, ?_⟩
  refine (List.nodup_range').imp (fun {b c} hne => ?_)
  intro log hb hc
  exact hne (Chain.block_unique hb hc)

/-- **What a watcher hands on**, to be sent or already sent. -/
structure Watcher.Accounted (config : ChainWatchConfig) (chain : Chain) (w : Watcher) : Prop where
  /-- Each log was read, and had its confirmations by then. -/
  sound : ∀ d ∈ w.handed, d.Sound config
  /-- A watcher that polls hands on logs of the chain, in its order, … -/
  polled : ∀ b, w.start = some b → chain.Lists b (w.handed.map Delivery.log)
  /-- … and none of them twice. -/
  once : ∀ b, w.start = some b → (w.handed.map Delivery.log).Nodup
  /-- One that polls was at each rest a watcher whose rounds are not interrupted. -/
  polls : ∀ last, w.stage = .polling last →
    ∃ b tr, w.start = some b ∧ Polls config chain b tr ⟨last, w.handed⟩
  /-- One that has a subscription hands on what that gave it, in its order, … -/
  noticed : w.start = none → (w.handed.map Delivery.log).Sublist w.noticed
  /-- … and leaves out only what it cannot read. -/
  complete : w.stage = .subscribed →
    w.handed.map Delivery.log = w.noticed.filter (Log.Reads config)

theorem Watcher.Kept.accounted {w : Watcher} (h : w.Kept config chain) :
    w.Accounted config chain := by
  obtain ⟨hpolled, hnoticed⟩ := h.follows.ended
  refine ⟨h.sound, hpolled, fun b hb => ?_, fun last hlast => ?_, hnoticed, fun hsub => ?_⟩
  · obtain ⟨last, hlist⟩ := hpolled b hb
    exact hlist.nodup (chain.nodup_window b last)
  · have hfollows := h.follows
    rwa [hlast] at hfollows
  · have hfollows := h.follows
    rw [hsub] at hfollows
    exact hfollows.2

end Relayer
