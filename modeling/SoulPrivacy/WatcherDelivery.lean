import SoulPrivacy.EpochWatcher
import Mathlib.Data.List.Nodup

/-!
# What a watcher delivers

A polling watcher looks at each block once, in the first round that reaches
it. What it sent is therefore a function of the answers it got
(`sent_eq`): the logs of the blocks whose first round was answered, and found
them confirmed.

So no log is sent twice, and none too early. But a log that was seen too
early, or in a window that was not answered, is never looked at again, while
the subscription waits for the confirmations. Every log is delivered in time
exactly when this happens to none (`deliversDue_iff`).
-/

namespace Relayer

/-- The round knows a block of this height. -/
def Round.reaches (round : Round) (b : ℕ) : Bool :=
  round.blockNumber.any (fun current => b ≤ current)

/-- Its window was answered, and the block has its confirmations. -/
def Round.confirms (config : ChainWatchConfig) (b : ℕ) (round : Round) : Bool :=
  round.logsAnswered && round.reaches (b + config.confirmationBlocks)

/-- **The first round that reaches a block** finds it confirmed. -/
def SeenConfirmed (config : ChainWatchConfig) (rounds : List Round) (b : ℕ) : Bool :=
  (rounds.find? (fun round => round.reaches b)).any (Round.confirms config b)

/-- **Every log of a block after `start` that has its confirmations in some
answered round was sent, once**, and no log was sent before it had them. -/
def DeliversDue (config : ChainWatchConfig) (chain : Chain) (start : ℕ) (rounds : List Round)
    (s : WatchState) : Prop :=
  (∀ b, start < b → ∀ log ∈ chain.logs b, (∃ round ∈ rounds, round.confirms config b) →
      (s.sent.map Delivery.log).count log = 1)
    ∧ ∀ d ∈ s.sent, ∀ b, d.log ∈ chain.logs b → b + config.confirmationBlocks ≤ d.height

variable {config : ChainWatchConfig} {chain : Chain} {start : ℕ}

theorem Round.reaches_iff {round : Round} {b : ℕ} :
    round.reaches b ↔ ∃ current, round.blockNumber = some current ∧ b ≤ current := by
  unfold Round.reaches
  rw [Option.any_eq_true]
  simp only [decide_eq_true_eq]

/-! ## One round -/

/-- A log of the contract is parsed, or stops the task. -/
theorem parse_of_isEpochFinalized (config : ChainWatchConfig) (now : ℕ) {log : Log} {b : ℕ}
    (hlog : log.IsEpochFinalized b) :
    (∃ event, parseEpochFinalizedLog config now log = .ok event)
      ∨ parseEpochFinalizedLog config now log = .error .panic := by
  have htopics : ¬ log.topics.length < 2 := by rw [hlog.topics]; decide
  have hdata : ¬ log.data.length < 64 := by rw [hlog.data]; decide
  unfold parseEpochFinalizedLog revertIf
  rw [if_neg htopics, if_neg hdata]
  dsimp only
  by_cases hepoch : 2 ^ 64 ≤ (log.topics.getD 1 0).toNat
  · right
    rw [if_pos hepoch]
    rfl
  · by_cases hcount : 2 ^ 32 ≤ sliceNat log.data 32 64
    · right
      rw [if_neg hepoch, if_pos hcount]
      rfl
    · left
      rw [if_neg hepoch, if_neg hcount]
      exact ⟨_, rfl⟩

/-- **A log of the window** is sent if it is confirmed. -/
theorem sendLog_eq_ok {round : Round} {current b : ℕ} {sent sent' : List Delivery} {log : Log}
    (hlog : log.IsEpochFinalized b) (h : sendLog config round current sent log = .ok sent') :
    ∃ new, sent' = sent ++ new
      ∧ new.map Delivery.log = (if config.confirmationBlocks ≤ current - b then [log] else [])
      ∧ ∀ d ∈ new, d.height = current := by
  unfold sendLog at h
  rw [hlog.block, Option.getD_some] at h
  obtain ⟨event, hparse⟩ | hpanic := parse_of_isEpochFinalized config (round.now log) hlog
  · rw [hparse] at h
    by_cases hconf : config.confirmationBlocks ≤ current - b
    · by_cases hreceived : round.received log = true
      · simp only [if_pos hconf, if_pos hreceived, Except.ok.injEq] at h
        refine ⟨[⟨log, event, current⟩], h.symm, by rw [if_pos hconf]; rfl, ?_⟩
        intro d hd
        rw [List.mem_singleton.mp hd]
      · simp only [if_pos hconf, if_neg hreceived] at h
        cases h
    · simp only [if_neg hconf, Except.ok.injEq] at h
      refine ⟨[], by rw [← h, List.append_nil], by rw [if_neg hconf]; rfl, ?_⟩
      intro d hd
      cases hd
  · rw [hpanic] at h
    cases h

/-- The logs of the window. -/
theorem foldlM_sendLog {round : Round} {current : ℕ} (logs : List Log)
    {sent sent' : List Delivery} (hlogs : ∀ log ∈ logs, ∃ b, log.IsEpochFinalized b)
    (h : logs.foldlM (sendLog config round current) sent = .ok sent') :
    ∃ new, sent' = sent ++ new
      ∧ new.map Delivery.log = logs.filter
          (fun log => config.confirmationBlocks ≤ current - log.blockNumber.getD 0)
      ∧ ∀ d ∈ new, d.height = current := by
  induction logs generalizing sent with
  | nil =>
    cases h
    exact ⟨[], (List.append_nil _).symm, rfl, fun d hd => by cases hd⟩
  | cons log logs ih =>
    rw [List.foldlM_cons] at h
    obtain ⟨mid, hmid, hrest⟩ := (Except.bind_eq_ok _ _ _).mp h
    obtain ⟨b, hlog⟩ := hlogs log List.mem_cons_self
    obtain ⟨first, rfl, hfirst, hheight⟩ := sendLog_eq_ok hlog hmid
    obtain ⟨rest, rfl, hmap, hheights⟩ :=
      ih (fun l hl => hlogs l (List.mem_cons_of_mem _ hl)) hrest
    refine ⟨first ++ rest, List.append_assoc _ _ _, ?_, ?_⟩
    · rw [List.map_append, hfirst, hmap, List.filter_cons, hlog.block, Option.getD_some]
      by_cases hconf : config.confirmationBlocks ≤ current - b
      · simp only [hconf, if_true, decide_true, List.singleton_append]
      · simp only [hconf, if_false, decide_false, List.nil_append, Bool.false_eq_true]
    · intro d hd
      rcases List.mem_append.mp hd with hd | hd
      · exact hheight d hd
      · exact hheights d hd

/-- The blocks of the window that a block number confirms. -/
theorem filter_window {last current : ℕ} (hlt : last < current) :
    (chain.window last current).filter
        (fun log => config.confirmationBlocks ≤ current - log.blockNumber.getD 0)
      = (List.range' (last + 1) (current - last)).flatMap
        (fun b => if b + config.confirmationBlocks ≤ current then chain.logs b else []) := by
  unfold Chain.window
  rw [List.filter_flatMap]
  refine List.flatMap_congr (fun b hb => ?_)
  have hle : b ≤ current := by
    have hmem := List.mem_range'_1.mp hb
    omega
  have hnumber : ∀ log ∈ chain.logs b, log.blockNumber.getD 0 = b := by
    intro log hlog
    rw [(chain.isEpochFinalized b log hlog).block, Option.getD_some]
  split
  · rename_i hconf
    refine List.filter_eq_self.mpr (fun log hlog => ?_)
    rw [hnumber log hlog, decide_eq_true_eq]
    omega
  · rename_i hconf
    refine List.filter_eq_nil_iff.mpr (fun log hlog => ?_)
    rw [hnumber log hlog, decide_eq_true_eq]
    omega

/-- **What a round does**: nothing, or it looks at the blocks that are new to it. -/
theorem poll_eq_ok {round : Round} {s s' : WatchState} (h : poll config chain round s = .ok s') :
    (s' = s ∧ ∀ b, s.lastBlock < b → round.reaches b = false)
      ∨ ∃ current new, round.blockNumber = some current ∧ s.lastBlock < current
        ∧ s' = ⟨current, s.sent ++ new⟩ ∧ (∀ d ∈ new, d.height = current)
        ∧ new.map Delivery.log = (List.range' (s.lastBlock + 1) (current - s.lastBlock)).flatMap
          (fun b => if round.confirms config b then chain.logs b else []) := by
  unfold poll at h
  cases hnumber : round.blockNumber with
  | none =>
    rw [hnumber] at h
    cases h
    refine Or.inl ⟨rfl, fun b _ => ?_⟩
    rw [Round.reaches, hnumber]
    rfl
  | some current =>
    rw [hnumber] at h
    dsimp only at h
    have hreaches : ∀ b, round.reaches b = decide (b ≤ current) := by
      intro b
      rw [Round.reaches, hnumber]
      rfl
    by_cases hle : current ≤ s.lastBlock
    · rw [if_pos hle] at h
      cases h
      refine Or.inl ⟨rfl, fun b hb => ?_⟩
      rw [hreaches]
      exact decide_eq_false (by omega)
    · rw [if_neg hle] at h
      obtain ⟨sent, hsent, hend⟩ := (Except.bind_eq_ok _ _ _).mp h
      cases hend
      have hlt : s.lastBlock < current := Nat.lt_of_not_le hle
      refine Or.inr ?_
      unfold sendWindow at hsent
      by_cases hanswered : round.logsAnswered = true
      · rw [if_pos hanswered] at hsent
        obtain ⟨new, rfl, hmap, hheight⟩ := foldlM_sendLog _ (fun log hlog => by
          obtain ⟨b, -, hb⟩ := List.mem_flatMap.mp hlog
          exact ⟨b, chain.isEpochFinalized b log hb⟩) hsent
        refine ⟨current, new, rfl, hlt, rfl, hheight, ?_⟩
        rw [hmap, filter_window hlt]
        simp only [Round.confirms, hanswered, hreaches, Bool.true_and, decide_eq_true_eq]
      · rw [if_neg hanswered] at hsent
        cases hsent
        refine ⟨current, [], rfl, hlt, by rw [List.append_nil], (fun d hd => by cases hd), ?_⟩
        rw [Bool.not_eq_true] at hanswered
        simp only [Round.confirms, hanswered, Bool.false_and, Bool.false_eq_true, if_false,
          List.map_nil]
        exact (List.flatMap_eq_nil_iff.mpr (fun _ _ => rfl)).symm

/-! ## Whole runs -/

/-- **What a run has looked at and sent.** -/
structure Sent (config : ChainWatchConfig) (chain : Chain) (start : ℕ) (rounds : List Round)
    (s : WatchState) : Prop where
  le : start ≤ s.lastBlock
  /-- The blocks up to `lastBlock` are those that some round reached. -/
  reached : ∀ b, start < b → (b ≤ s.lastBlock ↔ ∃ round ∈ rounds, round.reaches b)
  sent_eq : s.sent.map Delivery.log = (List.range' (start + 1) (s.lastBlock - start)).flatMap
    (fun b => if SeenConfirmed config rounds b then chain.logs b else [])
  height : ∀ d ∈ s.sent, ∀ b, d.log ∈ chain.logs b →
    b + config.confirmationBlocks ≤ d.height

/-- The first round that reaches a block, one round later. -/
theorem seenConfirmed_append {rounds : List Round} {round : Round} {b : ℕ} :
    SeenConfirmed config (rounds ++ [round]) b
      = if ∃ r ∈ rounds, r.reaches b then SeenConfirmed config rounds b
        else round.reaches b && round.confirms config b := by
  unfold SeenConfirmed
  rw [List.find?_append]
  split
  · rename_i hreached
    obtain ⟨r, hr⟩ := Option.isSome_iff_exists.mp (List.find?_isSome.mpr hreached)
    rw [hr]
    rfl
  · rename_i hnone
    have hnone' : rounds.find? (fun r => r.reaches b) = none :=
      List.find?_eq_none.mpr (fun r hr hreaches => hnone ⟨r, hr, hreaches⟩)
    rw [hnone', Option.none_or, List.find?_singleton]
    cases round.reaches b
    · rfl
    · rfl

/-- A block belongs to the logs that name it. -/
theorem Chain.block_unique {log : Log} {b c : ℕ} (hb : log ∈ chain.logs b)
    (hc : log ∈ chain.logs c) : b = c := by
  have heq := (chain.isEpochFinalized b log hb).block.symm.trans
    (chain.isEpochFinalized c log hc).block
  exact Option.some.inj heq

/-- Some round of a run that is one longer reaches a block. -/
theorem exists_reaches_append {rounds : List Round} {round : Round} {b : ℕ} :
    (∃ r ∈ rounds ++ [round], r.reaches b) ↔ (∃ r ∈ rounds, r.reaches b) ∨ round.reaches b := by
  simp only [List.mem_append, List.mem_singleton, or_and_right, exists_or, exists_eq_left]

/-- A block that was looked at keeps its first round. -/
theorem Sent.seenConfirmed_old {rounds : List Round} {s : WatchState}
    (hs : Sent config chain start rounds s) (round : Round) {b : ℕ} (hb : start < b)
    (hle : b ≤ s.lastBlock) :
    SeenConfirmed config (rounds ++ [round]) b = SeenConfirmed config rounds b := by
  rw [seenConfirmed_append, if_pos ((hs.reached b hb).mp hle)]

/-- For the blocks after those this round is the first. -/
theorem Sent.seenConfirmed_new {rounds : List Round} {s : WatchState}
    (hs : Sent config chain start rounds s) (round : Round) {b : ℕ} (hlt : s.lastBlock < b) :
    SeenConfirmed config (rounds ++ [round]) b
      = (round.reaches b && round.confirms config b) := by
  have hb : start < b := hs.le.trans_lt hlt
  rw [seenConfirmed_append, if_neg (fun hex => ?_)]
  exact absurd ((hs.reached b hb).mpr hex) (Nat.not_le.mpr hlt)

/-- What was sent before is what the longer run finds in the old blocks. -/
theorem Sent.sent_eq_append {rounds : List Round} {s : WatchState}
    (hs : Sent config chain start rounds s) (round : Round) :
    s.sent.map Delivery.log = (List.range' (start + 1) (s.lastBlock - start)).flatMap
      (fun b => if SeenConfirmed config (rounds ++ [round]) b then chain.logs b else []) := by
  rw [hs.sent_eq]
  refine List.flatMap_congr (fun b hb => ?_)
  have hmem := List.mem_range'_1.mp hb
  rw [hs.seenConfirmed_old round (by omega) (by omega)]

/-- The blocks up to the current one are the old ones and the new ones. -/
theorem range'_blocks {last current : ℕ} (hle : start ≤ last) (hlt : last < current) :
    List.range' (start + 1) (current - start)
      = List.range' (start + 1) (last - start) ++ List.range' (last + 1) (current - last) := by
  have hfirst : start + 1 + 1 * (last - start) = last + 1 := by omega
  have hcount : last - start + (current - last) = current - start := by omega
  rw [← hcount, ← List.range'_append, hfirst]

/-- **A round that finds nothing new.** -/
theorem Sent.idle {rounds : List Round} {round : Round} {s : WatchState}
    (hs : Sent config chain start rounds s)
    (hnone : ∀ b, s.lastBlock < b → round.reaches b = false) :
    Sent config chain start (rounds ++ [round]) s := by
  refine ⟨hs.le, fun b hb => ?_, hs.sent_eq_append round, hs.height⟩
  rw [exists_reaches_append, ← hs.reached b hb]
  refine ⟨Or.inl, fun hor => ?_⟩
  rcases hor with hle | hreaches
  · exact hle
  · by_contra hle
    rw [hnone b (Nat.lt_of_not_le hle)] at hreaches
    cases hreaches

/-- **A round that looks at the blocks up to the current one.** -/
theorem Sent.advance {rounds : List Round} {round : Round} {s : WatchState} {current : ℕ}
    {new : List Delivery} (hs : Sent config chain start rounds s)
    (hreaches : ∀ b, round.reaches b ↔ b ≤ current) (hlt : s.lastBlock < current)
    (hheight : ∀ d ∈ new, d.height = current)
    (hmap : new.map Delivery.log
      = (List.range' (s.lastBlock + 1) (current - s.lastBlock)).flatMap
        (fun b => if round.confirms config b then chain.logs b else [])) :
    Sent config chain start (rounds ++ [round]) ⟨current, s.sent ++ new⟩ := by
  refine ⟨(hs.le.trans_lt hlt).le, fun b hb => ?_, ?_, ?_⟩
  · rw [exists_reaches_append, ← hs.reached b hb, hreaches]
    exact ⟨Or.inr, fun hor => hor.elim (fun hle => hle.trans hlt.le) id⟩
  · rw [List.map_append, range'_blocks hs.le hlt, List.flatMap_append,
      ← hs.sent_eq_append round, hmap]
    refine congrArg _ (List.flatMap_congr (fun b hb => ?_))
    have hb' := List.mem_range'_1.mp hb
    rw [hs.seenConfirmed_new round (by omega), (hreaches b).mpr (by omega), Bool.true_and]
  · intro d hd b hlog
    rcases List.mem_append.mp hd with hd | hd
    · exact hs.height d hd b hlog
    · have hlogs : d.log ∈ new.map Delivery.log := List.mem_map_of_mem hd
      rw [hmap] at hlogs
      obtain ⟨c, -, hc⟩ := List.mem_flatMap.mp hlogs
      split at hc
      · rename_i hconfirms
        obtain rfl := Chain.block_unique hlog hc
        have hconf := (Bool.and_eq_true_iff.mp hconfirms).2
        rw [hheight d hd]
        exact (hreaches _).mp hconf
      · cases hc

/-- **A round keeps the account of the run.** -/
theorem Sent.poll {rounds : List Round} {round : Round} {s s' : WatchState}
    (hs : Sent config chain start rounds s) (h : Relayer.poll config chain round s = .ok s') :
    Sent config chain start (rounds ++ [round]) s' := by
  rcases poll_eq_ok h with ⟨rfl, hnone⟩ | ⟨current, new, hnumber, hlt, rfl, hheight, hmap⟩
  · exact hs.idle hnone
  · have hreaches : ∀ b, round.reaches b ↔ b ≤ current := by
      intro b
      rw [Round.reaches, hnumber]
      exact decide_eq_true_iff
    exact hs.advance hreaches hlt hheight hmap

/-- **What was sent, for every run**, from the answers of its rounds. -/
theorem sent_of_polls {tr : List (WatchState × Round)} {s : WatchState}
    (h : Polls config chain start tr s) : Sent config chain start (tr.map Prod.snd) s := by
  refine Run.invariant (I := fun tr s => Sent config chain start (tr.map Prod.snd) s)
    ?_ ?_ h
  · refine ⟨le_rfl, fun b hb => ?_, ?_, fun d hd => by cases hd⟩
    · refine ⟨fun hle => absurd hle (Nat.not_le.mpr hb), ?_⟩
      rintro ⟨round, hround, -⟩
      cases hround
    · rw [Nat.sub_self]
      rfl
  · intro tr s round s' hs _ hstep
    rw [List.map_append]
    exact hs.poll hstep

/-- **No log is sent twice.** -/
theorem nodup_sent {rounds : List Round} {s : WatchState} (hs : Sent config chain start rounds s) :
    (s.sent.map Delivery.log).Nodup := by
  rw [hs.sent_eq, List.nodup_flatMap]
  constructor
  · intro b _
    split
    · exact chain.nodup b
    · exact List.nodup_nil
  · refine (List.nodup_range').imp (fun {b c} hne => ?_)
    intro log hb hc
    dsimp only at hb hc
    split at hb
    · split at hc
      · exact hne (Chain.block_unique hb hc)
      · cases hc
    · cases hb

/-- **The logs that were sent** are those of the blocks that were seen confirmed. -/
theorem mem_sent_iff {rounds : List Round} {s : WatchState} (hs : Sent config chain start rounds s)
    {b : ℕ} (hb : start < b) {log : Log} (hlog : log ∈ chain.logs b) :
    log ∈ s.sent.map Delivery.log ↔ SeenConfirmed config rounds b := by
  rw [hs.sent_eq, List.mem_flatMap]
  constructor
  · rintro ⟨c, -, hc⟩
    split at hc
    · rename_i hseen
      rwa [Chain.block_unique hlog hc]
    · cases hc
  · intro hseen
    obtain ⟨round, hround, -⟩ := Option.any_eq_true _ _ |>.mp hseen
    have hle : b ≤ s.lastBlock :=
      (hs.reached b hb).mpr ⟨round, List.mem_of_find?_eq_some hround,
        List.find?_some (p := fun r : Round => r.reaches b) hround⟩
    refine ⟨b, List.mem_range'_1.mpr (by omega), ?_⟩
    rwa [if_pos hseen]

/-- **A watcher delivers what is due exactly when no block is seen too early**: each block
with logs that has its confirmations in some answered round has them in the first round
that reaches it, which is answered. -/
theorem deliversDue_iff {tr : List (WatchState × Round)} {s : WatchState}
    (h : Polls config chain start tr s) :
    DeliversDue config chain start (tr.map Prod.snd) s
      ↔ ∀ b, start < b → chain.logs b ≠ [] →
        (∃ round ∈ tr.map Prod.snd, round.confirms config b) →
        SeenConfirmed config (tr.map Prod.snd) b := by
  have hs := sent_of_polls h
  constructor
  · rintro ⟨hdue, -⟩ b hb hne hconfirmed
    obtain ⟨log, hlog⟩ := List.exists_mem_of_ne_nil _ hne
    have hcount := hdue b hb log hlog hconfirmed
    exact (mem_sent_iff hs hb hlog).mp (List.count_pos_iff.mp (by omega))
  · intro hseen
    refine ⟨fun b hb log hlog hconfirmed => ?_, hs.height⟩
    refine List.count_eq_one_of_mem (nodup_sent hs) ?_
    exact (mem_sent_iff hs hb hlog).mpr (hseen b hb (List.ne_nil_of_mem hlog) hconfirmed)

/-! ## A log that is lost -/

/-- The log of an epoch with seven nullifiers, in block 11. -/
def log11 : Log where
  topics := [0, 5]
  data := List.replicate 63 0 ++ [7]
  blockNumber := some 11
  logIndex := 0
  transactionHash := none

/-- A chain with this log. -/
def chain11 : Chain where
  logs := fun b => if b = 11 then [log11] else []
  isEpochFinalized := by
    intro b log hlog
    split at hlog
    · rename_i heq
      rw [List.mem_singleton.mp hlog]
      exact ⟨rfl, by simp [log11], congrArg some heq.symm⟩
    · cases hlog
  nodup := by
    intro b
    split
    · exact List.nodup_singleton log11
    · exact List.nodup_nil

/-- A watcher that waits for two confirmations. -/
def config11 : ChainWatchConfig := ⟨1, "chain", "", none, 2⟩

/-- A round that is answered with this block number. -/
def roundAt (current : ℕ) : Round := ⟨some current, true, fun _ => 0, fun _ => true⟩

/-- The event of the log. -/
def event11 : EpochEvent := ⟨1, "chain", 5, 0, 7, 11, "", 0⟩

/-- **A log that is seen with no confirmation is lost**: the next round has the two
confirmations, and starts behind the block of the log. -/
theorem log_lost : ¬ ∀ (config : ChainWatchConfig) (chain : Chain) (start : ℕ)
    (tr : List (WatchState × Round)) (s : WatchState), Polls config chain start tr s →
    DeliversDue config chain start (tr.map Prod.snd) s := by
  intro hall
  have hfirst : poll config11 chain11 (roundAt 11) ⟨10, []⟩ = .ok ⟨11, []⟩ := by rfl
  have hsecond : poll config11 chain11 (roundAt 13) ⟨11, []⟩ = .ok ⟨13, []⟩ := by rfl
  have hrun : Polls config11 chain11 10 [(⟨10, []⟩, roundAt 11), (⟨11, []⟩, roundAt 13)]
      ⟨13, []⟩ := (Run.nil.snoc trivial hfirst).snoc trivial hsecond
  have hcount := (hall _ _ _ _ _ hrun).1 11 (by decide) log11 (List.mem_singleton_self _)
    ⟨roundAt 13, by simp, by decide⟩
  cases hcount

/-- When the next round comes two blocks later, the log is delivered. -/
theorem log_delivered : DeliversDue config11 chain11 10 [roundAt 13]
    ⟨13, [⟨log11, event11, 13⟩]⟩ := by
  have hstep : poll config11 chain11 (roundAt 13) ⟨10, []⟩
      = .ok ⟨13, [⟨log11, event11, 13⟩]⟩ := by rfl
  have hrun : Polls config11 chain11 10 [(⟨10, []⟩, roundAt 13)]
      ⟨13, [⟨log11, event11, 13⟩]⟩ := Run.nil.snoc trivial hstep
  refine (deliversDue_iff hrun).mpr (fun b _ hne _ => ?_)
  have heq : b = 11 := by
    by_contra hb
    exact hne (if_neg hb)
  rw [heq]
  rfl

/-! ## The subscription waits -/

theorem le_of_waitForConfirmations {target confirmations height : ℕ} {answers : List (Option ℕ)}
    (h : waitForConfirmations target confirmations answers = some height) :
    target + confirmations ≤ height := by
  have hsome := List.find?_some h
  exact of_decide_eq_true hsome

/-- **The subscription sends a log only when it is confirmed.** -/
theorem watchViaWs_confirmed (config : ChainWatchConfig) (notices : List Notice) :
    ∀ d ∈ watchViaWs config notices,
      d.log.blockNumber.getD 0 + config.confirmationBlocks ≤ d.height := by
  induction notices with
  | nil => intro d hd; cases hd
  | cons notice notices ih =>
    intro d hd
    unfold watchViaWs at hd
    split at hd
    · cases hd
    · exact ih d hd
    · split at hd
      · cases hd
      · rename_i height hheight
        split at hd
        · rcases List.mem_cons.mp hd with rfl | hd
          · unfold Notice.confirmedAt at hheight
            split at hheight
            · exact le_of_waitForConfirmations hheight
            · cases hheight
              dsimp only
              omega
          · exact ih d hd
        · cases hd

/-- **It loses no log**, as long as the events are read and received and each wait ends. -/
theorem watchViaWs_complete (config : ChainWatchConfig) (notices : List Notice)
    (hnotices : ∀ notice ∈ notices,
      (∃ event, parseEpochFinalizedLog config notice.now notice.log = .ok event)
        ∧ (notice.confirmedAt config).isSome ∧ notice.received) :
    (watchViaWs config notices).map Delivery.log = notices.map Notice.log := by
  induction notices with
  | nil => rfl
  | cons notice notices ih =>
    obtain ⟨⟨event, hparse⟩, hwait, hreceived⟩ := hnotices notice List.mem_cons_self
    obtain ⟨height, hheight⟩ := Option.isSome_iff_exists.mp hwait
    unfold watchViaWs
    rw [hparse]
    dsimp only
    rw [hheight]
    dsimp only
    rw [if_pos hreceived, List.map_cons, List.map_cons,
      ih (fun n hn => hnotices n (List.mem_cons_of_mem _ hn))]

end Relayer
