import Mathlib.Data.List.Induction
import Mathlib.Data.List.Nodup
import Mathlib.Data.Set.Function

/-!
# Receivers that recognize a message by a key

A receiver that may be handed the same message any number of times keeps
the keys of the messages it has taken, and turns down a message whose key
is among them. It never sees which message it is handed, only the key. So
it can go wrong in two ways: take a message again, under another key, and
turn a message down as a repetition of another one with the same key.

`atMostOnce_iff_consistent` says exactly on which sequences of attempts
neither happens: a key comes back if and only if its message does.
-/

/-! ## What holds of each element and those before it -/

/-- Each element of the list stands in the relation to what is before
it. -/
def EachAfter {α : Type*} (P : List α → α → Prop) (l : List α) : Prop :=
  ∀ before a after, l = before ++ a :: after → P before a

namespace EachAfter

variable {α : Type*} {P : List α → α → Prop}

theorem nil : EachAfter P [] := by
  intro before a after h
  exact absurd h.symm (List.append_ne_nil_of_right_ne_nil _ (List.cons_ne_nil _ _))

/-- **The last element comes after all the others.** -/
theorem append_singleton_iff (l : List α) (x : α) :
    EachAfter P (l ++ [x]) ↔ EachAfter P l ∧ P l x := by
  constructor
  · intro h
    refine ⟨fun before a after heq => h before a (after ++ [x]) ?_, h l x [] rfl⟩
    rw [heq, List.append_assoc, List.cons_append]
  · rintro ⟨hl, hx⟩ before a after heq
    -- the split is before the last element, or it is one of the shorter list
    induction after using List.reverseRecOn with
    | nil =>
      obtain ⟨rfl, hlast⟩ := List.append_inj' heq rfl
      exact List.singleton_inj.mp hlast ▸ hx
    | append_singleton after y =>
      rw [← List.cons_append, ← List.append_assoc] at heq
      exact hl before a after (List.append_inj' heq rfl).1

theorem congr {Q : List α → α → Prop} (h : ∀ before a, P before a ↔ Q before a)
    (l : List α) : EachAfter P l ↔ EachAfter Q l := by
  unfold EachAfter
  simp only [h]

end EachAfter

namespace KeyedReceiver

variable {M K L : Type*}

/-- **An attempt to deliver a message.** The receiver takes a message with
a new key only when the attempt is verified. -/
structure Attempt (M K : Type*) where
  message : M
  key : K
  verified : Bool
  deriving DecidableEq

/-- What came of an attempt. An attempt with a new key that is not verified
leaves no trace. -/
inductive Outcome (M : Type*) where
  | received (message : M)
  | replayed (message : M)
  deriving DecidableEq

/-- The message that was received, if one was. -/
def Outcome.received? : Outcome M → Option M
  | .received m => some m
  | .replayed _ => none

/-- The keys taken so far, and what came of the attempts. -/
structure State (M K : Type*) where
  seen : List K
  log : List (Outcome M)

/-- **Each message is received at most once, and only a message that was
received is turned down as a repetition.** -/
structure AtMostOnce (log : List (Outcome M)) : Prop where
  once : (log.filterMap Outcome.received?).Nodup
  genuine : EachAfter (fun before o => ∀ m, o = .replayed m → .received m ∈ before) log

/-- Some attempt of the list delivers the message. -/
def Delivered (attempts : List (Attempt M K)) (m : M) : Prop :=
  ∃ a ∈ attempts, a.verified = true ∧ a.message = m

/-- Some attempt of the list delivers a message with the key. -/
def Repeated (attempts : List (Attempt M K)) (k : K) : Prop :=
  ∃ a ∈ attempts, a.verified = true ∧ a.key = k

/-- **After some attempts, the next one comes with a key that was used if
and only if its message was delivered.** An attempt that is not verified
could not be taken anyway, so it may come with a new key. -/
def Faithful (before : List (Attempt M K)) (a : Attempt M K) : Prop :=
  (a.verified = true → Delivered before a.message → Repeated before a.key) ∧
    (Repeated before a.key → Delivered before a.message)

/-- Each attempt is faithful to those before it. -/
def Consistent (attempts : List (Attempt M K)) : Prop := EachAfter Faithful attempts

/-! ## The receiver -/

variable [DecidableEq K] [DecidableEq L]

/-- One attempt. -/
def step (s : State M K) (a : Attempt M K) : State M K :=
  if a.key ∈ s.seen then { s with log := s.log ++ [.replayed a.message] }
  else if a.verified then
    { seen := a.key :: s.seen, log := s.log ++ [.received a.message] }
  else s

/-- **The attempts one after the other**, from a receiver that has taken
nothing. -/
def run (attempts : List (Attempt M K)) : State M K := attempts.foldl step ⟨[], []⟩

theorem run_append_singleton (attempts : List (Attempt M K)) (a : Attempt M K) :
    run (attempts ++ [a]) = step (run attempts) a := by
  unfold run
  rw [List.foldl_append]
  rfl

omit [DecidableEq K] in
theorem repeated_append_singleton (attempts : List (Attempt M K)) (a : Attempt M K) (k : K) :
    Repeated (attempts ++ [a]) k ↔ Repeated attempts k ∨ (a.verified = true ∧ a.key = k) := by
  simp only [Repeated, List.mem_append, List.mem_singleton, or_and_right, exists_or,
    exists_eq_left]

omit [DecidableEq K] in
theorem delivered_append_singleton (attempts : List (Attempt M K)) (a : Attempt M K) (m : M) :
    Delivered (attempts ++ [a]) m
      ↔ Delivered attempts m ∨ (a.verified = true ∧ a.message = m) := by
  simp only [Delivered, List.mem_append, List.mem_singleton, or_and_right, exists_or,
    exists_eq_left]

/-- **The keys taken are those of the verified attempts**, whether or not
each of them was itself taken. -/
theorem mem_seen_run (attempts : List (Attempt M K)) (k : K) :
    k ∈ (run attempts).seen ↔ Repeated attempts k := by
  induction attempts using List.reverseRecOn with
  | nil => simp [run, Repeated]
  | append_singleton attempts a ih =>
    rw [run_append_singleton, repeated_append_singleton, step, ← ih]
    by_cases hseen : a.key ∈ (run attempts).seen
    · rw [if_pos hseen]
      exact ⟨Or.inl, fun h => h.elim id (fun h => h.2 ▸ hseen)⟩
    · rw [if_neg hseen]
      by_cases hver : a.verified = true
      · rw [if_pos hver, List.mem_cons, or_comm, and_iff_right hver, eq_comm]
      · rw [if_neg hver]
        exact ⟨Or.inl, fun h => h.elim id (fun h => absurd h.1 hver)⟩

/-! ## The three ways an attempt goes -/

theorem log_of_repeated {attempts : List (Attempt M K)} {a : Attempt M K}
    (h : Repeated attempts a.key) :
    (run (attempts ++ [a])).log = (run attempts).log ++ [.replayed a.message] := by
  rw [run_append_singleton, step, if_pos ((mem_seen_run _ _).mpr h)]

theorem log_of_new {attempts : List (Attempt M K)} {a : Attempt M K}
    (h : ¬ Repeated attempts a.key) (hver : a.verified = true) :
    (run (attempts ++ [a])).log = (run attempts).log ++ [.received a.message] := by
  rw [run_append_singleton, step, if_neg (fun hmem => h ((mem_seen_run _ _).mp hmem)),
    if_pos hver]

theorem log_of_unverified {attempts : List (Attempt M K)} {a : Attempt M K}
    (h : ¬ Repeated attempts a.key) (hver : ¬ a.verified = true) :
    (run (attempts ++ [a])).log = (run attempts).log := by
  rw [run_append_singleton, step, if_neg (fun hmem => h ((mem_seen_run _ _).mp hmem)),
    if_neg hver]

theorem atMostOnce_nil : AtMostOnce ([] : List (Outcome M)) := ⟨List.nodup_nil, EachAfter.nil⟩

/-- A log that ends with a message received. -/
theorem atMostOnce_received_iff (log : List (Outcome M)) (m : M) :
    AtMostOnce (log ++ [.received m]) ↔ AtMostOnce log ∧ .received m ∉ log := by
  have hmem : m ∈ log.filterMap Outcome.received? ↔ .received m ∈ log := by
    rw [List.mem_filterMap]
    constructor
    · rintro ⟨o, ho, heq⟩
      cases o with
      | received m' => exact Option.some.inj heq ▸ ho
      | replayed m' => exact absurd heq nofun
    · exact fun h => ⟨_, h, rfl⟩
  constructor
  · rintro ⟨honce, hgenuine⟩
    rw [List.filterMap_append] at honce
    obtain ⟨hnodup, -, hdisj⟩ := List.nodup_append.mp honce
    refine ⟨⟨hnodup, ((EachAfter.append_singleton_iff _ _).mp hgenuine).1⟩, fun h => ?_⟩
    exact hdisj m (hmem.mpr h) m (List.mem_singleton_self m) rfl
  · rintro ⟨⟨hnodup, hgenuine⟩, hnot⟩
    refine ⟨?_, (EachAfter.append_singleton_iff _ _).mpr ⟨hgenuine, nofun⟩⟩
    rw [List.filterMap_append]
    exact hnodup.append (List.nodup_singleton m) (fun x hx hx' =>
      hnot (hmem.mp (List.mem_singleton.mp hx' ▸ hx)))

/-- A log that ends with a message turned down. -/
theorem atMostOnce_replayed_iff (log : List (Outcome M)) (m : M) :
    AtMostOnce (log ++ [.replayed m]) ↔ AtMostOnce log ∧ .received m ∈ log := by
  have honce : (log ++ [Outcome.replayed m]).filterMap Outcome.received?
      = log.filterMap Outcome.received? := by
    rw [List.filterMap_append]
    exact List.append_nil _
  constructor
  · rintro ⟨h, hgenuine⟩
    obtain ⟨hlog, hlast⟩ := (EachAfter.append_singleton_iff _ _).mp hgenuine
    exact ⟨⟨honce ▸ h, hlog⟩, hlast m rfl⟩
  · rintro ⟨⟨h, hgenuine⟩, hmem⟩
    refine ⟨honce.symm ▸ h, (EachAfter.append_singleton_iff _ _).mpr ⟨hgenuine, ?_⟩⟩
    rintro m' heq
    cases heq
    exact hmem

/-- **While nothing has gone wrong, the messages received are those
delivered.** -/
theorem received_mem_iff {attempts : List (Attempt M K)}
    (h : AtMostOnce (run attempts).log) (m : M) :
    .received m ∈ (run attempts).log ↔ Delivered attempts m := by
  induction attempts using List.reverseRecOn generalizing m with
  | nil => simp [run, Delivered]
  | append_singleton attempts a ih =>
    rw [delivered_append_singleton]
    by_cases hrep : Repeated attempts a.key
    · rw [log_of_repeated hrep] at h ⊢
      obtain ⟨hlog, hmem⟩ := (atMostOnce_replayed_iff _ _).mp h
      -- what was turned down had been delivered
      have hbefore : Delivered attempts a.message := (ih hlog a.message).mp hmem
      rw [List.mem_append, List.mem_singleton, or_iff_left nofun, ih hlog]
      exact ⟨Or.inl, fun hm => hm.elim id (fun hm => hm.2 ▸ hbefore)⟩
    · by_cases hver : a.verified = true
      · rw [log_of_new hrep hver] at h ⊢
        rw [List.mem_append, List.mem_singleton, ih ((atMostOnce_received_iff _ _).mp h).1,
          and_iff_right hver, Outcome.received.injEq, eq_comm]
      · rw [log_of_unverified hrep hver] at h ⊢
        rw [ih h]
        exact ⟨Or.inl, fun hm => hm.elim id (fun hm => absurd hm.1 hver)⟩

/-- **A receiver goes wrong nowhere if and only if the keys are faithful to
the messages throughout.** -/
theorem atMostOnce_iff_consistent (attempts : List (Attempt M K)) :
    AtMostOnce (run attempts).log ↔ Consistent attempts := by
  induction attempts using List.reverseRecOn with
  | nil => exact iff_of_true atMostOnce_nil EachAfter.nil
  | append_singleton attempts a ih =>
    rw [Consistent, EachAfter.append_singleton_iff, ← Consistent, ← ih]
    -- the last attempt is turned down, or taken, or leaves no trace
    by_cases hrep : Repeated attempts a.key
    · rw [log_of_repeated hrep, atMostOnce_replayed_iff]
      refine and_congr_right (fun hlog => ?_)
      rw [received_mem_iff hlog]
      exact ⟨fun h => ⟨fun _ _ => hrep, fun _ => h⟩, fun h => h.2 hrep⟩
    · by_cases hver : a.verified = true
      · rw [log_of_new hrep hver, atMostOnce_received_iff]
        refine and_congr_right (fun hlog => ?_)
        rw [received_mem_iff hlog]
        exact ⟨fun h => ⟨fun _ hdel => absurd hdel h, fun hrep' => absurd hrep' hrep⟩,
          fun h hdel => hrep (h.1 hver hdel)⟩
      · rw [log_of_unverified hrep hver]
        exact (and_iff_left ⟨fun hver' => absurd hver' hver,
          fun hrep' => absurd hrep' hrep⟩).symm

/-! ## Hashed keys -/

/-- The same attempt, with another key. -/
def Attempt.mapKey (f : K → L) (a : Attempt M K) : Attempt M L :=
  { a with key := f a.key }

omit [DecidableEq K] [DecidableEq L] in
theorem repeated_mapKey {f : K → L} {attempts : List (Attempt M K)} {k : K}
    (hf : ∀ a ∈ attempts, f a.key = f k → a.key = k) :
    Repeated (attempts.map (Attempt.mapKey f)) (f k) ↔ Repeated attempts k := by
  constructor
  · rintro ⟨b, hb, hver, hkey⟩
    obtain ⟨a, ha, rfl⟩ := List.mem_map.mp hb
    exact ⟨a, ha, hver, hf a ha hkey⟩
  · rintro ⟨a, ha, hver, rfl⟩
    exact ⟨_, List.mem_map_of_mem ha, hver, rfl⟩

/-- **Keys may be hashed**, as long as no two of those that come up
collide. -/
theorem log_run_mapKey {f : K → L} {attempts : List (Attempt M K)}
    (hf : Set.InjOn f {k | ∃ a ∈ attempts, a.key = k}) :
    (run (attempts.map (Attempt.mapKey f))).log = (run attempts).log := by
  induction attempts using List.reverseRecOn with
  | nil => rfl
  | append_singleton attempts a ih =>
    have hsub : {k | ∃ b ∈ attempts, b.key = k} ⊆ {k | ∃ b ∈ attempts ++ [a], b.key = k} :=
      fun _ ⟨b, hb, hk⟩ => ⟨b, List.mem_append_left _ hb, hk⟩
    have hlog := ih (hf.mono hsub)
    have hrep : Repeated (attempts.map (Attempt.mapKey f)) (a.mapKey f).key
        ↔ Repeated attempts a.key :=
      repeated_mapKey (fun b hb => hf ⟨b, List.mem_append_left _ hb, rfl⟩
        ⟨a, List.mem_append_right _ (List.mem_singleton_self a), rfl⟩)
    rw [List.map_append, List.map_singleton]
    by_cases h : Repeated attempts a.key
    · rw [log_of_repeated h, log_of_repeated (hrep.mpr h), hlog]
      rfl
    · have h' : ¬ Repeated (attempts.map (Attempt.mapKey f)) (a.mapKey f).key :=
        fun hmap => h (hrep.mp hmap)
      by_cases hver : a.verified = true
      · have hver' : (a.mapKey f).verified = true := hver
        rw [log_of_new h hver, log_of_new h' hver', hlog]
        rfl
      · have hver' : ¬ (a.mapKey f).verified = true := hver
        rw [log_of_unverified h hver, log_of_unverified h' hver', hlog]

end KeyedReceiver
