import Mathlib.Data.List.Basic
import Mathlib.Data.Nat.ModEq
import Mathlib.Logic.Function.Basic

/-!
# A ring buffer that keeps the end of a history

A buffer of `N` slots and the position last written to. Writing moves the
position one on, wrapping round, and overwrites what was there. The
buffer starts out filled with a default, and its content is then the last
`N` entries of the history of what was written – all of it while the
history is shorter – together with the default in the slots not reached
yet (`Holds`).

A scan that starts at the position and steps back `N` times visits every
slot, so it finds exactly what the buffer contains
(`scan_eq_true_iff`), and what the buffer contains, the default apart, is
the end of the history (`Holds.mem_iff`).

Some programs keep the slots in a mapping from numbers (`InMapping`), and
step back by hand (`scanMapping`). The results about such a buffer are
`InMapping.push`, `InMapping.mem_iff` and `InMapping.scan_iff`.
-/

namespace RingBuffer

variable {α : Type} {N : ℕ} [NeZero N]

/-- The next position, wrapping from the last one to the first. -/
def next (i : Fin N) : Fin N :=
  ⟨(i.val + 1) % N, Nat.mod_lt _ (Nat.pos_of_neZero N)⟩

/-- The previous position, wrapping from the first one to the last. -/
def prev (i : Fin N) : Fin N :=
  if i.val = 0 then ⟨N - 1, Nat.sub_lt (Nat.pos_of_neZero N) Nat.one_pos⟩
  else ⟨i.val - 1, lt_of_le_of_lt (Nat.sub_le _ _) i.isLt⟩

/-- Look at a number of slots, from a position backwards. -/
def scan (p : α → Bool) (buf : Vector α N) : ℕ → Fin N → Bool
  | 0, _ => false
  | fuel + 1, i => if p (buf.get i) then true else scan p buf fuel (prev i)

/-- **The buffer holds the end of a history**: the position is that of the
last entry, each of the last `N` entries sits in the slot of its index,
and the slots not reached yet hold the default. -/
structure Holds (zero : α) (buf : Vector α N) (head : Fin N)
    (hist : List α) : Prop where
  nonempty : hist ≠ []
  head_eq : head.val = (hist.length - 1) % N
  recent : ∀ (i : Fin N) (m : ℕ) (hm : m < hist.length),
    hist.length ≤ m + N → m % N = i.val → buf.get i = hist[m]
  unused : ∀ i : Fin N, hist.length ≤ i.val → buf.get i = zero

omit [NeZero N] in
/-- What a slot holds after a write. -/
theorem get_set (buf : Vector α N) (i j : Fin N) (x : α) :
    (buf.set i x).get j = if i = j then x else buf.get j := by
  show (buf.set i x)[j.val] = if i = j then x else buf[j.val]
  rw [Vector.getElem_set]
  simp only [Fin.ext_iff]

omit [NeZero N] in
/-- A fresh buffer with one entry in the first slot. -/
theorem Holds.init (zero x : α) (i₀ : Fin N) (h₀ : i₀.val = 0) :
    Holds zero ((Vector.replicate N zero).set i₀ x) i₀ [x] where
  nonempty := List.cons_ne_nil x []
  head_eq := by simp [h₀]
  recent := by
    intro i m hm _ hi
    have hm0 : m = 0 := by simpa using hm
    subst hm0
    have hii : i₀ = i := Fin.ext (by rw [h₀, ← hi, Nat.zero_mod])
    rw [get_set, if_pos hii, List.getElem_singleton]
  unused := by
    intro i hi
    have hne : i₀ ≠ i := by
      rintro rfl
      rw [h₀, List.length_singleton] at hi
      omega
    rw [get_set, if_neg hne]
    exact Vector.getElem_replicate i.isLt

/-- The next slot is the one of the next index of the history. -/
theorem Holds.next_head {zero : α} {buf : Vector α N} {head : Fin N}
    {hist : List α} (h : Holds zero buf head hist) :
    (next head).val = hist.length % N := by
  have hlen : 0 < hist.length := List.length_pos_of_ne_nil h.nonempty
  show (head.val + 1) % N = _
  rw [h.head_eq, Nat.mod_add_mod, Nat.sub_add_cancel hlen]

/-- **Writing extends the history by what is written.** -/
theorem Holds.push {zero : α} {buf : Vector α N} {head : Fin N}
    {hist : List α} (h : Holds zero buf head hist) (x : α) :
    Holds zero (buf.set (next head) x) (next head) (hist ++ [x]) where
  nonempty := by simp
  head_eq := by
    rw [List.length_append, List.length_singleton, Nat.add_sub_cancel, h.next_head]
  recent := by
    intro i m hm hrec hi
    have hnext := h.next_head
    rw [List.length_append, List.length_singleton] at hm hrec
    by_cases hlast : m = hist.length
    · -- the entry just written
      subst hlast
      have hii : next head = i := Fin.ext (by rw [hnext, hi])
      rw [get_set, if_pos hii, List.getElem_concat_length rfl]
    · -- an earlier entry, in a slot the writing did not touch
      have hm' : m < hist.length := by omega
      have hne : next head ≠ i := by
        intro heq
        have hmod : hist.length ≡ m [MOD N] := by
          rw [Nat.ModEq, hi, ← heq, hnext]
        have hdvd := (Nat.modEq_iff_dvd' hm'.le).mp hmod.symm
        have hle := Nat.le_of_dvd (by omega) hdvd
        omega
      rw [get_set, if_neg hne, List.getElem_append_left hm']
      exact h.recent i m hm' (by omega) hi
  unused := by
    intro i hi
    rw [List.length_append, List.length_singleton] at hi
    have hlt : hist.length < N := lt_of_lt_of_le hi i.isLt.le
    have hne : next head ≠ i := by
      rintro rfl
      rw [h.next_head, Nat.mod_eq_of_lt hlt] at hi
      omega
    rw [get_set, if_neg hne]
    exact h.unused i (by omega)

/-- **The buffer contains the end of the history and nothing else**, the
default apart. -/
theorem Holds.mem_iff {zero : α} {buf : Vector α N} {head : Fin N}
    {hist : List α} (h : Holds zero buf head hist) {x : α} (hx : x ≠ zero) :
    (∃ i : Fin N, buf.get i = x) ↔ x ∈ hist.drop (hist.length - N) := by
  constructor
  · rintro ⟨i, hi⟩
    by_cases hun : hist.length ≤ i.val
    · exact absurd (hi.symm.trans (h.unused i hun)) hx
    · -- the latest index of the history that falls into slot `i`
      have hlt : i.val < hist.length := by omega
      obtain ⟨q, hq⟩ : ∃ q, q = (hist.length - 1 - i.val) / N := ⟨_, rfl⟩
      have hNpos : 0 < N := Nat.pos_of_neZero N
      have hqle : q * N ≤ hist.length - 1 - i.val := by
        rw [hq]
        exact Nat.div_mul_le_self _ _
      have hqlt : hist.length - 1 - i.val < q * N + N := by
        rw [hq]
        have := Nat.lt_div_mul_add (a := hist.length - 1 - i.val) hNpos
        omega
      have hm : i.val + q * N < hist.length := by omega
      have hval := h.recent i (i.val + q * N) hm (by omega)
        (by rw [Nat.add_mul_mod_self_right, Nat.mod_eq_of_lt i.isLt])
      rw [hi] at hval
      rw [hval]
      exact List.mem_drop_iff_getElem.mpr
        ⟨i.val + q * N - (hist.length - N), by omega,
          getElem_congr_idx (by omega)⟩
  · intro hmem
    obtain ⟨j, hj, hval⟩ := List.mem_drop_iff_getElem.mp hmem
    refine ⟨⟨(hist.length - N + j) % N, Nat.mod_lt _ (Nat.pos_of_neZero N)⟩, ?_⟩
    rw [h.recent _ (hist.length - N + j) (by omega) (by omega) rfl]
    exact hval

/-! ## The scan -/

/-- The position `j` slots before `i`, for `j` no larger than a round. -/
def back (i : Fin N) (j : ℕ) : Fin N :=
  ⟨(i.val + N - j % N) % N, Nat.mod_lt _ (Nat.pos_of_neZero N)⟩

theorem back_zero (i : Fin N) : back i 0 = i := by
  apply Fin.ext
  show (i.val + N - 0 % N) % N = i.val
  rw [Nat.zero_mod, Nat.sub_zero, Nat.add_mod_right, Nat.mod_eq_of_lt i.isLt]

/-- Going back one more slot. -/
theorem back_prev (i : Fin N) {j : ℕ} (hj : j + 1 < N) :
    back (prev i) j = back i (j + 1) := by
  have hi := i.isLt
  apply Fin.ext
  show ((prev i).val + N - j % N) % N = (i.val + N - (j + 1) % N) % N
  rw [Nat.mod_eq_of_lt hj, Nat.mod_eq_of_lt (by omega : j < N)]
  unfold prev
  split
  · rename_i h0
    show (N - 1 + N - j) % N = _
    rw [h0, show N - 1 + N - j = (0 + N - (j + 1)) + N from by omega,
      Nat.add_mod_right]
  · show (i.val - 1 + N - j) % N = _
    congr 1
    omega

/-- **A scan finds what is in the slots it visits.** -/
theorem scan_eq_true (p : α → Bool) (buf : Vector α N) (fuel : ℕ)
    (hfuel : fuel ≤ N) (i : Fin N) :
    scan p buf fuel i = true ↔ ∃ j < fuel, p (buf.get (back i j)) = true := by
  induction fuel generalizing i with
  | zero => simp [scan]
  | succ fuel ih =>
    unfold scan
    split
    · rename_i hp
      simp only [true_iff]
      exact ⟨0, Nat.succ_pos _, by rw [back_zero]; exact hp⟩
    · rename_i hp
      rw [ih (by omega) (prev i)]
      constructor
      · rintro ⟨j, hj, hb⟩
        exact ⟨j + 1, by omega, by rw [← back_prev i (by omega)]; exact hb⟩
      · rintro ⟨j, hj, hb⟩
        cases j with
        | zero => exact absurd (by rwa [back_zero] at hb) hp
        | succ j => exact ⟨j, by omega, by rw [back_prev i (by omega)]; exact hb⟩

/-- Every slot is at most a round before any other. -/
theorem exists_back_eq (i k : Fin N) : ∃ j < N, back i j = k := by
  have hi := i.isLt
  have hk := k.isLt
  refine ⟨(i.val + N - k.val) % N, Nat.mod_lt _ (Nat.pos_of_neZero N), Fin.ext ?_⟩
  show (i.val + N - (i.val + N - k.val) % N % N) % N = k.val
  rw [Nat.mod_mod]
  by_cases hle : k.val ≤ i.val
  · rw [show i.val + N - k.val = (i.val - k.val) + N from by omega,
      Nat.add_mod_right, Nat.mod_eq_of_lt (by omega : i.val - k.val < N),
      show i.val + N - (i.val - k.val) = k.val + N from by omega,
      Nat.add_mod_right, Nat.mod_eq_of_lt hk]
  · rw [Nat.mod_eq_of_lt (by omega : i.val + N - k.val < N),
      show i.val + N - (i.val + N - k.val) = k.val from by omega,
      Nat.mod_eq_of_lt hk]

/-- **A scan of a whole round finds exactly what is in the buffer.** -/
theorem scan_eq_true_iff (p : α → Bool) (buf : Vector α N) (i : Fin N) :
    scan p buf N i = true ↔ ∃ k : Fin N, p (buf.get k) = true := by
  rw [scan_eq_true p buf N le_rfl i]
  constructor
  · rintro ⟨j, _, hb⟩
    exact ⟨_, hb⟩
  · rintro ⟨k, hk⟩
    obtain ⟨j, hj, hjk⟩ := exists_back_eq i k
    exact ⟨j, hj, by rw [hjk]; exact hk⟩

/-! ## Buffers kept in a mapping -/

omit [NeZero N]

/-- The buffer that a mapping keeps in its first entries. -/
def ofMapping (N : ℕ) (slots : ℕ → α) : Vector α N := Vector.ofFn (fun i => slots i)

theorem get_ofMapping (slots : ℕ → α) (i : Fin N) : (ofMapping N slots).get i = slots i :=
  Vector.getElem_ofFn i.isLt

/-- **A mapping and a position hold the end of a history.** -/
structure InMapping (zero : α) (N : ℕ) (slots : ℕ → α) (head : ℕ) (hist : List α) :
    Prop where
  lt : head < N
  holds : Holds zero (ofMapping N slots) ⟨head, lt⟩ hist

/-- The position is that of the last entry. -/
theorem InMapping.getElem {zero : α} {slots : ℕ → α} {head : ℕ} {hist : List α} {x : α}
    (h : InMapping zero N slots head (hist ++ [x])) : slots head = x := by
  have : NeZero N := ⟨Nat.ne_zero_of_lt h.lt⟩
  have hlen : hist.length < (hist ++ [x]).length := by simp
  have hhead : hist.length % N = head := by
    have heq := h.holds.head_eq
    rw [List.length_append, List.length_singleton, Nat.add_sub_cancel] at heq
    exact heq.symm
  have hget := h.holds.recent ⟨head, h.lt⟩ hist.length hlen
    (by rw [List.length_append]; exact Nat.add_le_add_left (Nat.pos_of_neZero N) _) hhead
  rw [get_ofMapping, List.getElem_concat_length rfl] at hget
  exact hget

/-- A mapping with one entry. -/
theorem InMapping.init {zero x : α} {slots : ℕ → α} (hN : 0 < N)
    (hslots : ∀ i, i ≠ 0 → slots i = zero) (hx : slots 0 = x) :
    InMapping zero N slots 0 [x] where
  lt := hN
  holds := by
    have hset : ofMapping N slots = (Vector.replicate N zero).set (⟨0, hN⟩ : Fin N) x := by
      refine Vector.ext (fun i hi => ?_)
      rw [Vector.getElem_set, Vector.getElem_replicate, ofMapping, Vector.getElem_ofFn]
      split
      · rename_i h0
        subst h0
        exact hx
      · rename_i h0
        exact hslots i (Ne.symm h0)
    rw [hset]
    exact Holds.init zero x ⟨0, hN⟩ rfl

/-- **Writing to the next entry extends the history.** -/
theorem InMapping.push {zero : α} {slots : ℕ → α} {head : ℕ} {hist : List α}
    (h : InMapping zero N slots head hist) (x : α) :
    InMapping zero N (Function.update slots ((head + 1) % N) x) ((head + 1) % N)
      (hist ++ [x]) where
  lt := Nat.mod_lt _ (Nat.zero_lt_of_lt h.lt)
  holds := by
    have : NeZero N := ⟨Nat.ne_zero_of_lt h.lt⟩
    have hset : ofMapping N (Function.update slots ((head + 1) % N) x)
        = (ofMapping N slots).set (next ⟨head, h.lt⟩) x := by
      refine Vector.ext (fun i hi => ?_)
      rw [Vector.getElem_set, ofMapping, ofMapping, Vector.getElem_ofFn,
        Vector.getElem_ofFn, Function.update_apply]
      exact if_congr eq_comm rfl rfl
    rw [hset]
    exact h.holds.push x

/-- Look at a number of entries, from a position backwards. -/
def scanMapping (p : α → Bool) (N : ℕ) (slots : ℕ → α) : ℕ → ℕ → Bool
  | 0, _ => false
  | fuel + 1, i =>
    if p (slots i) then true
    else scanMapping p N slots fuel (if i = 0 then N - 1 else i - 1)

/-- It is the scan of the buffer. -/
theorem scanMapping_eq [NeZero N] (p : α → Bool) (slots : ℕ → α) (fuel : ℕ) (i : Fin N) :
    scanMapping p N slots fuel i = scan p (ofMapping N slots) fuel i := by
  induction fuel generalizing i with
  | zero => rfl
  | succ fuel ih =>
    have hprev : (if i.val = 0 then N - 1 else i.val - 1) = (prev i).val := by
      unfold prev
      split <;> rfl
    rw [scanMapping, scan, get_ofMapping, hprev, ih]

/-- **The entries are the end of the history**, the default apart. -/
theorem InMapping.mem_iff {zero : α} {slots : ℕ → α} {head : ℕ} {hist : List α}
    (h : InMapping zero N slots head hist) {x : α} (hx : x ≠ zero) :
    (∃ i < N, slots i = x) ↔ x ∈ hist.drop (hist.length - N) := by
  have : NeZero N := ⟨Nat.ne_zero_of_lt h.lt⟩
  rw [← h.holds.mem_iff hx]
  simp only [get_ofMapping]
  exact ⟨fun ⟨i, hi, hval⟩ => ⟨⟨i, hi⟩, hval⟩, fun ⟨i, hval⟩ => ⟨i.val, i.isLt, hval⟩⟩

/-- **A scan of a whole round finds the end of the history**, the default
apart. -/
theorem InMapping.scan_iff [BEq α] [LawfulBEq α] {zero : α} {slots : ℕ → α} {head : ℕ}
    {hist : List α} (h : InMapping zero N slots head hist) {x : α} (hx : x ≠ zero) :
    scanMapping (· == x) N slots N head = true ↔ x ∈ hist.drop (hist.length - N) := by
  have : NeZero N := ⟨Nat.ne_zero_of_lt h.lt⟩
  rw [scanMapping_eq (· == x) slots N ⟨head, h.lt⟩, scan_eq_true_iff, ← h.holds.mem_iff hx]
  simp only [beq_iff_eq]

end RingBuffer
