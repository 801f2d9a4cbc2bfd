import Mathlib.Data.List.Induction
import Mathlib.Data.List.Nodup
import Mathlib.Logic.Function.Basic

/-!
# Tables that are written row by row

A table has at most one row for each key. A row that is written takes the place
of the one that had its key, so in general what is in a table depends on the
order of the rows. It does not where no two of them have a key in common: then
a table has all of its rows, and keeps them when more are written
(`table_eq_some_iff`, `table_of_prefix`).

A state with a table in it is written to by events. If each of them writes to
the table the rows that it stands for, then what is in the table after a log is
known of the log alone (`foldl_eq_table`).

Who asks for the rows that satisfy a condition, and for a number of them at
most, gets some of them, and all if there are fewer (`Finds`).
-/

namespace EntityTable

variable {κ α ε σ : Type*} [DecidableEq κ]

/-- One row is written. -/
def write (t : κ → Option α) (row : κ × α) : κ → Option α := Function.update t row.1 (some row.2)

/-- **The table of some rows**, which are written in this order. -/
def table (rows : List (κ × α)) : κ → Option α := rows.foldl write (fun _ => none)

@[simp] theorem table_nil : table ([] : List (κ × α)) = fun _ => none := rfl

theorem table_append_singleton (rows : List (κ × α)) (row : κ × α) :
    table (rows ++ [row]) = write (table rows) row := by
  unfold table
  rw [List.foldl_append]
  rfl

/-- **Each row of a table was written.** -/
theorem mem_of_table_eq_some {rows : List (κ × α)} {k : κ} {a : α} (h : table rows k = some a) :
    (k, a) ∈ rows := by
  induction rows using List.reverseRecOn with
  | nil => exact absurd h (Option.some_ne_none a).symm
  | append_singleton rows row ih =>
    rw [table_append_singleton, write] at h
    by_cases hk : k = row.1
    · subst hk
      rw [Function.update_self] at h
      cases h
      exact List.mem_append_right rows (List.mem_singleton_self row)
    · rw [Function.update_of_ne hk] at h
      exact List.mem_append_left _ (ih h)

/-- **A table has a row for each key that was written.** -/
theorem isSome_table_iff {rows : List (κ × α)} {k : κ} :
    (table rows k).isSome ↔ k ∈ rows.map Prod.fst := by
  induction rows using List.reverseRecOn with
  | nil => exact iff_of_false Bool.false_ne_true List.not_mem_nil
  | append_singleton rows row ih =>
    rw [table_append_singleton, write, List.map_append, List.mem_append, List.map_singleton,
      List.mem_singleton, ← ih]
    by_cases hk : k = row.1
    · subst hk
      rw [Function.update_self]
      exact iff_of_true rfl (Or.inr rfl)
    · rw [Function.update_of_ne hk, or_iff_left hk]

/-- **Without common keys a table has all of its rows.** -/
theorem table_eq_some_iff {rows : List (κ × α)} (hnodup : (rows.map Prod.fst).Nodup) {k : κ}
    {a : α} : table rows k = some a ↔ (k, a) ∈ rows := by
  refine ⟨mem_of_table_eq_some, fun hmem => ?_⟩
  have hsome : (table rows k).isSome := isSome_table_iff.mpr (List.mem_map_of_mem hmem)
  obtain ⟨b, hb⟩ := Option.isSome_iff_exists.mp hsome
  have heq : ((k, b) : κ × α) = (k, a) :=
    List.inj_on_of_nodup_map hnodup (mem_of_table_eq_some hb) hmem rfl
  cases heq
  exact hb

/-- Without common keys a table keeps its rows. -/
theorem table_of_prefix {rows rows' : List (κ × α)} (h : rows <+: rows')
    (hnodup : (rows'.map Prod.fst).Nodup) {k : κ} {a : α} (hrow : table rows k = some a) :
    table rows' k = some a :=
  (table_eq_some_iff hnodup).mpr (h.subset (mem_of_table_eq_some hrow))

/-! ## The tables of a state -/

/-- **After a log a table has the rows of its events**, if each event writes its
own. -/
theorem foldl_eq_table {step : σ → ε → σ} {get : σ → κ → Option α} {rows : ε → List (κ × α)}
    (hstep : ∀ s e, get (step s e) = (rows e).foldl write (get s)) {s : σ}
    (hinit : get s = fun _ => none) (log : List ε) :
    get (log.foldl step s) = table (log.flatMap rows) := by
  have hfold : ∀ s, get (log.foldl step s) = (log.flatMap rows).foldl write (get s) := by
    induction log with
    | nil => exact fun _ => rfl
    | cons e log ih =>
      intro s
      rw [List.foldl_cons, ih, hstep, List.flatMap_cons, List.foldl_append]
  rw [hfold, hinit]
  rfl

omit [DecidableEq κ] in
/-- **Where each event has a key of its own, no two rows have one in common.** -/
theorem nodup_keys_flatMap {rows : ε → List (κ × α)} {key : ε → κ}
    (hkey : ∀ e, ((rows e).map Prod.fst).Sublist [key e]) {log : List ε}
    (h : (log.map key).Nodup) :
    ((log.flatMap rows).map Prod.fst).Nodup := by
  have hsublist : ((log.flatMap rows).map Prod.fst).Sublist (log.map key) := by
    clear h
    induction log with
    | nil => exact List.Sublist.refl []
    | cons e log ih =>
      rw [List.flatMap_cons, List.map_append]
      exact (hkey e).append ih
  exact h.sublist hsublist

/-! ## Searches -/

/-- **A search of a table**, for a number of rows at most: it finds rows that
satisfy the condition, and all of them if they are fewer. -/
structure Finds (t : κ → Option α) (p : α → Prop) (first : ℕ) (found : List (κ × α)) : Prop where
  sound : ∀ row ∈ found, t row.1 = some row.2 ∧ p row.2
  length_le : found.length ≤ first
  complete : found.length < first → ∀ k a, t k = some a → p a → (k, a) ∈ found

omit [DecidableEq κ] in
/-- **A search for one row finds one** exactly if there is one. -/
theorem Finds.ne_nil_iff {t : κ → Option α} {p : α → Prop} {found : List (κ × α)}
    (h : Finds t p 1 found) : found ≠ [] ↔ ∃ k a, t k = some a ∧ p a := by
  cases found with
  | nil =>
    refine iff_of_false (fun hne => hne rfl) ?_
    rintro ⟨k, a, hrow, hp⟩
    exact List.not_mem_nil (h.complete Nat.one_pos k a hrow hp)
  | cons row found =>
    obtain ⟨hrow, hp⟩ := h.sound row List.mem_cons_self
    exact iff_of_true (List.cons_ne_nil row found) ⟨row.1, row.2, hrow, hp⟩

/-- **A search for the row that is last in an order**: it finds none exactly if the
table has none. -/
structure FindsLast (t : κ → Option α) (rank : α → ℕ) (found : List α) : Prop where
  length_le : found.length ≤ 1
  sound : ∀ a ∈ found, ∃ k, t k = some a
  last : ∀ a ∈ found, ∀ k b, t k = some b → rank b ≤ rank a
  complete : found = [] → ∀ k, t k = none

/-- The first rows that satisfy a condition. -/
def search (rows : List (κ × α)) (p : α → Prop) [DecidablePred p] (first : ℕ) :
    List (κ × α) :=
  (rows.filter (fun row => p row.2)).take first

/-- **They are what a search may find.** -/
theorem search_finds {rows : List (κ × α)} (hnodup : (rows.map Prod.fst).Nodup) (p : α → Prop)
    [DecidablePred p] (first : ℕ) : Finds (table rows) p first (search rows p first) where
  sound row hrow := by
    obtain ⟨hmem, hp⟩ := List.mem_filter.mp (List.mem_of_mem_take hrow)
    exact ⟨(table_eq_some_iff hnodup).mpr hmem, of_decide_eq_true hp⟩
  length_le := List.length_take_le _ _
  complete hlt k a hrow hp := by
    have hall : search rows p first = rows.filter (fun row => p row.2) := by
      rw [search, List.length_take] at hlt
      exact List.take_of_length_le (by omega)
    rw [hall]
    exact List.mem_filter.mpr ⟨mem_of_table_eq_some hrow, decide_eq_true hp⟩

end EntityTable
