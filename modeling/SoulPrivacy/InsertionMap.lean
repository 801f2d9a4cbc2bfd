import Mathlib.Data.List.Nodup
import Mathlib.Tactic.Tauto

/-!
# Maps that keep the order of insertion

A map from keys to values that carry their key themselves. It lists its
values in the order in which their keys were first set; a value that is set
again takes the place of the former one.

Setting the values of a list one after the other leaves of each key the last
value (`mem_setAll_iff`), so a map that takes in its own values does not
change (`setAll_values`).
-/

/-- **A map whose values carry their keys.** -/
structure InsertionMap {α κ : Type} (key : α → κ) where
  values : List α
  nodup : (values.map key).Nodup

namespace InsertionMap

section Values

variable {α κ : Type} {key : α → κ} {m m' : InsertionMap key} {a b : α}

theorem ext_values (h : m.values = m'.values) : m = m' := by
  cases m
  cases h
  rfl

/-- **Two values of a map with the same key** are the same. -/
theorem eq_of_key_eq (ha : a ∈ m.values) (hb : b ∈ m.values) (h : key a = key b) : a = b :=
  List.inj_on_of_nodup_map m.nodup ha hb h

/-- The map without values. -/
def empty : InsertionMap key := ⟨[], List.nodup_nil⟩

/-- **The last value with its key** in a list. -/
def IsLast (key : α → κ) (l : List α) (b : α) : Prop :=
  ∃ before after, l = before ++ b :: after ∧ ∀ c ∈ after, key c ≠ key b

theorem isLast_cons_iff {l : List α} :
    IsLast key (a :: l) b ↔ b = a ∧ (∀ c ∈ l, key c ≠ key b) ∨ IsLast key l b := by
  constructor
  · rintro ⟨before, after, heq, hafter⟩
    cases before with
    | nil =>
      cases heq
      exact Or.inl ⟨rfl, hafter⟩
    | cons d before =>
      cases heq
      exact Or.inr ⟨before, after, rfl, hafter⟩
  · rintro (⟨rfl, hafter⟩ | ⟨before, after, rfl, hafter⟩)
    · exact ⟨[], l, rfl, hafter⟩
    · exact ⟨a :: before, after, rfl, hafter⟩

theorem IsLast.mem {l : List α} (h : IsLast key l b) : b ∈ l := by
  obtain ⟨before, after, rfl, -⟩ := h
  exact List.mem_append_right _ List.mem_cons_self

end Values

variable {α κ : Type} [DecidableEq κ] {key : α → κ} {m : InsertionMap key} {a b : α} {k : κ}

/-- The value at a key. -/
def get (m : InsertionMap key) (k : κ) : Option α := m.values.find? (fun a => key a = k)

theorem get_eq_some_iff : m.get k = some a ↔ a ∈ m.values ∧ key a = k := by
  have key_eq : ∀ {b k}, m.get k = some b → b ∈ m.values ∧ key b = k := fun h =>
    ⟨List.mem_of_find?_eq_some h, by simpa using List.find?_some h⟩
  refine ⟨key_eq, ?_⟩
  rintro ⟨hmem, rfl⟩
  obtain ⟨b, hb⟩ : ∃ b, m.get (key a) = some b :=
    Option.isSome_iff_exists.mp (List.find?_isSome.mpr ⟨a, hmem, decide_eq_true rfl⟩)
  rw [hb, eq_of_key_eq (key_eq hb).1 hmem (key_eq hb).2]

/-- A value in the place of the one with its key. -/
def replace (key : α → κ) (a : α) (l : List α) : List α :=
  l.map (fun b => if key b = key a then a else b)

/-- The keys do not change. -/
theorem map_key_replace (a : α) (l : List α) : (replace key a l).map key = l.map key := by
  unfold replace
  rw [List.map_map]
  refine List.map_congr_left (fun b _ => ?_)
  show key (if key b = key a then a else b) = key b
  split
  · rename_i h
    exact h.symm
  · rfl

/-- **Setting a value**, at its key. -/
def set (m : InsertionMap key) (a : α) : InsertionMap key :=
  if h : key a ∈ m.values.map key then
    ⟨replace key a m.values, by
      rw [map_key_replace]
      exact m.nodup⟩
  else
    ⟨m.values ++ [a], by
      rw [List.map_append, List.map_singleton]
      exact List.nodup_append_comm.mp (List.nodup_cons.mpr ⟨h, m.nodup⟩)⟩

/-- **What a map has after a value is set**: it, and the values at other
keys. -/
theorem mem_set_iff : b ∈ (m.set a).values ↔ b = a ∨ b ∈ m.values ∧ key b ≠ key a := by
  unfold set
  split
  · rename_i hmem
    obtain ⟨c, hc, hkey⟩ := List.mem_map.mp hmem
    show b ∈ m.values.map (fun b => if key b = key a then a else b) ↔ _
    rw [List.mem_map]
    constructor
    · rintro ⟨d, hd, rfl⟩
      by_cases h : key d = key a
      · exact Or.inl (if_pos h)
      · rw [if_neg h]
        exact Or.inr ⟨hd, h⟩
    · rintro (rfl | ⟨hb, hne⟩)
      · exact ⟨c, hc, if_pos hkey⟩
      · exact ⟨b, hb, if_neg hne⟩
  · rename_i hnew
    show b ∈ m.values ++ [a] ↔ _
    rw [List.mem_append, List.mem_singleton, or_comm]
    refine or_congr_right ⟨fun hb => ⟨hb, fun h => hnew ?_⟩, And.left⟩
    exact h ▸ List.mem_map_of_mem hb

/-- Setting a value that is there. -/
theorem set_of_mem (h : a ∈ m.values) : m.set a = m := by
  unfold set
  rw [dif_pos (List.mem_map_of_mem h)]
  refine ext_values ?_
  show m.values.map (fun b => if key b = key a then a else b) = m.values
  refine (List.map_congr_left (fun b hb => ?_)).trans (List.map_id m.values)
  split
  · rename_i hkey
    exact eq_of_key_eq h hb hkey.symm
  · rfl

/-! ## Setting several values -/

/-- **Setting the values of a list**, one after the other. -/
def setAll (m : InsertionMap key) (l : List α) : InsertionMap key := l.foldl set m

/-- **Of each key the last value stays**, and what the map has at other
keys. -/
theorem mem_setAll_iff {l : List α} :
    b ∈ (m.setAll l).values ↔ IsLast key l b ∨ b ∈ m.values ∧ ∀ c ∈ l, key c ≠ key b := by
  induction l generalizing m with
  | nil =>
    have hnil : ¬ IsLast key [] b := fun h => absurd h.mem List.not_mem_nil
    show b ∈ m.values ↔ _
    simp [hnil]
  | cons a l ih =>
    show b ∈ ((m.set a).setAll l).values ↔ _
    rw [ih, mem_set_iff, isLast_cons_iff, List.forall_mem_cons, ne_comm (a := key b)]
    tauto

/-- Setting values that are there. -/
theorem setAll_of_forall_mem {l : List α} (h : ∀ a ∈ l, a ∈ m.values) : m.setAll l = m := by
  induction l with
  | nil => rfl
  | cons a l ih =>
    show (m.set a).setAll l = m
    rw [set_of_mem (h a List.mem_cons_self)]
    exact ih (fun b hb => h b (List.mem_cons_of_mem a hb))

/-- **A map that takes in its own values** does not change. -/
theorem setAll_values (m : InsertionMap key) : m.setAll m.values = m :=
  setAll_of_forall_mem (fun _ ha => ha)

end InsertionMap
