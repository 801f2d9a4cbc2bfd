import Mathlib.Algebra.Order.BigOperators.Group.List
import Mathlib.Data.List.Perm.Subperm

/-!
# Greedy selection

Items are taken off a list one by one until their total reaches a target.
If the list is in descending order, no fewer of its items reach the target
(`length_takeUntil_le`): some `k` items have at most the total of the first
`k` (`sum_le_sum_take`), and of those that are taken no proper beginning
reaches the target (`sum_take_lt`).

The target may be tested before an item is taken (`takeUntil`) or after
(`takeThrough`). The two take the same items as long as the target is not
reached at the start (`takeThrough_eq`). Which values are taken depends on
the values of the items only (`map_takeUntil`, `map_descending`).
-/

namespace GreedySelection

variable {α R : Type} [AddCommMonoid R] [LinearOrder R] (value : α → R) (target : R)

/-- **Taking items until the total reaches the target.** Gives the items that
were taken, and the total. -/
def takeUntil : R → List α → List α × R
  | total, [] => ([], total)
  | total, a :: l =>
    if target ≤ total then ([], total)
    else (a :: (takeUntil (total + value a) l).1, (takeUntil (total + value a) l).2)

/-- **Taking items through the one that reaches the target.** Gives nothing
when none does. -/
def takeThrough : R → List α → Option (List α)
  | _, [] => none
  | total, a :: l =>
    if target ≤ total + value a then some [a]
    else (takeThrough (total + value a) l).map (a :: ·)

variable {value target}

theorem takeUntil_of_le {total : R} (h : target ≤ total) (l : List α) :
    takeUntil value target total l = ([], total) := by
  cases l with
  | nil => rfl
  | cons a l => exact if_pos h

theorem takeUntil_cons_of_lt {total : R} (h : total < target) (a : α) (l : List α) :
    takeUntil value target total (a :: l)
      = (a :: (takeUntil value target (total + value a) l).1,
        (takeUntil value target (total + value a) l).2) :=
  if_neg (not_le_of_gt h)

variable (value target) in
/-- The total is that of the items. -/
theorem takeUntil_snd (total : R) (l : List α) :
    (takeUntil value target total l).2
      = total + ((takeUntil value target total l).1.map value).sum := by
  induction l generalizing total with
  | nil => exact (add_zero total).symm
  | cons a l ih =>
    rcases le_or_gt target total with h | h
    · rw [takeUntil_of_le h]
      exact (add_zero total).symm
    · rw [takeUntil_cons_of_lt h, List.map_cons, List.sum_cons, ← add_assoc]
      exact ih (total + value a)

variable (value target) in
/-- The items are the first ones. -/
theorem takeUntil_isPrefix (total : R) (l : List α) : (takeUntil value target total l).1 <+: l := by
  induction l generalizing total with
  | nil => exact List.prefix_rfl
  | cons a l ih =>
    rcases le_or_gt target total with h | h
    · rw [takeUntil_of_le h]
      exact List.nil_prefix
    · rw [takeUntil_cons_of_lt h]
      exact List.cons_prefix_cons.mpr ⟨rfl, ih _⟩

/-- Where the target is not reached, all items were taken. -/
theorem takeUntil_of_snd_lt {total : R} {l : List α}
    (h : (takeUntil value target total l).2 < target) :
    (takeUntil value target total l).1 = l := by
  induction l generalizing total with
  | nil => rfl
  | cons a l ih =>
    rcases le_or_gt target total with hle | hlt
    · rw [takeUntil_of_le hle] at h
      exact absurd h (not_lt_of_ge hle)
    · rw [takeUntil_cons_of_lt hlt] at h ⊢
      exact congrArg (a :: ·) (ih h)

/-- **No proper beginning of what was taken reaches the target.** -/
theorem sum_take_lt {total : R} {l : List α} {k : ℕ}
    (hk : k < (takeUntil value target total l).1.length) :
    total + ((l.take k).map value).sum < target := by
  induction l generalizing total k with
  | nil => exact absurd hk (Nat.not_lt_zero k)
  | cons a l ih =>
    rcases le_or_gt target total with hle | hlt
    · rw [takeUntil_of_le hle] at hk
      exact absurd hk (Nat.not_lt_zero k)
    · rw [takeUntil_cons_of_lt hlt] at hk
      cases k with
      | zero => rwa [List.take_zero, List.map_nil, List.sum_nil, add_zero]
      | succ k =>
        rw [List.take_succ_cons, List.map_cons, List.sum_cons, ← add_assoc]
        exact ih (Nat.lt_of_succ_lt_succ hk)

variable (value target) in
/-- **Testing after an item instead of before.** -/
theorem takeThrough_eq {total : R} (h : total < target) (l : List α) :
    takeThrough value target total l
      = if target ≤ (takeUntil value target total l).2
        then some (takeUntil value target total l).1 else none := by
  induction l generalizing total with
  | nil => exact (if_neg (not_le_of_gt h)).symm
  | cons a l ih =>
    rw [takeUntil_cons_of_lt h, takeThrough]
    rcases le_or_gt target (total + value a) with hle | hlt
    · rw [if_pos hle, takeUntil_of_le hle, if_pos hle]
    · rw [if_neg (not_le_of_gt hlt), ih hlt]
      split <;> rfl

/-- What is taken through an item are the first ones, too. -/
theorem takeThrough_isPrefix {total : R} {l s : List α}
    (h : takeThrough value target total l = some s) : s <+: l := by
  induction l generalizing total s with
  | nil => exact absurd h nofun
  | cons a l ih =>
    unfold takeThrough at h
    split at h
    · cases h
      exact List.cons_prefix_cons.mpr ⟨rfl, List.nil_prefix⟩
    · obtain ⟨s', hs', rfl⟩ := Option.map_eq_some_iff.mp h
      exact List.cons_prefix_cons.mpr ⟨rfl, ih hs'⟩

variable (value target) in
/-- **The values that are taken** are those that would be taken off the list
of the values. -/
theorem map_takeUntil (total : R) (l : List α) :
    (takeUntil id target total (l.map value)).1 = (takeUntil value target total l).1.map value
      ∧ (takeUntil id target total (l.map value)).2 = (takeUntil value target total l).2 := by
  induction l generalizing total with
  | nil => exact ⟨rfl, rfl⟩
  | cons a l ih =>
    rw [List.map_cons]
    rcases le_or_gt target total with h | h
    · rw [takeUntil_of_le h, takeUntil_of_le h]
      exact ⟨rfl, rfl⟩
    · rw [takeUntil_cons_of_lt h, takeUntil_cons_of_lt h]
      obtain ⟨hitems, htotal⟩ := ih (total + value a)
      exact ⟨congrArg (value a :: ·) hitems, htotal⟩

/-! ## The descending order -/

/-- **The items by descending value.** Items of the same value keep their
order. -/
def descending (value : α → R) (l : List α) : List α :=
  l.mergeSort (fun a b => decide (value b ≤ value a))

omit [AddCommMonoid R] in
theorem descending_perm (value : α → R) (l : List α) : (descending value l).Perm l :=
  List.mergeSort_perm l _

omit [AddCommMonoid R] in
theorem pairwise_descending (value : α → R) (l : List α) :
    (descending value l).Pairwise (fun a b => value b ≤ value a) := by
  have htrans : ∀ a b c : α, decide (value b ≤ value a) = true →
      decide (value c ≤ value b) = true → decide (value c ≤ value a) = true := fun a b c hab hbc =>
    decide_eq_true ((of_decide_eq_true hbc).trans (of_decide_eq_true hab))
  have htotal : ∀ a b : α, (decide (value b ≤ value a) || decide (value a ≤ value b)) = true :=
    fun a b => by
      rw [Bool.or_eq_true, decide_eq_true_eq, decide_eq_true_eq]
      exact le_total (value b) (value a)
  exact (List.pairwise_mergeSort htrans htotal l).imp (fun h => of_decide_eq_true h)

omit [AddCommMonoid R] in
theorem map_descending (value : α → R) (l : List α) :
    (descending value l).map value = descending id (l.map value) :=
  List.map_mergeSort (fun _ _ _ _ => rfl)

section Sorted

variable [IsOrderedAddMonoid R]

/-- **The target is reached if and only if all items together reach it**,
where none has a negative value. -/
theorem le_takeUntil_snd_iff {total : R} {l : List α} (hvalues : ∀ a ∈ l, 0 ≤ value a) :
    target ≤ (takeUntil value target total l).2 ↔ target ≤ total + (l.map value).sum := by
  constructor
  · intro h
    rw [takeUntil_snd] at h
    have hsub := (takeUntil_isPrefix value target total l).sublist.map value
    exact h.trans (add_le_add_right (hsub.sum_le_sum (List.forall_mem_map.mpr hvalues)) total)
  · intro h
    by_contra hlt
    have hall := takeUntil_of_snd_lt (not_le.mp hlt)
    rw [takeUntil_snd, hall] at hlt
    exact hlt h

/-- **Some items of a list in descending order** have at most the total of
the first ones. -/
theorem sum_le_sum_take {l s : List α} (hsorted : l.Pairwise (fun a b => value b ≤ value a))
    (hsub : s.Sublist l) : (s.map value).sum ≤ ((l.take s.length).map value).sum := by
  induction l generalizing s with
  | nil =>
    rw [List.sublist_nil.mp hsub]
    exact le_rfl
  | cons a l ih =>
    obtain ⟨hhead, htail⟩ := List.pairwise_cons.mp hsorted
    cases s with
    | nil => exact le_rfl
    | cons b s =>
      have hb : value b ≤ value a := by
        rcases List.mem_cons.mp (hsub.subset List.mem_cons_self) with rfl | hmem
        · exact le_rfl
        · exact hhead b hmem
      exact add_le_add hb (ih htail hsub.of_cons_cons)

/-- **No fewer items reach the target** than are taken off a list in
descending order. -/
theorem length_takeUntil_le {l s : List α} {total : R}
    (hsorted : l.Pairwise (fun a b => value b ≤ value a)) (hsub : s.Subperm l)
    (hreach : target ≤ total + (s.map value).sum) :
    (takeUntil value target total l).1.length ≤ s.length := by
  by_contra hlt
  obtain ⟨s', hperm, hsub⟩ := hsub
  have hsum : (s.map value).sum ≤ ((l.take s.length).map value).sum := by
    rw [← hperm.length_eq, ← (hperm.map value).sum_eq]
    exact sum_le_sum_take hsorted hsub
  have hshort := sum_take_lt (not_le.mp hlt)
  exact absurd (hreach.trans (add_le_add_right hsum total)) (not_le_of_gt hshort)

end Sorted

end GreedySelection
