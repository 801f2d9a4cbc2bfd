import Mathlib.Data.List.Basic
import Mathlib.Data.Nat.Basic
import Mathlib.Order.Basic

/-!
# A list kept in segments

What happens is appended to the list of the current segment, and from time to
time the next segment becomes the current one. As long as nothing is written
elsewhere, the segments up to the current one are, one after the other, all
that was appended (`Segments.Hold`).
-/

namespace Segments

variable {α : Type}

/-- **The segments up to the current one**, one after the other. -/
def joined (segments : ℕ → List α) (current : ℕ) : List α :=
  (List.range (current + 1)).flatMap segments

/-- **The segments hold some items**, and those to come are empty. -/
structure Hold (segments : ℕ → List α) (current : ℕ) (items : List α) : Prop where
  joined_eq : joined segments current = items
  future : ∀ e, current < e → segments e = []

variable {segments : ℕ → List α} {current : ℕ} {items : List α}

/-- At first there is nothing. -/
theorem Hold.empty (current : ℕ) : Hold (fun _ => ([] : List α)) current [] :=
  ⟨List.flatMap_eq_nil_iff.mpr (fun _ _ => rfl), fun _ _ => rfl⟩

/-- **Items appended to the current segment** are the last ones. -/
theorem Hold.append (h : Hold segments current items) (new : List α) :
    Hold (Function.update segments current (segments current ++ new)) current
      (items ++ new) where
  joined_eq := by
    have hbelow : (List.range current).flatMap
          (Function.update segments current (segments current ++ new))
        = (List.range current).flatMap segments := by
      refine List.flatMap_congr (fun e he => ?_)
      rw [Function.update_of_ne (List.mem_range.mp he).ne]
    have hitems := h.joined_eq
    unfold joined at *
    rw [List.range_succ, List.flatMap_append, List.flatMap_singleton] at *
    rw [hbelow, Function.update_self, ← hitems, List.append_assoc]
  future e he := by
    rw [Function.update_of_ne he.ne', h.future e he]

/-- **The next segment** is empty when it becomes the current one. -/
theorem Hold.advance (h : Hold segments current items) :
    Hold segments (current + 1) items where
  joined_eq := by
    unfold joined
    rw [List.range_succ, List.flatMap_append, List.flatMap_singleton,
      h.future _ (Nat.lt_succ_self current), List.append_nil]
    exact h.joined_eq
  future e he := h.future e ((Nat.lt_succ_self current).trans he)

end Segments
