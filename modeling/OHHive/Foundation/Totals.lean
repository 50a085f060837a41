import Mathlib.Algebra.BigOperators.Group.List.Basic
import Mathlib.Algebra.Order.BigOperators.Group.List
import Mathlib.Algebra.Group.Basic
import Mathlib.Tactic.Abel

/-! Totals of a column over the selected rows of a list, and how they follow the
rows that are added and removed. -/

namespace OHHive.Foundation

universe u v

section Totals

variable {Row : Type u} {Value : Type v} [AddCommGroup Value] (value : Row → Value)

/-- `SUM(value) … WHERE selects`. -/
def total (rows : List Row) (selects : Row → Bool) : Value :=
  ((rows.filter selects).map value).sum

@[simp] theorem total_nil (selects : Row → Bool) : total value [] selects = 0 := rfl

theorem total_cons (row : Row) (rows : List Row) (selects : Row → Bool) :
    total value (row :: rows) selects =
      (if selects row then value row else 0) + total value rows selects := by
  by_cases selected : selects row = true
  · simp [total, selected]
  · simp [total, selected]

theorem total_append (first second : List Row) (selects : Row → Bool) :
    total value (first ++ second) selects =
      total value first selects + total value second selects := by
  simp [total]

/-- Only what the selection says about the rows themselves counts. -/
theorem total_congr {rows : List Row} {selects other : Row → Bool}
    (same : ∀ row ∈ rows, selects row = other row) :
    total value rows selects = total value rows other := by
  unfold total
  rw [List.filter_congr same]

theorem total_eq_zero {rows : List Row} {selects : Row → Bool}
    (none : ∀ row ∈ rows, selects row = false) : total value rows selects = 0 := by
  have empty : rows.filter selects = [] :=
    List.filter_eq_nil_iff.mpr (fun row member => by simp [none row member])
  simp [total, empty]

theorem total_filter (rows : List Row) (kept selects : Row → Bool) :
    total value (rows.filter kept) selects = total value rows (fun row => selects row && kept row) := by
  simp [total, List.filter_filter]

/-- A selection splits along any other. -/
theorem total_split (rows : List Row) (selects splits : Row → Bool) :
    total value rows selects =
      total value rows (fun row => selects row && splits row) +
        total value rows (fun row => selects row && !splits row) := by
  induction rows with
  | nil => simp
  | cons row rest ih =>
    rw [total_cons, total_cons, total_cons, ih]
    cases selects row <;> cases splits row <;> simp <;> abel

/-- Deleting rows takes away what they contributed. -/
theorem total_delete (rows : List Row) (gone selects : Row → Bool) :
    total value (rows.filter (fun row => !gone row)) selects =
      total value rows selects - total value (rows.filter gone) selects := by
  rw [total_filter, total_filter, total_split value rows selects gone]
  abel

end Totals

end OHHive.Foundation
