import Mathlib.Data.List.Basic
import Mathlib.Order.Lattice

/-! Rows numbered in the order of their arrival: the next number is one more than the
largest one stored, and a list grown only by rows that carry it counts without a gap. -/

namespace OHHive.Foundation

universe u

variable {Row : Type u} (number : Row → Nat)

/-- `COALESCE(MAX(number),0)+1`. -/
def nextNumber (rows : List Row) : Nat := (rows.map number).foldl max 0 + 1

/-- The rows carry the numbers from one on, each once and in order. -/
def Numbered (rows : List Row) : Prop := rows.map number = List.range' 1 rows.length

/-- The rows of `later` are those of `earlier`, followed by rows numbered on from them. -/
def ContinuedBy (earlier later : List Row) : Prop :=
  ∃ added, later = earlier ++ added ∧
    added.map number = List.range' (earlier.length + 1) added.length

variable {number}

theorem foldl_max_range' (count start : Nat) :
    (List.range' 1 count).foldl max start = max start count := by
  induction count with
  | zero => simp
  | succ count ih =>
    rw [List.range'_concat, List.foldl_append, ih, List.foldl_cons, List.foldl_nil]
    omega

theorem Numbered.next {rows : List Row} (numbered : Numbered number rows) :
    nextNumber number rows = rows.length + 1 := by
  rw [nextNumber, numbered, foldl_max_range', Nat.zero_max]

theorem ContinuedBy.refl (rows : List Row) : ContinuedBy number rows rows :=
  ⟨[], (List.append_nil rows).symm, rfl⟩

theorem ContinuedBy.trans {first second third : List Row}
    (before : ContinuedBy number first second) (after : ContinuedBy number second third) :
    ContinuedBy number first third := by
  obtain ⟨earlier, rfl, earlierNumbers⟩ := before
  obtain ⟨later, rfl, laterNumbers⟩ := after
  refine ⟨earlier ++ later, List.append_assoc _ _ _, ?_⟩
  have shifted : (first ++ earlier).length + 1 = first.length + 1 + earlier.length := by
    rw [List.length_append, Nat.add_right_comm]
  rw [List.map_append, earlierNumbers, laterNumbers, shifted, List.length_append,
    List.range'_append_1]

/-- One more row under the next number continues a numbered list. -/
theorem Numbered.continuedBy {rows : List Row} {row : Row} (numbered : Numbered number rows)
    (next : number row = nextNumber number rows) : ContinuedBy number rows (rows ++ [row]) := by
  refine ⟨[row], rfl, ?_⟩
  rw [numbered.next] at next
  simp [next, List.range'_one]

theorem Numbered.of_continuedBy {earlier later : List Row} (numbered : Numbered number earlier)
    (continued : ContinuedBy number earlier later) : Numbered number later := by
  obtain ⟨added, rfl, numbers⟩ := continued
  rw [Numbered, List.map_append, numbered, numbers, List.length_append,
    Nat.add_comm earlier.length 1, List.range'_append_1]

theorem numbered_nil : Numbered number [] := rfl

end OHHive.Foundation
