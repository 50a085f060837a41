import Mathlib.Algebra.Ring.Int.Defs
import Mathlib.Algebra.BigOperators.Group.List.Basic
import Mathlib.Algebra.Order.Group.Int
import Mathlib.Order.Lattice

/-! Drawing an amount from buckets in a given order: each bucket gives what it has, up to what is
still needed. -/

namespace OHHive.Foundation

universe u

variable {Key : Type u} {available : Key → Int}

/-- What each bucket gives, buckets that give nothing left out. -/
def draw (available : Key → Int) : List Key → Int → List (Key × Int)
  | [], _ => []
  | key :: keys, need =>
    if need ≤ 0 then []
    else if 0 < available key then
      (key, min (available key) need) :: draw available keys (need - min (available key) need)
    else draw available keys need

/-- What the buckets hold together; an overdrawn one holds nothing. -/
def capacity (available : Key → Int) (keys : List Key) : Int :=
  (keys.map fun key => max (available key) 0).sum

theorem capacity_cons (key : Key) (keys : List Key) :
    capacity available (key :: keys) = max (available key) 0 + capacity available keys := by
  simp [capacity]

theorem capacity_nonneg (keys : List Key) : 0 ≤ capacity available keys := by
  induction keys with
  | nil => exact Int.le_refl 0
  | cons key keys ih =>
    rw [capacity_cons]
    have bucket := le_max_right (available key) 0
    omega

/-- The draws come to the amount, as far as the buckets hold it. -/
theorem sum_draw (keys : List Key) (need : Int) :
    ((draw available keys need).map Prod.snd).sum =
      min (max need 0) (capacity available keys) := by
  induction keys generalizing need with
  | nil =>
    have empty : capacity available [] = 0 := rfl
    simp [draw, empty]
  | cons key keys ih =>
    have rest : 0 ≤ capacity available keys := capacity_nonneg keys
    rw [capacity_cons]
    unfold draw
    split
    · simp only [List.map_nil, List.sum_nil]
      omega
    · split
      · simp only [List.map_cons, List.sum_cons, ih]
        omega
      · rw [ih]
        omega

/-- Each draw is positive and within its bucket. -/
theorem draw_within {keys : List Key} {need : Int} {given : Key × Int}
    (member : given ∈ draw available keys need) :
    given.1 ∈ keys ∧ 0 < given.2 ∧ given.2 ≤ available given.1 := by
  induction keys generalizing need with
  | nil => cases member
  | cons key keys ih =>
    unfold draw at member
    split at member
    · cases member
    · split at member
      · rcases List.mem_cons.mp member with rfl | later
        · refine ⟨List.mem_cons_self, ?_, min_le_left _ _⟩
          exact lt_min (by omega) (by omega)
        · obtain ⟨drawn, positive, within⟩ := ih later
          exact ⟨List.mem_cons_of_mem _ drawn, positive, within⟩
      · obtain ⟨drawn, positive, within⟩ := ih member
        exact ⟨List.mem_cons_of_mem _ drawn, positive, within⟩

/-- No bucket is drawn from twice. -/
theorem draw_sublist (keys : List Key) (need : Int) :
    ((draw available keys need).map Prod.fst).Sublist keys := by
  induction keys generalizing need with
  | nil => exact List.Sublist.refl _
  | cons key keys ih =>
    unfold draw
    split
    · exact List.nil_sublist _
    · split
      · exact (ih _).cons_cons key
      · exact (ih _).cons key

end OHHive.Foundation
