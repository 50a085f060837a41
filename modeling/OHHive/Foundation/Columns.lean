import Mathlib.Data.List.Basic

/-! A column of values that may be missing, as two parallel lists: the values that are there, and
for each row a definition level that says whether the row has one. -/

namespace OHHive.Foundation

universe u

variable {α : Type u}

/-- A column's values, with the definition levels of its rows unless every row has a value. -/
structure Column (α : Type u) where
  values : List α
  levels : Option (List Nat)
deriving DecidableEq

/-- Deals the values out to the rows whose level is 1. -/
def deal : List Nat → List α → Option (List (Option α))
  | [], [] => some []
  | 0 :: levels, values => (deal levels values).map (none :: ·)
  | 1 :: levels, value :: values => (deal levels values).map (some value :: ·)
  | _, _ => none

/-- What each row of a column holds, unless its lists do not go together. -/
def Column.cells (column : Column α) : Option (List (Option α)) :=
  match column.levels with
  | none => some (column.values.map some)
  | some levels => deal levels column.values

def definitionLevel : Option α → Nat
  | none => 0
  | some _ => 1

def Column.ofCells (nullable : Bool) (cells : List (Option α)) : Column α :=
  ⟨cells.filterMap id, if nullable then some (cells.map definitionLevel) else none⟩

theorem filterMap_some_cons (value : α) (rest : List (Option α)) :
    (some value :: rest).filterMap id = value :: rest.filterMap id :=
  List.filterMap_cons_some rfl

theorem deal_definitionLevel (cells : List (Option α)) :
    deal (cells.map definitionLevel) (cells.filterMap id) = some cells := by
  induction cells with
  | nil => rfl
  | cons cell rest ih =>
    cases cell with
    | none =>
      rw [List.map_cons, List.filterMap_cons_none rfl, definitionLevel, deal, ih]
      rfl
    | some value =>
      rw [List.map_cons, filterMap_some_cons, definitionLevel, deal, ih]
      rfl

theorem map_some_filterMap {cells : List (Option α)} (full : ∀ cell ∈ cells, cell.isSome) :
    (cells.filterMap id).map some = cells := by
  induction cells with
  | nil => rfl
  | cons cell rest ih =>
    obtain ⟨value, rfl⟩ := Option.isSome_iff_exists.mp (full cell List.mem_cons_self)
    have later := ih fun other member => full other (List.mem_cons_of_mem _ member)
    rw [filterMap_some_cons, List.map_cons, later]

/-- A column gives back the cells it was made of, when it may leave out the missing ones. -/
theorem cells_ofCells {nullable : Bool} {cells : List (Option α)}
    (full : nullable = false → ∀ cell ∈ cells, cell.isSome) :
    (Column.ofCells nullable cells).cells = some cells := by
  cases nullable with
  | true => exact deal_definitionLevel cells
  | false => exact congrArg some (map_some_filterMap (full rfl))

end OHHive.Foundation
