import Mathlib.Order.Lattice
import Mathlib.Data.List.Basic
import Mathlib.Data.Prod.Basic

/-! A map as a list of entries in the order of their keys: insertion replaces the entry of a key,
and mapping the values commutes with it. -/

namespace OHHive.Foundation

variable {Key Value Other : Type} [LinearOrder Key]

/-- The entries with one more, in its place; an entry of the same key is replaced. -/
def insertEntry (key : Key) (value : Value) : List (Key × Value) → List (Key × Value)
  | [] => [(key, value)]
  | (other, stored) :: rest =>
    if key < other then (key, value) :: (other, stored) :: rest
    else if key = other then (key, value) :: rest
    else (other, stored) :: insertEntry key value rest

/-- The map of a list of entries, a later entry of a key replacing an earlier one. -/
def sortedMap (entries : List (Key × Value)) : List (Key × Value) :=
  entries.foldl (fun map entry => insertEntry entry.1 entry.2 map) []

theorem mem_insertEntry (key : Key) (value : Value) (map : List (Key × Value)) :
    (key, value) ∈ insertEntry key value map := by
  induction map with
  | nil => exact List.mem_singleton_self _
  | cons first rest ih =>
    obtain ⟨other, stored⟩ := first
    rw [insertEntry]
    split
    · exact List.mem_cons_self
    · split
      · exact List.mem_cons_self
      · exact List.mem_cons_of_mem _ ih

theorem mem_insertEntry_of_ne {key : Key} {value : Value} {map : List (Key × Value)}
    {entry : Key × Value} (member : entry ∈ map) (other : entry.1 ≠ key) :
    entry ∈ insertEntry key value map := by
  induction map with
  | nil => cases member
  | cons first rest ih =>
    rw [insertEntry]
    split
    · exact List.mem_cons_of_mem _ member
    · split
      · rename_i same
        rcases List.mem_cons.mp member with rfl | later
        · exact absurd same.symm other
        · exact List.mem_cons_of_mem _ later
      · rcases List.mem_cons.mp member with rfl | later
        · exact List.mem_cons_self
        · exact List.mem_cons_of_mem _ (ih later)

theorem eq_or_mem_of_mem_insertEntry {key : Key} {value : Value} {map : List (Key × Value)}
    {entry : Key × Value} (member : entry ∈ insertEntry key value map) :
    entry = (key, value) ∨ entry ∈ map := by
  induction map with
  | nil => exact .inl (List.mem_singleton.mp member)
  | cons first rest ih =>
    rw [insertEntry] at member
    split at member
    · exact (List.mem_cons.mp member)
    · split at member
      · rcases List.mem_cons.mp member with rfl | later
        · exact .inl rfl
        · exact .inr (List.mem_cons_of_mem _ later)
      · rcases List.mem_cons.mp member with rfl | later
        · exact .inr List.mem_cons_self
        · rcases ih later with same | found
          · exact .inl same
          · exact .inr (List.mem_cons_of_mem _ found)

theorem insertEntry_map (change : Value → Other) (key : Key) (value : Value)
    (map : List (Key × Value)) :
    insertEntry key (change value) (map.map (Prod.map id change)) =
      (insertEntry key value map).map (Prod.map id change) := by
  induction map with
  | nil => rfl
  | cons first rest ih =>
    obtain ⟨other, stored⟩ := first
    simp only [List.map_cons, Prod.map_apply, id_eq, insertEntry, ih]
    split
    · rfl
    · split
      · rfl
      · rfl

private theorem foldl_map (change : Value → Other) (entries : List (Key × Value))
    (map : List (Key × Value)) :
    (entries.map (Prod.map id change)).foldl (fun map entry => insertEntry entry.1 entry.2 map)
        (map.map (Prod.map id change)) =
      (entries.foldl (fun map entry => insertEntry entry.1 entry.2 map) map).map
        (Prod.map id change) := by
  induction entries generalizing map with
  | nil => rfl
  | cons first rest ih =>
    rw [List.map_cons, List.foldl_cons, List.foldl_cons, ← ih]
    exact congrArg (fun start => List.foldl _ start _) (insertEntry_map change _ _ map)

/-- Changing every value first gives the map with every value changed. -/
theorem sortedMap_map (change : Value → Other) (entries : List (Key × Value)) :
    sortedMap (entries.map (Prod.map id change)) =
      (sortedMap entries).map (Prod.map id change) :=
  foldl_map change entries []

private theorem mem_foldl {entries map : List (Key × Value)} {entry : Key × Value}
    (held : entry ∈ map ∨ entry ∈ entries)
    (consistent : ∀ other ∈ entries, other.1 = entry.1 → other = entry) :
    entry ∈ entries.foldl (fun map entry => insertEntry entry.1 entry.2 map) map := by
  induction entries generalizing map with
  | nil => exact held.resolve_right List.not_mem_nil
  | cons first rest ih =>
    refine ih ?_ (fun other member => consistent other (List.mem_cons_of_mem _ member))
    by_cases same : first.1 = entry.1
    · obtain rfl := consistent first List.mem_cons_self same
      exact .inl (mem_insertEntry _ _ map)
    · rcases held with stored | listed
      · exact .inl (mem_insertEntry_of_ne stored (Ne.symm same))
      · rcases List.mem_cons.mp listed with rfl | later
        · exact absurd rfl same
        · exact .inr later

/-- A listed entry is in the map when no other entry has its key. -/
theorem mem_sortedMap {entries : List (Key × Value)} {entry : Key × Value}
    (member : entry ∈ entries)
    (consistent : ∀ other ∈ entries, other.1 = entry.1 → other = entry) :
    entry ∈ sortedMap entries :=
  mem_foldl (.inr member) consistent

private theorem mem_of_mem_foldl {entries map : List (Key × Value)} {entry : Key × Value}
    (member : entry ∈ entries.foldl (fun map entry => insertEntry entry.1 entry.2 map) map) :
    entry ∈ map ∨ entry ∈ entries := by
  induction entries generalizing map with
  | nil => exact .inl member
  | cons first rest ih =>
    rcases ih member with stored | later
    · rcases eq_or_mem_of_mem_insertEntry stored with same | old
      · exact .inr (List.mem_cons.mpr (.inl same))
      · exact .inl old
    · exact .inr (List.mem_cons_of_mem _ later)

/-- Nothing else is in the map. -/
theorem mem_of_mem_sortedMap {entries : List (Key × Value)} {entry : Key × Value}
    (member : entry ∈ sortedMap entries) : entry ∈ entries :=
  (mem_of_mem_foldl member).resolve_left List.not_mem_nil

end OHHive.Foundation
