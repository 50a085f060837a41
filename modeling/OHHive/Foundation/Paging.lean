import Mathlib.Order.Lattice
import Mathlib.Data.List.DropRight

/-! Lists in the strict order of a key, and the pages at their two ends. -/

namespace OHHive.Foundation

universe u v

variable {Row : Type u} {Key : Type v} [LinearOrder Key] {key : Row → Key}
variable {rows page rest : List Row} {first second : Row} {count : Nat}

/-- The rows come in the order of their keys, no key twice. -/
def Rising (key : Row → Key) (rows : List Row) : Prop :=
  rows.Pairwise (fun earlier later => key earlier < key later)

theorem Rising.nil : Rising key ([] : List Row) := List.Pairwise.nil

theorem Rising.sublist (rising : Rising key rows) (part : page.Sublist rows) : Rising key page :=
  List.Pairwise.sublist part rising

theorem rising_append_iff :
    Rising key (page ++ rest) ↔ Rising key page ∧ Rising key rest ∧
      ∀ earlier ∈ page, ∀ later ∈ rest, key earlier < key later :=
  List.pairwise_append

theorem Rising.nodup (rising : Rising key rows) : rows.Nodup :=
  List.Pairwise.imp (fun less same => (ne_of_lt less) (congrArg key same)) rising

/-- A page ends with its greatest key. -/
theorem Rising.le_last (rising : Rising key page) (ends : page.getLast? = some second)
    (member : first ∈ page) : key first ≤ key second := by
  obtain ⟨front, rfl⟩ := List.getLast?_eq_some_iff.mp ends
  rcases List.mem_append.mp member with before | last
  · exact le_of_lt ((rising_append_iff.mp rising).2.2 first before second
      (List.mem_singleton_self _))
  · exact le_of_eq (congrArg key (List.mem_singleton.mp last))

/-- A page starts with its least key. -/
theorem Rising.head_le (rising : Rising key page) (starts : page.head? = some first)
    (member : second ∈ page) : key first ≤ key second := by
  obtain ⟨tail, rfl⟩ := List.head?_eq_some_iff.mp starts
  rcases List.mem_cons.mp member with rfl | later
  · exact le_rfl
  · exact le_of_lt ((List.pairwise_cons.mp rising).1 second later)

/-- A row below one of the first page is on that page. -/
theorem Rising.mem_take_of_le (rising : Rising key rows) (member : first ∈ rows)
    (listed : second ∈ rows.take count) (below : key first ≤ key second) :
    first ∈ rows.take count := by
  rw [← List.take_append_drop count rows] at rising member
  rcases List.mem_append.mp member with early | late
  · exact early
  · have above := (rising_append_iff.mp rising).2.2 second listed first late
    exact absurd above (not_lt_of_ge below)

/-- A row above one of the last page is on that page. -/
theorem Rising.mem_rtake_of_le (rising : Rising key rows) (member : second ∈ rows)
    (listed : first ∈ rows.rtake count) (below : key first ≤ key second) :
    second ∈ rows.rtake count := by
  have cut : rows.take (rows.length - count) ++ rows.rtake count = rows := by
    rw [List.rtake, List.take_append_drop]
  rw [← cut] at rising member
  rcases List.mem_append.mp member with early | late
  · have above := (rising_append_iff.mp rising).2.2 second early first listed
    exact absurd above (not_lt_of_ge below)
  · exact late

theorem sublist_of_rtake : (rows.rtake count).Sublist rows := List.drop_sublist _ _

theorem rtake_ne_nil (filled : rows ≠ []) (positive : count ≠ 0) : rows.rtake count ≠ [] := by
  have length : rows.length ≠ 0 := fun empty => filled (List.length_eq_zero_iff.mp empty)
  intro empty
  have drop := congrArg List.length empty
  rw [List.rtake, List.length_drop, List.length_nil] at drop
  omega

end OHHive.Foundation
