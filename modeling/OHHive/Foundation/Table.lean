import Mathlib.Data.List.Nodup
import Mathlib.Data.List.Pairwise

/-! Relational tables. A table is a list of rows in insertion order together
with the proof that no two rows clash, so a store built from tables cannot
violate the uniqueness constraints of its schema. -/

namespace OHHive.Foundation

universe u

/-- Rows in insertion order, pairwise free of the clashes the schema forbids. -/
structure Table (Row : Type u) (Clash : Row → Row → Prop) where
  rows : List Row
  distinct : rows.Pairwise (fun earlier later => ¬ Clash earlier later)

namespace Table

variable {Row : Type u} {Clash : Row → Row → Prop}

def empty : Table Row Clash := ⟨[], List.Pairwise.nil⟩

instance : Inhabited (Table Row Clash) := ⟨empty⟩

/-- A row may be added when it clashes with no stored row. -/
def Fits (table : Table Row Clash) (row : Row) : Prop :=
  ∀ stored ∈ table.rows, ¬ Clash stored row

instance [DecidableRel Clash] (table : Table Row Clash) (row : Row) :
    Decidable (table.Fits row) :=
  inferInstanceAs (Decidable (∀ stored ∈ table.rows, ¬ Clash stored row))

/-- `INSERT`: fails on a uniqueness violation, otherwise appends the row. -/
def insert? [DecidableRel Clash] (table : Table Row Clash) (row : Row) :
    Option (Table Row Clash) :=
  if fits : table.Fits row then
    some ⟨table.rows ++ [row], by
      rw [List.pairwise_append]
      refine ⟨table.distinct, List.pairwise_singleton _ _, ?_⟩
      intro stored member added same
      rw [List.mem_singleton.mp same]
      exact fits stored member⟩
  else none

/-- `UPDATE`: rewrites every row by a function that creates no new clash. -/
def update (table : Table Row Clash) (change : Row → Row)
    (keeps : ∀ earlier later, Clash (change earlier) (change later) → Clash earlier later) :
    Table Row Clash :=
  ⟨table.rows.map change, by
    rw [List.pairwise_map]
    exact table.distinct.imp (fun free clash => free (keeps _ _ clash))⟩

/-- `UPDATE` that fails on a uniqueness violation. -/
def rewrite? [DecidableRel Clash] (table : Table Row Clash) (change : Row → Row) :
    Option (Table Row Clash) :=
  if distinct : (table.rows.map change).Pairwise (fun earlier later => ¬ Clash earlier later) then
    some ⟨table.rows.map change, distinct⟩
  else none

/-- `DELETE`: keeps the rows that satisfy the predicate. -/
def keep (table : Table Row Clash) (kept : Row → Bool) : Table Row Clash :=
  ⟨table.rows.filter kept, table.distinct.filter _⟩

@[simp] theorem rows_empty : (empty : Table Row Clash).rows = [] := rfl

@[simp] theorem rows_update (table : Table Row Clash) (change : Row → Row) (keeps) :
    (table.update change keeps).rows = table.rows.map change := rfl

/-- An update that changes no row. -/
theorem update_eq_self {table : Table Row Clash} {change : Row → Row} (keeps)
    (unchanged : ∀ row ∈ table.rows, change row = row) : table.update change keeps = table := by
  have same : table.rows.map change = table.rows :=
    (List.map_congr_left unchanged).trans (List.map_id _)
  cases table
  simp only [update, mk.injEq]
  exact same

@[simp] theorem rows_keep (table : Table Row Clash) (kept : Row → Bool) :
    (table.keep kept).rows = table.rows.filter kept := rfl

theorem insert?_eq_some_iff [DecidableRel Clash] {table result : Table Row Clash} {row : Row} :
    table.insert? row = some result ↔
      table.Fits row ∧ result.rows = table.rows ++ [row] := by
  unfold insert?
  split
  · rename_i fits
    constructor
    · intro same
      cases Option.some.inj same
      exact ⟨fits, rfl⟩
    · intro ⟨_, rows⟩
      cases result
      simp_all
  · rename_i clash
    simp [clash]

theorem exists_insert? [DecidableRel Clash] {table : Table Row Clash} {row : Row}
    (fits : table.Fits row) :
    ∃ result, table.insert? row = some result ∧ result.rows = table.rows ++ [row] := by
  unfold insert?
  rw [dif_pos fits]
  exact ⟨_, rfl, rfl⟩

theorem rows_of_insert? [DecidableRel Clash] {table result : Table Row Clash} {row : Row}
    (inserted : table.insert? row = some result) : result.rows = table.rows ++ [row] :=
  (insert?_eq_some_iff.mp inserted).2

theorem rows_of_rewrite? [DecidableRel Clash] {table result : Table Row Clash} {change : Row → Row}
    (rewritten : table.rewrite? change = some result) : result.rows = table.rows.map change := by
  unfold rewrite? at rewritten
  split at rewritten
  · cases Option.some.inj rewritten
    rfl
  · cases rewritten

/-- Two stored rows that clash are one and the same row. -/
theorem eq_of_clash (table : Table Row Clash)
    (symmetric : ∀ earlier later, Clash earlier later → Clash later earlier)
    {first second : Row} (firstMember : first ∈ table.rows) (secondMember : second ∈ table.rows)
    (clash : Clash first second) : first = second := by
  have : Std.Symm (fun earlier later => ¬ Clash earlier later) :=
    ⟨fun _ _ apart back => apart (symmetric _ _ back)⟩
  by_contra different
  exact table.distinct.forall firstMember secondMember different clash

/-- The row found under a column whose repetition is a clash. -/
theorem find?_eq_some_iff {Key : Type} [DecidableEq Key] (table : Table Row Clash)
    (symmetric : ∀ earlier later, Clash earlier later → Clash later earlier) (key : Row → Key)
    (unique : ∀ earlier later, key earlier = key later → Clash earlier later) (wanted : Key)
    (row : Row) :
    table.rows.find? (fun row => key row = wanted) = some row ↔
      row ∈ table.rows ∧ key row = wanted := by
  constructor
  · intro found
    exact ⟨List.mem_of_find?_eq_some found, by simpa using List.find?_some found⟩
  · intro ⟨member, same⟩
    cases found : table.rows.find? (fun row => key row = wanted) with
    | none =>
      have absent := List.find?_eq_none.mp found row member
      simp [same] at absent
    | some other =>
      have otherMember := List.mem_of_find?_eq_some found
      have otherKey : key other = wanted := by simpa using List.find?_some found
      rw [table.eq_of_clash symmetric otherMember member
        (unique _ _ (otherKey.trans same.symm))]

/-- A column whose repetition is a clash holds every value at most once. -/
theorem countP_eq {Key : Type} [DecidableEq Key] (table : Table Row Clash) (key : Row → Key)
    (unique : ∀ earlier later, key earlier = key later → Clash earlier later) (wanted : Key) :
    table.rows.countP (fun row => key row = wanted) =
      if (table.rows.find? (fun row => key row = wanted)).isSome then 1 else 0 := by
  have apart := table.distinct
  generalize table.rows = rows at apart
  induction rows with
  | nil => rfl
  | cons first rest ih =>
    obtain ⟨free, restApart⟩ := List.pairwise_cons.mp apart
    by_cases same : key first = wanted
    · have none : rest.countP (fun row => key row = wanted) = 0 := by
        apply List.countP_eq_zero.mpr
        intro row member again
        exact free row member (unique _ _ (same.trans (of_decide_eq_true again).symm))
      simp [same, none]
    · simpa [same] using ih restApart

/-- A condition that makes any two rows clash holds of one row at most. -/
theorem countP_le_one_of_clash (table : Table Row Clash) (selects : Row → Bool)
    (alike : ∀ first ∈ table.rows, ∀ second ∈ table.rows, selects first = true →
      selects second = true → Clash first second) :
    table.rows.countP selects ≤ 1 := by
  have apart := table.distinct
  generalize table.rows = rows at apart alike
  induction rows with
  | nil => exact Nat.zero_le 1
  | cons first rest ih =>
    obtain ⟨free, restApart⟩ := List.pairwise_cons.mp apart
    have below := ih restApart (fun row member other otherMember =>
      alike row (List.mem_cons_of_mem _ member) other (List.mem_cons_of_mem _ otherMember))
    by_cases selected : selects first = true
    · have none : rest.countP selects = 0 := by
        apply List.countP_eq_zero.mpr
        intro row member again
        exact free row member (alike first List.mem_cons_self row (List.mem_cons_of_mem _ member)
          selected again)
      simp [selected, none]
    · simpa [selected] using below

theorem countP_le_one {Key : Type} [DecidableEq Key] (table : Table Row Clash) (key : Row → Key)
    (unique : ∀ earlier later, key earlier = key later → Clash earlier later) (wanted : Key) :
    table.rows.countP (fun row => key row = wanted) ≤ 1 := by
  apply table.countP_le_one_of_clash
  intro first _ second _ firstKey secondKey
  exact unique first second ((of_decide_eq_true firstKey).trans (of_decide_eq_true secondKey).symm)

/-- A deletion is seen under a column whose repetition is a clash. -/
theorem find?_keep {Key : Type} [DecidableEq Key] (table : Table Row Clash)
    (symmetric : ∀ earlier later, Clash earlier later → Clash later earlier) (key : Row → Key)
    (unique : ∀ earlier later, key earlier = key later → Clash earlier later)
    (kept : Row → Bool) (wanted : Key) :
    (table.keep kept).rows.find? (fun row => key row = wanted) =
      (table.rows.find? (fun row => key row = wanted)).filter kept := by
  have inKept := (table.keep kept).find?_eq_some_iff symmetric key unique wanted
  cases found : table.rows.find? (fun row => key row = wanted) with
  | none =>
    rw [Option.filter_none, List.find?_eq_none]
    intro row member
    exact List.find?_eq_none.mp found row (List.mem_filter.mp member).1
  | some row =>
    obtain ⟨member, same⟩ := (table.find?_eq_some_iff symmetric key unique wanted row).mp found
    by_cases stays : kept row = true
    · simp only [Option.filter_some, stays, if_true]
      exact (inKept row).mpr ⟨List.mem_filter.mpr ⟨member, stays⟩, same⟩
    · simp only [Option.filter_some, stays, Bool.false_eq_true, if_false, List.find?_eq_none]
      intro other otherMember otherKey
      obtain ⟨stored, passes⟩ := List.mem_filter.mp otherMember
      have clash := unique other row ((of_decide_eq_true otherKey).trans same.symm)
      rw [table.eq_of_clash symmetric stored member clash] at passes
      exact stays passes

/-- The clash of a single-column key. -/
abbrev SameKey {Key : Type} (key : Row → Key) : Row → Row → Prop :=
  fun earlier later => key earlier = key later

variable {Key : Type} {key : Row → Key}

theorem eq_of_key (table : Table Row (SameKey key)) {first second : Row}
    (firstMember : first ∈ table.rows) (secondMember : second ∈ table.rows)
    (same : key first = key second) : first = second :=
  table.eq_of_clash (fun _ _ => Eq.symm) firstMember secondMember same

/-- `UPDATE ... WHERE`: rows that satisfy the predicate are rewritten, the key is kept. -/
def updateWhere (table : Table Row (SameKey key)) (where? : Row → Bool) (change : Row → Row)
    (fixed : ∀ row, key (change row) = key row) : Table Row (SameKey key) :=
  table.update (fun row => if where? row then change row else row) (by
    intro earlier later same
    simp only [SameKey] at same ⊢
    split at same <;> split at same <;> simpa [fixed] using same)

@[simp] theorem rows_updateWhere (table : Table Row (SameKey key)) (where? : Row → Bool)
    (change : Row → Row) (fixed) :
    (table.updateWhere where? change fixed).rows =
      table.rows.map (fun row => if where? row then change row else row) := rfl

theorem eq_of_rows {first second : Table Row (SameKey key)} (same : first.rows = second.rows) :
    first = second := by
  cases first
  cases second
  cases same
  rfl

/-- An update whose condition no row meets. -/
theorem updateWhere_eq_self {table : Table Row (SameKey key)} {where? : Row → Bool}
    {change : Row → Row} (fixed) (unmatched : ∀ row ∈ table.rows, where? row = false) :
    table.updateWhere where? change fixed = table := by
  apply eq_of_rows
  rw [rows_updateWhere]
  calc table.rows.map (fun row => if where? row then change row else row)
      = table.rows.map id := by
        apply List.map_congr_left
        intro row member
        simp [unmatched row member]
    _ = table.rows := List.map_id _

variable [DecidableEq Key]

/-- `INSERT … ON CONFLICT DO UPDATE`: an added row replaces the stored row of its key. -/
def merge (table added : Table Row (SameKey key)) : Table Row (SameKey key) :=
  ⟨table.rows.filter (fun row => ∀ new ∈ added.rows, key new ≠ key row) ++ added.rows, by
    rw [List.pairwise_append]
    refine ⟨table.distinct.filter _, added.distinct, ?_⟩
    intro stored member new newMember same
    have free := of_decide_eq_true (List.mem_filter.mp member).2
    exact free new newMember same.symm⟩

theorem mem_merge (table added : Table Row (SameKey key)) (row : Row) :
    row ∈ (table.merge added).rows ↔
      (row ∈ table.rows ∧ ∀ new ∈ added.rows, key new ≠ key row) ∨ row ∈ added.rows := by
  simp [merge]

/-- The row stored under a key, if there is one. -/
def lookup (table : Table Row (SameKey key)) (wanted : Key) : Option Row :=
  table.rows.find? (fun row => key row = wanted)

theorem lookup_eq_some_iff (table : Table Row (SameKey key)) (wanted : Key) (row : Row) :
    table.lookup wanted = some row ↔ row ∈ table.rows ∧ key row = wanted :=
  table.find?_eq_some_iff (fun _ _ => Eq.symm) key (fun _ _ => id) wanted row

theorem lookup_eq_none_iff (table : Table Row (SameKey key)) (wanted : Key) :
    table.lookup wanted = none ↔ ∀ row ∈ table.rows, key row ≠ wanted := by
  simp [lookup, List.find?_eq_none]

theorem key_of_lookup {table : Table Row (SameKey key)} {wanted : Key} {row : Row}
    (found : table.lookup wanted = some row) : key row = wanted :=
  ((table.lookup_eq_some_iff wanted row).mp found).2

theorem mem_of_lookup {table : Table Row (SameKey key)} {wanted : Key} {row : Row}
    (found : table.lookup wanted = some row) : row ∈ table.rows :=
  ((table.lookup_eq_some_iff wanted row).mp found).1

@[simp] theorem lookup_empty (wanted : Key) :
    (empty : Table Row (SameKey key)).lookup wanted = none := rfl

/-- An insertion is seen under its own key and leaves every other key alone. -/
theorem lookup_insert? {table result : Table Row (SameKey key)} {row : Row}
    (inserted : table.insert? row = some result) (wanted : Key) :
    result.lookup wanted = if key row = wanted then some row else table.lookup wanted := by
  obtain ⟨fits, rows⟩ := insert?_eq_some_iff.mp inserted
  unfold lookup
  rw [rows, List.find?_append]
  by_cases same : key row = wanted
  · have absent : table.rows.find? (fun stored => key stored = wanted) = none := by
      apply List.find?_eq_none.mpr
      intro stored member
      simpa [same] using fits stored member
    simp [absent, same]
  · simp [same]

/-- An insertion that fits leaves what is stored where it is. -/
theorem lookup_insert?_of_some {table result : Table Row (SameKey key)} {row stored : Row}
    {wanted : Key} (inserted : table.insert? row = some result)
    (found : table.lookup wanted = some stored) : result.lookup wanted = some stored := by
  obtain ⟨fits, _⟩ := insert?_eq_some_iff.mp inserted
  have apart : key row ≠ wanted := by
    intro same
    exact fits stored (mem_of_lookup found) ((key_of_lookup found).trans same.symm)
  rw [lookup_insert? inserted, if_neg apart]
  exact found

/-- An insertion is refused for a row that is there. -/
theorem isSome_lookup_of_insert? {table : Table Row (SameKey key)} {row : Row}
    (refused : table.insert? row = none) : (table.lookup (key row)).isSome := by
  by_contra absent
  rw [Option.not_isSome_iff_eq_none, lookup_eq_none_iff] at absent
  obtain ⟨result, inserted, _⟩ := @exists_insert? _ _ _ table row absent
  rw [refused] at inserted
  cases inserted

theorem lookup_update (table : Table Row (SameKey key)) (change : Row → Row) (keeps)
    (fixed : ∀ row, key (change row) = key row) (wanted : Key) :
    (table.update change keeps).lookup wanted = (table.lookup wanted).map change := by
  have same : (fun row => decide (key (change row) = wanted)) = fun row => key row = wanted := by
    funext row
    rw [fixed]
  exact List.find?_map.trans (congrArg (fun test => (table.rows.find? test).map change) same)

theorem lookup_keep (table : Table Row (SameKey key)) (kept : Row → Bool) (wanted : Key) :
    (table.keep kept).lookup wanted = (table.lookup wanted).filter kept :=
  table.find?_keep (fun _ _ => Eq.symm) key (fun _ _ => id) kept wanted

theorem lookup_updateWhere (table : Table Row (SameKey key)) (where? : Row → Bool)
    (change : Row → Row) (fixed) (wanted : Key) :
    (table.updateWhere where? change fixed).lookup wanted =
      (table.lookup wanted).map (fun row => if where? row then change row else row) := by
  apply lookup_update
  intro row
  split
  · exact fixed row
  · rfl

end Table

end OHHive.Foundation
