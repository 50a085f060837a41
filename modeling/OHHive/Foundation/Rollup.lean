import Mathlib.Data.List.MinMax
import OHHive.Foundation.Totals

/-! Rolled-up histories: a value is the latest snapshot plus the rows made since, and
rows may be deleted once a snapshot covers them. -/

namespace OHHive.Foundation

universe u v

/-- How snapshots and rows are read. -/
structure Rollup (Snapshot Row : Type u) (Time Value : Type v) where
  takenAt : Snapshot → Time
  worth : Snapshot → Value
  madeAt : Row → Time
  value : Row → Value

namespace Rollup

variable {Snapshot Row : Type u} {Time Value : Type v} [LinearOrder Time]
  (rollup : Rollup Snapshot Row Time Value)

/-- The latest snapshot taken by a moment. -/
def latest (snapshots : List Snapshot) (moment : Time) : Option Snapshot :=
  (snapshots.filter (fun snapshot => rollup.takenAt snapshot ≤ moment)).argmax rollup.takenAt

/-- The rows that the latest snapshot does not cover. -/
def counted (snapshots : List Snapshot) (moment : Time) (row : Row) : Bool :=
  rollup.madeAt row ≤ moment &&
    (rollup.latest snapshots moment).all (fun snapshot => rollup.takenAt snapshot < rollup.madeAt row)

/-- No two snapshots are taken at one moment. -/
def Apart (snapshots : List Snapshot) : Prop :=
  ∀ first ∈ snapshots, ∀ second ∈ snapshots,
    rollup.takenAt first = rollup.takenAt second → first = second

section Latest

variable {rollup} {snapshots : List Snapshot} {moment : Time}

theorem latest_eq_some_iff (apart : rollup.Apart snapshots) (snapshot : Snapshot) :
    rollup.latest snapshots moment = some snapshot ↔
      (snapshot ∈ snapshots ∧ rollup.takenAt snapshot ≤ moment) ∧
        ∀ other ∈ snapshots, rollup.takenAt other ≤ moment →
          rollup.takenAt other ≤ rollup.takenAt snapshot := by
  classical
  unfold latest
  constructor
  · intro found
    have member := List.argmax_mem found
    refine ⟨by simpa using member, ?_⟩
    intro other otherMember taken
    exact List.le_of_mem_argmax (by simpa using ⟨otherMember, taken⟩) found
  · intro ⟨⟨member, taken⟩, highest⟩
    apply List.argmax_eq_some_iff.mpr
    refine ⟨by simpa using ⟨member, taken⟩, ?_, ?_⟩
    · intro other otherMember
      obtain ⟨stored, by'⟩ := List.mem_filter.mp otherMember
      exact highest other stored (by simpa using by')
    · intro other otherMember above
      obtain ⟨stored, by'⟩ := List.mem_filter.mp otherMember
      have same := le_antisymm (highest other stored (by simpa using by')) above
      rw [apart other stored snapshot member same]

theorem latest_eq_none_iff :
    rollup.latest snapshots moment = none ↔
      ∀ snapshot ∈ snapshots, moment < rollup.takenAt snapshot := by
  simp [latest, List.argmax_eq_none, List.filter_eq_nil_iff]

/-- The latest snapshot depends only on the snapshots taken by the moment. -/
theorem latest_congr {other : List Snapshot} (apart : rollup.Apart snapshots)
    (otherApart : rollup.Apart other)
    (same : ∀ snapshot, rollup.takenAt snapshot ≤ moment →
      (snapshot ∈ snapshots ↔ snapshot ∈ other)) :
    rollup.latest snapshots moment = rollup.latest other moment := by
  apply Option.ext
  intro snapshot
  rw [latest_eq_some_iff apart, latest_eq_some_iff otherApart]
  constructor
  · rintro ⟨⟨member, taken⟩, highest⟩
    refine ⟨⟨(same snapshot taken).mp member, taken⟩, ?_⟩
    intro later laterMember laterTaken
    exact highest later ((same later laterTaken).mpr laterMember) laterTaken
  · rintro ⟨⟨member, taken⟩, highest⟩
    refine ⟨⟨(same snapshot taken).mpr member, taken⟩, ?_⟩
    intro later laterMember laterTaken
    exact highest later ((same later laterTaken).mp laterMember) laterTaken

/-- Between two moments without a snapshot the latest one stays. -/
theorem latest_later {earlier : Time} (ordered : earlier ≤ moment)
    (quiet : ∀ snapshot ∈ snapshots, rollup.takenAt snapshot ≤ moment →
      rollup.takenAt snapshot ≤ earlier) :
    rollup.latest snapshots moment = rollup.latest snapshots earlier := by
  unfold latest
  rw [List.filter_congr]
  intro snapshot member
  rw [decide_eq_decide]
  exact ⟨quiet snapshot member, fun taken => le_trans taken ordered⟩

end Latest

variable [AddCommGroup Value]

/-- The value at a moment: the latest snapshot and the rows made after it. -/
def valueAt (snapshots : List Snapshot) (rows : List Row) (moment : Time) : Value :=
  ((rollup.latest snapshots moment).map rollup.worth).getD 0 +
    total rollup.value rows (rollup.counted snapshots moment)

section Archiving

variable {rollup} {snapshots : List Snapshot} {rows : List Row} {moment : Time}

/-- Between two moments without a snapshot the rows made meanwhile are added. -/
theorem valueAt_later {earlier : Time} (ordered : earlier ≤ moment)
    (quiet : ∀ snapshot ∈ snapshots, rollup.takenAt snapshot ≤ moment →
      rollup.takenAt snapshot ≤ earlier) :
    rollup.valueAt snapshots rows moment = rollup.valueAt snapshots rows earlier +
      total rollup.value rows
        (fun row => earlier < rollup.madeAt row && rollup.madeAt row ≤ moment) := by
  have same := latest_later ordered quiet
  have covered : ∀ row, earlier < rollup.madeAt row →
      (rollup.latest snapshots earlier).all
        (fun snapshot => rollup.takenAt snapshot < rollup.madeAt row) = true := by
    intro row after
    rw [Option.all_eq_true]
    intro snapshot found
    have member := List.argmax_mem found
    have taken : rollup.takenAt snapshot ≤ earlier := by simpa using (List.mem_filter.mp member).2
    exact decide_eq_true (lt_of_le_of_lt taken after)
  have before : total rollup.value rows
      (fun row => rollup.counted snapshots moment row && rollup.madeAt row ≤ earlier) =
        total rollup.value rows (rollup.counted snapshots earlier) := by
    apply total_congr
    intro row _
    simp only [counted, same]
    by_cases made : rollup.madeAt row ≤ earlier
    · simp [made, le_trans made ordered]
    · simp [made]
  have after : total rollup.value rows
      (fun row => rollup.counted snapshots moment row && !decide (rollup.madeAt row ≤ earlier)) =
        total rollup.value rows
          (fun row => earlier < rollup.madeAt row && rollup.madeAt row ≤ moment) := by
    apply total_congr
    intro row _
    simp only [counted, same]
    by_cases made : rollup.madeAt row ≤ earlier
    · simp [made, not_lt.mpr made]
    · simp [made, not_le.mp made, covered row (not_le.mp made)]
  unfold valueAt
  rw [total_split rollup.value rows (rollup.counted snapshots moment)
    (fun row => rollup.madeAt row ≤ earlier), before, after, same, add_assoc]

variable (rollup) in
/-- Rows made before a cut are deleted after a snapshot at the cut was stored. -/
structure Archives (snapshots : List Snapshot) (rows : List Row) (cut : Time) (gone : Row → Bool)
    (archived : List Snapshot) : Prop where
  apart : rollup.Apart snapshots
  archivedApart : rollup.Apart archived
  before : ∀ row ∈ rows, gone row = true → rollup.madeAt row < cut
  taken : ∃ snapshot ∈ archived, rollup.takenAt snapshot = cut ∧
    rollup.worth snapshot = rollup.valueAt snapshots rows cut
  others : ∀ snapshot, rollup.takenAt snapshot ≠ cut →
    (snapshot ∈ archived ↔ snapshot ∈ snapshots)

variable {cut : Time} {gone : Row → Bool} {archived : List Snapshot}

/-- From the cut on, archiving is not seen. -/
theorem Archives.valueAt_eq (archives : rollup.Archives snapshots rows cut gone archived)
    (ended : cut ≤ moment) :
    rollup.valueAt archived (rows.filter (fun row => !gone row)) moment =
      rollup.valueAt snapshots rows moment := by
  obtain ⟨taken, takenMember, takenAt, worth⟩ := archives.taken
  have hidden : ∀ selects : Row → Bool, (∀ row, selects row = true → cut < rollup.madeAt row) →
      total rollup.value (rows.filter (fun row => !gone row)) selects =
        total rollup.value rows selects := by
    intro selects after
    have nothing : total rollup.value (rows.filter gone) selects = 0 := by
      apply total_eq_zero
      intro row member
      obtain ⟨stored, deleted⟩ := List.mem_filter.mp member
      apply Bool.eq_false_iff.mpr
      intro selected
      exact lt_asymm (after row selected) (archives.before row stored deleted)
    rw [total_delete, nothing, sub_zero]
  cases found : rollup.latest archived moment with
  | none =>
    have late := latest_eq_none_iff.mp found taken takenMember
    exact absurd (takenAt ▸ late) (not_lt.mpr ended)
  | some snapshot =>
    obtain ⟨⟨member, byMoment⟩, highest⟩ :=
      (latest_eq_some_iff archives.archivedApart snapshot).mp found
    have atLeast : cut ≤ rollup.takenAt snapshot :=
      takenAt ▸ highest taken takenMember (takenAt ▸ ended)
    by_cases atCut : rollup.takenAt snapshot = cut
    · -- the new snapshot is the latest: the old ones by this moment were taken by the cut
      have isTaken : snapshot = taken :=
        archives.archivedApart _ member _ takenMember (atCut.trans takenAt.symm)
      have quiet : ∀ other ∈ snapshots, rollup.takenAt other ≤ moment →
          rollup.takenAt other ≤ cut := by
        intro other otherMember otherTaken
        by_cases otherCut : rollup.takenAt other = cut
        · exact le_of_eq otherCut
        · rw [← atCut]
          exact highest other ((archives.others other otherCut).mpr otherMember) otherTaken
      have selection : rollup.counted archived moment =
          fun row => cut < rollup.madeAt row && rollup.madeAt row ≤ moment := by
        funext row
        simp only [counted, found, Option.all_some, atCut]
        exact Bool.and_comm _ _
      rw [valueAt_later ended quiet]
      unfold valueAt
      rw [found, selection, Option.map_some, Option.getD_some, isTaken, worth, valueAt, hidden]
      intro row selected
      exact of_decide_eq_true (Bool.and_eq_true_iff.mp selected).1
    · have old : rollup.latest snapshots moment = some snapshot := by
        apply (latest_eq_some_iff archives.apart snapshot).mpr
        refine ⟨⟨(archives.others snapshot atCut).mp member, byMoment⟩, ?_⟩
        intro other otherMember otherTaken
        by_cases otherCut : rollup.takenAt other = cut
        · exact otherCut ▸ atLeast
        · exact highest other ((archives.others other otherCut).mpr otherMember) otherTaken
      have selection : rollup.counted archived moment = rollup.counted snapshots moment := by
        funext row
        simp only [counted, found, old]
      unfold valueAt
      rw [found, old, selection, hidden]
      intro row selected
      simp only [counted, old, Option.all_some, Bool.and_eq_true, decide_eq_true_eq] at selected
      exact lt_of_le_of_lt atLeast selected.2

/-- Before the cut, archiving loses the deleted rows that were counted. -/
theorem Archives.valueAt_sub (archives : rollup.Archives snapshots rows cut gone archived)
    (early : moment < cut) :
    rollup.valueAt archived (rows.filter (fun row => !gone row)) moment =
      rollup.valueAt snapshots rows moment -
        total rollup.value (rows.filter gone) (rollup.counted snapshots moment) := by
  have same : rollup.latest archived moment = rollup.latest snapshots moment := by
    apply latest_congr archives.archivedApart archives.apart
    intro snapshot taken
    exact archives.others snapshot (ne_of_lt (lt_of_le_of_lt taken early))
  have selection : rollup.counted archived moment = rollup.counted snapshots moment := by
    funext row
    simp only [counted, same]
  unfold valueAt
  rw [same, selection, total_delete, add_sub_assoc]

end Archiving

end Rollup

end OHHive.Foundation
