import Mathlib.Data.List.Count

/-! Journals that only grow, one entry at a time and never past the quota of the entry's group, and
rows that are final once they are finished. -/

namespace OHHive.Foundation

universe u v

section Quota

variable {Entry : Type u} {Key : Type v} [DecidableEq Key] {group : Entry → Key} {quota : Nat}
variable {before after : List Entry}

/-- The entries of one group. -/
def countIn (group : Entry → Key) (entries : List Entry) (key : Key) : Nat :=
  entries.countP fun entry => group entry = key

/-- No group has more entries than the quota. -/
def WithinQuota (group : Entry → Key) (quota : Nat) (entries : List Entry) : Prop :=
  ∀ key, countIn group entries key ≤ quota

/-- What one step may do to a journal. -/
inductive JournalMove (group : Entry → Key) (quota : Nat) (before after : List Entry) : Prop
  | rest (same : after = before)
  | add (entry : Entry) (room : countIn group before (group entry) < quota)
      (added : after = before ++ [entry])

theorem withinQuota_nil (group : Entry → Key) (quota : Nat) : WithinQuota group quota [] :=
  fun _ => Nat.zero_le quota

theorem countIn_concat (group : Entry → Key) (entries : List Entry) (entry : Entry) (key : Key) :
    countIn group (entries ++ [entry]) key =
      countIn group entries key + if group entry = key then 1 else 0 := by
  unfold countIn
  rw [List.countP_append, List.countP_singleton]
  simp only [decide_eq_true_eq]

/-- The quota is checked where an entry is added, for its own group only. -/
theorem WithinQuota.move (within : WithinQuota group quota before)
    (moved : JournalMove group quota before after) : WithinQuota group quota after := by
  cases moved with
  | rest same => exact same ▸ within
  | add entry room added =>
    intro key
    rw [added, countIn_concat]
    by_cases own : group entry = key
    · subst own
      rw [if_pos rfl]
      exact room
    · rw [if_neg own]
      exact within key

theorem JournalMove.prefix_of (moved : JournalMove group quota before after) :
    before <+: after := by
  cases moved with
  | rest same => exact same ▸ List.prefix_refl before
  | add entry room added => exact added ▸ List.prefix_append before [entry]

end Quota

section Finished

variable {Row : Type u} {finished : Row → Prop} {first second third : List Row}

/-- Every finished row stays as it is. -/
def FinishedKept (finished : Row → Prop) (before after : List Row) : Prop :=
  ∀ row ∈ before, finished row → row ∈ after

theorem FinishedKept.refl (finished : Row → Prop) (rows : List Row) :
    FinishedKept finished rows rows :=
  fun _ stored _ => stored

theorem FinishedKept.trans (earlier : FinishedKept finished first second)
    (later : FinishedKept finished second third) : FinishedKept finished first third :=
  fun row stored done => later row (earlier row stored done) done

theorem finishedKept_append (finished : Row → Prop) (rows added : List Row) :
    FinishedKept finished rows (rows ++ added) :=
  fun _ stored _ => List.mem_append_left added stored

/-- A change of unfinished rows only. -/
theorem finishedKept_map {rows : List Row} {change : Row → Row}
    (spares : ∀ row ∈ rows, finished row → change row = row) :
    FinishedKept finished rows (rows.map change) := by
  intro row stored done
  have changed := List.mem_map_of_mem (f := change) stored
  rwa [spares row stored done] at changed

end Finished

end OHHive.Foundation
