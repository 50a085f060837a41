import Mathlib.Logic.Relation
import OHHive.LocalHub.Schedules

/-! What a transaction does to the schedules: a schedule gets its boundaries in order, nothing is
queued again, and no sum overflows but in the creation of a schedule with too early a start. -/

namespace OHHive.LocalHub

open Foundation

section Boundaries

variable {everySecs now : Int}

theorem inI64_eq_ok {value : Int} (least : i64Least ≤ value) (greatest : value ≤ i64Greatest) :
    inI64 value = .ok value :=
  if_pos ⟨least, greatest⟩

/-- The loop ends at the latest boundary. -/
theorem fastForward_ok (positive : 0 < everySecs) (room : now + everySecs ≤ i64Greatest)
    {turns : Nat} {next : Int} (least : i64Least ≤ next) (past : next ≤ now)
    (enough : (now - next).toNat ≤ turns) :
    ∃ steps : Nat, fastForward everySecs now turns next = .ok (next + steps * everySecs) ∧
      next + steps * everySecs ≤ now ∧ now < next + steps * everySecs + everySecs := by
  induction turns generalizing next with
  | zero =>
    refine ⟨0, ?_, by omega, by omega⟩
    simp [fastForward]
  | succ turns ih =>
    have sum : inI64 (next + everySecs) = .ok (next + everySecs) :=
      inI64_eq_ok (by omega) (by omega)
    by_cases more : next + everySecs ≤ now
    · obtain ⟨steps, reached, upTo, latest⟩ := ih (by omega) more (by omega)
      have total : next + (steps + 1 : Nat) * everySecs =
          next + everySecs + steps * everySecs := by
        push_cast
        ring
      refine ⟨steps + 1, ?_, by omega, by omega⟩
      rw [fastForward, sum, ok_bind, if_pos more, reached, total]
    · refine ⟨0, ?_, by omega, by omega⟩
      rw [fastForward, sum, ok_bind, if_neg more]
      simp [pure, Except.pure]

/-- What the next boundary is counted from. -/
def ScheduleRow.baseline (row : ScheduleRow) : Int :=
  row.lastMaterializedThrough.getD row.createdAt

/-- A schedule whose next boundary is an instant. -/
structure ScheduleRow.Sound (row : ScheduleRow) : Prop where
  least : minIntervalSecs ≤ row.everySecs
  greatest : row.everySecs ≤ maxIntervalSecs
  based : i64Least ≤ row.baseline
  next : row.baseline + row.everySecs ≤ i64Greatest

variable {row : ScheduleRow}

/-- A schedule that is due is due at its latest boundary. -/
theorem dueBoundary?_cases (sound : row.Sound) (now : ClockReading) :
    row.dueBoundary? now = .ok none ∨
      ∃ (steps : Nat) (due : Int), row.dueBoundary? now = .ok (some due) ∧ 1 ≤ steps ∧
        due = row.baseline + steps * row.everySecs ∧ due ≤ now.val ∧
        now.val < due + row.everySecs := by
  obtain ⟨least, greatest, based, fits⟩ := sound
  have upTo := now.property.2
  unfold minIntervalSecs at least
  unfold maxIntervalSecs at greatest
  have positive : require (0 < row.everySecs) (Stop.refused (rejected "stored recurrence is invalid")) =
      .ok () := require_eq_ok_iff.mpr (by omega)
  have sum : inI64 (row.lastMaterializedThrough.getD row.createdAt + row.everySecs) =
      .ok (row.baseline + row.everySecs) := inI64_eq_ok (by unfold ScheduleRow.baseline at based; omega) fits
  unfold ScheduleRow.dueBoundary?
  rw [positive, ok_bind, sum, ok_bind]
  by_cases later : row.baseline + row.everySecs > now.val
  · rw [if_pos later]
    exact Or.inl rfl
  · rw [if_neg later]
    have room : now.val + row.everySecs ≤ i64Greatest := by
      unfold i64Greatest
      omega
    obtain ⟨steps, reached, past, latest⟩ :=
      fastForward_ok (by omega : 0 < row.everySecs) room
        (by omega : i64Least ≤ row.baseline + row.everySecs) (by omega) (Nat.le_refl _)
    refine Or.inr ⟨steps + 1, _, by rw [reached]; rfl, by omega, ?_, past, latest⟩
    push_cast
    ring

end Boundaries

section Statements

variable {store next : ScheduleStore}

/-- A schedule keeps its identity, its interval and its baseline. -/
structure ScheduleRow.Alike (row other : ScheduleRow) : Prop where
  id : other.id = row.id
  everySecs : other.everySecs = row.everySecs
  baseline : other.baseline = row.baseline

/-- A single change to the schedules and their occurrences; a boundary is one of the clock's. -/
inductive ScheduleStatement (clock : Option ClockReading) (store next : ScheduleStore) : Prop where
  | created (request : NewSchedule) (baseline : Int) (checked : request.check = .ok ())
      (based : request.initialBaseline = .ok baseline)
      (new : ∀ row ∈ store.schedules.rows, row.id ≠ request.scheduleId)
      (schedules : next.schedules.rows = store.schedules.rows ++ [request.row baseline])
      (occurrences : next.occurrences.rows = store.occurrences.rows)
  | switched (change : ScheduleRow → ScheduleRow) (alike : ∀ row : ScheduleRow, row.Alike (change row))
      (schedules : next.schedules.rows = store.schedules.rows.map change)
      (occurrences : next.occurrences.rows = store.occurrences.rows)
  | advanced (where? : Occurrence → Bool) (state : OccurrenceState) (reason : Option String)
      (moves : state ≠ .queued) (schedules : next.schedules = store.schedules)
      (occurrences : next.occurrences = (store.setState where? state reason).occurrences)
  | fired (row : ScheduleRow) (stored : row ∈ store.schedules.rows) (now : ClockReading)
      (due : Int) (steps : Nat)
      (clocked : clock = some now) (positive : 1 ≤ steps)
      (boundary : due = row.baseline + steps * row.everySecs)
      (past : due ≤ now.val) (latest : now.val < due + row.everySecs) (minted : Uuid)
      (schedules : next.schedules.rows = store.schedules.rows.map fun other =>
        if other.id = row.id then { other with lastMaterializedThrough := some due } else other)
      (occurrences : next.occurrences.rows = store.occurrences.rows ++
          [⟨minted, row.id, row.currentRevision, due, .queued, none, occurrenceRequest row.id due,
            now⟩] ∨
        next.occurrences.rows = store.occurrences.rows)

/-- What holds of the schedules between transactions. -/
structure ScheduleStore.Sound (store : ScheduleStore) : Prop where
  rows : ∀ row ∈ store.schedules.rows, row.Sound
  owned : ∀ occurrence ∈ store.occurrences.rows, ∃ row ∈ store.schedules.rows,
    row.id = occurrence.scheduleId ∧ occurrence.dueAt ≤ row.baseline
  ordered : store.occurrences.rows.Pairwise fun earlier later =>
    earlier.scheduleId = later.scheduleId → earlier.dueAt < later.dueAt

theorem NewSchedule.check_ok {request : NewSchedule} (checked : request.check = .ok ()) :
    minIntervalSecs ≤ request.everySecs ∧ request.everySecs ≤ maxIntervalSecs := by
  unfold NewSchedule.check at checked
  obtain ⟨_, _, checked⟩ := bind_eq_ok_iff.mp checked
  obtain ⟨_, _, checked⟩ := bind_eq_ok_iff.mp checked
  exact require_eq_ok_iff.mp checked

theorem inI64_ok {value result : Int} (fits : inI64 value = .ok result) :
    result = value ∧ i64Least ≤ value ∧ value ≤ i64Greatest := by
  unfold inI64 at fits
  split at fits
  · rename_i within
    exact ⟨(Except.ok.inj fits).symm, within⟩
  · cases fits

/-- A schedule is created with a baseline that is an instant, and so is the first boundary. -/
theorem sound_row {request : NewSchedule} {baseline : Int} (checked : request.check = .ok ())
    (based : request.initialBaseline = .ok baseline) : (request.row baseline).Sound := by
  obtain ⟨least, greatest⟩ := NewSchedule.check_ok checked
  unfold NewSchedule.initialBaseline at based
  have fits : i64Least ≤ baseline ∧ baseline + request.everySecs ≤ i64Greatest := by
    split at based
    · rename_i start _
      obtain ⟨rfl, within, _⟩ := inI64_ok based
      have upTo := start.property.2
      omega
    · obtain rfl := Except.ok.inj based
      have reading := request.now.property
      unfold maxIntervalSecs at greatest
      unfold i64Least i64Greatest
      omega
  exact ⟨least, greatest, fits.1, fits.2⟩

/-- The schedule under a given identity, if the boundary moves it. -/
theorem baseline_moved (row other : ScheduleRow) (due : Int) :
    (if other.id = row.id then { other with lastMaterializedThrough := some due }
      else other).baseline = if other.id = row.id then due else other.baseline := by
  split <;> rfl

theorem occurrence_advanced {where? : Occurrence → Bool} {state : OccurrenceState}
    {reason : Option String} {occurrence : Occurrence}
    (member : occurrence ∈ (store.setState where? state reason).occurrences.rows) :
    ∃ before ∈ store.occurrences.rows, occurrence.id = before.id ∧
      occurrence.scheduleId = before.scheduleId ∧ occurrence.dueAt = before.dueAt ∧
      (occurrence.state = state ∧ where? before = true ∨
        occurrence.state = before.state ∧ where? before = false) := by
  obtain ⟨before, stored, rfl⟩ := List.mem_map.mp member
  refine ⟨before, stored, ?_⟩
  cases chosen : where? before with
  | true => exact ⟨rfl, rfl, rfl, Or.inl ⟨rfl, rfl⟩⟩
  | false => exact ⟨rfl, rfl, rfl, Or.inr ⟨rfl, rfl⟩⟩

theorem ScheduleStatement.sound {clock : Option ClockReading}
    (statement : ScheduleStatement clock store next) (sound : store.Sound) : next.Sound := by
  cases statement with
  | created request baseline checked based new schedules occurrences =>
    constructor
    · intro row member
      rw [schedules, List.mem_append, List.mem_singleton] at member
      rcases member with stored | rfl
      · exact sound.rows row stored
      · exact sound_row checked based
    · intro occurrence member
      rw [occurrences] at member
      obtain ⟨row, stored, owns⟩ := sound.owned occurrence member
      exact ⟨row, schedules ▸ List.mem_append_left _ stored, owns⟩
    · exact occurrences ▸ sound.ordered
  | switched change alike schedules occurrences =>
    constructor
    · intro row member
      rw [schedules] at member
      obtain ⟨before, stored, rfl⟩ := List.mem_map.mp member
      obtain ⟨least, greatest, based, fits⟩ := sound.rows before stored
      obtain ⟨_, every, same⟩ := alike before
      exact ⟨every ▸ least, every ▸ greatest, same ▸ based, by rw [same, every]; exact fits⟩
    · intro occurrence member
      rw [occurrences] at member
      obtain ⟨row, stored, id, upTo⟩ := sound.owned occurrence member
      refine ⟨change row, schedules ▸ List.mem_map_of_mem stored, (alike row).id.trans id, ?_⟩
      rw [(alike row).baseline]
      exact upTo
    · exact occurrences ▸ sound.ordered
  | advanced where? state reason moves schedules occurrences =>
    constructor
    · exact schedules ▸ sound.rows
    · intro occurrence member
      rw [occurrences] at member
      obtain ⟨before, stored, _, schedule, due, _⟩ := occurrence_advanced member
      rw [schedules, schedule, due]
      exact sound.owned before stored
    · rw [occurrences]
      unfold ScheduleStore.setState
      rw [Table.rows_update, List.pairwise_map]
      apply sound.ordered.imp
      intro earlier later ordered same
      have alike (row : Occurrence) :
          (if where? row then { row with state, reason := reason <|> row.reason } else row).dueAt =
            row.dueAt ∧
          (if where? row then { row with state, reason := reason <|> row.reason }
            else row).scheduleId = row.scheduleId := by
        split <;> exact ⟨rfl, rfl⟩
      rw [(alike earlier).1, (alike later).1]
      rw [(alike earlier).2, (alike later).2] at same
      exact ordered same
  | fired row stored now due steps clocked positive boundary past latest minted schedules
      occurrences =>
    obtain ⟨least, greatest, based, fits⟩ := sound.rows row stored
    unfold minIntervalSecs at least
    unfold maxIntervalSecs at greatest
    have upTo := now.property.2
    have interval : row.everySecs ≤ steps * row.everySecs :=
      le_mul_of_one_le_left (by omega) (by exact_mod_cast positive)
    have moved {other : ScheduleRow} (present : other ∈ store.schedules.rows) :
        other.baseline ≤ (if other.id = row.id then { other with lastMaterializedThrough := some due }
          else other).baseline := by
      rw [baseline_moved]
      split
      · rename_i same
        obtain rfl := store.schedules.eq_of_key present stored same
        omega
      · exact Int.le_refl _
    constructor
    · intro other member
      rw [schedules] at member
      obtain ⟨before, present, rfl⟩ := List.mem_map.mp member
      by_cases same : before.id = row.id
      · obtain rfl := store.schedules.eq_of_key present stored same
        rw [if_pos rfl]
        refine ⟨least, greatest, ?_, ?_⟩
        · change i64Least ≤ due
          omega
        · change due + before.everySecs ≤ i64Greatest
          unfold i64Greatest
          omega
      · rw [if_neg same]
        exact sound.rows before present
    · have old (occurrence : Occurrence) (present : occurrence ∈ store.occurrences.rows) :
          ∃ other ∈ next.schedules.rows, other.id = occurrence.scheduleId ∧
            occurrence.dueAt ≤ other.baseline := by
        obtain ⟨owner, there, id, within⟩ := sound.owned occurrence present
        refine ⟨_, schedules ▸ List.mem_map_of_mem there, ?_, within.trans (moved there)⟩
        split
        · exact id
        · exact id
      intro occurrence member
      rcases occurrences with added | unchanged
      · rw [added, List.mem_append, List.mem_singleton] at member
        rcases member with present | rfl
        · exact old occurrence present
        · refine ⟨_, schedules ▸ List.mem_map_of_mem stored, ?_, ?_⟩
          · rw [if_pos rfl]
          · rw [if_pos rfl]
            exact Int.le_refl due
      · exact old occurrence (unchanged ▸ member)
    · rcases occurrences with added | unchanged
      · rw [added, List.pairwise_append]
        refine ⟨sound.ordered, List.pairwise_singleton _ _, ?_⟩
        intro earlier present last member same
        obtain rfl := List.mem_singleton.mp member
        obtain ⟨owner, there, id, within⟩ := sound.owned earlier present
        obtain rfl := store.schedules.eq_of_key there stored (id.trans same)
        change earlier.dueAt < due
        omega
      · exact unchanged ▸ sound.ordered

theorem advanced_occurrence {occurrence : Occurrence} (where? : Occurrence → Bool)
    (state : OccurrenceState) (reason : Option String)
    (present : occurrence ∈ store.occurrences.rows) :
    ∃ after ∈ (store.setState where? state reason).occurrences.rows, after.id = occurrence.id ∧
      (after.state = state ∨ after.state = occurrence.state ∧ where? occurrence = false) := by
  refine ⟨_, List.mem_map_of_mem present, ?_⟩
  cases chosen : where? occurrence with
  | true => exact ⟨rfl, Or.inl rfl⟩
  | false => exact ⟨rfl, Or.inr ⟨rfl, rfl⟩⟩

/-- An occurrence that can not be claimed any more. -/
def Spent (id : Uuid) (store : ScheduleStore) : Prop :=
  ∃ occurrence ∈ store.occurrences.rows, occurrence.id = id ∧ occurrence.state ≠ .queued

/-- Nothing is queued again. -/
theorem ScheduleStatement.spent {clock : Option ClockReading} {id : Uuid}
    (statement : ScheduleStatement clock store next) (spent : Spent id store) :
    Spent id next := by
  obtain ⟨occurrence, present, same, started⟩ := spent
  cases statement with
  | created request baseline checked based new schedules occurrences =>
    exact ⟨occurrence, occurrences ▸ present, same, started⟩
  | switched change alike schedules occurrences =>
    exact ⟨occurrence, occurrences ▸ present, same, started⟩
  | advanced where? state reason moves schedules occurrences =>
    obtain ⟨after, there, kept, state⟩ := advanced_occurrence where? state reason present
    refine ⟨after, occurrences ▸ there, kept.trans same, ?_⟩
    rcases state with moved | ⟨stays, _⟩
    · exact moved.symm ▸ moves
    · exact stays.symm ▸ started
  | fired row stored now due steps clocked positive boundary past latest minted schedules
      occurrences =>
    rcases occurrences with added | unchanged
    · exact ⟨occurrence, added ▸ List.mem_append_left _ present, same, started⟩
    · exact ⟨occurrence, unchanged ▸ present, same, started⟩

/-- The boundaries of a schedule, counted from its first baseline. -/
structure Aligned (id : Uuid) (baseline everySecs : Int) (store : ScheduleStore) : Prop where
  row : ∃ row ∈ store.schedules.rows, row.id = id ∧ row.everySecs = everySecs ∧
    ∃ steps : Nat, row.baseline = baseline + steps * everySecs
  occurrences : ∀ occurrence ∈ store.occurrences.rows, occurrence.scheduleId = id →
    ∃ steps : Nat, 1 ≤ steps ∧ occurrence.dueAt = baseline + steps * everySecs

theorem ScheduleStatement.aligned {clock : Option ClockReading} {id : Uuid}
    {baseline everySecs : Int} (statement : ScheduleStatement clock store next)
    (aligned : Aligned id baseline everySecs store) : Aligned id baseline everySecs next := by
  obtain ⟨⟨schedule, there, named, every, steps, based⟩, boundaries⟩ := aligned
  cases statement with
  | created request first checked _ new schedules occurrences =>
    refine ⟨⟨schedule, schedules ▸ List.mem_append_left _ there, named, every, steps, based⟩, ?_⟩
    exact occurrences ▸ boundaries
  | switched change alike schedules occurrences =>
    refine ⟨⟨change schedule, schedules ▸ List.mem_map_of_mem there,
      (alike schedule).id.trans named, (alike schedule).everySecs.trans every, steps,
      (alike schedule).baseline.trans based⟩, ?_⟩
    exact occurrences ▸ boundaries
  | advanced where? state reason moves schedules occurrences =>
    refine ⟨⟨schedule, schedules ▸ there, named, every, steps, based⟩, ?_⟩
    intro occurrence member own
    rw [occurrences] at member
    obtain ⟨before, stored, _, schedule, due, _⟩ := occurrence_advanced member
    rw [due]
    exact boundaries before stored (schedule.symm.trans own)
  | fired row stored now due turns clocked positive boundary past latest minted schedules
      occurrences =>
    by_cases same : schedule.id = row.id
    · obtain rfl := store.schedules.eq_of_key there stored same
      have reached : due = baseline + (steps + turns : Nat) * everySecs := by
        rw [boundary, based, every]
        push_cast
        ring
      constructor
      · refine ⟨_, schedules ▸ List.mem_map_of_mem there, ?_⟩
        rw [if_pos rfl]
        exact ⟨named, every, steps + turns, reached⟩
      · intro occurrence member own
        rcases occurrences with added | unchanged
        · rw [added, List.mem_append, List.mem_singleton] at member
          rcases member with present | rfl
          · exact boundaries occurrence present own
          · exact ⟨steps + turns, by omega, reached⟩
        · exact boundaries occurrence (unchanged ▸ member) own
    · constructor
      · refine ⟨_, schedules ▸ List.mem_map_of_mem there, ?_⟩
        rw [if_neg same]
        exact ⟨named, every, steps, based⟩
      · intro occurrence member own
        rcases occurrences with added | unchanged
        · rw [added, List.mem_append, List.mem_singleton] at member
          rcases member with present | rfl
          · exact boundaries occurrence present own
          · exact absurd (named.trans own.symm) same
        · exact boundaries occurrence (unchanged ▸ member) own

/-- The changes of one transaction. -/
abbrev ScheduleStatements (clock : Option ClockReading) : ScheduleStore → ScheduleStore → Prop :=
  Relation.ReflTransGen (ScheduleStatement clock)

variable {clock : Option ClockReading}

theorem ScheduleStatements.keeps {kept : ScheduleStore → Prop}
    (statements : ScheduleStatements clock store next)
    (each : ∀ store next, ScheduleStatement clock store next → kept store → kept next)
    (before : kept store) : kept next := by
  induction statements with
  | refl => exact before
  | tail _ statement ih => exact each _ _ statement ih

theorem ScheduleStatements.sound (statements : ScheduleStatements clock store next)
    (sound : store.Sound) : next.Sound :=
  statements.keeps (fun _ _ statement => statement.sound) sound

/-- An occurrence that is new was due by the clock, at the latest boundary of its schedule. -/
def Clocked (clock : Option ClockReading) (store next : ScheduleStore) : Prop :=
  ∀ occurrence ∈ next.occurrences.rows,
    (∃ before ∈ store.occurrences.rows, before.id = occurrence.id) ∨
      ∃ now, clock = some now ∧ occurrence.dueAt ≤ now.val ∧
        ∃ row ∈ next.schedules.rows, row.id = occurrence.scheduleId ∧
          now.val < occurrence.dueAt + row.everySecs

/-- A schedule stays, with its interval. -/
theorem ScheduleStatement.schedule {row : ScheduleRow}
    (statement : ScheduleStatement clock store next) (stored : row ∈ store.schedules.rows) :
    ∃ after ∈ next.schedules.rows, after.id = row.id ∧ after.everySecs = row.everySecs := by
  cases statement with
  | created request baseline checked based new schedules occurrences =>
    exact ⟨row, schedules ▸ List.mem_append_left _ stored, rfl, rfl⟩
  | switched change alike schedules occurrences =>
    exact ⟨change row, schedules ▸ List.mem_map_of_mem stored, (alike row).id,
      (alike row).everySecs⟩
  | advanced where? state reason moves schedules occurrences =>
    exact ⟨row, schedules ▸ stored, rfl, rfl⟩
  | fired fires there now due steps clocked positive boundary past latest minted schedules
      occurrences =>
    refine ⟨_, schedules ▸ List.mem_map_of_mem stored, ?_⟩
    split
    · exact ⟨rfl, rfl⟩
    · exact ⟨rfl, rfl⟩

theorem ScheduleStatements.clocked (statements : ScheduleStatements clock store next) :
    Clocked clock store next := by
  induction statements with
  | refl => exact fun occurrence member => Or.inl ⟨occurrence, member, rfl⟩
  | @tail middle last _ statement ih =>
    have earlier (occurrence before : Occurrence) (present : before ∈ middle.occurrences.rows)
        (id : occurrence.id = before.id) (schedule : occurrence.scheduleId = before.scheduleId)
        (due : occurrence.dueAt = before.dueAt) :
        (∃ before ∈ store.occurrences.rows, before.id = occurrence.id) ∨
          ∃ now, clock = some now ∧ occurrence.dueAt ≤ now.val ∧
            ∃ row ∈ last.schedules.rows, row.id = occurrence.scheduleId ∧
              now.val < occurrence.dueAt + row.everySecs := by
      rcases ih before present with old | ⟨now, clocked, past, row, stored, owns, latest⟩
      · exact Or.inl (id ▸ old)
      · obtain ⟨after, there, same, every⟩ := statement.schedule stored
        exact Or.inr ⟨now, clocked, due ▸ past, after, there, by rw [same, owns, schedule],
          by rw [due, every]; exact latest⟩
    intro occurrence member
    cases statement with
    | created request baseline checked based new schedules occurrences =>
      exact earlier occurrence occurrence (occurrences ▸ member) rfl rfl rfl
    | switched change alike schedules occurrences =>
      exact earlier occurrence occurrence (occurrences ▸ member) rfl rfl rfl
    | advanced where? state reason moves schedules occurrences =>
      rw [occurrences] at member
      obtain ⟨before, stored, id, schedule, due, _⟩ := occurrence_advanced member
      exact earlier occurrence before stored id schedule due
    | fired row stored now due steps clocked positive boundary past latest minted schedules
        occurrences =>
      rcases occurrences with added | unchanged
      · rw [added, List.mem_append, List.mem_singleton] at member
        rcases member with present | rfl
        · exact earlier occurrence occurrence present rfl rfl rfl
        · refine Or.inr ⟨now, clocked, past, _, schedules ▸ List.mem_map_of_mem stored, ?_⟩
          rw [if_pos rfl]
          exact ⟨rfl, latest⟩
      · exact earlier occurrence occurrence (unchanged ▸ member) rfl rfl rfl

end Statements

section Transactions

variable {store next : ScheduleStore}

/-- A creation that overflows, and no other. -/
theorem schedulesCreate_overflow_iff (store : ScheduleStore) (request : NewSchedule) :
    schedulesCreate store request = .error .overflow ↔
      request.check = .ok () ∧
        ∃ start, request.startAt = some start ∧ start.val - request.everySecs < i64Least := by
  have refusal {α : Type} (result : Result α) : orRefuse result ≠ .error .overflow := by
    cases result <;> exact nofun
  have insertion {Row : Type} {Clash : Row → Row → Prop} (table : Option (Table Row Clash)) :
      orFail table (Stop.refused dbError) ≠ .error .overflow := by
    cases table <;> exact nofun
  unfold schedulesCreate
  constructor
  · intro overflowed
    rcases bind_eq_error_iff.mp overflowed with early | ⟨_, passed, overflowed⟩
    · exact absurd early (refusal _)
    have checked : request.check = .ok () := by
      cases result : request.check with
      | ok => rfl
      | error reason => rw [result] at passed; cases passed
    obtain ⟨least, _⟩ := NewSchedule.check_ok checked
    refine ⟨checked, ?_⟩
    rcases bind_eq_error_iff.mp overflowed with based | ⟨_, _, overflowed⟩
    · unfold NewSchedule.initialBaseline at based
      split at based
      · rename_i start asked
        refine ⟨start, asked, ?_⟩
        by_contra fits
        have upTo := start.property.2
        unfold minIntervalSecs at least
        rw [inI64_eq_ok (by omega) (by omega)] at based
        cases based
      · cases based
    rcases bind_eq_error_iff.mp overflowed with owned | ⟨_, _, overflowed⟩
    · cases (require_eq_error_iff.mp owned).2
    rcases bind_eq_error_iff.mp overflowed with stored | ⟨_, _, overflowed⟩
    · exact absurd stored (insertion _)
    rcases bind_eq_error_iff.mp overflowed with stored | ⟨_, _, overflowed⟩
    · exact absurd stored (insertion _)
    cases overflowed
  · rintro ⟨checked, start, asked, least⟩
    have based : request.initialBaseline = .error .overflow := by
      unfold NewSchedule.initialBaseline
      rw [asked]
      exact if_neg fun within => absurd within.1 (by omega)
    rw [checked, based]
    rfl

theorem schedulesCreate_ok {request : NewSchedule} {id : Uuid}
    (created : schedulesCreate store request = .ok (next, id)) :
    ∃ baseline, request.initialBaseline = .ok baseline ∧
      ScheduleStatement none store next ∧
      (next.schedules.rows = store.schedules.rows ++ [request.row baseline]) ∧
      next.occurrences = store.occurrences ∧
      ∀ row ∈ store.schedules.rows, row.id ≠ request.scheduleId := by
  unfold schedulesCreate at created
  obtain ⟨_, checked, created⟩ := bind_eq_ok_iff.mp created
  obtain ⟨baseline, based, created⟩ := bind_eq_ok_iff.mp created
  obtain ⟨_, _, created⟩ := bind_eq_ok_iff.mp created
  obtain ⟨schedules, inserted, created⟩ := bind_eq_ok_iff.mp created
  obtain ⟨revisions, _, created⟩ := bind_eq_ok_iff.mp created
  obtain ⟨rfl, rfl⟩ := Prod.mk.inj (pure_eq_ok_iff.mp created)
  obtain ⟨fits, rows⟩ := Table.insert?_eq_some_iff.mp (orFail_eq_ok_iff.mp inserted)
  have passed : request.check = .ok () := by
    unfold orRefuse at checked
    cases result : request.check with
    | ok => rfl
    | error reason =>
      rw [result] at checked
      cases checked
  exact ⟨baseline, based, .created request baseline passed based fits rows rfl, rows, rfl, fits⟩

theorem schedulesSetEnabled_ok {owner id : Uuid} {enabled : Bool}
    (switched : schedulesSetEnabled store owner id enabled = .ok next) :
    ScheduleStatements none store next ∧
      (enabled = false → ∀ occurrence ∈ store.occurrences.rows, occurrence.scheduleId = id →
        occurrence.state = .queued → Spent occurrence.id next) := by
  unfold schedulesSetEnabled at switched
  obtain ⟨_, _, switched⟩ := bind_eq_ok_iff.mp switched
  obtain rfl := pure_eq_ok_iff.mp switched
  have first : ScheduleStatement none store { store with
      schedules := store.schedules.updateWhere (fun row => row.id = id && row.owner = owner)
        (fun row => { row with enabled }) fun _ => rfl } := by
    refine .switched _ ?_ rfl rfl
    intro row
    dsimp only
    split <;> exact ⟨rfl, rfl, rfl⟩
  cases enabled with
  | true => exact ⟨.single first, nofun⟩
  | false =>
    refine ⟨.tail (.single first) (.advanced _ .cancelled _ nofun rfl rfl), ?_⟩
    intro _ occurrence present own queued
    refine ⟨_, List.mem_map_of_mem present, ?_⟩
    simp [own, queued]

/-- One schedule's turn of a tick. -/
theorem materialize_cases (sound : store.Sound) {row : ScheduleRow}
    (stored : row ∈ store.schedules.rows) (now : ClockReading) (minted : Uuid) :
    (∃ next, materialize store now minted row = .ok next ∧
      ScheduleStatements (some now) store next ∧
      (∀ other ∈ store.schedules.rows, other.id ≠ row.id → other ∈ next.schedules.rows) ∧
      ∀ occurrence ∈ next.occurrences.rows,
        occurrence ∈ store.occurrences.rows ∨ occurrence.id = minted) ∨
    materialize store now minted row = .error (.refused dbError) ∧
      ∃ occurrence ∈ store.occurrences.rows, occurrence.id = minted := by
  unfold materialize
  rcases dueBoundary?_cases (sound.rows row stored) now with idle |
    ⟨steps, due, fires, positive, boundary, past, latest⟩
  · rw [idle]
    exact Or.inl ⟨store, rfl, .refl, fun _ present _ => present, fun _ present => Or.inl present⟩
  · rw [fires]
    simp only [ok_bind]
    have interval : row.everySecs ≤ steps * row.everySecs :=
      le_mul_of_one_le_left (by have := (sound.rows row stored).least; unfold minIntervalSecs at this; omega)
        (by exact_mod_cast positive)
    have others (change : ScheduleRow → ScheduleRow) (other : ScheduleRow)
        (present : other ∈ store.schedules.rows) (different : other.id ≠ row.id) :
        other ∈ store.schedules.rows.map fun other => if other.id = row.id then change other else other :=
      List.mem_map.mpr ⟨other, present, if_neg different⟩
    unfold ScheduleStore.insertOccurrence
    split
    · refine Or.inl ⟨_, rfl, .single ?_, ?_, fun _ present => Or.inl present⟩
      · refine .fired row stored now due steps rfl positive boundary past latest minted ?_ (Or.inr rfl)
        simp
      · intro other present different
        simpa using others _ other present different
    · rename_i unrequested
      generalize new : Occurrence.mk minted row.id row.currentRevision due .queued none
        (occurrenceRequest row.id due) now = occurrence at unrequested
      have named : occurrence.id = minted := by rw [← new]
      by_cases fits : store.occurrences.Fits occurrence
      · obtain ⟨occurrences, inserted, rows⟩ := Table.exists_insert? fits
        rw [inserted]
        refine Or.inl ⟨_, rfl, .single ?_, ?_, ?_⟩
        · refine .fired row stored now due steps rfl positive boundary past latest minted ?_ (Or.inl ?_)
          · simp
          · rw [new]
            exact rows
        · intro other present different
          simpa using others _ other present different
        · intro other member
          change other ∈ occurrences.rows at member
          rw [rows, List.mem_append, List.mem_singleton] at member
          rcases member with old | same
          · exact Or.inl old
          · exact Or.inr (same.symm ▸ named)
      · have refused : store.occurrences.insert? occurrence = none := dif_neg fits
        rw [refused]
        refine Or.inr ⟨rfl, ?_⟩
        simp only [Table.Fits, not_forall, not_not] at fits
        obtain ⟨other, present, clash⟩ := fits
        rcases clash with same | same | ⟨schedule, _, sameDue⟩
        · exact ⟨other, present, same.trans named⟩
        · exact absurd (List.any_eq_true.mpr ⟨other, present, decide_eq_true same⟩) unrequested
        · obtain ⟨owner, there, id, within⟩ := sound.owned other present
          rw [← new] at schedule sameDue
          obtain rfl := store.schedules.eq_of_key there stored (id.trans schedule)
          change other.dueAt = due at sameDue
          omega

/-- A tick goes through the schedules it has read, whatever becomes of the others. -/
theorem materializeEach_cases (now : ClockReading) (mint : Nat → Uuid) {rest : List ScheduleRow}
    (apart : rest.Pairwise fun earlier later => later.id ≠ earlier.id) {turn : Nat}
    {store : ScheduleStore} (sound : store.Sound) (stored : ∀ row ∈ rest, row ∈ store.schedules.rows) :
    (∃ next, materializeEach now mint turn rest store = .ok next ∧
      ScheduleStatements (some now) store next) ∨
    materializeEach now mint turn rest store = .error (.refused dbError) ∧
      ¬ (mint.Injective ∧
        ∀ later, turn ≤ later → ∀ occurrence ∈ store.occurrences.rows, occurrence.id ≠ mint later) := by
  induction rest generalizing turn store with
  | nil => exact Or.inl ⟨store, rfl, .refl⟩
  | cons row rest ih =>
    obtain ⟨different, apart⟩ := List.pairwise_cons.mp apart
    rcases materialize_cases sound (stored row List.mem_cons_self) now (mint turn) with
      ⟨middle, done, statements, others, minted⟩ | ⟨refused, occurrence, present, used⟩
    · have remaining (other : ScheduleRow) (member : other ∈ rest) :
          other ∈ middle.schedules.rows :=
        others other (stored other (List.mem_cons_of_mem _ member)) (different other member)
      have shape : materializeEach now mint turn (row :: rest) store =
          materializeEach now mint (turn + 1) rest middle := by
        rw [materializeEach, done, ok_bind]
      rw [shape]
      rcases ih apart (statements.sound sound) remaining with ⟨next, rests, later⟩ | ⟨fails, clash⟩
      · exact Or.inl ⟨next, rests, statements.trans later⟩
      · refine Or.inr ⟨fails, ?_⟩
        rintro ⟨injective, fresh⟩
        refine clash ⟨injective, fun later after occurrence member => ?_⟩
        rcases minted occurrence member with old | new
        · exact fresh later (by omega) occurrence old
        · intro same
          have again := injective (new.symm.trans same)
          omega
    · refine Or.inr ⟨?_, ?_⟩
      · rw [materializeEach, refused]
        rfl
      · rintro ⟨_, fresh⟩
        exact fresh turn (Nat.le_refl _) occurrence present used

/-- A tick materializes, unless one of its identities is taken. -/
theorem schedulesMaterializeDue_cases (sound : store.Sound) (now : ClockReading)
    (mint : Nat → Uuid) :
    (∃ next, schedulesMaterializeDue store now mint = .ok next ∧
      ScheduleStatements (some now) store next) ∨
    schedulesMaterializeDue store now mint = .error (.refused dbError) ∧
      ¬ (mint.Injective ∧ ∀ turn, ∀ occurrence ∈ store.occurrences.rows,
        occurrence.id ≠ mint turn) := by
  have apart : (store.schedules.rows.filter fun row => row.enabled && !row.paused).Pairwise
      fun earlier later => later.id ≠ earlier.id :=
    (store.schedules.distinct.filter _).imp fun apart same => apart same.symm
  have cases := @materializeEach_cases now mint _ apart 0 store sound
    fun row member => (List.mem_filter.mp member).1
  simpa [schedulesMaterializeDue] using cases

/-- A claim takes a queued occurrence of a schedule that is enabled and not paused. -/
theorem schedulesClaimDueOccurrence_ok {now : ClockReading} {claimed? : Option ClaimedOccurrence}
    (claims : schedulesClaimDueOccurrence store now = .ok (next, claimed?)) :
    ScheduleStatements none store next ∧
      ∀ claimed, claimed? = some claimed →
        Spent claimed.occurrenceId next ∧
        ∃ occurrence ∈ store.occurrences.rows, occurrence.id = claimed.occurrenceId ∧
          occurrence.state = .queued ∧ occurrence.dueAt ≤ now.val ∧
          ∃ schedule ∈ store.schedules.rows, schedule.id = occurrence.scheduleId ∧
            schedule.enabled = true ∧ schedule.paused = false := by
  unfold schedulesClaimDueOccurrence at claims
  dsimp only at claims
  split at claims
  · obtain ⟨rfl, rfl⟩ := Prod.mk.inj (pure_eq_ok_iff.mp claims)
    exact ⟨.refl, fun _ none => by cases none⟩
  · rename_i occurrence found
    obtain ⟨revision, _, claims⟩ := bind_eq_ok_iff.mp claims
    obtain ⟨schedule, _, claims⟩ := bind_eq_ok_iff.mp claims
    obtain ⟨rfl, rfl⟩ := Prod.mk.inj (pure_eq_ok_iff.mp claims)
    have member := List.mem_mergeSort.mp (List.mem_of_mem_head? found)
    obtain ⟨present, claimable⟩ := List.mem_filter.mp member
    unfold ScheduleStore.claimable at claimable
    simp only [Bool.and_eq_true, decide_eq_true_eq, Option.any_eq_true] at claimable
    obtain ⟨⟨queued, due⟩, owner, looked, enabled, unpaused⟩ := claimable
    obtain ⟨there, owns⟩ := (Table.lookup_eq_some_iff _ _ _).mp looked
    refine ⟨.single (.advanced _ .running none (fun same => by cases same) rfl rfl), ?_⟩
    rintro claimed ⟨⟩
    refine ⟨⟨_, List.mem_map_of_mem present, ?_⟩, occurrence, present, rfl, queued, due, owner, there,
      owns, enabled, by simpa using unpaused⟩
    simp [queued]

theorem schedulesCompleteOccurrence_ok {occurrenceId attemptId : Uuid} {succeeded : Bool}
    {resultRef failureClass : Option String} {now : ClockReading}
    (completed : schedulesCompleteOccurrence store occurrenceId succeeded resultRef failureClass
      attemptId now = .ok next) : ScheduleStatement none store next := by
  unfold schedulesCompleteOccurrence at completed
  obtain ⟨_, _, completed⟩ := bind_eq_ok_iff.mp completed
  obtain ⟨attempts, _, completed⟩ := bind_eq_ok_iff.mp completed
  obtain rfl := pure_eq_ok_iff.mp completed
  refine .advanced (fun row => row.id = occurrenceId) (if succeeded then .succeeded else .failed) none
    ?_ rfl rfl
  cases succeeded <;> exact nofun

/-- What a call has but an overflow. -/
theorem require_ne_overflow {condition : Prop} [Decidable condition] {error : HubError} :
    require condition (Stop.refused error) ≠ .error .overflow := by
  unfold require
  split <;> exact nofun

theorem orFail_ne_overflow {value? : Option α} {error : HubError} :
    orFail value? (Stop.refused error) ≠ .error .overflow := by
  cases value? <;> exact nofun

theorem setEnabled_ne_overflow (store : ScheduleStore) (owner id : Uuid) (enabled : Bool) :
    schedulesSetEnabled store owner id enabled ≠ .error .overflow := by
  intro overflowed
  unfold schedulesSetEnabled at overflowed
  rcases bind_eq_error_iff.mp overflowed with early | ⟨_, _, overflowed⟩
  · exact require_ne_overflow early
  · cases overflowed

theorem claimDue_ne_overflow (store : ScheduleStore) (now : ClockReading) :
    schedulesClaimDueOccurrence store now ≠ .error .overflow := by
  intro overflowed
  unfold schedulesClaimDueOccurrence at overflowed
  dsimp only at overflowed
  split at overflowed
  · cases overflowed
  · rcases bind_eq_error_iff.mp overflowed with early | ⟨_, _, overflowed⟩
    · exact orFail_ne_overflow early
    rcases bind_eq_error_iff.mp overflowed with early | ⟨_, _, overflowed⟩
    · exact orFail_ne_overflow early
    cases overflowed

theorem complete_ne_overflow (store : ScheduleStore) (occurrenceId attemptId : Uuid)
    (succeeded : Bool) (resultRef failureClass : Option String) (now : ClockReading) :
    schedulesCompleteOccurrence store occurrenceId succeeded resultRef failureClass attemptId now ≠
      .error .overflow := by
  intro overflowed
  unfold schedulesCompleteOccurrence at overflowed
  rcases bind_eq_error_iff.mp overflowed with early | ⟨_, _, overflowed⟩
  · exact require_ne_overflow early
  rcases bind_eq_error_iff.mp overflowed with early | ⟨_, _, overflowed⟩
  · exact orFail_ne_overflow early
  cases overflowed

/-- The clock that a transaction materializes by. -/
def ScheduleOp.clock? : ScheduleOp → Option ClockReading
  | .materializeDue now _ => some now
  | _ => none

/-- A start lies an interval after the least instant, if the creation gets that far. -/
def ScheduleOp.InRange : ScheduleOp → Prop
  | .create request => request.check = .ok () →
    ∀ start, request.startAt = some start → i64Least ≤ start.val - request.everySecs
  | _ => True

theorem perform_statements {op : ScheduleOp} (sound : store.Sound)
    (performed : op.perform store = .ok next) : ScheduleStatements op.clock? store next := by
  cases op with
  | create request =>
    obtain ⟨id, created⟩ := map_fst_eq_ok_iff.mp performed
    obtain ⟨_, _, statement, _⟩ := schedulesCreate_ok created
    exact .single statement
  | setEnabled owner id enabled => exact (schedulesSetEnabled_ok performed).1
  | materializeDue now mint =>
    rcases schedulesMaterializeDue_cases sound now mint with ⟨other, done, statements⟩ | ⟨refused, _⟩
    · obtain rfl := Except.ok.inj (done.symm.trans performed)
      exact statements
    · exact nomatch refused.symm.trans performed
  | claimDue now =>
    obtain ⟨claimed?, claims⟩ := map_fst_eq_ok_iff.mp performed
    exact (schedulesClaimDueOccurrence_ok claims).1
  | complete occurrenceId succeeded resultRef failureClass attemptId now =>
    exact .single (schedulesCompleteOccurrence_ok performed)

theorem perform_ne_overflow {op : ScheduleOp} (sound : store.Sound) (inRange : op.InRange) :
    op.perform store ≠ .error .overflow := by
  have mapped {α β : Type} {result : Except Stop (α × β)} (never : result ≠ .error .overflow) :
      result.map Prod.fst ≠ .error .overflow := by
    cases result with
    | ok => exact nofun
    | error reason => exact fun same => never (congrArg Except.error (Except.error.inj same))
  cases op with
  | create request =>
    refine mapped fun overflowed => ?_
    obtain ⟨checked, start, asked, least⟩ :=
      (schedulesCreate_overflow_iff store request).mp overflowed
    have fits := inRange checked start asked
    omega
  | setEnabled owner id enabled => exact setEnabled_ne_overflow store owner id enabled
  | materializeDue now mint =>
    rcases schedulesMaterializeDue_cases sound now mint with ⟨other, done, _⟩ | ⟨refused, _⟩
    · exact fun overflowed => nomatch done.symm.trans overflowed
    · exact fun overflowed => nomatch refused.symm.trans overflowed
  | claimDue now => exact mapped (claimDue_ne_overflow store now)
  | complete occurrenceId succeeded resultRef failureClass attemptId now =>
    exact complete_ne_overflow store occurrenceId attemptId succeeded resultRef failureClass now

/-- A transaction in range has a store after it, and got there by its statements. -/
theorem step_statements {op : ScheduleOp} (sound : store.Sound) (inRange : op.InRange) :
    ∃ next, ScheduleStore.step (some store) op = some next ∧
      ScheduleStatements op.clock? store next := by
  unfold ScheduleStore.step
  rw [Option.bind_some]
  cases performed : op.perform store with
  | ok next => exact ⟨next, rfl, perform_statements sound performed⟩
  | error stop =>
    cases stop with
    | overflow => exact absurd performed (perform_ne_overflow sound inRange)
    | refused error => exact ⟨store, rfl, .refl⟩

end Transactions

end OHHive.LocalHub
