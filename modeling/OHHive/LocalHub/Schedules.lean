import Mathlib.Data.List.Sort
import OHHive.Coder.Wire
import OHHive.Foundation.Table

/-! Schedules of a local hub. A tick turns every schedule that is due into one occurrence at its
latest boundary, and claims queued occurrences one at a time. -/

namespace OHHive.LocalHub

open Foundation

section Instants

def i64Least : Int := -2 ^ 63

def i64Greatest : Int := 2 ^ 63 - 1

/-- An instant that a caller may ask for. -/
abbrev I64 : Type := { value : Int // i64Least ≤ value ∧ value ≤ i64Greatest }

/-- A reading of `Utc::now().timestamp()`; `chrono` has no years beyond 262143. -/
abbrev ClockReading : Type := { value : Int // -10 ^ 13 ≤ value ∧ value ≤ 10 ^ 13 }

/-- A call stops at a sum that overflows, or is refused. -/
inductive Stop where
  | overflow
  | refused (error : HubError)
deriving DecidableEq, Repr

def inI64 (value : Int) : Except Stop Int :=
  if i64Least ≤ value ∧ value ≤ i64Greatest then .ok value else .error .overflow

/-- The answer of a call that only refuses. -/
def orRefuse (result : Result α) : Except Stop α := result.mapError .refused

end Instants

section Tables

/-- A schedule, with its recurrence `{"every_secs": …}` read. -/
structure ScheduleRow where
  id : Uuid
  owner : Uuid
  name : String
  currentRevision : Uuid
  everySecs : Int
  enabled : Bool
  paused : Bool
  lastMaterializedThrough : Option Int
  createdAt : Int
deriving DecidableEq, Repr

structure ScheduleRevision where
  id : Uuid
  scheduleId : Uuid
  message : String
  agentId : Uuid
deriving DecidableEq, Repr

inductive OccurrenceState where
  | queued
  | running
  | succeeded
  | failed
  | cancelled
deriving DecidableEq, Repr

structure Occurrence where
  id : Uuid
  scheduleId : Uuid
  revisionId : Uuid
  dueAt : Int
  state : OccurrenceState
  reason : Option String
  requestId : Text
  createdAt : Int
deriving DecidableEq, Repr

structure ScheduleAttempt where
  id : Uuid
  occurrenceId : Uuid
  endedAt : Int
  failureClass : Option String
  resultRef : Option String
deriving DecidableEq, Repr

/-- `UNIQUE(schedule_id, revision_number)`, of which there is only the first. -/
def ScheduleRevision.Clash (earlier later : ScheduleRevision) : Prop :=
  earlier.id = later.id ∨ earlier.scheduleId = later.scheduleId

instance : DecidableRel ScheduleRevision.Clash :=
  fun _ _ => inferInstanceAs (Decidable (_ ∨ _))

def Occurrence.Clash (earlier later : Occurrence) : Prop :=
  earlier.id = later.id ∨ earlier.requestId = later.requestId ∨
    earlier.scheduleId = later.scheduleId ∧ earlier.revisionId = later.revisionId ∧
      earlier.dueAt = later.dueAt

instance : DecidableRel Occurrence.Clash :=
  fun _ _ => inferInstanceAs (Decidable (_ ∨ _ ∨ _ ∧ _ ∧ _))

/-- `UNIQUE(occurrence_id, attempt_number)`, of which there is only the first. -/
def ScheduleAttempt.Clash (earlier later : ScheduleAttempt) : Prop :=
  earlier.id = later.id ∨ earlier.occurrenceId = later.occurrenceId

instance : DecidableRel ScheduleAttempt.Clash :=
  fun _ _ => inferInstanceAs (Decidable (_ ∨ _))

structure ScheduleStore where
  schedules : Table ScheduleRow (Table.SameKey ScheduleRow.id)
  revisions : Table ScheduleRevision ScheduleRevision.Clash
  occurrences : Table Occurrence Occurrence.Clash
  attempts : Table ScheduleAttempt ScheduleAttempt.Clash

def ScheduleStore.empty : ScheduleStore := ⟨.empty, .empty, .empty, .empty⟩

/-- `UPDATE` of the state of some occurrences. -/
def ScheduleStore.setState (store : ScheduleStore) (where? : Occurrence → Bool)
    (state : OccurrenceState) (reason : Option String) : ScheduleStore :=
  { store with
    occurrences := store.occurrences.update
      (fun row => if where? row then { row with state, reason := reason <|> row.reason } else row)
      (by
        intro earlier later clash
        unfold Occurrence.Clash at clash ⊢
        split at clash <;> split at clash <;> exact clash) }

end Tables

section Creating

/-- What a schedule is created from: the call, its minted identities, its clock, and the owner of
the agent if that is not archived. -/
structure NewSchedule where
  owner : Uuid
  name : String
  agentId : Uuid
  message : String
  everySecs : Int
  startAt : Option I64
  scheduleId : Uuid
  revisionId : Uuid
  now : ClockReading
  agentOwner : Option Uuid

def minIntervalSecs : Int := 60

def maxIntervalSecs : Int := 30 * 24 * 3600

/-- One interval before the first occurrence. -/
def NewSchedule.initialBaseline (r : NewSchedule) : Except Stop Int :=
  match r.startAt with
  | some start => inI64 (start.val - r.everySecs)
  | none => .ok r.now.val

/-- The request is checked before anything is stored. -/
def NewSchedule.check (r : NewSchedule) : Result Unit := do
  checkText r.name 200
  checkText r.message 8000
  require (minIntervalSecs ≤ r.everySecs ∧ r.everySecs ≤ maxIntervalSecs)
    (rejected "schedule interval must be between 60 seconds and 30 days")

def NewSchedule.row (r : NewSchedule) (baseline : Int) : ScheduleRow :=
  ⟨r.scheduleId, r.owner, r.name, r.revisionId, r.everySecs, true, false, some baseline, r.now⟩

def schedulesCreate (store : ScheduleStore) (r : NewSchedule) :
    Except Stop (ScheduleStore × Uuid) := do
  orRefuse r.check
  let baseline ← r.initialBaseline
  require (r.agentOwner = some r.owner) (.refused (rejected "no such agent for this account"))
  let schedules ← orFail (store.schedules.insert? (r.row baseline)) (.refused dbError)
  let revisions ← orFail (store.revisions.insert?
    ⟨r.revisionId, r.scheduleId, r.message, r.agentId⟩) (.refused dbError)
  return ({ store with schedules, revisions }, r.scheduleId)

/-- Disabling cancels what has not started yet. -/
def schedulesSetEnabled (store : ScheduleStore) (owner id : Uuid) (enabled : Bool) :
    Except Stop ScheduleStore := do
  let mine := fun row : ScheduleRow => row.id = id && row.owner = owner
  require (store.schedules.rows.any mine = true)
    (.refused (rejected "no such schedule for this account"))
  let store := { store with
    schedules := store.schedules.updateWhere mine (fun row => { row with enabled }) fun _ => rfl }
  return if enabled then store
    else store.setState (fun row => row.scheduleId = id && row.state = .queued) .cancelled
      (some "schedule disabled")

end Creating

section Ticking

/-- `while next + every_secs <= now_ts`; every turn takes a second at least. -/
def fastForward (everySecs now : Int) : Nat → Int → Except Stop Int
  | 0, next => .ok next
  | turns + 1, next => do
    let after ← inI64 (next + everySecs)
    if after ≤ now then fastForward everySecs now turns after else return next

/-- The boundary that is due, if one is. -/
def ScheduleRow.dueBoundary? (row : ScheduleRow) (now : Int) : Except Stop (Option Int) := do
  require (0 < row.everySecs) (.refused (rejected "stored recurrence is invalid"))
  let next ← inI64 (row.lastMaterializedThrough.getD row.createdAt + row.everySecs)
  if next > now then return none
  else return some (← fastForward row.everySecs now (now - next).toNat next)

def printInt (value : Int) : Text := (toString value).toList

/-- The key of an occurrence: its schedule and its boundary. -/
def occurrenceRequest (scheduleId : Uuid) (due : Int) : Text :=
  "sched:".toList ++ Coder.uuidText scheduleId ++ ':' :: printInt due

/-- `INSERT … ON CONFLICT(request_id) DO NOTHING`. -/
def ScheduleStore.insertOccurrence (store : ScheduleStore) (row : Occurrence) :
    Except Stop ScheduleStore :=
  if store.occurrences.rows.any (·.requestId = row.requestId) then .ok store
  else do
    let occurrences ← orFail (store.occurrences.insert? row) (.refused dbError)
    return { store with occurrences }

/-- One schedule that is due gets one occurrence. -/
def materialize (store : ScheduleStore) (now : Int) (minted : Uuid) (row : ScheduleRow) :
    Except Stop ScheduleStore := do
  match ← row.dueBoundary? now with
  | none => return store
  | some due =>
    let store ← store.insertOccurrence
      ⟨minted, row.id, row.currentRevision, due, .queued, none, occurrenceRequest row.id due, now⟩
    return { store with
      schedules := store.schedules.updateWhere (·.id = row.id)
        (fun row => { row with lastMaterializedThrough := some due }) fun _ => rfl }

/-- The due schedules one after the other, each with a minted identity. -/
def materializeEach (now : Int) (mint : Nat → Uuid) :
    Nat → List ScheduleRow → ScheduleStore → Except Stop ScheduleStore
  | _, [], store => .ok store
  | turn, row :: rest, store => do
    let store ← materialize store now (mint turn) row
    materializeEach now mint (turn + 1) rest store

def schedulesMaterializeDue (store : ScheduleStore) (now : ClockReading) (mint : Nat → Uuid) :
    Except Stop ScheduleStore :=
  materializeEach now mint 0 (store.schedules.rows.filter fun row => row.enabled && !row.paused)
    store

structure ClaimedOccurrence where
  occurrenceId : Uuid
  owner : Uuid
  agentId : Uuid
  message : String
deriving DecidableEq, Repr

/-- Queued, due, and of a schedule that is enabled and not paused. -/
def ScheduleStore.claimable (store : ScheduleStore) (now : Int) (row : Occurrence) : Bool :=
  row.state = .queued && row.dueAt ≤ now &&
    (store.schedules.lookup row.scheduleId).any fun schedule => schedule.enabled && !schedule.paused

/-- The claim takes the occurrence that has been due longest. -/
def schedulesClaimDueOccurrence (store : ScheduleStore) (now : ClockReading) :
    Except Stop (ScheduleStore × Option ClaimedOccurrence) := do
  let found := ((store.occurrences.rows.filter (store.claimable now)).mergeSort
    (·.dueAt ≤ ·.dueAt)).head?
  match found with
  | none => return (store, none)
  | some row =>
    let claimed := store.setState (fun other => other.id = row.id && other.state = .queued)
      .running none
    let revision ← orFail (store.revisions.rows.find? (·.id = row.revisionId)) (.refused dbError)
    let schedule ← orFail (store.schedules.lookup revision.scheduleId) (.refused dbError)
    return (claimed, some ⟨row.id, schedule.owner, revision.agentId, revision.message⟩)

def schedulesCompleteOccurrence (store : ScheduleStore) (occurrenceId : Uuid) (succeeded : Bool)
    (resultRef failureClass : Option String) (attemptId : Uuid) (now : ClockReading) :
    Except Stop ScheduleStore := do
  let completed := store.setState (·.id = occurrenceId)
    (if succeeded then .succeeded else .failed) none
  require (store.occurrences.rows.any (·.id = occurrenceId) = true) (.refused dbError)
  let attempts ← orFail
    (store.attempts.insert? ⟨attemptId, occurrenceId, now, failureClass, resultRef⟩)
    (.refused dbError)
  return { completed with attempts }

end Ticking

section Runs

/-- A transaction on the schedules. -/
inductive ScheduleOp where
  | create (request : NewSchedule)
  | setEnabled (owner id : Uuid) (enabled : Bool)
  | materializeDue (now : ClockReading) (mint : Nat → Uuid)
  | claimDue (now : ClockReading)
  | complete (occurrenceId : Uuid) (succeeded : Bool) (resultRef failureClass : Option String)
      (attemptId : Uuid) (now : ClockReading)

def ScheduleOp.perform (store : ScheduleStore) : ScheduleOp → Except Stop ScheduleStore
  | .create request => (schedulesCreate store request).map Prod.fst
  | .setEnabled owner id enabled => schedulesSetEnabled store owner id enabled
  | .materializeDue now mint => schedulesMaterializeDue store now mint
  | .claimDue now => (schedulesClaimDueOccurrence store now).map Prod.fst
  | .complete occurrenceId succeeded resultRef failureClass attemptId now =>
    schedulesCompleteOccurrence store occurrenceId succeeded resultRef failureClass attemptId now

/-- The store after a transaction; none when it overflowed. A refused one changes nothing. -/
def ScheduleStore.step (state : Option ScheduleStore) (op : ScheduleOp) : Option ScheduleStore :=
  state.bind fun store =>
    match op.perform store with
    | .ok next => some next
    | .error (.refused _) => some store
    | .error .overflow => none

end Runs

end OHHive.LocalHub
