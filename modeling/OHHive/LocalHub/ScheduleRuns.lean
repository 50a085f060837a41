import OHHive.Foundation.Run
import OHHive.LocalHub.ScheduleMoves

/-! Occurrences fire once. Over any order of the transactions of ticks, owners and runs, a schedule
gets its boundaries in order, an occurrence is claimed once and not after it was cancelled, and no
sum overflows as long as no start lies within one interval of the least instant. -/

namespace OHHive.LocalHub

open Foundation

section Runs

variable {ops : List ScheduleOp}

def schedulesAt (ops : List ScheduleOp) : Nat → Option ScheduleStore :=
  stateAt ScheduleStore.step (some .empty) ops

theorem sound_empty : ScheduleStore.empty.Sound := ⟨nofun, nofun, .nil⟩

theorem sound_schedulesAt (inRange : ∀ op ∈ ops, op.InRange) (count : Nat) :
    ∃ store, schedulesAt ops count = some store ∧ store.Sound := by
  apply stateAt_invariant ScheduleStore.step _ ops
    (fun state => ∃ store, state = some store ∧ store.Sound) ⟨_, rfl, sound_empty⟩
  rintro _ op member ⟨store, rfl, sound⟩
  obtain ⟨next, stepped, statements⟩ := step_statements sound (inRange op member)
  exact ⟨next, stepped, statements.sound sound⟩

/-- The neighbours of a run: a transaction by its statements, or rest. -/
theorem schedulesAt_next (inRange : ∀ op ∈ ops, op.InRange) {moment : Nat} {store : ScheduleStore}
    (reached : schedulesAt ops moment = some store) (sound : store.Sound) :
    ∃ next, schedulesAt ops (moment + 1) = some next ∧
      (next = store ∨ ∃ op, ops[moment]? = some op ∧ ScheduleStatements op.clock? store next) := by
  rcases stateAt_next ScheduleStore.step (some .empty) ops moment with
    ⟨op, present, step⟩ | ⟨_, rest⟩
  · obtain ⟨next, stepped, statements⟩ :=
      step_statements sound (inRange op (List.mem_of_getElem? present))
    refine ⟨next, ?_, Or.inr ⟨op, present, statements⟩⟩
    unfold schedulesAt at reached ⊢
    rw [step, reached, stepped]
  · exact ⟨store, rest.trans reached, Or.inl rfl⟩

/-- What every statement keeps lasts from one moment of a run to any later one. -/
theorem kept_schedulesAt (inRange : ∀ op ∈ ops, op.InRange) {kept : ScheduleStore → Prop}
    (each : ∀ clock store next, ScheduleStatement clock store next → kept store → kept next)
    {earlier later : Nat} (ordered : earlier ≤ later) {store last : ScheduleStore}
    (reached : schedulesAt ops earlier = some store) (holds : kept store)
    (present : schedulesAt ops later = some last) : kept last := by
  have stays (moment : Nat) (before : ∀ store, schedulesAt ops moment = some store → kept store) :
      ∀ store, schedulesAt ops (moment + 1) = some store → kept store := by
    intro after now
    obtain ⟨store, reached, sound⟩ := sound_schedulesAt inRange moment
    obtain ⟨next, stepped, moved⟩ := schedulesAt_next inRange reached sound
    obtain rfl := Option.some.inj (stepped.symm.trans now)
    rcases moved with rfl | ⟨op, _, statements⟩
    · exact before _ reached
    · exact statements.keeps (each _) (before store reached)
  refine holds_from (fun moment => ∀ store, schedulesAt ops moment = some store → kept store) stays
    ordered ?_ last present
  intro other same
  obtain rfl := Option.some.inj (reached.symm.trans same)
  exact holds

/-- A claim of the run takes the occurrence. -/
def ClaimedAt (ops : List ScheduleOp) (moment : Nat) (id : Uuid) : Prop :=
  ∃ now store next claimed, ops[moment]? = some (.claimDue now) ∧ schedulesAt ops moment = some store ∧
    schedulesClaimDueOccurrence store now = .ok (next, some claimed) ∧ claimed.occurrenceId = id

theorem spent_after_claim {moment : Nat} {id : Uuid} (claimed : ClaimedAt ops moment id) :
    ∃ next, schedulesAt ops (moment + 1) = some next ∧ Spent id next := by
  obtain ⟨now, store, next, taken, present, reached, claims, rfl⟩ := claimed
  refine ⟨next, ?_, ((schedulesClaimDueOccurrence_ok claims).2 taken rfl).1⟩
  refine (stateAt_succ ScheduleStore.step (some .empty) present).trans ?_
  change ScheduleStore.step (schedulesAt ops moment) _ = _
  rw [reached]
  simp [ScheduleStore.step, ScheduleOp.perform, claims, Except.map]

/-- What is spent at one moment is not claimed from then on. -/
theorem not_claimed_of_spent (inRange : ∀ op ∈ ops, op.InRange) {earlier later : Nat}
    (ordered : earlier ≤ later) {store : ScheduleStore} {id : Uuid}
    (reached : schedulesAt ops earlier = some store) (spent : Spent id store) :
    ¬ ClaimedAt ops later id := by
  rintro ⟨now, last, next, claimed, _, present, claims, rfl⟩
  obtain ⟨occurrence, there, same, started⟩ :=
    kept_schedulesAt inRange (fun _ _ _ statement => statement.spent) ordered reached spent present
  obtain ⟨_, other, stored, id, queued, _⟩ := (schedulesClaimDueOccurrence_ok claims).2 claimed rfl
  obtain rfl := last.occurrences.eq_of_clash
    (by
      rintro first second (clash | clash | ⟨schedule, revision, due⟩)
      · exact Or.inl clash.symm
      · exact Or.inr (Or.inl clash.symm)
      · exact Or.inr (Or.inr ⟨schedule.symm, revision.symm, due.symm⟩))
    there stored (Or.inl (same.trans id.symm))
  exact started queued

/-- What holds of the schedules over a whole run of ticks, owners and workers. -/
structure FiresOnce (ops : List ScheduleOp) : Prop where
  total : ∀ count, ∃ store, schedulesAt ops count = some store
  boundaries : ∀ moment request store next id, ops[moment]? = some (.create request) →
    schedulesAt ops moment = some store → schedulesCreate store request = .ok (next, id) →
    ∃ baseline, request.initialBaseline = .ok baseline ∧
      ∀ later last, moment < later → schedulesAt ops later = some last →
        ∀ occurrence ∈ last.occurrences.rows, occurrence.scheduleId = request.scheduleId →
          ∃ steps : Nat, 1 ≤ steps ∧ occurrence.dueAt = baseline + steps * request.everySecs
  increasing : ∀ count store, schedulesAt ops count = some store →
    store.occurrences.rows.Pairwise fun earlier later =>
      earlier.scheduleId = later.scheduleId → earlier.dueAt < later.dueAt
  clocked : ∀ moment op store next, ops[moment]? = some op → schedulesAt ops moment = some store →
    schedulesAt ops (moment + 1) = some next → Clocked op.clock? store next
  claimedOnce : ∀ earlier later id, earlier < later → ClaimedAt ops earlier id →
    ¬ ClaimedAt ops later id
  enabled : ∀ moment id store, ClaimedAt ops moment id → schedulesAt ops moment = some store →
    ∃ occurrence ∈ store.occurrences.rows, occurrence.id = id ∧ occurrence.state = .queued ∧
      ∃ schedule ∈ store.schedules.rows, schedule.id = occurrence.scheduleId ∧
        schedule.enabled = true ∧ schedule.paused = false
  cancelled : ∀ earlier later owner id store next, earlier < later →
    ops[earlier]? = some (.setEnabled owner id false) → schedulesAt ops earlier = some store →
    schedulesSetEnabled store owner id false = .ok next →
    ∀ occurrence ∈ store.occurrences.rows, occurrence.scheduleId = id →
      occurrence.state = .queued → ¬ ClaimedAt ops later occurrence.id
  others : ∀ count store now mint, schedulesAt ops count = some store → mint.Injective →
    (∀ turn, ∀ occurrence ∈ store.occurrences.rows, occurrence.id ≠ mint turn) →
    ∃ next, schedulesMaterializeDue store now mint = .ok next

/-- The store behind a transaction that succeeds. -/
theorem schedulesAt_performed {moment : Nat} {op : ScheduleOp} {store next : ScheduleStore}
    (present : ops[moment]? = some op) (reached : schedulesAt ops moment = some store)
    (performed : op.perform store = .ok next) : schedulesAt ops (moment + 1) = some next := by
  refine (stateAt_succ ScheduleStore.step (some .empty) present).trans ?_
  change ScheduleStore.step (schedulesAt ops moment) _ = _
  rw [reached]
  simp [ScheduleStore.step, performed]

/-- Occurrences fire once, as long as no schedule is to start within one interval of the least
instant; the creation of one that is overflows. -/
theorem schedules_fire_once (ops : List ScheduleOp) (inRange : ∀ op ∈ ops, op.InRange) :
    FiresOnce ops ∧ ∀ store request,
      schedulesCreate store request = .error .overflow ↔ ¬ (ScheduleOp.create request).InRange := by
  constructor
  · constructor
    · intro count
      obtain ⟨store, reached, _⟩ := sound_schedulesAt inRange count
      exact ⟨store, reached⟩
    · intro moment request store next id present reached created
      obtain ⟨baseline, based, statement, rows, occurrences, new⟩ := schedulesCreate_ok created
      obtain ⟨other, same, sound⟩ := sound_schedulesAt inRange moment
      obtain rfl := Option.some.inj (same.symm.trans reached)
      have after : schedulesAt ops (moment + 1) = some next :=
        schedulesAt_performed present reached (map_fst_eq_ok_iff.mpr ⟨id, created⟩)
      have aligned : Aligned request.scheduleId baseline request.everySecs next := by
        constructor
        · exact ⟨request.row baseline, rows ▸ List.mem_append_right _ (List.mem_singleton_self _),
            rfl, rfl, 0, by simp [ScheduleRow.baseline, NewSchedule.row]⟩
        · intro occurrence member own
          rw [occurrences] at member
          obtain ⟨row, stored, id, _⟩ := sound.owned occurrence member
          exact absurd (id.trans own) (new row stored)
      refine ⟨baseline, based, fun later last before present => ?_⟩
      exact (kept_schedulesAt inRange (fun _ _ _ statement => statement.aligned) before after aligned
        present).occurrences
    · intro count store reached
      obtain ⟨other, same, sound⟩ := sound_schedulesAt inRange count
      obtain rfl := Option.some.inj (same.symm.trans reached)
      exact sound.ordered
    · intro moment op store next present reached after
      obtain ⟨other, same, sound⟩ := sound_schedulesAt inRange moment
      obtain rfl := Option.some.inj (same.symm.trans reached)
      obtain ⟨last, stepped, moved⟩ := schedulesAt_next inRange reached sound
      obtain rfl := Option.some.inj (stepped.symm.trans after)
      rcases moved with rfl | ⟨other, there, statements⟩
      · exact fun occurrence member => Or.inl ⟨occurrence, member, rfl⟩
      · obtain rfl := Option.some.inj (there.symm.trans present)
        exact statements.clocked
    · intro earlier later id before claimed
      obtain ⟨next, after, spent⟩ := spent_after_claim claimed
      exact not_claimed_of_spent inRange before after spent
    · rintro moment id store ⟨now, other, next, claimed, _, same, claims, rfl⟩ reached
      obtain rfl := Option.some.inj (same.symm.trans reached)
      obtain ⟨_, occurrence, stored, named, queued, _, schedule⟩ :=
        (schedulesClaimDueOccurrence_ok claims).2 claimed rfl
      exact ⟨occurrence, stored, named, queued, schedule⟩
    · intro earlier later owner id store next before present reached switched occurrence stored own
        queued
      have spent := (schedulesSetEnabled_ok switched).2 rfl occurrence stored own queued
      exact not_claimed_of_spent inRange before (schedulesAt_performed present reached switched) spent
    · intro count store now mint reached injective fresh
      obtain ⟨other, same, sound⟩ := sound_schedulesAt inRange count
      obtain rfl := Option.some.inj (same.symm.trans reached)
      rcases schedulesMaterializeDue_cases sound now mint with ⟨next, done, _⟩ | ⟨_, taken⟩
      · exact ⟨next, done⟩
      · exact absurd ⟨injective, fresh⟩ taken
  · intro store request
    rw [schedulesCreate_overflow_iff]
    simp only [ScheduleOp.InRange, not_forall, not_le, exists_prop]

end Runs

section Examples

/-- A minute's schedule that is to start at a given instant. -/
def minuteSchedule (start : I64) : NewSchedule :=
  ⟨1, "minutes", 2, "look around", 60, some start, 3, 4, ⟨0, by decide⟩, some 1⟩

theorem schedules_fire_once_minute :
    FiresOnce [.create (minuteSchedule ⟨0, by decide⟩), .materializeDue ⟨90, by decide⟩ (⟨· + 9⟩),
      .claimDue ⟨90, by decide⟩] :=
  (schedules_fire_once _ (by
    intro op member
    rcases List.mem_cons.mp member with rfl | member
    · rintro _ start ⟨⟩
      decide
    · rcases List.mem_cons.mp member with rfl | member
      · exact True.intro
      · obtain rfl := List.mem_singleton.mp member
        exact True.intro)).1

/-- A start at the least instant is accepted by the checks, and its baseline overflows. -/
theorem least_start_overflows :
    (minuteSchedule ⟨i64Least, by decide⟩).check = .ok () ∧
      schedulesAt [.create (minuteSchedule ⟨i64Least, by decide⟩)] 1 = none := by
  have checked : (minuteSchedule ⟨i64Least, by decide⟩).check = .ok () := by decide
  refine ⟨checked, ?_⟩
  have overflows := (schedulesCreate_overflow_iff .empty (minuteSchedule ⟨i64Least, by decide⟩)).mpr
    ⟨checked, _, rfl, by decide⟩
  have next : schedulesAt [.create (minuteSchedule ⟨i64Least, by decide⟩)] 1 =
      ScheduleStore.step (some .empty) (.create (minuteSchedule ⟨i64Least, by decide⟩)) := rfl
  rw [next]
  simp [ScheduleStore.step, ScheduleOp.perform, overflows, Except.map]

end Examples

end OHHive.LocalHub
