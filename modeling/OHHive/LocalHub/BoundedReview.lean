import Mathlib.Combinatorics.Enumerative.DoubleCounting
import Mathlib.Order.Interval.Finset.Nat
import OHHive.LocalHub.TaskWire
import OHHive.LocalHub.WorkflowSteps

/-! A review workflow in any run of the hub: its turns, how many tasks it stages, how it ends, and
what it leaves behind. -/

namespace OHHive.LocalHub

open Foundation

section Turns

variable {staging : Staging} {turn : Turn} {turns : Nat → Turn} {hub : WorkflowHub}
  {row : WorkflowRow} {flow : ReviewWorkflow} {flows first second : List ReviewWorkflow}

/-- What a workflow may wait for: the preparation it recorded, or a run that goes on. -/
inductive Waits (turn : Turn) (hub : WorkflowHub) (flow : ReviewWorkflow) (card : Card) : Prop
  | preparation (row : PreparationRow)
      (blocked : card.status = .blocked ∧ card.reason = some waiting)
      (found : hub.store.preparationOf card.id = some row) (recorded : row.id = flow.preparation)
  | run (run : PrivateRun) (status : PrivateRunStatus)
      (begun : card.status = .ready ∨ card.status = .running ∨ card.status = .waitingOnChild)
      (current : hub.store.board.privateRuns.rows.find? (isCurrentRun hub.store.board card.id) =
        some run)
      (read : runStatus hub.store.board run.id (turn.clock 1) = .ok status)
      (ongoing : status.state = .queued ∨ status.state = .running)
      (unstopped : status.stopRequested = false)

/-- There is nothing new for a workflow: it is in time, it may still work, and it waits. -/
structure Resting (staging : Staging) (turn : Turn) (hub : WorkflowHub) (flow : ReviewWorkflow) :
    Prop where
  early : turn.clock 0 < flow.deadline
  waits : ∃ card submission, hub.store.board.card? flow.currentTask = some card ∧
    card.data.submitted staging.format (rejected "invalid workflow coding task")
      (rejected "invalid workflow coding task") = .ok submission ∧
    staging.around.verifyTarget flow.owner submission.targetNodeId = .ok () ∧
    staging.around.assignment card.data = .ok () ∧ Waits turn hub flow card

theorem save_eq_self (stored : row ∈ hub.workflows.rows) (sound : row.Sound) :
    hub.save row.data = hub := by
  have unchanged : ∀ other ∈ hub.workflows.rows, other.saved row.data = other := by
    intro other inHub
    unfold WorkflowRow.saved
    split
    · rename_i same
      obtain rfl := WorkflowHub.eq_of_id inHub stored (same.trans sound.id.symm)
      rfl
    · rfl
  rw [WorkflowHub.save, Table.update_eq_self _ unchanged]

/-- A workflow for which there is nothing new is left as it is. -/
theorem advance_of_resting (stored : row ∈ hub.workflows.rows) (sound : row.Sound)
    (resting : Resting staging turn hub row.data) :
    advance staging turn hub row.data = .ok hub := by
  obtain ⟨early, card, submission, found, submitted, target, assigned, waits⟩ := resting
  have same := save_eq_self stored sound
  have before : ¬ row.data.deadline ≤ turn.clock 0 := by omega
  rw [advance, if_neg before, proceed, found]
  simp only [orFail, submitted, target, assigned, bind, Except.bind]
  cases waits with
  | preparation preparation blocked known recorded =>
    have recorded : { row.data with preparation := preparation.id } = row.data := by
      rw [recorded]
    rw [if_neg (by simp [blocked.1]), if_pos blocked, awaitPreparation, known]
    simp only [recorded, same]
    rfl
  | run run status begun current read ongoing unstopped =>
    have unfinished : ¬ (card.status = .review ∨ card.status = .done) := by
      rcases begun with status | status | status <;> simp [status]
    have unblocked : card.status ≠ .blocked := by
      rcases begun with status | status | status <;> simp [status]
    rw [if_neg unfinished, if_neg (fun blocked => unblocked blocked.1),
      if_neg (fun blocked => unblocked blocked.1), watchRun, current]
    simp only [orFail, read, bind, Except.bind]
    rw [if_neg (by simp [ongoing, unstopped]), same]
    rfl

/-- The turn of an active workflow in a poll: in the hub as the turns before its own left it. -/
structure HasTurn (staging : Staging) (turn : Turn) (before final : WorkflowHub)
    (row : WorkflowRow) : Prop where
  stored : row ∈ before.workflows.rows
  advanced : ∀ next, advance staging turn before row.data = .ok next →
    advanceOne staging turn before row.data = next ∧
      ∃ later ∈ next.workflows.rows, RowMove row later ∧ later ∈ final.workflows.rows
  failed : ∀ error, advance staging turn before row.data = .error error →
    advanceOne staging turn before row.data =
        before.stop row.data .blocked ("Workflow stopped: " ++ error.text) turn.failedAt ∧
      { row with
        data :=
          { row.data with
            state := .blocked
            reason := some ("Workflow stopped: " ++ error.text) } } ∈ final.workflows.rows
  resting : Resting staging turn before row.data →
    advanceOne staging turn before row.data = before

/-- The turns of some workflows leave the others to theirs. -/
theorem Awaiting.after (index : Nat) (awaiting : Awaiting hub (first ++ second))
    (sound : ∀ row ∈ hub.workflows.rows, row.Sound) :
    Awaiting (advanceEach staging turns index first hub) second := by
  induction first generalizing hub index with
  | nil => exact awaiting
  | cons flow rest ih =>
    obtain ⟨row, stored, rfl⟩ := awaiting.read flow List.mem_cons_self
    obtain ⟨moved, effect⟩ : ∃ moved,
        TurnEffect hub (advanceOne staging (turns index) hub row.data) row.data moved :=
      turnEffect_advanceOne (awaiting.active row.data List.mem_cons_self)
    exact ih (index + 1) (awaiting.rest effect stored sound) (effect.sound stored sound)

theorem Awaiting.earlier (awaiting : Awaiting hub (first ++ second)) : Awaiting hub first :=
  ⟨fun flow member => awaiting.read flow (List.mem_append_left _ member),
    fun flow member => awaiting.active flow (List.mem_append_left _ member),
    (List.pairwise_append.mp awaiting.once).1⟩

/-- Whatever came of the turns before it, a workflow has its own. -/
theorem hasTurn_advanceEach (awaiting : Awaiting hub (first ++ row.data :: second))
    (sound : ∀ row ∈ hub.workflows.rows, row.Sound)
    (slots : ∀ id, (hub.store.board.slot id).Sound) (stored : row ∈ hub.workflows.rows) :
    HasTurn staging (turns first.length) (advanceEach staging turns 0 first hub)
      (advanceEach staging turns 0 (first ++ row.data :: second) hub) row := by
  have polled : Polled hub (advanceEach staging turns 0 first hub) first :=
    polled_advanceEach 0 awaiting.earlier sound slots
  have later : Awaiting (advanceEach staging turns 0 first hub) (row.data :: second) :=
    awaiting.after 0 sound
  rw [advanceEach_append, Nat.zero_add, advanceEach]
  generalize advanceEach staging turns 0 first hub = before at polled later ⊢
  have inBefore : row ∈ before.workflows.rows := by
    apply polled.others row stored
    intro flow member
    rw [(sound row stored).id]
    exact fun same => (List.pairwise_append.mp awaiting.once).2.2 flow member row.data
      List.mem_cons_self same.symm
  have rowSound := polled.sound row inBefore
  have active := later.active row.data List.mem_cons_self
  have keeps : ∀ {next : WorkflowHub} {moved : ReviewWorkflow}, TurnEffect before next row.data moved →
      { row with data := moved } ∈
        (advanceEach staging turns (first.length + 1) second next).workflows.rows := by
    intro next moved effect
    have rest : Polled next (advanceEach staging turns (first.length + 1) second next) second :=
      polled_advanceEach _ (later.rest effect inBefore polled.sound)
        (effect.sound inBefore polled.sound)
        (fun id => (effect.kept.slots id).sound ((polled.board.slots id).sound (slots id)))
    refine rest.others _ ((effect.rows inBefore rowSound _).mpr (Or.inl rfl)) fun flow member => ?_
    change row.id ≠ _
    rw [rowSound.id]
    exact (List.pairwise_cons.mp later.once).1 flow member
  refine ⟨inBefore, ?_, ?_, ?_⟩
  · intro next done
    have moved : advanceOne staging (turns first.length) before row.data = next := by
      rw [advanceOne, done]
    obtain ⟨data, effect⟩ := turnEffect_advance active done
    refine ⟨moved, { row with data }, (effect.rows inBefore rowSound _).mpr (Or.inl rfl),
      effect.moved.rowMove active, ?_⟩
    rw [moved]
    exact keeps effect
  · intro error failed
    have stopped : advanceOne staging (turns first.length) before row.data =
        before.stop row.data .blocked ("Workflow stopped: " ++ error.text)
          (turns first.length).failedAt := by
      rw [advanceOne, failed]
    refine ⟨stopped, ?_⟩
    rw [stopped]
    exact keeps (turnEffect_stop before row.data blocked_ne_active _ _)
  · intro resting
    rw [advanceOne, advance_of_resting inBefore rowSound resting]

end Turns

section Claims

variable {hub next : WorkflowHub} {run : PrivateRun}

/-- A session that was given the run is leased its card. -/
def Claimable (hub : WorkflowHub) (operation : OperationId) : Prop :=
  ∃ (around : Surroundings) (session : Session) (clock : Nat → Int) (board : Board)
    (claimed : Claimed), session.runScope = some operation ∧
      claimCard (hub.store.surround around) hub.store.board session clock =
        .ok (board, .leased claimed)

/-- Nobody can claim the run any more, then or later. -/
def Over (board : Board) (run : PrivateRun) : Prop :=
  (board.slot run.cardId).Finished ∨ Halted board run.id

theorem Over.of_kept {board later : Board} (isOver : Over board run) (kept : BoardKept board later) :
    Over later run := by
  rcases isOver with finished | halted
  · exact Or.inl ((kept.slots run.cardId).finished finished)
  · exact Or.inr (halted.of_grows kept.grows)

theorem Shut.over {board : Board} (shut : Shut board run.cardId)
    (stored : run ∈ board.privateRuns.rows) : Over board run := by
  rcases shut with finished | ⟨halted, _⟩
  · exact Or.inl finished
  · exact Or.inr (halted run stored rfl)

theorem not_claimable_of_over (isOver : Over hub.store.board run) {stored : PrivateRun}
    (found : hub.store.board.privateRuns.lookup run.id = some stored)
    (same : stored.cardId = run.cardId) : ¬ Claimable hub run.id := by
  rintro ⟨around, session, clock, board, claimed, scope, done⟩
  rcases leases_of_claimCard done with ⟨_, unleased⟩ | ⟨card, _, _, leases⟩
  · exact unleased claimed rfl
  · have settles : BoardKept hub.store.board (settle hub.store.board (clock 0) (clock 1)) :=
      boardKept_step ⟨.settle, around, clock⟩ hub.store.board
    have startable := startable_of_allowsClaim scope leases.allowed
    obtain ⟨queued, inBoard, identity, own, _⟩ := startable.queued
    obtain ⟨later, kept, sameCard, _⟩ := settles.grows.runs run.id stored found
    rw [(Table.lookup_eq_some_iff _ _ _).mpr ⟨inBoard, identity⟩] at kept
    obtain rfl := Option.some.inj kept
    rcases isOver.of_kept settles with finished | halted
    · obtain ⟨other, member, status⟩ := finished.card
      have leased := Board.card?_eq_some_iff.mpr ⟨leases.leasedTo.stored, rfl⟩
      have asked : card.id = run.cardId := own.symm.trans (sameCard.trans same)
      rw [asked] at leased
      obtain rfl := Option.some.inj (leased.symm.trans member)
      rw [leases.leasedTo.ready] at status
      cases status
    · rcases halted with ⟨stop, recorded, equal⟩ | ⟨retry, recorded, equal⟩
      · exact startable.unstopped stop recorded equal
      · exact startable.current retry recorded equal

end Claims

section Runs

variable {events : List WorkflowEvent} {moment : Nat}

theorem WorkflowHub.sound_empty : WorkflowHub.empty.Sound :=
  ⟨fun _ member => (nomatch member), fun _ _ member => (nomatch member),
    fun _ member => (nomatch member), fun _ => Nat.zero_le _⟩

theorem sound_run (events : List WorkflowEvent) (moment : Nat) : (hubAt events moment).Sound :=
  stateAt_invariant WorkflowHub.step WorkflowHub.empty events WorkflowHub.Sound
    WorkflowHub.sound_empty (fun _ event _ sound => (hubMove_step sound event).2) moment

theorem hubMove_next (events : List WorkflowEvent) (moment : Nat) :
    HubMove (hubAt events moment) (hubAt events (moment + 1)) := by
  unfold hubAt
  rcases stateAt_next WorkflowHub.step WorkflowHub.empty events moment with
    ⟨event, _, next⟩ | ⟨_, next⟩
  · rw [next]
    exact (hubMove_step (sound_run events moment) event).1
  · rw [next]
    exact HubMove.refl _

theorem hubKept_run (events : List WorkflowEvent) {first second : Nat} (ordered : first ≤ second) :
    HubKept (hubAt events first) (hubAt events second) :=
  relates_of_neighbours HubKept HubKept.refl (fun _ _ _ => HubKept.trans) (hubAt events)
    (fun moment => (hubMove_next events moment).toHubKept) ordered

/-- A workflow at two moments of a run. -/
theorem rowMove_run {first second : Nat} {row later : WorkflowRow} (ordered : first ≤ second)
    (stored : row ∈ (hubAt events first).workflows.rows)
    (stored' : later ∈ (hubAt events second).workflows.rows) (same : later.id = row.id) :
    RowMove row later := by
  obtain ⟨other, inLater, move⟩ := (hubKept_run events ordered).rows row stored
  obtain rfl := WorkflowHub.eq_of_id inLater stored' (move.id.trans same.symm)
  exact move

/-- Finished work has its output and no worker, and stays so. -/
structure FinishedStays (events : List WorkflowEvent) : Prop where
  sound : ∀ moment id, ((hubAt events moment).store.board.slot id).Sound
  stays : ∀ first second id, first ≤ second →
    ((hubAt events first).store.board.slot id).Finished →
    ((hubAt events second).store.board.slot id).Finished

/-- In every run of the hub, its polls, stagings and preparations leave finished work alone. -/
theorem finished_stays (events : List WorkflowEvent) : FinishedStays events where
  sound moment := (sound_run events moment).slots
  stays _ _ id ordered := ((hubKept_run events ordered).board.slots id).finished

/-- The tasks that a workflow had as its current one, up to a moment. -/
def tasksOf (events : List WorkflowEvent) (id : Uuid) (counts : ReviewWorkflow → Bool)
    (moment : Nat) : Finset CardId :=
  ((List.range (moment + 1)).filterMap (fun earlier =>
    (((hubAt events earlier).workflow? id).filter (fun row => counts row.data)).map
      (fun row => row.data.currentTask))).toFinset

theorem exists_of_mem_tasksOf {id : Uuid} {counts : ReviewWorkflow → Bool} {task : CardId}
    (member : task ∈ tasksOf events id counts moment) :
    ∃ earlier ≤ moment, ∃ row ∈ (hubAt events earlier).workflows.rows,
      row.id = id ∧ counts row.data = true ∧ row.data.currentTask = task := by
  obtain ⟨earlier, inRange, found⟩ := List.mem_filterMap.mp (List.mem_toFinset.mp member)
  obtain ⟨row, selected, current⟩ := Option.map_eq_some_iff.mp found
  obtain ⟨stored, counted⟩ := Option.filter_eq_some_iff.mp selected
  unfold WorkflowHub.workflow? at stored
  have same := List.find?_some stored
  exact ⟨earlier, Nat.lt_succ_iff.mp (List.mem_range.mp inRange), row,
    List.mem_of_find?_eq_some stored, of_decide_eq_true same, counted, current⟩

/-- A workflow has one task in each of its stages. -/
theorem card_tasksOf_le {row : WorkflowRow} (stored : row ∈ (hubAt events moment).workflows.rows)
    (counts : ReviewWorkflow → Bool) (stages : Finset Nat)
    (within : ∀ earlier : WorkflowRow, earlier.Sound → earlier.data.request = row.data.request →
      counts earlier.data = true → earlier.data.stage ≠ 0 → earlier.data.stage ∈ stages) :
    ((tasksOf events row.id counts moment).erase row.source).card ≤ stages.card := by
  apply Finset.card_le_card_of_forall_subsingleton (fun task stage => ∃ earlier ≤ moment,
    ∃ other ∈ (hubAt events earlier).workflows.rows, other.id = row.id ∧
      other.data.currentTask = task ∧ other.data.stage = stage)
  · intro task member
    obtain ⟨apart, member⟩ := Finset.mem_erase.mp member
    obtain ⟨earlier, upTo, other, inRows, same, counted, current⟩ := exists_of_mem_tasksOf member
    have sound := (sound_run events earlier).rows other inRows
    have move := rowMove_run upTo inRows stored same.symm
    have begun : other.data.stage ≠ 0 := by
      intro first
      exact apart (current.symm.trans ((sound.first first).trans move.source.symm))
    exact ⟨other.data.stage, within other sound move.request.symm counted begun, earlier, upTo, other,
      inRows, same, current, rfl⟩
  · rintro stage _ task ⟨_, earlier, _, other, inRows, same, current, reached⟩ task'
      ⟨_, earlier', _, other', inRows', same', current', reached'⟩
    rcases Nat.le_total earlier earlier' with ordered | ordered
    · have move := rowMove_run ordered inRows inRows' (same'.trans same.symm)
      rw [← current, ← current', move.task (reached'.trans reached.symm)]
    · have move := rowMove_run ordered inRows' inRows (same.trans same'.symm)
      rw [← current, ← current', move.task (reached.trans reached'.symm)]

theorem card_tasks_le {row : WorkflowRow} (stored : row ∈ (hubAt events moment).workflows.rows) :
    ((tasksOf events row.id (fun _ => true) moment).erase row.source).card ≤
      2 * row.data.request.maxCorrections + 1 := by
  have within := card_tasksOf_le stored (fun _ => true)
    (Finset.Icc 1 (2 * row.data.request.maxCorrections + 1)) (by
      intro earlier sound same _ begun
      have corrections := sound.corrections
      rw [same] at corrections
      have upper : earlier.data.stage ≤ 2 * earlier.data.corrections + 1 := by
        unfold ReviewWorkflow.stage
        split <;> omega
      exact Finset.mem_Icc.mpr (by omega))
  simpa using within

theorem card_corrections_le {row : WorkflowRow}
    (stored : row ∈ (hubAt events moment).workflows.rows) :
    ((tasksOf events row.id (fun flow => !flow.checking) moment).erase row.source).card ≤
      row.data.request.maxCorrections := by
  have within := card_tasksOf_le stored (fun flow => !flow.checking)
    ((Finset.Icc 1 row.data.request.maxCorrections).image (2 * ·)) (by
      intro earlier sound same coding begun
      have corrections := sound.corrections
      rw [same] at corrections
      have exactly : earlier.data.stage = 2 * earlier.data.corrections := by
        simp only [Bool.not_eq_true'] at coding
        simp [ReviewWorkflow.stage, coding]
      refine Finset.mem_image.mpr ⟨earlier.data.corrections, Finset.mem_Icc.mpr ?_, exactly.symm⟩
      omega)
  exact within.trans (Finset.card_image_le.trans (by simp))

/-- A workflow that is no longer active never changes again. -/
theorem ended_run {earlier : Nat} {row : WorkflowRow} (ordered : earlier ≤ moment)
    (stored : row ∈ (hubAt events earlier).workflows.rows) (ended : row.data.state ≠ .active) :
    row ∈ (hubAt events moment).workflows.rows := by
  obtain ⟨later, inLater, move⟩ := (hubKept_run events ordered).rows row stored
  exact move.ended ended ▸ inLater

/-- Every active workflow of an owner has its turn in a poll. -/
theorem hasTurn_run (events : List WorkflowEvent) (moment : Nat) (staging : Staging)
    (turns : Nat → Turn) (owner : String) {row : WorkflowRow}
    (active : row ∈ (hubAt events moment).activeRows owner) :
    ∃ earlier later, (hubAt events moment).activeFlows owner = earlier ++ row.data :: later ∧
      HasTurn staging (turns earlier.length)
        (advanceEach staging turns 0 earlier (hubAt events moment))
        (advanceOwner staging turns (hubAt events moment) owner) row := by
  have sound := sound_run events moment
  obtain ⟨earlier, later, split⟩ := List.append_of_mem active
  have flows : (hubAt events moment).activeFlows owner =
      earlier.map WorkflowRow.data ++ row.data :: later.map WorkflowRow.data := by
    rw [WorkflowHub.activeFlows, split, List.map_append, List.map_cons]
  have awaiting := sound.awaiting owner
  rw [flows] at awaiting
  refine ⟨earlier.map WorkflowRow.data, later.map WorkflowRow.data, flows, ?_⟩
  rw [sound.advanceOwner, flows]
  exact hasTurn_advanceEach awaiting sound.rows sound.slots (List.mem_filter.mp active).1

/-- A poll that finds nothing new for any workflow changes nothing. -/
theorem poll_rests {session : Session} {poll : Poll} {event : WorkflowEvent} {owner : String}
    {hub : WorkflowHub} (sound : hub.Sound) (asked : event.op = .poll session poll)
    (verified : event.staging.around.verifiedOwner session.node = .ok owner)
    (resting : ∀ row ∈ hub.activeRows owner, ∀ index,
      Resting event.staging (event.turns index) hub row.data) : hub.step event = hub := by
  have same : advanceOwner event.staging event.turns hub owner = hub := by
    rw [sound.advanceOwner]
    have rests : ∀ (rows : List WorkflowRow) (index : Nat), (∀ row ∈ rows, row ∈ hub.activeRows owner) →
        advanceEach event.staging event.turns index (rows.map WorkflowRow.data) hub = hub := by
      intro rows
      induction rows with
      | nil => exact fun _ _ => rfl
      | cons row rest ih =>
        intro index within
        have active := within row List.mem_cons_self
        have stored := (List.mem_filter.mp active).1
        rw [List.map_cons, advanceEach, advanceOne,
          advance_of_resting stored (sound.rows row stored) (resting row active index)]
        exact ih (index + 1) (fun other member => within other (List.mem_cons_of_mem _ member))
    exact rests (hub.activeRows owner) 0 (fun _ => id)
  unfold WorkflowHub.step WorkflowEvent.reply
  rw [asked]
  simp only [pollWorkflows, verified, same, bind, Except.bind]
  cases poll.reads event.staging hub session owner (event.clock 0) <;> rfl

/-- What the review workflows of one run of the hub do. -/
structure BoundedReview (events : List WorkflowEvent) : Prop where
  bounded : ∀ moment, ∀ row ∈ (hubAt events moment).workflows.rows,
    row.data.corrections ≤ row.data.request.maxCorrections ∧ row.data.request.maxCorrections ≤ 3
  corrections : ∀ moment, ∀ row ∈ (hubAt events moment).workflows.rows,
    ((tasksOf events row.id (fun flow => !flow.checking) moment).erase row.source).card ≤
      row.data.request.maxCorrections
  tasks : ∀ moment, ∀ row ∈ (hubAt events moment).workflows.rows,
    ((tasksOf events row.id (fun _ => true) moment).erase row.source).card ≤
      2 * row.data.request.maxCorrections + 1
  staged : ∀ moment event id, events[moment]? = some event → event.op.advances = true →
    (hubAt events moment).store.board.card? id = none →
    ((hubAt events (moment + 1)).store.board.card? id).isSome →
    ∃ row ∈ (hubAt events (moment + 1)).workflows.rows,
      row.data.currentTask = id ∧ row.source ≠ id
  settled : ∀ earlier moment, earlier ≤ moment → ∀ row ∈ (hubAt events earlier).workflows.rows,
    row.data.state ≠ .active → row ∈ (hubAt events moment).workflows.rows
  rests : ∀ moment (event : WorkflowEvent) session poll owner, event.op = .poll session poll →
    event.staging.around.verifiedOwner session.node = .ok owner →
    (∀ row ∈ (hubAt events moment).activeRows owner, ∀ index,
      Resting event.staging (event.turns index) (hubAt events moment) row.data) →
    (hubAt events moment).step event = hubAt events moment
  turns : ∀ moment staging turns owner, ∀ row ∈ (hubAt events moment).activeRows owner,
    ∃ earlier later, (hubAt events moment).activeFlows owner = earlier ++ row.data :: later ∧
      HasTurn staging (turns earlier.length)
        (advanceEach staging turns 0 earlier (hubAt events moment))
        (advanceOwner staging turns (hubAt events moment) owner) row
  halted : ∀ moment, ∀ row ∈ (hubAt events (moment + 1)).workflows.rows,
    row.data.state ≠ .active → row ∉ (hubAt events moment).workflows.rows →
    ∀ run ∈ (hubAt events (moment + 1)).store.board.privateRuns.rows,
      run.cardId = row.data.currentTask →
      ∀ later, moment + 1 ≤ later → ¬ Claimable (hubAt events later) run.id

/-- A workflow stages boundedly many tasks, ends once and for all, is left as it is while it waits,
has its turn whatever becomes of the others, and leaves no run of its task to claim when it ends. -/
theorem bounded_review (events : List WorkflowEvent) : BoundedReview events := by
  constructor
  · intro moment row stored
    have sound := (sound_run events moment).rows row stored
    exact ⟨sound.corrections, sound.bound⟩
  · exact fun moment row stored => card_corrections_le stored
  · exact fun moment row stored => card_tasks_le stored
  · intro moment event id present advances new stored
    have next : hubAt events (moment + 1) = (hubAt events moment).step event :=
      stateAt_succ WorkflowHub.step WorkflowHub.empty present
    rw [next] at stored ⊢
    exact staged_step (sound_run events moment) advances new stored
  · exact fun earlier moment ordered row stored ended => ended_run ordered stored ended
  · exact fun moment event session poll owner asked verified resting =>
      poll_rests (sound_run events moment) asked verified resting
  · exact fun moment staging turns owner row active =>
      hasTurn_run events moment staging turns owner active
  · intro moment row stored ended new run inBoard own later ordered
    rcases (hubMove_next events moment).leaves row stored ended with before | shut
    · exact absurd before new
    · have isOver : Over (hubAt events (moment + 1)).store.board run := by
        rw [← own] at shut
        exact shut.over inBoard
      have kept := (hubKept_run events ordered).board
      have found := (Table.lookup_eq_some_iff _ _ _).mpr ⟨inBoard, rfl⟩
      obtain ⟨stored, foundLater, same, _⟩ := kept.grows.runs run.id run found
      exact not_claimable_of_over (isOver.of_kept kept) foundLater same

end Runs

section Examples

variable (format : TaskFormat)

/-- A named coding task with one required check. -/
def codingRequest : PrivateCodeTaskRequest where
  reviewSourceTaskId := none
  requestId := 8
  projectId := 1
  targetNodeId := "laptop"
  agentId := some 5
  title := "Task"
  task := "Fix it"
  modelId := none
  maxTurns := 8
  codingThink := none
  maxAcceptanceRepairs := 0
  maxVerificationRuns := 0
  acceptance := [⟨"tests", "cargo", ["test"], none, 0, true⟩]

def codingTask : ClaimedCard :=
  { stagedTask with
    requiredCapabilities :=
      { stagedTask.requiredCapabilities with
        acceptance := String.ofList (format.checks.encode codingRequest.acceptance)
        submission := some (codingRequest.submission format) } }

def openStaging : Staging where
  around := openSurroundings
  format
  agentSnapshot _ := .ok (some "persona")
  repository _ := some ("repository", none)

def reviewRequest : ReviewWorkflowRequest :=
  ⟨40, 1, 8, "laptop", 6, "model", none, 3⟩

def mintedFrom (start index : Nat) : Uuid := ⟨start + index⟩

def openTurns (now : Int) (index : Nat) : Turn := ⟨fun _ => now, now, mintedFrom (60 + 10 * index)⟩

def WorkflowOp.at (op : WorkflowOp) (now : Int) : WorkflowEvent :=
  ⟨op, openStaging format, fun _ => now, mintedFrom 50, openTurns now⟩

/-- A coding task is staged, and its review workflow is started. -/
def startedReview : List WorkflowEvent :=
  [(WorkflowOp.store (.board (.createProject ⟨1, "P", ""⟩) (.refl false))).at format 0,
    (WorkflowOp.store (.board (.enroll "laptop") (.refl false))).at format 0,
    (WorkflowOp.store (.board (.stagePrivateCodeTask (codingTask format)) (.refl false))).at
      format 0,
    (WorkflowOp.start workerSession reviewRequest).at format 1]

def readyBoard : Board :=
  boardAt [(Op.createProject ⟨1, "P", ""⟩).at 0, (Op.enroll "laptop").at 0] 2

def stagedHub : WorkflowHub :=
  WorkflowHub.empty.withBoard
    { readyBoard with
      cards := ⟨[⟨codingTask format, .blocked, some waiting⟩], List.pairwise_singleton _ _⟩ }

def startedFlow : WorkflowRow := newWorkflow reviewRequest "owner" "persona" 1 (mintedFrom 50)

def createdHub : WorkflowHub :=
  { stagedHub format with workflows := ⟨[startedFlow], List.pairwise_singleton _ _⟩ }

/-- The workflow has requested its task's preparation. -/
def startedHub : WorkflowHub :=
  { createdHub format with
    store :=
      { (stagedHub format).store with
        preparations :=
          ⟨[⟨51, 8, "laptop", codingTask format, .queued, none, none, 1⟩],
            List.pairwise_singleton _ _⟩ } }

variable {format}

theorem submitted_codingTask (missing unread : HubError) :
    (codingTask format).submitted format missing unread = .ok codingRequest := by
  simp [codingTask, ClaimedCard.submitted, PrivateCodeTaskRequest.submission, Submission.request,
    format.submissions.decode_encode, orFail, bind, Except.bind]

theorem submitted_openStaging (missing unread : HubError) :
    (codingTask format).submitted (openStaging format).format missing unread = .ok codingRequest :=
  submitted_codingTask missing unread

theorem stagePrivateCodeTask_codingTask :
    stagePrivateCodeTask readyBoard (codingTask format) = .ok (stagedHub format).store.board := by
  have valid : validateCard (codingTask format) = .ok () := by
    have same : validateCard (codingTask format) = validateCard stagedTask := rfl
    rw [same]
    decide
  have new : readyBoard.card? (codingTask format).id = none := rfl
  rw [stagePrivateCodeTask, new]
  simp only [valid, bind, Except.bind]
  rfl

theorem hubAt_staged : hubAt (startedReview format) 3 = stagedHub format := by
  have next : hubAt (startedReview format) 3 = (WorkflowHub.empty.withBoard readyBoard).step
      ((WorkflowOp.store (.board (.stagePrivateCodeTask (codingTask format)) (.refl false))).at
        format 0) := rfl
  have staged : stagePrivateCodeTask readyBoard (codingTask format) = _ :=
    stagePrivateCodeTask_codingTask
  rw [next]
  simp only [WorkflowHub.step, WorkflowEvent.reply, WorkflowOp.at, WorkflowHub.directed,
    PreparationEvent.reply, Event.reply, Op.perform, WorkflowHub.withBoard, staged, bind, Except.bind]
  rfl

theorem createWorkflow_stagedHub :
    createWorkflow (openStaging format) (stagedHub format) "owner" reviewRequest 1 (mintedFrom 50) =
      .ok (createdHub format) := by
  have card : (stagedHub format).store.board.card? reviewRequest.sourceTaskId =
      some ⟨codingTask format, .blocked, some waiting⟩ := rfl
  rw [createWorkflow, card]
  simp only [orFail, submitted_openStaging, bind, Except.bind]
  rfl

theorem advanceOwner_createdHub :
    advanceOwner (openStaging format) (openTurns 1) (createdHub format) "owner" =
      startedHub format := by
  have turn : advanceOwner (openStaging format) (openTurns 1) (createdHub format) "owner" =
      advanceOne (openStaging format) (openTurns 1 0) (createdHub format) startedFlow.data := rfl
  have card : (createdHub format).store.board.card? startedFlow.data.currentTask =
      some ⟨codingTask format, .blocked, some waiting⟩ := rfl
  have early : ¬ startedFlow.data.deadline ≤ (openTurns 1 0).clock 0 := by decide
  rw [turn, advanceOne, advance, if_neg early, proceed, card]
  simp only [orFail, submitted_openStaging, bind, Except.bind]
  rfl

theorem hubAt_started : hubAt (startedReview format) 4 = startedHub format := by
  have next : hubAt (startedReview format) 4 = (hubAt (startedReview format) 3).step
      ((WorkflowOp.start workerSession reviewRequest).at format 1) := rfl
  have started : privateReviewWorkflowStart (openStaging format) (openTurns 1) (stagedHub format)
      workerSession reviewRequest 1 (mintedFrom 50) = .ok (startedHub format) := by
    have text : checkText reviewRequest.checkerModelId 500 = .ok () := by decide
    have new : (stagedHub format).workflow? reviewRequest.requestId = none := rfl
    have bounds : reviewRequest.requestId ≠ 0 ∧ reviewRequest.maxCorrections ≤ 3 ∧
        reviewRequest.checkerModelId.toList.all isWhitespace = false := by decide
    have owner : (openStaging format).around.verifiedOwner workerSession.node = .ok "owner" := rfl
    simp only [privateReviewWorkflowStart, owner, require, if_pos bounds, text, new,
      createWorkflow_stagedHub, advanceOwner_createdHub, bind, Except.bind]
    rfl
  have replied : ((WorkflowOp.start workerSession reviewRequest).at format 1).reply
      (stagedHub format) = .ok (startedHub format) := started
  rw [next, hubAt_staged, WorkflowHub.step, replied]

/-- The computer's enrollment is revoked. -/
def revokedStaging (format : TaskFormat) : Staging :=
  { openStaging format with
    around :=
      { openSurroundings with
        verifyTarget := fun _ _ => .error (rejected ("execution computer is not enrolled in " ++
          "this Private Fleet or has been revoked")) } }

/-- A workflow whose advance fails does not stay as it was: it is no longer active. -/
theorem error_stops_workflow :
    ¬ ∀ (events : List WorkflowEvent) (moment : Nat) (staging : Staging) (turns : Nat → Turn)
      (owner : String) (row : WorkflowRow) (error : HubError),
      (hubAt events moment).activeRows owner = [row] →
      advance staging (turns 0) (hubAt events moment) row.data = .error error →
      row ∈ (advanceOwner staging turns (hubAt events moment) owner).workflows.rows := by
  intro unchanged
  have active : (hubAt (startedReview taskWire) 4).activeRows "owner" = [startedFlow] := by
    rw [hubAt_started]
    rfl
  have failed : ∃ error, advance (revokedStaging taskWire) (openTurns 2 0)
      (hubAt (startedReview taskWire) 4) startedFlow.data = .error error := by
    have card : (startedHub taskWire).store.board.card? startedFlow.data.currentTask =
        some ⟨codingTask taskWire, .blocked, some waiting⟩ := rfl
    have early : ¬ startedFlow.data.deadline ≤ (openTurns 2 0).clock 0 := by decide
    rw [hubAt_started, advance, if_neg early, proceed, card]
    have submitted : ∀ missing unread,
        (codingTask taskWire).submitted (revokedStaging taskWire).format missing unread = _ :=
      submitted_codingTask
    simp only [orFail, submitted, bind, Except.bind]
    exact ⟨_, rfl⟩
  obtain ⟨error, failed⟩ := failed
  have kept := unchanged (startedReview taskWire) 4 (revokedStaging taskWire) (openTurns 2) "owner"
    startedFlow error active failed
  have turn : advanceOwner (revokedStaging taskWire) (openTurns 2) (startedHub taskWire) "owner" =
      advanceOne (revokedStaging taskWire) (openTurns 2 0) (startedHub taskWire) startedFlow.data :=
    rfl
  rw [hubAt_started] at kept failed
  rw [turn, advanceOne, failed] at kept
  have stopped := List.mem_singleton.mp kept
  have state : WorkflowState.active = .blocked := congrArg (fun row => row.data.state) stopped
  cases state

end Examples

end OHHive.LocalHub
