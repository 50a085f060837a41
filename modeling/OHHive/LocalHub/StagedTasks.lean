import OHHive.LocalHub.BoundedReview
import OHHive.LocalHub.CardKeeping

/-! The staging of coding tasks among all other transactions of the hub: a request that was staged
once is found again, and what its card was staged with stays as it was. -/

namespace OHHive.LocalHub

open Foundation

section Stages

variable {staging later : Staging} {board next : Board} {card : ClaimedCard}
  {request other : PrivateCodeTaskRequest}

/-- What an accepted staging leaves: the request's card, which it has stored unless it found it. -/
structure Stages (staging : Staging) (board next : Board) (request : PrivateCodeTaskRequest)
    (card : ClaimedCard) : Prop where
  valid : checkRequest request = .ok ()
  card_id : card.id = request.requestId
  projectId : card.projectId = request.projectId
  submission : card.requiredCapabilities.submission = some (request.submission staging.format)
  written : (∃ stored, board.card? request.requestId = some stored ∧ stored.data = card ∧
      next = board) ∨
    board.card? request.requestId = none ∧
      ∃ cards, board.cards.insert? ⟨card, .blocked, some waiting⟩ = some cards ∧
        next = { board with cards }

theorem stages_of_stageTask (done : stageTask staging board request = .ok (next, card)) :
    Stages staging board next request card := by
  unfold stageTask at done
  obtain ⟨_, valid, done⟩ := bind_eq_ok_iff.mp done
  cases found : board.card? request.requestId with
  | some stored =>
    rw [found] at done
    obtain ⟨_, same, done⟩ := bind_eq_ok_iff.mp done
    obtain ⟨rfl, rfl⟩ := Prod.mk.inj (pure_eq_ok_iff.mp done)
    obtain ⟨submission, project⟩ := require_eq_ok_iff.mp same
    have named := (Board.card?_eq_some_iff.mp found).2
    exact ⟨valid, named, project, submission, Or.inl ⟨stored, found, rfl, rfl⟩⟩
  | none =>
    rw [found] at done
    obtain ⟨built, made, done⟩ := bind_eq_ok_iff.mp done
    obtain ⟨_, _, done⟩ := bind_eq_ok_iff.mp done
    obtain ⟨inserted, stored, done⟩ := bind_eq_ok_iff.mp done
    obtain ⟨rfl, rfl⟩ := Prod.mk.inj (pure_eq_ok_iff.mp done)
    simp only [taskCard, bind_eq_ok_iff, pure_eq_ok_iff] at made
    obtain ⟨_, _, _, _, _, _, _, _, rfl⟩ := made
    simp only [Board.insertCard, bind_eq_ok_iff, orFail_eq_ok_iff, pure_eq_ok_iff] at stored
    obtain ⟨_, _, cards, added, rfl⟩ := stored
    exact ⟨valid, rfl, rfl, rfl, Or.inr ⟨found, cards, added, rfl⟩⟩

/-- The card of a staged request, on the board that the staging leaves. -/
theorem Stages.stored (stages : Stages staging board next request card) :
    ∃ stored, next.card? request.requestId = some stored ∧ stored.data = card := by
  rcases stages.written with ⟨stored, found, same, rfl⟩ | ⟨_, cards, added, rfl⟩
  · exact ⟨stored, found, same⟩
  · refine ⟨⟨card, .blocked, some waiting⟩, Board.card?_eq_some_iff.mpr ⟨?_, stages.card_id⟩, rfl⟩
    change _ ∈ cards.rows
    rw [Table.rows_of_insert? added]
    exact List.mem_append_right _ (List.mem_singleton.mpr rfl)

theorem Stages.cardKept (stages : Stages staging board next request card) (id : CardId) :
    CardKept board next id := by
  rcases stages.written with ⟨_, _, _, rfl⟩ | ⟨_, cards, added, rfl⟩
  · exact .refl _ id
  · refine ⟨fun held found => ⟨held, ?_, .refl⟩, fun _ linked => linked⟩
    obtain ⟨member, named⟩ := Board.card?_eq_some_iff.mp found
    refine Board.card?_eq_some_iff.mpr ⟨?_, named⟩
    change _ ∈ cards.rows
    rw [Table.rows_of_insert? added]
    exact List.mem_append_left _ member

/-- Requests are told apart by their submissions. -/
theorem request_of_submission {format : TaskFormat}
    (same : request.submission format = other.submission format) : request = other := by
  have texts : request.requestId = other.requestId ∧ _ := Submission.mk.inj same
  have encoded := String.ofList_injective texts.2.2.2
  have read := congrArg format.submissions.decode encoded
  rw [format.submissions.decode_encode, format.submissions.decode_encode] at read
  exact Option.some.inj read

/-- A request whose card carries its submission is found, and nothing is written. -/
theorem stageTask_found {stored : Card} (valid : checkRequest request = .ok ())
    (found : board.card? request.requestId = some stored)
    (submission : stored.data.requiredCapabilities.submission =
      some (request.submission later.format))
    (project : stored.data.projectId = request.projectId) :
    stageTask later board request = .ok (board, stored.data) := by
  have same : require (stored.data.requiredCapabilities.submission =
        some (request.submission later.format) ∧ stored.data.projectId = request.projectId)
      (rejected "submission request ID conflicts with existing work") = .ok () :=
    require_eq_ok_iff.mpr ⟨submission, project⟩
  unfold stageTask
  refine bind_eq_ok_iff.mpr ⟨(), valid, ?_⟩
  rw [found]
  exact bind_eq_ok_iff.mpr ⟨(), same, rfl⟩

/-- Another request under the identity of a staged one is refused. -/
theorem stageTask_conflict {stored : Card}
    (found : board.card? request.requestId = some stored)
    (submission : stored.data.requiredCapabilities.submission =
      some (request.submission later.format))
    (named : other.requestId = request.requestId) (apart : other ≠ request) :
    ∃ failure, stageTask later board other = .error failure := by
  cases done : stageTask later board other with
  | error failure => exact ⟨failure, rfl⟩
  | ok result =>
    have stages : Stages later board result.1 other result.2 := stages_of_stageTask done
    rcases stages.written with ⟨held, present, same, _⟩ | ⟨absent, _⟩
    · rw [named, found] at present
      obtain rfl := Option.some.inj present
      have carried := stages.submission
      rw [← same, submission] at carried
      exact absurd (request_of_submission (Option.some.inj carried)).symm apart
    · rw [named, found] at absent
      cases absent

end Stages

section Runs

/-- A transaction of the hub, or the staging of a coding task by its host. -/
inductive TaskEvent where
  | stage (staging : Staging) (request : PrivateCodeTaskRequest)
  | hub (event : WorkflowEvent)

def TaskEvent.reply (event : TaskEvent) (hub : WorkflowHub) : Result WorkflowHub :=
  match event with
  | .stage staging request => do
    let (board, _) ← stageTask staging hub.store.board request
    pure (hub.withBoard board)
  | .hub event => event.reply hub

def WorkflowHub.taskStep (hub : WorkflowHub) (event : TaskEvent) : WorkflowHub :=
  match event.reply hub with
  | .ok next => next
  | .error _ => hub

/-- The hub after the first transactions of a run that begins with a new hub. -/
abbrev taskHubAt (events : List TaskEvent) (moment : Nat) : WorkflowHub :=
  stateAt WorkflowHub.taskStep WorkflowHub.empty events moment

def taskBoardAt (events : List TaskEvent) (moment : Nat) : Board :=
  (taskHubAt events moment).store.board

/-- The identities that are drawn for new tasks are those of no stored card. -/
def TasksDrawNew (events : List TaskEvent) : Prop :=
  ∀ moment event, events[moment]? = some (.hub event) → ∀ id, event.Mints id →
    (taskBoardAt events moment).card? id = none

/-- The request is staged, or found again, by the transaction of this moment. -/
def StagedAt (events : List TaskEvent) (moment : Nat) (staging : Staging)
    (request : PrivateCodeTaskRequest) (card : ClaimedCard) : Prop :=
  events[moment]? = some (.stage staging request) ∧
    ∃ next, stageTask staging (taskBoardAt events moment) request = .ok (next, card)

variable {events : List TaskEvent} {id : CardId}

theorem cardKept_taskStep {hub : WorkflowHub} {event : TaskEvent} {card : Card}
    (found : hub.store.board.card? id = some card)
    (undrawn : ∀ asked, event = .hub asked → ¬ asked.Mints id) :
    CardKept hub.store.board (hub.taskStep event).store.board id := by
  cases event with
  | stage staging request =>
    unfold WorkflowHub.taskStep
    cases done : TaskEvent.reply (.stage staging request) hub with
    | error failure => exact .refl _ id
    | ok next =>
      obtain ⟨⟨board, staged⟩, stored, written⟩ := bind_eq_ok_iff.mp done
      obtain rfl := pure_eq_ok_iff.mp written
      exact (stages_of_stageTask stored).cardKept id
  | hub asked => exact cardKept_hubStep found fun _ => undrawn asked rfl

theorem cardKept_taskRun {first second : Nat} {card : Card} (draws : TasksDrawNew events)
    (ordered : first ≤ second) (found : (taskBoardAt events first).card? id = some card) :
    CardKept (taskBoardAt events first) (taskBoardAt events second) id := by
  refine cardKept_between (taskBoardAt events) (fun moment held stored => ?_) ordered found
  unfold taskBoardAt at stored ⊢
  rcases stateAt_next WorkflowHub.taskStep WorkflowHub.empty events moment with
    ⟨event, present, next⟩ | ⟨_, next⟩
  · rw [show taskHubAt events (moment + 1) = (taskHubAt events moment).taskStep event from next]
    refine cardKept_taskStep stored ?_
    rintro asked rfl mints
    cases (draws moment asked present id mints).symm.trans stored
  · rw [show taskHubAt events (moment + 1) = taskHubAt events moment from next]
    exact .refl _ id

/-- What the staging of coding tasks promises: an accepted one has stored one blocked card or
found it, and a failing one changes nothing; at any later moment its card is stored with all that
it was staged with, the same request is answered with it and changes nothing, and any other
request of its identity is refused. -/
structure StagedTasks (events : List TaskEvent) : Prop where
  staged : ∀ moment staging request card next,
    stageTask staging (taskBoardAt events moment) request = .ok (next, card) →
    Stages staging (taskBoardAt events moment) next request card
  failed : ∀ moment staging request failure,
    events[moment]? = some (.stage staging request) →
    stageTask staging (taskBoardAt events moment) request = .error failure →
    taskHubAt events (moment + 1) = taskHubAt events moment
  frozen : ∀ first second staging request card, first < second →
    StagedAt events first staging request card →
    ∃ stored, (taskBoardAt events second).card? request.requestId = some stored ∧
      stored.data.frozen = card.frozen
  repeated : ∀ first second staging later request card, first < second →
    StagedAt events first staging request card → later.format = staging.format →
    ∃ again, stageTask later (taskBoardAt events second) request =
        .ok (taskBoardAt events second, again) ∧
      again.id = card.id ∧ again.frozen = card.frozen
  refused : ∀ first second staging later request other card, first < second →
    StagedAt events first staging request card → later.format = staging.format →
    other.requestId = request.requestId → other ≠ request →
    ∃ failure, stageTask later (taskBoardAt events second) other = .error failure

/-- The card of a request that was staged earlier. -/
theorem stored_of_stagedAt (draws : TasksDrawNew events) {first second : Nat} {staging : Staging}
    {request : PrivateCodeTaskRequest} {card : ClaimedCard} (later : first < second)
    (staged : StagedAt events first staging request card) :
    checkRequest request = .ok () ∧
      ∃ stored, (taskBoardAt events second).card? request.requestId = some stored ∧
        Amends card stored.data ∧
        stored.data.requiredCapabilities.submission = some (request.submission staging.format) ∧
        stored.data.projectId = request.projectId := by
  obtain ⟨present, next, done⟩ := staged
  have stages := stages_of_stageTask done
  have stepped : taskBoardAt events (first + 1) = next := by
    have step : taskHubAt events (first + 1) = _ :=
      stateAt_succ WorkflowHub.taskStep WorkflowHub.empty present
    have replied : TaskEvent.reply (.stage staging request) (taskHubAt events first) =
        .ok ((taskHubAt events first).withBoard next) :=
      bind_eq_ok_iff.mpr ⟨(next, card), done, rfl⟩
    rw [taskBoardAt, step, WorkflowHub.taskStep, replied]
    rfl
  obtain ⟨held, found, rfl⟩ := stages.stored
  rw [← stepped] at found
  have kept := cardKept_taskRun draws (Nat.succ_le_of_lt later) found
  obtain ⟨stored, remains, amends⟩ := kept.data held found
  exact ⟨stages.valid, stored, remains, amends, amends.submission_eq.trans stages.submission,
    amends.projectId_eq.trans stages.projectId⟩

theorem staged_tasks (events : List TaskEvent) (draws : TasksDrawNew events) :
    StagedTasks events := by
  refine ⟨fun _ _ _ _ _ done => stages_of_stageTask done, ?_, ?_, ?_, ?_⟩
  · intro moment staging request failure present refused
    have step : taskHubAt events (moment + 1) = _ :=
      stateAt_succ WorkflowHub.taskStep WorkflowHub.empty present
    have replied : TaskEvent.reply (.stage staging request) (taskHubAt events moment) =
        .error failure := bind_eq_error_iff.mpr (Or.inl refused)
    rw [step, WorkflowHub.taskStep, replied]
  · intro first second staging request card ordered staged
    obtain ⟨_, stored, found, amends, _⟩ := stored_of_stagedAt draws ordered staged
    exact ⟨stored, found, amends.frozen⟩
  · intro first second staging later request card ordered staged same
    obtain ⟨valid, stored, found, amends, submission, project⟩ :=
      stored_of_stagedAt draws ordered staged
    rw [← same] at submission
    exact ⟨stored.data, stageTask_found valid found submission project, amends.id_eq,
      amends.frozen⟩
  · intro first second staging later request other card ordered staged same named apart
    obtain ⟨_, stored, found, _, submission, _⟩ := stored_of_stagedAt draws ordered staged
    rw [← same] at submission
    exact stageTask_conflict found submission named apart

/-- The hub's host stages a coding task twice, and the worker's computer is checked in between. -/
noncomputable def stagedTwice : List TaskEvent :=
  [.hub ((WorkflowOp.store (.board (.createProject ⟨1, "P", ""⟩) (.refl false))).at taskWire 0),
    .hub ((WorkflowOp.store (.board (.enroll "laptop") (.refl false))).at taskWire 0),
    .stage (openStaging taskWire) codingRequest,
    .hub ((WorkflowOp.store (.board (.checkIn workerSession laptop) (.refl false))).at taskWire 1),
    .stage (openStaging taskWire) codingRequest]

theorem staged_tasks_twice :
    StagedTasks stagedTwice ∧
      ∃ card, StagedAt stagedTwice 2 (openStaging taskWire) codingRequest card := by
  refine ⟨staged_tasks stagedTwice ?_, _, rfl, _, rfl⟩
  have quiet : stagedTwice.all (fun
    | .stage .. => true
    | .hub event => !event.op.advances) = true := rfl
  intro moment event present id mints
  have still := List.all_eq_true.mp quiet _ (List.mem_of_getElem? present)
  dsimp only at still
  rw [mints.1] at still
  cases still

end Runs

end OHHive.LocalHub
