import OHHive.LocalHub.CodeTasks

/-! Review workflows: the owner's bounded chain of coding and checking, advanced whenever one of the
owner's computers polls the hub. -/

namespace OHHive

/-- The display of an error. -/
def HubError.text : HubError → String
  | .transport reason => "hub unreachable: " ++ reason
  | .rejected reason => "hub rejected: " ++ reason
  | .badKey => "invalid or revoked node key"

end OHHive

namespace OHHive.LocalHub

open Foundation Coder

section Records

inductive WorkflowState where
  | active
  | passed
  | stopped
  | blocked
deriving DecidableEq, Repr

structure ReviewWorkflowRequest where
  requestId : Uuid
  projectId : ProjectId
  sourceTaskId : CardId
  checkerNodeId : NodeId
  checkerAgentId : Uuid
  checkerModelId : String
  checkerThink : Option Bool
  maxCorrections : Nat
deriving DecidableEq, Repr

structure ReviewWorkflow where
  request : ReviewWorkflowRequest
  owner : String
  state : WorkflowState
  reason : Option String
  currentTask : CardId
  coderTask : CardId
  checking : Bool
  corrections : Nat
  deadline : Int
  preparation : OperationId
  run : OperationId
  checkerPersona : String
deriving DecidableEq, Repr

/-- A stored row of `private_review_workflows`. -/
structure WorkflowRow where
  id : Uuid
  owner : String
  project : ProjectId
  source : CardId
  data : ReviewWorkflow
deriving DecidableEq, Repr

/-- Unique for the request, and unique for the source task. -/
def WorkflowRow.Clash (earlier later : WorkflowRow) : Prop :=
  earlier.id = later.id ∨ earlier.source = later.source

instance : DecidableRel WorkflowRow.Clash := fun _ _ => inferInstanceAs (Decidable (_ ∨ _))

def WorkflowRow.saved (flow : ReviewWorkflow) (row : WorkflowRow) : WorkflowRow :=
  if row.id = flow.request.requestId then { row with data := flow } else row

/-- The hub with its workflows. -/
structure WorkflowHub where
  store : PreparationStore
  workflows : Table WorkflowRow WorkflowRow.Clash

end Records

theorem WorkflowRow.saved_id (flow : ReviewWorkflow) (row : WorkflowRow) :
    (row.saved flow).id = row.id := by
  unfold saved
  split <;> rfl

theorem WorkflowRow.saved_source (flow : ReviewWorkflow) (row : WorkflowRow) :
    (row.saved flow).source = row.source := by
  unfold saved
  split <;> rfl

namespace WorkflowHub

def empty : WorkflowHub := ⟨.empty, .empty⟩

/-- `SELECT data .. WHERE id=?1`. -/
def workflow? (hub : WorkflowHub) (id : Uuid) : Option WorkflowRow :=
  hub.workflows.rows.find? (fun row => row.id = id)

/-- `UPDATE private_review_workflows SET data=?2 WHERE id=?1`. -/
def save (hub : WorkflowHub) (flow : ReviewWorkflow) : WorkflowHub :=
  { hub with
    workflows := hub.workflows.update (WorkflowRow.saved flow) (by
      intro earlier later clash
      simpa only [WorkflowRow.Clash, WorkflowRow.saved_id, WorkflowRow.saved_source] using clash) }

def withBoard (hub : WorkflowHub) (board : Board) : WorkflowHub :=
  { hub with store := { hub.store with board } }

/-- An inactive workflow has the card as its current task. -/
def inactive (hub : WorkflowHub) (card : CardId) : Bool :=
  hub.workflows.rows.any (fun row => row.data.currentTask = card && row.data.state ≠ .active)

/-- `SELECT data .. WHERE owner=?1 AND state='active'`. -/
def activeRows (hub : WorkflowHub) (owner : String) : List WorkflowRow :=
  hub.workflows.rows.filter (fun row => row.owner = owner && row.data.state = .active)

end WorkflowHub

section Stops

/-- The attempt of a task that was not retried. -/
def isCurrentRun (board : Board) (task : CardId) (run : PrivateRun) : Bool :=
  run.cardId = task && !board.privateRunRetries.rows.any (fun retry => retry.previousId = run.id)

/-- `INSERT OR IGNORE` of one stop. -/
def stopRun (now : Int) (board : Board) (run : PrivateRun) : Board :=
  match board.privateRunStops.insert? ⟨run.id, run.targetNodeId, now⟩ with
  | some privateRunStops => { board with privateRunStops }
  | none => board

def awaitingRun : String := "awaiting_private_run"

/-- Not yet taken up by a worker. -/
def isUnclaimed (card : Card) : Bool :=
  card.status = .ready || (card.status = .blocked &&
    (card.reason = some waiting || card.reason = some awaitingRun))

/-- The task's current runs are stopped, and a card that no worker has is blocked. -/
def stopTask (board : Board) (task : CardId) (now : Int) : Board :=
  let runs := board.privateRuns.rows.filter (isCurrentRun board task)
  (runs.foldl (stopRun now) board).setStatus (fun card => card.id = task && isUnclaimed card)
    .blocked (some "review_workflow_stopped")

/-- `stop`. -/
def WorkflowHub.stop (hub : WorkflowHub) (flow : ReviewWorkflow) (state : WorkflowState)
    (reason : String) (now : Int) : WorkflowHub :=
  (hub.withBoard (stopTask hub.store.board flow.currentTask now)).save
    { flow with state, reason := some reason }

end Stops

section Requests

variable (around : Surroundings)

/-- `private_run::request`, for an owner that is already verified. -/
def requestRun (board : Board) (owner : String) (operation : OperationId) (task : CardId)
    (clock : Nat → Int) : Result Board := do
  require (operation ≠ 0) (rejected "invalid operation identity")
  let preparation ← orFail (around.preparation task) dbError
  around.verifyTarget owner preparation.targetNodeId
  match board.privateRuns.lookup operation with
  | some _ => do
    let receipt ← runStatus board operation (clock 0)
    require (receipt.taskId = task ∧ receipt.targetNodeId = preparation.targetNodeId)
      (rejected "run request ID conflicts with existing work")
    pure board
  | none => do
    require (preparation.prepared ∧
        board.cards.rows.any (fun card => card.id = task && card.status = .blocked &&
          card.reason = some "awaiting_private_run") ∧
        board.leases.rows.all (fun lease => lease.cardId ≠ task) ∧
        board.privateRuns.rows.all (fun run => run.cardId ≠ task))
      (rejected "task is not prepared for a new run")
    let privateRuns ← orFail (board.privateRuns.insert?
      ⟨operation, task, preparation.targetNodeId, .queued, none, clock 0⟩) dbError
    pure (Board.setStatus { board with privateRuns } (fun card => card.id = task) .ready none)

/-- `private_preparation::request`, for an owner that is already verified. -/
def requestPreparation (store : PreparationStore) (owner : String) (operation : OperationId)
    (cardId : CardId) (clock : Nat → Int) : Result PreparationStore := do
  require (operation ≠ 0) (rejected "invalid operation identity")
  let (card, target) ← task store.board cardId
  around.verifyTarget owner target
  match store.preparation? operation with
  | some row => do
    require (row.cardId = cardId ∧ row.targetNodeId = target)
      (rejected "preparation request ID conflicts with existing work")
    pure store
  | none => do
    require (card.status = .blocked ∧ card.reason = some waiting)
      (rejected "task is not awaiting preparation")
    let preparations ← orFail (store.preparations.insert?
      ⟨operation, cardId, target, card.data, .queued, none, none, clock 0⟩) dbError
    pure { store with preparations }

end Requests

/-- What one workflow's turn draws: its readings of the clock, the one after a failure, and the
identities it mints. -/
structure Turn where
  clock : Nat → Int
  failedAt : Int
  fresh : Nat → Uuid

section Advance

variable (staging : Staging) (turn : Turn)

/-- `checker_submission`. -/
def checkerSubmission (request : ReviewWorkflowRequest) (id : Uuid) (source : CardId) :
    PrivateCodeTaskRequest where
  requestId := id
  projectId := request.projectId
  targetNodeId := request.checkerNodeId
  agentId := some request.checkerAgentId
  title := "Workflow independent check"
  task := "Review the frozen source against its original request and required checks."
  modelId := some request.checkerModelId
  maxTurns := 1
  codingThink := request.checkerThink
  maxAcceptanceRepairs := 0
  maxVerificationRuns := 0
  acceptance := []
  reviewSourceTaskId := some source

/-- Keys that do not read are left alone. -/
def RequiredCapabilities.withPersona (format : TaskFormat) (required : RequiredCapabilities)
    (persona task : String) : RequiredCapabilities :=
  match required.keys format with
  | some keys => required.withKeys format { keys with persona := some persona, task := some task }
  | none => required

def checkerTask (persona task : String) : String :=
  "Owner-selected checker context: " ++ persona ++
    ". This biography grants no additional tools.\n\n" ++ task

/-- The workflow with another task, and the identities of its preparation and run. -/
def ReviewWorkflow.handed (flow : ReviewWorkflow) (task : CardId) (turn : Turn) : ReviewWorkflow :=
  { flow with currentTask := task, preparation := turn.fresh 1, run := turn.fresh 2 }

/-- A finished coding task is followed by its independent check. -/
def stageCheck (hub : WorkflowHub) (flow : ReviewWorkflow) (card : Card) : Result WorkflowHub := do
  let request := checkerSubmission flow.request (turn.fresh 0) card.id
  staging.around.verifyTarget flow.owner request.targetNodeId
  let (board, checker) ← stageTask staging hub.store.board request
  let required := checker.requiredCapabilities.withPersona staging.format flow.checkerPersona
    (checkerTask flow.checkerPersona request.task)
  pure ((hub.withBoard (rewriteTask board request.requestId checker.deps required)).save
    { flow.handed request.requestId turn with checking := true })

/-- The verdict of a finished check. -/
def checkerVerdict (board : Board) (card : Card) : Result Verdict := do
  let review ← orFail ((card.data.requiredCapabilities.keys staging.format).bind
    TaskKeys.independentReview) (rejected "invalid workflow checker")
  let output ← orFail (board.output? card.id) (rejected "missing workflow checker result")
  let receipt ← rejectedText
    (ReviewReceipt.fromOutput staging.format.receipts.decode output.content.toList)
  rejectedText (receipt.validate staging.format.toSerde card.id review)
  pure receipt.review.verdict

def ReviewWorkflow.pass (flow : ReviewWorkflow) : ReviewWorkflow :=
  { flow with
    state := .passed
    reason := some "Saved code passed independent review; no merge or publication performed" }

/-- Requested changes are followed by a correction, as long as corrections are left. -/
def stageChanges (hub : WorkflowHub) (flow : ReviewWorkflow) (card : Card) :
    Result WorkflowHub :=
  if flow.request.maxCorrections ≤ flow.corrections then
    pure (hub.stop flow .blocked "Correction limit reached; owner review required" (turn.clock 1))
  else do
    let (board, correction) ← stageCorrection staging hub.store.board
      ⟨turn.fresh 0, flow.request.projectId, card.id⟩ flow.owner
    pure ((hub.withBoard board).save
      { flow.handed correction.id turn with
        coderTask := correction.id
        checking := false
        corrections := flow.corrections + 1 })

def concludeCheck (hub : WorkflowHub) (flow : ReviewWorkflow) (card : Card) :
    Result WorkflowHub := do
  match ← checkerVerdict staging hub.store.board card with
  | .pass => pure (hub.save flow.pass)
  | .inconclusive =>
    pure (hub.stop flow .blocked "Independent review inconclusive; owner review required"
      (turn.clock 1))
  | .changesRequired => stageChanges staging turn hub flow card

/-- A staged task is prepared once, under an identity the workflow keeps. -/
def awaitPreparation (hub : WorkflowHub) (flow : ReviewWorkflow) (card : Card) :
    Result WorkflowHub :=
  match hub.store.preparationOf card.id with
  | some row => pure (hub.save { flow with preparation := row.id })
  | none => do
    let store ← requestPreparation staging.around hub.store flow.owner flow.preparation card.id
      (fun reading => turn.clock (reading + 1))
    pure (WorkflowHub.save { hub with store } flow)

def awaitRun (hub : WorkflowHub) (flow : ReviewWorkflow) (card : Card) : Result WorkflowHub := do
  let board ← requestRun (hub.store.surround staging.around) hub.store.board flow.owner flow.run
    card.id (fun reading => turn.clock (reading + 1))
  pure ((hub.withBoard board).save flow)

def ReportedState.text : ReportedState → String
  | .queued => "queued"
  | .running => "running"
  | .stopping => "stopping"
  | .stopped => "stopped"
  | .finished => "finished"
  | .blocked => "blocked"
  | .interrupted => "interrupted"
  | .superseded => "superseded"

def interruption (status : PrivateRunStatus) : String :=
  "Execution " ++ status.state.text ++ ": " ++
    status.reason.getD "worker interrupted or stopped" ++ ". Owner review required"

/-- An attempt that is neither queued nor running, or was asked to stop, ends the workflow. -/
def watchRun (hub : WorkflowHub) (flow : ReviewWorkflow) (card : Card) : Result WorkflowHub := do
  let board := hub.store.board
  let run ← orFail (board.privateRuns.rows.find? (isCurrentRun board card.id))
    (rejected "task is not awaiting workflow preparation or execution")
  let status ← runStatus board run.id (turn.clock 1)
  if ¬ (status.state = .queued ∨ status.state = .running) ∨ status.stopRequested then
    pure (hub.stop flow .blocked (interruption status) (turn.clock 2))
  else
    pure (hub.save flow)

/-- What a poll does for a workflow whose deadline has not passed. -/
def proceed (hub : WorkflowHub) (flow : ReviewWorkflow) : Result WorkflowHub := do
  let card ← orFail (hub.store.board.card? flow.currentTask) dbError
  let submission ← card.data.submitted staging.format (rejected "invalid workflow coding task")
    (rejected "invalid workflow coding task")
  staging.around.verifyTarget flow.owner submission.targetNodeId
  staging.around.assignment card.data
  if card.status = .review ∨ card.status = .done then
    if flow.checking then concludeCheck staging turn hub flow card
    else stageCheck staging turn hub flow card
  else if card.status = .blocked ∧ card.reason = some waiting then
    awaitPreparation staging turn hub flow card
  else if card.status = .blocked ∧ card.reason = some awaitingRun then
    awaitRun staging turn hub flow card
  else watchRun turn hub flow card

/-- `advance`. -/
def advance (hub : WorkflowHub) (flow : ReviewWorkflow) : Result WorkflowHub :=
  if flow.deadline ≤ turn.clock 0 then
    pure (hub.stop flow .stopped "Thirty-minute workflow deadline reached" (turn.clock 1))
  else
    proceed staging turn hub flow

/-- One workflow's savepoint: what a failed advance wrote is rolled back, and the workflow stops
with the error as its reason. -/
def advanceOne (hub : WorkflowHub) (flow : ReviewWorkflow) : WorkflowHub :=
  match advance staging turn hub flow with
  | .ok next => next
  | .error error => hub.stop flow .blocked ("Workflow stopped: " ++ error.text) turn.failedAt

/-- The workflows that were read, each in its turn. -/
def advanceEach (turns : Nat → Turn) : Nat → List ReviewWorkflow → WorkflowHub → WorkflowHub
  | _, [], hub => hub
  | index, flow :: rest, hub =>
    advanceEach turns (index + 1) rest (advanceOne staging (turns index) hub flow)

def maxActive : Nat := 16

/-- `advance_owner`. -/
def advanceOwner (turns : Nat → Turn) (hub : WorkflowHub) (owner : String) : WorkflowHub :=
  advanceEach staging turns 0 (((hub.activeRows owner).take maxActive).map WorkflowRow.data) hub

end Advance

section Operations

variable (staging : Staging) (turns : Nat → Turn)

/-- The card and the submission a workflow may start from. -/
def startable (request : ReviewWorkflowRequest) (card : Card) (original : PrivateCodeTaskRequest) :
    Prop :=
  card.data.projectId = request.projectId ∧ original.agentId ≠ none ∧
    original.agentId ≠ some request.checkerAgentId ∧ original.reviewSourceTaskId = none ∧
    original.acceptance.any AcceptanceCheck.required = true ∧
    (card.status = .blocked ∨ card.status = .review ∨ card.status = .done)

instance (request : ReviewWorkflowRequest) (card : Card) (original : PrivateCodeTaskRequest) :
    Decidable (startable request card original) :=
  inferInstanceAs (Decidable (_ ∧ _))

/-- The row of a new workflow. -/
def newWorkflow (request : ReviewWorkflowRequest) (owner : String) (persona : String)
    (now : Int) (fresh : Nat → Uuid) : WorkflowRow where
  id := request.requestId
  owner
  project := request.projectId
  source := request.sourceTaskId
  data :=
    { request
      owner
      state := .active
      reason := none
      currentTask := request.sourceTaskId
      coderTask := request.sourceTaskId
      checking := false
      corrections := 0
      deadline := now + 1800
      preparation := fresh 1
      run := fresh 2
      checkerPersona := persona }

/-- A new request's workflow, before it is first advanced. -/
def createWorkflow (hub : WorkflowHub) (owner : String) (request : ReviewWorkflowRequest)
    (now : Int) (fresh : Nat → Uuid) : Result WorkflowHub := do
  let card ← orFail (hub.store.board.card? request.sourceTaskId) dbError
  let original ← card.data.submitted staging.format (rejected "invalid workflow coding task")
    (rejected "invalid workflow coding task")
  require (startable request card original)
    (rejected "choose a named coding task with required checks and a different checker")
  staging.around.verifyTarget owner original.targetNodeId
  staging.around.verifyTarget owner request.checkerNodeId
  staging.around.assignment card.data
  require ((hub.activeRows owner).length < maxActive)
    (rejected "finish or stop an active workflow first")
  let persona? ← staging.agentSnapshot (checkerSubmission request (fresh 0) card.id)
  let persona ← orFail persona? (rejected "select an active checker")
  let workflows ← orFail (hub.workflows.insert? (newWorkflow request owner persona now fresh))
    dbError
  pure { hub with workflows }

/-- `private_review_workflow_start`. -/
def privateReviewWorkflowStart (hub : WorkflowHub) (session : Session)
    (request : ReviewWorkflowRequest) (now : Int) (fresh : Nat → Uuid) : Result WorkflowHub := do
  let owner ← staging.around.verifiedOwner session.node
  require (request.requestId ≠ 0 ∧ request.maxCorrections ≤ 3 ∧
      request.checkerModelId.toList.all isWhitespace = false)
    (rejected "invalid workflow bounds or checker model")
  checkText request.checkerModelId 500
  match hub.workflow? request.requestId with
  | some row => do
    require (row.data.owner = owner ∧ row.data.request = request)
      (rejected "workflow request conflicts with existing work")
    pure hub
  | none => do
    let created ← createWorkflow staging hub owner request now fresh
    pure (advanceOwner staging turns created owner)

/-- `private_review_workflow_stop`. -/
def privateReviewWorkflowStop (hub : WorkflowHub) (session : Session) (id : Uuid) (now : Int) :
    Result WorkflowHub := do
  let owner ← staging.around.verifiedOwner session.node
  let row ← orFail ((hub.workflow? id).filter (fun row => row.owner = owner)) dbError
  pure (if row.data.state = .active then hub.stop row.data .stopped "Stopped by owner" now else hub)

/-- The calls that poll: the owner's list, a run's status and a computer's pending work. -/
inductive Poll where
  | workflows
  | runStatus (operation : OperationId)
  | pending

/-- What a poll reads once the workflows are advanced; if it cannot, nothing was advanced. -/
def Poll.reads (poll : Poll) (hub : WorkflowHub) (session : Session) (owner : String) (now : Int) :
    Result Unit :=
  match poll with
  | .workflows => pure ()
  | .runStatus operation => do
    let receipt ← LocalHub.runStatus hub.store.board operation now
    staging.around.verifyTarget owner receipt.targetNodeId
  | .pending => staging.around.verifyTarget owner session.node

def pollWorkflows (hub : WorkflowHub) (session : Session) (poll : Poll) (now : Int) :
    Result WorkflowHub := do
  let owner ← staging.around.verifiedOwner session.node
  let advanced := advanceOwner staging turns hub owner
  poll.reads staging advanced session owner now
  pure advanced

/-- The owner's own request of a correction. -/
def privateCodeCorrectionStage (hub : WorkflowHub) (session : Session)
    (request : PrivateCorrectionRequest) : Result WorkflowHub := do
  let owner ← staging.around.verifiedOwner session.node
  let (board, _) ← stageCorrection staging hub.store.board request owner
  pure (hub.withBoard board)

/-- The queue of a computer leaves out the tasks of inactive workflows. -/
def WorkflowHub.directed (hub : WorkflowHub) : PreparationOp → PreparationOp
  | .take session _ => .take session hub.inactive
  | op => op

inductive WorkflowOp where
  | start (session : Session) (request : ReviewWorkflowRequest)
  | poll (session : Session) (poll : Poll)
  | stop (session : Session) (id : Uuid)
  | stageCorrection (session : Session) (request : PrivateCorrectionRequest)
  | store (op : PreparationOp)

/-- A transaction with what it reads elsewhere, its readings of the clock, the identities it mints
and the turns of the workflows it advances. -/
structure WorkflowEvent where
  op : WorkflowOp
  staging : Staging
  clock : Nat → Int
  fresh : Nat → Uuid
  turns : Nat → Turn

def WorkflowEvent.reply (event : WorkflowEvent) (hub : WorkflowHub) : Result WorkflowHub :=
  match event.op with
  | .start session request =>
    privateReviewWorkflowStart event.staging event.turns hub session request (event.clock 0)
      event.fresh
  | .poll session poll => pollWorkflows event.staging event.turns hub session poll (event.clock 0)
  | .stop session id => privateReviewWorkflowStop event.staging hub session id (event.clock 0)
  | .stageCorrection session request => privateCodeCorrectionStage event.staging hub session request
  | .store op => do
    let store ← PreparationEvent.reply ⟨hub.directed op, event.staging.around, event.clock⟩ hub.store
    pure { hub with store }

def WorkflowHub.step (hub : WorkflowHub) (event : WorkflowEvent) : WorkflowHub :=
  match event.reply hub with
  | .ok next => next
  | .error _ => hub

/-- The hub after the first transactions of a run that begins with a new hub. -/
abbrev hubAt (events : List WorkflowEvent) (moment : Nat) : WorkflowHub :=
  stateAt WorkflowHub.step WorkflowHub.empty events moment

end Operations

end OHHive.LocalHub
