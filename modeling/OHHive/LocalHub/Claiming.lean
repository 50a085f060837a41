import OHHive.Foundation.Run
import OHHive.LocalHub.Board
import Mathlib.Data.List.Sort

/-! Claims, private runs and private coding tasks of the local hub, and the board's step: one
transaction of any session or of the host, rolled back when it fails. -/

namespace OHHive.LocalHub

open Foundation

section Claims

/-- The preparation of a remotely staged card. -/
structure Preparation where
  targetNodeId : NodeId
  prepared : Bool
deriving DecidableEq, Repr

/-- What a transaction reads from the tables of other subsystems: agent assignments, the
verified owner of a node and the nodes of an owner, preparations, enrolled nodes and tool
servers. -/
structure Surroundings where
  assignment : ClaimedCard → Result Unit
  verifiedOwner : NodeId → Result String
  verifyTarget : String → NodeId → Result Unit
  preparation : CardId → Option Preparation
  enrolled : NodeId → Bool
  mcpEnabled : String → Bool

variable (around : Surroundings)

/-- Generic workers cannot drain explicit private runs, and a session cannot turn the run of
an earlier attempt into another one. -/
def allowsClaim (board : Board) (hub : Session) (card : ClaimedCard) : Result Bool :=
  if card.requiredCapabilities.targetNodeId.any (fun target => target ≠ hub.node) then .ok false
  else match around.preparation card.id, hub.runScope with
    | none, none => do
      around.assignment card
      pure true
    | none, some _ => .ok false
    | some _, none => .ok false
    | some _, some operation => do
      around.assignment card
      let owner ← around.verifiedOwner hub.node
      around.verifyTarget owner hub.node
      pure (board.privateRuns.rows.any (fun run =>
          run.id = operation && run.cardId = card.id && run.targetNodeId = hub.node &&
            run.state = .queued) &&
        !board.privateRunStops.rows.any (fun stop => stop.operationId = operation) &&
        !board.privateRunRetries.rows.any (fun retry => retry.previousId = operation) &&
        !board.privateRuns.rows.any (fun old => old.cardId = card.id && old.id ≠ operation &&
          old.session = some hub.session))

def ClaimedCard.requirements (card : ClaimedCard) : Requirements :=
  let required := card.requiredCapabilities
  { modality := some card.modality
    modelId := required.modelId
    requiresInternet := card.requiresInternet
    minRamBytes := required.minRamBytes
    minVramBytes := required.minVramBytes
    toolsLevel :=
      if card.modality = .code || required.toolsLevel = some "sandboxed_tools" then .sandboxedTools
      else .inferenceOnly }

/-- The stored output of a finished dependency. -/
def dependencyOutput (board : Board) (card : ClaimedCard) (key : String) : Option String := do
  let dependency ← board.cards.rows.find? (fun other =>
    other.data.projectId = card.projectId && other.data.key = key &&
      (other.status = .review || other.status = .done))
  let output ← board.output? dependency.id
  some output.content

def dependencyOutputs (board : Board) (card : ClaimedCard) : Option (List (String × String)) :=
  card.deps.mapM (fun key => (dependencyOutput board card key).map (fun content => (key, content)))

/-- The outputs a card would be claimed with, when this session may claim it. -/
def eligible (board : Board) (hub : Session) (caps : Capabilities) (card : ClaimedCard) :
    Result (Option (List (String × String))) := do
  if hub.claimScope.any (fun id => id ≠ card.id) then pure none
  else
    let allowed ← allowsClaim around board hub card
    let required := card.requiredCapabilities
    if !allowed || !caps.satisfies card.requirements then pure none
    else if required.targetNodeId.any (fun target => target ≠ hub.node) then pure none
    else if required.mcpServerId.any (fun server =>
        caps.toolsLevel ≠ .sandboxedTools || !around.mcpEnabled server) then pure none
    else pure (dependencyOutputs board card)

/-- One child as the coordinator's brief reports it. -/
structure ChildReport where
  cardId : CardId
  key : String
  status : CardStatus
  modality : Modality
  checks : String
  content : Option String
deriving DecidableEq, Repr

/-- The children a coordinating coding card is briefed on. -/
def coordinatorChildren (board : Board) (card : ClaimedCard) : List ChildReport :=
  let children := board.cards.rows.filter (fun child => ⟨card.id, child.id⟩ ∈ board.childLinks.rows)
  let sorted := children.insertionSort (fun first second => first.data.key ≤ second.data.key)
  (sorted.take 17).map (fun child =>
    { cardId := child.id
      key := child.data.key
      status := child.status
      modality := child.data.modality
      checks := child.data.requiredCapabilities.acceptance
      content := (board.output? child.id).map CardOutput.content })

structure Claimed where
  card : ClaimedCard
  project : Project
  depOutputs : List (String × String)
  coordinated : Option (List ChildReport)
  checkpoint : Option Checkpoint
  leaseExpiresAt : Int
deriving DecidableEq, Repr

inductive Claim where
  | notCheckedIn
  | alreadyLeased
  | nothingToDo
  | leased (claimed : Claimed)
deriving DecidableEq, Repr

def leaseTtl (card : ClaimedCard) : Int := if card.modality = .code then 14400 else 900

/-- The run a scoped claim starts. -/
def startRun (board : Board) (hub : Session) : Board :=
  match hub.runScope with
  | none => board
  | some operation =>
    { board with
      privateRuns := board.privateRuns.updateWhere
        (fun run => run.id = operation && run.state = .queued)
        (fun run => { run with state := .running, session := some hub.session }) (fun _ => rfl) }

/-- The lease of a card that may be claimed, and its reply. -/
def leaseCard (board : Board) (hub : Session) (card : ClaimedCard)
    (depOutputs : List (String × String)) (now : Int) : Result (Board × Claim) := do
  let project ← orFail (board.projects.lookup card.projectId) dbError
  let expires := now + leaseTtl card
  let leased ← board.insertLease ⟨card.id, hub.node, hub.session, expires, leaseTtl card⟩
  let running := leased.setStatus (fun stored => stored.id = card.id) .running none
  pure (startRun running hub, .leased
    { card, project, depOutputs
      coordinated :=
        if card.modality = .code && card.requiredCapabilities.coordinator then
          some (coordinatorChildren board card)
        else none
      checkpoint := board.checkpoints.lookup card.id
      leaseExpiresAt := expires })

/-- The first card of the list this session may claim is leased to it. -/
def claimFirst (board : Board) (hub : Session) (caps : Capabilities) (now : Int) :
    List Card → Result (Board × Claim)
  | [] => .ok (board, .nothingToDo)
  | card :: rest => do
    let outputs ← eligible around board hub caps card.data
    match outputs with
    | none => claimFirst board hub caps now rest
    | some depOutputs => leaseCard board hub card.data depOutputs now

/-- A checked-in node without a lease claims from the settled board. -/
def claimSettled (settled : Board) (hub : Session) (caps : Capabilities) (now : Int) :
    Result (Board × Claim) :=
  if settled.leases.rows.any (fun lease => lease.nodeId = hub.node) then
    .ok (settled, .alreadyLeased)
  else
    claimFirst around settled hub caps now
      (settled.cards.rows.filter (fun card => card.status = .ready))

def claimCard (board : Board) (hub : Session) (clock : Nat → Int) : Result (Board × Claim) := do
  let settled := settle board (clock 0) (clock 1)
  let node ← orFail (settled.nodes.lookup hub.node) dbError
  match node.checkedIn, node.caps with
  | true, some caps => claimSettled around settled hub caps (clock 2)
  | _, _ => pure (settled, .notCheckedIn)

end Claims

section PrivateRuns

/-- The state of a run as its status reports it. -/
inductive ReportedState where
  | queued
  | running
  | stopping
  | stopped
  | finished
  | blocked
  | interrupted
  | superseded
deriving DecidableEq, Repr

structure PrivateRunStatus where
  operationId : OperationId
  taskId : CardId
  targetNodeId : NodeId
  state : ReportedState
  taskStatus : CardStatus
  reason : Option String
  leaseActive : Bool
  stopRequested : Bool
deriving DecidableEq, Repr

def reportedState (run : PrivateRun) (task : CardStatus) (leaseActive stopRequested superseded : Bool) :
    ReportedState :=
  if superseded then .superseded
  else if stopRequested && !(task = .review || task = .done) then
    if leaseActive then .stopping else .stopped
  else match run.state, task with
    | .running, .review | .running, .done => .finished
    | .running, .blocked => .blocked
    | .running, _ => if leaseActive then .running else .interrupted
    | .queued, _ => .queued

def runStatus (board : Board) (operation : OperationId) (now : Int) : Result PrivateRunStatus := do
  let run ← orFail (board.privateRuns.lookup operation) dbError
  let card ← orFail (board.card? run.cardId) dbError
  let leaseActive := board.leases.rows.any (fun lease =>
    lease.cardId = run.cardId && some lease.session = run.session &&
      lease.nodeId = run.targetNodeId && now < lease.expires)
  let stopRequested := board.privateRunStops.rows.any (fun stop => stop.operationId = operation)
  let superseded := board.privateRunRetries.rows.any (fun retry => retry.previousId = operation)
  pure
    { operationId := operation
      taskId := run.cardId
      targetNodeId := run.targetNodeId
      state := reportedState run card.status leaseActive stopRequested superseded
      taskStatus := card.status
      reason := card.reason
      leaseActive
      stopRequested }

variable (around : Surroundings)

/-- The owner's authorization of one execution of a prepared card. -/
def privateRunRequest (board : Board) (hub : Session) (operation : OperationId) (task : CardId)
    (clock : Nat → Int) : Result Board := do
  require (operation ≠ 0) (rejected "invalid run identity")
  let owner ← around.verifiedOwner hub.node
  let preparation ← orFail (around.preparation task) dbError
  around.verifyTarget owner preparation.targetNodeId
  match board.privateRuns.lookup operation with
  | some _ => do
    let receipt ← runStatus board operation (clock 0)
    require (receipt.taskId = task ∧ receipt.targetNodeId = preparation.targetNodeId)
      (rejected "run request ID conflicts with existing work")
    pure board
  | none => do
    require (preparation.prepared ∧
        board.cards.rows.any (fun card => card.id = task && card.status = .blocked &&
          card.reason = some "awaiting_private_run") ∧
        board.leases.rows.all (fun lease => lease.cardId ≠ task) ∧
        board.privateRuns.rows.all (fun run => run.cardId ≠ task))
      (rejected "task is not prepared for a new run")
    let privateRuns ← orFail (board.privateRuns.insert?
      ⟨operation, task, preparation.targetNodeId, .queued, none, clock 0⟩) dbError
    pure (Board.setStatus { board with privateRuns } (fun card => card.id = task) .ready none)

/-- The stop of a run is recorded once; a card still ready is no longer claimable. -/
def privateRunStop (board : Board) (hub : Session) (operation : OperationId)
    (clock : Nat → Int) : Result Board := do
  let owner ← around.verifiedOwner hub.node
  let receipt ← runStatus board operation (clock 0)
  around.verifyTarget owner receipt.targetNodeId
  if receipt.state = .finished ∨ receipt.state = .superseded then pure board
  else
    let stopped : Board :=
      match board.privateRunStops.insert? ⟨operation, hub.node, clock 1⟩ with
      | some privateRunStops => { board with privateRunStops }
      | none => board
    pure (stopped.setStatus (fun card => card.id = receipt.taskId && card.status = .ready)
      .blocked (some "private_run_stopped"))

/-- A card that left traces of work is not run again without review. -/
def unsafeState (board : Board) (id : CardId) (now : Int) : Bool :=
  board.leases.rows.any (fun lease => lease.cardId = id && now < lease.expires) ||
    (board.output? id).isSome ||
    board.childLinks.rows.any (fun link => link.parent = id) ||
    (board.checkpoints.lookup id).isSome

/-- An explicit new attempt: the earlier run is retired and its expired lease removed. -/
def privateRunRetry (board : Board) (hub : Session) (previous next : OperationId)
    (clock : Nat → Int) : Result Board := do
  require (next ≠ 0 ∧ next ≠ previous) (rejected "retry needs a new operation identity")
  let owner ← around.verifiedOwner hub.node
  let prior ← runStatus board previous (clock 0)
  around.verifyTarget owner prior.targetNodeId
  match board.privateRunRetries.rows.find? (fun retry => retry.previousId = previous) with
  | some existing => do
    require (existing.nextId = next) (rejected "this attempt already has a different retry")
    pure board
  | none => do
    require (prior.leaseActive = false ∧
        (prior.state = .stopped ∨ prior.state = .blocked ∨ prior.state = .interrupted))
      (rejected "stop or finish the current attempt before retrying")
    require (unsafeState board prior.taskId (clock 1) = false)
      (rejected "task has output, child work or checkpoints requiring review")
    let privateRuns ← orFail (board.privateRuns.insert?
      ⟨next, prior.taskId, prior.targetNodeId, .queued, none, clock 2⟩) dbError
    let privateRunRetries ← orFail (board.privateRunRetries.insert?
      ⟨previous, next, hub.node, clock 3⟩) dbError
    let retried := Board.deleteLeases { board with privateRuns, privateRunRetries }
      (fun lease => lease.cardId = prior.taskId && lease.expires ≤ clock 4)
    pure (retried.setStatus (fun card => card.id = prior.taskId) .blocked
      (some "awaiting_retry_validation"))

/-- The target attests its checkout before a retry can be claimed. -/
def privateRunReady (board : Board) (hub : Session) (operation : OperationId)
    (clock : Nat → Int) : Result Board := do
  let owner ← around.verifiedOwner hub.node
  let receipt ← runStatus board operation (clock 0)
  around.verifyTarget owner receipt.targetNodeId
  require (receipt.targetNodeId = hub.node ∧ receipt.state = .queued ∧
      receipt.stopRequested = false)
    (rejected "run is not queued for this computer")
  pure (board.setStatus (fun card => card.id = receipt.taskId && card.status = .blocked &&
    card.reason = some "awaiting_retry_validation") .ready none)

end PrivateRuns

section CodeTasks

def waiting : String := "awaiting_repository_preparation"

variable (around : Surroundings)

/-- A staged coding task is stored but not claimable; the same submission finds it again. -/
def stagePrivateCodeTask (board : Board) (card : ClaimedCard) : Result Board :=
  match board.card? card.id with
  | some stored => do
    require (stored.data.requiredCapabilities.submission = card.requiredCapabilities.submission ∧
        stored.data.projectId = card.projectId)
      (rejected "submission request ID conflicts with existing work")
    pure board
  | none => do
    validateCard card
    board.insertCard ⟨card, .blocked, some waiting⟩

/-- The staged task a host may prepare, or with `retry` the one it may attempt again. -/
def privateTaskCard (board : Board) (id : CardId) (node : NodeId) (retry : Bool) (now : Int) :
    Result ClaimedCard := do
  let card ← orFail (board.card? id) dbError
  if retry then
    require (card.status = .blocked ∧ card.reason ≠ some waiting ∨ card.status = .running)
      (rejected "only interrupted or failed prepared tasks can be retried")
    require (unsafeState board id now = false)
      (rejected ("task has an active lease, result, child work or checkpoint; " ++
        "automatic recovery is unavailable"))
  else
    require (card.status = .ready ∨ card.status = .blocked ∧ card.reason = some waiting)
      (rejected "task is not awaiting preparation or already ready")
  let submission ← orFail card.data.requiredCapabilities.submission
    (rejected "not an owner-staged private task")
  require (submission.requestId = id ∧ submission.projectId = card.data.projectId ∧
      submission.targetNodeId = node ∧ card.data.requiredCapabilities.targetNodeId = some node)
    (rejected "private task belongs to another computer")
  around.assignment card.data
  require (around.enrolled node) (rejected "target computer was revoked")
  require (¬ ((card.status = .ready ∨ retry) ∧
      card.data.requiredCapabilities.preparedWorkspaceRoot = none))
    (rejected "ready task has no preparation receipt")
  pure card.data

def Card.prepared (workspace : String) (status : CardStatus) (reason : Option String)
    (card : Card) : Card :=
  { data := { card.data with
      requiresInternet := false
      requiredCapabilities :=
        { card.data.requiredCapabilities with preparedWorkspaceRoot := some workspace } }
    status
    reason }

theorem Card.identity_prepared (workspace : String) (status : CardStatus)
    (reason : Option String) (card : Card) :
    (card.prepared workspace status reason).identity = card.identity := rfl

/-- The worker's checkout is attested; the status is left alone. -/
def Card.attested (workspace : String) (card : Card) : Card :=
  card.prepared workspace card.status (some "awaiting_private_run")

theorem Card.identity_attested (workspace : String) (card : Card) :
    (card.attested workspace).identity = card.identity := rfl

/-- The transaction that publishes a prepared task, when it is still as the host read it. -/
def publishPrivateCodeTask (board : Board) (id : CardId) (node : NodeId) (read : ClaimedCard)
    (workspace : String) (clock : Nat → Int) : Result Board := do
  let current ← privateTaskCard around board id node false (clock 0)
  require (current = read) (rejected "staged coding task changed during preparation")
  pure (board.updateCards (fun card => card.id = id) (Card.prepared workspace .ready none)
    (Card.identity_prepared _ _ _))

/-- The transaction that starts a fresh attempt, when the task is still as the host read it. -/
def retryPrivateCodeTask (board : Board) (id : CardId) (node : NodeId) (read : ClaimedCard)
    (clock : Nat → Int) : Result Board := do
  let current ← privateTaskCard around board id node true (clock 0)
  require (current = read) (rejected "task changed during recovery")
  pure ((board.deleteLeases (fun lease => lease.cardId = id)).setStatus
    (fun card => card.id = id) .ready none)

/-- The assigned worker's attestation leaves the task waiting for its run. -/
def completePreparation (board : Board) (id : CardId) (workspace : String) : Result Board := do
  let card ← orFail (board.card? id) dbError
  require (card.status = .blocked ∧ card.reason = some waiting)
    (rejected "task changed during preparation")
  pure (board.updateCards (fun card => card.id = id) (Card.attested workspace)
    (Card.identity_attested _))

end CodeTasks

section Operations

/-- One transaction on the board. -/
inductive Op where
  | createProject (project : Project)
  | enroll (node : NodeId)
  | checkIn (hub : Session) (caps : Capabilities)
  | checkOut (hub : Session)
  | addCard (card : ClaimedCard)
  | settle
  | claimCard (hub : Session)
  | heartbeat (hub : Session)
  | checkpoint (hub : Session) (id : CardId) (step : Nat) (state : String) (usage : Usage)
  | completeCard (hub : Session) (id : CardId) (content : String) (model : Option String)
      (usage : Usage)
  | failCard (hub : Session) (id : CardId) (reason : String)
  | releaseCard (hub : Session) (id : CardId) (reason : String)
  | spawnChildCard (hub : Session) (parent : CardId) (child : ClaimedCard)
  | waitOnChild (hub : Session) (id child : CardId)
  | privateRunRequest (hub : Session) (operation : OperationId) (task : CardId)
  | privateRunStop (hub : Session) (operation : OperationId)
  | privateRunRetry (hub : Session) (previous next : OperationId)
  | privateRunReady (hub : Session) (operation : OperationId)
  | stagePrivateCodeTask (card : ClaimedCard)
  | publishPrivateCodeTask (id : CardId) (node : NodeId) (read : ClaimedCard) (workspace : String)
  | retryPrivateCodeTask (id : CardId) (node : NodeId) (read : ClaimedCard)
  | completePreparation (id : CardId) (workspace : String)

/-- A transaction with what it reads elsewhere and its successive readings of the clock. -/
structure Event where
  op : Op
  around : Surroundings
  clock : Nat → Int

def addCard (board : Board) (card : ClaimedCard) : Result Board := do
  let card := if card.modality = .code && card.requiredCapabilities.repoUrl.isSome then
    { card with requiresInternet := true } else card
  validateCard card
  board.insertCard ⟨card, .ready, none⟩

def createProject (board : Board) (project : Project) : Result Board := do
  let projects ← orFail (board.projects.insert? project) dbError
  pure { board with projects }

def enroll (board : Board) (node : NodeId) : Result Board := do
  let nodes ← orFail (board.nodes.insert? ⟨node, none, false⟩) dbError
  pure { board with nodes }

def checkIn (board : Board) (hub : Session) (caps : Capabilities) : Board :=
  { board with
    nodes := board.nodes.updateWhere (fun node => node.id = hub.node)
      (fun node => { node with caps := some caps, checkedIn := true }) (fun _ => rfl) }

def checkOut (board : Board) (hub : Session) : Board :=
  { board with
    nodes := board.nodes.updateWhere (fun node => node.id = hub.node)
      (fun node => { node with checkedIn := false }) (fun _ => rfl) }

def Op.perform (around : Surroundings) (clock : Nat → Int) (board : Board) : Op → Result Board
  | .createProject project => LocalHub.createProject board project
  | .enroll node => LocalHub.enroll board node
  | .checkIn hub caps => .ok (LocalHub.checkIn board hub caps)
  | .checkOut hub => .ok (LocalHub.checkOut board hub)
  | .addCard card => LocalHub.addCard board card
  | .settle => .ok (LocalHub.settle board (clock 0) (clock 1))
  | .claimCard hub => Prod.fst <$> LocalHub.claimCard around board hub clock
  | .heartbeat hub => .ok (LocalHub.heartbeat board hub clock)
  | .checkpoint hub id step state usage => LocalHub.checkpoint board hub id step state usage clock
  | .completeCard hub id content model usage =>
      LocalHub.completeCard board hub id content model usage clock
  | .failCard hub id reason => LocalHub.failCard board hub id reason clock
  | .releaseCard hub id reason => LocalHub.releaseCard board hub id reason clock
  | .spawnChildCard hub parent child =>
      Prod.fst <$> LocalHub.spawnChildCard board hub parent child clock
  | .waitOnChild hub id child => LocalHub.waitOnChild board hub id child clock
  | .privateRunRequest hub operation task =>
      LocalHub.privateRunRequest around board hub operation task clock
  | .privateRunStop hub operation => LocalHub.privateRunStop around board hub operation clock
  | .privateRunRetry hub previous next =>
      LocalHub.privateRunRetry around board hub previous next clock
  | .privateRunReady hub operation => LocalHub.privateRunReady around board hub operation clock
  | .stagePrivateCodeTask card => LocalHub.stagePrivateCodeTask board card
  | .publishPrivateCodeTask id node read workspace =>
      LocalHub.publishPrivateCodeTask around board id node read workspace clock
  | .retryPrivateCodeTask id node read =>
      LocalHub.retryPrivateCodeTask around board id node read clock
  | .completePreparation id workspace => LocalHub.completePreparation board id workspace

/-- The reply of a transaction: the new board, or an error that leaves the board as it was. -/
def Event.reply (event : Event) (board : Board) : Result Board :=
  event.op.perform event.around event.clock board

def Board.step (board : Board) (event : Event) : Board :=
  match event.reply board with
  | .ok next => next
  | .error _ => board

/-- The board after the first transactions of a run that begins with a new hub. -/
abbrev boardAt (events : List Event) (moment : Nat) : Board :=
  stateAt Board.step Board.empty events moment

end Operations

end OHHive.LocalHub
