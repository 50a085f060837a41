import OHHive.Coder.Checker
import OHHive.Coder.Wire
import OHHive.LocalHub.Preparations

/-! Staged coding tasks: the owner's request of a coding job or of its independent check, the
request of a correction, and the card that each is staged as. -/

namespace OHHive.LocalHub

open Foundation Coder

section Requests

/-- `AcceptanceCheck`. -/
structure AcceptanceCheck where
  name : String
  command : String
  args : List String
  cwd : Option String
  expectExit : Int
  required : Bool
deriving DecidableEq

/-- `acceptance::validate`. -/
def boundedChecks (checks : List AcceptanceCheck) : Bool :=
  checks.length ≤ 16 && checks.all (fun check =>
    !check.name.toList.all isWhitespace && check.name.utf8ByteSize ≤ 200 &&
      !check.command.toList.all isWhitespace && check.command.utf8ByteSize ≤ 1024 &&
      check.args.length ≤ 64 && (check.args.map String.utf8ByteSize).sum ≤ 8192 &&
      check.cwd.all (fun path => path.utf8ByteSize ≤ 4096))

def checksMessage : String := "acceptance checks exceed bounds or have an empty name/program"

/-- `PrivateCodeTaskRequest`. -/
structure PrivateCodeTaskRequest where
  reviewSourceTaskId : Option CardId
  requestId : Uuid
  projectId : ProjectId
  targetNodeId : NodeId
  agentId : Option Uuid
  title : String
  task : String
  modelId : Option String
  maxTurns : Nat
  codingThink : Option Bool
  maxAcceptanceRepairs : Nat
  maxVerificationRuns : Nat
  acceptance : List AcceptanceCheck
deriving DecidableEq

/-- `PrivateCorrectionRequest`. -/
structure PrivateCorrectionRequest where
  requestId : Uuid
  projectId : ProjectId
  reviewTaskId : CardId
deriving DecidableEq

/-- The keys of a coding task's `required_capabilities` that the board does not read. -/
structure TaskKeys where
  task : Option String
  maxTurns : Nat
  maxAcceptanceRepairs : Nat
  maxVerificationRuns : Nat
  codingThink : Option Bool
  vaultName : Option String
  workspacePath : Option String
  repoRef : Option String
  persona : Option String
  independentReview : Option ReviewRequest
  reviewCapture : Option CaptureIdentity
  checkerCorrection : Option CorrectionContext
  correctionReceipt : Option PrivateCorrectionRequest
deriving DecidableEq

/-- How tasks and results are written and read back. -/
structure TaskFormat extends Serde where
  submissions : Codec PrivateCodeTaskRequest
  checks : Codec (List AcceptanceCheck)
  keys : Codec TaskKeys
  receipts : Codec ReviewReceipt
  /-- The text of a specification that does not read. -/
  unread : RequiredCapabilities → Text

variable (format : TaskFormat)

/-- A request as the submission its card carries. -/
def PrivateCodeTaskRequest.submission (request : PrivateCodeTaskRequest) : Submission where
  requestId := request.requestId
  projectId := request.projectId
  targetNodeId := request.targetNodeId
  rest := String.ofList (format.submissions.encode request)

/-- The request that a submission reads as. -/
def Submission.request (submission : Submission) : Option PrivateCodeTaskRequest :=
  (format.submissions.decode submission.rest.toList).map (fun request =>
    { request with
      requestId := submission.requestId
      projectId := submission.projectId
      targetNodeId := submission.targetNodeId })

def RequiredCapabilities.keys (required : RequiredCapabilities) : Option TaskKeys :=
  format.keys.decode required.rest.toList

def RequiredCapabilities.withKeys (required : RequiredCapabilities) (keys : TaskKeys) :
    RequiredCapabilities :=
  { required with rest := String.ofList (format.keys.encode keys) }

/-- The submission under a card's receipt, read as a request. -/
def ClaimedCard.submitted (card : ClaimedCard) (missing unread : HubError) :
    Result PrivateCodeTaskRequest := do
  let submission ← orFail card.requiredCapabilities.submission missing
  orFail (submission.request format) unread

end Requests

/-- `map_err(|e| rejected(&e.to_string()))`. -/
def rejectedText {α : Type} (result : Except Text α) : Result α :=
  result.mapError (fun reason => rejected (String.ofList reason))

/-- `CodeSessionSpec::from_required_capabilities`, as a check. -/
def checkSpec (format : TaskFormat) (required : RequiredCapabilities) : Except Text Unit := do
  let keys ← orFail (required.keys format) (invalid (String.ofList (format.unread required)))
  let task ← orFail keys.task (invalid (String.ofList (format.unread required)))
  let acceptance ← orFail (format.checks.decode required.acceptance.toList)
    (invalid (String.ofList (format.unread required)))
  require (!task.toList.all isWhitespace) (invalid "task must not be empty")
  keys.independentReview.forM (ReviewRequest.validate format.toSerde)
  require (keys.independentReview.isNone || (!required.coordinator && keys.vaultName.isNone &&
      acceptance.isEmpty && keys.maxAcceptanceRepairs = 0 && keys.maxVerificationRuns = 0 &&
      keys.reviewCapture.isNone && keys.checkerCorrection.isNone))
    (invalid "checker cannot receive commands, Library tools, delegation or repair rights")
  keys.checkerCorrection.forM (CorrectionContext.validate format.toSerde)
  require (keys.checkerCorrection.all (fun correction =>
      let snapshot := correction.review.package.snapshot
      !required.coordinator && keys.vaultName.isNone && keys.workspacePath.isNone &&
        keys.repoRef.map String.toList = some snapshot.baseCommit &&
        keys.reviewCapture.any (fun identity => identity.agentId = snapshot.identity.agentId &&
          identity.originalTask = snapshot.identity.originalTask)))
    (invalid "correction must preserve the original coder, task and baseline without extra grants")
  require (keys.independentReview.isSome || keys.workspacePath.isSome || required.repoUrl.isSome)
    (invalid "must set workspace_path or repo_url")
  require (keys.maxTurns ≠ 0) (invalid "max_turns must be at least 1")
  require (keys.maxAcceptanceRepairs ≤ 3) (invalid "at most three acceptance repairs are allowed")
  require (keys.maxVerificationRuns ≤ 3 ∧ (keys.maxVerificationRuns = 0 ∨ acceptance ≠ []))
    (invalid "verification requires declared checks and at most three runs")
  require (boundedChecks acceptance) (invalid checksMessage)

/-- What the staging of a task reads from other subsystems: the agents' profiles, with the
persona of one who may do the work, and the projects' repositories. -/
structure Staging where
  around : Surroundings
  format : TaskFormat
  agentSnapshot : PrivateCodeTaskRequest → Result (Option String)
  repository : ProjectId → Option (String × Option String)

section Tasks

variable (staging : Staging)

def nilNode : NodeId := "00000000-0000-0000-0000-000000000000"

def taskKey (id : CardId) : String := "private-code-" ++ String.ofList (uuidText id)

/-- The frozen result that an independent check is to be about. -/
def reviewSource (board : Board) (request : PrivateCodeTaskRequest) (source : CardId) :
    Result ReviewRequest := do
  require (request.acceptance = [] ∧ request.maxAcceptanceRepairs = 0 ∧
      request.maxVerificationRuns = 0 ∧ source ≠ request.requestId)
    (rejected "checker cannot execute commands, repair or review itself")
  let checker ← orFail request.agentId (rejected "select a distinct checker agent")
  let card ← orFail ((board.card? source).filter (fun card =>
    card.data.projectId = request.projectId)) dbError
  require (card.status = .review ∨ card.status = .done)
    (rejected "source coder has not finished successfully")
  let submission ← card.data.submitted staging.format
    (rejected "source must be a private owner-staged task") (rejected "invalid source task")
  let owner ← staging.around.verifiedOwner request.targetNodeId
  staging.around.verifyTarget owner submission.targetNodeId
  require (submission.reviewSourceTaskId = none)
    (rejected "source must be coding work, not a checker")
  let output ← orFail (board.output? source) (rejected "source has no result")
  let package ← rejectedText (ReviewPackage.fromOutput staging.format.toSerde output.content.toList)
  let identity := package.snapshot.identity
  require (identity.taskId = source ∧ some identity.agentId = submission.agentId ∧
      identity.originalTask = submission.task.toList)
    (rejected "review package does not match source submission")
  let review : ReviewRequest := ⟨checker, package⟩
  rejectedText (review.validate staging.format.toSerde)
  pure review

/-- The check that a request asks for, if it asks for one. -/
def requestedReview (board : Board) (request : PrivateCodeTaskRequest) :
    Result (Option ReviewRequest) :=
  match request.reviewSourceTaskId with
  | some source => some <$> reviewSource staging board request source
  | none => pure none

/-- The task text with its agent's context. -/
def taskText (persona : Option String) (task : String) : String :=
  match persona with
  | some context => "Owner-selected coding agent context: " ++ context ++ ". This identity and " ++
      "biography do not grant additional tools, Library access or delegation. The selected model " ++
      "and execution computer are authoritative.\n\nProject task:\n" ++ task
  | none => task

/-- What a task says of itself, before its project's repository is known. -/
def taskKeys (request : PrivateCodeTaskRequest) (persona : Option String)
    (review : Option ReviewRequest) : TaskKeys where
  task := some (taskText persona request.task)
  maxTurns := request.maxTurns
  maxAcceptanceRepairs := request.maxAcceptanceRepairs
  maxVerificationRuns := request.maxVerificationRuns
  codingThink := request.codingThink
  vaultName := none
  workspacePath := none
  repoRef := (staging.repository request.projectId).bind Prod.snd
  persona
  independentReview := review
  reviewCapture :=
    if review.isSome then none
    else request.agentId.map (fun agent => ⟨request.requestId, agent, request.task.toList⟩)
  checkerCorrection := none
  correctionReceipt := none

/-- The card that a request is staged as. -/
def taskCard (board : Board) (request : PrivateCodeTaskRequest) : Result ClaimedCard := do
  let persona ← staging.agentSnapshot request
  let review ← requestedReview staging board request
  require (staging.around.enrolled request.targetNodeId)
    (rejected "target computer is not enrolled or has been revoked")
  let keys := taskKeys staging request persona review
  let repoUrl := (staging.repository request.projectId).map Prod.fst
  require (request.reviewSourceTaskId.isSome ∨ repoUrl.isSome)
    (rejected "connect a project repository before staging a coding task")
  pure
    { id := request.requestId
      projectId := request.projectId
      key := taskKey request.requestId
      title := request.title
      modality := .code
      inputs := request.task
      acceptance :=
        "Run the owner's explicit acceptance checks; otherwise report unverified."
      deps := request.reviewSourceTaskId.toList.map taskKey
      requiresInternet := request.reviewSourceTaskId.isNone
      requiredCapabilities :=
        { modelId := request.modelId
          minRamBytes := none
          minVramBytes := none
          toolsLevel := none
          targetNodeId := some request.targetNodeId
          mcpServerId := none
          coordinator := false
          brain := some "local"
          artifactTools := false
          repoUrl
          preparedWorkspaceRoot := none
          acceptance := String.ofList (staging.format.checks.encode request.acceptance)
          submission := some (request.submission staging.format)
          rest := String.ofList (staging.format.keys.encode keys) } }

/-- The checks of `stage_task` on the request itself. -/
def checkRequest (request : PrivateCodeTaskRequest) : Result Unit := do
  require (request.requestId ≠ 0 ∧ request.projectId ≠ 0 ∧ request.targetNodeId ≠ nilNode ∧
      request.maxTurns ≠ 0 ∧ request.maxTurns ≤ 100 ∧ request.maxAcceptanceRepairs ≤ 3 ∧
      request.maxVerificationRuns ≤ 3 ∧
      (request.maxVerificationRuns = 0 ∨ request.acceptance ≠ []))
    (rejected "invalid private coding request identity or turn limit")
  checkText request.title 1000
  checkText request.task 100000
  request.modelId.forM (fun model => checkText model 500)
  require (boundedChecks request.acceptance) (rejected checksMessage)

/-- `stage_task`: the same request again finds its card. -/
def stageTask (board : Board) (request : PrivateCodeTaskRequest) :
    Result (Board × ClaimedCard) := do
  checkRequest request
  match board.card? request.requestId with
  | some stored => do
    require (stored.data.requiredCapabilities.submission =
          some (request.submission staging.format) ∧
        stored.data.projectId = request.projectId)
      (rejected "submission request ID conflicts with existing work")
    pure (board, stored.data)
  | none => do
    let card ← taskCard staging board request
    validateCard card
    let next ← board.insertCard ⟨card, .blocked, some waiting⟩
    pure (next, card)

/-- The staged card's data is written again; its keys are not. -/
def Card.rewritten (deps : List String) (required : RequiredCapabilities) (card : Card) : Card :=
  { card with data := { card.data with deps, requiredCapabilities := required } }

theorem Card.identity_rewritten (deps : List String) (required : RequiredCapabilities)
    (card : Card) : (card.rewritten deps required).identity = card.identity := rfl

/-- `UPDATE cards SET data=?2 WHERE id=?1`. -/
def rewriteTask (board : Board) (id : CardId) (deps : List String)
    (required : RequiredCapabilities) : Board :=
  board.updateCards (fun card => card.id = id) (Card.rewritten deps required)
    (Card.identity_rewritten deps required)

end Tasks

section Corrections

variable (staging : Staging)

/-- The round after the one that a coding task corrects. -/
def nextRound (keys : Option TaskKeys) : Result Nat :=
  match keys.bind TaskKeys.checkerCorrection with
  | some earlier => do
    require (earlier.round < u32Max) (rejected "correction round overflow")
    pure (earlier.round + 1)
  | none => pure 1

/-- `validate_review_source`: the check is still about the result it was staged for. -/
def validateReviewSource (board : Board) (card : ClaimedCard) : Result Unit :=
  match (card.requiredCapabilities.keys staging.format).bind TaskKeys.independentReview with
  | none => pure ()
  | some stored => do
    let request ← card.submitted staging.format (rejected "checker missing owner submission")
      (rejected "invalid checker submission")
    let source ← orFail request.reviewSourceTaskId (rejected "checker missing source task")
    let current ← reviewSource staging board request source
    require (current = stored) (rejected "review source changed; stage a fresh checker request")

/-- What a correction is to correct: the original request, its card and the checker's findings. -/
def correctionSource (board : Board) (request : PrivateCorrectionRequest) (owner : String) :
    Result (PrivateCodeTaskRequest × ClaimedCard × CorrectionContext) := do
  let checker ← orFail ((board.card? request.reviewTaskId).filter (fun card =>
    card.data.projectId = request.projectId)) dbError
  require (checker.status = .review ∨ checker.status = .done)
    (rejected "independent checker must finish before correction")
  let keys := checker.data.requiredCapabilities.keys staging.format
  let review ← orFail (keys.bind TaskKeys.independentReview)
    (rejected "correction requires an independent checker task")
  let submission ← checker.data.submitted staging.format (rejected "invalid checker submission")
    (rejected "invalid checker submission")
  staging.around.verifyTarget owner submission.targetNodeId
  let _ ← staging.agentSnapshot submission
  validateReviewSource staging board checker.data
  let output ← orFail (board.output? request.reviewTaskId) (rejected "checker has no verdict")
  let receipt ← rejectedText
    (ReviewReceipt.fromOutput staging.format.receipts.decode output.content.toList)
  rejectedText (receipt.validate staging.format.toSerde request.reviewTaskId review)
  let coder ← orFail (board.card? review.package.snapshot.identity.taskId) dbError
  let original ← coder.data.submitted staging.format
    (rejected "invalid original coding submission") (rejected "invalid original coding submission")
  staging.around.verifyTarget owner original.targetNodeId
  let _ ← staging.agentSnapshot original
  let round ← nextRound (coder.data.requiredCapabilities.keys staging.format)
  let context : CorrectionContext := ⟨request.reviewTaskId, review, receipt, round⟩
  rejectedText (context.validate staging.format.toSerde)
  pure (original, coder.data, context)

def correctionTitle (round : Nat) (title : String) : String :=
  "Correction " ++ toString round ++ ": " ++ String.ofList (title.toList.take 300)

/-- The keys of a correction: its coder's own persona and text, and what it is to correct. -/
def correctionKeys (request : PrivateCorrectionRequest) (coder : TaskKeys)
    (context : CorrectionContext) (keys : TaskKeys) : TaskKeys :=
  { keys with
    task := coder.task
    persona := coder.persona
    repoRef := some (String.ofList context.review.package.snapshot.baseCommit)
    checkerCorrection := some context
    correctionReceipt := some request }

/-- A new correction: staged as the original request was, then bound to the checker's findings. -/
def newCorrection (board : Board) (request : PrivateCorrectionRequest) (owner : String) :
    Result (Board × ClaimedCard) := do
  let (original, coder, context) ← correctionSource staging board request owner
  let (staged, card) ← stageTask staging board
    { original with
      requestId := request.requestId
      title := correctionTitle context.round coder.title }
  let repo ← orFail coder.requiredCapabilities.repoUrl
    (rejected "source repository is unavailable")
  let coderKeys ← orFail (coder.requiredCapabilities.keys staging.format)
    (rejected "original coding persona is unavailable")
  require (coderKeys.task.isSome ∧ coderKeys.persona.isSome)
    (rejected "original coding persona is unavailable")
  let keys ← orFail (card.requiredCapabilities.keys staging.format)
    (rejected "invalid correction context")
  let deps := [taskKey request.reviewTaskId]
  let required := RequiredCapabilities.withKeys staging.format
    { card.requiredCapabilities with repoUrl := some repo }
    (correctionKeys request coderKeys context keys)
  rejectedText (checkSpec staging.format required)
  let corrected : ClaimedCard := { card with deps, requiredCapabilities := required }
  validateCard corrected
  pure (rewriteTask staged card.id deps required, corrected)

/-- `private_correction::stage`: the same request again finds its card. -/
def stageCorrection (board : Board) (request : PrivateCorrectionRequest) (owner : String) :
    Result (Board × ClaimedCard) := do
  require (request.requestId ≠ 0 ∧ request.projectId ≠ 0 ∧ request.reviewTaskId ≠ 0 ∧
      request.requestId ≠ request.reviewTaskId)
    (rejected "invalid correction request identity")
  match board.card? request.requestId with
  | some stored => do
    let keys := stored.data.requiredCapabilities.keys staging.format
    require (stored.data.projectId = request.projectId ∧
        keys.bind TaskKeys.correctionReceipt = some request)
      (rejected "correction request ID conflicts with existing work")
    let original ← stored.data.submitted staging.format (rejected "invalid correction submission")
      (rejected "invalid correction submission")
    staging.around.verifyTarget owner original.targetNodeId
    pure (board, stored.data)
  | none => newCorrection staging board request owner

end Corrections

end OHHive.LocalHub
