import OHHive.Foundation.Value
import OHHive.LocalHub.CodeTasks

/-! A coding session: the loop of model turns and tool calls inside one lease, the checks that the
model asks for, and those that the host runs on its final reply. -/

namespace OHHive.Coder

open Foundation LocalHub

section Checks

/-- What running one command comes to. -/
structure Captured where
  exitCode : Option Int
  timedOut : Bool
  stdout : Text
  stderr : Text
deriving DecidableEq

/-- What the host meets at one check: two readings of the clock, and how the command ends. -/
structure Probe where
  before : Int
  after : Int
  ran : Except Text Captured
deriving DecidableEq

/-- The result of one check. -/
def checkResult (commandLine : AcceptanceCheck → Text) (check : AcceptanceCheck)
    (ran : Except Text Captured) : AcceptanceResult :=
  match ran with
  | .ok captured =>
    { name := check.name.toList
      commandLine := commandLine check
      exitStatus := captured.exitCode
      passed := !captured.timedOut && captured.exitCode = some check.expectExit
      required := check.required
      timedOut := captured.timedOut
      stdoutTail := captured.stdout
      stderrTail := captured.stderr
      error := none }
  | .error reason =>
    { name := check.name.toList
      commandLine := commandLine check
      exitStatus := none
      passed := false
      required := check.required
      timedOut := false
      stdoutTail := []
      stderrTail := []
      error := some reason }

/-- The error of a required check that could not run. -/
def checkError (check : AcceptanceCheck) : Except Text Captured → Option Text
  | .error reason =>
    if check.required then some (check.name.toList ++ ": ".toList ++ reason) else none
  | .ok _ => none

/-- `acceptance::run` from a check on, with the results and the last error so far. -/
def runChecksFrom (commandLine : AcceptanceCheck → Text) (lease : Int) (probes : Nat → Probe) :
    Nat → List AcceptanceCheck → List AcceptanceResult → Option Text → AcceptanceOutcome
  | _, [], results, some error => .errored results error
  | _, [], results, none =>
    if results.any fun result => result.required && !result.passed then .failed results
    else .passed results
  | index, check :: rest, results, error =>
    let probe := probes index
    if lease ≤ probe.before then .skipped
    else if lease ≤ probe.after then .skipped
    else
      runChecksFrom commandLine lease probes (index + 1) rest
        (results ++ [checkResult commandLine check probe.ran])
        (checkError check probe.ran <|> error)

/-- `acceptance::run`. -/
def runChecks (commandLine : AcceptanceCheck → Text) (lease : Int) (checks : List AcceptanceCheck)
    (probes : Nat → Probe) : AcceptanceOutcome :=
  if checks.isEmpty then .unverified
  else runChecksFrom commandLine lease probes 0 checks [] none

/-- A run of the checks that ended in other than plain results. -/
def AcceptanceOutcome.isFatal : AcceptanceOutcome → Bool
  | .skipped | .errored .. | .unverified => true
  | .passed results | .failed results =>
    results.any fun result => result.timedOut || result.error.isSome

def AcceptanceOutcome.stopped : AcceptanceOutcome → AcceptanceOutcome
  | .passed results | .failed results =>
    .errored results "Verification execution stopped; no automatic replay is permitted".toList
  | other => other

/-- Failed checks that each ran to an end. -/
def AcceptanceOutcome.isRepairable : AcceptanceOutcome → Bool
  | .failed results => results.all fun result => !result.timedOut && result.error.isNone
  | _ => false

end Checks

section Specs

/-- What a session reads of its card. The last two fields are checked when the card is read. -/
structure CodeSessionSpec where
  maxTurns : Nat
  maxAcceptanceRepairs : Nat
  maxVerificationRuns : Nat
  acceptance : List AcceptanceCheck
  reviewCapture : Option CaptureIdentity
  independentReview : Option ReviewRequest
  checkerCorrection : Option CorrectionContext
  turns : maxTurns ≠ 0
  checker : independentReview.isSome → acceptance = []

/-- The children of a coordinator: whether there are any, and what keeps it from completing. -/
structure CoordinatorContext where
  hasChildren : Bool
  completionError : Option Text

structure ToolCall where
  name : String
  arguments : Value

inductive BrainTurn where
  | text (text : Text) (model : Option Text)
  | toolCalls (calls : List ToolCall) (model : Option Text)

/-- `VerificationState`. -/
structure VerificationState where
  runs : Nat
  terminal : Option AcceptanceOutcome
  lastFailure : Option AcceptanceOutcome

def VerificationState.default : VerificationState := ⟨0, none, none⟩

def ToolCall.isBare (call : ToolCall) : Bool :=
  match call.arguments with
  | .object members => members.isEmpty
  | _ => false

/-- Why the checks are not run for a call. -/
def VerificationState.refusal (state : VerificationState) (spec : CodeSessionSpec)
    (call : ToolCall) : Option String :=
  if spec.maxVerificationRuns = 0 then
    some "Agent-invoked checks were not authorized for this task"
  else if !call.isBare then
    some "verify_task accepts only {}; commands and replacement checks are not accepted"
  else if state.terminal.isSome then
    some ("Verification stopped on an execution error, timeout or expired lease; " ++
      "no checks will be replayed")
  else if spec.maxVerificationRuns ≤ state.runs then
    some "The saved verification invocation limit is exhausted; no extra runs are granted"
  else if spec.acceptance.isEmpty then some "No checks are declared"
  else none

/-- `VerificationState::run`, from the end of its checks on. -/
def VerificationState.ran (state : VerificationState) (checks : AcceptanceOutcome) :
    VerificationState :=
  let fatal := checks.isFatal
  let checks := if fatal then checks.stopped else checks
  { runs := state.runs + 1
    terminal := if fatal then some checks else state.terminal
    lastFailure := if checks.blocksCompletion then some checks else state.lastFailure }

end Specs

section Sessions

/-- What the loop leaves to the end of the session. -/
structure Closing where
  acceptance : AcceptanceOutcome
  text : Text
  hitTurnLimit : Bool
  leaseExpired : Bool

inductive Ending where
  | finished (outcome : CodeSessionOutcome)
  | waiting (child : Uuid)
  | failed (reason : Text)

/-- Where a session stands. -/
inductive SessionStage where
  | preparing
  | turning
  | calling (calls : List ToolCall)
  | verifying (calls : List ToolCall)
  | accepting (text : Text)
  | judging (text : Text) (checks : AcceptanceOutcome)
  | closing (closing : Closing)
  | ended (ending : Ending)

/-- What a session did: a model turn, the start of a tool with the reading of the clock before it,
a run of the checks that the model asked for, and one on its final reply. -/
inductive Happening where
  | turn
  | tool (call : ToolCall) (now : Int)
  | verified (checks : AcceptanceOutcome)
  | accepted (checks : AcceptanceOutcome)

/-- A session, with two parts of its history: what it did, and whether it read the clock at or past
the lease's end. -/
structure SessionLoop where
  stage : SessionStage
  base : Option Text
  turns : Nat
  repairs : Nat
  models : List (Option Text)
  verification : VerificationState
  lastAcceptance : Option AcceptanceOutcome
  spawned : Bool
  log : List Happening
  late : Bool

/-- What a session meets next: how its workspace is prepared, a checker's only turn, a turn of the
model, a tool's result, the commands of the checks, the reading of the clock after the checks, and
the end. -/
inductive SessionMove where
  | prepare (workspace : Except Text (Option Text))
  | review (now later : Int) (reply : Option (Except Text BrainTurn)) (verdict : Except Text Text)
  | turn (now : Int) (reply : Except Text BrainTurn)
  | call (now : Int) (waits : Option Uuid) (spawns : Bool)
  | check (probes : Nat → Probe)
  | judge (now : Int)
  | close (now : Int) (reading : Except Line (List ReviewFile)) (timedOut : Bool)

/-- `session_model_id`. -/
def sessionModelId : List (Option Text) → Option Text
  | [model] => model
  | _ => none

def insertModel (models : List (Option Text)) (model : Option Text) : List (Option Text) :=
  let model := model.filter fun id => !id.all isWhitespace
  if model ∈ models then models else models ++ [model]

def SessionLoop.start : SessionLoop where
  stage := .preparing
  base := none
  turns := 0
  repairs := 0
  models := []
  verification := .default
  lastAcceptance := none
  spawned := false
  log := []
  late := false

variable (serde : Serde) (commandLine : AcceptanceCheck → Text) (spec : CodeSessionSpec)
  (context : Option CoordinatorContext) (lease : Int)

def SessionLoop.fails (loop : SessionLoop) (reason : Text) : SessionLoop :=
  { loop with stage := .ended (.failed reason) }

/-- The session notes that it read the clock. -/
def SessionLoop.reads (loop : SessionLoop) (now : Int) : SessionLoop :=
  { loop with late := loop.late || lease ≤ now }

def SessionLoop.does (loop : SessionLoop) (happening : Happening) : SessionLoop :=
  { loop with log := loop.log ++ [happening] }

/-- The next call of a turn, or the next turn. -/
def SessionStage.after : List ToolCall → SessionStage
  | [] => .turning
  | calls => .calling calls

def turnNumber (turns : Nat) : Text := Nat.toDigits 10 turns

/-- `run_session_with_context` before its loop. -/
def SessionLoop.prepare (loop : SessionLoop) (workspace : Except Text (Option Text)) :
    SessionLoop :=
  match workspace with
  | .error reason => loop.fails reason
  | .ok base =>
    match spec.checkerCorrection with
    | none => { loop with base, stage := .turning }
    | some correction =>
      match correction.validate serde with
      | .error reason => loop.fails reason
      | .ok () =>
        if base = some correction.review.package.snapshot.baseCommit then
          { loop with base, stage := .turning }
        else loop.fails (invalid "correction checkout baseline changed")

/-- `checker::run_with_context` behind its request's validation: one turn, without tools. -/
def SessionLoop.review (loop : SessionLoop) (now later : Int)
    (reply : Option (Except Text BrainTurn)) (verdict : Except Text Text) : SessionLoop :=
  if lease < now then (loop.reads lease now).fails (invalid "checker lease expired")
  else
    let asked := { loop.reads lease now with turns := loop.turns + 1 }.does .turn
    match reply with
    | none => asked.fails (invalid "checker lease expired during model response")
    | some (.error reason) => asked.fails reason
    | some (.ok turn) =>
      let asked := asked.reads lease later
      if lease ≤ later then asked.fails (invalid "checker lease expired before verdict")
      else
        match turn with
        | .toolCalls _ _ =>
          asked.fails (invalid "checker attempted a tool call; no action was executed")
        | .text text model =>
          if 16 * 1024 < byteLength text then asked.fails (invalid "checker verdict exceeds bound")
          else
            match verdict with
            | .error reason => asked.fails reason
            | .ok receipt =>
              { asked with
                stage := .ended (.finished
                  { modelId := model
                    acceptance := .unverified
                    finalText := "Independent checker verdict: ".toList ++ receipt
                    hitTurnLimit := false
                    leaseExpired := false }) }

/-- The model's reply in plain text: the checks run, unless a fatal run stands for them. -/
def SessionLoop.replied (loop : SessionLoop) (text : Text) (model : Option Text) : SessionLoop :=
  let loop := { loop with models := insertModel loop.models model }
  if text.all isWhitespace then
    loop.fails ("The model returned an empty coding reply without tool calls; " ++
      "no completion was declared.").toList
  else if loop.spawned then
    loop.fails (invalid "coordinator must wait for spawned children before completing")
  else
    match context.bind CoordinatorContext.completionError with
    | some reason => loop.fails (invalid "coordinator completion blocked: " ++ reason)
    | none =>
      match loop.verification.terminal with
      | some checks =>
        { loop with
          stage := .judging text checks
          verification := { loop.verification with terminal := none } }
      | none => { loop with stage := .accepting text }

/-- The top of the loop. -/
def SessionLoop.turn (loop : SessionLoop) (now : Int) (reply : Except Text BrainTurn) :
    SessionLoop :=
  if spec.maxTurns ≤ loop.turns then
    { loop with
      stage := .closing
        { acceptance := .skipped
          text := "session stopped after ".toList ++ turnNumber spec.maxTurns ++
            " turns without the brain declaring the task done".toList
          hitTurnLimit := true
          leaseExpired := false } }
  else
    let loop := loop.reads lease now
    if lease ≤ now then
      { loop with
        stage := .closing
          { acceptance := .skipped
            text := "session stopped after ".toList ++ turnNumber loop.turns ++
              " turns: this node's lease on the card expired".toList
            hitTurnLimit := false
            leaseExpired := true } }
    else
      let loop := { loop with turns := loop.turns + 1 }.does .turn
      match reply with
      | .error reason => loop.fails reason
      | .ok (.text text model) => loop.replied context text model
      | .ok (.toolCalls calls model) =>
        { loop with models := insertModel loop.models model, stage := .after calls }

/-- One tool call of a turn. -/
def SessionLoop.call (loop : SessionLoop) (call : ToolCall) (rest : List ToolCall) (now : Int)
    (waits : Option Uuid) (spawns : Bool) : SessionLoop :=
  let loop := loop.reads lease now
  if lease ≤ now then
    { loop with
      stage := .closing
        { acceptance := .skipped
          text := "session stopped after ".toList ++ turnNumber loop.turns ++
            " turns: this node's lease on the card expired mid-batch".toList
          hitTurnLimit := false
          leaseExpired := true } }
  else
    let loop := loop.does (.tool call now)
    if call.name = "wait_for_child" then
      match waits with
      | some child => { loop with stage := .ended (.waiting child) }
      | none => { loop with stage := .after rest }
    else if call.name = "spawn_card" && context.any CoordinatorContext.hasChildren then
      { loop with stage := .after rest }
    else if call.name = "verify_task" then
      match loop.verification.refusal spec call with
      | some _ =>
        { loop with
          lastAcceptance := loop.verification.lastFailure <|> loop.lastAcceptance
          stage := .after rest }
      | none => { loop with stage := .verifying rest }
    else
      { loop with
        spawned := loop.spawned || (call.name = "spawn_card" && spawns)
        stage := .after rest }

/-- The checks that the model asked for. -/
def SessionLoop.verify (loop : SessionLoop) (rest : List ToolCall) (probes : Nat → Probe) :
    SessionLoop :=
  let checks := runChecks commandLine lease spec.acceptance probes
  let verification := loop.verification.ran checks
  { loop.does (.verified checks) with
    verification
    lastAcceptance := verification.lastFailure <|> loop.lastAcceptance
    stage := .after rest
    late := loop.late || checks = .skipped }

/-- The checks on the model's final reply. -/
def SessionLoop.accept (loop : SessionLoop) (text : Text) (probes : Nat → Probe) : SessionLoop :=
  let checks := runChecks commandLine lease spec.acceptance probes
  { loop.does (.accepted checks) with
    stage := .judging text checks
    late := loop.late || checks = .skipped }

/-- A bounded repair, or the end of the loop. -/
def SessionLoop.judge (loop : SessionLoop) (text : Text) (checks : AcceptanceOutcome) (now : Int) :
    SessionLoop :=
  let loop := loop.reads lease now
  if checks.isRepairable && !decide (lease ≤ now) && loop.repairs < spec.maxAcceptanceRepairs &&
      loop.turns < spec.maxTurns then
    { loop with repairs := loop.repairs + 1, lastAcceptance := some checks, stage := .turning }
  else
    { loop with
      stage := .closing
        { acceptance := checks
          text
          hitTurnLimit := false
          leaseExpired := lease ≤ now } }

/-- What the host holds when the loop ends. -/
def SessionLoop.host (loop : SessionLoop) (closing : Closing) (now : Int)
    (reading : Except Line (List ReviewFile)) (timedOut : Bool) : Host where
  reviewCapture := spec.reviewCapture
  acceptance := closing.acceptance
  lastAcceptance := loop.lastAcceptance
  modelId := sessionModelId loop.models
  hitTurnLimit := closing.hitTurnLimit
  leaseExpired := closing.leaseExpired
  expiresLate := lease ≤ now
  baseCommit := loop.base
  reading
  captureTimedOut := timedOut

def SessionLoop.step (loop : SessionLoop) (move : SessionMove) : SessionLoop :=
  match loop.stage, move with
  | .preparing, .prepare workspace =>
    if !boundedChecks spec.acceptance then loop.fails (invalid checksMessage)
    else if spec.independentReview.isSome then loop
    else loop.prepare serde spec workspace
  | .preparing, .review now later reply verdict =>
    match spec.independentReview with
    | none => loop
    | some request =>
      match request.validate serde with
      | .error reason => loop.fails reason
      | .ok () => loop.review lease now later reply verdict
  | .turning, .turn now reply => loop.turn spec context lease now reply
  | .calling (call :: rest), .call now waits spawns =>
    loop.call spec context lease call rest now waits spawns
  | .verifying rest, .check probes => loop.verify commandLine spec lease rest probes
  | .accepting text, .check probes => loop.accept commandLine spec lease text probes
  | .judging text checks, .judge now => loop.judge spec lease text checks now
  | .closing closing, .close now reading timedOut =>
    { loop.reads lease now with
      stage := .ended (.finished
        (finishSession serde (loop.host spec lease closing now reading timedOut) closing.text)) }
  | _, _ => loop

/-- A session after the first moves of a run. -/
def sessionAt (moves : List SessionMove) : Nat → SessionLoop :=
  stateAt (SessionLoop.step serde commandLine spec context lease) .start moves

end Sessions

end OHHive.Coder
