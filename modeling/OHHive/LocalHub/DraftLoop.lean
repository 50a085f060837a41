import OHHive.LocalHub.DependencyOutputs

/-! The worker's loop on a text card (draft, critique and revise, saved at the hub after every
step), and the hub with its workers under any sequence of moves, crashes among them. -/

namespace OHHive.LocalHub

open Foundation

section Steps

def maxRevisions : Nat := 2

def maxTokensArtifact : Nat := 4096

def maxTokensCritique : Nat := 1024

/-- What the backend answers to one prompt. -/
structure Inferred where
  text : Text
  usage : Usage
  truncated : Bool
deriving DecidableEq, Repr

/-- A worker of text cards, with how it writes what it reads back, and the parts of the standard
library and of the card's capabilities that its loop uses. -/
structure DraftWorker extends TextWorker where
  briefing : Briefing
  encodeState : LoopState → String
  decode_encode : ∀ state, decodeState (encodeState state) = some state
  maxTokens : RequiredCapabilities → Option Nat
  addSeconds : Float64 → Float64 → Float64
  toUppercase : Text → Text

def trimmed (text : Text) : Text :=
  ((text.dropWhile isWhitespace).reverse.dropWhile isWhitespace).reverse

/-- `{phase:?}` -/
def Phase.name : Phase → String
  | .waitingOnChild => "WaitingOnChild"
  | .draft => "Draft"
  | .critique => "Critique"
  | .revise => "Revise"
  | .done => "Done"

/-- The phases whose text is the card's deliverable. -/
def Phase.writes : Phase → Bool
  | .draft | .revise => true
  | _ => false

variable (worker : DraftWorker)

def maxTokensFor (card : ClaimedCard) (phase : Phase) : Nat :=
  (worker.maxTokens card.requiredCapabilities).getD
    (if phase = .critique then maxTokensCritique else maxTokensArtifact)

def addUsage (first second : Usage) : Usage :=
  ⟨first.tokensIn + second.tokensIn, first.tokensOut + second.tokensOut,
    worker.addSeconds first.computeSeconds second.computeSeconds⟩

/-- A critique that passes the draft. -/
def passes (text : Text) : Bool :=
  (trimmed text).map Char.toLower = "pass".toList ||
    "PASS".toList.isPrefixOf (worker.toUppercase (trimmed text))

def cutReason (card : ClaimedCard) (phase : Phase) : String :=
  phase.name ++ ": output cut off at the " ++ toString (maxTokensFor worker card phase) ++
    "-token cap (finish_reason=length) — this card needs a bigger " ++
    "required_capabilities.max_tokens; refusing to report a partial artifact as finished"

def counted (state : LoopState) (inferred : Inferred) : LoopState :=
  { state with usage := addUsage worker state.usage inferred.usage, step := state.step + 1 }

/-- The state after a step whose text is accepted. -/
def afterReply (single : Bool) (state : LoopState) (inferred : Inferred) : LoopState :=
  let stepped := counted worker state inferred
  match state.phase with
  | .draft =>
    { stepped with
      draft := some inferred.text
      phase := if single then .done else .critique }
  | .critique =>
    { stepped with
      critique := some inferred.text
      phase :=
        if passes worker inferred.text || maxRevisions ≤ state.revisions then .done else .revise }
  | .revise =>
    { stepped with
      revisions := state.revisions + 1
      draft := some inferred.text
      phase := .critique }
  | .done | .waitingOnChild => stepped

end Steps

section Cards

/-- One inference of a card, kept as history. -/
structure Stride where
  phase : Phase
  inferred : Inferred
deriving DecidableEq, Repr

/-- Where a worker stands with its card. -/
inductive Stage where
  | tools
  | blocking (state : LoopState) (child : CardId)
  | awaiting (state : LoopState) (child : CardId)
  | looping (state : LoopState)
  | saving (state : LoopState)
  | finishing (state : LoopState)
deriving DecidableEq, Repr

/-- A card that a worker was given, and the strides that led to its state. -/
structure CardRun where
  hub : Session
  claimed : Claimed
  stage : Stage
  strides : List Stride
deriving DecidableEq, Repr

/-- What a worker meets next. -/
inductive Input where
  | tools (found : ToolPhaseResult)
  | infer (now : Int) (reply : Except String Inferred)
  | proceed
  | stop
  | crash

variable (worker : DraftWorker)

def readChild (claimed : Claimed) (key : String) : Option Text :=
  ((claimed.wire worker.briefing).lookup key).bind asStr?

def Stage.enter (state : LoopState) : Stage :=
  if state.phase = .done then .finishing state else .looping state

/-- A claimed card resumes from its checkpoint, or starts with its tools. -/
def startCard (hub : Session) (claimed : Claimed) (saved : List Stride) : CardRun :=
  match resumeState worker.toTextWorker claimed with
  | some state =>
    { hub, claimed
      stage := .enter (resumeChild (readChild worker claimed)
        { state with model := worker.model claimed.card })
      strides := saved }
  | none => { hub, claimed, stage := .tools, strides := [] }

/-- The state that the tool step of a fresh start leaves. -/
def toolStage (card : ClaimedCard) (found : ToolPhaseResult) : Stage :=
  let state := { LoopState.new (worker.model card) with toolOutput := found.summary }
  match found.waitOnChild with
  | none => .looping state
  | some (child, key) =>
    .blocking { state with phase := .waitingOnChild, pendingChildKey := some key } child

def Inferred.trimmed (inferred : Inferred) : Inferred :=
  { inferred with text := LocalHub.trimmed inferred.text }

/-- A draft or revision that was cut off. -/
def cutOff (phase : Phase) (inferred : Inferred) : Bool :=
  inferred.truncated && phase ≠ .critique

/-- The call that a worker makes at the hub, if any. -/
def CardRun.call (run : CardRun) : Input → Option Op
  | .crash => none
  | .stop => some (.releaseCard run.hub run.claimed.card.id "node shutting down")
  | input =>
    match run.stage, input with
    | .blocking state _, .proceed =>
      some (.checkpoint run.hub run.claimed.card.id 0 (worker.encodeState state) state.usage)
    | .awaiting _ child, .proceed => some (.waitOnChild run.hub run.claimed.card.id child)
    | .looping state, .infer now reply =>
      if run.claimed.leaseExpiresAt ≤ now then
        some (.releaseCard run.hub run.claimed.card.id "lease expired mid-card")
      else
        match reply with
        | .error failure =>
          some (.failCard run.hub run.claimed.card.id (state.phase.name ++ ": " ++ failure))
        | .ok inferred =>
          if cutOff state.phase inferred then
            some (.failCard run.hub run.claimed.card.id
              (cutReason worker run.claimed.card state.phase))
          else none
    | .saving state, .proceed =>
      some (.checkpoint run.hub run.claimed.card.id state.step (worker.encodeState state)
        state.usage)
    | .finishing state, .proceed =>
      some (.completeCard run.hub run.claimed.card.id (String.ofList (state.draft.getD []))
        state.model state.usage)
    | _, _ => none

/-- Where the worker stands after an input; `answered` says whether its call went through. -/
def CardRun.next (run : CardRun) (answered : Bool) : Input → Option CardRun
  | .crash => none
  | .stop => none
  | input =>
    match run.stage, input with
    | .tools, .tools found => some { run with stage := toolStage worker run.claimed.card found }
    | .blocking state child, .proceed => some { run with stage := .awaiting state child }
    | .awaiting state _, .proceed =>
      if answered then none
      else some { run with stage := .looping { state with phase := .draft } }
    | .looping state, .infer now reply =>
      if run.claimed.leaseExpiresAt ≤ now then none
      else
        match reply with
        | .error _ => none
        | .ok inferred =>
          if cutOff state.phase inferred then none
          else
            let later := afterReply worker (singleStep worker.toTextWorker run.claimed.card) state
              inferred.trimmed
            some
              { run with
                stage := if later.phase = .done then .finishing later else .saving later
                strides := run.strides ++ [⟨state.phase, inferred.trimmed⟩] }
    | .saving state, .proceed => some { run with stage := .looping state }
    | .finishing _, .proceed => none
    | _, _ => some run

end Cards

section Benches

/-- A worker process: its node, and its session there. -/
abbrev Seat := NodeId × SessionId

def Session.seat (hub : Session) : Seat := (hub.node, hub.session)

/-- The hub's board and its workers; of each stored checkpoint, the strides behind it. -/
structure Bench where
  board : Board
  runs : Seat → Option CardRun
  saved : CardId → List Stride

/-- A transaction of another program, a claim of a worker, or what a worker does next. A claim or a
call may not reach the hub, and its answer may be lost. -/
inductive Move where
  | other (event : Event)
  | claim (hub : Session) (around : Surroundings) (clock : Nat → Int) (answered : Bool)
  | work (seat : Seat) (input : Input) (around : Surroundings) (clock : Nat → Int)
      (sent answered : Bool)

variable (worker : DraftWorker)

/-- What is written in this version and can be resumed from. -/
def readState (text : String) : Option LoopState :=
  (worker.decodeState text).filter fun state => state.version = loopStateVersion

/-- Other programs do not act for a worker that has a card, and write no state of this version. -/
def Bench.permits (bench : Bench) (event : Event) : Bool :=
  match event.op with
  | .claimCard hub => (bench.runs hub.seat).isNone
  | .checkpoint hub _ _ state _ =>
    (bench.runs hub.seat).isNone && (readState worker state).isNone
  | _ => true

/-- A claim of a text card that is answered starts a run. -/
def Bench.started (bench : Bench) (hub : Session) (board : Board) : Claim → Bench
  | .leased claimed =>
    if claimed.card.modality = .text then
      { bench with
        board
        runs := Function.update bench.runs hub.seat
          (some (startCard worker hub claimed (bench.saved claimed.card.id))) }
    else { bench with board }
  | _ => { bench with board }

/-- The strides behind the stored checkpoints, after a call that went through. -/
def Bench.noted (bench : Bench) (board : Board) (strides : List Stride) :
    Op → CardId → List Stride
  | .checkpoint _ id step state usage =>
    if board.checkpoints.lookup id = some ⟨id, step, state, usage⟩ then
      Function.update bench.saved id strides
    else bench.saved
  | _ => bench.saved

/-- Whether a call goes through. -/
def Event.accepted (event : Event) (board : Board) : Bool :=
  match event.reply board with
  | .ok _ => true
  | .error _ => false

def Bench.step (bench : Bench) : Move → Bench
  | .other event =>
    if bench.permits worker event then { bench with board := bench.board.step event } else bench
  | .claim hub around clock answered =>
    if (bench.runs hub.seat).isSome then bench
    else
      match claimCard around bench.board hub clock with
      | .ok (board, reply) =>
        if answered then bench.started worker hub board reply else { bench with board }
      | .error _ => bench
  | .work seat input around clock sent answered =>
    match bench.runs seat with
    | none => bench
    | some run =>
      match run.call worker input with
      | none =>
        { bench with runs := Function.update bench.runs seat (run.next worker false input) }
      | some op =>
        let event : Event := ⟨op, around, clock⟩
        let through := sent && event.accepted bench.board
        let board := if sent then bench.board.step event else bench.board
        { board
          runs := Function.update bench.runs seat (run.next worker (through && answered) input)
          saved := if through then bench.noted board run.strides op else bench.saved }

def Bench.empty : Bench := ⟨Board.empty, fun _ => none, fun _ => []⟩

/-- The hub and its workers after the first moves of a run that begins with a new hub. -/
def benchAt (moves : List Move) : Nat → Bench := stateAt (Bench.step worker) Bench.empty moves

end Benches

end OHHive.LocalHub
