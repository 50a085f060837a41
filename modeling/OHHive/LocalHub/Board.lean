import OHHive.Foundation.Fallible
import OHHive.Foundation.Table
import OHHive.LocalHub.Basics

/-! The board of the local hub: its cards, work leases and outputs, the statements that write
them, and the settling of expired leases and waiting parents. -/

namespace OHHive.LocalHub

open Foundation

section Records

abbrev CardId := Uuid
abbrev ProjectId := Uuid
abbrev SessionId := Uuid
abbrev OperationId := Uuid

/-- The text of a node's identity. -/
abbrev NodeId := String

inductive Modality where
  | text
  | code
  | image
  | video
  | speech
  | music
deriving DecidableEq, Repr

inductive ToolsLevel where
  | inferenceOnly
  | sandboxedTools
deriving DecidableEq, Repr

structure Capabilities where
  ramBytes : Nat
  vramBytes : Option Nat
  modalities : List Modality
  models : List String
  allowInternet : Bool
  toolsLevel : ToolsLevel
deriving DecidableEq, Repr

structure Requirements where
  modality : Option Modality
  modelId : Option String
  minVramBytes : Option Nat
  minRamBytes : Option Nat
  requiresInternet : Bool
  toolsLevel : ToolsLevel
deriving DecidableEq, Repr

def Capabilities.satisfies (caps : Capabilities) (req : Requirements) : Bool :=
  if req.requiresInternet && !caps.allowInternet then false
  else if req.toolsLevel = .sandboxedTools && caps.toolsLevel = .inferenceOnly then false
  else if req.modality.any (fun modality => !caps.modalities.contains modality) then false
  else if req.modelId.any (fun id => !caps.models.contains id) then false
  else if req.minVramBytes.any (fun bytes => caps.vramBytes.getD 0 < bytes) then false
  else if req.minRamBytes.any (fun bytes => caps.ramBytes < bytes) then false
  else true

/-- The owner's submission that a staged coding task carries. -/
structure Submission where
  requestId : Uuid
  projectId : ProjectId
  targetNodeId : NodeId
  rest : String
deriving DecidableEq, Repr

/-- The keys of `required_capabilities` that the board reads; `rest` is all others. -/
structure RequiredCapabilities where
  modelId : Option String
  minRamBytes : Option Nat
  minVramBytes : Option Nat
  toolsLevel : Option String
  targetNodeId : Option NodeId
  mcpServerId : Option String
  coordinator : Bool
  brain : Option String
  artifactTools : Bool
  repoUrl : Option String
  preparedWorkspaceRoot : Option String
  acceptance : String
  submission : Option Submission
  rest : String
deriving DecidableEq, Repr

structure ClaimedCard where
  id : CardId
  projectId : ProjectId
  key : String
  title : String
  modality : Modality
  inputs : String
  acceptance : String
  deps : List String
  requiresInternet : Bool
  requiredCapabilities : RequiredCapabilities
deriving DecidableEq, Repr

inductive CardStatus where
  | ready
  | running
  | waitingOnChild
  | blocked
  | review
  | done
deriving DecidableEq, Repr

/-- A stored row of `cards`. -/
structure Card where
  data : ClaimedCard
  status : CardStatus
  reason : Option String
deriving DecidableEq, Repr

def Card.id (card : Card) : CardId := card.data.id

/-- The columns under unique keys. -/
def Card.identity (card : Card) : CardId × ProjectId × String :=
  (card.data.id, card.data.projectId, card.data.key)

def Card.Clash (earlier later : Card) : Prop :=
  earlier.identity.1 = later.identity.1 ∨ earlier.identity.2 = later.identity.2

instance : DecidableRel Card.Clash := fun _ _ => inferInstanceAs (Decidable (_ ∨ _))

def Card.moved (status : CardStatus) (reason : Option String) (card : Card) : Card :=
  { card with status, reason }

def Card.reviewed (card : Card) : Card := { card with status := .review }

def Card.resumed (card : Card) : Card := { card with status := .ready }

/-- The status an expired lease leaves behind: coding work is never replayed unseen. -/
def Card.expired (card : Card) : Card :=
  { card with
    status := if card.data.modality = .code then .blocked else .ready
    reason := some "lease expired; inspect workspace before retrying code" }

def Card.waitFor (key : String) (card : Card) : Card :=
  { card with
    status := .waitingOnChild
    data := { card.data with
      deps := if key ∈ card.data.deps then card.data.deps else card.data.deps ++ [key] } }

theorem Card.identity_moved (status : CardStatus) (reason : Option String) (card : Card) :
    (card.moved status reason).identity = card.identity := rfl

theorem Card.identity_reviewed (card : Card) : card.reviewed.identity = card.identity := rfl

theorem Card.identity_resumed (card : Card) : card.resumed.identity = card.identity := rfl

theorem Card.identity_expired (card : Card) : card.expired.identity = card.identity := rfl

theorem Card.identity_waitFor (key : String) (card : Card) :
    (card.waitFor key).identity = card.identity := rfl

theorem Card.Clash.symm {earlier later : Card} (clash : earlier.Clash later) :
    later.Clash earlier :=
  clash.imp Eq.symm Eq.symm

/-- One work lease: unique for its card, and unique for its node. -/
structure Lease where
  cardId : CardId
  nodeId : NodeId
  session : SessionId
  expires : Int
  ttl : Int
deriving DecidableEq, Repr

def Lease.Clash (earlier later : Lease) : Prop :=
  earlier.cardId = later.cardId ∨ earlier.nodeId = later.nodeId

instance : DecidableRel Lease.Clash := fun _ _ => inferInstanceAs (Decidable (_ ∨ _))

theorem Lease.Clash.symm {earlier later : Lease} (clash : earlier.Clash later) :
    later.Clash earlier :=
  clash.imp Eq.symm Eq.symm

/-- An `f64` by its bits. -/
structure Float64 where
  bits : BitVec 64
deriving DecidableEq, Repr

def Float64.isFinite (number : Float64) : Bool :=
  number.bits.toNat / 2 ^ 52 % 2 ^ 11 ≠ 2 ^ 11 - 1

/-- `number < 0.0` on finite numbers: the sign is set, and it is not the negative zero. -/
def Float64.isNegative (number : Float64) : Bool :=
  2 ^ 63 < number.bits.toNat

structure Usage where
  tokensIn : Nat
  tokensOut : Nat
  computeSeconds : Float64
deriving DecidableEq, Repr

def checkUsage (usage : Usage) : Result Unit :=
  if !usage.computeSeconds.isFinite || usage.computeSeconds.isNegative then
    .error (rejected "invalid usage")
  else .ok ()

/-- A stored row of `card_outputs`. -/
structure CardOutput where
  cardId : CardId
  nodeId : NodeId
  session : SessionId
  content : String
  modelId : Option String
  usage : Usage
deriving DecidableEq, Repr

structure Checkpoint where
  cardId : CardId
  step : Nat
  state : String
  usage : Usage
deriving DecidableEq, Repr

structure ChildLink where
  parent : CardId
  child : CardId
deriving DecidableEq, Repr

structure Node where
  id : NodeId
  caps : Option Capabilities
  checkedIn : Bool
deriving DecidableEq, Repr

structure Project where
  id : ProjectId
  title : String
  goal : String
deriving DecidableEq, Repr

inductive RunState where
  | queued
  | running
deriving DecidableEq, Repr

structure PrivateRun where
  id : OperationId
  cardId : CardId
  targetNodeId : NodeId
  state : RunState
  session : Option SessionId
  created : Int
deriving DecidableEq, Repr

structure PrivateRunStop where
  operationId : OperationId
  requestedBy : NodeId
  created : Int
deriving DecidableEq, Repr

structure PrivateRunRetry where
  previousId : OperationId
  nextId : OperationId
  requestedBy : NodeId
  created : Int
deriving DecidableEq, Repr

/-- Unique for the retried run, and unique for the run that retries it. -/
def PrivateRunRetry.Clash (earlier later : PrivateRunRetry) : Prop :=
  earlier.previousId = later.previousId ∨ earlier.nextId = later.nextId

instance : DecidableRel PrivateRunRetry.Clash := fun _ _ => inferInstanceAs (Decidable (_ ∨ _))

end Records

structure Board where
  projects : Table Project (Table.SameKey Project.id)
  nodes : Table Node (Table.SameKey Node.id)
  cards : Table Card Card.Clash
  leases : Table Lease Lease.Clash
  outputs : Table CardOutput (Table.SameKey CardOutput.cardId)
  checkpoints : Table Checkpoint (Table.SameKey Checkpoint.cardId)
  childLinks : Table ChildLink (Table.SameKey id)
  privateRuns : Table PrivateRun (Table.SameKey PrivateRun.id)
  privateRunStops : Table PrivateRunStop (Table.SameKey PrivateRunStop.operationId)
  privateRunRetries : Table PrivateRunRetry PrivateRunRetry.Clash

namespace Board

/-- A new hub. -/
def empty : Board :=
  ⟨.empty, .empty, .empty, .empty, .empty, .empty, .empty, .empty, .empty, .empty⟩

def card? (board : Board) (id : CardId) : Option Card :=
  board.cards.rows.find? (fun card => card.id = id)

def lease? (board : Board) (id : CardId) : Option Lease :=
  board.leases.rows.find? (fun lease => lease.cardId = id)

def output? (board : Board) (id : CardId) : Option CardOutput := board.outputs.lookup id

/-- `UPDATE cards SET ... WHERE`; the columns under unique keys are never written. -/
def updateCards (board : Board) (selects : Card → Bool) (change : Card → Card)
    (fixed : ∀ card, (change card).identity = card.identity) : Board :=
  { board with
    cards := board.cards.update (fun card => if selects card then change card else card) (by
      intro earlier later clash
      simp only [Card.Clash] at clash ⊢
      split at clash <;> split at clash <;> simpa only [fixed] using clash) }

/-- `UPDATE cards SET status=..,reason=.. WHERE`. -/
def setStatus (board : Board) (selects : Card → Bool) (status : CardStatus)
    (reason : Option String) : Board :=
  board.updateCards selects (Card.moved status reason) (Card.identity_moved status reason)

/-- `DELETE FROM leases WHERE`. -/
def deleteLeases (board : Board) (selects : Lease → Bool) : Board :=
  { board with leases := board.leases.keep (fun lease => !selects lease) }

/-- `UPDATE leases SET expires=now+ttl WHERE`. -/
def extendLeases (board : Board) (selects : Lease → Bool) (now : Int) : Board :=
  { board with
    leases := board.leases.update
      (fun lease => if selects lease then { lease with expires := now + lease.ttl } else lease) (by
        intro earlier later clash
        simp only [Lease.Clash] at clash ⊢
        split at clash <;> split at clash <;> exact clash) }

/-- The card of a lease is changed and the lease deleted. -/
def giveUp (board : Board) (id : CardId) (change : Card → Card)
    (fixed : ∀ card, (change card).identity = card.identity) : Board :=
  (board.updateCards (fun card => card.id = id) change fixed).deleteLeases
    (fun lease => lease.cardId = id)

def insertCard (board : Board) (card : Card) : Result Board := do
  require ((board.projects.lookup card.data.projectId).isSome) dbError
  let cards ← orFail (board.cards.insert? card) dbError
  pure { board with cards }

def insertLease (board : Board) (lease : Lease) : Result Board := do
  let leases ← orFail (board.leases.insert? lease) dbError
  pure { board with leases }

def insertOutput (board : Board) (output : CardOutput) : Result Board := do
  let outputs ← orFail (board.outputs.insert? output) dbError
  pure { board with outputs }

end Board

section Settling

/-- The two statements on expired leases, each with its own reading of the clock. -/
def expireLeases (board : Board) (expiring deleting : Int) : Board :=
  (board.updateCards
    (fun card => board.leases.rows.any (fun lease =>
      lease.cardId = card.id && lease.expires ≤ expiring))
    Card.expired Card.identity_expired).deleteLeases (fun lease => lease.expires ≤ deleting)

/-- A waiting parent one of whose children is blocked. -/
def hasBlockedChild (board : Board) (card : Card) : Bool :=
  card.status = .waitingOnChild && board.childLinks.rows.any (fun link =>
    link.parent = card.id && board.cards.rows.any (fun child =>
      child.id = link.child && child.status = .blocked))

/-- One round of the loop that propagates child failures, while it still changes a row. -/
def blockParents : Nat → Board → Board
  | 0, board => board
  | rounds + 1, board =>
    if board.cards.rows.any (hasBlockedChild board) then
      blockParents rounds (board.setStatus (hasBlockedChild board) .blocked (some "child blocked"))
    else board

/-- A waiting parent all of whose children have finished. -/
def childrenFinished (board : Board) (card : Card) : Bool :=
  card.status = .waitingOnChild && !board.childLinks.rows.any (fun link =>
    link.parent = card.id && board.cards.rows.any (fun child =>
      child.id = link.child && !(child.status = .review || child.status = .done)))

def resumeParents (board : Board) : Board :=
  board.updateCards (childrenFinished board) Card.resumed Card.identity_resumed

/-- Each round of the loop blocks a waiting card, so there are at most as many as cards. -/
def settle (board : Board) (expiring deleting : Int) : Board :=
  let swept := expireLeases board expiring deleting
  resumeParents (blockParents (swept.cards.rows.length + 1) swept)

end Settling

section Holders

/-- One process's connection to the hub, authenticated as a node. -/
structure Session where
  node : NodeId
  session : SessionId
  claimScope : Option CardId
  runScope : Option OperationId
deriving DecidableEq, Repr

/-- The caller holds the unexpired lease of the card. -/
def holdsLease (board : Board) (hub : Session) (id : CardId) (now : Int) : Bool :=
  board.leases.rows.any (fun lease => lease.cardId = id && lease.nodeId = hub.node &&
    lease.session = hub.session && now < lease.expires)

def owns (board : Board) (hub : Session) (id : CardId) (now : Int) : Result Unit :=
  require (holdsLease board hub id now) (rejected "no current lease for this worker session")

/-- `end`: the lease is given up and the card moved, then the board is settled. -/
def endCard (board : Board) (hub : Session) (id : CardId) (reason : String)
    (status : CardStatus) (clock : Nat → Int) : Result Board := do
  owns board hub id (clock 0)
  let ended := board.giveUp id (Card.moved status (some reason)) (Card.identity_moved _ _)
  pure (settle ended (clock 1) (clock 2))

def failCard (board : Board) (hub : Session) (id : CardId) (reason : String)
    (clock : Nat → Int) : Result Board :=
  endCard board hub id reason .blocked clock

/-- Coding sessions have no recovery record, so a released one waits for inspection. -/
def releaseCard (board : Board) (hub : Session) (id : CardId) (reason : String)
    (clock : Nat → Int) : Result Board := do
  let card ← orFail (board.card? id) dbError
  endCard board hub id reason (if card.data.modality = .code then .blocked else .ready) clock

def maxOutputBytes : Nat := 4 * 1024 * 1024

/-- A stored output is answered by an identical completion and refuses any other. -/
def completeCard (board : Board) (hub : Session) (id : CardId) (content : String)
    (model : Option String) (usage : Usage) (clock : Nat → Int) : Result Board := do
  checkUsage usage
  require (content.utf8ByteSize ≤ maxOutputBytes) (rejected "output too large")
  let output : CardOutput := ⟨id, hub.node, hub.session, content, model, usage⟩
  match board.output? id with
  | some stored => do
    require (stored = output) (rejected "completion conflict")
    pure board
  | none => do
    owns board hub id (clock 0)
    let board ← board.insertOutput output
    pure (settle (board.giveUp id Card.reviewed Card.identity_reviewed) (clock 1) (clock 2))

/-- The insertion keeps the later step of two checkpoints of one card. -/
def saveCheckpoint (board : Board) (checkpoint : Checkpoint) : Board :=
  match board.checkpoints.insert? checkpoint with
  | some checkpoints => { board with checkpoints }
  | none =>
    { board with
      checkpoints := board.checkpoints.updateWhere
        (fun stored => stored.cardId = checkpoint.cardId && stored.step ≤ checkpoint.step)
        (fun stored => { checkpoint with cardId := stored.cardId }) (fun _ => rfl) }

def checkpoint (board : Board) (hub : Session) (id : CardId) (step : Nat) (state : String)
    (usage : Usage) (clock : Nat → Int) : Result Board := do
  checkUsage usage
  require (state.utf8ByteSize ≤ maxOutputBytes) (rejected "checkpoint too large")
  owns board hub id (clock 0)
  let saved := saveCheckpoint board ⟨id, step, state, usage⟩
  pure (saved.extendLeases (fun lease => lease.cardId = id) (clock 1))

/-- The checks of `validate_card` on the fields the board keeps apart. -/
def validateCard (card : ClaimedCard) : Result Unit := do
  checkText card.key 200
  checkText card.title 1000
  require (card.deps.length ≤ 100) (rejected "invalid card")
  require (¬ (card.modality = .code ∧
      card.requiredCapabilities.brain.getD "local" ≠ "local"))
    (rejected "direct cloud coding is not implemented for fully local projects")
  require (card.requiredCapabilities.artifactTools = false)
    (rejected "community artifact tools are unavailable on local projects")

/-- A child of the caller's card, with the capabilities it takes over from its parent already
among its own: a new one is linked to the parent, the same request again finds the linked one. -/
def spawnChildCard (board : Board) (hub : Session) (parent : CardId) (child : ClaimedCard)
    (clock : Nat → Int) : Result (Board × CardId) := do
  owns board hub parent (clock 0)
  let holder ← orFail (board.card? parent) dbError
  let required := child.requiredCapabilities
  let child : ClaimedCard :=
    { child with
      projectId := holder.data.projectId
      deps := []
      requiresInternet := holder.data.requiresInternet ||
        (child.modality = .code && required.repoUrl.isSome) }
  validateCard child
  match board.cards.rows.find? (fun card =>
    card.data.projectId = child.projectId && card.data.key = child.key) with
  | some old => do
    require (⟨parent, old.id⟩ ∈ board.childLinks.rows ∧ old.data.inputs = child.inputs ∧
        old.data.title = child.title ∧ old.data.modality = child.modality ∧
        old.data.acceptance = child.acceptance ∧ old.data.requiredCapabilities = required)
      (rejected "child key conflict")
    pure (board, old.id)
  | none => do
    let board ← board.insertCard ⟨child, .ready, none⟩
    let childLinks ← orFail (board.childLinks.insert? ⟨parent, child.id⟩) dbError
    pure ({ board with childLinks }, child.id)

def waitOnChild (board : Board) (hub : Session) (id child : CardId) (clock : Nat → Int) :
    Result Board := do
  owns board hub id (clock 0)
  require (⟨id, child⟩ ∈ board.childLinks.rows) (rejected "not this parent's child")
  require ((board.card? id).isSome) dbError
  let awaited ← orFail (board.card? child) dbError
  let waiting := board.giveUp id (Card.waitFor awaited.data.key) (Card.identity_waitFor _)
  pure (settle waiting (clock 1) (clock 2))

/-- A heartbeat settles first, then keeps every lease of the caller's session alive. -/
def heartbeat (board : Board) (hub : Session) (clock : Nat → Int) : Board :=
  (settle board (clock 0) (clock 1)).extendLeases
    (fun lease => lease.nodeId = hub.node && lease.session = hub.session) (clock 2)

end Holders

end OHHive.LocalHub
