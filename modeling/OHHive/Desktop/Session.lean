import OHHive.Coder.Wire
import OHHive.Desktop.Gate
import OHHive.Desktop.Limits
import OHHive.Foundation.Run

/-! Desktop sessions: a ledger in front of the gate, and batches that stop at their first request
that is not carried out. -/

namespace OHHive.Desktop

open Foundation Coder

section Requests

def Target.toJson (target : Target) : Json :=
  record
    [("bundle_id", .text target.bundleId.toList), ("process_id", .number target.processId),
      ("process_instance", .text (uuidText target.processInstance)),
      ("window_id", .number target.windowId)]

def Action.toJson : Action → Json
  | .observe => record [("kind", .text "observe".toList)]
  | .click x y => record [("kind", .text "click".toList), ("x", .number x), ("y", .number y)]
  | .type text => record [("kind", .text "type".toList), ("text", .text text.toList)]

def Request.toJson (r : Request) : Json :=
  record
    [("session", .text (uuidText r.session)), ("call_id", .text (uuidText r.callId)),
      ("sequence", .number r.sequence), ("observation", .number r.observation),
      ("policy_revision", .number r.policyRevision), ("target", r.target.toJson),
      ("action", r.action.toJson)]

/-- The length of the serialized request. -/
def Request.bytes (r : Request) : Nat := byteLength r.toJson.print

end Requests

section Sessions

structure DesktopProfile where
  name : String
  version : Nat
deriving DecidableEq, Repr

def DesktopProfile.current : DesktopProfile := ⟨"desktop", 1⟩

inductive SessionError where
  | profile
  | session
  | batchStopped
  | limits (error : LimitError)
deriving DecidableEq, Repr

def validateProfile (profile : DesktopProfile) : Except SessionError Unit :=
  require (profile = .current) .profile

/-- The identities of a batch's requests. -/
structure Batch where
  calls : List Uuid
  next : Nat
  stopped : Bool
deriving DecidableEq, Repr

def Batch.new (calls : List Uuid) : Except SessionError Batch :=
  if calls = [] ∨ calls.length > 100 ∨ ¬ calls.Nodup ∨ (0 : Uuid) ∈ calls then .error .batchStopped
  else .ok ⟨calls, 0, false⟩

def Batch.stop (batch : Batch) : Batch := { batch with stopped := true }

structure DesktopSession where
  id : Uuid
  desktop : FakeDesktop
  budget : Budget
  stopped : Bool
deriving DecidableEq, Repr

def DesktopSession.new (id : Uuid) (profile : DesktopProfile) (limits : Limits) (nowMs : Nat) :
    Except SessionError DesktopSession := do
  validateProfile profile
  require (id ≠ 0) .session
  let budget ← (Budget.new limits nowMs).mapError .limits
  return ⟨id, .default, budget, false⟩

/-- What the trusted host hands to one step. -/
structure Step where
  authority : Authority
  policy : Policy
  observation : Observation
  request : Request
  risk : Risk
  approval : Option Approval
  now : Nat
  nowMs : Nat

abbrev StepReply : Type := Except SessionError Outcome

namespace DesktopSession

variable (s : DesktopSession)

def interrupt : DesktopSession := { s with stopped := true, desktop := s.desktop.interrupt }

def markUncertain : DesktopSession :=
  { s with stopped := true, desktop := s.desktop.markUncertain }

/-- The ledger's answer to a request, before the gate sees it. -/
def charge (step : Step) : Charge :=
  Charge.andThen ((s.budget.ready step.nowMs).andThen fun b => b.requestBytes step.request.bytes)
    fun b =>
      if step.request.action = .observe then b.checkTime step.nowMs else b.inputAction step.nowMs

/-- The gate's answer moves the batch on, or stops it. -/
def dispatch (batch : Batch) (step : Step) : (DesktopSession × Batch) × StepReply :=
  let (desktop, outcome) := s.desktop.execute step.authority step.policy step.observation
    step.request step.risk step.approval step.now
  let s := { s with desktop }
  if outcome = .applied ∨ outcome = .observed then
    ((s, { batch with next := batch.next + 1 }), .ok outcome)
  else ((s, batch.stop), .ok outcome)

/-- One request of a batch; none when the ledger overflows. -/
def executeStep (batch : Batch) (step : Step) : Option ((DesktopSession × Batch) × StepReply) :=
  if batch.stopped = true ∨ s.stopped = true ∨
      batch.calls[batch.next]? ≠ some step.request.callId then
    some ((s, batch.stop), .error .batchStopped)
  else if step.authority.session ≠ s.id ∨ step.request.session ≠ s.id then
    some ((s, batch.stop), .error .session)
  else do
    let (budget, reply) ← s.charge step
    let s := { s with budget }
    match reply with
    | .error reason => some ((s, batch.stop), .error (.limits reason))
    | .ok () => some (s.dispatch batch step)

/-- The ledger, for the calls of the session's own provider. -/
def providerBudget (id : Uuid) : Except SessionError Budget := do
  require (id = s.id) .session
  require (s.stopped = false) .batchStopped
  return s.budget

end DesktopSession

end Sessions

section Runs

/-- A session with the batches begun in it, and the times of the actions carried out. -/
structure Desk where
  session : DesktopSession
  batches : List Batch
  acted : List Nat

inductive DeskOp where
  | newBatch (calls : List Uuid)
  | executeStep (batch : Nat) (step : Step)
  | provider (id : Uuid) (op : BudgetOp)
  | reportFocusChange (target : Option Target) (through : Nat)
  | revokeGrant (target : Target)
  | interrupt
  | markUncertain

/-- The time of an action that was carried out. -/
def actedAt (step : Step) : StepReply → List Nat
  | .ok .applied => [step.nowMs]
  | _ => []

namespace Desk

/-- One request of the batch at an index. -/
def executeStep (desk : Desk) (index : Nat) (batch : Batch) (step : Step) :
    Option (Desk × StepReply) := do
  let ((session, batch), reply) ← desk.session.executeStep batch step
  return (⟨session, desk.batches.set index batch, desk.acted ++ actedAt step reply⟩, reply)

/-- A call on the ledger by the provider's host; none when it overflows. -/
def callProvider (desk : Desk) (id : Uuid) (op : BudgetOp) : Option Desk :=
  match desk.session.providerBudget id with
  | .error _ => some desk
  | .ok budget => do
    let (budget, _) ← budget.perform op
    return { desk with session := { desk.session with budget } }

/-- Something happens to a session; none when its ledger overflows. -/
def step (desk : Desk) : DeskOp → Option Desk
  | .newBatch calls =>
    match Batch.new calls with
    | .error _ => some desk
    | .ok batch => some { desk with batches := desk.batches ++ [batch] }
  | .executeStep index step =>
    match desk.batches[index]? with
    | none => some desk
    | some batch => (desk.executeStep index batch step).map Prod.fst
  | .provider id op => desk.callProvider id op
  | .reportFocusChange target through => some { desk with
      session := { desk.session with desktop := desk.session.desktop.reportFocusChange target through } }
  | .revokeGrant target => some { desk with
      session := { desk.session with desktop := desk.session.desktop.revokeGrant target } }
  | .interrupt => some { desk with session := desk.session.interrupt }
  | .markUncertain => some { desk with session := desk.session.markUncertain }

end Desk

end Runs

end OHHive.Desktop
