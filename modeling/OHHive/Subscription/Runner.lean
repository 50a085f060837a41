import OHHive.Foundation.Run
import OHHive.Subscription.Turns
import Mathlib.Logic.Function.Basic

/-! The shared turn runner. Any number of calls of `run` and `reconcile` work on one journal, next
to anybody else who uses it; each call is a sequence of separate journal transactions, and can
crash between any two of them. -/

namespace OHHive.Subscription

open Foundation

section Requests

structure Envelope where
  model : String
  prompt : String
deriving DecidableEq, Repr

inductive RunError where
  | journal (error : JournalError)
  | cloudDisabled
  | invalid
  | wrongProvider
  | cancelled
  | timeout
  | unknown
  | persistence
deriving DecidableEq, Repr

def isBlank (text : String) : Bool := text.toList.all isWhitespace

/-- The digest of the exact envelope, when it is neither blank nor too long. -/
def Envelope.hash (digest : Envelope → String) (envelope : Envelope) : Except RunError String :=
  if isBlank envelope.model || 256 < envelope.model.utf8ByteSize || isBlank envelope.prompt ||
      128 * 1024 < envelope.prompt.utf8ByteSize then .error .invalid
  else .ok (digest envelope)

structure ProviderReply where
  turnId : String
  text : String
deriving DecidableEq, Repr

structure Completion where
  receipt : String
  replayed : Bool
deriving DecidableEq, Repr

/-- A duration in nanoseconds. -/
abbrev Duration := Nat

def seconds (count : Nat) : Duration := count * 10 ^ 9

/-- What `run` or `reconcile` is called with, the runtime's provider included. -/
structure TurnRequest where
  runtime : Provider
  binding : Binding
  operation : Uuid
  cloudEnabled : Bool
  cancelled : Bool
  timeout : Duration
deriving DecidableEq, Repr

def TurnRequest.validate (request : TurnRequest) : Except RunError Unit := do
  require request.cloudEnabled .cloudDisabled
  require (request.runtime = request.binding.provider) .wrongProvider
  require (request.timeout ≠ 0 ∧ request.timeout ≤ seconds 300) .invalid
  require (request.cancelled = false) .cancelled

inductive Kind where
  | turn (hash : String)
  | recovery
deriving DecidableEq, Repr

/-- A validated call. -/
structure Job where
  binding : Binding
  operation : Uuid
  kind : Kind
deriving DecidableEq, Repr

def Job.key (job : Job) : TurnKey := ⟨job.binding.session, job.operation⟩

end Requests

section Calls

/-- Where a call stands, with everything it has read so far. -/
inductive Phase where
  | idle
  | acquiring (job : Job)
  | preparing (job : Job) (lease : Lease) (hash : String)
  | marking (job : Job) (lease : Lease)
  | dispatched (job : Job) (lease : Lease)
  | sending (job : Job) (lease : Lease)
  | interrupting (job : Job) (lease : Lease) (error : RunError)
  | enumerating (job : Job) (lease : Lease)
  | recovering (job : Job) (lease : Lease) (providerTurn : Option String)
  | acknowledging (job : Job) (lease : Lease) (reply : ProviderReply)
  | persisting (job : Job) (lease : Lease) (reply : ProviderReply)
  | finishing (job : Job) (lease : Lease) (reply : ProviderReply) (receipt : String)
  | releasing (job : Job) (lease : Lease) (result : Except RunError Completion)
  | finished (result : Except RunError Completion)
  | crashed

namespace Phase

def fail (job : Job) (lease : Lease) (error : RunError) : Phase := .releasing job lease (.error error)

def claimed (job : Job) (lease : Lease) : Phase :=
  match job.kind with
  | .turn hash => .preparing job lease hash
  | .recovery => .enumerating job lease

/-- A completed turn is answered from its record. -/
def recorded (job : Job) (lease : Lease) (record : TurnRecord) : Phase :=
  if record.state = .completed then
    match record.receipt with
    | some receipt => .releasing job lease (.ok ⟨receipt, true⟩)
    | none => .fail job lease .persistence
  else .marking job lease

def marked (job : Job) (lease : Lease) (changed : Bool) : Phase :=
  if changed then .dispatched job lease else .fail job lease .unknown

/-- Only an uncertain turn is reconciled. -/
def enumerated (job : Job) (lease : Lease) (turns : List PendingTurn) : Phase :=
  match turns.find? (fun turn => turn.operation = job.operation) with
  | some turn =>
    if turn.record.state = .deliveryUnknown then .recovering job lease turn.record.providerTurn
    else .fail job lease .unknown
  | none => .fail job lease .unknown

def commit (job : Job) (lease : Lease) (reply : ProviderReply) : Phase :=
  if reply.text = "" ∨ 256 * 1024 < reply.text.utf8ByteSize then .fail job lease .invalid
  else .acknowledging job lease reply

/-- A failed release is reported only when the call itself succeeded. -/
def released (result : Except RunError Completion) (release : JournalResult Unit) : Phase :=
  match result, release with
  | .ok _, .error error => .finished (.error (.journal error))
  | result, _ => .finished result

/-- The phase after an answer of the journal; its errors end the call. -/
def after (job : Job) (lease : Lease) (answer : JournalResult α) (next : α → Phase) : Phase :=
  match answer with
  | .ok value => next value
  | .error error => .fail job lease (.journal error)

def leaseSeconds : Nat := 30

/-- The next journal transaction of a call. -/
def proceed (phase : Phase) (journal : Journal) (now : Int) (writer : Uuid) (fault : Fault) :
    Journal × Phase :=
  match phase with
  | .acquiring job =>
    let (journal, answer) := deliver fault .storage journal
      (journal.acquire job.binding writer leaseSeconds now)
    match answer with
    | .ok lease => (journal, .claimed job lease)
    | .error error => (journal, .finished (.error (.journal error)))
  | .preparing job lease hash =>
    let (journal, answer) := deliver fault .storage journal
      (journal.prepare lease job.operation hash now)
    (journal, after job lease answer (recorded job lease))
  | .marking job lease =>
    let (journal, answer) := deliver fault .storage journal
      (journal.markDispatched lease job.operation now)
    (journal, after job lease answer (marked job lease))
  | .enumerating job lease =>
    let (journal, answer) := deliver fault .storage journal
      (journal.pending lease now >>= fun turns => pure (journal, turns))
    (journal, after job lease answer (enumerated job lease))
  | .acknowledging job lease reply =>
    let (journal, answer) := deliver fault .storage journal
      (journal.acknowledge lease job.operation reply.turnId now)
    (journal, after job lease answer (fun _ => .persisting job lease reply))
  | .finishing job lease reply receipt =>
    let (journal, answer) := deliver fault .storage journal
      (journal.finish lease job.operation reply.turnId receipt true now)
    (journal, after job lease answer (fun _ => .releasing job lease (.ok ⟨receipt, false⟩)))
  | .releasing _ lease result =>
    let (journal, answer) := deliver fault .storage journal (journal.release lease now)
    (journal, released result answer)
  | phase => (journal, phase)

/-- A cancellation, the deadline or a failed renewal while provider work is awaited. -/
def abort (phase : Phase) (error : RunError) : Phase :=
  match phase with
  | .dispatched job lease | .sending job lease => .interrupting job lease error
  | .recovering job lease _ => .fail job lease error
  | phase => phase

/-- The lease that is renewed while provider work is awaited. -/
def guarded : Phase → Option Lease
  | .dispatched _ lease | .sending _ lease | .recovering _ lease _ => some lease
  | _ => none

/-- One beat of the heartbeat: a failed renewal ends the wait. -/
def tick (phase : Phase) (journal : Journal) (now : Int) (fault : Fault) : Journal × Phase :=
  match phase.guarded with
  | none => (journal, phase)
  | some lease =>
    let (journal, answer) := deliver fault .storage journal (journal.renew lease leaseSeconds now)
    match answer with
    | .ok _ => (journal, phase)
    | .error error => (journal, phase.abort (.journal error))

/-- What the provider or the result store answers, and the end of a best-effort interrupt. -/
inductive Input where
  | cancel
  | deadline
  | reply (reply : Except RunError ProviderReply)
  | reconciled (reply : Except RunError (Option ProviderReply))
  | persisted (receipt : Except RunError String)
  | interrupted

def input (phase : Phase) (input : Input) : Phase :=
  match phase, input with
  | phase, .cancel => phase.abort .cancelled
  | phase, .deadline => phase.abort .timeout
  | .sending job lease, .reply (.ok reply) => .commit job lease reply
  | .sending job lease, .reply (.error error) => .interrupting job lease error
  | .recovering job lease _, .reconciled (.ok (some reply)) => .commit job lease reply
  | .recovering job lease _, .reconciled (.ok none) => .fail job lease .unknown
  | .recovering job lease _, .reconciled (.error error) => .fail job lease error
  | .persisting job lease reply, .persisted (.ok receipt) => .finishing job lease reply receipt
  | .persisting job lease _, .persisted (.error error) => .fail job lease error
  | .interrupting job lease error, .interrupted => .fail job lease error
  | phase, _ => phase

end Phase

/-- A use of the journal by anybody else. -/
inductive Call where
  | acquire (binding : Binding) (writer : Uuid) (seconds : Nat)
  | renew (lease : Lease) (seconds : Nat)
  | prepare (lease : Lease) (operation : Uuid) (inputHash : String)
  | markDispatched (lease : Lease) (operation : Uuid)
  | acknowledge (lease : Lease) (operation : Uuid) (providerTurn : String)
  | release (lease : Lease)
  | finish (lease : Lease) (operation : Uuid) (providerTurn receipt : String) (succeeded : Bool)

def Call.lease? : Call → Option Lease
  | .acquire _ _ _ => none
  | .renew lease _ | .prepare lease _ _ | .markDispatched lease _ | .acknowledge lease _ _
  | .release lease | .finish lease _ _ _ _ => some lease

/-- The call, with the turn that its answer authorizes the caller to send. -/
def Call.perform (call : Call) (journal : Journal) (now : Int) :
    JournalResult (Journal × Option TurnKey) :=
  match call with
  | .acquire binding writer seconds => do
    let (journal, _) ← journal.acquire binding writer seconds now
    pure (journal, none)
  | .renew lease seconds => do
    let (journal, _) ← journal.renew lease seconds now
    pure (journal, none)
  | .prepare lease operation inputHash => do
    let (journal, _) ← journal.prepare lease operation inputHash now
    pure (journal, none)
  | .markDispatched lease operation => do
    let (journal, changed) ← journal.markDispatched lease operation now
    pure (journal, if changed then some ⟨lease.session, operation⟩ else none)
  | .acknowledge lease operation providerTurn => do
    let (journal, _) ← journal.acknowledge lease operation providerTurn now
    pure (journal, none)
  | .release lease => do
    let (journal, _) ← journal.release lease now
    pure (journal, none)
  | .finish lease operation providerTurn receipt succeeded => do
    let (journal, _) ← journal.finish lease operation providerTurn receipt succeeded now
    pure (journal, none)

end Calls

section Machine

/-- The journal, the calls of the runner, and the turns sent to a provider so far: by the runner,
or by anybody else whom the journal authorized. -/
structure System where
  journal : Journal
  call : Nat → Phase
  sends : List TurnKey

inductive Action where
  | other (call : Call) (now : Int) (fault : Fault)
  | run (call : Nat) (request : TurnRequest) (envelope : Envelope)
  | reconcile (call : Nat) (request : TurnRequest)
  | proceed (call : Nat) (now : Int) (writer : Uuid) (fault : Fault)
  | tick (call : Nat) (now : Int) (fault : Fault)
  | poll (call : Nat)
  | input (call : Nat) (input : Phase.Input)
  | crash (call : Nat)

/-- A call that was refused before it touched the journal has finished. -/
def started (job : Except RunError Job) : Phase :=
  match job with
  | .ok job => .acquiring job
  | .error error => .finished (.error error)

def TurnRequest.turn (digest : Envelope → String) (request : TurnRequest) (envelope : Envelope) :
    Except RunError Job := do
  request.validate
  let hash ← envelope.hash digest
  pure ⟨request.binding, request.operation, .turn hash⟩

def TurnRequest.recovery (request : TurnRequest) : Except RunError Job := do
  TurnRequest.validate { request with timeout := seconds 60 }
  pure ⟨request.binding, request.operation, .recovery⟩

namespace System

/-- A new database, and no call yet. -/
def fresh : System := ⟨.empty, fun _ => .idle, []⟩

def enter (system : System) (call : Nat) (phase : Phase) : System :=
  { system with call := Function.update system.call call phase }

def start (system : System) (call : Nat) (job : Except RunError Job) : System :=
  match system.call call with
  | .idle => system.enter call (started job)
  | _ => system

/-- One action of one call, or of anybody else. The provider is asked when `send` is first
polled, and only there. -/
def step (digest : Envelope → String) (system : System) (action : Action) : System :=
  match action with
  | .other call now fault =>
    let (journal, answer) := deliver fault .storage system.journal
      (call.perform system.journal now)
    match answer with
    | .ok (some key) => { system with journal, sends := system.sends ++ [key] }
    | _ => { system with journal }
  | .run call request envelope => system.start call (request.turn digest envelope)
  | .reconcile call request => system.start call request.recovery
  | .proceed call now writer fault =>
    let (journal, phase) := (system.call call).proceed system.journal now writer fault
    { system with journal }.enter call phase
  | .tick call now fault =>
    let (journal, phase) := (system.call call).tick system.journal now fault
    { system with journal }.enter call phase
  | .poll call =>
    match system.call call with
    | .dispatched job lease =>
      { system with sends := system.sends ++ [job.key] }.enter call (.sending job lease)
    | _ => system
  | .input call input => system.enter call ((system.call call).input input)
  | .crash call => system.enter call .crashed

end System

/-- The system after the first actions of a run that begins with a new database. -/
abbrev systemAt (digest : Envelope → String) (actions : List Action) (moment : Nat) : System :=
  stateAt (System.step digest) System.fresh actions moment

end Machine

end OHHive.Subscription
