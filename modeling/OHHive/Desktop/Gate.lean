import OHHive.Desktop.Policy
import OHHive.Foundation.Fallible

/-! The desktop gate: one session's requests in sequence, the journal of what was dispatched, and
what a restart and a local review make of it. -/

namespace OHHive.Desktop

open Foundation

section Journal

inductive ReceiptState where
  | observed
  | applied
  | dispatchedUnknown
  | reviewedApplied
  | reviewedNotApplied
deriving DecidableEq, Repr

inductive ReceiptAction where
  | observe
  | click
  | type
deriving DecidableEq, Repr

def Action.receiptAction : Action → ReceiptAction
  | .observe => .observe
  | .click _ _ => .click
  | .type _ => .type

structure Receipt where
  session : Uuid
  callId : Uuid
  sequence : Nat
  observation : Nat
  policyRevision : Nat
  target : Target
  state : ReceiptState
  action : ReceiptAction
  time : Nat
deriving DecidableEq, Repr

structure JournalSnapshot where
  version : Nat
  receipts : List Receipt
  revokedTargets : List Target
deriving DecidableEq, Repr

inductive ReviewFinding where
  | effectObserved
  | effectNotObserved
deriving DecidableEq, Repr

inductive Outcome where
  | observed
  | applied
  | needsConfirmation
  | rejected (reason : Denial)
  | needsReview
deriving DecidableEq, Repr

structure FakeDesktop where
  nextSequence : Nat
  focusedTarget : Option Target
  focusInvalidatedThrough : Option Nat
  revokedTargets : List Target
  effects : Nat
  uncertain : Bool
  interrupted : Bool
  journal : List Receipt
  boundSession : Option Uuid
  invalidatedObservation : Option Nat
  consumed : List Uuid
deriving DecidableEq, Repr

def FakeDesktop.default : FakeDesktop :=
  ⟨0, none, none, [], 0, false, false, [], none, none, []⟩

end Journal

namespace FakeDesktop

section Events

def reportFocusChange (d : FakeDesktop) (target : Option Target) (observedThrough : Nat) :
    FakeDesktop :=
  { d with
    focusedTarget := target
    focusInvalidatedThrough :=
      some ((d.focusInvalidatedThrough.map (max observedThrough)).getD observedThrough) }

/-- The revocation of a grant lasts as long as the session. -/
def revokeGrant (d : FakeDesktop) (target : Target) : FakeDesktop :=
  if target ∈ d.revokedTargets then d
  else { d with revokedTargets := d.revokedTargets ++ [target] }

def checkBrokerState (d : FakeDesktop) (target : Target) (observation : Nat) :
    Except Denial Unit := do
  require (target ∉ d.revokedTargets) .grantRevoked
  require (d.focusedTarget = some target) .focus
  require (¬ d.focusInvalidatedThrough.any (observation ≤ ·)) .staleObservation

/-- The state of the last receipt, if there is one. -/
def setLastState (d : FakeDesktop) (state : ReceiptState) : FakeDesktop :=
  { d with journal := d.journal.modifyLast fun last => { last with state } }

/-- The effect may have happened, and its receipt is lost. -/
def markUncertain (d : FakeDesktop) : FakeDesktop :=
  { d with uncertain := true }.setLastState .dispatchedUnknown

def interrupt (d : FakeDesktop) : FakeDesktop := { d with interrupted := true }

end Events

section Executing

variable (d : FakeDesktop) (a : Authority) (p : Policy) (o : Observation) (r : Request)
  (risk : Risk) (approval : Option Approval) (now : Nat)

/-- The gate in front of an action. -/
def admission : Except Outcome Unit := do
  require (¬ d.nextSequence ≥ 10000) (.rejected .payload)
  require (¬ d.boundSession.any (· ≠ a.session)) (.rejected .session)
  require (d.interrupted = false) (.rejected .stopped)
  require (d.uncertain = false) (.rejected .uncertain)
  require (r.sequence = d.nextSequence ∧ r.callId ∉ d.consumed) (.rejected .sequence)
  require (¬ (r.action ≠ .observe ∧ d.invalidatedObservation = some r.observation))
    (.rejected .staleObservation)
  (d.checkBrokerState r.target r.observation).mapError .rejected
  match evaluate a p o r risk approval now with
  | .allow => .ok ()
  | .confirm => .error .needsConfirmation
  | .deny reason => .error (.rejected reason)

/-- The receipt that is journalled before the action. -/
def receiptOf : Receipt :=
  { session := a.session, callId := r.callId, sequence := r.sequence
    observation := r.observation, policyRevision := p.revision, target := r.target
    state := if r.action = .observe then .observed else .dispatchedUnknown
    action := r.action.receiptAction, time := now }

def dispatch : FakeDesktop :=
  { d with
    journal := d.journal ++ [receiptOf a p r now]
    boundSession := some a.session
    nextSequence := d.nextSequence + 1
    consumed := d.consumed ++ [r.callId] }

/-- An input action takes effect, and its observation is used up. -/
def applyInput : FakeDesktop :=
  { d with
    effects := d.effects + 1
    invalidatedObservation := some r.observation }.setLastState .applied

def execute : FakeDesktop × Outcome :=
  match d.admission a p o r risk approval now with
  | .error outcome => (d, outcome)
  | .ok () =>
    let dispatched := d.dispatch a p r now
    if r.action = .observe then (dispatched, .observed)
    else (dispatched.applyInput r, .applied)

end Executing

section Recovering

def journalSnapshot (d : FakeDesktop) : JournalSnapshot := ⟨2, d.journal, d.revokedTargets⟩

/-- One receipt of the journal, read back. -/
def recoverReceipt (d : FakeDesktop) (receipt : Receipt) : Except String FakeDesktop := do
  require (¬ (receipt.sequence ≠ d.nextSequence ∨ receipt.callId ∈ d.consumed ∨
    d.boundSession.any (· ≠ receipt.session))) "inconsistent journal"
  require (d.uncertain = false) "actions after unresolved dispatch"
  return { d with
    boundSession := some receipt.session
    nextSequence := d.nextSequence + 1
    consumed := d.consumed ++ [receipt.callId]
    uncertain := d.uncertain || receipt.state = .dispatchedUnknown
    invalidatedObservation :=
      if receipt.state = .observed then d.invalidatedObservation else some receipt.observation
    effects :=
      if receipt.state = .applied ∨ receipt.state = .reviewedApplied then d.effects + 1
      else d.effects
    journal := d.journal ++ [receipt] }

/-- A restart: the session is interrupted until it is reviewed. -/
def recover (snapshot : JournalSnapshot) : Except String FakeDesktop := do
  require (snapshot.version = 2 ∧ snapshot.receipts.length ≤ 10000 ∧
    snapshot.revokedTargets.length ≤ 10000) "unsupported or oversized journal"
  snapshot.receipts.foldlM recoverReceipt
    { FakeDesktop.default with interrupted := true, revokedTargets := snapshot.revokedTargets }

/-- The finding on an unresolved dispatch goes into its receipt. -/
def resolve (d : FakeDesktop) (finding : Option ReviewFinding) : Except Denial FakeDesktop :=
  if d.uncertain then do
    let last ← orFail d.journal.getLast? .uncertain
    require (last.state = .dispatchedUnknown) .uncertain
    let finding ← orFail finding .uncertain
    return d.setLastState
      (match finding with
      | .effectObserved => .reviewedApplied
      | .effectNotObserved => .reviewedNotApplied)
  else .ok d

/-- The request that a review is checked as: an observation under an identity of its own. -/
def reviewRequest (d : FakeDesktop) (a : Authority) (p : Policy) (o : Observation)
    (callId : Uuid) : Request :=
  ⟨a.session, callId, d.nextSequence, o.id, p.revision, o.target, .observe⟩

/-- Only a refusal stops a review; observing needs no confirmation. -/
def checkReview (d : FakeDesktop) (a : Authority) (p : Policy) (o : Observation) (callId : Uuid)
    (now : Nat) : Except Denial Unit :=
  match evaluate a p o (d.reviewRequest a p o callId) .unknown none now with
  | .deny reason => .error reason
  | _ => .ok ()

def resumeAfterLocalReview (d : FakeDesktop) (a : Authority) (p : Policy) (o : Observation)
    (finding : Option ReviewFinding) (callId : Uuid) (now : Nat) : Except Denial FakeDesktop := do
  require (¬ d.boundSession.any (· ≠ a.session)) .session
  require (¬ d.journal.getLast?.any (o.id ≤ ·.observation)) .staleObservation
  d.checkBrokerState o.target o.id
  d.checkReview a p o callId now
  let d ← d.resolve finding
  return { d with
    effects := d.journal.countP fun receipt =>
      receipt.state = .applied ∨ receipt.state = .reviewedApplied
    uncertain := false
    interrupted := false }

end Recovering

end FakeDesktop

end OHHive.Desktop
