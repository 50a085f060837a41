import OHHive.LocalHub.Basics

/-! The policy of desktop actions: who may act on which window, on which observation of it, and
what has to be confirmed first. Authority, observations, risk and consent come from the local
broker; a request comes from a model. -/

namespace OHHive.Desktop

section Requests

structure Target where
  bundleId : String
  processId : Nat
  processInstance : Uuid
  windowId : Nat
deriving DecidableEq, Repr

inductive Action where
  | observe
  | click (x y : Nat)
  | type (text : String)
deriving DecidableEq, Repr

structure Request where
  session : Uuid
  callId : Uuid
  sequence : Nat
  observation : Nat
  policyRevision : Nat
  target : Target
  action : Action
deriving DecidableEq, Repr

inductive Access where
  | view
  | control
deriving DecidableEq, Repr

inductive AppClass where
  | browser
  | terminalOrIde
  | ordinary
deriving DecidableEq, Repr

def defaultAccess : AppClass → Access
  | .browser | .terminalOrIde => .view
  | .ordinary => .control

inductive Risk where
  | routine
  | unknown
  | executeCode
  | sendOrPublish
  | purchase
  | settings
  | paymentCredentials
  | tradeOrTransfer
  | permanentDelete
  | captcha
  | externalConsent
deriving DecidableEq, Repr

inductive Rule where
  | allow
  | confirm
  | deny
deriving DecidableEq, Repr

structure Policy where
  revision : Nat
  exceptions : Risk → Option Rule

def Policy.default : Policy := ⟨1, fun _ => none⟩

def u64Max : Nat := 2 ^ 64 - 1

def Policy.rule (policy : Policy) (risk : Risk) : Rule :=
  (policy.exceptions risk).getD
    (match risk with
    | .routine => .allow
    | .unknown | .executeCode | .sendOrPublish | .purchase | .settings => .confirm
    | _ => .deny)

/-- A consented exception; requests made under the old policy are stale from then on. -/
def Policy.setConsentedException (policy : Policy) (risk : Risk) (rule : Rule) : Policy :=
  { revision := min u64Max (policy.revision + 1)
    exceptions := fun other => if other = risk then some rule else policy.exceptions other }

/-- The bounds of the window in the screenshot. -/
structure Rect where
  left : Nat
  top : Nat
  right : Nat
  bottom : Nat
deriving DecidableEq, Repr

structure Observation where
  id : Nat
  target : Target
  width : Nat
  height : Nat
  allowedRect : Rect
  validUntil : Nat
deriving DecidableEq, Repr

structure Authority where
  session : Uuid
  owner : Uuid
  projectOwner : Uuid
  node : Uuid
  targetNode : Uuid
  privateLocal : Bool
  leaseDeadline : Nat
  authorityDeadline : Nat
  stopped : Bool
  grantDeadline : Nat
  access : Access
  target : Target
deriving DecidableEq, Repr

/-- A consent to one request at one risk. -/
structure Approval where
  request : Request
  risk : Risk
  expires : Nat
deriving DecidableEq, Repr

inductive Denial where
  | focus
  | grantRevoked
  | ownership
  | expired
  | stopped
  | session
  | target
  | stalePolicy
  | staleObservation
  | bounds
  | access
  | policy
  | payload
  | sequence
  | uncertain
deriving DecidableEq, Repr

inductive Decision where
  | allow
  | confirm
  | deny (reason : Denial)
deriving DecidableEq, Repr

end Requests

section Evaluation

variable (a : Authority) (p : Policy) (o : Observation) (r : Request) (risk : Risk)
  (approval : Option Approval) (now : Nat)

/-- Whether a point lies in the window, and the window in the screenshot. -/
def Observation.contains (o : Observation) (x y : Nat) : Bool :=
  let bounds := o.allowedRect
  !(bounds.left ≥ bounds.right || bounds.top ≥ bounds.bottom || bounds.right > o.width ||
    bounds.bottom > o.height || x < bounds.left || y < bounds.top || x ≥ bounds.right ||
    y ≥ bounds.bottom)

/-- What an input action carries. -/
def payloadDenial? : Action → Option Denial
  | .observe => none
  | .click x y => if o.contains x y then none else some .bounds
  | .type text =>
    if text.isEmpty || text.utf8ByteSize > 16384 || text.toList.contains '\x00' then some .payload
    else none

/-- The rule of the risk, for an input action that is in order. -/
def decideInput : Decision :=
  match payloadDenial? o r.action with
  | some reason => .deny reason
  | none =>
    if a.access ≠ .control then .deny .access
    else
      match p.rule risk with
      | .allow => .allow
      | .deny => .deny .policy
      | .confirm =>
        if approval.any fun g => g.request = r && g.risk = risk && now < g.expires then .allow
        else .confirm

def evaluate : Decision :=
  if !a.privateLocal || a.owner ≠ a.projectOwner || a.node ≠ a.targetNode then .deny .ownership
  else if a.stopped then .deny .stopped
  else if now ≥ a.leaseDeadline || now ≥ a.authorityDeadline || now ≥ a.grantDeadline then
    .deny .expired
  else if r.session ≠ a.session then .deny .session
  else if r.target ≠ a.target || r.target ≠ o.target then .deny .target
  else if r.policyRevision ≠ p.revision then .deny .stalePolicy
  else if r.observation ≠ o.id || now ≥ o.validUntil then .deny .staleObservation
  else
    match r.action with
    | .observe => .allow
    | _ => decideInput a p o r risk approval now

end Evaluation

end OHHive.Desktop
