import OHHive.Bots.Effects
import OHHive.Bots.Mentions

/-! The Bots executor. Any number of workers drain deliveries against one store; a turn
is a sequence of separate store calls, a call can fail before or after it took effect, and
a worker can crash between any two of them. -/

namespace OHHive.Bots

open Foundation

section Routing

inductive BudgetDecision where
  | proceed
  | hold (notice : String)
deriving DecidableEq, Repr

/-- Whether a thread can afford `pending` more replies. An unreadable count holds. -/
def turnBudgetDecision (spent : Option Nat) (pending maxTurnsPerRoot : Nat) : BudgetDecision :=
  let plural := if pending = 1 then "y is" else "ies are"
  match spent with
  | none => .hold (s!"Couldn't check this thread's turn budget, so {pending} repl{plural} held " ++
      "rather than sent. Release to continue.")
  | some spent =>
    if maxTurnsPerRoot < saturatingAdd spent (pending % (u32Max + 1)) then
      .hold (s!"{maxTurnsPerRoot}-turn limit reached for this thread; {pending} repl{plural} " ++
        "held. Release to continue.")
    else .proceed

def humanLabel : String := "Owner"

/-- The chain a reply continues: the root of the delivery it answers, one hop deeper. -/
def replyCause (delivery : AgentDelivery) : DeliveryCause :=
  { causeMessageId := delivery.key.messageId
    rootMessageId := delivery.rootMessageId.getD delivery.key.messageId
    depth := saturatingAdd delivery.turnDepth 1 }

/-- A reply with the agents it wakes and the notices posted after it. -/
structure ReplyPlan where
  delivery : AgentDelivery
  incoming : Message
  policyRevision : Nat
  body : String
  recipients : List AgentId
  notices : List String

/-- Who a reply wakes: nobody past the depth limit, otherwise the first of its mentions up to
the fan-out width. -/
def routeReply (isAlphanumeric : Char → Bool) (budgets : HandoffBudgets)
    (delivery : AgentDelivery) (incoming : Message) (policyRevision : Nat)
    (roster : List AgentProfile) (body : String) : ReplyPlan :=
  if budgets.maxDepth < (replyCause delivery).depth then
    { delivery, incoming, policyRevision, body
      recipients := []
      notices :=
        if 0 < budgets.maxDepth then
          [s!"Depth limit reached ({budgets.maxDepth} hops); this reply notified no one."]
        else [] }
  else
    let mentions := Mentions.resolveMentionsWithParticipants isAlphanumeric body roster
      (.agent delivery.key.recipient) [humanLabel]
    let width := budgets.maxActiveSpecialistHandoffsPerRun
    { delivery, incoming, policyRevision, body
      recipients := mentions.recipients.take width
      notices :=
        (if width < mentions.recipients.length then
          [s!"An agent reply may address at most {width} teammates; {width} of " ++
            s!"{mentions.recipients.length} were notified."]
        else []) ++
        (if mentions.unresolved.isEmpty then []
        else ["Unrecognized name(s) in a reply, nobody notified for them: " ++
          ", ".intercalate mentions.unresolved ++ "."]) }

def ReplyPlan.request (plan : ReplyPlan) (hold : Bool) : SendRequest :=
  { actor := .agent plan.delivery.key.recipient
    conversationId := plan.incoming.conversationId
    clientRequestId := replyRequest plan.delivery.key
    expectedPolicyRevision := plan.policyRevision
    recipientIds := plan.recipients
    draft :=
      { threadRoot := plan.incoming.threadRoot.or (some plan.incoming.id)
        kind := .text
        body := some plan.body
        attachmentRefs := []
        taskRef := none
        turnRef := none
        sourceEventRef := none }
    cause := some (replyCause plan.delivery)
    hold }

def ReplyPlan.noticeRequest (plan : ReplyPlan) (sent : Message) (index : Nat)
    (notice : String) : SendRequest :=
  { actor := .agent plan.delivery.key.recipient
    conversationId := plan.incoming.conversationId
    clientRequestId :=
      s!"notice:{plan.delivery.key.messageId}:{plan.delivery.key.recipient}:{index}"
    expectedPolicyRevision := plan.policyRevision
    recipientIds := []
    draft :=
      { threadRoot := sent.threadRoot.or (some sent.id)
        kind := .system
        body := some notice
        attachmentRefs := []
        taskRef := none
        turnRef := none
        sourceEventRef := none }
    cause := none
    hold := false }

end Routing

section Workers

inductive AttemptOutcome where
  | delivered
  | noCapacity
  | failed
  | noRunner
deriving DecidableEq, Repr

/-- What `run_turn` may answer. -/
inductive TurnOutcome where
  | reply (body : String)
  | noCapacity
  | failed
  | noRunner
deriving DecidableEq, Repr

/-- Where a worker stands in its turn, with everything it has read so far. -/
inductive Phase where
  | idle
  | claimed (delivery : AgentDelivery)
  | located (delivery : AgentDelivery) (incoming : Message)
  | authorized (delivery : AgentDelivery) (incoming : Message) (policyRevision : Nat)
  | briefed (delivery : AgentDelivery) (incoming : Message) (policyRevision : Nat)
      (roster : List AgentProfile)
  | routed (plan : ReplyPlan)
  | gated (plan : ReplyPlan) (spent : Option Nat) (hold : Bool)
  | noticing (plan : ReplyPlan) (sent : Message) (index : Nat)
  | closing (delivery : AgentDelivery) (outcome : AttemptOutcome)
  | failing (delivery : AgentDelivery)

structure System where
  store : Store
  worker : Nat → Phase

def attempt (fault : Fault) (store : Store) (call : Result (Store × α)) : Store × Option α :=
  match fault, call with
  | .none, .ok (next, value) => (next, some value)
  | .after, .ok (next, _) => (next, none)
  | _, _ => (store, none)

/-- A read has no effect to lose. -/
def attemptRead (fault : Fault) (call : Result α) : Option α :=
  match fault, call with
  | .none, .ok value => some value
  | _, _ => none

inductive Action where
  | transact (op : Op)
  | claim (worker : Nat) (key : DeliveryKey) (ts : Int) (fault : Fault)
  | locate (worker : Nat) (fault : Fault)
  | authorize (worker : Nat) (fault : Fault)
  | brief (worker : Nat) (fault : Fault)
  | run (worker : Nat) (outcome : TurnOutcome)
  | gate (worker : Nat) (fault : Fault)
  | send (worker : Nat) (id : MessageId) (ts : Int) (fault : Fault)
  | notice (worker : Nat) (id : MessageId) (ts : Int) (fault : Fault)
  | close (worker : Nat) (ts retryTs : Int) (noticeId : MessageId) (fault : Fault)
  | crash (worker : Nat)

def noCapacityRetrySeconds : Int := 20

/-- The policy revision of a room the agent is a member of. -/
def conversationPolicyRevision (store : Store) (agent : AgentId)
    (conversation : ConversationId) : Result Nat := do
  require (botsIsMember store conversation (.agent agent)) dbError
  let room ← botsConversationGet store conversation
  pure room.policyRevision

namespace System

def enter (system : System) (worker : Nat) (phase : Phase) : System :=
  { system with worker := Function.update system.worker worker phase }

/-- The call that resolves a turn, by the outcome of its attempt. -/
def closeCall (store : Store) (delivery : AgentDelivery) (outcome : AttemptOutcome)
    (ts retryTs : Int) (noticeId : MessageId) : Result (Store × AgentDelivery) :=
  match outcome with
  | .delivered =>
      botsDeliveryComplete store delivery.key delivery.leaseGeneration ts noticeId
  | .noCapacity => botsDeliveryFail store delivery.key delivery.leaseGeneration
      (some (retryTs + noCapacityRetrySeconds)) ts noticeId
  | .failed => botsDeliveryFail store delivery.key delivery.leaseGeneration none ts noticeId
  | .noRunner =>
      botsDeliveryFail store delivery.key delivery.leaseGeneration (some retryTs) ts noticeId

/-- One action of one worker, or one transaction of anybody else. An action that does not
fit the worker's phase changes nothing. -/
def step (isAlphanumeric : Char → Bool) (budgets : HandoffBudgets) (system : System)
    (action : Action) : System :=
  match action with
  | .transact op => { system with store := system.store.step op }
  | .claim worker key ts fault =>
    match system.worker worker with
    | .idle =>
      let (store, claimed) := attempt fault system.store
        (botsDeliveryClaimWithinBudget system.store key budgets.maxActiveTurnsPerAgent ts)
      match claimed with
      | some delivery => { system with store }.enter worker (.claimed delivery)
      | none => { system with store }
    | _ => system
  | .locate worker fault =>
    match system.worker worker with
    | .claimed delivery =>
      match attemptRead fault (botsMessageGet system.store delivery.key.messageId) with
      | some incoming => system.enter worker (.located delivery incoming)
      | none => system.enter worker (.closing delivery .failed)
    | _ => system
  | .authorize worker fault =>
    match system.worker worker with
    | .located delivery incoming =>
      match attemptRead fault (conversationPolicyRevision system.store delivery.key.recipient
          incoming.conversationId) with
      | some revision => system.enter worker (.authorized delivery incoming revision)
      | none => system.enter worker (.closing delivery .failed)
    | _ => system
  | .brief worker fault =>
    match system.worker worker with
    | .authorized delivery incoming revision =>
      let roster := (attemptRead fault (botsRoomAgents system.store
        (.agent delivery.key.recipient) incoming.conversationId)).getD []
      system.enter worker (.briefed delivery incoming revision roster)
    | _ => system
  | .run worker outcome =>
    match system.worker worker with
    | .briefed delivery incoming revision roster =>
      match outcome with
      | .reply body => system.enter worker
          (.routed (routeReply isAlphanumeric budgets delivery incoming revision roster body))
      | .noCapacity => system.enter worker (.closing delivery .noCapacity)
      | .failed => system.enter worker (.closing delivery .failed)
      | .noRunner => system.enter worker (.closing delivery .noRunner)
    | _ => system
  | .gate worker fault =>
    match system.worker worker with
    | .routed plan =>
      if plan.recipients.isEmpty then system.enter worker (.gated plan none false)
      else
        let spent := attemptRead fault
          (botsTurnsForRoot system.store (replyCause plan.delivery).rootMessageId)
        match turnBudgetDecision spent plan.recipients.length budgets.maxTurnsPerRoot with
        | .proceed => system.enter worker (.gated plan spent false)
        | .hold notice =>
          system.enter worker (.gated { plan with notices := plan.notices ++ [notice] } spent true)
    | _ => system
  | .send worker id ts fault =>
    match system.worker worker with
    | .gated plan _ hold =>
      let (store, sent) := attempt fault system.store
        (sendInsert system.store (plan.request hold) id ts)
      match sent.bind store.message? with
      | some message => { system with store }.enter worker (.noticing plan message 0)
      | none => { system with store }.enter worker (.closing plan.delivery .failed)
    | _ => system
  | .notice worker id ts fault =>
    match system.worker worker with
    | .noticing plan sent index =>
      match plan.notices[index]? with
      | some notice =>
        let (store, _) := attempt fault system.store
          (sendInsert system.store (plan.noticeRequest sent index notice) id ts)
        { system with store }.enter worker (.noticing plan sent (index + 1))
      | none => system.enter worker (.closing plan.delivery .delivered)
    | _ => system
  | .close worker ts retryTs noticeId fault =>
    match system.worker worker with
    | .closing delivery outcome =>
      let (store, closed) := attempt fault system.store
        (closeCall system.store delivery outcome ts retryTs noticeId)
      match outcome, closed with
      | .delivered, none => { system with store }.enter worker (.failing delivery)
      | _, _ => { system with store }.enter worker .idle
    | .failing delivery =>
      let (store, _) := attempt fault system.store (botsDeliveryFail system.store delivery.key
        delivery.leaseGeneration none ts noticeId)
      { system with store }.enter worker .idle
    | _ => system
  | .crash worker => system.enter worker .idle

end System

end Workers

end OHHive.Bots
