import OHHive.Bots.Reading

/-! Runs of automation. The occurrence of a schedule or a heartbeat sends an agent a message, waits
in the room and takes the first text of the agent that follows for its reply, while everybody else
goes on writing there. -/

namespace OHHive.Bots

open Foundation

section Runs

inductive Automation where
  | occurrence (occurrenceId : Uuid) (owner : UserId) (agentId : AgentId) (message : String)
  | heartbeat (runId : String) (denAgentId : AgentId) (prompt : String)
deriving DecidableEq, Repr

namespace Automation

def agentId : Automation → AgentId
  | .occurrence _ _ agentId _ => agentId
  | .heartbeat _ denAgentId _ => denAgentId

/-- The key under which a run sends its message. -/
def key : Automation → String
  | .occurrence occurrenceId _ _ _ => s!"sched:{occurrenceId}"
  | .heartbeat runId _ _ => s!"paperclip:{runId}"

def text : Automation → String
  | .occurrence _ _ _ message => "Scheduled task.\n\n" ++ message ++
      "\n\nReply with your response; it will be recorded as this run's result."
  | .heartbeat _ _ prompt => prompt

/-- A schedule has its owner; a heartbeat speaks for the owner of its room. -/
def owner (automation : Automation) (room : Conversation) : UserId :=
  match automation with
  | .occurrence _ owner _ _ => owner
  | .heartbeat .. => room.owner

end Automation

inductive RunPhase where
  | opened
  | addressed (owner : UserId) (policyRevision : Nat)
  | checked (owner : UserId) (policyRevision : Nat)
  | waiting (owner : UserId) (sent : Message) (after : Nat)
  | answered (sent reply : Message)
  | succeeded (sent reply : Message)
  | failed (failureClass : String)
deriving DecidableEq

/-- A run, in the room it was opened in: the owner's own with the agent, or the one of its seat. -/
structure AutomationRun where
  automation : Automation
  room : ConversationId
  phase : RunPhase
deriving DecidableEq

def AutomationRun.agentId (run : AutomationRun) : AgentId := run.automation.agentId

def AutomationRun.request (run : AutomationRun) (owner : UserId) (policyRevision : Nat) :
    SendRequest :=
  { actor := .user owner
    conversationId := run.room
    clientRequestId := run.automation.key
    expectedPolicyRevision := policyRevision
    recipientIds := [run.agentId]
    draft :=
      { threadRoot := none
        kind := .text
        body := some run.automation.text
        attachmentRefs := []
        taskRef := none
        turnRef := none
        sourceEventRef := none }
    cause := none
    hold := false }

/-- What a run takes for a reply: a text of the agent that is not blank. -/
def Message.answers (message : Message) (agent : AgentId) : Bool :=
  message.author = .agent agent && message.kind = .text &&
    message.body.any (fun body => !body.toList.all isWhitespace)

/-- `bots_conversation_deliveries`, newest message first. -/
def botsConversationDeliveries (store : Store) (owner : UserId) (conversation : ConversationId) :
    Result (List (MessageId × String × DeliveryStatus)) := do
  let room ← botsConversationGet store conversation
  require (room.owner = owner) (rejected "forbidden: conversation belongs to another account")
  let rows := store.deliveries.rows.filterMap (fun delivery => do
    let message ← store.message? delivery.key.messageId
    let agent ← store.agent? delivery.key.recipient
    if message.conversationId = conversation then
      some (message.serverSequence, agent.name, message.id, delivery.status)
    else none)
  let sorted := rows.insertionSort (fun first second =>
    second.1 < first.1 ∨ first.1 = second.1 ∧ first.2.1 ≤ second.2.1)
  pure ((sorted.take 500).map (fun row => (row.2.2.1, row.2.1, row.2.2.2)))

/-- One step of a run. The reads and the write of a send are separate calls. -/
inductive RunMove where
  | address (fault : Fault)
  | check (fault : Fault)
  | send (id : MessageId) (ts : Int) (fault : Fault)
  | poll (fault : Fault)
  | inspect (fault : Fault)
  | giveUp
  | record (arrives : Bool)
deriving DecidableEq

def pageLimit : Nat := 100

/-- What a run does next, with the store it leaves. -/
def AutomationRun.move (run : AutomationRun) (store : Store) (move : RunMove) : Store × RunPhase :=
  match move, run.phase with
  | .address fault, .opened =>
    match attemptRead fault (botsConversationGet store run.room) with
    | some room => (store, .addressed (run.automation.owner room) room.policyRevision)
    | none => (store, .failed "hub rejected the message")
  | .check fault, .addressed owner revision =>
    match attemptRead fault (sendChecks store (run.request owner revision)) with
    | some _ => (store, .checked owner revision)
    | none => (store, .failed "hub rejected the message")
  | .send id ts fault, .checked owner revision =>
    let (next, sent) := attempt fault store (sendInsert store (run.request owner revision) id ts)
    match sent.bind next.message? with
    | some message => (next, .waiting owner message message.serverSequence)
    | none => (next, .failed "hub rejected the message")
  | .poll fault, .waiting owner sent after =>
    match attemptRead fault
      (botsMessagesList store (.user owner) run.room ⟨none, some after, pageLimit⟩) with
    | none => (store, .failed "hub read failed")
    | some page =>
      match page.find? (fun message => message.answers run.agentId) with
      | some reply => (store, .answered sent reply)
      | none => (store, .waiting owner sent ((page.getLast?.map Message.serverSequence).getD after))
  | .inspect fault, .waiting owner sent after =>
    match run.automation, attemptRead fault (botsConversationDeliveries store owner run.room) with
    | .heartbeat .., some rows =>
      match rows.find? (fun row => row.1 = sent.id &&
        [.failed, .cancelled, .unknown].contains row.2.2) with
      | some row => (store, .failed (if row.2.2 = .cancelled then "agent delivery was cancelled"
          else if row.2.2 = .unknown then "agent delivery state lost" else "agent turn failed"))
      | none => (store, .waiting owner sent after)
    | _, _ => (store, .waiting owner sent after)
  | .giveUp, .waiting .. => (store, .failed "no agent reply in time")
  | .record arrives, .answered sent reply =>
    match arrives, run.automation with
    | true, _ => (store, .succeeded sent reply)
    | false, .occurrence .. => (store, .answered sent reply)
    | false, .heartbeat .. => (store, .failed "paperclip reply post failed")
  | _, phase => (store, phase)

/-- The rooms with the executors' workers, the runs of automation, and the messages they have
stored, each with the agent it is for. -/
structure AutomatedRooms where
  system : System
  runs : List AutomationRun
  sends : List DeliveryKey

inductive RoomAction where
  | room (action : Action)
  | report (nodes : List Uuid) (owner : UserId) (host : Uuid) (localReady : Bool)
      (stamps : Nat → MessageId × Int)
  | start (automation : Automation) (room : ConversationId)
  | advance (run : Nat) (move : RunMove)

/-- A message that a run's send has just stored. -/
def RunMove.stores (move : RunMove) (before after : Store) (agent : AgentId) : List DeliveryKey :=
  match move with
  | .send id _ _ =>
    if (before.message? id).isNone && (after.message? id).isSome then [⟨id, agent⟩] else []
  | _ => []

namespace AutomatedRooms

def store (rooms : AutomatedRooms) : Store := rooms.system.store

def start : AutomatedRooms := ⟨System.start, [], []⟩

variable (isAlphanumeric : Char → Bool) (budgets : HandoffBudgets)

def step (rooms : AutomatedRooms) (action : RoomAction) : AutomatedRooms :=
  match action with
  | .room action => { rooms with system := rooms.system.step isAlphanumeric budgets action }
  | .report nodes owner host localReady stamps =>
    { rooms with
      system := { rooms.system with
        store := rooms.store.roomStep (.reportUnroutable nodes owner host localReady stamps) } }
  | .start automation room => { rooms with runs := rooms.runs ++ [⟨automation, room, .opened⟩] }
  | .advance index move =>
    match rooms.runs[index]? with
    | none => rooms
    | some run =>
      let (store, phase) := run.move rooms.store move
      { system := { rooms.system with store }
        runs := rooms.runs.set index { run with phase }
        sends := rooms.sends ++ move.stores rooms.store store run.agentId }

end AutomatedRooms

variable (isAlphanumeric : Char → Bool) (budgets : HandoffBudgets)

abbrev automatedAt (actions : List RoomAction) (moment : Nat) : AutomatedRooms :=
  stateAt (AutomatedRooms.step isAlphanumeric budgets) AutomatedRooms.start actions moment

end Runs

end OHHive.Bots
