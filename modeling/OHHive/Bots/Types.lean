import OHHive.LocalHub.Basics
import Mathlib.Data.List.Nodup

/-! Domain types of the Bots store: identities, principals, and the stored rows
of profiles, conversations, memberships, messages and deliveries. -/

namespace OHHive.Bots

abbrev AgentId := Uuid
abbrev UserId := Uuid
abbrev ConversationId := Uuid
abbrev MessageId := Uuid

/-- `u32::saturating_add` on values already in range. -/
def saturatingAdd (left right : Nat) : Nat := min (left + right) u32Max

def asU32 (count : Nat) : Result Nat :=
  if count ≤ u32Max then .ok count else .error (rejected "invalid stored counter")

/-- A caller's `u64` bound into a query parameter. -/
def asI64 (number : Nat) : Result Nat :=
  if number ≤ i64Max then .ok number
  else .error (rejected "invalid request: sequence out of range")

/-- A stored counter read back as `i64`; SQLite keeps a larger sum as a real. -/
def readI64 (stored : Nat) : Result Nat :=
  if stored ≤ i64Max then .ok stored else .error dbError

/-- `str::parse::<u32>`: an optional plus sign and decimal digits within range. -/
def parseU32 (text : String) : Option Nat :=
  let digits := match text.toList with
    | '+' :: rest => rest
    | characters => characters
  if digits.isEmpty || !digits.all Char.isDigit then none
  else
    let value := digits.foldl (fun total digit => 10 * total + (digit.toNat - '0'.toNat)) 0
    if value ≤ u32Max then some value else none

inductive Principal where
  | user (id : UserId)
  | agent (id : AgentId)
deriving DecidableEq, Repr

inductive AgentRuntimeKind where
  | local
  | chatgptSubscription
  | copilotSubscription
  | grokSubscription
  | anthropicByok
  | nousByok
deriving DecidableEq, Repr

inductive MemberAction where
  | read
  | post
  | manage
deriving DecidableEq, Repr

inductive MessageKind where
  | text
  | system
  | taskReceipt
deriving DecidableEq, Repr

inductive DeliveryStatus where
  | pending
  | running
  | done
  | failed
  | cancelled
  | unknown
  | held
deriving DecidableEq, Repr

/-- `DeliveryStatus::is_terminal`. -/
def DeliveryStatus.isTerminal : DeliveryStatus → Bool
  | .done | .failed | .cancelled => true
  | _ => false

structure AgentProfile where
  id : AgentId
  owner : UserId
  name : String
  runtimeKind : AgentRuntimeKind
  preferredHost : Option Uuid
  providerAccountRef : Option Uuid
  archived : Bool
deriving DecidableEq, Repr

structure Conversation where
  id : ConversationId
  owner : UserId
  policyRevision : Nat
deriving DecidableEq, Repr

structure ConversationMember where
  conversationId : ConversationId
  principal : Principal
  allowedActions : List MemberAction
deriving DecidableEq, Repr

def ConversationMember.key (member : ConversationMember) : ConversationId × Principal :=
  (member.conversationId, member.principal)

structure Message where
  id : MessageId
  conversationId : ConversationId
  threadRoot : Option MessageId
  author : Principal
  serverSequence : Nat
  clientRequestId : String
  kind : MessageKind
  body : Option String
  attachmentRefs : List String
  taskRef : Option Uuid
  turnRef : Option String
  sourceEventRef : Option String
  createdAt : Int
deriving DecidableEq, Repr

/-- The clash of two messages: same identity, or same sequence or request key in one room. -/
def Message.Clash (earlier later : Message) : Prop :=
  earlier.id = later.id ∨
    earlier.conversationId = later.conversationId ∧
      (earlier.serverSequence = later.serverSequence ∨
        earlier.clientRequestId = later.clientRequestId)

instance : DecidableRel Message.Clash := fun earlier later => by
  unfold Message.Clash
  infer_instance

theorem Message.Clash.symm {earlier later : Message} (clash : earlier.Clash later) :
    later.Clash earlier := by
  rcases clash with same | ⟨room, sequence | request⟩
  · exact Or.inl same.symm
  · exact Or.inr ⟨room.symm, Or.inl sequence.symm⟩
  · exact Or.inr ⟨room.symm, Or.inr request.symm⟩

structure DeliveryKey where
  messageId : MessageId
  recipient : AgentId
deriving DecidableEq, Repr

/-- A stored row of `agent_deliveries`. Less its lease deadline it is the `AgentDelivery`
that a read returns. -/
structure AgentDelivery where
  key : DeliveryKey
  status : DeliveryStatus
  leaseGeneration : Nat
  retryDeadline : Option Int
  leaseDeadline : Option Int
  boundRuntimeSession : Option Uuid
  boundTurnRef : Option String
  updatedAt : Int
  causeMessageId : Option MessageId
  rootMessageId : Option MessageId
  turnDepth : Nat
deriving DecidableEq, Repr

/-- Why a delivery exists; absent for a human-originated send. -/
structure DeliveryCause where
  causeMessageId : MessageId
  rootMessageId : MessageId
  depth : Nat
deriving DecidableEq, Repr

/-- Draft for a send; the remaining fields of the message are assigned by the store. -/
structure NewMessage where
  threadRoot : Option MessageId
  kind : MessageKind
  body : Option String
  attachmentRefs : List String
  taskRef : Option Uuid
  turnRef : Option String
  sourceEventRef : Option String
deriving DecidableEq, Repr

/-- The loop-prevention budgets the executor reads, each a `u32`. -/
structure HandoffBudgets where
  maxActiveTurnsPerAgent : Nat
  maxActiveSpecialistHandoffsPerRun : Nat
  maxDepth : Nat
  maxTurnsPerRoot : Nat
  width_le : maxActiveSpecialistHandoffsPerRun ≤ u32Max := by decide
  depth_le : maxDepth ≤ u32Max := by decide
  turns_le : maxTurnsPerRoot ≤ u32Max := by decide
deriving DecidableEq

theorem one_le_u32Max : 1 ≤ u32Max := by decide

theorem six_le_u32Max : 6 ≤ u32Max := by decide

/-- `HandoffBudgets::default`, the agreed enabled numbers. -/
def HandoffBudgets.default : HandoffBudgets :=
  { maxActiveTurnsPerAgent := 1
    maxActiveSpecialistHandoffsPerRun := 2
    maxDepth := 6
    maxTurnsPerRoot := 30
    depth_le := six_le_u32Max }

def HandoffBudgets.fanOutDisabled : HandoffBudgets :=
  { HandoffBudgets.default with maxDepth := 0, depth_le := by decide }

inductive Provider where
  | copilot
  | chatgpt
  | grok
deriving DecidableEq, Repr

/-- The runtime kind a subscription provider publishes for. -/
def Provider.runtimeKind : Provider → AgentRuntimeKind
  | .copilot => .copilotSubscription
  | .chatgpt => .chatgptSubscription
  | .grok => .grokSubscription

/-- Opaque identity references of a subscription session. -/
structure Binding where
  session : Uuid
  owner : Uuid
  host : Uuid
  agent : Uuid
  conversation : Uuid
  account : Uuid
  provider : Provider
  workspace : Uuid
  policyRevision : String
deriving DecidableEq, Repr

structure CompletedReply where
  text : String
  turn : String
  receipt : String
deriving DecidableEq, Repr

end OHHive.Bots
