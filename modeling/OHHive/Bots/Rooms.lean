import OHHive.AgentTools.Policies

/-! The conversations of an owner with its agents: their stored rows, the creation of a room under
a request identity, and the direct conversation with one agent. -/

namespace OHHive.Bots

open AgentTools (sortedIds)
open Coder (arrayOf byteLength optionalText uuidText)
open Foundation
open Vault (trim)

section Rows

inductive ConversationKind where
  | team
  | project
  | agentDm
deriving DecidableEq, Repr

/-- `conversation_kind_to_str`. -/
def ConversationKind.toStr : ConversationKind → Text
  | .team => "team".toList
  | .project => "project".toList
  | .agentDm => "agent_dm".toList

theorem ConversationKind.toStr_injective : Function.Injective ConversationKind.toStr := by
  intro first second same
  cases first <;> cases second <;> first | rfl | exact absurd same (by decide)

inductive StorageScope where
  | localOnly
  | hubBacked
deriving DecidableEq, Repr

/-- A stored row of `conversations`, which is also what a read of it returns. -/
structure Room extends Conversation where
  kind : ConversationKind
  projectId : Option Uuid
  coordinator : Option AgentId
  storageScope : StorageScope
  createdAt : Int
  title : Option Text
deriving DecidableEq, Repr

/-- A stored row of `conversation_members`. -/
structure RoomMember extends ConversationMember where
  historyBoundary : Int
  joinedAt : Int
deriving DecidableEq, Repr

def RoomMember.key (member : RoomMember) : ConversationId × Principal :=
  member.toConversationMember.key

structure NewConversation where
  title : Option Text
  owner : UserId
  kind : ConversationKind
  projectId : Option Uuid
  coordinator : Option AgentId
  storageScope : StorageScope
deriving DecidableEq, Repr

/-- The row of a draft. -/
def NewConversation.room (draft : NewConversation) (id : ConversationId) (ts : Int) : Room :=
  { id
    owner := draft.owner
    policyRevision := 1
    kind := draft.kind
    projectId := draft.projectId
    coordinator := draft.coordinator
    storageScope := draft.storageScope
    createdAt := ts
    title := draft.title }

/-- A row of `bots_room_create_receipts`; the stored response is kept as the room it encodes. -/
structure RoomReceipt where
  owner : UserId
  requestId : Uuid
  conversationId : ConversationId
  payload : Text
  response : Room
deriving DecidableEq, Repr

def RoomReceipt.key (receipt : RoomReceipt) : UserId × Uuid := (receipt.owner, receipt.requestId)

/-- The tables of the conversations. -/
structure RoomStore where
  agents : Table AgentProfile (Table.SameKey AgentProfile.id)
  rooms : Table Room (Table.SameKey fun room => room.id)
  members : Table RoomMember (Table.SameKey RoomMember.key)
  receipts : Table RoomReceipt (Table.SameKey RoomReceipt.key)

namespace RoomStore

def empty : RoomStore := ⟨.empty, .empty, .empty, .empty⟩

/-- A statement on `conversations`; a coordinator is the identity of a stored profile. -/
def insertRoom (store : RoomStore) (room : Room) : Result RoomStore := do
  require (∀ agent ∈ room.coordinator, (store.agents.lookup agent).isSome) dbError
  let rooms ← orFail (store.rooms.insert? room) dbError
  return { store with rooms }

/-- A statement on `conversation_members`; the conversation is a stored one. -/
def insertMember (store : RoomStore) (member : RoomMember) : Result RoomStore := do
  require ((store.rooms.lookup member.conversationId).isSome) dbError
  let members ← orFail (store.members.insert? member) dbError
  return { store with members }

def insertReceipt (store : RoomStore) (receipt : RoomReceipt) : Result RoomStore := do
  require ((store.rooms.lookup receipt.conversationId).isSome) dbError
  let receipts ← orFail (store.receipts.insert? receipt) dbError
  return { store with receipts }

end RoomStore

/-- The membership of the owner, who may do everything. -/
def Room.ownerMember (room : Room) (ts : Int) : RoomMember :=
  { conversationId := room.id
    principal := .user room.owner
    allowedActions := [.read, .post, .manage]
    historyBoundary := ts
    joinedAt := ts }

/-- The membership of an agent, which reads and posts. -/
def Room.agentMember (room : Room) (ts : Int) (agent : AgentId) : RoomMember :=
  { conversationId := room.id
    principal := .agent agent
    allowedActions := [.read, .post]
    historyBoundary := ts
    joinedAt := ts }

end Rows

section Creation

/-- `from_unix`: the seconds that `DateTime` can hold. -/
def fromUnix (secs : Int) : Result Int :=
  if -8334601228800 ≤ secs ∧ secs ≤ 8210266876799 then .ok secs
  else .error (rejected "invalid stored timestamp")

/-- What a caller of `bots_rooms_create` sends. -/
structure RoomRequest where
  requestId : Uuid
  draft : NewConversation
  agents : List AgentId
deriving DecidableEq, Repr

namespace RoomRequest

variable (request : RoomRequest)

def title : Text := trim (request.draft.title.getD [])

/-- The agents, sorted and without repetition. -/
def roster : List AgentId := sortedIds request.agents

/-- The draft as it is stored. -/
def normalized : NewConversation := { request.draft with title := some request.title }

/-- The form of a request. -/
def WellFormed : Prop :=
  request.requestId ≠ 0 ∧ request.title ≠ [] ∧ byteLength request.title ≤ 200 ∧
    request.agents ≠ [] ∧ request.agents.length ≤ 16 ∧
    request.draft.storageScope = .localOnly ∧ request.draft.kind ≠ .agentDm ∧
    (request.draft.kind = .project ↔ request.draft.projectId.isSome)

instance : Decidable request.WellFormed := by
  unfold WellFormed
  infer_instance

/-- The coordinator, where there is one, is among the agents. -/
def Coordinated : Prop := ∀ id ∈ request.draft.coordinator, id ∈ request.roster

instance : Decidable request.Coordinated := by
  unfold Coordinated
  infer_instance

/-- The JSON that tells requests apart. -/
def payload : Json :=
  arrayOf [optionalText request.normalized.title, .text request.draft.kind.toStr,
    optionalText (request.draft.projectId.map uuidText),
    optionalText (request.draft.coordinator.map uuidText),
    arrayOf (request.roster.map fun agent => .text (uuidText agent))]

def fingerprint : Text := request.payload.print

def key : UserId × Uuid := (request.draft.owner, request.requestId)

/-- The receipt of a room made for the request. -/
def receipt (room : Room) : RoomReceipt :=
  { owner := request.draft.owner
    requestId := request.requestId
    conversationId := room.id
    payload := request.fingerprint
    response := room }

/-- An agent that the owner of the request may put into a room. -/
def Allowed (store : RoomStore) (agent : AgentId) : Prop :=
  ∃ profile ∈ store.agents.lookup agent,
    profile.owner = request.draft.owner ∧ profile.archived = false

instance (store : RoomStore) (agent : AgentId) : Decidable (request.Allowed store agent) := by
  unfold Allowed
  infer_instance

end RoomRequest

/-- The statements that make a room, its memberships and its receipt. -/
def RoomStore.makeRoom (store : RoomStore) (request : RoomRequest) (id : ConversationId)
    (ts : Int) : Result (RoomStore × Room) := do
  require (∀ agent ∈ request.roster, request.Allowed store agent)
    (rejected "room agent unavailable or belongs to another account")
  let room := request.normalized.room id ts
  let store ← store.insertRoom room
  let store ← store.insertMember (room.ownerMember ts)
  let store ← (request.roster.map (room.agentMember ts)).foldlM RoomStore.insertMember store
  let _ ← fromUnix ts
  let store ← store.insertReceipt (request.receipt room)
  return (store, room)

/-- `bots_rooms_create`: a request that is stored already is answered from its receipt. -/
def RoomStore.botsRoomsCreate (store : RoomStore) (request : RoomRequest) (id : ConversationId)
    (ts : Int) : Result (RoomStore × Room) := do
  require request.WellFormed (rejected "invalid room: choose a title and 1–16 agents")
  require request.Coordinated (rejected "coordinator must be a selected room member")
  match store.receipts.lookup request.key with
  | some receipt =>
    require (receipt.payload = request.fingerprint)
      (rejected "room request ID already used with different details")
    return (store, receipt.response)
  | none => store.makeRoom request id ts

end Creation

end OHHive.Bots
