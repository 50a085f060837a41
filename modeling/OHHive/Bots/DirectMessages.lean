import OHHive.Bots.RoomRuns

/-! `find_or_create_agent_dm`: a search among the newest conversations, then a creation in another
transaction. Callers interleave, and so do the other operations on conversations. -/

namespace OHHive.Bots

open Foundation

section Operations

/-- What `ORDER BY created_at DESC` says of the order of rows; rows of one second are in any. -/
structure Listing where
  order : List Room → List Room
  perm : ∀ rooms, (order rooms).Perm rooms
  newest : ∀ rooms, (order rooms).Pairwise fun earlier later => later.createdAt ≤ earlier.createdAt

namespace RoomStore

variable (store : RoomStore)

/-- The conversations that an actor is a member of. -/
def roomsOf (actor : Principal) : List Room :=
  store.rooms.rows.filter fun room => (store.members.lookup (room.id, actor)).isSome

def botsConversationsList (listing : Listing) (actor : Principal) : List Room :=
  (listing.order (store.roomsOf actor)).take 1000

/-- The transaction of `bots_conversations_create`. -/
def botsConversationsCreate (draft : NewConversation) (id : ConversationId) (ts : Int) :
    Result RoomStore := do
  let room := draft.room id ts
  let store ← store.insertRoom room
  let store ← store.insertMember (room.ownerMember ts)
  (draft.coordinator.toList.map (room.agentMember ts)).foldlM insertMember store

/-- `bots_conversation_get`, the read that follows it. -/
def roomGet (id : ConversationId) : Result Room :=
  orFail (store.rooms.lookup id) (rejected "not found: conversation")

/-- The writing transaction of `bots_conversations_join`. -/
def botsConversationsJoin (actor : Principal) (conversation : ConversationId) (ts : Int) :
    Result RoomStore :=
  match store.members.lookup (conversation, actor) with
  | some _ => .ok store
  | none =>
    store.insertMember
      { conversationId := conversation
        principal := actor
        allowedActions := [.read, .post]
        historyBoundary := ts
        joinedAt := ts }

end RoomStore

/-- The conversation that a search for a direct one with an agent looks for. -/
def Room.isDm (room : Room) (agent : AgentId) : Bool :=
  room.kind = .agentDm && room.coordinator = some agent

def dmDraft (owner : UserId) (agent : AgentId) : NewConversation :=
  { title := none
    owner
    kind := .agentDm
    projectId := none
    coordinator := some agent
    storageScope := .localOnly }

/-- The search at the start of `find_or_create_agent_dm`. -/
def RoomStore.searchDm (store : RoomStore) (listing : Listing) (owner : UserId) (agent : AgentId) :
    Option Room :=
  (store.botsConversationsList listing (.user owner)).find? (·.isDm agent)

end Operations

section Machine

/-- How far a call of `find_or_create_agent_dm` has come. -/
inductive DmProgress where
  | found (id : ConversationId)
  | missing
  | made (id : ConversationId)
  | returned (id : ConversationId)
  | lost (id : ConversationId)
  | failed
deriving DecidableEq, Repr

namespace DmProgress

/-- The conversation that the call created. -/
def creation? : DmProgress → Option ConversationId
  | .made id | .returned id | .lost id => some id
  | .found _ | .missing | .failed => none

/-- The conversation that the call created or found. -/
def conversation? : DmProgress → Option ConversationId
  | .found id | .made id | .returned id | .lost id => some id
  | .missing | .failed => none

end DmProgress

structure DmCall where
  owner : UserId
  agent : AgentId
  progress : DmProgress
deriving DecidableEq, Repr

/-- The stored conversations, and the calls in the order in which they began. -/
structure DmHub where
  store : RoomStore
  calls : List DmCall

/-- The three transactions of a call, and everything else that writes profiles, conversations or
memberships. A transaction of a call is rolled back where it is interrupted. -/
inductive DmEvent where
  | search (owner : UserId) (agent : AgentId) (interrupted : Bool)
  | create (index : Nat) (id : ConversationId) (ts : Int) (interrupted : Bool)
  | fetch (index : Nat) (interrupted : Bool)
  | converse (draft : NewConversation) (id : ConversationId) (ts : Int)
  | room (call : RoomCall)
  | join (actor : Principal) (conversation : ConversationId) (ts : Int)
  | profiles (agents : Table AgentProfile (Table.SameKey AgentProfile.id))

namespace DmHub

variable (hub : DmHub)

def proceed (index : Nat) (call : DmCall) (progress : DmProgress) : List DmCall :=
  hub.calls.set index { call with progress }

/-- A call begins with its search. -/
def search (listing : Listing) (owner : UserId) (agent : AgentId) (interrupted : Bool) : DmHub :=
  let progress := if interrupted then .failed else
    match hub.store.searchDm listing owner agent with
    | some room => .found room.id
    | none => .missing
  { hub with calls := hub.calls ++ [⟨owner, agent, progress⟩] }

/-- A call whose search found nothing creates its conversation. -/
def create (index : Nat) (id : ConversationId) (ts : Int) (interrupted : Bool) : DmHub :=
  match hub.calls[index]? with
  | some call =>
    if call.progress = .missing then
      let draft := dmDraft call.owner call.agent
      match hub.store.botsConversationsCreate draft id ts, interrupted with
      | .ok store, false => ⟨store, hub.proceed index call (.made id)⟩
      | _, _ => { hub with calls := hub.proceed index call .failed }
    else hub
  | none => hub

/-- It then reads the conversation back and returns its identity. -/
def fetch (index : Nat) (interrupted : Bool) : DmHub :=
  match hub.calls[index]? with
  | some call =>
    match call.progress with
    | .made id =>
      match hub.store.roomGet id, interrupted with
      | .ok room, false => { hub with calls := hub.proceed index call (.returned room.id) }
      | _, _ => { hub with calls := hub.proceed index call (.lost id) }
    | _ => hub
  | none => hub

/-- A failed operation leaves the store as it is. -/
def settle (result : Result RoomStore) : DmHub :=
  { hub with store := result.toOption.getD hub.store }

def step (listing : Listing) : DmEvent → DmHub
  | .search owner agent interrupted => hub.search listing owner agent interrupted
  | .create index id ts interrupted => hub.create index id ts interrupted
  | .fetch index interrupted => hub.fetch index interrupted
  | .converse draft id ts => hub.settle (hub.store.botsConversationsCreate draft id ts)
  | .room call => { hub with store := hub.store.step (.create call) }
  | .join actor conversation ts =>
    hub.settle (hub.store.botsConversationsJoin actor conversation ts)
  | .profiles agents => { hub with store := { hub.store with agents } }

def empty : DmHub := ⟨.empty, []⟩

end DmHub

abbrev dmHubAt (listing : Listing) (events : List DmEvent) (moment : Nat) : DmHub :=
  stateAt (fun hub event => hub.step listing event) .empty events moment

end Machine

section Conditions

/-- The direct conversations of an owner with an agent. -/
def RoomStore.dms (store : RoomStore) (owner : UserId) (agent : AgentId) : List Room :=
  (store.roomsOf (.user owner)).filter (·.isDm agent)

/-- Every other direct conversation with the agent is older than this one, and at most a thousand
of the owner's conversations are as new. -/
def RoomStore.Foremost (store : RoomStore) (owner : UserId) (agent : AgentId)
    (id : ConversationId) : Prop :=
  ∀ dm ∈ store.dms owner agent, dm.id = id →
    (∀ other ∈ store.dms owner agent, other ≠ dm → other.createdAt < dm.createdAt) ∧
      (store.roomsOf (.user owner)).countP (dm.createdAt ≤ ·.createdAt) ≤ 1000

instance (store : RoomStore) (owner : UserId) (agent : AgentId) (id : ConversationId) :
    Decidable (store.Foremost owner agent id) := by
  unfold RoomStore.Foremost
  infer_instance

variable (owner : UserId) (agent : AgentId)

/-- The conversation that a call for the two has found or made. -/
def DmCall.established? (call : DmCall) : Option ConversationId :=
  if call.owner = owner ∧ call.agent = agent then call.progress.conversation? else none

/-- The conversation that a call for the two has made. -/
def DmCall.created? (call : DmCall) : Option ConversationId :=
  if call.owner = owner ∧ call.agent = agent then call.progress.creation? else none

def DmHub.established (hub : DmHub) : List ConversationId :=
  hub.calls.filterMap (·.established? owner agent)

/-- A search comes across the conversation that calls have found or made, and a call creates one
only where none has. -/
def Settled (hub : DmHub) : DmEvent → Prop
  | .search caller wanted interrupted =>
    caller = owner → wanted = agent → interrupted = false →
      ∀ id ∈ hub.established owner agent, hub.store.Foremost owner agent id
  | .create index _ _ interrupted =>
    ∀ call ∈ hub.calls[index]?, call.owner = owner → call.agent = agent →
      call.progress = .missing → interrupted = false → hub.established owner agent = []
  | _ => True

instance (hub : DmHub) (event : DmEvent) : Decidable (Settled owner agent hub event) := by
  cases event <;> unfold Settled <;> infer_instance

/-- The calls for the two have one conversation, which at most one of them created. -/
structure OneConversation (hub : DmHub) : Prop where
  same : ∀ first ∈ hub.calls, ∀ second ∈ hub.calls, ∀ {id other : ConversationId},
    first.established? owner agent = some id → second.established? owner agent = some other →
    id = other
  sole : ∀ {index place : Nat} {first second : DmCall}, hub.calls[index]? = some first →
    hub.calls[place]? = some second → (first.created? owner agent).isSome →
    (second.created? owner agent).isSome → index = place

end Conditions

end OHHive.Bots
