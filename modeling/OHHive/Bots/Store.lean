import OHHive.Foundation.Fallible
import OHHive.Foundation.Run
import OHHive.Foundation.Table
import OHHive.Bots.Types
import Mathlib.Data.List.Sort

/-! The Bots tables of the local hub and the transactions on them. A transaction
maps a store to its successor; on an error it is rolled back, so the successor is
returned only on success. Clock readings and fresh identities are arguments. -/

namespace OHHive.Bots

open Foundation

structure Store where
  agents : Table AgentProfile (Table.SameKey AgentProfile.id)
  conversations : Table Conversation (Table.SameKey Conversation.id)
  members : Table ConversationMember (Table.SameKey ConversationMember.key)
  messages : Table Message Message.Clash
  deliveries : Table AgentDelivery (Table.SameKey AgentDelivery.key)

namespace Store

/-- A new hub: every table is empty. -/
def empty : Store := ⟨.empty, .empty, .empty, .empty, .empty⟩

def agent? (store : Store) (id : AgentId) : Option AgentProfile := store.agents.lookup id

def conversation? (store : Store) (id : ConversationId) : Option Conversation :=
  store.conversations.lookup id

def member? (store : Store) (conversation : ConversationId) (principal : Principal) :
    Option ConversationMember :=
  store.members.lookup (conversation, principal)

def message? (store : Store) (id : MessageId) : Option Message :=
  store.messages.rows.find? (fun message => message.id = id)

/-- The message a room already holds under a client's request key. -/
def messageByRequest? (store : Store) (conversation : ConversationId) (request : String) :
    Option Message :=
  store.messages.rows.find? (fun message =>
    message.conversationId = conversation && message.clientRequestId = request)

def delivery? (store : Store) (key : DeliveryKey) : Option AgentDelivery :=
  store.deliveries.lookup key

/-- `COALESCE(MAX(server_sequence),0)+1` within one room. -/
def nextSequence (store : Store) (conversation : ConversationId) : Nat :=
  ((store.messages.rows.filter (fun message => message.conversationId = conversation)).map
    Message.serverSequence).foldl max 0 + 1

/-- An insertion subject to the schema's unique keys and references. -/
def insertMessage (store : Store) (message : Message) : Result Store := do
  require ((store.conversation? message.conversationId).isSome) dbError
  require (∀ root ∈ message.threadRoot, root = message.id ∨ (store.message? root).isSome) dbError
  let messages ← orFail (store.messages.insert? message) dbError
  pure { store with messages }

def insertDelivery (store : Store) (delivery : AgentDelivery) : Result Store := do
  require ((store.message? delivery.key.messageId).isSome) dbError
  require ((store.agent? delivery.key.recipient).isSome) dbError
  require (∀ cause ∈ delivery.causeMessageId, (store.message? cause).isSome) dbError
  require (∀ root ∈ delivery.rootMessageId, (store.message? root).isSome) dbError
  let deliveries ← orFail (store.deliveries.insert? delivery) dbError
  pure { store with deliveries }

def insertDeliveries (store : Store) : List AgentDelivery → Result Store
  | [] => pure store
  | delivery :: rest => do
    let store ← insertDelivery store delivery
    insertDeliveries store rest

/-- `UPDATE agent_deliveries ... WHERE`, with the number of rows it changed. -/
def updateDeliveries (store : Store) (selects : AgentDelivery → Bool)
    (change : AgentDelivery → AgentDelivery)
    (fixed : ∀ delivery, (change delivery).key = delivery.key) : Store × Nat :=
  ({ store with deliveries := store.deliveries.updateWhere selects change fixed },
    (store.deliveries.rows.filter selects).length)

end Store

section Reads

def botsRequireMember (store : Store) (conversation : ConversationId) (actor : Principal)
    (required : MemberAction) : Result Unit := do
  let member ← orFail (store.member? conversation actor)
    (rejected "forbidden: not a member of this conversation")
  require (required ∈ member.allowedActions)
    (rejected "forbidden: missing the required conversation permission")

def botsIsMember (store : Store) (conversation : ConversationId) (actor : Principal) : Bool :=
  (store.member? conversation actor).isSome

def botsConversationGet (store : Store) (id : ConversationId) : Result Conversation :=
  orFail (store.conversation? id) (rejected "not found: conversation")

def botsMessageGet (store : Store) (id : MessageId) : Result Message :=
  orFail (store.message? id) (rejected "not found: message")

/-- The live profiles of an owner, in the order of their names. -/
def botsAgentsList (store : Store) (owner : UserId) : List AgentProfile :=
  ((store.agents.rows.filter (fun agent => agent.owner = owner && !agent.archived)).insertionSort
    (fun first second => first.name < second.name ∨
      first.name = second.name ∧ first.id.value ≤ second.id.value)).take 1000

def botsRoomAgents (store : Store) (actor : Principal) (conversation : ConversationId) :
    Result (List AgentProfile) := do
  botsRequireMember store conversation actor .read
  let room ← botsConversationGet store conversation
  pure ((botsAgentsList store room.owner).filter (fun agent =>
    botsIsMember store conversation (.agent agent.id)))

/-- A delivery row read back through the checked counter conversions. -/
def readDelivery (delivery : AgentDelivery) : Result AgentDelivery := do
  let _ ← readI64 delivery.leaseGeneration
  let _ ← asU32 delivery.turnDepth
  pure delivery

def botsDeliveryRow (store : Store) (key : DeliveryKey) : Result AgentDelivery := do
  let delivery ← orFail (store.delivery? key) dbError
  readDelivery delivery

def botsActiveTurnsForAgent (store : Store) (agent : AgentId) : Result Nat :=
  asU32 (store.deliveries.rows.countP (fun delivery =>
    delivery.key.recipient = agent && delivery.status = .running))

/-- Every delivery ever created against one chain root, held and terminal ones included. -/
def turnsUnder (store : Store) (root : MessageId) : Nat :=
  store.deliveries.rows.countP (fun delivery => delivery.rootMessageId = some root)

def botsTurnsForRoot (store : Store) (root : MessageId) : Result Nat :=
  asU32 (turnsUnder store root)

end Reads

section Sends

structure SendRequest where
  actor : Principal
  conversationId : ConversationId
  clientRequestId : String
  expectedPolicyRevision : Nat
  recipientIds : List AgentId
  draft : NewMessage
  cause : Option DeliveryCause
  hold : Bool

/-- The checks a send makes before its writing transaction. -/
def sendChecks (store : Store) (request : SendRequest) : Result Unit := do
  checkText request.clientRequestId 200
  botsRequireMember store request.conversationId request.actor .post
  let conversation ← botsConversationGet store request.conversationId
  require (conversation.policyRevision = request.expectedPolicyRevision)
    (rejected "conflict: conversation policy revision changed")
  require (∀ recipient ∈ request.recipientIds,
      botsIsMember store request.conversationId (.agent recipient))
    (rejected "invalid request: recipient is not a member of this conversation")
  match request.draft.threadRoot with
  | none => pure ()
  | some root => do
    let message ← botsMessageGet store root
    require (message.conversationId = request.conversationId)
      (rejected "invalid request: thread_root belongs to another conversation")

def SendRequest.message (request : SendRequest) (id : MessageId) (sequence : Nat) (ts : Int) :
    Message :=
  { id
    conversationId := request.conversationId
    threadRoot := request.draft.threadRoot
    author := request.actor
    serverSequence := sequence
    clientRequestId := request.clientRequestId
    kind := request.draft.kind
    body := request.draft.body
    attachmentRefs := request.draft.attachmentRefs
    taskRef := request.draft.taskRef
    turnRef := request.draft.turnRef
    sourceEventRef := request.draft.sourceEventRef
    createdAt := ts }

/-- A send without a cause starts a chain of its own at depth zero. -/
def SendRequest.delivery (request : SendRequest) (id : MessageId) (ts : Int)
    (recipient : AgentId) : AgentDelivery :=
  { key := ⟨id, recipient⟩
    status := if request.hold then .held else .pending
    leaseGeneration := 0
    retryDeadline := none
    leaseDeadline := none
    boundRuntimeSession := none
    boundTurnRef := none
    updatedAt := ts
    causeMessageId := request.cause.map DeliveryCause.causeMessageId
    rootMessageId := some ((request.cause.map DeliveryCause.rootMessageId).getD id)
    turnDepth := (request.cause.map DeliveryCause.depth).getD 0 }

/-- The rows of a send: one per recipient, none for a system message. -/
def SendRequest.deliveries (request : SendRequest) (id : MessageId) (ts : Int) :
    List AgentDelivery :=
  if request.draft.kind = .system then []
  else request.recipientIds.map (request.delivery id ts)

/-- The writing transaction of a send: the message and its deliveries together, or the
message a previous send stored under the same request key. -/
def sendInsert (store : Store) (request : SendRequest) (id : MessageId) (ts : Int) :
    Result (Store × MessageId) :=
  match store.messageByRequest? request.conversationId request.clientRequestId with
  | some existing => .ok (store, existing.id)
  | none => do
    let stored ← store.insertMessage
      (request.message id (store.nextSequence request.conversationId) ts)
    let delivered ← stored.insertDeliveries (request.deliveries id ts)
    pure (delivered, id)

def botsMessageSendWithCause (store : Store) (request : SendRequest) (id : MessageId)
    (ts : Int) : Result (Store × Message) := do
  sendChecks store request
  let (stored, messageId) ← sendInsert store request id ts
  let message ← orFail (stored.message? messageId) dbError
  pure (stored, message)

end Sends

section Deliveries

def deliveryLeaseSecs : Int := 600

/-- Pending, and not in retry backoff. -/
def AgentDelivery.claimable (ts : Int) (delivery : AgentDelivery) : Bool :=
  delivery.status = .pending && delivery.retryDeadline.all (fun deadline => deadline ≤ ts)

def AgentDelivery.expired (ts : Int) (delivery : AgentDelivery) : Bool :=
  delivery.status = .running && delivery.leaseDeadline.any (fun deadline => deadline ≤ ts)

def AgentDelivery.claimed (ts : Int) (delivery : AgentDelivery) : AgentDelivery :=
  { delivery with
    status := .running
    leaseGeneration := delivery.leaseGeneration + 1
    updatedAt := ts
    leaseDeadline := some (ts + deliveryLeaseSecs) }

@[simp] theorem AgentDelivery.key_claimed (ts : Int) (delivery : AgentDelivery) :
    (delivery.claimed ts).key = delivery.key := rfl

def AgentDelivery.reaped (ts : Int) (delivery : AgentDelivery) : AgentDelivery :=
  { delivery with
    status := .pending
    leaseGeneration := delivery.leaseGeneration + 1
    leaseDeadline := none
    updatedAt := ts }

@[simp] theorem AgentDelivery.key_reaped (ts : Int) (delivery : AgentDelivery) :
    (delivery.reaped ts).key = delivery.key := rfl

def AgentDelivery.cancelledAt (ts : Int) (delivery : AgentDelivery) : AgentDelivery :=
  { delivery with
    status := .cancelled
    leaseGeneration := delivery.leaseGeneration + 1
    updatedAt := ts }

@[simp] theorem AgentDelivery.key_cancelledAt (ts : Int) (delivery : AgentDelivery) :
    (delivery.cancelledAt ts).key = delivery.key := rfl

def AgentDelivery.released (ts : Int) (delivery : AgentDelivery) : AgentDelivery :=
  { delivery with status := .pending, updatedAt := ts }

@[simp] theorem AgentDelivery.key_released (ts : Int) (delivery : AgentDelivery) :
    (delivery.released ts).key = delivery.key := rfl

def AgentDelivery.finished (status : DeliveryStatus) (retry : Option Int) (ts : Int)
    (delivery : AgentDelivery) : AgentDelivery :=
  { delivery with status, retryDeadline := retry, updatedAt := ts, leaseDeadline := none }

@[simp] theorem AgentDelivery.key_finished (status : DeliveryStatus) (retry : Option Int)
    (ts : Int) (delivery : AgentDelivery) :
    (delivery.finished status retry ts).key = delivery.key := rfl

/-- The worker's queue: expired leases are reaped first, then the claimable rows are read,
oldest first. -/
def botsDeliveriesPendingForAgent (store : Store) (agent : AgentId) (limit : Nat) (ts : Int) :
    Result (Store × List AgentDelivery) := do
  let limit := min (max limit 1) 200
  let (reaped, _) := store.updateDeliveries
    (fun delivery => delivery.key.recipient = agent && delivery.expired ts)
    (AgentDelivery.reaped ts) (AgentDelivery.key_reaped ts)
  let queue := (reaped.deliveries.rows.filter (fun delivery =>
    delivery.key.recipient = agent && delivery.claimable ts)).insertionSort
      (fun first second => first.updatedAt < second.updatedAt ∨
        first.updatedAt = second.updatedAt ∧
          first.key.messageId.value ≤ second.key.messageId.value)
  let deliveries ← (queue.take limit).mapM readDelivery
  pure (reaped, deliveries)

/-- The fenced claim shared by both entry points; `admits` is the extra condition of the
budgeted one. -/
def claimWhere (store : Store) (key : DeliveryKey) (admits : Bool) (refusal : HubError)
    (ts : Int) : Result (Store × AgentDelivery) := do
  let (claimed, updated) := store.updateDeliveries
    (fun delivery => delivery.key = key && delivery.claimable ts && admits)
    (AgentDelivery.claimed ts) (AgentDelivery.key_claimed ts)
  require (updated ≠ 0) refusal
  let delivery ← botsDeliveryRow claimed key
  pure (claimed, delivery)

def botsDeliveryClaim (store : Store) (key : DeliveryKey) (ts : Int) :
    Result (Store × AgentDelivery) :=
  claimWhere store key true (rejected "conflict: delivery is not claimable") ts

/-- The claim with the agent's running turns counted in the same statement. -/
def botsDeliveryClaimWithinBudget (store : Store) (key : DeliveryKey)
    (maxActiveTurnsPerAgent : Nat) (ts : Int) : Result (Store × AgentDelivery) :=
  claimWhere store key
    (store.deliveries.rows.countP (fun delivery =>
      delivery.key.recipient = key.recipient && delivery.status = .running)
        < maxActiveTurnsPerAgent)
    (rejected ("conflict: delivery is not claimable (already claimed, in retry backoff, " ++
      "or this agent is already at its active-turn limit)")) ts

/-- The request key under which a delivery's reply is stored. -/
def replyRequest (key : DeliveryKey) : String :=
  s!"delivery:{key.messageId}:{key.recipient}"

def failureNotice : String :=
  " could not finish this reply. Check the model or provider settings on the agent’s " ++
  "computer. Some tool actions may have completed; inspect the results before sending " ++
  "another request."

def failureNoticeRow (key : DeliveryKey) (message : Message) (conversation : Conversation)
    (agent : AgentProfile) (generation sequence : Nat) (noticeId : MessageId) (ts : Int) :
    Message :=
  { id := noticeId
    conversationId := message.conversationId
    threadRoot := some (message.threadRoot.getD message.id)
    author := .user conversation.owner
    serverSequence := sequence
    clientRequestId := s!"failed:{key.messageId}:{key.recipient}:{generation}"
    kind := .system
    body := some (agent.name ++ failureNotice)
    attachmentRefs := []
    taskRef := none
    turnRef := none
    sourceEventRef := none
    createdAt := ts }

/-- The notice of a finally failed delivery, posted unless its reply is already stored. -/
def insertFailureNotice (store : Store) (key : DeliveryKey) (generation : Nat) (ts : Int)
    (noticeId : MessageId) : Result Store :=
  match store.message? key.messageId with
  | none => .ok store
  | some message =>
    match store.conversation? message.conversationId, store.agent? key.recipient with
    | some conversation, some agent =>
      if (store.messageByRequest? message.conversationId (replyRequest key)).isSome then .ok store
      else store.insertMessage (failureNoticeRow key message conversation agent generation
        (store.nextSequence message.conversationId) noticeId ts)
    | _, _ => .ok store

/-- The lease-fenced resolution of a claimed delivery. -/
def botsDeliveryFinish (store : Store) (key : DeliveryKey) (leaseGeneration : Nat)
    (status : DeliveryStatus) (retry : Option Int) (ts : Int) (noticeId : MessageId) :
    Result (Store × AgentDelivery) := do
  let generation ← asI64 leaseGeneration
  let (finished, updated) := store.updateDeliveries
    (fun delivery => delivery.key = key && delivery.leaseGeneration = generation &&
      delivery.status = .running)
    (AgentDelivery.finished status retry ts) (AgentDelivery.key_finished status retry ts)
  require (updated ≠ 0) (rejected "conflict: delivery lease is stale")
  let noticed ← (if status = .failed then
    insertFailureNotice finished key generation ts noticeId else .ok finished)
  let delivery ← botsDeliveryRow noticed key
  pure (noticed, delivery)

def botsDeliveryComplete (store : Store) (key : DeliveryKey) (leaseGeneration : Nat)
    (ts : Int) (noticeId : MessageId) : Result (Store × AgentDelivery) :=
  botsDeliveryFinish store key leaseGeneration .done none ts noticeId

/-- Without a retry time the delivery has failed for good; with one it is requeued. -/
def botsDeliveryFail (store : Store) (key : DeliveryKey) (leaseGeneration : Nat)
    (retryAfter : Option Int) (ts : Int) (noticeId : MessageId) :
    Result (Store × AgentDelivery) :=
  match retryAfter with
  | some _ => botsDeliveryFinish store key leaseGeneration .pending retryAfter ts noticeId
  | none => botsDeliveryFinish store key leaseGeneration .failed none ts noticeId

def botsDeliveryCancel (store : Store) (actor : Principal) (key : DeliveryKey) (ts : Int) :
    Result (Store × AgentDelivery) := do
  let delivery ← orFail (store.delivery? key) (rejected "not found: delivery")
  let message ← orFail (store.message? key.messageId) (rejected "not found: delivery")
  require (actor = message.author ∨ actor = .agent key.recipient)
    (rejected "forbidden: not the message author or the recipient")
  require (delivery.status.isTerminal = false) (rejected "conflict: delivery already terminal")
  let (cancelled, _) := store.updateDeliveries (fun delivery => delivery.key = key)
    (AgentDelivery.cancelledAt ts) (AgentDelivery.key_cancelledAt ts)
  let delivery ← botsDeliveryRow cancelled key
  pure (cancelled, delivery)

/-- A person's decision to let a chain continue: its held rows become pending. -/
def botsDeliveriesReleaseRoot (store : Store) (root : MessageId) (ts : Int) :
    Result (Store × Nat) := do
  let (released, updated) := store.updateDeliveries
    (fun delivery => delivery.rootMessageId = some root && delivery.status = .held)
    (AgentDelivery.released ts) (AgentDelivery.key_released ts)
  let count ← asU32 updated
  pure (released, count)

end Deliveries

section Subscription

/-- The actions of the bound agent, when every reference of the binding is still current. -/
def boundActions (store : Store) (binding : Binding) (policy : Nat) :
    Option (List MemberAction) := do
  let conversation ← store.conversation? binding.conversation
  let agent ← store.agent? binding.agent
  let member ← store.member? binding.conversation (.agent binding.agent)
  if conversation.owner = binding.owner ∧ conversation.policyRevision = policy ∧
      agent.owner = binding.owner ∧ agent.archived = false ∧
      agent.runtimeKind = binding.provider.runtimeKind ∧
      agent.providerAccountRef = some binding.account ∧
      agent.preferredHost = some binding.host then
    some member.allowedActions
  else none

def AgentDelivery.published (binding : Binding) (reply : CompletedReply) (ts : Int)
    (delivery : AgentDelivery) : AgentDelivery :=
  { delivery with
    status := .done
    retryDeadline := none
    boundRuntimeSession := some binding.session
    boundTurnRef := some reply.turn
    updatedAt := ts }

@[simp] theorem AgentDelivery.key_published (binding : Binding) (reply : CompletedReply)
    (ts : Int) (delivery : AgentDelivery) :
    (delivery.published binding reply ts).key = delivery.key := rfl

def subscriptionSource (binding : Binding) (operation : Uuid) (reply : CompletedReply) :
    String :=
  s!"subscription:{binding.session}:{operation}:{reply.receipt}"

def publishedRow (binding : Binding) (operation : Uuid) (reply : CompletedReply)
    (root : MessageId) (sequence : Nat) (id : MessageId) (ts : Int) : Message :=
  { id
    conversationId := binding.conversation
    threadRoot := some root
    author := .agent binding.agent
    serverSequence := sequence
    clientRequestId := replyRequest ⟨operation, binding.agent⟩
    kind := .text
    body := some reply.text
    attachmentRefs := []
    taskRef := none
    turnRef := some reply.turn
    sourceEventRef := some (subscriptionSource binding operation reply)
    createdAt := ts }

/-- Authorization, fencing, publication and resolution in one transaction. -/
def botsPublishSubscription (store : Store) (binding : Binding) (operation : Uuid)
    (leaseGeneration : Nat) (reply : CompletedReply) (id : MessageId) (ts : Int) :
    Result (Store × MessageId) := do
  let generation ← asI64 leaseGeneration
  let policy ← orFail (parseU32 binding.policyRevision)
    (rejected "invalid subscription policy revision")
  let key : DeliveryKey := ⟨operation, binding.agent⟩
  let actions ← orFail (boundActions store binding policy)
    (rejected "forbidden: subscription binding no longer authorized")
  require (MemberAction.post ∈ actions) (rejected "forbidden: agent cannot post")
  let delivery ← orFail (store.delivery? key) (rejected "not found: subscription delivery")
  let message ← orFail
    ((store.message? operation).filter
      (fun message => message.conversationId = binding.conversation))
    (rejected "not found: subscription delivery")
  require (delivery.leaseGeneration = generation ∧ generation ≠ 0)
    (rejected "conflict: stale delivery generation")
  let root := message.threadRoot.getD operation
  match store.messageByRequest? binding.conversation (replyRequest key) with
  | some existing => do
    require (delivery.status = .done ∧ existing.author = .agent binding.agent ∧
        existing.body = some reply.text ∧ existing.turnRef = some reply.turn ∧
        existing.sourceEventRef = some (subscriptionSource binding operation reply) ∧
        existing.threadRoot = some root ∧ existing.kind = .text)
      (rejected "conflict: subscription reply differs from stored message")
    pure (store, existing.id)
  | none => do
    require (delivery.status = .running)
      (rejected "conflict: subscription delivery is not running")
    let posted ← store.insertMessage (publishedRow binding operation reply root
      (store.nextSequence binding.conversation) id ts)
    let (resolved, _) := posted.updateDeliveries (fun delivery => delivery.key = key)
      (AgentDelivery.published binding reply ts) (AgentDelivery.key_published binding reply ts)
    pure (resolved, id)

end Subscription

section Operations

/-- One transaction of a poller, a sender or a person, with its clock reading and the
identities it mints. `administer` stands for the transactions on the other tables. -/
inductive Op where
  | send (request : SendRequest) (id : MessageId) (ts : Int)
  | pendingForAgent (agent : AgentId) (limit : Nat) (ts : Int)
  | claim (key : DeliveryKey) (ts : Int)
  | claimWithinBudget (key : DeliveryKey) (maxActiveTurnsPerAgent : Nat) (ts : Int)
  | complete (key : DeliveryKey) (leaseGeneration : Nat) (ts : Int) (noticeId : MessageId)
  | fail (key : DeliveryKey) (leaseGeneration : Nat) (retryAfter : Option Int) (ts : Int)
      (noticeId : MessageId)
  | cancel (actor : Principal) (key : DeliveryKey) (ts : Int)
  | publishSubscription (binding : Binding) (operation : Uuid) (leaseGeneration : Nat)
      (reply : CompletedReply) (id : MessageId) (ts : Int)
  | releaseRoot (root : MessageId) (ts : Int)
  | administer (agents : Table AgentProfile (Table.SameKey AgentProfile.id))
      (conversations : Table Conversation (Table.SameKey Conversation.id))
      (members : Table ConversationMember (Table.SameKey ConversationMember.key))

/-- Profiles, rooms and memberships may be rewritten at will, but the references of stored
messages and deliveries keep every profile and every room in place. -/
def administerTables (store : Store) (agents : Table AgentProfile (Table.SameKey AgentProfile.id))
    (conversations : Table Conversation (Table.SameKey Conversation.id))
    (members : Table ConversationMember (Table.SameKey ConversationMember.key)) :
    Result Store := do
  require (∀ agent ∈ store.agents.rows, (agents.lookup agent.id).isSome) dbError
  require (∀ room ∈ store.conversations.rows, (conversations.lookup room.id).isSome) dbError
  pure { store with agents, conversations, members }

/-- The transaction of an operation. -/
def Op.perform (store : Store) : Op → Result Store
  | .send request id ts => Prod.fst <$> sendInsert store request id ts
  | .pendingForAgent agent limit ts =>
      Prod.fst <$> botsDeliveriesPendingForAgent store agent limit ts
  | .claim key ts => Prod.fst <$> botsDeliveryClaim store key ts
  | .claimWithinBudget key most ts => Prod.fst <$> botsDeliveryClaimWithinBudget store key most ts
  | .complete key generation ts noticeId =>
      Prod.fst <$> botsDeliveryComplete store key generation ts noticeId
  | .fail key generation retryAfter ts noticeId =>
      Prod.fst <$> botsDeliveryFail store key generation retryAfter ts noticeId
  | .cancel actor key ts => Prod.fst <$> botsDeliveryCancel store actor key ts
  | .publishSubscription binding operation generation reply id ts =>
      Prod.fst <$> botsPublishSubscription store binding operation generation reply id ts
  | .releaseRoot root ts => Prod.fst <$> botsDeliveriesReleaseRoot store root ts
  | .administer agents conversations members => administerTables store agents conversations members

/-- A failed transaction is rolled back. -/
def Store.step (store : Store) (op : Op) : Store :=
  match op.perform store with
  | .ok next => next
  | .error _ => store

/-- The store after the first transactions of a run that begins with a new hub. -/
abbrev storeAt (ops : List Op) (moment : Nat) : Store :=
  stateAt Store.step Store.empty ops moment

end Operations

end OHHive.Bots
