import OHHive.Bots.Effects
import OHHive.Foundation.Numbering

/-! The sweep that tells a room why a queued delivery is not being answered, and the messages
it adds. -/

namespace OHHive.Bots

open Foundation

section Sweep

/-- The agents whose pending work the sweep of a host reports: `nodes` are the computers the
vault knows, `localReady` whether this one runs local models. -/
def cannotRun (nodes : List Uuid) (host : Uuid) (localReady : Bool) (agent : AgentProfile) : Bool :=
  agent.archived || agent.runtimeKind ≠ .local || agent.preferredHost = none ||
    agent.preferredHost.any (fun preferred => preferred ≠ host && !nodes.contains preferred) ||
    (agent.preferredHost = some host && !localReady)

/-- Why such an agent cannot reply, the first reason that applies. -/
def unroutableReason (host : Uuid) (agent : AgentProfile) : String :=
  if agent.archived then "this agent is archived"
  else match agent.runtimeKind with
    | .anthropicByok => "the Anthropic reply service is unavailable; check your provider key in " ++
        "Settings and that the cloud reply service is deployed"
    | .nousByok => "the Nous reply service is unavailable; check your provider key in Settings " ++
        "and that the cloud reply service is deployed"
    | .chatgptSubscription =>
        "the ChatGPT subscription reply connection is not implemented yet"
    | .copilotSubscription =>
        "the Copilot subscription reply connection is not implemented yet"
    | .grokSubscription => "the Grok subscription reply connection is not implemented yet"
    | .local =>
      if agent.preferredHost = none then "no computer is assigned to this agent"
      else if agent.preferredHost ≠ some host then
        "this agent is pinned to a computer this vault does not know -- pair that computer " ++
          "again, or assign the agent to one of the computers you have"
      else "a local model is not configured for replies on this computer; check the model settings"

/-- The key that keeps a delivery from being reported twice. -/
def unroutableRequest (key : DeliveryKey) : String :=
  s!"unroutable:{key.messageId}:{key.recipient}"

/-- A row of the sweep's query. -/
structure UnroutableRow where
  delivery : AgentDelivery
  message : Message
  agent : AgentProfile
deriving DecidableEq, Repr

def unroutableRow? (store : Store) (nodes : List Uuid) (owner : UserId) (host : Uuid)
    (localReady : Bool) (delivery : AgentDelivery) : Option UnroutableRow := do
  let message ← store.message? delivery.key.messageId
  let conversation ← store.conversation? message.conversationId
  let agent ← store.agent? delivery.key.recipient
  if delivery.status = .pending ∧ agent.owner = owner ∧ conversation.owner = owner ∧
      cannotRun nodes host localReady agent = true ∧
      store.messageByRequest? conversation.id (unroutableRequest delivery.key) = none then
    some ⟨delivery, message, agent⟩
  else none

/-- `ORDER BY updated_at, message_id, recipient`. -/
def AgentDelivery.before (first second : AgentDelivery) : Prop :=
  first.updatedAt < second.updatedAt ∨ first.updatedAt = second.updatedAt ∧
    (first.key.messageId.value < second.key.messageId.value ∨
      first.key.messageId = second.key.messageId ∧
        first.key.recipient.value ≤ second.key.recipient.value)

instance : DecidableRel AgentDelivery.before := fun first second => by
  unfold AgentDelivery.before
  infer_instance

/-- The oldest hundred deliveries to report. -/
def unroutableRows (store : Store) (nodes : List Uuid) (owner : UserId) (host : Uuid)
    (localReady : Bool) : List UnroutableRow :=
  ((store.deliveries.rows.filterMap
    (unroutableRow? store nodes owner host localReady)).insertionSort
      (fun first second => first.delivery.before second.delivery)).take 100

def unroutableNotice (owner : UserId) (host : Uuid) (row : UnroutableRow) (sequence : Nat)
    (id : MessageId) (ts : Int) : Message :=
  { id
    conversationId := row.message.conversationId
    threadRoot := some (row.message.threadRoot.getD row.message.id)
    author := .user owner
    serverSequence := sequence
    clientRequestId := unroutableRequest row.delivery.key
    kind := .system
    body := some (row.agent.name ++ " can't reply yet: " ++ unroutableReason host row.agent ++
      ". This message remains queued.")
    attachmentRefs := []
    taskRef := none
    turnRef := none
    sourceEventRef := none
    createdAt := ts }

/-- One notice per row, each under the number that is next when its turn comes. `stamps` are
the identity and the clock reading of each insertion. -/
def insertUnroutableNotices (owner : UserId) (host : Uuid) (stamps : Nat → MessageId × Int)
    (store : Store) : List UnroutableRow → Result Store
  | [] => pure store
  | row :: rest => do
    let (id, ts) := stamps rest.length
    let store ← store.insertMessage (unroutableNotice owner host row
      (store.nextSequence row.message.conversationId) id ts)
    insertUnroutableNotices owner host stamps store rest

/-- Reports pending work that no executor seems able to run; the deliveries stay pending. -/
def botsReportUnroutable (store : Store) (nodes : List Uuid) (owner : UserId) (host : Uuid)
    (localReady : Bool) (stamps : Nat → MessageId × Int) : Result (Store × Nat) := do
  let rows := unroutableRows store nodes owner host localReady
  let reported ← insertUnroutableNotices owner host stamps store rows
  pure (reported, rows.length)

end Sweep

section Effects

theorem unroutableRow?_eq_some_iff {store : Store} {nodes : List Uuid} {owner : UserId}
    {host : Uuid} {localReady : Bool} {delivery : AgentDelivery} {row : UnroutableRow} :
    unroutableRow? store nodes owner host localReady delivery = some row ↔
      row.delivery = delivery ∧ store.message? delivery.key.messageId = some row.message ∧
        store.agent? delivery.key.recipient = some row.agent ∧ delivery.status = .pending ∧
        row.agent.owner = owner ∧ cannotRun nodes host localReady row.agent = true ∧
        ∃ conversation, store.conversation? row.message.conversationId = some conversation ∧
          conversation.owner = owner ∧
          store.messageByRequest? conversation.id (unroutableRequest delivery.key) = none := by
  simp only [unroutableRow?, Option.bind_eq_bind, Option.bind_eq_some_iff]
  constructor
  · rintro ⟨message, messageFound, conversation, room, agent, agentFound, selected⟩
    split at selected
    · rename_i conditions
      obtain ⟨pending, owned, roomOwned, stuck, unreported⟩ := conditions
      obtain rfl := Option.some.inj selected
      exact ⟨rfl, messageFound, agentFound, pending, owned, stuck, conversation, room, roomOwned,
        unreported⟩
    · cases selected
  · rintro ⟨same, messageFound, agentFound, pending, owned, stuck, conversation, room, roomOwned,
      unreported⟩
    refine ⟨row.message, messageFound, conversation, room, row.agent, agentFound, ?_⟩
    rw [if_pos ⟨pending, owned, roomOwned, stuck, unreported⟩, ← same]

/-- The sweep stores its notices one by one, each under the next number of its room. -/
theorem insertUnroutableNotices_induction {owner : UserId} {host : Uuid}
    {stamps : Nat → MessageId × Int} (holds : Store → Prop)
    (kept : ∀ (store next : Store) row id ts, holds store →
      store.insertMessage (unroutableNotice owner host row
        (store.nextSequence row.message.conversationId) id ts) = .ok next → holds next)
    {rows : List UnroutableRow} {store next : Store} (start : holds store)
    (done : insertUnroutableNotices owner host stamps store rows = .ok next) : holds next := by
  induction rows generalizing store with
  | nil => exact Except.ok.inj done ▸ start
  | cons row rest ih =>
    obtain ⟨stored, inserted, later⟩ := bind_eq_ok_iff.mp done
    exact ih (kept _ _ _ _ _ start inserted) later

/-- The sweep adds messages and touches nothing else. -/
theorem botsReportUnroutable_ok {store next : Store} {nodes : List Uuid} {owner : UserId}
    {host : Uuid} {localReady : Bool} {stamps : Nat → MessageId × Int} {count : Nat}
    (done : botsReportUnroutable store nodes owner host localReady stamps = .ok (next, count)) :
    next = { store with messages := next.messages } ∧
      ∃ added, next.messages.rows = store.messages.rows ++ added := by
  simp only [botsReportUnroutable, bind_eq_ok_iff, pure_eq_ok_iff, Prod.mk.injEq] at done
  obtain ⟨reported, inserted, rfl, _⟩ := done
  apply insertUnroutableNotices_induction
    (fun later : Store => later = { store with messages := later.messages } ∧
      ∃ added, later.messages.rows = store.messages.rows ++ added) _
    ⟨rfl, [], (List.append_nil _).symm⟩ inserted
  intro between after row id ts ⟨frame, added, rows⟩ stored
  obtain ⟨_, _, afterFrame, afterRows⟩ := Store.insertMessage_ok stored
  refine ⟨?_, added ++ [_], by rw [afterRows, rows, List.append_assoc]⟩
  rw [frame] at afterFrame
  exact afterFrame

end Effects

end OHHive.Bots
