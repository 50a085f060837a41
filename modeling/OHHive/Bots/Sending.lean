import OHHive.Bots.LoopSafety
import OHHive.Bots.Transcript

/-! What a successful send returns. The write looks for a message under the request key and
returns it whoever wrote it, so a send answers with its own message unless the key was taken. -/

namespace OHHive.Bots

open Foundation

section Rooms

/-- The messages stay as they were stored, and so do the agents each was delivered to. -/
def Keeps (store next : Store) : Prop :=
  ∀ id message, store.message? id = some message → next.message? id = some message ∧
    ∀ agent, (next.delivery? ⟨id, agent⟩).isSome ↔ (store.delivery? ⟨id, agent⟩).isSome

theorem Keeps.refl (store : Store) : Keeps store store :=
  fun _ _ found => ⟨found, fun _ => Iff.rfl⟩

theorem Keeps.trans {first second third : Store} (before : Keeps first second)
    (after : Keeps second third) : Keeps first third := by
  intro id message found
  obtain ⟨between, delivered⟩ := before id message found
  obtain ⟨later, deliveredLater⟩ := after id message between
  exact ⟨later, fun agent => (deliveredLater agent).trans (delivered agent)⟩

theorem delivery?_isSome_iff {store : Store} {key : DeliveryKey} :
    (store.delivery? key).isSome ↔ ∃ row ∈ store.deliveries.rows, row.key = key := by
  rw [Option.isSome_iff_exists]
  constructor
  · rintro ⟨row, found⟩
    exact ⟨row, Store.delivery?_eq_some_iff.mp found⟩
  · rintro ⟨row, stored⟩
    exact ⟨row, Store.delivery?_eq_some_iff.mpr stored⟩

theorem messageId_of_mem_deliveries {request : SendRequest} {id : MessageId} {ts : Int}
    {row : AgentDelivery} (member : row ∈ request.deliveries id ts) : row.key.messageId = id := by
  unfold SendRequest.deliveries at member
  split at member
  · exact absurd member List.not_mem_nil
  · obtain ⟨recipient, _, rfl⟩ := List.mem_map.mp member
    rfl

/-- Deliveries are only made together with their message. -/
theorem keeps_step (store : Store) (op : Op) : Keeps store (store.step op) := by
  intro id message found
  refine ⟨message?_step op found, fun agent => ?_⟩
  obtain ⟨rewrite, added, rows, steps, new⟩ := rows_step store op
  rw [delivery?_isSome_iff, delivery?_isSome_iff, rows]
  constructor
  · rintro ⟨row, member, same⟩
    rcases List.mem_append.mp member with kept | fresh
    · obtain ⟨old, oldMember, rfl⟩ := List.mem_map.mp kept
      obtain ⟨later, rewritten, chain⟩ := (steps old oldMember).sameChain
      obtain rfl := Option.some.inj rewritten
      exact ⟨old, oldMember, chain.key.symm.trans same⟩
    · rcases new with rfl | ⟨request, newId, ts, _, rfl, sent⟩
      · exact absurd fresh List.not_mem_nil
      · have unstored := sent.fresh
        rw [← messageId_of_mem_deliveries fresh, same, found] at unstored
        cases unstored
  · rintro ⟨row, member, same⟩
    obtain ⟨later, rewritten, chain⟩ := (steps row member).sameChain
    refine ⟨rewrite row, List.mem_append_left _ (List.mem_map_of_mem member), ?_⟩
    rw [Option.some.inj rewritten, chain.key, same]

theorem message?_of_appended {store next : Store} {added : List Message} {id : MessageId}
    {message : Message} (rows : next.messages.rows = store.messages.rows ++ added)
    (found : store.message? id = some message) : next.message? id = some message := by
  obtain ⟨member, same⟩ := Store.message?_eq_some_iff.mp found
  apply Store.message?_eq_some_iff.mpr
  exact ⟨by rw [rows]; exact List.mem_append_left _ member, same⟩

theorem keeps_report {store next : Store} {nodes : List Uuid} {owner : UserId} {host : Uuid}
    {localReady : Bool} {stamps : Nat → MessageId × Int} {count : Nat}
    (done : botsReportUnroutable store nodes owner host localReady stamps = .ok (next, count)) :
    Keeps store next := by
  obtain ⟨frame, added, rows⟩ := botsReportUnroutable_ok done
  intro id message found
  refine ⟨message?_of_appended rows found, fun agent => ?_⟩
  rw [frame]
  rfl

theorem keeps_roomStep (store : Store) (op : RoomOp) : Keeps store (store.roomStep op) := by
  cases op with
  | transact op => exact keeps_step store op
  | reportUnroutable nodes owner host localReady stamps =>
    unfold Store.roomStep
    split
    · rename_i next done
      obtain ⟨_, done⟩ := ok_of_map done
      exact keeps_report done
    · exact Keeps.refl store

theorem keeps_roomsAt (ops : List RoomOp) {first second : Nat} (ordered : first ≤ second) :
    Keeps (roomsAt ops first) (roomsAt ops second) :=
  stateAt_relates Store.roomStep Store.empty Keeps Keeps.refl (fun _ _ _ => Keeps.trans)
    keeps_roomStep ops ordered

/-- Every delivery belongs to a stored message. -/
def MessagesStored (store : Store) : Prop :=
  ∀ row ∈ store.deliveries.rows, (store.message? row.key.messageId).isSome

theorem MessagesStored.step {store : Store} (stored : MessagesStored store) (op : Op) :
    MessagesStored (store.step op) := by
  obtain ⟨rewrite, added, rows, steps, new⟩ := rows_step store op
  intro row member
  rw [rows, List.mem_append] at member
  rcases member with kept | fresh
  · obtain ⟨old, oldMember, rfl⟩ := List.mem_map.mp kept
    obtain ⟨later, rewritten, chain⟩ := (steps old oldMember).sameChain
    obtain rfl := Option.some.inj rewritten
    obtain ⟨message, found⟩ := Option.isSome_iff_exists.mp (stored old oldMember)
    rw [chain.key, message?_step op found]
    rfl
  · rcases new with rfl | ⟨request, id, ts, _, rfl, sent⟩
    · exact absurd fresh List.not_mem_nil
    · rw [messageId_of_mem_deliveries fresh, sent.message]
      rfl

theorem MessagesStored.roomStep {store : Store} (stored : MessagesStored store) (op : RoomOp) :
    MessagesStored (store.roomStep op) := by
  cases op with
  | transact op => exact stored.step op
  | reportUnroutable nodes owner host localReady stamps =>
    unfold Store.roomStep
    split
    · rename_i next done
      obtain ⟨_, done⟩ := ok_of_map done
      obtain ⟨frame, added, rows⟩ := botsReportUnroutable_ok done
      intro row member
      have before : row ∈ store.deliveries.rows := by rwa [frame] at member
      obtain ⟨message, found⟩ := Option.isSome_iff_exists.mp (stored row before)
      rw [message?_of_appended rows found]
      rfl
    · exact stored

theorem messagesStored_at (ops : List RoomOp) (moment : Nat) :
    MessagesStored (roomsAt ops moment) :=
  stateAt_invariant Store.roomStep Store.empty ops MessagesStored
    (fun _ member => absurd member List.not_mem_nil)
    (fun _ op _ stored => stored.roomStep op) moment

end Rooms

section Answers

/-- The content of a message that its sender drafts. -/
def Message.draft (message : Message) : NewMessage :=
  { threadRoot := message.threadRoot
    kind := message.kind
    body := message.body
    attachmentRefs := message.attachmentRefs
    taskRef := message.taskRef
    turnRef := message.turnRef
    sourceEventRef := message.sourceEventRef }

/-- The message is the request's own: its author, its room and its draft. -/
def SendRequest.CarriedBy (request : SendRequest) (message : Message) : Prop :=
  message.author = request.actor ∧ message.conversationId = request.conversationId ∧
    message.draft = request.draft

/-- The agents a request wakes, none for a system message. -/
def SendRequest.recipients (request : SendRequest) : List AgentId :=
  if request.draft.kind = .system then [] else request.recipientIds

/-- The message has a delivery for each agent the request wakes, and for no other. -/
def SendRequest.DeliveredAs (request : SendRequest) (store : Store) (id : MessageId) : Prop :=
  ∀ agent, (store.delivery? ⟨id, agent⟩).isSome ↔ agent ∈ request.recipients

def recipientChecks (view : Nat → Store) (conversation : ConversationId) :
    Nat → List AgentId → Result Unit
  | _, [] => pure ()
  | index, recipient :: rest => do
    require (botsIsMember (view index) conversation (.agent recipient))
      (rejected "invalid request: recipient is not a member of this conversation")
    recipientChecks view conversation (index + 1) rest

/-- The checks of a send, each in a transaction of its own: the one of the given index sees
the store of that index. -/
def sendChecksAt (view : Nat → Store) (request : SendRequest) : Result Unit := do
  checkText request.clientRequestId 200
  botsRequireMember (view 0) request.conversationId request.actor .post
  let conversation ← botsConversationGet (view 1) request.conversationId
  require (conversation.policyRevision = request.expectedPolicyRevision)
    (rejected "conflict: conversation policy revision changed")
  recipientChecks view request.conversationId 2 request.recipientIds
  match request.draft.threadRoot with
  | none => pure ()
  | some root => do
    let message ← botsMessageGet (view (2 + request.recipientIds.length)) root
    require (message.conversationId = request.conversationId)
      (rejected "invalid request: thread_root belongs to another conversation")

/-- One send of a run: its checks, its write and the reading of the stored message are
transactions of their own, in this order, with anything of the run in between. -/
structure Sending where
  ops : List RoomOp
  request : SendRequest
  id : MessageId
  ts : Int
  checked : Nat → Nat
  written : Nat
  read : Nat
  performs : ops[written]? = some (.transact (.send request id ts))
  inOrder : ∀ index, checked index ≤ checked (index + 1)
  checkedFirst : ∀ index, checked index ≤ written
  readAfter : written < read

namespace Sending

variable (sending : Sending)

/-- The store its write finds. -/
def found : Store := roomsAt sending.ops sending.written

def Checked : Prop :=
  sendChecksAt (fun index => roomsAt sending.ops (sending.checked index)) sending.request = .ok ()

/-- The send succeeds with the given message. -/
def Returns (message : Message) : Prop :=
  sending.Checked ∧ ∃ next sent,
    sendInsert sending.found sending.request sending.id sending.ts = .ok (next, sent) ∧
    (roomsAt sending.ops sending.read).message? sent = some message

/-- The message its write finds under the request key. -/
def Taken (existing : Message) : Prop :=
  sending.found.messageByRequest? sending.request.conversationId
    sending.request.clientRequestId = some existing

/-- What a send promises: what it returns is its own message with its own deliveries, and a
key that another message has taken makes it fail and change nothing. -/
structure Kept : Prop where
  returned : ∀ message, sending.Returns message →
    message ∈ (roomsAt sending.ops sending.read).messages.rows ∧
      sending.request.CarriedBy message ∧
      sending.request.DeliveredAs (roomsAt sending.ops sending.read) message.id
  refused : ∀ existing, sending.Taken existing → ¬ sending.request.CarriedBy existing →
    (∀ message, ¬ sending.Returns message) ∧
      roomsAt sending.ops (sending.written + 1) = sending.found

/-- Whatever holds the key is the same message with the same deliveries. -/
def Matches : Prop :=
  ∀ existing, sending.Taken existing → sending.request.CarriedBy existing ∧
    sending.request.DeliveredAs sending.found existing.id

variable {sending} {message existing : Message}

/-- Under a taken key the write stores nothing and answers with what it found. -/
theorem Taken.insert (taken : sending.Taken existing) :
    sendInsert sending.found sending.request sending.id sending.ts =
      .ok (sending.found, existing.id) := by
  unfold Taken at taken
  simp only [sendInsert, taken]

theorem Taken.found (taken : sending.Taken existing) :
    sending.found.message? existing.id = some existing := by
  obtain ⟨member, _⟩ := Store.messageByRequest?_eq_some_iff.mp taken
  exact Store.message?_eq_some_iff.mpr ⟨member, rfl⟩

theorem roomsAt_written {next : Store} {sent : MessageId}
    (done : sendInsert sending.found sending.request sending.id sending.ts = .ok (next, sent)) :
    roomsAt sending.ops (sending.written + 1) = next := by
  have stepped := stateAt_succ Store.roomStep Store.empty sending.performs
  have performed : (Op.send sending.request sending.id sending.ts).perform sending.found =
      .ok next := by
    simp only [Op.perform, done]
    rfl
  exact stepped.trans (Store.step_of_perform performed)

theorem keeps_read : Keeps sending.found (roomsAt sending.ops sending.read) :=
  keeps_roomsAt sending.ops (Nat.le_of_lt sending.readAfter)

/-- A send that passes its checks under a taken key succeeds with the message it found. -/
theorem Taken.returns (taken : sending.Taken existing) (checked : sending.Checked) :
    sending.Returns existing :=
  ⟨checked, _, _, taken.insert, (keeps_read _ _ taken.found).1⟩

theorem Taken.eq_of_returns (taken : sending.Taken existing) (returns : sending.Returns message) :
    message = existing := by
  obtain ⟨_, next, sent, done, answer⟩ := returns
  rw [taken.insert] at done
  obtain ⟨_, rfl⟩ := Prod.mk.inj (Except.ok.inj done)
  rw [(keeps_read _ _ taken.found).1] at answer
  exact (Option.some.inj answer).symm

/-- A send that stored its message answers with it, and with the deliveries it made. -/
theorem carried_of_free (free : ∀ existing, ¬ sending.Taken existing)
    (returns : sending.Returns message) :
    sending.request.CarriedBy message ∧
      sending.request.DeliveredAs (roomsAt sending.ops sending.read) message.id := by
  obtain ⟨_, next, sent, done, answer⟩ := returns
  rcases sendInsert_ok done with
    ⟨existing, taken, _⟩ | ⟨_, rfl, _, messages, fits, deliveries, _⟩
  · exact absurd taken (free existing)
  · have later := keeps_roomsAt sending.ops sending.readAfter
    rw [Nat.succ_eq_add_one, roomsAt_written done] at later
    have stored : next.message? sending.id = some (sending.request.message sending.id
        (sending.found.nextSequence sending.request.conversationId) sending.ts) := by
      apply Store.message?_eq_some_iff.mpr
      exact ⟨by rw [messages]; simp, rfl⟩
    obtain ⟨kept, delivered⟩ := later _ _ stored
    obtain rfl := Option.some.inj (kept.symm.trans answer)
    refine ⟨⟨rfl, rfl, rfl⟩, fun agent => (delivered agent).trans ?_⟩
    rw [delivery?_isSome_iff, deliveries]
    constructor
    · rintro ⟨row, member, same⟩
      rcases List.mem_append.mp member with old | new
      · -- No delivery was there before its message.
        have present := messagesStored_at sending.ops sending.written row old
        rw [same, Store.message?_isSome_iff] at present
        obtain ⟨other, otherMember, clash⟩ := present
        exact absurd (Or.inl clash) (fits other otherMember)
      · unfold SendRequest.deliveries at new
        unfold SendRequest.recipients
        split at new
        · exact absurd new List.not_mem_nil
        · rename_i chat
          obtain ⟨recipient, listed, rfl⟩ := List.mem_map.mp new
          obtain rfl : recipient = agent := congrArg DeliveryKey.recipient same
          rw [if_neg chat]
          exact listed
    · intro listed
      unfold SendRequest.recipients at listed
      split at listed
      · exact absurd listed List.not_mem_nil
      · rename_i chat
        refine ⟨sending.request.delivery sending.id sending.ts agent,
          List.mem_append_right _ ?_, rfl⟩
        unfold SendRequest.deliveries
        rw [if_neg chat]
        exact List.mem_map_of_mem listed

end Sending

/-- A send keeps its promise exactly when its checks refuse it or whatever holds its key is
the same message with the same deliveries. -/
theorem sending_kept_iff (sending : Sending) :
    sending.Kept ↔ (sending.Checked → sending.Matches) := by
  constructor
  · intro kept checked existing taken
    have returns := taken.returns checked
    obtain ⟨_, carried, delivered⟩ := kept.returned existing returns
    refine ⟨carried, fun agent => ?_⟩
    exact ((Sending.keeps_read _ _ taken.found).2 agent).symm.trans (delivered agent)
  · intro matched
    constructor
    · intro message returns
      have stored := (Store.message?_eq_some_iff.mp returns.2.choose_spec.choose_spec.2).1
      by_cases holder : ∃ existing, sending.Taken existing
      · obtain ⟨existing, taken⟩ := holder
        obtain rfl := taken.eq_of_returns returns
        obtain ⟨carried, delivered⟩ := matched returns.1 message taken
        refine ⟨stored, carried, fun agent => ?_⟩
        exact ((Sending.keeps_read _ _ taken.found).2 agent).trans (delivered agent)
      · exact ⟨stored, Sending.carried_of_free (fun existing taken => holder ⟨existing, taken⟩) returns⟩
    · intro existing taken different
      refine ⟨fun message returns => ?_, Sending.roomsAt_written taken.insert⟩
      exact different (matched returns.1 existing taken).1

section Guessed

/-- A text of an agent to the room, under a key of its choice. -/
def agentMessage (agent : AgentId) (key body : String) : SendRequest :=
  { ownerMessage [] with
    actor := .agent agent
    clientRequestId := key
    draft := { (ownerMessage []).draft with body := some body } }

/-- The owner asks agent 1, and agent 0 posts first under the key of the reply to come. -/
def guessedKey : Sending where
  ops :=
    [.transact (openRoom 2), .transact (.send (ownerMessage [1]) 1 0),
      .transact (.send (agentMessage 0 (replyRequest ⟨1, 1⟩) "forged") 2 0),
      .transact (.send (agentMessage 1 (replyRequest ⟨1, 1⟩) "reply") 3 0)]
  request := agentMessage 1 (replyRequest ⟨1, 1⟩) "reply"
  id := 3
  ts := 0
  checked := fun _ => 3
  written := 3
  read := 4
  performs := rfl
  inOrder := fun _ => Nat.le_refl 3
  checkedFirst := fun _ => Nat.le_refl 3
  readAfter := by decide

/-- The reply of agent 1 succeeds with the words of agent 0, and is never stored. -/
theorem forged_reply_returned :
    ∃ message, guessedKey.Returns message ∧ message.author = .agent 0 ∧
      message.body = some "forged" ∧ ¬ guessedKey.Kept := by
  have returns : guessedKey.Returns
      ((agentMessage 0 (replyRequest ⟨1, 1⟩) "forged").message 2 2 0) := by
    refine ⟨?_, guessedKey.found, 2, ?_, ?_⟩
    · rfl
    · rfl
    · rfl
  refine ⟨_, returns, rfl, rfl, fun kept => ?_⟩
  have carried := (kept.returned _ returns).2.1
  exact absurd carried.1 (by decide)

end Guessed

end Answers

end OHHive.Bots
