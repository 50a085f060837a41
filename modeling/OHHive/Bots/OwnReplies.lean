import OHHive.Bots.Pages

/-! When a run of automation is credited with the reply to its own message: the run and the reply
are connected by nothing but the order of the room, so it is as long as nobody else gets a text out
of the agent there first. -/

namespace OHHive.Bots

open Foundation

section Guards

/-- A message of the same room that a run which sent another one takes for its reply. -/
def Message.follows (message sent : Message) (agent : AgentId) : Bool :=
  message.conversationId = sent.conversationId && sent.serverSequence < message.serverSequence &&
    message.answers agent

/-- Nothing in the room of a message could be taken for its reply yet. -/
def Store.unanswered (store : Store) (key : DeliveryKey) : Bool :=
  (store.message? key.messageId).all (fun sent =>
    store.messages.rows.all (fun message => !message.follows sent key.recipient))

/-- The delivery that an action replies to: a worker's turn on it, or a publication for it. -/
def RoomAction.replies? (system : System) : RoomAction → Option DeliveryKey
  | .room (.send worker _ _ _) =>
    match system.worker worker with
    | .gated plan _ _ => some plan.delivery.key
    | _ => none
  | .room (.transact (.publishSubscription binding operation _ _ _ _)) =>
    some ⟨operation, binding.agent⟩
  | _ => none

namespace AutomatedRooms

/-- The key of a run is free when it sends, or an earlier attempt took it for the same message. -/
def keyIsOwn (rooms : AutomatedRooms) : RoomAction → Bool
  | .advance index (.send ..) =>
    match rooms.runs[index]? with
    | some ⟨automation, room, .checked owner _⟩ =>
      (rooms.store.messageByRequest? room automation.key).all (fun taken =>
        rooms.sends.contains ⟨taken.id, automation.agentId⟩ && taken.author = .user owner &&
          taken.body = some automation.text)
    | _ => true
  | _ => true

variable (isAlphanumeric : Char → Bool) (budgets : HandoffBudgets)

/-- While nothing could be taken for the reply to a run's message, only its reply can. -/
def Quiet (rooms : AutomatedRooms) (action : RoomAction) : Prop :=
  (∀ key ∈ rooms.sends, rooms.store.unanswered key = true →
    (rooms.step isAlphanumeric budgets action).store.unanswered key = true ∨
      action.replies? rooms.system = some key) ∧
  rooms.keyIsOwn action = true

instance (rooms : AutomatedRooms) (action : RoomAction) :
    Decidable (rooms.Quiet isAlphanumeric budgets action) := by
  unfold Quiet
  infer_instance

end AutomatedRooms

variable (isAlphanumeric : Char → Bool) (budgets : HandoffBudgets)

/-- The message was stored as the reply to a delivery, at some moment of the run before. -/
def CausedBefore (actions : List RoomAction) (moment : Nat) (key : DeliveryKey)
    (reply : Message) : Prop :=
  ∃ earlier < moment, ∃ action, actions[earlier]? = some action ∧
    action.replies? (automatedAt isAlphanumeric budgets actions earlier).system = some key ∧
    reply ∉ (automatedAt isAlphanumeric budgets actions earlier).store.messages.rows ∧
    reply ∈ (automatedAt isAlphanumeric budgets actions (earlier + 1)).store.messages.rows

/-- The message a run waits under is its own. -/
structure AutomationRun.Sent (run : AutomationRun) (rooms : AutomatedRooms) (sent : Message) :
    Prop where
  stored : sent ∈ rooms.store.messages.rows
  room : sent.conversationId = run.room
  key : sent.clientRequestId = run.automation.key
  author : ∃ owner, sent.author = .user owner
  body : sent.body = some run.automation.text
  send : ⟨sent.id, run.agentId⟩ ∈ rooms.sends

/-- A run is credited with a reply to the message that it sent. -/
structure AutomationRun.Credited (actions : List RoomAction) (moment : Nat) (run : AutomationRun)
    (sent reply : Message) : Prop where
  own : run.Sent (automatedAt isAlphanumeric budgets actions moment) sent
  answers : reply.answers run.agentId = true
  caused : CausedBefore isAlphanumeric budgets actions moment ⟨sent.id, run.agentId⟩ reply

end Guards

section Sends

variable {isAlphanumeric : Char → Bool} {budgets : HandoffBudgets} {store next : Store}

theorem grows_attempt {fault : Fault} {call : Result (Store × α)}
    (grows : ∀ next value, call = .ok (next, value) → Grows store next) :
    Grows store (attempt fault store call).1 := by
  cases called : call with
  | error failure => cases fault <;> exact Grows.of_same rfl
  | ok reply =>
    have grown := grows reply.1 reply.2 called
    cases fault with
    | none => exact grown
    | before => exact Grows.of_same rfl
    | after => exact grown

theorem grows_sendInsert {request : SendRequest} {id sent : MessageId} {ts : Int}
    (done : sendInsert store request id ts = .ok (next, sent)) : Grows store next := by
  rcases sendInsert_ok done with ⟨_, _, rfl, _⟩ | ⟨_, _, _, rows, _⟩
  · exact Grows.of_same rfl
  · exact Grows.of_append rfl rows

/-- Only a send touches the store, and it stores its own message. -/
theorem move_store (run : AutomationRun) (store : Store) (move : RunMove) :
    (run.move store move).1 = store ∨ ∃ id ts fault owner revision,
      move = .send id ts fault ∧ run.phase = .checked owner revision ∧
      (run.move store move).1 =
        (attempt fault store (sendInsert store (run.request owner revision) id ts)).1 := by
  unfold AutomationRun.move
  split
  · split <;> exact Or.inl rfl
  · split <;> exact Or.inl rfl
  · rename_i id ts fault owner revision phase
    refine Or.inr ⟨id, ts, fault, owner, revision, rfl, phase, ?_⟩
    dsimp only
    split <;> rfl
  · split
    · exact Or.inl rfl
    · split <;> exact Or.inl rfl
  · split
    · split <;> exact Or.inl rfl
    · exact Or.inl rfl
  · exact Or.inl rfl
  · split <;> exact Or.inl rfl
  · exact Or.inl rfl

theorem grows_move (run : AutomationRun) (store : Store) (move : RunMove) :
    Grows store (run.move store move).1 := by
  rcases move_store run store move with same | ⟨id, ts, fault, owner, revision, _, _, same⟩
  · exact Grows.of_same (by rw [same])
  · rw [same]
    exact grows_attempt (fun _ _ done => grows_sendInsert done)

variable (isAlphanumeric budgets) in
theorem grows_automated (rooms : AutomatedRooms) (action : RoomAction) :
    Grows rooms.store (rooms.step isAlphanumeric budgets action).store := by
  cases action with
  | room action =>
    rcases System.store_step isAlphanumeric budgets rooms.system action with same | ⟨op, _, same⟩
    · exact Grows.of_same (congrArg (fun store : Store => store.messages.rows) same)
    · have grows := grows_step rooms.system.store op
      rw [← same] at grows
      exact grows
  | report nodes owner host localReady stamps => exact grows_roomStep rooms.store _
  | start automation room => exact Grows.of_same rfl
  | advance index move =>
    unfold AutomatedRooms.step
    dsimp only
    split
    · exact Grows.of_same rfl
    · exact grows_move _ rooms.store move

/-- A run's send that stores a message stores its own, after everything else in the room. -/
theorem message?_of_send {run : AutomationRun} {id : MessageId} {ts : Int} {fault : Fault}
    {owner : UserId} {revision : Nat} (absent : store.message? id = none)
    (stored : ((attempt fault store
      (sendInsert store (run.request owner revision) id ts)).1.message? id).isSome) :
    (attempt fault store (sendInsert store (run.request owner revision) id ts)).1.messages.rows =
      store.messages.rows ++
        [(run.request owner revision).message id (store.nextSequence run.room) ts] := by
  have unsent : ∀ other : Store, other = store → (other.message? id).isSome → False := by
    intro other same found
    rw [same, absent] at found
    cases found
  cases called : sendInsert store (run.request owner revision) id ts with
  | error failure =>
    rw [called] at stored
    cases fault <;> exact absurd stored (unsent _ rfl)
  | ok reply =>
    rw [called] at stored
    rcases sendInsert_ok called with ⟨_, _, same, _⟩ | ⟨_, _, _, rows, _⟩
    · cases fault with
      | none => exact absurd stored (unsent _ same)
      | before => exact absurd stored (unsent _ rfl)
      | after => exact absurd stored (unsent _ same)
    · cases fault with
      | none => exact rows
      | before => exact absurd stored (unsent _ rfl)
      | after => exact rows

end Sends

section Invariant

variable {isAlphanumeric : Char → Bool} {budgets : HandoffBudgets}
variable {caused later : DeliveryKey → Message → Prop}

theorem follows_iff {message sent : Message} {agent : AgentId} :
    message.follows sent agent = true ↔ message.conversationId = sent.conversationId ∧
      sent.serverSequence < message.serverSequence ∧ message.answers agent = true := by
  simp [Message.follows, and_assoc]

/-- The message of a send, when what could be taken for its reply begins with one. -/
def Replied (store : Store) (caused : DeliveryKey → Message → Prop) (key : DeliveryKey)
    (sent : Message) : Prop :=
  ∀ message ∈ store.messages.rows, message.follows sent key.recipient = true →
    ∃ first ∈ store.messages.rows, first.follows sent key.recipient = true ∧
      first.serverSequence ≤ message.serverSequence ∧ caused key first

/-- Every message of a run is in its room, and a reply to it comes before all that is not. -/
def SendsReplied (rooms : AutomatedRooms) (caused : DeliveryKey → Message → Prop) : Prop :=
  ∀ key ∈ rooms.sends, ∃ sent, rooms.store.message? key.messageId = some sent ∧
    Replied rooms.store caused key sent

/-- What a run knows of the room it waits in. -/
def AutomationRun.Known (run : AutomationRun) (rooms : AutomatedRooms)
    (caused : DeliveryKey → Message → Prop) : Prop :=
  match run.phase with
  | .waiting _ sent after => run.Sent rooms sent ∧ sent.serverSequence ≤ after ∧
      (∃ last ∈ rooms.store.messages.rows, last.conversationId = run.room ∧
        last.serverSequence = after) ∧
      ∀ message ∈ rooms.store.messages.rows, message.follows sent run.agentId = true →
        after < message.serverSequence
  | .answered sent reply | .succeeded sent reply => run.Sent rooms sent ∧
      reply.answers run.agentId = true ∧ caused ⟨sent.id, run.agentId⟩ reply
  | _ => True

theorem AutomationRun.Sent.grows {run : AutomationRun} {rooms next : AutomatedRooms}
    {sent : Message} (own : run.Sent rooms sent) (grows : Grows rooms.store next.store)
    (sends : ∀ key ∈ rooms.sends, key ∈ next.sends) : run.Sent next sent :=
  { own with
    stored := grows.kept sent own.stored
    send := sends _ own.send }

theorem AutomationRun.Sent.inPhase {run : AutomationRun} {rooms : AutomatedRooms} {sent : Message}
    (own : run.Sent rooms sent) (phase : RunPhase) :
    AutomationRun.Sent { run with phase } rooms sent :=
  ⟨own.stored, own.room, own.key, own.author, own.body, own.send⟩

/-- What a run knows stands as the room grows. -/
theorem AutomationRun.Known.grows {run : AutomationRun} {rooms next : AutomatedRooms}
    (known : run.Known rooms caused) (grows : Grows rooms.store next.store)
    (sends : ∀ key ∈ rooms.sends, key ∈ next.sends)
    (since : ∀ key message, caused key message → later key message) : run.Known next later := by
  unfold AutomationRun.Known at known ⊢
  split at known
  · obtain ⟨own, above, ⟨last, lastStored, room, number⟩, ahead⟩ := known
    refine ⟨own.grows grows sends, above, ⟨last, grows.kept last lastStored, room, number⟩, ?_⟩
    intro message member follows
    by_cases old : message ∈ rooms.store.messages.rows
    · exact ahead message old follows
    · have here := (follows_iff.mp follows).1.trans own.room
      rw [← number]
      exact grows.later message member old last lastStored (room.trans here.symm)
  · obtain ⟨own, answers, reply⟩ := known
    exact ⟨own.grows grows sends, answers, since _ _ reply⟩
  · obtain ⟨own, answers, reply⟩ := known
    exact ⟨own.grows grows sends, answers, since _ _ reply⟩
  · trivial

theorem unanswered_iff {store : Store} {key : DeliveryKey} {sent : Message}
    (found : store.message? key.messageId = some sent) :
    store.unanswered key = true ↔
      ∀ message ∈ store.messages.rows, ¬ message.follows sent key.recipient = true := by
  simp [Store.unanswered, found]

/-- A reply to a message of a run comes first in a room that is quiet. -/
theorem Replied.grows {rooms : AutomatedRooms} {action : RoomAction} {key : DeliveryKey}
    {sent : Message} (found : rooms.store.message? key.messageId = some sent)
    (replied : Replied rooms.store caused key sent)
    (quiet : rooms.store.unanswered key = true →
      (rooms.step isAlphanumeric budgets action).store.unanswered key = true ∨
        action.replies? rooms.system = some key)
    (since : ∀ key message, caused key message → later key message)
    (now : ∀ message, action.replies? rooms.system = some key →
      message ∉ rooms.store.messages.rows →
      message ∈ (rooms.step isAlphanumeric budgets action).store.messages.rows →
      later key message) :
    Replied (rooms.step isAlphanumeric budgets action).store later key sent := by
  have grows := grows_automated isAlphanumeric budgets rooms action
  intro message member follows
  by_cases silent : rooms.store.unanswered key = true
  · rcases quiet silent with still | reply
    · exact absurd follows ((unanswered_iff (grows.message? found)).mp still message member)
    · have new : message ∉ rooms.store.messages.rows := fun old =>
        (unanswered_iff found).mp silent message old follows
      exact ⟨message, member, follows, Nat.le_refl _, now message reply new member⟩
  · have answered : ∃ earlier ∈ rooms.store.messages.rows,
        earlier.follows sent key.recipient = true := by
      by_contra none
      refine silent ((unanswered_iff found).mpr ?_)
      intro earlier stored taken
      exact none ⟨earlier, stored, taken⟩
    obtain ⟨earlier, stored, taken⟩ := answered
    obtain ⟨first, firstStored, firstFollows, below, reply⟩ : ∃ first ∈ rooms.store.messages.rows,
        first.follows sent key.recipient = true ∧
          first.serverSequence ≤ message.serverSequence ∧ caused key first := by
      by_cases old : message ∈ rooms.store.messages.rows
      · exact replied message old follows
      · obtain ⟨first, firstStored, firstFollows, below, reply⟩ := replied earlier stored taken
        have room := (follows_iff.mp taken).1.trans (follows_iff.mp follows).1.symm
        have before := grows.later message member old earlier stored room
        exact ⟨first, firstStored, firstFollows, by omega, reply⟩
    exact ⟨first, grows.kept first firstStored, firstFollows, below, since key first reply⟩

/-- A page without a reply moves a waiting run on to its last message. -/
theorem ahead_of_page {store : Store} {actor : Principal} {room : ConversationId} {after : Nat}
    {page : List Message} {sent : Message} {agent : AgentId} (here : sent.conversationId = room)
    (ahead : ∀ message ∈ store.messages.rows, message.follows sent agent = true →
      after < message.serverSequence)
    (listed : botsMessagesList store actor room ⟨none, some after, pageLimit⟩ = .ok page)
    (none : page.find? (fun message => message.answers agent) = none) {last : Message}
    (ends : page.getLast? = some last) :
    ∀ message ∈ store.messages.rows, message.follows sent agent = true →
      last.serverSequence < message.serverSequence := by
  intro message member follows
  obtain ⟨sameRoom, _, answers⟩ := follows_iff.mp follows
  have onward : message ∈ followers store room after :=
    mem_followers_iff.mpr ⟨member, sameRoom.trans here, ahead message member follows⟩
  obtain rfl := page_eq_take listed
  by_contra below
  have onPage := mem_page_of_le onward (List.mem_of_getLast? ends) (Nat.le_of_not_lt below)
  exact List.find?_eq_none.mp none message onPage answers

/-- The first text of the agent on a waiting run's page is the reply to its message. -/
theorem caused_of_page {store : Store} {actor : Principal} {room : ConversationId} {after : Nat}
    {page : List Message} {sent reply : Message} {key : DeliveryKey}
    (here : sent.conversationId = room) (above : sent.serverSequence ≤ after)
    (ahead : ∀ message ∈ store.messages.rows, message.follows sent key.recipient = true →
      after < message.serverSequence)
    (replied : Replied store caused key sent)
    (listed : botsMessagesList store actor room ⟨none, some after, pageLimit⟩ = .ok page)
    (taken : page.find? (fun message => message.answers key.recipient) = some reply) :
    reply.answers key.recipient = true ∧ caused key reply := by
  obtain rfl := page_eq_take listed
  have answers : reply.answers key.recipient = true := by simpa using List.find?_some taken
  have onPage := List.mem_of_find?_eq_some taken
  obtain ⟨stored, room, onward⟩ := mem_followers_iff.mp (List.mem_of_mem_take onPage)
  have follows : reply.follows sent key.recipient = true :=
    follows_iff.mpr ⟨room.trans here.symm, by omega, answers⟩
  obtain ⟨first, firstStored, firstFollows, below, reply⟩ := replied reply stored follows
  obtain ⟨firstRoom, _, firstAnswers⟩ := follows_iff.mp firstFollows
  have firstOnward : first ∈ followers store _ after :=
    mem_followers_iff.mpr ⟨firstStored, firstRoom.trans here, ahead first firstStored firstFollows⟩
  have firstOnPage := mem_page_of_le firstOnward onPage below
  have least := find?_least taken firstOnPage firstAnswers
  have same := eq_of_sequence firstStored stored (firstRoom.trans (here.trans room.symm))
    (Nat.le_antisymm below least)
  exact ⟨answers, same ▸ reply⟩

end Invariant

section Moves

variable {isAlphanumeric : Char → Bool} {budgets : HandoffBudgets}
variable {caused later : DeliveryKey → Message → Prop} {rooms : AutomatedRooms}
variable {run : AutomationRun} {index : Nat} {move : RunMove}

theorem advance_eq (found : rooms.runs[index]? = some run) :
    rooms.step isAlphanumeric budgets (.advance index move) =
      { system := { rooms.system with store := (run.move rooms.store move).1 }
        runs := rooms.runs.set index { run with phase := (run.move rooms.store move).2 }
        sends := rooms.sends ++
          move.stores rooms.store (run.move rooms.store move).1 run.agentId } := by
  simp only [AutomatedRooms.step, found]

theorem stores_eq_nil_or (move : RunMove) (before after : Store) (agent : AgentId) :
    move.stores before after agent = [] ∨ ∃ id ts fault, move = .send id ts fault ∧
      before.message? id = none ∧ (after.message? id).isSome ∧
      move.stores before after agent = [⟨id, agent⟩] := by
  unfold RunMove.stores
  split
  · rename_i id ts fault
    split
    · rename_i stores
      rw [Bool.and_eq_true, Option.isNone_iff_eq_none] at stores
      exact Or.inr ⟨id, ts, fault, rfl, stores.1, stores.2, rfl⟩
    · exact Or.inl rfl
  · exact Or.inl rfl

/-- Nothing follows a message that has just been stored. -/
theorem replied_of_appended {store next : Store} {key : DeliveryKey} {sent : Message}
    (number : sent.serverSequence = store.nextSequence sent.conversationId)
    (rows : next.messages.rows = store.messages.rows ++ [sent]) :
    Replied next later key sent := by
  intro message member follows
  obtain ⟨room, onward, _⟩ := follows_iff.mp follows
  rw [rows, List.mem_append, List.mem_singleton] at member
  rcases member with old | rfl
  · have before := sequence_lt_next old
    rw [room, ← number] at before
    omega
  · omega

/-- The messages of all runs stay replied to in a step that is quiet. -/
theorem sendsReplied_step {action : RoomAction} (replied : SendsReplied rooms caused)
    (quiet : rooms.Quiet isAlphanumeric budgets action)
    (since : ∀ key message, caused key message → later key message)
    (now : ∀ key message, action.replies? rooms.system = some key →
      message ∉ rooms.store.messages.rows →
      message ∈ (rooms.step isAlphanumeric budgets action).store.messages.rows →
      later key message) :
    SendsReplied (rooms.step isAlphanumeric budgets action) later := by
  have old : ∀ key ∈ rooms.sends, ∃ sent,
      (rooms.step isAlphanumeric budgets action).store.message? key.messageId = some sent ∧
        Replied (rooms.step isAlphanumeric budgets action).store later key sent := by
    intro key member
    obtain ⟨sent, found, before⟩ := replied key member
    exact ⟨sent, (grows_automated isAlphanumeric budgets rooms action).message? found,
      before.grows found (quiet.1 key member) since (now key)⟩
  cases action with
  | room | report | start => exact old
  | advance index move =>
    cases found : rooms.runs[index]? with
    | none =>
      have same : rooms.step isAlphanumeric budgets (.advance index move) = rooms := by
        simp only [AutomatedRooms.step, found]
      rw [same] at old ⊢
      exact old
    | some run =>
      intro key member
      rw [advance_eq found] at member
      rcases List.mem_append.mp member with before | added
      · exact old key before
      · rcases stores_eq_nil_or move rooms.store (run.move rooms.store move).1 run.agentId with
          none | ⟨id, ts, fault, rfl, absent, stored, only⟩
        · rw [none] at added
          cases added
        · rw [only] at added
          obtain rfl := List.mem_singleton.mp added
          rcases move_store run rooms.store (.send id ts fault) with
            same | ⟨_, _, _, owner, revision, sends, _, same⟩
          · rw [same, absent] at stored
            cases stored
          · obtain ⟨rfl, rfl, rfl⟩ := RunMove.send.inj sends
            rw [same] at stored
            have rows := message?_of_send absent stored
            rw [advance_eq found]
            refine ⟨(run.request owner revision).message id
              (rooms.store.nextSequence run.room) ts,
              Store.message?_eq_some_iff.mpr ⟨?_, rfl⟩, replied_of_appended rfl ?_⟩
            · exact same ▸ rows ▸ List.mem_append_right _ List.mem_cons_self
            · exact same ▸ rows

/-- A run that has sent its message waits under it. -/
theorem sent_of_send {id : MessageId} {ts : Int} {fault : Fault} {owner : UserId} {revision : Nat}
    {sent : MessageId} {message : Message} (present : rooms.runs[index]? = some run)
    (phase : run.phase = .checked owner revision)
    (own : rooms.keyIsOwn (.advance index (.send id ts fault)) = true)
    (answered : (attempt fault rooms.store
      (sendInsert rooms.store (run.request owner revision) id ts)).2 = some sent)
    (found : (run.move rooms.store (.send id ts fault)).1.message? sent = some message)
    (moved : (run.move rooms.store (.send id ts fault)).1 = (attempt fault rooms.store
      (sendInsert rooms.store (run.request owner revision) id ts)).1) :
    run.Sent (rooms.step isAlphanumeric budgets (.advance index (.send id ts fault))) message := by
  have stored := Store.message?_eq_some_iff.mp found
  rw [advance_eq present]
  rcases sendInsert_ok (attempt_ok answered) with
    ⟨taken, key, _, same⟩ | ⟨_, same, _, rows, fits, _⟩
  · obtain ⟨member, room, named⟩ := Store.messageByRequest?_eq_some_iff.mp key
    have kept := (grows_move run rooms.store (.send id ts fault)).kept taken member
    have one : message = taken := by
      apply Option.some.inj
      rw [← found]
      exact Store.message?_eq_some_iff.mpr ⟨kept, same.symm⟩
    obtain ⟨automation, conversation, current⟩ := run
    subst phase
    unfold AutomatedRooms.keyIsOwn at own
    simp only [present, Option.all_eq_true, Bool.and_eq_true, decide_eq_true_eq] at own
    obtain ⟨⟨send, author⟩, body⟩ := own taken key
    rw [one]
    exact ⟨kept, room, named, ⟨owner, author⟩, body,
      List.mem_append_left _ (List.contains_iff_mem.mp send)⟩
  · subst same
    rw [← moved] at rows
    have appended :
        (run.request owner revision).message sent (rooms.store.nextSequence run.room) ts ∈
          (run.move rooms.store (.send sent ts fault)).1.messages.rows := by
      rw [rows]
      exact List.mem_append_right _ List.mem_cons_self
    have one : message =
        (run.request owner revision).message sent (rooms.store.nextSequence run.room) ts := by
      apply Option.some.inj
      rw [← found]
      exact Store.message?_eq_some_iff.mpr ⟨appended, rfl⟩
    have absent : rooms.store.message? sent = none := by
      cases earlier : rooms.store.message? sent with
      | none => rfl
      | some other =>
        obtain ⟨member, named⟩ := Store.message?_eq_some_iff.mp earlier
        exact absurd (Or.inl named) (fits other member)
    have stores : (RunMove.send sent ts fault).stores rooms.store
        (run.move rooms.store (.send sent ts fault)).1 run.agentId = [⟨sent, run.agentId⟩] := by
      unfold RunMove.stores
      dsimp only
      rw [absent, found]
      rfl
    rw [one]
    refine ⟨appended, rfl, rfl, ⟨owner, rfl⟩, rfl, ?_⟩
    dsimp only
    rw [stores]
    exact List.mem_append_right _ List.mem_cons_self

/-- A phase in which a run has nothing to know of the room. -/
def RunPhase.isFree : RunPhase → Bool
  | .opened | .addressed .. | .checked .. | .failed _ => true
  | _ => false

/-- Where a step leads a run. -/
inductive AutomationRun.Moved (run : AutomationRun) (store : Store) (move : RunMove) :
    RunPhase → Prop
  | stays : Moved run store move run.phase
  | free (phase : RunPhase) (isFree : phase.isFree = true) : Moved run store move phase
  | sends (id : MessageId) (ts : Int) (fault : Fault) (owner : UserId) (revision : Nat)
      (sent : MessageId) (message : Message) (called : move = .send id ts fault)
      (phase : run.phase = .checked owner revision)
      (answered : (attempt fault store
        (sendInsert store (run.request owner revision) id ts)).2 = some sent)
      (moved : (run.move store move).1 = (attempt fault store
        (sendInsert store (run.request owner revision) id ts)).1)
      (found : (run.move store move).1.message? sent = some message) :
      Moved run store move (.waiting owner message message.serverSequence)
  | polls (owner : UserId) (sent : Message) (after : Nat) (page : List Message)
      (phase : run.phase = .waiting owner sent after) (same : (run.move store move).1 = store)
      (listed : botsMessagesList store (.user owner) run.room ⟨none, some after, pageLimit⟩ =
        .ok page)
      (none : page.find? (fun message => message.answers run.agentId) = none) :
      Moved run store move
        (.waiting owner sent ((page.getLast?.map Message.serverSequence).getD after))
  | takes (owner : UserId) (sent : Message) (after : Nat) (page : List Message) (reply : Message)
      (phase : run.phase = .waiting owner sent after) (same : (run.move store move).1 = store)
      (listed : botsMessagesList store (.user owner) run.room ⟨none, some after, pageLimit⟩ =
        .ok page)
      (taken : page.find? (fun message => message.answers run.agentId) = some reply) :
      Moved run store move (.answered sent reply)
  | records (sent reply : Message) (phase : run.phase = .answered sent reply) :
      Moved run store move (.succeeded sent reply)

theorem moved_of_waiting {run : AutomationRun} {store : Store} {move : RunMove} {phase : RunPhase}
    (same : run.phase = phase) : run.Moved store move phase :=
  same ▸ .stays

theorem moved (run : AutomationRun) (store : Store) (move : RunMove) :
    run.Moved store move (run.move store move).2 := by
  cases move with
  | address fault =>
    cases phase : run.phase with
    | opened =>
      simp only [AutomationRun.move, phase]
      split <;> exact .free _ rfl
    | _ => simpa only [AutomationRun.move, phase] using moved_of_waiting phase
  | check fault =>
    cases phase : run.phase with
    | addressed owner revision =>
      simp only [AutomationRun.move, phase]
      split <;> exact .free _ rfl
    | _ => simpa only [AutomationRun.move, phase] using moved_of_waiting phase
  | send id ts fault =>
    cases phase : run.phase with
    | checked owner revision =>
      have stored : (run.move store (.send id ts fault)).1 = (attempt fault store
          (sendInsert store (run.request owner revision) id ts)).1 := by
        simp only [AutomationRun.move, phase]
        split <;> rfl
      cases answered : (attempt fault store
        (sendInsert store (run.request owner revision) id ts)).2 with
      | none =>
        simp only [AutomationRun.move, phase, answered, Option.bind_none]
        exact .free _ rfl
      | some sent =>
        cases found : (attempt fault store
          (sendInsert store (run.request owner revision) id ts)).1.message? sent with
        | none =>
          simp only [AutomationRun.move, phase, answered, Option.bind_some, found]
          exact .free _ rfl
        | some message =>
          have waits : (run.move store (.send id ts fault)).2 =
              .waiting owner message message.serverSequence := by
            simp only [AutomationRun.move, phase, answered, Option.bind_some, found]
          rw [waits]
          exact .sends id ts fault owner revision sent message rfl phase answered stored
            (stored ▸ found)
    | _ => simpa only [AutomationRun.move, phase] using moved_of_waiting phase
  | poll fault =>
    cases phase : run.phase with
    | waiting owner sent after =>
      have same : (run.move store (.poll fault)).1 = store := by
        simp only [AutomationRun.move, phase]
        split
        · rfl
        · split <;> rfl
      cases read : attemptRead fault
        (botsMessagesList store (.user owner) run.room ⟨none, some after, pageLimit⟩) with
      | none =>
        simp only [AutomationRun.move, phase, read]
        exact .free _ rfl
      | some page =>
        have listed := attemptRead_ok read
        cases taken : page.find? (fun message => message.answers run.agentId) with
        | none =>
          simp only [AutomationRun.move, phase, read, taken]
          exact .polls owner sent after page phase same listed taken
        | some reply =>
          simp only [AutomationRun.move, phase, read, taken]
          exact .takes owner sent after page reply phase same listed taken
    | _ => simpa only [AutomationRun.move, phase] using moved_of_waiting phase
  | inspect fault =>
    cases phase : run.phase with
    | waiting owner sent after =>
      simp only [AutomationRun.move, phase]
      split
      · split
        · exact .free _ rfl
        · exact moved_of_waiting phase
      · exact moved_of_waiting phase
    | _ => simpa only [AutomationRun.move, phase] using moved_of_waiting phase
  | giveUp =>
    cases phase : run.phase with
    | waiting owner sent after =>
      simp only [AutomationRun.move, phase]
      exact .free _ rfl
    | _ => simpa only [AutomationRun.move, phase] using moved_of_waiting phase
  | record arrives =>
    cases phase : run.phase with
    | answered sent reply =>
      simp only [AutomationRun.move, phase]
      split
      · exact .records sent reply phase
      · exact moved_of_waiting phase
      · exact .free _ rfl
    | _ => simpa only [AutomationRun.move, phase] using moved_of_waiting phase

/-- What a run knows after its own step. -/
theorem known_move (present : rooms.runs[index]? = some run) (known : run.Known rooms caused)
    (replied : SendsReplied rooms caused)
    (quiet : rooms.Quiet isAlphanumeric budgets (.advance index move))
    (since : ∀ key message, caused key message → later key message) :
    AutomationRun.Known { run with phase := (run.move rooms.store move).2 }
      (rooms.step isAlphanumeric budgets (.advance index move)) later := by
  have grows := grows_automated isAlphanumeric budgets rooms (.advance index move)
  have sends : ∀ key ∈ rooms.sends,
      key ∈ (rooms.step isAlphanumeric budgets (.advance index move)).sends := by
    intro key member
    rw [advance_eq present]
    exact List.mem_append_left _ member
  have store : (rooms.step isAlphanumeric budgets (.advance index move)).store =
      (run.move rooms.store move).1 := congrArg AutomatedRooms.store (advance_eq present)
  have still := known.grows grows sends since
  have repliedTo : ∀ owner sent after, run.phase = .waiting owner sent after →
      Replied rooms.store caused ⟨sent.id, run.agentId⟩ sent := by
    intro owner sent after phase
    simp only [AutomationRun.Known, phase] at known
    obtain ⟨message, found, before⟩ := replied _ known.1.send
    obtain rfl : sent = message := Option.some.inj
      ((Store.message?_eq_some_iff.mpr ⟨known.1.stored, rfl⟩).symm.trans found)
    exact before
  have own := quiet.2
  have moves := moved run rooms.store move
  generalize (run.move rooms.store move).2 = reached at moves
  cases moves with
  | stays => exact still
  | free _ isFree =>
    cases reached with
    | opened | addressed | checked | failed => trivial
    | _ => cases isFree
  | sends id ts fault owner revision sent message called phase answered stored found =>
    subst called
    have sentOwn : run.Sent
        (rooms.step isAlphanumeric budgets (.advance index (.send id ts fault))) message :=
      sent_of_send present phase own answered found stored
    refine ⟨sentOwn.inPhase _, Nat.le_refl _,
      ⟨message, sentOwn.stored, sentOwn.room, rfl⟩, ?_⟩
    intro other _ follows
    exact (follows_iff.mp follows).2.1
  | polls owner sent after page phase same listed none =>
    rw [AutomationRun.Known, phase] at known still
    obtain ⟨_, above, ⟨last, stored, room, number⟩, ahead⟩ := known
    obtain ⟨sentOwn, _, held, aheadNow⟩ := still
    cases ends : page.getLast? with
    | none =>
      exact ⟨sentOwn.inPhase _, above, held,
        aheadNow⟩
    | some last =>
      have onPage := page_eq_take listed ▸ List.mem_of_getLast? ends
      obtain ⟨lastStored, lastRoom, onward⟩ := mem_followers_iff.mp (List.mem_of_mem_take onPage)
      refine ⟨sentOwn.inPhase _,
        Nat.le_trans above (Nat.le_of_lt onward),
        ⟨last, grows.kept last lastStored, lastRoom, rfl⟩, ?_⟩
      rw [store, same]
      exact ahead_of_page (sentOwn.room) ahead listed none ends
  | takes owner sent after page reply phase same listed taken =>
    have before := repliedTo owner sent after phase
    rw [AutomationRun.Known, phase] at known still
    obtain ⟨_, above, _, ahead⟩ := known
    obtain ⟨sentOwn, _⟩ := still
    have reply := caused_of_page sentOwn.room above ahead before listed taken
    exact ⟨sentOwn.inPhase _, reply.1, since _ _ reply.2⟩
  | records sent reply phase =>
    rw [AutomationRun.Known, phase] at still
    obtain ⟨sentOwn, answers, reply⟩ := still
    exact ⟨sentOwn.inPhase _, answers, reply⟩

end Moves

section Credit

variable {isAlphanumeric : Char → Bool} {budgets : HandoffBudgets} {actions : List RoomAction}

/-- The rooms of a run are quiet at every step of it. -/
abbrev QuietRun (isAlphanumeric : Char → Bool) (budgets : HandoffBudgets)
    (actions : List RoomAction) : Prop :=
  EachStep (AutomatedRooms.step isAlphanumeric budgets) AutomatedRooms.start
    (fun rooms action => rooms.Quiet isAlphanumeric budgets action) actions

theorem CausedBefore.later {moment : Nat} {key : DeliveryKey} {reply : Message}
    (caused : CausedBefore isAlphanumeric budgets actions moment key reply) :
    CausedBefore isAlphanumeric budgets actions (moment + 1) key reply := by
  obtain ⟨earlier, before, rest⟩ := caused
  exact ⟨earlier, Nat.lt_succ_of_lt before, rest⟩

/-- What every run knows in every state of a quiet run. -/
structure KnownAt (isAlphanumeric : Char → Bool) (budgets : HandoffBudgets)
    (actions : List RoomAction) (moment : Nat) (rooms : AutomatedRooms) : Prop where
  sends : SendsReplied rooms (CausedBefore isAlphanumeric budgets actions moment)
  runs : ∀ run ∈ rooms.runs,
    run.Known rooms (CausedBefore isAlphanumeric budgets actions moment)

theorem KnownAt.rest {moment : Nat} {rooms : AutomatedRooms}
    (known : KnownAt isAlphanumeric budgets actions moment rooms) :
    KnownAt isAlphanumeric budgets actions (moment + 1) rooms := by
  constructor
  · intro key member
    obtain ⟨sent, found, replied⟩ := known.sends key member
    refine ⟨sent, found, ?_⟩
    intro message stored follows
    obtain ⟨first, firstStored, firstFollows, below, caused⟩ := replied message stored follows
    exact ⟨first, firstStored, firstFollows, below, caused.later⟩
  · intro run member
    exact (known.runs run member).grows (Grows.of_same rfl) (fun _ => id)
      (fun _ _ caused => caused.later)

theorem KnownAt.step {moment : Nat} {action : RoomAction} (present : actions[moment]? = some action)
    (quiet :
      (automatedAt isAlphanumeric budgets actions moment).Quiet isAlphanumeric budgets action)
    (known : KnownAt isAlphanumeric budgets actions moment
      (automatedAt isAlphanumeric budgets actions moment)) :
    KnownAt isAlphanumeric budgets actions (moment + 1)
      ((automatedAt isAlphanumeric budgets actions moment).step isAlphanumeric budgets action) := by
  have since : ∀ key message, CausedBefore isAlphanumeric budgets actions moment key message →
      CausedBefore isAlphanumeric budgets actions (moment + 1) key message :=
    fun _ _ caused => caused.later
  have next : automatedAt isAlphanumeric budgets actions (moment + 1) =
      (automatedAt isAlphanumeric budgets actions moment).step isAlphanumeric budgets action :=
    stateAt_succ _ _ present
  constructor
  · apply sendsReplied_step known.sends quiet since
    intro key message reply new stored
    exact ⟨moment, Nat.lt_succ_self moment, action, present, reply, new, next ▸ stored⟩
  · have old : ∀ run ∈ (automatedAt isAlphanumeric budgets actions moment).runs,
        (∀ key ∈ (automatedAt isAlphanumeric budgets actions moment).sends,
          key ∈ ((automatedAt isAlphanumeric budgets actions moment).step isAlphanumeric budgets
            action).sends) →
        run.Known ((automatedAt isAlphanumeric budgets actions moment).step isAlphanumeric budgets
          action) (CausedBefore isAlphanumeric budgets actions (moment + 1)) :=
      fun run member sends => (known.runs run member).grows
        (grows_automated isAlphanumeric budgets _ action) sends since
    cases action with
    | room | report => exact fun run member => old run member (fun _ => id)
    | start automation room =>
      intro run member
      rcases List.mem_append.mp member with before | added
      · exact old run before (fun _ => id)
      · rw [List.mem_singleton.mp added]
        trivial
    | advance index move =>
      cases found : (automatedAt isAlphanumeric budgets actions moment).runs[index]? with
      | none =>
        have same : (automatedAt isAlphanumeric budgets actions moment).step isAlphanumeric budgets
            (.advance index move) = automatedAt isAlphanumeric budgets actions moment := by
          simp only [AutomatedRooms.step, found]
        rw [same] at old ⊢
        exact fun run member => old run member (fun _ => id)
      | some mover =>
        intro run member
        rw [advance_eq found] at member
        rcases List.mem_or_eq_of_mem_set member with before | rfl
        · apply old run before
          intro key sent
          rw [advance_eq found]
          exact List.mem_append_left _ sent
        · exact known_move found (known.runs mover (List.mem_of_getElem? found)) known.sends quiet
            since

theorem knownAt (quiet : QuietRun isAlphanumeric budgets actions) (moment : Nat) :
    KnownAt isAlphanumeric budgets actions moment
      (automatedAt isAlphanumeric budgets actions moment) := by
  induction moment with
  | zero => exact ⟨fun _ member => absurd member List.not_mem_nil,
      fun _ member => absurd member List.not_mem_nil⟩
  | succ moment ih =>
    rcases stateAt_next (AutomatedRooms.step isAlphanumeric budgets) AutomatedRooms.start actions
      moment with ⟨action, present, next⟩ | ⟨_, next⟩
    · rw [automatedAt, next]
      exact ih.step present (quiet moment action present)
    · rw [automatedAt, next]
      exact ih.rest

/-- In a quiet run every run of automation that is answered, or has recorded a result, is credited
with a reply to the message that it sent. -/
theorem automation_credited (quiet : QuietRun isAlphanumeric budgets actions) (moment : Nat)
    (run : AutomationRun) (member : run ∈ (automatedAt isAlphanumeric budgets actions moment).runs)
    (sent reply : Message)
    (reached : run.phase = .answered sent reply ∨ run.phase = .succeeded sent reply) :
    run.Credited isAlphanumeric budgets actions moment sent reply := by
  have known := (knownAt quiet moment).runs run member
  rcases reached with phase | phase
  · rw [AutomationRun.Known, phase] at known
    exact ⟨known.1, known.2.1, known.2.2⟩
  · rw [AutomationRun.Known, phase] at known
    exact ⟨known.1, known.2.1, known.2.2⟩

/-- The owner has a schedule ask agent 1 of its room. -/
def dailySummary : Automation := .occurrence 7 0 1 "Summarise the day."

/-- A worker's turn on the delivery of a message to agent 1, up to its reply. -/
def turnOn (message : MessageId) : List RoomAction :=
  [.room (.claim 0 ⟨message, 1⟩ 1 .none), .room (.locate 0 .none), .room (.authorize 0 .none),
    .room (.brief 0 .none), .room (.run 0 (.reply "It is noon.")), .room (.gate 0 .none)]

/-- The run sends its message under an identity. -/
def scheduledSend (message : MessageId) : List RoomAction :=
  [.start dailySummary 0, .advance 0 (.address .none), .advance 0 (.check .none),
    .advance 0 (.send message 1 .none)]

/-- The worker's reply is stored, and the run takes what it finds for its result. -/
def replyAndRecord (reply : MessageId) : List RoomAction :=
  [.room (.send 0 reply 2 .none), .advance 0 (.poll .none), .advance 0 (.record true)]

def ownReply : List RoomAction :=
  .room (.transact (openRoom 2)) :: (scheduledSend 1 ++ turnOn 1 ++ replyAndRecord 2)

/-- The agent is still at work on what the owner said when the run sends. -/
def foreignReply : List RoomAction :=
  .room (.transact (openRoom 2)) :: .room (.transact (.send (ownerMessage [1]) 1 0)) ::
    (turnOn 1 ++ scheduledSend 2 ++ replyAndRecord 3)

def summaryMessage (id : MessageId) (sequence : Nat) : Message :=
  (AutomationRun.request ⟨dailySummary, 0, .opened⟩ 0 1).message id sequence 1

/-- The reply of agent 1 to the first message of the room. -/
def noonReply (id : MessageId) (sequence : Nat) : Message :=
  { id
    conversationId := 0
    threadRoot := some 1
    author := .agent 1
    serverSequence := sequence
    clientRequestId := "delivery:1:1"
    kind := .text
    body := some "It is noon."
    attachmentRefs := []
    taskRef := none
    turnRef := none
    sourceEventRef := none
    createdAt := 2 }

theorem automation_credited_ownReply :
    AutomationRun.Credited Char.isAlphanum .default ownReply 14
      ⟨dailySummary, 0, .succeeded (summaryMessage 1 1) (noonReply 2 2)⟩ (summaryMessage 1 1)
      (noonReply 2 2) := by
  refine automation_credited (eachStep_of_lt ?_) 14 _ ?_ _ _ (Or.inr rfl)
  · decide +kernel
  · decide +kernel

/-- The reply to the owner is recorded as the result of the run, whose message has none. -/
theorem foreign_reply_credited :
    ⟨dailySummary, 0, .succeeded (summaryMessage 2 2) (noonReply 3 3)⟩ ∈
        (automatedAt Char.isAlphanum .default foreignReply 15).runs ∧
      repliesTo (automatedAt Char.isAlphanum .default foreignReply 15).store ⟨2, 1⟩ = [] ∧
      ¬ AutomationRun.Credited Char.isAlphanum .default foreignReply 15
        ⟨dailySummary, 0, .succeeded (summaryMessage 2 2) (noonReply 3 3)⟩ (summaryMessage 2 2)
        (noonReply 3 3) := by
  have others : ∀ earlier < 15, ∀ action ∈ foreignReply[earlier]?, action.replies?
      (automatedAt Char.isAlphanum .default foreignReply earlier).system ≠ some ⟨2, 1⟩ := by
    decide +kernel
  refine ⟨by decide +kernel, by decide +kernel, fun credited => ?_⟩
  obtain ⟨earlier, before, action, present, replies, _⟩ := credited.caused
  exact others earlier before action present replies

end Credit

end OHHive.Bots
