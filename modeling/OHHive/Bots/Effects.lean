import OHHive.Bots.Store

/-! What each Bots transaction can do: one inversion lemma per transaction, and the
frame facts of the table writers they share. -/

namespace OHHive.Bots

open Foundation

namespace Store

theorem delivery?_updateDeliveries (store : Store) (selects : AgentDelivery → Bool)
    (change : AgentDelivery → AgentDelivery) (fixed) (key : DeliveryKey) :
    (store.updateDeliveries selects change fixed).1.delivery? key =
      (store.delivery? key).map (fun delivery =>
        if selects delivery then change delivery else delivery) :=
  Table.lookup_updateWhere _ _ _ fixed _

theorem delivery?_eq_some_iff {store : Store} {key : DeliveryKey} {delivery : AgentDelivery} :
    store.delivery? key = some delivery ↔
      delivery ∈ store.deliveries.rows ∧ delivery.key = key :=
  Table.lookup_eq_some_iff _ _ _

theorem key_of_delivery? {store : Store} {key : DeliveryKey} {delivery : AgentDelivery}
    (found : store.delivery? key = some delivery) : delivery.key = key :=
  (delivery?_eq_some_iff.mp found).2

/-- Some row was updated exactly when the selection holds of a stored row. -/
theorem updated_ne_zero_iff (store : Store) (selects : AgentDelivery → Bool)
    (change : AgentDelivery → AgentDelivery) (fixed) :
    (store.updateDeliveries selects change fixed).2 ≠ 0 ↔
      ∃ delivery ∈ store.deliveries.rows, selects delivery = true := by
  simp [updateDeliveries, List.length_eq_zero_iff, List.filter_eq_nil_iff]

theorem mem_of_message? {store : Store} {id : MessageId} {message : Message}
    (found : store.message? id = some message) : message ∈ store.messages.rows :=
  List.mem_of_find?_eq_some found

theorem id_of_message? {store : Store} {id : MessageId} {message : Message}
    (found : store.message? id = some message) : message.id = id := by
  simpa using List.find?_some found

theorem message?_eq_some_iff {store : Store} {id : MessageId} {message : Message} :
    store.message? id = some message ↔ message ∈ store.messages.rows ∧ message.id = id :=
  store.messages.find?_eq_some_iff (fun _ _ => Message.Clash.symm) Message.id
    (fun _ _ => Or.inl) id message

theorem message?_isSome_iff {store : Store} {id : MessageId} :
    (store.message? id).isSome ↔ ∃ message ∈ store.messages.rows, message.id = id := by
  rw [Option.isSome_iff_exists]
  constructor
  · intro ⟨message, found⟩
    exact ⟨message, message?_eq_some_iff.mp found⟩
  · intro ⟨message, stored⟩
    exact ⟨message, message?_eq_some_iff.mpr stored⟩

theorem messageByRequest?_eq_some_iff {store : Store} {conversation : ConversationId}
    {request : String} {message : Message} :
    store.messageByRequest? conversation request = some message ↔
      message ∈ store.messages.rows ∧ message.conversationId = conversation ∧
        message.clientRequestId = request := by
  constructor
  · intro found
    refine ⟨List.mem_of_find?_eq_some found, ?_⟩
    simpa using List.find?_some found
  · intro ⟨member, room, key⟩
    cases found : store.messageByRequest? conversation request with
    | none =>
      have absent := List.find?_eq_none.mp found message member
      simp [room, key] at absent
    | some other =>
      have stored : other.conversationId = conversation ∧ other.clientRequestId = request := by
        simpa using List.find?_some found
      have clash : other.Clash message :=
        Or.inr ⟨stored.1.trans room.symm, Or.inr (stored.2.trans key.symm)⟩
      rw [store.messages.eq_of_clash (fun _ _ => Message.Clash.symm)
        (List.mem_of_find?_eq_some found) member clash]

theorem messageByRequest?_eq_none_iff {store : Store} {conversation : ConversationId}
    {request : String} :
    store.messageByRequest? conversation request = none ↔
      ∀ message ∈ store.messages.rows,
        ¬ (message.conversationId = conversation ∧ message.clientRequestId = request) := by
  simp [messageByRequest?, List.find?_eq_none]

/-- An inserted message extends the table and meets its references and unique keys. -/
theorem insertMessage_ok {store next : Store} {message : Message}
    (inserted : store.insertMessage message = .ok next) :
    (store.conversation? message.conversationId).isSome ∧
      store.messages.Fits message ∧
      next = { store with messages := next.messages } ∧
      next.messages.rows = store.messages.rows ++ [message] := by
  simp only [insertMessage, bind_eq_ok_iff, require_eq_ok_iff, exists_const, orFail_eq_ok_iff,
    pure_eq_ok_iff] at inserted
  obtain ⟨room, _, messages, added, rfl⟩ := inserted
  obtain ⟨fits, rows⟩ := Table.insert?_eq_some_iff.mp added
  exact ⟨room, fits, rfl, rows⟩

theorem insertDelivery_ok {store next : Store} {delivery : AgentDelivery}
    (inserted : store.insertDelivery delivery = .ok next) :
    (store.agent? delivery.key.recipient).isSome ∧
      (∀ root ∈ delivery.rootMessageId, (store.message? root).isSome) ∧
      store.delivery? delivery.key = none ∧
      next = { store with deliveries := next.deliveries } ∧
      next.deliveries.rows = store.deliveries.rows ++ [delivery] := by
  simp only [insertDelivery, bind_eq_ok_iff, require_eq_ok_iff, exists_const, orFail_eq_ok_iff,
    pure_eq_ok_iff] at inserted
  obtain ⟨_, agent, _, root, deliveries, added, rfl⟩ := inserted
  obtain ⟨fits, rows⟩ := Table.insert?_eq_some_iff.mp added
  refine ⟨agent, root, ?_, rfl, rows⟩
  exact (Table.lookup_eq_none_iff _ _).mpr fits

/-- A batch of deliveries is appended as a whole, every key of it new and distinct. -/
theorem insertDeliveries_ok {deliveries : List AgentDelivery} {store next : Store}
    (inserted : store.insertDeliveries deliveries = .ok next) :
    next = { store with deliveries := next.deliveries } ∧
      next.deliveries.rows = store.deliveries.rows ++ deliveries ∧
      (∀ delivery ∈ deliveries, (store.agent? delivery.key.recipient).isSome ∧
        (∀ root ∈ delivery.rootMessageId, (store.message? root).isSome) ∧
        store.delivery? delivery.key = none) ∧
      (deliveries.map AgentDelivery.key).Nodup := by
  induction deliveries generalizing store with
  | nil =>
    simp only [insertDeliveries, pure_eq_ok_iff] at inserted
    subst inserted
    simp
  | cons first rest ih =>
    simp only [insertDeliveries, bind_eq_ok_iff] at inserted
    obtain ⟨middle, firstInserted, restInserted⟩ := inserted
    obtain ⟨agent, root, absent, frame, rows⟩ := insertDelivery_ok firstInserted
    obtain ⟨restFrame, restRows, fresh, distinct⟩ := ih restInserted
    rw [frame] at fresh restFrame
    refine ⟨restFrame, by rw [restRows, rows, List.append_assoc]; rfl, ?_, ?_⟩
    · intro delivery member
      rcases List.mem_cons.mp member with same | later
      · exact same ▸ ⟨agent, root, absent⟩
      · obtain ⟨laterAgent, laterRoot, laterAbsent⟩ := fresh delivery later
        refine ⟨laterAgent, laterRoot, ?_⟩
        have missing := (Table.lookup_eq_none_iff middle.deliveries delivery.key).mp laterAbsent
        apply (Table.lookup_eq_none_iff _ _).mpr
        intro stored storedMember
        exact missing stored (by rw [rows]; exact List.mem_append_left _ storedMember)
    · simp only [List.map_cons, List.nodup_cons]
      refine ⟨?_, distinct⟩
      intro again
      obtain ⟨later, laterMember, sameKey⟩ := List.mem_map.mp again
      have missing := (Table.lookup_eq_none_iff middle.deliveries later.key).mp
        (fresh later laterMember).2.2
      exact missing first (by rw [rows]; simp) sameKey.symm

end Store

theorem readI64_ok {stored value : Nat} (read : readI64 stored = .ok value) :
    value = stored ∧ stored ≤ i64Max := by
  unfold readI64 at read
  split at read
  · rename_i bounded
    exact ⟨(Except.ok.inj read).symm, bounded⟩
  · cases read

theorem asI64_ok {number value : Nat} (cast : asI64 number = .ok value) : value = number := by
  unfold asI64 at cast
  split at cast
  · exact (Except.ok.inj cast).symm
  · cases cast

theorem readDelivery_ok {delivery value : AgentDelivery}
    (read : readDelivery delivery = .ok value) :
    value = delivery ∧ delivery.leaseGeneration ≤ i64Max := by
  simp only [readDelivery, bind_eq_ok_iff, pure_eq_ok_iff] at read
  obtain ⟨_, generation, _, _, same⟩ := read
  exact ⟨same.symm, (readI64_ok generation).2⟩

theorem botsDeliveryRow_ok {store : Store} {key : DeliveryKey} {delivery : AgentDelivery}
    (read : botsDeliveryRow store key = .ok delivery) :
    store.delivery? key = some delivery ∧ delivery.leaseGeneration ≤ i64Max := by
  simp only [botsDeliveryRow, bind_eq_ok_iff, orFail_eq_ok_iff] at read
  obtain ⟨stored, found, value⟩ := read
  obtain ⟨same, bounded⟩ := readDelivery_ok value
  exact ⟨same ▸ found, same ▸ bounded⟩

/-- Either the request key was already stored and nothing happens, or the message and all
its deliveries are appended. -/
theorem sendInsert_ok {store next : Store} {request : SendRequest} {id sent : MessageId}
    {ts : Int} (done : sendInsert store request id ts = .ok (next, sent)) :
    (∃ existing, store.messageByRequest? request.conversationId request.clientRequestId =
        some existing ∧ next = store ∧ sent = existing.id) ∨
    (store.messageByRequest? request.conversationId request.clientRequestId = none ∧ sent = id ∧
      next = { store with messages := next.messages, deliveries := next.deliveries } ∧
      next.messages.rows = store.messages.rows ++
        [request.message id (store.nextSequence request.conversationId) ts] ∧
      store.messages.Fits (request.message id (store.nextSequence request.conversationId) ts) ∧
      next.deliveries.rows = store.deliveries.rows ++ request.deliveries id ts ∧
      (∀ delivery ∈ request.deliveries id ts, (store.agent? delivery.key.recipient).isSome ∧
        (∀ root ∈ delivery.rootMessageId, (next.message? root).isSome) ∧
        store.delivery? delivery.key = none) ∧
      ((request.deliveries id ts).map AgentDelivery.key).Nodup) := by
  unfold sendInsert at done
  split at done
  · rename_i existing found
    obtain ⟨rfl, rfl⟩ := Prod.mk.inj (Except.ok.inj done)
    exact Or.inl ⟨existing, found, rfl, rfl⟩
  · rename_i absent
    right
    simp only [bind_eq_ok_iff, pure_eq_ok_iff, Prod.mk.injEq] at done
    obtain ⟨stored, messageInserted, delivered, deliveriesInserted, rfl, rfl⟩ := done
    obtain ⟨_, fits, frame, rows⟩ := Store.insertMessage_ok messageInserted
    obtain ⟨deliveredFrame, deliveredRows, fresh, distinct⟩ :=
      Store.insertDeliveries_ok deliveriesInserted
    rw [frame] at deliveredFrame deliveredRows fresh
    refine ⟨absent, rfl, ?_, ?_, fits, deliveredRows, ?_, distinct⟩
    · rw [deliveredFrame]
    · rw [deliveredFrame]
      exact rows
    · rw [deliveredFrame]
      exact fresh

theorem Store.step_of_perform {store next : Store} {op : Op}
    (done : op.perform store = .ok next) : store.step op = next := by
  simp only [Store.step, done]

section Success

private theorem le_foldl_max {numbers : List Nat} {number start : Nat}
    (member : number ∈ numbers ∨ number ≤ start) : number ≤ numbers.foldl max start := by
  induction numbers generalizing start with
  | nil => simpa using member
  | cons first rest ih =>
    apply ih
    rcases member with listed | below
    · rcases List.mem_cons.mp listed with rfl | later
      · exact Or.inr (Nat.le_max_right _ _)
      · exact Or.inl later
    · exact Or.inr (Nat.le_trans below (Nat.le_max_left _ _))

/-- The next sequence number is used by no message of the room. -/
theorem sequence_lt_next {store : Store} {message : Message}
    (member : message ∈ store.messages.rows) :
    message.serverSequence < store.nextSequence message.conversationId := by
  apply Nat.lt_succ_of_le
  apply le_foldl_max
  left
  apply List.mem_map_of_mem
  exact List.mem_filter.mpr ⟨member, by simp⟩

theorem Store.insertMessage_succeeds {store : Store} {message : Message}
    (room : (store.conversation? message.conversationId).isSome)
    (thread : ∀ root ∈ message.threadRoot, root = message.id ∨ (store.message? root).isSome)
    (fits : store.messages.Fits message) :
    ∃ next, store.insertMessage message = .ok next := by
  obtain ⟨messages, inserted⟩ : ∃ messages, store.messages.insert? message = some messages := by
    simp only [Table.insert?, fits, dite_true]
    exact ⟨_, rfl⟩
  refine ⟨{ store with messages }, ?_⟩
  simp only [Store.insertMessage, bind_eq_ok_iff, require_eq_ok_iff, exists_const,
    orFail_eq_ok_iff, pure_eq_ok_iff]
  exact ⟨room, thread, messages, inserted, rfl⟩

theorem Store.insertDeliveries_succeeds {deliveries : List AgentDelivery} {store : Store}
    (referenced : ∀ delivery ∈ deliveries,
      (store.message? delivery.key.messageId).isSome ∧
      (store.agent? delivery.key.recipient).isSome ∧
      (∀ cause ∈ delivery.causeMessageId, (store.message? cause).isSome) ∧
      ∀ root ∈ delivery.rootMessageId, (store.message? root).isSome)
    (fresh : ∀ delivery ∈ deliveries, store.delivery? delivery.key = none)
    (distinct : (deliveries.map AgentDelivery.key).Nodup) :
    ∃ next, store.insertDeliveries deliveries = .ok next := by
  induction deliveries generalizing store with
  | nil => exact ⟨store, rfl⟩
  | cons first rest ih =>
    obtain ⟨message, agent, cause, root⟩ := referenced first (by simp)
    have fits : store.deliveries.Fits first :=
      (Table.lookup_eq_none_iff _ _).mp (fresh first (by simp))
    obtain ⟨table, inserted⟩ : ∃ table, store.deliveries.insert? first = some table := by
      simp only [Table.insert?, fits, dite_true]
      exact ⟨_, rfl⟩
    have firstInserted : store.insertDelivery first = .ok { store with deliveries := table } := by
      simp only [Store.insertDelivery, bind_eq_ok_iff, require_eq_ok_iff, exists_const,
        orFail_eq_ok_iff, pure_eq_ok_iff]
      exact ⟨message, agent, cause, root, table, inserted, rfl⟩
    have distinctRest := List.nodup_cons.mp distinct
    obtain ⟨next, restInserted⟩ : ∃ next,
        Store.insertDeliveries { store with deliveries := table } rest = .ok next := ih
      (fun delivery member => referenced delivery (List.mem_cons_of_mem _ member))
      (by
        intro delivery member
        change table.lookup delivery.key = none
        rw [Table.lookup_insert? inserted, if_neg]
        · exact fresh delivery (List.mem_cons_of_mem _ member)
        · intro same
          exact distinctRest.1 (same ▸ List.mem_map_of_mem member))
      distinctRest.2
    refine ⟨next, ?_⟩
    simp only [Store.insertDeliveries, firstInserted, bind_eq_ok_iff]
    exact ⟨_, rfl, restInserted⟩

/-- A send under a new identity and a new request key succeeds when everything it refers to
is stored. -/
theorem sendInsert_succeeds {store : Store} {request : SendRequest} {id : MessageId} {ts : Int}
    (absent : store.messageByRequest? request.conversationId request.clientRequestId = none)
    (freshId : store.message? id = none)
    (room : (store.conversation? request.conversationId).isSome)
    (thread : ∀ root ∈ request.draft.threadRoot, (store.message? root).isSome)
    (agents : ∀ recipient ∈ request.recipientIds, (store.agent? recipient).isSome)
    (distinct : request.recipientIds.Nodup)
    (cause : ∀ cause ∈ request.cause, (store.message? cause.causeMessageId).isSome ∧
      (store.message? cause.rootMessageId).isSome)
    (stored : ∀ row ∈ store.deliveries.rows, (store.message? row.key.messageId).isSome) :
    ∃ next, sendInsert store request id ts = .ok (next, id) := by
  have fits : store.messages.Fits
      (request.message id (store.nextSequence request.conversationId) ts) := by
    intro other member clash
    rcases clash with same | ⟨room, sequence | key⟩
    · have present := Store.message?_isSome_iff.mpr ⟨other, member, same⟩
      simp [SendRequest.message, freshId] at present
    · have lower := sequence_lt_next member
      rw [room, sequence] at lower
      exact Nat.lt_irrefl _ lower
    · exact Store.messageByRequest?_eq_none_iff.mp absent other member ⟨room, key⟩
  obtain ⟨mid, inserted⟩ : ∃ mid, store.insertMessage
      (request.message id (store.nextSequence request.conversationId) ts) = .ok mid :=
    Store.insertMessage_succeeds room (fun root member => Or.inr (thread root member)) fits
  obtain ⟨_, _, frame, rows⟩ := Store.insertMessage_ok inserted
  have kept : ∀ {other : MessageId}, (store.message? other).isSome → (mid.message? other).isSome := by
    intro other present
    obtain ⟨message, member, same⟩ := Store.message?_isSome_iff.mp present
    exact Store.message?_isSome_iff.mpr ⟨message, by rw [rows]; simp [member], same⟩
  have own : (mid.message? id).isSome :=
    Store.message?_isSome_iff.mpr
      ⟨request.message id (store.nextSequence request.conversationId) ts, by rw [rows]; simp, rfl⟩
  have shape : ∀ delivery ∈ request.deliveries id ts,
      ∃ recipient ∈ request.recipientIds, delivery = request.delivery id ts recipient := by
    intro delivery member
    unfold SendRequest.deliveries at member
    split at member
    · exact absurd member List.not_mem_nil
    · obtain ⟨recipient, addressed, rfl⟩ := List.mem_map.mp member
      exact ⟨recipient, addressed, rfl⟩
  obtain ⟨next, delivered⟩ : ∃ next,
      mid.insertDeliveries (request.deliveries id ts) = .ok next := Store.insertDeliveries_succeeds
    (by
      intro delivery member
      obtain ⟨recipient, addressed, rfl⟩ := shape delivery member
      refine ⟨own, ?_, ?_, ?_⟩
      · rw [frame]
        exact agents recipient addressed
      · intro causeId isCause
        obtain ⟨whole, present, rfl⟩ := Option.map_eq_some_iff.mp isCause
        exact kept (cause whole present).1
      · intro root isRoot
        obtain rfl := Option.some.inj isRoot
        cases present : request.cause with
        | none => simpa using own
        | some whole =>
          simpa using kept (cause whole present).2)
    (by
      intro delivery member
      obtain ⟨recipient, _, rfl⟩ := shape delivery member
      apply (Table.lookup_eq_none_iff _ _).mpr
      intro row rowMember same
      rw [frame] at rowMember
      have present := stored row rowMember
      rw [same] at present
      simp [SendRequest.delivery, freshId] at present)
    (by
      unfold SendRequest.deliveries
      split
      · exact List.nodup_nil
      · rw [List.map_map]
        exact distinct.map (fun first second same => congrArg DeliveryKey.recipient same))
  refine ⟨next, ?_⟩
  simp only [sendInsert, absent, bind_eq_ok_iff, pure_eq_ok_iff]
  exact ⟨mid, inserted, next, delivered, rfl⟩

end Success

/-- A successful claim found the row claimable and returns it running, one generation on. -/
theorem claimWhere_ok {store next : Store} {key : DeliveryKey} {admits : Bool}
    {refusal : HubError} {ts : Int} {delivery : AgentDelivery}
    (done : claimWhere store key admits refusal ts = .ok (next, delivery)) :
    ∃ row, store.delivery? key = some row ∧ row.claimable ts = true ∧ admits = true ∧
      delivery = row.claimed ts ∧ delivery.leaseGeneration ≤ i64Max ∧
      next = (store.updateDeliveries
        (fun delivery => delivery.key = key && delivery.claimable ts && admits)
        (AgentDelivery.claimed ts) (AgentDelivery.key_claimed ts)).1 := by
  simp only [claimWhere, bind_eq_ok_iff, require_eq_ok_iff, exists_const, pure_eq_ok_iff, Prod.mk.injEq]
    at done
  obtain ⟨updated, row, read, rfl, rfl⟩ := done
  obtain ⟨stored, member, selected⟩ := (Store.updated_ne_zero_iff _ _ _ _).mp updated
  simp only [Bool.and_eq_true, decide_eq_true_eq] at selected
  obtain ⟨⟨same, claimable⟩, admitted⟩ := selected
  have found : store.delivery? key = some stored := Store.delivery?_eq_some_iff.mpr ⟨member, same⟩
  obtain ⟨after, bounded⟩ := botsDeliveryRow_ok read
  rw [Store.delivery?_updateDeliveries, found] at after
  simp only [Option.map_some, same, claimable, admitted, decide_true, Bool.and_self, if_true,
    Option.some.injEq] at after
  exact ⟨stored, found, claimable, admitted, after.symm, bounded, rfl⟩

theorem botsDeliveryClaim_ok {store next : Store} {key : DeliveryKey} {ts : Int}
    {delivery : AgentDelivery} (done : botsDeliveryClaim store key ts = .ok (next, delivery)) :
    ∃ row, store.delivery? key = some row ∧ row.claimable ts = true ∧
      delivery = row.claimed ts ∧ next.delivery? key = some delivery := by
  obtain ⟨row, found, claimable, _, returned, _, rfl⟩ := claimWhere_ok done
  refine ⟨row, found, claimable, returned, ?_⟩
  rw [Store.delivery?_updateDeliveries, found, returned]
  simp [Store.key_of_delivery? found, claimable]

/-- A poll reaps the agent's expired rows and otherwise only reads. -/
theorem botsDeliveriesPendingForAgent_ok {store next : Store} {agent : AgentId} {limit : Nat}
    {ts : Int} {deliveries : List AgentDelivery}
    (done : botsDeliveriesPendingForAgent store agent limit ts = .ok (next, deliveries)) :
    next = (store.updateDeliveries
      (fun delivery => delivery.key.recipient = agent && delivery.expired ts)
      (AgentDelivery.reaped ts) (AgentDelivery.key_reaped ts)).1 := by
  simp only [botsDeliveriesPendingForAgent, bind_eq_ok_iff, pure_eq_ok_iff, Prod.mk.injEq] at done
  obtain ⟨_, _, rfl, _⟩ := done
  rfl

/-- A notice is appended only when no reply to the delivery is stored in its room. -/
theorem insertFailureNotice_ok {store next : Store} {key : DeliveryKey} {generation : Nat}
    {ts : Int} {noticeId : MessageId}
    (done : insertFailureNotice store key generation ts noticeId = .ok next) :
    next = store ∨
      ∃ message conversation agent, store.message? key.messageId = some message ∧
        store.messageByRequest? message.conversationId (replyRequest key) = none ∧
        next = { store with messages := next.messages } ∧
        store.messages.Fits (failureNoticeRow key message conversation agent generation
          (store.nextSequence message.conversationId) noticeId ts) ∧
        next.messages.rows = store.messages.rows ++ [failureNoticeRow key message conversation
          agent generation (store.nextSequence message.conversationId) noticeId ts] := by
  unfold insertFailureNotice at done
  split at done
  · exact Or.inl (Except.ok.inj done).symm
  · rename_i message found
    split at done
    · rename_i conversation agent _ _
      split at done
      · exact Or.inl (Except.ok.inj done).symm
      · rename_i unreplied
        obtain ⟨_, fits, frame, rows⟩ := Store.insertMessage_ok done
        exact Or.inr ⟨message, conversation, agent, found, by simpa using unreplied, frame, fits,
          rows⟩
    · exact Or.inl (Except.ok.inj done).symm

theorem deliveries_of_insertFailureNotice {store next : Store} {key : DeliveryKey}
    {generation : Nat} {ts : Int} {noticeId : MessageId}
    (done : insertFailureNotice store key generation ts noticeId = .ok next) :
    next = { store with messages := next.messages } := by
  rcases insertFailureNotice_ok done with rfl | ⟨_, _, _, _, _, frame, _⟩
  · rfl
  · exact frame

/-- A resolution found the row running under the given generation; a final failure may add
its notice to the messages. -/
theorem botsDeliveryFinish_ok {store next : Store} {key : DeliveryKey} {generation : Nat}
    {status : DeliveryStatus} {retry : Option Int} {ts : Int} {noticeId : MessageId}
    {delivery : AgentDelivery}
    (done : botsDeliveryFinish store key generation status retry ts noticeId =
      .ok (next, delivery)) :
    ∃ row finished, store.delivery? key = some row ∧ row.leaseGeneration = generation ∧
      row.status = .running ∧
      finished = (store.updateDeliveries
        (fun delivery => delivery.key = key && delivery.leaseGeneration = generation &&
          delivery.status = .running)
        (AgentDelivery.finished status retry ts)
        (AgentDelivery.key_finished status retry ts)).1 ∧
      next = { finished with messages := next.messages } ∧
      (status = .failed ∧ insertFailureNotice finished key generation ts noticeId = .ok next ∨
        status ≠ .failed ∧ next = finished) := by
  simp only [botsDeliveryFinish, bind_eq_ok_iff, require_eq_ok_iff, exists_const, pure_eq_ok_iff,
    Prod.mk.injEq] at done
  obtain ⟨checked, cast, updated, noticed, notice, _, _, rfl, _⟩ := done
  obtain rfl := asI64_ok cast
  obtain ⟨row, member, selected⟩ := (Store.updated_ne_zero_iff _ _ _ _).mp updated
  simp only [Bool.and_eq_true, decide_eq_true_eq] at selected
  obtain ⟨⟨same, current⟩, running⟩ := selected
  refine ⟨row, _, Store.delivery?_eq_some_iff.mpr ⟨member, same⟩, current, running, rfl, ?_⟩
  split at notice
  · rename_i failed
    exact ⟨deliveries_of_insertFailureNotice notice, Or.inl ⟨failed, notice⟩⟩
  · rename_i other
    obtain rfl := Except.ok.inj notice
    exact ⟨rfl, Or.inr ⟨other, rfl⟩⟩

theorem delivery?_of_finish {store next : Store} {key : DeliveryKey} {generation : Nat}
    {status : DeliveryStatus} {retry : Option Int} {ts : Int} {noticeId : MessageId}
    {delivery : AgentDelivery}
    (done : botsDeliveryFinish store key generation status retry ts noticeId =
      .ok (next, delivery)) (other : DeliveryKey) :
    next.delivery? other = (store.delivery? other).map (fun delivery =>
      if delivery.key = key && delivery.leaseGeneration = generation &&
        delivery.status = .running then delivery.finished status retry ts else delivery) := by
  obtain ⟨row, finished, _, _, _, rfl, frame, _⟩ := botsDeliveryFinish_ok done
  rw [frame]
  exact Store.delivery?_updateDeliveries _ _ _ (AgentDelivery.key_finished status retry ts) other

/-- The resolved row itself, before and after. -/
theorem row_of_finish {store next : Store} {key : DeliveryKey} {generation : Nat}
    {status : DeliveryStatus} {retry : Option Int} {ts : Int} {noticeId : MessageId}
    {delivery : AgentDelivery}
    (done : botsDeliveryFinish store key generation status retry ts noticeId =
      .ok (next, delivery)) :
    ∃ row, store.delivery? key = some row ∧ row.leaseGeneration = generation ∧
      row.status = .running ∧ next.delivery? key = some (row.finished status retry ts) := by
  obtain ⟨row, _, found, current, running, _⟩ := botsDeliveryFinish_ok done
  refine ⟨row, found, current, running, ?_⟩
  rw [delivery?_of_finish done, found]
  simp only [Option.map_some, Store.key_of_delivery? found, current, running, decide_true,
    Bool.and_self, if_true]

/-- Only the author or the recipient cancels, and only what is not yet terminal. -/
theorem botsDeliveryCancel_ok {store next : Store} {actor : Principal} {key : DeliveryKey}
    {ts : Int} {delivery : AgentDelivery}
    (done : botsDeliveryCancel store actor key ts = .ok (next, delivery)) :
    ∃ row, store.delivery? key = some row ∧ row.status.isTerminal = false ∧
      next = (store.updateDeliveries (fun delivery => delivery.key = key)
        (AgentDelivery.cancelledAt ts) (AgentDelivery.key_cancelledAt ts)).1 := by
  simp only [botsDeliveryCancel, bind_eq_ok_iff, require_eq_ok_iff, exists_const, pure_eq_ok_iff,
    orFail_eq_ok_iff, Prod.mk.injEq] at done
  obtain ⟨row, found, _, _, _, nonterminal, _, _, rfl, _⟩ := done
  exact ⟨row, found, nonterminal, rfl⟩

theorem botsDeliveriesReleaseRoot_ok {store next : Store} {root : MessageId} {ts : Int}
    {count : Nat} (done : botsDeliveriesReleaseRoot store root ts = .ok (next, count)) :
    next = (store.updateDeliveries
      (fun delivery => delivery.rootMessageId = some root && delivery.status = .held)
      (AgentDelivery.released ts) (AgentDelivery.key_released ts)).1 := by
  simp only [botsDeliveriesReleaseRoot, bind_eq_ok_iff, pure_eq_ok_iff, Prod.mk.injEq] at done
  obtain ⟨_, _, rfl, _⟩ := done
  rfl

/-- A publication is a replay of the stored reply, or it posts the reply and resolves the
running delivery of the given generation together. -/
theorem botsPublishSubscription_ok {store next : Store} {binding : Binding} {operation : Uuid}
    {generation : Nat} {reply : CompletedReply} {id sent : MessageId} {ts : Int}
    (done : botsPublishSubscription store binding operation generation reply id ts =
      .ok (next, sent)) :
    next = store ∨
      ∃ row message, ∃ posted : Store, store.delivery? ⟨operation, binding.agent⟩ = some row ∧
        row.leaseGeneration = generation ∧ row.status = .running ∧
        store.message? operation = some message ∧
        message.conversationId = binding.conversation ∧
        store.messageByRequest? binding.conversation (replyRequest ⟨operation, binding.agent⟩) =
          none ∧
        posted = { store with messages := posted.messages } ∧
        store.messages.Fits (publishedRow binding operation reply
          (message.threadRoot.getD operation) (store.nextSequence binding.conversation) id ts) ∧
        posted.messages.rows = store.messages.rows ++ [publishedRow binding operation reply
          (message.threadRoot.getD operation) (store.nextSequence binding.conversation) id ts] ∧
        next = (posted.updateDeliveries
          (fun delivery => delivery.key = ⟨operation, binding.agent⟩)
          (AgentDelivery.published binding reply ts)
          (AgentDelivery.key_published binding reply ts)).1 := by
  simp only [botsPublishSubscription, bind_eq_ok_iff, require_eq_ok_iff, exists_const,
    orFail_eq_ok_iff] at done
  obtain ⟨checked, cast, _, _, _, _, _, row, found, message, stored, ⟨current, _⟩, body⟩ := done
  obtain rfl := asI64_ok cast
  simp only [Option.filter_eq_some_iff, decide_eq_true_eq] at stored
  split at body
  · simp only [bind_eq_ok_iff, require_eq_ok_iff, exists_const, pure_eq_ok_iff,
      Prod.mk.injEq] at body
    exact Or.inl body.2.1.symm
  · rename_i unreplied
    simp only [bind_eq_ok_iff, require_eq_ok_iff, exists_const, pure_eq_ok_iff,
      Prod.mk.injEq] at body
    obtain ⟨running, posted, inserted, rfl, _⟩ := body
    obtain ⟨_, fits, frame, rows⟩ := Store.insertMessage_ok inserted
    exact Or.inr ⟨row, message, posted, found, current, running, stored.1, stored.2, unreplied,
      frame, fits, rows, rfl⟩

theorem administerTables_ok {store next : Store}
    {agents : Table AgentProfile (Table.SameKey AgentProfile.id)}
    {conversations : Table Conversation (Table.SameKey Conversation.id)}
    {members : Table ConversationMember (Table.SameKey ConversationMember.key)}
    (done : administerTables store agents conversations members = .ok next) :
    (∀ agent ∈ store.agents.rows, (agents.lookup agent.id).isSome) ∧
      (∀ room ∈ store.conversations.rows, (conversations.lookup room.id).isSome) ∧
      next = { store with agents, conversations, members } := by
  simp only [administerTables, bind_eq_ok_iff, require_eq_ok_iff, exists_const,
    pure_eq_ok_iff] at done
  obtain ⟨profiles, rooms, rfl⟩ := done
  exact ⟨profiles, rooms, rfl⟩

end OHHive.Bots
