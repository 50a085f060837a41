import OHHive.Bots.Replies

/-! What a subscription's publication leaves in the hub: the agent's reply under the key of its
delivery, and the delivery done. Nothing takes it away, and publishing again only finds it. -/

namespace OHHive.Bots

open Foundation

section Sources

private theorem toList_subscriptionSource (binding : Binding) (operation : Uuid)
    (reply : CompletedReply) :
    (subscriptionSource binding operation reply).toList = (toString "subscription:").toList ++
      (Nat.toDigits 10 binding.session.value ++ ':' ::
        (Nat.toDigits 10 operation.value ++ ':' :: reply.receipt.toList)) := by
  unfold subscriptionSource
  -- The literal stays closed: matching a literal against a concatenation unfolds it.
  generalize toString "subscription:" = head
  simp only [String.toList_append, toList_uuid, List.append_assoc]
  rfl

/-- A text is cut at the first occurrence of a mark in only one way. -/
private theorem eq_of_cut {first second rest others : List Char} {mark : Char}
    (inFirst : mark ∉ first) (inSecond : mark ∉ second)
    (same : first ++ mark :: rest = second ++ mark :: others) : first = second ∧ rest = others := by
  induction first generalizing second with
  | nil =>
    cases second with
    | nil => exact ⟨rfl, (List.cons.inj same).2⟩
    | cons char chars =>
      obtain ⟨rfl, _⟩ := List.cons.inj same
      exact absurd List.mem_cons_self inSecond
  | cons char chars ih =>
    cases second with
    | nil =>
      obtain ⟨rfl, _⟩ := List.cons.inj same
      exact absurd List.mem_cons_self inFirst
    | cons other others =>
      obtain ⟨rfl, later⟩ := List.cons.inj same
      obtain ⟨rfl, left⟩ := ih (fun member => inFirst (List.mem_cons_of_mem _ member))
        (fun member => inSecond (List.mem_cons_of_mem _ member)) later
      exact ⟨rfl, left⟩

/-- The source of a reply determines its session and its receipt. -/
theorem subscriptionSource_injective {first second : Binding} {operation : Uuid}
    {reply other : CompletedReply}
    (same : subscriptionSource first operation reply =
      subscriptionSource second operation other) :
    first.session = second.session ∧ reply.receipt = other.receipt := by
  have chars := congrArg String.toList same
  rw [toList_subscriptionSource first operation reply,
    toList_subscriptionSource second operation other] at chars
  obtain ⟨session, rest⟩ := eq_of_cut (colon_notMem_toDigits _) (colon_notMem_toDigits _)
    (List.append_cancel_left chars)
  obtain ⟨_, receipt⟩ := eq_of_cut (colon_notMem_toDigits _) (colon_notMem_toDigits _) rest
  exact ⟨eq_of_toDigits session, String.toList_inj.mp receipt⟩

theorem subscriptionSource_of_session {first second : Binding}
    (same : first.session = second.session) (operation : Uuid) (reply : CompletedReply) :
    subscriptionSource first operation reply = subscriptionSource second operation reply := by
  unfold subscriptionSource
  rw [same]

end Sources

section Publications

def Op.isPublication : Op → Bool
  | .publishSubscription _ _ _ _ _ _ => true
  | _ => false

/-- Every reference of the binding is current, and its agent may post. -/
def Store.MayPublish (store : Store) (binding : Binding) : Prop :=
  ∃ policy actions, parseU32 binding.policyRevision = some policy ∧
    boundActions store binding policy = some actions ∧ MemberAction.post ∈ actions

/-- The message is the agent's reply, in the thread of the message it answers. -/
structure Message.Carries (message : Message) (binding : Binding) (operation : Uuid)
    (reply : CompletedReply) (root : MessageId) : Prop where
  room : message.conversationId = binding.conversation
  request : message.clientRequestId = replyRequest ⟨operation, binding.agent⟩
  author : message.author = .agent binding.agent
  body : message.body = some reply.text
  turn : message.turnRef = some reply.turn
  source : message.sourceEventRef = some (subscriptionSource binding operation reply)
  root : message.threadRoot = some root
  kind : message.kind = .text

/-- The hub holds the reply that a publication under this generation has stored or found. -/
structure Store.Published (store : Store) (binding : Binding) (operation : Uuid)
    (generation : Nat) (reply : CompletedReply) (id : MessageId) : Prop where
  bounds : generation ≠ 0 ∧ generation ≤ i64Max
  delivery : ∃ row, store.delivery? ⟨operation, binding.agent⟩ = some row ∧
    row.status = .done ∧ row.leaseGeneration = generation
  message : ∃ incoming message, store.message? operation = some incoming ∧
    incoming.conversationId = binding.conversation ∧ store.message? id = some message ∧
    message.Carries binding operation reply (incoming.threadRoot.getD operation)

variable {store next : Store} {binding other : Binding} {operation : Uuid} {generation : Nat}
  {reply : CompletedReply} {id sent : MessageId} {ts : Int}

theorem asI64_eq_ok_iff {number value : Nat} :
    asI64 number = .ok value ↔ number ≤ i64Max ∧ value = number := by
  unfold asI64
  split
  · rename_i fits
    simp [fits, eq_comm]
  · rename_i over64
    simp [over64]

/-- A publication that is answered leaves its reply in the hub. -/
theorem published_of_publish
    (done : botsPublishSubscription store binding operation generation reply id ts =
      .ok (next, sent)) : next.Published binding operation generation reply sent := by
  simp only [botsPublishSubscription, bind_eq_ok_iff, require_eq_ok_iff, exists_const,
    orFail_eq_ok_iff, asI64_eq_ok_iff] at done
  obtain ⟨_, ⟨fits, rfl⟩, _, _, _, _, _, row, found, incoming, stored, ⟨current, positive⟩, body⟩ :=
    done
  simp only [Option.filter_eq_some_iff, decide_eq_true_eq] at stored
  cases existing : store.messageByRequest? binding.conversation
      (replyRequest ⟨operation, binding.agent⟩) with
  | some message =>
    simp only [existing, bind_eq_ok_iff, require_eq_ok_iff, exists_const, pure_eq_ok_iff,
      Prod.mk.injEq] at body
    obtain ⟨⟨finished, author, text, turn, source, root, kind⟩, rfl, rfl⟩ := body
    obtain ⟨member, room, request⟩ := Store.messageByRequest?_eq_some_iff.mp existing
    exact ⟨⟨positive, fits⟩, ⟨row, found, finished, current⟩, incoming, message, stored.1, stored.2,
      Store.message?_eq_some_iff.mpr ⟨member, rfl⟩,
      ⟨room, request, author, text, turn, source, root, kind⟩⟩
  | none =>
    simp only [existing, bind_eq_ok_iff, require_eq_ok_iff, exists_const, pure_eq_ok_iff,
      Prod.mk.injEq] at body
    obtain ⟨running, posted, inserted, rfl, rfl⟩ := body
    obtain ⟨_, _, frame, rows⟩ := Store.insertMessage_ok inserted
    refine ⟨⟨positive, fits⟩, ⟨row.published binding reply ts, ?_, rfl, current⟩, incoming,
      publishedRow binding operation reply (incoming.threadRoot.getD operation)
        (store.nextSequence binding.conversation) id ts, ?_, stored.2, ?_,
      ⟨rfl, rfl, rfl, rfl, rfl, rfl, rfl, rfl⟩⟩
    · rw [Store.delivery?_updateDeliveries, frame]
      change (store.delivery? _).map _ = _
      rw [found, Option.map_some, if_pos (by simp [Store.key_of_delivery? found])]
    · obtain ⟨member, same⟩ := Store.message?_eq_some_iff.mp stored.1
      refine Store.message?_eq_some_iff.mpr ⟨?_, same⟩
      exact rows ▸ List.mem_append_left _ member
    · refine Store.message?_eq_some_iff.mpr ⟨?_, rfl⟩
      exact rows ▸ List.mem_append_right _ (List.mem_singleton_self _)

/-- A delivery that is done stays as it is. -/
theorem DeliveryStep.of_done {key : DeliveryKey} {op : Op} {row : AgentDelivery}
    {after : Option AgentDelivery} (step : DeliveryStep store key op (some row) after)
    (finished : row.status = .done) : after = some row := by
  cases step <;> simp_all [DeliveryStatus.isTerminal]

theorem Store.Published.step
    (published : store.Published binding operation generation reply id) (op : Op) :
    (store.step op).Published binding operation generation reply id := by
  obtain ⟨bounds, ⟨row, found, finished, current⟩, incoming, message, asked, room, stored,
    carries⟩ := published
  have moved := delivery_step store op ⟨operation, binding.agent⟩
  rw [found] at moved
  exact ⟨bounds, ⟨row, moved.of_done finished, finished, current⟩, incoming, message,
    message?_step op asked, room, message?_step op stored, carries⟩

/-- Publishing into the room of a published reply finds that very reply, or fails. -/
theorem Store.Published.publish_eq_ok_iff {again : Nat} {given : CompletedReply}
    (published : store.Published binding operation generation reply id)
    (room : other.conversation = binding.conversation) (agent : other.agent = binding.agent) :
    botsPublishSubscription store other operation again given sent ts = .ok (next, answer) ↔
      next = store ∧ answer = id ∧ other.session = binding.session ∧ again = generation ∧
        given = reply ∧ store.MayPublish other := by
  obtain ⟨⟨positive, fits⟩, ⟨row, found, finished, current⟩, incoming, message, asked, inRoom,
    stored, carries⟩ := published
  obtain ⟨member, rfl⟩ := Store.message?_eq_some_iff.mp stored
  have existing : store.messageByRequest? binding.conversation
      (replyRequest ⟨operation, binding.agent⟩) = some message :=
    Store.messageByRequest?_eq_some_iff.mpr ⟨member, carries.room, carries.request⟩
  have selected : (store.message? operation).filter
      (fun message => message.conversationId = binding.conversation) = some incoming :=
    Option.filter_eq_some_iff.mpr ⟨asked, decide_eq_true inRoom⟩
  simp only [botsPublishSubscription, bind_eq_ok_iff, require_eq_ok_iff, exists_const,
    orFail_eq_ok_iff, asI64_eq_ok_iff, room, agent, found, selected, existing, pure_eq_ok_iff,
    Prod.mk.injEq, Option.some.injEq, true_and, carries.author, carries.body, carries.turn,
    carries.source, carries.root, carries.kind, and_true]
  constructor
  · rintro ⟨_, ⟨_, rfl⟩, policy, parsed, actions, bound, allowed, _, rfl, _, rfl, ⟨same, _⟩,
      ⟨_, text, turn, source, _⟩, rfl, rfl⟩
    obtain ⟨session, receipt⟩ := subscriptionSource_injective source
    have replies : given = reply := by
      cases given
      cases reply
      exact (CompletedReply.mk.injEq ..).mpr ⟨text.symm, turn.symm, receipt.symm⟩
    exact ⟨rfl, rfl, session.symm, same.symm.trans current, replies, policy, actions, parsed,
      bound, allowed⟩
  · rintro ⟨rfl, rfl, session, rfl, rfl, policy, actions, parsed, bound, allowed⟩
    refine ⟨again, ⟨fits, rfl⟩, policy, parsed, actions, bound, allowed, row, rfl, incoming, rfl,
      ⟨current, positive⟩, ⟨finished, rfl, rfl, ?_, rfl⟩, rfl, rfl⟩
    exact subscriptionSource_of_session session.symm operation given

end Publications

end OHHive.Bots
