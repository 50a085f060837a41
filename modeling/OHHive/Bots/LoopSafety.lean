import OHHive.Foundation.Forest
import OHHive.Bots.Replies

/-! Runaway-reply termination. The deliveries of a run form a forest: a delivery made by a
reply hangs below the delivery that reply answered, one hop deeper, and a delivery has at
most one reply. Depth and width bound the forest by the deliveries made without a cause. -/

namespace OHHive.Bots

open Foundation

variable {isAlphanumeric : Char → Bool} {budgets : HandoffBudgets}

/-- Whoever sends without being an executor sends without a cause. -/
def Action.Causeless (action : Action) : Prop :=
  ∀ request id ts, action = .transact (.send request id ts) → request.cause = none

section Chains

/-- The delivery was made by the reply of another delivery, within the budgets. -/
structure CausedBy (budgets : HandoffBudgets) (store : Store) (row : AgentDelivery)
    (parent : DeliveryKey) : Prop where
  message : ∃ message, store.message? row.key.messageId = some message ∧
    message.author = .agent parent.recipient ∧ message.clientRequestId = replyRequest parent ∧
    ∃ incoming, store.message? parent.messageId = some incoming ∧
      message.conversationId = incoming.conversationId
  deeper : ∃ above, store.delivery? parent = some above ∧
    row.turnDepth = saturatingAdd above.turnDepth 1
  depth_le : row.turnDepth ≤ budgets.maxDepth
  notSelf : row.key.recipient ≠ parent.recipient

/-- The rows of one message that a reply created. -/
def causedRows (store : Store) (id : MessageId) : List AgentDelivery :=
  store.deliveries.rows.filter (fun row =>
    row.key.messageId = id && row.causeMessageId.isSome)

/-- Every delivery starts a chain or continues one. -/
structure Chained (budgets : HandoffBudgets) (store : Store) : Prop where
  stored : ∀ row ∈ store.deliveries.rows, (store.message? row.key.messageId).isSome
  root : ∀ row ∈ store.deliveries.rows, row.causeMessageId = none → row.turnDepth = 0
  caused : ∀ row ∈ store.deliveries.rows, ∀ cause, row.causeMessageId = some cause →
    ∃ agent, CausedBy budgets store row ⟨cause, agent⟩
  width : ∀ id, (causedRows store id).length ≤ budgets.maxActiveSpecialistHandoffsPerRun

private theorem CausedBy.step {store : Store} {row later : AgentDelivery} {parent : DeliveryKey}
    (caused : CausedBy budgets store row parent) (op : Op) (chain : SameChain row later) :
    CausedBy budgets (store.step op) later parent := by
  obtain ⟨message, found, author, request, incoming, above, room⟩ := caused.message
  obtain ⟨prior, present, deeper⟩ := caused.deeper
  obtain ⟨after, presentAfter, kept⟩ := delivery?_step op present
  refine ⟨⟨message, ?_, author, request, incoming, message?_step op above, room⟩,
    ⟨after, presentAfter, ?_⟩, ?_, ?_⟩
  · rw [chain.key]
    exact message?_step op found
  · rw [chain.depth, kept.depth, deeper]
  · rw [chain.depth]
    exact caused.depth_le
  · rw [chain.key]
    exact caused.notSelf

private theorem causedRows_of_rewrite {store next : Store}
    {rewrite : AgentDelivery → AgentDelivery} {added : List AgentDelivery}
    (rows : next.deliveries.rows = store.deliveries.rows.map rewrite ++ added)
    (chains : ∀ row ∈ store.deliveries.rows, SameChain row (rewrite row)) (id : MessageId) :
    (causedRows next id).length = (causedRows store id).length +
      (added.filter (fun row => row.key.messageId = id && row.causeMessageId.isSome)).length := by
  have kept : (store.deliveries.rows.map rewrite).filter
        (fun row => row.key.messageId = id && row.causeMessageId.isSome) =
      (causedRows store id).map rewrite := by
    rw [List.filter_map, causedRows]
    congr 1
    apply List.filter_congr
    intro row member
    simp only [Function.comp_apply, (chains row member).key, (chains row member).cause]
  rw [causedRows, rows, List.filter_append, List.length_append, kept, List.length_map]

/-- The rows an executor's reply adds continue the chain of the delivery it answers. -/
private theorem causedBy_of_reply {store : Store} {plan : ReplyPlan} {hold : Bool}
    {id : MessageId} {ts : Int} (known : PlanKnown budgets store plan)
    (sent : Sent store (store.step (.send (plan.request hold) id ts)) (plan.request hold) id ts)
    {recipient : AgentId} (member : recipient ∈ plan.recipients) :
    CausedBy budgets (store.step (.send (plan.request hold) id ts))
      ((plan.request hold).delivery id ts recipient) plan.delivery.key := by
  obtain ⟨above, present, chain⟩ := known.turn
  obtain ⟨after, presentAfter, kept⟩ := delivery?_step (.send (plan.request hold) id ts) present
  refine ⟨⟨_, sent.message, rfl, rfl, plan.incoming, message?_step _ known.incoming, rfl⟩,
    ⟨after, presentAfter, ?_⟩, known.depth (List.ne_nil_of_mem member),
    known.notSelf recipient member⟩
  rw [kept.depth, chain.depth]
  rfl

private theorem Chained.of_kept {store : Store} {op : Op} (chained : Chained budgets store)
    {rewrite : AgentDelivery → AgentDelivery} {added : List AgentDelivery}
    (rows : (store.step op).deliveries.rows = store.deliveries.rows.map rewrite ++ added)
    (steps : ∀ row ∈ store.deliveries.rows,
      DeliveryStep store row.key op (some row) (some (rewrite row)))
    (newStored : ∀ row ∈ added, ((store.step op).message? row.key.messageId).isSome)
    (newRoot : ∀ row ∈ added, row.causeMessageId = none → row.turnDepth = 0)
    (newCaused : ∀ row ∈ added, ∀ cause, row.causeMessageId = some cause →
      ∃ agent, CausedBy budgets (store.step op) row ⟨cause, agent⟩)
    (newWidth : ∀ id, (added.filter (fun row =>
        row.key.messageId = id && row.causeMessageId.isSome)).length = 0 ∨
      causedRows store id = [] ∧ (added.filter (fun row =>
        row.key.messageId = id && row.causeMessageId.isSome)).length ≤
          budgets.maxActiveSpecialistHandoffsPerRun) :
    Chained budgets (store.step op) := by
  have chains : ∀ row ∈ store.deliveries.rows, SameChain row (rewrite row) := by
    intro row member
    obtain ⟨later, same, chain⟩ := (steps row member).sameChain
    exact Option.some.inj same ▸ chain
  have split : ∀ row ∈ (store.step op).deliveries.rows,
      (∃ old ∈ store.deliveries.rows, SameChain old row) ∨ row ∈ added := by
    intro row member
    rw [rows, List.mem_append] at member
    rcases member with kept | new
    · obtain ⟨old, oldMember, rfl⟩ := List.mem_map.mp kept
      exact Or.inl ⟨old, oldMember, chains old oldMember⟩
    · exact Or.inr new
  constructor
  · intro row member
    rcases split row member with ⟨old, oldMember, chain⟩ | new
    · obtain ⟨message, found⟩ := Option.isSome_iff_exists.mp (chained.stored old oldMember)
      rw [chain.key, message?_step op found]
      rfl
    · exact newStored row new
  · intro row member causeless
    rcases split row member with ⟨old, oldMember, chain⟩ | new
    · rw [chain.depth]
      exact chained.root old oldMember (chain.cause.symm.trans causeless)
    · exact newRoot row new causeless
  · intro row member cause isCause
    rcases split row member with ⟨old, oldMember, chain⟩ | new
    · obtain ⟨agent, caused⟩ := chained.caused old oldMember cause (chain.cause.symm.trans isCause)
      exact ⟨agent, caused.step op chain⟩
    · exact newCaused row new cause isCause
  · intro id
    rw [causedRows_of_rewrite rows chains id]
    have before := chained.width id
    rcases newWidth id with none | ⟨empty, few⟩
    · omega
    · rw [empty, List.length_nil]
      omega

private theorem Chained.send {store : Store} {request : SendRequest} {id : MessageId} {ts : Int}
    (chained : Chained budgets store)
    {rewrite : AgentDelivery → AgentDelivery}
    (rows : (store.step (.send request id ts)).deliveries.rows =
      store.deliveries.rows.map rewrite ++ request.deliveries id ts)
    (steps : ∀ row ∈ store.deliveries.rows,
      DeliveryStep store row.key (.send request id ts) (some row) (some (rewrite row)))
    (sent : Sent store (store.step (.send request id ts)) request id ts)
    (newRoot : ∀ row ∈ request.deliveries id ts, row.causeMessageId = none → row.turnDepth = 0)
    (newCaused : ∀ row ∈ request.deliveries id ts, ∀ cause, row.causeMessageId = some cause →
      ∃ agent, CausedBy budgets (store.step (.send request id ts)) row ⟨cause, agent⟩)
    (few : request.cause = none ∨
      request.recipientIds.length ≤ budgets.maxActiveSpecialistHandoffsPerRun) :
    Chained budgets (store.step (.send request id ts)) := by
  have shape : ∀ row ∈ request.deliveries id ts,
      ∃ recipient ∈ request.recipientIds, row = request.delivery id ts recipient := by
    intro row member
    unfold SendRequest.deliveries at member
    split at member
    · exact absurd member List.not_mem_nil
    · obtain ⟨recipient, addressed, rfl⟩ := List.mem_map.mp member
      exact ⟨recipient, addressed, rfl⟩
  apply chained.of_kept rows steps _ newRoot newCaused
  · intro other
    by_cases same : other = id
    · subst same
      right
      constructor
      · apply List.filter_eq_nil_iff.mpr
        intro row member selected
        simp only [Bool.and_eq_true, decide_eq_true_eq] at selected
        have present := chained.stored row member
        rw [selected.1, sent.fresh] at present
        cases present
      · rcases few with causeless | few
        · have none : (request.deliveries other ts).filter (fun row =>
              row.key.messageId = other && row.causeMessageId.isSome) = [] := by
            apply List.filter_eq_nil_iff.mpr
            intro row member
            obtain ⟨recipient, _, rfl⟩ := shape row member
            simp [SendRequest.delivery, causeless]
          rw [none]
          exact Nat.zero_le _
        · apply Nat.le_trans (List.length_filter_le _ _)
          unfold SendRequest.deliveries
          split
          · exact Nat.zero_le _
          · rw [List.length_map]
            exact few
    · left
      rw [List.length_eq_zero_iff, List.filter_eq_nil_iff]
      intro row member selected
      obtain ⟨recipient, _, rfl⟩ := shape row member
      simp only [Bool.and_eq_true, decide_eq_true_eq] at selected
      exact same selected.1.symm
  · intro row member
    obtain ⟨recipient, _, rfl⟩ := shape row member
    change ((store.step (.send request id ts)).message? id).isSome
    rw [sent.message]
    rfl

/-- Every action keeps the chains, whatever the replies say and whoever they mention. -/
theorem chained_step {system : System} {action : Action}
    (known : ∀ worker, (system.worker worker).Known budgets system.store)
    (causeless : action.Causeless) (chained : Chained budgets system.store) :
    Chained budgets (system.step isAlphanumeric budgets action).store := by
  rcases System.store_step isAlphanumeric budgets system action with same | ⟨op, asked, same⟩
  · rw [same]
    exact chained
  · rw [same]
    obtain ⟨rewrite, added, rows, steps, rfl | ⟨request, id, ts, rfl, rfl, sent⟩⟩ :=
      rows_step system.store op
    · exact chained.of_kept rows steps (by simp) (by simp) (by simp) (fun id => Or.inl (by simp))
    · rcases Action.op?_eq_send asked with
        own | ⟨worker, fault, plan, spent, hold, _, phase, rfl⟩ |
        ⟨worker, fault, plan, message, index, notice, _, rfl⟩
      · have noCause := causeless request id ts own
        apply chained.send rows steps sent _ _ (Or.inl noCause)
        · intro row member _
          unfold SendRequest.deliveries at member
          split at member
          · exact absurd member List.not_mem_nil
          · obtain ⟨recipient, _, rfl⟩ := List.mem_map.mp member
            simp [SendRequest.delivery, noCause]
        · intro row member cause isCause
          unfold SendRequest.deliveries at member
          split at member
          · exact absurd member List.not_mem_nil
          · obtain ⟨recipient, _, rfl⟩ := List.mem_map.mp member
            simp [SendRequest.delivery, noCause] at isCause
      · have planned := known worker
        rw [phase] at planned
        apply chained.send rows steps sent _ _ (Or.inr planned.1.width)
        · intro row member noCause
          obtain ⟨recipient, _, rfl⟩ := List.mem_map.mp member
          cases noCause
        · intro row member cause isCause
          obtain ⟨recipient, addressed, rfl⟩ := List.mem_map.mp member
          obtain rfl := Option.some.inj isCause
          exact ⟨_, causedBy_of_reply planned.1 sent addressed⟩
      · have none : (plan.noticeRequest message index notice).deliveries id ts = [] := rfl
        exact chained.send rows steps sent (by simp [none]) (by simp [none]) (Or.inl rfl)

end Chains

section Forests

/-- The delivery whose reply made this one, if a reply made it. -/
def parentOf (store : Store) (key : DeliveryKey) : Option DeliveryKey := do
  let row ← store.delivery? key
  let cause ← row.causeMessageId
  let message ← store.message? key.messageId
  let agent ← Mentions.Principal.agentId? message.author
  some ⟨cause, agent⟩

def depthOf (store : Store) (key : DeliveryKey) : Nat :=
  ((store.delivery? key).map AgentDelivery.turnDepth).getD 0

def deliveryKeys (store : Store) : Finset DeliveryKey :=
  (store.deliveries.rows.map AgentDelivery.key).toFinset

theorem mem_deliveryKeys_iff {store : Store} {key : DeliveryKey} :
    key ∈ deliveryKeys store ↔ ∃ row, store.delivery? key = some row := by
  simp only [deliveryKeys, List.mem_toFinset, List.mem_map, Store.delivery?_eq_some_iff]

theorem card_deliveryKeys (store : Store) :
    (deliveryKeys store).card = store.deliveries.rows.length := by
  have distinct : (store.deliveries.rows.map AgentDelivery.key).Nodup := by
    apply List.pairwise_map.mpr
    exact store.deliveries.distinct.imp (fun apart same => apart same)
  rw [deliveryKeys, List.toFinset_card_of_nodup distinct, List.length_map]

theorem parentOf_of_cause {store : Store} {row : AgentDelivery} (parent : DeliveryKey)
    (found : store.delivery? row.key = some row) (cause : row.causeMessageId = some parent.messageId)
    (caused : CausedBy budgets store row parent) : parentOf store row.key = some parent := by
  obtain ⟨message, present, author, _⟩ := caused.message
  simp [parentOf, found, cause, present, author, Mentions.Principal.agentId?]

theorem parentOf_eq_none_iff {store : Store} (chained : Chained budgets store)
    {row : AgentDelivery} (found : store.delivery? row.key = some row) :
    parentOf store row.key = none ↔ row.causeMessageId = none := by
  cases cause : row.causeMessageId with
  | none => simp [parentOf, found, cause]
  | some message =>
    obtain ⟨agent, caused⟩ := chained.caused row (Store.delivery?_eq_some_iff.mp found).1
      message cause
    simp [parentOf_of_cause ⟨message, agent⟩ found cause caused]

private theorem row_of_key {store : Store} {key : DeliveryKey} (member : key ∈ deliveryKeys store) :
    ∃ row ∈ store.deliveries.rows, row.key = key ∧ store.delivery? row.key = some row := by
  obtain ⟨row, found⟩ := mem_deliveryKeys_iff.mp member
  obtain ⟨stored, rfl⟩ := Store.delivery?_eq_some_iff.mp found
  exact ⟨row, stored, rfl, found⟩

private theorem cause_of_parent {store : Store} (chained : Chained budgets store)
    {row : AgentDelivery} (found : store.delivery? row.key = some row) {above : DeliveryKey}
    (isParent : parentOf store row.key = some above) :
    row.causeMessageId = some above.messageId ∧ CausedBy budgets store row above := by
  cases cause : row.causeMessageId with
  | none =>
    rw [(parentOf_eq_none_iff chained found).mpr cause] at isParent
    cases isParent
  | some message =>
    obtain ⟨agent, caused⟩ := chained.caused row (Store.delivery?_eq_some_iff.mp found).1
      message cause
    rw [parentOf_of_cause ⟨message, agent⟩ found cause caused] at isParent
    obtain rfl := Option.some.inj isParent
    exact ⟨rfl, caused⟩

/-- All the children of a delivery were made by its one reply. -/
private theorem children_le {store : Store} (chained : Chained budgets store)
    (above : DeliveryKey) :
    ((deliveryKeys store).filter (fun key => parentOf store key = some above)).card ≤
      budgets.maxActiveSpecialistHandoffsPerRun := by
  by_cases none : (deliveryKeys store).filter (fun key => parentOf store key = some above) = ∅
  · rw [none, Finset.card_empty]
    exact Nat.zero_le _
  · obtain ⟨first, firstChild⟩ := Finset.nonempty_iff_ne_empty.mpr none
    obtain ⟨inside, isParent⟩ := Finset.mem_filter.mp firstChild
    obtain ⟨row, _, rfl, found⟩ := row_of_key inside
    obtain ⟨_, caused⟩ := cause_of_parent chained found isParent
    obtain ⟨reply, stored, _, request, incoming, answered, room⟩ := caused.message
    have within : (deliveryKeys store).filter (fun key => parentOf store key = some above) ⊆
        ((causedRows store row.key.messageId).map AgentDelivery.key).toFinset := by
      intro key child
      obtain ⟨keyInside, keyParent⟩ := Finset.mem_filter.mp child
      obtain ⟨other, member, rfl, otherFound⟩ := row_of_key keyInside
      obtain ⟨otherCause, otherCaused⟩ := cause_of_parent chained otherFound keyParent
      obtain ⟨otherReply, otherStored, _, otherRequest, otherIncoming, otherAnswered, otherRoom⟩ :=
        otherCaused.message
      obtain rfl : incoming = otherIncoming :=
        Option.some.inj (answered.symm.trans otherAnswered)
      have same : otherReply = reply := store.messages.eq_of_clash
        (fun _ _ => Message.Clash.symm) (Store.mem_of_message? otherStored)
        (Store.mem_of_message? stored)
        (Or.inr ⟨otherRoom.trans room.symm, Or.inr (otherRequest.trans request.symm)⟩)
      have sameMessage : other.key.messageId = row.key.messageId := by
        rw [← Store.id_of_message? otherStored, ← Store.id_of_message? stored, same]
      apply List.mem_toFinset.mpr
      apply List.mem_map_of_mem
      exact List.mem_filter.mpr ⟨member, by simp [sameMessage, otherCause]⟩
    calc ((deliveryKeys store).filter (fun key => parentOf store key = some above)).card
        ≤ ((causedRows store row.key.messageId).map AgentDelivery.key).toFinset.card :=
          Finset.card_le_card within
      _ ≤ ((causedRows store row.key.messageId).map AgentDelivery.key).length :=
          List.toFinset_card_le _
      _ = (causedRows store row.key.messageId).length := List.length_map ..
      _ ≤ budgets.maxActiveSpecialistHandoffsPerRun := chained.width _

/-- The deliveries of a chained store, as a forest. The depth limit must leave room for the
next hop: at the largest `u32` a saturated depth no longer grows. -/
def Chained.forest {store : Store} (chained : Chained budgets store)
    (room : budgets.maxDepth < u32Max) :
    BoundedForest DeliveryKey budgets.maxActiveSpecialistHandoffsPerRun budgets.maxDepth where
  nodes := deliveryKeys store
  parent := parentOf store
  depth := depthOf store
  root := by
    intro key member isRoot
    obtain ⟨row, stored, rfl, found⟩ := row_of_key member
    rw [depthOf, found]
    exact chained.root row stored ((parentOf_eq_none_iff chained found).mp isRoot)
  child := by
    intro key member above isParent
    obtain ⟨row, _, rfl, found⟩ := row_of_key member
    obtain ⟨_, caused⟩ := cause_of_parent chained found isParent
    obtain ⟨prior, present, deeper⟩ := caused.deeper
    refine ⟨mem_deliveryKeys_iff.mpr ⟨prior, present⟩, ?_⟩
    have within := caused.depth_le
    simp only [depthOf, found, present, Option.map_some, Option.getD_some]
    unfold saturatingAdd at deeper
    omega
  width_le := fun above _ => children_le chained above
  depth_le := by
    intro key member
    obtain ⟨row, stored, rfl, found⟩ := row_of_key member
    simp only [depthOf, found, Option.map_some, Option.getD_some]
    cases cause : row.causeMessageId with
    | none => exact (chained.root row stored cause) ▸ Nat.zero_le _
    | some message =>
      obtain ⟨agent, caused⟩ := chained.caused row stored message cause
      exact caused.depth_le

/-- The deliveries made without a cause. -/
def rootRows (store : Store) : List AgentDelivery :=
  store.deliveries.rows.filter (fun row => row.causeMessageId.isNone)

theorem card_roots_le {store : Store} (chained : Chained budgets store)
    (room : budgets.maxDepth < u32Max) :
    (chained.forest room).roots.card ≤ (rootRows store).length := by
  have within : (chained.forest room).roots ⊆
      ((rootRows store).map AgentDelivery.key).toFinset := by
    intro key member
    obtain ⟨inside, isRoot⟩ := Finset.mem_filter.mp member
    obtain ⟨row, stored, rfl, found⟩ := row_of_key inside
    apply List.mem_toFinset.mpr
    apply List.mem_map_of_mem
    exact List.mem_filter.mpr
      ⟨stored, by simp [(parentOf_eq_none_iff chained found).mp isRoot]⟩
  calc (chained.forest room).roots.card
      ≤ ((rootRows store).map AgentDelivery.key).toFinset.card := Finset.card_le_card within
    _ ≤ ((rootRows store).map AgentDelivery.key).length := List.toFinset_card_le _
    _ = (rootRows store).length := List.length_map ..

/-- All deliveries, bounded by those without a cause, the width and the depth. -/
theorem Chained.length_le {store : Store} (chained : Chained budgets store)
    (room : budgets.maxDepth < u32Max) :
    store.deliveries.rows.length ≤ (rootRows store).length *
      ∑ hop ∈ Finset.range (budgets.maxDepth + 1),
        budgets.maxActiveSpecialistHandoffsPerRun ^ hop := by
  rw [← card_deliveryKeys]
  exact Nat.le_trans (chained.forest room).card_nodes_le
    (Nat.mul_le_mul_right _ (card_roots_le chained room))

end Forests

section Runs

/-- The agents a transaction outside the executors addresses. -/
def Action.wakes : Action → Nat
  | .transact (.send request _ _) =>
      if request.draft.kind = .system then 0 else request.recipientIds.length
  | _ => 0

def totalWakes (actions : List Action) : Nat := (actions.map Action.wakes).sum

private theorem rootRows_step (system : System) (action : Action) :
    (rootRows (system.step isAlphanumeric budgets action).store).length ≤
      (rootRows system.store).length + action.wakes := by
  rcases System.store_step isAlphanumeric budgets system action with same | ⟨op, asked, same⟩
  · rw [same]
    exact Nat.le_add_right _ _
  · rw [same]
    obtain ⟨rewrite, added, rows, steps, origin⟩ := rows_step system.store op
    have kept : (system.store.deliveries.rows.map rewrite).filter
        (fun row => row.causeMessageId.isNone) = (rootRows system.store).map rewrite := by
      rw [List.filter_map, rootRows]
      congr 1
      apply List.filter_congr
      intro row member
      obtain ⟨later, isLater, chain⟩ := (steps row member).sameChain
      obtain rfl := Option.some.inj isLater
      simp only [Function.comp_apply, chain.cause]
    rw [rootRows, rows, List.filter_append, List.length_append, kept, List.length_map]
    apply Nat.add_le_add_left
    rcases origin with rfl | ⟨request, id, ts, rfl, rfl, _⟩
    · exact Nat.zero_le _
    · rcases Action.op?_eq_send asked with
        rfl | ⟨worker, fault, plan, spent, hold, _, _, rfl⟩ |
        ⟨worker, fault, plan, message, index, notice, _, rfl⟩
      · apply Nat.le_trans (List.length_filter_le _ _)
        simp only [SendRequest.deliveries, Action.wakes]
        split <;> simp
      · have none : ((plan.request hold).deliveries id ts).filter
            (fun row => row.causeMessageId.isNone) = [] := by
          apply List.filter_eq_nil_iff.mpr
          intro row member
          obtain ⟨recipient, _, rfl⟩ := List.mem_map.mp member
          simp [SendRequest.delivery, ReplyPlan.request]
        rw [none]
        exact Nat.zero_le _
      · exact Nat.zero_le _

private theorem rootRows_le (actions : List Action) (moment : Nat) :
    (rootRows (systemAt isAlphanumeric budgets actions moment).store).length ≤
      totalWakes (actions.take moment) := by
  induction moment with
  | zero => simp [System.start, rootRows, Store.empty]
  | succ previous ih =>
    rcases stateAt_next (System.step isAlphanumeric budgets) System.start actions previous with
      ⟨action, present, next⟩ | ⟨absent, next⟩
    · have more : totalWakes (actions.take (previous + 1)) =
          totalWakes (actions.take previous) + action.wakes := by
        simp [totalWakes, List.take_add_one, present]
      simp only [systemAt, next, more]
      exact Nat.le_trans (rootRows_step _ _) (Nat.add_le_add_right ih _)
    · have same : actions.take (previous + 1) = actions.take previous := by
        simp [List.take_add_one, absent]
      simp only [systemAt, next, same]
      exact ih

private theorem totalWakes_take_le (actions : List Action) (moment : Nat) :
    totalWakes (actions.take moment) ≤ totalWakes actions := by
  unfold totalWakes
  rw [List.map_take]
  exact (List.take_sublist _ _).sum_le_sum (fun _ _ => Nat.zero_le _)

/-- Loop safety of one run: each reply stays within depth and width and never wakes its own
author, and all deliveries are bounded by the agents the causeless messages address. -/
structure LoopSafe (isAlphanumeric : Char → Bool) (budgets : HandoffBudgets)
    (actions : List Action) : Prop where
  depth_le : ∀ moment, ∀ row ∈ (systemAt isAlphanumeric budgets actions moment).store.deliveries.rows,
    row.causeMessageId ≠ none → row.turnDepth ≤ budgets.maxDepth
  width_le : ∀ moment id,
    (causedRows (systemAt isAlphanumeric budgets actions moment).store id).length ≤
      budgets.maxActiveSpecialistHandoffsPerRun
  notSelf : ∀ moment, ∀ row ∈ (systemAt isAlphanumeric budgets actions moment).store.deliveries.rows,
    row.causeMessageId ≠ none → ∀ message,
      (systemAt isAlphanumeric budgets actions moment).store.message? row.key.messageId =
        some message → message.author ≠ .agent row.key.recipient
  bounded : budgets.maxDepth < u32Max → ∀ moment,
    (systemAt isAlphanumeric budgets actions moment).store.deliveries.rows.length ≤
      totalWakes actions * ∑ hop ∈ Finset.range (budgets.maxDepth + 1),
        budgets.maxActiveSpecialistHandoffsPerRun ^ hop

/-- In every run in which only executors send with a cause, replies terminate. -/
theorem loop_safety (isAlphanumeric : Char → Bool) (budgets : HandoffBudgets)
    (actions : List Action) (causeless : ∀ action ∈ actions, action.Causeless) :
    LoopSafe isAlphanumeric budgets actions := by
  have chained : ∀ moment, Chained budgets
      (systemAt isAlphanumeric budgets actions moment).store := by
    intro moment
    have both := stateAt_invariant (System.step isAlphanumeric budgets) System.start actions
      (fun system => (∀ worker, (system.worker worker).Known budgets system.store) ∧
        Chained budgets system.store)
      ⟨fun _ => trivial, by
        constructor <;> simp [System.start, Store.empty, causedRows]⟩
      (fun system action member ⟨known, chained⟩ =>
        ⟨known_step action known, chained_step known (causeless action member) chained⟩) moment
    exact both.2
  constructor
  · intro moment row member isCaused
    obtain ⟨cause, isCause⟩ := Option.ne_none_iff_exists'.mp isCaused
    obtain ⟨agent, caused⟩ := (chained moment).caused row member cause isCause
    exact caused.depth_le
  · exact fun moment id => (chained moment).width id
  · intro moment row member isCaused message found own
    obtain ⟨cause, isCause⟩ := Option.ne_none_iff_exists'.mp isCaused
    obtain ⟨agent, caused⟩ := (chained moment).caused row member cause isCause
    obtain ⟨reply, stored, author, _⟩ := caused.message
    obtain rfl : message = reply := Option.some.inj (found.symm.trans stored)
    exact caused.notSelf (Principal.agent.inj (own.symm.trans author))
  · intro room moment
    apply Nat.le_trans ((chained moment).length_le room)
    apply Nat.mul_le_mul_right
    exact Nat.le_trans (rootRows_le actions moment) (totalWakes_take_le actions moment)

end Runs

section Broadcasts

/-- A profile of a room of numbered agents. -/
def roomProfile (index : Nat) : AgentProfile :=
  { id := ⟨index⟩
    owner := 0
    name := s!"agent{index}"
    runtimeKind := .local
    preferredHost := none
    providerAccountRef := none
    archived := false }

def roomMember (principal : Principal) : ConversationMember :=
  { conversationId := 0, principal, allowedActions := [.read, .post] }

def ownedRoom : Table Conversation (Table.SameKey Conversation.id) :=
  ⟨[{ id := 0, owner := 0, policyRevision := 1 }], List.pairwise_singleton _ _⟩

/-- One room whose members are its owner and the first `size` numbered agents. -/
def openRoom (size : Nat) : Op :=
  .administer
    ⟨(List.range size).map roomProfile, by
      apply List.pairwise_map.mpr
      exact List.nodup_range.imp (fun apart same => apart (Uuid.mk.inj same))⟩
    ownedRoom
    ⟨roomMember (.user 0) :: (List.range size).map (fun index => roomMember (.agent ⟨index⟩)), by
      refine List.pairwise_cons.mpr ⟨?_, List.pairwise_map.mpr ?_⟩
      · intro member listed same
        obtain ⟨index, _, rfl⟩ := List.mem_map.mp listed
        cases same
      · apply List.nodup_range.imp
        intro first second apart same
        simp only [Table.SameKey, ConversationMember.key, roomMember, Prod.mk.injEq,
          Principal.agent.injEq, Uuid.mk.injEq, true_and] at same
        exact apart same⟩

def ownerMessage (recipients : List AgentId) : SendRequest :=
  { actor := .user 0
    conversationId := 0
    clientRequestId := "hello"
    expectedPolicyRevision := 1
    recipientIds := recipients
    draft :=
      { threadRoot := none
        kind := .text
        body := some "hello"
        attachmentRefs := []
        taskRef := none
        turnRef := none
        sourceEventRef := none }
    cause := none
    hold := false }

/-- One message of the owner to every agent of a room. -/
def broadcast (size : Nat) : List Action :=
  [.transact (openRoom size),
    .transact (.send (ownerMessage ((List.range size).map Uuid.mk)) 1 0)]

theorem broadcast_causeless (size : Nat) : ∀ action ∈ broadcast size, action.Causeless := by
  intro action member request id ts sends
  simp only [broadcast, List.mem_cons, List.not_mem_nil, or_false] at member
  rcases member with rfl | rfl
  · cases sends
  · cases sends
    rfl

private theorem openRoom_step (size : Nat) :
    (Store.empty.step (openRoom size)).messages.rows = [] ∧
      (Store.empty.step (openRoom size)).deliveries.rows = [] ∧
      (Store.empty.step (openRoom size)).agents.rows = (List.range size).map roomProfile ∧
      ((Store.empty.step (openRoom size)).conversation? 0).isSome := by
  refine ⟨rfl, rfl, rfl, rfl⟩

/-- A broadcast makes one delivery for each agent of the room. -/
theorem deliveries_of_broadcast (isAlphanumeric : Char → Bool) (budgets : HandoffBudgets)
    (size : Nat) :
    (systemAt isAlphanumeric budgets (broadcast size) 2).store.deliveries.rows.length = size := by
  obtain ⟨messages, deliveries, agents, room⟩ := openRoom_step size
  obtain ⟨next, sent⟩ : ∃ next, sendInsert (Store.empty.step (openRoom size))
      (ownerMessage ((List.range size).map Uuid.mk)) 1 0 = .ok (next, 1) := sendInsert_succeeds
    (Store.messageByRequest?_eq_none_iff.mpr (by simp [messages]))
    (by simp [Store.message?, messages]) room (by simp [ownerMessage])
    (by
      intro recipient member
      obtain ⟨index, inRange, rfl⟩ := List.mem_map.mp member
      have found : (Store.empty.step (openRoom size)).agents.lookup ⟨index⟩ =
          some (roomProfile index) :=
        (Table.lookup_eq_some_iff _ _ _).mpr
          ⟨by rw [agents]; exact List.mem_map_of_mem inRange, rfl⟩
      rw [Store.agent?, found]
      rfl)
    (List.nodup_range.map (fun first second same => Uuid.mk.inj same))
    (by simp [ownerMessage]) (by simp [deliveries])
  have stepped : (systemAt isAlphanumeric budgets (broadcast size) 2).store = next :=
    Store.step_of_perform (congrArg (fun done => Prod.fst <$> done) sent)
  rcases sendInsert_ok sent with ⟨existing, found, _⟩ | ⟨_, _, _, _, _, rows, _⟩
  · obtain ⟨member, _⟩ := Store.messageByRequest?_eq_some_iff.mp found
    rw [messages] at member
    exact absurd member List.not_mem_nil
  · rw [stepped, rows, deliveries]
    simp [SendRequest.deliveries, ownerMessage]

/-- The messages sent from outside the executors. -/
def outsideMessages (actions : List Action) : Nat :=
  actions.countP (fun action => match action with
    | .transact (.send ..) => true
    | _ => false)

/-- No bound can be computed from the number of messages, the width and the depth alone: one
message may address a room of any size. -/
theorem no_bound_by_messages :
    ¬ ∃ bound : Nat → Nat → Nat → Nat, ∀ (isAlphanumeric : Char → Bool)
      (budgets : HandoffBudgets) (actions : List Action),
      (∀ action ∈ actions, action.Causeless) → ∀ moment,
        (systemAt isAlphanumeric budgets actions moment).store.deliveries.rows.length ≤
          bound (outsideMessages actions) budgets.maxActiveSpecialistHandoffsPerRun
            budgets.maxDepth := by
  rintro ⟨bound, bounded⟩
  have limit := bounded Char.isAlphanum HandoffBudgets.default (broadcast (bound 1 2 6 + 1))
    (broadcast_causeless _) 2
  rw [deliveries_of_broadcast] at limit
  have within : bound 1 2 6 + 1 ≤ bound 1 2 6 := limit
  omega

/-- The owner's message to two agents, under the default budgets. -/
theorem loop_safety_broadcast :
    LoopSafe Char.isAlphanum HandoffBudgets.default (broadcast 2) :=
  loop_safety Char.isAlphanum HandoffBudgets.default (broadcast 2) (broadcast_causeless 2)

end Broadcasts

end OHHive.Bots
