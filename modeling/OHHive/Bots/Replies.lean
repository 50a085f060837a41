import OHHive.Bots.Turns
import Mathlib.Data.List.Basic

/-! At most one reply per delivery. The reply is stored under one request key in the room
of the message it answers, whichever worker or publication stores it, so every retry, reap
and second turn collapses onto the message stored first. -/

namespace OHHive.Bots

open Foundation

section Keys

theorem toList_uuid (uuid : Uuid) :
    (toString uuid).toList = Nat.toDigits 10 uuid.value := by
  change (toString uuid.value).toList = _
  rw [Nat.toString_eq_repr, Nat.toList_repr]

private theorem toList_replyRequest (key : DeliveryKey) :
    (replyRequest key).toList = (toString "delivery:").toList ++
      (Nat.toDigits 10 key.messageId.value ++ ':' :: Nat.toDigits 10 key.recipient.value) := by
  rw [replyRequest, ← toList_uuid key.messageId, ← toList_uuid key.recipient]
  simp only [String.toList_append, List.append_assoc, List.append_cancel_left_eq]
  rfl

theorem colon_notMem_toDigits (number : Nat) : ':' ∉ Nat.toDigits 10 number := by
  intro member
  have digit := Nat.isDigit_of_mem_toDigits (by decide) (by decide) member
  exact absurd digit (by decide)

theorem eq_of_toDigits {first second : Uuid}
    (digits : Nat.toDigits 10 first.value = Nat.toDigits 10 second.value) : first = second := by
  have values := congrArg (fun chars => Nat.ofDigitChars 10 chars 0) digits
  simp only [Nat.ofDigitChars_ten_toDigits] at values
  cases first
  cases second
  simp_all

/-- The request key determines the delivery it replies to. -/
theorem replyRequest_injective {first second : DeliveryKey}
    (same : replyRequest first = replyRequest second) : first = second := by
  have chars := congrArg String.toList same
  rw [toList_replyRequest, toList_replyRequest] at chars
  obtain ⟨message, _, recipient⟩ := (List.append_cons_inj_of_notMem (colon_notMem_toDigits _)
    (colon_notMem_toDigits _)).mp (List.append_cancel_left chars)
  cases first
  cases second
  simp only [DeliveryKey.mk.injEq]
  exact ⟨eq_of_toDigits message, eq_of_toDigits recipient⟩

end Keys

section Rooms

/-- The agent text messages stored under a delivery's request key, in any room. -/
def textsUnder (store : Store) (key : DeliveryKey) : List Message :=
  store.messages.rows.filter (fun message =>
    message.kind = .text && (Mentions.Principal.agentId? message.author).isSome &&
      message.clientRequestId = replyRequest key)

/-- Those of them that lie in the delivery's own room. -/
def repliesTo (store : Store) (key : DeliveryKey) : List Message :=
  (textsUnder store key).filter (fun message =>
    (store.message? key.messageId).any (fun incoming =>
      message.conversationId = incoming.conversationId))

theorem mem_textsUnder_iff {store : Store} {key : DeliveryKey} {message : Message} :
    message ∈ textsUnder store key ↔ message ∈ store.messages.rows ∧ message.kind = .text ∧
      (∃ agent, message.author = .agent agent) ∧ message.clientRequestId = replyRequest key := by
  have authored : (Mentions.Principal.agentId? message.author).isSome = true ↔
      ∃ agent, message.author = .agent agent := by
    cases message.author <;> simp [Mentions.Principal.agentId?]
  simp only [textsUnder, List.mem_filter, Bool.and_eq_true, decide_eq_true_eq, authored, and_assoc]

theorem mem_repliesTo_iff {store : Store} {key : DeliveryKey} {message : Message} :
    message ∈ repliesTo store key ↔ message ∈ store.messages.rows ∧ message.kind = .text ∧
      (∃ agent, message.author = .agent agent) ∧ message.clientRequestId = replyRequest key ∧
      ∃ incoming, store.message? key.messageId = some incoming ∧
        message.conversationId = incoming.conversationId := by
  simp only [repliesTo, List.mem_filter, mem_textsUnder_iff, Option.any_eq_true,
    decide_eq_true_eq, and_assoc]

/-- A room holds one message under a request key, so a delivery has at most one reply. -/
theorem repliesTo_length_le (store : Store) (key : DeliveryKey) :
    (repliesTo store key).length ≤ 1 := by
  have alike : ∀ first ∈ repliesTo store key, ∀ second ∈ repliesTo store key,
      first.Clash second := by
    intro first firstReply second secondReply
    obtain ⟨_, _, _, firstKey, incoming, found, firstRoom⟩ := mem_repliesTo_iff.mp firstReply
    obtain ⟨_, _, _, secondKey, other, otherFound, secondRoom⟩ := mem_repliesTo_iff.mp secondReply
    obtain rfl : incoming = other := Option.some.inj (found.symm.trans otherFound)
    exact Or.inr ⟨firstRoom.trans secondRoom.symm, Or.inr (firstKey.trans secondKey.symm)⟩
  have distinct : (repliesTo store key).Pairwise (fun earlier later => ¬ earlier.Clash later) :=
    (store.messages.distinct.filter _).filter _
  cases replies : repliesTo store key with
  | nil => simp
  | cons first rest =>
    cases rest with
    | nil => simp
    | cons second others =>
      rw [replies] at distinct alike
      exact absurd (alike first (by simp) second (by simp))
        ((List.pairwise_cons.mp distinct).1 second (by simp))

/-- No message of the room carries the request key, so there is no reply. -/
theorem repliesTo_eq_nil {store : Store} {key : DeliveryKey} {incoming : Message}
    (found : store.message? key.messageId = some incoming)
    (absent : store.messageByRequest? incoming.conversationId (replyRequest key) = none) :
    repliesTo store key = [] := by
  apply List.eq_nil_iff_forall_not_mem.mpr
  intro message reply
  obtain ⟨member, _, _, request, other, otherFound, room⟩ := mem_repliesTo_iff.mp reply
  obtain rfl : incoming = other := Option.some.inj (found.symm.trans otherFound)
  exact Store.messageByRequest?_eq_none_iff.mp absent message member ⟨room, request⟩

theorem repliesTo_step {store : Store} (op : Op) {key : DeliveryKey} {message : Message}
    (reply : message ∈ repliesTo store key) : message ∈ repliesTo (store.step op) key := by
  obtain ⟨member, kind, author, request, incoming, found, room⟩ := mem_repliesTo_iff.mp reply
  obtain ⟨added, _, rows⟩ := messages_step store op
  apply mem_repliesTo_iff.mpr
  refine ⟨?_, kind, author, request, incoming, message?_step op found, room⟩
  rw [rows]
  exact List.mem_append_left _ member

end Rooms

section Posting

variable {isAlphanumeric : Char → Bool} {budgets : HandoffBudgets}

/-- The action sends an executor's reply to the delivery, or publishes one. -/
def Action.IsReply (system : System) (key : DeliveryKey) (action : Action) : Prop :=
  (∃ worker id ts fault plan spent hold, action = .send worker id ts fault ∧
    system.worker worker = .gated plan spent hold ∧ plan.delivery.key = key) ∨
  ∃ binding operation generation reply id ts,
    action = .transact (.publishSubscription binding operation generation reply id ts) ∧
    (⟨operation, binding.agent⟩ : DeliveryKey) = key

/-- Somebody other than the executor sends an agent's text under the delivery's key. -/
def Action.ForgesReply (key : DeliveryKey) (action : Action) : Prop :=
  ∃ request id ts agent, action = .transact (.send request id ts) ∧
    request.actor = .agent agent ∧ request.draft.kind = .text ∧
    request.clientRequestId = replyRequest key

/-- The action fails the delivery for good, whoever performs it. -/
def Action.IsFinalFailure (budgets : HandoffBudgets) (system : System) (key : DeliveryKey)
    (action : Action) : Prop :=
  ∃ generation ts noticeId,
    action.op? budgets system = some (.fail key generation none ts noticeId)

private theorem message_added {system : System} {action : Action} {op : Op}
    (asked : action.op? budgets system = some op)
    (changed : (system.step isAlphanumeric budgets action).store.messages.rows ≠
      system.store.messages.rows) :
    (system.step isAlphanumeric budgets action).store = system.store.step op ∧
      ∃ added, MessagesStep system.store op added ∧ added ≠ [] ∧
        (system.store.step op).messages.rows = system.store.messages.rows ++ added := by
  rcases System.store_step isAlphanumeric budgets system action with same | ⟨other, asked', same⟩
  · exact absurd (by rw [same]) changed
  · obtain rfl : op = other := Option.some.inj (asked.symm.trans asked')
    obtain ⟨added, step, rows⟩ := messages_step system.store op
    refine ⟨same, added, step, ?_, rows⟩
    rintro rfl
    rw [same, rows, List.append_nil] at changed
    exact changed rfl

/-- A reply that is stored is the delivery's first, and lies in the delivery's room. -/
theorem reply_added {system : System} {action : Action} {key : DeliveryKey}
    (known : ∀ worker, (system.worker worker).Known budgets system.store)
    (isReply : action.IsReply system key)
    (changed : (system.step isAlphanumeric budgets action).store.messages.rows ≠
      system.store.messages.rows) :
    repliesTo system.store key = [] ∧
      ∃ reply, (system.step isAlphanumeric budgets action).store.messages.rows =
          system.store.messages.rows ++ [reply] ∧
        reply ∈ repliesTo (system.step isAlphanumeric budgets action).store key := by
  rcases isReply with
    ⟨worker, id, ts, fault, plan, spent, hold, rfl, phase, rfl⟩ |
    ⟨binding, operation, generation, reply, id, ts, rfl, rfl⟩
  · have asked : Action.op? budgets system (.send worker id ts fault) =
        some (.send (plan.request hold) id ts) := by simp [Action.op?, phase]
    obtain ⟨stepped, added, step, nonempty, rows⟩ := message_added asked changed
    have planned := known worker
    rw [phase] at planned
    have incoming := planned.1.incoming
    rw [stepped]
    cases step with
    | none => exact absurd rfl nonempty
    | sent _ _ _ absent =>
      refine ⟨repliesTo_eq_nil incoming absent, _, rows, mem_repliesTo_iff.mpr ?_⟩
      refine ⟨by rw [rows]; simp, rfl, ⟨_, rfl⟩, rfl, plan.incoming, ?_, rfl⟩
      exact message?_step _ incoming
  · have asked : Action.op? budgets system
        (.transact (.publishSubscription binding operation generation reply id ts)) =
        some (.publishSubscription binding operation generation reply id ts) := rfl
    obtain ⟨stepped, added, step, nonempty, rows⟩ := message_added asked changed
    rw [stepped]
    cases step with
    | none => exact absurd rfl nonempty
    | published _ _ _ _ _ _ message found room unreplied =>
      refine ⟨repliesTo_eq_nil found (by rw [room]; exact unreplied), _, rows,
        mem_repliesTo_iff.mpr ?_⟩
      refine ⟨by rw [rows]; simp, rfl, ⟨_, rfl⟩, rfl, message, ?_, room.symm⟩
      exact message?_step _ found

/-- A failure notice is added only where the delivery has no reply. -/
theorem notice_added {system : System} {action : Action} {key : DeliveryKey}
    (failure : action.IsFinalFailure budgets system key)
    (changed : (system.step isAlphanumeric budgets action).store.messages.rows ≠
      system.store.messages.rows) : repliesTo system.store key = [] := by
  obtain ⟨generation, ts, noticeId, asked⟩ := failure
  obtain ⟨_, added, step, nonempty, _⟩ := message_added asked changed
  cases step with
  | none => exact absurd rfl nonempty
  | noticed _ _ _ _ message conversation agent found unreplied =>
    exact repliesTo_eq_nil found unreplied

/-- An agent's text under the key comes from a reply, unless somebody forges it. -/
private theorem isReply_of_text {system : System} {action : Action} {op : Op}
    {key : DeliveryKey} {added : List Message} {message : Message}
    (asked : action.op? budgets system = some op) (step : MessagesStep system.store op added)
    (new : message ∈ added) (kind : message.kind = .text)
    (author : ∃ agent, message.author = .agent agent)
    (request : message.clientRequestId = replyRequest key)
    (honest : ¬ action.ForgesReply key) : action.IsReply system key := by
  cases step with
  | none => exact absurd new List.not_mem_nil
  | noticed =>
    rw [List.mem_singleton.mp new] at kind
    cases kind
  | published binding operation generation reply id ts =>
    rw [List.mem_singleton.mp new] at request
    exact Or.inr ⟨binding, operation, generation, reply, id, ts, Action.op?_eq_own asked rfl,
      replyRequest_injective request⟩
  | sent sentRequest id ts =>
    rw [List.mem_singleton.mp new] at kind author request
    rcases Action.op?_eq_send asked with
      forged | ⟨worker, fault, plan, spent, hold, sent, phase, rfl⟩ |
      ⟨worker, fault, plan, sent, index, notice, _, rfl⟩
    · obtain ⟨agent, author⟩ := author
      exact absurd ⟨sentRequest, id, ts, agent, forged, author, kind, request⟩ honest
    · exact Or.inl ⟨worker, id, ts, fault, plan, spent, hold, sent, phase,
        replyRequest_injective request⟩
    · cases kind

variable (isAlphanumeric budgets)

/-- The moments at which a reply to the delivery is stored. -/
def RepliedAt (actions : List Action) (key : DeliveryKey) (moment : Nat) : Prop :=
  ∃ action, actions[moment]? = some action ∧
    action.IsReply (systemAt isAlphanumeric budgets actions moment) key ∧
    (systemAt isAlphanumeric budgets actions (moment + 1)).store.messages.rows ≠
      (systemAt isAlphanumeric budgets actions moment).store.messages.rows

/-- The moments at which the notice of a final failure is stored. -/
def NoticedAt (actions : List Action) (key : DeliveryKey) (moment : Nat) : Prop :=
  ∃ action, actions[moment]? = some action ∧
    action.IsFinalFailure budgets (systemAt isAlphanumeric budgets actions moment) key ∧
    (systemAt isAlphanumeric budgets actions (moment + 1)).store.messages.rows ≠
      (systemAt isAlphanumeric budgets actions moment).store.messages.rows

/-- The reply contract of one delivery over one run. -/
structure RepliedOnce (actions : List Action) (key : DeliveryKey) : Prop where
  stored : ∀ moment,
    (repliesTo (systemAt isAlphanumeric budgets actions moment).store key).length ≤ 1
  posted : ∀ moment, RepliedAt isAlphanumeric budgets actions key moment →
    ∃ reply, (systemAt isAlphanumeric budgets actions (moment + 1)).store.messages.rows =
        (systemAt isAlphanumeric budgets actions moment).store.messages.rows ++ [reply] ∧
      reply ∈ repliesTo (systemAt isAlphanumeric budgets actions (moment + 1)).store key
  once : ∀ first second, RepliedAt isAlphanumeric budgets actions key first →
    RepliedAt isAlphanumeric budgets actions key second → first = second
  everywhere : (∀ action ∈ actions, ¬ action.ForgesReply key) → ∀ moment,
    (textsUnder (systemAt isAlphanumeric budgets actions moment).store key).length ≤ 1
  noticed : ∀ moment, NoticedAt isAlphanumeric budgets actions key moment →
    repliesTo (systemAt isAlphanumeric budgets actions moment).store key = []

variable {isAlphanumeric budgets}

theorem repliesTo_kept {actions : List Action} {key : DeliveryKey} {first second : Nat}
    (ordered : first ≤ second) {message : Message}
    (reply : message ∈ repliesTo (systemAt isAlphanumeric budgets actions first).store key) :
    message ∈ repliesTo (systemAt isAlphanumeric budgets actions second).store key := by
  have kept := stateAt_relates (System.step isAlphanumeric budgets) System.start
    (fun earlier later : System => ∀ message, message ∈ repliesTo earlier.store key →
      message ∈ repliesTo later.store key)
    (fun _ _ member => member) (fun _ _ _ toMiddle toLast message member =>
      toLast message (toMiddle message member))
    (by
      intro system action message member
      rcases System.store_step isAlphanumeric budgets system action with same | ⟨op, _, same⟩
      · rw [same]
        exact member
      · rw [same]
        exact repliesTo_step op member)
    actions ordered
  exact kept message reply

private theorem replied_at {actions : List Action} {key : DeliveryKey} {moment : Nat}
    (replied : RepliedAt isAlphanumeric budgets actions key moment) :
    repliesTo (systemAt isAlphanumeric budgets actions moment).store key = [] ∧
      ∃ reply, (systemAt isAlphanumeric budgets actions (moment + 1)).store.messages.rows =
          (systemAt isAlphanumeric budgets actions moment).store.messages.rows ++ [reply] ∧
        reply ∈ repliesTo (systemAt isAlphanumeric budgets actions (moment + 1)).store key := by
  obtain ⟨action, present, isReply, changed⟩ := replied
  have next := stateAt_succ (System.step isAlphanumeric budgets) System.start present
  simp only [systemAt, next] at changed ⊢
  exact reply_added (phase_known isAlphanumeric budgets actions moment) isReply changed

private theorem texts_step {system : System} {action : Action} {key : DeliveryKey}
    (known : ∀ worker, (system.worker worker).Known budgets system.store)
    (honest : ¬ action.ForgesReply key)
    (own : ∀ message ∈ textsUnder system.store key, message ∈ repliesTo system.store key) :
    ∀ message ∈ textsUnder (system.step isAlphanumeric budgets action).store key,
      message ∈ repliesTo (system.step isAlphanumeric budgets action).store key := by
  intro message text
  obtain ⟨member, kind, author, request⟩ := mem_textsUnder_iff.mp text
  by_cases same : (system.step isAlphanumeric budgets action).store.messages.rows =
      system.store.messages.rows
  · have before := own message (mem_textsUnder_iff.mpr ⟨same ▸ member, kind, author, request⟩)
    rcases System.store_step isAlphanumeric budgets system action with rest | ⟨op, _, next⟩
    · rw [rest]
      exact before
    · rw [next]
      exact repliesTo_step op before
  · rcases System.store_step isAlphanumeric budgets system action with rest | ⟨op, asked, next⟩
    · exact absurd (by rw [rest]) same
    · obtain ⟨stepped, added, step, nonempty, rows⟩ := message_added asked same
      rw [stepped, rows, List.mem_append] at member
      rcases member with old | new
      · rw [next]
        exact repliesTo_step op
          (own message (mem_textsUnder_iff.mpr ⟨old, kind, author, request⟩))
      · by_cases isReply : action.IsReply system key
        · obtain ⟨_, reply, grown, stored⟩ := reply_added known isReply same
          have lists : added = [reply] := by
            rw [stepped, rows] at grown
            exact List.append_cancel_left grown
          rw [lists, List.mem_singleton] at new
          exact new ▸ stored
        · exact absurd (isReply_of_text asked step new kind author request honest) isReply

/-- Over any run of any workers, with any crashes, reaps, retries and publications, each
delivery gets at most one reply, and a failure notice only without one. -/
theorem reply_at_most_once (isAlphanumeric : Char → Bool) (budgets : HandoffBudgets)
    (actions : List Action) (key : DeliveryKey) :
    RepliedOnce isAlphanumeric budgets actions key where
  stored := fun moment => repliesTo_length_le _ key
  posted := fun _ replied => (replied_at replied).2
  once := by
    intro first second firstReplied secondReplied
    have ordered : ∀ earlier later, RepliedAt isAlphanumeric budgets actions key earlier →
        RepliedAt isAlphanumeric budgets actions key later → ¬ earlier < later := by
      intro earlier later earlierReplied laterReplied before
      obtain ⟨_, reply, _, stored⟩ := replied_at earlierReplied
      have kept := repliesTo_kept before stored
      rw [(replied_at laterReplied).1] at kept
      exact absurd kept List.not_mem_nil
    have notBefore := ordered first second firstReplied secondReplied
    have notAfter := ordered second first secondReplied firstReplied
    omega
  everywhere := by
    intro honest moment
    have own := stateAt_invariant (System.step isAlphanumeric budgets) System.start actions
      (fun system => (∀ worker, (system.worker worker).Known budgets system.store) ∧
        ∀ message ∈ textsUnder system.store key, message ∈ repliesTo system.store key)
      ⟨fun _ => trivial, by simp [System.start, textsUnder, Store.empty]⟩
      (fun system action member ⟨known, own⟩ =>
        ⟨known_step action known, texts_step known (honest action member) own⟩) moment
    have all : repliesTo (systemAt isAlphanumeric budgets actions moment).store key =
        textsUnder (systemAt isAlphanumeric budgets actions moment).store key :=
      List.filter_eq_self.mpr (fun message text =>
        (List.mem_filter.mp (own.2 message text)).2)
    exact all ▸ repliesTo_length_le _ key
  noticed := by
    intro moment noticed
    obtain ⟨action, present, failure, changed⟩ := noticed
    have next := stateAt_succ (System.step isAlphanumeric budgets) System.start present
    simp only [systemAt, next] at changed
    exact notice_added failure changed

end Posting

end OHHive.Bots
