import OHHive.Bots.Executor
import OHHive.Bots.Fencing

/-! What every transaction adds to the tables and what it keeps, and from it what a
worker's phase knows about the store at any moment of any run. -/

namespace OHHive.Bots

open Foundation

section Tables

/-- The chain position of a delivery, fixed when the row is created. -/
structure SameChain (earlier later : AgentDelivery) : Prop where
  key : later.key = earlier.key
  cause : later.causeMessageId = earlier.causeMessageId
  root : later.rootMessageId = earlier.rootMessageId
  depth : later.turnDepth = earlier.turnDepth

theorem SameChain.refl (delivery : AgentDelivery) : SameChain delivery delivery :=
  ⟨rfl, rfl, rfl, rfl⟩

theorem SameChain.trans {first second third : AgentDelivery} (earlier : SameChain first second)
    (later : SameChain second third) : SameChain first third :=
  ⟨later.key.trans earlier.key, later.cause.trans earlier.cause, later.root.trans earlier.root,
    later.depth.trans earlier.depth⟩

/-- No step of an existing row touches its chain position. -/
theorem DeliveryStep.sameChain {store : Store} {key : DeliveryKey} {op : Op}
    {before : AgentDelivery} {after : Option AgentDelivery}
    (step : DeliveryStep store key op (some before) after) :
    ∃ later, after = some later ∧ SameChain before later := by
  cases step <;> exact ⟨_, rfl, ⟨rfl, rfl, rfl, rfl⟩⟩

/-- The messages one transaction adds. -/
inductive MessagesStep (store : Store) : Op → List Message → Prop
  | none (op) : MessagesStep store op []
  | sent (request id ts)
      (absent : store.messageByRequest? request.conversationId request.clientRequestId = none) :
      MessagesStep store (.send request id ts)
        [request.message id (store.nextSequence request.conversationId) ts]
  | noticed (key generation ts noticeId message conversation agent)
      (found : store.message? key.messageId = some message)
      (unreplied : store.messageByRequest? message.conversationId (replyRequest key) = Option.none) :
      MessagesStep store (.fail key generation Option.none ts noticeId)
        [failureNoticeRow key message conversation agent generation
          (store.nextSequence message.conversationId) noticeId ts]
  | published (binding operation generation reply id ts message)
      (found : store.message? operation = some message)
      (room : message.conversationId = binding.conversation)
      (unreplied : store.messageByRequest? binding.conversation
        (replyRequest ⟨operation, binding.agent⟩) = Option.none) :
      MessagesStep store (.publishSubscription binding operation generation reply id ts)
        [publishedRow binding operation reply (message.threadRoot.getD operation)
          (store.nextSequence binding.conversation) id ts]

private theorem finish_messages {store next : Store} {key : DeliveryKey} {generation : Nat}
    {status : DeliveryStatus} {retry : Option Int} {ts : Int} {noticeId : MessageId}
    {delivery : AgentDelivery}
    (done : botsDeliveryFinish store key generation status retry ts noticeId =
      .ok (next, delivery)) :
    next.messages.rows = store.messages.rows ∨
      status = .failed ∧
      ∃ message conversation agent, store.message? key.messageId = some message ∧
        store.messageByRequest? message.conversationId (replyRequest key) = none ∧
        next.messages.rows = store.messages.rows ++ [failureNoticeRow key message conversation
          agent generation (store.nextSequence message.conversationId) noticeId ts] := by
  obtain ⟨_, finished, _, _, _, rfl, _, ⟨failed, noticed⟩ | ⟨_, rfl⟩⟩ := botsDeliveryFinish_ok done
  · rcases insertFailureNotice_ok noticed with
      rfl | ⟨message, conversation, agent, found, unreplied, _, _, rows⟩
    · exact Or.inl rfl
    · exact Or.inr ⟨failed, message, conversation, agent, found, unreplied, rows⟩
  · exact Or.inl rfl

/-- Messages are only ever appended, and only in these ways. -/
theorem messages_step (store : Store) (op : Op) :
    ∃ added, MessagesStep store op added ∧
      (store.step op).messages.rows = store.messages.rows ++ added := by
  have unchanged : ∀ {next : Store}, next.messages.rows = store.messages.rows →
      ∃ added, MessagesStep store op added ∧ next.messages.rows = store.messages.rows ++ added :=
    fun same => ⟨[], .none op, by rw [same, List.append_nil]⟩
  unfold Store.step
  split
  · rename_i next done
    cases op with
    | send request id ts =>
      obtain ⟨_, done⟩ := ok_of_map done
      rcases sendInsert_ok done with ⟨_, _, rfl, _⟩ | ⟨absent, _, _, rows, _⟩
      · exact unchanged rfl
      · exact ⟨_, .sent request id ts absent, rows⟩
    | pendingForAgent agent limit ts =>
      obtain ⟨_, done⟩ := ok_of_map done
      obtain rfl := botsDeliveriesPendingForAgent_ok done
      exact unchanged rfl
    | claim key ts =>
      obtain ⟨_, done⟩ := ok_of_map done
      obtain ⟨_, _, _, _, _, _, rfl⟩ := claimWhere_ok done
      exact unchanged rfl
    | claimWithinBudget key most ts =>
      obtain ⟨_, done⟩ := ok_of_map done
      obtain ⟨_, _, _, _, _, _, rfl⟩ := claimWhere_ok done
      exact unchanged rfl
    | complete key generation ts noticeId =>
      obtain ⟨_, done⟩ := ok_of_map done
      rcases finish_messages done with same | ⟨failed, _⟩
      · exact unchanged same
      · cases failed
    | fail key generation retryAfter ts noticeId =>
      obtain ⟨_, done⟩ := ok_of_map done
      cases retryAfter with
      | none =>
        rcases finish_messages done with
          same | ⟨_, message, conversation, agent, found, unreplied, rows⟩
        · exact unchanged same
        · exact ⟨_, .noticed key generation ts noticeId message conversation agent found unreplied,
            rows⟩
      | some deadline =>
        rcases finish_messages done with same | ⟨failed, _⟩
        · exact unchanged same
        · cases failed
    | cancel actor key ts =>
      obtain ⟨_, done⟩ := ok_of_map done
      obtain ⟨_, _, _, rfl⟩ := botsDeliveryCancel_ok done
      exact unchanged rfl
    | publishSubscription binding operation generation reply id ts =>
      obtain ⟨_, done⟩ := ok_of_map done
      rcases botsPublishSubscription_ok done with
        rfl | ⟨_, message, posted, _, _, _, found, room, unreplied, _, _, rows, rfl⟩
      · exact unchanged rfl
      · exact ⟨_, .published binding operation generation reply id ts message found room unreplied,
          rows⟩
    | releaseRoot root ts =>
      obtain ⟨_, done⟩ := ok_of_map done
      obtain rfl := botsDeliveriesReleaseRoot_ok done
      exact unchanged rfl
    | administer agents conversations members =>
      obtain ⟨_, _, rfl⟩ := administerTables_ok done
      exact unchanged rfl
  · exact unchanged rfl

/-- The delivery rows of the next store are those of the store, each rewritten in place. -/
def RowsRewritten (store next : Store) : Prop :=
  ∃ rewrite : AgentDelivery → AgentDelivery,
    next.deliveries.rows = store.deliveries.rows.map rewrite ∧ ∀ row, (rewrite row).key = row.key

private theorem RowsRewritten.of_same {store next : Store}
    (rows : next.deliveries.rows = store.deliveries.rows) : RowsRewritten store next :=
  ⟨id, by rw [rows, List.map_id], fun _ => rfl⟩

private theorem RowsRewritten.of_update (store : Store) (selects : AgentDelivery → Bool)
    (change : AgentDelivery → AgentDelivery) (fixed) :
    RowsRewritten store (store.updateDeliveries selects change fixed).1 := by
  refine ⟨fun row => if selects row then change row else row, rfl, ?_⟩
  intro row
  dsimp only
  split
  · exact fixed row
  · rfl

private theorem RowsRewritten.of_finish {store next : Store} {key : DeliveryKey}
    {generation : Nat} {status : DeliveryStatus} {retry : Option Int} {ts : Int}
    {noticeId : MessageId} {delivery : AgentDelivery}
    (done : botsDeliveryFinish store key generation status retry ts noticeId =
      .ok (next, delivery)) : RowsRewritten store next := by
  obtain ⟨_, finished, _, _, _, rfl, frame, _⟩ := botsDeliveryFinish_ok done
  rw [frame]
  exact RowsRewritten.of_update store _ _ (AgentDelivery.key_finished status retry ts)

/-- A send that stored its message: the identity and the request key were new. -/
structure Sent (store next : Store) (request : SendRequest) (id : MessageId) (ts : Int) :
    Prop where
  absent : store.messageByRequest? request.conversationId request.clientRequestId = none
  fresh : store.message? id = none
  message : next.message? id =
    some (request.message id (store.nextSequence request.conversationId) ts)
  roots : ∀ delivery ∈ request.deliveries id ts, ∀ root ∈ delivery.rootMessageId,
    (next.message? root).isSome

private theorem rows_rewritten (store : Store) (op : Op) :
    RowsRewritten store (store.step op) ∨
      ∃ request id ts, op = .send request id ts ∧ Sent store (store.step op) request id ts ∧
        (store.step op).deliveries.rows =
          store.deliveries.rows ++ request.deliveries id ts := by
  unfold Store.step
  split
  · rename_i next done
    cases op with
    | send request id ts =>
      obtain ⟨_, done⟩ := ok_of_map done
      rcases sendInsert_ok done with
        ⟨_, _, rfl, _⟩ | ⟨absent, _, _, messages, fits, rows, fresh, _⟩
      · exact Or.inl (.of_same rfl)
      · refine Or.inr ⟨request, id, ts, rfl, ⟨absent, ?_, ?_, fun delivery member =>
          (fresh delivery member).2.1⟩, rows⟩
        · cases taken : store.message? id with
          | none => rfl
          | some other =>
            obtain ⟨member, same⟩ := Store.message?_eq_some_iff.mp taken
            exact absurd (Or.inl same) (fits other member)
        · apply Store.message?_eq_some_iff.mpr
          exact ⟨by rw [messages]; simp, rfl⟩
    | pendingForAgent agent limit ts =>
      obtain ⟨_, done⟩ := ok_of_map done
      obtain rfl := botsDeliveriesPendingForAgent_ok done
      exact Or.inl (.of_update _ _ _ _)
    | claim key ts =>
      obtain ⟨_, done⟩ := ok_of_map done
      obtain ⟨_, _, _, _, _, _, rfl⟩ := claimWhere_ok done
      exact Or.inl (.of_update _ _ _ _)
    | claimWithinBudget key most ts =>
      obtain ⟨_, done⟩ := ok_of_map done
      obtain ⟨_, _, _, _, _, _, rfl⟩ := claimWhere_ok done
      exact Or.inl (.of_update _ _ _ _)
    | complete key generation ts noticeId =>
      obtain ⟨_, done⟩ := ok_of_map done
      exact Or.inl (.of_finish done)
    | fail key generation retryAfter ts noticeId =>
      obtain ⟨_, done⟩ := ok_of_map done
      cases retryAfter with
      | none => exact Or.inl (.of_finish done)
      | some deadline => exact Or.inl (.of_finish done)
    | cancel actor key ts =>
      obtain ⟨_, done⟩ := ok_of_map done
      obtain ⟨_, _, _, rfl⟩ := botsDeliveryCancel_ok done
      exact Or.inl (.of_update _ _ _ _)
    | publishSubscription binding operation generation reply id ts =>
      obtain ⟨_, done⟩ := ok_of_map done
      rcases botsPublishSubscription_ok done with
        rfl | ⟨_, _, posted, _, _, _, _, _, _, frame, _, _, rfl⟩
      · exact Or.inl (.of_same rfl)
      · rw [frame]
        exact Or.inl (.of_update _ _ _ _)
    | releaseRoot root ts =>
      obtain ⟨_, done⟩ := ok_of_map done
      obtain rfl := botsDeliveriesReleaseRoot_ok done
      exact Or.inl (.of_update _ _ _ _)
    | administer agents conversations members =>
      obtain ⟨_, _, rfl⟩ := administerTables_ok done
      exact Or.inl (.of_same rfl)
  · exact Or.inl (.of_same rfl)

/-- A transaction moves the delivery rows in place along the named steps, and appends the
rows of a new send. -/
theorem rows_step (store : Store) (op : Op) :
    ∃ (rewrite : AgentDelivery → AgentDelivery) (added : List AgentDelivery),
      (store.step op).deliveries.rows = store.deliveries.rows.map rewrite ++ added ∧
      (∀ row ∈ store.deliveries.rows,
        DeliveryStep store row.key op (some row) (some (rewrite row))) ∧
      (added = [] ∨ ∃ request id ts, op = .send request id ts ∧
        added = request.deliveries id ts ∧ Sent store (store.step op) request id ts) := by
  have steps : ∀ (rewrite : AgentDelivery → AgentDelivery) (added : List AgentDelivery),
      (store.step op).deliveries.rows = store.deliveries.rows.map rewrite ++ added →
      (∀ row, (rewrite row).key = row.key) → ∀ row ∈ store.deliveries.rows,
        DeliveryStep store row.key op (some row) (some (rewrite row)) := by
    intro rewrite added rows fixed row member
    have before : store.delivery? row.key = some row :=
      Store.delivery?_eq_some_iff.mpr ⟨member, rfl⟩
    have after : (store.step op).delivery? row.key = some (rewrite row) := by
      apply Store.delivery?_eq_some_iff.mpr
      refine ⟨?_, fixed row⟩
      rw [rows]
      exact List.mem_append_left _ (List.mem_map_of_mem member)
    have step := delivery_step store op row.key
    rwa [before, after] at step
  rcases rows_rewritten store op with
    ⟨rewrite, rows, fixed⟩ | ⟨request, id, ts, same, sent, rows⟩
  · have appended : (store.step op).deliveries.rows = store.deliveries.rows.map rewrite ++ [] := by
      rw [rows, List.append_nil]
    exact ⟨rewrite, [], appended, steps rewrite [] appended fixed, Or.inl rfl⟩
  · have appended : (store.step op).deliveries.rows =
        store.deliveries.rows.map (fun row => row) ++ request.deliveries id ts := by
      rw [rows, List.map_id']
    exact ⟨fun row => row, _, appended, steps _ _ appended (fun _ => rfl),
      Or.inr ⟨request, id, ts, same, rfl, sent⟩⟩

theorem message?_step {store : Store} (op : Op) {id : MessageId} {message : Message}
    (found : store.message? id = some message) :
    (store.step op).message? id = some message := by
  obtain ⟨added, _, rows⟩ := messages_step store op
  obtain ⟨member, same⟩ := Store.message?_eq_some_iff.mp found
  apply Store.message?_eq_some_iff.mpr
  exact ⟨by rw [rows]; exact List.mem_append_left _ member, same⟩

theorem delivery?_step {store : Store} (op : Op) {key : DeliveryKey} {row : AgentDelivery}
    (found : store.delivery? key = some row) :
    ∃ later, (store.step op).delivery? key = some later ∧ SameChain row later := by
  have step := delivery_step store op key
  rw [found] at step
  exact step.sameChain

end Tables

section Systems

variable (isAlphanumeric : Char → Bool) (budgets : HandoffBudgets)

/-- A hub with no stored data and any number of idle workers. -/
def System.start : System := ⟨Store.empty, fun _ => .idle⟩

abbrev systemAt (actions : List Action) (moment : Nat) : System :=
  stateAt (System.step isAlphanumeric budgets) System.start actions moment

/-- The transaction with which a worker resolves a turn. -/
def closeOp (delivery : AgentDelivery) (outcome : AttemptOutcome) (ts retryTs : Int)
    (noticeId : MessageId) : Op :=
  match outcome with
  | .delivered => .complete delivery.key delivery.leaseGeneration ts noticeId
  | .noCapacity => .fail delivery.key delivery.leaseGeneration
      (some (retryTs + noCapacityRetrySeconds)) ts noticeId
  | .failed => .fail delivery.key delivery.leaseGeneration none ts noticeId
  | .noRunner => .fail delivery.key delivery.leaseGeneration (some retryTs) ts noticeId

/-- The transaction an action asks the store for, if any. -/
def Action.op? (system : System) : Action → Option Op
  | .transact op => some op
  | .claim worker key ts _ =>
    match system.worker worker with
    | .idle => some (.claimWithinBudget key budgets.maxActiveTurnsPerAgent ts)
    | _ => none
  | .send worker id ts _ =>
    match system.worker worker with
    | .gated plan _ hold => some (.send (plan.request hold) id ts)
    | _ => none
  | .notice worker id ts _ =>
    match system.worker worker with
    | .noticing plan sent index =>
      (plan.notices[index]?).map (fun notice => .send (plan.noticeRequest sent index notice) id ts)
    | _ => none
  | .close worker ts retryTs noticeId _ =>
    match system.worker worker with
    | .closing delivery outcome => some (closeOp delivery outcome ts retryTs noticeId)
    | .failing delivery => some (.fail delivery.key delivery.leaseGeneration none ts noticeId)
    | _ => none
  | _ => none

variable {budgets} in
/-- A send is somebody's transaction, a worker's reply, or one of its notices. -/
theorem Action.op?_eq_send {system : System} {action : Action} {request : SendRequest}
    {id : MessageId} {ts : Int} (asked : action.op? budgets system = some (.send request id ts)) :
    action = .transact (.send request id ts) ∨
      (∃ worker fault plan spent hold, action = .send worker id ts fault ∧
        system.worker worker = .gated plan spent hold ∧ request = plan.request hold) ∨
      ∃ worker fault, ∃ plan : ReplyPlan, ∃ sent index notice,
        action = .notice worker id ts fault ∧ request = plan.noticeRequest sent index notice := by
  cases action with
  | transact op => exact Or.inl (by rw [Option.some.inj asked])
  | send worker id ts fault =>
    simp only [Action.op?] at asked
    split at asked
    · rename_i plan spent hold phase
      cases asked
      exact Or.inr (Or.inl ⟨worker, fault, plan, spent, hold, rfl, phase, rfl⟩)
    · cases asked
  | notice worker id ts fault =>
    simp only [Action.op?] at asked
    split at asked
    · obtain ⟨notice, _, sent⟩ := Option.map_eq_some_iff.mp asked
      cases sent
      exact Or.inr (Or.inr ⟨worker, fault, _, _, _, notice, rfl, rfl⟩)
    · cases asked
  | close worker ts retryTs noticeId fault =>
    simp only [Action.op?] at asked
    split at asked
    · rename_i delivery outcome _
      cases outcome <;> cases asked
    · cases asked
    · cases asked
  | claim worker key ts fault =>
    simp only [Action.op?] at asked
    split at asked <;> cases asked
  | _ => cases asked

/-- The transactions a worker asks for; every other one is somebody's own. -/
def Op.byWorker : Op → Bool
  | .send .. | .claimWithinBudget .. | .complete .. | .fail .. => true
  | _ => false

variable {budgets} in
theorem Action.op?_eq_own {system : System} {action : Action} {op : Op}
    (asked : action.op? budgets system = some op) (own : op.byWorker = false) :
    action = .transact op := by
  cases action with
  | transact op => rw [Option.some.inj asked]
  | notice worker id ts fault =>
    simp only [Action.op?] at asked
    split at asked
    · obtain ⟨_, _, rfl⟩ := Option.map_eq_some_iff.mp asked
      cases own
    · cases asked
  | close worker ts retryTs noticeId fault =>
    simp only [Action.op?] at asked
    split at asked
    · rename_i delivery outcome _
      obtain rfl := Option.some.inj asked
      cases outcome <;> cases own
    · obtain rfl := Option.some.inj asked
      cases own
    · cases asked
  | claim | send =>
    simp only [Action.op?] at asked
    split at asked
    · obtain rfl := Option.some.inj asked
      cases own
    · cases asked
  | _ => cases asked

theorem attempt_step (store : Store) (op : Op) {call : Result (Store × α)}
    (performs : op.perform store = Prod.fst <$> call) (fault : Fault) :
    (attempt fault store call).1 = store ∨ (attempt fault store call).1 = store.step op := by
  cases call with
  | error failure => cases fault <;> exact Or.inl rfl
  | ok pair =>
    have stepped : store.step op = pair.1 := by simp [Store.step, performs]
    cases fault with
    | none => exact Or.inr stepped.symm
    | before => exact Or.inl rfl
    | after => exact Or.inr stepped.symm

theorem System.worker_enter (system : System) (worker other : Nat) (phase : Phase) :
    (system.enter worker phase).worker other =
      if other = worker then phase else system.worker other := by
  simp [System.enter, Function.update_apply]

/-- Whatever a worker does, the store sees the transaction asked for, or nothing. -/
theorem System.store_step (system : System) (action : Action) :
    (system.step isAlphanumeric budgets action).store = system.store ∨
      ∃ op, action.op? budgets system = some op ∧
        (system.step isAlphanumeric budgets action).store = system.store.step op := by
  have lift : ∀ {store : Store} {op : Op}, action.op? budgets system = some op →
      store = system.store ∨ store = system.store.step op →
      store = system.store ∨ ∃ op, action.op? budgets system = some op ∧
        store = system.store.step op :=
    fun asked seen => seen.imp id (fun stepped => ⟨_, asked, stepped⟩)
  cases action with
  | transact op => exact Or.inr ⟨op, rfl, rfl⟩
  | claim worker key ts fault =>
    simp only [System.step]
    split
    · rename_i idle
      have seen := attempt_step system.store (.claimWithinBudget key budgets.maxActiveTurnsPerAgent ts)
        rfl fault
      split <;> exact lift (by simp [Action.op?, idle]) seen
    · exact Or.inl rfl
  | locate worker fault =>
    simp only [System.step]
    split
    · split <;> exact Or.inl rfl
    · exact Or.inl rfl
  | authorize worker fault =>
    simp only [System.step]
    split
    · split <;> exact Or.inl rfl
    · exact Or.inl rfl
  | brief worker fault =>
    simp only [System.step]
    split <;> exact Or.inl rfl
  | run worker outcome =>
    simp only [System.step]
    split
    · split <;> exact Or.inl rfl
    · exact Or.inl rfl
  | gate worker fault =>
    simp only [System.step]
    split
    · split
      · exact Or.inl rfl
      · split <;> exact Or.inl rfl
    · exact Or.inl rfl
  | send worker id ts fault =>
    simp only [System.step]
    split
    · rename_i plan spent hold phase
      have seen := attempt_step system.store (.send (plan.request hold) id ts) rfl fault
      split <;> exact lift (by simp [Action.op?, phase]) seen
    · exact Or.inl rfl
  | notice worker id ts fault =>
    simp only [System.step]
    split
    · rename_i plan sent index phase
      split
      · rename_i notice present
        have seen := attempt_step system.store (.send (plan.noticeRequest sent index notice) id ts)
          rfl fault
        exact lift (by simp [Action.op?, phase, present]) seen
      · exact Or.inl rfl
    · exact Or.inl rfl
  | close worker ts retryTs noticeId fault =>
    simp only [System.step]
    split
    · rename_i delivery outcome phase
      have performs : (closeOp delivery outcome ts retryTs noticeId).perform system.store =
          Prod.fst <$> System.closeCall system.store delivery outcome ts retryTs noticeId := by
        cases outcome <;> rfl
      have seen := attempt_step _ _ performs fault
      split <;> exact lift (by simp [Action.op?, phase]) seen
    · rename_i delivery phase
      have seen := attempt_step system.store
        (.fail delivery.key delivery.leaseGeneration none ts noticeId) rfl fault
      exact lift (by simp [Action.op?, phase]) seen
    · exact Or.inl rfl
  | crash worker => exact Or.inl rfl

/-- The claimed row is still stored, at the chain position the worker read. -/
def TurnKnown (store : Store) (delivery : AgentDelivery) : Prop :=
  ∃ row, store.delivery? delivery.key = some row ∧ SameChain delivery row

/-- What a drafted reply knows: its message, and recipients within the budgets. -/
structure PlanKnown (store : Store) (plan : ReplyPlan) : Prop where
  turn : TurnKnown store plan.delivery
  incoming : store.message? plan.delivery.key.messageId = some plan.incoming
  distinct : plan.recipients.Nodup
  width : plan.recipients.length ≤ budgets.maxActiveSpecialistHandoffsPerRun
  notSelf : ∀ recipient ∈ plan.recipients, recipient ≠ plan.delivery.key.recipient
  depth : plan.recipients ≠ [] → (replyCause plan.delivery).depth ≤ budgets.maxDepth

/-- The gate let the reply pass on the count it read. -/
def Affordable (plan : ReplyPlan) (spent : Option Nat) : Prop :=
  plan.recipients ≠ [] → ∃ count, spent = some count ∧
    saturatingAdd count plan.recipients.length ≤ budgets.maxTurnsPerRoot

def Phase.Known (store : Store) : Phase → Prop
  | .idle => True
  | .claimed delivery | .closing delivery _ | .failing delivery => TurnKnown store delivery
  | .located delivery incoming | .authorized delivery incoming _
  | .briefed delivery incoming _ _ =>
      TurnKnown store delivery ∧ store.message? delivery.key.messageId = some incoming
  | .routed plan | .noticing plan _ _ => PlanKnown budgets store plan
  | .gated plan spent hold =>
      PlanKnown budgets store plan ∧ (hold = false → Affordable budgets plan spent)

variable {isAlphanumeric budgets}

theorem TurnKnown.step {store : Store} {delivery : AgentDelivery}
    (known : TurnKnown store delivery) (op : Op) : TurnKnown (store.step op) delivery := by
  obtain ⟨row, found, chain⟩ := known
  obtain ⟨later, present, kept⟩ := delivery?_step op found
  exact ⟨later, present, chain.trans kept⟩

theorem PlanKnown.step {store : Store} {plan : ReplyPlan} (known : PlanKnown budgets store plan)
    (op : Op) : PlanKnown budgets (store.step op) plan :=
  { known with
    turn := known.turn.step op
    incoming := message?_step op known.incoming }

/-- Knowledge of the store is never lost. -/
theorem Phase.Known.step {store : Store} {phase : Phase} (known : phase.Known budgets store)
    (op : Op) : phase.Known budgets (store.step op) := by
  cases phase with
  | idle => trivial
  | claimed | closing | failing => exact TurnKnown.step known op
  | located | authorized | briefed => exact ⟨known.1.step op, message?_step op known.2⟩
  | routed | noticing => exact PlanKnown.step known op
  | gated => exact ⟨known.1.step op, known.2⟩

private theorem known_of_store_step {system : System} {action : Action} {phase : Phase}
    (known : phase.Known budgets system.store) :
    phase.Known budgets (system.step isAlphanumeric budgets action).store := by
  rcases System.store_step isAlphanumeric budgets system action with same | ⟨op, _, same⟩
  · rw [same]
    exact known
  · rw [same]
    exact known.step op

theorem planKnown_route {store : Store} {delivery : AgentDelivery} {incoming : Message}
    (turn : TurnKnown store delivery)
    (found : store.message? delivery.key.messageId = some incoming) (revision : Nat)
    (roster : List AgentProfile) (body : String) :
    PlanKnown budgets store
      (routeReply isAlphanumeric budgets delivery incoming revision roster body) := by
  unfold routeReply
  split
  · exact ⟨turn, found, List.nodup_nil, Nat.zero_le _, by simp, by simp⟩
  · rename_i within
    have addressable := Mentions.resolveMentions_addressable isAlphanumeric body roster
      (.agent delivery.key.recipient)
    refine ⟨turn, found, ?_, List.length_take_le _ _, ?_, fun _ => Nat.le_of_not_lt within⟩
    · exact addressable.distinct.sublist (List.take_sublist _ _)
    · intro recipient member same
      exact addressable.notSelf recipient (List.mem_of_mem_take member) (by rw [same])

/-- The gate lets a reply pass only on a count it could read. -/
theorem turnBudgetDecision_eq_proceed_iff (spent : Option Nat) {pending : Nat}
    (maxTurnsPerRoot : Nat) (inRange : pending ≤ u32Max) :
    turnBudgetDecision spent pending maxTurnsPerRoot = .proceed ↔
      ∃ count, spent = some count ∧ saturatingAdd count pending ≤ maxTurnsPerRoot := by
  unfold turnBudgetDecision
  cases spent with
  | none => simp
  | some count =>
    simp only [Nat.mod_eq_of_lt (Nat.lt_succ_of_le inRange)]
    split
    · rename_i beyond
      simp [Nat.not_le_of_lt beyond]
    · rename_i within
      simpa using Nat.le_of_not_lt within

theorem PlanKnown.inRange {store : Store} {plan : ReplyPlan} (known : PlanKnown budgets store plan) :
    plan.recipients.length ≤ u32Max :=
  Nat.le_trans known.width budgets.width_le

private theorem affordable_of_proceed {store : Store} {plan : ReplyPlan} {spent : Option Nat}
    (known : PlanKnown budgets store plan)
    (proceeds : turnBudgetDecision spent plan.recipients.length budgets.maxTurnsPerRoot =
      .proceed) : Affordable budgets plan spent :=
  fun _ => (turnBudgetDecision_eq_proceed_iff spent _ known.inRange).mp proceeds

private theorem turnKnown_of_claim {store next : Store} {key : DeliveryKey} {most : Nat}
    {ts : Int} {delivery : AgentDelivery}
    (done : botsDeliveryClaimWithinBudget store key most ts = .ok (next, delivery)) :
    TurnKnown next delivery := by
  obtain ⟨row, found, claimable, admitted, rfl, _, rfl⟩ := claimWhere_ok done
  refine ⟨row.claimed ts, ?_, SameChain.refl _⟩
  rw [Store.delivery?_updateDeliveries, AgentDelivery.key_claimed, Store.key_of_delivery? found,
    found]
  simp only [Option.map_some, Store.key_of_delivery? found, claimable, admitted, decide_true,
    Bool.and_self, if_true]

theorem attemptRead_ok {fault : Fault} {call : Result α} {value : α}
    (read : attemptRead fault call = some value) : call = .ok value := by
  cases fault <;> cases call <;> simp_all [attemptRead]

theorem attempt_ok {fault : Fault} {store : Store} {call : Result (Store × α)}
    {value : α} (answered : (attempt fault store call).2 = some value) :
    call = .ok ((attempt fault store call).1, value) := by
  cases call with
  | error failure => cases fault <;> simp [attempt] at answered
  | ok pair => cases fault <;> simp_all [attempt, Prod.ext_iff]

/-- An action moves at most one worker, into a phase that knows the new store. -/
theorem System.phase_step {system : System} (action : Action)
    (known : ∀ worker, (system.worker worker).Known budgets system.store) :
    (system.step isAlphanumeric budgets action).worker = system.worker ∨
      ∃ worker phase, (system.step isAlphanumeric budgets action).worker =
          Function.update system.worker worker phase ∧
        phase.Known budgets (system.step isAlphanumeric budgets action).store := by
  have enters : ∀ {store : Store} (worker : Nat) (phase : Phase), phase.Known budgets store →
      (System.enter { system with store } worker phase).worker = system.worker ∨
      ∃ worker' phase', (System.enter { system with store } worker phase).worker =
          Function.update system.worker worker' phase' ∧
        phase'.Known budgets (System.enter { system with store } worker phase).store :=
    fun worker phase entered => Or.inr ⟨worker, phase, rfl, entered⟩
  have kept : ∀ worker, (system.worker worker).Known budgets
      (system.step isAlphanumeric budgets action).store :=
    fun worker => known_of_store_step (known worker)
  cases action with
  | transact op => exact Or.inl rfl
  | claim worker key ts fault =>
    simp only [System.step]
    split
    · split
      · rename_i delivery answered
        exact enters worker _ (turnKnown_of_claim (attempt_ok answered))
      · exact Or.inl rfl
    · exact Or.inl rfl
  | locate worker fault =>
    have old := known worker
    simp only [System.step]
    split
    · rename_i delivery phase
      rw [phase] at old
      split
      · rename_i incoming answered
        have found := orFail_eq_ok_iff.mp (attemptRead_ok answered)
        exact enters worker (.located delivery incoming) ⟨old, found⟩
      · exact enters worker (.closing delivery .failed) old
    · exact Or.inl rfl
  | authorize worker fault =>
    have old := known worker
    simp only [System.step]
    split
    · rename_i delivery incoming phase
      rw [phase] at old
      split
      · rename_i revision _
        exact enters worker (.authorized delivery incoming revision) old
      · exact enters worker (.closing delivery .failed) old.1
    · exact Or.inl rfl
  | brief worker fault =>
    have old := known worker
    simp only [System.step]
    split
    · rename_i delivery incoming revision phase
      rw [phase] at old
      exact enters worker (.briefed delivery incoming revision _) old
    · exact Or.inl rfl
  | run worker outcome =>
    have old := known worker
    simp only [System.step]
    split
    · rename_i delivery incoming revision roster phase
      rw [phase] at old
      split
      · rename_i body
        exact enters worker (.routed _) (planKnown_route old.1 old.2 revision roster body)
      · exact enters worker (.closing delivery .noCapacity) old.1
      · exact enters worker (.closing delivery .failed) old.1
      · exact enters worker (.closing delivery .noRunner) old.1
    · exact Or.inl rfl
  | gate worker fault =>
    have old := known worker
    simp only [System.step]
    split
    · rename_i plan phase
      rw [phase] at old
      split
      · rename_i empty
        apply enters worker (.gated plan none false)
        exact ⟨old, fun _ nonempty => absurd (List.isEmpty_iff.mp empty) nonempty⟩
      · split
        · rename_i proceeds
          exact enters worker (.gated plan _ false)
            ⟨old, fun _ => affordable_of_proceed old proceeds⟩
        · rename_i notice _
          apply enters worker (.gated { plan with notices := plan.notices ++ [notice] } _ true)
          exact ⟨⟨old.turn, old.incoming, old.distinct, old.width, old.notSelf, old.depth⟩, by simp⟩
    · exact Or.inl rfl
  | send worker id ts fault =>
    have old := kept worker
    revert old
    simp only [System.step]
    split
    · rename_i plan spent hold phase
      split
      · rename_i message _
        intro old
        rw [phase] at old
        exact enters worker (.noticing plan message 0) old.1
      · intro old
        rw [phase] at old
        exact enters worker (.closing plan.delivery .failed) old.1.turn
    · exact fun _ => Or.inl rfl
  | notice worker id ts fault =>
    have old := kept worker
    revert old
    simp only [System.step]
    split
    · rename_i plan sent index phase
      split
      · intro old
        rw [phase] at old
        exact enters worker (.noticing plan sent (index + 1)) old
      · intro old
        rw [phase] at old
        exact enters worker (.closing plan.delivery .delivered) old.turn
    · exact fun _ => Or.inl rfl
  | close worker ts retryTs noticeId fault =>
    have old := kept worker
    revert old
    simp only [System.step]
    split
    · rename_i delivery outcome phase
      split
      · intro old
        rw [phase] at old
        exact enters worker (.failing delivery) old
      · exact fun _ => enters worker .idle trivial
    · exact fun _ => enters worker .idle trivial
    · exact fun _ => Or.inl rfl
  | crash worker => exact enters worker .idle trivial

/-- No action invalidates what any worker knows. -/
theorem known_step {system : System} (action : Action)
    (known : ∀ worker, (system.worker worker).Known budgets system.store) :
    ∀ worker, ((system.step isAlphanumeric budgets action).worker worker).Known budgets
      (system.step isAlphanumeric budgets action).store := by
  intro worker
  rcases System.phase_step action known with same | ⟨moved, phase, same, entered⟩
  · rw [same]
    exact known_of_store_step (known worker)
  · rw [same, Function.update_apply]
    split
    · exact entered
    · exact known_of_store_step (known worker)

/-- In every reachable system every worker's reading of the store still stands. -/
theorem phase_known (isAlphanumeric : Char → Bool) (budgets : HandoffBudgets)
    (actions : List Action) :
    ∀ moment worker, ((systemAt isAlphanumeric budgets actions moment).worker worker).Known budgets
      (systemAt isAlphanumeric budgets actions moment).store :=
  stateAt_invariant (System.step isAlphanumeric budgets) System.start actions
    (fun system => ∀ worker, (system.worker worker).Known budgets system.store)
    (fun _ => trivial) (fun _ action _ known => known_step action known)

end Systems

end OHHive.Bots
