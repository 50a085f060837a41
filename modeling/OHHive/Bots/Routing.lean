import OHHive.Bots.Transcript
import OHHive.Bots.LoopSafety

/-! Who answers for an agent. An executor's filter, the hub's check that a node hosts an agent
and the sweep's query compare the agent's runtime and host each in its own way; here is how
they agree. -/

namespace OHHive.Bots

open Foundation

section Hosts

/-- A worker of one computer, with the runners it was built with. -/
structure DeliveryExecutor where
  host : Uuid
  owner : UserId
  runner : Bool
  cloudRunner : Bool
deriving DecidableEq, Repr

namespace DeliveryExecutor

/-- Whether a runner answers for an agent of this runtime. -/
def runnerFor (executor : DeliveryExecutor) (agent : AgentProfile) : Bool :=
  match agent.runtimeKind with
  | .local => executor.runner
  | .anthropicByok | .nousByok => executor.cloudRunner
  | .chatgptSubscription | .copilotSubscription | .grokSubscription => false

/-- The executor's own filter: a local agent runs where it is pinned, a provider agent
wherever a cloud runner exists. -/
def hostedHere (executor : DeliveryExecutor) (agent : AgentProfile) : Bool :=
  match agent.runtimeKind with
  | .local => executor.runner && agent.preferredHost = some executor.host
  | .anthropicByok | .nousByok => executor.cloudRunner &&
      (agent.preferredHost = none || agent.preferredHost = some executor.host)
  | .chatgptSubscription | .copilotSubscription | .grokSubscription => false

/-- The agents one drain pass works through. -/
def mine (executor : DeliveryExecutor) (store : Store) : List AgentProfile :=
  ((botsAgentsList store executor.owner).filter (fun agent => !agent.archived)).filter
    executor.hostedHere

/-- The notices its sweep posts at the end of a pass. -/
def reports (executor : DeliveryExecutor) (store : Store) (nodes : List Uuid) :
    List UnroutableRow :=
  unroutableRows store nodes executor.owner executor.host executor.runner

end DeliveryExecutor

/-- The hub's own comparison: whatever is not local may be unpinned. -/
def hostedBy (node : Uuid) (agent : AgentProfile) : Bool :=
  match agent.runtimeKind with
  | .local => agent.preferredHost = some node
  | _ => agent.preferredHost = none || agent.preferredHost = some node

/-- The gate of the delivery surface for the session of an owner's node. -/
def botsHostsAgent (store : Store) (owner : UserId) (node : Uuid) (agent : AgentId) :
    Result UserId := do
  let profile ← orFail (store.agent? agent) (rejected "not found: agent")
  require (profile.owner = owner) (rejected "forbidden: agent belongs to another account")
  require (hostedBy node profile)
    (rejected "forbidden: this node does not host that agent, so it cannot act for it")
  pure owner

end Hosts

section Agreement

variable {store : Store} {nodes : List Uuid} {executor : DeliveryExecutor} {agent : AgentProfile}

theorem botsHostsAgent_eq_ok_iff {owner granted : UserId} {node : Uuid} {id : AgentId} :
    botsHostsAgent store owner node id = .ok granted ↔
      ∃ profile, store.agent? id = some profile ∧ profile.owner = owner ∧
        hostedBy node profile = true ∧ granted = owner := by
  simp only [botsHostsAgent, bind_eq_ok_iff, orFail_eq_ok_iff, require_eq_ok_iff, exists_const,
    pure_eq_ok_iff]
  constructor
  · rintro ⟨profile, found, owned, hosted, rfl⟩
    exact ⟨profile, found, owned, hosted, rfl⟩
  · rintro ⟨profile, found, owned, hosted, rfl⟩
    exact ⟨profile, found, owned, hosted, rfl⟩

/-- With the right runner at hand, the filter and the gate compare alike. -/
theorem hostedHere_iff :
    executor.hostedHere agent = true ↔
      executor.runnerFor agent = true ∧ hostedBy executor.host agent = true := by
  unfold DeliveryExecutor.hostedHere DeliveryExecutor.runnerFor hostedBy
  cases agent.runtimeKind <;> simp

theorem mem_botsAgentsList {owner : UserId} (listed : agent ∈ botsAgentsList store owner) :
    agent ∈ store.agents.rows ∧ agent.owner = owner ∧ agent.archived = false := by
  have stored := (List.mem_insertionSort _).mp (List.mem_of_mem_take listed)
  simpa using stored

theorem mem_mine_iff :
    agent ∈ executor.mine store ↔ agent ∈ botsAgentsList store executor.owner ∧
      executor.runnerFor agent = true ∧ hostedBy executor.host agent = true := by
  simp only [DeliveryExecutor.mine, List.mem_filter, hostedHere_iff, Bool.not_eq_true']
  constructor
  · rintro ⟨⟨listed, _⟩, hosted⟩
    exact ⟨listed, hosted⟩
  · rintro ⟨listed, hosted⟩
    exact ⟨⟨listed, (mem_botsAgentsList listed).2.2⟩, hosted⟩

theorem mem_reports {sweeper : DeliveryExecutor} {row : UnroutableRow}
    (reported : row ∈ sweeper.reports store nodes) :
    row.delivery ∈ store.deliveries.rows ∧ row.delivery.status = .pending ∧
      store.agent? row.delivery.key.recipient = some row.agent ∧
      cannotRun nodes sweeper.host sweeper.runner row.agent = true := by
  have selected := (List.mem_insertionSort _).mp (List.mem_of_mem_take reported)
  obtain ⟨delivery, stored, found⟩ := List.mem_filterMap.mp selected
  obtain ⟨rfl, _, agent, pending, _, stuck, _⟩ := unroutableRow?_eq_some_iff.mp found
  exact ⟨stored, pending, agent, stuck⟩

/-- A local agent that an executor picks up is no news to that executor's sweep, nor to the
sweep of another computer when the vault knows the executor's. -/
theorem not_cannotRun {sweeper : DeliveryExecutor} (picked : agent ∈ executor.mine store)
    (isLocal : agent.runtimeKind = .local)
    (known : sweeper = executor ∨ sweeper.host ≠ executor.host ∧ executor.host ∈ nodes) :
    cannotRun nodes sweeper.host sweeper.runner agent = false := by
  obtain ⟨listed, runs, hosted⟩ := mem_mine_iff.mp picked
  have live := (mem_botsAgentsList listed).2.2
  have ready : executor.runner = true := by
    simpa [DeliveryExecutor.runnerFor, isLocal] using runs
  have pinned : agent.preferredHost = some executor.host := by
    simpa [hostedBy, isLocal] using hosted
  rcases known with rfl | ⟨other, paired⟩
  · simp [cannotRun, live, isLocal, pinned, ready]
  · have elsewhere : executor.host ≠ sweeper.host := Ne.symm other
    simp [cannotRun, live, isLocal, pinned, paired, elsewhere]

/-- What no sweep of a computer reports is local work pinned to it with a runner at hand, or
pinned to another computer the vault knows. -/
theorem cannotRun_eq_false {host : Uuid} {localReady : Bool}
    (quiet : cannotRun nodes host localReady agent = false) :
    agent.archived = false ∧ agent.runtimeKind = .local ∧
      ∃ preferred, agent.preferredHost = some preferred ∧
        (preferred = host ∧ localReady = true ∨ preferred ≠ host ∧ preferred ∈ nodes) := by
  cases pinned : agent.preferredHost with
  | none => simp [cannotRun, pinned] at quiet
  | some preferred =>
    simp only [cannotRun, pinned, Bool.or_eq_false_iff] at quiet
    obtain ⟨⟨⟨⟨live, runtime⟩, _⟩, unknown⟩, unready⟩ := quiet
    refine ⟨live, by simpa using runtime, preferred, rfl, ?_⟩
    by_cases here : preferred = host
    · left
      simpa [here] using unready
    · right
      simpa [here] using unknown

end Agreement

section Sweeps

/-- The order of the sweep's query. -/
def UnroutableRow.before (first second : UnroutableRow) : Prop :=
  first.delivery.before second.delivery

instance : DecidableRel UnroutableRow.before := fun first second => by
  unfold UnroutableRow.before
  infer_instance

theorem uuid_eq_iff {first second : Uuid} : first = second ↔ first.value = second.value :=
  ⟨congrArg Uuid.value, fun same => by cases first; cases second; cases same; rfl⟩

instance : Std.Total UnroutableRow.before := ⟨fun first second => by
  simp only [UnroutableRow.before, AgentDelivery.before, uuid_eq_iff]
  omega⟩

instance : IsTrans UnroutableRow UnroutableRow.before := ⟨fun first second third => by
  simp only [UnroutableRow.before, AgentDelivery.before, uuid_eq_iff]
  omega⟩

/-- A delivery waiting for an agent of the owner, in a room of the owner. -/
structure Queued (store : Store) (owner : UserId) (delivery : AgentDelivery)
    (agent : AgentProfile) (conversation : Conversation) : Prop where
  stored : delivery ∈ store.deliveries.rows
  pending : delivery.status = .pending
  recipient : store.agent? delivery.key.recipient = some agent
  owned : agent.owner = owner
  room : ∃ message, store.message? delivery.key.messageId = some message ∧
    store.conversation? message.conversationId = some conversation
  roomOwned : conversation.owner = owner

/-- The sweep reports the delivery, or a full hundred of deliveries that come before it. -/
def Sweeps (store : Store) (nodes : List Uuid) (sweeper : DeliveryExecutor)
    (delivery : AgentDelivery) : Prop :=
  (∃ row ∈ sweeper.reports store nodes, row.delivery = delivery) ∨
    (sweeper.reports store nodes).length = 100 ∧
      ∀ row ∈ sweeper.reports store nodes, row.delivery.before delivery

theorem mem_take_or_before {Row : Type} (before : Row → Row → Prop) [DecidableRel before]
    {rows : List Row} {row : Row} (sorted : rows.Pairwise before) (member : row ∈ rows)
    (count : Nat) :
    row ∈ rows.take count ∨
      (rows.take count).length = count ∧ ∀ earlier ∈ rows.take count, before earlier row := by
  rw [← List.take_append_drop count rows] at member sorted
  rcases List.mem_append.mp member with taken | dropped
  · exact Or.inl taken
  · right
    constructor
    · rw [List.length_take, Nat.min_eq_left]
      by_contra short
      rw [List.drop_eq_nil_of_le (by omega)] at dropped
      exact absurd dropped List.not_mem_nil
    · intro earlier listed
      exact (List.pairwise_append.mp sorted).2.2 earlier listed row dropped

/-- What the sweep selects is reported in its turn. -/
theorem Queued.sweeps {store : Store} {nodes : List Uuid} {sweeper : DeliveryExecutor}
    {delivery : AgentDelivery} {agent : AgentProfile} {conversation : Conversation}
    (queued : Queued store sweeper.owner delivery agent conversation)
    (stuck : cannotRun nodes sweeper.host sweeper.runner agent = true)
    (unreported : store.messageByRequest? conversation.id (unroutableRequest delivery.key) = none) :
    Sweeps store nodes sweeper delivery := by
  obtain ⟨message, found, room⟩ := queued.room
  have selected : unroutableRow? store nodes sweeper.owner sweeper.host sweeper.runner delivery =
      some ⟨delivery, message, agent⟩ := by
    apply unroutableRow?_eq_some_iff.mpr
    exact ⟨rfl, found, queued.recipient, queued.pending, queued.owned, stuck, conversation, room,
      queued.roomOwned, unreported⟩
  have listed := (List.mem_insertionSort UnroutableRow.before).mpr
    (List.mem_filterMap.mpr ⟨delivery, queued.stored, selected⟩)
  have sorted := List.pairwise_insertionSort UnroutableRow.before (store.deliveries.rows.filterMap
    (unroutableRow? store nodes sweeper.owner sweeper.host sweeper.runner))
  rcases mem_take_or_before UnroutableRow.before sorted listed 100 with taken | ⟨full, before⟩
  · exact Or.inl ⟨_, taken, rfl⟩
  · exact Or.inr ⟨full, before⟩

end Sweeps

section Consistency

/-- How the three comparisons fit together on a store whose vault knows the given computers. -/
structure RoutingConsistent (store : Store) (nodes : List Uuid) : Prop where
  pickedHosted : ∀ executor agent, agent ∈ DeliveryExecutor.mine executor store →
    botsHostsAgent store executor.owner executor.host agent.id = .ok executor.owner
  hostedPicked : ∀ executor agent, agent ∈ botsAgentsList store executor.owner →
    botsHostsAgent store executor.owner executor.host agent.id = .ok executor.owner →
    DeliveryExecutor.runnerFor executor agent = true → agent ∈ executor.mine store
  localUnreported : ∀ executor sweeper agent, agent ∈ DeliveryExecutor.mine executor store →
    agent.runtimeKind = .local →
    sweeper = executor ∨ DeliveryExecutor.host sweeper ≠ executor.host ∧ executor.host ∈ nodes →
    ∀ row ∈ sweeper.reports store nodes, row.agent ≠ agent
  pendingReported : ∀ sweeper, ∀ row ∈ DeliveryExecutor.reports sweeper store nodes,
    store.delivery? row.delivery.key = some row.delivery ∧ row.delivery.status = .pending
  noneSilent : ∀ executor delivery agent conversation,
    Queued store (DeliveryExecutor.owner executor) delivery agent conversation →
    (agent.archived = false → agent ∈ botsAgentsList store executor.owner) →
    agent ∈ executor.mine store ∨ Sweeps store nodes executor delivery ∨
      (store.messageByRequest? conversation.id (unroutableRequest delivery.key)).isSome ∨
      agent.runtimeKind = .local ∧ ∃ peer ∈ nodes, agent.preferredHost = some peer ∧
        peer ≠ executor.host

theorem agent?_of_listed {store : Store} {owner : UserId} {agent : AgentProfile}
    (listed : agent ∈ botsAgentsList store owner) : store.agent? agent.id = some agent :=
  (Table.lookup_eq_some_iff _ _ _).mpr ⟨(mem_botsAgentsList listed).1, rfl⟩

/-- On every store an executor picks up only what its node hosts, and all of it that it has a
runner for; a sweep is silent about local agents that are picked up and about whatever is not
pending; and what no executor of a computer picks up is reported, or pinned to a known peer. -/
theorem routing_consistent (store : Store) (nodes : List Uuid) :
    RoutingConsistent store nodes := by
  constructor
  · intro executor agent picked
    obtain ⟨listed, _, hosted⟩ := mem_mine_iff.mp picked
    have owned := (mem_botsAgentsList listed).2.1
    exact botsHostsAgent_eq_ok_iff.mpr ⟨agent, agent?_of_listed listed, owned, hosted, rfl⟩
  · intro executor agent listed granted runs
    obtain ⟨profile, found, _, hosted, _⟩ := botsHostsAgent_eq_ok_iff.mp granted
    obtain rfl := Option.some.inj ((agent?_of_listed listed).symm.trans found)
    exact mem_mine_iff.mpr ⟨listed, runs, hosted⟩
  · rintro executor sweeper agent picked isLocal known row reported rfl
    have stuck := (mem_reports reported).2.2.2
    rw [not_cannotRun picked isLocal known] at stuck
    cases stuck
  · intro sweeper row reported
    obtain ⟨stored, pending, _⟩ := mem_reports reported
    exact ⟨Store.delivery?_eq_some_iff.mpr ⟨stored, rfl⟩, pending⟩
  · intro executor delivery agent conversation queued within
    cases stuck : cannotRun nodes executor.host executor.runner agent with
    | true =>
      right
      cases told : store.messageByRequest? conversation.id (unroutableRequest delivery.key) with
      | none => exact Or.inl (queued.sweeps stuck told)
      | some notice => exact Or.inr (Or.inl rfl)
    | false =>
      obtain ⟨live, isLocal, preferred, pinned, here | elsewhere⟩ := cannotRun_eq_false stuck
      · left
        obtain ⟨rfl, ready⟩ := here
        apply mem_mine_iff.mpr
        refine ⟨within live, ?_, ?_⟩
        · simp [DeliveryExecutor.runnerFor, isLocal, ready]
        · simp [hostedBy, isLocal, pinned]
      · exact Or.inr (Or.inr (Or.inr ⟨isLocal, preferred, elsewhere.2, pinned, elsewhere.1⟩))

/-- The owner's message to a local agent that is pinned to computer 7. -/
def pinnedRoom : List RoomOp :=
  [.transact (openRoom 1), .transact (.send (ownerMessage [0]) 1 0),
    .transact (.administer
      ⟨[{ roomProfile 0 with preferredHost := some 7 }], List.pairwise_singleton _ _⟩
      ownedRoom
      ⟨[roomMember (.user 0), roomMember (.agent 0)], by decide⟩)]

/-- The vault knows computer 7. Its node hosts the agent, but a worker built there without a
local runner does not pick it up; and the worker of computer 1 neither picks it up nor reports
its queued message. -/
theorem silent_behind_peer :
    let store := roomsAt pinnedRoom 3
    botsHostsAgent store 0 7 0 = .ok 0 ∧
      (DeliveryExecutor.mine ⟨7, 0, false, true⟩ store) = [] ∧
      ((store.delivery? ⟨1, 0⟩).map AgentDelivery.status) = some .pending ∧
      (DeliveryExecutor.mine ⟨1, 0, true, true⟩ store) = [] ∧
      DeliveryExecutor.reports ⟨1, 0, true, true⟩ store [7] = [] := by
  refine ⟨rfl, ?_, ?_, ?_, ?_⟩
  · decide
  · decide
  · decide
  · decide

end Consistency

end OHHive.Bots
