import OHHive.AgentTools.Effects

/-! The tools of the agents over whole runs of the hub: what every call went through on, and what
its receipts, evidence and documents are worth afterwards. -/

namespace OHHive.AgentTools

open Foundation

section Steps

variable {services : Services} {call : ToolCall} {store next : ToolStore} {answer : ToolAnswer}

/-- Evidence is final once its outcome was reported. -/
def Evidence.Finished (evidence : Evidence) : Prop := evidence.observation.isSome = true

theorem finishedKept_report (receipt : Uuid) (observation : Observation) (now : Int) :
    FinishedKept Evidence.Finished store.evidence.rows
      (store.report services receipt observation now).evidence.rows := by
  apply finishedKept_map
  intro row _ finished
  have chosen : (decide (row.receipt = receipt) && row.observation.isNone) = false := by
    rw [Option.isNone_eq_false_iff.mpr finished, Bool.and_false]
  exact if_neg (Bool.eq_false_iff.mp chosen)

theorem finishedKept_of_effect (effect : call.Effect services store next answer) :
    FinishedKept Evidence.Finished store.evidence.rows next.evidence.rows := by
  cases effect with
  | recorded node _ _ authorized unsaved granted recorded =>
    obtain ⟨added, rows⟩ := recorded.evidence
    rw [rows]
    exact finishedKept_append _ _ _
  | repeated => exact FinishedKept.refl _ _
  | saved node request sources _ _ asked allowed saves first =>
    rw [saves.evidence]
    exact FinishedKept.refl _ _
  | confirmed => exact FinishedKept.refl _ _
  | reported node receipt observation now evidence => exact finishedKept_report _ _ _

/-- A call adds one receipt with its turn, in an attempt with calls to spare, or none at all. -/
theorem records_or_rest (effect : call.Effect services store next answer) :
    (∃ node, store.world.Authorizes call.caller node (call.draws.clock 0) ∧
      store.Records call.caller node call.draws.receipt next) ∨
    next.receipts = store.receipts ∧ next.turns = store.turns := by
  cases effect with
  | recorded node _ _ authorized unsaved granted recorded =>
    exact Or.inl ⟨node, authorized, recorded.records⟩
  | saved node request sources _ _ asked allowed saves first =>
    exact Or.inl ⟨node, allowed.authorized, saves.records⟩
  | repeated => exact Or.inr ⟨rfl, rfl⟩
  | confirmed => exact Or.inr ⟨rfl, rfl⟩
  | reported => exact Or.inr ⟨rfl, rfl⟩

theorem granted_of_save {node : Uuid} {request : SaveRequest} {sources : List SourceRecord}
    (asked : call.op.save? = some request)
    (allowed : store.MaySave call.caller node request.vault request.receipts sources
      (call.draws.clock 0)) :
    call.op.Granted services store call.caller node := by
  have granted := And.intro allowed.granted allowed.opens
  cases called : call.op with
  | execute tool =>
    rw [called] at asked
    cases tool with
    | vaultSave =>
      obtain rfl := Option.some.inj asked
      exact granted
    | _ => cases asked
  | librarySave =>
    rw [called] at asked
    obtain rfl := Option.some.inj asked
    exact granted
  | _ =>
    rw [called] at asked
    cases asked

/-- Whatever a call does, the hub authorized it. -/
theorem authorized_of_effect (effect : call.Effect services store next answer) :
    ∃ node, store.world.Authorizes call.caller node (call.draws.clock 0) ∧
      call.op.Granted services store call.caller node := by
  cases effect with
  | recorded node _ _ authorized unsaved granted recorded => exact ⟨node, authorized, granted⟩
  | repeated node request sources _ asked allowed again =>
    exact ⟨node, allowed.authorized, granted_of_save asked allowed⟩
  | saved node request sources _ _ asked allowed saves first =>
    exact ⟨node, allowed.authorized, granted_of_save asked allowed⟩
  | confirmed node receipt observation evidence called authorized fetches same =>
    exact ⟨node, authorized, called ▸ fetches⟩
  | reported node receipt observation now evidence called authorized fetches =>
    exact ⟨node, authorized, called ▸ fetches⟩

/-- Only saves touch the rest of the hub. -/
theorem world_of_effect (effect : call.Effect services store next answer)
    (unsaved : call.op.save? = none) : next.world = store.world := by
  cases effect with
  | recorded node _ _ authorized unsaved granted recorded => exact recorded.world
  | repeated => rfl
  | saved node request sources _ _ asked => rw [unsaved] at asked; cases asked
  | confirmed => rfl
  | reported => rfl

end Steps

section Runs

variable (services : Services) (world : World) (events : List ToolEvent)

/-- Every receipt is that of one turn, and every turn has its receipt. -/
def ToolStore.Paired (store : ToolStore) : Prop :=
  store.turns.rows.map (fun turn => (turn.receipt, turn.agent)) =
    store.receipts.rows.map (fun receipt => (receipt.id, receipt.agent))

theorem paired_new : (ToolStore.new world).Paired := rfl

theorem journalMove_of_records {store next : ToolStore} {caller : ToolCaller}
    {node receipt : Uuid} (records : store.Records caller node receipt next) :
    JournalMove ToolTurn.attempt toolLimit store.turns.rows next.turns.rows :=
  .add ⟨receipt, caller.turn.message, caller.turn.conversation, caller.agent,
    caller.turn.generation⟩ records.room records.turns

theorem paired_of_records {store next : ToolStore} {caller : ToolCaller} {node receipt : Uuid}
    (paired : store.Paired) (records : store.Records caller node receipt next) : next.Paired := by
  obtain ⟨row, named, agent, _, _, received⟩ := records.receipts
  unfold ToolStore.Paired at paired ⊢
  rw [received, records.turns, List.map_append, List.map_append, paired, ← named, ← agent]
  rfl

/-- What one event does to the store. -/
theorem step_cases (store : ToolStore) (event : ToolEvent) :
    (∃ call answer, event = .call call ∧
      call.Effect services store (store.step services event) answer) ∨
    (store.step services event).receipts = store.receipts ∧
      (store.step services event).turns = store.turns ∧
      (store.step services event).evidence = store.evidence := by
  cases event with
  | elsewhere world => exact Or.inr ⟨rfl, rfl, rfl⟩
  | call call =>
    cases replied : call.reply services store with
    | error failure =>
      have same : store.step services (.call call) = store := by
        rw [ToolStore.step, replied]
      exact Or.inr ⟨congrArg _ same, congrArg _ same, congrArg _ same⟩
    | ok pair =>
      obtain ⟨next, answer⟩ := pair
      have same : store.step services (.call call) = next := by
        rw [ToolStore.step, replied]
      exact Or.inl ⟨call, answer, rfl, same ▸ effect_of_reply replied⟩

/-- What a step leaves of the turns and the evidence. -/
structure ToolStore.Advances (store next : ToolStore) : Prop where
  receipts : store.receipts.rows <+: next.receipts.rows
  turns : JournalMove ToolTurn.attempt toolLimit store.turns.rows next.turns.rows
  paired : store.Paired → next.Paired
  evidence : FinishedKept Evidence.Finished store.evidence.rows next.evidence.rows

theorem advances_step (store : ToolStore) (event : ToolEvent) :
    store.Advances (store.step services event) := by
  rcases step_cases services store event with
    ⟨call, answer, rfl, effect⟩ | ⟨receipts, turns, evidence⟩
  · have kept := finishedKept_of_effect effect
    rcases records_or_rest effect with ⟨node, _, records⟩ | ⟨receipts, turns⟩
    · obtain ⟨row, _, _, _, _, received⟩ := records.receipts
      exact ⟨received ▸ List.prefix_append _ _, journalMove_of_records records,
        fun paired => paired_of_records paired records, kept⟩
    · refine ⟨receipts ▸ List.prefix_refl _, .rest (congrArg Table.rows turns), ?_, kept⟩
      unfold ToolStore.Paired
      rw [receipts, turns]
      exact id
  · refine ⟨receipts ▸ List.prefix_refl _, .rest (congrArg Table.rows turns), ?_,
      evidence ▸ FinishedKept.refl _ _⟩
    unfold ToolStore.Paired
    rw [receipts, turns]
    exact id

/-- A turn that a step adds is that of a call that was authorized. -/
theorem authorized_of_added {store : ToolStore} {event : ToolEvent} {turn : ToolTurn}
    (added : turn ∈ (store.step services event).turns.rows) (fresh : turn ∉ store.turns.rows) :
    ∃ call node, event = .call call ∧
      store.world.Authorizes call.caller node (call.draws.clock 0) ∧
      call.op.Granted services store call.caller node ∧
      turn.attempt =
        (call.caller.turn.message, call.caller.agent, call.caller.turn.generation) := by
  rcases step_cases services store event with ⟨call, answer, rfl, effect⟩ | ⟨_, turns, _⟩
  · rcases records_or_rest effect with ⟨_, _, records⟩ | ⟨_, turns⟩
    · rw [records.turns, List.mem_append, List.mem_singleton] at added
      obtain ⟨node, authorized, granted⟩ := authorized_of_effect effect
      exact ⟨call, node, rfl, authorized, granted, added.resolve_left fresh ▸ rfl⟩
    · exact absurd (turns ▸ added) fresh
  · exact absurd (turns ▸ added) fresh

theorem withinQuota_toolsAt (moment : Nat) :
    WithinQuota ToolTurn.attempt toolLimit (toolsAt services world events moment).turns.rows :=
  stateAt_invariant _ _ events
    (fun store => WithinQuota ToolTurn.attempt toolLimit store.turns.rows)
    (withinQuota_nil _ _)
    (fun store event _ within => within.move (advances_step services store event).turns) moment

theorem paired_toolsAt (moment : Nat) : (toolsAt services world events moment).Paired :=
  stateAt_invariant _ _ events ToolStore.Paired (paired_new world)
    (fun store event _ => (advances_step services store event).paired) moment

/-- What is recorded stays recorded. -/
structure ToolStore.Precedes (store next : ToolStore) : Prop where
  receipts : store.receipts.rows <+: next.receipts.rows
  turns : store.turns.rows <+: next.turns.rows
  evidence : FinishedKept Evidence.Finished store.evidence.rows next.evidence.rows

theorem ToolStore.Precedes.refl (store : ToolStore) : store.Precedes store :=
  ⟨List.prefix_refl _, List.prefix_refl _, FinishedKept.refl _ _⟩

theorem ToolStore.Precedes.trans (first second third : ToolStore) (earlier : first.Precedes second)
    (later : second.Precedes third) : first.Precedes third :=
  ⟨earlier.receipts.trans later.receipts, earlier.turns.trans later.turns,
    earlier.evidence.trans later.evidence⟩

theorem precedes_step (store : ToolStore) (event : ToolEvent) :
    store.Precedes (store.step services event) := by
  have advances := advances_step services store event
  exact ⟨advances.receipts, advances.turns.prefix_of, advances.evidence⟩

theorem precedes_toolsAt {first second : Nat} (ordered : first ≤ second) :
    (toolsAt services world events first).Precedes (toolsAt services world events second) :=
  stateAt_relates _ _ ToolStore.Precedes ToolStore.Precedes.refl ToolStore.Precedes.trans
    (precedes_step services) events ordered

/-- Every turn on record is that of an earlier call that was authorized when it was made. -/
theorem exists_call_of_turn (moment : Nat) :
    ∀ turn ∈ (toolsAt services world events moment).turns.rows, ∃ earlier call node,
      earlier < moment ∧ events[earlier]? = some (.call call) ∧
      (toolsAt services world events earlier).world.Authorizes call.caller node
        (call.draws.clock 0) ∧
      call.op.Granted services (toolsAt services world events earlier) call.caller node ∧
      turn.attempt =
        (call.caller.turn.message, call.caller.agent, call.caller.turn.generation) := by
  induction moment with
  | zero => exact fun turn member => absurd member List.not_mem_nil
  | succ moment ih =>
    intro turn member
    by_cases before : turn ∈ (toolsAt services world events moment).turns.rows
    · obtain ⟨earlier, call, node, past, rest⟩ := ih turn before
      exact ⟨earlier, call, node, by omega, rest⟩
    · rcases stateAt_next (ToolStore.step services) (ToolStore.new world) events moment with
        ⟨event, happened, next⟩ | ⟨_, next⟩
      · rw [toolsAt, next] at member
        obtain ⟨call, node, rfl, authorized⟩ := authorized_of_added services member before
        exact ⟨moment, call, node, by omega, happened, authorized⟩
      · rw [toolsAt, next] at member
        exact absurd member before

/-- A receipt belongs to one turn, and that one is of the receipt's agent. -/
theorem ToolStore.Paired.turn_of_receipt {store : ToolStore} (paired : store.Paired)
    {receipt : ToolReceipt} (stored : receipt ∈ store.receipts.rows) :
    ∃ turn ∈ store.turns.rows, turn.agent = receipt.agent ∧
      ∀ other ∈ store.turns.rows, other.receipt = receipt.id ↔ other = turn := by
  have listed := List.mem_map_of_mem (f := fun row : ToolReceipt => (row.id, row.agent)) stored
  rw [← paired] at listed
  obtain ⟨turn, member, same⟩ := List.mem_map.mp listed
  obtain ⟨named, agent⟩ := Prod.mk.inj same
  refine ⟨turn, member, agent, fun other others => ⟨?_, ?_⟩⟩
  · exact fun also => store.turns.eq_of_key others member (also.trans named.symm)
  · exact fun same => same ▸ named

theorem ToolStore.Paired.receipt_of_turn {store : ToolStore} (paired : store.Paired)
    {turn : ToolTurn} (stored : turn ∈ store.turns.rows) :
    ∃ receipt ∈ store.receipts.rows, receipt.id = turn.receipt := by
  have listed := List.mem_map_of_mem (f := fun row : ToolTurn => (row.receipt, row.agent)) stored
  rw [paired] at listed
  obtain ⟨receipt, member, same⟩ := List.mem_map.mp listed
  exact ⟨receipt, member, (Prod.mk.inj same).1⟩

theorem toolsAt_call {moment : Nat} {call : ToolCall}
    (called : events[moment]? = some (.call call)) :
    toolsAt services world events (moment + 1) =
      match call.reply services (toolsAt services world events moment) with
      | .ok (next, _) => next
      | .error _ => toolsAt services world events moment :=
  stateAt_succ (ToolStore.step services) (ToolStore.new world) called

/-- What the tools of the agents guarantee in a run of the hub, whatever else happens to it. -/
structure ToolsAuthorized : Prop where
  /-- What goes through is authorized by the very store it is committed to. -/
  authorized : ∀ moment call next answer, events[moment]? = some (.call call) →
    call.reply services (toolsAt services world events moment) = .ok (next, answer) →
    toolsAt services world events (moment + 1) = next ∧ ∃ node,
      (toolsAt services world events moment).world.Authorizes call.caller node
        (call.draws.clock 0) ∧
      call.op.Granted services (toolsAt services world events moment) call.caller node
  limited : ∀ moment attempt,
    countIn ToolTurn.attempt (toolsAt services world events moment).turns.rows attempt ≤ 8
  called : ∀ moment, ∀ turn ∈ (toolsAt services world events moment).turns.rows,
    ∃ earlier call node, earlier < moment ∧ events[earlier]? = some (.call call) ∧
      (toolsAt services world events earlier).world.Authorizes call.caller node
        (call.draws.clock 0) ∧
      call.op.Granted services (toolsAt services world events earlier) call.caller node ∧
      turn.attempt = (call.caller.turn.message, call.caller.agent, call.caller.turn.generation)
  receipts : ∀ moment, ∀ receipt ∈ (toolsAt services world events moment).receipts.rows,
    ∃ turn ∈ (toolsAt services world events moment).turns.rows, turn.agent = receipt.agent ∧
      ∀ other ∈ (toolsAt services world events moment).turns.rows,
        other.receipt = receipt.id ↔ other = turn
  turns : ∀ moment, ∀ turn ∈ (toolsAt services world events moment).turns.rows,
    ∃ receipt ∈ (toolsAt services world events moment).receipts.rows, receipt.id = turn.receipt
  kept : ∀ first second, first ≤ second →
    (toolsAt services world events first).Precedes (toolsAt services world events second)
  /-- A save rests on sources of its own attempt, and changes no document that is there. -/
  saves : ∀ moment call request next answer, events[moment]? = some (.call call) →
    call.op.save? = some request →
    call.reply services (toolsAt services world events moment) = .ok (next, answer) →
    ∃ node sources, (toolsAt services world events moment).MaySave call.caller node request.vault
        request.receipts sources (call.draws.clock 0) ∧
      (next = toolsAt services world events moment ∨
        (toolsAt services world events moment).Saves services call.caller call.draws node
          request.vault request.title request.findings sources next)
  others : ∀ moment call next answer, events[moment]? = some (.call call) →
    call.op.save? = none →
    call.reply services (toolsAt services world events moment) = .ok (next, answer) →
    next.world = (toolsAt services world events moment).world
  failures : ∀ moment call failure, events[moment]? = some (.call call) →
    call.reply services (toolsAt services world events moment) = .error failure →
    toolsAt services world events (moment + 1) = toolsAt services world events moment

theorem tools_authorized : ToolsAuthorized services world events where
  authorized := by
    intro moment call next answer happened replied
    refine ⟨?_, authorized_of_effect (effect_of_reply replied)⟩
    rw [toolsAt_call services world events happened, replied]
  limited := withinQuota_toolsAt services world events
  called := exists_call_of_turn services world events
  receipts := fun moment _ => (paired_toolsAt services world events moment).turn_of_receipt
  turns := fun moment _ => (paired_toolsAt services world events moment).receipt_of_turn
  kept := fun _ _ => precedes_toolsAt services world events
  saves := by
    intro moment call request next answer happened asked replied
    cases effect_of_reply replied with
    | recorded node _ _ authorized unsaved =>
      rw [unsaved] at asked
      cases asked
    | repeated node _ sources _ alike allowed again =>
      obtain rfl := Option.some.inj (alike.symm.trans asked)
      exact ⟨node, sources, allowed, Or.inl rfl⟩
    | saved node _ sources _ _ alike allowed saves first =>
      obtain rfl := Option.some.inj (alike.symm.trans asked)
      exact ⟨node, sources, allowed, Or.inr saves⟩
    | confirmed _ _ _ _ called =>
      rw [called] at asked
      cases asked
    | reported _ _ _ _ _ called =>
      rw [called] at asked
      cases asked
  others := by
    intro moment call next answer _ unsaved replied
    exact world_of_effect (effect_of_reply replied) unsaved
  failures := by
    intro moment call failure happened replied
    rw [toolsAt_call services world events happened, replied]

end Runs

end OHHive.AgentTools
