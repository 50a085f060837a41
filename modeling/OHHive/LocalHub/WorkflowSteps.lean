import OHHive.LocalHub.Polling

/-! What one transaction of the hub does to the review workflows. -/

namespace OHHive.LocalHub

open Foundation

section Steps

variable {staging : Staging} {turns : Nat → Turn} {hub next : WorkflowHub}
  {flows : List ReviewWorkflow} {event : WorkflowEvent}

/-- What later moments keep of the hub. -/
structure HubKept (hub next : WorkflowHub) : Prop where
  board : BoardKept hub.store.board next.store.board
  rows : ∀ row ∈ hub.workflows.rows, ∃ later ∈ next.workflows.rows, RowMove row later

theorem HubKept.refl (hub : WorkflowHub) : HubKept hub hub :=
  ⟨.refl _, fun row stored => ⟨row, stored, .refl row⟩⟩

theorem HubKept.trans {first second third : WorkflowHub} (before : HubKept first second)
    (after : HubKept second third) : HubKept first third := by
  refine ⟨before.board.trans after.board, fun row stored => ?_⟩
  obtain ⟨between, inSecond, move⟩ := before.rows row stored
  obtain ⟨later, inThird, more⟩ := after.rows between inSecond
  exact ⟨later, inThird, move.trans more⟩

/-- What every transaction does to the workflows. -/
structure HubMove (hub next : WorkflowHub) : Prop extends HubKept hub next where
  leaves : ∀ later ∈ next.workflows.rows, later.data.state ≠ .active →
    later ∈ hub.workflows.rows ∨ Shut next.store.board later.data.currentTask

theorem Polled.hubMove (polled : Polled hub next flows) : HubMove hub next :=
  ⟨⟨polled.board, polled.rows⟩, polled.leaves⟩

/-- A transaction that leaves the workflows alone. -/
theorem HubMove.of_board (board : BoardKept hub.store.board next.store.board)
    (same : next.workflows = hub.workflows) : HubMove hub next := by
  refine ⟨⟨board, ?_⟩, ?_⟩
  · intro row stored
    exact ⟨row, same ▸ stored, .refl row⟩
  · intro later stored _
    exact Or.inl (same ▸ stored)

theorem WorkflowHub.Sound.of_board (sound : hub.Sound)
    (board : BoardKept hub.store.board next.store.board)
    (same : next.workflows = hub.workflows) : next.Sound := by
  refine ⟨by rw [same]; exact sound.rows, fun id => (board.slots id).sound (sound.slots id), ?_, ?_⟩
  · rw [same]
    exact fun row stored => board.cards _ (sound.sources row stored)
  · intro owner
    rw [activeRows, same]
    exact sound.active owner

/-- No turn makes a workflow active. -/
theorem length_activeRows_le
    (back : ∀ later ∈ next.workflows.rows, ∃ row ∈ hub.workflows.rows, RowMove row later)
    (owner : String) : (next.activeRows owner).length ≤ (hub.activeRows owner).length := by
  have distinct : ((next.activeRows owner).map WorkflowRow.id).Nodup := by
    apply List.pairwise_map.mpr
    exact (next.workflows.distinct.filter _).imp fun apart same => apart (Or.inl same)
  have within : (next.activeRows owner).map WorkflowRow.id ⊆
      (hub.activeRows owner).map WorkflowRow.id := by
    intro id member
    obtain ⟨later, inActive, rfl⟩ := List.mem_map.mp member
    obtain ⟨stored, selected⟩ := List.mem_filter.mp inActive
    simp only [Bool.and_eq_true, decide_eq_true_eq] at selected
    obtain ⟨row, inHub, move⟩ := back later stored
    have active : row.data.state = .active := by
      by_contra ended
      exact ended (move.ended ended ▸ selected.2)
    refine List.mem_map.mpr ⟨row, List.mem_filter.mpr ⟨inHub, ?_⟩, move.id.symm⟩
    simp [← move.owner, selected.1, active]
  simpa using (distinct.subperm within).length_le

theorem Polled.hubSound (polled : Polled hub next flows) (sound : hub.Sound) : next.Sound := by
  refine ⟨polled.sound, fun id => (polled.board.slots id).sound (sound.slots id), ?_, ?_⟩
  · intro later stored
    obtain ⟨row, inHub, move⟩ := polled.back later stored
    rw [move.source]
    exact polled.board.cards _ (sound.sources row inHub)
  · intro owner
    exact (length_activeRows_le polled.back owner).trans (sound.active owner)

/-- A new workflow, before it is first advanced. -/
structure Created (hub next : WorkflowHub) (row : WorkflowRow) : Prop where
  store : next.store = hub.store
  rows : next.workflows.rows = hub.workflows.rows ++ [row]
  sound : row.Sound
  active : row.data.state = .active
  source : (hub.store.board.card? row.source).isSome
  room : (hub.activeRows row.owner).length < maxActive

theorem createWorkflow_ok {owner : String} {request : ReviewWorkflowRequest} {now : Int}
    {fresh : Nat → Uuid} (bound : request.maxCorrections ≤ 3)
    (done : createWorkflow staging hub owner request now fresh = .ok next) :
    ∃ row, Created hub next row := by
  unfold createWorkflow at done
  obtain ⟨card, found, done⟩ := bind_eq_ok_iff.mp done
  obtain ⟨_, _, done⟩ := bind_eq_ok_iff.mp done
  obtain ⟨_, _, done⟩ := bind_eq_ok_iff.mp done
  obtain ⟨_, _, done⟩ := bind_eq_ok_iff.mp done
  obtain ⟨_, _, done⟩ := bind_eq_ok_iff.mp done
  obtain ⟨_, _, done⟩ := bind_eq_ok_iff.mp done
  obtain ⟨_, room, done⟩ := bind_eq_ok_iff.mp done
  obtain ⟨_, _, done⟩ := bind_eq_ok_iff.mp done
  obtain ⟨persona, _, done⟩ := bind_eq_ok_iff.mp done
  obtain ⟨workflows, inserted, done⟩ := bind_eq_ok_iff.mp done
  obtain rfl := pure_eq_ok_iff.mp done
  refine ⟨newWorkflow request owner persona now fresh, rfl,
    Table.rows_of_insert? (orFail_eq_ok_iff.mp inserted), ?_, rfl, ?_, require_eq_ok_iff.mp room⟩
  · exact ⟨rfl, rfl, rfl, Nat.zero_le _, bound, fun _ => rfl⟩
  · change (hub.store.board.card? request.sourceTaskId).isSome
    rw [orFail_eq_ok_iff.mp found]
    rfl

theorem Created.hubSound {row : WorkflowRow} (created : Created hub next row) (sound : hub.Sound) :
    next.Sound := by
  refine ⟨?_, by rw [created.store]; exact sound.slots, ?_, ?_⟩
  · rw [created.rows]
    intro other stored
    rcases List.mem_append.mp stored with inHub | new
    · exact sound.rows other inHub
    · exact List.mem_singleton.mp new ▸ created.sound
  · rw [created.rows, created.store]
    intro other stored
    rcases List.mem_append.mp stored with inHub | new
    · exact sound.sources other inHub
    · exact List.mem_singleton.mp new ▸ created.source
  · intro owner
    have before := sound.active owner
    have room := created.room
    simp only [WorkflowHub.activeRows, created.rows, List.filter_append, List.length_append]
      at before room ⊢
    by_cases same : row.owner = owner
    · subst same
      have one := List.length_filter_le (fun other => other.owner = row.owner &&
        other.data.state = .active) [row]
      rw [List.length_singleton] at one
      omega
    · have none : [row].filter (fun other => other.owner = owner && other.data.state = .active) =
          [] := by
        simp [same]
      rw [none]
      exact before

theorem Created.hubMove {middle : WorkflowHub} {row : WorkflowRow}
    (created : Created hub middle row) (move : HubMove middle next) : HubMove hub next := by
  obtain ⟨⟨board, rows⟩, leaves⟩ := move
  rw [created.store] at board
  refine ⟨⟨board, fun other stored => rows other ?_⟩, ?_⟩
  · rw [created.rows]
    exact List.mem_append_left _ stored
  · intro later stored inactive
    rcases leaves later stored inactive with inMiddle | shut
    · rw [created.rows] at inMiddle
      rcases List.mem_append.mp inMiddle with inHub | new
      · exact Or.inl inHub
      · obtain rfl := List.mem_singleton.mp new
        exact absurd created.active inactive
    · exact Or.inr shut

/-- A start finds its workflow, or creates it and advances its owner's workflows. -/
theorem start_ok {session : Session} {request : ReviewWorkflowRequest} {now : Int}
    {fresh : Nat → Uuid} (sound : hub.Sound)
    (done : privateReviewWorkflowStart staging turns hub session request now fresh = .ok next) :
    next = hub ∨ ∃ middle row flows, Created hub middle row ∧ middle.Sound ∧
      Polled middle next flows := by
  unfold privateReviewWorkflowStart at done
  obtain ⟨owner, _, done⟩ := bind_eq_ok_iff.mp done
  obtain ⟨_, bounds, done⟩ := bind_eq_ok_iff.mp done
  obtain ⟨_, _, done⟩ := bind_eq_ok_iff.mp done
  split at done
  · obtain ⟨_, _, done⟩ := bind_eq_ok_iff.mp done
    exact Or.inl (pure_eq_ok_iff.mp done).symm
  · obtain ⟨middle, made, done⟩ := bind_eq_ok_iff.mp done
    obtain rfl := pure_eq_ok_iff.mp done
    obtain ⟨row, created⟩ := createWorkflow_ok (require_eq_ok_iff.mp bounds).2.1 made
    have soundMiddle := created.hubSound sound
    exact Or.inr ⟨middle, row, _, created, soundMiddle, polled_advanceOwner soundMiddle owner⟩

theorem poll_ok {session : Session} {poll : Poll} {now : Int} (sound : hub.Sound)
    (done : pollWorkflows staging turns hub session poll now = .ok next) :
    ∃ flows, Polled hub next flows := by
  unfold pollWorkflows at done
  obtain ⟨owner, _, done⟩ := bind_eq_ok_iff.mp done
  obtain ⟨_, _, done⟩ := bind_eq_ok_iff.mp done
  obtain rfl := pure_eq_ok_iff.mp done
  exact ⟨_, polled_advanceOwner sound owner⟩

theorem stopped_ne_active : WorkflowState.stopped ≠ .active := by decide

theorem blocked_ne_active : WorkflowState.blocked ≠ .active := by decide

theorem stop_ok {session : Session} {id : Uuid} {now : Int} (sound : hub.Sound)
    (done : privateReviewWorkflowStop staging hub session id now = .ok next) :
    next = hub ∨ ∃ flows, Polled hub next flows := by
  unfold privateReviewWorkflowStop at done
  obtain ⟨owner, _, done⟩ := bind_eq_ok_iff.mp done
  obtain ⟨row, found, done⟩ := bind_eq_ok_iff.mp done
  obtain rfl := pure_eq_ok_iff.mp done
  split
  · rename_i active
    have stored : row ∈ hub.workflows.rows :=
      List.mem_of_find?_eq_some (Option.filter_eq_some_iff.mp (orFail_eq_ok_iff.mp found)).1
    have effect := turnEffect_stop hub row.data stopped_ne_active "Stopped by owner" now
    exact Or.inr ⟨_, .cons effect stored active sound.rows sound.slots
      (fun _ member => absurd member List.not_mem_nil) (.refl (effect.sound stored sound.rows))⟩
  · exact Or.inl rfl

/-- The board after a transaction of the preparations: that of a session is the board's own step,
and of the others only a completion writes, which attests a submitted task. -/
theorem board_of_preparation {event : PreparationEvent} {store later : PreparationStore}
    (done : event.reply store = .ok later) :
    (∃ op apart, event.op = .board op apart ∧
      Event.reply ⟨op, store.surround event.around, event.clock⟩ store.board = .ok later.board) ∨
    later.board = store.board ∨
    ∃ id workspace card, store.board.card? id = some card ∧
      (∃ submission ∈ card.data.requiredCapabilities.submission, submission.requestId = id) ∧
      completePreparation store.board id workspace = .ok later.board := by
  obtain ⟨op, around, clock⟩ := event
  cases op with
  | board op apart =>
    obtain ⟨board, replied, done⟩ := bind_eq_ok_iff.mp done
    obtain rfl := pure_eq_ok_iff.mp done
    exact Or.inl ⟨op, apart, rfl, replied⟩
  | request hub operation card =>
    right
    left
    unfold PreparationEvent.reply privatePreparationRequest at done
    obtain ⟨_, _, done⟩ := bind_eq_ok_iff.mp done
    obtain ⟨_, _, done⟩ := bind_eq_ok_iff.mp done
    obtain ⟨⟨_, _⟩, _, done⟩ := bind_eq_ok_iff.mp done
    obtain ⟨_, _, done⟩ := bind_eq_ok_iff.mp done
    split at done
    · obtain ⟨_, _, done⟩ := bind_eq_ok_iff.mp done
      obtain rfl := pure_eq_ok_iff.mp done
      rfl
    · obtain ⟨_, _, done⟩ := bind_eq_ok_iff.mp done
      obtain ⟨_, _, done⟩ := bind_eq_ok_iff.mp done
      obtain rfl := pure_eq_ok_iff.mp done
      rfl
  | take hub inactive =>
    right
    left
    obtain ⟨work?, taken⟩ := map_fst_eq_ok_iff.mp done
    unfold privatePreparationTake at taken
    obtain ⟨_, _, taken⟩ := bind_eq_ok_iff.mp taken
    obtain ⟨_, _, taken⟩ := bind_eq_ok_iff.mp taken
    split at taken
    · obtain ⟨rfl, _⟩ := Prod.mk.inj (pure_eq_ok_iff.mp taken)
      rfl
    · obtain ⟨_, _, taken⟩ := bind_eq_ok_iff.mp taken
      obtain ⟨_, _, taken⟩ := bind_eq_ok_iff.mp taken
      obtain ⟨⟨_, _⟩, _, taken⟩ := bind_eq_ok_iff.mp taken
      obtain ⟨_, _, taken⟩ := bind_eq_ok_iff.mp taken
      obtain ⟨rfl, _⟩ := Prod.mk.inj (pure_eq_ok_iff.mp taken)
      rfl
  | complete hub operation workspace =>
    right
    unfold PreparationEvent.reply privatePreparationComplete at done
    obtain ⟨_, _, done⟩ := bind_eq_ok_iff.mp done
    obtain ⟨_, _, done⟩ := bind_eq_ok_iff.mp done
    obtain ⟨_, _, done⟩ := bind_eq_ok_iff.mp done
    obtain ⟨row, _, done⟩ := bind_eq_ok_iff.mp done
    obtain ⟨_, _, done⟩ := bind_eq_ok_iff.mp done
    obtain ⟨_, _, done⟩ := bind_eq_ok_iff.mp done
    obtain ⟨_, _, done⟩ := bind_eq_ok_iff.mp done
    split at done
    · obtain ⟨_, _, done⟩ := bind_eq_ok_iff.mp done
      obtain rfl := pure_eq_ok_iff.mp done
      exact Or.inl rfl
    · obtain ⟨_, _, done⟩ := bind_eq_ok_iff.mp done
      obtain ⟨⟨card, target⟩, stored, done⟩ := bind_eq_ok_iff.mp done
      obtain ⟨_, _, done⟩ := bind_eq_ok_iff.mp done
      obtain ⟨board, attested, done⟩ := bind_eq_ok_iff.mp done
      obtain rfl := pure_eq_ok_iff.mp done
      unfold task at stored
      obtain ⟨held, found, stored⟩ := bind_eq_ok_iff.mp stored
      obtain ⟨submission, submitted, stored⟩ := bind_eq_ok_iff.mp stored
      obtain ⟨_, own, _⟩ := bind_eq_ok_iff.mp stored
      exact Or.inr ⟨row.cardId, workspace, held, orFail_eq_ok_iff.mp found,
        ⟨submission, orFail_eq_ok_iff.mp submitted, (require_eq_ok_iff.mp own).1⟩, attested⟩
  | recover hub request operation =>
    right
    left
    unfold PreparationEvent.reply privatePreparationRecover at done
    obtain ⟨_, _, done⟩ := bind_eq_ok_iff.mp done
    obtain ⟨_, _, done⟩ := bind_eq_ok_iff.mp done
    obtain ⟨_, _, done⟩ := bind_eq_ok_iff.mp done
    obtain ⟨_, _, done⟩ := bind_eq_ok_iff.mp done
    split at done
    · obtain ⟨_, _, done⟩ := bind_eq_ok_iff.mp done
      obtain rfl := pure_eq_ok_iff.mp done
      rfl
    · obtain ⟨_, _, done⟩ := bind_eq_ok_iff.mp done
      obtain ⟨⟨_, _⟩, _, done⟩ := bind_eq_ok_iff.mp done
      obtain ⟨_, _, done⟩ := bind_eq_ok_iff.mp done
      obtain ⟨_, _, done⟩ := bind_eq_ok_iff.mp done
      obtain ⟨_, _, done⟩ := bind_eq_ok_iff.mp done
      obtain ⟨_, _, done⟩ := bind_eq_ok_iff.mp done
      obtain rfl := pure_eq_ok_iff.mp done
      rfl

theorem boardKept_preparation {event : PreparationEvent} {store later : PreparationStore}
    (done : event.reply store = .ok later) : BoardKept store.board later.board := by
  rcases board_of_preparation done with
    ⟨op, _, _, replied⟩ | same | ⟨id, workspace, _, _, _, attested⟩
  · exact boardKept_of_reply replied
  · rw [same]
    exact .refl _
  · have replied : Event.reply ⟨.completePreparation id workspace, event.around, event.clock⟩
        store.board = .ok later.board := attested
    exact boardKept_of_reply replied

theorem HubMove.refl (hub : WorkflowHub) : HubMove hub hub := .of_board (.refl _) rfl

/-- What a transaction does to the workflows. -/
theorem hubMove_step (sound : hub.Sound) (event : WorkflowEvent) :
    HubMove hub (hub.step event) ∧ (hub.step event).Sound := by
  unfold WorkflowHub.step
  split
  · rename_i next done
    obtain ⟨op, staging, clock, fresh, turns⟩ := event
    cases op with
    | start session request =>
      rcases start_ok sound done with rfl | ⟨middle, row, flows, created, soundMiddle, polled⟩
      · exact ⟨.refl _, sound⟩
      · exact ⟨created.hubMove polled.hubMove, polled.hubSound soundMiddle⟩
    | poll session poll =>
      obtain ⟨flows, polled⟩ := poll_ok sound done
      exact ⟨polled.hubMove, polled.hubSound sound⟩
    | stop session id =>
      rcases stop_ok sound done with rfl | ⟨flows, polled⟩
      · exact ⟨.refl _, sound⟩
      · exact ⟨polled.hubMove, polled.hubSound sound⟩
    | stageCorrection session request =>
      obtain ⟨owner, _, done⟩ := bind_eq_ok_iff.mp done
      obtain ⟨⟨board, card⟩, staged, done⟩ := bind_eq_ok_iff.mp done
      obtain rfl := pure_eq_ok_iff.mp done
      have kept := (stageCorrection_ok staged).kept
      exact ⟨.of_board kept rfl, sound.of_board kept rfl⟩
    | store op =>
      obtain ⟨store, replied, done⟩ := bind_eq_ok_iff.mp done
      obtain rfl := pure_eq_ok_iff.mp done
      have kept := boardKept_preparation replied
      exact ⟨.of_board kept rfl, sound.of_board kept rfl⟩
  · exact ⟨.refl _, sound⟩

/-- The transactions that advance workflows. -/
def WorkflowOp.advances : WorkflowOp → Bool
  | .start .. | .poll .. => true
  | _ => false

/-- A task that advancing stages is the current one of a workflow, and not its source. -/
theorem staged_step (sound : hub.Sound) (advances : event.op.advances = true) {id : CardId}
    (new : hub.store.board.card? id = none)
    (stored : ((hub.step event).store.board.card? id).isSome) :
    ∃ row ∈ (hub.step event).workflows.rows, row.data.currentTask = id ∧ row.source ≠ id := by
  have owned : ∀ {middle next : WorkflowHub} {flows}, middle.Sound → Polled middle next flows →
      middle.store = hub.store → (next.store.board.card? id).isSome →
      ∃ row ∈ next.workflows.rows, row.data.currentTask = id ∧ row.source ≠ id := by
    intro middle next flows soundMiddle polled same present
    rcases polled.staged id present with before | ⟨row, inNext, current⟩
    · rw [same, new] at before
      cases before
    · refine ⟨row, inNext, current, ?_⟩
      rintro rfl
      obtain ⟨earlier, inMiddle, move⟩ := polled.back row inNext
      have source := soundMiddle.sources earlier inMiddle
      rw [← move.source, same, new] at source
      cases source
  have rests : ¬ (hub.store.board.card? id).isSome := by
    rw [new]
    exact fun present => nomatch present
  unfold WorkflowHub.step at stored ⊢
  split at stored
  · rename_i next done
    obtain ⟨op, staging, clock, fresh, turns⟩ := event
    cases op with
    | start session request =>
      rcases start_ok sound done with rfl | ⟨middle, row, flows, created, soundMiddle, polled⟩
      · exact absurd stored rests
      · exact owned soundMiddle polled created.store stored
    | poll session poll =>
      obtain ⟨flows, polled⟩ := poll_ok sound done
      exact owned sound polled rfl stored
    | stop | stageCorrection | store => cases advances
  · exact absurd stored rests

end Steps

end OHHive.LocalHub
