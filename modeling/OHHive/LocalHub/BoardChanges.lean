import OHHive.LocalHub.WorkflowSteps

/-! What a transaction of the hub writes on its board: that of a session is the board's own step,
and the others stage, attest, request and stop tasks without settling anything. -/

namespace OHHive.LocalHub

open Foundation

section Changes

variable {minted : CardId → Prop} {staging : Staging} {turn : Turn} {hub next : WorkflowHub}
  {flow : ReviewWorkflow} {board after : Board} {card : Card}

/-- The card carries the submission that it was staged from. -/
def ClaimedCard.Submits (card : ClaimedCard) : Prop :=
  ∃ submission ∈ card.requiredCapabilities.submission, submission.requestId = card.id

/-- One change of the board that settles nothing; `minted` are the identities that the
transaction draws for new tasks. -/
inductive BoardChange (minted : CardId → Prop) (board : Board) : Board → Prop
  | requested {around : Surroundings} {owner : String} {operation : OperationId} {task : CardId}
      {clock : Nat → Int} {next : Board}
      (done : requestRun around board owner operation task clock = .ok next) :
      BoardChange minted board next
  | attested {id : CardId} {workspace : String} {next : Board} (card : Card)
      (found : board.card? id = some card) (submits : card.data.Submits)
      (done : completePreparation board id workspace = .ok next) : BoardChange minted board next
  | staged {card : ClaimedCard} {next : Board}
      (inserted : board.insertCard ⟨card, .blocked, some waiting⟩ = .ok next) :
      BoardChange minted board next
  | bound {card : ClaimedCard} {staged : Board}
      (inserted : board.insertCard ⟨card, .blocked, some waiting⟩ = .ok staged) (deps : List String)
      (required : RequiredCapabilities) :
      BoardChange minted board (rewriteTask staged card.id deps required)
  | rewritten {id : CardId} (mints : minted id) (card : Card) (found : board.card? id = some card)
      (submits : card.data.Submits) (deps : List String) (required : RequiredCapabilities) :
      BoardChange minted board (rewriteTask board id deps required)
  | stopped (task : CardId) (now : Int) : BoardChange minted board (stopTask board task now)

/-- A chain of changes. -/
abbrev BoardChanges (minted : CardId → Prop) : Board → Board → Prop :=
  Relation.ReflTransGen (BoardChange minted)

/-- Staging finds the card of the same submission, or inserts a new one. -/
theorem stageTask_change {request : PrivateCodeTaskRequest} {staged : ClaimedCard}
    (done : stageTask staging board request = .ok (after, staged)) :
    (after = board ∧ ∃ card, board.card? request.requestId = some card ∧ card.data.Submits) ∨
      staged.id = request.requestId ∧
        board.insertCard ⟨staged, .blocked, some waiting⟩ = .ok after := by
  unfold stageTask at done
  obtain ⟨_, _, done⟩ := bind_eq_ok_iff.mp done
  split at done
  · rename_i stored found
    obtain ⟨_, same, done⟩ := bind_eq_ok_iff.mp done
    obtain ⟨rfl, _⟩ := Prod.mk.inj (pure_eq_ok_iff.mp done)
    have named := (Board.card?_eq_some_iff.mp found).2
    exact Or.inl ⟨rfl, stored, found, _, (require_eq_ok_iff.mp same).1, named.symm⟩
  · obtain ⟨built, made, done⟩ := bind_eq_ok_iff.mp done
    obtain ⟨_, _, done⟩ := bind_eq_ok_iff.mp done
    obtain ⟨inserted, stored, done⟩ := bind_eq_ok_iff.mp done
    obtain ⟨rfl, rfl⟩ := Prod.mk.inj (pure_eq_ok_iff.mp done)
    simp only [taskCard, bind_eq_ok_iff, pure_eq_ok_iff] at made
    obtain ⟨_, _, _, _, _, _, _, _, rfl⟩ := made
    exact Or.inr ⟨rfl, stored⟩

/-- A correction is found again, or it is bound to its findings as it is staged. -/
theorem changes_stageCorrection {request : PrivateCorrectionRequest} {owner : String}
    {corrected : ClaimedCard}
    (done : stageCorrection staging board request owner = .ok (after, corrected)) :
    BoardChanges minted board after := by
  unfold stageCorrection at done
  obtain ⟨_, _, done⟩ := bind_eq_ok_iff.mp done
  split at done
  · obtain ⟨_, _, done⟩ := bind_eq_ok_iff.mp done
    obtain ⟨_, _, done⟩ := bind_eq_ok_iff.mp done
    obtain ⟨_, _, done⟩ := bind_eq_ok_iff.mp done
    obtain ⟨rfl, _⟩ := Prod.mk.inj (pure_eq_ok_iff.mp done)
    exact .refl
  · rename_i absent
    unfold newCorrection at done
    obtain ⟨⟨original, coder, context⟩, _, done⟩ := bind_eq_ok_iff.mp done
    obtain ⟨⟨staged, built⟩, made, done⟩ := bind_eq_ok_iff.mp done
    simp only [bind_eq_ok_iff, pure_eq_ok_iff] at done
    obtain ⟨_, _, _, _, _, _, _, _, _, _, _, _, same⟩ := done
    obtain ⟨rfl, _⟩ := Prod.mk.inj same
    rcases stageTask_change made with ⟨_, card, found, _⟩ | ⟨_, inserted⟩
    · cases absent.symm.trans found
    · exact .single (.bound inserted _ _)

theorem changes_stop (hub : WorkflowHub) (flow : ReviewWorkflow) (state : WorkflowState)
    (reason : String) (now : Int) :
    BoardChanges minted hub.store.board (hub.stop flow state reason now).store.board :=
  .single (.stopped flow.currentTask now)

theorem changes_stageCheck (mints : minted (turn.fresh 0))
    (done : stageCheck staging turn hub flow card = .ok next) :
    BoardChanges minted hub.store.board next.store.board := by
  unfold stageCheck at done
  obtain ⟨_, _, done⟩ := bind_eq_ok_iff.mp done
  obtain ⟨⟨board, checker⟩, staged, done⟩ := bind_eq_ok_iff.mp done
  obtain rfl := pure_eq_ok_iff.mp done
  rcases stageTask_change staged with ⟨rfl, stored, found, submits⟩ | ⟨named, inserted⟩
  · exact .single (.rewritten mints stored found submits _ _)
  · have bound : ∀ required, BoardChange minted hub.store.board
        (rewriteTask board checker.id checker.deps required) := .bound inserted checker.deps
    rw [named] at bound
    exact .single (bound _)

theorem changes_concludeCheck (done : concludeCheck staging turn hub flow card = .ok next) :
    BoardChanges minted hub.store.board next.store.board := by
  unfold concludeCheck at done
  obtain ⟨verdict, _, done⟩ := bind_eq_ok_iff.mp done
  cases verdict with
  | pass =>
    obtain rfl := pure_eq_ok_iff.mp done
    exact .refl
  | inconclusive =>
    obtain rfl := pure_eq_ok_iff.mp done
    exact changes_stop _ _ _ _ _
  | changesRequired =>
    change stageChanges staging turn hub flow card = .ok next at done
    unfold stageChanges at done
    split at done
    · obtain rfl := pure_eq_ok_iff.mp done
      exact changes_stop _ _ _ _ _
    · obtain ⟨⟨board, correction⟩, staged, done⟩ := bind_eq_ok_iff.mp done
      obtain rfl := pure_eq_ok_iff.mp done
      exact changes_stageCorrection staged

theorem changes_proceed (mints : minted (turn.fresh 0))
    (done : proceed staging turn hub flow = .ok next) :
    BoardChanges minted hub.store.board next.store.board := by
  unfold proceed at done
  obtain ⟨card, _, done⟩ := bind_eq_ok_iff.mp done
  obtain ⟨_, _, done⟩ := bind_eq_ok_iff.mp done
  obtain ⟨_, _, done⟩ := bind_eq_ok_iff.mp done
  obtain ⟨_, _, done⟩ := bind_eq_ok_iff.mp done
  split at done
  · split at done
    · exact changes_concludeCheck done
    · exact changes_stageCheck mints done
  split at done
  · unfold awaitPreparation at done
    split at done
    · obtain rfl := pure_eq_ok_iff.mp done
      exact .refl
    · obtain ⟨store, requested, done⟩ := bind_eq_ok_iff.mp done
      obtain rfl := pure_eq_ok_iff.mp done
      change BoardChanges minted hub.store.board store.board
      rw [board_requestPreparation requested]
  split at done
  · obtain ⟨board, requested, done⟩ := bind_eq_ok_iff.mp done
    obtain rfl := pure_eq_ok_iff.mp done
    exact .single (.requested requested)
  · unfold watchRun at done
    obtain ⟨run, _, done⟩ := bind_eq_ok_iff.mp done
    obtain ⟨status, _, done⟩ := bind_eq_ok_iff.mp done
    split at done
    · obtain rfl := pure_eq_ok_iff.mp done
      exact changes_stop _ _ _ _ _
    · obtain rfl := pure_eq_ok_iff.mp done
      exact .refl

theorem changes_advanceOne (mints : minted (turn.fresh 0)) :
    BoardChanges minted hub.store.board (advanceOne staging turn hub flow).store.board := by
  unfold advanceOne
  split
  · rename_i next done
    unfold advance at done
    split at done
    · obtain rfl := pure_eq_ok_iff.mp done
      exact changes_stop _ _ _ _ _
    · exact changes_proceed mints done
  · exact changes_stop _ _ _ _ _

theorem changes_advanceEach {turns : Nat → Turn} (mints : ∀ index, minted ((turns index).fresh 0))
    (flows : List ReviewWorkflow) (index : Nat) (hub : WorkflowHub) :
    BoardChanges minted hub.store.board
      (advanceEach staging turns index flows hub).store.board := by
  induction flows generalizing index hub with
  | nil => exact .refl
  | cons flow rest ih => exact (changes_advanceOne (mints index)).trans (ih (index + 1) _)

theorem changes_advanceOwner {turns : Nat → Turn} (mints : ∀ index, minted ((turns index).fresh 0))
    (hub : WorkflowHub) (owner : String) :
    BoardChanges minted hub.store.board (advanceOwner staging turns hub owner).store.board :=
  changes_advanceEach mints _ 0 hub

end Changes

section Steps

variable {minted : CardId → Prop} {event : WorkflowEvent} {hub : WorkflowHub}

/-- Among the preparations' own transactions only a completion writes the board. -/
theorem changes_preparation {event : PreparationEvent} {store later : PreparationStore}
    (done : event.reply store = .ok later) :
    (∃ op apart, event.op = .board op apart ∧
      Event.reply ⟨op, store.surround event.around, event.clock⟩ store.board = .ok later.board) ∨
      BoardChanges minted store.board later.board := by
  rcases board_of_preparation done with
    asked | same | ⟨id, workspace, card, found, ⟨submission, submitted, own⟩, attested⟩
  · exact Or.inl asked
  · rw [same]
    exact Or.inr .refl
  · have named := (Board.card?_eq_some_iff.mp found).2
    have submits : card.data.Submits := ⟨submission, submitted, own.trans named.symm⟩
    exact Or.inr (.single (.attested card found submits attested))

/-- The operation of a session on the board that the event asks for, if it does. -/
def WorkflowEvent.boardEvent? (event : WorkflowEvent) (hub : WorkflowHub) : Option Event :=
  match event.op with
  | .store (.board op _) => some ⟨op, hub.store.surround event.staging.around, event.clock⟩
  | _ => none

/-- The identities that the event draws for the checks its turns stage. -/
def WorkflowEvent.Mints (event : WorkflowEvent) (id : CardId) : Prop :=
  event.op.advances = true ∧ ∃ index, (event.turns index).fresh 0 = id

theorem changes_reply {next : WorkflowHub} (done : event.reply hub = .ok next) :
    (∃ asked, event.boardEvent? hub = some asked ∧ asked.op.attests = false ∧
      asked.reply hub.store.board = .ok next.store.board) ∨
      event.boardEvent? hub = none ∧ BoardChanges event.Mints hub.store.board next.store.board := by
  obtain ⟨op, staging, clock, fresh, turns⟩ := event
  have mints : op.advances = true → ∀ index,
      WorkflowEvent.Mints ⟨op, staging, clock, fresh, turns⟩ ((turns index).fresh 0) :=
    fun advances index => ⟨advances, index, rfl⟩
  cases op with
  | start session request =>
    refine Or.inr ⟨rfl, ?_⟩
    unfold WorkflowEvent.reply privateReviewWorkflowStart at done
    obtain ⟨owner, _, done⟩ := bind_eq_ok_iff.mp done
    obtain ⟨_, _, done⟩ := bind_eq_ok_iff.mp done
    obtain ⟨_, _, done⟩ := bind_eq_ok_iff.mp done
    split at done
    · obtain ⟨_, _, done⟩ := bind_eq_ok_iff.mp done
      obtain rfl := pure_eq_ok_iff.mp done
      exact .refl
    · obtain ⟨created, made, done⟩ := bind_eq_ok_iff.mp done
      obtain rfl := pure_eq_ok_iff.mp done
      simp only [createWorkflow, bind_eq_ok_iff, pure_eq_ok_iff] at made
      obtain ⟨_, _, _, _, _, _, _, _, _, _, _, _, _, _, _, _, _, _, workflows, _, rfl⟩ := made
      exact changes_advanceOwner (mints rfl) { hub with workflows } owner
  | poll session poll =>
    refine Or.inr ⟨rfl, ?_⟩
    unfold WorkflowEvent.reply pollWorkflows at done
    obtain ⟨owner, _, done⟩ := bind_eq_ok_iff.mp done
    obtain ⟨_, _, done⟩ := bind_eq_ok_iff.mp done
    obtain rfl := pure_eq_ok_iff.mp done
    exact changes_advanceOwner (mints rfl) hub owner
  | stop session id =>
    refine Or.inr ⟨rfl, ?_⟩
    unfold WorkflowEvent.reply privateReviewWorkflowStop at done
    obtain ⟨owner, _, done⟩ := bind_eq_ok_iff.mp done
    obtain ⟨row, _, done⟩ := bind_eq_ok_iff.mp done
    obtain rfl := pure_eq_ok_iff.mp done
    split
    · exact changes_stop _ _ _ _ _
    · exact .refl
  | stageCorrection session request =>
    refine Or.inr ⟨rfl, ?_⟩
    obtain ⟨owner, _, done⟩ := bind_eq_ok_iff.mp done
    obtain ⟨⟨board, card⟩, staged, done⟩ := bind_eq_ok_iff.mp done
    obtain rfl := pure_eq_ok_iff.mp done
    exact changes_stageCorrection staged
  | store op =>
    obtain ⟨store, replied, done⟩ := bind_eq_ok_iff.mp done
    obtain rfl := pure_eq_ok_iff.mp done
    cases op with
    | board op apart =>
      obtain ⟨board, answered, done⟩ := bind_eq_ok_iff.mp replied
      obtain rfl := pure_eq_ok_iff.mp done
      exact Or.inl ⟨_, rfl, apart, answered⟩
    | _ =>
      right
      refine ⟨rfl, (changes_preparation replied).resolve_left ?_⟩
      rintro ⟨_, _, asked, _⟩
      cases asked

/-- A transaction of a session is a step of the board; any other changes it without settling. -/
theorem changes_step (event : WorkflowEvent) (hub : WorkflowHub) :
    (∃ asked, event.boardEvent? hub = some asked ∧ asked.op.attests = false ∧
      (hub.step event).store.board = hub.store.board.step asked) ∨
      event.boardEvent? hub = none ∧
        BoardChanges event.Mints hub.store.board (hub.step event).store.board := by
  unfold WorkflowHub.step
  cases done : event.reply hub with
  | ok next =>
    rcases changes_reply done with ⟨asked, op, apart, replied⟩ | changes
    · refine Or.inl ⟨asked, op, apart, ?_⟩
      rw [Board.step, replied]
    · exact Or.inr changes
  | error failure =>
    cases asked : event.boardEvent? hub with
    | none => exact Or.inr ⟨rfl, .refl⟩
    | some boardEvent =>
      left
      unfold WorkflowEvent.boardEvent? at asked
      split at asked
      · rename_i op apart same
        obtain rfl := Option.some.inj asked
        refine ⟨_, rfl, apart, ?_⟩
        have refused : Event.reply ⟨op, hub.store.surround event.staging.around, event.clock⟩
            hub.store.board = .error failure := by
          cases answered : Event.reply ⟨op, hub.store.surround event.staging.around, event.clock⟩
              hub.store.board with
          | ok board =>
            have replied : event.reply hub = .ok (hub.withBoard board) := by
              unfold WorkflowEvent.reply
              rw [same]
              unfold WorkflowHub.directed PreparationEvent.reply
              simp only [answered]
              rfl
            rw [done] at replied
            cases replied
          | error other =>
            have replied : event.reply hub = .error other := by
              unfold WorkflowEvent.reply
              rw [same]
              unfold WorkflowHub.directed PreparationEvent.reply
              simp only [answered]
              rfl
            rw [done] at replied
            obtain rfl := Except.error.inj replied
            rfl
        rw [Board.step, refused]
      · cases asked

end Steps

end OHHive.LocalHub
