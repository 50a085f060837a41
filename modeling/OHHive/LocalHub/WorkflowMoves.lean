import OHHive.LocalHub.Workflows

/-! What a workflow's turn keeps of the hub, and what it does to the workflow. -/

namespace OHHive.LocalHub

open Foundation

section Slots

theorem not_finished_of_isOpen {status : CardStatus} (isOpen : status.isOpen = true) :
    status.isFinished = false := by
  cases status <;> first | rfl | cases isOpen

/-- A finished card has its output, and no worker has it. -/
structure Slot.Finished (slot : Slot) : Prop where
  card : ∃ card ∈ slot.card, card.status.isFinished = true
  unleased : slot.lease = none
  output : slot.output.isSome

/-- Cards are finished by a completion only. -/
def Slot.Sound (slot : Slot) : Prop :=
  ∀ card ∈ slot.card, card.status.isFinished = true → slot.Finished

/-- What every statement keeps of a slot: finished work stays so. -/
structure Slot.Keeps (before after : Slot) : Prop where
  sound : before.Sound → after.Sound
  finished : before.Finished → after.Finished

theorem Slot.Keeps.refl (slot : Slot) : slot.Keeps slot := ⟨id, id⟩

theorem Slot.Keeps.trans {first second third : Slot} (before : first.Keeps second)
    (after : second.Keeps third) : first.Keeps third :=
  ⟨after.sound ∘ before.sound, after.finished ∘ before.finished⟩

theorem Slot.sound_of_open {slot : Slot}
    (isOpen : ∀ card ∈ slot.card, card.status.isFinished = false) : slot.Sound := by
  intro card member finished
  rw [isOpen card member] at finished
  cases finished

theorem Slot.sound_of_card {card : Card} {lease : Option Lease} {output : Option CardOutput}
    (isOpen : card.status.isFinished = false) : Slot.Sound ⟨some card, lease, output⟩ := by
  apply Slot.sound_of_open
  intro other member
  obtain rfl := Option.some.inj member
  exact isOpen

/-- What has a lease is not finished. -/
theorem Slot.Keeps.of_leased {card : Option Card} {lease : Lease} {output : Option CardOutput}
    {after : Slot} (sound : Slot.Sound ⟨card, some lease, output⟩ → after.Sound) :
    Slot.Keeps ⟨card, some lease, output⟩ after :=
  ⟨sound, fun finished => nomatch finished.unleased⟩

/-- What is open is not finished. -/
theorem Slot.Keeps.of_open {card : Card} {lease : Option Lease} {output : Option CardOutput}
    {after : Slot} (isOpen : card.status.isFinished = false) (sound : after.Sound) :
    Slot.Keeps ⟨some card, lease, output⟩ after := by
  refine ⟨fun _ => sound, ?_⟩
  rintro ⟨⟨other, member, finished⟩, _, _⟩
  obtain rfl := Option.some.inj member
  rw [isOpen] at finished
  cases finished

theorem SlotMove.keeps {event : Event} {board : Board} {before after : Slot}
    (move : SlotMove event board before after) : before.Keeps after := by
  have opened : ∀ {later : Card} {lease output}, later.status.isOpen = true →
      Slot.Sound ⟨some later, lease, output⟩ :=
    fun isOpen => Slot.sound_of_card (not_finished_of_isOpen isOpen)
  cases move with
  | created card lease output isOpen =>
    refine ⟨fun _ => opened isOpen, fun finished => ?_⟩
    obtain ⟨_, absent, _⟩ := finished.card
    cases absent
  | shifted card later lease output isOpen after =>
    exact .of_open (not_finished_of_isOpen isOpen) (opened after)
  | expired card lease output =>
    apply Slot.Keeps.of_leased
    intro _
    apply Slot.sound_of_open
    intro later member
    obtain ⟨card, _, rfl⟩ := Option.map_eq_some_iff.mp member
    simp only [Card.expired]
    split <;> rfl
  | orphaned card lease output lost =>
    apply Slot.Keeps.of_leased
    intro sound card member finished
    cases (sound card member finished).unleased
  | stranded card later lease output after turned => exact .of_leased fun _ => opened after
  | claimed hub card lease output asked ready node session =>
    exact .of_open (by rw [ready]; rfl) (Slot.sound_of_card rfl)
  | extended card lease output expires =>
    apply Slot.Keeps.of_leased
    intro sound card member finished
    cases (sound card member finished).unleased
  | ended card later lease output after kept =>
    apply Slot.Keeps.of_leased
    intro _
    apply Slot.sound_of_open
    intro card member
    exact not_finished_of_isOpen (after card member)
  | completed card lease output accepted =>
    apply Slot.Keeps.of_leased
    intro _ later member finished
    exact ⟨⟨later, member, finished⟩, rfl, rfl⟩
  | retired card later lease after =>
    refine ⟨fun _ => opened after, fun finished => ?_⟩
    cases finished.output

end Slots

section Boards

variable {board next : Board}

/-- What every transaction keeps of the board: its runs, their stops and retries, and finished
work. -/
structure BoardKept (board next : Board) : Prop where
  grows : Grows board next
  slots : ∀ id, (board.slot id).Keeps (next.slot id)
  cards : ∀ id, (board.card? id).isSome → (next.card? id).isSome

theorem BoardKept.refl (board : Board) : BoardKept board board :=
  ⟨.refl board, fun _ => .refl _, fun _ => id⟩

theorem BoardKept.trans {first second third : Board} (before : BoardKept first second)
    (after : BoardKept second third) : BoardKept first third :=
  ⟨before.grows.trans after.grows, fun id => (before.slots id).trans (after.slots id),
    fun id stored => after.cards id (before.cards id stored)⟩

theorem Grows.of_sameRuns (same : SameRuns board next) : Grows board next := by
  refine ⟨?_, ?_, ?_⟩
  · rw [same.runs]
    exact fun _ run found => ⟨run, found, rfl, rfl, id⟩
  · rw [same.stops]
    exact fun _ member => member
  · rw [same.retries]
    exact fun _ member => member

theorem boardKept_step (event : Event) (board : Board) : BoardKept board (board.step event) := by
  refine ⟨(runMove_step event board).grows, fun id => ?_, fun _ => card_kept_step⟩
  have moves := slotMoves_step event board id
  generalize (board.step event).slot id = after at moves
  induction moves with
  | refl => exact .refl _
  | tail _ move ih => exact ih.trans move.keeps

theorem boardKept_of_reply {event : Event} (done : event.reply board = .ok next) :
    BoardKept board next := by
  have kept := boardKept_step event board
  rwa [Board.step, done] at kept

/-- An update that finishes no card and reopens none. -/
theorem boardKept_updateCards (selects : Card → Bool) (change : Card → Card) (fixed)
    (alike : ∀ card ∈ board.cards.rows, selects card = true →
      (change card).status.isFinished = card.status.isFinished) :
    BoardKept board (board.updateCards selects change fixed) := by
  have slots := Board.slot_updateCards board selects change fixed
  refine ⟨.of_sameRuns ⟨rfl, rfl, rfl⟩, fun id => ?_, fun id stored => ?_⟩
  · rw [slots]
    cases found : board.card? id with
    | none => exact ⟨fun _ card member => (nomatch member), fun finished => by
        obtain ⟨card, member, _⟩ := finished.card
        simp [Board.slot, found] at member⟩
    | some card =>
      have inBoard := (Board.card?_eq_some_iff.mp found).1
      have same : (if selects card then change card else card).status.isFinished =
          card.status.isFinished := by
        split
        · exact alike card inBoard ‹_›
        · rfl
      have alike : Slot.Finished { board.slot id with
          card := (some card).map (fun card => if selects card then change card else card) } ↔
          (board.slot id).Finished := by
        constructor
        · rintro ⟨⟨stored, member, finished⟩, unleased, output⟩
          obtain rfl := Option.some.inj member
          exact ⟨⟨card, found, same ▸ finished⟩, unleased, output⟩
        · rintro ⟨⟨stored, member, finished⟩, unleased, output⟩
          obtain rfl := Option.some.inj (found.symm.trans member)
          exact ⟨⟨_, rfl, same.trans finished⟩, unleased, output⟩
      refine ⟨?_, alike.mpr⟩
      intro sound later member finished
      obtain rfl := Option.some.inj member
      exact alike.mpr (sound card found (same ▸ finished))
  · have written := congrArg Slot.card (slots id)
    have same : ((board.updateCards selects change fixed).card? id).isSome =
        (board.card? id).isSome := (congrArg Option.isSome written).trans Option.isSome_map
    exact same ▸ stored

theorem boardKept_insertCard {card : ClaimedCard}
    (inserted : board.insertCard ⟨card, .blocked, some waiting⟩ = .ok next) :
    BoardKept board next := by
  obtain ⟨absent, slots⟩ := Board.slot_insertCard inserted
  simp only [Board.insertCard, bind_eq_ok_iff, pure_eq_ok_iff] at inserted
  obtain ⟨_, _, cards, _, rfl⟩ := inserted
  have cards : ∀ id, Board.card? { board with cards } id =
      if card.id = id then some ⟨card, .blocked, some waiting⟩ else board.card? id :=
    fun id => congrArg Slot.card (slots id)
  refine ⟨.of_sameRuns ⟨rfl, rfl, rfl⟩, fun id => ?_, fun id stored => ?_⟩
  · rw [slots id]
    split
    · rename_i same
      obtain rfl := same
      refine ⟨fun _ => Slot.sound_of_card rfl, ?_⟩
      rintro ⟨⟨stored, member, _⟩, _, _⟩
      rw [Board.slot, absent] at member
      cases member
    · exact .refl _
  · rw [cards]
    split
    · rfl
    · exact stored

end Boards

section Staging

variable {staging : Staging} {board next : Board} {task : CardId}

theorem waiting_ne_awaitingRun : waiting ≠ awaitingRun := by decide

/-- The task is not one whose run may be requested. -/
def Unawaited (board : Board) (task : CardId) : Prop :=
  ∀ card, board.card? task = some card →
    ¬ (card.status = .blocked ∧ card.reason = some awaitingRun)

/-- What staging a task does: it concerns that task, and gives nobody anything to run. -/
structure Staged (board next : Board) (task : CardId) : Prop where
  kept : BoardKept board next
  same : SameRuns board next
  only : ∀ other, other ≠ task → next.card? other = board.card? other
  unawaited : Unawaited board task → Unawaited next task

theorem Staged.refl (board : Board) (task : CardId) : Staged board board task :=
  ⟨.refl board, .refl board, fun _ _ => rfl, id⟩

theorem Staged.trans {first second third : Board} (before : Staged first second task)
    (after : Staged second third task) : Staged first third task :=
  ⟨before.kept.trans after.kept, before.same.trans after.same,
    fun other apart => (after.only other apart).trans (before.only other apart),
    after.unawaited ∘ before.unawaited⟩

theorem staged_insertCard {card : ClaimedCard}
    (inserted : board.insertCard ⟨card, .blocked, some waiting⟩ = .ok next) :
    Staged board next card.id := by
  have cards : ∀ other, next.card? other =
      if card.id = other then some ⟨card, .blocked, some waiting⟩ else board.card? other :=
    fun other => congrArg Slot.card ((Board.slot_insertCard inserted).2 other)
  have kept := boardKept_insertCard inserted
  simp only [Board.insertCard, bind_eq_ok_iff, pure_eq_ok_iff] at inserted
  obtain ⟨_, _, added, _, rfl⟩ := inserted
  refine ⟨kept, ⟨rfl, rfl, rfl⟩, ?_, ?_⟩
  · intro other apart
    rw [cards, if_neg (Ne.symm apart)]
  · intro _ stored found
    rw [cards, if_pos rfl] at found
    obtain rfl := Option.some.inj found
    rintro ⟨_, reason⟩
    exact waiting_ne_awaitingRun (Option.some.inj reason)

theorem staged_rewriteTask (board : Board) (task : CardId) (deps : List String)
    (required : RequiredCapabilities) : Staged board (rewriteTask board task deps required) task := by
  have slots : ∀ other, (rewriteTask board task deps required).slot other = _ :=
    Board.slot_updateCard board task (Card.rewritten deps required)
      (Card.identity_rewritten deps required)
  refine ⟨boardKept_updateCards _ _ _ (fun _ _ _ => rfl), ⟨rfl, rfl, rfl⟩, ?_, ?_⟩
  · intro other apart
    have slot := slots other
    rw [if_neg apart] at slot
    exact congrArg Slot.card slot
  · intro unawaited later found
    have slot := slots task
    rw [if_pos rfl] at slot
    have written := (congrArg Slot.card slot).symm.trans found
    obtain ⟨card, stored, rfl⟩ := Option.map_eq_some_iff.mp written
    exact unawaited card stored

theorem stageTask_ok {request : PrivateCodeTaskRequest} {card : ClaimedCard}
    (done : stageTask staging board request = .ok (next, card)) :
    Staged board next request.requestId ∧ card.id = request.requestId := by
  unfold stageTask at done
  obtain ⟨_, _, done⟩ := bind_eq_ok_iff.mp done
  split at done
  · rename_i stored found
    obtain ⟨_, _, done⟩ := bind_eq_ok_iff.mp done
    obtain ⟨rfl, rfl⟩ := Prod.mk.inj (pure_eq_ok_iff.mp done)
    exact ⟨.refl board _, (Board.card?_eq_some_iff.mp found).2⟩
  · obtain ⟨built, made, done⟩ := bind_eq_ok_iff.mp done
    obtain ⟨_, _, done⟩ := bind_eq_ok_iff.mp done
    obtain ⟨inserted, stored, done⟩ := bind_eq_ok_iff.mp done
    obtain ⟨rfl, rfl⟩ := Prod.mk.inj (pure_eq_ok_iff.mp done)
    have same : built.id = request.requestId := by
      simp only [taskCard, bind_eq_ok_iff, pure_eq_ok_iff] at made
      obtain ⟨_, _, _, _, _, _, _, _, rfl⟩ := made
      rfl
    exact ⟨same ▸ staged_insertCard stored, same⟩

theorem stageCorrection_ok {request : PrivateCorrectionRequest} {owner : String}
    {card : ClaimedCard}
    (done : stageCorrection staging board request owner = .ok (next, card)) :
    Staged board next card.id := by
  unfold stageCorrection at done
  obtain ⟨_, _, done⟩ := bind_eq_ok_iff.mp done
  split at done
  · obtain ⟨_, _, done⟩ := bind_eq_ok_iff.mp done
    obtain ⟨_, _, done⟩ := bind_eq_ok_iff.mp done
    obtain ⟨_, _, done⟩ := bind_eq_ok_iff.mp done
    obtain ⟨rfl, rfl⟩ := Prod.mk.inj (pure_eq_ok_iff.mp done)
    exact .refl _ _
  · unfold newCorrection at done
    obtain ⟨⟨original, coder, context⟩, _, done⟩ := bind_eq_ok_iff.mp done
    obtain ⟨⟨staged, built⟩, made, done⟩ := bind_eq_ok_iff.mp done
    simp only [bind_eq_ok_iff, pure_eq_ok_iff] at done
    obtain ⟨_, _, _, _, _, _, _, _, _, _, _, _, same⟩ := done
    obtain ⟨rfl, rfl⟩ := Prod.mk.inj same
    obtain ⟨stages, identity⟩ := stageTask_ok made
    rw [← identity] at stages
    exact stages.trans (staged_rewriteTask _ _ _ _)

end Staging

section Shutting

variable {board next : Board} {task : CardId} {operation : OperationId}

/-- A run that nobody may claim any more: it was stopped or retried. -/
def Halted (board : Board) (operation : OperationId) : Prop :=
  (∃ stop ∈ board.privateRunStops.rows, stop.operationId = operation) ∨
    ∃ retry ∈ board.privateRunRetries.rows, retry.previousId = operation

theorem Halted.of_grows (halted : Halted board operation) (grows : Grows board next) :
    Halted next operation := by
  rcases halted with ⟨stop, recorded, same⟩ | ⟨retry, recorded, same⟩
  · exact Or.inl ⟨stop, grows.stops stop recorded, same⟩
  · exact Or.inr ⟨retry, grows.retries retry recorded, same⟩

/-- A task whose runs are over: it is finished, or its runs are halted and no other can be
requested. -/
def Shut (board : Board) (task : CardId) : Prop :=
  (board.slot task).Finished ∨
    (∀ run ∈ board.privateRuns.rows, run.cardId = task → Halted board run.id) ∧
      Unawaited board task

theorem Shut.of_kept (shut : Shut board task) (kept : BoardKept board next)
    (runs : ∀ run ∈ next.privateRuns.rows, run.cardId = task → run ∈ board.privateRuns.rows)
    (unawaited : Unawaited board task → Unawaited next task) : Shut next task := by
  rcases shut with finished | ⟨halted, quiet⟩
  · exact Or.inl ((kept.slots task).finished finished)
  · refine Or.inr ⟨?_, unawaited quiet⟩
    intro run member same
    exact (halted run (runs run member same) same).of_grows kept.grows

theorem Staged.shut {other : CardId} (staged : Staged board next task) (shut : Shut board other) :
    Shut next other := by
  apply shut.of_kept staged.kept
  · intro run member _
    rw [← staged.same.runs]
    exact member
  · by_cases same : other = task
    · exact same ▸ staged.unawaited
    · intro unawaited card found
      exact unawaited card ((staged.only other same).symm.trans found)

/-- What recording stops does to the board. -/
structure Stopping (board next : Board) (runs : List PrivateRun) : Prop where
  cards : next.cards = board.cards
  leases : next.leases = board.leases
  outputs : next.outputs = board.outputs
  privateRuns : next.privateRuns = board.privateRuns
  retries : next.privateRunRetries = board.privateRunRetries
  stops : ∀ stop ∈ board.privateRunStops.rows, stop ∈ next.privateRunStops.rows
  stopped : ∀ run ∈ runs, ∃ stop ∈ next.privateRunStops.rows, stop.operationId = run.id

theorem stopping_stopRun (now : Int) (board : Board) (run : PrivateRun) :
    Stopping board (stopRun now board run) [run] := by
  unfold stopRun
  cases inserted : board.privateRunStops.insert? ⟨run.id, run.targetNodeId, now⟩ with
  | some privateRunStops =>
    have rows := Table.rows_of_insert? inserted
    refine ⟨rfl, rfl, rfl, rfl, rfl, ?_, ?_⟩
    · intro stop member
      change stop ∈ privateRunStops.rows
      rw [rows]
      exact List.mem_append_left _ member
    · intro other member
      obtain rfl := List.mem_singleton.mp member
      refine ⟨⟨other.id, other.targetNodeId, now⟩, ?_, rfl⟩
      change _ ∈ privateRunStops.rows
      rw [rows]
      exact List.mem_append_right _ List.mem_cons_self
  | none =>
    refine ⟨rfl, rfl, rfl, rfl, rfl, fun _ member => member, ?_⟩
    intro other member
    obtain rfl := List.mem_singleton.mp member
    by_contra absent
    have fits : board.privateRunStops.Fits ⟨other.id, other.targetNodeId, now⟩ := by
      intro stop recorded same
      exact absent ⟨stop, recorded, same⟩
    obtain ⟨_, stored, _⟩ := Table.exists_insert? fits
    rw [inserted] at stored
    cases stored

theorem stopping_foldl (now : Int) (runs : List PrivateRun) (board : Board) :
    Stopping board (runs.foldl (stopRun now) board) runs := by
  induction runs generalizing board with
  | nil =>
    exact ⟨rfl, rfl, rfl, rfl, rfl, fun _ member => member, fun _ member => nomatch member⟩
  | cons run rest ih =>
    have first := stopping_stopRun now board run
    have others := ih (stopRun now board run)
    refine ⟨others.cards.trans first.cards, others.leases.trans first.leases,
      others.outputs.trans first.outputs, others.privateRuns.trans first.privateRuns,
      others.retries.trans first.retries,
      fun stop member => others.stops stop (first.stops stop member), ?_⟩
    intro other member
    rcases List.mem_cons.mp member with rfl | member
    · obtain ⟨stop, recorded, same⟩ := first.stopped other List.mem_cons_self
      exact ⟨stop, others.stops stop recorded, same⟩
    · exact others.stopped other member

theorem Stopping.kept {runs : List PrivateRun} (stopping : Stopping board next runs) :
    BoardKept board next := by
  refine ⟨⟨?_, stopping.stops, by rw [stopping.retries]; exact fun _ member => member⟩, ?_, ?_⟩
  · rw [stopping.privateRuns]
    exact fun _ run found => ⟨run, found, rfl, rfl, id⟩
  · intro id
    have same : next.slot id = board.slot id := by
      simp only [Board.slot, Board.card?, Board.lease?, Board.output?, stopping.cards,
        stopping.leases, stopping.outputs]
    exact same ▸ .refl _
  · intro id stored
    rwa [Board.card?, stopping.cards]

/-- What a stopped task becomes. -/
def Card.withheld (task : CardId) (card : Card) : Card :=
  if card.id = task && isUnclaimed card then
    card.moved .blocked (some "review_workflow_stopped") else card

theorem unfinished_of_unclaimed {card : Card} (unclaimed : isUnclaimed card = true) :
    card.status.isFinished = false := by
  unfold isUnclaimed at unclaimed
  cases found : card.status <;> first | rfl | (rw [found] at unclaimed; cases unclaimed)

/-- What the stop of a task does to the board. -/
structure TaskStopped (board next : Board) (task : CardId) : Prop where
  kept : BoardKept board next
  privateRuns : next.privateRuns = board.privateRuns
  cards : ∀ other, next.card? other = (board.card? other).map (Card.withheld task)
  halted : ∀ run ∈ board.privateRuns.rows, run.cardId = task → Halted next run.id

theorem taskStopped (board : Board) (task : CardId) (now : Int) :
    TaskStopped board (stopTask board task now) task := by
  have stopping := stopping_foldl now (board.privateRuns.rows.filter (isCurrentRun board task)) board
  change TaskStopped board (Board.setStatus ((board.privateRuns.rows.filter
    (isCurrentRun board task)).foldl (stopRun now) board) (fun card => card.id = task &&
      isUnclaimed card) .blocked (some "review_workflow_stopped")) task
  generalize (board.privateRuns.rows.filter (isCurrentRun board task)).foldl (stopRun now) board =
    stopped at stopping ⊢
  have withheld : BoardKept stopped (stopped.setStatus (fun card => card.id = task &&
      isUnclaimed card) .blocked (some "review_workflow_stopped")) := by
    apply boardKept_updateCards
    intro card _ selected
    rw [Bool.and_eq_true] at selected
    rw [unfinished_of_unclaimed selected.2]
    rfl
  refine ⟨stopping.kept.trans withheld, stopping.privateRuns, ?_, ?_⟩
  · intro other
    have written := congrArg Slot.card (Board.slot_updateCards stopped (fun card => card.id = task &&
      isUnclaimed card) (Card.moved .blocked (some "review_workflow_stopped"))
      (Card.identity_moved _ _) other)
    have same : stopped.card? other = board.card? other := by
      rw [Board.card?, Board.card?, stopping.cards]
    rw [← same]
    exact written
  · intro run member same
    by_cases retried : ∃ retry ∈ board.privateRunRetries.rows, retry.previousId = run.id
    · have halted : Halted board run.id := Or.inr retried
      exact halted.of_grows (stopping.kept.trans withheld).grows
    · have current : isCurrentRun board task run = true := by
        simp only [isCurrentRun, same, decide_true, Bool.true_and, Bool.not_eq_true',
          List.any_eq_false, decide_eq_true_eq]
        exact fun retry recorded equal => retried ⟨retry, recorded, equal⟩
      obtain ⟨stop, recorded, equal⟩ := stopping.stopped run (List.mem_filter.mpr ⟨member, current⟩)
      exact Or.inl ⟨stop, withheld.grows.stops stop recorded, equal⟩

/-- A withheld card is not one whose run may be requested. -/
theorem Card.withheld_unawaited {card : Card} (own : card.id = task) :
    ¬ ((card.withheld task).status = .blocked ∧ (card.withheld task).reason = some awaitingRun) := by
  unfold Card.withheld
  split
  · rintro ⟨_, reason⟩
    exact absurd (Option.some.inj reason) (by decide)
  · rename_i unselected
    rintro ⟨blocked, reason⟩
    apply unselected
    simp [own, isUnclaimed, blocked, reason]

theorem TaskStopped.shut {other : CardId} (stopped : TaskStopped board next task)
    (shut : Shut board other) : Shut next other := by
  apply shut.of_kept stopped.kept
  · intro run member _
    rw [← stopped.privateRuns]
    exact member
  · intro unawaited later found
    obtain ⟨card, stored, rfl⟩ := Option.map_eq_some_iff.mp ((stopped.cards other).symm.trans found)
    by_cases own : card.id = task
    · exact Card.withheld_unawaited own
    · have same : card.withheld task = card := by
        simp [Card.withheld, own]
      rw [same]
      exact unawaited card stored

theorem TaskStopped.shuts (stopped : TaskStopped board next task) : Shut next task := by
  refine Or.inr ⟨?_, ?_⟩
  · intro run member same
    rw [stopped.privateRuns] at member
    exact stopped.halted run member same
  · intro later found
    obtain ⟨card, stored, rfl⟩ := Option.map_eq_some_iff.mp ((stopped.cards task).symm.trans found)
    exact Card.withheld_unawaited (Board.card?_eq_some_iff.mp stored).2

end Shutting

section Requesting

variable {around : Surroundings} {board next : Board} {owner : String} {operation : OperationId}
  {task : CardId} {clock : Nat → Int}

/-- The surroundings in which an owner is already verified. -/
def Surroundings.verified (around : Surroundings) (owner : String) : Surroundings :=
  { around with verifiedOwner := fun _ => .ok owner }

/-- A workflow's request of a run is one that the owner makes. -/
theorem privateRunRequest_of_requestRun (hub : Session)
    (done : requestRun around board owner operation task clock = .ok next) :
    privateRunRequest (around.verified owner) board hub operation task clock = .ok next := by
  simp only [requestRun, bind_eq_ok_iff, require_eq_ok_iff, exists_const] at done
  simp only [privateRunRequest, bind_eq_ok_iff, require_eq_ok_iff, exists_const]
  obtain ⟨identity, preparation, prepares, target, body⟩ := done
  exact ⟨identity, owner, rfl, preparation, prepares, target, body⟩

theorem boardKept_requestRun
    (done : requestRun around board owner operation task clock = .ok next) :
    BoardKept board next := by
  have replied : Event.reply ⟨.privateRunRequest ⟨"", 0, none, none⟩ operation task,
      around.verified owner, clock⟩ board = .ok next := privateRunRequest_of_requestRun _ done
  exact boardKept_of_reply replied

/-- A run is requested only of a task that is not shut. -/
theorem shut_requestRun {other : CardId}
    (done : requestRun around board owner operation task clock = .ok next)
    (shut : Shut board other) : Shut next other := by
  have kept := boardKept_requestRun done
  rcases privateRunRequest_ok (privateRunRequest_of_requestRun ⟨"", 0, none, none⟩ done) with
    ⟨_, rfl⟩ | ⟨run, privateRuns, requested⟩
  · exact shut
  · obtain ⟨card, found, blocked, reason⟩ := requested.awaiting
    have apart : other ≠ task := by
      rintro rfl
      rcases shut with ⟨⟨stored, member, finished⟩, _, _⟩ | ⟨_, unawaited⟩
      · obtain rfl := Option.some.inj (found.symm.trans member)
        rw [blocked] at finished
        cases finished
      · exact unawaited card found ⟨blocked, reason⟩
    have rows := Table.rows_of_insert? requested.stored
    obtain rfl := requested.next_eq
    apply shut.of_kept kept
    · intro started member same
      have stored : started ∈ privateRuns.rows := member
      rw [rows] at stored
      rcases List.mem_append.mp stored with inBoard | new
      · exact inBoard
      · obtain rfl := List.mem_singleton.mp new
        exact absurd (same.symm.trans requested.card_eq) apart
    · intro unawaited later present
      have slot := Board.slot_updateCard { board with privateRuns } task (Card.moved .ready none)
        (Card.identity_moved _ _) other
      rw [if_neg apart] at slot
      exact unawaited later ((congrArg Slot.card slot).symm.trans present)

/-- A card that there was not before was not requested to run. -/
theorem card?_requestRun (done : requestRun around board owner operation task clock = .ok next)
    {id : CardId} (present : (next.card? id).isSome) : (board.card? id).isSome := by
  rcases privateRunRequest_ok (privateRunRequest_of_requestRun ⟨"", 0, none, none⟩ done) with
    ⟨_, rfl⟩ | ⟨run, privateRuns, requested⟩
  · exact present
  · obtain rfl := requested.next_eq
    have written := congrArg Slot.card (Board.slot_updateCards { board with privateRuns }
      (fun card => card.id = task) (Card.moved .ready none) (Card.identity_moved _ _) id)
    have same : (Board.card? (Board.setStatus { board with privateRuns }
        (fun card => card.id = task) .ready none) id).isSome = (board.card? id).isSome :=
      (congrArg Option.isSome written).trans Option.isSome_map
    exact same ▸ present

theorem board_requestPreparation {store later : PreparationStore}
    (done : requestPreparation around store owner operation task clock = .ok later) :
    later.board = store.board := by
  unfold requestPreparation at done
  obtain ⟨_, _, done⟩ := bind_eq_ok_iff.mp done
  obtain ⟨⟨card, target⟩, _, done⟩ := bind_eq_ok_iff.mp done
  obtain ⟨_, _, done⟩ := bind_eq_ok_iff.mp done
  split at done
  · obtain ⟨_, _, done⟩ := bind_eq_ok_iff.mp done
    obtain rfl := pure_eq_ok_iff.mp done
    rfl
  · obtain ⟨_, _, done⟩ := bind_eq_ok_iff.mp done
    obtain ⟨_, _, done⟩ := bind_eq_ok_iff.mp done
    obtain rfl := pure_eq_ok_iff.mp done
    rfl

end Requesting

section Turns

variable {staging : Staging} {turn : Turn} {hub next : WorkflowHub} {flow later : ReviewWorkflow}
  {card : Card}

/-- How far a workflow has come: the number of tasks that were staged for it. -/
def ReviewWorkflow.stage (flow : ReviewWorkflow) : Nat :=
  2 * flow.corrections + if flow.checking then 1 else 0

/-- What a turn does to its workflow. -/
inductive FlowMove (flow : ReviewWorkflow) : ReviewWorkflow → Prop where
  | noted (preparation : OperationId) : FlowMove flow { flow with preparation }
  | checked (currentTask preparation run) (coding : flow.checking = false) :
      FlowMove flow { flow with currentTask, preparation, run, checking := true }
  | corrected (task preparation run) (checking : flow.checking = true)
      (left : flow.corrections < flow.request.maxCorrections) :
      FlowMove flow
        { flow with
          currentTask := task
          coderTask := task
          preparation
          run
          checking := false
          corrections := flow.corrections + 1 }
  | ended (state reason) (inactive : state ≠ .active) : FlowMove flow { flow with state, reason }

/-- What a turn does to the hub. -/
structure TurnEffect (hub next : WorkflowHub) (flow later : ReviewWorkflow) : Prop where
  saved : next.workflows.rows = hub.workflows.rows.map (WorkflowRow.saved later)
  moved : FlowMove flow later
  kept : BoardKept hub.store.board next.store.board
  staged : ∀ id, (next.store.board.card? id).isSome →
    (hub.store.board.card? id).isSome ∨ id = later.currentTask
  shut : ∀ task, Shut hub.store.board task → Shut next.store.board task
  leaves : (∀ id, (hub.store.board.slot id).Sound) → later.state ≠ .active →
    Shut next.store.board later.currentTask

/-- A turn that writes no card. -/
theorem turnEffect_save (active : flow.state = .active) (moved : FlowMove flow later)
    (same : later.state = flow.state) : TurnEffect hub (hub.save later) flow later :=
  ⟨rfl, moved, .refl _, fun _ => Or.inl, fun _ => id,
    fun _ inactive => absurd (same.trans active) inactive⟩

theorem turnEffect_stop (hub : WorkflowHub) (flow : ReviewWorkflow) {state : WorkflowState}
    (inactive : state ≠ .active) (reason : String) (now : Int) :
    TurnEffect hub (hub.stop flow state reason now) flow { flow with state, reason := some reason } := by
  have stopped := taskStopped hub.store.board flow.currentTask now
  refine ⟨rfl, .ended state _ inactive, stopped.kept, ?_, fun _ => stopped.shut,
    fun _ _ => stopped.shuts⟩
  intro id present
  have same : ((hub.stop flow state reason now).store.board.card? id).isSome =
      (hub.store.board.card? id).isSome :=
    (congrArg Option.isSome (stopped.cards id)).trans Option.isSome_map
  exact Or.inl (same ▸ present)

/-- A turn that stages the workflow's next task. -/
theorem turnEffect_staged {board : Board} (staged : Staged hub.store.board board later.currentTask)
    (active : flow.state = .active) (moved : FlowMove flow later)
    (same : later.state = flow.state) :
    TurnEffect hub ((hub.withBoard board).save later) flow later := by
  refine ⟨rfl, moved, staged.kept, ?_, fun _ => staged.shut,
    fun _ inactive => absurd (same.trans active) inactive⟩
  intro id present
  by_cases own : id = later.currentTask
  · exact Or.inr own
  · exact Or.inl (staged.only id own ▸ present)

theorem turnEffect_stageCheck (active : flow.state = .active) (coding : flow.checking = false)
    (done : stageCheck staging turn hub flow card = .ok next) :
    ∃ later, TurnEffect hub next flow later := by
  unfold stageCheck at done
  obtain ⟨_, _, done⟩ := bind_eq_ok_iff.mp done
  obtain ⟨⟨board, checker⟩, staged, done⟩ := bind_eq_ok_iff.mp done
  obtain rfl := pure_eq_ok_iff.mp done
  obtain ⟨stages, _⟩ := stageTask_ok staged
  have rewritten := stages.trans (staged_rewriteTask board _ checker.deps
    (checker.requiredCapabilities.withPersona staging.format flow.checkerPersona
      (checkerTask flow.checkerPersona (checkerSubmission flow.request (turn.fresh 0) card.id).task)))
  exact ⟨_, turnEffect_staged rewritten active (.checked _ _ _ coding) rfl⟩

theorem turnEffect_stageChanges (active : flow.state = .active) (checking : flow.checking = true)
    (done : stageChanges staging turn hub flow card = .ok next) :
    ∃ later, TurnEffect hub next flow later := by
  unfold stageChanges at done
  split at done
  · obtain rfl := pure_eq_ok_iff.mp done
    exact ⟨_, turnEffect_stop hub flow (by decide) _ _⟩
  · rename_i left
    obtain ⟨⟨board, correction⟩, staged, done⟩ := bind_eq_ok_iff.mp done
    obtain rfl := pure_eq_ok_iff.mp done
    have moved := FlowMove.corrected correction.id (turn.fresh 1) (turn.fresh 2) checking
      (Nat.lt_of_not_le left)
    exact ⟨_, turnEffect_staged (stageCorrection_ok staged) active moved rfl⟩

/-- A passed check is finished, and its runs with it. -/
theorem turnEffect_pass (found : hub.store.board.card? flow.currentTask = some card)
    (finished : card.status.isFinished = true) :
    TurnEffect hub (hub.save flow.pass) flow flow.pass := by
  refine ⟨rfl, .ended .passed _ (by decide), .refl _, fun _ => Or.inl, fun _ => id, ?_⟩
  intro sound _
  exact Or.inl (sound flow.currentTask card found finished)

theorem turnEffect_concludeCheck (active : flow.state = .active) (checking : flow.checking = true)
    (found : hub.store.board.card? flow.currentTask = some card)
    (finished : card.status.isFinished = true)
    (done : concludeCheck staging turn hub flow card = .ok next) :
    ∃ later, TurnEffect hub next flow later := by
  unfold concludeCheck at done
  obtain ⟨verdict, _, done⟩ := bind_eq_ok_iff.mp done
  cases verdict with
  | pass =>
    obtain rfl := pure_eq_ok_iff.mp done
    exact ⟨_, turnEffect_pass found finished⟩
  | inconclusive =>
    obtain rfl := pure_eq_ok_iff.mp done
    exact ⟨_, turnEffect_stop hub flow (by decide) _ _⟩
  | changesRequired => exact turnEffect_stageChanges active checking done

theorem turnEffect_awaitPreparation (active : flow.state = .active)
    (done : awaitPreparation staging turn hub flow card = .ok next) :
    ∃ later, TurnEffect hub next flow later := by
  unfold awaitPreparation at done
  split at done
  · rename_i row _
    obtain rfl := pure_eq_ok_iff.mp done
    exact ⟨_, turnEffect_save active (.noted row.id) rfl⟩
  · obtain ⟨store, requested, done⟩ := bind_eq_ok_iff.mp done
    obtain rfl := pure_eq_ok_iff.mp done
    have same : ({ hub with store } : WorkflowHub).store.board = hub.store.board :=
      board_requestPreparation requested
    refine ⟨flow, rfl, .noted flow.preparation, same ▸ .refl _, fun _ => ?_, fun _ => ?_,
      fun _ inactive => absurd active inactive⟩
    · exact fun present => Or.inl (same ▸ present)
    · exact fun shut => same.symm ▸ shut

theorem turnEffect_awaitRun (active : flow.state = .active)
    (done : awaitRun staging turn hub flow card = .ok next) :
    ∃ later, TurnEffect hub next flow later := by
  unfold awaitRun at done
  obtain ⟨board, requested, done⟩ := bind_eq_ok_iff.mp done
  obtain rfl := pure_eq_ok_iff.mp done
  exact ⟨flow, rfl, .noted flow.preparation, boardKept_requestRun requested,
    fun _ present => Or.inl (card?_requestRun requested present),
    fun _ => shut_requestRun requested, fun _ inactive => absurd active inactive⟩

theorem turnEffect_watchRun (active : flow.state = .active)
    (done : watchRun turn hub flow card = .ok next) : ∃ later, TurnEffect hub next flow later := by
  unfold watchRun at done
  obtain ⟨run, _, done⟩ := bind_eq_ok_iff.mp done
  obtain ⟨status, _, done⟩ := bind_eq_ok_iff.mp done
  split at done
  · obtain rfl := pure_eq_ok_iff.mp done
    exact ⟨_, turnEffect_stop hub flow (by decide) _ _⟩
  · obtain rfl := pure_eq_ok_iff.mp done
    exact ⟨flow, turnEffect_save active (.noted flow.preparation) rfl⟩

theorem turnEffect_proceed (active : flow.state = .active)
    (done : proceed staging turn hub flow = .ok next) : ∃ later, TurnEffect hub next flow later := by
  unfold proceed at done
  obtain ⟨card, found, done⟩ := bind_eq_ok_iff.mp done
  obtain ⟨_, _, done⟩ := bind_eq_ok_iff.mp done
  obtain ⟨_, _, done⟩ := bind_eq_ok_iff.mp done
  obtain ⟨_, _, done⟩ := bind_eq_ok_iff.mp done
  split at done
  · rename_i finished
    have finished : card.status.isFinished = true := by
      rcases finished with review | done
      · rw [review]
        rfl
      · rw [done]
        rfl
    split at done
    · rename_i checking
      exact turnEffect_concludeCheck active checking (orFail_eq_ok_iff.mp found) finished done
    · rename_i coding
      exact turnEffect_stageCheck active (Bool.eq_false_iff.mpr coding) done
  · split at done
    · exact turnEffect_awaitPreparation active done
    · split at done
      · exact turnEffect_awaitRun active done
      · exact turnEffect_watchRun active done

theorem turnEffect_advance (active : flow.state = .active)
    (done : advance staging turn hub flow = .ok next) : ∃ later, TurnEffect hub next flow later := by
  unfold advance at done
  split at done
  · obtain rfl := pure_eq_ok_iff.mp done
    exact ⟨_, turnEffect_stop hub flow (by decide) _ _⟩
  · exact turnEffect_proceed active done

/-- A turn always ends: with what it did, or with its workflow stopped. -/
theorem turnEffect_advanceOne (active : flow.state = .active) :
    ∃ later, TurnEffect hub (advanceOne staging turn hub flow) flow later := by
  unfold advanceOne
  split
  · exact turnEffect_advance active ‹_›
  · exact ⟨_, turnEffect_stop hub flow (by decide) _ _⟩

end Turns

end OHHive.LocalHub
