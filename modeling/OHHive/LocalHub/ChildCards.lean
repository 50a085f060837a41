import OHHive.LocalHub.BoundedReview
import OHHive.LocalHub.CardKeeping
import OHHive.LocalHub.ChildWaits
import Mathlib.Data.Nat.Count

/-! Parents and their children over the runs of the hub: every wait that is over was ended once,
and the child that was spawned for a key is found again whatever became of it. -/

namespace OHHive.LocalHub

open Foundation

section Waits

variable {board next : Board} {minted : CardId → Prop} {event : WorkflowEvent}
  {hub : WorkflowHub} {id : CardId}

theorem waitsKept_stopRuns (now : Int) (runs : List PrivateRun) (board : Board) :
    WaitsKept board (runs.foldl (stopRun now) board) := by
  induction runs generalizing board with
  | nil => exact .refl board
  | cons run rest ih =>
    refine WaitsKept.trans ?_ (ih (stopRun now board run))
    unfold stopRun
    split
    · exact waitsKept_of_same rfl rfl rfl
    · exact .refl board

/-- A change that settles nothing leaves the waiting cards alone. -/
theorem waitsKept_change (change : BoardChange minted board next) : WaitsKept board next := by
  cases change with
  | requested done =>
    exact waitsKept_request (privateRunRequest_of_requestRun ⟨"", 0, none, none⟩ done)
  | attested card found submits done => exact waitsKept_attest done
  | staged inserted => exact waitsKept_insertCard inserted nofun
  | bound inserted deps required =>
    refine (waitsKept_insertCard inserted nofun).trans ?_
    exact waitsKept_updateCards fun _ _ _ => Iff.rfl
  | rewritten mints card found submits deps required =>
    exact waitsKept_updateCards fun _ _ _ => Iff.rfl
  | stopped task now =>
    refine (waitsKept_stopRuns now _ board).trans (waitsKept_setStatus nofun ?_)
    intro card selected waits
    rw [Bool.and_eq_true] at selected
    have unclaimed := selected.2
    simp [isUnclaimed, waits] at unclaimed

theorem waitsKept_changes (changes : BoardChanges minted board next) : WaitsKept board next := by
  induction changes with
  | refl => exact .refl board
  | tail _ change kept => exact kept.trans (waitsKept_change change)

/-- The session's transaction that lets its card wait. -/
def WorkflowEvent.BeginsWait (event : WorkflowEvent) (hub : WorkflowHub) (id : CardId) : Prop :=
  ∃ asked, event.boardEvent? hub = some asked ∧ asked.BeginsWait hub.store.board id

theorem waitStep_hubStep (resting : hub.store.board.Resting) (event : WorkflowEvent) :
    WaitStep (fun id => hub.store.board.Waits id ∨ event.BeginsWait hub id)
      (hub.step event).store.board := by
  rcases changes_step event hub with ⟨asked, present, _, stepped⟩ | ⟨absent, changes⟩
  · have same : ∀ id, event.BeginsWait hub id ↔ asked.BeginsWait hub.store.board id := by
      intro id
      constructor
      · rintro ⟨other, found, begins⟩
        obtain rfl := Option.some.inj (present.symm.trans found)
        exact begins
      · exact fun begins => ⟨asked, present, begins⟩
    simp only [same, stepped]
    exact waitStep_step resting asked
  · have none : ∀ id, ¬ event.BeginsWait hub id := by
      rintro id ⟨asked, found, _⟩
      cases absent.symm.trans found
    simp only [none, or_false]
    exact .of_kept (waitsKept_changes changes) resting

theorem working_of_begins (resting : hub.store.board.Resting) (begins : event.BeginsWait hub id) :
    ¬ hub.store.board.Waits id := by
  obtain ⟨asked, _, begins⟩ := begins
  exact working_of_beginsWait resting begins

theorem resting_run (events : List WorkflowEvent) (moment : Nat) :
    (hubAt events moment).store.board.Resting := by
  refine stateAt_invariant WorkflowHub.step WorkflowHub.empty events
    (fun hub => hub.store.board.Resting) ?_ ?_ moment
  · intro id waits
    cases waits
  · exact fun hub event _ resting => (waitStep_hubStep resting event).resting

end Waits

section Runs

variable (events : List WorkflowEvent) (id : CardId)

/-- The board of the hub after the first transactions of a run. -/
def hubBoardAt (moment : Nat) : Board := (hubAt events moment).store.board

/-- A wait of the card begins with the transaction of this moment. -/
def BegunAt (moment : Nat) : Prop :=
  ∃ event, events[moment]? = some event ∧ event.BeginsWait (hubAt events moment) id

/-- The card waits as the transaction of this moment comes, or begins to with it. -/
def WaitedAt (moment : Nat) : Prop := (hubBoardAt events moment).Waits id ∨ BegunAt events id moment

/-- The transaction of this moment resumes the waiting card. -/
def ResumedAt (moment : Nat) : Prop :=
  WaitedAt events id moment ∧ (statusOf (hubBoardAt events (moment + 1)) id = some .ready ∨
    statusOf (hubBoardAt events (moment + 1)) id = some .running)

/-- The transaction of this moment blocks the waiting card. -/
def FailedAt (moment : Nat) : Prop :=
  WaitedAt events id moment ∧ statusOf (hubBoardAt events (moment + 1)) id = some .blocked

/-- One moment of a run is a move of each card that waits. -/
theorem waitMove_run (moment : Nat) :
    WaitMove (WaitedAt events id moment) (hubBoardAt events (moment + 1)) id := by
  unfold WaitedAt hubBoardAt
  rcases stateAt_next WorkflowHub.step WorkflowHub.empty events moment with
    ⟨event, present, next⟩ | ⟨absent, next⟩
  · have same : BegunAt events id moment ↔ event.BeginsWait (hubAt events moment) id := by
      constructor
      · rintro ⟨other, found, begins⟩
        obtain rfl := Option.some.inj (present.symm.trans found)
        exact begins
      · exact fun begins => ⟨event, present, begins⟩
    rw [show hubAt events (moment + 1) = (hubAt events moment).step event from next, same]
    exact (waitStep_hubStep (resting_run events moment) event).moves id
  · rw [show hubAt events (moment + 1) = hubAt events moment from next]
    refine .kept ⟨Or.inl, ?_⟩
    rintro (waits | ⟨event, found, _⟩)
    · exact waits
    · cases absent.symm.trans found

theorem working_of_begunAt {moment : Nat} (begun : BegunAt events id moment) :
    ¬ (hubBoardAt events moment).Waits id := by
  obtain ⟨event, _, begins⟩ := begun
  exact working_of_begins (resting_run events moment) begins

open Classical in
/-- Every wait is ended once at most: those that were begun are those that were ended, and the
one that is not yet over. -/
theorem ended_once_run (moment : Nat) :
    Nat.count (BegunAt events id) moment =
      Nat.count (ResumedAt events id) moment + Nat.count (FailedAt events id) moment +
        if (hubBoardAt events moment).Waits id then 1 else 0 := by
  induction moment with
  | zero =>
    have unwaiting : ¬ (hubBoardAt events 0).Waits id := nofun
    simp [unwaiting]
  | succ moment ih =>
    have before : (if BegunAt events id moment then 1 else 0) +
        (if (hubBoardAt events moment).Waits id then 1 else 0) =
          if WaitedAt events id moment then 1 else 0 := by
      by_cases begun : BegunAt events id moment
      · simp [WaitedAt, begun, working_of_begunAt events id begun]
      · simp [WaitedAt, begun]
    have after : (if WaitedAt events id moment then 1 else 0) =
        (if ResumedAt events id moment then 1 else 0) +
          (if FailedAt events id moment then 1 else 0) +
          if (hubBoardAt events (moment + 1)).Waits id then 1 else 0 := by
      unfold ResumedAt FailedAt Board.Waits
      cases waitMove_run events id moment with
      | kept waits =>
        by_cases waited : WaitedAt events id moment
        · simp [waited, waits.mpr waited]
        · simp [waited, mt waits.mp waited]
      | resumed waited _ freed =>
        rcases freed with ready | running
        · simp [waited, ready]
        · simp [waited, running]
      | failed waited _ blocked => simp [waited, blocked]
    rw [Nat.count_succ, Nat.count_succ, Nat.count_succ, ih]
    omega

end Runs

section Spawns

variable {board next : Board} {hub : Session} {parent made : CardId} {child again : ClaimedCard}
  {clock : Nat → Int}

/-- Two requests of a child that agree on all that the hub compares. -/
structure SameRequest (child again : ClaimedCard) : Prop where
  key : again.key = child.key
  inputs : again.inputs = child.inputs
  title : again.title = child.title
  modality : again.modality = child.modality
  acceptance : again.acceptance = child.acceptance
  required : again.requiredCapabilities = child.requiredCapabilities

/-- The child that was made for a request is linked to its parent, in the parent's project. -/
structure MadeFor (board : Board) (parent made : CardId) (child : ClaimedCard) : Prop where
  linked : ⟨parent, made⟩ ∈ board.childLinks.rows
  stored : ∃ holder card, board.card? parent = some holder ∧ board.card? made = some card ∧
    card.data.projectId = holder.data.projectId ∧ SameRequest child card.data
  valid : validateCard { child with deps := [] } = .ok ()

theorem card_of_key {card : Card} {project : ProjectId} {key : String} :
    board.cards.rows.find? (fun card => card.data.projectId = project && card.data.key = key) =
        some card ↔
      card ∈ board.cards.rows ∧ card.data.projectId = project ∧ card.data.key = key := by
  have found := board.cards.find?_eq_some_iff (fun _ _ => Card.Clash.symm)
    (fun card => (card.data.projectId, card.data.key)) (fun _ _ => Or.inr) (project, key) card
  simpa only [Prod.mk.injEq, Bool.decide_and] using found

theorem card?_insertCard {card : Card} (inserted : board.insertCard card = .ok next) :
    next.card? card.id = some card := by
  have slot := congrArg Slot.card ((Board.slot_insertCard inserted).2 card.id)
  rw [if_pos rfl] at slot
  exact slot

theorem card?_insertCard_of_some {card held : Card} {id : CardId}
    (inserted : board.insertCard card = .ok next) (found : board.card? id = some held) :
    next.card? id = some held := by
  obtain ⟨absent, slots⟩ := Board.slot_insertCard inserted
  have slot := congrArg Slot.card (slots id)
  rw [if_neg] at slot
  · exact slot.trans found
  · rintro rfl
    cases absent.symm.trans found

/-- An accepted request finds the child made for the same one, or makes it. -/
theorem madeFor_of_spawn
    (done : spawnChildCard board hub parent child clock = .ok (next, made)) :
    MadeFor next parent made child := by
  simp only [spawnChildCard, bind_eq_ok_iff, orFail_eq_ok_iff] at done
  obtain ⟨_, _, holder, found, _, valid, body⟩ := done
  split at body
  · rename_i old matched
    obtain ⟨_, agrees, body⟩ := bind_eq_ok_iff.mp body
    obtain ⟨rfl, rfl⟩ := Prod.mk.inj (pure_eq_ok_iff.mp body)
    obtain ⟨linked, inputs, title, modality, acceptance, required⟩ := require_eq_ok_iff.mp agrees
    obtain ⟨member, project, key⟩ := card_of_key.mp matched
    refine ⟨linked, ⟨holder, old, found, ?_, project, key, inputs, title, modality, acceptance,
      required⟩, valid⟩
    exact Board.card?_eq_some_iff.mpr ⟨member, rfl⟩
  · simp only [bind_eq_ok_iff, orFail_eq_ok_iff, pure_eq_ok_iff, Prod.mk.injEq] at body
    obtain ⟨inserted, added, childLinks, linked, rfl, rfl⟩ := body
    have own := card?_insertCard added
    have held := card?_insertCard_of_some added found
    refine ⟨?_, ⟨holder, _, held, own, rfl, rfl, rfl, rfl, rfl, rfl, rfl⟩, valid⟩
    rw [Table.rows_of_insert? linked]
    exact List.mem_append_right _ (List.mem_singleton.mpr rfl)

/-- The child of a worker's request stays the one made for it. -/
theorem MadeFor.kept (was : MadeFor board parent made child)
    (worker : ∀ submission ∈ child.requiredCapabilities.submission, submission.requestId ≠ made)
    (holder : CardKept board next parent) (kept : CardKept board next made) :
    MadeFor next parent made child := by
  obtain ⟨above, card, held, stored, project, same⟩ := was.stored
  obtain ⟨later, found, amends⟩ := kept.data card stored
  obtain ⟨still, present, amended⟩ := holder.data above held
  have named : card.data.id = made := (Board.card?_eq_some_iff.mp stored).2
  have unsubmitted : ¬ card.data.Submits := by
    rintro ⟨submission, submitted, own⟩
    rw [same.required] at submitted
    exact worker submission submitted (own.trans named)
  have frozen := amends.frozen
  refine ⟨kept.links parent was.linked, ⟨still, later, present, found, ?_, ?_⟩, was.valid⟩
  · rw [amends.projectId_eq, amended.projectId_eq, project]
  · exact ⟨(congrArg ClaimedCard.key frozen :).trans same.key,
      (congrArg ClaimedCard.inputs frozen :).trans same.inputs,
      (congrArg ClaimedCard.title frozen :).trans same.title,
      (congrArg ClaimedCard.modality frozen :).trans same.modality,
      (congrArg ClaimedCard.acceptance frozen :).trans same.acceptance,
      (amends.required_eq unsubmitted).trans same.required⟩

/-- Any later accepted request under the key is the same one, and finds the child. -/
theorem MadeFor.reply_eq (was : MadeFor board parent made child) (key : again.key = child.key)
    {reply : Board × CardId}
    (done : spawnChildCard board hub parent again clock = .ok reply) :
    reply = (board, made) ∧ SameRequest child again := by
  obtain ⟨holder, card, held, stored, project, same⟩ := was.stored
  simp only [spawnChildCard, bind_eq_ok_iff, orFail_eq_ok_iff] at done
  obtain ⟨_, _, _, found, _, _, body⟩ := done
  obtain rfl := Option.some.inj (held.symm.trans found)
  obtain ⟨member, named⟩ := Board.card?_eq_some_iff.mp stored
  have matched := card_of_key.mpr ⟨member, project, same.key.trans key.symm⟩
  rw [matched] at body
  obtain ⟨_, agrees, body⟩ := bind_eq_ok_iff.mp body
  obtain ⟨_, inputs, title, modality, acceptance, required⟩ := require_eq_ok_iff.mp agrees
  refine ⟨?_, key, inputs.symm.trans same.inputs, title.symm.trans same.title,
    modality.symm.trans same.modality, acceptance.symm.trans same.acceptance,
    required.symm.trans same.required⟩
  rw [← pure_eq_ok_iff.mp body]
  exact congrArg (Prod.mk board) named

/-- The same request again finds the child and changes nothing, for whoever has the parent. -/
theorem MadeFor.found_again (was : MadeFor board parent made child) (same : SameRequest child again)
    (holds : holdsLease board hub parent (clock 0) = true) :
    spawnChildCard board hub parent again clock = .ok (board, made) := by
  obtain ⟨holder, card, held, stored, project, like⟩ := was.stored
  obtain ⟨member, named⟩ := Board.card?_eq_some_iff.mp stored
  have matched := card_of_key.mpr ⟨member, project, like.key.trans same.key.symm⟩
  have valid : validateCard { again with deps := [] } = .ok () := by
    have passed := was.valid
    unfold validateCard at passed ⊢
    rwa [same.key, same.title, same.modality, same.required]
  simp only [spawnChildCard, bind_eq_ok_iff, orFail_eq_ok_iff]
  refine ⟨(), require_eq_ok_iff.mpr holds, holder, held, (), valid, ?_⟩
  rw [matched]
  have agrees : require (⟨parent, card.id⟩ ∈ board.childLinks.rows ∧
      card.data.inputs = again.inputs ∧ card.data.title = again.title ∧
        card.data.modality = again.modality ∧ card.data.acceptance = again.acceptance ∧
          card.data.requiredCapabilities = again.requiredCapabilities)
      (rejected "child key conflict") = .ok () := by
    refine require_eq_ok_iff.mpr ⟨named ▸ was.linked, like.inputs.trans same.inputs.symm,
      like.title.trans same.title.symm, like.modality.trans same.modality.symm,
      like.acceptance.trans same.acceptance.symm, like.required.trans same.required.symm⟩
  exact bind_eq_ok_iff.mpr ⟨(), agrees, congrArg (fun id => Except.ok (board, id)) named⟩

end Spawns

section ChildCards

variable {events : List WorkflowEvent}

/-- A worker's request of a child that the transaction of this moment granted. -/
structure SpawnedAt (events : List WorkflowEvent) (moment : Nat) (parent made : CardId)
    (child : ClaimedCard) : Prop where
  asked : ∃ event asked hub next, events[moment]? = some event ∧
    event.boardEvent? (hubAt events moment) = some asked ∧
    asked.op = .spawnChildCard hub parent child ∧
    spawnChildCard (hubBoardAt events moment) hub parent child asked.clock = .ok (next, made)

theorem SpawnedAt.madeFor {moment : Nat} {parent made : CardId} {child : ClaimedCard}
    (spawned : SpawnedAt events moment parent made child) :
    MadeFor (hubBoardAt events (moment + 1)) parent made child := by
  obtain ⟨event, asked, hub, next, present, found, op, done⟩ := spawned.asked
  have stepped : hubAt events (moment + 1) = (hubAt events moment).step event :=
    stateAt_succ WorkflowHub.step WorkflowHub.empty present
  have replied : asked.reply (hubBoardAt events moment) = .ok next := by
    rw [Event.reply, op]
    exact map_fst_eq_ok_iff.mpr ⟨made, done⟩
  rcases changes_step event (hubAt events moment) with ⟨other, same, _, board⟩ | ⟨absent, _⟩
  · obtain rfl := Option.some.inj (found.symm.trans same)
    have result : hubBoardAt events (moment + 1) = next := by
      have granted : asked.reply (hubAt events moment).store.board = .ok next := replied
      rw [hubBoardAt, stepped, board, Board.step, granted]
    rw [result]
    exact madeFor_of_spawn done
  · cases absent.symm.trans found

/-- How parents and children fare in a run: the hub's settling leaves no parent waiting for a
failed child or for finished children only, and once more it changes nothing; a wait begins while
none is open, and each that is over was ended once, by being resumed with all its children finished
or blocked with a failed one; and a request of a child that was granted finds that child again. -/
structure ChildCards (events : List WorkflowEvent) : Prop where
  settled : ∀ moment expiring deleting,
    (settle (hubBoardAt events moment) expiring deleting).Settled
  fixpoint : ∀ moment expiring deleting, expiring ≤ deleting →
    settle (settle (hubBoardAt events moment) expiring deleting) expiring deleting =
      settle (hubBoardAt events moment) expiring deleting
  begun : ∀ id moment, BegunAt events id moment → ¬ (hubBoardAt events moment).Waits id
  resumed : ∀ id moment, ResumedAt events id moment →
    FinishedChildren (hubBoardAt events (moment + 1)) id
  failed : ∀ id moment, FailedAt events id moment →
    FailedChild (hubBoardAt events (moment + 1)) id
  ended_once : open Classical in ∀ id moment, Nat.count (BegunAt events id) moment =
    Nat.count (ResumedAt events id) moment + Nat.count (FailedAt events id) moment +
      if (hubBoardAt events moment).Waits id then 1 else 0
  found_again : ∀ first second parent made child, first < second →
    SpawnedAt events first parent made child →
    (∀ submission ∈ child.requiredCapabilities.submission, submission.requestId ≠ made) →
    ∀ hub again clock, again.key = child.key →
      (∀ reply, spawnChildCard (hubBoardAt events second) hub parent again clock = .ok reply →
        reply = (hubBoardAt events second, made) ∧ SameRequest child again) ∧
      (SameRequest child again →
        holdsLease (hubBoardAt events second) hub parent (clock 0) = true →
        spawnChildCard (hubBoardAt events second) hub parent again clock =
          .ok (hubBoardAt events second, made))

theorem child_cards (events : List WorkflowEvent) (draws : DrawsNew events) :
    ChildCards events := by
  have freed : ∀ id moment, ResumedAt events id moment →
      FinishedChildren (hubBoardAt events (moment + 1)) id := by
    rintro id moment ⟨waited, status⟩
    cases waitMove_run events id moment with
    | kept waits =>
      have still := waits.mpr waited
      rcases status with ready | running
      · cases ready.symm.trans still
      · cases running.symm.trans still
    | resumed _ children => exact children
    | failed _ _ blocked =>
      rcases status with ready | running
      · cases ready.symm.trans blocked
      · cases running.symm.trans blocked
  have blocked : ∀ id moment, FailedAt events id moment →
      FailedChild (hubBoardAt events (moment + 1)) id := by
    rintro id moment ⟨waited, status⟩
    cases waitMove_run events id moment with
    | kept waits => cases status.symm.trans (waits.mpr waited)
    | resumed _ _ free =>
      rcases free with ready | running
      · cases status.symm.trans ready
      · cases status.symm.trans running
    | failed _ child => exact child
  refine ⟨fun _ _ _ => settled_settle _ _ _, fun _ _ _ ordered => settle_settle ordered _,
    fun id _ => working_of_begunAt events id, freed, blocked, ended_once_run events, ?_⟩
  intro first second parent made child later spawned worker hub again clock key
  have was := spawned.madeFor
  obtain ⟨holder, card, held, stored, _⟩ := was.stored
  have remains := was.kept worker (cardKept_run draws (Nat.succ_le_of_lt later) held)
    (cardKept_run draws (Nat.succ_le_of_lt later) stored)
  exact ⟨fun reply done => remains.reply_eq key done,
    fun same holds => remains.found_again same holds⟩

/-- A worker's part of an essay. -/
def chapter (id : CardId) (key : String) : ClaimedCard := { essay with id, key }

/-- An operation of a session at a time. -/
noncomputable def Op.asked (op : Op) (apart : op.attests = false) (now : Int) : WorkflowEvent :=
  (WorkflowOp.store (.board op apart)).at taskWire now

/-- The essay's worker has two chapters to be written and waits for the first, which another
session writes. -/
noncomputable def writtenChapter : List WorkflowEvent :=
  [(Op.createProject ⟨1, "P", ""⟩).asked (.refl false) 0,
    (Op.enroll "laptop").asked (.refl false) 0,
    (Op.checkIn workerSession laptop).asked (.refl false) 0,
    (Op.addCard essay).asked (.refl false) 0, (Op.claimCard workerSession).asked (.refl false) 0,
    (Op.spawnChildCard workerSession essay.id (chapter 11 "first")).asked (.refl false) 1,
    (Op.spawnChildCard workerSession essay.id (chapter 12 "second")).asked (.refl false) 1,
    (Op.waitOnChild workerSession essay.id 11).asked (.refl false) 2,
    (Op.claimCard workerSession).asked (.refl false) 3,
    (Op.completeCard workerSession 11 "Once" none noUsage).asked (.refl false) 4]

theorem draws_writtenChapter : DrawsNew writtenChapter := by
  have quiet : writtenChapter.all (fun event => !event.op.advances) = true := rfl
  intro moment event present id mints
  have still := List.all_eq_true.mp quiet event (List.mem_of_getElem? present)
  rw [mints.1] at still
  cases still

theorem child_cards_writtenChapter :
    ChildCards writtenChapter ∧ BegunAt writtenChapter essay.id 7 ∧
      SpawnedAt writtenChapter 5 essay.id 11 (chapter 11 "first") := by
  refine ⟨child_cards writtenChapter draws_writtenChapter, ?_, ?_⟩
  · exact ⟨_, rfl, _, rfl, workerSession, 11, _, rfl, rfl⟩
  · exact ⟨_, _, workerSession, _, rfl, rfl, rfl, rfl⟩

/-- The settling leaves the parent waiting for the child that has finished, since its other child
has not. -/
theorem finished_child_awaited :
    ¬ ∀ (events : List WorkflowEvent) (moment : Nat) (expiring deleting : Int) (card child : Card),
      card ∈ (settle (hubBoardAt events moment) expiring deleting).cards.rows →
      card.status = .waitingOnChild →
      (settle (hubBoardAt events moment) expiring deleting).Spawned card.id child →
      child.data.key ∈ card.data.deps →
      child.status ≠ .blocked ∧ child.status.isFinished = false := by
  intro never
  let waiting : Card := ⟨{ essay with deps := ["first"] }, .waitingOnChild, none⟩
  let written : Card := ⟨chapter 11 "first", .review, none⟩
  have rows : (settle (hubBoardAt writtenChapter 10) 4 4).cards.rows =
      [waiting, written, ⟨chapter 12 "second", .ready, none⟩] := rfl
  have links : (settle (hubBoardAt writtenChapter 10) 4 4).childLinks.rows =
      [⟨essay.id, 11⟩, ⟨essay.id, 12⟩] := rfl
  have spawned : (settle (hubBoardAt writtenChapter 10) 4 4).Spawned waiting.id written := by
    unfold Board.Spawned
    rw [rows, links]
    exact ⟨List.mem_cons_self, List.mem_cons_of_mem _ List.mem_cons_self⟩
  have finished := never writtenChapter 10 4 4 waiting written (rows ▸ List.mem_cons_self) rfl
    spawned (List.mem_singleton.mpr rfl)
  cases finished.2

end ChildCards

end OHHive.LocalHub
