import OHHive.LocalHub.BoardChanges

/-! What the hub keeps of a card: later transactions add the dependencies it waits for and, for a
submitted task, the workspace that was prepared for it; all else of its data stays as it was. -/

namespace OHHive.LocalHub

open Foundation

section Amendments

/-- The task's workspace was prepared, and nothing is left to download. -/
def ClaimedCard.prepared (card : ClaimedCard) (workspace : String) : ClaimedCard :=
  { card with
    requiresInternet := false
    requiredCapabilities :=
      { card.requiredCapabilities with preparedWorkspaceRoot := some workspace } }

inductive Amendment (card : ClaimedCard) : ClaimedCard → Prop
  | waited (deps : List String) : Amendment card { card with deps }
  | prepared (submits : card.Submits) (workspace : String) :
      Amendment card (card.prepared workspace)

/-- What later transactions make of a card's data. -/
abbrev Amends : ClaimedCard → ClaimedCard → Prop := Relation.ReflTransGen Amendment

/-- A card's data without what is amended. -/
def ClaimedCard.frozen (card : ClaimedCard) : ClaimedCard :=
  { card with
    deps := []
    requiresInternet := false
    requiredCapabilities := { card.requiredCapabilities with preparedWorkspaceRoot := none } }

variable {before after : ClaimedCard}

theorem Amends.frozen (amends : Amends before after) : after.frozen = before.frozen := by
  induction amends with
  | refl => rfl
  | tail _ amendment ih =>
    rw [← ih]
    cases amendment <;> rfl

theorem Amends.id_eq (amends : Amends before after) : after.id = before.id := by
  have same := congrArg ClaimedCard.id amends.frozen
  exact same

theorem Amends.projectId_eq (amends : Amends before after) :
    after.projectId = before.projectId := by
  have same := congrArg ClaimedCard.projectId amends.frozen
  exact same

theorem Amends.submission_eq (amends : Amends before after) :
    after.requiredCapabilities.submission = before.requiredCapabilities.submission := by
  have same := congrArg (fun card => card.requiredCapabilities.submission) amends.frozen
  exact same

theorem Amends.submits_iff (amends : Amends before after) : after.Submits ↔ before.Submits := by
  unfold ClaimedCard.Submits
  rw [amends.submission_eq, amends.id_eq]

/-- Of a card that was not submitted as a task only the dependencies are amended. -/
theorem Amends.required_eq (amends : Amends before after) (worker : ¬ before.Submits) :
    after.requiredCapabilities = before.requiredCapabilities := by
  induction amends with
  | refl => rfl
  | tail earlier amendment ih =>
    cases amendment with
    | waited deps => exact ih
    | prepared submits workspace => exact absurd ((Amends.submits_iff earlier).mp submits) worker

end Amendments

section Writes

variable {around : Surroundings} {board mid next : Board} {hub : Session} {id : CardId}
  {clock : Nat → Int}

/-- A stored card stays stored, and so does its link to its parent. -/
structure CardKept (board next : Board) (id : CardId) : Prop where
  data : ∀ card, board.card? id = some card →
    ∃ later, next.card? id = some later ∧ Amends card.data later.data
  links : ∀ parent, ⟨parent, id⟩ ∈ board.childLinks.rows → ⟨parent, id⟩ ∈ next.childLinks.rows

theorem CardKept.refl (board : Board) (id : CardId) : CardKept board board id :=
  ⟨fun card found => ⟨card, found, .refl⟩, fun _ linked => linked⟩

theorem CardKept.trans (before : CardKept board mid id) (after : CardKept mid next id) :
    CardKept board next id := by
  refine ⟨fun card found => ?_, fun holder linked => after.links holder (before.links holder linked)⟩
  obtain ⟨held, stored, amends⟩ := before.data card found
  obtain ⟨later, kept, amended⟩ := after.data held stored
  exact ⟨later, kept, amends.trans amended⟩

theorem cardKept_of_same (cards : next.cards = board.cards)
    (links : next.childLinks = board.childLinks) : CardKept board next id := by
  refine ⟨fun card found => ⟨card, ?_, .refl⟩, fun parent linked => links ▸ linked⟩
  rwa [Board.card?, cards]

theorem cardKept_updateCards {selects : Card → Bool} {change : Card → Card} {fixed}
    (amends : ∀ card ∈ board.cards.rows, selects card = true →
      Amends card.data (change card).data) :
    CardKept board (board.updateCards selects change fixed) id := by
  refine ⟨fun card found => ?_, fun _ linked => linked⟩
  have slot := congrArg Slot.card (board.slot_updateCards selects change fixed id)
  change (board.updateCards selects change fixed).card? id = _ at slot
  rw [found, Option.map_some] at slot
  refine ⟨_, slot, ?_⟩
  by_cases selected : selects card = true
  · rw [if_pos selected]
    exact amends card (Board.card?_eq_some_iff.mp found).1 selected
  · rw [if_neg selected]

/-- A change of status writes no data. -/
theorem cardKept_setStatus (selects : Card → Bool) (status : CardStatus)
    (reason : Option String) : CardKept board (board.setStatus selects status reason) id :=
  cardKept_updateCards fun _ _ _ => .refl

theorem cardKept_deleteLeases (selects : Lease → Bool) :
    CardKept board (board.deleteLeases selects) id :=
  cardKept_of_same rfl rfl

theorem cardKept_insertCard {card : Card} (inserted : board.insertCard card = .ok next) :
    CardKept board next id := by
  obtain ⟨absent, slots⟩ := Board.slot_insertCard inserted
  simp only [Board.insertCard, bind_eq_ok_iff, pure_eq_ok_iff] at inserted
  obtain ⟨_, _, cards, _, rfl⟩ := inserted
  refine ⟨fun stored found => ⟨stored, ?_, .refl⟩, fun _ linked => linked⟩
  have slot := congrArg Slot.card (slots id)
  by_cases same : card.id = id
  · rw [same, found] at absent
    cases absent
  · rw [if_neg same] at slot
    exact slot.trans found

theorem cardKept_blockParents (rounds : Nat) (board : Board) :
    CardKept board (blockParents rounds board) id := by
  induction rounds generalizing board with
  | zero => exact .refl board id
  | succ rounds ih =>
    unfold blockParents
    split
    · exact (cardKept_setStatus _ _ _).trans (ih _)
    · exact .refl board id

theorem cardKept_settle (board : Board) (expiring deleting : Int) :
    CardKept board (settle board expiring deleting) id := by
  have expired : CardKept board (expireLeases board expiring deleting) id := by
    refine CardKept.trans ?_ (cardKept_deleteLeases _)
    exact cardKept_updateCards fun _ _ _ => .refl
  unfold settle
  dsimp only
  generalize expireLeases board expiring deleting = swept at expired
  have blocked : CardKept swept (blockParents (swept.cards.rows.length + 1) swept) id :=
    cardKept_blockParents _ _
  refine (expired.trans blocked).trans ?_
  exact cardKept_updateCards fun _ _ _ => .refl

theorem cardKept_endCard {ended : CardId} {reason : String} {status : CardStatus}
    (done : endCard board hub ended reason status clock = .ok next) : CardKept board next id := by
  simp only [endCard, bind_eq_ok_iff, pure_eq_ok_iff] at done
  obtain ⟨_, _, rfl⟩ := done
  refine CardKept.trans ?_ (cardKept_settle _ _ _)
  exact (cardKept_setStatus _ _ _).trans (cardKept_deleteLeases _)

theorem cardKept_complete {completed : CardId} {content : String} {model : Option String}
    {usage : Usage}
    (done : completeCard board hub completed content model usage clock = .ok next) :
    CardKept board next id := by
  rcases completeCard_ok done with ⟨_, rfl⟩ | ⟨lease, stored, _, _, _, inserted, rfl⟩
  · exact .refl _ id
  · simp only [Board.insertOutput, bind_eq_ok_iff, pure_eq_ok_iff] at inserted
    obtain ⟨outputs, _, rfl⟩ := inserted
    have written : CardKept board { board with outputs } id := cardKept_of_same rfl rfl
    refine (written.trans (CardKept.trans ?_ (cardKept_deleteLeases _))).trans
      (cardKept_settle _ _ _)
    exact cardKept_updateCards fun _ _ _ => .refl

theorem cardKept_claim {reply : Claim}
    (done : claimCard around board hub clock = .ok (next, reply)) : CardKept board next id := by
  rcases leases_of_claimCard done with ⟨rfl, _⟩ | ⟨card, claimed, _, leases⟩
  · exact cardKept_settle _ _ _
  · obtain ⟨held, result⟩ := leases.result
    have started : ∀ running : Board, CardKept running (startRun running hub) id := by
      intro running
      unfold startRun
      split
      · exact .refl _ id
      · exact cardKept_of_same rfl rfl
    have settled : CardKept board (settle board (clock 0) (clock 1)) id := cardKept_settle _ _ _
    rw [result]
    generalize settle board (clock 0) (clock 1) = mid at settled
    have leased : CardKept mid { mid with leases := held } id := cardKept_of_same rfl rfl
    exact ((settled.trans leased).trans (cardKept_setStatus _ _ _)).trans (started _)

theorem cardKept_checkpoint {held : CardId} {step : Nat} {state : String} {usage : Usage}
    (done : checkpoint board hub held step state usage clock = .ok next) :
    CardKept board next id := by
  obtain ⟨_, rfl⟩ := checkpoint_ok done
  have extended : ∀ saved : Board, CardKept saved
      (saved.extendLeases (fun lease => lease.cardId = held) (clock 1)) id :=
    fun saved => cardKept_of_same rfl rfl
  refine CardKept.trans ?_ (extended _)
  unfold saveCheckpoint
  split <;> exact cardKept_of_same rfl rfl

theorem cardKept_spawn {parent child : CardId} {card : ClaimedCard}
    (done : spawnChildCard board hub parent card clock = .ok (next, child)) :
    CardKept board next id := by
  obtain ⟨_, rfl | ⟨_, _, _, _, added, linked, rfl⟩⟩ := spawnChildCard_ok done
  · exact .refl _ id
  · refine (cardKept_insertCard added).trans ⟨fun card found => ⟨card, found, .refl⟩, ?_⟩
    intro holder stored
    rw [Table.rows_of_insert? linked]
    exact List.mem_append_left _ stored

/-- Waiting adds the awaited child's key to the dependencies. -/
theorem cardKept_wait {waiting child : CardId}
    (done : waitOnChild board hub waiting child clock = .ok next) : CardKept board next id := by
  simp only [waitOnChild, bind_eq_ok_iff, pure_eq_ok_iff] at done
  obtain ⟨_, _, _, _, _, _, awaited, _, rfl⟩ := done
  refine CardKept.trans ?_ (cardKept_settle _ _ _)
  refine CardKept.trans (cardKept_updateCards ?_) (cardKept_deleteLeases _)
  intro card _ _
  exact .single (.waited _)

theorem cardKept_request {operation : OperationId} {task : CardId}
    (done : privateRunRequest around board hub operation task clock = .ok next) :
    CardKept board next id := by
  rcases privateRunRequest_ok done with ⟨_, rfl⟩ | ⟨run, privateRuns, requested⟩
  · exact .refl _ id
  · obtain rfl := requested.next_eq
    have written : CardKept board { board with privateRuns } id := cardKept_of_same rfl rfl
    exact written.trans (cardKept_setStatus _ _ _)

theorem cardKept_stop {operation : OperationId}
    (done : privateRunStop around board hub operation clock = .ok next) :
    CardKept board next id := by
  rcases privateRunStop_ok done with rfl | ⟨run, privateRunStops, stopped⟩
  · exact .refl _ id
  · obtain rfl := stopped.next_eq
    have written : CardKept board { board with privateRunStops } id := cardKept_of_same rfl rfl
    exact written.trans (cardKept_setStatus _ _ _)

theorem cardKept_retry {previous later : OperationId}
    (done : privateRunRetry around board hub previous later clock = .ok next) :
    CardKept board next id := by
  rcases privateRunRetry_ok done with
    ⟨_, _, _, _, rfl⟩ | ⟨prior, run, retry, privateRuns, privateRunRetries, retried⟩
  · exact .refl _ id
  · obtain ⟨now, rfl⟩ := retried.result
    have written : CardKept board { board with privateRuns, privateRunRetries } id :=
      cardKept_of_same rfl rfl
    exact (written.trans (cardKept_deleteLeases _)).trans (cardKept_setStatus _ _ _)

theorem cardKept_ready {operation : OperationId}
    (done : privateRunReady around board hub operation clock = .ok next) :
    CardKept board next id := by
  obtain ⟨run, readied⟩ := privateRunReady_ok done
  obtain rfl := readied.next_eq
  exact cardKept_setStatus _ _ _

theorem cardKept_stagePrivate {card : ClaimedCard}
    (done : stagePrivateCodeTask board card = .ok next) : CardKept board next id := by
  unfold stagePrivateCodeTask at done
  split at done
  · simp only [bind_eq_ok_iff, pure_eq_ok_iff] at done
    obtain ⟨_, _, rfl⟩ := done
    exact .refl _ id
  · simp only [bind_eq_ok_iff] at done
    obtain ⟨_, _, inserted⟩ := done
    exact cardKept_insertCard inserted

/-- Only a task that was submitted as itself is published. -/
theorem cardKept_publish {published : CardId} {node : NodeId} {read : ClaimedCard}
    {workspace : String}
    (done : publishPrivateCodeTask around board published node read workspace clock = .ok next) :
    CardKept board next id := by
  simp only [publishPrivateCodeTask, privateTaskCard, bind_eq_ok_iff, orFail_eq_ok_iff,
    require_eq_ok_iff, exists_const, Bool.false_eq_true, if_false, pure_eq_ok_iff] at done
  obtain ⟨_, ⟨card, found, _, submission, submitted, own, _⟩, _, rfl⟩ := done
  have named := (Board.card?_eq_some_iff.mp found).2
  apply cardKept_updateCards
  intro stored member selected
  obtain rfl := card_of_selected found member selected
  exact .single (.prepared ⟨submission, submitted, own.1.trans named.symm⟩ workspace)

theorem cardKept_retryTask {retried : CardId} {node : NodeId} {read : ClaimedCard}
    (done : retryPrivateCodeTask around board retried node read clock = .ok next) :
    CardKept board next id := by
  simp only [retryPrivateCodeTask, bind_eq_ok_iff, pure_eq_ok_iff] at done
  obtain ⟨_, _, _, _, rfl⟩ := done
  exact (cardKept_deleteLeases _).trans (cardKept_setStatus _ _ _)

theorem cardKept_attest {attested : CardId} {workspace : String} {card : Card}
    (found : board.card? attested = some card) (submits : card.data.Submits)
    (done : completePreparation board attested workspace = .ok next) : CardKept board next id := by
  simp only [completePreparation, bind_eq_ok_iff, pure_eq_ok_iff] at done
  obtain ⟨_, _, _, _, rfl⟩ := done
  apply cardKept_updateCards
  intro stored member selected
  obtain rfl := card_of_selected found member selected
  exact .single (.prepared submits workspace)

end Writes

section Steps

variable {board next : Board} {id : CardId} {minted : CardId → Prop} {hub : WorkflowHub}

/-- A transaction of a session keeps every card, but that of an attestation is not its own. -/
theorem cardKept_step (event : Event) (apart : event.op.attests = false) (board : Board) :
    CardKept board (board.step event) id := by
  unfold Board.step
  split
  · rename_i next done
    unfold Event.reply at done
    cases asked : event.op with
    | createProject project =>
      simp only [asked, Op.perform, createProject, bind_eq_ok_iff, pure_eq_ok_iff] at done
      obtain ⟨_, _, rfl⟩ := done
      exact cardKept_of_same rfl rfl
    | enroll node =>
      simp only [asked, Op.perform, enroll, bind_eq_ok_iff, pure_eq_ok_iff] at done
      obtain ⟨_, _, rfl⟩ := done
      exact cardKept_of_same rfl rfl
    | checkIn hub caps =>
      rw [asked] at done
      obtain rfl := Except.ok.inj done
      exact cardKept_of_same rfl rfl
    | checkOut hub =>
      rw [asked] at done
      obtain rfl := Except.ok.inj done
      exact cardKept_of_same rfl rfl
    | addCard card =>
      simp only [asked, Op.perform, addCard, bind_eq_ok_iff] at done
      obtain ⟨_, _, inserted⟩ := done
      exact cardKept_insertCard inserted
    | settle =>
      rw [asked] at done
      obtain rfl := Except.ok.inj done
      exact cardKept_settle _ _ _
    | claimCard hub =>
      rw [asked] at done
      obtain ⟨reply, claimed⟩ := ok_of_map done
      exact cardKept_claim claimed
    | heartbeat hub =>
      rw [asked] at done
      obtain rfl := Except.ok.inj done
      exact (cardKept_settle _ _ _).trans (cardKept_of_same rfl rfl)
    | checkpoint hub card step state usage =>
      rw [asked] at done
      exact cardKept_checkpoint done
    | completeCard hub card content model usage =>
      rw [asked] at done
      exact cardKept_complete done
    | failCard hub card reason =>
      rw [asked] at done
      exact cardKept_endCard done
    | releaseCard hub card reason =>
      simp only [asked, Op.perform, releaseCard, bind_eq_ok_iff] at done
      obtain ⟨_, _, ended⟩ := done
      exact cardKept_endCard ended
    | spawnChildCard hub parent child =>
      rw [asked] at done
      obtain ⟨reply, spawned⟩ := ok_of_map done
      exact cardKept_spawn spawned
    | waitOnChild hub card child =>
      rw [asked] at done
      exact cardKept_wait done
    | privateRunRequest hub operation task =>
      rw [asked] at done
      exact cardKept_request done
    | privateRunStop hub operation =>
      rw [asked] at done
      exact cardKept_stop done
    | privateRunRetry hub previous later =>
      rw [asked] at done
      exact cardKept_retry done
    | privateRunReady hub operation =>
      rw [asked] at done
      exact cardKept_ready done
    | stagePrivateCodeTask card =>
      rw [asked] at done
      exact cardKept_stagePrivate done
    | publishPrivateCodeTask card node read workspace =>
      rw [asked] at done
      exact cardKept_publish done
    | retryPrivateCodeTask card node read =>
      rw [asked] at done
      exact cardKept_retryTask done
    | completePreparation card workspace =>
      rw [asked] at apart
      cases apart
  · exact .refl board id

/-- What is written of another card is not written of this one. -/
theorem cardKept_rewriteTask {other : CardId} (apart : ∀ card, board.card? id = some card →
      other ≠ id) (deps : List String) (required : RequiredCapabilities) :
    CardKept board (rewriteTask board other deps required) id := by
  refine ⟨fun card found => ⟨card, ?_, .refl⟩, fun _ linked => linked⟩
  have slot := congrArg Slot.card (Board.slot_updateCard board other (Card.rewritten deps required)
    (Card.identity_rewritten deps required) id)
  rw [if_neg (apart card found).symm] at slot
  exact slot.trans found

theorem cardKept_stopRuns (now : Int) (runs : List PrivateRun) (board : Board) :
    CardKept board (runs.foldl (stopRun now) board) id := by
  induction runs generalizing board with
  | nil => exact .refl board id
  | cons run rest ih =>
    refine CardKept.trans ?_ (ih (stopRun now board run))
    unfold stopRun
    split
    · exact cardKept_of_same rfl rfl
    · exact .refl board id

/-- A change keeps every card but a submitted task whose identity is drawn again. -/
theorem cardKept_change (change : BoardChange minted board next)
    (undrawn : ∀ card, board.card? id = some card → card.data.Submits → ¬ minted id) :
    CardKept board next id := by
  cases change with
  | requested done =>
    exact cardKept_request (privateRunRequest_of_requestRun ⟨"", 0, none, none⟩ done)
  | attested card found submits done => exact cardKept_attest found submits done
  | staged inserted => exact cardKept_insertCard inserted
  | @bound card staged inserted deps required =>
    have fresh := (Board.slot_insertCard inserted).1
    have kept : CardKept board staged id := cardKept_insertCard inserted
    refine ⟨fun held found => ?_, kept.links⟩
    have apart : card.id ≠ id := by
      rintro rfl
      rw [show board.card? card.id = none from fresh] at found
      cases found
    obtain ⟨later, stored, amends⟩ := kept.data held found
    obtain ⟨last, stays, amended⟩ :=
      (cardKept_rewriteTask (fun _ _ => apart) deps required).data later stored
    exact ⟨last, stays, amends.trans amended⟩
  | @rewritten other mints card found submits deps required =>
    apply cardKept_rewriteTask
    rintro held stored rfl
    obtain rfl := Option.some.inj (found.symm.trans stored)
    exact undrawn card stored submits mints
  | stopped task now =>
    exact (cardKept_stopRuns now _ board).trans (cardKept_setStatus _ _ _)

theorem cardKept_changes {card : Card} (found : board.card? id = some card)
    (undrawn : card.data.Submits → ¬ minted id) (changes : BoardChanges minted board next) :
    CardKept board next id := by
  induction changes with
  | refl => exact .refl board id
  | @tail mid next _ change kept =>
    obtain ⟨held, stored, amends⟩ := kept.data card found
    refine kept.trans (cardKept_change change fun other present submits => ?_)
    obtain rfl := Option.some.inj (stored.symm.trans present)
    exact undrawn (amends.submits_iff.mp submits)

/-- No transaction of the hub loses a card, or changes more of it than it may. -/
theorem cardKept_hubStep {event : WorkflowEvent} {card : Card}
    (found : hub.store.board.card? id = some card)
    (undrawn : card.data.Submits → ¬ event.Mints id) :
    CardKept hub.store.board (hub.step event).store.board id := by
  rcases changes_step event hub with ⟨asked, _, apart, stepped⟩ | ⟨_, changes⟩
  · rw [stepped]
    exact cardKept_step asked apart _
  · exact cardKept_changes found undrawn changes

/-- What every moment keeps of a stored card, a run keeps. -/
theorem cardKept_between (boards : Nat → Board) {first second : Nat} {card : Card}
    (moments : ∀ moment held, (boards moment).card? id = some held →
      CardKept (boards moment) (boards (moment + 1)) id)
    (ordered : first ≤ second) (found : (boards first).card? id = some card) :
    CardKept (boards first) (boards second) id := by
  induction second, ordered using Nat.le_induction with
  | base => exact .refl _ id
  | succ second _ kept =>
    obtain ⟨held, stored, _⟩ := kept.data card found
    exact kept.trans (moments second held stored)

/-- The identities that are drawn for new tasks are those of no stored card. -/
def DrawsNew (events : List WorkflowEvent) : Prop :=
  ∀ moment event, events[moment]? = some event → ∀ id, event.Mints id →
    (hubAt events moment).store.board.card? id = none

/-- Over a run a stored card stays stored, amended at most. -/
theorem cardKept_run {events : List WorkflowEvent} {first second : Nat} {card : Card}
    (draws : DrawsNew events) (ordered : first ≤ second)
    (found : (hubAt events first).store.board.card? id = some card) :
    CardKept (hubAt events first).store.board (hubAt events second).store.board id := by
  refine cardKept_between (fun moment => (hubAt events moment).store.board)
    (fun moment held stored => ?_) ordered found
  rcases stateAt_next WorkflowHub.step WorkflowHub.empty events moment with
    ⟨event, present, next⟩ | ⟨_, next⟩
  · rw [show hubAt events (moment + 1) = (hubAt events moment).step event from next]
    refine cardKept_hubStep stored fun _ mints => ?_
    cases (draws moment event present id mints).symm.trans stored
  · rw [show hubAt events (moment + 1) = hubAt events moment from next]
    exact .refl _ id

end Steps

end OHHive.LocalHub
