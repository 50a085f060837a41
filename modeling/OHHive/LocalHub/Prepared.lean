import OHHive.LocalHub.Preparations

/-! What a preparation says about its task: until it is done the task is blocked as requested, and
afterwards the task is ready only for a run that may start. -/

namespace OHHive.LocalHub

open Foundation

section Quiet

variable {board next : Board} {id : CardId}

/-- A stored card that has no lease. -/
structure Unleased (board : Board) (id : CardId) (card : Card) : Prop where
  stored : board.card? id = some card
  free : board.lease? id = none

/-- No statement reaches an unleased card that does not wait for a child. -/
theorem Statement.unleased {card : Card} (statement : Statement board next)
    (still : card.status ≠ .waitingOnChild) (unleased : Unleased board id card) :
    Unleased next id card := by
  obtain ⟨stored, free⟩ := unleased
  obtain ⟨member, rfl⟩ := Board.card?_eq_some_iff.mp stored
  cases statement with
  | cards selects change fixed spares parks =>
    have passed : ¬ selects card = true := by
      intro selected
      rcases spares card member selected with waits | leased
      · exact still waits
      · rw [free] at leased
        cases leased
    have slots := board.slot_updateCards selects change fixed card.id
    have kept := congrArg Slot.card slots
    simp only [Board.slot, stored, Option.map_some, if_neg passed] at kept
    exact ⟨kept, (congrArg Slot.lease slots).trans free⟩
  | ended held change fixed =>
    rename_i given lease
    have other : card.id ≠ given := by
      intro same
      rw [same, held] at free
      cases free
    have slots := slot_giveUp board given change fixed card.id
    rw [if_neg other] at slots
    exact ⟨(congrArg Slot.card slots).trans stored, (congrArg Slot.lease slots).trans free⟩
  | created inserted =>
    rename_i added
    obtain ⟨absent, slots⟩ := Board.slot_insertCard inserted
    have other : added.id ≠ card.id := by
      intro same
      rw [same, stored] at absent
      cases absent
    have kept := slots card.id
    rw [if_neg other] at kept
    exact ⟨(congrArg Slot.card kept).trans stored, (congrArg Slot.lease kept).trans free⟩
  | planned added => exact ⟨stored, free⟩
  | leases leases kept =>
    refine ⟨stored, ?_⟩
    apply Board.lease?_eq_none_iff.mpr
    intro lease inTable same
    have held := kept lease inTable
    rw [same, free] at held
    cases held
  | records nodes outputs checkpoints childLinks => exact ⟨stored, free⟩

theorem Statements.unleased {card : Card} (statements : Statements board next)
    (still : card.status ≠ .waitingOnChild) (unleased : Unleased board id card) :
    Unleased next id card := by
  induction statements with
  | refl => exact unleased
  | tail _ statement ih => exact statement.unleased still ih

end Quiet

section Parked

variable {event : Event} {board next : Board}

/-- A lease is held on a stored card, and none on a card that awaits its preparation. -/
structure Slot.Parked (slot : Slot) : Prop where
  owned : slot.lease.isSome → slot.card.isSome
  free : ∀ card ∈ slot.card, card.status = .blocked → card.reason = some waiting →
    slot.lease = none

theorem parked_update {card : Option Card} {lease : Option Lease} {output}
    (parked : Slot.Parked ⟨card, lease, output⟩) (change : Card → Card)
    (parks : ∀ card, (change card).status = .blocked → (change card).reason = some waiting →
      change card = card) : Slot.Parked ⟨card.map change, lease, output⟩ := by
  refine ⟨fun held => by simpa using parked.owned held, ?_⟩
  intro later found blocked reason
  obtain ⟨stored, inSlot, rfl⟩ := Option.map_eq_some_iff.mp found
  have same := parks stored blocked reason
  rw [same] at blocked reason
  exact parked.free stored inSlot blocked reason

/-- Changing cards without parking any. -/
theorem parked_updateCards (parked : ∀ id, (board.slot id).Parked) (selects : Card → Bool)
    (change : Card → Card) (fixed)
    (parks : ∀ card, (change card).status = .blocked → (change card).reason ≠ some waiting)
    (id : CardId) : ((board.updateCards selects change fixed).slot id).Parked := by
  rw [Board.slot_updateCards]
  apply parked_update (parked id)
  intro card blocked reason
  by_cases selected : selects card = true
  · rw [if_pos selected] at blocked reason
    exact absurd reason (parks card blocked)
  · rw [if_neg selected]

theorem parked_deleteLeases (parked : ∀ id, (board.slot id).Parked) (selects : Lease → Bool)
    (id : CardId) : ((board.deleteLeases selects).slot id).Parked := by
  rw [Board.slot_deleteLeases]
  constructor
  · intro held
    obtain ⟨lease, kept⟩ := Option.isSome_iff_exists.mp held
    have found := (Option.filter_eq_some_iff.mp kept).1
    exact (parked id).owned (by rw [Board.slot, found]; rfl)
  · intro card found blocked reason
    have free := (parked id).free card found blocked reason
    simp only [Board.slot] at free
    simp [free]

theorem Statement.parked (statement : Statement board next)
    (parked : ∀ id, (board.slot id).Parked) : ∀ id, (next.slot id).Parked := by
  intro id
  cases statement with
  | cards selects change fixed spares parks => exact parked_updateCards parked _ _ fixed parks id
  | ended held change fixed =>
    rw [slot_giveUp]
    split
    · exact ⟨fun leased => (Bool.false_ne_true leased).elim, fun _ _ _ _ => rfl⟩
    · exact parked id
  | created inserted =>
    rename_i card
    obtain ⟨absent, slots⟩ := Board.slot_insertCard inserted
    rw [slots]
    split
    · rename_i same
      have free : board.lease? id = none := by
        have owned := (parked id).owned
        simp only [Board.slot, ← same, absent, Option.isSome_none, Bool.false_eq_true,
          imp_false, Bool.not_eq_true, Option.isSome_eq_false_iff, Option.isNone_iff_eq_none] at owned
        rw [← same]
        exact owned
      simp only [Board.slot, free]
      exact ⟨fun leased => (Bool.false_ne_true leased).elim, fun _ _ _ _ => rfl⟩
    · exact parked id
  | planned added => exact parked id
  | leases leases kept =>
    have fewer : board.lease? id = none → Board.lease? { board with leases } id = none := by
      intro free
      apply Board.lease?_eq_none_iff.mpr
      intro lease member same
      have held := kept lease member
      rw [same, free] at held
      cases held
    constructor
    · intro held
      apply (parked id).owned
      cases found : board.lease? id with
      | none =>
        simp only [Board.slot, fewer found] at held
        cases held
      | some lease => simp [Board.slot, found]
    · exact fun card found blocked reason => fewer ((parked id).free card found blocked reason)
  | records nodes outputs checkpoints childLinks => exact ⟨(parked id).owned, (parked id).free⟩

theorem Statements.parked (statements : Statements board next)
    (parked : ∀ id, (board.slot id).Parked) : ∀ id, (next.slot id).Parked := by
  induction statements with
  | refl => exact parked
  | tail _ statement ih => exact statement.parked ih

theorem LeasedTo.parked {settled : Board} {hub : Session} {card : Card} {now : Int}
    (leased : LeasedTo settled next hub card now) (parked : ∀ id, (settled.slot id).Parked) :
    ∀ id, (next.slot id).Parked := by
  intro id
  rw [leased.slots id]
  split
  · refine ⟨fun _ => rfl, ?_⟩
    intro running found blocked _
    obtain rfl := Option.some.inj found
    cases blocked
  · exact parked id

/-- The owner's acts park no card. -/
theorem parked_owners (owners : event.op.isOwners = true)
    (done : event.reply board = .ok next) (parked : ∀ id, (board.slot id).Parked) :
    ∀ id, (next.slot id).Parked := by
  unfold Event.reply at done
  cases asked : event.op with
  | privateRunRequest hub operation task =>
    rw [asked] at done
    rcases privateRunRequest_ok done with ⟨_, rfl⟩ | ⟨run, privateRuns, requested⟩
    · exact parked
    · rw [requested.next_eq]
      apply parked_updateCards
      · exact parked
      · exact fun _ blocked => by cases blocked
  | privateRunStop hub operation =>
    rw [asked] at done
    rcases privateRunStop_ok done with rfl | ⟨run, stops, stopped⟩
    · exact parked
    · rw [stopped.next_eq]
      apply parked_updateCards
      · exact parked
      · exact fun _ _ => by simp only [Card.moved]; decide
  | privateRunRetry hub previous later =>
    rw [asked] at done
    rcases privateRunRetry_ok done with ⟨_, _, _, _, rfl⟩ | ⟨prior, run, retry, _, _, retried⟩
    · exact parked
    · obtain ⟨now, rfl⟩ := retried.result
      apply parked_updateCards
      · apply parked_deleteLeases
        exact parked
      · exact fun _ _ => by simp only [Card.moved]; decide
  | privateRunReady hub operation =>
    rw [asked] at done
    obtain ⟨run, readied⟩ := privateRunReady_ok done
    rw [readied.next_eq]
    exact parked_updateCards parked _ _ _ fun _ blocked => by cases blocked
  | publishPrivateCodeTask id node read workspace =>
    simp only [asked, Op.perform, publishPrivateCodeTask, bind_eq_ok_iff, pure_eq_ok_iff] at done
    obtain ⟨_, _, _, _, rfl⟩ := done
    exact parked_updateCards parked _ _ _ fun _ blocked => by cases blocked
  | retryPrivateCodeTask id node read =>
    simp only [asked, Op.perform, retryPrivateCodeTask, bind_eq_ok_iff, pure_eq_ok_iff] at done
    obtain ⟨_, _, _, _, rfl⟩ := done
    exact parked_updateCards (parked_deleteLeases parked _) _ _ _ fun _ blocked => by cases blocked
  | completePreparation id workspace =>
    simp only [asked, Op.perform, completePreparation, bind_eq_ok_iff, pure_eq_ok_iff] at done
    obtain ⟨_, _, _, _, rfl⟩ := done
    apply parked_updateCards parked
    exact fun _ _ => by simp only [Card.attested, Card.prepared]; decide
  | _ =>
    rw [asked] at owners
    cases owners

theorem parked_step (event : Event) (parked : ∀ id, (board.slot id).Parked) :
    ∀ id, ((board.step event).slot id).Parked := by
  cases owners : event.op.isOwners with
  | false =>
    rcases statements_step event board owners with statements | ⟨hub, card, _, _, leases⟩
    · exact statements.parked parked
    · exact leases.leasedTo.parked ((statements_settle _ _ _).parked parked)
  | true =>
    unfold Board.step
    split
    · rename_i next done
      exact parked_owners owners done parked
    · exact parked

end Parked

section Rows

variable {board next : Board} {row : PreparationRow}

/-- A run that may be claimed as far as the runs' tables go. -/
structure Current (board : Board) (card : CardId) (run : PrivateRun) : Prop where
  onRecord : run ∈ board.privateRuns.rows
  card_eq : run.cardId = card
  queued : run.state = .queued
  unstopped : ∀ stop ∈ board.privateRunStops.rows, stop.operationId ≠ run.id
  unretried : ∀ retry ∈ board.privateRunRetries.rows, retry.previousId ≠ run.id

/-- A prepared task none of whose runs was claimed yet: blocked, or ready for a run. -/
structure Awaits (board : Board) (row : PreparationRow) (card : Card) : Prop where
  unleased : Unleased board row.cardId card
  target : card.data.requiredCapabilities.targetNodeId = some row.targetNodeId
  status : card.status = .blocked ∨ card.status = .ready ∧ ∃ run, Current board row.cardId run

/-- The task as the request found it belongs to its submission and its target. -/
structure PreparationRow.Owned (row : PreparationRow) : Prop where
  card_eq : row.card.id = row.cardId
  submitted : ∃ submission, row.card.requiredCapabilities.submission = some submission ∧
    submission.requestId = row.cardId ∧ submission.projectId = row.card.projectId ∧
    submission.targetNodeId = row.targetNodeId
  target : row.card.requiredCapabilities.targetNodeId = some row.targetNodeId

/-- What a preparation says about its task on the board. -/
structure RowKept (board : Board) (row : PreparationRow) : Prop where
  owned : row.Owned
  targets : ∀ run ∈ board.privateRuns.rows, run.cardId = row.cardId →
    run.targetNodeId = row.targetNodeId
  staged : row.state ≠ .prepared →
    Unleased board row.cardId ⟨row.card, .blocked, some waiting⟩ ∧
      ∀ run ∈ board.privateRuns.rows, run.cardId ≠ row.cardId
  awaits : row.state = .prepared →
    (∀ run ∈ board.privateRuns.rows, run.cardId = row.cardId → run.state = .queued) →
    ∃ card, Awaits board row card

/-- A change of another card and of the runs of other cards. -/
structure Elsewhere (board next : Board) (id : CardId) : Prop where
  card : next.card? id = board.card? id
  lease : board.lease? id = none → next.lease? id = none
  runs : ∀ run : PrivateRun, run.cardId = id →
    (run ∈ next.privateRuns.rows ↔ run ∈ board.privateRuns.rows)
  stops : ∀ stop ∈ next.privateRunStops.rows, stop ∈ board.privateRunStops.rows ∨
    ∀ run ∈ board.privateRuns.rows, run.cardId = id → run.id ≠ stop.operationId
  retries : ∀ retry ∈ next.privateRunRetries.rows, retry ∈ board.privateRunRetries.rows ∨
    ∀ run ∈ board.privateRuns.rows, run.cardId = id → run.id ≠ retry.previousId

theorem Elsewhere.of_sameRuns {id : CardId} (card : next.card? id = board.card? id)
    (lease : board.lease? id = none → next.lease? id = none) (same : SameRuns board next) :
    Elsewhere board next id := by
  obtain ⟨runs, stops, retries⟩ := same
  exact ⟨card, lease, by rw [runs]; simp, by rw [stops]; exact fun _ => Or.inl,
    by rw [retries]; exact fun _ => Or.inl⟩

theorem Unleased.elsewhere {id : CardId} {card : Card} (unleased : Unleased board id card)
    (elsewhere : Elsewhere board next id) : Unleased next id card :=
  ⟨elsewhere.card.trans unleased.stored, elsewhere.lease unleased.free⟩

theorem Current.elsewhere {id : CardId} {run : PrivateRun} (current : Current board id run)
    (elsewhere : Elsewhere board next id) : Current next id run := by
  refine ⟨(elsewhere.runs run current.card_eq).mpr current.onRecord, current.card_eq,
    current.queued, ?_, ?_⟩
  · intro stop member same
    rcases elsewhere.stops stop member with earlier | other
    · exact current.unstopped stop earlier same
    · exact other run current.onRecord current.card_eq same.symm
  · intro retry member same
    rcases elsewhere.retries retry member with earlier | other
    · exact current.unretried retry earlier same
    · exact other run current.onRecord current.card_eq same.symm

theorem RowKept.elsewhere (kept : RowKept board row)
    (elsewhere : Elsewhere board next row.cardId) : RowKept next row := by
  obtain ⟨owned, targets, staged, awaits⟩ := kept
  refine ⟨owned, ?_, ?_, ?_⟩
  · intro run member same
    exact targets run ((elsewhere.runs run same).mp member) same
  · intro undone
    obtain ⟨unleased, unrun⟩ := staged undone
    refine ⟨unleased.elsewhere elsewhere, ?_⟩
    intro run member same
    exact unrun run ((elsewhere.runs run same).mp member) same
  · intro done queued
    have before : ∀ run ∈ board.privateRuns.rows, run.cardId = row.cardId →
        run.state = .queued :=
      fun run member same => queued run ((elsewhere.runs run same).mpr member) same
    obtain ⟨card, unleased, target, status⟩ := awaits done before
    refine ⟨card, unleased.elsewhere elsewhere, target, ?_⟩
    exact status.imp_right (fun ⟨ready, run, current⟩ =>
      ⟨ready, run, current.elsewhere elsewhere⟩)

/-- Statements keep what a preparation says: its task is out of their reach. -/
theorem RowKept.statements (kept : RowKept board row) (statements : Statements board next) :
    RowKept next row := by
  have same := statements.sameRuns
  refine ⟨kept.owned, by rw [same.runs]; exact kept.targets, ?_, ?_⟩
  · intro undone
    obtain ⟨unleased, unrun⟩ := kept.staged undone
    exact ⟨statements.unleased nofun unleased, by rw [same.runs]; exact unrun⟩
  · intro done queued
    rw [same.runs] at queued
    obtain ⟨card, unleased, target, status⟩ := kept.awaits done queued
    have still : card.status ≠ .waitingOnChild := by
      rcases status with blocked | ⟨ready, _⟩
      · rw [blocked]
        nofun
      · rw [ready]
        nofun
    refine ⟨card, statements.unleased still unleased, target, ?_⟩
    refine status.imp_right (fun ⟨ready, run, current⟩ => ⟨ready, run, ?_⟩)
    obtain ⟨onRecord, card_eq, isQueued, unstopped, unretried⟩ := current
    exact ⟨by rw [same.runs]; exact onRecord, card_eq, isQueued,
      by rw [same.stops]; exact unstopped, by rw [same.retries]; exact unretried⟩

end Rows

section Claims

variable {around : Surroundings} {settled next : Board} {row : PreparationRow} {hub : Session}
  {card : Card} {now : Int} {claimed : Claimed}

/-- A remotely prepared card is only admitted for an explicit run. -/
theorem scoped_of_allowsClaim {board : Board} {card : ClaimedCard}
    (remote : (around.preparation card.id).isSome)
    (allowed : allowsClaim around board hub card = .ok true) :
    ∃ operation, hub.runScope = some operation := by
  obtain ⟨preparation, prepares⟩ := Option.isSome_iff_exists.mp remote
  cases scope : hub.runScope with
  | some operation => exact ⟨operation, rfl⟩
  | none =>
    unfold allowsClaim at allowed
    rw [prepares, scope] at allowed
    split at allowed
    · cases Except.ok.inj allowed
    · cases Except.ok.inj allowed

theorem PrivateRun.start_of_ne {operation : OperationId} {session : SessionId} {run : PrivateRun}
    (other : run.id ≠ operation) : run.start operation session = run := by
  simp [PrivateRun.start, other]

/-- Where a claim leaves the runs. -/
theorem Leases.runs_eq {operation : OperationId} (scope : hub.runScope = some operation)
    (leases : Leases around settled next hub card now claimed) :
    next.privateRuns.rows =
        settled.privateRuns.rows.map (PrivateRun.start operation hub.session) ∧
      next.privateRunStops = settled.privateRunStops ∧
      next.privateRunRetries = settled.privateRunRetries := by
  obtain ⟨stored, rfl⟩ := leases.result
  simp only [startRun, scope]
  exact ⟨rfl, rfl, rfl⟩

theorem Leases.elsewhere (leases : Leases around settled next hub card now claimed) {id : CardId}
    (other : id ≠ card.id) : Elsewhere settled next id := by
  have slots := leases.leasedTo.slots id
  rw [if_neg other] at slots
  have found : next.card? id = settled.card? id := congrArg Slot.card slots
  have free : settled.lease? id = none → next.lease? id = none :=
    fun free => (congrArg Slot.lease slots).trans free
  cases scope : hub.runScope with
  | none =>
    obtain ⟨stored, result⟩ := leases.result
    refine .of_sameRuns found free ?_
    rw [result, startRun, scope]
    exact ⟨rfl, rfl, rfl⟩
  | some operation =>
    obtain ⟨runs, stops, retries⟩ := leases.runs_eq scope
    obtain ⟨started, inTable, same, ofCard, _⟩ :=
      (startable_of_allowsClaim scope leases.allowed).queued
    have apart : ∀ run ∈ settled.privateRuns.rows, run.cardId = id → run.id ≠ operation := by
      intro run member ofOther equal
      have one := settled.privateRuns.eq_of_key member inTable (equal.trans same.symm)
      exact other (ofOther.symm.trans (by rw [one]; exact ofCard))
    refine ⟨found, free, ?_, by rw [stops]; exact fun _ => Or.inl,
      by rw [retries]; exact fun _ => Or.inl⟩
    intro run ofOther
    rw [runs, List.mem_map]
    constructor
    · rintro ⟨stored, member, rfl⟩
      rw [stored.start_cardId] at ofOther
      rw [PrivateRun.start_of_ne (apart stored member ofOther)]
      exact member
    · exact fun member => ⟨run, member, PrivateRun.start_of_ne (apart run member ofOther)⟩

/-- A claim of a remotely prepared task starts one of its runs. -/
theorem RowKept.leases (kept : RowKept settled row)
    (remote : (around.preparation row.cardId).isSome)
    (leases : Leases around settled next hub card now claimed) : RowKept next row := by
  by_cases here : row.cardId = card.id
  · rw [here] at remote
    obtain ⟨operation, scope⟩ := scoped_of_allowsClaim remote leases.allowed
    obtain ⟨runs, _, _⟩ := leases.runs_eq scope
    obtain ⟨started, inTable, same, ofCard, _, queued⟩ :=
      (startable_of_allowsClaim scope leases.allowed).queued
    have isHere : started.cardId = row.cardId := by
      rw [here]
      exact ofCard
    refine ⟨kept.owned, ?_, ?_, ?_⟩
    · rw [runs]
      intro run member ofRow
      obtain ⟨stored, inRuns, rfl⟩ := List.mem_map.mp member
      rw [stored.start_cardId] at ofRow
      rw [stored.start_target]
      exact kept.targets stored inRuns ofRow
    · intro undone
      obtain ⟨_, unrun⟩ := kept.staged undone
      exact absurd isHere (unrun started inTable)
    · intro _ allQueued
      have member : started.start operation hub.session ∈ next.privateRuns.rows := by
        rw [runs]
        exact List.mem_map_of_mem inTable
      have state := allQueued _ member ((started.start_cardId _ _).trans isHere)
      simp [PrivateRun.start, same, queued] at state
  · exact kept.elsewhere (leases.elsewhere here)

end Claims

section Acts

variable {around : Surroundings} {board next : Board} {row : PreparationRow}
  {operation : OperationId}

/-- A change of one card, seen from another. -/
theorem card?_setStatus_of_ne {id other : CardId} (selects : Card → Bool) (status : CardStatus)
    (reason : Option String) (apart : other ≠ id)
    (only : ∀ card, selects card = true → card.id = id) :
    (board.setStatus selects status reason).card? other = board.card? other := by
  have slots := congrArg Slot.card (board.slot_updateCards selects (Card.moved status reason)
    (Card.identity_moved status reason) other)
  simp only [Board.slot] at slots
  refine slots.trans ?_
  cases found : board.card? other with
  | none => rfl
  | some card =>
    have passed : ¬ selects card = true := by
      intro selected
      have same := (Board.card?_eq_some_iff.mp found).2
      exact apart (same.symm.trans (only card selected))
    rw [Option.map_some, if_neg passed]

theorem card?_setStatus {id : CardId} {card : Card} (selects : Card → Bool)
    (status : CardStatus) (reason : Option String) (found : board.card? id = some card) :
    (board.setStatus selects status reason).card? id =
      some (if selects card then card.moved status reason else card) := by
  have slots := congrArg Slot.card (board.slot_updateCards selects (Card.moved status reason)
    (Card.identity_moved status reason) id)
  simp only [Board.slot, found] at slots
  exact slots

/-- A run that is requested makes its prepared task ready for it. -/
theorem RowKept.requested {task : CardId} {run : PrivateRun} {privateRuns}
    (kept : RowKept board row) (chained : Chained board) (recorded : Recorded board)
    (ofRow : ∀ preparation, around.preparation row.cardId = some preparation →
      preparation = ⟨row.targetNodeId, row.state = .prepared⟩)
    (requested : RunRequested around board next operation task run privateRuns) :
    RowKept next row := by
  have rows := Table.rows_of_insert? requested.stored
  have absent := absent_of_insert requested.stored
  have next_eq := requested.next_eq
  by_cases here : row.cardId = task
  · obtain ⟨preparation, prepares, prepared, target⟩ := requested.prepared
    rw [← here] at prepares
    have read := ofRow preparation prepares
    have done : row.state = .prepared := by simpa [read] using prepared
    have sameTarget : run.targetNodeId = row.targetNodeId := by rw [target, read]
    subst next_eq
    refine ⟨kept.owned, ?_, fun undone => absurd done undone, ?_⟩
    · intro other member same
      change other ∈ privateRuns.rows at member
      rw [rows, List.mem_append, List.mem_singleton] at member
      rcases member with earlier | rfl
      · exact kept.targets other earlier same
      · exact sameTarget
    · intro _ _
      have unrun : ∀ other ∈ board.privateRuns.rows, other.cardId = row.cardId →
          other.state = .queued :=
        fun other member same => absurd (same.trans here) (requested.first other member)
      obtain ⟨card, unleased, targeted, _⟩ := kept.awaits done unrun
      refine ⟨card.moved .ready none, ⟨?_, unleased.free⟩, targeted, Or.inr ⟨rfl, run, ?_⟩⟩
      · have found : Board.card? { board with privateRuns } row.cardId = some card :=
          unleased.stored
        have moved := card?_setStatus (fun card => card.id = task) .ready none found
        have selected : decide (card.id = task) = true :=
          decide_eq_true ((Board.card?_eq_some_iff.mp unleased.stored).2.trans here)
        rw [if_pos selected] at moved
        exact moved
      · refine ⟨?_, requested.card_eq.trans here.symm, requested.queued, ?_, ?_⟩
        · change run ∈ privateRuns.rows
          rw [rows]
          exact List.mem_append_right _ (List.mem_singleton.mpr rfl)
        · intro stop member same
          have known := recorded.halted stop member
          rw [same, absent] at known
          cases known
        · intro retry member same
          have known := chained.rooted retry member
          rw [same, absent] at known
          cases known
  · apply kept.elsewhere
    subst next_eq
    refine ⟨?_, fun free => free, ?_, fun _ => Or.inl, fun _ => Or.inl⟩
    · exact card?_setStatus_of_ne _ _ _ here (fun card selected => of_decide_eq_true selected)
    · intro other ofOther
      change other ∈ privateRuns.rows ↔ _
      rw [rows, List.mem_append, List.mem_singleton, or_iff_left]
      rintro rfl
      exact here (ofOther.symm.trans requested.card_eq)

/-- A stopped run leaves its task blocked. -/
theorem RowKept.stopped {run : PrivateRun} {privateRunStops} (kept : RowKept board row)
    (stopped : RunStopped board next operation run privateRunStops) : RowKept next row := by
  obtain ⟨inTable, same⟩ := (Table.lookup_eq_some_iff _ _ _).mp stopped.found
  have next_eq := stopped.next_eq
  subst next_eq
  by_cases here : row.cardId = run.cardId
  · refine ⟨kept.owned, kept.targets, ?_, ?_⟩
    · intro undone
      exact absurd here.symm ((kept.staged undone).2 run inTable)
    · intro done queued
      obtain ⟨card, unleased, target, status⟩ := kept.awaits done queued
      have found : Board.card? { board with privateRunStops } row.cardId = some card :=
        unleased.stored
      have moved := card?_setStatus (fun card => card.id = run.cardId && card.status = .ready)
        .blocked (some "private_run_stopped") found
      refine ⟨_, ⟨moved, unleased.free⟩, ?_, Or.inl ?_⟩
      · split <;> exact target
      · split
        · rfl
        · rename_i passed
          rcases status with blocked | ⟨ready, _⟩
          · exact blocked
          · have identity := (Board.card?_eq_some_iff.mp unleased.stored).2
            simp [identity, here, ready] at passed
  · apply kept.elsewhere
    refine ⟨?_, fun free => free, fun _ _ => Iff.rfl, ?_, fun _ => Or.inl⟩
    · apply card?_setStatus_of_ne _ _ _ here
      intro card selected
      simp only [Bool.and_eq_true, decide_eq_true_eq] at selected
      exact selected.1
    · intro stop member
      refine (stopped.only stop member).imp_right (fun ofRun => ?_)
      intro other otherMember ofRow equal
      have one := board.privateRuns.eq_of_key otherMember inTable
        (equal.trans (ofRun.trans same.symm))
      exact here (ofRow.symm.trans (by rw [one]))

/-- A retried run leaves its task blocked until the target attests it. -/
theorem RowKept.retried {previous later : OperationId} {prior run : PrivateRun}
    {retry : PrivateRunRetry} {privateRuns privateRunRetries} (kept : RowKept board row)
    (retried : RunRetried board next previous later prior run retry privateRuns
      privateRunRetries) : RowKept next row := by
  obtain ⟨inTable, same⟩ := (Table.lookup_eq_some_iff _ _ _).mp retried.found
  have rows := Table.rows_of_insert? retried.runs
  have retries := Table.rows_of_insert? retried.retries
  obtain ⟨now, next_eq⟩ := retried.result
  have lease : board.lease? row.cardId = none → next.lease? row.cardId = none := by
    intro free
    apply Board.lease?_eq_none_iff.mpr
    intro stored member
    rw [next_eq] at member
    exact Board.lease?_eq_none_iff.mp free stored (List.mem_filter.mp member).1
  by_cases here : row.cardId = prior.cardId
  · refine ⟨kept.owned, ?_, ?_, ?_⟩
    · intro other member ofRow
      rw [next_eq] at member
      change other ∈ privateRuns.rows at member
      rw [rows, List.mem_append, List.mem_singleton] at member
      rcases member with earlier | rfl
      · exact kept.targets other earlier ofRow
      · rw [retried.target_eq]
        exact kept.targets prior inTable here.symm
    · intro undone
      exact absurd here.symm ((kept.staged undone).2 prior inTable)
    · intro done queued
      have before : ∀ other ∈ board.privateRuns.rows, other.cardId = row.cardId →
          other.state = .queued := by
        intro other member ofRow
        apply queued other _ ofRow
        rw [next_eq]
        change other ∈ privateRuns.rows
        rw [rows]
        exact List.mem_append_left _ member
      obtain ⟨card, unleased, target, _⟩ := kept.awaits done before
      have found : Board.card? (Board.deleteLeases { board with privateRuns, privateRunRetries }
          (fun lease => lease.cardId = prior.cardId && lease.expires ≤ now)) row.cardId =
          some card := unleased.stored
      have moved := card?_setStatus (fun card => card.id = prior.cardId) .blocked
        (some "awaiting_retry_validation") found
      have selected : decide (card.id = prior.cardId) = true :=
        decide_eq_true ((Board.card?_eq_some_iff.mp unleased.stored).2.trans here)
      rw [if_pos selected, ← next_eq] at moved
      exact ⟨_, ⟨moved, lease unleased.free⟩, target, Or.inl rfl⟩
  · apply kept.elsewhere
    have apart : ∀ other ∈ board.privateRuns.rows, other.cardId = row.cardId →
        other.id ≠ previous := by
      intro other member ofRow equal
      have one := board.privateRuns.eq_of_key member inTable (equal.trans same.symm)
      exact here (ofRow.symm.trans (by rw [one]))
    refine ⟨?_, lease, ?_, ?_, ?_⟩
    · rw [next_eq]
      exact card?_setStatus_of_ne _ _ _ here (fun card selected => of_decide_eq_true selected)
    · intro other ofRow
      rw [next_eq]
      change other ∈ privateRuns.rows ↔ _
      rw [rows, List.mem_append, List.mem_singleton, or_iff_left]
      rintro rfl
      exact here (ofRow.symm.trans retried.card_eq)
    · rw [next_eq]
      exact fun _ => Or.inl
    · intro other member
      rw [next_eq] at member
      change other ∈ privateRunRetries.rows at member
      rw [retries, List.mem_append, List.mem_singleton] at member
      rcases member with earlier | rfl
      · exact Or.inl earlier
      · rw [retried.previous_eq]
        exact Or.inr apart

/-- An attested retry makes its task ready for the run that takes over. -/
theorem RowKept.readied {run : PrivateRun} (kept : RowKept board row)
    (readied : RunReadied board next operation run) : RowKept next row := by
  obtain ⟨inTable, same⟩ := (Table.lookup_eq_some_iff _ _ _).mp readied.found
  have next_eq := readied.next_eq
  subst next_eq
  by_cases here : row.cardId = run.cardId
  · refine ⟨kept.owned, kept.targets, ?_, ?_⟩
    · intro undone
      exact absurd here.symm ((kept.staged undone).2 run inTable)
    · intro done queued
      obtain ⟨card, unleased, target, status⟩ := kept.awaits done queued
      have moved := card?_setStatus (fun card => card.id = run.cardId && card.status = .blocked &&
        card.reason = some "awaiting_retry_validation") .ready none unleased.stored
      refine ⟨_, ⟨moved, unleased.free⟩, ?_, ?_⟩
      · split <;> exact target
      · split
        · refine Or.inr ⟨rfl, run, inTable, here.symm, readied.queued, ?_, ?_⟩
          · rw [same]
            exact readied.unstopped
          · rw [same]
            exact readied.current
        · exact status.imp_right (fun ⟨ready, other, current⟩ => ⟨ready, other, current.onRecord,
            current.card_eq, current.queued, current.unstopped, current.unretried⟩)
  · apply kept.elsewhere
    refine .of_sameRuns ?_ (fun free => free) ⟨rfl, rfl, rfl⟩
    apply card?_setStatus_of_ne _ _ _ here
    intro card selected
    simp only [Bool.and_eq_true, decide_eq_true_eq] at selected
    exact selected.1.1

end Acts

section Store

variable {store : PreparationStore} {event : PreparationEvent}

theorem preparationOf_eq_some_iff {card : CardId} {row : PreparationRow} :
    store.preparationOf card = some row ↔
      row ∈ store.preparations.rows ∧ row.cardId = card :=
  store.preparations.find?_eq_some_iff (fun _ _ => PreparationRow.Clash.symm)
    PreparationRow.cardId (fun _ _ => Or.inr) card row

/-- The whole store keeps what its preparations say. -/
structure PreparationStore.Kept (store : PreparationStore) : Prop where
  rows : ∀ row ∈ store.preparations.rows, RowKept store.board row
  rowed : ∀ run ∈ store.board.privateRuns.rows,
    ∃ row ∈ store.preparations.rows, row.cardId = run.cardId
  parked : ∀ id, (store.board.slot id).Parked
  chained : Chained store.board
  recorded : Recorded store.board

/-- The card that a host prepares or retries itself, without the preparation's row. -/
def PreparationOp.hosts : PreparationOp → Option CardId
  | .board (.publishPrivateCodeTask id _ _ _) _ => some id
  | .board (.retryPrivateCodeTask id _ _) _ => some id
  | _ => none

/-- A transaction that leaves every task with a preparation to that preparation. -/
def Regular (store : PreparationStore) (event : PreparationEvent) : Prop :=
  ∀ id ∈ event.op.hosts, store.preparationOf id = none

variable {op : Op} {around : Surroundings} {clock : Nat → Int} {board : Board}

theorem surround_preparation {row : PreparationRow} (member : row ∈ store.preparations.rows) :
    (store.surround around).preparation row.cardId =
      some ⟨row.targetNodeId, row.state = .prepared⟩ := by
  have found : store.preparationOf row.cardId = some row :=
    preparationOf_eq_some_iff.mpr ⟨member, rfl⟩
  simp only [PreparationStore.surround, found, Option.map_some]

/-- A host's own work on a card without a preparation. -/
theorem RowKept.published {row : PreparationRow} {id : CardId} {change : Card → Card} {fixed}
    (kept : RowKept store.board row) (other : row.cardId ≠ id) (selects : Lease → Bool) :
    RowKept (Board.updateCards (store.board.deleteLeases selects) (fun card => card.id = id)
      change fixed) row := by
  apply kept.elsewhere
  have slots := Board.slot_updateCard (store.board.deleteLeases selects) id change fixed row.cardId
  rw [if_neg other, Board.slot_deleteLeases] at slots
  refine .of_sameRuns (congrArg Slot.card slots) ?_ ⟨rfl, rfl, rfl⟩
  intro free
  refine (congrArg Slot.lease slots).trans ?_
  simp [free]

theorem rowKept_owners {row : PreparationRow} (kept : store.Kept)
    (member : row ∈ store.preparations.rows) (apart : op.attests = false)
    (regular : ∀ id ∈ (PreparationOp.board op apart).hosts, store.preparationOf id = none)
    (owners : op.isOwners = true)
    (done : Event.reply ⟨op, store.surround around, clock⟩ store.board = .ok board) :
    RowKept board row := by
  have rowKept := kept.rows row member
  have other : ∀ id, store.preparationOf id = none → row.cardId ≠ id := by
    rintro id absent rfl
    rw [preparationOf_eq_some_iff.mpr ⟨member, rfl⟩] at absent
    cases absent
  unfold Event.reply at done
  cases op with
  | privateRunRequest hub operation task =>
    rcases privateRunRequest_ok done with ⟨_, rfl⟩ | ⟨run, privateRuns, requested⟩
    · exact rowKept
    · refine rowKept.requested kept.chained kept.recorded ?_ requested
      intro preparation prepares
      rw [surround_preparation member] at prepares
      exact (Option.some.inj prepares).symm
  | privateRunStop hub operation =>
    rcases privateRunStop_ok done with rfl | ⟨run, stops, stopped⟩
    · exact rowKept
    · exact rowKept.stopped stopped
  | privateRunRetry hub previous later =>
    rcases privateRunRetry_ok done with ⟨_, _, _, _, rfl⟩ | ⟨prior, run, retry, _, _, retried⟩
    · exact rowKept
    · exact rowKept.retried retried
  | privateRunReady hub operation =>
    obtain ⟨run, readied⟩ := privateRunReady_ok done
    exact rowKept.readied readied
  | publishPrivateCodeTask id node read workspace =>
    simp only [Op.perform, publishPrivateCodeTask, bind_eq_ok_iff, pure_eq_ok_iff] at done
    obtain ⟨_, _, _, _, rfl⟩ := done
    have apartFrom := other id (regular id rfl)
    apply rowKept.elsewhere
    have slots := store.board.slot_updateCard id (Card.prepared workspace .ready none)
      (Card.identity_prepared _ _ _) row.cardId
    rw [if_neg apartFrom] at slots
    exact .of_sameRuns (congrArg Slot.card slots) (fun free => free) ⟨rfl, rfl, rfl⟩
  | retryPrivateCodeTask id node read =>
    simp only [Op.perform, retryPrivateCodeTask, bind_eq_ok_iff, pure_eq_ok_iff] at done
    obtain ⟨_, _, _, _, rfl⟩ := done
    exact rowKept.published (other id (regular id rfl)) _
  | completePreparation id workspace => cases apart
  | _ => cases owners

/-- A transaction on the board keeps what the preparations say. -/
theorem kept_board (kept : store.Kept) (apart : op.attests = false)
    (regular : ∀ id ∈ (PreparationOp.board op apart).hosts, store.preparationOf id = none)
    (done : Event.reply ⟨op, store.surround around, clock⟩ store.board = .ok board) :
    PreparationStore.Kept { store with board } := by
  let transaction : Event := ⟨op, store.surround around, clock⟩
  have stepped : store.board.step transaction = board := by
    rw [Board.step, done]
  have move := runMove_step transaction store.board
  rw [stepped] at move
  refine ⟨?_, ?_, ?_, move.chained kept.chained, ?_⟩
  · intro row member
    cases owners : op.isOwners with
    | true => exact rowKept_owners kept member apart regular owners done
    | false =>
      have rowKept := kept.rows row member
      rcases statements_step transaction store.board owners with
        statements | ⟨hub, card, claimed, _, leases⟩
      · rw [stepped] at statements
        exact rowKept.statements statements
      · rw [stepped] at leases
        have inTable : row ∈ store.preparations.rows := member
        refine (rowKept.statements (statements_settle _ _ _)).leases ?_ leases
        change ((store.surround around).preparation row.cardId).isSome
        rw [surround_preparation inTable]
        rfl
  · intro run member
    cases move with
    | kept same => exact kept.rowed run (by rwa [same.runs] at member)
    | started hub operation card asked scope startable runs stops retries =>
      rw [runs] at member
      obtain ⟨stored, inTable, rfl⟩ := List.mem_map.mp member
      rw [stored.start_cardId]
      exact kept.rowed stored inTable
    | requested added first queued unclaimed stored onBoard prepared stops retries =>
      rw [Table.rows_of_insert? stored, List.mem_append, List.mem_singleton] at member
      rcases member with earlier | rfl
      · exact kept.rowed run earlier
      · obtain ⟨preparation, prepares⟩ := Option.isSome_iff_exists.mp prepared
        obtain ⟨row, found, _⟩ := Option.map_eq_some_iff.mp prepares
        exact ⟨row, preparationOf_eq_some_iff.mp found⟩
    | stopped runs keeps only retries => exact kept.rowed run (by rwa [runs] at member)
    | retried prior added retry found current same card target queued unclaimed stored stops
        recorded =>
      rw [Table.rows_of_insert? stored, List.mem_append, List.mem_singleton] at member
      rcases member with earlier | rfl
      · exact kept.rowed run earlier
      · rw [card]
        exact kept.rowed prior (Table.mem_of_lookup found)
  · have parked := parked_step transaction kept.parked
    rwa [stepped] at parked
  · have recorded := recorded_step transaction kept.recorded
    rwa [stepped] at recorded

theorem preparation?_eq_some_iff {operation : OperationId} {row : PreparationRow} :
    store.preparation? operation = some row ↔
      row ∈ store.preparations.rows ∧ row.id = operation :=
  store.preparations.find?_eq_some_iff (fun _ _ => PreparationRow.Clash.symm)
    PreparationRow.id (fun _ _ => Or.inl) operation row

/-- The checks on a submission pass for the card a request has stored. -/
theorem task_ok {id : CardId} {card : Card} {target : NodeId}
    (done : task board id = .ok (card, target)) :
    board.card? id = some card ∧ ∃ submission,
      card.data.requiredCapabilities.submission = some submission ∧
        submission.requestId = id ∧ submission.projectId = card.data.projectId ∧
        submission.targetNodeId = target ∧
        card.data.requiredCapabilities.targetNodeId = some target := by
  simp only [task, bind_eq_ok_iff, orFail_eq_ok_iff, require_eq_ok_iff, exists_const,
    pure_eq_ok_iff, Prod.mk.injEq] at done
  obtain ⟨card, found, submission, submitted, ⟨own, project, bound⟩, rfl, rfl⟩ := done
  exact ⟨found, submission, submitted, own, project, rfl, bound⟩

/-- The row of a task, read back from the board, passes the checks of a request. -/
theorem task_of_owned {row : PreparationRow} {status : CardStatus} {reason : Option String}
    (owned : row.Owned) (stored : board.card? row.cardId = some ⟨row.card, status, reason⟩) :
    task board row.card.id = .ok (⟨row.card, status, reason⟩, row.targetNodeId) := by
  obtain ⟨card, ⟨submission, submitted, own, project, target⟩, bound⟩ := owned
  have passes : submission.requestId = row.cardId ∧ submission.projectId = row.card.projectId ∧
      row.card.requiredCapabilities.targetNodeId = some submission.targetNodeId :=
    ⟨own, project, by rw [target]; exact bound⟩
  simp only [task, card, stored, orFail, submitted, bind, Except.bind, require, if_pos passes,
    pure, Except.pure]
  rw [target]

/-- A row changed in place, without its identity and its target. -/
theorem mem_updatePreparation {operation : OperationId} {change : PreparationRow → PreparationRow}
    {fixed} {row : PreparationRow} :
    row ∈ (store.updatePreparation operation change fixed).preparations.rows ↔
      ∃ stored ∈ store.preparations.rows,
        (if stored.id = operation then change stored else stored) = row :=
  List.mem_map

/-- An update of one preparation that keeps the cards of all. -/
theorem kept_update {operation : OperationId} {change : PreparationRow → PreparationRow} {fixed}
    (kept : store.Kept) (keeps : ∀ row ∈ store.preparations.rows, row.id = operation →
      RowKept store.board (change row)) :
    (store.updatePreparation operation change fixed).Kept := by
  refine ⟨?_, ?_, kept.parked, kept.chained, kept.recorded⟩
  · intro row member
    obtain ⟨stored, inTable, rfl⟩ := mem_updatePreparation.mp member
    split
    · rename_i same
      exact keeps stored inTable same
    · exact kept.rows stored inTable
  · intro run member
    obtain ⟨row, inTable, same⟩ := kept.rowed run member
    refine ⟨_, mem_updatePreparation.mpr ⟨row, inTable, rfl⟩, ?_⟩
    split
    · exact (fixed row).2.trans same
    · exact same

/-- A preparation that is not done may change hands. -/
theorem RowKept.handed {row : PreparationRow} (kept : RowKept board row)
    (undone : row.state ≠ .prepared) {state : PreparationState} (other : state ≠ .prepared)
    (session : Option SessionId) : RowKept board { row with state, session } :=
  ⟨⟨kept.owned.card_eq, kept.owned.submitted, kept.owned.target⟩, kept.targets,
    fun _ => kept.staged undone, fun done => absurd done other⟩

/-- What an attestation writes. -/
theorem completePreparation_ok {id : CardId} {workspace : String} {next : Board}
    (attested : completePreparation board id workspace = .ok next) :
    SameRuns board next ∧ ∀ other, next.slot other = if other = id then
      { board.slot other with card := (board.card? other).map (Card.attested workspace) }
      else board.slot other := by
  simp only [completePreparation, bind_eq_ok_iff, pure_eq_ok_iff] at attested
  obtain ⟨_, _, _, _, rfl⟩ := attested
  exact ⟨⟨rfl, rfl, rfl⟩, fun other => Board.slot_updateCard _ _ _ _ other⟩

theorem Elsewhere.of_attested {id other : CardId} {workspace : String} {next : Board}
    (attested : completePreparation board id workspace = .ok next) (apart : other ≠ id) :
    Elsewhere board next other := by
  obtain ⟨same, slots⟩ := completePreparation_ok attested
  have kept := slots other
  rw [if_neg apart] at kept
  exact .of_sameRuns (congrArg Slot.card kept) (fun free => (congrArg Slot.lease kept).trans free)
    same

/-- A task whose checkout is attested waits for a run, and has none yet. -/
theorem RowKept.attested {row : PreparationRow} {workspace : String} {next : Board}
    (kept : RowKept board row) (undone : row.state ≠ .prepared)
    (attested : completePreparation board row.cardId workspace = .ok next) :
    RowKept next { row with state := .prepared, workspace := some workspace } := by
  obtain ⟨unleased, _⟩ := kept.staged undone
  obtain ⟨same, slots⟩ := completePreparation_ok attested
  have here := slots row.cardId
  rw [if_pos rfl] at here
  refine ⟨⟨kept.owned.card_eq, kept.owned.submitted, kept.owned.target⟩,
    by rw [same.runs]; exact kept.targets, fun unprepared => absurd rfl unprepared, ?_⟩
  intro _ _
  refine ⟨Card.attested workspace ⟨row.card, .blocked, some waiting⟩, ⟨?_, ?_⟩,
    kept.owned.target, Or.inl rfl⟩
  · refine (congrArg Slot.card here).trans ?_
    simp only [unleased.stored, Option.map_some]
  · exact (congrArg Slot.lease here).trans unleased.free

end Store

section Steps

variable {store next : PreparationStore} {around : Surroundings} {hub : Session}
  {operation : OperationId} {clock : Nat → Int}

theorem kept_request {cardId : CardId} (kept : store.Kept)
    (done : privatePreparationRequest around store hub operation cardId clock = .ok next) :
    next.Kept := by
  simp only [privatePreparationRequest, bind_eq_ok_iff] at done
  obtain ⟨_, _, _, _, ⟨card, target⟩, read, _, _, body⟩ := done
  split at body
  · simp only [bind_eq_ok_iff, pure_eq_ok_iff] at body
    obtain ⟨_, _, rfl⟩ := body
    exact kept
  · simp only [bind_eq_ok_iff, require_eq_ok_iff, exists_const, orFail_eq_ok_iff,
      pure_eq_ok_iff] at body
    obtain ⟨⟨blocked, reason⟩, preparations, added, rfl⟩ := body
    obtain ⟨fits, rows⟩ := Table.insert?_eq_some_iff.mp added
    obtain ⟨found, submission, submitted, own, project, sameTarget, bound⟩ := task_ok read
    have unrun : ∀ run ∈ store.board.privateRuns.rows, run.cardId ≠ cardId := by
      intro run member same
      obtain ⟨row, inTable, ofCard⟩ := kept.rowed run member
      exact fits row inTable (Or.inr (ofCard.trans same))
    refine ⟨?_, ?_, kept.parked, kept.chained, kept.recorded⟩
    · intro row member
      change row ∈ preparations.rows at member
      rw [rows, List.mem_append, List.mem_singleton] at member
      rcases member with earlier | rfl
      · exact kept.rows row earlier
      · have identity := (Board.card?_eq_some_iff.mp found).2
        refine ⟨⟨identity, ⟨submission, submitted, own, project, sameTarget⟩, bound⟩,
          fun run inTable same => absurd same (unrun run inTable), ?_,
          fun prepared => by cases prepared⟩
        intro _
        refine ⟨⟨?_, (kept.parked cardId).free card found blocked reason⟩, unrun⟩
        rw [found, ← blocked, ← reason]
    · intro run member
      obtain ⟨row, inTable, same⟩ := kept.rowed run member
      refine ⟨row, ?_, same⟩
      change row ∈ preparations.rows
      rw [rows]
      exact List.mem_append_left _ inTable

/-- The head of a computer's queue is one of its preparations that are not done. -/
theorem nextPreparation_mem {node : NodeId} {inactive : CardId → Bool} {row : PreparationRow}
    (head : nextPreparation store node inactive = some row) :
    row ∈ store.preparations.rows ∧ row.targetNodeId = node ∧ row.state ≠ .prepared := by
  have member := List.mem_of_mem_head? head
  rw [List.mem_insertionSort, List.mem_filter] at member
  simp only [Bool.and_eq_true, decide_eq_true_eq] at member
  exact ⟨member.1, member.2.1.1, member.2.1.2⟩

theorem kept_take {inactive : CardId → Bool} {work : Option PreparationWork} (kept : store.Kept)
    (done : privatePreparationTake around store hub inactive = .ok (next, work)) :
    next.Kept := by
  simp only [privatePreparationTake, bind_eq_ok_iff] at done
  obtain ⟨_, _, _, _, body⟩ := done
  split at body
  · obtain ⟨rfl, _⟩ := Prod.mk.inj (Except.ok.inj body)
    exact kept
  · rename_i row head
    simp only [bind_eq_ok_iff, pure_eq_ok_iff, Prod.mk.injEq] at body
    obtain ⟨_, _, _, _, _, _, _, _, rfl, _⟩ := body
    obtain ⟨inTable, _, undone⟩ := nextPreparation_mem head
    apply kept_update kept
    intro stored member same
    have one := store.preparations.eq_of_clash (fun _ _ => PreparationRow.Clash.symm) member inTable
      (Or.inl same)
    rw [one]
    exact (kept.rows row inTable).handed undone
      (show PreparationState.claimed ≠ .prepared by decide) _

theorem kept_recover {request : OperationId} (kept : store.Kept)
    (done : privatePreparationRecover around store hub request operation clock = .ok next) :
    next.Kept := by
  simp only [privatePreparationRecover, bind_eq_ok_iff, orFail_eq_ok_iff] at done
  obtain ⟨_, _, _, _, row, found, _, _, body⟩ := done
  split at body
  · simp only [bind_eq_ok_iff, pure_eq_ok_iff] at body
    obtain ⟨_, _, rfl⟩ := body
    exact kept
  · simp only [bind_eq_ok_iff, require_eq_ok_iff, exists_const, pure_eq_ok_iff] at body
    obtain ⟨claimed, _, _, _, _, _, _, recoveries, _, rfl⟩ := body
    obtain ⟨inTable, own⟩ := preparation?_eq_some_iff.mp found
    have recovered : PreparationStore.Kept { store with recoveries } :=
      ⟨kept.rows, kept.rowed, kept.parked, kept.chained, kept.recorded⟩
    apply kept_update recovered
    intro stored member same
    have one := store.preparations.eq_of_clash (fun _ _ => PreparationRow.Clash.symm) member inTable
      (Or.inl (same.trans own.symm))
    rw [one]
    exact (kept.rows row inTable).handed (by rw [claimed]; decide)
      (show PreparationState.queued ≠ .prepared by decide) _

/-- Attesting a checkout leaves every other task alone. -/
theorem kept_complete {workspace : String} (kept : store.Kept)
    (done : privatePreparationComplete around store hub operation workspace = .ok next) :
    next.Kept := by
  simp only [privatePreparationComplete, bind_eq_ok_iff, orFail_eq_ok_iff] at done
  obtain ⟨_, _, _, _, _, _, row, found, _, _, _, _, _, _, body⟩ := done
  split at body
  · simp only [bind_eq_ok_iff, pure_eq_ok_iff] at body
    obtain ⟨_, _, rfl⟩ := body
    exact kept
  · rename_i undone
    simp only [bind_eq_ok_iff, pure_eq_ok_iff] at body
    obtain ⟨_, _, _, _, _, _, board, attested, rfl⟩ := body
    obtain ⟨inTable, own⟩ := preparation?_eq_some_iff.mp found
    have same := (completePreparation_ok attested).1
    let transaction : Event := ⟨.completePreparation row.cardId workspace, around, fun _ => 0⟩
    have stepped : store.board.step transaction = board := by
      simp only [Board.step, Event.reply, transaction, Op.perform, attested]
    have parked := parked_step transaction kept.parked
    have chained := (runMove_step transaction store.board).chained kept.chained
    have recorded := recorded_step transaction kept.recorded
    rw [stepped] at parked chained recorded
    refine ⟨?_, ?_, parked, chained, recorded⟩
    · intro later member
      obtain ⟨stored, inStore, rfl⟩ := mem_updatePreparation.mp member
      by_cases here : stored.id = operation
      · have one : stored = row := store.preparations.eq_of_clash
          (fun _ _ => PreparationRow.Clash.symm) inStore inTable (Or.inl (here.trans own.symm))
        rw [if_pos here, one]
        exact (kept.rows row inTable).attested undone attested
      · have apart : stored.cardId ≠ row.cardId := by
          intro equal
          have one : stored = row := store.preparations.eq_of_clash
            (fun _ _ => PreparationRow.Clash.symm) inStore inTable (Or.inr equal)
          exact here ((congrArg PreparationRow.id one).trans own)
        rw [if_neg here]
        exact (kept.rows stored inStore).elsewhere (Elsewhere.of_attested attested apart)
    · intro run member
      change run ∈ board.privateRuns.rows at member
      rw [same.runs] at member
      obtain ⟨stored, inStore, ofCard⟩ := kept.rowed run member
      refine ⟨_, mem_updatePreparation.mpr ⟨stored, inStore, rfl⟩, ?_⟩
      split <;> exact ofCard

theorem kept_step (store : PreparationStore) (event : PreparationEvent)
    (regular : Regular store event) (kept : store.Kept) : (store.step event).Kept := by
  unfold PreparationStore.step
  split
  · rename_i next done
    unfold PreparationEvent.reply at done
    cases asked : event.op with
    | board op apart =>
      rw [Regular, asked] at regular
      simp only [asked, bind_eq_ok_iff, pure_eq_ok_iff] at done
      obtain ⟨board, replied, rfl⟩ := done
      exact kept_board kept apart regular replied
    | request hub operation card =>
      rw [asked] at done
      exact kept_request kept done
    | take hub inactive =>
      rw [asked] at done
      cases taken : privatePreparationTake event.around store hub inactive with
      | error failure =>
        simp only [taken] at done
        cases done
      | ok pair =>
        obtain ⟨after, work⟩ := pair
        simp only [taken] at done
        obtain rfl := Except.ok.inj done
        exact kept_take kept taken
    | complete hub operation workspace =>
      rw [asked] at done
      exact kept_complete kept done
    | recover hub request operation =>
      rw [asked] at done
      exact kept_recover kept done
  · exact kept

theorem kept_run {events : List PreparationEvent}
    (regular : EachStep PreparationStore.step PreparationStore.empty Regular events)
    (moment : Nat) : (storeAt events moment).Kept := by
  apply regular.invariant PreparationStore.Kept _ kept_step
  refine ⟨fun _ member => (nomatch member), fun _ member => (nomatch member),
    fun id => ⟨nofun, fun _ found => (nomatch found)⟩, ⟨fun _ => rfl, fun _ member => (nomatch member)⟩,
    ⟨fun _ member => (nomatch member), fun _ member => (nomatch member),
      fun _ member => (nomatch member), fun _ member => (nomatch member)⟩⟩

end Steps

section Runs

variable {store : PreparationStore} {around : Surroundings} {hub : Session}
  {inactive : CardId → Bool} {owner : String}

/-- The session that `private_run_claim` makes of a worker's: one task, and one run of it. -/
def Session.scopedTo (hub : Session) (task : CardId) (operation : OperationId) : Session :=
  { hub with claimScope := some task, runScope := some operation }

/-- The head of the queue was handed to another session, or taken back from this one. -/
def Withheld (store : PreparationStore) (hub : Session) (row : PreparationRow) : Prop :=
  (∃ recovery ∈ store.recoveries.rows,
    recovery.operationId = row.id ∧ recovery.retiredSession = hub.session) ∨
  row.state = .claimed ∧ row.session ≠ some hub.session

/-- A ready task none of whose runs was claimed yet is admitted for its current run. -/
theorem admitted_of_awaits {row : PreparationRow} {card : Card} (kept : store.Kept)
    (member : row ∈ store.preparations.rows)
    (found : store.board.card? row.cardId = some card) (ready : card.status = .ready)
    (unclaimed : ∀ run ∈ store.board.privateRuns.rows, run.cardId = row.cardId →
      run.state = .queued) :
    row.state = .prepared ∧ store.board.lease? row.cardId = none ∧
      ∃ operation, ∀ around (hub : Session), hub.node = row.targetNodeId →
        Vouched around (hub.scopedTo row.cardId operation) card.data →
        allowsClaim (store.surround around) store.board (hub.scopedTo row.cardId operation)
          card.data = .ok true := by
  have rowKept := kept.rows row member
  have identity : card.data.id = row.cardId := (Board.card?_eq_some_iff.mp found).2
  have prepared : row.state = .prepared := by
    by_contra undone
    obtain ⟨stored, _⟩ := (rowKept.staged undone).1
    obtain rfl := Option.some.inj (found.symm.trans stored)
    cases ready
  obtain ⟨stored, unleased, target, status⟩ := rowKept.awaits prepared unclaimed
  obtain rfl := Option.some.inj (found.symm.trans unleased.stored)
  refine ⟨prepared, unleased.free, ?_⟩
  rcases status with blocked | ⟨_, run, current⟩
  · rw [ready] at blocked
    cases blocked
  · refine ⟨run.id, ?_⟩
    intro around hub node vouched
    have addressed : Addressed (store.surround around) (hub.scopedTo row.cardId run.id)
        card.data := by
      refine ⟨?_, ?_, ?_⟩
      · rintro id within
        rw [← Option.some.inj within, identity]
      · intro named same
        rw [target] at same
        rw [← Option.some.inj same]
        exact node.symm
      · rw [identity, surround_preparation member]
        rfl
    have passes : Vouched (store.surround around) (hub.scopedTo row.cardId run.id) card.data :=
      ⟨vouched.assigned, vouched.enlisted⟩
    obtain ⟨allowed, answered, startable⟩ := allowsClaim_of_vouched addressed passes
    rw [answered, startable.mpr]
    rintro operation within
    obtain rfl := Option.some.inj within
    refine ⟨⟨run, current.onRecord, rfl, current.card_eq.trans identity.symm, ?_, current.queued⟩,
      current.unstopped, current.unretried, ?_⟩
    · exact (rowKept.targets run current.onRecord current.card_eq).trans node.symm
    · intro old inTable ofCard _ session
      rw [identity] at ofCard
      rw [kept.recorded.unstarted old inTable (unclaimed old inTable ofCard)] at session
      cases session

/-- A ready task without a preparation is admitted to a generic worker of its computer. -/
theorem admitted_of_unprepared {card : Card} (absent : store.preparationOf card.id = none)
    (generic : hub.runScope = none)
    (target : ∀ target ∈ card.data.requiredCapabilities.targetNodeId, target = hub.node)
    (assigned : around.assignment card.data = .ok ()) :
    allowsClaim (store.surround around) store.board hub card.data = .ok true := by
  let anywhere : Session := { hub with claimScope := none }
  have same : allowsClaim (store.surround around) store.board hub card.data =
      allowsClaim (store.surround around) store.board anywhere card.data := rfl
  have addressed : Addressed (store.surround around) anywhere card.data := by
    refine ⟨nofun, target, ?_⟩
    change ((store.preparationOf card.id).map _).isSome = hub.runScope.isSome
    rw [absent, generic]
    rfl
  have vouched : Vouched (store.surround around) anywhere card.data := by
    refine ⟨assigned, ?_⟩
    change hub.runScope.isSome → _
    rw [generic]
    exact nofun
  obtain ⟨allowed, answered, startable⟩ := allowsClaim_of_vouched addressed vouched
  rw [same, answered, startable.mpr]
  intro operation within
  change hub.runScope = some operation at within
  rw [generic] at within
  cases within

/-- A take fails only when the head of the queue is withheld from the session. -/
theorem take_fails_iff (kept : store.Kept) (verified : around.verifiedOwner hub.node = .ok owner)
    (target : around.verifyTarget owner hub.node = .ok ()) :
    (∃ failure, privatePreparationTake around store hub inactive = .error failure) ↔
      ∃ row, nextPreparation store hub.node inactive = some row ∧ Withheld store hub row := by
  unfold privatePreparationTake
  simp only [verified, target, bind, Except.bind, pure, Except.pure]
  cases head : nextPreparation store hub.node inactive with
  | none => simp
  | some row =>
    obtain ⟨inTable, bound, undone⟩ := nextPreparation_mem head
    have rowKept := kept.rows row inTable
    have read := task_of_owned rowKept.owned (rowKept.staged undone).1.stored
    simp only [Option.some.injEq, exists_eq_left', read, bound]
    by_cases retired : ∃ recovery ∈ store.recoveries.rows,
        recovery.operationId = row.id ∧ recovery.retiredSession = hub.session
    · have refused : ¬ store.recoveries.rows.all (fun recovery =>
          ¬ (recovery.operationId = row.id ∧ recovery.retiredSession = hub.session)) = true := by
        rw [List.all_eq_true]
        intro passes
        obtain ⟨recovery, member, both⟩ := retired
        exact of_decide_eq_true (passes recovery member) both
      simp only [require, if_neg refused]
      exact ⟨fun _ => Or.inl retired, fun _ => ⟨_, rfl⟩⟩
    · have passed : store.recoveries.rows.all (fun recovery =>
          ¬ (recovery.operationId = row.id ∧ recovery.retiredSession = hub.session)) = true := by
        rw [List.all_eq_true]
        exact fun recovery member => decide_eq_true (fun both => retired ⟨recovery, member, both⟩)
      by_cases foreign : row.state = .claimed ∧ row.session ≠ some hub.session
      · simp only [require, if_pos passed, if_neg (not_not_intro foreign)]
        exact ⟨fun _ => Or.inr foreign, fun _ => ⟨_, rfl⟩⟩
      · simp only [require, if_pos passed, if_pos foreign, and_self, if_true]
        constructor
        · rintro ⟨_, failed⟩
          cases failed
        · rintro (gone | taken)
          · exact absurd gone retired
          · exact absurd taken foreign

/-- Preparations and their tasks agree throughout one run. -/
structure PreparedClaimable (events : List PreparationEvent) : Prop where
  unprepared : ∀ moment, ∀ row ∈ (storeAt events moment).preparations.rows,
    row.state ≠ .prepared →
    (storeAt events moment).board.card? row.cardId = some ⟨row.card, .blocked, some waiting⟩
  claimable : ∀ moment, ∀ row ∈ (storeAt events moment).preparations.rows, ∀ card,
    (storeAt events moment).board.card? row.cardId = some card → card.status = .ready →
    (∀ run ∈ (storeAt events moment).board.privateRuns.rows, run.cardId = row.cardId →
      run.state = .queued) →
    row.state = .prepared ∧ (storeAt events moment).board.lease? row.cardId = none ∧
      ∃ operation, ∀ around (hub : Session), hub.node = row.targetNodeId →
        Vouched around (hub.scopedTo row.cardId operation) card.data →
        allowsClaim ((storeAt events moment).surround around) (storeAt events moment).board
          (hub.scopedTo row.cardId operation) card.data = .ok true
  generic : ∀ moment, ∀ card ∈ (storeAt events moment).board.ready,
    (storeAt events moment).preparationOf card.id = none → ∀ around (hub : Session), hub.runScope = none →
    (∀ target ∈ card.data.requiredCapabilities.targetNodeId, target = hub.node) →
    around.assignment card.data = .ok () →
    allowsClaim ((storeAt events moment).surround around) (storeAt events moment).board hub
      card.data = .ok true
  take : ∀ moment around (hub : Session) inactive owner, around.verifiedOwner hub.node = .ok owner →
    around.verifyTarget owner hub.node = .ok () →
    ((∃ failure, privatePreparationTake around (storeAt events moment) hub inactive =
      .error failure) ↔ ∃ row,
        nextPreparation (storeAt events moment) hub.node inactive = some row ∧
          Withheld (storeAt events moment) hub row)

/-- As long as hosts leave the tasks with a preparation to it: a task whose preparation is not
done stays blocked as it was requested, a task made ready is admitted for its run, and a take
fails only when the head of the queue is withheld from its session. -/
theorem prepared_claimable (events : List PreparationEvent)
    (regular : EachStep PreparationStore.step PreparationStore.empty Regular events) :
    PreparedClaimable events := by
  constructor
  · intro moment row member undone
    exact (((kept_run regular moment).rows row member).staged undone).1.stored
  · exact fun moment row member card found ready unclaimed =>
      admitted_of_awaits (kept_run regular moment) member found ready unclaimed
  · exact fun moment card _ absent around hub generic target assigned =>
      admitted_of_unprepared absent generic target assigned
  · exact fun moment around hub inactive owner verified target =>
      take_fails_iff (kept_run regular moment) verified target

end Runs

section Examples

def PreparationOp.at (op : PreparationOp) (now : Int) : PreparationEvent :=
  ⟨op, openSurroundings, fun _ => now⟩

/-- A second task staged for the laptop. -/
def otherTask : ClaimedCard :=
  { stagedTask with
    id := 9
    key := "private-code-9"
    requiredCapabilities :=
      { stagedTask.requiredCapabilities with submission := some ⟨9, 1, "laptop", ""⟩ } }

/-- Two tasks are requested for the laptop, and one session of it takes the first. -/
def takenTask : List PreparationEvent :=
  [(PreparationOp.board (.createProject ⟨1, "P", ""⟩) (.refl false)).at 0,
    (PreparationOp.board (.enroll "laptop") (.refl false)).at 0,
    (PreparationOp.board (.stagePrivateCodeTask stagedTask) (.refl false)).at 0,
    (PreparationOp.board (.stagePrivateCodeTask otherTask) (.refl false)).at 0,
    (PreparationOp.request workerSession 21 8).at 1,
    (PreparationOp.request workerSession 22 9).at 2,
    (PreparationOp.take workerSession (fun _ => false)).at 3]

/-- The session then attests its checkout, and the owner requests a run. -/
def preparedTask : List PreparationEvent :=
  takenTask ++ [(PreparationOp.complete workerSession 21 "/work").at 4,
    (PreparationOp.board (.privateRunRequest workerSession 31 8) (.refl false)).at 5]

/-- The preparation of one task makes the taking of another's fail: it belongs to another
session of the same computer. -/
theorem take_fails_behind_task :
    ¬ ∀ (events : List PreparationEvent) (moment : Nat) (around : Surroundings) (hub : Session)
      (inactive : CardId → Bool) (owner : String),
      around.verifiedOwner hub.node = .ok owner → around.verifyTarget owner hub.node = .ok () →
      (∃ row ∈ (storeAt events moment).preparations.rows, row.targetNodeId = hub.node ∧
        row.state = .queued) →
      ∃ result, privatePreparationTake around (storeAt events moment) hub inactive =
        .ok result := by
  intro takes
  have behind : ∃ row ∈ (storeAt takenTask 7).preparations.rows,
      row.targetNodeId = "laptop" ∧ row.state = .queued := by decide
  obtain ⟨result, taken⟩ := takes takenTask 7 openSurroundings
    { workerSession with session := 3 } (fun _ => false) "owner" rfl rfl behind
  have failed : (privatePreparationTake openSurroundings (storeAt takenTask 7)
      { workerSession with session := 3 } (fun _ => false)).toOption.isNone := by decide
  rw [taken] at failed
  cases failed

/-- Both tasks of the run keep what their preparations say, up to the run of the first. -/
theorem prepared_claimable_preparedTask : PreparedClaimable preparedTask := by
  apply prepared_claimable
  have apart : ∀ event ∈ preparedTask, event.op.hosts = none := by decide
  intro count event present id hosted
  rw [apart event (List.mem_of_getElem? present)] at hosted
  cases hosted

end Examples

end OHHive.LocalHub
