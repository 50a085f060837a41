import OHHive.LocalHub.WorkLease

/-! The statements of workers and of the host's board. They leave the private runs alone, and an
unleased card is out of their reach unless it waits for a child. -/

namespace OHHive.LocalHub

open Foundation

section Statements

/-- One statement of a transaction on the board. It writes a card only when the card is leased or
waits for a child, and only a card whose lease it deletes is left awaiting preparation. -/
inductive Statement (board : Board) : Board → Prop
  | cards (selects : Card → Bool) (change : Card → Card) (fixed)
      (spares : ∀ card ∈ board.cards.rows, selects card = true →
        card.status = .waitingOnChild ∨ (board.lease? card.id).isSome)
      (parks : ∀ card, (change card).status = .blocked → (change card).reason ≠ some waiting) :
      Statement board (board.updateCards selects change fixed)
  | ended {id : CardId} {lease : Lease} (held : board.lease? id = some lease)
      (change : Card → Card) (fixed) : Statement board (board.giveUp id change fixed)
  | created {card : Card} {next : Board} (inserted : board.insertCard card = .ok next) :
      Statement board next
  | planned {project : Project} {projects} (added : board.projects.insert? project = some projects) :
      Statement board { board with projects }
  | leases (leases) (kept : ∀ lease ∈ leases.rows, (board.lease? lease.cardId).isSome) :
      Statement board { board with leases }
  | records (nodes outputs checkpoints childLinks) :
      Statement board { board with nodes, outputs, checkpoints, childLinks }

abbrev Statements : Board → Board → Prop := Relation.ReflTransGen Statement

variable {board next : Board} {hub : Session} {id : CardId} {clock : Nat → Int}

/-- The three tables of private runs are the same. -/
structure SameRuns (board next : Board) : Prop where
  runs : next.privateRuns = board.privateRuns
  stops : next.privateRunStops = board.privateRunStops
  retries : next.privateRunRetries = board.privateRunRetries

theorem SameRuns.refl (board : Board) : SameRuns board board := ⟨rfl, rfl, rfl⟩

theorem SameRuns.trans {first second third : Board} (before : SameRuns first second)
    (after : SameRuns second third) : SameRuns first third :=
  ⟨after.runs.trans before.runs, after.stops.trans before.stops,
    after.retries.trans before.retries⟩

theorem Statement.sameRuns (statement : Statement board next) : SameRuns board next := by
  cases statement with
  | created inserted =>
    simp only [Board.insertCard, bind_eq_ok_iff, pure_eq_ok_iff] at inserted
    obtain ⟨_, _, _, _, rfl⟩ := inserted
    exact ⟨rfl, rfl, rfl⟩
  | _ => exact ⟨rfl, rfl, rfl⟩

theorem Statements.sameRuns (statements : Statements board next) : SameRuns board next := by
  induction statements with
  | refl => exact SameRuns.refl board
  | tail _ statement ih => exact ih.trans statement.sameRuns

end Statements

section Settling

variable {board : Board}

theorem lease?_isSome {lease : Lease} (member : lease ∈ board.leases.rows) :
    (board.lease? lease.cardId).isSome := by
  rw [Board.lease?_eq_some_iff.mpr ⟨member, rfl⟩]
  rfl

theorem statement_deleteLeases (board : Board) (selects : Lease → Bool) :
    Statement board (board.deleteLeases selects) :=
  .leases _ (fun _ member => lease?_isSome (List.mem_filter.mp member).1)

theorem statement_extendLeases (board : Board) (selects : Lease → Bool) (now : Int) :
    Statement board (board.extendLeases selects now) := by
  apply Statement.leases
  intro lease member
  obtain ⟨stored, inBoard, rfl⟩ := List.mem_map.mp member
  have held := lease?_isSome inBoard
  split <;> exact held

theorem statements_expireLeases (board : Board) (expiring deleting : Int) :
    Statements board (expireLeases board expiring deleting) := by
  refine .tail (.single (.cards _ _ _ ?_ ?_)) (statement_deleteLeases _ _)
  · intro card _ selected
    obtain ⟨lease, member, matched⟩ := List.any_eq_true.mp selected
    simp only [Bool.and_eq_true, decide_eq_true_eq] at matched
    rw [← matched.1]
    exact Or.inr (lease?_isSome member)
  · intro card _
    simp only [Card.expired]
    decide

theorem statements_blockParents (rounds : Nat) (board : Board) :
    Statements board (blockParents rounds board) := by
  induction rounds generalizing board with
  | zero => exact .refl
  | succ rounds ih =>
    unfold blockParents
    split
    · refine Relation.ReflTransGen.trans (.single (.cards _ _ _ ?_ ?_)) (ih _)
      · intro card _ selected
        simp only [hasBlockedChild, Bool.and_eq_true, decide_eq_true_eq] at selected
        exact Or.inl selected.1
      · intro card _
        simp only [Card.moved]
        decide
    · exact .refl

theorem statement_resumeParents (board : Board) : Statement board (resumeParents board) := by
  apply Statement.cards
  · intro card _ selected
    simp only [childrenFinished, Bool.and_eq_true, decide_eq_true_eq] at selected
    exact Or.inl selected.1
  · intro card blocked
    cases blocked

theorem statements_settle (board : Board) (expiring deleting : Int) :
    Statements board (settle board expiring deleting) :=
  ((statements_expireLeases board expiring deleting).trans (statements_blockParents _ _)).tail
    (statement_resumeParents _)

end Settling

section Workers

variable {around : Surroundings} {board next : Board} {hub : Session} {id : CardId}
  {clock : Nat → Int}

theorem statements_endCard {reason : String} {status : CardStatus}
    (done : endCard board hub id reason status clock = .ok next) : Statements board next := by
  simp only [endCard, bind_eq_ok_iff, pure_eq_ok_iff] at done
  obtain ⟨_, owner, rfl⟩ := done
  obtain ⟨lease, holds⟩ := owns_ok owner
  exact .head (.ended holds.stored _ _) (statements_settle _ _ _)

theorem statements_wait {child : CardId}
    (done : waitOnChild board hub id child clock = .ok next) : Statements board next := by
  simp only [waitOnChild, bind_eq_ok_iff, pure_eq_ok_iff] at done
  obtain ⟨_, owner, _, _, _, _, awaited, _, rfl⟩ := done
  obtain ⟨lease, holds⟩ := owns_ok owner
  exact .head (.ended holds.stored _ _) (statements_settle _ _ _)

theorem statements_complete {content : String} {model : Option String} {usage : Usage}
    (done : completeCard board hub id content model usage clock = .ok next) :
    Statements board next := by
  rcases completeCard_ok done with ⟨_, rfl⟩ | ⟨lease, stored, _, holds, _, inserted, rfl⟩
  · exact .refl
  · have leases := leases_of_insertOutput inserted
    have held : stored.lease? id = some lease := by
      rw [Board.lease?, leases]
      exact holds.stored
    have added : Statement board stored := by
      simp only [Board.insertOutput, bind_eq_ok_iff, pure_eq_ok_iff] at inserted
      obtain ⟨outputs, _, rfl⟩ := inserted
      exact .records _ _ _ _
    exact .head added (.head (.ended held _ _) (statements_settle _ _ _))

theorem statements_checkpoint {step : Nat} {state : String} {usage : Usage}
    (done : checkpoint board hub id step state usage clock = .ok next) :
    Statements board next := by
  obtain ⟨_, rfl⟩ := checkpoint_ok done
  refine .tail (.single ?_) (statement_extendLeases _ _ _)
  unfold saveCheckpoint
  split
  · exact .records _ _ _ _
  · exact .records _ _ _ _

theorem statements_spawn {parent child : CardId} {card : ClaimedCard}
    (done : spawnChildCard board hub parent card clock = .ok (next, child)) :
    Statements board next := by
  obtain ⟨_, rfl | ⟨_, _, _, _, added, _, rfl⟩⟩ := spawnChildCard_ok done
  · exact .refl
  · exact .tail (.single (.created added)) (.records _ _ _ _)

theorem statements_stage {card : ClaimedCard}
    (done : stagePrivateCodeTask board card = .ok next) : Statements board next := by
  rcases stagePrivateCodeTask_ok done with rfl | inserted
  · exact .refl
  · exact .single (.created inserted)

end Workers

section Claims

variable {around : Surroundings} {board next : Board} {hub : Session} {clock : Nat → Int}

/-- The ready cards in the board's order. -/
def Board.ready (board : Board) : List Card :=
  board.cards.rows.filter (fun card => card.status = .ready)

theorem mem_ready {card : Card} :
    card ∈ board.ready ↔ card ∈ board.cards.rows ∧ card.status = .ready := by
  simp [Board.ready]

/-- What a claim that leases a card has checked, and where it leaves the board. -/
structure Leases (around : Surroundings) (settled next : Board) (hub : Session) (card : Card)
    (now : Int) (claimed : Claimed) : Prop where
  card_eq : claimed.card = card.data
  allowed : allowsClaim around settled hub card.data = .ok true
  leasedTo : LeasedTo settled next hub card now
  result : ∃ leases, next = startRun (Board.setStatus { settled with leases }
    (fun stored => stored.id = card.data.id) .running none) hub

theorem allowsClaim_of_eligible {caps : Capabilities} {card : ClaimedCard}
    {outputs : List (String × String)}
    (done : eligible around board hub caps card = .ok (some outputs)) :
    allowsClaim around board hub card = .ok true := by
  unfold eligible at done
  split at done
  · cases Except.ok.inj done
  · simp only [bind_eq_ok_iff] at done
    obtain ⟨allowed, checked, body⟩ := done
    cases allowed with
    | true => exact checked
    | false => simp [pure_eq_ok_iff] at body

theorem leases_of_leaseCard {settled : Board} {card : Card} {outputs : List (String × String)}
    {now : Int} {reply : Claim} (ready : card ∈ settled.ready)
    (allowed : allowsClaim around settled hub card.data = .ok true)
    (done : leaseCard settled hub card.data outputs now = .ok (next, reply)) :
    ∃ claimed, reply = .leased claimed ∧ Leases around settled next hub card now claimed := by
  obtain ⟨stored, status⟩ := mem_ready.mp ready
  have leasedTo := leaseCard_ok stored status done
  simp only [leaseCard, Board.insertLease, bind_eq_ok_iff, pure_eq_ok_iff, Prod.mk.injEq] at done
  obtain ⟨_, _, _, ⟨leases, _, rfl⟩, rfl, rfl⟩ := done
  exact ⟨_, rfl, rfl, allowed, leasedTo, leases, rfl⟩

theorem leases_of_claimFirst {settled : Board} {caps : Capabilities} {now : Int}
    {cards : List Card} {reply : Claim} (ready : ∀ card ∈ cards, card ∈ settled.ready)
    (done : claimFirst around settled hub caps now cards = .ok (next, reply)) :
    (next = settled ∧ ∀ claimed, reply ≠ .leased claimed) ∨
      ∃ card claimed, reply = .leased claimed ∧
        Leases around settled next hub card now claimed := by
  induction cards with
  | nil =>
    obtain ⟨rfl, rfl⟩ := Prod.mk.inj (Except.ok.inj done)
    exact Or.inl ⟨rfl, by simp⟩
  | cons card rest ih =>
    simp only [claimFirst, bind_eq_ok_iff] at done
    obtain ⟨outputs, checked, body⟩ := done
    cases outputs with
    | none => exact ih (fun other member => ready other (List.mem_cons_of_mem _ member)) body
    | some outputs =>
      have allowed := allowsClaim_of_eligible checked
      exact Or.inr ⟨card, leases_of_leaseCard (ready card List.mem_cons_self) allowed body⟩

/-- A claim only settles the board, or leases one ready card that its session may claim. -/
theorem leases_of_claimCard {reply : Claim}
    (done : claimCard around board hub clock = .ok (next, reply)) :
    (next = settle board (clock 0) (clock 1) ∧ ∀ claimed, reply ≠ .leased claimed) ∨
      ∃ card claimed, reply = .leased claimed ∧
        Leases around (settle board (clock 0) (clock 1)) next hub card (clock 2) claimed := by
  simp only [claimCard, bind_eq_ok_iff] at done
  obtain ⟨node, _, body⟩ := done
  split at body
  · unfold claimSettled at body
    split at body
    · obtain ⟨rfl, rfl⟩ := Prod.mk.inj (Except.ok.inj body)
      exact Or.inl ⟨rfl, by simp⟩
    · exact leases_of_claimFirst (fun card member => member) body
  · obtain ⟨rfl, rfl⟩ := Prod.mk.inj (Except.ok.inj body)
    exact Or.inl ⟨rfl, by simp⟩

end Claims

section Acts

variable {around : Surroundings} {board next : Board} {hub : Session} {clock : Nat → Int}

/-- The report on a run is about its row and its card. -/
structure Reports (board : Board) (operation : OperationId) (receipt : PrivateRunStatus)
    (run : PrivateRun) (card : Card) : Prop where
  found : board.privateRuns.lookup operation = some run
  onBoard : board.card? run.cardId = some card
  operation_eq : receipt.operationId = operation
  task_eq : receipt.taskId = run.cardId
  target_eq : receipt.targetNodeId = run.targetNodeId
  stops : receipt.stopRequested =
    board.privateRunStops.rows.any (fun stop => stop.operationId = operation)
  state_eq : receipt.state = reportedState run card.status receipt.leaseActive
    receipt.stopRequested
    (board.privateRunRetries.rows.any (fun retry => retry.previousId = operation))

theorem reports_of_runStatus {operation : OperationId} {now : Int} {receipt : PrivateRunStatus}
    (read : runStatus board operation now = .ok receipt) :
    ∃ run card, Reports board operation receipt run card := by
  simp only [runStatus, bind_eq_ok_iff, orFail_eq_ok_iff, pure_eq_ok_iff] at read
  obtain ⟨run, found, card, stored, rfl⟩ := read
  exact ⟨run, card, found, stored, rfl, rfl, rfl, rfl, rfl⟩

/-- A new run of a prepared task that has none. -/
structure RunRequested (around : Surroundings) (board next : Board) (operation : OperationId)
    (task : CardId) (run : PrivateRun) (privateRuns) : Prop where
  id_eq : run.id = operation
  card_eq : run.cardId = task
  queued : run.state = .queued
  unclaimed : run.session = none
  prepared : ∃ preparation, around.preparation task = some preparation ∧
    preparation.prepared = true ∧ run.targetNodeId = preparation.targetNodeId
  awaiting : ∃ card, board.card? task = some card ∧ card.status = .blocked ∧
    card.reason = some "awaiting_private_run"
  unleased : board.lease? task = none
  first : ∀ other ∈ board.privateRuns.rows, other.cardId ≠ task
  stored : board.privateRuns.insert? run = some privateRuns
  next_eq : next =
    Board.setStatus { board with privateRuns } (fun card => card.id = task) .ready none

/-- A run is requested once; the same request again changes nothing. -/
theorem privateRunRequest_ok {operation : OperationId} {task : CardId}
    (done : privateRunRequest around board hub operation task clock = .ok next) :
    (board.privateRuns.lookup operation).isSome ∧ next = board ∨
      ∃ run privateRuns, RunRequested around board next operation task run privateRuns := by
  simp only [privateRunRequest, bind_eq_ok_iff, orFail_eq_ok_iff] at done
  obtain ⟨_, _, _, _, preparation, prepares, _, _, body⟩ := done
  split at body
  · rename_i found
    simp only [bind_eq_ok_iff, pure_eq_ok_iff] at body
    obtain ⟨_, _, _, _, rfl⟩ := body
    exact Or.inl ⟨by rw [found]; rfl, rfl⟩
  · simp only [bind_eq_ok_iff, require_eq_ok_iff, exists_const, orFail_eq_ok_iff,
      pure_eq_ok_iff] at body
    obtain ⟨⟨prepared, waits, unleased, first⟩, privateRuns, stored, rfl⟩ := body
    obtain ⟨card, member, matched⟩ := List.any_eq_true.mp waits
    simp only [Bool.and_eq_true, decide_eq_true_eq] at matched
    obtain ⟨⟨same, blocked⟩, reason⟩ := matched
    refine Or.inr ⟨_, privateRuns, rfl, rfl, rfl, rfl, ⟨preparation, prepares, prepared, rfl⟩,
      ⟨card, Board.card?_eq_some_iff.mpr ⟨member, same⟩, blocked, reason⟩,
      Board.lease?_eq_none_iff.mpr (by simpa using unleased), by simpa using first, stored, rfl⟩

/-- What a stop leaves: the stop is on record, and the card is no longer ready. -/
structure RunStopped (board next : Board) (operation : OperationId) (run : PrivateRun)
    (privateRunStops : Table PrivateRunStop (Table.SameKey PrivateRunStop.operationId)) : Prop where
  found : board.privateRuns.lookup operation = some run
  only : ∀ stop ∈ privateRunStops.rows, stop ∈ board.privateRunStops.rows ∨
    stop.operationId = operation
  kept : ∀ stop ∈ board.privateRunStops.rows, stop ∈ privateRunStops.rows
  recorded : ∃ stop ∈ privateRunStops.rows, stop.operationId = operation
  next_eq : next = Board.setStatus { board with privateRunStops }
    (fun card => card.id = run.cardId && card.status = .ready) .blocked
    (some "private_run_stopped")

theorem privateRunStop_ok {operation : OperationId}
    (done : privateRunStop around board hub operation clock = .ok next) :
    next = board ∨ ∃ run privateRunStops, RunStopped board next operation run privateRunStops := by
  simp only [privateRunStop, bind_eq_ok_iff] at done
  obtain ⟨_, _, receipt, read, _, _, body⟩ := done
  obtain ⟨run, card, reports⟩ := reports_of_runStatus read
  split at body
  · obtain rfl := Except.ok.inj body
    exact Or.inl rfl
  · obtain rfl := Except.ok.inj body
    rw [reports.task_eq]
    cases added : board.privateRunStops.insert? ⟨operation, hub.node, clock 1⟩ with
    | some stops =>
      have rows := Table.rows_of_insert? added
      refine Or.inr ⟨run, stops, reports.found, ?_, ?_, ?_, rfl⟩
      · intro stop member
        rw [rows, List.mem_append, List.mem_singleton] at member
        exact member.imp_right (fun same => by rw [same])
      · intro stop member
        rw [rows]
        exact List.mem_append_left _ member
      · exact ⟨_, by rw [rows]; exact List.mem_append_right _ (List.mem_singleton.mpr rfl), rfl⟩
    | none =>
      have clash : ¬ board.privateRunStops.Fits ⟨operation, hub.node, clock 1⟩ := by
        intro fits
        simp [Table.insert?, fits] at added
      refine Or.inr ⟨run, board.privateRunStops, reports.found, fun stop member => Or.inl member,
        fun stop member => member, ?_, rfl⟩
      simpa [Table.Fits] using clash

/-- A new attempt after one that is over: the earlier run is retired in favour of the next. -/
structure RunRetried (board next : Board) (previous later : OperationId) (prior run : PrivateRun)
    (retry : PrivateRunRetry) (privateRuns privateRunRetries) : Prop where
  found : board.privateRuns.lookup previous = some prior
  current : ∀ other ∈ board.privateRunRetries.rows, other.previousId ≠ previous
  id_eq : run.id = later
  card_eq : run.cardId = prior.cardId
  target_eq : run.targetNodeId = prior.targetNodeId
  queued : run.state = .queued
  unclaimed : run.session = none
  previous_eq : retry.previousId = previous
  next_eq : retry.nextId = later
  runs : board.privateRuns.insert? run = some privateRuns
  retries : board.privateRunRetries.insert? retry = some privateRunRetries
  result : ∃ now, next = Board.setStatus
    (Board.deleteLeases { board with privateRuns, privateRunRetries }
      (fun lease => lease.cardId = prior.cardId && lease.expires ≤ now))
    (fun card => card.id = prior.cardId) .blocked (some "awaiting_retry_validation")

/-- A run is retried once; the same retry again changes nothing. -/
theorem privateRunRetry_ok {previous later : OperationId}
    (done : privateRunRetry around board hub previous later clock = .ok next) :
    (∃ retry ∈ board.privateRunRetries.rows, retry.previousId = previous ∧
      retry.nextId = later ∧ next = board) ∨
    ∃ prior run retry privateRuns privateRunRetries,
      RunRetried board next previous later prior run retry privateRuns privateRunRetries := by
  simp only [privateRunRetry, bind_eq_ok_iff] at done
  obtain ⟨_, _, _, _, receipt, read, _, _, body⟩ := done
  obtain ⟨prior, card, reports⟩ := reports_of_runStatus read
  split at body
  · rename_i retry found
    simp only [bind_eq_ok_iff, require_eq_ok_iff, exists_const, pure_eq_ok_iff] at body
    obtain ⟨same, rfl⟩ := body
    exact Or.inl ⟨retry, List.mem_of_find?_eq_some found,
      by simpa using List.find?_some found, same, rfl⟩
  · rename_i absent
    simp only [bind_eq_ok_iff, require_eq_ok_iff, exists_const, orFail_eq_ok_iff,
      pure_eq_ok_iff] at body
    obtain ⟨_, _, privateRuns, runs, privateRunRetries, retries, rfl⟩ := body
    refine Or.inr ⟨prior, _, _, privateRuns, privateRunRetries, reports.found, ?_, rfl,
      reports.task_eq, reports.target_eq, rfl, rfl, rfl, rfl, runs, retries, clock 4, ?_⟩
    · simpa using absent
    · rw [reports.task_eq]

/-- The target's attestation of a retry makes the card ready for it. -/
structure RunReadied (board next : Board) (operation : OperationId) (run : PrivateRun) :
    Prop where
  found : board.privateRuns.lookup operation = some run
  queued : run.state = .queued
  unstopped : ∀ stop ∈ board.privateRunStops.rows, stop.operationId ≠ operation
  current : ∀ retry ∈ board.privateRunRetries.rows, retry.previousId ≠ operation
  next_eq : next = board.setStatus (fun card => card.id = run.cardId && card.status = .blocked &&
    card.reason = some "awaiting_retry_validation") .ready none

theorem reportedState_queued {run : PrivateRun} {task : CardStatus}
    {leaseActive stopRequested superseded : Bool}
    (queued : reportedState run task leaseActive stopRequested superseded = .queued) :
    run.state = .queued ∧ superseded = false := by
  unfold reportedState at queued
  cases superseded with
  | true => simp at queued
  | false =>
    refine ⟨?_, rfl⟩
    cases state : run.state with
    | queued => rfl
    | running =>
      simp only [state, Bool.false_eq_true, if_false] at queued
      split at queued
      · split at queued <;> cases queued
      · cases task <;> cases leaseActive <;> simp at queued

theorem privateRunReady_ok {operation : OperationId}
    (done : privateRunReady around board hub operation clock = .ok next) :
    ∃ run, RunReadied board next operation run := by
  simp only [privateRunReady, bind_eq_ok_iff, require_eq_ok_iff, exists_const,
    pure_eq_ok_iff] at done
  obtain ⟨_, _, receipt, read, _, _, ⟨_, queued, unstopped⟩, rfl⟩ := done
  obtain ⟨run, card, reports⟩ := reports_of_runStatus read
  rw [reports.state_eq] at queued
  obtain ⟨state, current⟩ := reportedState_queued queued
  rw [reports.stops] at unstopped
  refine ⟨run, reports.found, state, ?_, ?_, by rw [reports.task_eq]⟩
  · simpa using unstopped
  · simpa using current

end Acts

section Steps

variable {board : Board}

/-- The owner's acts on a staged task and on its runs. -/
def Op.isOwners : Op → Bool
  | .privateRunRequest .. | .privateRunStop .. | .privateRunRetry .. | .privateRunReady .. |
    .publishPrivateCodeTask .. | .retryPrivateCodeTask .. | .completePreparation .. => true
  | _ => false

/-- Every other transaction than the owner's acts is made of statements, but for the lease of a
claim. -/
theorem statements_step (event : Event) (board : Board) (others : event.op.isOwners = false) :
    Statements board (board.step event) ∨
      ∃ hub card claimed, event.op = .claimCard hub ∧
        Leases event.around (settle board (event.clock 0) (event.clock 1)) (board.step event) hub
          card (event.clock 2) claimed := by
  unfold Board.step
  split
  · rename_i next done
    unfold Event.reply at done
    cases asked : event.op with
    | createProject project =>
      simp only [asked, Op.perform, createProject, bind_eq_ok_iff, orFail_eq_ok_iff,
        pure_eq_ok_iff] at done
      obtain ⟨projects, added, rfl⟩ := done
      exact Or.inl (.single (.planned added))
    | enroll node =>
      simp only [asked, Op.perform, enroll, bind_eq_ok_iff, pure_eq_ok_iff] at done
      obtain ⟨_, _, rfl⟩ := done
      exact Or.inl (.single (.records _ _ _ _))
    | checkIn hub caps =>
      rw [asked] at done
      obtain rfl := Except.ok.inj done
      exact Or.inl (.single (.records _ _ _ _))
    | checkOut hub =>
      rw [asked] at done
      obtain rfl := Except.ok.inj done
      exact Or.inl (.single (.records _ _ _ _))
    | addCard card =>
      simp only [asked, Op.perform, addCard, bind_eq_ok_iff] at done
      obtain ⟨_, _, inserted⟩ := done
      exact Or.inl (.single (.created inserted))
    | settle =>
      rw [asked] at done
      obtain rfl := Except.ok.inj done
      exact Or.inl (statements_settle _ _ _)
    | claimCard hub =>
      rw [asked] at done
      obtain ⟨reply, claimed⟩ := ok_of_map done
      rcases leases_of_claimCard claimed with ⟨rfl, _⟩ | ⟨card, claimed, _, leases⟩
      · exact Or.inl (statements_settle _ _ _)
      · exact Or.inr ⟨hub, card, claimed, rfl, leases⟩
    | heartbeat hub =>
      rw [asked] at done
      obtain rfl := Except.ok.inj done
      exact Or.inl ((statements_settle _ _ _).tail (statement_extendLeases _ _ _))
    | checkpoint hub card step state usage =>
      rw [asked] at done
      exact Or.inl (statements_checkpoint done)
    | completeCard hub card content model usage =>
      rw [asked] at done
      exact Or.inl (statements_complete done)
    | failCard hub card reason =>
      rw [asked] at done
      exact Or.inl (statements_endCard done)
    | releaseCard hub card reason =>
      simp only [asked, Op.perform, releaseCard, bind_eq_ok_iff] at done
      obtain ⟨_, _, ended⟩ := done
      exact Or.inl (statements_endCard ended)
    | spawnChildCard hub parent child =>
      rw [asked] at done
      obtain ⟨reply, spawned⟩ := ok_of_map done
      exact Or.inl (statements_spawn spawned)
    | waitOnChild hub card child =>
      rw [asked] at done
      exact Or.inl (statements_wait done)
    | stagePrivateCodeTask card =>
      rw [asked] at done
      exact Or.inl (statements_stage done)
    | _ =>
      rw [asked] at others
      cases others
  · exact Or.inl .refl

end Steps

end OHHive.LocalHub
