import OHHive.Foundation.Chain
import OHHive.LocalHub.Admission

/-! Private runs keep their identity: a card's runs form one chain of retries, a run starts and is
leased once, and a run that was stopped or retried is not claimed again. -/

namespace OHHive.LocalHub

open Foundation

variable {board next : Board}

section Moves

/-- A claim for the run starts it, when it is still queued. -/
def PrivateRun.start (operation : OperationId) (session : SessionId) (run : PrivateRun) :
    PrivateRun :=
  if run.id = operation && run.state = .queued then
    { run with state := .running, session := some session } else run

theorem PrivateRun.start_id (operation : OperationId) (session : SessionId) (run : PrivateRun) :
    (run.start operation session).id = run.id := by
  unfold PrivateRun.start
  split <;> rfl

theorem PrivateRun.start_cardId (operation : OperationId) (session : SessionId)
    (run : PrivateRun) : (run.start operation session).cardId = run.cardId := by
  unfold PrivateRun.start
  split <;> rfl

theorem PrivateRun.start_target (operation : OperationId) (session : SessionId)
    (run : PrivateRun) : (run.start operation session).targetNodeId = run.targetNodeId := by
  unfold PrivateRun.start
  split <;> rfl

theorem PrivateRun.start_running {operation : OperationId} {session : SessionId}
    {run : PrivateRun} (running : run.state = .running) :
    (run.start operation session).state = .running := by
  unfold PrivateRun.start
  split
  · rfl
  · exact running

/-- What a transaction does to the tables of private runs. -/
inductive RunMove (event : Event) (board : Board) : Board → Prop
  | kept {next : Board} (same : SameRuns board next) : RunMove event board next
  | started {next : Board} (hub : Session) (operation : OperationId) (card : ClaimedCard)
      (asked : event.op = .claimCard hub) (scope : hub.runScope = some operation)
      (startable : Startable board hub card operation)
      (runs : next.privateRuns.rows =
        board.privateRuns.rows.map (PrivateRun.start operation hub.session))
      (stops : next.privateRunStops = board.privateRunStops)
      (retries : next.privateRunRetries = board.privateRunRetries) : RunMove event board next
  | requested {next : Board} (run : PrivateRun)
      (first : ∀ other ∈ board.privateRuns.rows, other.cardId ≠ run.cardId)
      (queued : run.state = .queued) (unclaimed : run.session = none)
      (stored : board.privateRuns.insert? run = some next.privateRuns)
      (onBoard : (board.card? run.cardId).isSome)
      (prepared : (event.around.preparation run.cardId).isSome)
      (stops : next.privateRunStops = board.privateRunStops)
      (retries : next.privateRunRetries = board.privateRunRetries) : RunMove event board next
  | stopped {next : Board} (runs : next.privateRuns = board.privateRuns)
      (kept : ∀ stop ∈ board.privateRunStops.rows, stop ∈ next.privateRunStops.rows)
      (only : ∀ stop ∈ next.privateRunStops.rows, stop ∈ board.privateRunStops.rows ∨
        (board.privateRuns.lookup stop.operationId).isSome)
      (retries : next.privateRunRetries = board.privateRunRetries) : RunMove event board next
  | retried {next : Board} (prior run : PrivateRun) (retry : PrivateRunRetry)
      (found : board.privateRuns.lookup retry.previousId = some prior)
      (current : ∀ other ∈ board.privateRunRetries.rows, other.previousId ≠ retry.previousId)
      (same : run.id = retry.nextId) (card : run.cardId = prior.cardId)
      (target : run.targetNodeId = prior.targetNodeId) (queued : run.state = .queued)
      (unclaimed : run.session = none)
      (stored : board.privateRuns.insert? run = some next.privateRuns)
      (stops : next.privateRunStops = board.privateRunStops)
      (recorded : board.privateRunRetries.insert? retry = some next.privateRunRetries) :
      RunMove event board next

theorem Startable.of_sameRuns {hub : Session} {card : ClaimedCard} {operation : OperationId}
    (same : SameRuns board next) (startable : Startable next hub card operation) :
    Startable board hub card operation := by
  obtain ⟨queued, unstopped, current, fresh⟩ := startable
  rw [same.runs] at queued fresh
  rw [same.stops] at unstopped
  rw [same.retries] at current
  exact ⟨queued, unstopped, current, fresh⟩

/-- A session that is admitted for an explicit run may start that run. -/
theorem startable_of_allowsClaim {around : Surroundings} {hub : Session} {card : ClaimedCard}
    {operation : OperationId} (scope : hub.runScope = some operation)
    (allowed : allowsClaim around board hub card = .ok true) :
    Startable board hub card operation := by
  unfold allowsClaim at allowed
  rw [scope] at allowed
  split at allowed
  · cases Except.ok.inj allowed
  · cases remote : around.preparation card.id with
    | none =>
      rw [remote] at allowed
      cases Except.ok.inj allowed
    | some preparation =>
      rw [remote] at allowed
      simp only [bind_eq_ok_iff, pure_eq_ok_iff] at allowed
      obtain ⟨_, _, _, _, _, _, admitted⟩ := allowed
      exact startable_iff.mp admitted

theorem runMove_of_startRun {event : Event} {hub : Session} {card : ClaimedCard}
    {running : Board} (asked : event.op = .claimCard hub) (same : SameRuns board running)
    (startable : ∀ operation, hub.runScope = some operation →
      Startable board hub card operation) : RunMove event board (startRun running hub) := by
  unfold startRun
  split
  · exact .kept same
  · rename_i operation scope
    refine .started hub operation card asked scope (startable operation scope) ?_ same.stops
      same.retries
    rw [Table.rows_updateWhere, same.runs]
    rfl

/-- Every transaction keeps the runs, or starts, requests, stops or retries one. -/
theorem runMove_step (event : Event) (board : Board) :
    RunMove event board (board.step event) := by
  cases owners : event.op.isOwners with
  | false =>
    rcases statements_step event board owners with statements | ⟨hub, card, _, asked, leases⟩
    · exact .kept statements.sameRuns
    · have same := (statements_settle board (event.clock 0) (event.clock 1)).sameRuns
      have startable : ∀ operation, hub.runScope = some operation →
          Startable board hub card.data operation := by
        intro operation scope
        exact (startable_of_allowsClaim scope leases.allowed).of_sameRuns same
      obtain ⟨stored, result⟩ := leases.result
      rw [result]
      exact runMove_of_startRun asked ⟨same.runs, same.stops, same.retries⟩ startable
  | true =>
    unfold Board.step
    split
    · rename_i next done
      unfold Event.reply at done
      cases asked : event.op with
      | privateRunRequest hub operation task =>
        rw [asked] at done
        rcases privateRunRequest_ok done with ⟨_, rfl⟩ | ⟨run, privateRuns, requested⟩
        · exact .kept (SameRuns.refl _)
        · obtain ⟨card, stored, _⟩ := requested.awaiting
          rw [requested.next_eq]
          refine .requested run ?_ requested.queued requested.unclaimed requested.stored ?_ ?_ rfl rfl
          · rw [requested.card_eq]
            exact requested.first
          · rw [requested.card_eq, stored]
            rfl
          · obtain ⟨preparation, prepares, _⟩ := requested.prepared
            rw [requested.card_eq, prepares]
            rfl
      | privateRunStop hub operation =>
        rw [asked] at done
        rcases privateRunStop_ok done with rfl | ⟨run, stops, stopped⟩
        · exact .kept (SameRuns.refl _)
        · rw [stopped.next_eq]
          refine .stopped rfl stopped.kept ?_ rfl
          intro stop member
          refine (stopped.only stop member).imp_right (fun same => ?_)
          rw [same, stopped.found]
          rfl
      | privateRunRetry hub previous later =>
        rw [asked] at done
        rcases privateRunRetry_ok done with
          ⟨_, _, _, _, rfl⟩ | ⟨prior, run, retry, runs, retries, retried⟩
        · exact .kept (SameRuns.refl _)
        · obtain ⟨now, rfl⟩ := retried.result
          refine .retried prior run retry ?_ ?_ ?_ retried.card_eq retried.target_eq
            retried.queued retried.unclaimed retried.runs rfl retried.retries
          · rw [retried.previous_eq]
            exact retried.found
          · rw [retried.previous_eq]
            exact retried.current
          · rw [retried.id_eq, retried.next_eq]
      | privateRunReady hub operation =>
        rw [asked] at done
        obtain ⟨run, readied⟩ := privateRunReady_ok done
        rw [readied.next_eq]
        exact .kept ⟨rfl, rfl, rfl⟩
      | publishPrivateCodeTask id node read workspace =>
        simp only [asked, Op.perform, publishPrivateCodeTask, bind_eq_ok_iff,
          pure_eq_ok_iff] at done
        obtain ⟨_, _, _, _, rfl⟩ := done
        exact .kept ⟨rfl, rfl, rfl⟩
      | retryPrivateCodeTask id node read =>
        simp only [asked, Op.perform, retryPrivateCodeTask, bind_eq_ok_iff,
          pure_eq_ok_iff] at done
        obtain ⟨_, _, _, _, rfl⟩ := done
        exact .kept ⟨rfl, rfl, rfl⟩
      | completePreparation id workspace =>
        simp only [asked, Op.perform, completePreparation, bind_eq_ok_iff,
          pure_eq_ok_iff] at done
        obtain ⟨_, _, _, _, rfl⟩ := done
        exact .kept ⟨rfl, rfl, rfl⟩
      | _ =>
        rw [asked] at owners
        cases owners
    · exact .kept (SameRuns.refl _)

end Moves

section Growth

/-- Runs, stops and retries stay on record: a run keeps its card and its target, and once it runs
it runs for good. -/
structure Grows (board next : Board) : Prop where
  runs : ∀ operation run, board.privateRuns.lookup operation = some run →
    ∃ later, next.privateRuns.lookup operation = some later ∧ later.cardId = run.cardId ∧
      later.targetNodeId = run.targetNodeId ∧ (run.state = .running → later.state = .running)
  stops : ∀ stop ∈ board.privateRunStops.rows, stop ∈ next.privateRunStops.rows
  retries : ∀ retry ∈ board.privateRunRetries.rows, retry ∈ next.privateRunRetries.rows

theorem Grows.refl (board : Board) : Grows board board :=
  ⟨fun _ run found => ⟨run, found, rfl, rfl, id⟩, fun _ member => member, fun _ member => member⟩

theorem Grows.trans {first second third : Board} (before : Grows first second)
    (after : Grows second third) : Grows first third := by
  refine ⟨?_, fun stop member => after.stops stop (before.stops stop member),
    fun retry member => after.retries retry (before.retries retry member)⟩
  intro operation run found
  obtain ⟨middle, stored, card, target, running⟩ := before.runs operation run found
  obtain ⟨later, kept, cardLater, targetLater, runningLater⟩ := after.runs operation middle stored
  exact ⟨later, kept, cardLater.trans card, targetLater.trans target,
    fun state => runningLater (running state)⟩

/-- A new run leaves the others as they are. -/
theorem lookup_of_insert {run other : PrivateRun} {privateRuns} {operation : OperationId}
    (stored : board.privateRuns.insert? run = some privateRuns)
    (found : board.privateRuns.lookup operation = some other) :
    privateRuns.lookup operation = some other := by
  rw [Table.lookup_insert? stored, if_neg, found]
  intro same
  obtain ⟨fits, _⟩ := Table.insert?_eq_some_iff.mp stored
  refine fits other (Table.mem_of_lookup found) ?_
  exact (Table.key_of_lookup found).trans same.symm

theorem mem_of_insert {retry other : PrivateRunRetry} {retries}
    (recorded : board.privateRunRetries.insert? retry = some retries)
    (member : other ∈ board.privateRunRetries.rows) : other ∈ retries.rows := by
  rw [Table.rows_of_insert? recorded]
  exact List.mem_append_left _ member

theorem RunMove.grows {event : Event} (move : RunMove event board next) : Grows board next := by
  cases move with
  | kept same =>
    obtain ⟨runs, stops, retries⟩ := same
    refine ⟨?_, by rw [stops]; exact fun _ member => member,
      by rw [retries]; exact fun _ member => member⟩
    rw [runs]
    exact fun _ run found => ⟨run, found, rfl, rfl, id⟩
  | started hub operation card asked scope startable runs stops retries =>
    refine ⟨?_, by rw [stops]; exact fun _ member => member,
      by rw [retries]; exact fun _ member => member⟩
    intro wanted run found
    obtain ⟨member, same⟩ := (Table.lookup_eq_some_iff _ _ _).mp found
    have stored : run.start operation hub.session ∈ next.privateRuns.rows := by
      rw [runs]
      exact List.mem_map_of_mem member
    refine ⟨_, (Table.lookup_eq_some_iff _ _ _).mpr ⟨stored, ?_⟩, run.start_cardId _ _,
      run.start_target _ _, PrivateRun.start_running⟩
    rw [run.start_id, same]
  | requested run first queued unclaimed stored onBoard prepared stops retries =>
    refine ⟨?_, by rw [stops]; exact fun _ member => member,
      by rw [retries]; exact fun _ member => member⟩
    exact fun _ other found => ⟨other, lookup_of_insert stored found, rfl, rfl, id⟩
  | stopped runs kept only retries =>
    refine ⟨?_, kept, by rw [retries]; exact fun _ member => member⟩
    rw [runs]
    exact fun _ run found => ⟨run, found, rfl, rfl, id⟩
  | retried prior run retry found current same card target queued unclaimed stored stops recorded =>
    refine ⟨?_, by rw [stops]; exact fun _ member => member,
      fun other member => mem_of_insert recorded member⟩
    exact fun _ other found => ⟨other, lookup_of_insert stored found, rfl, rfl, id⟩

theorem grows_run (events : List Event) {first second : Nat} (ordered : first ≤ second) :
    Grows (boardAt events first) (boardAt events second) :=
  stateAt_relates Board.step Board.empty Grows Grows.refl (fun _ _ _ => Grows.trans)
    (fun board event => (runMove_step event board).grows) events ordered

end Growth

section Chains

/-- The runs of a card, first to last. -/
def runsOf (board : Board) (card : CardId) : List OperationId :=
  (board.privateRuns.rows.filter (fun run => run.cardId = card)).map PrivateRun.id

/-- The retries of a card's runs: each with the run it retired and the run it created. -/
def retriesOf (board : Board) (card : CardId) : List (OperationId × OperationId) :=
  (board.privateRunRetries.rows.filter (fun retry => retry.previousId ∈ runsOf board card)).map
    (fun retry => (retry.previousId, retry.nextId))

/-- A card's retries lead from its first run to its last, one by one. -/
structure Chained (board : Board) : Prop where
  linear : ∀ card, retriesOf board card = links (runsOf board card)
  rooted : ∀ retry ∈ board.privateRunRetries.rows,
    (board.privateRuns.lookup retry.previousId).isSome

theorem mem_runsOf {card : CardId} {operation : OperationId} :
    operation ∈ runsOf board card ↔
      ∃ run, board.privateRuns.lookup operation = some run ∧ run.cardId = card := by
  simp only [runsOf, List.mem_map, List.mem_filter, decide_eq_true_eq, Table.lookup_eq_some_iff]
  constructor
  · rintro ⟨run, ⟨member, same⟩, rfl⟩
    exact ⟨run, ⟨member, rfl⟩, same⟩
  · rintro ⟨run, ⟨member, rfl⟩, same⟩
    exact ⟨run, ⟨member, same⟩, rfl⟩

theorem mem_retriesOf {card : CardId} {previous later : OperationId} :
    (previous, later) ∈ retriesOf board card ↔
      previous ∈ runsOf board card ∧ ∃ retry ∈ board.privateRunRetries.rows,
        retry.previousId = previous ∧ retry.nextId = later := by
  simp only [retriesOf, List.mem_map, List.mem_filter, decide_eq_true_eq, Prod.mk.injEq]
  constructor
  · rintro ⟨retry, ⟨member, inChain⟩, rfl, rfl⟩
    exact ⟨inChain, retry, member, rfl, rfl⟩
  · rintro ⟨inChain, retry, member, rfl, rfl⟩
    exact ⟨retry, ⟨member, inChain⟩, rfl, rfl⟩

/-- A new run comes last among the runs of its card. -/
theorem runsOf_insert {run : PrivateRun}
    (stored : board.privateRuns.insert? run = some next.privateRuns) (card : CardId) :
    runsOf next card = runsOf board card ++ if run.cardId = card then [run.id] else [] := by
  rw [runsOf, Table.rows_of_insert? stored, List.filter_append, List.map_append]
  by_cases same : run.cardId = card
  · simp [runsOf, same]
  · simp [runsOf, same]

theorem runsOf_start {operation : OperationId} {session : SessionId}
    (runs : next.privateRuns.rows = board.privateRuns.rows.map (PrivateRun.start operation session))
    (card : CardId) : runsOf next card = runsOf board card := by
  rw [runsOf, runs, List.filter_map, List.map_map]
  simp only [Function.comp_def, PrivateRun.start_cardId, PrivateRun.start_id]
  rfl

/-- Retries only look at the identities of runs. -/
theorem retriesOf_congr {card : CardId} (retries : next.privateRunRetries = board.privateRunRetries)
    (same : ∀ retry ∈ board.privateRunRetries.rows,
      retry.previousId ∈ runsOf next card ↔ retry.previousId ∈ runsOf board card) :
    retriesOf next card = retriesOf board card := by
  rw [retriesOf, retriesOf, retries]
  congr 1
  apply List.filter_congr
  intro retry member
  simp only [same retry member]

/-- The identity of a new run is not that of a run on record. -/
theorem absent_of_insert {run : PrivateRun} {privateRuns}
    (stored : board.privateRuns.insert? run = some privateRuns) :
    board.privateRuns.lookup run.id = none := by
  obtain ⟨fits, _⟩ := Table.insert?_eq_some_iff.mp stored
  exact (Table.lookup_eq_none_iff _ _).mpr (fun other member same => fits other member same)

theorem Chained.of_requested {run : PrivateRun} (chained : Chained board)
    (first : ∀ other ∈ board.privateRuns.rows, other.cardId ≠ run.cardId)
    (stored : board.privateRuns.insert? run = some next.privateRuns)
    (retries : next.privateRunRetries = board.privateRunRetries) : Chained next := by
  have fresh : ∀ retry ∈ board.privateRunRetries.rows, retry.previousId ≠ run.id := by
    intro retry member same
    have rooted := chained.rooted retry member
    rw [same, absent_of_insert stored] at rooted
    cases rooted
  constructor
  · intro card
    have kept : retriesOf next card = retriesOf board card := by
      apply retriesOf_congr retries
      intro retry member
      rw [runsOf_insert stored]
      by_cases same : run.cardId = card <;> simp [same, fresh retry member]
    rw [kept, chained.linear, runsOf_insert stored]
    by_cases same : run.cardId = card
    · have none : runsOf board card = [] := by
        simp only [runsOf, List.map_eq_nil_iff, List.filter_eq_nil_iff, decide_eq_true_eq]
        exact fun other member ofCard => first other member (ofCard.trans same.symm)
      rw [none, if_pos same]
      rfl
    · rw [if_neg same, List.append_nil]
  · intro retry member
    rw [retries] at member
    obtain ⟨prior, found⟩ := Option.isSome_iff_exists.mp (chained.rooted retry member)
    rw [lookup_of_insert stored found]
    rfl

theorem Chained.of_retried {prior run : PrivateRun} {retry : PrivateRunRetry}
    (chained : Chained board) (found : board.privateRuns.lookup retry.previousId = some prior)
    (current : ∀ other ∈ board.privateRunRetries.rows, other.previousId ≠ retry.previousId)
    (same : run.id = retry.nextId) (ofCard : run.cardId = prior.cardId)
    (stored : board.privateRuns.insert? run = some next.privateRuns)
    (recorded : board.privateRunRetries.insert? retry = some next.privateRunRetries) :
    Chained next := by
  have rows := Table.rows_of_insert? recorded
  have fresh : ∀ other ∈ board.privateRunRetries.rows, other.previousId ≠ run.id := by
    intro other member equal
    have rooted := chained.rooted other member
    rw [equal, absent_of_insert stored] at rooted
    cases rooted
  have distinct : retry.previousId ≠ run.id := by
    intro equal
    rw [equal, absent_of_insert stored] at found
    cases found
  constructor
  · intro card
    have old : (board.privateRunRetries.rows.filter (fun other =>
        other.previousId ∈ runsOf next card)).map (fun other => (other.previousId, other.nextId)) =
        retriesOf board card := by
      rw [retriesOf]
      congr 1
      apply List.filter_congr
      intro other member
      rw [runsOf_insert stored]
      by_cases equal : run.cardId = card <;> simp [equal, fresh other member]
    rw [retriesOf, rows, List.filter_append, List.map_append, old, chained.linear]
    by_cases equal : prior.cardId = card
    · have member : retry.previousId ∈ runsOf board card := mem_runsOf.mpr ⟨prior, found, equal⟩
      have last : (runsOf board card).getLast? = some retry.previousId := by
        apply getLast?_of_no_successor member
        intro later linked
        rw [← chained.linear, mem_retriesOf] at linked
        obtain ⟨_, other, otherMember, again, _⟩ := linked
        exact current other otherMember again
      have inNext : retry.previousId ∈ runsOf next card := by
        rw [runsOf_insert stored]
        exact List.mem_append_left _ member
      rw [List.filter_singleton, decide_eq_true inNext, runsOf_insert stored, if_pos (ofCard.trans equal),
        links_concat last]
      simp [same]
    · have outside : retry.previousId ∉ runsOf next card := by
        rw [runsOf_insert stored, if_neg (fun other => equal (ofCard.symm.trans other)),
          List.append_nil, mem_runsOf]
        rintro ⟨other, otherFound, otherCard⟩
        obtain rfl := Option.some.inj (found.symm.trans otherFound)
        exact equal otherCard
      rw [List.filter_singleton, decide_eq_false outside, runsOf_insert stored,
        if_neg (fun other => equal (ofCard.symm.trans other))]
      simp
  · intro other member
    rw [rows, List.mem_append, List.mem_singleton] at member
    rcases member with earlier | rfl
    · obtain ⟨stays, kept⟩ := Option.isSome_iff_exists.mp (chained.rooted other earlier)
      rw [lookup_of_insert stored kept]
      rfl
    · rw [lookup_of_insert stored found]
      rfl

theorem RunMove.chained {event : Event} (move : RunMove event board next)
    (chained : Chained board) : Chained next := by
  cases move with
  | kept same =>
    obtain ⟨runs, _, retries⟩ := same
    refine ⟨?_, by rw [runs, retries]; exact chained.rooted⟩
    intro card
    have sameRuns : runsOf next card = runsOf board card := by rw [runsOf, runs]; rfl
    rw [retriesOf_congr retries (fun _ _ => by rw [sameRuns]), sameRuns]
    exact chained.linear card
  | started hub operation card asked scope startable runs stops retries =>
    constructor
    · intro card
      have sameRuns := runsOf_start runs card
      rw [retriesOf_congr retries (fun _ _ => by rw [sameRuns]), sameRuns]
      exact chained.linear card
    · intro retry member
      rw [retries] at member
      obtain ⟨run, found⟩ := Option.isSome_iff_exists.mp (chained.rooted retry member)
      obtain ⟨later, stored, _⟩ := (RunMove.started hub operation card asked scope startable runs
        stops retries).grows.runs _ run found
      rw [stored]
      rfl
  | requested run first queued unclaimed stored onBoard prepared stops retries =>
    exact chained.of_requested first stored retries
  | stopped runs kept only retries =>
    refine ⟨?_, by rw [runs, retries]; exact chained.rooted⟩
    intro card
    have sameRuns : runsOf next card = runsOf board card := by rw [runsOf, runs]; rfl
    rw [retriesOf_congr retries (fun _ _ => by rw [sameRuns]), sameRuns]
    exact chained.linear card
  | retried prior run retry found current same card target queued unclaimed stored stops recorded =>
    exact chained.of_retried found current same card stored recorded

theorem chained_run (events : List Event) (moment : Nat) : Chained (boardAt events moment) :=
  stateAt_invariant Board.step Board.empty events Chained
    ⟨fun _ => rfl, fun _ member => nomatch member⟩
    (fun board event _ chained => (runMove_step event board).chained chained) moment

end Chains

section Records

variable {event : Event}

/-- What runs, stops and retries refer to is on record: the card of a run, the run of a stop, and
the two runs of a retry, which are attempts at the same work. A queued run has no session yet. -/
structure Recorded (board : Board) : Prop where
  carded : ∀ run ∈ board.privateRuns.rows, (board.card? run.cardId).isSome
  unstarted : ∀ run ∈ board.privateRuns.rows, run.state = .queued → run.session = none
  halted : ∀ stop ∈ board.privateRunStops.rows,
    (board.privateRuns.lookup stop.operationId).isSome
  related : ∀ retry ∈ board.privateRunRetries.rows, ∃ prior run,
    board.privateRuns.lookup retry.previousId = some prior ∧
      board.privateRuns.lookup retry.nextId = some run ∧ run.cardId = prior.cardId ∧
        run.targetNodeId = prior.targetNodeId

theorem SlotMove.card_kept {before after : Slot} (move : SlotMove event board before after)
    (stored : before.card.isSome) : after.card.isSome := by
  cases move with
  | expired card lease output => simpa using stored
  | ended card later lease output opens kept => exact kept.trans stored
  | completed card lease output accepted => simpa using stored
  | _ => first | exact stored | rfl

theorem card_kept_step {id : CardId} (stored : (board.card? id).isSome) :
    ((board.step event).card? id).isSome := by
  have moves := slotMoves_step event board id
  change (board.slot id).card.isSome at stored
  change ((board.step event).slot id).card.isSome
  generalize (board.step event).slot id = after at moves
  induction moves with
  | refl => exact stored
  | tail _ move ih => exact move.card_kept ih

theorem RunMove.carded (move : RunMove event board next)
    (carded : ∀ run ∈ board.privateRuns.rows, (board.card? run.cardId).isSome) :
    ∀ run ∈ next.privateRuns.rows, (board.card? run.cardId).isSome := by
  cases move with
  | kept same =>
    rw [same.runs]
    exact carded
  | started hub operation card asked scope startable runs stops retries =>
    rw [runs]
    intro run member
    obtain ⟨stored, inBoard, rfl⟩ := List.mem_map.mp member
    rw [stored.start_cardId]
    exact carded stored inBoard
  | requested run first queued unclaimed stored onBoard prepared stops retries =>
    rw [Table.rows_of_insert? stored]
    intro other member
    rcases List.mem_append.mp member with earlier | added
    · exact carded other earlier
    · rw [List.mem_singleton.mp added]
      exact onBoard
  | stopped runs kept only retries =>
    rw [runs]
    exact carded
  | retried prior run retry found current same card target queued unclaimed stored stops recorded =>
    rw [Table.rows_of_insert? stored]
    intro other member
    rcases List.mem_append.mp member with earlier | added
    · exact carded other earlier
    · rw [List.mem_singleton.mp added, card]
      exact carded prior (Table.mem_of_lookup found)

theorem RunMove.unstarted (move : RunMove event board next)
    (unstarted : ∀ run ∈ board.privateRuns.rows, run.state = .queued → run.session = none) :
    ∀ run ∈ next.privateRuns.rows, run.state = .queued → run.session = none := by
  cases move with
  | kept same =>
    rw [same.runs]
    exact unstarted
  | started hub operation card asked scope startable runs stops retries =>
    rw [runs]
    intro run member queued
    obtain ⟨stored, inBoard, rfl⟩ := List.mem_map.mp member
    unfold PrivateRun.start at queued ⊢
    split
    · rename_i starts
      rw [if_pos starts] at queued
      cases queued
    · rename_i other
      rw [if_neg other] at queued
      exact unstarted stored inBoard queued
  | requested run first queued unclaimed stored onBoard prepared stops retries =>
    rw [Table.rows_of_insert? stored]
    intro other member state
    rcases List.mem_append.mp member with earlier | added
    · exact unstarted other earlier state
    · rw [List.mem_singleton.mp added]
      exact unclaimed
  | stopped runs kept only retries =>
    rw [runs]
    exact unstarted
  | retried prior run retry found current same card target queued unclaimed stored stops recorded =>
    rw [Table.rows_of_insert? stored]
    intro other member state
    rcases List.mem_append.mp member with earlier | added
    · exact unstarted other earlier state
    · rw [List.mem_singleton.mp added]
      exact unclaimed

/-- A stop is on record for a run that is on record. -/
theorem RunMove.halted (move : RunMove event board next) {stop : PrivateRunStop}
    (member : stop ∈ next.privateRunStops.rows) :
    stop ∈ board.privateRunStops.rows ∨ (board.privateRuns.lookup stop.operationId).isSome := by
  cases move with
  | kept same => exact Or.inl (by rwa [same.stops] at member)
  | started hub operation card asked scope startable runs stops retries =>
    exact Or.inl (by rwa [stops] at member)
  | requested run first queued unclaimed stored onBoard prepared stops retries =>
    exact Or.inl (by rwa [stops] at member)
  | stopped runs kept only retries => exact only stop member
  | retried prior run retry found current same card target queued unclaimed stored stops recorded =>
    exact Or.inl (by rwa [stops] at member)

theorem RunMove.related (move : RunMove event board next) {retry : PrivateRunRetry}
    (member : retry ∈ next.privateRunRetries.rows) :
    retry ∈ board.privateRunRetries.rows ∨ ∃ prior run,
      next.privateRuns.lookup retry.previousId = some prior ∧
        next.privateRuns.lookup retry.nextId = some run ∧ run.cardId = prior.cardId ∧
          run.targetNodeId = prior.targetNodeId := by
  cases move with
  | kept same => exact Or.inl (by rwa [same.retries] at member)
  | started hub operation card asked scope startable runs stops retries =>
    exact Or.inl (by rwa [retries] at member)
  | requested run first queued unclaimed stored onBoard prepared stops retries =>
    exact Or.inl (by rwa [retries] at member)
  | stopped runs kept only retries => exact Or.inl (by rwa [retries] at member)
  | retried prior run added found current same card target queued unclaimed stored stops recorded =>
    rw [Table.rows_of_insert? recorded, List.mem_append, List.mem_singleton] at member
    rcases member with earlier | rfl
    · exact Or.inl earlier
    · refine Or.inr ⟨prior, run, lookup_of_insert stored found, ?_, card, target⟩
      rw [Table.lookup_insert? stored, if_pos same]

theorem recorded_step (event : Event) (recorded : Recorded board) :
    Recorded (board.step event) := by
  have move := runMove_step event board
  constructor
  · intro run member
    exact card_kept_step (move.carded recorded.carded run member)
  · exact move.unstarted recorded.unstarted
  · intro stop member
    have known : (board.privateRuns.lookup stop.operationId).isSome := by
      rcases move.halted member with earlier | known
      · exact recorded.halted stop earlier
      · exact known
    obtain ⟨run, found⟩ := Option.isSome_iff_exists.mp known
    obtain ⟨later, kept, _⟩ := move.grows.runs _ run found
    rw [kept]
    rfl
  · intro retry member
    rcases move.related member with earlier | related
    · obtain ⟨prior, run, priorFound, runFound, card, target⟩ := recorded.related retry earlier
      obtain ⟨prior', priorKept, priorCard, priorTarget, _⟩ := move.grows.runs _ _ priorFound
      obtain ⟨run', runKept, runCard, runTarget, _⟩ := move.grows.runs _ _ runFound
      exact ⟨prior', run', priorKept, runKept, (runCard.trans card).trans priorCard.symm,
        (runTarget.trans target).trans priorTarget.symm⟩
    · exact related

theorem recorded_run (events : List Event) (moment : Nat) : Recorded (boardAt events moment) :=
  stateAt_invariant Board.step Board.empty events Recorded
    ⟨fun _ member => (nomatch member), fun _ member => (nomatch member),
      fun _ member => (nomatch member), fun _ member => (nomatch member)⟩
    (fun _ event _ recorded => recorded_step event recorded) moment

end Records

section Retries

variable {around : Surroundings} {hub : Session} {clock : Nat → Int}
  {previous later : OperationId}

/-- The reply of a retry: the status of the run that takes over. -/
def privateRunRetryReply (around : Surroundings) (board : Board) (hub : Session)
    (previous later : OperationId) (clock : Nat → Int) : Result (Board × PrivateRunStatus) := do
  let retried ← privateRunRetry around board hub previous later clock
  let receipt ← runStatus retried later (clock 5)
  pure (retried, receipt)

/-- The status of a run on record can be read. -/
theorem exists_runStatus (recorded : Recorded board) {run : PrivateRun} {operation : OperationId}
    (found : board.privateRuns.lookup operation = some run) (now : Int) :
    ∃ receipt, runStatus board operation now = .ok receipt ∧ receipt.operationId = operation ∧
      receipt.taskId = run.cardId ∧ receipt.targetNodeId = run.targetNodeId := by
  obtain ⟨card, stored⟩ :=
    Option.isSome_iff_exists.mp (recorded.carded run (Table.mem_of_lookup found))
  simp only [runStatus, found, stored, orFail, bind, Except.bind, pure, Except.pure]
  exact ⟨_, rfl, rfl, rfl, rfl⟩

/-- A retry that is granted names two different runs, and is on record afterwards. -/
theorem retry_recorded
    (done : privateRunRetry around board hub previous later clock = .ok next) :
    later ≠ 0 ∧ later ≠ previous ∧ ∃ retry ∈ next.privateRunRetries.rows,
      retry.previousId = previous ∧ retry.nextId = later := by
  have named : later ≠ 0 ∧ later ≠ previous := by
    simp only [privateRunRetry, bind_eq_ok_iff, require_eq_ok_iff, exists_const] at done
    exact done.1
  refine ⟨named.1, named.2, ?_⟩
  rcases privateRunRetry_ok done with
    ⟨retry, member, same, onward, rfl⟩ | ⟨prior, run, retry, runs, retries, retried⟩
  · exact ⟨retry, member, same, onward⟩
  · obtain ⟨now, rfl⟩ := retried.result
    refine ⟨retry, ?_, retried.previous_eq, retried.next_eq⟩
    change retry ∈ retries.rows
    rw [Table.rows_of_insert? retried.retries]
    exact List.mem_append_right _ (List.mem_singleton.mpr rfl)

theorem find?_retry {retry : PrivateRunRetry} (member : retry ∈ board.privateRunRetries.rows) :
    board.privateRunRetries.rows.find? (fun other => other.previousId = retry.previousId) =
      some retry :=
  (board.privateRunRetries.find?_eq_some_iff (fun _ _ clash => clash.imp Eq.symm Eq.symm)
    PrivateRunRetry.previousId (fun _ _ => Or.inl) _ _).mpr ⟨member, rfl⟩

/-- The same retry again creates nothing, and is answered with the run created the first time. -/
theorem retry_again (recorded : Recorded board) {retry : PrivateRunRetry}
    (member : retry ∈ board.privateRunRetries.rows) (named : retry.nextId ≠ 0)
    (different : retry.nextId ≠ retry.previousId) {run : PrivateRun}
    (found : board.privateRuns.lookup retry.nextId = some run) {owner : String}
    (verified : around.verifiedOwner hub.node = .ok owner)
    (target : around.verifyTarget owner run.targetNodeId = .ok ()) :
    ∃ receipt, privateRunRetryReply around board hub retry.previousId retry.nextId clock =
        .ok (board, receipt) ∧ receipt.operationId = retry.nextId ∧
      receipt.taskId = run.cardId ∧ receipt.targetNodeId = run.targetNodeId := by
  obtain ⟨prior, other, priorFound, otherFound, card, sameTarget⟩ := recorded.related retry member
  obtain rfl := Option.some.inj (found.symm.trans otherFound)
  obtain ⟨receipt, read, _, _, priorTarget⟩ := exists_runStatus recorded priorFound (clock 0)
  obtain ⟨again, readAgain, operation, task, runTarget⟩ :=
    exists_runStatus recorded found (clock 5)
  rw [sameTarget, ← priorTarget] at target
  refine ⟨again, ?_, operation, task, runTarget⟩
  simp only [privateRunRetryReply, privateRunRetry, require, if_pos (And.intro named different),
    verified, read, target, find?_retry member, if_true, readAgain, bind, Except.bind, pure,
    Except.pure]

/-- Any other retry of the same run is refused. -/
theorem retry_other {retry : PrivateRunRetry} (member : retry ∈ board.privateRunRetries.rows)
    (other : later ≠ retry.nextId) :
    ∃ failure, privateRunRetry around board hub retry.previousId later clock =
      .error failure := by
  cases done : privateRunRetry around board hub retry.previousId later clock with
  | error failure => exact ⟨failure, rfl⟩
  | ok next =>
    rcases privateRunRetry_ok done with
      ⟨stored, inBoard, same, onward, _⟩ | ⟨prior, run, stored, runs, retries, retried⟩
    · have equal := board.privateRunRetries.eq_of_clash
        (fun _ _ clash => clash.imp Eq.symm Eq.symm) inBoard member (Or.inl same)
      rw [equal] at onward
      exact absurd onward.symm other
    · exact absurd rfl (retried.current retry member)

end Retries

section Runs

variable {events : List Event} {moment : Nat} {operation : OperationId}

/-- A run whose retry is on record. -/
def superseded (board : Board) (operation : OperationId) : Bool :=
  board.privateRunRetries.rows.any (fun retry => retry.previousId = operation)

/-- The run leaves the queue in this step. -/
def StartsAt (events : List Event) (moment : Nat) (operation : OperationId) : Prop :=
  ∃ before after, (boardAt events moment).privateRuns.lookup operation = some before ∧
    before.state = .queued ∧
    (boardAt events (moment + 1)).privateRuns.lookup operation = some after ∧
    after.state = .running

/-- A claim for the run gets a lease in this step. -/
def LeasesAt (events : List Event) (moment : Nat) (operation : OperationId) : Prop :=
  ∃ event hub next claimed, events[moment]? = some event ∧ event.op = .claimCard hub ∧
    hub.runScope = some operation ∧
    claimCard event.around (boardAt events moment) hub event.clock = .ok (next, .leased claimed)

/-- A retry is granted in this step, with this status of the run that takes over. -/
def RetriesAt (events : List Event) (moment : Nat) (previous later : OperationId)
    (receipt : PrivateRunStatus) : Prop :=
  ∃ event hub next, events[moment]? = some event ∧
    event.op = .privateRunRetry hub previous later ∧
    privateRunRetryReply event.around (boardAt events moment) hub previous later event.clock =
      .ok (next, receipt)

/-- The identities of private runs throughout one run of the hub. -/
structure RunIdentity (events : List Event) : Prop where
  one_current : ∀ moment card, (boardAt events moment).privateRuns.rows.countP (fun run =>
    run.cardId = card && !superseded (boardAt events moment) run.id) ≤ 1
  starts_once : ∀ first second operation, StartsAt events first operation →
    StartsAt events second operation → first = second
  leases_once : ∀ first second operation, LeasesAt events first operation →
    LeasesAt events second operation → first = second
  retired : ∀ first second, first ≤ second → ∀ operation,
    ((∃ stop ∈ (boardAt events first).privateRunStops.rows, stop.operationId = operation) ∨
      superseded (boardAt events first) operation = true) →
    ∀ around hub clock, hub.runScope = some operation → ∀ next claimed,
      claimCard around (boardAt events second) hub clock ≠ .ok (next, .leased claimed)
  linear : ∀ moment card,
    retriesOf (boardAt events moment) card = links (runsOf (boardAt events moment) card)
  repeated : ∀ first second, first < second → ∀ previous later receipt,
    RetriesAt events first previous later receipt → ∀ around hub clock owner,
    around.verifiedOwner hub.node = .ok owner →
    around.verifyTarget owner receipt.targetNodeId = .ok () →
    ∃ again, privateRunRetryReply around (boardAt events second) hub previous later clock =
        .ok (boardAt events second, again) ∧ again.operationId = receipt.operationId ∧
      again.taskId = receipt.taskId ∧ again.targetNodeId = receipt.targetNodeId
  refused : ∀ first second, first < second → ∀ previous later receipt,
    RetriesAt events first previous later receipt → ∀ other, other ≠ later →
    ∀ around hub clock, ∃ failure,
      privateRunRetry around (boardAt events second) hub previous other clock = .error failure

theorem one_current_of_chained {board : Board} (chained : Chained board) (card : CardId) :
    board.privateRuns.rows.countP (fun run =>
      run.cardId = card && !superseded board run.id) ≤ 1 := by
  have last : ∀ run ∈ board.privateRuns.rows,
      (decide (run.cardId = card) && !superseded board run.id) = true →
      (runsOf board card).getLast? = some run.id := by
    intro run member selected
    simp only [Bool.and_eq_true, decide_eq_true_eq, Bool.not_eq_true', superseded,
      List.any_eq_false] at selected
    obtain ⟨same, current⟩ := selected
    have inChain : run.id ∈ runsOf board card :=
      mem_runsOf.mpr ⟨run, (Table.lookup_eq_some_iff _ _ _).mpr ⟨member, rfl⟩, same⟩
    apply getLast?_of_no_successor inChain
    intro later linked
    rw [← chained.linear, mem_retriesOf] at linked
    obtain ⟨_, retry, recorded, again, _⟩ := linked
    exact current retry recorded again
  apply board.privateRuns.countP_le_one_of_clash
  intro first firstMember second secondMember firstSelected secondSelected
  exact Option.some.inj ((last first firstMember firstSelected).symm.trans
    (last second secondMember secondSelected))

theorem not_startsAt_of_started {first second : Nat} (ordered : first < second)
    (starts : StartsAt events first operation) : ¬ StartsAt events second operation := by
  rintro ⟨before, _, found, queued, _, _⟩
  obtain ⟨_, after, _, _, stored, running⟩ := starts
  obtain ⟨later, kept, _, _, still⟩ := (grows_run events ordered).runs _ _ stored
  obtain rfl := Option.some.inj (found.symm.trans kept)
  rw [still running] at queued
  cases queued

theorem startable_of_leased {around : Surroundings} {board next : Board} {hub : Session}
    {clock : Nat → Int} {claimed : Claimed} (scope : hub.runScope = some operation)
    (done : claimCard around board hub clock = .ok (next, .leased claimed)) :
    (∃ card, Startable board hub card operation) ∧
      next.privateRuns.rows = board.privateRuns.rows.map (PrivateRun.start operation hub.session) := by
  rcases leases_of_claimCard done with ⟨_, unleased⟩ | ⟨card, _, _, leases⟩
  · exact absurd rfl (unleased claimed)
  · have same := (statements_settle board (clock 0) (clock 1)).sameRuns
    refine ⟨⟨card.data, (startable_of_allowsClaim scope leases.allowed).of_sameRuns same⟩, ?_⟩
    obtain ⟨stored, rfl⟩ := leases.result
    simp only [startRun, scope, Table.rows_updateWhere]
    change (settle board (clock 0) (clock 1)).privateRuns.rows.map _ = _
    rw [same.runs]
    rfl

theorem startsAt_of_leasesAt (leases : LeasesAt events moment operation) :
    StartsAt events moment operation := by
  obtain ⟨event, hub, next, claimed, present, asked, scope, done⟩ := leases
  obtain ⟨⟨card, startable⟩, runs⟩ := startable_of_leased scope done
  obtain ⟨run, member, same, _, _, queued⟩ := startable.queued
  have stepped : boardAt events (moment + 1) = next := by
    rw [boardAt, stateAt_succ Board.step Board.empty present, Board.step, Event.reply, asked]
    simp only [Op.perform, done]
    rfl
  refine ⟨run, run.start operation hub.session,
    (Table.lookup_eq_some_iff _ _ _).mpr ⟨member, same⟩, queued, ?_, ?_⟩
  · rw [stepped]
    refine (Table.lookup_eq_some_iff _ _ _).mpr ⟨?_, (run.start_id _ _).trans same⟩
    rw [runs]
    exact List.mem_map_of_mem member
  · simp [PrivateRun.start, same, queued]

theorem recorded_of_retriesAt {previous later : OperationId} {receipt : PrivateRunStatus}
    (retries : RetriesAt events moment previous later receipt) :
    later ≠ 0 ∧ later ≠ previous ∧ (∃ retry ∈ (boardAt events (moment + 1)).privateRunRetries.rows,
      retry.previousId = previous ∧ retry.nextId = later) ∧
    ∃ run, (boardAt events (moment + 1)).privateRuns.lookup later = some run ∧
      receipt.operationId = later ∧ receipt.taskId = run.cardId ∧
        receipt.targetNodeId = run.targetNodeId := by
  obtain ⟨event, hub, next, present, asked, done⟩ := retries
  simp only [privateRunRetryReply, bind_eq_ok_iff, pure_eq_ok_iff, Prod.mk.injEq] at done
  obtain ⟨after, retried, status, read, rfl, rfl⟩ := done
  obtain ⟨run, card, reports⟩ := reports_of_runStatus read
  obtain ⟨named, different, recorded⟩ := retry_recorded retried
  have stepped : boardAt events (moment + 1) = after := by
    rw [boardAt, stateAt_succ Board.step Board.empty present, Board.step, Event.reply, asked]
    simp only [Op.perform, retried]
  rw [stepped]
  exact ⟨named, different, recorded, run, reports.found, reports.operation_eq, reports.task_eq,
    reports.target_eq⟩

/-- Every card has one run that is not retired, every run starts once and is leased once, a
stopped or retired run is never claimed again, a card's retries form one chain, and a repeated
retry is answered with the run it created the first time. -/
theorem run_identity (events : List Event) : RunIdentity events := by
  have starts : ∀ first second operation, StartsAt events first operation →
      StartsAt events second operation → first = second := by
    intro first second operation before after
    rcases Nat.lt_trichotomy first second with earlier | same | later
    · exact absurd after (not_startsAt_of_started earlier before)
    · exact same
    · exact absurd before (not_startsAt_of_started later after)
  constructor
  · exact fun moment card => one_current_of_chained (chained_run events moment) card
  · exact starts
  · exact fun first second operation before after => starts first second operation
      (startsAt_of_leasesAt before) (startsAt_of_leasesAt after)
  · intro first second ordered operation retired around hub clock scope next claimed done
    obtain ⟨⟨card, startable⟩, _⟩ := startable_of_leased scope done
    have grows := grows_run events ordered
    rcases retired with ⟨stop, member, same⟩ | superseded
    · exact startable.unstopped stop (grows.stops stop member) same
    · obtain ⟨retry, member, same⟩ := List.any_eq_true.mp superseded
      exact startable.current retry (grows.retries retry member) (of_decide_eq_true same)
  · exact fun moment card => (chained_run events moment).linear card
  · intro first second ordered previous later receipt retries around hub clock owner verified target
    obtain ⟨named, different, ⟨retry, member, rfl, rfl⟩, run, found, operation, task, sameTarget⟩ :=
      recorded_of_retriesAt retries
    have grows := grows_run events ordered
    obtain ⟨kept, stored, card, keptTarget, _⟩ := grows.runs _ _ found
    rw [sameTarget, ← keptTarget] at target
    have answered : ∃ again, privateRunRetryReply around (boardAt events second) hub
        retry.previousId retry.nextId clock = .ok (boardAt events second, again) ∧
        again.operationId = retry.nextId ∧ again.taskId = kept.cardId ∧
        again.targetNodeId = kept.targetNodeId :=
      retry_again (recorded_run events second) (grows.retries retry member) named different stored
        verified target
    obtain ⟨again, reply, sameOperation, sameTask, againTarget⟩ := answered
    refine ⟨again, reply, sameOperation.trans operation.symm, ?_, ?_⟩
    · rw [sameTask, task, card]
    · rw [againTarget, sameTarget, keptTarget]
  · intro first second ordered previous later receipt retries other different around hub clock
    obtain ⟨_, _, ⟨retry, member, rfl, rfl⟩, _⟩ := recorded_of_retriesAt retries
    exact retry_other ((grows_run events ordered).retries retry member) different

end Runs

end OHHive.LocalHub
