import OHHive.LocalHub.DraftLoopSteps

/-! What the hub and its workers keep together: every worker's state has its strides behind it, and
so has every checkpoint that can be resumed from; the holder of a card's lease is never behind the
stored checkpoint. -/

namespace OHHive.LocalHub

open Foundation

section Calls

variable {worker : DraftWorker} {run later : CardRun} {input : Input} {answered : Bool} {op : Op}

/-- An answer of the model makes a worker call only to give its card up. -/
theorem call_infer {now : Int} {reply : Except String Inferred}
    (called : run.call worker (.infer now reply) = some op) :
    ∃ reason, op = .releaseCard run.hub run.claimed.card.id reason ∨
      op = .failCard run.hub run.claimed.card.id reason := by
  obtain ⟨hub, claimed, stage, strides⟩ := run
  cases stage with
  | looping state =>
    unfold CardRun.call at called
    dsimp only at called
    split at called
    · obtain rfl := Option.some.inj called
      exact ⟨_, Or.inl rfl⟩
    · split at called
      · obtain rfl := Option.some.inj called
        exact ⟨_, Or.inr rfl⟩
      · split at called
        · obtain rfl := Option.some.inj called
          exact ⟨_, Or.inr rfl⟩
        · cases called
  | _ => cases called

/-- A worker acts for its own session on its own card. -/
theorem worker_of_call (called : run.call worker input = some op) :
    op.worker = some (run.hub, run.claimed.card.id) := by
  obtain ⟨hub, claimed, stage, strides⟩ := run
  cases input with
  | crash => cases called
  | stop =>
    obtain rfl := Option.some.inj called
    rfl
  | tools found => cases stage <;> cases called
  | infer now reply => obtain ⟨reason, rfl | rfl⟩ := call_infer called <;> rfl
  | proceed =>
    cases stage with
    | tools => cases called
    | looping state => cases called
    | _ =>
      obtain rfl := Option.some.inj called
      rfl

/-- What a worker saves is its state, with the strides behind it. -/
theorem checkpoint_of_call {hub : Session} {id : CardId} {step : Nat} {text : String}
    {usage : Usage} (sound : run.Sound)
    (called : run.call worker input = some (.checkpoint hub id step text usage)) :
    input = .proceed ∧ step = run.stage.due ∧ ∃ state, text = worker.encodeState state ∧
      Led state run.strides ∧ state.step = step := by
  obtain ⟨session, claimed, stage, strides⟩ := run
  cases input with
  | crash => cases called
  | stop => cases called
  | tools found => cases stage <;> cases called
  | infer now reply => obtain ⟨reason, same | same⟩ := call_infer called <;> cases same
  | proceed =>
    cases stage with
    | tools => cases called
    | looping state => cases called
    | awaiting state child => cases called
    | finishing state => cases called
    | blocking state child =>
      cases called
      obtain ⟨none', led, _⟩ := sound
      have due : state.step = 0 := led.step
      refine ⟨rfl, due.symm, state, rfl, ?_, due⟩
      rw [show strides = [] from none']
      exact led
    | saving state =>
      cases called
      exact ⟨rfl, rfl, state, rfl, sound.1, rfl⟩

/-- A completion delivers the text of the last stride that wrote one. -/
theorem content_of_call {hub : Session} {id : CardId} {content : String} {model : Option String}
    {usage : Usage} (sound : run.Sound)
    (called : run.call worker input = some (.completeCard hub id content model usage)) :
    ∃ text, LastWritten run.strides (some text) ∧ content = String.ofList text := by
  obtain ⟨session, claimed, stage, strides⟩ := run
  cases input with
  | crash => cases called
  | stop => cases called
  | tools found => cases stage <;> cases called
  | infer now reply => obtain ⟨reason, same | same⟩ := call_infer called <;> cases same
  | proceed =>
    cases stage with
    | finishing state =>
      cases called
      obtain ⟨led, done⟩ := sound
      have fits := led.fits
      rw [done] at fits
      have written : strides ≠ [] := by
        intro none'
        rw [show strides = [] from none'] at fits
        exact absurd fits.1 (lt_irrefl 0)
      have last := led.draft written
      obtain ⟨before, stride, after, shape, writes, whole, critiques, text⟩ := last
      refine ⟨stride.inferred.text,
        ⟨before, stride, after, shape, writes, whole, critiques, rfl⟩, ?_⟩
      rw [text]
      rfl
    | _ => cases called

/-- The stage after a step whose text is accepted. -/
def Stage.after (state : LoopState) : Stage :=
  if state.phase = .done then .finishing state else .saving state

theorem due_after (state : LoopState) : (Stage.after state).due = state.step := by
  unfold Stage.after
  split <;> rfl

theorem sound_after {hub : Session} {claimed : Claimed} {state : LoopState}
    {strides : List Stride} (led : Led state strides)
    (unblocked : state.phase ≠ .waitingOnChild) :
    (CardRun.mk hub claimed (Stage.after state) strides).Sound := by
  unfold Stage.after CardRun.Sound
  by_cases done : state.phase = .done
  · rw [if_pos done]
    exact ⟨led, done⟩
  · rw [if_neg done]
    exact ⟨led, unblocked, done⟩

/-- A worker that goes on keeps its card, and its step does not fall. -/
theorem CardRun.Sound.next (sound : run.Sound)
    (moved : run.next worker answered input = some later) :
    later.Sound ∧ later.hub = run.hub ∧ later.claimed = run.claimed ∧
      run.stage.due ≤ later.stage.due := by
  obtain ⟨hub, claimed, stage, strides⟩ := run
  cases input with
  | crash => cases moved
  | stop => cases moved
  | tools found =>
    cases stage with
    | tools =>
      obtain rfl := Option.some.inj moved
      have tooled := (@sound_toolStage worker hub claimed found).1
      have fresh : strides = [] := sound.1
      refine ⟨?_, rfl, rfl, Nat.zero_le _⟩
      rw [fresh]
      exact tooled
    | _ =>
      obtain rfl := Option.some.inj moved
      exact ⟨sound, rfl, rfl, le_rfl⟩
  | infer now reply =>
    cases stage with
    | looping state =>
      unfold CardRun.next at moved
      dsimp only at moved
      split at moved
      · cases moved
      · cases reply with
        | error failure => cases moved
        | ok inferred =>
          dsimp only at moved
          split at moved
          · cases moved
          · rename_i uncut
            obtain rfl := Option.some.inj moved
            obtain ⟨led, unblocked, unfinished⟩ := sound
            have whole : cutOff state.phase inferred.trimmed = false := eq_false_of_ne_true uncut
            have further : Led (afterReply worker (singleStep worker.toTextWorker claimed.card) state
                inferred.trimmed) (strides ++ [Stride.mk state.phase inferred.trimmed]) :=
              led.afterReply whole unfinished unblocked
            refine ⟨sound_after further (afterReply_unblocked unblocked), rfl, rfl, ?_⟩
            change state.step ≤ (Stage.after _).due
            rw [due_after, step_afterReply]
            exact Nat.le_succ _
    | _ =>
      obtain rfl := Option.some.inj moved
      exact ⟨sound, rfl, rfl, le_rfl⟩
  | proceed =>
    cases stage with
    | blocking state child =>
      obtain rfl := Option.some.inj moved
      exact ⟨sound, rfl, rfl, le_rfl⟩
    | awaiting state child =>
      unfold CardRun.next at moved
      dsimp only at moved
      split at moved
      · cases moved
      · obtain rfl := Option.some.inj moved
        obtain ⟨none', led, waits⟩ := sound
        have drafts : Led { state with phase := .draft } strides := by
          have fits := led.fits
          rw [waits] at fits
          rw [show strides = [] from none']
          exact ⟨led.version, led.step, led.revisions, fits, fun some => absurd rfl some⟩
        exact ⟨⟨drafts, nofun, nofun⟩, rfl, rfl, le_rfl⟩
    | saving state =>
      obtain rfl := Option.some.inj moved
      exact ⟨sound, rfl, rfl, le_rfl⟩
    | finishing state => cases moved
    | _ =>
      obtain rfl := Option.some.inj moved
      exact ⟨sound, rfl, rfl, le_rfl⟩

end Calls

section Benches

variable {worker : DraftWorker} {bench : Bench} {event : Event} {seat : Seat} {run : CardRun}

/-- What the bench keeps. -/
structure Bench.Sound (worker : DraftWorker) (bench : Bench) : Prop where
  runs : ∀ {seat run}, bench.runs seat = some run → run.Sound ∧ run.hub.seat = seat
  stored : ∀ {id row state}, bench.board.checkpoints.lookup id = some row →
    readState worker row.state = some state →
    Led state (bench.saved id) ∧ row.step = state.step
  due : ∀ {seat run row}, bench.runs seat = some run →
    (bench.board.slot run.claimed.card.id).LeasedBy run.hub →
    bench.board.checkpoints.lookup run.claimed.card.id = some row → row.step ≤ run.stage.due

theorem seat_of_leases {board : Board} {hub other : Session} {id : CardId} {now : Int}
    {lease : Lease} (leased : (board.slot id).LeasedBy hub)
    (holds : HoldsLease board other id now lease) : hub.seat = other.seat := by
  obtain ⟨held, inSlot, node, session⟩ := leased
  have same : some lease = some held := holds.stored.symm.trans inSlot
  obtain rfl := Option.some.inj same
  exact Prod.ext (node.symm.trans holds.node) (session.symm.trans holds.session)

theorem not_claims {hub other : Session} {id : CardId}
    (asked : event.op.worker = some (hub, id)) : ¬ event.ClaimsFor other := by
  intro ⟨claimer, claims, _⟩
  rw [claims] at asked
  cases asked

/-- A transaction that leases no card to a worker with a card, and saves nothing for one, nor
anything that can be resumed from. -/
structure Quiet (worker : DraftWorker) (bench : Bench) (event : Event) : Prop where
  claims : ∀ {seat run}, bench.runs seat = some run → ¬ event.ClaimsFor run.hub
  saves : ∀ {hub id step text usage}, event.op = .checkpoint hub id step text usage →
    bench.runs hub.seat = none ∧ readState worker text = none

theorem Bench.Sound.quiet (sound : bench.Sound worker) (quiet : Quiet worker bench event) :
    Bench.Sound worker { bench with board := bench.board.step event } := by
  have moved := checkpoints_step event bench.board
  refine ⟨sound.runs, ?_, ?_⟩
  · intro id row state found readable
    change (bench.board.step event).checkpoints.lookup id = some row at found
    rcases moved with same | ⟨hub, other, step, text, usage, _, saves, _, _, same⟩
    · rw [same] at found
      exact sound.stored found readable
    · rw [same, lookup_saveCheckpoint] at found
      have unread := (quiet.saves saves).2
      split at found
      · split at found
        · obtain rfl := Option.some.inj found
          rw [unread] at readable
          cases readable
        · rename_i stored earlier
          split at found
          · obtain rfl := Option.some.inj found
            rw [unread] at readable
            cases readable
          · obtain rfl := Option.some.inj found
            exact sound.stored earlier readable
      · exact sound.stored found readable
  · intro seat run row working leased found
    have before := (leasedBy_step leased).resolve_right (quiet.claims working)
    change (bench.board.step event).checkpoints.lookup _ = some row at found
    rcases moved with same | ⟨hub, other, step, text, usage, lease, saves, holds, _, same⟩
    · rw [same] at found
      exact sound.due working before found
    · rw [same, lookup_saveCheckpoint] at found
      split at found
      · rename_i own
        have idle := (quiet.saves saves).1
        rw [own] at before
        rw [← seat_of_leases before holds, (sound.runs working).2, working] at idle
        cases idle
      · exact sound.due working before found

/-- A worker goes on with its card, or lets it go. -/
theorem Bench.Sound.proceed (sound : bench.Sound worker) (working : bench.runs seat = some run)
    {later? : Option CardRun} (goes : ∀ later ∈ later?, later.Sound ∧ later.hub = run.hub ∧
      later.claimed = run.claimed ∧ run.stage.due ≤ later.stage.due) :
    Bench.Sound worker { bench with runs := Function.update bench.runs seat later? } := by
  refine ⟨?_, sound.stored, ?_⟩
  · intro other later present
    change Function.update bench.runs seat later? other = some later at present
    by_cases same : other = seat
    · subst same
      rw [Function.update_self] at present
      obtain ⟨kept, hub, _⟩ := goes later present
      exact ⟨kept, hub ▸ (sound.runs working).2⟩
    · rw [Function.update_of_ne same] at present
      exact sound.runs present
  · intro other later row present leased found
    change Function.update bench.runs seat later? other = some later at present
    by_cases same : other = seat
    · subst same
      rw [Function.update_self] at present
      obtain ⟨_, hub, claimed, further⟩ := goes later present
      rw [hub, claimed] at leased
      rw [claimed] at found
      exact le_trans (sound.due working leased found) further
    · rw [Function.update_of_ne same] at present
      exact sound.due present leased found

theorem quiet_of_worker {hub : Session} {id : CardId}
    (asked : event.op.worker = some (hub, id))
    (other : ∀ hub id step text usage, event.op ≠ .checkpoint hub id step text usage) :
    Quiet worker bench event where
  claims _ := not_claims asked
  saves saves := absurd saves (other _ _ _ _ _)

theorem quiet_of_claim {hub : Session} (asked : event.op = .claimCard hub)
    (idle : bench.runs hub.seat = none) (sound : bench.Sound worker) :
    Quiet worker bench event where
  claims := by
    intro seat run working ⟨claimer, claims, node, session⟩
    rw [asked] at claims
    obtain rfl := Op.claimCard.inj claims
    have same : hub.seat = run.hub.seat := Prod.ext node session
    rw [same, (sound.runs working).2, working] at idle
    cases idle
  saves saves := by
    rw [asked] at saves
    cases saves

theorem quiet_of_permits (sound : bench.Sound worker) (permitted : bench.permits worker event) :
    Quiet worker bench event := by
  unfold Bench.permits at permitted
  constructor
  · intro seat run working ⟨claimer, claims, node, session⟩
    rw [claims] at permitted
    have same : claimer.seat = run.hub.seat := Prod.ext node session
    have idle := Option.isNone_iff_eq_none.mp permitted
    rw [same, (sound.runs working).2, working] at idle
    cases idle
  · intro hub id step text usage saves
    rw [saves, Bool.and_eq_true, Option.isNone_iff_eq_none, Option.isNone_iff_eq_none] at permitted
    exact permitted

theorem readState_encode (worker : DraftWorker) {state : LoopState}
    (current : state.version = loopStateVersion) :
    readState worker (worker.encodeState state) = some state := by
  rw [readState, worker.decode_encode]
  exact Option.filter_eq_some_iff.mpr ⟨rfl, decide_eq_true current⟩

/-- What a worker saves is stored in place of whatever was, and has its strides noted. -/
theorem Bench.Sound.saves (sound : bench.Sound worker) {hub : Session} {id : CardId} {step : Nat}
    {text : String} {usage : Usage} {input : Input} (working : bench.runs seat = some run)
    (called : run.call worker input = some (.checkpoint hub id step text usage))
    (asked : event.op = .checkpoint hub id step text usage)
    (accepted : event.accepted bench.board = true) :
    (bench.board.step event).checkpoints.lookup id = some ⟨id, step, text, usage⟩ ∧
      Bench.Sound worker
        { bench with
          board := bench.board.step event
          saved := bench.noted (bench.board.step event) run.strides event.op } := by
  obtain ⟨current, own⟩ := sound.runs working
  obtain ⟨_, due, state, rfl, led, stepped⟩ := checkpoint_of_call current called
  obtain ⟨rfl, rfl⟩ : hub = run.hub ∧ id = run.claimed.card.id := by
    have acts := worker_of_call called
    exact Prod.mk.inj (Option.some.inj acts)
  have replied : ∃ next, event.reply bench.board = .ok next := by
    unfold Event.accepted at accepted
    split at accepted
    · exact ⟨_, by assumption⟩
    · cases accepted
  obtain ⟨next, done⟩ := replied
  have moved : bench.board.step event = next := by
    rw [Board.step, done]
  rw [Event.reply, asked] at done
  obtain ⟨⟨lease, holds⟩, same⟩ := checkpoint_ok done
  have checkpoints : next.checkpoints = (saveCheckpoint bench.board
      ⟨run.claimed.card.id, step, worker.encodeState state, usage⟩).checkpoints := by
    rw [same]
    rfl
  have looked (other : CardId) : next.checkpoints.lookup other =
      if other = run.claimed.card.id then
        some ⟨run.claimed.card.id, step, worker.encodeState state, usage⟩
      else bench.board.checkpoints.lookup other := by
    rw [checkpoints, lookup_saveCheckpoint]
    by_cases mine : other = run.claimed.card.id
    · rw [if_pos mine, if_pos mine, mine]
      cases found : bench.board.checkpoints.lookup run.claimed.card.id with
      | none => rfl
      | some stored =>
        have behind := sound.due working holds.leasedBy found
        rw [← due] at behind
        exact if_pos behind
    · rw [if_neg mine, if_neg mine]
  have stored := (looked run.claimed.card.id).trans (if_pos rfl)
  rw [moved]
  refine ⟨stored, sound.runs, ?_, ?_⟩
  · intro other row found there readable
    change next.checkpoints.lookup other = some row at there
    change Led found (bench.noted next run.strides event.op other) ∧ row.step = found.step
    rw [asked, Bench.noted, if_pos stored]
    rw [looked] at there
    by_cases mine : other = run.claimed.card.id
    · rw [if_pos mine] at there
      obtain rfl := Option.some.inj there
      rw [readState_encode worker led.version] at readable
      obtain rfl := Option.some.inj readable
      rw [mine, Function.update_self]
      exact ⟨led, stepped.symm⟩
    · rw [if_neg mine] at there
      rw [Function.update_of_ne mine]
      exact sound.stored there readable
  · intro other later row present leased found
    change next.checkpoints.lookup later.claimed.card.id = some row at found
    have before : (bench.board.slot later.claimed.card.id).LeasedBy later.hub := by
      have acts : event.op.worker = some (run.hub, run.claimed.card.id) := by
        rw [asked]
        rfl
      have held : ((bench.board.step event).slot later.claimed.card.id).LeasedBy later.hub := by
        rw [moved]
        exact leased
      exact (leasedBy_step held).resolve_right (not_claims acts)
    rw [looked] at found
    by_cases mine : later.claimed.card.id = run.claimed.card.id
    · rw [if_pos mine] at found
      obtain rfl := Option.some.inj found
      rw [mine] at before
      have together := seat_of_leases before holds
      rw [(sound.runs present).2, own] at together
      rw [together, working] at present
      obtain rfl := Option.some.inj present
      exact due.le
    · rw [if_neg mine] at found
      exact sound.due present before found

end Benches

end OHHive.LocalHub
