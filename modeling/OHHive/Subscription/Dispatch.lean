import OHHive.Foundation.Permit
import OHHive.Subscription.Runner

/-! A turn is sent at most once, whoever runs it and whatever crashes. -/

namespace OHHive.Subscription

open Foundation

section Turns

variable {journal next : Journal} {focus key : TurnKey} {before after : Option Turn}

/-- The turn was committed for dispatch. -/
def Journal.Marked (journal : Journal) (key : TurnKey) : Prop :=
  ∃ turn, journal.turn? key = some turn ∧ turn.state ≠ .prepared

/-- What no transaction takes from a turn. -/
structure Turn.Keeps (turn later : Turn) : Prop where
  inputHash : later.inputHash = turn.inputHash
  marked : turn.state ≠ .prepared → later.state ≠ .prepared
  terminal : turn.state.isPending = false → later = turn
  provider : ∀ id, turn.record.providerTurn = some id → later.record.providerTurn = some id

theorem Turn.Keeps.refl (turn : Turn) : turn.Keeps turn :=
  ⟨rfl, id, fun _ => rfl, fun _ same => same⟩

theorem Turn.Keeps.trans {first second third : Turn} (before : first.Keeps second)
    (after : second.Keeps third) : first.Keeps third := by
  refine ⟨after.inputHash.trans before.inputHash, fun marked => after.marked (before.marked marked),
    ?_, fun id same => after.provider id (before.provider id same)⟩
  intro terminal
  have same := before.terminal terminal
  subst same
  exact after.terminal terminal

private theorem pending_of_sent {turn : Turn} (sent : turn.state.isSent = true) :
    turn.state.isPending = true := by
  cases state : turn.state <;> simp_all [TurnState.isSent, TurnState.isPending]

private theorem provider_same {turn : Turn} {id other : String}
    (same : turn.record.otherTurn id = false) (recorded : turn.record.providerTurn = some other) :
    id = other := by
  simp only [TurnRecord.otherTurn, recorded, Option.any_some, decide_eq_false_iff_not,
    ne_eq, not_not] at same
  exact same.symm

theorem TurnMove.keeps {turn : Turn} (move : TurnMove journal focus key (some turn) after) :
    ∃ later, after = some later ∧ turn.Keeps later := by
  cases move with
  | kept => exact ⟨turn, rfl, .refl turn⟩
  | dispatched _ state =>
    refine ⟨_, rfl, rfl, nofun, ?_, fun _ same => same⟩
    intro terminal
    rw [state] at terminal
    cases terminal
  | lost _ state =>
    refine ⟨_, rfl, rfl, nofun, ?_, fun _ same => same⟩
    intro terminal
    rw [state] at terminal
    cases terminal
  | acknowledged _ id sent same =>
    refine ⟨_, rfl, rfl, fun marked => marked, ?_, ?_⟩
    · intro terminal
      rw [pending_of_sent sent] at terminal
      cases terminal
    · intro other recorded
      exact congrArg some (provider_same same recorded)
  | finished _ state id receipt sent same terminalState =>
    refine ⟨_, rfl, rfl, ?_, ?_, ?_⟩
    · intro _ prepared
      have turned : state = .prepared := prepared
      rw [turned] at terminalState
      cases terminalState
    · intro terminal
      rw [pending_of_sent sent] at terminal
      cases terminal
    · intro other recorded
      exact congrArg some (provider_same same recorded)

/-- An unresolved turn was unresolved before, or it is new in an idle session. -/
theorem TurnMove.pending {later : Turn} (move : TurnMove journal focus key before (some later))
    (pending : later.state.isPending = true) :
    (∃ turn, before = some turn ∧ turn.state.isPending = true) ∨
      key = focus ∧ ∀ turn ∈ journal.turns.rows, turn.key.session = key.session →
        turn.state.isPending = false := by
  cases move with
  | kept => exact Or.inl ⟨later, rfl, pending⟩
  | prepared _ same free => exact Or.inr ⟨same, free⟩
  | dispatched turn state => exact Or.inl ⟨turn, rfl, by rw [state]; rfl⟩
  | lost turn state => exact Or.inl ⟨turn, rfl, by rw [state]; rfl⟩
  | acknowledged turn _ sent => exact Or.inl ⟨turn, rfl, pending_of_sent sent⟩
  | finished turn _ _ _ sent => exact Or.inl ⟨turn, rfl, pending_of_sent sent⟩

theorem turn?_eq_some_iff {turn : Turn} :
    journal.turn? key = some turn ↔ turn ∈ journal.turns.rows ∧ turn.key = key :=
  journal.turns.lookup_eq_some_iff key turn

/-- A session has at most one unresolved turn. -/
def Journal.OnePending (journal : Journal) : Prop :=
  ∀ first ∈ journal.turns.rows, ∀ second ∈ journal.turns.rows,
    first.key.session = second.key.session → first.state.isPending = true →
    second.state.isPending = true → first.key = second.key

theorem onePending_move (move : JournalMove journal next) (one : journal.OnePending) :
    next.OnePending := by
  obtain ⟨focus, turns⟩ := move.turns
  intro first firstMember second secondMember session firstPending secondPending
  have firstMove := turns first.key
  have secondMove := turns second.key
  rw [turn?_eq_some_iff.mpr ⟨firstMember, rfl⟩] at firstMove
  rw [turn?_eq_some_iff.mpr ⟨secondMember, rfl⟩] at secondMove
  rcases firstMove.pending firstPending with ⟨firstTurn, firstFound, firstWas⟩ | ⟨focused, idle⟩ <;>
    rcases secondMove.pending secondPending with ⟨turn, found, was⟩ | ⟨secondFocused, secondIdle⟩
  · obtain ⟨firstStored, firstKey⟩ := turn?_eq_some_iff.mp firstFound
    obtain ⟨stored, key⟩ := turn?_eq_some_iff.mp found
    rw [← firstKey, ← key] at session ⊢
    exact one firstTurn firstStored turn stored session firstWas was
  · obtain ⟨firstStored, firstKey⟩ := turn?_eq_some_iff.mp firstFound
    rw [secondIdle firstTurn firstStored (by rw [firstKey, session])] at firstWas
    cases firstWas
  · obtain ⟨stored, key⟩ := turn?_eq_some_iff.mp found
    rw [idle turn stored (by rw [key, session])] at was
    cases was
  · exact focused.trans secondFocused.symm

/-- What no transaction takes from a session; a new writer comes with a higher generation. -/
structure SessionRow.Keeps (row later : SessionRow) : Prop where
  binding : later.binding = row.binding
  generation : row.generation ≤ later.generation

theorem SessionMove.keeps {row : SessionRow} {after : Option SessionRow}
    (move : SessionMove (some row) after) :
    ∃ later, after = some later ∧ row.Keeps later ∧
      (later.writer.isSome → later.writer = row.writer ∧ later.generation = row.generation ∨
        row.generation < later.generation) := by
  cases move with
  | kept => exact ⟨row, rfl, ⟨rfl, Nat.le_refl _⟩, fun _ => Or.inl ⟨rfl, rfl⟩⟩
  | claimed _ writer expires =>
    exact ⟨_, rfl, ⟨rfl, Nat.le_succ _⟩, fun _ => Or.inr (Nat.lt_succ_self _)⟩
  | extended _ expires => exact ⟨_, rfl, ⟨rfl, Nat.le_refl _⟩, fun _ => Or.inl ⟨rfl, rfl⟩⟩
  | released => exact ⟨_, rfl, ⟨rfl, Nat.le_refl _⟩, nofun⟩

end Turns

section Calls

variable {digest : Envelope → String} {system : System} {action : Action} {journal : Journal}
  {phase : Phase} {job : Job} {lease : Lease} {now : Int} {fault : Fault}

/-- A call works under a lease of its own session, and only a call of `run` prepares a turn. -/
def Phase.Sound : Phase → Prop
  | .preparing job lease _ | .marking job lease | .dispatched job lease | .sending job lease =>
    lease.session = job.binding.session ∧ job.kind ≠ .recovery
  | .enumerating job lease => lease.session = job.binding.session
  | _ => True

/-- Allowed to send, and not yet sending. -/
def Phase.isDispatched : Phase → Bool
  | .dispatched _ _ => true
  | _ => false

theorem Phase.sound_claimed (same : lease.session = job.binding.session) :
    (Phase.claimed job lease).Sound ∧ (Phase.claimed job lease).isDispatched = false := by
  unfold Phase.claimed
  split
  · rename_i hash kind
    refine ⟨⟨same, ?_⟩, rfl⟩
    rw [kind]
    nofun
  · exact ⟨same, rfl⟩

theorem Phase.sound_recorded (sound : (Phase.marking job lease).Sound) (record : TurnRecord) :
    (Phase.recorded job lease record).Sound ∧
      (Phase.recorded job lease record).isDispatched = false := by
  unfold Phase.recorded
  split
  · split <;> exact ⟨trivial, rfl⟩
  · exact ⟨sound, rfl⟩

theorem Phase.sound_enumerated (turns : List PendingTurn) :
    (Phase.enumerated job lease turns).Sound ∧
      (Phase.enumerated job lease turns).isDispatched = false := by
  unfold Phase.enumerated
  split
  · split <;> exact ⟨trivial, rfl⟩
  · exact ⟨trivial, rfl⟩

theorem Phase.sound_commit (reply : ProviderReply) :
    (Phase.commit job lease reply).Sound ∧
      (Phase.commit job lease reply).isDispatched = false := by
  unfold Phase.commit
  split <;> exact ⟨trivial, rfl⟩

theorem Phase.sound_released (result : Except RunError Completion) (answer : JournalResult Unit) :
    (Phase.released result answer).Sound ∧ (Phase.released result answer).isDispatched = false := by
  unfold Phase.released
  split <;> exact ⟨trivial, rfl⟩

theorem Phase.sound_after {answer : JournalResult α} {next : α → Phase}
    (sound : ∀ value, answer = .ok value →
      (next value).Sound ∧ (next value).isDispatched = false) :
    (Phase.after job lease answer next).Sound ∧
      (Phase.after job lease answer next).isDispatched = false := by
  unfold Phase.after
  split
  · exact sound _ rfl
  · exact ⟨trivial, rfl⟩

theorem Phase.sound_abort (sound : phase.Sound) (error : RunError) :
    (phase.abort error).Sound ∧ (phase.abort error).isDispatched = false := by
  cases phase <;> first | exact ⟨trivial, rfl⟩ | exact ⟨sound, rfl⟩

theorem Phase.sound_input (sound : phase.Sound) (input : Phase.Input) :
    (phase.input input).Sound ∧ ((phase.input input).isDispatched = true → phase.input input = phase)
    := by
  unfold Phase.input
  split
  case h_1 => exact ⟨(Phase.sound_abort sound _).1, by simp [(Phase.sound_abort sound _).2]⟩
  case h_2 => exact ⟨(Phase.sound_abort sound _).1, by simp [(Phase.sound_abort sound _).2]⟩
  case h_3 job lease reply =>
    exact ⟨(Phase.sound_commit reply).1, by simp [(Phase.sound_commit reply).2]⟩
  case h_5 job lease _ reply =>
    exact ⟨(Phase.sound_commit reply).1, by simp [(Phase.sound_commit reply).2]⟩
  case h_11 => exact ⟨sound, fun _ => rfl⟩
  all_goals exact ⟨trivial, nofun⟩

end Calls

section Steps

variable {digest : Envelope → String} {system : System} {action : Action} {journal : Journal}
  {phase : Phase} {lease : Lease} {now : Int} {fault : Fault}

theorem deliver_move {call : JournalResult (Journal × α)}
    (moves : ∀ next value, call = .ok (next, value) → JournalMove journal next) :
    JournalMove journal (deliver fault .storage journal call).1 := by
  rcases deliver_fst fault JournalError.storage journal call with same | ⟨value, done⟩
  · rw [same]
    exact .refl journal
  · exact moves _ value done

/-- A call that only the current lease may make leaves the journal alone under any other. -/
theorem deliver_stale {call : JournalResult (Journal × α)}
    (current : ∀ next value, call = .ok (next, value) → journal.Current lease now)
    (stale : ¬ journal.Current lease now) : (deliver fault .storage journal call).1 = journal := by
  rcases deliver_fst fault JournalError.storage journal call with same | ⟨value, done⟩
  · exact same
  · exact absurd (current _ value done) stale

theorem pending_pure {next : Journal} {turns : List PendingTurn}
    (done : (journal.pending lease now >>= fun turns => pure (journal, turns)) =
      .ok (next, turns)) : next = journal ∧ journal.pending lease now = .ok turns := by
  simp only [bind_eq_ok_iff, pure_eq_ok_iff, Prod.mk.injEq] at done
  obtain ⟨read, pending, rfl, rfl⟩ := done
  exact ⟨rfl, pending⟩

/-- What one action does to the journal, to one call, and to what was sent. -/
inductive SystemMove (system : System) : System → Prop
  | journal (journal : Journal) (moved : JournalMove system.journal journal) :
      SystemMove system { system with journal }
  | authorized (journal : Journal) (key : TurnKey) (moved : JournalMove system.journal journal)
      (fresh : ¬ system.journal.Marked key) (marked : journal.Marked key) :
      SystemMove system { system with journal, sends := system.sends ++ [key] }
  | call (task : Nat) (journal : Journal) (phase : Phase)
      (moved : JournalMove system.journal journal)
      (sound : (system.call task).Sound → phase.Sound)
      (quiet : (system.call task).Sound → phase.isDispatched = true → phase = system.call task) :
      SystemMove system ({ system with journal }.enter task phase)
  | marked (task : Nat) (journal : Journal) (job : Job) (lease : Lease)
      (moved : JournalMove system.journal journal) (was : system.call task = .marking job lease)
      (fresh : ¬ system.journal.Marked ⟨lease.session, job.operation⟩)
      (marked : journal.Marked ⟨lease.session, job.operation⟩) :
      SystemMove system ({ system with journal }.enter task (.dispatched job lease))
  | sent (task : Nat) (job : Job) (lease : Lease) (was : system.call task = .dispatched job lease) :
      SystemMove system
        ({ system with sends := system.sends ++ [job.key] }.enter task (.sending job lease))

/-- A true answer marks the turn, which no answer had marked before. -/
theorem marked_of_true {next : Journal} {operation : Uuid} {changed : Bool}
    (done : journal.markDispatched lease operation now = .ok (next, changed))
    (authorized : changed = true) :
    ¬ journal.Marked ⟨lease.session, operation⟩ ∧ next.Marked ⟨lease.session, operation⟩ := by
  obtain ⟨turn, found, state, later⟩ := (markDispatched_ok done).2.2 authorized
  constructor
  · rintro ⟨other, stored, marked⟩
    obtain rfl := Option.some.inj (found.symm.trans stored)
    exact marked state
  · exact ⟨_, later, nofun⟩

/-- What the calls of others do; a turn they may send is marked by that very call. -/
theorem perform_ok {call : Call} {next : Journal} {authorized : Option TurnKey}
    (done : call.perform journal now = .ok (next, authorized)) :
    JournalMove journal next ∧
      (∀ lease, call.lease? = some lease → journal.Current lease now) ∧
      ∀ key, authorized = some key → ¬ journal.Marked key ∧ next.Marked key := by
  cases call with
  | acquire binding writer seconds =>
    simp only [Call.perform, bind_eq_ok_iff, pure_eq_ok_iff, Prod.mk.injEq] at done
    obtain ⟨⟨_, lease⟩, acquired, rfl, rfl⟩ := done
    exact ⟨(acquire_ok acquired).1, nofun, nofun⟩
  | renew lease seconds =>
    simp only [Call.perform, bind_eq_ok_iff, pure_eq_ok_iff, Prod.mk.injEq] at done
    obtain ⟨⟨_, _⟩, renewed, rfl, rfl⟩ := done
    obtain ⟨current, moved⟩ := renew_ok renewed
    exact ⟨moved, fun _ same => Option.some.inj same ▸ current, nofun⟩
  | prepare lease operation inputHash =>
    simp only [Call.perform, bind_eq_ok_iff, pure_eq_ok_iff, Prod.mk.injEq] at done
    obtain ⟨⟨_, _⟩, prepared, rfl, rfl⟩ := done
    obtain ⟨current, moved⟩ := prepare_ok prepared
    exact ⟨moved, fun _ same => Option.some.inj same ▸ current, nofun⟩
  | markDispatched lease operation =>
    simp only [Call.perform, bind_eq_ok_iff, pure_eq_ok_iff, Prod.mk.injEq] at done
    obtain ⟨⟨_, changed⟩, marked, rfl, rfl⟩ := done
    obtain ⟨current, moved, _⟩ := markDispatched_ok marked
    refine ⟨moved, fun _ same => Option.some.inj same ▸ current, ?_⟩
    intro key given
    cases changed with
    | false => cases given
    | true =>
      obtain rfl := Option.some.inj given
      exact marked_of_true marked rfl
  | acknowledge lease operation providerTurn =>
    simp only [Call.perform, bind_eq_ok_iff, pure_eq_ok_iff, Prod.mk.injEq] at done
    obtain ⟨⟨_, _⟩, acknowledged, rfl, rfl⟩ := done
    obtain ⟨current, moved⟩ := acknowledge_ok acknowledged
    exact ⟨moved, fun _ same => Option.some.inj same ▸ current, nofun⟩
  | release lease =>
    simp only [Call.perform, bind_eq_ok_iff, pure_eq_ok_iff, Prod.mk.injEq] at done
    obtain ⟨⟨_, _⟩, released, rfl, rfl⟩ := done
    obtain ⟨current, moved⟩ := release_ok released
    exact ⟨moved, fun _ same => Option.some.inj same ▸ current, nofun⟩
  | finish lease operation providerTurn receipt succeeded =>
    simp only [Call.perform, bind_eq_ok_iff, pure_eq_ok_iff, Prod.mk.injEq] at done
    obtain ⟨⟨_, _⟩, finished, rfl, rfl⟩ := done
    obtain ⟨current, moved⟩ := finish_ok finished
    exact ⟨moved, fun _ same => Option.some.inj same ▸ current, nofun⟩

/-- The move of a call whose next phase may not send. -/
theorem SystemMove.quiet {task : Nat} (moved : JournalMove system.journal journal)
    (sound : (system.call task).Sound → phase.Sound ∧ phase.isDispatched = false) :
    SystemMove system ({ system with journal }.enter task phase) := by
  refine .call task journal phase moved (fun was => (sound was).1) ?_
  intro was dispatched
  rw [(sound was).2] at dispatched
  cases dispatched

theorem systemMove_proceed (task : Nat) (now : Int) (writer : Uuid) (fault : Fault) :
    SystemMove system (system.step digest (.proceed task now writer fault)) := by
  have stays : SystemMove system ({ system with journal := system.journal }.enter task
      (system.call task)) :=
    .call task system.journal _ (.refl _) (fun was => was) (fun _ _ => rfl)
  simp only [System.step]
  cases at' : system.call task with
  | acquiring job =>
    simp only [Phase.proceed]
    have moved : JournalMove system.journal (deliver fault .storage system.journal
        (system.journal.acquire job.binding writer Phase.leaseSeconds now)).1 :=
      deliver_move (fun _ _ done => (acquire_ok done).1)
    split
    · rename_i lease answered
      obtain ⟨_, same, _⟩ := acquire_ok (ok_of_deliver answered)
      exact .quiet moved (fun _ => Phase.sound_claimed same)
    · exact .quiet moved (fun _ => ⟨trivial, rfl⟩)
  | preparing job lease hash =>
    refine .quiet (deliver_move (fun _ _ done => (prepare_ok done).2)) ?_
    intro sound
    rw [at'] at sound
    exact Phase.sound_after (fun record _ => Phase.sound_recorded sound record)
  | marking job lease =>
    have moved : JournalMove system.journal (deliver fault .storage system.journal
        (system.journal.markDispatched lease job.operation now)).1 :=
      deliver_move (fun _ _ done => (markDispatched_ok done).2.1)
    simp only [Phase.proceed, Phase.after]
    split
    · rename_i changed answered
      have done := ok_of_deliver answered
      cases changed with
      | true =>
        obtain ⟨fresh, marked⟩ := marked_of_true done rfl
        exact .marked task _ job lease moved at' fresh marked
      | false => exact .quiet moved (fun _ => ⟨trivial, rfl⟩)
    · exact .quiet moved (fun _ => ⟨trivial, rfl⟩)
  | enumerating job lease =>
    refine .quiet (deliver_move ?_) ?_
    · intro next turns done
      rw [(pending_pure done).1]
      exact .refl _
    · exact fun _ => Phase.sound_after (fun turns _ => Phase.sound_enumerated turns)
  | acknowledging job lease reply =>
    refine .quiet (deliver_move (fun _ _ done => (acknowledge_ok done).2)) ?_
    exact fun _ => Phase.sound_after (fun _ _ => ⟨trivial, rfl⟩)
  | finishing job lease reply receipt =>
    refine .quiet (deliver_move (fun _ _ done => (finish_ok done).2)) ?_
    exact fun _ => Phase.sound_after (fun _ _ => ⟨trivial, rfl⟩)
  | releasing job lease result =>
    refine .quiet (deliver_move (fun _ _ done => (release_ok done).2)) ?_
    exact fun _ => Phase.sound_released result _
  | _ =>
    rw [at'] at stays
    exact stays

theorem systemMove_tick (task : Nat) (now : Int) (fault : Fault) :
    SystemMove system (system.step digest (.tick task now fault)) := by
  simp only [System.step, Phase.tick]
  split
  · exact .call task system.journal _ (.refl _) (fun was => was) (fun _ _ => rfl)
  · rename_i lease guarded
    have moved : JournalMove system.journal (deliver fault .storage system.journal
        (system.journal.renew lease Phase.leaseSeconds now)).1 :=
      deliver_move (fun _ _ done => (renew_ok done).2)
    split
    · exact .call task _ _ moved (fun was => was) (fun _ _ => rfl)
    · exact .quiet moved (fun was => Phase.sound_abort was _)

/-- Every action of a run is one of the moves. -/
theorem systemMove_step (digest : Envelope → String) (system : System) (action : Action) :
    SystemMove system (system.step digest action) := by
  have same : ∀ task phase, ((system.call task).Sound → phase.Sound ∧ phase.isDispatched = false) →
      SystemMove system (system.enter task phase) :=
    fun task phase sound => .quiet (.refl system.journal) sound
  have stays : SystemMove system system := .journal system.journal (.refl _)
  cases action with
  | other call now fault =>
    simp only [System.step]
    have moved : JournalMove system.journal (deliver fault .storage system.journal
        (call.perform system.journal now)).1 :=
      deliver_move (fun _ _ done => (perform_ok done).1)
    split
    · rename_i key answered
      obtain ⟨fresh, marked⟩ := (perform_ok (ok_of_deliver answered)).2.2 key rfl
      exact .authorized _ key moved fresh marked
    · exact .journal _ moved
  | run task request envelope =>
    simp only [System.step, System.start]
    split
    · refine same task _ (fun _ => ?_)
      unfold started
      split <;> exact ⟨trivial, rfl⟩
    · exact stays
  | reconcile task request =>
    simp only [System.step, System.start]
    split
    · refine same task _ (fun _ => ?_)
      unfold started
      split <;> exact ⟨trivial, rfl⟩
    · exact stays
  | proceed task now writer fault => exact systemMove_proceed task now writer fault
  | tick task now fault => exact systemMove_tick task now fault
  | poll task =>
    simp only [System.step]
    split
    · rename_i job lease was
      exact .sent task job lease was
    · exact stays
  | input task input =>
    refine .call task system.journal _ (.refl _) ?_ ?_
    · exact fun was => (Phase.sound_input was input).1
    · exact fun was => (Phase.sound_input was input).2
  | crash task => exact same task _ (fun _ => ⟨trivial, rfl⟩)

end Steps

end OHHive.Subscription
