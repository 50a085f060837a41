import OHHive.Subscription.Dispatch
import Mathlib.Data.List.Count

/-! The laws of every run of the journal and its runner. -/

namespace OHHive.Subscription

open Foundation

variable {digest : Envelope → String} {system next : System} {actions : List Action}

section Invariants

theorem SystemMove.journal_move (move : SystemMove system next) :
    JournalMove system.journal next.journal := by
  cases move with
  | journal _ moved => exact moved
  | authorized _ _ moved => exact moved
  | call _ _ _ moved => exact moved
  | marked _ _ _ _ moved => exact moved
  | sent => exact .refl _

/-- Every call is sound: it works for its own session. -/
def System.Sound (system : System) : Prop := ∀ task, (system.call task).Sound

theorem System.sound_enter (system : System) {task : Nat} {phase : Phase} (sound : system.Sound)
    (entered : phase.Sound) : (system.enter task phase).Sound := by
  intro other
  by_cases same : other = task
  · subst same
    simpa [System.enter] using entered
  · simpa [System.enter, same] using sound other

theorem SystemMove.sound (move : SystemMove system next) (sound : system.Sound) : next.Sound := by
  cases move with
  | journal => exact sound
  | authorized => exact sound
  | call task journal phase _ keeps =>
    exact System.sound_enter { system with journal } sound (keeps (sound task))
  | marked task journal job lease _ was =>
    have marking := sound task
    rw [was] at marking
    exact System.sound_enter { system with journal } sound marking
  | sent task job lease was =>
    have dispatched := sound task
    rw [was] at dispatched
    exact System.sound_enter { system with sends := _ } sound dispatched

/-- The permit to send one turn: issued by its dispatch mark, held by the call that was told so,
and used by the provider's send. -/
def System.permit (system : System) (key : TurnKey) : Permit Nat where
  issued := system.journal.Marked key
  holder task := ∃ job lease, system.call task = .dispatched job lease ∧ job.key = key
  uses := system.sends.count key

theorem Journal.marked_move {journal later : Journal} {key : TurnKey}
    (moved : JournalMove journal later) (marked : journal.Marked key) : later.Marked key := by
  obtain ⟨turn, found, state⟩ := marked
  obtain ⟨focus, turns⟩ := moved.turns
  have move := turns key
  rw [found] at move
  obtain ⟨after, stored, keeps⟩ := move.keeps
  exact ⟨after, stored, keeps.marked state⟩

/-- A call entering another phase gives up what it held. -/
theorem System.holder_enter (system : System) {task party : Nat} {phase : Phase} {key : TurnKey}
    (held : ((system.enter task phase).permit key).holder party) :
    party ≠ task ∧ (system.permit key).holder party ∨
      party = task ∧ ∃ job lease, phase = .dispatched job lease ∧ job.key = key := by
  obtain ⟨job, lease, at', same⟩ := held
  by_cases entered : party = task
  · subst entered
    simp only [System.enter, Function.update_self] at at'
    exact Or.inr ⟨rfl, job, lease, at', same⟩
  · simp only [System.enter, Function.update_of_ne entered] at at'
    exact Or.inl ⟨entered, job, lease, at', same⟩

theorem SystemMove.permit_move (move : SystemMove system next) (sound : system.Sound)
    (key : TurnKey) : Permit.Move (system.permit key) (next.permit key) := by
  have issued : (system.permit key).issued → (next.permit key).issued :=
    Journal.marked_move move.journal_move
  cases move with
  | journal => exact .keep issued (fun _ held => held) rfl
  | authorized journal marked moved fresh marks =>
    by_cases same : marked = key
    · subst same
      exact .spend fresh marks (fun _ held => held) (by simp [System.permit])
    · exact .keep issued (fun _ held => held) (by simp [System.permit, same])
  | call task journal phase moved _ quiet =>
    refine .keep issued ?_ rfl
    intro party held
    rcases System.holder_enter { system with journal } held with
      ⟨_, was⟩ | ⟨rfl, job, lease, rfl, same⟩
    · exact was
    · exact ⟨job, lease, (quiet (sound party) rfl).symm, same⟩
  | marked task journal job lease moved was fresh marks =>
    have turn := sound task
    rw [was] at turn
    have marked : (⟨lease.session, job.operation⟩ : TurnKey) = job.key := by
      rw [Job.key, turn.1]
    rw [marked] at fresh marks
    by_cases same : job.key = key
    · subst same
      refine .issue task fresh marks ?_ rfl
      intro party held
      rcases System.holder_enter { system with journal } held with
        ⟨_, was⟩ | ⟨entered, _⟩
      · exact Or.inr was
      · exact Or.inl entered
    · refine .keep issued ?_ rfl
      intro party held
      rcases System.holder_enter { system with journal } held with
        ⟨_, was⟩ | ⟨_, other, _, entered, key'⟩
      · exact was
      · cases entered
        exact absurd key' same
  | sent task job lease was =>
    have leaves : ∀ party, ((System.enter { system with sends := system.sends ++ [job.key] } task
        (.sending job lease)).permit key).holder party →
        (system.permit key).holder party ∧ party ≠ task := by
      intro party held
      rcases System.holder_enter { system with sends := _ } held with
        ⟨other, was⟩ | ⟨_, _, _, entered, _⟩
      · exact ⟨was, other⟩
      · cases entered
    by_cases same : job.key = key
    · subst same
      exact .use task ⟨job, lease, was, rfl⟩ issued leaves (by simp [System.permit, System.enter])
    · exact .keep issued (fun party held => (leaves party held).1)
        (by simp [System.permit, System.enter, same])

end Invariants

section Leases

/-- The lease of the transaction that comes next in a call. -/
def Phase.lease? : Phase → Option Lease
  | .preparing _ lease _ | .marking _ lease | .enumerating _ lease | .acknowledging _ lease _
  | .finishing _ lease _ _ | .releasing _ lease _ => some lease
  | _ => none

/-- The lease that an action works under, with its reading of the clock. -/
def Action.lease? (action : Action) (system : System) : Option (Lease × Int) :=
  match action with
  | .other call now _ => call.lease?.map (fun lease => (lease, now))
  | .proceed task now _ _ => (system.call task).lease?.map (fun lease => (lease, now))
  | .tick task now _ => (system.call task).guarded.map (fun lease => (lease, now))
  | _ => none

theorem Phase.proceed_stale {phase : Phase} {journal : Journal} {lease : Lease} {now : Int}
    (under : phase.lease? = some lease) (stale : ¬ journal.Current lease now) (writer : Uuid)
    (fault : Fault) : (phase.proceed journal now writer fault).1 = journal := by
  cases phase with
  | preparing job held hash =>
    obtain rfl := Option.some.inj under
    exact deliver_stale (fun _ _ done => (prepare_ok done).1) stale
  | marking job held =>
    obtain rfl := Option.some.inj under
    exact deliver_stale (fun _ _ done => (markDispatched_ok done).1) stale
  | enumerating job held =>
    obtain rfl := Option.some.inj under
    exact deliver_stale (fun _ _ done => pending_ok (pending_pure done).2) stale
  | acknowledging job held reply =>
    obtain rfl := Option.some.inj under
    exact deliver_stale (fun _ _ done => (acknowledge_ok done).1) stale
  | finishing job held reply receipt =>
    obtain rfl := Option.some.inj under
    exact deliver_stale (fun _ _ done => (finish_ok done).1) stale
  | releasing job held result =>
    obtain rfl := Option.some.inj under
    exact deliver_stale (fun _ _ done => (release_ok done).1) stale
  | acquiring job => cases under
  | _ => rfl

/-- An action under a lease that is superseded or expired leaves the journal alone. -/
theorem step_stale {action : Action} {lease : Lease} {now : Int}
    (under : action.lease? system = some (lease, now))
    (stale : ¬ system.journal.Current lease now) :
    (system.step digest action).journal = system.journal := by
  cases action with
  | other call reading fault =>
    obtain ⟨held, holds, same⟩ := Option.map_eq_some_iff.mp under
    obtain ⟨rfl, rfl⟩ := Prod.mk.inj same
    have kept : (deliver fault .storage system.journal (call.perform system.journal reading)).1 =
        system.journal :=
      deliver_stale (fun _ _ done => (perform_ok done).2.1 held holds) stale
    simp only [System.step]
    split <;> exact kept
  | proceed task reading writer fault =>
    obtain ⟨held, holds, same⟩ := Option.map_eq_some_iff.mp under
    obtain ⟨rfl, rfl⟩ := Prod.mk.inj same
    exact Phase.proceed_stale holds stale writer fault
  | tick task reading fault =>
    obtain ⟨held, holds, same⟩ := Option.map_eq_some_iff.mp under
    obtain ⟨rfl, rfl⟩ := Prod.mk.inj same
    simp only [System.step, Phase.tick]
    split
    · rfl
    · rename_i other guarded
      obtain rfl := Option.some.inj (holds.symm.trans guarded)
      have kept : (deliver fault .storage system.journal
          (system.journal.renew held Phase.leaseSeconds reading)).1 = system.journal :=
        deliver_stale (fun _ _ done => (renew_ok done).1) stale
      split <;> exact kept
  | _ => cases under

/-- The call that an action advances. -/
def Action.task? : Action → Option Nat
  | .other _ _ _ => none
  | .run task _ _ | .reconcile task _ | .proceed task _ _ _ | .tick task _ _ | .poll task
  | .input task _ | .crash task => some task

/-- What a call was started for. -/
def Phase.job? : Phase → Option Job
  | .acquiring job | .preparing job _ _ | .marking job _ | .dispatched job _ | .sending job _
  | .interrupting job _ _ | .enumerating job _ | .recovering job _ _ | .acknowledging job _ _
  | .persisting job _ _ | .finishing job _ _ _ | .releasing job _ _ => some job
  | .idle | .finished _ | .crashed => none

/-- A reconciling call sends nothing. -/
theorem step_recovery {action : Action} {task : Nat} {job : Job} (sound : system.Sound)
    (advances : action.task? = some task) (started : (system.call task).job? = some job)
    (recovery : job.kind = .recovery) : (system.step digest action).sends = system.sends := by
  cases action with
  | other => cases advances
  | poll other =>
    obtain rfl := Option.some.inj advances
    simp only [System.step]
    split
    · rename_i turn lease dispatched
      have phase := sound other
      rw [dispatched] at phase started
      obtain rfl := Option.some.inj started
      exact absurd recovery phase.2
    · rfl
  | run other request envelope =>
    simp only [System.step, System.start]
    split <;> rfl
  | reconcile other request =>
    simp only [System.step, System.start]
    split <;> rfl
  | proceed | tick | input | crash => rfl

end Leases

section Runs

theorem systemAt_invariant (actions : List Action) (invariant : System → Prop)
    (initially : invariant .fresh)
    (preserved : ∀ system next, SystemMove system next → invariant system → invariant next)
    (moment : Nat) : invariant (systemAt digest actions moment) :=
  stateAt_invariant (System.step digest) System.fresh actions invariant initially
    (fun system action _ => preserved system _ (systemMove_step digest system action)) moment

theorem sound_at (actions : List Action) (moment : Nat) : (systemAt digest actions moment).Sound :=
  systemAt_invariant actions System.Sound (fun _ => trivial) (fun _ _ move => move.sound) moment

theorem oneShot_at (actions : List Action) (moment : Nat) (key : TurnKey) :
    ((systemAt digest actions moment).permit key).OneShot := by
  have initially : System.fresh.Sound ∧ (System.fresh.permit key).OneShot := by
    refine ⟨fun _ => trivial, ?_, ?_, ?_, Nat.zero_le 1⟩
    · exact fun _ => ⟨fun _ ⟨_, _, idle, _⟩ => (nomatch idle), rfl⟩
    · exact fun _ _ ⟨_, _, idle, _⟩ => nomatch idle
    · exact fun _ ⟨_, _, idle, _⟩ => nomatch idle
  have invariant : (systemAt digest actions moment).Sound ∧
      ((systemAt digest actions moment).permit key).OneShot :=
    systemAt_invariant actions (fun system => system.Sound ∧ (system.permit key).OneShot) initially
      (fun _ _ move ⟨sound, oneShot⟩ =>
        ⟨move.sound sound, oneShot.move (move.permit_move sound key)⟩) moment
  exact invariant.2

theorem onePending_at (actions : List Action) (moment : Nat) :
    (systemAt digest actions moment).journal.OnePending :=
  systemAt_invariant actions (fun system => system.journal.OnePending)
    (fun _ member => nomatch member)
    (fun _ _ move one => onePending_move move.journal_move one) moment

/-- What the journal keeps of its rows. -/
structure Journal.Keeps (journal later : Journal) : Prop where
  turns : ∀ key turn, journal.turn? key = some turn →
    ∃ after, later.turn? key = some after ∧ turn.Keeps after
  sessions : ∀ id row, journal.session? id = some row →
    ∃ after, later.session? id = some after ∧ row.Keeps after

theorem JournalMove.keeps {journal later : Journal} (move : JournalMove journal later) :
    journal.Keeps later := by
  constructor
  · intro key turn found
    obtain ⟨focus, turns⟩ := move.turns
    have moved := turns key
    rw [found] at moved
    exact moved.keeps
  · intro id row found
    have moved := move.sessions id
    rw [found] at moved
    obtain ⟨after, stored, keeps, _⟩ := moved.keeps
    exact ⟨after, stored, keeps⟩

theorem Journal.Keeps.refl (journal : Journal) : journal.Keeps journal :=
  ⟨fun _ turn found => ⟨turn, found, .refl turn⟩,
    fun _ row found => ⟨row, found, ⟨rfl, Nat.le_refl _⟩⟩⟩

theorem Journal.Keeps.trans {first second third : Journal} (before : first.Keeps second)
    (after : second.Keeps third) : first.Keeps third := by
  constructor
  · intro key turn found
    obtain ⟨between, stored, keeps⟩ := before.turns key turn found
    obtain ⟨last, storedLast, keepsLast⟩ := after.turns key between stored
    exact ⟨last, storedLast, keeps.trans keepsLast⟩
  · intro id row found
    obtain ⟨between, stored, keeps⟩ := before.sessions id row found
    obtain ⟨last, storedLast, keepsLast⟩ := after.sessions id between stored
    exact ⟨last, storedLast, ⟨keepsLast.binding.trans keeps.binding,
      Nat.le_trans keeps.generation keepsLast.generation⟩⟩

theorem keeps_at (actions : List Action) {first second : Nat} (ordered : first ≤ second) :
    (systemAt digest actions first).journal.Keeps (systemAt digest actions second).journal := by
  apply stateAt_relates (System.step digest) System.fresh
    (fun earlier later : System => earlier.journal.Keeps later.journal)
  · exact fun system => .refl system.journal
  · exact fun _ _ _ before after => before.trans after
  · exact fun system action => (systemMove_step digest system action).journal_move.keeps
  · exact ordered

/-- The laws of one run. -/
structure AtMostOnce (digest : Envelope → String) (actions : List Action) : Prop where
  sent_once : ∀ moment key, (systemAt digest actions moment).sends.count key ≤ 1
  one_unresolved : ∀ moment session,
    (systemAt digest actions moment).journal.turns.rows.countP
      (fun turn => turn.key.session = session && turn.state.isPending) ≤ 1
  input_kept : ∀ first second, first ≤ second → ∀ key turn,
    (systemAt digest actions first).journal.turn? key = some turn →
    ∃ later, (systemAt digest actions second).journal.turn? key = some later ∧
      later.inputHash = turn.inputHash
  session_kept : ∀ first second, first ≤ second → ∀ id row,
    (systemAt digest actions first).journal.session? id = some row →
    ∃ later, (systemAt digest actions second).journal.session? id = some later ∧
      later.binding = row.binding ∧ row.generation ≤ later.generation
  acquired : ∀ moment binding writer seconds now next lease,
    (systemAt digest actions moment).journal.acquire binding writer seconds now =
      .ok (next, lease) →
    (∀ row, (systemAt digest actions moment).journal.session? binding.session = some row →
      row.generation < lease.generation) ∧
    ∃ row, next.session? binding.session = some row ∧ row.writer = some writer ∧
      row.generation = lease.generation
  takeover : ∀ moment id before after,
    (systemAt digest actions moment).journal.session? id = some before →
    (systemAt digest actions (moment + 1)).journal.session? id = some after →
    after.writer.isSome → after.writer ≠ before.writer → before.generation < after.generation
  fenced : ∀ moment action lease now, actions[moment]? = some action →
    action.lease? (systemAt digest actions moment) = some (lease, now) →
    ¬ (systemAt digest actions moment).journal.Current lease now →
    (systemAt digest actions (moment + 1)).journal = (systemAt digest actions moment).journal
  terminal_kept : ∀ first second, first ≤ second → ∀ key turn,
    (systemAt digest actions first).journal.turn? key = some turn →
    turn.state.isPending = false →
    (systemAt digest actions second).journal.turn? key = some turn
  provider_kept : ∀ first second, first ≤ second → ∀ key turn id,
    (systemAt digest actions first).journal.turn? key = some turn →
    turn.record.providerTurn = some id →
    ∃ later, (systemAt digest actions second).journal.turn? key = some later ∧
      later.record.providerTurn = some id
  recovery_silent : ∀ moment action task job, actions[moment]? = some action →
    action.task? = some task →
    ((systemAt digest actions moment).call task).job? = some job → job.kind = .recovery →
    (systemAt digest actions (moment + 1)).sends = (systemAt digest actions moment).sends

/-- Whatever writers, crashes, expiries and takeovers do, every run dispatches each operation at
most once and keeps what the journal has recorded. -/
theorem at_most_once (digest : Envelope → String) (actions : List Action) :
    AtMostOnce digest actions := by
  constructor
  · exact fun moment key => (oneShot_at actions moment key).once
  · intro moment session
    apply Table.countP_le_one_of_clash
    intro first firstMember second secondMember firstSelected secondSelected
    simp only [Bool.and_eq_true, decide_eq_true_eq] at firstSelected secondSelected
    exact onePending_at actions moment first firstMember second secondMember
      (firstSelected.1.trans secondSelected.1.symm) firstSelected.2 secondSelected.2
  · intro first second ordered key turn found
    obtain ⟨later, stored, keeps⟩ := (keeps_at actions ordered).turns key turn found
    exact ⟨later, stored, keeps.inputHash⟩
  · intro first second ordered id row found
    obtain ⟨later, stored, keeps⟩ := (keeps_at actions ordered).sessions id row found
    exact ⟨later, stored, keeps.binding, keeps.generation⟩
  · intro moment binding writer seconds now next lease done
    obtain ⟨_, _, _, newer, row, stored, held, generation, _⟩ := acquire_ok done
    exact ⟨fun row found => (newer row found).1, row, stored, held, generation⟩
  · intro moment id before after found stored held turned
    rcases stateAt_next (System.step digest) System.fresh actions moment with
      ⟨action, _, stepped⟩ | ⟨_, rested⟩
    · rw [systemAt, stepped] at stored
      have moved := (systemMove_step digest (systemAt digest actions moment)
        action).journal_move.sessions id
      rw [found, stored] at moved
      obtain ⟨later, same, _, writer⟩ := moved.keeps
      obtain rfl := Option.some.inj same
      exact (writer held).resolve_left (fun kept => turned kept.1)
    · rw [systemAt, rested] at stored
      obtain rfl := Option.some.inj (found.symm.trans stored)
      exact absurd rfl turned
  · intro moment action lease now present under stale
    rw [systemAt, stateAt_succ (System.step digest) System.fresh present]
    exact step_stale under stale
  · intro first second ordered key turn found terminal
    obtain ⟨later, stored, keeps⟩ := (keeps_at actions ordered).turns key turn found
    rw [stored, keeps.terminal terminal]
  · intro first second ordered key turn id found recorded
    obtain ⟨later, stored, keeps⟩ := (keeps_at actions ordered).turns key turn found
    exact ⟨later, stored, keeps.provider id recorded⟩
  · intro moment action task job present advances started recovery
    rw [systemAt, stateAt_succ (System.step digest) System.fresh present]
    exact step_recovery (sound_at actions moment) advances started recovery

end Runs

end OHHive.Subscription
