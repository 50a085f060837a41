import OHHive.Foundation.Run
import OHHive.Foundation.Table

/-! Transactions at the isolation level READ COMMITTED, statement by statement. A query sees what is
committed when it runs, with the transaction's own changes; a locked row stays locked to the end,
unless a savepoint is rolled back. Each program is verified by itself, against what the others may
commit meanwhile. -/

namespace OHHive.Foundation

section Programs

/-- What a transaction does from here on. -/
inductive Program (Store Row α : Type) where
  | done (value : α)
  | raise
  | query (next : Store → Program Store Row α)
  | lock (row : Row) (next : Store → Program Store Row α)
  | tryLock (row : Row) (locked : Store → Program Store Row α) (busy : Program Store Row α)
  | unlock (row : Row) (next : Program Store Row α)
  | write (change : Store → Store) (next : Program Store Row α)

namespace Program

variable {Store Row α β : Type}

def bind (first : Program Store Row α) (after : α → Program Store Row β) : Program Store Row β :=
  match first with
  | .done value => after value
  | .raise => .raise
  | .query next => .query fun store => (next store).bind after
  | .lock row next => .lock row fun store => (next store).bind after
  | .tryLock row locked busy =>
    .tryLock row (fun store => (locked store).bind after) (busy.bind after)
  | .unlock row next => .unlock row (next.bind after)
  | .write change next => .write change (next.bind after)

instance : Monad (Program Store Row) where
  pure := .done
  bind := bind

/-- A query for one value. -/
def ask (read : Store → α) : Program Store Row α := .query fun store => .done (read store)

def acquire (row : Row) : Program Store Row Unit := .lock row fun _ => .done ()

/-- A row that a savepoint's rollback gives up. -/
def giveUp (row : Row) : Program Store Row Unit := .unlock row (.done ())

/-- `select … for update`: the row if it matches, locked, if it matches still. -/
def selectForUpdate (row : Row) (read : Store → Option α) : Program Store Row (Option α) :=
  .query fun store =>
    match read store with
    | none => .done none
    | some _ => .lock row fun store => .done (read store)

/-- `select … for update` of a row that is always there. -/
def selectLocked (row : Row) (read : Store → α) : Program Store Row α :=
  .lock row fun store => .done (read store)

def perform (change : Store → Store) : Program Store Row Unit := .write change (.done ())

def orRaise (value? : Option α) : Program Store Row α :=
  match value? with
  | some value => .done value
  | none => .raise

def check (condition : Prop) [Decidable condition] : Program Store Row Unit :=
  if condition then .done () else .raise

/-- Goes on for every element in turn. -/
def forEach (items : List α) (body : α → Program Store Row Unit) : Program Store Row Unit :=
  match items with
  | [] => .done ()
  | item :: items => (body item).bind fun _ => forEach items body

@[simp] theorem bind_eq (first : Program Store Row α) (after : α → Program Store Row β) :
    first >>= after = first.bind after := rfl

@[simp] theorem pure_eq (value : α) : (pure value : Program Store Row α) = .done value := rfl

section Writes

/-- A program whose changes are all of one kind. -/
def Writes (allowed : (Store → Store) → Prop) : Program Store Row α → Prop
  | .done _ => True
  | .raise => True
  | .query next => ∀ store, (next store).Writes allowed
  | .lock _ next => ∀ store, (next store).Writes allowed
  | .tryLock _ locked busy => (∀ store, (locked store).Writes allowed) ∧ busy.Writes allowed
  | .unlock _ next => next.Writes allowed
  | .write change next => allowed change ∧ next.Writes allowed

variable {allowed : (Store → Store) → Prop}

theorem Writes.bind {first : Program Store Row α} {after : α → Program Store Row β}
    (early : first.Writes allowed) (late : ∀ value, (after value).Writes allowed) :
    (first.bind after).Writes allowed := by
  induction first with
  | done value => exact late value
  | raise => trivial
  | query next ih => exact fun store => ih store (early store)
  | lock row next ih => exact fun store => ih store (early store)
  | tryLock row locked busy ihLocked ihBusy =>
    exact ⟨fun store => ihLocked store (early.1 store), ihBusy early.2⟩
  | unlock row next ih => exact ih early
  | write change next ih => exact ⟨early.1, ih early.2⟩

theorem Writes.orRaise (value? : Option α) :
    (Program.orRaise value? : Program Store Row α).Writes allowed := by
  cases value? <;> trivial

theorem Writes.check (condition : Prop) [Decidable condition] :
    (Program.check condition : Program Store Row Unit).Writes allowed := by
  unfold Program.check
  split <;> trivial

theorem Writes.selectForUpdate (row : Row) (read : Store → Option α) :
    (Program.selectForUpdate row read : Program Store Row (Option α)).Writes allowed := by
  intro store
  cases found : read store with
  | none => simp [found, Writes]
  | some value => simp [found, Writes]

theorem Writes.forEach {items : List α} {body : α → Program Store Row Unit}
    (each : ∀ item, (body item).Writes allowed) : (Program.forEach items body).Writes allowed := by
  induction items with
  | nil => trivial
  | cons item items ih => exact (each item).bind fun _ => ih

end Writes

end Program

end Programs

section Disciplines

/-- What a family of calls keeps: an invariant of the committed store, what a call that has some
locks may rely on while others commit, and what its own commit ensures. It binds runs of certain
calls that are timely when they commit, and are open together only where they are compatible. -/
structure Discipline (Store Row Call : Type) where
  invariant : Store → Prop
  makes : Call → Prop
  timely : Call → Store → Prop
  compatible : Store → Call → List Row → Call → List Row → Prop
  ensures : Call → Store → Store → Prop
  rely : Call → List Row → Store → Store → Prop
  /-- The rows whose locks a call counts on. -/
  counts : Row → Prop
  refl : ∀ call locks store, rely call locks store store
  trans : ∀ call locks first second third, rely call locks first second →
    rely call locks second third → rely call locks first third
  weaken : ∀ call locks more first second, (∀ row ∈ locks, counts row → row ∈ more) →
    rely call more first second → rely call locks first second

/-- How far a transaction has come: its locks, its changes, and the committed store it last saw. -/
structure Position (Store Row : Type) where
  locks : List Row
  change : Store → Store
  seen : Store

variable {Store Row Call α β : Type} {discipline : Discipline Store Row Call} {call : Call}

/-- A store that others may have committed since a transaction last looked. -/
def Discipline.Later (discipline : Discipline Store Row Call) (call : Call)
    (position : Position Store Row) (store : Store) : Prop :=
  discipline.invariant store ∧ discipline.rely call position.locks position.seen store

/-- A commit at this position keeps the discipline. -/
def Discipline.Commits (discipline : Discipline Store Row Call) (call : Call)
    (position : Position Store Row) : Prop :=
  ∀ store, discipline.Later call position store → discipline.timely call store →
    discipline.invariant (position.change store) ∧
    discipline.ensures call store (position.change store) ∧
    ∀ other locks, position.locks.Disjoint locks →
      discipline.compatible store call position.locks other locks →
      discipline.rely other locks store (position.change store)

theorem Discipline.later_refl {position : Position Store Row}
    (invariant : discipline.invariant position.seen) :
    discipline.Later call position position.seen :=
  ⟨invariant, discipline.refl _ _ _⟩

theorem Discipline.later_trans {position : Position Store Row} {store third : Store}
    (later : discipline.Later call position store)
    (next : discipline.Later call { position with seen := store } third) :
    discipline.Later call position third :=
  ⟨next.1, discipline.trans call _ _ _ _ later.2 next.2⟩

theorem Discipline.commits_later {position : Position Store Row} {store : Store}
    (later : discipline.Later call position store) (commits : discipline.Commits call position) :
    discipline.Commits call { position with seen := store } :=
  fun third next timely => commits third (later_trans later next) timely

section Onward

/-- A transaction that has gone on: it has its locks still, and saw what others may have committed
meanwhile. -/
structure Discipline.Onward (discipline : Discipline Store Row Call) (call : Call)
    (before after : Position Store Row) : Prop where
  locks : before.locks ⊆ after.locks
  later : discipline.rely call before.locks before.seen after.seen

variable {before between after position : Position Store Row}

theorem Discipline.Onward.trans (first : discipline.Onward call before between)
    (second : discipline.Onward call between after) : discipline.Onward call before after where
  locks := List.Subset.trans first.locks second.locks
  later := discipline.trans call _ _ _ _ first.later
    (discipline.weaken call _ _ _ _ (fun _ member _ => first.locks member) second.later)

theorem Discipline.onward_refl (position : Position Store Row) :
    discipline.Onward call position position :=
  ⟨List.Subset.refl _, discipline.refl _ _ _⟩

theorem Discipline.onward_seen {store : Store} (later : discipline.Later call position store) :
    discipline.Onward call position { position with seen := store } :=
  ⟨List.Subset.refl _, later.2⟩

theorem Discipline.onward_lock {store : Store} (row : Row)
    (later : discipline.Later call position store) :
    discipline.Onward call position
      { position with locks := row :: position.locks, seen := store } :=
  ⟨List.subset_cons_self row position.locks, later.2⟩

end Onward

variable [DecidableEq Row]

/-- From this position on, whatever others commit, the program ends where `post` holds. -/
def Discipline.wp (discipline : Discipline Store Row Call) (call : Call)
    (post : α → Position Store Row → Prop) : Program Store Row α → Position Store Row → Prop
  | .done value, position => post value position
  | .raise, _ => True
  | .query next, position => ∀ store, discipline.Later call position store →
      discipline.wp call post (next (position.change store)) { position with seen := store }
  | .lock row next, position => ∀ store, discipline.Later call position store →
      discipline.wp call post (next (position.change store))
        { position with locks := row :: position.locks, seen := store }
  | .tryLock row locked busy, position =>
      (∀ store, discipline.Later call position store →
        discipline.wp call post (locked (position.change store))
          { position with locks := row :: position.locks, seen := store }) ∧
      discipline.wp call post busy position
  | .unlock row next, position =>
      discipline.wp call post next { position with locks := position.locks.erase row }
  | .write change next, position =>
      discipline.wp call post next { position with change := change ∘ position.change }

theorem Discipline.wp_mono {post weaker : α → Position Store Row → Prop}
    (implies : ∀ value position, post value position → weaker value position)
    {program : Program Store Row α} {position : Position Store Row}
    (safe : discipline.wp call post program position) :
    discipline.wp call weaker program position := by
  induction program generalizing position with
  | done value => exact implies value position safe
  | raise => trivial
  | query next ih => exact fun store later => ih _ (safe store later)
  | lock row next ih => exact fun store later => ih _ (safe store later)
  | tryLock row locked busy ihLocked ihBusy =>
    exact ⟨fun store later => ihLocked _ (safe.1 store later), ihBusy safe.2⟩
  | unlock row next ih => exact ih safe
  | write change next ih => exact ih safe

theorem Discipline.wp_bind {post : β → Position Store Row → Prop} {first : Program Store Row α}
    {after : α → Program Store Row β} {position : Position Store Row} :
    discipline.wp call post (first.bind after) position ↔
      discipline.wp call (fun value => discipline.wp call post (after value)) first position := by
  induction first generalizing position with
  | done value => exact Iff.rfl
  | raise => exact Iff.rfl
  | query next ih =>
    exact forall_congr' fun store => forall_congr' fun _ => ih _
  | lock row next ih =>
    exact forall_congr' fun store => forall_congr' fun _ => ih _
  | tryLock row locked busy ihLocked ihBusy =>
    exact and_congr (forall_congr' fun store => forall_congr' fun _ => ihLocked _) ihBusy
  | unlock row next ih => exact ih
  | write change next ih => exact ih

section Rules

variable {position : Position Store Row}

@[simp] theorem Discipline.wp_pure {post : α → Position Store Row → Prop} {value : α} :
    discipline.wp call post (.done value) position ↔ post value position :=
  Iff.rfl

@[simp] theorem Discipline.wp_ask {post : α → Position Store Row → Prop} {read : Store → α} :
    discipline.wp call post (.ask read) position ↔
      ∀ store, discipline.Later call position store →
        post (read (position.change store)) { position with seen := store } :=
  Iff.rfl

@[simp] theorem Discipline.wp_acquire {post : Unit → Position Store Row → Prop} {row : Row} :
    discipline.wp call post (.acquire row) position ↔
      ∀ store, discipline.Later call position store →
        post () { position with locks := row :: position.locks, seen := store } :=
  Iff.rfl

@[simp] theorem Discipline.wp_selectLocked {post : α → Position Store Row → Prop} {row : Row}
    {read : Store → α} :
    discipline.wp call post (.selectLocked row read) position ↔
      ∀ store, discipline.Later call position store →
        post (read (position.change store))
          { position with locks := row :: position.locks, seen := store } :=
  Iff.rfl

/-- Only a row that matches is locked, and read again. -/
theorem Discipline.wp_selectForUpdate {post : Option α → Position Store Row → Prop} {row : Row}
    {read : Store → Option α} :
    discipline.wp call post (.selectForUpdate row read) position ↔
      ∀ store, discipline.Later call position store →
        (read (position.change store) = none → post none { position with seen := store }) ∧
        (read (position.change store) ≠ none →
          ∀ locked, discipline.Later call { position with seen := store } locked →
            post (read (position.change locked))
              { position with locks := row :: position.locks, seen := locked }) := by
  refine forall_congr' fun store => forall_congr' fun _ => ?_
  cases matched : read (position.change store) with
  | none => simp [matched]
  | some value => simp [matched, Discipline.wp]

@[simp] theorem Discipline.wp_perform {post : Unit → Position Store Row → Prop}
    {change : Store → Store} :
    discipline.wp call post (.perform change) position ↔
      post () { position with change := change ∘ position.change } :=
  Iff.rfl

theorem Discipline.wp_orRaise {post : α → Position Store Row → Prop} {value? : Option α} :
    discipline.wp call post (.orRaise value?) position ↔
      ∀ value, value? = some value → post value position := by
  cases value? with
  | none => simp [Program.orRaise, Discipline.wp]
  | some value => simp [Program.orRaise]

theorem Discipline.wp_check {post : Unit → Position Store Row → Prop} {condition : Prop}
    [Decidable condition] :
    discipline.wp call post (.check condition) position ↔ (condition → post () position) := by
  by_cases met : condition
  · simp [Program.check, met]
  · simp [Program.check, met, Discipline.wp]

theorem Discipline.wp_ite {post : α → Position Store Row → Prop} {condition : Prop}
    [Decidable condition] {first second : Program Store Row α} :
    discipline.wp call post (if condition then first else second) position ↔
      (condition → discipline.wp call post first position) ∧
      (¬ condition → discipline.wp call post second position) := by
  by_cases met : condition
  · simp [met]
  · simp [met]

/-- Rows locked one after the other. -/
theorem Discipline.wp_forEach_acquire {row : α → Row} {items : List α}
    {post : Unit → Position Store Row → Prop}
    (holds : ∀ after, after.change = position.change → discipline.Onward call position after →
      post () after) :
    discipline.wp call post (.forEach items fun item => .acquire (row item)) position := by
  induction items generalizing position with
  | nil => exact holds position rfl (onward_refl position)
  | cons item items ih =>
    refine wp_bind.mpr fun store later => ih fun after same onward => ?_
    exact holds after same ((onward_lock (row item) later).trans onward)

end Rules

/-- Whatever it reads, such a program changes the store in that way. -/
theorem Discipline.wp_of_writes {allowed : (Store → Store) → Prop}
    (closed : ∀ first second, allowed first → allowed second → allowed (second ∘ first))
    {program : Program Store Row α} {position : Position Store Row}
    (writes : program.Writes allowed) (before : allowed position.change) :
    discipline.wp call (fun _ after => allowed after.change) program position := by
  induction program generalizing position with
  | done value => exact before
  | raise => trivial
  | query next ih => exact fun store _ => ih _ (writes _) before
  | lock row next ih => exact fun store _ => ih _ (writes _) before
  | tryLock row locked busy ihLocked ihBusy =>
    exact ⟨fun store _ => ihLocked _ (writes.1 _) before, ihBusy writes.2 before⟩
  | unlock row next ih => exact ih writes before
  | write change next ih => exact ih writes.2 (closed position.change change before writes.1)

/-- What others commit does not disturb a program that is safe. -/
theorem Discipline.wp_later {post : α → Position Store Row → Prop}
    (stable : ∀ value position store, discipline.Later call position store →
      post value position → post value { position with seen := store })
    {program : Program Store Row α} {position : Position Store Row} {store : Store}
    (later : discipline.Later call position store)
    (safe : discipline.wp call post program position) :
    discipline.wp call post program { position with seen := store } := by
  induction program generalizing position with
  | done value => exact stable value position store later safe
  | raise => trivial
  | query next ih => exact fun third next => safe third (later_trans later next)
  | lock row next ih => exact fun third next => safe third (later_trans later next)
  | tryLock row locked busy ihLocked ihBusy =>
    exact ⟨fun third next => safe.1 third (later_trans later next), ihBusy later safe.2⟩
  | unlock row next ih =>
    have fewer : discipline.Later call { position with locks := position.locks.erase row } store :=
      ⟨later.1, discipline.weaken call _ _ _ _ (fun _ member _ => List.mem_of_mem_erase member)
        later.2⟩
    exact ih fewer safe
  | write change next ih =>
    exact @ih ⟨position.locks, change ∘ position.change, position.seen⟩ later safe

/-- A whole transaction is safe. -/
def Discipline.Safe (discipline : Discipline Store Row Call) (call : Call)
    (program : Program Store Row Unit) (position : Position Store Row) : Prop :=
  discipline.wp call (fun _ => discipline.Commits call) program position

end Disciplines

section Systems

/-- An open transaction of a process. -/
structure Client (Store Row Call : Type) where
  process : Nat
  call : Call
  program : Program Store Row Unit
  locks : List Row
  change : Store → Store

structure System (Store Row Call : Type) where
  committed : Store
  clients : Table (Client Store Row Call) (Table.SameKey Client.process)

/-- A process begins a call, gets one statement further, or loses its connection. -/
inductive Move (Call : Type) where
  | start (process : Nat) (call : Call)
  | advance (process : Nat)
  | abort (process : Nat)

variable {Store Row Call : Type} [DecidableEq Row]

/-- What one statement of a client leaves of it, and what is committed then. -/
def Client.advance (client : Client Store Row Call) (committed : Store) (held : Row → Bool) :
    Option (Client Store Row Call) × Store :=
  match client.program with
  | .done _ => (none, client.change committed)
  | .raise => (none, committed)
  | .query next => (some { client with program := next (client.change committed) }, committed)
  | .lock row next =>
    if held row then (some client, committed)
    else
      (some { client with
        program := next (client.change committed)
        locks := row :: client.locks }, committed)
  | .tryLock row locked busy =>
    if held row then (some { client with program := busy }, committed)
    else
      (some { client with
        program := locked (client.change committed)
        locks := row :: client.locks }, committed)
  | .unlock row next =>
    (some { client with program := next, locks := client.locks.erase row }, committed)
  | .write change next =>
    (some { client with program := next, change := change ∘ client.change }, committed)

namespace System

/-- A row is locked by another process. -/
def held (system : System Store Row Call) (process : Nat) (row : Row) : Bool :=
  system.clients.rows.any fun client => client.process ≠ process && row ∈ client.locks

/-- What is left of a system when a client has ended. -/
def without (system : System Store Row Call) (process : Nat) (committed : Store) :
    System Store Row Call :=
  { committed, clients := system.clients.keep fun row => row.process ≠ process }

/-- A client that goes on. -/
def replacing (system : System Store Row Call) (process : Nat) (after : Client Store Row Call) :
    System Store Row Call :=
  { system with
    clients := system.clients.updateWhere (fun row => row.process = process)
      (fun row => { after with process := row.process }) fun _ => rfl }

def start (program : Call → Program Store Row Unit) (system : System Store Row Call)
    (process : Nat) (call : Call) : System Store Row Call :=
  match system.clients.insert? ⟨process, call, program call, [], id⟩ with
  | some clients => { system with clients }
  | none => system

def advance (system : System Store Row Call) (process : Nat) : System Store Row Call :=
  match system.clients.lookup process with
  | none => system
  | some client =>
    match client.advance system.committed (system.held process) with
    | (some after, _) => system.replacing process after
    | (none, committed) => system.without process committed

def step (program : Call → Program Store Row Unit) (system : System Store Row Call) :
    Move Call → System Store Row Call
  | .start process call => system.start program process call
  | .advance process => system.advance process
  | .abort process => system.without process system.committed

/-- The call that a move commits. -/
def commits (system : System Store Row Call) : Move Call → Option Call
  | .advance process =>
    (system.clients.lookup process).bind fun client =>
      match client.program with
      | .done _ => some client.call
      | _ => none
  | _ => none

/-- The system after the first moves of a run. -/
def systemAt (program : Call → Program Store Row Unit) (store : Store) (moves : List (Move Call)) :
    Nat → System Store Row Call :=
  stateAt (step program) ⟨store, .empty⟩ moves

end System

end Systems

section Soundness

variable {Store Row Call : Type} {discipline : Discipline Store Row Call}
  {program : Call → Program Store Row Unit} {system : System Store Row Call}

/-- Where a client stands. -/
def Client.position (client : Client Store Row Call) (committed : Store) : Position Store Row :=
  ⟨client.locks, client.change, committed⟩

/-- Every open transaction is safe, and no row is locked twice. -/
structure System.Valid [DecidableEq Row] (discipline : Discipline Store Row Call)
    (system : System Store Row Call) : Prop where
  invariant : discipline.invariant system.committed
  safe : ∀ client ∈ system.clients.rows,
    discipline.Safe client.call client.program (client.position system.committed)
  apart : ∀ client ∈ system.clients.rows, ∀ other ∈ system.clients.rows,
    client.process ≠ other.process → client.locks.Disjoint other.locks

/-- A move that a discipline allows for. -/
structure System.Permits (discipline : Discipline Store Row Call)
    (system : System Store Row Call) (move : Move Call) : Prop where
  made : ∀ process call, move = .start process call → discipline.makes call
  timely : ∀ call, system.commits move = some call → discipline.timely call system.committed
  compatible : ∀ client ∈ system.clients.rows, ∀ other ∈ system.clients.rows,
    client.process ≠ other.process → discipline.compatible system.committed client.call client.locks
      other.call other.locks

namespace System

theorem commits_of_lookup {process : Nat} {client : Client Store Row Call} {value : Unit}
    (found : system.clients.lookup process = some client) (code : client.program = .done value) :
    system.commits (.advance process) = some client.call := by
  simp [System.commits, found, code]

/-- A call that commits is that of an open transaction. -/
theorem exists_client_of_commits {move : Move Call} {call : Call}
    (commits : system.commits move = some call) :
    ∃ client ∈ system.clients.rows, client.call = call := by
  cases move with
  | start process call => cases commits
  | abort process => cases commits
  | advance process =>
    obtain ⟨client, found, ends⟩ := Option.bind_eq_some_iff.mp commits
    refine ⟨client, Table.mem_of_lookup found, ?_⟩
    split at ends
    · exact Option.some.inj ends
    · cases ends

variable [DecidableEq Row]

theorem Valid.without (valid : system.Valid discipline) (process : Nat) :
    (system.without process system.committed).Valid discipline where
  invariant := valid.invariant
  safe client member := valid.safe client (List.mem_filter.mp member).1
  apart client member other otherMember :=
    valid.apart client (List.mem_filter.mp member).1 other (List.mem_filter.mp otherMember).1

/-- One client goes on, with the locks it had and those that nobody else has. -/
theorem Valid.replacing (valid : system.Valid discipline) {process : Nat}
    {after : Client Store Row Call}
    (safe : discipline.Safe after.call after.program (after.position system.committed))
    (locks : ∀ row ∈ after.locks, ∀ other ∈ system.clients.rows, other.process ≠ process →
      row ∉ other.locks) :
    (system.replacing process after).Valid discipline where
  invariant := valid.invariant
  safe client member := by
    obtain ⟨row, stored, rfl⟩ := List.mem_map.mp member
    by_cases same : row.process = process
    · simp only [same, decide_true, if_true]
      exact safe
    · simp only [same, decide_false, Bool.false_eq_true, if_false]
      exact valid.safe row stored
  apart client member other otherMember := by
    obtain ⟨row, stored, rfl⟩ := List.mem_map.mp member
    obtain ⟨row', stored', rfl⟩ := List.mem_map.mp otherMember
    by_cases same : row.process = process
    · by_cases same' : row'.process = process
      · simp only [same, same', decide_true, if_true]
        exact fun apart => absurd rfl apart
      · simp only [same, same', decide_true, decide_false, Bool.false_eq_true, if_true, if_false]
        exact fun _ lock mine theirs => locks lock mine row' stored' same' theirs
    · by_cases same' : row'.process = process
      · simp only [same, same', decide_true, decide_false, Bool.false_eq_true, if_true, if_false]
        exact fun _ lock theirs mine => locks lock mine row stored same theirs
      · simp only [same, same', decide_false, Bool.false_eq_true, if_false]
        exact valid.apart row stored row' stored'

/-- A commit leaves every other transaction safe. -/
theorem Valid.commit (valid : system.Valid discipline) {client : Client Store Row Call}
    (member : client ∈ system.clients.rows)
    (timely : discipline.timely client.call system.committed)
    (compatible : ∀ other ∈ system.clients.rows, client.process ≠ other.process →
      discipline.compatible system.committed client.call client.locks other.call other.locks)
    (commits : discipline.Commits client.call (client.position system.committed)) :
    (system.without client.process (client.change system.committed)).Valid discipline := by
  obtain ⟨invariant, _, others⟩ :=
    commits system.committed (Discipline.later_refl valid.invariant) timely
  constructor
  · exact invariant
  · intro other otherMember
    obtain ⟨stored, apart⟩ := List.mem_filter.mp otherMember
    have different : client.process ≠ other.process :=
      fun same => of_decide_eq_true apart same.symm
    have relies := others other.call other.locks (valid.apart client member other stored different)
      (compatible other stored different)
    have later : discipline.Later other.call (other.position system.committed)
        (client.change system.committed) := ⟨invariant, relies⟩
    exact Discipline.wp_later (fun _ _ _ => Discipline.commits_later) later
      (valid.safe other stored)
  · intro first firstMember second secondMember
    exact valid.apart first (List.mem_filter.mp firstMember).1 second
      (List.mem_filter.mp secondMember).1

/-- A call that begins is safe by itself, and holds no lock. -/
theorem Valid.start (valid : system.Valid discipline) {process : Nat} {call : Call}
    (safe : discipline.Safe call (program call) ⟨[], id, system.committed⟩) :
    (system.start program process call).Valid discipline := by
  unfold System.start
  split
  · rename_i clients inserted
    have mem (client : Client Store Row Call) : client ∈ clients.rows ↔
        client ∈ system.clients.rows ∨ client = ⟨process, call, program call, [], id⟩ := by
      rw [Table.rows_of_insert? inserted, List.mem_append, List.mem_singleton]
    constructor
    · exact valid.invariant
    · intro client member
      rcases (mem client).mp member with stored | rfl
      · exact valid.safe client stored
      · exact safe
    · intro client member other otherMember
      rcases (mem client).mp member with stored | rfl
      · rcases (mem other).mp otherMember with stored' | rfl
        · exact valid.apart client stored other stored'
        · exact fun _ => List.disjoint_nil_right _
      · exact fun _ => List.disjoint_nil_left _
  · exact valid

theorem not_mem_of_not_held {process : Nat} {row : Row}
    (free : ¬ system.held process row) {other : Client Store Row Call}
    (member : other ∈ system.clients.rows) (apart : other.process ≠ process) :
    row ∉ other.locks := by
  intro locked
  apply free
  apply List.any_eq_true.mpr
  exact ⟨other, member, by simp [apart, locked]⟩

/-- One statement of a client keeps everybody safe. -/
theorem Valid.advance (valid : system.Valid discipline) {process : Nat}
    (permits : system.Permits discipline (.advance process)) :
    (system.advance process).Valid discipline := by
  unfold System.advance
  split
  · exact valid
  · rename_i client found
    have member := Table.mem_of_lookup found
    have keyed : client.process = process := Table.key_of_lookup found
    have mine := valid.safe client member
    have now : discipline.Later client.call (client.position system.committed) system.committed :=
      Discipline.later_refl valid.invariant
    have locks : ∀ row ∈ client.locks, ∀ other ∈ system.clients.rows,
        other.process ≠ process → row ∉ other.locks := by
      intro row locked other otherMember apart theirs
      exact valid.apart client member other otherMember
        (fun same => apart (same.symm.trans keyed)) locked theirs
    have gained {row : Row} (free : ¬ system.held process row) :
        ∀ lock ∈ row :: client.locks, ∀ other ∈ system.clients.rows,
          other.process ≠ process → lock ∉ other.locks := by
      intro lock locked other otherMember apart
      rcases List.mem_cons.mp locked with rfl | before
      · exact not_mem_of_not_held free otherMember apart
      · exact locks lock before other otherMember apart
    unfold Client.advance
    cases code : client.program with
    | done value =>
      rw [code] at mine
      have timely := permits.timely client.call (commits_of_lookup found code)
      exact keyed ▸ valid.commit member timely (permits.compatible client member) mine
    | raise => exact valid.without process
    | query next =>
      rw [code] at mine
      exact valid.replacing (mine system.committed now) locks
    | lock row next =>
      rw [code] at mine
      by_cases free : system.held process row
      · simp only [free, if_true]
        refine valid.replacing ?_ locks
        rw [code]
        exact mine
      · simp only [free, Bool.false_eq_true, if_false]
        exact valid.replacing (mine system.committed now) (gained free)
    | tryLock row locked busy =>
      rw [code] at mine
      by_cases free : system.held process row
      · simp only [free, if_true]
        exact valid.replacing mine.2 locks
      · simp only [free, Bool.false_eq_true, if_false]
        exact valid.replacing (mine.1 system.committed now) (gained free)
    | unlock row next =>
      rw [code] at mine
      exact valid.replacing mine fun lock locked => locks lock (List.mem_of_mem_erase locked)
    | write change next =>
      rw [code] at mine
      exact valid.replacing mine locks

variable {store : Store}

/-- What one move keeps. -/
theorem Valid.step (valid : system.Valid discipline)
    (safe : ∀ call store, discipline.makes call → discipline.invariant store →
      discipline.Safe call (program call) ⟨[], id, store⟩)
    {move : Move Call} (permits : system.Permits discipline move) :
    (system.step program move).Valid discipline := by
  cases move with
  | start process call =>
    exact valid.start (safe call system.committed (permits.made process call rfl) valid.invariant)
  | advance process => exact valid.advance permits
  | abort process => exact valid.without process

/-- A commit ensures what its call promises. -/
theorem Valid.ensures (valid : system.Valid discipline) {move : Move Call}
    (permits : system.Permits discipline move) {call : Call}
    (commits : system.commits move = some call) :
    discipline.ensures call system.committed (system.step program move).committed := by
  cases move with
  | start process call => cases commits
  | abort process => cases commits
  | advance process =>
    have timely := permits.timely call commits
    obtain ⟨client, found, ends⟩ := Option.bind_eq_some_iff.mp commits
    cases code : client.program with
    | done value =>
      rw [code] at ends
      obtain rfl := Option.some.inj ends
      have mine := valid.safe client (Table.mem_of_lookup found)
      rw [code] at mine
      have after : (system.step program (.advance process)).committed =
          client.change system.committed := by
        simp only [System.step, System.advance, found, Client.advance, code]
        rfl
      rw [after]
      exact (mine system.committed (Discipline.later_refl valid.invariant) timely).2.1
    | _ =>
      rw [code] at ends
      cases ends

/-- Nothing but a commit changes the committed store. -/
theorem committed_of_not_commits {move : Move Call} (commits : system.commits move = none) :
    (system.step program move).committed = system.committed := by
  cases move with
  | start process call =>
    simp only [System.step, System.start]
    split <;> rfl
  | abort process => rfl
  | advance process =>
    simp only [System.step, System.advance]
    split
    · rfl
    · rename_i client found
      cases code : client.program with
      | done value =>
        rw [commits_of_lookup found code] at commits
        cases commits
      | lock row next =>
        by_cases free : system.held process row <;>
          simp [Client.advance, code, free, replacing]
      | tryLock row locked busy =>
        by_cases free : system.held process row <;>
          simp [Client.advance, code, free, replacing]
      | _ =>
        simp only [Client.advance, code]
        rfl

/-- A statement is of the same call as the one before it. -/
theorem call_of_advance {client after : Client Store Row Call} {committed : Store}
    {held : Row → Bool} (goes : (client.advance committed held).1 = some after) :
    after.call = client.call := by
  unfold Client.advance at goes
  cases code : client.program with
  | done value => simp [code] at goes
  | raise => simp [code] at goes
  | query next =>
    simp only [code, Option.some.injEq] at goes
    exact goes ▸ rfl
  | lock row next =>
    by_cases taken : held row
    · simp only [code, taken, if_true, Option.some.injEq] at goes
      exact goes ▸ rfl
    · simp only [code, taken, Bool.false_eq_true, if_false, Option.some.injEq] at goes
      exact goes ▸ rfl
  | tryLock row locked busy =>
    by_cases taken : held row
    · simp only [code, taken, if_true, Option.some.injEq] at goes
      exact goes ▸ rfl
    · simp only [code, taken, Bool.false_eq_true, if_false, Option.some.injEq] at goes
      exact goes ▸ rfl
  | unlock row next =>
    simp only [code, Option.some.injEq] at goes
    exact goes ▸ rfl
  | write change next =>
    simp only [code, Option.some.injEq] at goes
    exact goes ▸ rfl

/-- An open transaction is of a call that was open before, or begins. -/
theorem call_of_mem_step {move : Move Call} {client : Client Store Row Call}
    (member : client ∈ (system.step program move).clients.rows) :
    (∃ before ∈ system.clients.rows, before.call = client.call) ∨
      ∃ process, move = .start process client.call := by
  cases move with
  | start process call =>
    simp only [System.step, System.start] at member
    split at member
    · rename_i clients inserted
      rw [Table.rows_of_insert? inserted, List.mem_append, List.mem_singleton] at member
      rcases member with stored | rfl
      · exact Or.inl ⟨client, stored, rfl⟩
      · exact Or.inr ⟨process, rfl⟩
    · exact Or.inl ⟨client, member, rfl⟩
  | abort process => exact Or.inl ⟨client, (List.mem_filter.mp member).1, rfl⟩
  | advance process =>
    left
    simp only [System.step, System.advance] at member
    split at member
    · exact ⟨client, member, rfl⟩
    · rename_i own found
      split at member
      · rename_i after _ goes
        obtain ⟨row, stored, rfl⟩ := List.mem_map.mp member
        by_cases same : row.process = process
        · refine ⟨own, Table.mem_of_lookup found, ?_⟩
          have kept : after.call = own.call := call_of_advance (congrArg Prod.fst goes)
          simp [same, kept]
        · exact ⟨row, stored, by simp [same]⟩
      · exact ⟨client, (List.mem_filter.mp member).1, rfl⟩

/-- Calls that are safe one by one keep the discipline together, in every run of moves that it
allows for. -/
theorem valid_systemAt (initially : discipline.invariant store)
    (safe : ∀ call store, discipline.makes call → discipline.invariant store →
      discipline.Safe call (program call) ⟨[], id, store⟩)
    {moves : List (Move Call)}
    (permitted : EachStep (System.step program) ⟨store, .empty⟩
      (fun system move => system.Permits discipline move) moves) (moment : Nat) :
    (systemAt program store moves moment).Valid discipline := by
  refine permitted.invariant (fun system => system.Valid discipline) ?_ ?_ moment
  · exact ⟨initially, fun _ member => (nomatch member), fun _ member => (nomatch member)⟩
  · exact fun system move permits valid => valid.step safe permits

/-- From one moment of a run to the next, a call commits what it ensures, or nothing changes. -/
theorem ensures_systemAt (initially : discipline.invariant store)
    (safe : ∀ call store, discipline.makes call → discipline.invariant store →
      discipline.Safe call (program call) ⟨[], id, store⟩)
    {moves : List (Move Call)}
    (permitted : EachStep (System.step program) ⟨store, .empty⟩
      (fun system move => system.Permits discipline move) moves) (moment : Nat) :
    ((systemAt program store moves (moment + 1)).committed =
        (systemAt program store moves moment).committed ∧
      ∀ move, moves[moment]? = some move →
        (systemAt program store moves moment).commits move = none) ∨
      ∃ move call, moves[moment]? = some move ∧
        (systemAt program store moves moment).commits move = some call ∧
        discipline.ensures call (systemAt program store moves moment).committed
          (systemAt program store moves (moment + 1)).committed := by
  have valid := valid_systemAt initially safe permitted moment
  unfold systemAt at valid ⊢
  rcases stateAt_next (System.step program) ⟨store, .empty⟩ moves moment with
    ⟨move, present, next⟩ | ⟨rest, next⟩
  · rw [next]
    cases commits : (stateAt (System.step program) ⟨store, .empty⟩ moves moment).commits move with
    | none =>
      refine Or.inl ⟨committed_of_not_commits commits, fun other there => ?_⟩
      obtain rfl := Option.some.inj (present.symm.trans there)
      exact commits
    | some call =>
      right
      exact ⟨move, call, present, commits,
        valid.ensures (permitted moment move present) commits⟩
  · refine Or.inl ⟨congrArg System.committed next, fun move there => ?_⟩
    rw [rest] at there
    cases there

end System

end Soundness

end OHHive.Foundation
