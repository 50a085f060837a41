import OHHive.Foundation.Fallible
import OHHive.Foundation.Table
import OHHive.LocalHub.Basics

/-! The host-local journal of subscription turns: sessions with their writer leases, turns with
their phases, and the transactions on both. -/

namespace OHHive.Subscription

open Foundation

section Records

inductive JournalError where
  | storage
  | binding
  | busy
  | stale
  | uncertain
  | conflict
  | invalid
deriving DecidableEq, Repr

inductive Provider where
  | chatgpt
  | copilot
  | grok
deriving DecidableEq, Repr

structure Binding where
  session : Uuid
  owner : Uuid
  host : Uuid
  agent : Uuid
  conversation : Uuid
  account : Uuid
  provider : Provider
  workspace : Uuid
  policyRevision : String
deriving DecidableEq, Repr

structure Lease where
  session : Uuid
  writer : Uuid
  generation : Nat
deriving DecidableEq, Repr

inductive TurnState where
  | prepared
  | dispatched
  | deliveryUnknown
  | completed
  | failed
deriving DecidableEq, Repr

/-- The states of `turns_pending`. -/
def TurnState.isPending : TurnState → Bool
  | .prepared | .dispatched | .deliveryUnknown => true
  | .completed | .failed => false

/-- Sent, and not yet finished. -/
def TurnState.isSent : TurnState → Bool
  | .dispatched | .deliveryUnknown => true
  | .prepared | .completed | .failed => false

/-- The terminal state of an outcome. -/
def TurnState.terminal (succeeded : Bool) : TurnState := if succeeded then .completed else .failed

structure TurnRecord where
  state : TurnState
  providerTurn : Option String
  receipt : Option String
deriving DecidableEq, Repr

/-- The recorded provider turn differs from this one. -/
def TurnRecord.otherTurn (record : TurnRecord) (providerTurn : String) : Bool :=
  record.providerTurn.any (fun id => id ≠ providerTurn)

structure PendingTurn where
  operation : Uuid
  inputHash : String
  record : TurnRecord
deriving DecidableEq, Repr

/-- The primary key of `turns`. -/
structure TurnKey where
  session : Uuid
  operation : Uuid
deriving DecidableEq, Repr

/-- A stored row of `turns`. -/
structure Turn where
  key : TurnKey
  inputHash : String
  record : TurnRecord
deriving DecidableEq, Repr

def Turn.state (turn : Turn) : TurnState := turn.record.state

/-- A stored row of `sessions`; the JSON text it keeps is that of the binding. -/
structure SessionRow where
  id : Uuid
  binding : Binding
  writer : Option Uuid
  generation : Nat
  expires : Int
deriving DecidableEq, Repr

def Turn.withState (state : TurnState) (turn : Turn) : Turn :=
  { turn with record := { turn.record with state } }

def Turn.acknowledged (providerTurn : String) (turn : Turn) : Turn :=
  { turn with record := { turn.record with providerTurn := some providerTurn } }

def Turn.finished (state : TurnState) (providerTurn receipt : String) (turn : Turn) : Turn :=
  { turn with record := ⟨state, some providerTurn, some receipt⟩ }

def SessionRow.claimed (writer : Uuid) (expires : Int) (row : SessionRow) : SessionRow :=
  { row with writer := some writer, generation := row.generation + 1, expires }

def SessionRow.extended (expires : Int) (row : SessionRow) : SessionRow := { row with expires }

def SessionRow.released (row : SessionRow) : SessionRow := { row with writer := none, expires := 0 }

theorem Turn.key_withState (state : TurnState) (turn : Turn) :
    (turn.withState state).key = turn.key := rfl

theorem Turn.key_acknowledged (providerTurn : String) (turn : Turn) :
    (turn.acknowledged providerTurn).key = turn.key := rfl

theorem Turn.key_finished (state : TurnState) (providerTurn receipt : String) (turn : Turn) :
    (turn.finished state providerTurn receipt).key = turn.key := rfl

theorem SessionRow.id_claimed (writer : Uuid) (expires : Int) (row : SessionRow) :
    (row.claimed writer expires).id = row.id := rfl

theorem SessionRow.id_extended (expires : Int) (row : SessionRow) :
    (row.extended expires).id = row.id := rfl

theorem SessionRow.id_released (row : SessionRow) : row.released.id = row.id := rfl

end Records

structure Journal where
  sessions : Table SessionRow (Table.SameKey SessionRow.id)
  turns : Table Turn (Table.SameKey Turn.key)

abbrev JournalResult := Except JournalError

namespace Journal

/-- A new database. -/
def empty : Journal := ⟨.empty, .empty⟩

def session? (journal : Journal) (id : Uuid) : Option SessionRow := journal.sessions.lookup id

def turn? (journal : Journal) (key : TurnKey) : Option Turn := journal.turns.lookup key

/-- `UPDATE turns SET state='delivery_unknown' WHERE session=.. AND state='dispatched'`. -/
def loseDispatched (journal : Journal) (session : Uuid) : Journal :=
  { journal with
    turns := journal.turns.updateWhere
      (fun turn => turn.key.session = session && turn.state = .dispatched)
      (Turn.withState .deliveryUnknown) (Turn.key_withState _) }

def acquire (journal : Journal) (binding : Binding) (writer : Uuid) (seconds : Nat) (now : Int) :
    JournalResult (Journal × Lease) := do
  require (1 ≤ seconds ∧ seconds ≤ 300 ∧ binding.policyRevision ≠ "" ∧
    binding.policyRevision.utf8ByteSize ≤ 256) .invalid
  -- INSERT OR IGNORE
  let sessions :=
    (journal.sessions.insert? ⟨binding.session, binding, none, 0, 0⟩).getD journal.sessions
  let stored ← orFail (sessions.lookup binding.session) .storage
  require (stored.binding = binding) .binding
  require (stored.expires ≤ now) .busy
  require (stored.generation < i64Max) .invalid
  let lost := journal.loseDispatched binding.session
  let sessions := sessions.updateWhere (fun row => row.id = binding.session)
    (SessionRow.claimed writer (now + seconds)) (SessionRow.id_claimed _ _)
  pure ({ lost with sessions }, ⟨binding.session, writer, stored.generation + 1⟩)

/-- The lease is the session's current one, and has not expired. -/
def Current (journal : Journal) (lease : Lease) (now : Int) : Prop :=
  ∃ row, journal.session? lease.session = some row ∧ row.writer = some lease.writer ∧
    row.generation = lease.generation ∧ now < row.expires

def fence (journal : Journal) (lease : Lease) (now : Int) : JournalResult Unit :=
  require (journal.sessions.rows.any (fun row => row.id = lease.session &&
    row.writer = some lease.writer && row.generation = lease.generation && now < row.expires)) .stale

def renew (journal : Journal) (lease : Lease) (seconds : Nat) (now : Int) :
    JournalResult (Journal × Unit) := do
  require (1 ≤ seconds ∧ seconds ≤ 300) .invalid
  journal.fence lease now
  let sessions := journal.sessions.updateWhere (fun row => row.id = lease.session)
    (SessionRow.extended (now + seconds)) (SessionRow.id_extended _)
  pure ({ journal with sessions }, ())

def read (journal : Journal) (key : TurnKey) : JournalResult TurnRecord := do
  let turn ← orFail (journal.turn? key) .storage
  pure turn.record

def isHexDigit (char : Char) : Bool :=
  char.isDigit || ('a' ≤ char && char ≤ 'f') || ('A' ≤ char && char ≤ 'F')

def prepare (journal : Journal) (lease : Lease) (operation : Uuid) (inputHash : String)
    (now : Int) : JournalResult (Journal × TurnRecord) := do
  require (inputHash.utf8ByteSize = 64 ∧ inputHash.toList.all isHexDigit) .invalid
  journal.fence lease now
  let key : TurnKey := ⟨lease.session, operation⟩
  match journal.turn? key with
  | some existing => do
    require (existing.inputHash = inputHash) .conflict
    let record ← journal.read key
    pure (journal, record)
  | none => do
    require (¬ journal.turns.rows.any (fun turn =>
      turn.key.session = lease.session && turn.state.isPending)) .uncertain
    let turns ← orFail (journal.turns.insert? ⟨key, inputHash, .prepared, none, none⟩) .storage
    let inserted : Journal := { journal with turns }
    let record ← inserted.read key
    pure (inserted, record)

/-- Only the answer `true` authorizes its caller to send. -/
def markDispatched (journal : Journal) (lease : Lease) (operation : Uuid) (now : Int) :
    JournalResult (Journal × Bool) := do
  journal.fence lease now
  let key : TurnKey := ⟨lease.session, operation⟩
  let changed := (journal.turn? key).any (fun turn => turn.state = .prepared)
  let turns := journal.turns.updateWhere
    (fun turn => turn.key = key && turn.state = .prepared)
    (Turn.withState .dispatched) (Turn.key_withState _)
  pure ({ journal with turns }, changed)

/-- The unresolved turns of a session, of which there is at most one. -/
def pending (journal : Journal) (lease : Lease) (now : Int) : JournalResult (List PendingTurn) := do
  journal.fence lease now
  let turns := (journal.turns.rows.filter (fun turn =>
    turn.key.session = lease.session && turn.state.isPending)).take 2
  require (turns.length ≤ 1) .storage
  pure (turns.map (fun turn => ⟨turn.key.operation, turn.inputHash, turn.record⟩))

def checkReference (reference : String) : JournalResult Unit :=
  require (reference ≠ "" ∧ reference.utf8ByteSize ≤ 256) .invalid

def acknowledge (journal : Journal) (lease : Lease) (operation : Uuid) (providerTurn : String)
    (now : Int) : JournalResult (Journal × Unit) := do
  checkReference providerTurn
  journal.fence lease now
  let key : TurnKey := ⟨lease.session, operation⟩
  let old ← journal.read key
  require (old.state.isSent ∧ ¬ old.otherTurn providerTurn) .conflict
  let turns := journal.turns.updateWhere (fun turn => turn.key = key)
    (Turn.acknowledged providerTurn) (Turn.key_acknowledged _)
  pure ({ journal with turns }, ())

def release (journal : Journal) (lease : Lease) (now : Int) : JournalResult (Journal × Unit) := do
  journal.fence lease now
  let lost := journal.loseDispatched lease.session
  let sessions := journal.sessions.updateWhere (fun row => row.id = lease.session)
    SessionRow.released SessionRow.id_released
  pure ({ lost with sessions }, ())

/-- A stored outcome is answered when it is the same, and refuses any other. -/
def finish (journal : Journal) (lease : Lease) (operation : Uuid) (providerTurn receipt : String)
    (succeeded : Bool) (now : Int) : JournalResult (Journal × Unit) := do
  checkReference providerTurn
  checkReference receipt
  journal.fence lease now
  let key : TurnKey := ⟨lease.session, operation⟩
  let previous ← journal.read key
  require (¬ previous.otherTurn providerTurn) .conflict
  let state := TurnState.terminal succeeded
  if previous = ⟨state, some providerTurn, some receipt⟩ then pure (journal, ())
  else do
    require previous.state.isSent .conflict
    let turns := journal.turns.updateWhere (fun turn => turn.key = key)
      (Turn.finished state providerTurn receipt) (Turn.key_finished _ _ _)
    pure ({ journal with turns }, ())

end Journal

end OHHive.Subscription
