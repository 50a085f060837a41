import OHHive.Cloud.Ledger

/-! The cloud's cards with their leases, outputs, budgets and holds, and the statements that its
functions share: the update of a status with its trigger, the deletion of leases with theirs. -/

namespace OHHive.Cloud

open Foundation

abbrev ProjectId := Uuid
abbrev MemberId := Uuid

inductive Modality where
  | text
  | code
  | image
  | video
  | speech
  | music
deriving DecidableEq, Repr

inductive CardStatus where
  | suggested
  | ready
  | running
  | blocked
  | waitingOnChild
  | review
  | done
deriving DecidableEq, Repr

inductive ExecutionMode where
  | localMode
  | hiveMode
deriving DecidableEq, Repr

inductive Presence where
  | checkedIn
  | checkedOut
  | draining
deriving DecidableEq, Repr

/-- A `numeric` argument, which may also be `NaN` or infinite. -/
inductive Numeric where
  | finite (value : ℚ)
  | special
deriving DecidableEq, Repr

section Rows

/-- The keys of `required_capabilities` that the functions read, and its text. -/
structure Capabilities where
  text : String
  targetNodeId : Option String
  declaresAcceptance : Bool
  toolsLevel : Option String
  modelId : Option String
  mcpServerId : Option String
deriving DecidableEq, Repr

structure Card where
  id : CardId
  projectId : ProjectId
  key : String
  modality : Modality
  inputs : String
  requiredCapabilities : Capabilities
  deps : List String
  requiresInternet : Bool
  status : CardStatus
  parentCardId : Option CardId
  priority : Int
  orderIndex : Int
  createdAt : Time
deriving DecidableEq, Repr

/-- A card as it is created: suggested, or ready to be claimed. -/
structure NewCard where
  card : Card
  unstarted : card.status = .suggested ∨ card.status = .ready

/-- A row of `leases`; its key is the card. -/
structure Lease where
  card : CardId
  node : NodeId
  expiresAt : Time
deriving DecidableEq, Repr

structure CardOutput where
  card : CardId
  node : Option NodeId
  content : String
deriving DecidableEq, Repr

structure Checkpoint where
  card : CardId
  node : NodeId
  step : Int
  state : String
deriving DecidableEq, Repr

/-- A row of `compute_card_budgets`. The limit was checked to have six decimals. -/
structure Approval where
  card : CardId
  approvedBy : MemberId
  payer : AccountId
  limit : Int
  inputRate : ℚ
  outputRate : ℚ
  inputHash : String
  session : Option Uuid
  approvedAt : Time
  positive : limit > 0
deriving DecidableEq, Repr

def Approval.budget (approval : Approval) : ComputeBudget where
  card := approval.card
  payer := approval.payer
  maxHoney := approval.limit

/-- A row of `speech_card_prices`. -/
structure SpeechPrice where
  card : CardId
  rateId : Uuid
  approvedBy : MemberId
  honeyPerSecond : ℚ
  maxSeconds : ℚ
  maxHoney : Int
  inputHash : String
  positive : maxHoney > 0
deriving DecidableEq, Repr

structure Hive where
  cards : Table Card (Table.SameKey Card.id)
  leases : Table Lease (Table.SameKey Lease.card)
  outputs : List CardOutput
  checkpoints : List Checkpoint
  approvals : Table Approval (Table.SameKey Approval.card)
  prices : Table SpeechPrice (Table.SameKey SpeechPrice.card)
  reservations : Table Reservation (Table.SameKey fun row => (row.card, row.source))
  entries : List LedgerEntry
  balances : Table LedgerCheckpoint (Table.SameKey fun row => (row.account, row.asOf))
  archiveLog : Table ArchivedMonth (Table.SameKey ArchivedMonth.monthStart)

end Rows

section Surroundings

structure Project where
  owner : MemberId
  fundAccount : AccountId
  executionMode : ExecutionMode
  requiresInternet : Bool
  deleted : Bool
deriving DecidableEq, Repr

structure Node where
  member : Option MemberId
  presence : Presence
  lastHeartbeat : Option Time
  modalities : List Modality
  models : List String
  runsAcceptance : Bool
  allowInternet : Bool
  sandboxedTools : Bool
deriving DecidableEq, Repr

/-- A member's interview, with the card that it waits for. -/
structure Interview where
  member : MemberId
  pendingCard : Option CardId
deriving DecidableEq, Repr

/-- What a call reads outside the store: the other tables, who calls, and the clock. -/
structure Surroundings where
  now : Time
  clockTimestamp : Time
  verifyNodeKey : String → Option NodeId
  ctlDelegateNode : String → Option NodeId
  user : Option MemberId
  isMember : Bool
  isProjectAdmin : ProjectId → Bool
  memberActive : MemberId → Bool
  project : ProjectId → Option Project
  node : NodeId → Option Node
  interview : Uuid → Option Interview
  mcpServerEnabled : String → MemberId → Bool
  chart : Chart
  memberWallet : MemberId → Option AccountId
  inputRate : Option Numeric
  outputRate : Option Numeric
  speechRate : Option (Uuid × ℚ)
  md5 : String → String
  mintedTxn : TxnId

/-- `md5(c.inputs || c.required_capabilities::text)`. -/
def Surroundings.inputHash (around : Surroundings) (card : Card) : String :=
  around.md5 (card.inputs ++ card.requiredCapabilities.text)

end Surroundings

namespace Hive

section Statements

/-- The tables that the balance functions read. -/
def ledger (hive : Hive) : Ledger where
  entries := hive.entries
  checkpoints := hive.balances
  archiveLog := hive.archiveLog
  reservations := hive.reservations
  budgets :=
    { rows := hive.approvals.rows.map Approval.budget
      distinct := hive.approvals.distinct.map Approval.budget fun _ _ apart same => apart same }

/-- `update cards set status = … where id = …`. -/
def withStatus (hive : Hive) (card : CardId) (status : CardStatus) : Hive :=
  { hive with
    cards := hive.cards.updateWhere (fun row => row.id = card) (fun row => { row with status })
      fun _ => rfl }

def insertOutput (hive : Hive) (output : CardOutput) : Hive :=
  { hive with outputs := hive.outputs ++ [output] }

def finished : CardStatus → Bool
  | .review | .done => true
  | _ => false

/-- The trigger `cascade_child_status`, fired for a child that got a new status. Every level it
climbs ends a wait, so the number of cards bounds its depth. -/
def cascadeChildStatus (hive : Hive) (parent? : Option CardId) (status : CardStatus)
    (childKey : String) : Nat → Hive
  | 0 => hive
  | depth + 1 =>
    match parent? with
    | none => hive
    | some parent =>
      match hive.cards.lookup parent with
      | none => hive
      | some row =>
        if row.status ≠ .waitingOnChild then hive
        else if finished status then
          if hive.cards.rows.all (fun child =>
              child.parentCardId ≠ some parent || finished child.status) then
            hive.withStatus parent .ready
          else hive
        else if status = .blocked then
          ((hive.withStatus parent .blocked).cascadeChildStatus row.parentCardId .blocked row.key
            depth).insertOutput
              ⟨parent, none, "FAILED: spawned child " ++ childKey ++ " failed"⟩
        else hive

/-- An update of one card's status, with its trigger. -/
def setStatus (hive : Hive) (card : CardId) (status : CardStatus) : Hive :=
  match hive.cards.lookup card with
  | none => hive
  | some row =>
    let updated := hive.withStatus card status
    if row.status = status then updated
    else updated.cascadeChildStatus row.parentCardId status row.key hive.cards.rows.length

/-- `delete from leases`, with the trigger `release_speech_reservation`. -/
def deleteLeases (hive : Hive) (selects : Lease → Bool) : Hive :=
  { hive with
    leases := hive.leases.keep fun lease => !selects lease
    reservations := hive.reservations.keep fun row =>
      !hive.leases.rows.any fun lease => selects lease && lease.card = row.card }

/-- The update of the reapers: the cards of deleted leases, as far as they are running. No child
gets a status that wakes its parent. -/
def readyAgain (hive : Hive) (reaped : List CardId) : Hive :=
  { hive with
    cards := hive.cards.updateWhere (fun row => row.id ∈ reaped && row.status = .running)
      (fun row => { row with status := .ready }) fun _ => rfl }

/-- The lease that a node holds on a card. -/
def leaseOf (hive : Hive) (card : CardId) (node : NodeId) : Option Lease :=
  (hive.leases.lookup card).filter fun lease => lease.node = node

end Statements

end Hive

end OHHive.Cloud
