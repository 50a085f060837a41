import OHHive.LocalHub.RunIdentity

/-! Preparations of staged coding tasks: the owner's request, the target's taking and completing
of it, and the owner's recovery of one that was interrupted. -/

namespace OHHive.LocalHub

open Foundation

section Records

inductive PreparationState where
  | queued
  | claimed
  | prepared
deriving DecidableEq, Repr

/-- A stored row of `private_preparations`, with the card as it was when requested. -/
structure PreparationRow where
  id : OperationId
  cardId : CardId
  targetNodeId : NodeId
  card : ClaimedCard
  state : PreparationState
  session : Option SessionId
  workspace : Option String
  created : Int
deriving DecidableEq, Repr

/-- Unique for the operation, and unique for the card. -/
def PreparationRow.Clash (earlier later : PreparationRow) : Prop :=
  earlier.id = later.id ∨ earlier.cardId = later.cardId

instance : DecidableRel PreparationRow.Clash := fun _ _ => inferInstanceAs (Decidable (_ ∨ _))

theorem PreparationRow.Clash.symm {earlier later : PreparationRow}
    (clash : earlier.Clash later) : later.Clash earlier :=
  clash.imp Eq.symm Eq.symm

/-- A stored row of `private_preparation_recoveries`: the session it retires. -/
structure Recovery where
  requestId : OperationId
  operationId : OperationId
  retiredSession : SessionId
  requestedBy : NodeId
  created : Int
deriving DecidableEq, Repr

/-- The board with its preparations. -/
structure PreparationStore where
  board : Board
  preparations : Table PreparationRow PreparationRow.Clash
  recoveries : Table Recovery (Table.SameKey Recovery.requestId)

end Records

namespace PreparationStore

def empty : PreparationStore := ⟨.empty, .empty, .empty⟩

/-- `SELECT .. WHERE id=?1`. -/
def preparation? (store : PreparationStore) (operation : OperationId) : Option PreparationRow :=
  store.preparations.rows.find? (fun row => row.id = operation)

/-- `SELECT .. WHERE card_id=?1`. -/
def preparationOf (store : PreparationStore) (card : CardId) : Option PreparationRow :=
  store.preparations.rows.find? (fun row => row.cardId = card)

/-- `UPDATE private_preparations SET .. WHERE id=?1`; identities are never written. -/
def updatePreparation (store : PreparationStore) (operation : OperationId)
    (change : PreparationRow → PreparationRow)
    (fixed : ∀ row, (change row).id = row.id ∧ (change row).cardId = row.cardId) :
    PreparationStore :=
  { store with
    preparations := store.preparations.update
      (fun row => if row.id = operation then change row else row) (by
        intro earlier later clash
        simp only [PreparationRow.Clash] at clash ⊢
        split at clash <;> split at clash <;> simpa only [fixed] using clash) }

/-- The surroundings of a transaction on the board, with the store's own preparations. -/
def surround (store : PreparationStore) (around : Surroundings) : Surroundings :=
  { around with
    preparation := fun card => (store.preparationOf card).map (fun row =>
      ⟨row.targetNodeId, row.state = .prepared⟩) }

end PreparationStore

section Operations

variable (around : Surroundings)

/-- The stored task with its target; its submission must be its own. -/
def task (board : Board) (id : CardId) : Result (Card × NodeId) := do
  let card ← orFail (board.card? id) dbError
  let submission ← orFail card.data.requiredCapabilities.submission
    (rejected "not a private coding task")
  require (submission.requestId = id ∧ submission.projectId = card.data.projectId ∧
      card.data.requiredCapabilities.targetNodeId = some submission.targetNodeId)
    (rejected "invalid private task target")
  pure (card, submission.targetNodeId)

/-- Owner intent only; the same request again changes nothing. -/
def privatePreparationRequest (store : PreparationStore) (hub : Session)
    (operation : OperationId) (cardId : CardId) (clock : Nat → Int) : Result PreparationStore := do
  require (operation ≠ 0) (rejected "invalid preparation identity")
  let owner ← around.verifiedOwner hub.node
  let (card, target) ← task store.board cardId
  around.verifyTarget owner target
  match store.preparation? operation with
  | some row => do
    require (row.cardId = cardId ∧ row.targetNodeId = target)
      (rejected "preparation request ID conflicts with existing work")
    pure store
  | none => do
    require (card.status = .blocked ∧ card.reason = some waiting)
      (rejected "task is not awaiting preparation")
    let preparations ← orFail (store.preparations.insert?
      ⟨operation, cardId, target, card.data, .queued, none, none, clock 0⟩) dbError
    pure { store with preparations }

/-- The head of a computer's queue: the oldest preparation that is not done, leaving out those of
workflows that are no longer active. -/
def nextPreparation (store : PreparationStore) (node : NodeId) (inactive : CardId → Bool) :
    Option PreparationRow :=
  let waiting := store.preparations.rows.filter (fun row =>
    row.targetNodeId = node && row.state ≠ .prepared && !inactive row.cardId)
  (waiting.insertionSort (fun first second => first.created ≤ second.created)).head?

/-- What the target is to prepare. -/
structure PreparationWork where
  operationId : OperationId
  card : ClaimedCard
deriving DecidableEq, Repr

/-- Same-session replay reconciles a lost response. Another session cannot silently take over. -/
def privatePreparationTake (store : PreparationStore) (hub : Session)
    (inactive : CardId → Bool) : Result (PreparationStore × Option PreparationWork) := do
  let owner ← around.verifiedOwner hub.node
  around.verifyTarget owner hub.node
  match nextPreparation store hub.node inactive with
  | none => pure (store, none)
  | some row => do
    require (store.recoveries.rows.all (fun recovery =>
        ¬ (recovery.operationId = row.id ∧ recovery.retiredSession = hub.session)))
      (rejected "this preparation session was retired; reconnect before recovering")
    require (¬ (row.state = .claimed ∧ row.session ≠ some hub.session))
      (rejected "preparation belongs to another session; reconcile before retrying")
    let (current, bound) ← task store.board row.card.id
    require (bound = hub.node ∧ current = ⟨row.card, .blocked, some waiting⟩)
      (rejected "staged task changed before preparation")
    pure (store.updatePreparation row.id
      (fun row => { row with state := .claimed, session := some hub.session })
      (fun _ => ⟨rfl, rfl⟩), some ⟨row.id, row.card⟩)

/-- Only the assigned worker may attest its local checkout. -/
def privatePreparationComplete (store : PreparationStore) (hub : Session)
    (operation : OperationId) (workspace : String) : Result PreparationStore := do
  checkText workspace 4096
  require (workspace.toList.head? = some '/')
    (rejected "prepared workspace must be absolute on the execution host")
  let owner ← around.verifiedOwner hub.node
  let row ← orFail (store.preparation? operation) dbError
  around.verifyTarget owner row.targetNodeId
  require (row.targetNodeId = hub.node) (rejected "preparation belongs to another computer")
  require (row.session = some hub.session) (rejected "preparation session does not match")
  if row.state = .prepared then
    require (row.workspace = some workspace) (rejected "preparation receipt changed")
    pure store
  else
    require (row.state = .claimed) (rejected "preparation was not claimed")
    let (card, _) ← task store.board row.cardId
    require (card = ⟨row.card, .blocked, some waiting⟩) (rejected "task changed during preparation")
    let board ← completePreparation store.board row.cardId workspace
    pure (PreparationStore.updatePreparation { store with board } operation
      (fun row => { row with state := .prepared, workspace := some workspace })
      (fun _ => ⟨rfl, rfl⟩))

/-- Explicit owner recovery: the earlier session is retired for this preparation. -/
def privatePreparationRecover (store : PreparationStore) (hub : Session)
    (request operation : OperationId) (clock : Nat → Int) : Result PreparationStore := do
  require (request ≠ 0) (rejected "invalid recovery request identity")
  let owner ← around.verifiedOwner hub.node
  let row ← orFail (store.preparation? operation) dbError
  around.verifyTarget owner row.targetNodeId
  match store.recoveries.lookup request with
  | some existing => do
    require (existing.operationId = operation)
      (rejected "recovery request conflicts with another operation")
    pure store
  | none => do
    require (row.state = .claimed)
      (rejected "only an interrupted claimed preparation can be recovered")
    let (card, _) ← task store.board row.cardId
    require (card.status = .blocked ∧ card.reason = some waiting)
      (rejected "task is no longer awaiting preparation")
    require (store.board.privateRuns.rows.all (fun run => run.cardId ≠ card.id) ∧
        store.board.leases.rows.all (fun lease => lease.cardId ≠ card.id))
      (rejected "preparation recovery cannot change an execution attempt")
    let session ← orFail row.session dbError
    let recoveries ← orFail (store.recoveries.insert?
      ⟨request, operation, session, hub.node, clock 0⟩) dbError
    pure (PreparationStore.updatePreparation { store with recoveries } operation
      (fun row => { row with state := .queued, session := none }) (fun _ => ⟨rfl, rfl⟩))

/-- The attestation is a transaction of the preparation, not one of the board alone. -/
def Op.attests : Op → Bool
  | .completePreparation .. => true
  | _ => false

inductive PreparationOp where
  | board (op : Op) (apart : op.attests = false)
  | request (hub : Session) (operation : OperationId) (card : CardId)
  | take (hub : Session) (inactive : CardId → Bool)
  | complete (hub : Session) (operation : OperationId) (workspace : String)
  | recover (hub : Session) (request operation : OperationId)

/-- A transaction with what it reads elsewhere and its successive readings of the clock. -/
structure PreparationEvent where
  op : PreparationOp
  around : Surroundings
  clock : Nat → Int

def PreparationEvent.reply (event : PreparationEvent) (store : PreparationStore) :
    Result PreparationStore :=
  match event.op with
  | .board op _ => do
    let board ← Event.reply ⟨op, store.surround event.around, event.clock⟩ store.board
    pure { store with board }
  | .request hub operation card =>
    privatePreparationRequest event.around store hub operation card event.clock
  | .take hub inactive => Prod.fst <$> privatePreparationTake event.around store hub inactive
  | .complete hub operation workspace =>
    privatePreparationComplete event.around store hub operation workspace
  | .recover hub request operation =>
    privatePreparationRecover event.around store hub request operation event.clock

def PreparationStore.step (store : PreparationStore) (event : PreparationEvent) :
    PreparationStore :=
  match event.reply store with
  | .ok next => next
  | .error _ => store

/-- The store after the first transactions of a run that begins with a new hub. -/
abbrev storeAt (events : List PreparationEvent) (moment : Nat) : PreparationStore :=
  stateAt PreparationStore.step PreparationStore.empty events moment

end Operations

end OHHive.LocalHub
