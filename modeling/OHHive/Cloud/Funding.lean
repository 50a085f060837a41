import OHHive.Cloud.Cards

/-! The money side of a lease: frozen budgets and prices, the holds that the lease triggers take,
and the posting of a transaction. -/

namespace OHHive.Cloud

open Foundation

/-- The order in which debits draw on the sources. -/
def debitOrder : List HoneySource := [.earned, .grant, .purchased]

namespace Hive

section Budgets

/-- `validate_compute_budget`. -/
def validateComputeBudget (around : Surroundings) (hive : Hive) (card : CardId) :
    Except CloudError Approval := do
  let c ← orFail (hive.cards.lookup card) (.raised "compute_budget_required")
  let p ← orFail (around.project c.projectId) (.violates "cards_project_id_fkey")
  let q ← orFail (hive.approvals.lookup card) (.raised "compute_budget_required")
  require (around.memberActive q.approvedBy) (.raised "compute_approver_inactive")
  require (¬ (p.deleted ∨ p.executionMode ≠ .hiveMode ∨
      (c.modality ≠ .text ∧ c.modality ≠ .code) ∨ q.inputHash ≠ around.inputHash c))
    (.raised "compute_input_changed")
  match q.session with
  | none =>
    require (q.approvedBy = p.owner ∧ q.payer = p.fundAccount) (.raised "compute_payer_changed")
  | some session =>
    require ((around.interview session).any (fun s =>
        s.member = q.approvedBy && around.memberWallet s.member = some q.payer &&
          s.pendingCard = some c.id))
      (.raised "interview_payer_changed")
  return q

/-- What is left of an approved limit: `compute_budget_remaining` on stored amounts. -/
def remaining (hive : Hive) (approval : Approval) : Int :=
  max (approval.limit - spentOn hive.entries approval.card) 0

/-- What the holds take of an account, over all sources. -/
def heldOn (hive : Hive) (account : AccountId) : Int :=
  total Reservation.amount hive.reservations.rows fun row => row.account = account

/-- What a card's holds take of an account. -/
def heldFor (hive : Hive) (card : CardId) (account : AccountId) : Int :=
  total Reservation.amount hive.reservations.rows fun row =>
    row.card = card && row.account = account

/-- `card_has_funded_budget`. -/
def cardHasFundedBudget (around : Surroundings) (hive : Hive) (c : Card) : Bool :=
  let funded (payer : AccountId) (amount : Int) : Bool :=
    0 < amount && amount ≤ accountBalance hive.ledger payer around.now - hive.heldOn payer
  match c.modality with
  | .speech =>
    match hive.prices.lookup c.id with
    | none => false
    | some sp =>
      sp.inputHash = around.inputHash c &&
        (around.project c.projectId).any (fun p =>
          p.owner = sp.approvedBy && funded p.fundAccount sp.maxHoney)
  | _ =>
    match hive.validateComputeBudget around c.id with
    | .error _ => false
    | .ok q => funded q.payer (hive.remaining q)

end Budgets

section Triggers

/-- A hold of a debit that `split_debit` built; a debit of nothing violates the table. -/
def hold (card : CardId) (debit : Debit) : Except CloudError Reservation :=
  if positive : 0 < debit.amount then
    .ok ⟨card, debit.account, debit.source, debit.amount, positive⟩
  else .error (.violates "speech_reservations_amount_check")

/-- The loop that inserts the holds of a lease. -/
def insertReservations (card : CardId) : List Debit → Hive → Except CloudError Hive
  | [], hive => .ok hive
  | d :: debits, hive => do
    let row ← hold card d
    let reservations ←
      orFail (hive.reservations.insert? row) (.violates "speech_reservations_pkey")
    insertReservations card debits { hive with reservations }

/-- The trigger `enforce_lease_target_node`. -/
def enforceLeaseTargetNode (c : Card) (node : NodeId) : Except CloudError Unit :=
  require (c.requiredCapabilities.targetNodeId.all (· = toString node))
    (.raised "wrong_target_node")

/-- The trigger `require_speech_price_on_lease`. -/
def requireSpeechPriceOnLease (around : Surroundings) (hive : Hive) (c : Card) (p : Project) :
    Except CloudError Hive :=
  if c.modality = .speech ∧ p.executionMode = .hiveMode then do
    let q ← orFail (hive.prices.lookup c.id) (.raised "speech_price_not_approved")
    require (q.approvedBy = p.owner ∧ q.inputHash = around.inputHash c)
      (.raised "speech_input_changed")
    require (around.chart p.fundAccount).isSome (.raised "project_fund_not_found")
    let debits ← splitDebit around.chart hive.ledger p.fundAccount q.maxHoney debitOrder
    insertReservations c.id debits hive
  else .ok hive

/-- The trigger `reserve_compute_on_lease`. -/
def reserveComputeOnLease (around : Surroundings) (hive : Hive) (c : Card) (p : Project) :
    Except CloudError Hive :=
  if c.modality ≠ .speech ∧ p.executionMode = .hiveMode then do
    let q ← hive.validateComputeBudget around c.id
    require (0 < hive.remaining q) (.raised "compute_budget_exhausted")
    let debits ← splitDebit around.chart hive.ledger q.payer (hive.remaining q) debitOrder
    insertReservations c.id debits hive
  else .ok hive

/-- `insert into leases`: the triggers in the order of their names, then the row. -/
def insertLease (around : Surroundings) (hive : Hive) (c : Card) (p : Project) (lease : Lease) :
    Except CloudError Hive := do
  enforceLeaseTargetNode c lease.node
  let priced ← hive.requireSpeechPriceOnLease around c p
  let held ← priced.reserveComputeOnLease around c p
  let leases ← orFail (held.leases.insert? lease) (.violates "leases_pkey")
  return { held with leases }

end Triggers

section Posting

/-- An entry as its caller builds it. -/
structure Posting where
  account : AccountId
  entryType : EntryType
  direction : Direction
  amount : ℚ
  source : HoneySource
  card? : Option CardId
deriving DecidableEq

def Posting.signed (posting : Posting) : ℚ :=
  match posting.direction with
  | .credit => posting.amount
  | .debit => -posting.amount

/-- The row that a posting stores: its amount rounded to six decimals, which must be positive. -/
def Posting.entry (txn : TxnId) (now : Time) (posting : Posting) :
    Except CloudError LedgerEntry :=
  if positive : 0 < roundMicro posting.amount then
    .ok
      { txnId := txn, account := posting.account, entryType := posting.entryType,
        direction := posting.direction, amount := roundMicro posting.amount,
        source := posting.source, card? := posting.card?, createdAt := now, positive }
  else .error (.violates "ledger_entries_amount_honey_check")

/-- The accounts whose sources `post_txn` checks. -/
def debited (postings : List Posting) : List AccountId :=
  (postings.filter fun posting => posting.direction = .debit).map Posting.account

/-- A wallet or fund of which some source is held or spent beyond its balance. -/
def overdrawn (chart : Chart) (hive : Hive) (account : AccountId) : Bool :=
  (chart account = some .memberWallet || chart account = some .projectFund) &&
    debitOrder.any fun source =>
      sourceBalance hive.entries account source <
        reserved hive.reservations.rows account source

/-- `post_txn`. -/
def postTxn (around : Surroundings) (hive : Hive) (postings : List Posting) :
    Except CloudError Hive := do
  let rows ← postings.mapM (Posting.entry around.mintedTxn around.now)
  let posted := { hive with entries := hive.entries ++ rows }
  require (|(postings.map Posting.signed).sum| ≤ 1 / 2) (.raised "unbalanced_txn")
  require (¬ (debited postings).any (posted.overdrawn around.chart))
    (.raised "insufficient_honey_in_sources")
  return posted

end Posting

end Hive

end OHHive.Cloud
