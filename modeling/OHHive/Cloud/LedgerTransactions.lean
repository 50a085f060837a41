import OHHive.Cloud.Operations
import OHHive.Cloud.Months
import OHHive.Foundation.ReadCommitted

/-! The functions that move honey between accounts, statement by statement, with the rows that they
lock: splitting a debit, posting a transaction, and the calls that fund a project, settle a card or
charge a member for a provider. -/

namespace OHHive.Cloud

open Foundation

section Books

/-- A row of `provider_budget`: the dollars of a calendar month. -/
structure ProviderBudget where
  month : Time
  usdCap : ℚ
  usdSpent : ℚ
deriving DecidableEq, Repr

/-- The store with the provider's months. -/
structure Books where
  hive : Hive
  providerBudget : Table ProviderBudget (Table.SameKey ProviderBudget.month)

/-- The rows that the functions lock. -/
inductive BooksRow where
  | account (account : AccountId)
  | lease (card : CardId)
  | budget (month : Time)
deriving DecidableEq, Repr

abbrev BooksProgram := Program Books BooksRow

def Books.withHive (books : Books) (change : Hive → Hive) : Books :=
  { books with hive := change books.hive }

end Books

namespace Books

section Ledger

/-- `perform 1 from accounts where id = … for no key update; if not found then raise …`. -/
def lockAccount (chart : Chart) (account : AccountId) : BooksProgram Unit := do
  .acquire (.account account)
  .check (chart account).isSome

/-- `split_debit`. -/
def splitDebit (chart : Chart) (account : AccountId) (amount : ℚ) (order : List HoneySource) :
    BooksProgram (List Debit) := do
  lockAccount chart account
  let (remaining, acc) ← splitBuckets
    (fun b => .ask fun books : Books => sourceBalance books.hive.entries account b)
    (fun b => .ask fun books : Books => reserved books.hive.reservations.rows account b)
    account order amount []
  .check (remaining ≤ 1 / 2)
  return acc

/-- The accounts that `post_txn` locks, in their order. -/
def lockOrder (chart : Chart) (postings : List Hive.Posting) : List AccountId :=
  ((Hive.debited postings).dedup.filter fun account => (chart account).isSome).mergeSort
    fun first second => first.value ≤ second.value

def insertEntries (rows : List LedgerEntry) (books : Books) : Books :=
  books.withHive fun hive => { hive with entries := hive.entries ++ rows }

/-- `post_txn`. -/
def postTxn (around : Surroundings) (postings : List Hive.Posting) : BooksProgram Unit := do
  .forEach (lockOrder around.chart postings) fun account => .acquire (.account account)
  let rows ← .orRaise (postings.mapM (Hive.Posting.entry around.mintedTxn around.now)).toOption
  .perform (insertEntries rows)
  .check (|(postings.map Hive.Posting.signed).sum| ≤ 1 / 2)
  let overdrawn ← .ask fun books =>
    (Hive.debited postings).any (books.hive.overdrawn around.chart)
  .check (overdrawn = false)

end Ledger

section Calls

/-- `fund_project`. -/
def fundProject (around : Surroundings) (project : ProjectId) (amount : Numeric) :
    BooksProgram Unit := do
  .check around.isMember
  match amount with
  | .special => .raise
  | .finite amount =>
    .check (0 < amount)
    let wallet? := around.user.bind around.memberWallet
    let p ← .orRaise ((around.project project).filter fun p => !p.deleted)
    let wallet ← .orRaise wallet?
    lockAccount around.chart wallet
    let balance ← .ask fun books => accountBalance books.hive.ledger wallet around.now
    .check (amount ≤ balance)
    let debits ← splitDebit around.chart wallet amount debitOrder
    postTxn around
      (debits.map (fun d => ⟨d.account, .fundProject, .debit, d.amount, d.source, none⟩) ++
        debits.map fun d => ⟨p.fundAccount, .fundProject, .credit, d.amount, d.source, none⟩)

/-- The debits of a charge for a card and the credit of the node's owner. -/
def pay (around : Surroundings) (payer : AccountId) (amount : Int) (card : CardId)
    (nid : NodeId) : BooksProgram Unit := do
  let debits ← splitDebit around.chart payer amount debitOrder
  let wallet ← .orRaise (Hive.nodeWallet around nid)
  postTxn around
    (debits.map (fun d => ⟨d.account, .spendJob, .debit, d.amount, d.source, some card⟩) ++
      [⟨wallet, .earnCompute, .credit, amount, .earned, some card⟩])

/-- The holds of a charge are given up before it is posted; they must be as approved. -/
def releaseHolds (card : CardId) (charge : Hive.Charge) : BooksProgram Unit :=
  match charge.held with
  | none => .done ()
  | some held => do
    let heldFor ← .ask fun books => books.hive.heldFor card charge.payer
    .check (heldFor = held)
    .perform fun books => books.withHive (·.dropReservations card)

/-- The payment of a completion, as far as the payer's balance goes. -/
def settle (around : Surroundings) (p : Project) (charge : Hive.Charge) (card : CardId)
    (nid : NodeId) : BooksProgram Unit := do
  let balance ← .ask fun books =>
    max (accountBalance books.hive.ledger charge.payer around.now) 0
  .check (¬ (p.executionMode = .hiveMode ∧ balance < charge.amount))
  if 0 < min charge.amount balance then
    pay around charge.payer (min charge.amount balance) card nid
  else .done ()

def finishCard (card : CardId) (books : Books) : Books :=
  books.withHive fun hive => (hive.deleteLeases (·.card = card)).setStatus card .review

/-- `node_complete_card` and its delegated copy, from the node of the key on. -/
def completeCard (around : Surroundings) (node? : Option NodeId) (card : CardId)
    (content : String) (usage : Usage) : BooksProgram Unit := do
  let nid ← .orRaise node?
  let lease ← .orRaise
    (← .selectForUpdate (.lease card) fun books => books.hive.leaseOf card nid)
  let c ← .orRaise (← .ask fun books => books.hive.cards.lookup card)
  let p ← .orRaise (around.project c.projectId)
  let charge ← .orRaise
    (← .ask fun books => (books.hive.charge around c p lease usage).toOption)
  .perform fun books => books.withHive (·.insertOutput ⟨card, some nid, content⟩)
  lockAccount around.chart charge.payer
  releaseHolds card charge
  settle around p charge card nid
  .perform (finishCard card)

end Calls

section Provider

/-- The provider's account, and the markup of the rate table. -/
structure ProviderTerms where
  provider : Option AccountId
  markup : Option ℚ

/-- The row of a month that has none yet, with the cap of the latest month. -/
def openingMonth (books : Books) (month : Time) : ProviderBudget :=
  ⟨month, ((books.providerBudget.rows.argmax ProviderBudget.month).map
    ProviderBudget.usdCap).getD 0, 0⟩

def insertMonth (row : ProviderBudget) (books : Books) : Books :=
  { books with
    providerBudget := (books.providerBudget.insert? row).getD books.providerBudget }

/-- `insert into provider_budget … on conflict do nothing`: a row that another transaction is about
to insert is waited for. -/
def ensureMonth (month : Time) : BooksProgram Unit :=
  .query fun books =>
    if (books.providerBudget.lookup month).isSome then .done ()
    else .lock (.budget month) fun current =>
      if (current.providerBudget.lookup month).isSome then .done ()
      else .write (insertMonth (books.openingMonth month)) (.done ())

def bookUsd (month : Time) (usd : ℚ) (books : Books) : Books :=
  { books with
    providerBudget := books.providerBudget.updateWhere (fun row => row.month = month)
      (fun row => { row with usdSpent := row.usdSpent + usd }) fun _ => rfl }

/-- `provider_budget_reserve`. -/
def providerBudgetReserve (now : Time) (usd : ℚ) : BooksProgram Unit := do
  let month := monthStart now
  ensureMonth month
  let b? ← .selectForUpdate (.budget month) fun books => books.providerBudget.lookup month
  match b? with
  | none => .done ()
  | some b => do
    .check (b.usdSpent + usd ≤ b.usdCap)
    .perform (bookUsd month usd)

/-- The honey of a charge in millionths: one honey is a cent, with the markup. -/
def providerHoney (terms : ProviderTerms) (usd : ℚ) : Int :=
  roundMicro (usd * 100 * (1 + terms.markup.getD 0) * 1000000)

/-- What the two charges share: dollars are reserved, then the wallet pays the provider. -/
def chargeProvider (around : Surroundings) (terms : ProviderTerms) (wallet : AccountId) (usd : ℚ)
    (order : List HoneySource) (entryType : EntryType) : BooksProgram Unit :=
  let amt := providerHoney terms usd
  if 0 < amt then do
    providerBudgetReserve around.now usd
    let debits ← splitDebit around.chart wallet amt order
    let provider ← .orRaise terms.provider
    postTxn around
      (debits.map (fun d => ⟨d.account, entryType, .debit, d.amount, d.source, none⟩) ++
        [⟨provider, entryType, .credit, amt, .purchased, none⟩])
  else .done ()

/-- The tokens of an interview turn, at prices per million. -/
structure InterviewUsage where
  tokensIn : Option Int
  tokensOut : Option Int
  usdInPerM : Option ℚ
  usdOutPerM : Option ℚ

def InterviewUsage.costUsd (usage : InterviewUsage) : Option ℚ := do
  let usdIn ← usage.usdInPerM
  let usdOut ← usage.usdOutPerM
  return (usage.tokensIn.getD 0 * usdIn + usage.tokensOut.getD 0 * usdOut) / 1000000

/-- `charge_interview`. -/
def chargeInterview (around : Surroundings) (terms : ProviderTerms) (member : MemberId)
    (usage : InterviewUsage) : BooksProgram Unit := do
  let wallet ← .orRaise (around.memberWallet member)
  match usage.costUsd with
  | none => .done ()
  | some costUsd =>
    chargeProvider around terms wallet costUsd [.purchased] .spendInterview

/-- `charge_media`. -/
def chargeMedia (around : Surroundings) (terms : ProviderTerms) (member : MemberId)
    (usdCost : Option ℚ) (entryType : EntryType) : BooksProgram Unit := do
  .check (usdCost.all fun usd => 0 ≤ usd)
  let wallet ← .orRaise (around.memberWallet member)
  match usdCost with
  | none => .done ()
  | some usdCost => chargeProvider around terms wallet usdCost [.purchased, .grant] entryType

end Provider

end Books

/-- A call that moves honey, in a transaction of its own. -/
inductive BooksCall where
  | chargeInterview (around : Surroundings) (terms : Books.ProviderTerms) (member : MemberId)
      (usage : Books.InterviewUsage)
  | chargeMedia (around : Surroundings) (terms : Books.ProviderTerms) (member : MemberId)
      (usdCost : Option ℚ) (entryType : EntryType)
  | fundProject (around : Surroundings) (project : ProjectId) (amount : Numeric)
  | completeCard (around : Surroundings) (node? : Option NodeId) (card : CardId)
      (content : String) (usage : Usage)

def BooksCall.program : BooksCall → BooksProgram Unit
  | .chargeInterview around terms member usage => Books.chargeInterview around terms member usage
  | .chargeMedia around terms member usdCost entryType =>
    Books.chargeMedia around terms member usdCost entryType
  | .fundProject around project amount => Books.fundProject around project amount
  | .completeCard around node? card content usage =>
    Books.completeCard around node? card content usage

end OHHive.Cloud
