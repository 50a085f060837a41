import Mathlib.Algebra.Order.Round
import Mathlib.Algebra.Order.Floor.Ring
import Mathlib.Data.Rat.Floor
import OHHive.Foundation.Fallible
import OHHive.Foundation.Rollup
import OHHive.Foundation.Table
import OHHive.LocalHub.Basics

/-! The cloud ledger: entries, balance checkpoints, reservations and compute budgets, with the
queries that read balances from them. Amounts are counted in millionths of honey, the
precision of `numeric(24,6)`; an amount that is not stored yet may be a fraction of one. -/

namespace OHHive.Cloud

open Foundation

abbrev AccountId := Uuid
abbrev CardId := Uuid
abbrev NodeId := Uuid
abbrev TxnId := Uuid

/-- `timestamptz`: microseconds since 1970 in UTC. -/
abbrev Time := Int

scoped instance (priority := high) instPreorderTime : Preorder Time :=
  Int.instLinearOrder.toPreorder

/-- An exception of a function, or the refusal of a table constraint. -/
inductive CloudError where
  | raised (message : String)
  | violates (constraint : String)
deriving DecidableEq, Repr

inductive AccountKind where
  | memberWallet
  | projectFund
  | treasury
  | providerCost
  | storagePool
deriving DecidableEq, Repr

/-- The accounts that exist, with their kinds. -/
abbrev Chart := AccountId → Option AccountKind

inductive HoneySource where
  | purchased
  | earned
  | grant
deriving DecidableEq, Repr

def HoneySource.text : HoneySource → String
  | .purchased => "purchased"
  | .earned => "earned"
  | .grant => "grant"

inductive EntryType where
  | purchase
  | earnCompute
  | earnInfra
  | fundProject
  | spendJob
  | spendInterview
  | storageCharge
  | refund
  | adjustment
deriving DecidableEq, Repr

inductive Direction where
  | debit
  | credit
deriving DecidableEq, Repr

/-- A row of `ledger_entries`. -/
structure LedgerEntry where
  txnId : TxnId
  account : AccountId
  entryType : EntryType
  direction : Direction
  amount : Int
  source : HoneySource
  card? : Option CardId
  createdAt : Time
  positive : 0 < amount
deriving DecidableEq, Repr

/-- `case when direction = 'credit' then amount_honey else -amount_honey end`. -/
def LedgerEntry.signed (entry : LedgerEntry) : Int :=
  match entry.direction with
  | .credit => entry.amount
  | .debit => -entry.amount

/-- A row of `ledger_checkpoints`: an account's balance as of the end of an archived month. -/
structure LedgerCheckpoint where
  account : AccountId
  asOf : Time
  balance : Int
  archiveHash : String
deriving DecidableEq, Repr

/-- A row of `ledger_archive_log`. -/
structure ArchivedMonth where
  monthStart : Time
  monthEnd : Time
  archiveHash : String
  txnCount : Nat
  entryCount : Nat
  bytes : Nat
deriving DecidableEq, Repr

/-- A row of `speech_reservations`; only rounded debits of `split_debit` are stored. -/
structure Reservation where
  card : CardId
  account : AccountId
  source : HoneySource
  amount : Int
  positive : 0 < amount
deriving DecidableEq, Repr

/-- A row of `compute_card_budgets`: who pays for a card, and the approved limit. -/
structure ComputeBudget where
  card : CardId
  payer : AccountId
  maxHoney : ℚ
deriving DecidableEq, Repr

structure Ledger where
  entries : List LedgerEntry
  checkpoints : Table LedgerCheckpoint (Table.SameKey fun row => (row.account, row.asOf))
  archiveLog : Table ArchivedMonth (Table.SameKey ArchivedMonth.monthStart)
  reservations : Table Reservation (Table.SameKey fun row => (row.card, row.source))
  budgets : Table ComputeBudget (Table.SameKey ComputeBudget.card)

/-- `round(x, 6)`: half away from zero. -/
def roundMicro (amount : ℚ) : Int :=
  if 0 ≤ amount then round amount else -round (-amount)

/-- A stored amount as PostgreSQL prints it, with six decimals. -/
def microText (amount : Int) : String :=
  let digits := toString (amount.natAbs % 1000000)
  (if amount < 0 then "-" else "") ++ toString (amount.natAbs / 1000000) ++ "." ++
    String.ofList (List.replicate (6 - digits.length) '0') ++ digits

section Balances

/-- The checkpoint `cp` of `account_balance_asof`. -/
def latestCheckpoint (ledger : Ledger) (account : AccountId) (asof : Time) :
    Option LedgerCheckpoint :=
  (ledger.checkpoints.rows.filter fun row =>
    row.account = account && row.asOf ≤ asof).argmax LedgerCheckpoint.asOf

/-- The entries that `account_balance_asof` adds to its checkpoint. -/
def countsAsof (ledger : Ledger) (account : AccountId) (asof : Time) (entry : LedgerEntry) : Bool :=
  entry.account = account && (entry.createdAt ≤ asof &&
    (latestCheckpoint ledger account asof).all (fun cp => cp.asOf < entry.createdAt))

/-- `account_balance_asof`: the latest checkpoint and the entries since. -/
def accountBalanceAsof (ledger : Ledger) (account : AccountId) (asof : Time) : Int :=
  ((latestCheckpoint ledger account asof).map LedgerCheckpoint.balance).getD 0 +
    total LedgerEntry.signed ledger.entries (countsAsof ledger account asof)

/-- `account_balance`. -/
def accountBalance (ledger : Ledger) (account : AccountId) (now : Time) : Int :=
  accountBalanceAsof ledger account now

/-- The balance that `account_sources` gives for one source. -/
def sourceBalance (entries : List LedgerEntry) (account : AccountId) (source : HoneySource) : Int :=
  total LedgerEntry.signed entries (fun entry => entry.account = account && entry.source = source)

/-- `account_sources`. -/
def accountSources (ledger : Ledger) (account : AccountId) : List (HoneySource × Int) :=
  [.purchased, .earned, .grant].map fun source =>
    (source, sourceBalance ledger.entries account source)

/-- What the reservations hold of an account's source. -/
def reserved (reservations : List Reservation) (account : AccountId) (source : HoneySource) : Int :=
  total Reservation.amount reservations (fun row => row.account = account && row.source = source)

/-- The `spend_job` debits of a card. -/
def spentOn (entries : List LedgerEntry) (card : CardId) : Int :=
  total LedgerEntry.amount entries (fun entry =>
    entry.card? = some card && (entry.entryType = .spendJob && entry.direction = .debit))

/-- `compute_budget_remaining`. -/
def computeBudgetRemaining (ledger : Ledger) (card : CardId) : Option ℚ :=
  (ledger.budgets.lookup card).map fun q => max (q.maxHoney - spentOn ledger.entries card) 0

end Balances

section Splitting

/-- A debit entry that `split_debit` builds. -/
structure Debit where
  account : AccountId
  source : HoneySource
  amount : Int
deriving DecidableEq, Repr

variable {m : Type → Type} [Monad m]

/-- The loop of `split_debit`. The balance and the holds are read by two statements. -/
def splitBuckets (balance reserved : HoneySource → m Int) (account : AccountId) :
    List HoneySource → ℚ → List Debit → m (ℚ × List Debit)
  | [], remaining, acc => pure (remaining, acc)
  | b :: order, remaining, acc =>
    if remaining ≤ 0 then pure (remaining, acc)
    else do
      let balance' ← balance b
      let reserved' ← reserved b
      let take : ℚ := min (max (balance' - reserved' : Int) 0) remaining
      if 0 < take then
        splitBuckets balance reserved account order (remaining - take)
          (acc ++ [⟨account, b, roundMicro take⟩])
      else splitBuckets balance reserved account order remaining acc

/-- The exception of a split that its buckets cannot cover. -/
def insufficientInSources (remaining : ℚ) (order : List HoneySource) : CloudError :=
  .raised ("insufficient_honey_in_sources: need " ++ microText (roundMicro remaining) ++
    " more from \x7b" ++ String.intercalate "," (order.map HoneySource.text) ++ "\x7d")

/-- What `split_debit` answers when nobody else writes. -/
def splitDebit (chart : Chart) (ledger : Ledger) (account : AccountId) (amount : ℚ)
    (order : List HoneySource) : Except CloudError (List Debit) :=
  if (chart account).isNone then .error (.raised "account_not_found")
  else
    let balance (b : HoneySource) : Id Int := sourceBalance ledger.entries account b
    let reserved (b : HoneySource) : Id Int := reserved ledger.reservations.rows account b
    let (remaining, acc) := Id.run (splitBuckets balance reserved account order amount [])
    if 1 / 2 < remaining then .error (insufficientInSources remaining order)
    else .ok acc

end Splitting

end OHHive.Cloud
