import Mathlib.Data.List.Dedup
import OHHive.Cloud.Ledger

/-! Ledger archival: one month of entries is replaced by balance checkpoints. -/

namespace OHHive.Cloud

open Foundation

section Calendar

def microsPerDay : Int := 86400000000

/-- Year, month and day of a day counted from 1970-01-01. -/
def civilFromDays (days : Int) : Int × Int × Int :=
  let shifted := days + 719468
  let era := shifted / 146097
  let doe := shifted - era * 146097
  let yoe := (doe - doe / 1460 + doe / 36524 - doe / 146096) / 365
  let doy := doe - (365 * yoe + yoe / 4 - yoe / 100)
  let mp := (5 * doy + 2) / 153
  let month := if mp < 10 then mp + 3 else mp - 9
  (yoe + era * 400 + (if month ≤ 2 then 1 else 0), month, doy - (153 * mp + 2) / 5 + 1)

def daysFromCivil (year month day : Int) : Int :=
  let y := if month ≤ 2 then year - 1 else year
  let era := y / 400
  let yoe := y - era * 400
  let doy := (153 * (if 2 < month then month - 3 else month + 9) + 2) / 5 + day - 1
  era * 146097 + (yoe * 365 + yoe / 4 - yoe / 100 + doy) - 719468

/-- `t + interval '1 month'` in UTC: the day is cut to the length of the next month. -/
def plusMonth (t : Time) : Time :=
  let (year, month, day) := civilFromDays (t / microsPerDay)
  let (year', month') := if month = 12 then (year + 1, 1) else (year, month + 1)
  let (year'', month'') := if month' = 12 then (year' + 1, 1) else (year', month' + 1)
  let length := daysFromCivil year'' month'' 1 - daysFromCivil year' month' 1
  daysFromCivil year' month' (min day length) * microsPerDay + t % microsPerDay

end Calendar

/-- A call of `ledger_archive_apply`, with what other tables answer about it: the node of its
key, whether an hjm server runs there, and what `artifact_announce` says of the artifact. -/
structure ArchiveRequest where
  node? : Option NodeId
  hjmServer : Bool
  monthStart : Time
  hash : String
  bytes : Nat
  entryCount : Nat
  announced : Except CloudError Unit

def ArchiveRequest.monthEnd (request : ArchiveRequest) : Time := plusMonth request.monthStart

/-- `created_at >= p_month_start and created_at < month_end`. -/
def ArchiveRequest.covers (request : ArchiveRequest) (entry : LedgerEntry) : Bool :=
  request.monthStart ≤ entry.createdAt && entry.createdAt < request.monthEnd

def archivedEntries (ledger : Ledger) (request : ArchiveRequest) : List LedgerEntry :=
  ledger.entries.filter request.covers

/-- The checkpoints of a month: every touched account, as of the month's end. -/
def monthCheckpoints (ledger : Ledger) (request : ArchiveRequest) :
    Table LedgerCheckpoint (Table.SameKey fun row => (row.account, row.asOf)) where
  rows := ((archivedEntries ledger request).map LedgerEntry.account).dedup.map fun account =>
    { account, asOf := request.monthEnd
      balance := accountBalanceAsof ledger account request.monthEnd
      archiveHash := request.hash }
  distinct := by
    rw [List.pairwise_map]
    refine (List.nodup_dedup _).imp ?_
    intro first second different same
    exact different (congrArg Prod.fst same)

/-- `ledger_archive_apply`. -/
def ledgerArchiveApply (ledger : Ledger) (request : ArchiveRequest) : Except CloudError Ledger := do
  require (request.node?.isSome = true) (.raised "invalid_or_revoked_node_key")
  require (request.hjmServer = true) (.raised "archive_requires_hjm_server")
  require ((ledger.archiveLog.lookup request.monthStart).isNone = true)
    (.raised "month_already_archived")
  request.announced
  let archived := archivedEntries ledger request
  require (archived.length = request.entryCount)
    (.raised s!"archived_row_count_mismatch: expected {request.entryCount} got {archived.length}")
  let archiveLog ← orFail (ledger.archiveLog.insert?
    { monthStart := request.monthStart
      monthEnd := request.monthEnd
      archiveHash := request.hash
      txnCount := (archived.map LedgerEntry.txnId).dedup.length
      entryCount := archived.length
      bytes := request.bytes }) (.violates "ledger_archive_log_month_start_key")
  pure { ledger with
    checkpoints := ledger.checkpoints.merge (monthCheckpoints ledger request)
    entries := ledger.entries.filter (fun entry => !request.covers entry)
    archiveLog }

theorem ledgerArchiveApply_ok {ledger next : Ledger} {request : ArchiveRequest}
    (applied : ledgerArchiveApply ledger request = .ok next) :
    next.checkpoints = ledger.checkpoints.merge (monthCheckpoints ledger request) ∧
      next.entries = ledger.entries.filter (fun entry => !request.covers entry) ∧
      next.reservations = ledger.reservations ∧ next.budgets = ledger.budgets := by
  simp only [ledgerArchiveApply, bind_eq_ok_iff, require_eq_ok_iff, exists_const,
    pure_eq_ok_iff] at applied
  obtain ⟨_, _, _, _, _, _, _, _, rfl⟩ := applied
  exact ⟨rfl, rfl, rfl, rfl⟩

section Balances

variable {ledger next : Ledger} {request : ArchiveRequest} {account : AccountId} {asof : Time}

def checkpointsOf (ledger : Ledger) (account : AccountId) : List LedgerCheckpoint :=
  ledger.checkpoints.rows.filter fun row => row.account = account

def entriesOf (ledger : Ledger) (account : AccountId) : List LedgerEntry :=
  ledger.entries.filter fun entry => entry.account = account

/-- Checkpoints and entries as a rolled-up history. -/
def ledgerRollup : Rollup LedgerCheckpoint LedgerEntry Time Int where
  takenAt := LedgerCheckpoint.asOf
  worth := LedgerCheckpoint.balance
  madeAt := LedgerEntry.createdAt
  value := LedgerEntry.signed

theorem latestCheckpoint_eq_latest (ledger : Ledger) (account : AccountId) (asof : Time) :
    latestCheckpoint ledger account asof =
      ledgerRollup.latest (checkpointsOf ledger account) asof := by
  unfold latestCheckpoint Rollup.latest checkpointsOf
  rw [List.filter_filter]
  congr 1
  apply List.filter_congr
  intro row _
  exact Bool.and_comm _ _

theorem countsAsof_eq_counted (ledger : Ledger) (account : AccountId) (asof : Time)
    (entry : LedgerEntry) :
    countsAsof ledger account asof entry =
      (ledgerRollup.counted (checkpointsOf ledger account) asof entry &&
        decide (entry.account = account)) := by
  unfold countsAsof Rollup.counted
  rw [latestCheckpoint_eq_latest]
  exact Bool.and_comm _ _

theorem accountBalanceAsof_eq_valueAt (ledger : Ledger) (account : AccountId) (asof : Time) :
    accountBalanceAsof ledger account asof =
      ledgerRollup.valueAt (checkpointsOf ledger account) (entriesOf ledger account) asof := by
  unfold accountBalanceAsof Rollup.valueAt entriesOf
  rw [total_filter, latestCheckpoint_eq_latest, funext (countsAsof_eq_counted ledger account asof)]
  rfl

theorem checkpointsOf_apart (ledger : Ledger) (account : AccountId) :
    ledgerRollup.Apart (checkpointsOf ledger account) := by
  intro first firstMember second secondMember same
  obtain ⟨firstStored, firstOf⟩ := List.mem_filter.mp firstMember
  obtain ⟨secondStored, secondOf⟩ := List.mem_filter.mp secondMember
  apply ledger.checkpoints.eq_of_key firstStored secondStored
  have accounts : first.account = second.account :=
    (of_decide_eq_true firstOf).trans (of_decide_eq_true secondOf).symm
  exact Prod.ext accounts same

/-- An account has entries in the month. -/
def Touched (ledger : Ledger) (request : ArchiveRequest) (account : AccountId) : Prop :=
  ∃ entry ∈ ledger.entries, request.covers entry = true ∧ entry.account = account

theorem mem_monthCheckpoints (row : LedgerCheckpoint) :
    row ∈ (monthCheckpoints ledger request).rows ↔ Touched ledger request row.account ∧
      row.asOf = request.monthEnd ∧
      row.balance = accountBalanceAsof ledger row.account request.monthEnd ∧
      row.archiveHash = request.hash := by
  simp only [monthCheckpoints, List.mem_map, List.mem_dedup, archivedEntries, List.mem_filter,
    Touched]
  constructor
  · rintro ⟨_, ⟨entry, ⟨member, covered⟩, rfl⟩, rfl⟩
    exact ⟨⟨entry, member, covered, rfl⟩, rfl, rfl, rfl⟩
  · rintro ⟨⟨entry, member, covered, same⟩, asOf, balance, hash⟩
    refine ⟨row.account, ⟨entry, ⟨member, covered⟩, same⟩, ?_⟩
    cases row
    simp_all

theorem mem_checkpointsOf_archived (applied : ledgerArchiveApply ledger request = .ok next)
    (row : LedgerCheckpoint) :
    row ∈ checkpointsOf next account ↔
      (row ∈ checkpointsOf ledger account ∧
        ¬ (Touched ledger request account ∧ row.asOf = request.monthEnd)) ∨
      row.account = account ∧ row ∈ (monthCheckpoints ledger request).rows := by
  unfold checkpointsOf
  rw [(ledgerArchiveApply_ok applied).1]
  simp only [List.mem_filter, Table.mem_merge, decide_eq_true_eq]
  have replaced : row.account = account →
      ((∀ new ∈ (monthCheckpoints ledger request).rows,
        (new.account, new.asOf) ≠ (row.account, row.asOf)) ↔
          ¬ (Touched ledger request account ∧ row.asOf = request.monthEnd)) := by
    intro same
    constructor
    · rintro free ⟨touched, atEnd⟩
      refine free ⟨account, request.monthEnd,
        accountBalanceAsof ledger account request.monthEnd, request.hash⟩ ?_ (by simp [same, atEnd])
      exact (mem_monthCheckpoints _).mpr ⟨touched, rfl, rfl, rfl⟩
    · intro apart new member key
      obtain ⟨touched, asOf, _⟩ := (mem_monthCheckpoints new).mp member
      obtain ⟨accounts, times⟩ := Prod.mk.inj key
      exact apart ⟨same ▸ accounts ▸ touched, times ▸ asOf⟩
  constructor
  · rintro ⟨⟨stored, free⟩ | added, same⟩
    · exact Or.inl ⟨⟨stored, same⟩, (replaced same).mp free⟩
    · exact Or.inr ⟨same, added⟩
  · rintro (⟨⟨stored, same⟩, free⟩ | ⟨same, added⟩)
    · exact ⟨Or.inl ⟨stored, (replaced same).mpr free⟩, same⟩
    · exact ⟨Or.inr added, same⟩

theorem entriesOf_archived (applied : ledgerArchiveApply ledger request = .ok next) :
    entriesOf next account =
      (entriesOf ledger account).filter (fun entry => !request.covers entry) := by
  unfold entriesOf
  rw [(ledgerArchiveApply_ok applied).2.1, List.filter_filter, List.filter_filter]
  apply List.filter_congr
  intro entry _
  exact Bool.and_comm _ _

/-- For a touched account the call archives its history at the month's end. -/
theorem archives_of_touched (applied : ledgerArchiveApply ledger request = .ok next)
    (touched : Touched ledger request account) :
    ledgerRollup.Archives (checkpointsOf ledger account) (entriesOf ledger account)
      request.monthEnd request.covers (checkpointsOf next account) where
  apart := checkpointsOf_apart ledger account
  archivedApart := checkpointsOf_apart next account
  before := by
    intro entry _ covered
    exact of_decide_eq_true (Bool.and_eq_true_iff.mp covered).2
  taken := by
    refine ⟨⟨account, request.monthEnd, accountBalanceAsof ledger account request.monthEnd,
      request.hash⟩, ?_, rfl, accountBalanceAsof_eq_valueAt ledger account _⟩
    apply (mem_checkpointsOf_archived applied _).mpr
    exact Or.inr ⟨rfl, (mem_monthCheckpoints _).mpr ⟨touched, rfl, rfl, rfl⟩⟩
  others := by
    intro row apart
    rw [mem_checkpointsOf_archived applied]
    constructor
    · rintro (⟨stored, _⟩ | ⟨_, added⟩)
      · exact stored
      · exact absurd ((mem_monthCheckpoints row).mp added).2.1 apart
    · intro stored
      exact Or.inl ⟨stored, fun replaced => apart replaced.2⟩

/-- The part of a balance as of a moment that the archived entries made up. -/
def archivedBalance (ledger : Ledger) (request : ArchiveRequest) (account : AccountId)
    (asof : Time) : Int :=
  total LedgerEntry.signed (archivedEntries ledger request) (countsAsof ledger account asof)

theorem archivedBalance_untouched (untouched : ¬ Touched ledger request account) :
    archivedBalance ledger request account asof = 0 := by
  apply total_eq_zero
  intro entry member
  obtain ⟨stored, covered⟩ := List.mem_filter.mp member
  have other : entry.account ≠ account := fun same => untouched ⟨entry, stored, covered, same⟩
  simp [countsAsof, other]

/-- Archival keeps the history of an account without entries in the month. -/
theorem accountBalanceAsof_untouched (applied : ledgerArchiveApply ledger request = .ok next)
    (untouched : ¬ Touched ledger request account) :
    accountBalanceAsof next account asof = accountBalanceAsof ledger account asof := by
  have snapshots : ledgerRollup.latest (checkpointsOf next account) asof =
      ledgerRollup.latest (checkpointsOf ledger account) asof := by
    apply Rollup.latest_congr (checkpointsOf_apart next account) (checkpointsOf_apart ledger account)
    intro row _
    rw [mem_checkpointsOf_archived applied]
    constructor
    · rintro (⟨stored, _⟩ | ⟨same, added⟩)
      · exact stored
      · exact absurd (same ▸ ((mem_monthCheckpoints row).mp added).1) untouched
    · intro stored
      exact Or.inl ⟨stored, fun replaced => untouched replaced.1⟩
  have rows : entriesOf next account = entriesOf ledger account := by
    rw [entriesOf_archived applied, List.filter_eq_self]
    intro entry member
    obtain ⟨stored, same⟩ := List.mem_filter.mp member
    by_contra covered
    exact untouched ⟨entry, stored, by simpa using covered, of_decide_eq_true same⟩
  have selection : ledgerRollup.counted (checkpointsOf next account) asof =
      ledgerRollup.counted (checkpointsOf ledger account) asof := by
    funext row
    simp only [Rollup.counted, snapshots]
  rw [accountBalanceAsof_eq_valueAt, accountBalanceAsof_eq_valueAt]
  unfold Rollup.valueAt
  rw [snapshots, selection, rows]

/-- From the month's end on, no balance changes. -/
theorem accountBalanceAsof_ended (applied : ledgerArchiveApply ledger request = .ok next)
    (ended : request.monthEnd ≤ asof) :
    accountBalanceAsof next account asof = accountBalanceAsof ledger account asof := by
  by_cases touched : Touched ledger request account
  · rw [accountBalanceAsof_eq_valueAt, accountBalanceAsof_eq_valueAt, entriesOf_archived applied]
    exact (archives_of_touched applied touched).valueAt_eq ended
  · exact accountBalanceAsof_untouched applied touched

/-- Before the month's end, the archived entries are missing from the balance. -/
theorem accountBalanceAsof_early (applied : ledgerArchiveApply ledger request = .ok next)
    (early : asof < request.monthEnd) :
    accountBalanceAsof next account asof =
      accountBalanceAsof ledger account asof - archivedBalance ledger request account asof := by
  by_cases touched : Touched ledger request account
  · have lost : archivedBalance ledger request account asof =
        total LedgerEntry.signed ((entriesOf ledger account).filter request.covers)
          (ledgerRollup.counted (checkpointsOf ledger account) asof) := by
      unfold archivedBalance archivedEntries entriesOf
      rw [funext (countsAsof_eq_counted ledger account asof), total_filter, total_filter,
        total_filter]
      apply total_congr
      intro entry _
      exact Bool.and_right_comm _ _ _
    rw [accountBalanceAsof_eq_valueAt, accountBalanceAsof_eq_valueAt, entriesOf_archived applied,
      lost]
    exact (archives_of_touched applied touched).valueAt_sub early
  · rw [accountBalanceAsof_untouched applied touched, archivedBalance_untouched touched, sub_zero]

end Balances

end OHHive.Cloud
