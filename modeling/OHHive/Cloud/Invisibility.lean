import OHHive.Cloud.Archival
import OHHive.Foundation.Run

/-! When archival is invisible: the archived ledger answers every balance, split and budget
query as the ledger before it, exactly if nothing that a query still counts is deleted. -/

namespace OHHive.Cloud

open Foundation

/-- Two ledgers answer every query alike, now and at any later time. -/
structure Alike (chart : Chart) (first second : Ledger) (now : Time) : Prop where
  balance : ∀ account asof, now ≤ asof →
    accountBalance first account asof = accountBalance second account asof
  sources : ∀ account, accountSources first account = accountSources second account
  remaining : ∀ card, computeBudgetRemaining first card = computeBudgetRemaining second card
  split : ∀ account amount order,
    splitDebit chart first account amount order = splitDebit chart second account amount order

/-- The archived entries are not needed by any query: they cancel out in every source and in
every balance asked for before the month ends, and budgets do not depend on their spending. -/
structure NothingLost (ledger : Ledger) (request : ArchiveRequest) (now : Time) : Prop where
  balance : ∀ account asof, now ≤ asof → asof < request.monthEnd →
    archivedBalance ledger request account asof = 0
  sources : ∀ account source,
    sourceBalance (archivedEntries ledger request) account source = 0
  spent : ∀ budget ∈ ledger.budgets.rows, spentOn (archivedEntries ledger request) budget.card = 0 ∨
    budget.maxHoney ≤
      spentOn (ledger.entries.filter (fun entry => !request.covers entry)) budget.card

section Answers

variable {chart : Chart} {first second : Ledger} {account : AccountId} {source : HoneySource}

theorem accountSources_eq_iff :
    accountSources first account = accountSources second account ↔
      ∀ source, sourceBalance first.entries account source =
        sourceBalance second.entries account source := by
  simp only [accountSources, List.map_cons, List.map_nil, List.cons.injEq, Prod.mk.injEq, true_and,
    and_true]
  constructor
  · rintro ⟨purchased, earned, grant⟩ source
    cases source with
    | purchased => exact purchased
    | earned => exact earned
    | grant => exact grant
  · intro same
    exact ⟨same .purchased, same .earned, same .grant⟩

/-- A split reads the sources and the reservations only. -/
theorem splitDebit_congr
    (sources : ∀ account source, sourceBalance first.entries account source =
      sourceBalance second.entries account source)
    (holds : first.reservations = second.reservations) (account : AccountId) (amount : ℚ)
    (order : List HoneySource) :
    splitDebit chart first account amount order = splitDebit chart second account amount order := by
  unfold splitDebit
  rw [holds, funext (sources account)]

theorem spentOn_nonneg (entries : List LedgerEntry) (card : CardId) : 0 ≤ spentOn entries card := by
  apply List.sum_nonneg
  intro amount member
  obtain ⟨entry, _, rfl⟩ := List.mem_map.mp member
  exact le_of_lt entry.positive

/-- A clamped remainder forgets spending only once the budget is used up. -/
theorem remaining_eq_iff {limit : ℚ} {spent gone : Int} (nonneg : 0 ≤ gone) :
    max (limit - (spent : Int)) 0 = max (limit - (spent + gone : Int)) 0 ↔
      gone = 0 ∨ limit ≤ spent := by
  constructor
  · intro same
    by_contra different
    obtain ⟨lost, open'⟩ := not_or.mp different
    have left : (0 : ℚ) < limit - spent := sub_pos.mpr (not_le.mp open')
    have some : (0 : ℚ) < gone := by exact_mod_cast lt_of_le_of_ne nonneg (Ne.symm lost)
    have smaller : max (limit - (spent + gone : Int)) 0 < limit - spent := by
      apply max_lt _ left
      push_cast
      linarith
    rw [max_eq_left (le_of_lt left)] at same
    exact absurd same (ne_of_gt smaller)
  · rintro (rfl | used)
    · rw [add_zero]
    · have nonneg' : (0 : ℚ) ≤ gone := by exact_mod_cast nonneg
      rw [max_eq_right (by linarith), max_eq_right (by push_cast; linarith)]

end Answers

section Step

variable {chart : Chart} {ledger next : Ledger} {request : ArchiveRequest} {now : Time}

theorem sourceBalance_archived (applied : ledgerArchiveApply ledger request = .ok next)
    (account : AccountId) (source : HoneySource) :
    sourceBalance next.entries account source = sourceBalance ledger.entries account source -
      sourceBalance (archivedEntries ledger request) account source := by
  rw [(ledgerArchiveApply_ok applied).2.1]
  exact total_delete _ _ _ _

theorem spentOn_archived (applied : ledgerArchiveApply ledger request = .ok next) (card : CardId) :
    spentOn ledger.entries card =
      spentOn next.entries card + spentOn (archivedEntries ledger request) card := by
  have kept : spentOn next.entries card =
      spentOn ledger.entries card - spentOn (archivedEntries ledger request) card := by
    rw [(ledgerArchiveApply_ok applied).2.1]
    exact total_delete _ _ _ _
  omega

/-- A card's remaining budget survives if its archived spending is nothing, or the kept spending
uses the budget up. -/
theorem computeBudgetRemaining_archived (applied : ledgerArchiveApply ledger request = .ok next)
    (card : CardId) :
    computeBudgetRemaining next card = computeBudgetRemaining ledger card ↔
      ∀ budget ∈ ledger.budgets.lookup card,
        spentOn (archivedEntries ledger request) card = 0 ∨
          budget.maxHoney ≤ spentOn next.entries card := by
  unfold computeBudgetRemaining
  rw [(ledgerArchiveApply_ok applied).2.2.2, spentOn_archived applied card]
  cases ledger.budgets.lookup card with
  | none => simp
  | some budget =>
    simp only [Option.map_some, Option.some.injEq, Option.mem_def, forall_eq']
    exact remaining_eq_iff (spentOn_nonneg _ _)

/-- One archival is invisible exactly if it loses nothing. -/
theorem alike_iff_nothingLost (applied : ledgerArchiveApply ledger request = .ok next) :
    Alike chart next ledger now ↔ NothingLost ledger request now := by
  obtain ⟨_, kept, holds, budgets⟩ := ledgerArchiveApply_ok applied
  constructor
  · intro alike
    refine ⟨?_, ?_, ?_⟩
    · intro account asof after early
      have same := alike.balance account asof after
      have changed : accountBalanceAsof next account asof =
          accountBalanceAsof ledger account asof - archivedBalance ledger request account asof :=
        accountBalanceAsof_early applied early
      unfold accountBalance at same
      omega
    · intro account source
      have same := accountSources_eq_iff.mp (alike.sources account) source
      have changed := sourceBalance_archived applied account source
      omega
    · intro budget member
      have found := (ledger.budgets.lookup_eq_some_iff budget.card budget).mpr ⟨member, rfl⟩
      have same := (computeBudgetRemaining_archived applied budget.card).mp
        (alike.remaining budget.card) budget found
      rwa [kept] at same
  · intro lossless
    have sources : ∀ account source, sourceBalance next.entries account source =
        sourceBalance ledger.entries account source := by
      intro account source
      rw [sourceBalance_archived applied, lossless.sources, sub_zero]
    refine ⟨?_, fun account => accountSources_eq_iff.mpr (sources account), ?_,
      splitDebit_congr sources holds⟩
    · intro account asof after
      unfold accountBalance
      by_cases ended : request.monthEnd ≤ asof
      · exact accountBalanceAsof_ended applied ended
      · have early := not_le.mp ended
        rw [accountBalanceAsof_early applied early, lossless.balance account asof after early,
          sub_zero]
    · intro card
      apply (computeBudgetRemaining_archived applied card).mpr
      intro budget found
      obtain ⟨member, rfl⟩ := (ledger.budgets.lookup_eq_some_iff card budget).mp found
      rw [kept]
      exact lossless.spent budget member

end Step

section Runs

/-- What happens to a ledger: a transaction is posted, reservations are taken and released, a
month is archived. -/
inductive LedgerOp where
  | post (entries : List LedgerEntry)
  | reserve (reservations : Table Reservation (Table.SameKey fun row => (row.card, row.source)))
  | archive (request : ArchiveRequest)

structure LedgerEvent where
  at' : Time
  op : LedgerOp

/-- A ledger and the time of its last event. -/
structure Moment where
  ledger : Ledger
  clock : Time

def Ledger.post (ledger : Ledger) (entries : List LedgerEntry) : Ledger :=
  { ledger with entries := ledger.entries ++ entries }

/-- The ledger after an event; an archival that fails leaves it alone. -/
def Ledger.step (ledger : Ledger) : LedgerOp → Ledger
  | .post entries => ledger.post entries
  | .reserve reservations => { ledger with reservations }
  | .archive request =>
    match ledgerArchiveApply ledger request with
    | .ok next => next
    | .error _ => ledger

/-- The ledger after an event when nothing is ever archived. -/
def Ledger.stepUnarchived (ledger : Ledger) : LedgerOp → Ledger
  | .post entries => ledger.post entries
  | .reserve reservations => { ledger with reservations }
  | .archive _ => ledger

def Moment.step (moment : Moment) (event : LedgerEvent) : Moment :=
  ⟨moment.ledger.step event.op, event.at'⟩

def Moment.stepUnarchived (moment : Moment) (event : LedgerEvent) : Moment :=
  ⟨moment.ledger.stepUnarchived event.op, event.at'⟩

/-- Time moves forward, entries are later than the checkpoints of their account, and an archival
that succeeds loses nothing. -/
def Lossless (moment : Moment) (event : LedgerEvent) : Prop :=
  moment.clock ≤ event.at' ∧
    match event.op with
    | .post entries => ∀ entry ∈ entries, ∀ cp ∈ moment.ledger.checkpoints.rows,
        cp.account = entry.account → cp.asOf < entry.createdAt
    | .reserve _ => True
    | .archive request => ∀ next, ledgerArchiveApply moment.ledger request = .ok next →
        NothingLost moment.ledger request event.at'

/-- What an archived ledger keeps of the one that archives nothing. -/
structure Tracks (archived kept : Ledger) (now : Time) : Prop where
  balance : ∀ account asof, now ≤ asof →
    accountBalanceAsof archived account asof = accountBalanceAsof kept account asof
  sources : ∀ account source, sourceBalance archived.entries account source =
    sourceBalance kept.entries account source
  reservations : archived.reservations = kept.reservations
  budgets : archived.budgets = kept.budgets
  spent : ∀ budget ∈ kept.budgets.rows,
    spentOn archived.entries budget.card = spentOn kept.entries budget.card ∨
      budget.maxHoney ≤ spentOn archived.entries budget.card ∧
        budget.maxHoney ≤ spentOn kept.entries budget.card
  checkpoints : ∀ cp ∈ kept.checkpoints.rows, ∃ other ∈ archived.checkpoints.rows,
    other.account = cp.account ∧ other.asOf = cp.asOf

variable {chart : Chart} {archived kept : Ledger} {now : Time}

theorem Tracks.refl (ledger : Ledger) (now : Time) : Tracks ledger ledger now where
  balance _ _ _ := rfl
  sources _ _ := rfl
  reservations := rfl
  budgets := rfl
  spent _ _ := Or.inl rfl
  checkpoints cp member := ⟨cp, member, rfl, rfl⟩

theorem Tracks.alike (tracks : Tracks archived kept now) : Alike chart archived kept now where
  balance := tracks.balance
  sources account := accountSources_eq_iff.mpr (tracks.sources account)
  remaining := by
    intro card
    unfold computeBudgetRemaining
    rw [tracks.budgets]
    cases found : kept.budgets.lookup card with
    | none => rfl
    | some budget =>
      obtain ⟨member, rfl⟩ := (kept.budgets.lookup_eq_some_iff card budget).mp found
      rcases tracks.spent budget member with same | ⟨used, alsoUsed⟩
      · rw [same]
      · simp only [Option.map_some]
        rw [max_eq_right (by linarith), max_eq_right (by linarith)]
  split := splitDebit_congr tracks.sources tracks.reservations

theorem sourceBalance_post (ledger : Ledger) (entries : List LedgerEntry) (account : AccountId)
    (source : HoneySource) :
    sourceBalance (ledger.post entries).entries account source =
      sourceBalance ledger.entries account source + sourceBalance entries account source :=
  total_append _ _ _ _

theorem spentOn_post (ledger : Ledger) (entries : List LedgerEntry) (card : CardId) :
    spentOn (ledger.post entries).entries card = spentOn ledger.entries card + spentOn entries card :=
  total_append _ _ _ _

/-- Entries later than the checkpoints of their account enter its balance. -/
theorem accountBalanceAsof_post {ledger : Ledger} {entries : List LedgerEntry}
    (later : ∀ entry ∈ entries, ∀ cp ∈ ledger.checkpoints.rows, cp.account = entry.account →
      cp.asOf < entry.createdAt) (account : AccountId) (asof : Time) :
    accountBalanceAsof (ledger.post entries) account asof =
      accountBalanceAsof ledger account asof + total LedgerEntry.signed entries
        (fun entry => entry.account = account && entry.createdAt ≤ asof) := by
  have entered : total LedgerEntry.signed entries (countsAsof ledger account asof) =
      total LedgerEntry.signed entries
        (fun entry => entry.account = account && entry.createdAt ≤ asof) := by
    apply total_congr
    intro entry member
    by_cases same : entry.account = account
    · have uncovered : (latestCheckpoint ledger account asof).all
          (fun cp => cp.asOf < entry.createdAt) = true := by
        rw [Option.all_eq_true]
        intro cp found
        obtain ⟨stored, selected⟩ := List.mem_filter.mp (List.argmax_mem found)
        have accounts := of_decide_eq_true (Bool.and_eq_true_iff.mp selected).1
        exact decide_eq_true (later entry member cp stored (accounts.trans same.symm))
      simp [countsAsof, same, uncovered]
    · simp [countsAsof, same]
  calc
    accountBalanceAsof (ledger.post entries) account asof =
        ((latestCheckpoint ledger account asof).map LedgerCheckpoint.balance).getD 0 +
          total LedgerEntry.signed (ledger.entries ++ entries) (countsAsof ledger account asof) := rfl
    _ = accountBalanceAsof ledger account asof +
          total LedgerEntry.signed entries (countsAsof ledger account asof) := by
      rw [total_append, ← add_assoc]
      rfl
    _ = _ := by rw [entered]

theorem Tracks.post (tracks : Tracks archived kept now) {entries : List LedgerEntry} {later : Time}
    (ordered : now ≤ later)
    (fresh : ∀ entry ∈ entries, ∀ cp ∈ archived.checkpoints.rows, cp.account = entry.account →
      cp.asOf < entry.createdAt) :
    Tracks (archived.post entries) (kept.post entries) later where
  balance := by
    intro account asof after
    have keptFresh : ∀ entry ∈ entries, ∀ cp ∈ kept.checkpoints.rows, cp.account = entry.account →
        cp.asOf < entry.createdAt := by
      intro entry member cp stored same
      obtain ⟨other, otherStored, account, asOf⟩ := tracks.checkpoints cp stored
      exact asOf ▸ fresh entry member other otherStored (account.trans same)
    rw [accountBalanceAsof_post fresh, accountBalanceAsof_post keptFresh,
      tracks.balance account asof (le_trans ordered after)]
  sources := by
    intro account source
    rw [sourceBalance_post, sourceBalance_post, tracks.sources]
  reservations := tracks.reservations
  budgets := tracks.budgets
  spent := by
    intro budget member
    rw [spentOn_post, spentOn_post]
    have more := spentOn_nonneg entries budget.card
    rcases tracks.spent budget member with same | ⟨used, alsoUsed⟩
    · exact Or.inl (by rw [same])
    · have more' : (0 : ℚ) ≤ spentOn entries budget.card := by exact_mod_cast more
      push_cast
      exact Or.inr ⟨by linarith, by linarith⟩
  checkpoints := tracks.checkpoints

theorem Tracks.later (tracks : Tracks archived kept now) {later : Time} (ordered : now ≤ later) :
    Tracks archived kept later where
  __ := tracks
  balance account asof after := tracks.balance account asof (le_trans ordered after)

theorem Tracks.archive (tracks : Tracks archived kept now) {request : ArchiveRequest}
    {next : Ledger} (applied : ledgerArchiveApply archived request = .ok next)
    (lossless : NothingLost archived request now) : Tracks next kept now where
  balance := by
    intro account asof after
    have same : Alike (fun _ => none) next archived now := (alike_iff_nothingLost applied).mpr lossless
    exact (same.balance account asof after).trans (tracks.balance account asof after)
  sources := by
    intro account source
    rw [sourceBalance_archived applied, lossless.sources, sub_zero, tracks.sources]
  reservations := (ledgerArchiveApply_ok applied).2.2.1.trans tracks.reservations
  budgets := (ledgerArchiveApply_ok applied).2.2.2.trans tracks.budgets
  spent := by
    intro budget member
    have splits := spentOn_archived applied budget.card
    have gone := spentOn_nonneg (archivedEntries archived request) budget.card
    have before := tracks.spent budget member
    rcases lossless.spent budget (tracks.budgets ▸ member) with nothing | used
    · have same : spentOn next.entries budget.card = spentOn archived.entries budget.card := by omega
      rwa [same]
    · rw [← (ledgerArchiveApply_ok applied).2.1] at used
      have more : (spentOn next.entries budget.card : ℚ) ≤ spentOn archived.entries budget.card := by
        exact_mod_cast (show spentOn next.entries budget.card ≤ _ by omega)
      refine Or.inr ⟨used, ?_⟩
      rcases before with same | ⟨_, keptUsed⟩
      · rw [← same]
        exact le_trans used more
      · exact keptUsed
  checkpoints := by
    intro cp member
    obtain ⟨other, stored, account, asOf⟩ := tracks.checkpoints cp member
    rw [(ledgerArchiveApply_ok applied).1]
    by_cases replaced : ∃ new ∈ (monthCheckpoints archived request).rows,
        (new.account, new.asOf) = (other.account, other.asOf)
    · obtain ⟨new, added, key⟩ := replaced
      obtain ⟨accounts, times⟩ := Prod.mk.inj key
      exact ⟨new, (Table.mem_merge _ _ _).mpr (Or.inr added), accounts.trans account,
        times.trans asOf⟩
    · refine ⟨other, (Table.mem_merge _ _ _).mpr (Or.inl ⟨stored, ?_⟩), account, asOf⟩
      intro new added key
      exact replaced ⟨new, added, key⟩

theorem Tracks.step {moment : Moment} {event : LedgerEvent}
    (tracks : Tracks moment.ledger kept moment.clock) (lossless : Lossless moment event) :
    Tracks (moment.ledger.step event.op) (kept.stepUnarchived event.op) event.at' := by
  obtain ⟨ordered, lossless⟩ := lossless
  cases op : event.op with
  | post entries =>
    rw [op] at lossless
    exact tracks.post ordered lossless
  | reserve reservations =>
    have later := tracks.later ordered
    exact { later with reservations := rfl }
  | archive request =>
    rw [op] at lossless
    have later := tracks.later ordered
    cases applied : ledgerArchiveApply moment.ledger request with
    | error failure => simpa only [Ledger.step, Ledger.stepUnarchived, applied] using later
    | ok next =>
      simpa only [Ledger.step, Ledger.stepUnarchived, applied] using
        later.archive applied (lossless next applied)

/-- Throughout a lossless run the archived ledger tracks the one that archives nothing. -/
theorem tracks_run {start : Moment} {events : List LedgerEvent}
    (lossless : EachStep Moment.step start Lossless events) (count : Nat) :
    Tracks (stateAt Moment.step start events count).ledger
      (stateAt Moment.stepUnarchived start events count).ledger
      (stateAt Moment.step start events count).clock := by
  induction count with
  | zero => exact Tracks.refl _ _
  | succ previous ih =>
    cases present : events[previous]? with
    | none =>
      rw [stateAt_rest Moment.step start present, stateAt_rest Moment.stepUnarchived start present]
      exact ih
    | some event =>
      rw [stateAt_succ Moment.step start present, stateAt_succ Moment.stepUnarchived start present]
      exact ih.step (lossless previous event present)

end Runs

/-- Archival is invisible exactly where it deletes nothing that a query still counts; through a
run of such archivals the ledger answers as if no month had been archived. -/
theorem archival_invisible (chart : Chart) :
    (∀ ledger request next now, ledgerArchiveApply ledger request = .ok next →
      (Alike chart next ledger now ↔ NothingLost ledger request now)) ∧
    ∀ start events, EachStep Moment.step start Lossless events → ∀ count,
      Alike chart (stateAt Moment.step start events count).ledger
        (stateAt Moment.stepUnarchived start events count).ledger
        (stateAt Moment.step start events count).clock :=
  ⟨fun _ _ _ _ applied => alike_iff_nothingLost applied,
    fun _ _ lossless count => (tracks_run lossless count).alike⟩

section Samples

/-- The first of January 2026. -/
def january : Time := 1767225600000000

/-- A movement of five honey of grant money on one account, in the middle of January. -/
def januaryEntry (direction : Direction) : LedgerEntry where
  txnId := 1
  account := 1
  entryType := .adjustment
  direction
  amount := 5000000
  source := .grant
  card? := none
  createdAt := january + 1000000000000
  positive := by decide

def ledgerOf (entries : List LedgerEntry) : Ledger where
  entries
  checkpoints := Table.empty
  archiveLog := Table.empty
  reservations := Table.empty
  budgets := Table.empty

/-- The call that archives January with the given number of entries. -/
def januaryRequest (entryCount : Nat) : ArchiveRequest where
  node? := some 7
  hjmServer := true
  monthStart := january
  hash := "a0"
  bytes := 100
  entryCount
  announced := .ok ()

end Samples

private theorem nothingLost_refunded (now : Time) (ended : january + 2678400000000 ≤ now) :
    NothingLost (ledgerOf [januaryEntry .credit, januaryEntry .debit]) (januaryRequest 2) now where
  balance := by
    intro account asof after early
    have monthEnd : (januaryRequest 2).monthEnd = january + 2678400000000 := by decide
    exact absurd (le_trans ended after) (not_le.mpr (monthEnd ▸ early))
  sources := by
    intro account source
    have both : archivedEntries (ledgerOf [januaryEntry .credit, januaryEntry .debit])
        (januaryRequest 2) = [januaryEntry .credit, januaryEntry .debit] := by decide
    rw [both]
    by_cases selected : ((januaryEntry .credit).account = account &&
        (januaryEntry .credit).source = source) = true
    · have cancelled : (januaryEntry .credit).signed + (januaryEntry .debit).signed = 0 := by decide
      have alsoSelected : ((januaryEntry .debit).account = account &&
          (januaryEntry .debit).source = source) = true := selected
      simp only [sourceBalance, total_cons, total_nil, selected, alsoSelected, if_true]
      omega
    · have notSelected : ¬ ((januaryEntry .debit).account = account &&
          (januaryEntry .debit).source = source) = true := selected
      simp only [sourceBalance, total_cons, total_nil, selected, notSelected, Bool.false_eq_true,
        if_false, add_zero]
  spent budget member := (nomatch member)

/-- A grant that was refunded within January is archived without a trace, also when the archived
ledger goes on. -/
theorem archival_invisible_refunded :
    (∃ next, ledgerArchiveApply (ledgerOf [januaryEntry .credit, januaryEntry .debit])
        (januaryRequest 2) = .ok next ∧
      Alike (fun _ => some .memberWallet) next
        (ledgerOf [januaryEntry .credit, januaryEntry .debit]) (january + 10000000000000)) ∧
    Alike (fun _ => some .memberWallet)
      (stateAt Moment.step ⟨ledgerOf [januaryEntry .credit, januaryEntry .debit], january⟩
        [⟨january + 10000000000000, .archive (januaryRequest 2)⟩] 1).ledger
      (stateAt Moment.stepUnarchived
        ⟨ledgerOf [januaryEntry .credit, januaryEntry .debit], january⟩
        [⟨january + 10000000000000, .archive (januaryRequest 2)⟩] 1).ledger
      (january + 10000000000000) := by
  constructor
  · cases applied : ledgerArchiveApply (ledgerOf [januaryEntry .credit, januaryEntry .debit])
        (januaryRequest 2) with
    | error failure =>
      have succeeds : (ledgerArchiveApply (ledgerOf [januaryEntry .credit, januaryEntry .debit])
        (januaryRequest 2)).isOk = true := by decide
      rw [applied] at succeeds
      cases succeeds
    | ok next =>
      refine ⟨next, rfl, ((archival_invisible _).1 _ _ _ _ applied).mpr ?_⟩
      exact nothingLost_refunded _ (by decide)
  · have lossless : EachStep Moment.step
        ⟨ledgerOf [januaryEntry .credit, januaryEntry .debit], january⟩ Lossless
        [⟨january + 10000000000000, .archive (januaryRequest 2)⟩] := by
      apply eachStep_of_lt
      intro count inside
      obtain rfl : count = 0 := Nat.lt_one_iff.mp inside
      refine ⟨?_, ?_⟩
      · show january ≤ january + 10000000000000
        decide
      · intro next _
        exact nothingLost_refunded (january + 10000000000000) (by decide)
    exact (archival_invisible _).2 _ _ lossless 1

/-- A wallet credited in January has nothing left to spend once January is archived. -/
theorem archival_visible :
    ¬ ∀ (chart : Chart) (ledger : Ledger) (request : ArchiveRequest) (next : Ledger) (now : Time),
      ledgerArchiveApply ledger request = .ok next → Alike chart next ledger now := by
  intro invisible
  cases applied : ledgerArchiveApply (ledgerOf [januaryEntry .credit]) (januaryRequest 1) with
  | error failure =>
    have succeeds : (ledgerArchiveApply (ledgerOf [januaryEntry .credit])
      (januaryRequest 1)).isOk = true := by decide
    rw [applied] at succeeds
    cases succeeds
  | ok next =>
    have same := (invisible (fun _ => none) _ _ _ january applied).sources 1
    have before : sourceBalance (ledgerOf [januaryEntry .credit]).entries 1 .grant = 5000000 := by
      decide
    have after : sourceBalance next.entries 1 .grant = 0 := by
      rw [(ledgerArchiveApply_ok applied).2.1]
      decide
    have grants := accountSources_eq_iff.mp same .grant
    omega

end OHHive.Cloud
