import OHHive.Cloud.LedgerTransactions
import OHHive.Cloud.Splitting

/-! What one charge for a provider does while others move honey too: the discipline of the
transactions, and the spec of each function that a charge runs. -/

namespace OHHive.Cloud

open Foundation

section Properties

/-- What a provider charge asks for: dollars of the provider, and the honey that pays for them. -/
structure ProviderCharge where
  now : Time
  wallet : AccountId
  usd : ℚ
  honey : Int

def BooksCall.charge? : BooksCall → Option ProviderCharge
  | .chargeInterview around terms member usage => do
    let wallet ← around.memberWallet member
    let usd ← usage.costUsd
    return ⟨around.now, wallet, usd, Books.providerHoney terms usd⟩
  | .chargeMedia around terms member usdCost _ => do
    let wallet ← around.memberWallet member
    let usd ← usdCost
    return ⟨around.now, wallet, usd, Books.providerHoney terms usd⟩
  | _ => none

/-- Whether a call may draw on grants. -/
def BooksCall.drawsGrants : BooksCall → Prop
  | .chargeMedia .. => True
  | _ => False

/-- A charge that may draw on grants has no need to: what the wallet has in purchased honey, beyond
its holds, comes to the charge. -/
def BooksCall.Covered (call : BooksCall) (books : Books) : Prop :=
  call.drawsGrants → ∀ charge, call.charge? = some charge → 0 < charge.honey →
    charge.honey ≤ available books.hive.ledger charge.wallet .purchased

/-- The call has locked the wallet that it charges. -/
def BooksCall.LocksWallet (call : BooksCall) (locks : List BooksRow) : Prop :=
  ∀ charge, call.charge? = some charge → .account charge.wallet ∈ locks

/-- Dollars are booked on a month, within its cap. -/
structure Books.Booked (month : Time) (usd : ℚ) (b : ProviderBudget) (before after : Books) :
    Prop where
  opened : before.providerBudget.lookup month = some b ∨
    before.providerBudget.lookup month = none ∧ b.month = month ∧ b.usdSpent = 0
  within : b.usdSpent + usd ≤ b.usdCap
  booked : after.providerBudget.lookup month = some { b with usdSpent := b.usdSpent + usd }
  others : ∀ other, other ≠ month →
    after.providerBudget.lookup other = before.providerBudget.lookup other

/-- What a charge does when it commits: nothing, or honey and dollars together. -/
inductive Debited (charge : ProviderCharge) (before after : Books) : Prop
  | free (nothing : charge.honey ≤ 0) (same : after = before)
  | paid (positive : 0 < charge.honey) (debits : List LedgerEntry) (credit : LedgerEntry)
      (b : ProviderBudget)
      (hive : after.hive = { before.hive with
        entries := before.hive.entries ++ (debits ++ [credit]) })
      (debit : ∀ row ∈ debits, row.direction = .debit ∧ row.account = charge.wallet ∧
        row.source = .purchased)
      (sum : (debits.map LedgerEntry.amount).sum = charge.honey)
      (credited : credit.direction = .credit ∧ credit.amount = charge.honey)
      (booked : Books.Booked (monthStart charge.now) charge.usd b before after)

/-- A call that charges for no provider books no dollars. -/
def BooksCall.Effect (call : BooksCall) (before after : Books) : Prop :=
  match call.charge? with
  | some charge => Debited charge before after
  | none => after.providerBudget = before.providerBudget

end Properties

section Discipline

/-- What a call with some locks may rely on while others commit. -/
structure Books.Relied (call : BooksCall) (locks : List BooksRow) (first second : Books) :
    Prop where
  locked : ∀ month, .budget month ∈ locks →
    second.providerBudget.lookup month = first.providerBudget.lookup month
  months : ∀ month, (first.providerBudget.lookup month).isSome →
    (second.providerBudget.lookup month).isSome
  holds : ∀ account source, reserved second.hive.reservations.rows account source ≤
    reserved first.hive.reservations.rows account source
  covered : second = first ∨ (call.LocksWallet locks → call.Covered first)

theorem Books.Relied.refl (call : BooksCall) (locks : List BooksRow) (books : Books) :
    Books.Relied call locks books books :=
  ⟨fun _ _ => rfl, fun _ there => there, fun _ _ => le_rfl, .inl rfl⟩

theorem Books.Relied.trans {call : BooksCall} {locks : List BooksRow} {first second third : Books}
    (early : Books.Relied call locks first second) (late : Books.Relied call locks second third) :
    Books.Relied call locks first third where
  locked month locked := (late.locked month locked).trans (early.locked month locked)
  months month there := late.months month (early.months month there)
  holds account source := (late.holds account source).trans (early.holds account source)
  covered := by
    rcases early.covered with rfl | covered
    · exact late.covered
    · exact .inr covered

theorem Books.Relied.weaken {call : BooksCall} {locks more : List BooksRow} {first second : Books}
    (kept : locks ⊆ more) (relied : Books.Relied call more first second) :
    Books.Relied call locks first second where
  locked month locked := relied.locked month (kept locked)
  months := relied.months
  holds := relied.holds
  covered := relied.covered.imp_right fun covered locked =>
    covered fun charge asked => kept (locked charge asked)

/-- The calls that move honey: a charge that may draw on grants is covered as long as it has its
wallet locked. -/
def booksDiscipline : Discipline Books BooksRow BooksCall where
  invariant _ := True
  makes _ := True
  timely call books := call.Covered books
  compatible books _ _ other locks := other.LocksWallet locks → other.Covered books
  ensures := BooksCall.Effect
  rely := Books.Relied
  counts _ := True
  refl := Books.Relied.refl
  trans _ _ _ _ _ := Books.Relied.trans
  weaken _ _ _ _ _ kept := Books.Relied.weaken fun _ member => kept _ member trivial

end Discipline

section Specs

variable {call : BooksCall} {position after : Position Books BooksRow}

/-- Without cover, nobody else commits before the call does. -/
theorem uncovered_onward (onward : booksDiscipline.Onward call position after)
    (locked : call.LocksWallet position.locks) (uncovered : ¬ call.Covered position.seen) :
    after.seen = position.seen := by
  rcases onward.later.covered with same | covered
  · exact same
  · exact absurd (covered locked) uncovered

namespace Books

theorem wp_lockAccount {chart : Chart} {account : AccountId}
    {post : Unit → Position Books BooksRow → Prop}
    (holds : ∀ after, after.change = position.change → .account account ∈ after.locks →
      booksDiscipline.Onward call position after → post () after) :
    booksDiscipline.wp call post (lockAccount chart account) position := by
  refine Discipline.wp_bind.mpr fun store later => ?_
  refine Discipline.wp_check.mpr fun _ => ?_
  exact holds _ rfl List.mem_cons_self (Discipline.onward_lock _ later)

/-- One bucket of a split, read by two statements. -/
theorem wp_bucket {balance held : HoneySource → Books → Int} {account : AccountId}
    {b : HoneySource} {order : List HoneySource} {remaining : ℚ} {acc : List Debit}
    {post : ℚ × List Debit → Position Books BooksRow → Prop} (wanted : ¬ remaining ≤ 0)
    (holds : ∀ first second take, booksDiscipline.Later call position first →
      booksDiscipline.Later call { position with seen := first } second →
      take = min (max ((balance b (position.change first) - held b (position.change second) :
        Int) : ℚ) 0) remaining →
      booksDiscipline.wp call post
        (if 0 < take then splitBuckets (fun b => (.ask (balance b) : BooksProgram Int))
            (fun b => .ask (held b)) account order (remaining - take)
            (acc ++ [⟨account, b, roundMicro take⟩])
          else splitBuckets (fun b => (.ask (balance b) : BooksProgram Int))
            (fun b => .ask (held b)) account order remaining acc)
        { position with seen := second }) :
    booksDiscipline.wp call post
      (splitBuckets (fun b => (.ask (balance b) : BooksProgram Int)) (fun b => .ask (held b))
        account (b :: order) remaining acc) position := by
  rw [splitBuckets, if_neg wanted]
  refine Discipline.wp_bind.mpr fun first firstLater => ?_
  refine Discipline.wp_bind.mpr fun second secondLater => ?_
  exact holds first second _ firstLater secondLater (by push_cast; rfl)

/-- The debits of a split come from its account and its sources. -/
theorem wp_splitBuckets {balance held : HoneySource → Books → Int} {account : AccountId}
    {order : List HoneySource} {remaining : ℚ} {acc : List Debit}
    {post : ℚ × List Debit → Position Books BooksRow → Prop}
    (holds : ∀ left more after, after.change = position.change →
      booksDiscipline.Onward call position after →
      (∀ d ∈ more, d.account = account ∧ d.source ∈ order) → post (left, acc ++ more) after) :
    booksDiscipline.wp call post
      (splitBuckets (fun b => (.ask (balance b) : BooksProgram Int)) (fun b => .ask (held b))
        account order remaining acc) position := by
  induction order generalizing position remaining acc with
  | nil =>
    have here := holds remaining [] position rfl (Discipline.onward_refl _) nofun
    rwa [List.append_nil] at here
  | cons b order ih =>
    by_cases wanted : remaining ≤ 0
    · have here := holds remaining [] position rfl (Discipline.onward_refl _) nofun
      rw [splitBuckets, if_pos wanted]
      rwa [List.append_nil] at here
    refine wp_bucket wanted fun first second take firstLater secondLater _ => ?_
    have onward := (Discipline.onward_seen firstLater).trans (Discipline.onward_seen secondLater)
    refine Discipline.wp_ite.mpr ⟨fun _ => ih ?_, fun _ => ih ?_⟩
    · intro left more after same further drawn
      rw [List.append_assoc]
      refine holds left _ after same (onward.trans further) fun d member => ?_
      rcases List.mem_append.mp member with taken | rest
      · obtain rfl := List.mem_singleton.mp taken
        exact ⟨rfl, List.mem_cons_self⟩
      · exact ⟨(drawn d rest).1, List.mem_cons_of_mem b (drawn d rest).2⟩
    · intro left more after same further drawn
      refine holds left more after same (onward.trans further) fun d member => ?_
      exact ⟨(drawn d member).1, List.mem_cons_of_mem b (drawn d member).2⟩

/-- Debits of purchased honey only, unless a charge that may draw on grants was not covered. -/
structure Drawn (call : BooksCall) (account : AccountId) (debits : List Debit)
    (after : Position Books BooksRow) : Prop where
  account : ∀ d ∈ debits, d.account = account
  purchased : (∀ d ∈ debits, d.source = .purchased) ∨ ¬ call.Covered after.seen

theorem wp_splitDebit_purchased {chart : Chart} {account : AccountId} {amount : ℚ}
    {post : List Debit → Position Books BooksRow → Prop}
    (holds : ∀ debits after, after.change = position.change →
      booksDiscipline.Onward call position after → .account account ∈ after.locks →
      Drawn call account debits after → post debits after) :
    booksDiscipline.wp call post (splitDebit chart account amount [.purchased]) position := by
  refine Discipline.wp_bind.mpr (wp_lockAccount fun locked sameLocked held onward => ?_)
  refine Discipline.wp_bind.mpr (wp_splitBuckets fun left debits after same further drawn => ?_)
  refine Discipline.wp_bind.mpr (Discipline.wp_check.mpr fun _ => ?_)
  rw [List.nil_append]
  refine holds debits after (same.trans sameLocked) (onward.trans further) (further.locks held)
    ⟨fun d member => (drawn d member).1, .inl fun d member => ?_⟩
  exact List.mem_singleton.mp (drawn d member).2

/-- A charge that is covered gets all of its honey from the first bucket. -/
theorem wp_splitDebit_covered {chart : Chart} {charge : ProviderCharge}
    {post : List Debit → Position Books BooksRow → Prop} (asked : call.charge? = some charge)
    (draws : call.drawsGrants) (positive : 0 < charge.honey)
    (quiet : ∀ books, (position.change books).hive = books.hive)
    (holds : ∀ debits after, after.change = position.change →
      booksDiscipline.Onward call position after → .account charge.wallet ∈ after.locks →
      Drawn call charge.wallet debits after → post debits after) :
    booksDiscipline.wp call post
      (splitDebit chart charge.wallet charge.honey [.purchased, .grant]) position := by
  refine Discipline.wp_bind.mpr (wp_lockAccount fun locked sameLocked held onward => ?_)
  have locks : call.LocksWallet locked.locks := by
    intro other same
    obtain rfl := Option.some.inj (asked.symm.trans same)
    exact held
  have wanted : ¬ ((charge.honey : ℚ) ≤ 0) := not_le.mpr (Int.cast_pos.mpr positive)
  refine Discipline.wp_bind.mpr (wp_bucket wanted fun first second take firstLater secondLater
    taken => ?_)
  have toSecond : booksDiscipline.Onward call { locked with seen := first }
      { locked with seen := second } := Discipline.onward_seen secondLater
  have here := (onward.trans (Discipline.onward_seen firstLater)).trans toSecond
  rw [sameLocked, quiet first, quiet second] at taken
  by_cases enough : charge.honey ≤ sourceBalance first.hive.entries charge.wallet .purchased -
      reserved second.hive.reservations.rows charge.wallet .purchased
  · have all : take = charge.honey := by
      rw [taken]
      refine min_eq_right (le_trans (Int.cast_le.mpr enough) (le_max_left _ _))
    rw [if_pos (all ▸ Int.cast_pos.mpr positive), splitBuckets,
      if_pos (sub_nonpos.mpr all.ge)]
    refine Discipline.wp_bind.mpr (Discipline.wp_check.mpr fun _ => ?_)
    refine holds _ _ sameLocked here held ⟨?_, .inl ?_⟩
    · intro d member
      obtain rfl := List.mem_singleton.mp member
      rfl
    · intro d member
      obtain rfl := List.mem_singleton.mp member
      rfl
  · have uncovered : ¬ call.Covered first := by
      intro covered
      have cover := covered draws charge asked positive
      have fewer := toSecond.later.holds charge.wallet .purchased
      unfold available at cover
      exact enough (cover.trans (sub_le_sub_left fewer _))
    have rest : ∀ acc remaining, (∀ d ∈ acc, d.account = charge.wallet) →
        booksDiscipline.wp call
          (fun value => booksDiscipline.wp call post
            ((Program.check (value.1 ≤ 1 / 2)).bind fun _ => .done value.2))
          (splitBuckets
            (fun b => (.ask fun books => sourceBalance books.hive.entries charge.wallet b :
              BooksProgram Int))
            (fun b => .ask fun books => reserved books.hive.reservations.rows charge.wallet b)
            charge.wallet [.grant] remaining acc) { locked with seen := second } := by
      intro acc remaining ofWallet
      refine wp_splitBuckets fun left more after same further drawn => ?_
      refine Discipline.wp_bind.mpr (Discipline.wp_check.mpr fun _ => ?_)
      refine holds _ after (same.trans sameLocked) (here.trans further) (further.locks held)
        ⟨fun d member => ?_, .inr ?_⟩
      · rcases List.mem_append.mp member with early | late
        · exact ofWallet d early
        · exact (drawn d late).1
      · have onward : booksDiscipline.Onward call { locked with seen := first } after :=
          toSecond.trans further
        rw [uncovered_onward onward locks uncovered]
        exact uncovered
    refine Discipline.wp_ite.mpr ⟨fun _ => rest _ _ fun d member => ?_,
      fun _ => rest _ _ fun d member => absurd member List.not_mem_nil⟩
    obtain rfl := List.mem_singleton.mp member
    rfl

/-- What a posting leaves behind: its rows, which balance. -/
theorem wp_postTxn {around : Surroundings} {postings : List Hive.Posting}
    {post : Unit → Position Books BooksRow → Prop}
    (holds : ∀ rows after,
      List.Forall₂ (fun posting row => posting.entry around.mintedTxn around.now = .ok row)
        postings rows →
      |(postings.map Hive.Posting.signed).sum| ≤ 1 / 2 →
      after.change = insertEntries rows ∘ position.change →
      booksDiscipline.Onward call position after → post () after) :
    booksDiscipline.wp call post (postTxn around postings) position := by
  refine Discipline.wp_bind.mpr (Discipline.wp_forEach_acquire fun locked same onward => ?_)
  refine Discipline.wp_bind.mpr (Discipline.wp_orRaise.mpr fun rows built => ?_)
  have stored : postings.mapM (Hive.Posting.entry around.mintedTxn around.now) = .ok rows := by
    revert built
    cases postings.mapM (Hive.Posting.entry around.mintedTxn around.now) with
    | error _ => exact nofun
    | ok found => exact fun same => congrArg Except.ok (Option.some.inj same)
  refine Discipline.wp_bind.mpr ?_
  refine Discipline.wp_bind.mpr (Discipline.wp_check.mpr fun balanced => ?_)
  refine Discipline.wp_bind.mpr fun store later => ?_
  refine Discipline.wp_check.mpr fun _ => ?_
  refine holds rows _ (forall₂_of_mapM stored) balanced ?_ ?_
  · exact congrArg (insertEntries rows ∘ ·) same
  · exact onward.trans ⟨List.Subset.refl _, later.2⟩

/-- Dollars that a transaction is about to book, under the lock of their month. -/
structure Reserves (month : Time) (usd : ℚ) (b : ProviderBudget) (opening : Books → Books)
    (position : Position Books BooksRow) : Prop where
  locked : .budget month ∈ position.locks
  within : b.usdSpent + usd ≤ b.usdCap
  opened : opening = id ∧ position.seen.providerBudget.lookup month = some b ∨
    opening = insertMonth b ∧ position.seen.providerBudget.lookup month = none ∧
      b.month = month ∧ b.usdSpent = 0

theorem Reserves.onward {month : Time} {usd : ℚ} {b : ProviderBudget} {opening : Books → Books}
    (reserves : Reserves month usd b opening position)
    (onward : booksDiscipline.Onward call position after) :
    Reserves month usd b opening after where
  locked := onward.locks reserves.locked
  within := reserves.within
  opened := by
    rw [onward.later.locked month reserves.locked]
    exact reserves.opened

theorem lookup_insertMonth {row : ProviderBudget} {books : Books}
    (absent : books.providerBudget.lookup row.month = none) (month : Time) :
    (insertMonth row books).providerBudget.lookup month =
      if row.month = month then some row else books.providerBudget.lookup month := by
  unfold insertMonth
  cases inserted : books.providerBudget.insert? row with
  | none =>
    have there := Table.isSome_lookup_of_insert? inserted
    rw [absent] at there
    exact nomatch there
  | some result => exact Table.lookup_insert? inserted month

theorem lookup_bookUsd (month : Time) (usd : ℚ) (books : Books) (other : Time) :
    (bookUsd month usd books).providerBudget.lookup other =
      (books.providerBudget.lookup other).map fun row =>
        if row.month = month then { row with usdSpent := row.usdSpent + usd } else row := by
  rw [bookUsd, Table.lookup_updateWhere]
  simp only [decide_eq_true_eq]

/-- Where a transaction stands when its month has a row. -/
structure Ensured (month : Time) (opening : Books → Books) (position : Position Books BooksRow) :
    Prop where
  change : position.change = opening
  opened : opening = id ∧ (position.seen.providerBudget.lookup month).isSome ∨
    ∃ row, opening = insertMonth row ∧ row.month = month ∧ row.usdSpent = 0 ∧
      .budget month ∈ position.locks ∧ position.seen.providerBudget.lookup month = none

theorem wp_ensureMonth {month : Time} {post : Unit → Position Books BooksRow → Prop}
    (fresh : position.change = id)
    (holds : ∀ opening after, booksDiscipline.Onward call position after →
      Ensured month opening after → post () after) :
    booksDiscipline.wp call post (ensureMonth month) position := by
  obtain ⟨locks, change, seen⟩ := position
  obtain rfl : change = id := fresh
  intro first firstLater
  have onward := Discipline.onward_seen firstLater
  by_cases there : (first.providerBudget.lookup month).isSome
  · simp only [id, there, if_true]
    exact holds id _ onward ⟨rfl, .inl ⟨rfl, there⟩⟩
  · simp only [id, there, Bool.false_eq_true, if_false]
    intro second secondLater
    have further := onward.trans (Discipline.onward_lock (.budget month) secondLater)
    by_cases meanwhile : (second.providerBudget.lookup month).isSome
    · simp only [id, meanwhile, if_true]
      exact holds id _ further ⟨rfl, .inl ⟨rfl, meanwhile⟩⟩
    · simp only [id, meanwhile, Bool.false_eq_true, if_false]
      refine holds _ _ ⟨further.locks, further.later⟩
        ⟨rfl, .inr ⟨first.openingMonth month, rfl, rfl, rfl, List.mem_cons_self, ?_⟩⟩
      exact Option.not_isSome_iff_eq_none.mp meanwhile

/-- The dollars are reserved within the cap, whoever else reserves. -/
theorem wp_providerBudgetReserve {now : Time} {usd : ℚ}
    {post : Unit → Position Books BooksRow → Prop} (fresh : position.change = id)
    (holds : ∀ b opening after, booksDiscipline.Onward call position after →
      after.change = bookUsd (monthStart now) usd ∘ opening →
      Reserves (monthStart now) usd b opening after → post () after) :
    booksDiscipline.wp call post (providerBudgetReserve now usd) position := by
  refine Discipline.wp_bind.mpr (wp_ensureMonth fresh fun opening there onward ensured => ?_)
  obtain ⟨rfl, opened⟩ := ensured
  refine Discipline.wp_bind.mpr (Discipline.wp_selectForUpdate.mpr fun first firstLater => ?_)
  have toFirst := Discipline.onward_seen firstLater
  -- The row is there for every statement that follows: nobody deletes a month.
  have row {later : Position Books BooksRow} (on : booksDiscipline.Onward call there later) :
      ∃ b, (there.change later.seen).providerBudget.lookup (monthStart now) = some b ∧
        (there.change = id ∧ later.seen.providerBudget.lookup (monthStart now) = some b ∨
          there.change = insertMonth b ∧
            later.seen.providerBudget.lookup (monthStart now) = none ∧
            b.month = monthStart now ∧ b.usdSpent = 0) := by
    rcases opened with ⟨same, present⟩ | ⟨b, inserts, ofMonth, unspent, locked, absent⟩
    · obtain ⟨b, found⟩ := Option.isSome_iff_exists.mp (on.later.months _ present)
      rw [same]
      exact ⟨b, found, .inl ⟨rfl, found⟩⟩
    · have none := (on.later.locked _ locked).trans absent
      rw [inserts, lookup_insertMonth (ofMonth ▸ none), if_pos ofMonth]
      exact ⟨b, rfl, .inr ⟨rfl, none, ofMonth, unspent⟩⟩
  constructor
  · intro missing
    obtain ⟨b, found, -⟩ := row toFirst
    exact nomatch missing.symm.trans found
  · intro _ second secondLater
    have toSecond := toFirst.trans (Discipline.onward_lock (.budget (monthStart now)) secondLater)
    obtain ⟨b, found, opening⟩ := row toSecond
    dsimp only at found
    rw [found]
    refine Discipline.wp_bind.mpr (Discipline.wp_check.mpr fun within => ?_)
    have here := onward.trans toSecond
    exact holds b there.change _ ⟨here.locks, here.later⟩ rfl ⟨List.mem_cons_self, within, opening⟩

end Books

end Specs

section Commits

variable {call : BooksCall} {position : Position Books BooksRow} {charge : ProviderCharge}

/-- What others may rely on across a commit: months change under their locks, and no hold grows. -/
theorem relied_of_commit {own : List BooksRow} {before after : Books}
    (months : ∀ month, .budget month ∉ own →
      after.providerBudget.lookup month = before.providerBudget.lookup month)
    (kept : ∀ month, (before.providerBudget.lookup month).isSome →
      (after.providerBudget.lookup month).isSome)
    (holds : ∀ account source, reserved after.hive.reservations.rows account source ≤
      reserved before.hive.reservations.rows account source)
    {other : BooksCall} {locks : List BooksRow} (apart : own.Disjoint locks)
    (covered : other.LocksWallet locks → other.Covered before) :
    Books.Relied other locks before after where
  locked month locked := months month fun own => apart own locked
  months := kept
  holds := holds
  covered := .inr covered

namespace Books

theorem Reserves.lookup_opening {month : Time} {usd : ℚ} {b : ProviderBudget}
    {opening : Books → Books} (reserves : Reserves month usd b opening position) :
    b.month = month ∧ ∀ other, (opening position.seen).providerBudget.lookup other =
      if month = other then some b else position.seen.providerBudget.lookup other := by
  rcases reserves.opened with ⟨rfl, found⟩ | ⟨rfl, absent, rfl, -⟩
  · refine ⟨Table.key_of_lookup found, fun other => ?_⟩
    by_cases same : month = other
    · rw [if_pos same, ← same]
      exact found
    · rw [if_neg same]
      rfl
  · exact ⟨rfl, lookup_insertMonth absent⟩

theorem Reserves.hive_opening {month : Time} {usd : ℚ} {b : ProviderBudget}
    {opening : Books → Books} (reserves : Reserves month usd b opening position) (books : Books) :
    (opening books).hive = books.hive := by
  rcases reserves.opened with ⟨rfl, -⟩ | ⟨rfl, -⟩ <;> rfl

/-- The dollars that a commit books. -/
theorem Reserves.booked {month : Time} {usd : ℚ} {b : ProviderBudget} {opening : Books → Books}
    (reserves : Reserves month usd b opening position) (rows : List LedgerEntry) :
    Booked month usd b position.seen
      (insertEntries rows (bookUsd month usd (opening position.seen))) := by
  obtain ⟨ofMonth, opened⟩ := reserves.lookup_opening
  have lookup (other : Time) :
      (insertEntries rows (bookUsd month usd (opening position.seen))).providerBudget.lookup other =
        (if month = other then some b else position.seen.providerBudget.lookup other).map
          fun row => if row.month = month then { row with usdSpent := row.usdSpent + usd }
            else row :=
    (lookup_bookUsd month usd _ other).trans (congrArg (Option.map _) (opened other))
  refine ⟨?_, reserves.within, ?_, fun other apart => ?_⟩
  · rcases reserves.opened with ⟨-, found⟩ | ⟨-, absent, ofMonth, unspent⟩
    · exact .inl found
    · exact .inr ⟨absent, ofMonth, unspent⟩
  · rw [lookup, if_pos rfl, Option.map_some, if_pos ofMonth]
  · rw [lookup, if_neg (Ne.symm apart)]
    cases found : position.seen.providerBudget.lookup other with
    | none => rfl
    | some row =>
      have different : row.month ≠ month := fun same =>
        apart ((Table.key_of_lookup found).symm.trans same)
      rw [Option.map_some, if_neg different]

theorem Booked.kept {month : Time} {usd : ℚ} {b : ProviderBudget} {before after : Books}
    (booked : Booked month usd b before after) (other : Time)
    (there : (before.providerBudget.lookup other).isSome) :
    (after.providerBudget.lookup other).isSome := by
  by_cases same : other = month
  · rw [same, booked.booked]
    rfl
  · rw [booked.others other same]
    exact there

end Books

section Rows

/-- The rows of a list of debits and of the credit after it. -/
theorem forall₂_snoc {α β : Type} {R : α → β → Prop} {front : List α} {last : α} {rows : List β}
    (all : List.Forall₂ R (front ++ [last]) rows) :
    ∃ early late, rows = early ++ [late] ∧ List.Forall₂ R front early ∧ R last late := by
  induction front generalizing rows with
  | nil =>
    obtain ⟨late, rest, related, none, rfl⟩ := List.forall₂_cons_left_iff.mp all
    obtain rfl := List.forall₂_nil_left_iff.mp none
    exact ⟨[], late, rfl, .nil, related⟩
  | cons first front ih =>
    obtain ⟨row, rest, related, later, rfl⟩ := List.forall₂_cons_left_iff.mp all
    obtain ⟨early, late, rfl, before, atEnd⟩ := ih later
    exact ⟨row :: early, late, rfl, .cons related before, atEnd⟩

variable {txn : TxnId} {now : Time}

theorem entry_ok {posting : Hive.Posting} {row : LedgerEntry}
    (stored : posting.entry txn now = .ok row) :
    row.direction = posting.direction ∧ row.account = posting.account ∧
      row.source = posting.source ∧ row.amount = roundMicro posting.amount := by
  unfold Hive.Posting.entry at stored
  split at stored
  · obtain rfl := Except.ok.inj stored
    exact ⟨rfl, rfl, rfl, rfl⟩
  · cases stored

/-- The debit that a split stands for. -/
def debitPosting (entryType : EntryType) (d : Debit) : Hive.Posting :=
  ⟨d.account, entryType, .debit, d.amount, d.source, none⟩

/-- What a charge posts. -/
def chargePostings (entryType : EntryType) (provider : AccountId) (honey : Int)
    (drawn : List Debit) : List Hive.Posting :=
  drawn.map (debitPosting entryType) ++
    [⟨provider, entryType, .credit, honey, .purchased, none⟩]

/-- The stored debits of a split. -/
theorem debits_stored {entryType : EntryType} {drawn : List Debit} {rows : List LedgerEntry}
    (stored : List.Forall₂ (fun posting row => posting.entry txn now = .ok row)
      (drawn.map (debitPosting entryType)) rows) :
    (∀ row ∈ rows, ∃ d ∈ drawn, row.direction = .debit ∧ row.account = d.account ∧
        row.source = d.source) ∧
      (rows.map LedgerEntry.amount).sum = (drawn.map Debit.amount).sum := by
  induction drawn generalizing rows with
  | nil =>
    obtain rfl := List.forall₂_nil_left_iff.mp stored
    exact ⟨nofun, rfl⟩
  | cons d drawn ih =>
    obtain ⟨row, rest, first, later, rfl⟩ := List.forall₂_cons_left_iff.mp stored
    obtain ⟨direction, account, source, amount⟩ := entry_ok first
    obtain ⟨ofRest, sum⟩ := ih later
    constructor
    · intro other member
      rcases List.mem_cons.mp member with rfl | inRest
      · exact ⟨d, List.mem_cons_self, direction, account, source⟩
      · obtain ⟨source, inDrawn, facts⟩ := ofRest other inRest
        exact ⟨source, List.mem_cons_of_mem d inDrawn, facts⟩
    · rw [List.map_cons, List.map_cons, List.sum_cons, List.sum_cons, sum, amount]
      exact congrArg (· + _) (roundMicro_int d.amount)

theorem sum_debitPostings (entryType : EntryType) (drawn : List Debit) :
    ((drawn.map (debitPosting entryType)).map Hive.Posting.signed).sum =
      -(((drawn.map Debit.amount).sum : Int) : ℚ) := by
  induction drawn with
  | nil => simp
  | cons d drawn ih =>
    rw [List.map_cons, List.map_cons, List.sum_cons, ih, List.map_cons, List.sum_cons]
    simp only [debitPosting, Hive.Posting.signed]
    push_cast
    ring

theorem eq_of_near {first second : Int} (near : |-(first : ℚ) + second| ≤ 1 / 2) :
    first = second := by
  have bounds := abs_le.mp near
  have less : ((second - first : Int) : ℚ) < 1 := by
    push_cast
    linarith [bounds.2]
  have more : (-1 : ℚ) < ((second - first : Int) : ℚ) := by
    push_cast
    linarith [bounds.1]
  have upper : second - first < 1 := by exact_mod_cast less
  have lower : -1 < second - first := by exact_mod_cast more
  omega

end Rows

theorem commits_of_free (asked : call.charge? = some charge) (nothing : charge.honey ≤ 0)
    (fresh : position.change = id) : booksDiscipline.Commits call position := by
  intro store _ _
  rw [fresh]
  refine ⟨trivial, ?_, fun other locks apart covered => Books.Relied.refl other locks store⟩
  change call.Effect store store
  rw [BooksCall.Effect, asked]
  exact .free nothing rfl

/-- A charge commits honey and dollars together. -/
theorem commits_of_charge {around : Surroundings} {entryType : EntryType} {drawn : List Debit}
    {provider : AccountId} {rows : List LedgerEntry} {b : ProviderBudget}
    {opening : Books → Books} (asked : call.charge? = some charge) (positive : 0 < charge.honey)
    (locked : .account charge.wallet ∈ position.locks)
    (draws : Books.Drawn call charge.wallet drawn position)
    (reserves : Books.Reserves (monthStart charge.now) charge.usd b opening position)
    (stored : List.Forall₂
      (fun posting row => posting.entry around.mintedTxn around.now = .ok row)
      (chargePostings entryType provider charge.honey drawn) rows)
    (balanced : |((chargePostings entryType provider charge.honey drawn).map
      Hive.Posting.signed).sum| ≤ 1 / 2)
    (change : position.change = Books.insertEntries rows ∘
      Books.bookUsd (monthStart charge.now) charge.usd ∘ opening) :
    booksDiscipline.Commits call position := by
  intro store later timely
  have reservesNow := reserves.onward (Discipline.onward_seen later)
  have booked := reservesNow.booked rows
  have after : position.change store = Books.insertEntries rows
      (Books.bookUsd (monthStart charge.now) charge.usd (opening store)) := by
    rw [change]
    rfl
  have sameHive : (position.change store).hive =
      { store.hive with entries := store.hive.entries ++ rows } := by
    rw [after, ← reservesNow.hive_opening store]
    rfl
  have locks : call.LocksWallet position.locks := by
    intro other same
    obtain rfl := Option.some.inj (asked.symm.trans same)
    exact locked
  have purchased : ∀ d ∈ drawn, d.source = .purchased := by
    rcases draws.purchased with purchased | uncovered
    · exact purchased
    · have same := uncovered_onward (Discipline.onward_seen later) locks uncovered
      exact absurd (same ▸ timely) uncovered
  obtain ⟨debits, credit, rfl, ofDebits, ofCredit⟩ := forall₂_snoc stored
  obtain ⟨debit, sum⟩ := debits_stored ofDebits
  obtain ⟨direction, -, -, amount⟩ := entry_ok ofCredit
  have total : (drawn.map Debit.amount).sum = charge.honey := by
    rw [chargePostings, List.map_append, List.sum_append, sum_debitPostings, List.map_singleton,
      List.sum_singleton] at balanced
    exact eq_of_near balanced
  refine ⟨trivial, ?_, fun other others apart covered => ?_⟩
  · change call.Effect store (position.change store)
    rw [BooksCall.Effect, asked]
    refine .paid positive debits credit b sameHive ?_ (sum.trans total) ⟨direction, ?_⟩ ?_
    · intro row member
      obtain ⟨d, inDrawn, isDebit, account, source⟩ := debit row member
      exact ⟨isDebit, account.trans (draws.account d inDrawn), source.trans (purchased d inDrawn)⟩
    · rw [amount]
      exact roundMicro_int charge.honey
    · rw [after]
      exact booked
  · rw [after]
    refine relied_of_commit (fun month free => ?_) booked.kept (fun _ _ => ?_) apart covered
    · exact booked.others month fun same => free (same ▸ reservesNow.locked)
    · rw [← after, sameHive]

namespace Books

theorem safe_chargeProvider {around : Surroundings} {terms : ProviderTerms} {wallet : AccountId}
    {usd : ℚ} {order : List HoneySource} {entryType : EntryType} {store : Books}
    (asked : call.charge? = some ⟨around.now, wallet, usd, providerHoney terms usd⟩)
    (split : ∀ {position : Position Books BooksRow} {post : List Debit → _ → Prop},
      0 < providerHoney terms usd → (∀ books, (position.change books).hive = books.hive) →
      (∀ debits after, after.change = position.change →
        booksDiscipline.Onward call position after → .account wallet ∈ after.locks →
        Drawn call wallet debits after → post debits after) →
      booksDiscipline.wp call post
        (splitDebit around.chart wallet (providerHoney terms usd) order) position) :
    booksDiscipline.Safe call (chargeProvider around terms wallet usd order entryType)
      ⟨[], id, store⟩ := by
  unfold chargeProvider
  by_cases positive : 0 < providerHoney terms usd
  · dsimp only
    rw [if_pos positive]
    refine Discipline.wp_bind.mpr (wp_providerBudgetReserve rfl
      fun b opening reserved _ change reserves => ?_)
    refine Discipline.wp_bind.mpr (split positive (fun books => ?_)
      fun drawn after same onward locked draws => ?_)
    · rw [change]
      exact reserves.hive_opening books
    refine Discipline.wp_bind.mpr (Discipline.wp_orRaise.mpr fun provider _ => ?_)
    refine wp_postTxn fun rows done stored balanced changed onwardPost => ?_
    refine commits_of_charge asked positive (onwardPost.locks locked) ⟨draws.account, ?_⟩
      ((reserves.onward onward).onward onwardPost) stored balanced ?_
    · refine draws.purchased.imp_right fun uncovered => ?_
      have locks : call.LocksWallet after.locks := by
        intro other sameCharge
        obtain rfl := Option.some.inj (asked.symm.trans sameCharge)
        exact locked
      rw [uncovered_onward onwardPost locks uncovered]
      exact uncovered
    · rw [changed, same, change]
  · dsimp only
    rw [if_neg positive]
    exact commits_of_free asked (not_lt.mp positive) rfl

end Books

end Commits

end OHHive.Cloud
