import OHHive.Cloud.ProviderCharges

/-! The provider's money under any interleaving of charges, fundings and settlements: dollars are
booked with purchased honey and within the cap of their month. -/

namespace OHHive.Cloud

open Foundation

section Bystanders

/-- A change that books no dollars and adds to no hold. -/
def Harmless (change : Books → Books) : Prop :=
  ∀ books, (change books).providerBudget = books.providerBudget ∧
    ∀ account source, reserved (change books).hive.reservations.rows account source ≤
      reserved books.hive.reservations.rows account source

theorem Harmless.comp {first second : Books → Books} (early : Harmless first)
    (late : Harmless second) : Harmless (second ∘ first) := by
  intro books
  refine ⟨(late (first books)).1.trans (early books).1, fun account source => ?_⟩
  exact ((late (first books)).2 account source).trans ((early books).2 account source)

/-- Fewer holds hold less. -/
theorem reserved_le {fewer more : List Reservation} (part : fewer.Sublist more)
    (account : AccountId) (source : HoneySource) :
    reserved fewer account source ≤ reserved more account source := by
  refine ((part.filter _).map _).sum_le_sum fun amount counted => ?_
  obtain ⟨row, -, rfl⟩ := List.mem_map.mp counted
  exact row.positive.le

theorem harmless_of_hive {change : Hive → Hive}
    (fewer : ∀ hive, (change hive).reservations.rows.Sublist hive.reservations.rows) :
    Harmless fun books => books.withHive change :=
  fun books => ⟨rfl, fun account source => reserved_le (fewer books.hive) account source⟩

theorem reservations_cascadeChildStatus (hive : Hive) (parent? : Option CardId)
    (status : CardStatus) (key : String) (depth : Nat) :
    (hive.cascadeChildStatus parent? status key depth).reservations = hive.reservations := by
  induction depth generalizing hive parent? status key with
  | zero => rfl
  | succ depth ih =>
    unfold Hive.cascadeChildStatus
    split
    · rfl
    · split
      · rfl
      · split
        · rfl
        · split
          · split <;> rfl
          · split
            · exact ih _ _ _ _
            · rfl

theorem reservations_setStatus (hive : Hive) (card : CardId) (status : CardStatus) :
    (hive.setStatus card status).reservations = hive.reservations := by
  unfold Hive.setStatus
  split
  · rfl
  · dsimp only
    split
    · rfl
    · exact reservations_cascadeChildStatus _ _ _ _ _

namespace Books

theorem harmless_insertEntries (rows : List LedgerEntry) : Harmless (insertEntries rows) :=
  harmless_of_hive fun _ => List.Sublist.refl _

theorem writes_lockAccount (chart : Chart) (account : AccountId) :
    (lockAccount chart account).Writes Harmless :=
  Program.Writes.bind (fun _ => trivial) fun _ => .check _

theorem writes_splitBuckets {balance held : HoneySource → Books → Int} {account : AccountId}
    {order : List HoneySource} {remaining : ℚ} {acc : List Debit} :
    (splitBuckets (fun b => (.ask (balance b) : BooksProgram Int)) (fun b => .ask (held b))
      account order remaining acc).Writes Harmless := by
  induction order generalizing remaining acc with
  | nil => trivial
  | cons b order ih =>
    rw [splitBuckets]
    split
    · trivial
    · refine Program.Writes.bind (fun _ => trivial) fun _ => ?_
      refine Program.Writes.bind (fun _ => trivial) fun _ => ?_
      dsimp only
      split
      · exact ih
      · exact ih

theorem writes_splitDebit (chart : Chart) (account : AccountId) (amount : ℚ)
    (order : List HoneySource) : (splitDebit chart account amount order).Writes Harmless := by
  refine Program.Writes.bind (writes_lockAccount chart account) fun _ => ?_
  refine Program.Writes.bind writes_splitBuckets fun _ => ?_
  exact Program.Writes.bind (.check _) fun _ => trivial

theorem writes_postTxn (around : Surroundings) (postings : List Hive.Posting) :
    (postTxn around postings).Writes Harmless := by
  refine Program.Writes.bind (.forEach fun _ _ => trivial) fun _ => ?_
  refine Program.Writes.bind (.orRaise _) fun rows => ?_
  refine Program.Writes.bind ⟨harmless_insertEntries rows, trivial⟩ fun _ => ?_
  refine Program.Writes.bind (.check _) fun _ => ?_
  exact Program.Writes.bind (fun _ => trivial) fun _ => .check _

theorem writes_fundProject (around : Surroundings) (project : ProjectId) (amount : Numeric) :
    (fundProject around project amount).Writes Harmless := by
  refine Program.Writes.bind (.check _) fun _ => ?_
  cases amount with
  | special => trivial
  | finite amount =>
    refine Program.Writes.bind (.check _) fun _ => ?_
    refine Program.Writes.bind (.orRaise _) fun p => ?_
    refine Program.Writes.bind (.orRaise _) fun wallet => ?_
    refine Program.Writes.bind (writes_lockAccount _ _) fun _ => ?_
    refine Program.Writes.bind (fun _ => trivial) fun _ => ?_
    refine Program.Writes.bind (.check _) fun _ => ?_
    exact Program.Writes.bind (writes_splitDebit _ _ _ _) fun _ => writes_postTxn _ _

theorem writes_pay (around : Surroundings) (payer : AccountId) (amount : Int) (card : CardId)
    (nid : NodeId) : (pay around payer amount card nid).Writes Harmless := by
  refine Program.Writes.bind (writes_splitDebit _ _ _ _) fun _ => ?_
  exact Program.Writes.bind (.orRaise _) fun _ => writes_postTxn _ _

theorem writes_settle (around : Surroundings) (p : Project) (charge : Hive.Charge)
    (card : CardId) (nid : NodeId) : (settle around p charge card nid).Writes Harmless := by
  refine Program.Writes.bind (fun _ => trivial) fun balance => ?_
  refine Program.Writes.bind (.check _) fun _ => ?_
  split
  · exact writes_pay _ _ _ _ _
  · trivial

theorem writes_releaseHolds (card : CardId) (charge : Hive.Charge) :
    (releaseHolds card charge).Writes Harmless := by
  unfold releaseHolds
  cases charge.held with
  | none => trivial
  | some held =>
    refine Program.Writes.bind (fun _ => trivial) fun _ => ?_
    refine Program.Writes.bind (.check _) fun _ => ⟨?_, trivial⟩
    exact harmless_of_hive fun hive => List.filter_sublist

theorem harmless_finishCard (card : CardId) : Harmless (finishCard card) := by
  refine harmless_of_hive fun hive => ?_
  rw [reservations_setStatus]
  exact List.filter_sublist

theorem writes_completeCard (around : Surroundings) (node? : Option NodeId) (card : CardId)
    (content : String) (usage : Usage) :
    (completeCard around node? card content usage).Writes Harmless := by
  refine Program.Writes.bind (.orRaise _) fun nid => ?_
  refine Program.Writes.bind (.selectForUpdate _ _) fun lease? => ?_
  refine Program.Writes.bind (.orRaise _) fun lease => ?_
  refine Program.Writes.bind (fun _ => trivial) fun c? => ?_
  refine Program.Writes.bind (.orRaise _) fun c => ?_
  refine Program.Writes.bind (.orRaise _) fun p => ?_
  refine Program.Writes.bind (fun _ => trivial) fun charge? => ?_
  refine Program.Writes.bind (.orRaise _) fun charge => ?_
  refine Program.Writes.bind ⟨harmless_of_hive fun _ => List.Sublist.refl _, trivial⟩ fun _ => ?_
  refine Program.Writes.bind (writes_lockAccount _ _) fun _ => ?_
  refine Program.Writes.bind (writes_releaseHolds card charge) fun _ => ?_
  refine Program.Writes.bind (writes_settle around p charge card nid) fun _ => ?_
  exact ⟨harmless_finishCard card, trivial⟩

end Books

/-- A transaction that neither books dollars nor adds a hold does not disturb a charge. -/
theorem safe_of_writes {call : BooksCall} {store : Books} (program : BooksProgram Unit)
    (charges : call.charge? = none) (writes : program.Writes Harmless) :
    booksDiscipline.Safe call program ⟨[], id, store⟩ := by
  have nothing : Harmless id := fun _ => ⟨rfl, fun _ _ => le_rfl⟩
  have closed : ∀ first second, Harmless first → Harmless second → Harmless (second ∘ first) :=
    fun _ _ => Harmless.comp
  have harmless : booksDiscipline.wp call (fun _ after => Harmless after.change) program
      ⟨[], id, store⟩ := Discipline.wp_of_writes closed writes nothing
  refine Discipline.wp_mono ?_ harmless
  intro _ position harmless current _ _
  obtain ⟨sameMonths, fewer⟩ := harmless current
  refine ⟨trivial, ?_, fun other locks apart covered => ?_⟩
  · change call.Effect current (position.change current)
    rw [BooksCall.Effect, charges]
    exact sameMonths
  · exact relied_of_commit (fun month _ => by rw [sameMonths])
      (fun month there => by rw [sameMonths]; exact there) fewer apart covered

end Bystanders

section Calls

variable {store : Books}

theorem safe_chargeInterview (around : Surroundings) (terms : Books.ProviderTerms)
    (member : MemberId) (usage : Books.InterviewUsage) :
    booksDiscipline.Safe (.chargeInterview around terms member usage)
      (Books.chargeInterview around terms member usage) ⟨[], id, store⟩ := by
  refine Discipline.wp_bind.mpr (Discipline.wp_orRaise.mpr fun wallet found => ?_)
  cases cost : usage.costUsd with
  | none =>
    refine safe_of_writes (.done ()) ?_ trivial
    simp [BooksCall.charge?, found, cost]
  | some usd =>
    refine Books.safe_chargeProvider ?_ fun _ _ holds => Books.wp_splitDebit_purchased holds
    simp [BooksCall.charge?, found, cost]

theorem safe_chargeMedia (around : Surroundings) (terms : Books.ProviderTerms)
    (member : MemberId) (usdCost : Option ℚ) (entryType : EntryType) :
    booksDiscipline.Safe (.chargeMedia around terms member usdCost entryType)
      (Books.chargeMedia around terms member usdCost entryType) ⟨[], id, store⟩ := by
  refine Discipline.wp_bind.mpr (Discipline.wp_check.mpr fun _ => ?_)
  refine Discipline.wp_bind.mpr (Discipline.wp_orRaise.mpr fun wallet found => ?_)
  cases usdCost with
  | none =>
    refine safe_of_writes (.done ()) ?_ trivial
    simp [BooksCall.charge?, found]
  | some usd =>
    have asked : BooksCall.charge? (.chargeMedia around terms member (some usd) entryType) =
        some ⟨around.now, wallet, usd, Books.providerHoney terms usd⟩ := by
      simp [BooksCall.charge?, found]
    exact Books.safe_chargeProvider asked fun positive quiet holds =>
      Books.wp_splitDebit_covered asked trivial positive quiet holds

theorem safe_booksCall (call : BooksCall) : booksDiscipline.Safe call call.program
    ⟨[], id, store⟩ := by
  cases call with
  | chargeInterview around terms member usage =>
    exact safe_chargeInterview around terms member usage
  | chargeMedia around terms member usdCost entryType =>
    exact safe_chargeMedia around terms member usdCost entryType
  | fundProject around project amount =>
    exact safe_of_writes _ rfl (Books.writes_fundProject around project amount)
  | completeCard around node? card content usage =>
    exact safe_of_writes _ rfl (Books.writes_completeCard around node? card content usage)

end Calls

section Runs

/-- A move at which no charge needs a grant: a charge that may draw on grants is covered by
purchased honey while it has its wallet locked, and when it commits. -/
structure CoversGrants (system : System Books BooksRow BooksCall) (move : Move BooksCall) :
    Prop where
  locked : ∀ client ∈ system.clients.rows, client.call.LocksWallet client.locks →
    client.call.Covered system.committed
  commits : ∀ call, system.commits move = some call → call.Covered system.committed

/-- What a move does to the provider's money. -/
structure ProviderMoney (system : System Books BooksRow BooksCall) (move : Move BooksCall)
    (after : Books) : Prop where
  refused : system.commits move = none → after = system.committed
  effect : ∀ call, system.commits move = some call → call.Effect system.committed after

/-- In every run in which no charge needs a grant, dollars are booked with purchased honey, within
the cap of their month, and by nothing but a charge that commits. -/
theorem provider_money (books : Books) (moves : List (Move BooksCall))
    (covers : EachStep (System.step BooksCall.program) ⟨books, .empty⟩ CoversGrants moves)
    (moment : Nat) (move : Move BooksCall) (present : moves[moment]? = some move) :
    ProviderMoney (System.systemAt BooksCall.program books moves moment) move
      (System.systemAt BooksCall.program books moves (moment + 1)).committed := by
  have permitted : EachStep (System.step BooksCall.program) ⟨books, .empty⟩
      (fun system move => system.Permits booksDiscipline move) moves := by
    intro count next there
    have cover := covers count next there
    exact ⟨fun _ _ _ => trivial, cover.commits,
      fun _ _ other member _ => cover.locked other member⟩
  have valid : (System.systemAt BooksCall.program books moves moment).Valid booksDiscipline :=
    System.valid_systemAt trivial (fun call _ _ _ => safe_booksCall call) permitted moment
  have next : System.systemAt BooksCall.program books moves (moment + 1) =
      System.step BooksCall.program (System.systemAt BooksCall.program books moves moment) move :=
    stateAt_succ _ _ present
  rw [next]
  exact ⟨System.committed_of_not_commits,
    fun call commits => valid.ensures (permitted moment move present) commits⟩

/-- Runs without a charge that may draw on grants. -/
theorem coversGrants_of_interviews (books : Books) {moves : List (Move BooksCall)}
    (started : ∀ process call, .start process call ∈ moves → ¬ call.drawsGrants) :
    EachStep (System.step BooksCall.program) ⟨books, .empty⟩ CoversGrants moves := by
  intro moment move present
  have drawsNone : ∀ client ∈ (stateAt (System.step BooksCall.program) ⟨books, .empty⟩ moves
      moment).clients.rows, ¬ client.call.drawsGrants := by
    refine stateAt_invariant _ _ moves
      (fun system : System Books BooksRow BooksCall =>
        ∀ client ∈ system.clients.rows, ¬ client.call.drawsGrants)
      (fun _ member => absurd member List.not_mem_nil) ?_ moment
    intro system op asked before client member
    rcases System.call_of_mem_step member with ⟨old, stored, same⟩ | ⟨process, rfl⟩
    · exact same ▸ before old stored
    · exact started process client.call asked
  constructor
  · intro client member _ draws
    exact absurd draws (drawsNone client member)
  · intro call commits draws
    obtain ⟨client, member, rfl⟩ := System.exists_client_of_commits commits
    exact absurd draws (drawsNone client member)

end Runs

section Grants

/-- A wallet of 1000 honey that was granted, and a month of 25 dollars. -/
def grantedBooks : Books where
  hive := { Hive.empty with
    entries := [⟨0, 2, .adjustment, .credit, 1000000000, .grant, none, 0, by decide⟩] }
  providerBudget := ⟨[⟨0, 25, 0⟩], by simp⟩

def mediaSurroundings : Surroundings where
  now := 60000000
  clockTimestamp := 60000000
  verifyNodeKey := fun _ => none
  ctlDelegateNode := fun _ => none
  user := some 1
  isMember := true
  isProjectAdmin := fun _ => false
  memberActive := fun _ => true
  project := fun _ => none
  node := fun _ => none
  interview := fun _ => none
  mcpServerEnabled := fun _ _ => false
  chart := fun account =>
    if account = 2 then some .memberWallet else if account = 5 then some .providerCost else none
  memberWallet := fun member => if member = 1 then some 2 else none
  inputRate := none
  outputRate := none
  speechRate := none
  md5 := fun text => text
  mintedTxn := 8

/-- An image for five cents. -/
def imageCharge : BooksCall :=
  .chargeMedia mediaSurroundings ⟨some 5, none⟩ 1 (some (1 / 20)) .spendJob

def imageRun : List (Move BooksCall) :=
  .start 0 imageCharge :: List.replicate 13 (.advance 0)

/-- The image is paid with granted honey, although it costs the provider's dollars. -/
theorem grant_pays_provider :
    ((System.systemAt BooksCall.program grantedBooks imageRun 14).committed.hive.entries.map
      fun row => (row.account, row.direction, row.source, row.amount)) =
        [(2, .credit, .grant, 1000000000), (2, .debit, .grant, 5000000),
          (5, .credit, .purchased, 5000000)] ∧
      (System.systemAt BooksCall.program grantedBooks imageRun 14).committed.providerBudget.rows =
        [⟨0, 25, 1 / 20⟩] := by
  decide +kernel

/-- A turn of a thousand tokens at a hundred dollars a million, paid with purchased honey. -/
def turnCharge : BooksCall :=
  .chargeInterview mediaSurroundings ⟨some 5, none⟩ 1 ⟨some 1000, none, some 100, some 0⟩

def purchasedBooks : Books where
  hive := { Hive.empty with
    entries := [⟨0, 2, .purchase, .credit, 1000000000, .purchased, none, 0, by decide⟩] }
  providerBudget := ⟨[⟨0, 25, 0⟩], by simp⟩

def turnRun : List (Move BooksCall) :=
  .start 0 turnCharge :: List.replicate 11 (.advance 0)

theorem provider_money_turn :
    ProviderMoney (System.systemAt BooksCall.program purchasedBooks turnRun 11) (.advance 0)
      (System.systemAt BooksCall.program purchasedBooks turnRun 12).committed :=
  provider_money purchasedBooks turnRun
    (coversGrants_of_interviews purchasedBooks fun process call member draws => by
      rcases List.mem_cons.mp member with same | rest
      · rw [(Move.start.inj same).2] at draws
        exact draws
      · exact nomatch (List.mem_replicate.mp rest).2)
    11 (.advance 0) rfl

end Grants

end OHHive.Cloud
