import OHHive.Cloud.Acceptance

/-! What is spent on a card stays within its approved limit, over all its leases, charges and
replaced budgets; and a hold stands for exactly one lease. -/

namespace OHHive.Cloud

open Foundation

section Slots

variable {event : Event} {id : CardId} {before after : Slot}

/-- Holds stand for a lease. -/
def Slot.HoldsLease (slot : Slot) : Prop := slot.lease = none → slot.holds = []

/-- What was spent is within the limit, and nothing was spent before there was one. -/
def Slot.Within (slot : Slot) : Prop :=
  match slot.approval with
  | none => spentBy slot.paid = 0
  | some approval => spentBy slot.paid ≤ approval.limit

/-- A card that a compute budget can pay for. -/
def Slot.Computes (slot : Slot) : Prop :=
  ∀ card ∈ slot.card, card.modality = .text ∨ card.modality = .code

theorem Slot.Computes.not_speech {slot : Slot} {card : Card} (computes : slot.Computes)
    (stored : slot.card = some card) : card.modality ≠ .speech := by
  intro speech
  rcases computes card (Option.mem_def.mpr stored) with text | code
  · rw [speech] at text
    cases text
  · rw [speech] at code
    cases code

theorem spentBy_append (paid rows : List LedgerEntry) :
    spentBy (paid ++ rows) = spentBy paid + spentBy rows :=
  total_append LedgerEntry.amount paid rows _

/-- The rows of a payment spend its amount. -/
theorem Pays.spentBy {around : Surroundings} {payer : AccountId} {nid : NodeId} {amount : Int}
    {debits : List LedgerEntry} {credit : LedgerEntry}
    (pays : Pays around payer nid amount debits credit) :
    spentBy (debits ++ [credit]) = amount := by
  have spent : debits.filter (fun entry => decide (entry.entryType = .spendJob) &&
      decide (entry.direction = .debit)) = debits := by
    apply List.filter_eq_self.mpr
    intro entry member
    obtain ⟨_, spends, debit⟩ := pays.debit entry member
    simp [spends, debit]
  have earned : OHHive.Cloud.spentBy [credit] = 0 := by
    apply total_eq_zero
    intro entry member
    rw [List.mem_singleton.mp member, pays.credit.1]
    rfl
  rw [spentBy_append, earned, add_zero, ← pays.sum]
  unfold OHHive.Cloud.spentBy total
  rw [spent]

theorem SlotMove.holdsLease (move : SlotMove event id before after) (holds : before.HoldsLease) :
    after.HoldsLease := by
  cases move with
  | created new approval absent renews => exact holds
  | claimed card p lease held stored ready free ofProject reserves => exact fun none => by cases none
  | extended lease expiresAt leased => exact fun none => by cases none
  | completed asked card p lease rows completion ofCard authenticated stored leased ofProject
      charges =>
    exact fun _ => rfl
  | ended lease change outputs leased stops revises => exact fun _ => rfl
  | accepted card asked stored finished => exact holds
  | sentBack card later note asked stored ready revises =>
    intro _
    cases leased : before.lease with
    | none => exact holds leased
    | some lease => rfl
  | opened card status outputs stored waits opens => exact holds
  | approved card approval stored free renews => exact holds

/-- A frozen charge is within what its approval leaves. -/
theorem FrozenCharge.spends_within {around : Surroundings} {lease : Lease} {usage : Usage}
    {approval : Approval} {tokensIn tokensOut : Int} {rows : List LedgerEntry}
    (charge : FrozenCharge around before lease usage approval tokensIn tokensOut rows)
    (within : spentBy before.paid ≤ approval.limit) :
    spentBy (before.paid ++ rows) ≤ approval.limit := by
  rw [spentBy_append]
  by_cases positive : 0 < Hive.frozenCharge approval tokensIn tokensOut
  · obtain ⟨debits, credit, rfl, pays⟩ := charge.paid positive
    rw [pays.spentBy]
    have bound := charge.within
    unfold leftOf at bound
    omega
  · rw [charge.free (not_lt.mp positive)]
    have nothing : spentBy [] = 0 := rfl
    omega

theorem Approval.Renews.within {approval : Approval} {card : Card}
    (renews : approval.Renews card before) (within : before.Within) :
    spentBy before.paid ≤ approval.limit := by
  rcases renews.above with unapproved | above
  · unfold Slot.Within at within
    rw [unapproved] at within
    have positive := approval.positive
    omega
  · exact above.le

theorem SlotMove.within (move : SlotMove event id before after) (computes : before.Computes)
    (within : before.Within) : after.Within := by
  cases move with
  | created new approval absent renews =>
    rcases renews with rfl | ⟨fresh, rfl, renews⟩
    · exact within
    · exact renews.within within
  | claimed card p lease held stored ready free ofProject reserves => exact within
  | extended lease expiresAt leased => exact within
  | completed asked card p lease rows completion ofCard authenticated stored leased ofProject
      charges =>
    cases mode : p.executionMode with
    | localMode =>
      rw [charges.nothing mode, List.append_nil]
      exact within
    | hiveMode =>
      obtain ⟨approval, tokensIn, tokensOut, charge⟩ :=
        charges.compute mode (computes.not_speech stored)
      unfold Slot.Within at within ⊢
      rw [charge.approved] at within ⊢
      exact charge.spends_within within
  | ended lease change outputs leased stops revises => exact within
  | accepted card asked stored finished => exact within
  | sentBack card later note asked stored ready revises => exact within
  | opened card status outputs stored waits opens => exact within
  | approved card approval stored free renews => exact renews.within within

/-- A move keeps the card, whatever it does to its status. -/
theorem SlotMove.revises (move : SlotMove event id before after) {card : Card}
    (stored : before.card = some card) : ∃ later, after.card = some later ∧ later.Revises card := by
  have same {row : Card} (found : before.card = some row) : row = card :=
    Option.some.inj (found.symm.trans stored)
  cases move with
  | created new approval absent renews =>
    rw [stored] at absent
    cases absent
  | claimed row p lease held found ready free ofProject reserves =>
    exact same found ▸ ⟨_, rfl, Card.moved_revises row .running⟩
  | extended lease expiresAt leased => exact ⟨card, stored, rfl, rfl⟩
  | completed asked row p lease rows completion ofCard authenticated found leased ofProject
      charges =>
    exact same found ▸ ⟨_, rfl, Card.moved_revises row .review⟩
  | ended lease change outputs leased stops revises =>
    exact ⟨change card, congrArg (Option.map change) stored, revises card⟩
  | accepted row asked found finished =>
    exact same found ▸ ⟨_, rfl, Card.moved_revises row .done⟩
  | sentBack row later note asked found ready revises => exact same found ▸ ⟨later, rfl, revises⟩
  | opened row status outputs found waits opens =>
    exact same found ▸ ⟨_, rfl, Card.moved_revises row status⟩
  | approved row approval found free renews => exact ⟨card, stored, rfl, rfl⟩

/-- What a lease is charged against: its holds, its approval and what was paid before. -/
structure SameFunds (before after : Slot) : Prop where
  holds : after.holds = before.holds
  approval : after.approval = before.approval
  paid : after.paid = before.paid

/-- Nothing touches the funds of a lease while it lasts. -/
theorem SlotMove.sameFunds (move : SlotMove event id before after) {card : Card}
    (stored : before.card = some card) (leased : before.lease.isSome)
    (still : after.lease.isSome) : SameFunds before after := by
  cases move with
  | created new approval absent renews =>
    rw [stored] at absent
    cases absent
  | claimed row p lease held found ready free ofProject reserves =>
    rw [free] at leased
    cases leased
  | extended lease expiresAt leased => exact ⟨rfl, rfl, rfl⟩
  | completed asked row p lease rows completion ofCard authenticated found leased ofProject
      charges =>
    cases still
  | ended lease change outputs leased stops revises => cases still
  | accepted row asked found finished => exact ⟨rfl, rfl, rfl⟩
  | sentBack row later note asked found ready revises => cases still
  | opened row status outputs found waits opens => exact ⟨rfl, rfl, rfl⟩
  | approved row approval found free renews =>
    rw [free] at leased
    cases leased

/-- A lease begins with its holds. -/
theorem SlotMove.begins (move : SlotMove event id before after) (free : before.lease = none)
    (leased : after.lease.isSome) :
    ∃ card p held, before.card = some card ∧ event.around.project card.projectId = some p ∧
      Reserves p card before held ∧ after.holds = before.holds ++ held ∧
      after.approval = before.approval ∧ after.paid = before.paid := by
  cases move with
  | claimed card p lease held stored ready free ofProject reserves =>
    exact ⟨card, p, held, stored, ofProject, reserves, rfl, rfl, rfl⟩
  | created new approval absent renews =>
    rw [free] at leased
    cases leased
  | extended lease expiresAt had =>
    rw [free] at had
    cases had
  | completed asked card p lease rows completion ofCard authenticated stored had ofProject
      charges =>
    cases leased
  | ended lease change outputs had stops revises => cases leased
  | accepted card asked stored finished =>
    rw [free] at leased
    cases leased
  | sentBack card later note asked stored ready revises => cases leased
  | opened card status outputs stored waits opens =>
    rw [free] at leased
    cases leased
  | approved card approval stored _ renews =>
    rw [free] at leased
    cases leased

/-- A charge ends a lease, at the frozen rates. -/
structure Charged (event : Event) (id : CardId) (before after : Slot) (asked : Completion)
    (lease : Lease) (approval : Approval) (tokensIn tokensOut : Int) (debits : List LedgerEntry)
    (credit : LedgerEntry) : Prop where
  completion : event.completion = some asked ∧ asked.card = id ∧ asked.node? = some lease.node
  leased : before.lease = some lease
  ended : after.lease = none
  approved : before.approval = some approval
  reported : asked.usage.tokensIn = some tokensIn ∧ asked.usage.tokensOut = some tokensOut
  paid : after.paid = before.paid ++ (debits ++ [credit])
  pays : Pays event.around approval.payer lease.node
    (Hive.frozenCharge approval tokensIn tokensOut) debits credit

theorem SlotMove.charged (move : SlotMove event id before after) (computes : before.Computes)
    (changed : after.paid ≠ before.paid) :
    ∃ asked lease approval tokensIn tokensOut debits credit,
      Charged event id before after asked lease approval tokensIn tokensOut debits credit := by
  cases move with
  | completed asked card p lease rows completion ofCard authenticated stored leased ofProject
      charges =>
    have posted : rows ≠ [] := by
      rintro rfl
      exact changed (List.append_nil _)
    cases mode : p.executionMode with
    | localMode => exact absurd (charges.nothing mode) posted
    | hiveMode =>
      obtain ⟨approval, tokensIn, tokensOut, charge⟩ :=
        charges.compute mode (computes.not_speech stored)
      have positive : 0 < Hive.frozenCharge approval tokensIn tokensOut := by
        by_contra nothing
        exact posted (charge.free (not_lt.mp nothing))
      obtain ⟨debits, credit, rfl, pays⟩ := charge.paid positive
      exact ⟨asked, lease, approval, tokensIn, tokensOut, debits, credit,
        ⟨completion, ofCard, authenticated⟩, leased, rfl, charge.approved, charge.reported, rfl,
        pays⟩
  | _ => exact absurd rfl changed

end Slots

section Refusals

variable {event : Event} {hive : Hive}

/-- The mode in which a call finds a card's project. -/
def Event.mode (event : Event) (card : Card) : Option ExecutionMode :=
  (event.around.project card.projectId).map Project.executionMode

/-- A completion that has to be refused: the limit does not cover it, the lease is over, or the
card's input is no longer the one that was approved. -/
inductive Defective (around : Surroundings) (hive : Hive) (card : Card) (usage : Usage) : Prop
  | overBudget (approval : Approval) (tokensIn tokensOut : Int)
      (approved : hive.approvals.lookup card.id = some approval)
      (reported : usage.tokensIn = some tokensIn ∧ usage.tokensOut = some tokensOut)
      (exceeds : hive.remaining approval < Hive.frozenCharge approval tokensIn tokensOut)
  | expired (lease : Lease) (leased : hive.leases.lookup card.id = some lease)
      (ended : lease.expiresAt ≤ around.now)
  | changed (approval : Approval) (approved : hive.approvals.lookup card.id = some approval)
      (differs : approval.inputHash ≠ around.inputHash card)

theorem validateComputeBudget_hash {around : Surroundings} {card : Card} {q : Approval}
    (valid : hive.validateComputeBudget around card.id = .ok q)
    (stored : hive.cards.lookup card.id = some card) : q.inputHash = around.inputHash card := by
  have approved := validateComputeBudget_ok valid
  simp only [Hive.validateComputeBudget, bind_eq_ok_iff, orFail_eq_ok_iff, require_eq_ok_iff,
    exists_const] at valid
  obtain ⟨c, found, p, _, q', stored', _, unchanged, _⟩ := valid
  obtain rfl := Option.some.inj (found.symm.trans stored)
  obtain rfl := Option.some.inj (stored'.symm.trans approved)
  by_contra differs
  exact unchanged (Or.inr (Or.inr (Or.inr differs)))

/-- A completion that goes through has no defect. -/
theorem not_defective {asked : Completion} {card : Card} {result : Hive × Int}
    (stored : hive.cards.lookup asked.card = some card) (notSpeech : card.modality ≠ .speech)
    (mode : event.mode card = some .hiveMode)
    (completed : hive.completeCard event.around asked.node? asked.card asked.content asked.usage =
      .ok result) : ¬ Defective event.around hive card asked.usage := by
  simp only [Hive.completeCard, bind_eq_ok_iff, orFail_eq_ok_iff] at completed
  obtain ⟨nid, _, lease, owned, c, found, p, ofProject, charge, charged, _⟩ := completed
  obtain rfl := Option.some.inj (found.symm.trans stored)
  have keyed : c.id = asked.card := Table.key_of_lookup stored
  have hiveMode : p.executionMode = .hiveMode := by
    simpa [Event.mode, ofProject] using mode
  obtain ⟨approval, tokensIn, tokensOut, valid, unexpired, reportedIn, reportedOut, _, _, within,
    _, _⟩ := charge_frozen charged hiveMode notSpeech
  have approved := validateComputeBudget_ok valid
  rintro (⟨other, tokensIn', tokensOut', approved', reported, exceeds⟩ |
    ⟨lease', leased, ended⟩ | ⟨other, approved', differs⟩)
  · obtain rfl := Option.some.inj (approved'.symm.trans approved)
    obtain rfl := Option.some.inj (reported.1.symm.trans reportedIn)
    obtain rfl := Option.some.inj (reported.2.symm.trans reportedOut)
    omega
  · rw [keyed] at leased
    obtain rfl := Option.some.inj (leased.symm.trans (leaseOf_ok owned).1)
    exact absurd unexpired (not_lt.mpr ended)
  · obtain rfl := Option.some.inj (approved'.symm.trans approved)
    exact differs (validateComputeBudget_hash valid (keyed.symm ▸ stored))

theorem reply_of_completion {asked : Completion} (completion : event.completion = some asked) :
    event.reply hive = (hive.completeCard event.around asked.node? asked.card asked.content
      asked.usage).map Prod.fst := by
  obtain ⟨around, op⟩ := event
  cases op with
  | nodeCompleteCard rawKey card content usage =>
    cases completion
    rfl
  | ctlDNodeCompleteCard rawKey card content usage =>
    cases completion
    rfl
  | _ => cases completion

/-- A defective completion fails and changes nothing. -/
theorem refused_step {asked : Completion} {card : Card}
    (completion : event.completion = some asked)
    (stored : hive.cards.lookup asked.card = some card) (notSpeech : card.modality ≠ .speech)
    (mode : event.mode card = some .hiveMode)
    (defective : Defective event.around hive card asked.usage) :
    (∃ failure, event.reply hive = .error failure) ∧ hive.step event = hive := by
  cases replied : event.reply hive with
  | error failure =>
    refine ⟨⟨failure, rfl⟩, ?_⟩
    unfold Hive.step
    rw [replied]
  | ok next =>
    rw [reply_of_completion completion] at replied
    obtain ⟨honey, completed⟩ := map_fst_eq_ok_iff.mp replied
    exact absurd defective (not_defective stored notSpeech mode completed)

end Refusals

section Runs

variable {events : List Event} {id : CardId}

/-- A card's project keeps its execution mode while the card is leased: two calls in a row, between
which it is, find the same mode. -/
def KeepsMode (events : List Event) (id : CardId) : Prop :=
  ∀ moment before after card, events[moment]? = some before → events[moment + 1]? = some after →
    (hiveAt events (moment + 1)).cards.lookup id = some card →
    ((hiveAt events (moment + 1)).leases.lookup id).isSome → before.mode card = after.mode card

/-- What a run spends on one card, and what it holds for it. -/
structure SpendWithinBudget (events : List Event) (id : CardId) : Prop where
  within : ∀ moment approval, (hiveAt events moment).approvals.lookup id = some approval →
    spentOn (hiveAt events moment).entries id ≤ approval.limit
  unapproved : ∀ moment, (hiveAt events moment).approvals.lookup id = none →
    spentOn (hiveAt events moment).entries id = 0
  held_iff : ∀ moment event card, events[moment]? = some event →
    (hiveAt events (moment + 1)).cards.lookup id = some card → event.mode card = some .hiveMode →
    ((∃ row ∈ (hiveAt events (moment + 1)).reservations.rows, row.card = id) ↔
      ((hiveAt events (moment + 1)).leases.lookup id).isSome)
  held : ∀ moment event card, events[moment]? = some event →
    (hiveAt events (moment + 1)).cards.lookup id = some card → event.mode card = some .hiveMode →
    ((hiveAt events (moment + 1)).leases.lookup id).isSome →
    ∃ start approval, start ≤ moment ∧ (hiveAt events start).leases.lookup id = none ∧
      (∀ later, start < later → later ≤ moment + 1 →
        ((hiveAt events later).leases.lookup id).isSome) ∧
      (hiveAt events start).approvals.lookup id = some approval ∧
      (total Reservation.amount (hiveAt events (moment + 1)).reservations.rows
        fun row => row.card = id) = (hiveAt events start).remaining approval
  charge : ∀ moment,
    ((hiveAt events (moment + 1)).slot id).paid ≠ ((hiveAt events moment).slot id).paid →
    ∃ event asked lease approval tokensIn tokensOut debits credit,
      events[moment]? = some event ∧
      Charged event id ((hiveAt events moment).slot id) ((hiveAt events (moment + 1)).slot id)
        asked lease approval tokensIn tokensOut debits credit
  once : ∀ first second, first < second →
    ((hiveAt events (first + 1)).slot id).paid ≠ ((hiveAt events first).slot id).paid →
    ((hiveAt events (second + 1)).slot id).paid ≠ ((hiveAt events second).slot id).paid →
    ∃ start, first < start ∧ start < second ∧ (hiveAt events start).leases.lookup id = none ∧
      ((hiveAt events (start + 1)).leases.lookup id).isSome
  refused : ∀ moment event asked card, events[moment]? = some event →
    event.completion = some asked → asked.card = id →
    (hiveAt events moment).cards.lookup id = some card → event.mode card = some .hiveMode →
    Defective event.around (hiveAt events moment) card asked.usage →
    (∃ failure, event.reply (hiveAt events moment) = .error failure) ∧
      hiveAt events (moment + 1) = hiveAt events moment
  copies : ∀ moment around rawKey otherKey content usage,
    around.verifyNodeKey rawKey = around.ctlDelegateNode otherKey →
    (hiveAt events moment).nodeCompleteCard around rawKey id content usage =
      (hiveAt events moment).ctlDNodeCompleteCard around otherKey id content usage

/-- A moment of a run makes one move on a card, or nothing. -/
theorem slot_next (events : List Event) (id : CardId) (moment : Nat) :
    (∃ event, events[moment]? = some event ∧
      SlotMove event id ((hiveAt events moment).slot id) ((hiveAt events (moment + 1)).slot id)) ∨
    (hiveAt events (moment + 1)).slot id = (hiveAt events moment).slot id := by
  rcases stateAt_next Hive.step Hive.empty events moment with ⟨event, present, next⟩ | ⟨_, next⟩
  · have same : (hiveAt events (moment + 1)).slot id = ((hiveAt events moment).step event).slot id :=
      congrArg (Hive.slot · id) next
    rw [same]
    rcases moves_step event (hiveAt events moment) id with kept | move
    · exact Or.inr kept
    · exact Or.inl ⟨event, present, move⟩
  · exact Or.inr (congrArg (Hive.slot · id) next)

theorem Event.mode_congr (event : Event) {later card : Card} (revises : later.Revises card) :
    event.mode later = event.mode card := by
  unfold Event.mode
  rw [revises.project]

/-- What lasts as long as a lease: its funds, its card and the mode that every call finds. -/
theorem lease_lasts (keeps : KeepsMode events id) {start : Nat} {first : Event} {card : Card}
    (began : events[start]? = some first)
    (stored : ((hiveAt events (start + 1)).slot id).card = some card) (duration : Nat)
    (leased : ∀ later, start < later → later ≤ start + 1 + duration →
      ((hiveAt events later).leases.lookup id).isSome) :
    SameFunds ((hiveAt events (start + 1)).slot id)
        ((hiveAt events (start + 1 + duration)).slot id) ∧
      ∃ later, ((hiveAt events (start + 1 + duration)).slot id).card = some later ∧
        later.Revises card ∧
        ∀ event, events[start + duration]? = some event → event.mode later = first.mode card := by
  induction duration with
  | zero =>
    refine ⟨⟨rfl, rfl, rfl⟩, card, stored, ⟨rfl, rfl⟩, ?_⟩
    intro event present
    rw [Nat.add_zero, began] at present
    exact Option.some.inj present ▸ rfl
  | succ duration ih =>
    obtain ⟨funds, middle, there, revises, mode⟩ :=
      ih fun later after upTo => leased later after (by omega)
    have before := leased (start + 1 + duration) (by omega) (by omega)
    have after := leased (start + 1 + duration + 1) (by omega) (by omega)
    have keepsMode (event : Event) (present : events[start + (duration + 1)]? = some event) :
        event.mode middle = first.mode card := by
      have inside : start + (duration + 1) < events.length := by
        by_contra outside
        rw [List.getElem?_eq_none (not_lt.mp outside)] at present
        cases present
      have earlier : events[start + duration]? = some (events.get ⟨start + duration, by omega⟩) :=
        List.getElem?_eq_getElem _
      rw [← mode _ earlier]
      have shift : start + 1 + duration = start + duration + 1 := by omega
      rw [shift] at there before
      exact (keeps (start + duration) _ event middle earlier present there before).symm
    rcases slot_next events id (start + 1 + duration) with ⟨_, _, move⟩ | kept
    · have same := move.sameFunds there before after
      obtain ⟨later, found, changes⟩ := move.revises there
      refine ⟨⟨same.holds.trans funds.holds, same.approval.trans funds.approval,
        same.paid.trans funds.paid⟩, later, found, ⟨changes.modality.trans revises.modality,
        changes.project.trans revises.project⟩, ?_⟩
      intro event' present'
      rw [event'.mode_congr changes]
      exact keepsMode event' present'
    · rw [← Nat.add_assoc, kept]
      exact ⟨funds, middle, there, revises, keepsMode⟩

theorem holdsLease_at (events : List Event) (id : CardId) (moment : Nat) :
    ((hiveAt events moment).slot id).HoldsLease := by
  induction moment with
  | zero => exact fun _ => rfl
  | succ moment ih =>
    rcases slot_next events id moment with ⟨event, _, move⟩ | kept
    · exact move.holdsLease ih
    · exact kept ▸ ih

theorem within_at (computes : ∀ moment, ((hiveAt events moment).slot id).Computes)
    (moment : Nat) : ((hiveAt events moment).slot id).Within := by
  induction moment with
  | zero => rfl
  | succ moment ih =>
    rcases slot_next events id moment with ⟨event, _, move⟩ | kept
    · exact move.within (computes moment) ih
    · exact kept ▸ ih

/-- What a leased card holds is what was left of its limit when the lease began. -/
theorem held_since (computes : ∀ moment, ((hiveAt events moment).slot id).Computes)
    (keeps : KeepsMode events id) {moment : Nat} {event : Event} {card : Card}
    (present : events[moment]? = some event)
    (stored : (hiveAt events (moment + 1)).cards.lookup id = some card)
    (mode : event.mode card = some .hiveMode)
    (leased : ((hiveAt events (moment + 1)).leases.lookup id).isSome) :
    ∃ start approval, start ≤ moment ∧ (hiveAt events start).leases.lookup id = none ∧
      (∀ later, start < later → later ≤ moment + 1 →
        ((hiveAt events later).leases.lookup id).isSome) ∧
      (hiveAt events start).approvals.lookup id = some approval ∧
      0 < (hiveAt events start).remaining approval ∧
      (((hiveAt events (moment + 1)).slot id).holds.map Reservation.amount).sum =
        (hiveAt events start).remaining approval := by
  obtain ⟨start, earlier, outside, inside⟩ :=
    exists_last_entry (fun moment => ((hiveAt events moment).leases.lookup id).isSome)
      (fun begun => by cases begun) (moment + 1) leased
  have free : ((hiveAt events start).slot id).lease = none :=
    Option.not_isSome_iff_eq_none.mp outside
  have begun := inside (start + 1) (by omega) (by omega)
  rcases slot_next events id start with ⟨first, began, move⟩ | kept
  · obtain ⟨row, p, held, storedRow, ofProject, reserves, holds, approval, paid⟩ :=
      move.begins free begun
    obtain ⟨card₀, stored₀, revises⟩ := move.revises storedRow
    obtain ⟨duration, rfl⟩ : ∃ duration, moment = start + duration :=
      ⟨moment - start, by omega⟩
    have shift : start + duration + 1 = start + 1 + duration := by omega
    rw [shift] at stored inside ⊢
    obtain ⟨funds, later, found, _, lasts⟩ :=
      lease_lasts keeps began stored₀ duration inside
    obtain rfl := Option.some.inj (found.symm.trans stored)
    have firstMode : first.mode row = some .hiveMode := by
      rw [← first.mode_congr revises, ← lasts event present, mode]
    have hiveMode : p.executionMode = .hiveMode := by
      simpa [Event.mode, ofProject] using firstMode
    obtain ⟨q, approved, left, _, sum⟩ :=
      reserves.compute hiveMode ((computes start).not_speech storedRow)
    have ofCard : q.card = id := Table.key_of_lookup approved
    have remains : (hiveAt events start).remaining q =
        leftOf q ((hiveAt events start).slot id).paid := by
      rw [remaining_eq_leftOf, ofCard]
    refine ⟨start, q, by omega, Option.not_isSome_iff_eq_none.mp outside, inside, approved,
      remains ▸ left, ?_⟩
    rw [funds.holds, holds, holdsLease_at events id start free, List.nil_append, sum, remains]
  · have still : ((hiveAt events (start + 1)).slot id).lease.isSome := begun
    rw [kept, free] at still
    cases still

theorem charged_at (computes : ∀ moment, ((hiveAt events moment).slot id).Computes) {moment : Nat}
    (changed : ((hiveAt events (moment + 1)).slot id).paid ≠
      ((hiveAt events moment).slot id).paid) :
    ∃ event asked lease approval tokensIn tokensOut debits credit,
      events[moment]? = some event ∧
      Charged event id ((hiveAt events moment).slot id) ((hiveAt events (moment + 1)).slot id)
        asked lease approval tokensIn tokensOut debits credit := by
  rcases slot_next events id moment with ⟨event, present, move⟩ | kept
  · obtain ⟨asked, lease, approval, tokensIn, tokensOut, debits, credit, charge⟩ :=
      move.charged (computes moment) changed
    exact ⟨event, asked, lease, approval, tokensIn, tokensOut, debits, credit, present, charge⟩
  · exact absurd (congrArg Slot.paid kept) changed

/-- A lease that is over at one moment and there at a later one began between them. -/
theorem begins_between {first second : Nat} (ordered : first < second)
    (ended : (hiveAt events (first + 1)).leases.lookup id = none)
    (leased : ((hiveAt events second).leases.lookup id).isSome) :
    ∃ start, first < start ∧ start < second ∧ (hiveAt events start).leases.lookup id = none ∧
      ((hiveAt events (start + 1)).leases.lookup id).isSome := by
  obtain ⟨distance, rfl⟩ : ∃ distance, second = first + 1 + distance :=
    ⟨second - (first + 1), by omega⟩
  have outset : ¬ ((hiveAt events (first + 1 + 0)).leases.lookup id).isSome := by
    rw [Nat.add_zero, ended]
    simp
  obtain ⟨entry, earlier, outside, inside⟩ :=
    exists_last_entry (fun passed =>
      ((hiveAt events (first + 1 + passed)).leases.lookup id).isSome) outset distance leased
  exact ⟨first + 1 + entry, by omega, by omega, Option.not_isSome_iff_eq_none.mp outside,
    inside (entry + 1) (by omega) (by omega)⟩

/-- A row is held for a card exactly while it is leased. -/
theorem held_iff_leased (computes : ∀ moment, ((hiveAt events moment).slot id).Computes)
    (keeps : KeepsMode events id) {moment : Nat} {event : Event} {card : Card}
    (present : events[moment]? = some event)
    (stored : (hiveAt events (moment + 1)).cards.lookup id = some card)
    (mode : event.mode card = some .hiveMode) :
    (∃ row ∈ (hiveAt events (moment + 1)).reservations.rows, row.card = id) ↔
      ((hiveAt events (moment + 1)).leases.lookup id).isSome := by
  constructor
  · rintro ⟨row, member, ofCard⟩
    by_contra free
    have empty := holdsLease_at events id (moment + 1) (Option.not_isSome_iff_eq_none.mp free)
    have held : row ∈ ((hiveAt events (moment + 1)).slot id).holds :=
      List.mem_filter.mpr ⟨member, decide_eq_true ofCard⟩
    rw [empty] at held
    cases held
  · intro leased
    obtain ⟨start, approval, _, _, _, _, left, sum⟩ :=
      held_since computes keeps present stored mode leased
    have some : ((hiveAt events (moment + 1)).slot id).holds ≠ [] := by
      intro empty
      rw [empty] at sum
      exact absurd left (sum ▸ lt_irrefl 0)
    obtain ⟨row, member⟩ := List.exists_mem_of_ne_nil _ some
    obtain ⟨inTable, ofCard⟩ := List.mem_filter.mp member
    exact ⟨row, inTable, of_decide_eq_true ofCard⟩

/-- Whatever is approved, leased, ended and completed in whatever order: a text or code card is
charged once a lease at most, at its frozen rates and within its limit. -/
theorem spend_within_budget (events : List Event) (id : CardId)
    (compute : ∀ moment card, (hiveAt events moment).cards.lookup id = some card →
      card.modality = .text ∨ card.modality = .code)
    (keeps : KeepsMode events id) : SpendWithinBudget events id := by
  have computes (moment : Nat) : ((hiveAt events moment).slot id).Computes :=
    fun card stored => compute moment card stored
  constructor
  · intro moment approval approved
    have within := within_at computes moment
    unfold Slot.Within at within
    rw [show ((hiveAt events moment).slot id).approval = some approval from approved] at within
    rw [spentOn_eq_spentBy]
    exact within
  · intro moment unapproved
    have within := within_at computes moment
    unfold Slot.Within at within
    rw [show ((hiveAt events moment).slot id).approval = none from unapproved] at within
    rw [spentOn_eq_spentBy]
    exact within
  · exact fun moment event card => held_iff_leased computes keeps
  · intro moment event card present stored mode leased
    obtain ⟨start, approval, upTo, free, inside, approved, _, sum⟩ :=
      held_since computes keeps present stored mode leased
    exact ⟨start, approval, upTo, free, inside, approved, sum⟩
  · exact fun moment => charged_at computes
  · intro first second ordered firstChange secondChange
    obtain ⟨_, _, _, _, _, _, _, _, _, firstCharge⟩ := charged_at computes firstChange
    obtain ⟨_, _, lease, _, _, _, _, _, _, secondCharge⟩ := charged_at computes secondChange
    have leased : (hiveAt events second).leases.lookup id = some lease := secondCharge.leased
    exact begins_between ordered firstCharge.ended (leased ▸ rfl)
  · intro moment event asked card present completion ofCard stored mode defective
    subst ofCard
    have notSpeech := (computes moment).not_speech stored
    have refused := refused_step completion stored notSpeech mode defective
    exact ⟨refused.1, (stateAt_succ Hive.step Hive.empty present).trans refused.2⟩
  · intro moment around rawKey otherKey content usage same
    unfold Hive.nodeCompleteCard Hive.ctlDNodeCompleteCard
    rw [same]

end Runs

section Examples

/-- The card is claimed, and completed for 15 of its 50. -/
theorem spend_within_budget_essay : SpendWithinBudget (claimedEssay ++ [essayDone]) 1 := by
  apply spend_within_budget
  · intro moment card stored
    left
    have member := Table.mem_of_lookup stored
    have texts : ∀ moment ≤ 5,
        (hiveAt (claimedEssay ++ [essayDone]) moment).cards.rows.all (·.modality = .text) := by
      decide +kernel
    rcases Nat.le_total moment 5 with inside | past
    · exact of_decide_eq_true (List.all_eq_true.mp (texts moment inside) card member)
    · have rests : hiveAt (claimedEssay ++ [essayDone]) moment =
          hiveAt (claimedEssay ++ [essayDone]) 5 := stateAt_of_length_le Hive.step Hive.empty past
      rw [rests] at member
      exact of_decide_eq_true (List.all_eq_true.mp (texts 5 (Nat.le_refl 5)) card member)
  · intro moment before after card first second _ _
    have same : ∀ event ∈ claimedEssay ++ [essayDone],
        event.around.project = (surroundings 0).project := by
      simp [claimedEssay, essayDone, surroundings]
    unfold Event.mode
    rw [same before (List.mem_of_getElem? first), same after (List.mem_of_getElem? second)]

end Examples

end OHHive.Cloud
