import Mathlib.Logic.Relation
import OHHive.Cloud.Operations
import OHHive.Cloud.Splitting

/-! One card of the cloud with all that belongs to it. Every call moves such a slot along a chain
of named moves, so what the moves keep holds in every run. -/

namespace OHHive.Cloud

open Foundation

section Slots

structure Slot where
  card : Option Card
  lease : Option Lease
  outputs : List CardOutput
  holds : List Reservation
  approval : Option Approval
  paid : List LedgerEntry

def Hive.slot (hive : Hive) (id : CardId) : Slot where
  card := hive.cards.lookup id
  lease := hive.leases.lookup id
  outputs := hive.outputs.filter (·.card = id)
  holds := hive.reservations.rows.filter (·.card = id)
  approval := hive.approvals.lookup id
  paid := hive.entries.filter (·.card? = some id)

/-- A card with another status. -/
def Card.moved (card : Card) (status : CardStatus) : Card := { card with status }

/-- What was spent on the card of a slot. -/
def spentBy (paid : List LedgerEntry) : Int :=
  total LedgerEntry.amount paid fun entry =>
    entry.entryType = .spendJob && entry.direction = .debit

/-- What the limit of an approval leaves after some payments. -/
def leftOf (approval : Approval) (paid : List LedgerEntry) : Int :=
  max (approval.limit - spentBy paid) 0

theorem spentOn_eq_spentBy (entries : List LedgerEntry) (card : CardId) :
    spentOn entries card = spentBy (entries.filter (·.card? = some card)) := by
  unfold spentOn spentBy
  rw [total_filter]
  apply total_congr
  intro entry _
  exact Bool.and_comm _ _

theorem remaining_eq_leftOf {hive : Hive} {approval : Approval} :
    hive.remaining approval = leftOf approval (hive.slot approval.card).paid := by
  rw [Hive.remaining, spentOn_eq_spentBy]
  rfl

end Slots

section Statements

variable {hive next : Hive} {card id : CardId} {status : CardStatus}

theorem slot_withStatus (hive : Hive) (card : CardId) (status : CardStatus) (id : CardId) :
    (hive.withStatus card status).slot id =
      if id = card then
        { hive.slot id with card := (hive.cards.lookup id).map (·.moved status) }
      else hive.slot id := by
  have looked : (hive.withStatus card status).cards.lookup id =
      (hive.cards.lookup id).map
        (fun row => if row.id = card then row.moved status else row) := by
    refine (Table.lookup_updateWhere hive.cards (fun row => decide (row.id = card))
      (·.moved status) (fun _ => rfl) id).trans ?_
    simp only [decide_eq_true_eq]
  have slot : (hive.withStatus card status).slot id =
      { hive.slot id with card := (hive.withStatus card status).cards.lookup id } := rfl
  rw [slot, looked]
  cases found : hive.cards.lookup id with
  | none =>
    split
    · rfl
    · simp only [Hive.slot, found, Option.map_none]
  | some row =>
    have keyed : row.id = id := Table.key_of_lookup found
    by_cases same : id = card
    · simp [keyed, same]
    · have other : row.id ≠ card := fun equal => same (keyed.symm.trans equal)
      simp [other, same, Hive.slot, found]

theorem slot_insertOutput (hive : Hive) (output : CardOutput) (id : CardId) :
    (hive.insertOutput output).slot id =
      { hive.slot id with
        outputs := (hive.slot id).outputs ++ if output.card = id then [output] else [] } := by
  simp only [Hive.slot, Hive.insertOutput, List.filter_append, List.filter_cons, List.filter_nil,
    decide_eq_true_eq]

/-- A deleted lease takes its holds with it. -/
theorem slot_deleteLeases (hive : Hive) (selects : Lease → Bool) (id : CardId) :
    (hive.deleteLeases selects).slot id =
      if (hive.leases.lookup id).any selects then
        { hive.slot id with lease := none, holds := [] }
      else hive.slot id := by
  have leases : (hive.deleteLeases selects).leases.lookup id =
      (hive.leases.lookup id).filter fun lease => !selects lease :=
    Table.lookup_keep hive.leases _ id
  have gone (row : Reservation) (ofCard : row.card = id) :
      (hive.leases.rows.any fun lease => selects lease && lease.card = row.card) =
        (hive.leases.lookup id).any selects := by
    rw [Bool.eq_iff_iff, List.any_eq_true, Option.any_eq_true]
    constructor
    · rintro ⟨lease, member, selected⟩
      rw [Bool.and_eq_true, decide_eq_true_eq] at selected
      exact ⟨lease, (hive.leases.lookup_eq_some_iff id lease).mpr
        ⟨member, selected.2.trans ofCard⟩, selected.1⟩
    · rintro ⟨lease, found, selected⟩
      obtain ⟨member, keyed⟩ := (hive.leases.lookup_eq_some_iff id lease).mp found
      refine ⟨lease, member, ?_⟩
      rw [Bool.and_eq_true, decide_eq_true_eq]
      exact ⟨selected, keyed.trans ofCard.symm⟩
  have holds : (hive.deleteLeases selects).reservations.rows.filter (·.card = id) =
      if (hive.leases.lookup id).any selects then []
      else hive.reservations.rows.filter (·.card = id) := by
    simp only [Hive.deleteLeases, Table.rows_keep, List.filter_filter]
    split
    · rename_i deleted
      rw [List.filter_eq_nil_iff]
      intro row _
      rw [Bool.and_eq_true, decide_eq_true_eq]
      rintro ⟨ofCard, kept⟩
      rw [gone row ofCard, deleted] at kept
      cases kept
    · rename_i stays
      apply List.filter_congr
      intro row _
      by_cases ofCard : row.card = id
      · rw [gone row ofCard, Bool.eq_false_iff.mpr stays]
        simp
      · simp [ofCard]
  have slot : (hive.deleteLeases selects).slot id =
      { hive.slot id with
        lease := (hive.deleteLeases selects).leases.lookup id
        holds := (hive.deleteLeases selects).reservations.rows.filter (·.card = id) } := rfl
  rw [slot, leases, holds]
  cases found : hive.leases.lookup id with
  | none => simp [Hive.slot, found]
  | some lease =>
    cases selected : selects lease <;> simp [Hive.slot, found, selected]

/-- The deletion of one card's lease. -/
theorem slot_deleteLease (hive : Hive) (card id : CardId) :
    (hive.deleteLeases (·.card = card)).slot id =
      if id = card then
        { hive.slot id with
          lease := none
          holds := if (hive.slot id).lease.isSome then [] else (hive.slot id).holds }
      else hive.slot id := by
  rw [slot_deleteLeases]
  cases found : hive.leases.lookup id with
  | none =>
    split
    · simp_all
    · simp [Hive.slot, found]
  | some lease =>
    have keyed : lease.card = id := Table.key_of_lookup found
    simp [Hive.slot, found, keyed]

theorem slot_readyAgain (hive : Hive) (reaped : List CardId) (id : CardId) :
    (hive.readyAgain reaped).slot id =
      { hive.slot id with
        card := (hive.cards.lookup id).map fun row =>
          if id ∈ reaped ∧ row.status = .running then row.moved .ready else row } := by
  have looked : (hive.readyAgain reaped).cards.lookup id =
      (hive.cards.lookup id).map (fun row =>
        if row.id ∈ reaped ∧ row.status = .running then row.moved .ready else row) := by
    refine (Table.lookup_updateWhere hive.cards
      (fun row => decide (row.id ∈ reaped) && decide (row.status = .running))
      (·.moved .ready) (fun _ => rfl) id).trans ?_
    simp only [Bool.and_eq_true, decide_eq_true_eq]
  have slot : (hive.readyAgain reaped).slot id =
      { hive.slot id with card := (hive.readyAgain reaped).cards.lookup id } := rfl
  rw [slot, looked]
  cases found : hive.cards.lookup id with
  | none => rfl
  | some row =>
    have keyed : row.id = id := Table.key_of_lookup found
    simp [keyed]

end Statements

end OHHive.Cloud
