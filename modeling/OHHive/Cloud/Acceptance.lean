import OHHive.Cloud.Steps
import Mathlib.Tactic.IntervalCases

/-! A card is running exactly when it has a lease, and an accepted card stays as it is, as long as
no card is accepted while it is still running. -/

namespace OHHive.Cloud

open Foundation

section Agreement

/-- A slot has a lease exactly when its card is running. -/
def Slot.Agrees (slot : Slot) : Prop :=
  slot.lease.isSome ↔ ∃ card ∈ slot.card, card.status = .running

/-- `card_accept` is called on a card whose worker has not finished. -/
def Event.AcceptsRunning (event : Event) (hive : Hive) : Prop :=
  ∃ id card, event.op = .cardAccept id ∧ hive.cards.lookup id = some card ∧ card.status = .running

private theorem agrees_none {slot : Slot} {card : Card} (free : slot.lease = none)
    (stored : slot.card = some card) (stops : card.status ≠ .running) : slot.Agrees := by
  simp [Slot.Agrees, free, stored, stops]

private theorem lease_none {slot : Slot} {card : Card} (agrees : slot.Agrees)
    (stored : slot.card = some card) (stops : card.status ≠ .running) : slot.lease = none := by
  have without : ¬ slot.lease.isSome := by
    intro leased
    obtain ⟨row, member, running⟩ := agrees.mp leased
    rw [stored] at member
    exact stops (Option.mem_some_iff.mp member ▸ running)
  exact Option.not_isSome_iff_eq_none.mp without

/-- Every move but the acceptance of a running card keeps agreement. -/
theorem SlotMove.agrees {event : Event} {hive : Hive} {id : CardId} {after : Slot}
    (move : SlotMove event id (hive.slot id) after) (waits : ¬ event.AcceptsRunning hive)
    (agrees : (hive.slot id).Agrees) : after.Agrees := by
  cases move with
  | created new approval absent renews =>
    have free : (hive.slot id).lease = none := by
      cases leased : (hive.slot id).lease with
      | none => rfl
      | some lease => simp [Slot.Agrees, absent, leased] at agrees
    refine agrees_none ?_ rfl ?_
    · exact free
    · rcases new.unstarted with suggested | ready
      · simp [suggested]
      · simp [ready]
  | claimed card p lease held stored ready free ofProject reserves =>
    simp [Slot.Agrees, Card.moved]
  | extended lease expiresAt leased => simpa [Slot.Agrees, leased] using agrees
  | completed asked card p lease rows completion ofCard authenticated stored leased ofProject
      charges =>
    exact agrees_none rfl rfl (by simp [Card.moved])
  | ended lease change outputs leased stops revises =>
    simp [Slot.Agrees, stops]
  | accepted card asked stored finished =>
    have stops : card.status ≠ .running := fun running => waits ⟨id, card, asked, stored, running⟩
    have free := lease_none agrees stored stops
    refine agrees_none ?_ rfl ?_
    · exact free
    · simp [Card.moved]
  | sentBack card later note asked stored ready revises =>
    exact agrees_none rfl rfl (by simp [ready])
  | opened card status outputs stored before opens =>
    have stops : card.status ≠ .running := by
      rcases before with suggested | waiting
      · simp [suggested]
      · simp [waiting]
    have free := lease_none agrees stored stops
    refine agrees_none ?_ rfl ?_
    · exact free
    · rcases opens with rfl | rfl
      · simp [Card.moved]
      · simp [Card.moved]
  | approved card approval stored free renews => exact agrees

theorem agrees_step {event : Event} {hive : Hive} (waits : ¬ event.AcceptsRunning hive)
    (agrees : ∀ id, (hive.slot id).Agrees) : ∀ id, ((hive.step event).slot id).Agrees := by
  intro id
  rcases moves_step event hive id with kept | move
  · exact kept ▸ agrees id
  · exact move.agrees waits (agrees id)

end Agreement

section Finality

/-- A card with its outputs and its payments, as they were. -/
structure Untouched (before after : Slot) : Prop where
  card : after.card = before.card
  outputs : after.outputs = before.outputs
  paid : after.paid = before.paid

/-- No move but its own way back touches an accepted card. -/
theorem SlotMove.untouched {event : Event} {id : CardId} {before after : Slot} {card : Card}
    (move : SlotMove event id before after) (agrees : before.Agrees)
    (stored : before.card = some card) (done : card.status = .done)
    (kept : ∀ note, event.op ≠ .cardSendBack id note) : Untouched before after := by
  have free : before.lease = none := lease_none agrees stored (by simp [done])
  have status {row : Card} (same : before.card = some row) : row.status = .done := by
    rw [stored] at same
    exact Option.some.inj same ▸ done
  cases move with
  | created new approval absent renews =>
    rw [stored] at absent
    cases absent
  | claimed row p lease held storedRow ready _ ofProject reserves =>
    rw [status storedRow] at ready
    cases ready
  | extended lease expiresAt leased => exact ⟨rfl, rfl, rfl⟩
  | completed asked row p lease rows completion ofCard authenticated storedRow leased ofProject
      charges =>
    rw [free] at leased
    cases leased
  | ended lease change outputs leased stops revises =>
    rw [free] at leased
    cases leased
  | accepted row asked storedRow finished =>
    rw [status storedRow] at finished
    simp at finished
  | sentBack row later note asked storedRow ready revises => exact absurd asked (kept note)
  | opened row status' outputs storedRow waits opens =>
    rw [status storedRow] at waits
    simp at waits
  | approved row approval storedRow _ renews => exact ⟨rfl, rfl, rfl⟩

end Finality

section Runs

/-- A lease stands for every running card, and for no other. -/
def RunningIffLeased (hive : Hive) : Prop :=
  ∀ id, (hive.leases.lookup id).isSome ↔
    ∃ card, hive.cards.lookup id = some card ∧ card.status = .running

/-- Cards and leases agree throughout one run, and an accepted card keeps its status, its outputs
and its payments until it is sent back. -/
structure AcceptanceIsFinal (events : List Event) : Prop where
  running_iff : ∀ moment, RunningIffLeased (hiveAt events moment)
  final : ∀ id card first second, first ≤ second →
    (hiveAt events first).cards.lookup id = some card → card.status = .done →
    (∀ moment event, first ≤ moment → moment < second → events[moment]? = some event →
      ∀ note, event.op ≠ .cardSendBack id note) →
    Untouched ((hiveAt events first).slot id) ((hiveAt events second).slot id)

/-- In every run in which no card is accepted while it is running, a lease means a running card
and acceptance is final. -/
theorem acceptance_is_final (events : List Event)
    (waits : EachStep Hive.step Hive.empty (fun hive event => ¬ event.AcceptsRunning hive)
      events) : AcceptanceIsFinal events := by
  have agrees := waits.invariant (fun hive => ∀ id, (hive.slot id).Agrees)
    (fun id => by simp [Slot.Agrees, Hive.slot, Hive.empty])
    (fun hive event guarded agrees => agrees_step guarded agrees)
  constructor
  · exact fun moment id => agrees moment id
  · intro id card first second ordered stored done kept
    induction ordered with
    | refl => exact ⟨rfl, rfl, rfl⟩
    | step earlier ih =>
      rename_i moment
      have before := ih fun other event from' upTo => kept other event from' (by omega)
      rcases stateAt_next Hive.step Hive.empty events moment with ⟨event, present, next⟩ |
        ⟨_, next⟩
      · have there : ((hiveAt events moment).slot id).card = some card :=
          before.card.trans stored
        have nextSlot : (hiveAt events (moment + 1)).slot id =
            ((hiveAt events moment).step event).slot id := congrArg (Hive.slot · id) next
        rw [nextSlot]
        rcases moves_step event (hiveAt events moment) id with same | move
        · exact same ▸ before
        · have still := move.untouched (agrees moment id) there done
            (kept moment event earlier (Nat.lt_succ_self moment) present)
          exact ⟨still.card.trans before.card, still.outputs.trans before.outputs,
            still.paid.trans before.paid⟩
      · have same : (hiveAt events (moment + 1)).slot id = (hiveAt events moment).slot id :=
          congrArg (Hive.slot · id) next
        exact same ▸ before

end Runs

section Examples

def essay : Card where
  id := 1
  projectId := 1
  key := "essay"
  modality := .text
  inputs := ""
  requiredCapabilities := ⟨"\x7b\x7d", none, false, none, none, none⟩
  deps := []
  requiresInternet := false
  status := .ready
  parentCardId := none
  priority := 0
  orderIndex := 0
  createdAt := 0

/-- Its owner is member 1, and account 10 pays for its cards. -/
def library : Project where
  owner := 1
  fundAccount := 10
  executionMode := .hiveMode
  requiresInternet := false
  deleted := false

/-- A node of member 2, who is paid on account 2. -/
def laptop : Node where
  member := some 2
  presence := .checkedIn
  lastHeartbeat := none
  modalities := [.text]
  models := []
  runsAcceptance := false
  allowInternet := false
  sandboxedTools := false

/-- One project and one node, and an owner who may do anything. -/
def surroundings (now : Time) : Surroundings where
  now := now
  clockTimestamp := now
  verifyNodeKey := fun key => if key = "laptop" then some 7 else none
  ctlDelegateNode := fun key => if key = "laptop" then some 7 else none
  user := some 1
  isMember := true
  isProjectAdmin := fun _ => true
  memberActive := fun _ => true
  project := fun id => if id = 1 then some library else none
  node := fun id => if id = 7 then some laptop else none
  interview := fun _ => none
  mcpServerEnabled := fun _ _ => false
  chart := fun account =>
    if account = 10 then some .projectFund else if account = 2 then some .memberWallet else none
  memberWallet := some
  inputRate := some (.finite 1)
  outputRate := some (.finite 1)
  speechRate := none
  md5 := fun text => text
  mintedTxn := 0

def donation : List Hive.Posting :=
  [⟨3, .purchase, .debit, 100, .purchased, none⟩, ⟨10, .purchase, .credit, 100, .purchased, none⟩]

theorem donation_cardless : ∀ posting ∈ donation, posting.card? = none := by simp [donation]

/-- The project is given 100 and a limit of 50 for the card, which the node then claims. -/
def claimedEssay : List Event :=
  [⟨surroundings 0, .post donation donation_cardless⟩,
    ⟨surroundings 0, .createCard ⟨essay, Or.inr rfl⟩⟩,
    ⟨surroundings 0, .computeBudgetApprove 1 (some (.finite 50))⟩,
    ⟨surroundings 0, .nodeClaimCard "laptop"⟩]

def essayDone : Event :=
  ⟨surroundings 2, .nodeCompleteCard "laptop" 1 "text" ⟨some 10, some 5, some (.finite 1)⟩⟩

/-- The owner accepts the card before its worker has finished. -/
def acceptedEarly : List Event :=
  claimedEssay ++ [⟨surroundings 1, .cardAccept 1⟩, essayDone]

/-- A card that was accepted while it was running has a lease, and its worker reopens it and is
paid for it. -/
theorem accepted_card_reopened :
    ((hiveAt acceptedEarly 5).cards.lookup 1).map Card.status = some .done ∧
      ¬ RunningIffLeased (hiveAt acceptedEarly 5) ∧
      ((hiveAt acceptedEarly 6).cards.lookup 1).map Card.status = some .review ∧
      spentOn (hiveAt acceptedEarly 6).entries 1 = 15 ∧ ¬ AcceptanceIsFinal acceptedEarly := by
  have done : ((hiveAt acceptedEarly 5).cards.lookup 1).map Card.status = some .done := by
    decide +kernel
  have leased : ((hiveAt acceptedEarly 5).leases.lookup 1).isSome := by decide +kernel
  have apart : ¬ RunningIffLeased (hiveAt acceptedEarly 5) := by
    intro agree
    obtain ⟨card, stored, running⟩ := (agree 1).mp leased
    rw [stored, Option.map_some, running] at done
    cases done
  refine ⟨done, apart, by decide +kernel, by decide +kernel, ?_⟩
  exact fun final => apart (final.running_iff 5)

/-- The card is accepted after its worker has finished. -/
theorem acceptance_is_final_essay :
    AcceptanceIsFinal (claimedEssay ++ [essayDone, ⟨surroundings 3, .cardAccept 1⟩]) := by
  apply acceptance_is_final
  apply eachStep_of_lt
  intro count inside
  simp only [claimedEssay, List.cons_append, List.nil_append, List.length_cons,
    List.length_nil] at inside
  have reviewed : ((hiveAt (claimedEssay ++ [essayDone, ⟨surroundings 3, .cardAccept 1⟩])
      5).cards.lookup 1).map Card.status = some .review := by
    decide +kernel
  interval_cases count
  case «5» =>
    rintro ⟨id, card, asked, stored, running⟩
    cases asked
    have found : (hiveAt (claimedEssay ++ [essayDone, ⟨surroundings 3, .cardAccept 1⟩])
      5).cards.lookup 1 = some card := stored
    rw [found, Option.map_some, running] at reviewed
    cases reviewed
  all_goals
    rintro ⟨id, card, asked, _⟩
    cases asked

end Examples

end OHHive.Cloud
