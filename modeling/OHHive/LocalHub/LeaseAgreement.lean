import OHHive.LocalHub.Transactions
import Mathlib.Tactic.IntervalCases

/-! A card is running exactly when it has its one lease, as long as no lease expires between
the two clock readings of a settling. -/

namespace OHHive.LocalHub

open Foundation

section Agreement

/-- A slot has a lease exactly when its card is running. -/
def Slot.Agrees (slot : Slot) : Prop :=
  slot.lease.isSome ↔ ∃ card ∈ slot.card, card.status = .running

theorem Card.status_expired (card : Card) : card.expired.status ≠ .running := by
  simp only [Card.expired]
  split <;> decide

private theorem not_running_of_isOpen {card : Card} (isOpen : card.status.isOpen = true) :
    card.status ≠ .running := by
  intro running
  rw [running] at isOpen
  cases isOpen

/-- With a clock that does not turn back, every move but the loss of a lease keeps agreement. -/
theorem SlotMove.agrees {event : Event} {board : Board} {before after : Slot}
    (move : SlotMove event board before after) (monotone : Monotone event.clock)
    (keeps : ∀ lease, ¬ event.Loses board lease) (agrees : before.Agrees) : after.Agrees := by
  unfold Slot.Agrees at agrees ⊢
  cases move with
  | created card lease output isOpen =>
    have free : lease.isSome = false := by simpa using agrees
    simp [free, not_running_of_isOpen isOpen]
  | shifted card later lease output before after =>
    have free : lease.isSome = false := by simpa [not_running_of_isOpen before] using agrees
    simp [free, not_running_of_isOpen after]
  | expired card lease output =>
    cases card with
    | none => simp
    | some card => simp [Card.status_expired card]
  | orphaned card lease output lost => exact absurd lost (keeps lease)
  | stranded card later lease output after turned => exact absurd monotone turned
  | claimed hub card lease output asked ready node session => simp [Card.moved]
  | extended card lease output expires => simpa using agrees
  | ended card later lease output after kept =>
    cases later with
    | none => simp
    | some later => simp [not_running_of_isOpen (after later rfl)]
  | completed card lease output _ =>
    cases card with
    | none => simp
    | some card => simp [Card.reviewed]
  | retired card later lease after => simp [not_running_of_isOpen after]

theorem agrees_step {event : Event} {board : Board} (monotone : Monotone event.clock)
    (keeps : ∀ lease, ¬ event.Loses board lease) (agrees : ∀ id, (board.slot id).Agrees) :
    ∀ id, ((board.step event).slot id).Agrees := by
  intro id
  have moves := slotMoves_step event board id
  generalize (board.step event).slot id = after at moves
  induction moves with
  | refl => exact agrees id
  | tail _ move ih => exact move.agrees monotone keeps ih

end Agreement

section Runs

/-- A card has the status 'running' exactly when one lease row names it. -/
def RunningIffLeased (board : Board) : Prop :=
  ∀ card ∈ board.cards.rows, card.status = .running ↔
    board.leases.rows.countP (fun lease => lease.cardId = card.id) = 1

theorem runningIffLeased_of_agrees {board : Board} (agrees : ∀ id, (board.slot id).Agrees) :
    RunningIffLeased board := by
  intro card member
  have found : board.card? card.id = some card := Board.card?_eq_some_iff.mpr ⟨member, rfl⟩
  have slot := agrees card.id
  simp only [Slot.Agrees, Board.slot, found, Option.mem_def, Option.some.injEq,
    exists_eq_left'] at slot
  rw [board.leases.countP_eq Lease.cardId (fun _ _ => Or.inl) card.id, ← slot]
  unfold Board.lease?
  split <;> simp_all

/-- Board and leases agree throughout one run, and a lease that goes leaves its card in another
status than 'running'. -/
structure CardsAgree (events : List Event) : Prop where
  running_iff : ∀ moment, RunningIffLeased (boardAt events moment)
  returned : ∀ moment id, ((boardAt events moment).lease? id).isSome →
    (boardAt events (moment + 1)).lease? id = none →
    ∀ card, (boardAt events (moment + 1)).card? id = some card → card.status ≠ .running

/-- In every run whose clock does not turn back within a transaction, and in which no settling
loses a lease between its two readings, cards and leases agree. -/
theorem cards_agree (events : List Event)
    (keeps : EachStep Board.step Board.empty (fun board event => Monotone event.clock ∧
      ∀ lease, ¬ event.Loses board lease) events) : CardsAgree events := by
  have agrees := keeps.invariant (fun board => ∀ id, (board.slot id).Agrees)
    (fun id => by simp [Slot.Agrees, Board.slot, Board.lease?, Board.card?, Board.empty])
    (fun board event guarded agrees => agrees_step guarded.1 guarded.2 agrees)
  constructor
  · exact fun moment => runningIffLeased_of_agrees (agrees moment)
  · intro moment id _ gone card found running
    have slot := agrees (moment + 1) id
    simp [Slot.Agrees, Board.slot, gone, found, running] at slot

end Runs

section Examples

/-- Nothing outside the board refuses anything, and no card was staged remotely. -/
def openSurroundings : Surroundings :=
  { assignment := fun _ => .ok ()
    verifiedOwner := fun _ => .ok "owner"
    verifyTarget := fun _ _ => .ok ()
    preparation := fun _ => none
    enrolled := fun _ => true
    mcpEnabled := fun _ => true }

def laptop : Capabilities :=
  { ramBytes := 0
    vramBytes := none
    modalities := [.text]
    models := []
    allowInternet := false
    toolsLevel := .inferenceOnly }

def essay : ClaimedCard :=
  { id := 7
    projectId := 1
    key := "essay"
    title := "Essay"
    modality := .text
    inputs := ""
    acceptance := ""
    deps := []
    requiresInternet := false
    requiredCapabilities :=
      { modelId := none
        minRamBytes := none
        minVramBytes := none
        toolsLevel := none
        targetNodeId := none
        mcpServerId := none
        coordinator := false
        brain := none
        artifactTools := false
        repoUrl := none
        preparedWorkspaceRoot := none
        acceptance := ""
        submission := none
        rest := "" } }

def workerSession : Session :=
  { node := "laptop", session := 2, claimScope := none, runScope := none }

/-- A transaction during which the clock stands still. -/
def Op.at (op : Op) (now : Int) : Event := ⟨op, openSurroundings, fun _ => now⟩

/-- A transaction whose first reading of the clock is a second before all later ones. -/
def Op.across (op : Op) (now : Int) : Event :=
  ⟨op, openSurroundings, fun reading => if reading = 0 then now - 1 else now⟩

/-- A worker claims the one card at time 0, so its lease expires at time 900. -/
def claimedEssay : List Event :=
  [(Op.createProject ⟨1, "P", ""⟩).at 0, (Op.enroll "laptop").at 0,
    (Op.checkIn workerSession laptop).at 0, (Op.addCard essay).at 0,
    (Op.claimCard workerSession).at 0]

theorem Op.at_keeps (op : Op) (now : Int) (board : Board) :
    Monotone (op.at now).clock ∧ ∀ lease, ¬ (op.at now).Loses board lease := by
  refine ⟨monotone_const, ?_⟩
  intro lease loses
  obtain ⟨expiring, deleting, given, readings, _, above, below⟩ := loses.between
  have same : expiring = now ∧ deleting = now := by
    unfold Event.settling Op.at at readings
    dsimp only at readings
    split at readings
    all_goals first | cases readings; exact ⟨rfl, rfl⟩ | skip
    split at readings
    all_goals cases readings
    exact ⟨rfl, rfl⟩
  omega

theorem Op.across_monotone (op : Op) (now : Int) : Monotone (op.across now).clock := by
  intro first second ordered
  simp only [Op.across]
  split <;> split <;> omega

/-- Cards and leases do not agree in every run: a lease that expires between the readings of a
settling is deleted while its card stays running. -/
theorem running_without_lease :
    ¬ ∀ events : List Event, (∀ event ∈ events, Monotone event.clock) →
      ∀ moment, RunningIffLeased (boardAt events moment) := by
  intro agree
  have monotone : ∀ event ∈ claimedEssay ++ [Op.settle.across 900], Monotone event.clock := by
    intro event member
    simp only [claimedEssay, List.cons_append, List.nil_append, List.mem_cons, List.not_mem_nil,
      or_false] at member
    rcases member with rfl | rfl | rfl | rfl | rfl | rfl
    all_goals first | exact (Op.at_keeps _ _ Board.empty).1 | exact Op.across_monotone _ _
  have agrees := agree _ monotone 6
  unfold RunningIffLeased at agrees
  revert agrees
  decide

/-- The card is leased, and its lease expires at one reading of the clock. -/
theorem cards_agree_essay : CardsAgree (claimedEssay ++ [Op.settle.at 900]) := by
  apply cards_agree
  apply eachStep_of_lt
  intro count inside
  generalize boardAt _ count = board
  simp only [claimedEssay, List.cons_append, List.nil_append, List.length_cons,
    List.length_nil] at inside
  interval_cases count
  all_goals exact Op.at_keeps _ _ _

end Examples

end OHHive.LocalHub
