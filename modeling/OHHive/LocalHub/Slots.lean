import OHHive.LocalHub.Claiming
import Mathlib.Logic.Relation
import Mathlib.Order.Monotone.Defs

/-! One card of the board with its lease and its output. Every transaction moves such a slot
along a chain of named moves, so what the moves keep holds in every run. -/

namespace OHHive.LocalHub

open Foundation

/-- The order of a clock's readings. -/
scoped instance (priority := high) instPreorderInt : Preorder Int :=
  Int.instLinearOrder.toPreorder

section Statements

structure Slot where
  card : Option Card
  lease : Option Lease
  output : Option CardOutput

namespace Board

def slot (board : Board) (id : CardId) : Slot :=
  ⟨board.card? id, board.lease? id, board.output? id⟩

theorem card?_eq_some_iff {board : Board} {id : CardId} {card : Card} :
    board.card? id = some card ↔ card ∈ board.cards.rows ∧ card.id = id :=
  board.cards.find?_eq_some_iff (fun _ _ => Card.Clash.symm) Card.id (fun _ _ => Or.inl) id card

theorem lease?_eq_some_iff {board : Board} {id : CardId} {lease : Lease} :
    board.lease? id = some lease ↔ lease ∈ board.leases.rows ∧ lease.cardId = id :=
  board.leases.find?_eq_some_iff (fun _ _ => Lease.Clash.symm) Lease.cardId (fun _ _ => Or.inl)
    id lease

theorem lease?_eq_none_iff {board : Board} {id : CardId} :
    board.lease? id = none ↔ ∀ lease ∈ board.leases.rows, lease.cardId ≠ id := by
  simp [lease?, List.find?_eq_none]

theorem slot_updateCards (board : Board) (selects : Card → Bool) (change : Card → Card)
    (fixed) (id : CardId) :
    (board.updateCards selects change fixed).slot id =
      { board.slot id with
        card := (board.card? id).map (fun card => if selects card then change card else card) } := by
  have kept : ∀ card, (if selects card then change card else card).id = card.id := by
    intro card
    split
    · exact congrArg Prod.fst (fixed card)
    · rfl
  simp only [slot, card?, lease?, output?, updateCards, Table.rows_update, List.find?_map,
    Function.comp_def, kept]

/-- An update of one card leaves every other slot alone. -/
theorem slot_updateCard (board : Board) (given : CardId) (change : Card → Card) (fixed)
    (id : CardId) :
    (board.updateCards (fun card => card.id = given) change fixed).slot id =
      if id = given then { board.slot id with card := (board.card? id).map change }
      else board.slot id := by
  rw [slot_updateCards]
  have identity : ∀ card, board.card? id = some card → card.id = id :=
    fun card found => (card?_eq_some_iff.mp found).2
  cases found : board.card? id with
  | none => simp [slot, found]
  | some card =>
    by_cases same : id = given
    · simp [same, (identity card found).trans same]
    · have other : card.id ≠ given := fun equal => same ((identity card found).symm.trans equal)
      simp [slot, found, same, other]

theorem slot_deleteLeases (board : Board) (selects : Lease → Bool) (id : CardId) :
    (board.deleteLeases selects).slot id =
      { board.slot id with lease := (board.lease? id).filter (fun lease => !selects lease) } := by
  have found := board.leases.find?_keep (fun _ _ => Lease.Clash.symm) Lease.cardId
    (fun _ _ => Or.inl) (fun lease => !selects lease) id
  simp only [slot, lease?, deleteLeases, card?, output?, found]

theorem slot_extendLeases (board : Board) (selects : Lease → Bool) (now : Int) (id : CardId) :
    (board.extendLeases selects now).slot id =
      { board.slot id with
        lease := (board.lease? id).map (fun lease =>
          if selects lease then { lease with expires := now + lease.ttl } else lease) } := by
  have kept : ∀ lease : Lease, (if selects lease then
      { lease with expires := now + lease.ttl } else lease).cardId = lease.cardId := by
    intro lease
    split <;> rfl
  simp only [slot, card?, lease?, output?, extendLeases, Table.rows_update, List.find?_map,
    Function.comp_def, kept]

theorem slot_insertLease {board next : Board} {lease : Lease}
    (inserted : board.insertLease lease = .ok next) :
    board.lease? lease.cardId = none ∧
      ∀ id, next.slot id =
        { board.slot id with
          lease := if lease.cardId = id then some lease else board.lease? id } := by
  simp only [insertLease, bind_eq_ok_iff, orFail_eq_ok_iff, pure_eq_ok_iff] at inserted
  obtain ⟨leases, added, rfl⟩ := inserted
  obtain ⟨fits, rows⟩ := Table.insert?_eq_some_iff.mp added
  have absent : board.lease? lease.cardId = none :=
    lease?_eq_none_iff.mpr (fun stored member same => fits stored member (Or.inl same))
  refine ⟨absent, ?_⟩
  intro id
  simp only [slot, card?, output?, lease?, rows, List.find?_append]
  by_cases same : lease.cardId = id
  · subst same
    have none := absent
    unfold lease? at none
    simp [none]
  · simp [same]

theorem slot_insertOutput {board next : Board} {output : CardOutput}
    (inserted : board.insertOutput output = .ok next) (id : CardId) :
    next.slot id =
      { board.slot id with
        output := if output.cardId = id then some output else board.output? id } := by
  simp only [insertOutput, bind_eq_ok_iff, orFail_eq_ok_iff, pure_eq_ok_iff] at inserted
  obtain ⟨outputs, added, rfl⟩ := inserted
  simp only [slot, card?, lease?, output?, Table.lookup_insert? added]

theorem slot_insertCard {board next : Board} {card : Card}
    (inserted : board.insertCard card = .ok next) :
    board.card? card.id = none ∧
      ∀ id, next.slot id =
        { board.slot id with card := if card.id = id then some card else board.card? id } := by
  simp only [insertCard, bind_eq_ok_iff, require_eq_ok_iff, exists_const, orFail_eq_ok_iff,
    pure_eq_ok_iff] at inserted
  obtain ⟨_, cards, added, rfl⟩ := inserted
  obtain ⟨fits, rows⟩ := Table.insert?_eq_some_iff.mp added
  have absent : board.card? card.id = none := by
    simp only [card?, List.find?_eq_none]
    intro stored member same
    exact fits stored member (Or.inl (of_decide_eq_true same))
  refine ⟨absent, ?_⟩
  intro id
  simp only [slot, card?, output?, lease?, rows, List.find?_append]
  by_cases same : card.id = id
  · subst same
    have none := absent
    unfold card? at none
    simp [none]
  · simp [same]

end Board

end Statements

section Moves

/-- Waiting for work, for a child or for a person. -/
def CardStatus.isOpen : CardStatus → Bool
  | .ready | .waitingOnChild | .blocked => true
  | .running | .review | .done => false

def CardStatus.isFinished : CardStatus → Bool
  | .review | .done => true
  | .ready | .running | .waitingOnChild | .blocked => false

/-- The two readings with which an operation settles the board, and the card whose lease it
gives up before it does. A completion that only repeats a stored one does not settle. -/
def Event.settling (event : Event) (board : Board) : Option (Int × Int × Option CardId) :=
  match event.op with
  | .settle | .claimCard _ | .heartbeat _ => some (event.clock 0, event.clock 1, none)
  | .completeCard _ id _ _ _ =>
      if (board.output? id).isNone then some (event.clock 1, event.clock 2, some id) else none
  | .failCard _ id _ | .releaseCard _ id _ | .waitOnChild _ id _ =>
      some (event.clock 1, event.clock 2, some id)
  | _ => none

/-- A lease that expires between the two readings of a settling that commits: the first
statement does not see it, the second deletes it. -/
structure Event.Loses (event : Event) (board : Board) (lease : Lease) : Prop where
  commits : ∃ next, event.reply board = .ok next
  between : ∃ expiring deleting given,
    event.settling board = some (expiring, deleting, given) ∧ some lease.cardId ≠ given ∧
      expiring < lease.expires ∧ lease.expires ≤ deleting
  stored : lease ∈ board.leases.rows

/-- A completion passed the checks made before anything is read. -/
structure CardOutput.Accepted (output : CardOutput) : Prop where
  usage : checkUsage output.usage = .ok ()
  size : output.content.utf8ByteSize ≤ maxOutputBytes

/-- What one statement of a transaction on the board does to a card, its lease and its output. -/
inductive SlotMove (event : Event) (board : Board) : Slot → Slot → Prop
  | created (card : Card) (lease output) (isOpen : card.status.isOpen) :
      SlotMove event board ⟨none, lease, output⟩ ⟨some card, lease, output⟩
  | shifted (card later : Card) (lease output) (before : card.status.isOpen)
      (after : later.status.isOpen) :
      SlotMove event board ⟨some card, lease, output⟩ ⟨some later, lease, output⟩
  | expired (card : Option Card) (lease output) :
      SlotMove event board ⟨card, some lease, output⟩ ⟨card.map Card.expired, none, output⟩
  | orphaned (card lease output) (lost : event.Loses board lease) :
      SlotMove event board ⟨card, some lease, output⟩ ⟨card, none, output⟩
  | stranded (card later : Card) (lease output) (after : later.status.isOpen)
      (turned : ¬ Monotone event.clock) :
      SlotMove event board ⟨some card, some lease, output⟩ ⟨some later, some lease, output⟩
  | claimed (hub : Session) (card : Card) (lease output) (asked : event.op = .claimCard hub)
      (ready : card.status = .ready) (node : lease.nodeId = hub.node)
      (session : lease.session = hub.session) :
      SlotMove event board ⟨some card, none, output⟩
        ⟨some (card.moved .running none), some lease, output⟩
  | extended (card lease output) (expires : Int) :
      SlotMove event board ⟨card, some lease, output⟩ ⟨card, some { lease with expires }, output⟩
  | ended (card later : Option Card) (lease output)
      (after : ∀ card ∈ later, card.status.isOpen) (kept : later.isSome = card.isSome) :
      SlotMove event board ⟨card, some lease, output⟩ ⟨later, none, output⟩
  | completed (card : Option Card) (lease) (output : CardOutput) (accepted : output.Accepted) :
      SlotMove event board ⟨card, some lease, none⟩
        ⟨card.map Card.reviewed, none, some output⟩
  | retired (card later : Card) (lease : Option Lease) (after : later.status.isOpen) :
      SlotMove event board ⟨some card, lease, none⟩ ⟨some later, none, none⟩

/-- A chain of moves. -/
abbrev SlotMoves (event : Event) (board : Board) : Slot → Slot → Prop :=
  Relation.ReflTransGen (SlotMove event board)

variable {event : Event} {start board : Board}

theorem SlotMoves.of_eq {before after : Slot} (same : after = before) :
    SlotMoves event start before after := by
  rw [same]

/-- An update that takes open cards to open cards. -/
theorem slotMoves_updateCards (selects : Card → Bool) (change : Card → Card) (fixed)
    (opens : ∀ card ∈ board.cards.rows, selects card = true →
      card.status.isOpen ∧ (change card).status.isOpen)
    (id : CardId) :
    SlotMoves event start (board.slot id) ((board.updateCards selects change fixed).slot id) := by
  rw [Board.slot_updateCards]
  cases found : board.card? id with
  | none => exact SlotMoves.of_eq (by simp [Board.slot, found])
  | some card =>
    by_cases selected : selects card = true
    · simp only [Board.slot, found, Option.map_some, selected, if_true]
      obtain ⟨before, after⟩ := opens card (Board.card?_eq_some_iff.mp found).1 selected
      exact .single (.shifted card _ _ _ before after)
    · exact SlotMoves.of_eq (by simp [Board.slot, found, selected])

theorem slotMoves_blockParents (rounds : Nat) (board : Board) (id : CardId) :
    SlotMoves event start (board.slot id) ((blockParents rounds board).slot id) := by
  induction rounds generalizing board with
  | zero => exact .refl
  | succ rounds ih =>
    unfold blockParents
    split
    · refine Relation.ReflTransGen.trans ?_ (ih _)
      apply slotMoves_updateCards
      intro card _ selected
      simp only [hasBlockedChild, Bool.and_eq_true, decide_eq_true_eq] at selected
      rw [selected.1]
      exact ⟨rfl, rfl⟩
    · exact .refl

theorem slotMoves_resumeParents (board : Board) (id : CardId) :
    SlotMoves event start (board.slot id) ((resumeParents board).slot id) := by
  apply slotMoves_updateCards
  intro card _ selected
  simp only [childrenFinished, Bool.and_eq_true, decide_eq_true_eq] at selected
  rw [selected.1]
  exact ⟨rfl, rfl⟩

/-- A card has an expired lease exactly when its one lease is expired. -/
theorem any_lease_iff {board : Board} {card : Card} {reading : Int} :
    board.leases.rows.any (fun lease => lease.cardId = card.id && lease.expires ≤ reading) = true ↔
      ∃ lease, board.lease? card.id = some lease ∧ lease.expires ≤ reading := by
  simp only [List.any_eq_true, Bool.and_eq_true, decide_eq_true_eq, Board.lease?_eq_some_iff]
  constructor
  · rintro ⟨lease, member, same, expired⟩
    exact ⟨lease, ⟨member, same⟩, expired⟩
  · rintro ⟨lease, ⟨member, same⟩, expired⟩
    exact ⟨lease, member, same, expired⟩

/-- The leases a settling finds are leases of the board the operation started from. -/
structure Settles (event : Event) (start board : Board) (expiring deleting : Int)
    (given : Option CardId) : Prop where
  commits : ∃ next, event.reply start = .ok next
  readings : event.settling start = some (expiring, deleting, given)
  kept : ∀ lease ∈ board.leases.rows, lease ∈ start.leases.rows ∧ some lease.cardId ≠ given
  ordered : Monotone event.clock → expiring ≤ deleting

theorem slotMoves_expireLeases {expiring deleting : Int} {given : Option CardId}
    (settles : Settles event start board expiring deleting given) (id : CardId) :
    SlotMoves event start (board.slot id) ((expireLeases board expiring deleting).slot id) := by
  rw [expireLeases, Board.slot_deleteLeases]
  have frame := board.slot_updateCards (fun card => board.leases.rows.any (fun lease =>
    lease.cardId = card.id && lease.expires ≤ expiring)) Card.expired Card.identity_expired id
  have leases : ∀ other, Board.lease? (board.updateCards (fun card =>
      board.leases.rows.any (fun lease => lease.cardId = card.id && lease.expires ≤ expiring))
      Card.expired Card.identity_expired) other = board.lease? other := fun _ => rfl
  rw [frame, leases]
  have identity : ∀ card, board.card? id = some card → card.id = id :=
    fun card found => (Board.card?_eq_some_iff.mp found).2
  cases held : board.lease? id with
  | none =>
    apply SlotMoves.of_eq
    cases found : board.card? id with
    | none => simp [Board.slot, found, held]
    | some card =>
      have free : ¬ ∃ lease, board.lease? card.id = some lease ∧ lease.expires ≤ expiring := by
        rw [identity card found, held]
        simp
      rw [← any_lease_iff] at free
      simp only [Board.slot, found, held, Option.map_some, if_neg free, Option.filter_none]
  | some lease =>
    obtain ⟨member, _⟩ := Board.lease?_eq_some_iff.mp held
    have selected : ∀ card, board.card? id = some card →
        ((board.leases.rows.any (fun lease =>
          lease.cardId = card.id && lease.expires ≤ expiring)) = true ↔
          lease.expires ≤ expiring) := by
      intro card found
      rw [any_lease_iff, identity card found, held]
      simp
    have moved : (board.card? id).map (fun card => if board.leases.rows.any (fun lease =>
          lease.cardId = card.id && lease.expires ≤ expiring) then card.expired else card) =
        if lease.expires ≤ expiring then (board.card? id).map Card.expired else board.card? id := by
      cases found : board.card? id with
      | none => simp
      | some card =>
        simp only [Option.map_some, selected card found]
        split <;> rfl
    simp only [moved, Board.slot, held]
    by_cases early : lease.expires ≤ expiring <;> by_cases late : lease.expires ≤ deleting
    · simp only [early, late, if_true, Option.filter_some, decide_true, Bool.not_true,
        Bool.false_eq_true, if_false]
      exact .single (.expired _ lease _)
    · have turned : ¬ Monotone event.clock := by
        intro monotone
        have ordered := settles.ordered monotone
        omega
      simp only [early, late, if_true, Option.filter_some, decide_false, Bool.not_false]
      cases found : board.card? id with
      | none => exact .refl
      | some card =>
        refine .single (.stranded card card.expired lease _ ?_ turned)
        simp only [Card.expired]
        split <;> rfl
    · simp only [early, late, if_false, Option.filter_some, decide_true, Bool.not_true,
        Bool.false_eq_true]
      refine .single (.orphaned _ lease _ ?_)
      obtain ⟨inStart, other⟩ := settles.kept lease member
      exact ⟨settles.commits, ⟨expiring, deleting, given, settles.readings, other, by omega, late⟩,
        inStart⟩
    · simp only [early, late, if_false, Option.filter_some, decide_false, Bool.not_false, if_true]
      exact .refl

theorem slotMoves_settle {expiring deleting : Int} {given : Option CardId}
    (settles : Settles event start board expiring deleting given) (id : CardId) :
    SlotMoves event start (board.slot id) ((settle board expiring deleting).slot id) := by
  refine (slotMoves_expireLeases settles id).trans ?_
  exact (slotMoves_blockParents _ _ id).trans (slotMoves_resumeParents _ id)

end Moves

end OHHive.LocalHub
