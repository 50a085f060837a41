import OHHive.LocalHub.ChildSettling

/-! The waits of a parent: each begins with a transaction of its worker, and each that is over was
ended once, by the settling that found its children finished or one of them failed. -/

namespace OHHive.LocalHub

open Foundation

section Statuses

variable {board next : Board} {id child : CardId} {status : CardStatus}

def statusOf (board : Board) (id : CardId) : Option CardStatus := (board.card? id).map Card.status

theorem statusOf_eq_some_iff :
    statusOf board id = some status ↔
      ∃ card ∈ board.cards.rows, card.id = id ∧ card.status = status := by
  unfold statusOf
  rw [Option.map_eq_some_iff]
  constructor
  · rintro ⟨card, found, same⟩
    obtain ⟨stored, named⟩ := Board.card?_eq_some_iff.mp found
    exact ⟨card, stored, named, same⟩
  · rintro ⟨card, stored, named, same⟩
    exact ⟨card, Board.card?_eq_some_iff.mpr ⟨stored, named⟩, same⟩

/-- A child of the card is blocked. -/
def FailedChild (board : Board) (id : CardId) : Prop :=
  ∃ child, ⟨id, child⟩ ∈ board.childLinks.rows ∧ statusOf board child = some .blocked

/-- Every child of the card has finished. -/
def FinishedChildren (board : Board) (id : CardId) : Prop :=
  ∀ child status, ⟨id, child⟩ ∈ board.childLinks.rows → statusOf board child = some status →
    status.isFinished = true

theorem failedChild_iff :
    FailedChild board id ↔ ∃ child, board.Spawned id child ∧ child.status = .blocked := by
  constructor
  · rintro ⟨child, linked, found⟩
    obtain ⟨card, stored, rfl, blocked⟩ := statusOf_eq_some_iff.mp found
    exact ⟨card, ⟨linked, stored⟩, blocked⟩
  · rintro ⟨card, ⟨linked, stored⟩, blocked⟩
    exact ⟨card.id, linked, statusOf_eq_some_iff.mpr ⟨card, stored, rfl, blocked⟩⟩

theorem finishedChildren_iff :
    FinishedChildren board id ↔
      ∀ child, board.Spawned id child → child.status.isFinished = true := by
  constructor
  · rintro all card ⟨linked, stored⟩
    exact all card.id card.status linked (statusOf_eq_some_iff.mpr ⟨card, stored, rfl, rfl⟩)
  · intro all child status linked found
    obtain ⟨card, stored, rfl, rfl⟩ := statusOf_eq_some_iff.mp found
    exact all card ⟨linked, stored⟩

theorem FailedChild.mono (failed : FailedChild board id)
    (links : next.childLinks = board.childLinks)
    (kept : ∀ child, statusOf board child = some .blocked → statusOf next child = some .blocked) :
    FailedChild next id := by
  obtain ⟨child, linked, blocked⟩ := failed
  exact ⟨child, links ▸ linked, kept child blocked⟩

theorem FinishedChildren.mono (finished : FinishedChildren board id)
    (links : next.childLinks = board.childLinks)
    (kept : ∀ child status, statusOf next child = some status →
      ∃ before, statusOf board child = some before ∧
        (before.isFinished = true → status.isFinished = true)) :
    FinishedChildren next id := by
  intro child status linked found
  obtain ⟨before, held, passes⟩ := kept child status found
  exact passes (finished child before (links ▸ linked) held)

theorem statusOf_updateCards (board : Board) (selects : Card → Bool) (change : Card → Card) (fixed)
    (id : CardId) :
    statusOf (board.updateCards selects change fixed) id =
      (board.card? id).map fun card => (if selects card then change card else card).status := by
  have slots := congrArg Slot.card (board.slot_updateCards selects change fixed id)
  change (board.updateCards selects change fixed).card? id = _ at slots
  rw [statusOf, slots, Option.map_map]
  rfl

end Statuses

section Settling

variable {board : Board} {id : CardId} {status : CardStatus}

/-- Only the cards of expired leases change their status where leases expire. -/
theorem statusOf_expireLeases (board : Board) (expiring deleting : Int) (id : CardId) :
    statusOf (expireLeases board expiring deleting) id = statusOf board id ∨
      (board.lease? id).isSome ∧ (statusOf (expireLeases board expiring deleting) id = some .ready ∨
        statusOf (expireLeases board expiring deleting) id = some .blocked) := by
  have after := statusOf_updateCards board (fun card => board.leases.rows.any (fun lease =>
    lease.cardId = card.id && lease.expires ≤ expiring)) Card.expired Card.identity_expired id
  change statusOf (expireLeases board expiring deleting) id = _ at after
  rw [after]
  cases found : board.card? id with
  | none =>
    left
    rw [statusOf, found]
    rfl
  | some card =>
    rw [Option.map_some]
    have named := (Board.card?_eq_some_iff.mp found).2
    by_cases expired : board.leases.rows.any (fun lease =>
        lease.cardId = card.id && lease.expires ≤ expiring) = true
    · right
      obtain ⟨lease, held, _⟩ := any_lease_iff.mp expired
      rw [named] at held
      rw [held, if_pos expired, Card.expired]
      refine ⟨rfl, ?_⟩
      dsimp only
      split
      · exact Or.inr rfl
      · exact Or.inl rfl
    · left
      rw [if_neg expired, statusOf, found]
      rfl

theorem childLinks_blockParents (rounds : Nat) (board : Board) :
    (blockParents rounds board).childLinks = board.childLinks := by
  induction rounds generalizing board with
  | zero => rfl
  | succ rounds ih =>
    unfold blockParents
    split
    · exact ih _
    · rfl

theorem statusOf_blockOnce (board : Board) (id : CardId) :
    statusOf (board.setStatus (hasBlockedChild board) .blocked (some "child blocked")) id =
        statusOf board id ∨
      statusOf board id = some .waitingOnChild ∧
        statusOf (board.setStatus (hasBlockedChild board) .blocked (some "child blocked")) id =
          some .blocked ∧ FailedChild board id := by
  rw [Board.setStatus, statusOf_updateCards]
  cases found : board.card? id with
  | none =>
    left
    rw [statusOf, found]
    rfl
  | some card =>
    have named := (Board.card?_eq_some_iff.mp found).2
    rw [Option.map_some]
    by_cases failed : hasBlockedChild board card = true
    · obtain ⟨waits, child⟩ := hasBlockedChild_iff.mp failed
      rw [named] at child
      right
      rw [if_pos failed, statusOf, found, Option.map_some, waits]
      exact ⟨rfl, rfl, failedChild_iff.mpr child⟩
    · left
      rw [if_neg failed, statusOf, found]
      rfl

theorem blocked_blockParents (rounds : Nat) (board : Board) {id : CardId}
    (blocked : statusOf board id = some .blocked) :
    statusOf (blockParents rounds board) id = some .blocked := by
  induction rounds generalizing board with
  | zero => exact blocked
  | succ rounds ih =>
    unfold blockParents
    split
    · apply ih
      rcases statusOf_blockOnce board id with same | ⟨_, now, _⟩
      · exact same.trans blocked
      · exact now
    · exact blocked

/-- The loop blocks waiting cards, each for a child that is blocked and stays so. -/
theorem statusOf_blockParents (rounds : Nat) (board : Board) (id : CardId) :
    statusOf (blockParents rounds board) id = statusOf board id ∨
      statusOf board id = some .waitingOnChild ∧
        statusOf (blockParents rounds board) id = some .blocked ∧
        FailedChild (blockParents rounds board) id := by
  induction rounds generalizing board with
  | zero => exact Or.inl rfl
  | succ rounds ih =>
    unfold blockParents
    by_cases any : board.cards.rows.any (hasBlockedChild board) = true
    · rw [if_pos any]
      rcases ih (board.setStatus (hasBlockedChild board) .blocked (some "child blocked")) with
        same | ⟨waits, now, child⟩
      · rcases statusOf_blockOnce board id with unchanged | ⟨waits, now, child⟩
        · exact Or.inl (same.trans unchanged)
        · refine Or.inr ⟨waits, same.trans now, child.mono (childLinks_blockParents _ _) ?_⟩
          intro other held
          apply blocked_blockParents
          rcases statusOf_blockOnce board other with kept | ⟨_, later, _⟩
          · exact kept.trans held
          · exact later
      · rcases statusOf_blockOnce board id with unchanged | ⟨_, failed, _⟩
        · exact Or.inr ⟨unchanged.symm.trans waits, now, child⟩
        · rw [failed] at waits
          cases waits
    · rw [if_neg any]
      exact Or.inl rfl

/-- Resuming frees the waiting cards whose children have finished. -/
theorem statusOf_resumeParents (board : Board) (id : CardId) :
    statusOf (resumeParents board) id = statusOf board id ∨
      statusOf board id = some .waitingOnChild ∧
        statusOf (resumeParents board) id = some .ready ∧ FinishedChildren board id := by
  rw [resumeParents, statusOf_updateCards]
  cases found : board.card? id with
  | none =>
    left
    rw [statusOf, found]
    rfl
  | some card =>
    have named := (Board.card?_eq_some_iff.mp found).2
    rw [Option.map_some]
    by_cases finished : childrenFinished board card = true
    · obtain ⟨waits, children⟩ := childrenFinished_iff.mp finished
      rw [named] at children
      right
      rw [if_pos finished, statusOf, found, Option.map_some, waits]
      exact ⟨rfl, rfl, finishedChildren_iff.mpr children⟩
    · left
      rw [if_neg finished, statusOf, found]
      rfl

end Settling

section Waits

variable {board mid next : Board} {id : CardId} {waited : Prop}

/-- A waiting card has a child, and no worker has a lease of it. -/
def Board.Resting (board : Board) : Prop :=
  ∀ id, statusOf board id = some .waitingOnChild →
    board.lease? id = none ∧ ∃ child, ⟨id, child⟩ ∈ board.childLinks.rows

/-- What a transaction does to a card that waits, or begins to: it waits on, it is resumed since
all its children have finished, or it is blocked since one of them is. -/
inductive WaitMove (waited : Prop) (next : Board) (id : CardId) : Prop
  | kept (waits : statusOf next id = some .waitingOnChild ↔ waited) : WaitMove waited next id
  | resumed (before : waited) (children : FinishedChildren next id)
      (freed : statusOf next id = some .ready ∨ statusOf next id = some .running) :
      WaitMove waited next id
  | failed (before : waited) (child : FailedChild next id)
      (blocked : statusOf next id = some .blocked) : WaitMove waited next id

/-- What a change keeps that ends no wait and begins none. -/
structure WaitsKept (board next : Board) : Prop where
  waits : ∀ id, statusOf next id = some .waitingOnChild ↔ statusOf board id = some .waitingOnChild
  free : ∀ id, statusOf board id = some .waitingOnChild → board.lease? id = none →
    next.lease? id = none
  links : ∀ link ∈ board.childLinks.rows, link ∈ next.childLinks.rows

theorem WaitsKept.refl (board : Board) : WaitsKept board board :=
  ⟨fun _ => Iff.rfl, fun _ _ => id, fun _ => id⟩

theorem WaitsKept.trans (before : WaitsKept board mid) (after : WaitsKept mid next) :
    WaitsKept board next := by
  refine ⟨fun id => (after.waits id).trans (before.waits id), ?_, ?_⟩
  · intro id waits unleased
    exact after.free id ((before.waits id).mpr waits) (before.free id waits unleased)
  · exact fun link stored => after.links link (before.links link stored)

theorem WaitsKept.resting (kept : WaitsKept board next) (resting : board.Resting) :
    next.Resting := by
  intro id waits
  have before := (kept.waits id).mp waits
  obtain ⟨unleased, child, linked⟩ := resting id before
  exact ⟨kept.free id before unleased, child, kept.links _ linked⟩

theorem WaitMove.of_kept (move : WaitMove (statusOf mid id = some .waitingOnChild) next id)
    (kept : WaitsKept board mid) :
    WaitMove (statusOf board id = some .waitingOnChild) next id := by
  have same := propext (kept.waits id)
  rwa [same] at move

theorem childLinks_settle (board : Board) (expiring deleting : Int) :
    (settle board expiring deleting).childLinks = board.childLinks :=
  childLinks_blockParents _ _

/-- Settling ends a wait for a failed child or for finished children only. -/
theorem waitMove_settle (resting : board.Resting) (expiring deleting : Int) (id : CardId) :
    WaitMove (statusOf board id = some .waitingOnChild) (settle board expiring deleting) id := by
  have swept : statusOf (expireLeases board expiring deleting) id = some .waitingOnChild ↔
      statusOf board id = some .waitingOnChild := by
    rcases statusOf_expireLeases board expiring deleting id with same | ⟨leased, left⟩
    · rw [same]
    · constructor
      · intro waits
        rcases left with ready | blocked
        · cases ready.symm.trans waits
        · cases blocked.symm.trans waits
      · intro waits
        rw [(resting id waits).1] at leased
        cases leased
  unfold settle
  dsimp only
  generalize expireLeases board expiring deleting = after at swept
  have blocks := statusOf_blockParents (after.cards.rows.length + 1) after
  generalize blockParents (after.cards.rows.length + 1) after = parents at blocks
  have frees := statusOf_resumeParents parents
  rcases blocks id with same | ⟨waits, now, child⟩
  · rcases frees id with unchanged | ⟨waits, freed, children⟩
    · exact .kept (by rw [unchanged, same, swept])
    · refine .resumed (swept.mp (same ▸ waits)) (children.mono rfl ?_) (Or.inl freed)
      intro child status found
      rcases frees child with kept | ⟨_, ready, _⟩
      · exact ⟨status, kept ▸ found, fun finished => finished⟩
      · obtain rfl := Option.some.inj (ready.symm.trans found)
        exact ⟨.waitingOnChild, by assumption, nofun⟩
  · refine .failed (swept.mp waits) (child.mono rfl ?_) ?_
    · intro other blocked
      rcases frees other with kept | ⟨waiting, _⟩
      · exact kept.trans blocked
      · cases blocked.symm.trans waiting
    · rcases frees id with kept | ⟨waiting, _⟩
      · exact kept.trans now
      · cases now.symm.trans waiting

theorem resting_settle (resting : board.Resting) (expiring deleting : Int) :
    (settle board expiring deleting).Resting := by
  intro id waits
  have before : statusOf board id = some .waitingOnChild := by
    cases waitMove_settle resting expiring deleting id with
    | kept same => exact same.mp waits
    | resumed before => exact before
    | failed before => exact before
  obtain ⟨unleased, child, linked⟩ := resting id before
  refine ⟨?_, child, childLinks_settle board expiring deleting ▸ linked⟩
  rw [Board.lease?_eq_none_iff] at unleased ⊢
  intro lease held
  rw [leases_settle] at held
  exact unleased lease (List.mem_filter.mp held).1

end Waits

section Changes

variable {board mid next : Board} {hub : Session} {id : CardId} {waited : Prop}
  {clock : Nat → Int}

theorem waitsKept_of_same (cards : next.cards = board.cards) (leases : next.leases = board.leases)
    (links : next.childLinks = board.childLinks) : WaitsKept board next := by
  refine ⟨fun id => ?_, fun id _ unleased => ?_, fun link stored => links ▸ stored⟩
  · rw [statusOf, statusOf, Board.card?, Board.card?, cards]
  · rwa [Board.lease?, leases]

theorem waitsKept_updateCards {selects : Card → Bool} {change : Card → Card} {fixed}
    (steady : ∀ card ∈ board.cards.rows, selects card = true →
      ((change card).status = .waitingOnChild ↔ card.status = .waitingOnChild)) :
    WaitsKept board (board.updateCards selects change fixed) := by
  refine ⟨fun id => ?_, fun _ _ unleased => unleased, fun _ => id⟩
  rw [statusOf_updateCards, statusOf]
  cases found : board.card? id with
  | none => exact Iff.rfl
  | some card =>
    rw [Option.map_some, Option.map_some, Option.some.injEq, Option.some.injEq]
    by_cases selected : selects card = true
    · rw [if_pos selected]
      exact steady card (Board.card?_eq_some_iff.mp found).1 selected
    · rw [if_neg selected]

theorem waitsKept_setStatus {selects : Card → Bool} {status : CardStatus} {reason : Option String}
    (apart : status ≠ .waitingOnChild)
    (working : ∀ card, selects card = true → card.status ≠ .waitingOnChild) :
    WaitsKept board (board.setStatus selects status reason) := by
  apply waitsKept_updateCards
  intro card _ selected
  exact ⟨fun waits => absurd waits apart, fun waits => absurd waits (working card selected)⟩

theorem waitsKept_deleteLeases (board : Board) (selects : Lease → Bool) :
    WaitsKept board (board.deleteLeases selects) := by
  refine ⟨fun _ => Iff.rfl, fun id _ unleased => ?_, fun _ => id⟩
  have slot := congrArg Slot.lease (board.slot_deleteLeases selects id)
  rw [unleased] at slot
  exact slot

theorem waitsKept_extendLeases (board : Board) (selects : Lease → Bool) (now : Int) :
    WaitsKept board (board.extendLeases selects now) := by
  refine ⟨fun _ => Iff.rfl, fun id _ unleased => ?_, fun _ => id⟩
  have slot := congrArg Slot.lease (board.slot_extendLeases selects now id)
  rw [unleased] at slot
  exact slot

theorem waitsKept_insertCard {card : Card} (inserted : board.insertCard card = .ok next)
    (apart : card.status ≠ .waitingOnChild) : WaitsKept board next := by
  obtain ⟨absent, slots⟩ := Board.slot_insertCard inserted
  simp only [Board.insertCard, bind_eq_ok_iff, pure_eq_ok_iff] at inserted
  obtain ⟨_, _, cards, _, rfl⟩ := inserted
  refine ⟨fun id => ?_, fun id _ unleased => unleased, fun _ => id⟩
  have stored := congrArg Slot.card (slots id)
  by_cases same : card.id = id
  · rw [if_pos same] at stored
    rw [statusOf, statusOf, show Board.card? { board with cards } id = some card from stored,
      ← same, absent, Option.map_some, Option.some.injEq]
    exact ⟨fun waits => absurd waits apart, fun same => by cases same⟩
  · rw [if_neg same] at stored
    rw [statusOf, statusOf, show Board.card? { board with cards } id = board.card? id from stored]

theorem waitsKept_giveUp {change : Card → Card} {fixed}
    (working : statusOf board id ≠ some .waitingOnChild)
    (moved : ∀ card, (change card).status ≠ .waitingOnChild) :
    WaitsKept board (board.giveUp id change fixed) := by
  refine (waitsKept_updateCards ?_).trans (waitsKept_deleteLeases _ _)
  intro card stored selected
  refine ⟨fun waits => absurd waits (moved card), fun waits => absurd ?_ working⟩
  exact statusOf_eq_some_iff.mpr ⟨card, stored, of_decide_eq_true selected, waits⟩

/-- A leased card does not wait. -/
theorem Board.Resting.working (resting : board.Resting) {now : Int} {lease : Lease}
    (holds : HoldsLease board hub id now lease) : statusOf board id ≠ some .waitingOnChild := by
  intro waits
  have unleased := (resting id waits).1
  rw [holds.stored] at unleased
  cases unleased

/-- A card without traces of work has no child. -/
theorem childless_of_unsafeState {now : Int} (safe : unsafeState board id now = false) :
    ∀ child, ⟨id, child⟩ ∉ board.childLinks.rows := by
  intro child linked
  simp only [unsafeState, Bool.or_eq_false_iff, List.any_eq_false] at safe
  exact safe.1.2 _ linked (decide_eq_true rfl)

/-- Of the later board only ready cards differ, which are started. -/
structure Starts (board next : Board) : Prop where
  links : next.childLinks = board.childLinks
  statuses : ∀ id, statusOf next id = statusOf board id ∨
    statusOf board id = some .ready ∧ statusOf next id = some .running

theorem WaitMove.starts (move : WaitMove waited mid id) (starts : Starts mid next) :
    WaitMove waited next id := by
  have failed : FailedChild mid id → FailedChild next id := fun child =>
    child.mono starts.links fun other blocked => by
      rcases starts.statuses other with same | ⟨ready, _⟩
      · exact same.trans blocked
      · cases blocked.symm.trans ready
  have finished : FinishedChildren mid id → FinishedChildren next id := fun children =>
    children.mono starts.links fun other status found => by
      rcases starts.statuses other with same | ⟨ready, running⟩
      · exact ⟨status, same ▸ found, fun finished => finished⟩
      · exact ⟨.ready, ready, nofun⟩
  cases move with
  | kept waits =>
    rcases starts.statuses id with same | ⟨ready, running⟩
    · exact .kept (by rw [same, waits])
    · refine .kept (Iff.trans ⟨fun now => ?_, fun now => ?_⟩ waits)
      · cases running.symm.trans now
      · cases ready.symm.trans now
  | resumed before children freed =>
    refine .resumed before (finished children) ?_
    rcases starts.statuses id with same | ⟨_, running⟩
    · rwa [same]
    · exact Or.inr running
  | failed before child blocked =>
    refine .failed before (failed child) ?_
    rcases starts.statuses id with same | ⟨ready, _⟩
    · exact same.trans blocked
    · cases blocked.symm.trans ready

theorem starts_of_same (cards : next.cards = board.cards)
    (links : next.childLinks = board.childLinks) : Starts board next := by
  refine ⟨links, fun id => Or.inl ?_⟩
  rw [statusOf, statusOf, Board.card?, Board.card?, cards]

theorem childLinks_startRun (board : Board) (hub : Session) :
    (startRun board hub).childLinks = board.childLinks := by
  unfold startRun
  split <;> rfl

/-- A claim starts one ready card. -/
theorem starts_of_leases {around : Surroundings} {card : Card} {now : Int} {claimed : Claimed}
    (leases : Leases around mid next hub card now claimed) : Starts mid next := by
  obtain ⟨held, result⟩ := leases.result
  refine ⟨?_, fun id => ?_⟩
  · rw [result, childLinks_startRun]
    rfl
  · have slot := congrArg Slot.card (leases.leasedTo.slots id)
    by_cases same : id = card.id
    · rw [if_pos same] at slot
      right
      refine ⟨statusOf_eq_some_iff.mpr ⟨card, leases.leasedTo.stored, same.symm,
        leases.leasedTo.ready⟩, ?_⟩
      rw [statusOf, show next.card? id = some (card.moved .running none) from slot]
      rfl
    · rw [if_neg same] at slot
      left
      rw [statusOf, statusOf, show next.card? id = mid.card? id from slot]

theorem resting_leases {around : Surroundings} {card : Card} {now : Int} {claimed : Claimed}
    (leases : Leases around mid next hub card now claimed) (resting : mid.Resting) :
    next.Resting := by
  have starts := starts_of_leases leases
  intro id waits
  rcases starts.statuses id with same | ⟨_, running⟩
  · obtain ⟨unleased, child, linked⟩ := resting id (same ▸ waits)
    refine ⟨?_, child, starts.links ▸ linked⟩
    have slot := congrArg Slot.lease (leases.leasedTo.slots id)
    by_cases named : id = card.id
    · have ready : statusOf mid id = some .ready := statusOf_eq_some_iff.mpr
        ⟨card, leases.leasedTo.stored, named.symm, leases.leasedTo.ready⟩
      rw [same, ready] at waits
      cases waits
    · rw [if_neg named] at slot
      exact slot.trans unleased
  · cases running.symm.trans waits

end Changes

section Operations

variable {around : Surroundings} {board mid next : Board} {hub : Session} {id : CardId}
  {clock : Nat → Int}

/-- What a transaction leaves of the cards that wait, or begin to. -/
structure WaitStep (waited : CardId → Prop) (next : Board) : Prop where
  moves : ∀ id, WaitMove (waited id) next id
  resting : next.Resting

def Board.Waits (board : Board) (id : CardId) : Prop := statusOf board id = some .waitingOnChild

theorem WaitStep.of_kept (kept : WaitsKept board next) (resting : board.Resting) :
    WaitStep board.Waits next :=
  ⟨fun id => .kept (kept.waits id), kept.resting resting⟩

theorem WaitStep.of_settle (kept : WaitsKept board mid) (resting : board.Resting)
    (expiring deleting : Int) : WaitStep board.Waits (settle mid expiring deleting) := by
  have rested := kept.resting resting
  exact ⟨fun id => (waitMove_settle rested expiring deleting id).of_kept kept,
    resting_settle rested expiring deleting⟩

theorem waitStep_endCard {reason : String} {status : CardStatus} (resting : board.Resting)
    (apart : status ≠ .waitingOnChild)
    (done : endCard board hub id reason status clock = .ok next) :
    WaitStep board.Waits next := by
  simp only [endCard, bind_eq_ok_iff, pure_eq_ok_iff] at done
  obtain ⟨_, owner, rfl⟩ := done
  obtain ⟨lease, holds⟩ := owns_ok owner
  exact .of_settle (waitsKept_giveUp (resting.working holds) fun _ => apart) resting _ _

theorem waitStep_complete {content : String} {model : Option String} {usage : Usage}
    (resting : board.Resting)
    (done : completeCard board hub id content model usage clock = .ok next) :
    WaitStep board.Waits next := by
  rcases completeCard_ok done with ⟨_, rfl⟩ | ⟨lease, stored, _, holds, _, inserted, rfl⟩
  · exact .of_kept (.refl _) resting
  · simp only [Board.insertOutput, bind_eq_ok_iff, pure_eq_ok_iff] at inserted
    obtain ⟨outputs, _, rfl⟩ := inserted
    have written : WaitsKept board { board with outputs } := waitsKept_of_same rfl rfl rfl
    have reviewed : ∀ card : Card, card.reviewed.status ≠ .waitingOnChild := by
      intro card waits
      cases (show CardStatus.review = .waitingOnChild from waits)
    refine .of_settle (written.trans (waitsKept_giveUp ?_ reviewed)) resting _ _
    exact resting.working holds

theorem waitStep_claim {reply : Claim} (resting : board.Resting)
    (done : claimCard around board hub clock = .ok (next, reply)) :
    WaitStep board.Waits next := by
  have settled := WaitStep.of_settle (.refl board) resting (clock 0) (clock 1)
  rcases leases_of_claimCard done with ⟨rfl, _⟩ | ⟨card, claimed, _, leases⟩
  · exact settled
  · exact ⟨fun id => (settled.moves id).starts (starts_of_leases leases),
      resting_leases leases settled.resting⟩

theorem waitStep_heartbeat (resting : board.Resting) (clock : Nat → Int) :
    WaitStep board.Waits (heartbeat board hub clock) := by
  have settled := WaitStep.of_settle (.refl board) resting (clock 0) (clock 1)
  exact ⟨fun id => (settled.moves id).starts (starts_of_same rfl rfl),
    (waitsKept_extendLeases _ _ _).resting settled.resting⟩

theorem waitsKept_checkpoint {step : Nat} {state : String} {usage : Usage}
    (done : checkpoint board hub id step state usage clock = .ok next) : WaitsKept board next := by
  obtain ⟨_, rfl⟩ := checkpoint_ok done
  refine WaitsKept.trans ?_ (waitsKept_extendLeases _ _ _)
  unfold saveCheckpoint
  split <;> exact waitsKept_of_same rfl rfl rfl

theorem waitsKept_spawn {parent child : CardId} {card : ClaimedCard}
    (done : spawnChildCard board hub parent card clock = .ok (next, child)) :
    WaitsKept board next := by
  obtain ⟨_, rfl | ⟨_, _, _, ready, added, linked, rfl⟩⟩ := spawnChildCard_ok done
  · exact .refl _
  · have working : CardStatus.ready ≠ .waitingOnChild := by decide
    refine (waitsKept_insertCard added (ready.trans_ne working)).trans
      ⟨fun _ => Iff.rfl, fun _ _ => id, ?_⟩
    intro link stored
    rw [Table.rows_of_insert? linked]
    exact List.mem_append_left _ stored

theorem waitsKept_stage {card : ClaimedCard}
    (done : stagePrivateCodeTask board card = .ok next) : WaitsKept board next := by
  rcases stagePrivateCodeTask_ok done with rfl | inserted
  · exact .refl _
  · exact waitsKept_insertCard inserted fun same => by cases same

theorem waitsKept_request {operation : OperationId} {task : CardId}
    (done : privateRunRequest around board hub operation task clock = .ok next) :
    WaitsKept board next := by
  rcases privateRunRequest_ok done with ⟨_, rfl⟩ | ⟨run, privateRuns, requested⟩
  · exact .refl _
  · obtain ⟨card, found, blocked, _⟩ := requested.awaiting
    obtain rfl := requested.next_eq
    have written : WaitsKept board { board with privateRuns } := waitsKept_of_same rfl rfl rfl
    refine written.trans (waitsKept_updateCards ?_)
    intro stored member selected
    obtain rfl := card_of_selected found member selected
    rw [blocked]
    exact ⟨nofun, nofun⟩

theorem waitsKept_stop {operation : OperationId}
    (done : privateRunStop around board hub operation clock = .ok next) :
    WaitsKept board next := by
  rcases privateRunStop_ok done with rfl | ⟨run, privateRunStops, stopped⟩
  · exact .refl _
  · obtain rfl := stopped.next_eq
    have written : WaitsKept board { board with privateRunStops } := waitsKept_of_same rfl rfl rfl
    refine written.trans (waitsKept_updateCards ?_)
    intro stored _ selected
    rw [Bool.and_eq_true, decide_eq_true_eq, decide_eq_true_eq] at selected
    rw [selected.2]
    exact ⟨nofun, nofun⟩

/-- A retried card left no trace of work, so it has no child to wait for. -/
theorem waitsKept_retry {previous later : OperationId} (resting : board.Resting)
    (done : privateRunRetry around board hub previous later clock = .ok next) :
    WaitsKept board next := by
  simp only [privateRunRetry, bind_eq_ok_iff] at done
  obtain ⟨_, _, _, _, receipt, _, _, _, body⟩ := done
  split at body
  · simp only [bind_eq_ok_iff, pure_eq_ok_iff] at body
    obtain ⟨_, _, rfl⟩ := body
    exact .refl _
  · simp only [bind_eq_ok_iff, require_eq_ok_iff, exists_const, orFail_eq_ok_iff,
      pure_eq_ok_iff] at body
    obtain ⟨_, safe, privateRuns, _, privateRunRetries, _, rfl⟩ := body
    have written : WaitsKept board { board with privateRuns, privateRunRetries } :=
      waitsKept_of_same rfl rfl rfl
    refine (written.trans (waitsKept_deleteLeases _ _)).trans (waitsKept_updateCards ?_)
    intro stored member selected
    refine ⟨(fun same => by cases same), fun waits => ?_⟩
    obtain ⟨_, child, linked⟩ := resting receipt.taskId
      (statusOf_eq_some_iff.mpr ⟨stored, member, of_decide_eq_true selected, waits⟩)
    exact absurd linked (childless_of_unsafeState safe child)

theorem waitsKept_ready {operation : OperationId}
    (done : privateRunReady around board hub operation clock = .ok next) :
    WaitsKept board next := by
  obtain ⟨run, readied⟩ := privateRunReady_ok done
  obtain rfl := readied.next_eq
  apply waitsKept_updateCards
  intro stored _ selected
  simp only [Bool.and_eq_true, decide_eq_true_eq] at selected
  rw [selected.1.2]
  exact ⟨nofun, nofun⟩

theorem waitsKept_publish {node : NodeId} {read : ClaimedCard} {workspace : String}
    (done : publishPrivateCodeTask around board id node read workspace clock = .ok next) :
    WaitsKept board next := by
  simp only [publishPrivateCodeTask, privateTaskCard, bind_eq_ok_iff, orFail_eq_ok_iff,
    require_eq_ok_iff, exists_const, Bool.false_eq_true, if_false, pure_eq_ok_iff] at done
  obtain ⟨_, ⟨card, found, opens, _⟩, _, rfl⟩ := done
  apply waitsKept_updateCards
  intro stored member selected
  obtain rfl := card_of_selected found member selected
  refine ⟨(fun same => by cases same), fun waits => ?_⟩
  rcases opens with ready | ⟨blocked, _⟩
  · cases ready.symm.trans waits
  · cases blocked.symm.trans waits

theorem waitsKept_retryTask {node : NodeId} {read : ClaimedCard} (resting : board.Resting)
    (done : retryPrivateCodeTask around board id node read clock = .ok next) :
    WaitsKept board next := by
  simp only [retryPrivateCodeTask, bind_eq_ok_iff, pure_eq_ok_iff] at done
  obtain ⟨current, checked, _, _, rfl⟩ := done
  obtain ⟨card, found, safe, _⟩ := privateTaskCard_ok checked
  refine (waitsKept_deleteLeases _ _).trans (waitsKept_updateCards ?_)
  intro stored member selected
  refine ⟨(fun same => by cases same), fun waits => ?_⟩
  obtain ⟨_, child, linked⟩ := resting id
    (statusOf_eq_some_iff.mpr ⟨stored, member, of_decide_eq_true selected, waits⟩)
  exact absurd linked (childless_of_unsafeState (safe rfl) child)

theorem waitsKept_attest {workspace : String}
    (done : completePreparation board id workspace = .ok next) : WaitsKept board next := by
  simp only [completePreparation, bind_eq_ok_iff, pure_eq_ok_iff] at done
  obtain ⟨_, _, _, _, rfl⟩ := done
  exact waitsKept_updateCards fun _ _ _ => Iff.rfl

end Operations

section Steps

variable {board next : Board} {event : Event} {id : CardId}

/-- The transaction of a worker that lets its card wait. -/
def Event.BeginsWait (event : Event) (board : Board) (id : CardId) : Prop :=
  ∃ hub child next, event.op = .waitOnChild hub id child ∧ event.reply board = .ok next

theorem working_of_beginsWait (resting : board.Resting) (begins : event.BeginsWait board id) :
    ¬ board.Waits id := by
  obtain ⟨hub, child, next, op, done⟩ := begins
  rw [Event.reply, op] at done
  simp only [Op.perform, waitOnChild, bind_eq_ok_iff] at done
  obtain ⟨_, owner, _⟩ := done
  obtain ⟨lease, holds⟩ := owns_ok owner
  exact resting.working holds

/-- A wait begins where the worker gives up its lease, and may end as the board is settled. -/
theorem waitStep_wait {hub : Session} {child : CardId} {clock : Nat → Int}
    (resting : board.Resting) (done : waitOnChild board hub id child clock = .ok next) :
    WaitStep (fun other => board.Waits other ∨ other = id) next := by
  simp only [waitOnChild, bind_eq_ok_iff, require_eq_ok_iff, exists_const, pure_eq_ok_iff] at done
  obtain ⟨_, owner, linked, present, awaited, _, rfl⟩ := done
  have slots := fun other => slot_giveUp board id (Card.waitFor awaited.data.key)
    (Card.identity_waitFor _) other
  have waits : ∀ other, (board.giveUp id (Card.waitFor awaited.data.key)
      (Card.identity_waitFor _)).Waits other ↔ board.Waits other ∨ other = id := by
    intro other
    have card := congrArg Slot.card (slots other)
    by_cases same : other = id
    · rw [if_pos same] at card
      refine ⟨fun _ => Or.inr same, fun _ => ?_⟩
      obtain ⟨stored, found⟩ := Option.isSome_iff_exists.mp present
      rw [same] at card ⊢
      unfold Board.Waits statusOf
      rw [show Board.card? (board.giveUp id _ _) id = (board.card? id).map
        (Card.waitFor awaited.data.key) from card, found]
      rfl
    · rw [if_neg same] at card
      unfold Board.Waits statusOf
      rw [show Board.card? (board.giveUp id _ _) other = board.card? other from card]
      exact ⟨Or.inl, fun either => either.resolve_right same⟩
  have rested : (board.giveUp id (Card.waitFor awaited.data.key)
      (Card.identity_waitFor _)).Resting := by
    intro other now
    have lease := congrArg Slot.lease (slots other)
    by_cases same : other = id
    · rw [if_pos same] at lease
      exact ⟨lease, child, same ▸ linked⟩
    · rw [if_neg same] at lease
      obtain ⟨unleased, awaits⟩ := resting other (((waits other).mp now).resolve_right same)
      exact ⟨lease.trans unleased, awaits⟩
  refine ⟨fun other => ?_, resting_settle rested _ _⟩
  have move := waitMove_settle rested (clock 1) (clock 2) other
  have both := propext (waits other)
  unfold Board.Waits at both
  rwa [both] at move

def Op.waits : Op → Bool
  | .waitOnChild .. => true
  | _ => false

/-- Every other transaction ends waits only, as it settles the board. -/
theorem waitStep_quiet (resting : board.Resting) (others : event.op.waits = false)
    (done : event.reply board = .ok next) : WaitStep board.Waits next := by
  unfold Event.reply at done
  cases asked : event.op with
  | createProject project =>
    simp only [asked, Op.perform, createProject, bind_eq_ok_iff, pure_eq_ok_iff] at done
    obtain ⟨_, _, rfl⟩ := done
    exact .of_kept (waitsKept_of_same rfl rfl rfl) resting
  | enroll node =>
    simp only [asked, Op.perform, enroll, bind_eq_ok_iff, pure_eq_ok_iff] at done
    obtain ⟨_, _, rfl⟩ := done
    exact .of_kept (waitsKept_of_same rfl rfl rfl) resting
  | checkIn hub caps =>
    rw [asked] at done
    obtain rfl := Except.ok.inj done
    exact .of_kept (waitsKept_of_same rfl rfl rfl) resting
  | checkOut hub =>
    rw [asked] at done
    obtain rfl := Except.ok.inj done
    exact .of_kept (waitsKept_of_same rfl rfl rfl) resting
  | addCard card =>
    simp only [asked, Op.perform, addCard, bind_eq_ok_iff] at done
    obtain ⟨_, _, inserted⟩ := done
    exact .of_kept (waitsKept_insertCard inserted fun same => by cases same) resting
  | settle =>
    rw [asked] at done
    obtain rfl := Except.ok.inj done
    exact .of_settle (.refl _) resting _ _
  | claimCard hub =>
    rw [asked] at done
    obtain ⟨reply, claimed⟩ := ok_of_map done
    exact waitStep_claim resting claimed
  | heartbeat hub =>
    rw [asked] at done
    obtain rfl := Except.ok.inj done
    exact waitStep_heartbeat resting _
  | checkpoint hub card step state usage =>
    rw [asked] at done
    exact .of_kept (waitsKept_checkpoint done) resting
  | completeCard hub card content model usage =>
    rw [asked] at done
    exact waitStep_complete resting done
  | failCard hub card reason =>
    rw [asked] at done
    have apart : CardStatus.blocked ≠ .waitingOnChild := by decide
    exact waitStep_endCard resting apart done
  | releaseCard hub card reason =>
    simp only [asked, Op.perform, releaseCard, bind_eq_ok_iff] at done
    obtain ⟨stored, _, ended⟩ := done
    refine waitStep_endCard resting ?_ ended
    split
    · exact fun same => by cases same
    · exact fun same => by cases same
  | spawnChildCard hub parent child =>
    rw [asked] at done
    obtain ⟨reply, spawned⟩ := ok_of_map done
    exact .of_kept (waitsKept_spawn spawned) resting
  | waitOnChild hub card child =>
    rw [asked] at others
    cases others
  | privateRunRequest hub operation task =>
    rw [asked] at done
    exact .of_kept (waitsKept_request done) resting
  | privateRunStop hub operation =>
    rw [asked] at done
    exact .of_kept (waitsKept_stop done) resting
  | privateRunRetry hub previous later =>
    rw [asked] at done
    exact .of_kept (waitsKept_retry resting done) resting
  | privateRunReady hub operation =>
    rw [asked] at done
    exact .of_kept (waitsKept_ready done) resting
  | stagePrivateCodeTask card =>
    rw [asked] at done
    exact .of_kept (waitsKept_stage done) resting
  | publishPrivateCodeTask card node read workspace =>
    rw [asked] at done
    exact .of_kept (waitsKept_publish done) resting
  | retryPrivateCodeTask card node read =>
    rw [asked] at done
    exact .of_kept (waitsKept_retryTask resting done) resting
  | completePreparation card workspace =>
    rw [asked] at done
    exact .of_kept (waitsKept_attest done) resting

/-- What one transaction is to the waiting cards. -/
theorem waitStep_step (resting : board.Resting) (event : Event) :
    WaitStep (fun id => board.Waits id ∨ event.BeginsWait board id) (board.step event) := by
  have quiet : ∀ {next : Board}, WaitStep board.Waits next →
      (∀ id, ¬ event.BeginsWait board id) →
      WaitStep (fun id => board.Waits id ∨ event.BeginsWait board id) next := by
    intro next step none
    have same : (fun id => board.Waits id ∨ event.BeginsWait board id) = board.Waits := by
      funext id
      exact propext ⟨fun either => either.resolve_right (none id), Or.inl⟩
    rwa [same]
  cases done : event.reply board with
  | error failure =>
    have same : board.step event = board := by
      rw [Board.step, done]
    rw [same]
    refine quiet (.of_kept (.refl _) resting) ?_
    rintro id ⟨_, _, next, _, replied⟩
    cases done.symm.trans replied
  | ok next =>
    have stepped : board.step event = next := by
      rw [Board.step, done]
    rw [stepped]
    by_cases waits : event.op.waits = true
    · cases asked : event.op with
      | waitOnChild hub card child =>
        have same : (fun id => board.Waits id ∨ event.BeginsWait board id) =
            fun other => board.Waits other ∨ other = card := by
          funext other
          refine propext (or_congr Iff.rfl ⟨?_, ?_⟩)
          · rintro ⟨_, _, _, op, _⟩
            rw [asked] at op
            cases op
            rfl
          · rintro rfl
            exact ⟨hub, child, next, asked, done⟩
        rw [same]
        rw [Event.reply, asked] at done
        exact waitStep_wait resting done
      | _ =>
        rw [asked] at waits
        cases waits
    · have others := Bool.not_eq_true _ ▸ waits
      refine quiet (waitStep_quiet resting others done) ?_
      rintro id ⟨_, _, _, op, _⟩
      rw [op] at others
      cases others

end Steps

end OHHive.LocalHub
