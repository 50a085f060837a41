import OHHive.LocalHub.Statements

/-! Settling the parents: after it no parent waits for a child that has failed, nor for children
that have all finished, whatever tree they form; and settling once more changes nothing. -/

namespace OHHive.LocalHub

open Foundation

section Rounds

variable {board : Board} {card child : Card} {id : CardId}

/-- A stored card that was spawned by another. -/
def Board.Spawned (board : Board) (parent : CardId) (child : Card) : Prop :=
  ⟨parent, child.id⟩ ∈ board.childLinks.rows ∧ child ∈ board.cards.rows

theorem hasBlockedChild_iff :
    hasBlockedChild board card = true ↔ card.status = .waitingOnChild ∧
      ∃ child, board.Spawned card.id child ∧ child.status = .blocked := by
  unfold hasBlockedChild Board.Spawned
  simp only [Bool.and_eq_true, decide_eq_true_eq, List.any_eq_true]
  constructor
  · rintro ⟨waits, ⟨parent, named⟩, linked, rfl, child, stored, rfl, blocked⟩
    exact ⟨waits, child, ⟨linked, stored⟩, blocked⟩
  · rintro ⟨waits, child, ⟨linked, stored⟩, blocked⟩
    exact ⟨waits, _, linked, rfl, child, stored, rfl, blocked⟩

theorem childrenFinished_iff :
    childrenFinished board card = true ↔ card.status = .waitingOnChild ∧
      ∀ child, board.Spawned card.id child → child.status.isFinished = true := by
  have finished : ∀ status : CardStatus,
      (status = .review ∨ status = .done) ↔ status.isFinished = true := by
    intro status
    cases status <;> simp [CardStatus.isFinished]
  unfold childrenFinished Board.Spawned
  simp only [Bool.and_eq_true, decide_eq_true_eq, Bool.not_eq_true', List.any_eq_false]
  constructor
  · rintro ⟨waits, none⟩
    refine ⟨waits, fun child ⟨linked, stored⟩ => ?_⟩
    by_contra unfinished
    apply none _ linked
    obtain ⟨first, second⟩ := not_or.mp (mt (finished child.status).mp unfinished)
    exact ⟨rfl, List.any_eq_true.mpr ⟨child, stored, by simp [first, second]⟩⟩
  · rintro ⟨waits, all⟩
    refine ⟨waits, ?_⟩
    rintro ⟨parent, named⟩ linked ⟨rfl, found⟩
    obtain ⟨child, stored, matched⟩ := List.any_eq_true.mp found
    simp only [Bool.and_eq_true, decide_eq_true_eq, Bool.not_eq_true', Bool.or_eq_false_iff,
      decide_eq_false_iff_not] at matched
    obtain ⟨rfl, unfinished⟩ := matched
    have ended := (finished child.status).mpr (all child ⟨linked, stored⟩)
    exact ended.elim unfinished.1 unfinished.2

/-- Fewer members pass a check after a change that makes none pass and stops one. -/
theorem countP_map_lt {α : Type} {passes : α → Bool} {change : α → α} {list : List α}
    (falls : ∀ member ∈ list, passes (change member) = true → passes member = true)
    (stops : ∃ member ∈ list, passes member = true ∧ passes (change member) = false) :
    (list.map change).countP passes < list.countP passes := by
  induction list with
  | nil =>
    obtain ⟨_, member, _⟩ := stops
    cases member
  | cons head rest ih =>
    obtain ⟨here, later⟩ := List.forall_mem_cons.mp falls
    have most : (rest.map change).countP passes ≤ rest.countP passes := by
      rw [List.countP_map]
      exact List.countP_mono_left fun member among passed => later member among passed
    rw [List.map_cons, List.countP_cons, List.countP_cons]
    obtain ⟨stopped, member, passed, changed⟩ := stops
    rcases List.mem_cons.mp member with rfl | among
    · rw [passed, changed]
      simp only [Bool.false_eq_true, if_false, if_true]
      omega
    · have fewer := ih later ⟨stopped, among, passed, changed⟩
      by_cases kept : passes (change head) = true
      · rw [if_pos kept, if_pos (here kept)]
        omega
      · rw [if_neg kept]
        omega

def Card.waits (card : Card) : Bool := card.status = .waitingOnChild

/-- The loop ends before its rounds do: each blocks a waiting card. -/
theorem unblocked_blockParents {rounds : Nat}
    (enough : board.cards.rows.countP Card.waits < rounds) :
    ∀ card ∈ (blockParents rounds board).cards.rows,
      hasBlockedChild (blockParents rounds board) card = false := by
  induction rounds generalizing board with
  | zero => exact absurd enough (Nat.not_lt_zero _)
  | succ rounds ih =>
    unfold blockParents
    by_cases any : board.cards.rows.any (hasBlockedChild board) = true
    · rw [if_pos any]
      apply ih
      have fewer : (board.setStatus (hasBlockedChild board) .blocked
          (some "child blocked")).cards.rows.countP Card.waits <
            board.cards.rows.countP Card.waits := by
        apply countP_map_lt
        · intro card _ waits
          by_cases failed : hasBlockedChild board card = true
          · rw [if_pos failed] at waits
            cases waits
          · rwa [if_neg failed] at waits
        · obtain ⟨card, stored, failed⟩ := List.any_eq_true.mp any
          refine ⟨card, stored, decide_eq_true (hasBlockedChild_iff.mp failed).1, ?_⟩
          rw [if_pos failed]
          rfl
      omega
    · rw [if_neg any]
      intro card stored
      by_contra failed
      exact any (List.any_eq_true.mpr ⟨card, stored, Bool.not_eq_false _ ▸ failed⟩)

end Rounds

section Settled

variable {board : Board} {card child : Card} {id : CardId}

/-- Every parent that waits has a child that has neither failed nor finished, and none that has
failed. -/
def Board.Settled (board : Board) : Prop :=
  ∀ card ∈ board.cards.rows, card.status = .waitingOnChild →
    (∀ child, board.Spawned card.id child → child.status ≠ .blocked) ∧
      ∃ child, board.Spawned card.id child ∧ child.status.isFinished = false

/-- What resuming a board's parents makes of a card. -/
def resumedIn (board : Board) (card : Card) : Card :=
  if childrenFinished board card then card.resumed else card

theorem rows_resumeParents (board : Board) :
    (resumeParents board).cards.rows = board.cards.rows.map (resumedIn board) := rfl

theorem id_resumedIn (board : Board) (card : Card) : (resumedIn board card).id = card.id := by
  unfold resumedIn
  split <;> rfl

/-- Resuming changes the status of waiting cards alone. -/
theorem status_resumedIn (board : Board) (card : Card) :
    (resumedIn board card).status = card.status ∨
      card.status = .waitingOnChild ∧ (resumedIn board card).status = .ready := by
  unfold resumedIn
  by_cases finished : childrenFinished board card = true
  · rw [if_pos finished]
    exact Or.inr ⟨(childrenFinished_iff.mp finished).1, rfl⟩
  · rw [if_neg finished]
    exact Or.inl rfl

/-- The children of a card after its board's parents are resumed. -/
theorem spawned_resumeParents_iff :
    (resumeParents board).Spawned id child ↔
      ∃ before, board.Spawned id before ∧ child = resumedIn board before := by
  unfold Board.Spawned
  rw [rows_resumeParents]
  constructor
  · rintro ⟨linked, stored⟩
    obtain ⟨before, held, rfl⟩ := List.mem_map.mp stored
    rw [id_resumedIn] at linked
    exact ⟨before, ⟨linked, held⟩, rfl⟩
  · rintro ⟨before, ⟨linked, held⟩, rfl⟩
    rw [id_resumedIn]
    exact ⟨linked, List.mem_map_of_mem held⟩

theorem blocked_resumedIn (board : Board) (card : Card) :
    (resumedIn board card).status = .blocked ↔ card.status = .blocked := by
  rcases status_resumedIn board card with same | ⟨waits, resumed⟩
  · rw [same]
  · rw [waits, resumed]
    exact ⟨nofun, nofun⟩

theorem finished_resumedIn (board : Board) (card : Card) :
    (resumedIn board card).status.isFinished = card.status.isFinished := by
  rcases status_resumedIn board card with same | ⟨waits, resumed⟩
  · rw [same]
  · rw [waits, resumed]
    rfl

/-- One settling leaves no parent waiting for a failed child, or for finished ones only. -/
theorem settled_settle (board : Board) (expiring deleting : Int) :
    (settle board expiring deleting).Settled := by
  have unblocked := unblocked_blockParents
    (Nat.lt_succ_of_le (List.countP_le_length (p := Card.waits)
      (l := (expireLeases board expiring deleting).cards.rows)))
  unfold settle
  dsimp only
  generalize blockParents ((expireLeases board expiring deleting).cards.rows.length + 1)
    (expireLeases board expiring deleting) = swept at unblocked
  intro card stored waits
  rw [rows_resumeParents] at stored
  obtain ⟨before, held, rfl⟩ := List.mem_map.mp stored
  rcases status_resumedIn swept before with same | ⟨_, resumed⟩
  · have waited : before.status = .waitingOnChild := same.symm.trans waits
    rw [id_resumedIn]
    constructor
    · intro child spawned blocked
      obtain ⟨early, was, rfl⟩ := spawned_resumeParents_iff.mp spawned
      have failed := hasBlockedChild_iff.mpr
        ⟨waited, early, was, (blocked_resumedIn swept early).mp blocked⟩
      rw [unblocked before held] at failed
      cases failed
    · by_contra none
      have finished : childrenFinished swept before = true := by
        refine childrenFinished_iff.mpr ⟨waited, fun child spawned => ?_⟩
        by_contra unfinished
        refine none ⟨resumedIn swept child,
          spawned_resumeParents_iff.mpr ⟨child, spawned, rfl⟩, ?_⟩
        rw [finished_resumedIn]
        exact Bool.not_eq_true _ ▸ unfinished
      rw [resumedIn, if_pos finished] at waits
      cases waits
  · rw [resumed] at waits
    cases waits

theorem updateCards_eq_self {selects : Card → Bool} {change : Card → Card} {fixed}
    (unselected : ∀ card ∈ board.cards.rows, selects card = false) :
    board.updateCards selects change fixed = board := by
  unfold Board.updateCards
  rw [Table.update_eq_self]
  intro card stored
  rw [unselected card stored]
  rfl

theorem deleteLeases_eq_self {selects : Lease → Bool}
    (unselected : ∀ lease ∈ board.leases.rows, selects lease = false) :
    board.deleteLeases selects = board := by
  have kept : board.leases.keep (fun lease => !selects lease) = board.leases := by
    cases same : board.leases
    rw [same] at unselected
    simp only [Table.keep, Table.mk.injEq, List.filter_eq_self]
    intro lease stored
    rw [unselected lease stored]
    rfl
  unfold Board.deleteLeases
  rw [kept]

theorem resumeParents_eq_self (settled : board.Settled) : resumeParents board = board := by
  apply updateCards_eq_self
  intro card stored
  by_contra finished
  obtain ⟨waits, all⟩ := childrenFinished_iff.mp (Bool.not_eq_false _ ▸ finished)
  obtain ⟨child, spawned, unfinished⟩ := (settled card stored waits).2
  rw [all child spawned] at unfinished
  cases unfinished

theorem blockParents_eq_self (settled : board.Settled) (rounds : Nat) :
    blockParents rounds board = board := by
  cases rounds with
  | zero => rfl
  | succ rounds =>
    rw [blockParents, if_neg]
    intro any
    obtain ⟨card, stored, failed⟩ := List.any_eq_true.mp any
    obtain ⟨waits, child, spawned, blocked⟩ := hasBlockedChild_iff.mp failed
    exact (settled card stored waits).1 child spawned blocked

/-- A settled board without expired leases stays as it is. -/
theorem settle_eq_self {expiring deleting : Int} (settled : board.Settled)
    (alive : ∀ lease ∈ board.leases.rows, expiring < lease.expires ∧ deleting < lease.expires) :
    settle board expiring deleting = board := by
  have unexpired : expireLeases board expiring deleting = board := by
    unfold expireLeases
    rw [updateCards_eq_self, deleteLeases_eq_self]
    · intro lease stored
      exact decide_eq_false (Int.not_le.mpr (alive lease stored).2)
    · intro card stored
      apply List.any_eq_false.mpr
      intro lease held
      simp [(alive lease held).1]
  unfold settle
  dsimp only
  rw [unexpired, blockParents_eq_self settled, resumeParents_eq_self settled]

/-- Settling is a fixpoint: settling again at the same time changes nothing. -/
theorem settle_settle {expiring deleting : Int} (ordered : expiring ≤ deleting) (board : Board) :
    settle (settle board expiring deleting) expiring deleting = settle board expiring deleting := by
  apply settle_eq_self (settled_settle board expiring deleting)
  intro lease held
  rw [leases_settle] at held
  have late : deleting < lease.expires := by
    simpa using (List.mem_filter.mp held).2
  exact ⟨lt_of_le_of_lt ordered late, late⟩

end Settled

end OHHive.LocalHub
