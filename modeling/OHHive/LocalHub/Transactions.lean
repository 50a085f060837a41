import OHHive.LocalHub.Slots

/-! Every transaction on the board moves every slot along a chain of moves. -/

namespace OHHive.LocalHub

open Foundation

variable {around : Surroundings} {board next : Board} {hub : Session} {id : CardId}
  {clock : Nat → Int} {event : Event}

/-- The caller's lease, as its ownership check found it. -/
structure HoldsLease (board : Board) (hub : Session) (id : CardId) (now : Int) (lease : Lease) :
    Prop where
  stored : board.lease? id = some lease
  node : lease.nodeId = hub.node
  session : lease.session = hub.session
  live : now < lease.expires

theorem owns_ok {now : Int} {owned : Unit} (owner : owns board hub id now = .ok owned) :
    ∃ lease, HoldsLease board hub id now lease := by
  simp only [owns, require_eq_ok_iff, holdsLease, List.any_eq_true, Bool.and_eq_true,
    decide_eq_true_eq] at owner
  obtain ⟨lease, member, ⟨⟨same, node⟩, session⟩, live⟩ := owner
  exact ⟨lease, Board.lease?_eq_some_iff.mpr ⟨member, same⟩, node, session, live⟩

section Insertions

theorem slotMoves_insertCard {card : Card} (inserted : board.insertCard card = .ok next)
    (isOpen : card.status.isOpen) (id : CardId) :
    SlotMoves event board (board.slot id) (next.slot id) := by
  obtain ⟨absent, slots⟩ := Board.slot_insertCard inserted
  rw [slots id]
  by_cases same : card.id = id
  · subst same
    simp only [Board.slot, absent, if_true]
    exact .single (.created card _ _ isOpen)
  · exact SlotMoves.of_eq (by simp [Board.slot, same])

theorem slotMoves_addCard {card : ClaimedCard} (done : addCard board card = .ok next)
    (id : CardId) : SlotMoves event board (board.slot id) (next.slot id) := by
  simp only [addCard, bind_eq_ok_iff] at done
  obtain ⟨_, _, inserted⟩ := done
  exact slotMoves_insertCard inserted rfl id

/-- A staged task waits on the board already, or is a new card. -/
theorem stagePrivateCodeTask_ok {card : ClaimedCard}
    (done : stagePrivateCodeTask board card = .ok next) :
    board = next ∨ board.insertCard ⟨card, .blocked, some waiting⟩ = .ok next := by
  unfold stagePrivateCodeTask at done
  split at done
  · obtain ⟨_, _, done⟩ := bind_eq_ok_iff.mp done
    exact Or.inl (pure_eq_ok_iff.mp done)
  · obtain ⟨_, _, inserted⟩ := bind_eq_ok_iff.mp done
    exact Or.inr inserted

theorem slotMoves_stage {card : ClaimedCard}
    (done : stagePrivateCodeTask board card = .ok next) (id : CardId) :
    SlotMoves event board (board.slot id) (next.slot id) := by
  rcases stagePrivateCodeTask_ok done with rfl | inserted
  · exact .refl
  · exact slotMoves_insertCard inserted rfl id

/-- A spawned child is new and linked to its parent, or the board stays as it was. -/
theorem spawnChildCard_ok {parent child : CardId} {card : ClaimedCard}
    (done : spawnChildCard board hub parent card clock = .ok (next, child)) :
    (∃ lease, HoldsLease board hub parent (clock 0) lease) ∧
      (board = next ∨ ∃ card, ∃ inserted : Board, ∃ childLinks, card.status = .ready ∧
        board.insertCard card = .ok inserted ∧
        inserted.childLinks.insert? ⟨parent, card.id⟩ = some childLinks ∧
        { inserted with childLinks } = next) := by
  simp only [spawnChildCard, bind_eq_ok_iff] at done
  obtain ⟨_, owner, holder, _, _, _, body⟩ := done
  refine ⟨owns_ok owner, ?_⟩
  split at body
  · simp only [bind_eq_ok_iff, pure_eq_ok_iff, Prod.mk.injEq] at body
    obtain ⟨_, _, rfl, _⟩ := body
    exact Or.inl rfl
  · simp only [bind_eq_ok_iff, orFail_eq_ok_iff, pure_eq_ok_iff, Prod.mk.injEq] at body
    obtain ⟨inserted, added, childLinks, linked, rfl, _⟩ := body
    exact Or.inr ⟨_, inserted, childLinks, rfl, added, linked, rfl⟩

theorem slotMoves_spawn {parent child : CardId} {card : ClaimedCard}
    (done : spawnChildCard board hub parent card clock = .ok (next, child)) (id : CardId) :
    SlotMoves event board (board.slot id) (next.slot id) := by
  obtain ⟨_, rfl | ⟨card, inserted, _, ready, added, _, rfl⟩⟩ := spawnChildCard_ok done
  · exact .refl
  · have moves : SlotMoves event board (board.slot id) (inserted.slot id) :=
      slotMoves_insertCard added (by rw [ready]; rfl) id
    exact moves

end Insertions

section Leases

/-- A lease given up with its card moved: only that slot changes. -/
theorem slot_giveUp (board : Board) (given : CardId) (change : Card → Card) (fixed)
    (id : CardId) :
    (board.giveUp given change fixed).slot id =
      if id = given then ⟨(board.card? id).map change, none, board.output? id⟩
      else board.slot id := by
  have card := board.slot_updateCard given change fixed id
  rw [Board.giveUp, Board.slot_deleteLeases, card]
  have leases : Board.lease? (board.updateCards (fun card => card.id = given) change fixed) id =
      board.lease? id := rfl
  have owner : ∀ lease, board.lease? id = some lease → lease.cardId = id :=
    fun lease found => (Board.lease?_eq_some_iff.mp found).2
  rw [leases]
  by_cases same : id = given
  · have lease : (board.lease? id).filter (fun lease => !decide (lease.cardId = given)) = none := by
      rw [Option.filter_eq_none_iff]
      intro lease found
      simp [owner lease found, same]
    rw [lease, if_pos same, if_pos same]
    rfl
  · have lease : (board.lease? id).filter (fun lease => !decide (lease.cardId = given)) =
        board.lease? id := by
      cases found : board.lease? id with
      | none => rfl
      | some lease => simp [owner lease found, same]
    rw [lease, if_neg same, if_neg same]
    rfl

/-- The leases left after giving one up are the others of the board. -/
theorem settles_giveUp {stored : Board} {given : CardId} {change : Card → Card} {fixed}
    (leases : stored.leases = board.leases) (commits : ∃ next, event.reply board = .ok next)
    (readings : event.settling board = some (event.clock 1, event.clock 2, some given)) :
    Settles event board (stored.giveUp given change fixed) (event.clock 1) (event.clock 2)
      (some given) := by
  refine ⟨commits, readings, ?_, fun monotone => monotone (by decide)⟩
  intro lease member
  have kept : lease ∈ stored.leases.rows.filter
      (fun lease => !decide (lease.cardId = given)) := member
  rw [leases] at kept
  obtain ⟨inBoard, other⟩ := List.mem_filter.mp kept
  refine ⟨inBoard, ?_⟩
  intro same
  rw [Option.some.inj same] at other
  simp at other

/-- The holder of a lease gives its card up, and the card stays open. -/
theorem slotMoves_giveUp {now : Int} {lease : Lease} {change : Card → Card} {fixed}
    (holds : HoldsLease board hub id now lease) (isOpen : ∀ card, (change card).status.isOpen)
    (other : CardId) :
    SlotMoves event board (board.slot other) ((board.giveUp id change fixed).slot other) := by
  rw [slot_giveUp]
  split
  · rename_i same
    subst same
    rw [Board.slot, holds.stored]
    refine .single (.ended _ _ lease _ ?_ Option.isSome_map)
    intro card member
    obtain ⟨before, _, rfl⟩ := Option.map_eq_some_iff.mp member
    exact isOpen before
  · exact .refl

theorem slotMoves_end {reason : String} {status : CardStatus} (isOpen : status.isOpen)
    (commits : ∃ next, event.reply board = .ok next)
    (readings : event.settling board = some (event.clock 1, event.clock 2, some id))
    (done : endCard board hub id reason status event.clock = .ok next) (other : CardId) :
    SlotMoves event board (board.slot other) (next.slot other) := by
  simp only [endCard, bind_eq_ok_iff, pure_eq_ok_iff] at done
  obtain ⟨_, owner, rfl⟩ := done
  obtain ⟨lease, holds⟩ := owns_ok owner
  refine Relation.ReflTransGen.trans (slotMoves_giveUp holds ?_ other)
    (slotMoves_settle (settles_giveUp rfl commits readings) other)
  exact fun _ => isOpen

theorem slotMoves_wait {child : CardId} (commits : ∃ next, event.reply board = .ok next)
    (readings : event.settling board = some (event.clock 1, event.clock 2, some id))
    (done : waitOnChild board hub id child event.clock = .ok next) (other : CardId) :
    SlotMoves event board (board.slot other) (next.slot other) := by
  simp only [waitOnChild, bind_eq_ok_iff, pure_eq_ok_iff] at done
  obtain ⟨_, owner, _, _, _, _, awaited, _, rfl⟩ := done
  obtain ⟨lease, holds⟩ := owns_ok owner
  refine Relation.ReflTransGen.trans (slotMoves_giveUp holds ?_ other)
    (slotMoves_settle (settles_giveUp rfl commits readings) other)
  exact fun _ => rfl

/-- A completion is a replay of the stored one, or it stores the output of the caller's lease. -/
theorem completeCard_ok {content : String} {model : Option String} {usage : Usage}
    (done : completeCard board hub id content model usage clock = .ok next) :
    (board.output? id = some ⟨id, hub.node, hub.session, content, model, usage⟩ ∧ next = board) ∨
    ∃ lease, ∃ stored : Board, board.output? id = none ∧
      HoldsLease board hub id (clock 0) lease ∧
      CardOutput.Accepted ⟨id, hub.node, hub.session, content, model, usage⟩ ∧
      board.insertOutput ⟨id, hub.node, hub.session, content, model, usage⟩ = .ok stored ∧
      next = settle (stored.giveUp id Card.reviewed Card.identity_reviewed) (clock 1)
        (clock 2) := by
  simp only [completeCard, bind_eq_ok_iff, require_eq_ok_iff, exists_const] at done
  obtain ⟨_, checked, size, body⟩ := done
  split at body
  · rename_i stored found
    simp only [bind_eq_ok_iff, require_eq_ok_iff, exists_const, pure_eq_ok_iff] at body
    obtain ⟨rfl, rfl⟩ := body
    exact Or.inl ⟨found, rfl⟩
  · rename_i absent
    simp only [bind_eq_ok_iff, pure_eq_ok_iff] at body
    obtain ⟨_, owner, stored, inserted, rfl⟩ := body
    obtain ⟨lease, holds⟩ := owns_ok owner
    exact Or.inr ⟨lease, stored, absent, holds, ⟨checked, size⟩, inserted, rfl⟩

theorem leases_of_insertOutput {output : CardOutput} {stored : Board}
    (inserted : board.insertOutput output = .ok stored) : stored.leases = board.leases := by
  simp only [Board.insertOutput, bind_eq_ok_iff, orFail_eq_ok_iff, pure_eq_ok_iff] at inserted
  obtain ⟨_, _, rfl⟩ := inserted
  rfl

theorem slotMoves_complete {content : String} {model : Option String} {usage : Usage}
    (commits : ∃ next, event.reply board = .ok next)
    (readings : board.output? id = none →
      event.settling board = some (event.clock 1, event.clock 2, some id))
    (done : completeCard board hub id content model usage event.clock = .ok next)
    (other : CardId) : SlotMoves event board (board.slot other) (next.slot other) := by
  rcases completeCard_ok done with
    ⟨_, rfl⟩ | ⟨lease, stored, absent, holds, accepted, inserted, rfl⟩
  · exact .refl
  · refine Relation.ReflTransGen.trans ?_ (slotMoves_settle
      (settles_giveUp (leases_of_insertOutput inserted) commits (readings absent)) other)
    have slots := Board.slot_insertOutput inserted other
    rw [slot_giveUp]
    split
    · rename_i same
      subst same
      have card : stored.card? other = board.card? other := congrArg Slot.card slots
      have output := congrArg Slot.output slots
      simp only [Board.slot, if_true] at output
      rw [card, output, Board.slot, holds.stored, absent]
      exact .single (.completed _ lease _ accepted)
    · rename_i different
      apply SlotMoves.of_eq
      rw [slots, if_neg (fun same => different same.symm)]
      rfl

theorem slotMoves_extend {start : Board} (selects : Lease → Bool) (now : Int) (board : Board)
    (id : CardId) :
    SlotMoves event start (board.slot id) ((board.extendLeases selects now).slot id) := by
  rw [Board.slot_extendLeases]
  cases held : board.lease? id with
  | none => exact SlotMoves.of_eq (by simp [Board.slot, held])
  | some lease =>
    by_cases selected : selects lease = true
    · simp only [Board.slot, held, Option.map_some, selected, if_true]
      exact .single (.extended _ lease _ _)
    · exact SlotMoves.of_eq (by simp [Board.slot, held, selected])

theorem slot_saveCheckpoint (board : Board) (saved : Checkpoint) (id : CardId) :
    (saveCheckpoint board saved).slot id = board.slot id := by
  unfold saveCheckpoint
  split <;> rfl

/-- A checkpoint needs the caller's live lease and extends it. -/
theorem checkpoint_ok {step : Nat} {state : String} {usage : Usage}
    (done : checkpoint board hub id step state usage clock = .ok next) :
    (∃ lease, HoldsLease board hub id (clock 0) lease) ∧
      next = (saveCheckpoint board ⟨id, step, state, usage⟩).extendLeases
        (fun lease => lease.cardId = id) (clock 1) := by
  simp only [checkpoint, bind_eq_ok_iff, pure_eq_ok_iff] at done
  obtain ⟨_, _, _, _, _, owner, rfl⟩ := done
  exact ⟨owns_ok owner, rfl⟩

theorem slotMoves_checkpoint {step : Nat} {state : String} {usage : Usage}
    (done : checkpoint board hub id step state usage clock = .ok next) (other : CardId) :
    SlotMoves event board (board.slot other) (next.slot other) := by
  obtain ⟨_, rfl⟩ := checkpoint_ok done
  rw [← slot_saveCheckpoint board ⟨id, step, state, usage⟩ other]
  exact slotMoves_extend _ _ _ other

theorem settles_first (commits : ∃ next, event.reply board = .ok next)
    (readings : event.settling board = some (event.clock 0, event.clock 1, none)) :
    Settles event board board (event.clock 0) (event.clock 1) none :=
  ⟨commits, readings, fun _ member => ⟨member, Option.some_ne_none _⟩,
    fun monotone => monotone (by decide)⟩

theorem slotMoves_heartbeat (commits : ∃ next, event.reply board = .ok next)
    (readings : event.settling board = some (event.clock 0, event.clock 1, none)) (id : CardId) :
    SlotMoves event board (board.slot id) ((heartbeat board hub event.clock).slot id) :=
  (slotMoves_settle (settles_first commits readings) id).trans (slotMoves_extend _ _ _ id)

end Leases

section Claims

/-- The lease a claim returned is the one it stored, for a card that was ready. -/
structure LeasedTo (settled next : Board) (hub : Session) (card : Card) (now : Int) : Prop where
  stored : card ∈ settled.cards.rows
  ready : card.status = .ready
  free : settled.lease? card.id = none
  slots : ∀ id, next.slot id =
    if id = card.id then
      ⟨some (card.moved .running none),
        some ⟨card.id, hub.node, hub.session, now + leaseTtl card.data, leaseTtl card.data⟩,
        settled.output? id⟩
    else settled.slot id

theorem slot_startRun (board : Board) (hub : Session) (id : CardId) :
    (startRun board hub).slot id = board.slot id := by
  unfold startRun
  split <;> rfl

theorem leaseCard_ok {settled : Board} {card : Card} {outputs : List (String × String)}
    {now : Int} {reply : Claim} (stored : card ∈ settled.cards.rows) (ready : card.status = .ready)
    (done : leaseCard settled hub card.data outputs now = .ok (next, reply)) :
    LeasedTo settled next hub card now := by
  simp only [leaseCard, bind_eq_ok_iff, pure_eq_ok_iff, Prod.mk.injEq] at done
  obtain ⟨_, _, leased, inserted, rfl, _⟩ := done
  obtain ⟨free, slots⟩ := Board.slot_insertLease inserted
  refine ⟨stored, ready, free, ?_⟩
  intro id
  have moved := leased.slot_updateCard card.id (Card.moved .running none)
    (Card.identity_moved _ _) id
  rw [slot_startRun]
  refine moved.trans ?_
  have card? : leased.card? id = settled.card? id := congrArg Slot.card (slots id)
  rw [card?, slots id]
  by_cases same : id = card.id
  · subst same
    have found : settled.card? card.id = some card := Board.card?_eq_some_iff.mpr ⟨stored, rfl⟩
    have key : card.data.id = card.id := rfl
    simp only [found, Option.map_some, key, if_true, Board.slot]
  · have key : card.data.id ≠ id := fun equal => same equal.symm
    simp only [if_neg same, if_neg key]
    rfl

theorem claimFirst_ok {settled : Board} {caps : Capabilities} {now : Int} {cards : List Card}
    {reply : Claim} (stored : ∀ card ∈ cards, card ∈ settled.cards.rows ∧ card.status = .ready)
    (done : claimFirst around settled hub caps now cards = .ok (next, reply)) :
    next = settled ∨ ∃ card, LeasedTo settled next hub card now := by
  induction cards with
  | nil =>
    obtain ⟨rfl, _⟩ := Prod.mk.inj (Except.ok.inj done)
    exact Or.inl rfl
  | cons card rest ih =>
    simp only [claimFirst, bind_eq_ok_iff] at done
    obtain ⟨outputs, _, body⟩ := done
    cases outputs with
    | none => exact ih (fun card member => stored card (List.mem_cons_of_mem _ member)) body
    | some outputs =>
      obtain ⟨inBoard, ready⟩ := stored card (by simp)
      exact Or.inr ⟨card, leaseCard_ok inBoard ready body⟩

/-- A claim settles the board and leases at most one ready card. -/
theorem claimCard_ok {reply : Claim}
    (done : claimCard around board hub clock = .ok (next, reply)) :
    next = settle board (clock 0) (clock 1) ∨
      ∃ card, LeasedTo (settle board (clock 0) (clock 1)) next hub card (clock 2) := by
  simp only [claimCard, bind_eq_ok_iff] at done
  obtain ⟨node, _, body⟩ := done
  split at body
  · unfold claimSettled at body
    split at body
    · obtain ⟨rfl, _⟩ := Prod.mk.inj (Except.ok.inj body)
      exact Or.inl rfl
    · apply claimFirst_ok _ body
      intro card member
      obtain ⟨inBoard, ready⟩ := List.mem_filter.mp member
      exact ⟨inBoard, of_decide_eq_true ready⟩
  · obtain ⟨rfl, _⟩ := Prod.mk.inj (Except.ok.inj body)
    exact Or.inl rfl

theorem slotMoves_claim {reply : Claim} (asked : event.op = .claimCard hub)
    (commits : ∃ next, event.reply board = .ok next)
    (done : claimCard around board hub event.clock = .ok (next, reply)) (id : CardId) :
    SlotMoves event board (board.slot id) (next.slot id) := by
  have readings : event.settling board = some (event.clock 0, event.clock 1, none) := by
    simp only [Event.settling, asked]
  have settled := slotMoves_settle (settles_first commits readings) id
  rcases claimCard_ok done with rfl | ⟨card, leased⟩
  · exact settled
  · refine settled.trans ?_
    rw [leased.slots id]
    split
    · rename_i same
      subst same
      have found : (settle board (event.clock 0) (event.clock 1)).card? card.id = some card :=
        Board.card?_eq_some_iff.mpr ⟨leased.stored, rfl⟩
      rw [Board.slot, found, leased.free]
      exact .single (.claimed hub card _ _ asked leased.ready rfl rfl)
    · exact .refl

end Claims

section PrivateRuns

theorem slotMoves_setStatus {start : Board} (selects : Card → Bool) (status : CardStatus)
    (reason : Option String) (isOpen : status.isOpen)
    (opens : ∀ card ∈ board.cards.rows, selects card = true → card.status.isOpen)
    (id : CardId) :
    SlotMoves event start (board.slot id) ((board.setStatus selects status reason).slot id) :=
  slotMoves_updateCards _ _ _ (fun card member selected => ⟨opens card member selected, isOpen⟩) id

theorem slotMoves_request {operation : OperationId} {task : CardId}
    (done : privateRunRequest around board hub operation task clock = .ok next) (id : CardId) :
    SlotMoves event board (board.slot id) (next.slot id) := by
  simp only [privateRunRequest, bind_eq_ok_iff] at done
  obtain ⟨_, _, _, _, preparation, _, _, _, body⟩ := done
  split at body
  · simp only [bind_eq_ok_iff, pure_eq_ok_iff] at body
    obtain ⟨_, _, _, _, rfl⟩ := body
    exact .refl
  · simp only [bind_eq_ok_iff, require_eq_ok_iff, exists_const, pure_eq_ok_iff] at body
    obtain ⟨⟨_, waits, _, _⟩, privateRuns, _, rfl⟩ := body
    obtain ⟨card, member, matched⟩ := List.any_eq_true.mp waits
    simp only [Bool.and_eq_true, decide_eq_true_eq] at matched
    obtain ⟨⟨same, blocked⟩, _⟩ := matched
    have frame : Board.slot { board with privateRuns } id = board.slot id := rfl
    rw [← frame]
    apply slotMoves_setStatus _ _ _ rfl
    intro other otherMember selected
    have found : board.card? task = some card := Board.card?_eq_some_iff.mpr ⟨member, same⟩
    have otherFound : board.card? task = some other :=
      Board.card?_eq_some_iff.mpr ⟨otherMember, of_decide_eq_true selected⟩
    rw [← Option.some.inj (found.symm.trans otherFound), blocked]
    rfl

theorem slotMoves_stop {operation : OperationId}
    (done : privateRunStop around board hub operation clock = .ok next) (id : CardId) :
    SlotMoves event board (board.slot id) (next.slot id) := by
  simp only [privateRunStop, bind_eq_ok_iff] at done
  obtain ⟨_, _, receipt, _, _, _, body⟩ := done
  split at body
  · obtain rfl := Except.ok.inj body
    exact .refl
  · obtain rfl := Except.ok.inj body
    have opens : ∀ card : Card, (decide (card.id = receipt.taskId) &&
        decide (card.status = .ready)) = true → card.status.isOpen := by
      intro card selected
      simp only [Bool.and_eq_true, decide_eq_true_eq] at selected
      rw [selected.2]
      rfl
    split
    · rename_i privateRunStops _
      have frame : Board.slot { board with privateRunStops } id = board.slot id := rfl
      rw [← frame]
      exact slotMoves_setStatus _ _ _ rfl (fun card _ => opens card) id
    · exact slotMoves_setStatus _ _ _ rfl (fun card _ => opens card) id

theorem slotMoves_ready {operation : OperationId}
    (done : privateRunReady around board hub operation clock = .ok next) (id : CardId) :
    SlotMoves event board (board.slot id) (next.slot id) := by
  simp only [privateRunReady, bind_eq_ok_iff, pure_eq_ok_iff] at done
  obtain ⟨_, _, receipt, _, _, _, _, _, rfl⟩ := done
  apply slotMoves_setStatus _ _ _ rfl
  intro card _ selected
  simp only [Bool.and_eq_true, decide_eq_true_eq] at selected
  rw [selected.1.2]
  rfl

theorem runStatus_ok {operation : OperationId} {now : Int} {receipt : PrivateRunStatus}
    (read : runStatus board operation now = .ok receipt) :
    ∃ card, board.card? receipt.taskId = some card := by
  simp only [runStatus, bind_eq_ok_iff, orFail_eq_ok_iff, pure_eq_ok_iff] at read
  obtain ⟨run, _, card, found, rfl⟩ := read
  exact ⟨card, found⟩

/-- A card in a safe state has no output and no live lease. -/
theorem safe_of_unsafeState {now : Int} (safe : unsafeState board id now = false) :
    board.output? id = none ∧ ∀ lease, board.lease? id = some lease → lease.expires ≤ now := by
  simp only [unsafeState, Bool.or_eq_false_iff] at safe
  obtain ⟨⟨⟨leases, output⟩, _⟩, _⟩ := safe
  refine ⟨by simpa using output, ?_⟩
  intro lease found
  obtain ⟨member, same⟩ := Board.lease?_eq_some_iff.mp found
  have expired := List.any_eq_false.mp leases lease member
  simp only [same, decide_true, Bool.true_and, decide_eq_true_eq] at expired
  exact Int.not_lt.mp expired

theorem slotMoves_retry {previous later : OperationId}
    (done : privateRunRetry around board hub previous later event.clock = .ok next)
    (id : CardId) : SlotMoves event board (board.slot id) (next.slot id) := by
  simp only [privateRunRetry, bind_eq_ok_iff] at done
  obtain ⟨_, _, _, _, prior, read, _, _, body⟩ := done
  split at body
  · simp only [bind_eq_ok_iff, pure_eq_ok_iff] at body
    obtain ⟨_, _, rfl⟩ := body
    exact .refl
  · simp only [bind_eq_ok_iff, require_eq_ok_iff, exists_const, pure_eq_ok_iff] at body
    obtain ⟨_, safe, privateRuns, _, privateRunRetries, _, rfl⟩ := body
    obtain ⟨card, found⟩ := runStatus_ok read
    obtain ⟨unfinished, expired⟩ := safe_of_unsafeState safe
    have moved := (Board.deleteLeases { board with privateRuns, privateRunRetries } (fun lease =>
      lease.cardId = prior.taskId && lease.expires ≤ event.clock 4)).slot_updateCard
        prior.taskId (Card.moved .blocked (some "awaiting_retry_validation"))
        (Card.identity_moved _ _) id
    have swept := Board.slot_deleteLeases { board with privateRuns, privateRunRetries }
      (fun lease => lease.cardId = prior.taskId && lease.expires ≤ event.clock 4) id
    have frame : Board.slot { board with privateRuns, privateRunRetries } id = board.slot id := rfl
    have leases : Board.lease? { board with privateRuns, privateRunRetries } id =
        board.lease? id := rfl
    have cards : Board.card? (Board.deleteLeases { board with privateRuns, privateRunRetries }
        (fun lease => lease.cardId = prior.taskId && lease.expires ≤ event.clock 4)) id =
        board.card? id := rfl
    rw [frame, leases] at swept
    rw [swept, cards] at moved
    refine Relation.ReflTransGen.trans ?_ (SlotMoves.of_eq moved)
    have owner : ∀ lease, board.lease? id = some lease → lease.cardId = id :=
      fun lease held => (Board.lease?_eq_some_iff.mp held).2
    by_cases same : id = prior.taskId
    · subst same
      simp only [if_true, found, Option.map_some, Board.slot, unfinished]
      cases held : board.lease? prior.taskId with
      | none => exact .single (.retired card _ none rfl)
      | some lease =>
        by_cases late : lease.expires ≤ event.clock 4
        · simp only [Option.filter_some, owner lease held, late, decide_true, Bool.and_self,
            Bool.not_true, Bool.false_eq_true, if_false]
          exact .single (.retired card _ (some lease) rfl)
        · have turned : ¬ Monotone event.clock := by
            intro monotone
            have early := expired lease held
            have ordered : event.clock 1 ≤ event.clock 4 := monotone (by decide)
            omega
          simp only [Option.filter_some, late, decide_false, Bool.and_false, Bool.not_false, if_true]
          exact .single (.stranded card _ lease _ rfl turned)
    · apply SlotMoves.of_eq
      rw [if_neg same]
      cases held : board.lease? id with
      | none => simp [Board.slot, held]
      | some lease => simp [Board.slot, held, owner lease held, same]

end PrivateRuns

section CodeTasks

theorem privateTaskCard_ok {node : NodeId} {retry : Bool} {now : Int} {read : ClaimedCard}
    (done : privateTaskCard around board id node retry now = .ok read) :
    ∃ card, board.card? id = some card ∧
      (retry = true → unsafeState board id now = false) ∧
      (retry = false → card.status.isOpen) := by
  cases retry with
  | true =>
    simp only [privateTaskCard, bind_eq_ok_iff, orFail_eq_ok_iff, require_eq_ok_iff, exists_const,
      if_true] at done
    obtain ⟨card, found, _, safe, _⟩ := done
    exact ⟨card, found, fun _ => safe, fun same => by cases same⟩
  | false =>
    simp only [privateTaskCard, bind_eq_ok_iff, orFail_eq_ok_iff, require_eq_ok_iff, exists_const,
      Bool.false_eq_true, if_false] at done
    obtain ⟨card, found, waits, _⟩ := done
    refine ⟨card, found, (fun same => by cases same), fun _ => ?_⟩
    rcases waits with ready | ⟨blocked, _⟩
    · rw [ready]
      rfl
    · rw [blocked]
      rfl

/-- The card that a change selects by its identity is the stored one. -/
theorem card_of_selected {card stored : Card} (found : board.card? id = some card)
    (member : stored ∈ board.cards.rows) (selected : decide (stored.id = id) = true) :
    stored = card := by
  have same := Board.card?_eq_some_iff.mpr ⟨member, of_decide_eq_true selected⟩
  exact Option.some.inj (same.symm.trans found)

theorem slotMoves_publish {node : NodeId} {read : ClaimedCard} {workspace : String}
    (done : publishPrivateCodeTask around board id node read workspace clock = .ok next)
    (other : CardId) : SlotMoves event board (board.slot other) (next.slot other) := by
  simp only [publishPrivateCodeTask, bind_eq_ok_iff, pure_eq_ok_iff] at done
  obtain ⟨current, checked, _, _, rfl⟩ := done
  obtain ⟨card, found, _, opens⟩ := privateTaskCard_ok checked
  apply slotMoves_updateCards
  intro stored member selected
  obtain rfl := card_of_selected found member selected
  exact ⟨opens rfl, rfl⟩

theorem slotMoves_retryTask {node : NodeId} {read : ClaimedCard}
    (done : retryPrivateCodeTask around board id node read clock = .ok next) (other : CardId) :
    SlotMoves event board (board.slot other) (next.slot other) := by
  simp only [retryPrivateCodeTask, bind_eq_ok_iff, pure_eq_ok_iff] at done
  obtain ⟨current, checked, _, _, rfl⟩ := done
  obtain ⟨card, found, safe, _⟩ := privateTaskCard_ok checked
  obtain ⟨unfinished, _⟩ := safe_of_unsafeState (safe rfl)
  have moved := slot_giveUp board id (Card.moved .ready none) (Card.identity_moved _ _) other
  refine Relation.ReflTransGen.trans ?_ (SlotMoves.of_eq moved)
  split
  · rename_i same
    subst same
    rw [Board.slot, found, unfinished]
    exact .single (.retired card _ _ rfl)
  · exact .refl

theorem slotMoves_attest {workspace : String}
    (done : completePreparation board id workspace = .ok next) (other : CardId) :
    SlotMoves event board (board.slot other) (next.slot other) := by
  simp only [completePreparation, bind_eq_ok_iff, orFail_eq_ok_iff, require_eq_ok_iff,
    exists_const, pure_eq_ok_iff] at done
  obtain ⟨card, found, ⟨blocked, _⟩, rfl⟩ := done
  apply slotMoves_updateCards
  intro stored member selected
  obtain rfl := card_of_selected found member selected
  have isOpen : stored.status.isOpen := by
    rw [blocked]
    rfl
  exact ⟨isOpen, isOpen⟩

end CodeTasks

theorem ok_of_map {result : Result (Board × α)} (done : Prod.fst <$> result = .ok next) :
    ∃ reply, result = .ok (next, reply) := by
  obtain ⟨⟨_, reply⟩, stored, rfl⟩ := map_eq_ok_iff.mp done
  exact ⟨reply, stored⟩

/-- A transaction moves the slot of every card. -/
theorem slotMoves_step (event : Event) (board : Board) (id : CardId) :
    SlotMoves event board (board.slot id) ((board.step event).slot id) := by
  unfold Board.step
  split
  · rename_i next done
    have commits : ∃ next, event.reply board = .ok next := ⟨next, done⟩
    unfold Event.reply at done
    cases asked : event.op with
    | createProject project =>
      simp only [asked, Op.perform, createProject, bind_eq_ok_iff, pure_eq_ok_iff] at done
      obtain ⟨_, _, rfl⟩ := done
      exact .refl
    | enroll node =>
      simp only [asked, Op.perform, enroll, bind_eq_ok_iff, pure_eq_ok_iff] at done
      obtain ⟨_, _, rfl⟩ := done
      exact .refl
    | checkIn hub caps =>
      rw [asked] at done
      obtain rfl := Except.ok.inj done
      exact .refl
    | checkOut hub =>
      rw [asked] at done
      obtain rfl := Except.ok.inj done
      exact .refl
    | addCard card =>
      rw [asked] at done
      exact slotMoves_addCard done id
    | settle =>
      have readings : event.settling board = some (event.clock 0, event.clock 1, none) := by
        simp only [Event.settling, asked]
      rw [asked] at done
      obtain rfl := Except.ok.inj done
      exact slotMoves_settle (settles_first commits readings) id
    | claimCard hub =>
      rw [asked] at done
      obtain ⟨reply, claimed⟩ := ok_of_map done
      exact slotMoves_claim asked commits claimed id
    | heartbeat hub =>
      have readings : event.settling board = some (event.clock 0, event.clock 1, none) := by
        simp only [Event.settling, asked]
      rw [asked] at done
      obtain rfl := Except.ok.inj done
      exact slotMoves_heartbeat commits readings id
    | checkpoint hub card step state usage =>
      rw [asked] at done
      exact slotMoves_checkpoint done id
    | completeCard hub card content model usage =>
      have readings : board.output? card = none →
          event.settling board = some (event.clock 1, event.clock 2, some card) := by
        intro absent
        simp [Event.settling, asked, absent]
      rw [asked] at done
      exact slotMoves_complete commits readings done id
    | failCard hub card reason =>
      have readings : event.settling board = some (event.clock 1, event.clock 2, some card) := by
        simp only [Event.settling, asked]
      rw [asked] at done
      exact slotMoves_end rfl commits readings done id
    | releaseCard hub card reason =>
      have readings : event.settling board = some (event.clock 1, event.clock 2, some card) := by
        simp only [Event.settling, asked]
      simp only [asked, Op.perform, releaseCard, bind_eq_ok_iff] at done
      obtain ⟨stored, _, ended⟩ := done
      refine slotMoves_end ?_ commits readings ended id
      split <;> rfl
    | spawnChildCard hub parent child =>
      rw [asked] at done
      obtain ⟨reply, spawned⟩ := ok_of_map done
      exact slotMoves_spawn spawned id
    | waitOnChild hub card child =>
      have readings : event.settling board = some (event.clock 1, event.clock 2, some card) := by
        simp only [Event.settling, asked]
      rw [asked] at done
      exact slotMoves_wait commits readings done id
    | privateRunRequest hub operation task =>
      rw [asked] at done
      exact slotMoves_request done id
    | privateRunStop hub operation =>
      rw [asked] at done
      exact slotMoves_stop done id
    | privateRunRetry hub previous later =>
      rw [asked] at done
      exact slotMoves_retry done id
    | privateRunReady hub operation =>
      rw [asked] at done
      exact slotMoves_ready done id
    | stagePrivateCodeTask card =>
      rw [asked] at done
      exact slotMoves_stage done id
    | publishPrivateCodeTask card node read workspace =>
      rw [asked] at done
      exact slotMoves_publish done id
    | retryPrivateCodeTask card node read =>
      rw [asked] at done
      exact slotMoves_retryTask done id
    | completePreparation card workspace =>
      rw [asked] at done
      exact slotMoves_attest done id
  · exact .refl

end OHHive.LocalHub
