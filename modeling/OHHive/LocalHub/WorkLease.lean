import OHHive.LocalHub.LeaseAgreement

/-! Work on a card is exclusive: one session at a time holds its lease, and its completion is
stored once. -/

namespace OHHive.LocalHub

open Foundation

variable {event : Event} {board next : Board} {hub : Session} {id : CardId}

section Settling

/-- The loop that blocks parents writes cards only. -/
theorem blockParents_frame (rounds : Nat) (board : Board) :
    (blockParents rounds board).leases = board.leases ∧
      (blockParents rounds board).outputs = board.outputs := by
  induction rounds generalizing board with
  | zero => exact ⟨rfl, rfl⟩
  | succ rounds ih =>
    unfold blockParents
    split
    · exact ih _
    · exact ⟨rfl, rfl⟩

theorem leases_settle (board : Board) (expiring deleting : Int) :
    (settle board expiring deleting).leases = (expireLeases board expiring deleting).leases :=
  (blockParents_frame _ _).1

theorem outputs_settle (board : Board) (expiring deleting : Int) :
    (settle board expiring deleting).outputs = board.outputs :=
  (blockParents_frame _ _).2

/-- A settling leaves no lease that had expired at its second reading. -/
theorem live_of_settle {expiring deleting : Int} {lease : Lease}
    (member : lease ∈ (settle board expiring deleting).leases.rows) : deleting < lease.expires := by
  rw [leases_settle] at member
  obtain ⟨_, kept⟩ := List.mem_filter.mp member
  simpa using kept

end Settling

section Workers

/-- The session and the card of an operation that needs the card's lease. -/
def Op.worker : Op → Option (Session × CardId)
  | .checkpoint hub id _ _ _ => some (hub, id)
  | .completeCard hub id _ _ _ => some (hub, id)
  | .failCard hub id _ => some (hub, id)
  | .releaseCard hub id _ => some (hub, id)
  | .spawnChildCard hub parent _ => some (hub, parent)
  | .waitOnChild hub id _ => some (hub, id)
  | _ => none

theorem endCard_holds {reason : String} {status : CardStatus} {clock : Nat → Int}
    (done : endCard board hub id reason status clock = .ok next) :
    ∃ lease, HoldsLease board hub id (clock 0) lease := by
  simp only [endCard, bind_eq_ok_iff] at done
  obtain ⟨_, owner, _⟩ := done
  exact owns_ok owner

/-- A worker's operation leaves the board alone unless it holds the card's unexpired lease. -/
theorem step_worker (event : Event) (board : Board) (asked : event.op.worker = some (hub, id)) :
    board.step event = board ∨ ∃ lease, HoldsLease board hub id (event.clock 0) lease := by
  unfold Board.step
  split
  case h_2 => exact Or.inl rfl
  case h_1 next done =>
    unfold Event.reply at done
    cases op : event.op <;> rw [op] at asked done
    case checkpoint =>
      obtain ⟨rfl, rfl⟩ := Prod.mk.inj (Option.some.inj asked)
      exact Or.inr (checkpoint_ok done).1
    case completeCard =>
      obtain ⟨rfl, rfl⟩ := Prod.mk.inj (Option.some.inj asked)
      rcases completeCard_ok done with ⟨_, same⟩ | ⟨lease, _, _, holds, _⟩
      · exact Or.inl same
      · exact Or.inr ⟨lease, holds⟩
    case failCard =>
      obtain ⟨rfl, rfl⟩ := Prod.mk.inj (Option.some.inj asked)
      exact Or.inr (endCard_holds done)
    case releaseCard =>
      obtain ⟨rfl, rfl⟩ := Prod.mk.inj (Option.some.inj asked)
      simp only [Op.perform, releaseCard, bind_eq_ok_iff] at done
      obtain ⟨_, _, ended⟩ := done
      exact Or.inr (endCard_holds ended)
    case spawnChildCard =>
      obtain ⟨rfl, rfl⟩ := Prod.mk.inj (Option.some.inj asked)
      obtain ⟨_, spawned⟩ := ok_of_map done
      exact Or.inr (spawnChildCard_ok spawned).1
    case waitOnChild =>
      obtain ⟨rfl, rfl⟩ := Prod.mk.inj (Option.some.inj asked)
      simp only [Op.perform, waitOnChild, bind_eq_ok_iff] at done
      obtain ⟨_, owner, _⟩ := done
      exact Or.inr (owns_ok owner)
    all_goals cases asked

end Workers

section Outputs

theorem SlotMove.output_kept {before after : Slot} (move : SlotMove event board before after)
    {output : CardOutput} (stored : before.output = some output) : after.output = some output := by
  cases move with
  | completed card lease output accepted => cases stored
  | retired card later lease open' => cases stored
  | _ => exact stored

theorem SlotMove.accepted {before after : Slot} (move : SlotMove event board before after)
    (accepted : ∀ output ∈ before.output, output.Accepted) :
    ∀ output ∈ after.output, output.Accepted := by
  cases move with
  | completed card lease output passed =>
    intro stored same
    obtain rfl := Option.some.inj same
    exact passed
  | _ => exact accepted

theorem output_kept_step (event : Event) (board : Board) {output : CardOutput}
    (stored : board.output? id = some output) : (board.step event).output? id = some output := by
  have moves := slotMoves_step event board id
  change (board.slot id).output = some output at stored
  change ((board.step event).slot id).output = some output
  generalize (board.step event).slot id = after at moves
  induction moves with
  | refl => exact stored
  | tail _ move ih => exact move.output_kept ih

theorem accepted_step (event : Event) (board : Board)
    (accepted : ∀ id, ∀ output ∈ (board.slot id).output, output.Accepted) :
    ∀ id, ∀ output ∈ ((board.step event).slot id).output, output.Accepted := by
  intro id
  have moves := slotMoves_step event board id
  generalize (board.step event).slot id = after at moves
  induction moves with
  | refl => exact accepted id
  | tail _ move ih => exact move.accepted ih

theorem output_kept_run (events : List Event) {first second : Nat} (ordered : first ≤ second)
    {output : CardOutput} (stored : (boardAt events first).output? id = some output) :
    (boardAt events second).output? id = some output := by
  have relates := stateAt_relates Board.step Board.empty
    (fun earlier later => ∀ id output, earlier.output? id = some output →
      later.output? id = some output)
    (fun _ _ _ kept => kept)
    (fun _ _ _ before after id output kept => after id output (before id output kept))
    (fun board event _ _ kept => output_kept_step event board kept) events ordered
  exact relates id output stored

theorem accepted_run (events : List Event) (moment : Nat) {output : CardOutput}
    (stored : (boardAt events moment).output? id = some output) : output.Accepted := by
  have accepted := stateAt_invariant Board.step Board.empty events
    (fun board => ∀ id, ∀ output ∈ (board.slot id).output, output.Accepted)
    (fun _ _ found => nomatch found)
    (fun board event _ accepted => accepted_step event board accepted) moment
  exact accepted id output stored

/-- The row a completion stores. -/
def Session.output (hub : Session) (id : CardId) (content : String) (model : Option String)
    (usage : Usage) : CardOutput :=
  ⟨id, hub.node, hub.session, content, model, usage⟩

variable {content : String} {model : Option String} {usage : Usage} {clock : Nat → Int}

theorem completeCard_stores
    (done : completeCard board hub id content model usage clock = .ok next) :
    next.output? id = some (hub.output id content model usage) := by
  rcases completeCard_ok done with ⟨stored, rfl⟩ | ⟨lease, stored, _, _, _, inserted, rfl⟩
  · exact stored
  · have slots := congrArg Slot.output (Board.slot_insertOutput inserted id)
    simp only [Board.slot, if_true] at slots
    have kept : (settle (stored.giveUp id Card.reviewed Card.identity_reviewed) (clock 1)
        (clock 2)).output? id = stored.output? id := by
      unfold Board.output?
      rw [outputs_settle]
      rfl
    exact kept.trans slots

/-- The identical completion is answered, and changes nothing. -/
theorem completeCard_replay
    (stored : board.output? id = some (hub.output id content model usage))
    (accepted : (hub.output id content model usage).Accepted) :
    completeCard board hub id content model usage clock = .ok board := by
  have usageOk : checkUsage usage = .ok () := accepted.usage
  have sizeOk : content.utf8ByteSize ≤ maxOutputBytes := accepted.size
  simp only [completeCard, usageOk, stored, require, if_pos sizeOk, Session.output]
  rfl

/-- Any other completion of the card is refused. -/
theorem completeCard_conflict {output : CardOutput} (stored : board.output? id = some output)
    (other : output ≠ hub.output id content model usage) :
    ∃ reason, completeCard board hub id content model usage clock = .error (rejected reason) := by
  unfold completeCard checkUsage
  split
  · exact ⟨_, rfl⟩
  · by_cases size : content.utf8ByteSize ≤ maxOutputBytes
    · have differs : output ≠ ⟨id, hub.node, hub.session, content, model, usage⟩ := other
      simp only [require, if_pos size, stored, if_neg differs]
      exact ⟨_, rfl⟩
    · simp only [require, if_neg size]
      exact ⟨_, rfl⟩

end Outputs

section Leases

/-- The card of the slot is leased to this session of its node. -/
def Slot.LeasedBy (slot : Slot) (hub : Session) : Prop :=
  ∃ lease ∈ slot.lease, lease.nodeId = hub.node ∧ lease.session = hub.session

/-- The event is a claim by this session of its node. -/
def Event.ClaimsFor (event : Event) (hub : Session) : Prop :=
  ∃ claimer, event.op = .claimCard claimer ∧ claimer.node = hub.node ∧
    claimer.session = hub.session

theorem SlotMove.leasedBy {before after : Slot} (move : SlotMove event board before after)
    (leased : after.LeasedBy hub) : before.LeasedBy hub ∨ event.ClaimsFor hub := by
  obtain ⟨lease, held, node, session⟩ := leased
  cases move with
  | claimed claimer card lease output asked ready claimerNode claimerSession =>
    obtain rfl := Option.some.inj held
    exact Or.inr ⟨claimer, asked, claimerNode.symm.trans node, claimerSession.symm.trans session⟩
  | extended card earlier output expires =>
    obtain rfl := Option.some.inj held
    exact Or.inl ⟨earlier, rfl, node, session⟩
  | created card earlier output open' => exact Or.inl ⟨lease, held, node, session⟩
  | shifted card later earlier output open' after => exact Or.inl ⟨lease, held, node, session⟩
  | stranded card later earlier output open' turned => exact Or.inl ⟨lease, held, node, session⟩
  | _ => cases held

theorem leasedBy_step (leased : ((board.step event).slot id).LeasedBy hub) :
    (board.slot id).LeasedBy hub ∨ event.ClaimsFor hub := by
  have moves := slotMoves_step event board id
  generalize (board.step event).slot id = after at moves leased
  induction moves with
  | refl => exact Or.inl leased
  | tail _ move ih =>
    rcases move.leasedBy leased with before | claims
    · exact ih before
    · exact Or.inr claims

theorem HoldsLease.leasedBy {now : Int} {lease : Lease} (holds : HoldsLease board hub id now lease) :
    (board.slot id).LeasedBy hub :=
  ⟨lease, holds.stored, holds.node, holds.session⟩

/-- A lease that was gone is back only after a claim by its session. -/
theorem reclaimed_run (events : List Event) {first second : Nat} (ordered : first ≤ second)
    (gone : ¬ ((boardAt events first).slot id).LeasedBy hub)
    (back : ((boardAt events second).slot id).LeasedBy hub) :
    ∃ moment claim, first ≤ moment ∧ moment < second ∧ events[moment]? = some claim ∧
      claim.ClaimsFor hub ∧ ((boardAt events (moment + 1)).slot id).LeasedBy hub := by
  obtain ⟨entry, earlier, outside, inside⟩ := exists_last_entry
    (fun count => ((boardAt events (first + count)).slot id).LeasedBy hub) gone (second - first)
    (by rwa [Nat.add_sub_cancel' ordered])
  have leased : ((boardAt events (first + entry + 1)).slot id).LeasedBy hub :=
    inside (entry + 1) (by omega) (by omega)
  rcases stateAt_next Board.step Board.empty events (first + entry) with
    ⟨event, present, stepped⟩ | ⟨_, rested⟩
  · have moved := leased
    rw [boardAt, stepped] at moved
    rcases leasedBy_step moved with before | claims
    · exact absurd before outside
    · exact ⟨first + entry, event, by omega, by omega, present, claims, leased⟩
  · rw [boardAt, rested] at leased
    exact absurd leased outside

end Leases

section Runs

/-- A completion that was accepted at one moment of a run. -/
structure CompletedAt (events : List Event) (moment : Nat) (hub : Session) (id : CardId)
    (content : String) (model : Option String) (usage : Usage) : Prop where
  asked : ∃ event, events[moment]? = some event ∧
    event.op = .completeCard hub id content model usage ∧
    ∃ next, event.reply (boardAt events moment) = .ok next

theorem CompletedAt.stored {events : List Event} {moment later : Nat} {content : String}
    {model : Option String} {usage : Usage}
    (completed : CompletedAt events moment hub id content model usage) (after : moment < later) :
    (boardAt events later).output? id = some (hub.output id content model usage) := by
  obtain ⟨event, present, op, next, done⟩ := completed.asked
  have stepped : boardAt events (moment + 1) = next := by
    rw [boardAt, stateAt_succ Board.step Board.empty present, Board.step, done]
  apply output_kept_run events after
  rw [stepped]
  rw [Event.reply, op] at done
  exact completeCard_stores done

/-- Work on a card is exclusive throughout one run. -/
structure WorkLease (events : List Event) : Prop where
  one_per_card : ∀ moment id,
    (boardAt events moment).leases.rows.countP (fun lease => lease.cardId = id) ≤ 1
  one_per_node : ∀ moment node,
    (boardAt events moment).leases.rows.countP (fun lease => lease.nodeId = node) ≤ 1
  only_holder : ∀ moment event hub id, events[moment]? = some event →
    event.op.worker = some (hub, id) → boardAt events (moment + 1) ≠ boardAt events moment →
    ∃ lease, HoldsLease (boardAt events moment) hub id (event.clock 0) lease
  one_output : ∀ moment id,
    (boardAt events moment).outputs.rows.countP (fun output => output.cardId = id) ≤ 1
  output_kept : ∀ first second, first ≤ second → ∀ id output,
    (boardAt events first).output? id = some output →
    (boardAt events second).output? id = some output
  replay : ∀ first hub id content model usage,
    CompletedAt events first hub id content model usage → ∀ second, first < second →
    ∀ (event : Event) hub' content' model' usage',
    event.op = .completeCard hub' id content' model' usage' →
    hub'.output id content' model' usage' = hub.output id content model usage →
    event.reply (boardAt events second) = .ok (boardAt events second)
  conflict : ∀ first hub id content model usage,
    CompletedAt events first hub id content model usage → ∀ second, first < second →
    ∀ (event : Event) hub' content' model' usage',
    event.op = .completeCard hub' id content' model' usage' →
    hub'.output id content' model' usage' ≠ hub.output id content model usage →
    ∃ reason, event.reply (boardAt events second) = .error (rejected reason)
  swept : ∀ moment event, events[moment]? = some event → event.op = .settle →
    ∀ lease ∈ (boardAt events (moment + 1)).leases.rows, event.clock 1 < lease.expires
  reclaimed : ∀ first second, first ≤ second → ∀ hub id,
    ¬ ((boardAt events first).slot id).LeasedBy hub → ∀ event content model usage,
    events[second]? = some event → event.op = .completeCard hub id content model usage →
    boardAt events (second + 1) ≠ boardAt events second →
    ∃ moment claim, first ≤ moment ∧ moment < second ∧ events[moment]? = some claim ∧
      claim.ClaimsFor hub ∧ ((boardAt events (moment + 1)).slot id).LeasedBy hub

/-- At most one lease exists for a card and for a node, only its holder works on the card, the
card's completion is stored once, and a session whose lease is gone completes the card only after
claiming it again. -/
theorem work_lease (events : List Event) : WorkLease events := by
  have only : ∀ moment event hub id, events[moment]? = some event →
      event.op.worker = some (hub, id) → boardAt events (moment + 1) ≠ boardAt events moment →
      ∃ lease, HoldsLease (boardAt events moment) hub id (event.clock 0) lease := by
    intro moment event hub id present asked changed
    rw [boardAt, stateAt_succ Board.step Board.empty present] at changed
    exact (step_worker event _ asked).resolve_left changed
  constructor
  · exact fun moment id => Table.countP_le_one _ Lease.cardId (fun _ _ => Or.inl) id
  · exact fun moment node => Table.countP_le_one _ Lease.nodeId (fun _ _ => Or.inr) node
  · exact only
  · exact fun moment id => Table.countP_le_one _ CardOutput.cardId (fun _ _ same => same) id
  · exact fun first second ordered id output => output_kept_run events ordered
  · intro first hub id content model usage completed second after event hub' content' model'
      usage' op same
    have stored := completed.stored after
    rw [← same] at stored
    rw [Event.reply, op]
    exact completeCard_replay stored (accepted_run events second stored)
  · intro first hub id content model usage completed second after event hub' content' model'
      usage' op other
    rw [Event.reply, op]
    exact completeCard_conflict (completed.stored after) other.symm
  · intro moment event present op lease member
    rw [boardAt, stateAt_succ Board.step Board.empty present] at member
    have settled : Board.step (boardAt events moment) event =
        settle (boardAt events moment) (event.clock 0) (event.clock 1) := by
      simp only [Board.step, Event.reply, op, Op.perform]
    rw [settled] at member
    exact live_of_settle member
  · intro first second ordered hub id gone event content model usage present op changed
    obtain ⟨lease, holds⟩ := only second event hub id present (by rw [op]; rfl) changed
    exact reclaimed_run events ordered gone holds.leasedBy

end Runs

section Examples

def noUsage : Usage := ⟨0, 0, ⟨0⟩⟩

/-- The worker's lease expires and is settled, and the same session claims the card again. -/
def reclaimedEssay : List Event :=
  claimedEssay ++ [Op.settle.at 900, (Op.claimCard workerSession).at 901,
    (Op.completeCard workerSession essay.id "" none noUsage).at 902]

/-- The session whose lease expired and was settled does complete the card, after a new claim. -/
theorem completed_after_expiry :
    ¬ ∀ (events : List Event) (first second : Nat) (hub : Session) (id : CardId),
      first < second → ((boardAt events first).slot id).LeasedBy hub →
      (∃ event, events[first]? = some event ∧ event.op = .settle) →
      ¬ ((boardAt events (first + 1)).slot id).LeasedBy hub →
      ∀ event content model usage, events[second]? = some event →
        event.op = .completeCard hub id content model usage →
        boardAt events (second + 1) = boardAt events second := by
  intro never
  have same := never reclaimedEssay 5 7 workerSession essay.id (by decide)
    ⟨⟨7, "laptop", 2, 900, 900⟩, by decide, rfl, rfl⟩ ⟨_, rfl, rfl⟩
    (by
      rintro ⟨lease, held, _⟩
      have none : ((boardAt reclaimedEssay 6).slot essay.id).lease = none := by decide
      rw [none] at held
      cases held)
    _ "" none noUsage rfl rfl
  have outputs := congrArg (fun board => (Board.output? board essay.id).isSome) same
  revert outputs
  decide

end Examples

end OHHive.LocalHub
