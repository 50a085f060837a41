import OHHive.Cloud.Calls

/-! The calls of workers, reapers, admins and payers, each with the one move that it makes, and
what that says of a step. -/

namespace OHHive.Cloud

open Foundation

variable {hive next : Hive} {event : Event} {card : CardId} {node? : Option NodeId}

section Workers

theorem moves_checkpoint {step : Int} {state : String}
    (checked : hive.checkpoint event.around node? card step state = .ok next) :
    Moves event hive next := by
  simp only [Hive.checkpoint, bind_eq_ok_iff, orFail_eq_ok_iff, pure_eq_ok_iff] at checked
  obtain ⟨nid, _, lease, _, c, _, rfl⟩ := checked
  intro id
  let expiresAt := event.around.now + checkpointTtl c.modality
  let selects (lease : Lease) : Bool := lease.card = card && lease.node = nid
  have looked := Table.lookup_updateWhere hive.leases selects
    (fun lease => { lease with expiresAt }) (fun _ => rfl) id
  have slot : ({ hive with
      checkpoints := hive.checkpoints ++ [⟨card, nid, step, state⟩]
      leases := hive.leases.updateWhere selects (fun lease => { lease with expiresAt })
        fun _ => rfl } : Hive).slot id =
      { hive.slot id with
        lease := (hive.leases.lookup id).map fun lease =>
          if selects lease then { lease with expiresAt } else lease } := by
    rw [← looked]
    rfl
  rw [slot]
  cases found : hive.leases.lookup id with
  | none =>
    left
    simp [Hive.slot, found]
  | some lease =>
    by_cases selected : selects lease
    · right
      rw [Option.map_some, if_pos selected]
      exact .extended lease expiresAt found
    · left
      simp [Hive.slot, found, selected]

/-- A card that runs no more, and any other card as it is. -/
def Card.readied (card : Card) : Card :=
  if card.status = .running then card.moved .ready else card

theorem Card.readied_status (card : Card) : card.readied.status ≠ .running := by
  unfold Card.readied
  split
  · simp [Card.moved]
  · assumption

theorem Card.readied_revises (card : Card) : card.readied.Revises card := by
  unfold Card.readied
  split <;> exact ⟨rfl, rfl⟩

/-- Leases that end, and the cards that they leave. -/
theorem moves_readyAgain {selects : Lease → Bool} {reaped : List CardId}
    (ended : ∀ id, id ∈ reaped ↔ (hive.leases.lookup id).any selects) :
    Moves event hive ((hive.deleteLeases selects).readyAgain reaped) := by
  intro id
  have cards : ((hive.deleteLeases selects).cards.lookup id).map (fun row =>
      if id ∈ reaped ∧ row.status = .running then row.moved .ready else row) =
        if (hive.leases.lookup id).any selects then (hive.slot id).card.map Card.readied
        else (hive.slot id).card := by
    split
    · rename_i ends
      simp only [(ended id).mpr ends, true_and]
      rfl
    · rename_i stays
      simp only [mt (ended id).mp stays, false_and, if_false, Option.map_id']
      rfl
  rw [slot_readyAgain, slot_deleteLeases, cards]
  split
  · rename_i ends
    right
    obtain ⟨lease, leased, _⟩ := (Option.any_eq_true _ _).mp ends
    have move : SlotMove event id (hive.slot id) _ :=
      .ended lease Card.readied [] leased Card.readied_status Card.readied_revises
    rwa [List.append_nil] at move
  · exact Or.inl rfl

theorem moves_reap (hive : Hive) (event : Event) (selects : Lease → Bool) :
    Moves event hive ((hive.deleteLeases selects).readyAgain
      ((hive.leases.rows.filter selects).map Lease.card)) := by
  apply moves_readyAgain
  intro id
  rw [List.mem_map, Option.any_eq_true]
  constructor
  · rintro ⟨lease, member, rfl⟩
    obtain ⟨stored, selected⟩ := List.mem_filter.mp member
    exact ⟨lease, (hive.leases.lookup_eq_some_iff _ _).mpr ⟨stored, rfl⟩, selected⟩
  · rintro ⟨lease, found, selected⟩
    obtain ⟨stored, keyed⟩ := (hive.leases.lookup_eq_some_iff _ _).mp found
    exact ⟨lease, List.mem_filter.mpr ⟨stored, selected⟩, keyed⟩

theorem moves_release (released : hive.release node? card = .ok next) :
    Moves event hive next := by
  simp only [Hive.release, bind_eq_ok_iff, orFail_eq_ok_iff] at released
  obtain ⟨nid, _, rest⟩ := released
  split at rest
  · obtain rfl := Except.ok.inj rest
    exact fun id => Or.inl rfl
  · rename_i lease owned
    obtain rfl := Except.ok.inj rest
    obtain ⟨leased, _⟩ := leaseOf_ok owned
    apply moves_readyAgain
    intro id
    rw [List.mem_singleton]
    constructor
    · rintro rfl
      rw [leased]
      exact decide_eq_true (Table.key_of_lookup leased)
    · intro any
      obtain ⟨other, found, ofCard⟩ := (Option.any_eq_true _ _).mp any
      exact (Table.key_of_lookup found).symm.trans (of_decide_eq_true ofCard)

/-- A lease that ends with another status of its card. -/
theorem slot_stopped {lease : Lease} (leased : hive.leases.lookup card = some lease)
    (status : CardStatus) :
    ((hive.deleteLeases (·.card = card)).setStatus card status).slot card =
      { hive.slot card with
        card := (hive.slot card).card.map (·.moved status)
        lease := none
        holds := [] } := by
  have had : (hive.slot card).lease = some lease := leased
  rw [slot_setStatus, slot_deleteLease, if_pos rfl]
  simp only [had, Option.isSome_some, if_true]

theorem slot_unstopped {id : CardId} (other : id ≠ card) (status : CardStatus) :
    ((hive.deleteLeases (·.card = card)).setStatus card status).slot id = hive.slot id ∨
      Opens (hive.slot id)
        (((hive.deleteLeases (·.card = card)).setStatus card status).slot id) := by
  have free : (hive.deleteLeases (·.card = card)).slot id = hive.slot id := by
    rw [slot_deleteLease, if_neg other]
  rw [← free]
  exact slot_setStatus_other status other

theorem moves_waitOnChild {child : CardId}
    (waited : hive.waitOnChild node? card child = .ok next) : Moves event hive next := by
  simp only [Hive.waitOnChild, bind_eq_ok_iff, orFail_eq_ok_iff, require_eq_ok_iff, exists_const,
    pure_eq_ok_iff] at waited
  obtain ⟨nid, _, lease, owned, _, rfl⟩ := waited
  obtain ⟨leased, _⟩ := leaseOf_ok owned
  intro id
  by_cases same : id = card
  · subst same
    right
    have move : SlotMove event id (hive.slot id) _ :=
      .ended lease (·.moved .waitingOnChild) [] leased (by simp [Card.moved])
        (Card.moved_revises · _)
    rw [List.append_nil] at move
    rwa [slot_stopped leased]
  · exact (slot_unstopped same _).imp (fun kept => kept) fun opened => opened.move event _

theorem moves_failCard {reason : String} (failed : hive.failCard node? card reason = .ok next) :
    Moves event hive next := by
  simp only [Hive.failCard, bind_eq_ok_iff, orFail_eq_ok_iff, pure_eq_ok_iff] at failed
  obtain ⟨nid, _, lease, owned, rfl⟩ := failed
  obtain ⟨leased, _⟩ := leaseOf_ok owned
  intro id
  rw [slot_insertOutput]
  by_cases same : id = card
  · subst same
    right
    have move : SlotMove event id (hive.slot id) _ :=
      .ended lease (·.moved .blocked) [⟨id, some nid, "FAILED: " ++ reason⟩] leased
        (by simp [Card.moved]) (Card.moved_revises · _)
    rwa [slot_stopped leased, if_pos rfl]
  · rw [if_neg (Ne.symm same), List.append_nil]
    exact (slot_unstopped same _).imp (fun kept => kept) fun opened => opened.move event _

end Workers

section Admins

theorem administered_ok {c : Card} (found : hive.administered event.around card = .ok c) :
    hive.cards.lookup card = some c := by
  simp only [Hive.administered, bind_eq_ok_iff, orFail_eq_ok_iff, require_eq_ok_iff, exists_const,
    pure_eq_ok_iff] at found
  obtain ⟨row, stored, _, rfl⟩ := found
  exact stored

theorem moves_cardAccept (asked : event.op = .cardAccept card)
    (accepted : hive.cardAccept event.around card = .ok next) : Moves event hive next := by
  simp only [Hive.cardAccept, bind_eq_ok_iff] at accepted
  obtain ⟨c, administered, rest⟩ := accepted
  have stored := administered_ok administered
  split at rest
  · rename_i finished
    obtain rfl := Except.ok.inj rest
    exact moves_setStatus (fun _ _ => rfl) stored (.accepted c asked stored finished)
  · obtain rfl := Except.ok.inj rest
    exact fun id => Or.inl rfl

theorem moves_cardSendBack {note : String} (asked : event.op = .cardSendBack card note)
    (sent : hive.cardSendBack event.around card note = .ok next) : Moves event hive next := by
  simp only [Hive.cardSendBack, bind_eq_ok_iff, pure_eq_ok_iff] at sent
  obtain ⟨c, administered, rfl⟩ := sent
  have stored := administered_ok administered
  intro id
  let back (row : Card) : Card := { row with
    status := .ready
    inputs := if note = "" then row.inputs else row.inputs ++ "\n\nReviewer note: " ++ note }
  have looked := Table.lookup_updateWhere (hive.deleteLeases (·.card = card)).cards
    (fun row => row.id = card) back (fun _ => rfl) id
  have slot : ({ hive.deleteLeases (·.card = card) with
      cards := (hive.deleteLeases (·.card = card)).cards.updateWhere (fun row => row.id = card) back
        fun _ => rfl } : Hive).slot id =
      { (hive.deleteLeases (·.card = card)).slot id with
        card := (hive.cards.lookup id).map fun row =>
          if decide (row.id = card) then back row else row } := by
    refine Eq.trans ?_ (congrArg (fun card? =>
      { (hive.deleteLeases (·.card = card)).slot id with card := card? }) looked)
    rfl
  rw [slot, slot_deleteLease]
  by_cases same : id = card
  · subst same
    right
    have keyed : c.id = id := Table.key_of_lookup stored
    rw [if_pos rfl, stored, Option.map_some, if_pos (decide_eq_true keyed)]
    exact .sentBack c (back c) note asked stored rfl ⟨rfl, rfl⟩
  · left
    rw [if_neg same]
    cases found : hive.cards.lookup id with
    | none => simp [Hive.slot, found]
    | some row =>
      have keyed : row.id = id := Table.key_of_lookup found
      simp [Hive.slot, found, keyed, same]

theorem moves_cardPromote (promoted : hive.cardPromote event.around card = .ok next) :
    Moves event hive next := by
  simp only [Hive.cardPromote, bind_eq_ok_iff] at promoted
  obtain ⟨c, administered, rest⟩ := promoted
  have stored := administered_ok administered
  split at rest
  · rename_i suggested
    obtain rfl := Except.ok.inj rest
    apply moves_setStatus (fun _ _ => rfl) stored
    have move : SlotMove event card (hive.slot card) _ :=
      .opened c .ready [] stored (Or.inl suggested) (Or.inl rfl)
    rwa [List.append_nil] at move
  · obtain rfl := Except.ok.inj rest
    exact fun id => Or.inl rfl

end Admins

section Payers

theorem slot_createCard {new : NewCard} (created : hive.createCard new = .ok next) :
    (hive.slot new.card.id).card = none ∧ ∀ id, next.slot id =
      if id = new.card.id then { hive.slot id with card := some new.card } else hive.slot id := by
  simp only [Hive.createCard, bind_eq_ok_iff, orFail_eq_ok_iff, pure_eq_ok_iff] at created
  obtain ⟨cards, added, rfl⟩ := created
  obtain ⟨fits, _⟩ := Table.insert?_eq_some_iff.mp added
  refine ⟨(hive.cards.lookup_eq_none_iff _).mpr fits, fun id => ?_⟩
  have slot : ({ hive with cards } : Hive).slot id =
      { hive.slot id with card := cards.lookup id } := rfl
  rw [slot, Table.lookup_insert? added]
  by_cases same : id = new.card.id
  · rw [if_pos same.symm, if_pos same]
  · rw [if_neg (Ne.symm same), if_neg same]
    rfl

theorem moves_createCard {new : NewCard} (created : hive.createCard new = .ok next) :
    Moves event hive next := by
  obtain ⟨absent, slots⟩ := slot_createCard created
  intro id
  rw [slots]
  split
  · rename_i same
    subst same
    exact Or.inr (.created new _ absent (Or.inl rfl))
  · exact Or.inl rfl

/-- A budget that is frozen is the one there was, or a new one for a card that waits for work. -/
theorem freezeComputeBudget_ok {payer : AccountId} {limit : Option Numeric} {session : Option Uuid}
    {approvedAt : Time} (frozen : hive.freezeComputeBudget event.around card payer limit session
      approvedAt = .ok next) :
    (next = hive ∧ (hive.slot card).approval.isSome) ∨
    ∃ c q, (hive.slot card).card = some c ∧ (c.modality = .text ∨ c.modality = .code) ∧
      (hive.slot card).lease = none ∧ (hive.slot card).approval = none ∧
      Hive.limitOf limit = .ok ⟨Approval.limit q, q.positive⟩ ∧
      (0 ≤ q.inputRate ∧ 0 < q.outputRate) ∧
      ∀ id, next.slot id =
        if id = card then { hive.slot id with approval := some q } else hive.slot id := by
  simp only [Hive.freezeComputeBudget, bind_eq_ok_iff, orFail_eq_ok_iff, require_eq_ok_iff,
    exists_const] at frozen
  obtain ⟨amount, limited, c, stored, modality, rest⟩ := frozen
  split at rest
  · rename_i q found
    left
    simp only [bind_eq_ok_iff, require_eq_ok_iff, exists_const, pure_eq_ok_iff] at rest
    refine ⟨rest.2.symm, ?_⟩
    rw [show (hive.slot card).approval = some q from found]
    rfl
  · rename_i unapproved
    right
    simp only [bind_eq_ok_iff, orFail_eq_ok_iff, require_eq_ok_iff, exists_const,
      pure_eq_ok_iff] at rest
    obtain ⟨⟨_, free⟩, rates, current, user, _, approvals, added, rfl⟩ := rest
    have priced : 0 ≤ rates.1 ∧ 0 < rates.2 := by
      unfold Hive.currentRates at current
      split at current
      · simp only [bind_eq_ok_iff, require_eq_ok_iff, exists_const, pure_eq_ok_iff] at current
        obtain ⟨positive, rfl⟩ := current
        exact positive
      · cases current
    refine ⟨c, ⟨card, user, payer, amount.1, rates.1, rates.2, event.around.inputHash c, session,
      approvedAt, amount.2⟩, stored, modality, Option.isNone_iff_eq_none.mp free, unapproved,
      limited, priced, fun id => ?_⟩
    have slot : ({ hive with approvals } : Hive).slot id =
        { hive.slot id with approval := approvals.lookup id } := rfl
    rw [slot, Table.lookup_insert? added]
    by_cases same : id = card
    · rw [if_pos same.symm, if_pos same]
    · rw [if_neg (Ne.symm same), if_neg same]
      rfl

theorem moves_computeBudgetApprove {limit : Option Numeric}
    (approved : hive.computeBudgetApprove event.around card limit = .ok next) :
    Moves event hive next := by
  simp only [Hive.computeBudgetApprove, bind_eq_ok_iff] at approved
  obtain ⟨⟨c, p⟩, _, frozen⟩ := approved
  intro id
  rcases freezeComputeBudget_ok frozen with ⟨rfl, _⟩ | fresh
  · exact Or.inl rfl
  · obtain ⟨c, q, stored, modality, free, unapproved, _, rates, slots⟩ := fresh
    rw [slots]
    split
    · rename_i same
      subst same
      exact Or.inr (.approved c q stored free ⟨modality, rates, Or.inl unapproved⟩)
    · exact Or.inl rfl

/-- A frozen limit is the amount that was asked for. -/
theorem limitOf_ok {limit : Option Numeric} {amount : { limit : Int // 0 < limit }}
    (limited : Hive.limitOf limit = .ok amount) :
    ∃ value, limit = some (.finite value) ∧ (amount.1 : ℚ) = value := by
  unfold Hive.limitOf at limited
  split at limited
  · rename_i value
    split at limited
    · rename_i exact
      obtain rfl := Except.ok.inj limited
      exact ⟨value, rfl, exact.2⟩
    · cases limited
  · cases limited

theorem moves_computeBudgetReplace {limit : Option Numeric} {expectedApproval : Time}
    {expectedHash : String}
    (replaced : hive.computeBudgetReplace event.around card limit expectedApproval expectedHash =
      .ok next) : Moves event hive next := by
  simp only [Hive.computeBudgetReplace, bind_eq_ok_iff, orFail_eq_ok_iff, require_eq_ok_iff,
    exists_const] at replaced
  obtain ⟨⟨c, p⟩, _, b, _, _, _, _, exceeds, frozen⟩ := replaced
  have removed (id : CardId) :
      ({ hive with approvals := hive.approvals.keep (·.card ≠ card) } : Hive).slot id =
        { hive.slot id with
          approval := (hive.approvals.lookup id).filter fun q => q.card ≠ card } := by
    rw [← Table.lookup_keep hive.approvals (fun q => decide (q.card ≠ card)) id]
    rfl
  intro id
  rcases freezeComputeBudget_ok frozen with ⟨_, kept⟩ | fresh
  · rw [removed] at kept
    cases found : hive.approvals.lookup card with
    | none => simp [found] at kept
    | some q =>
      have keyed : q.card = card := Table.key_of_lookup found
      simp [found, keyed] at kept
  · obtain ⟨c, q, stored, modality, free, _, limited, rates, slots⟩ := fresh
    rw [slots, removed]
    split
    · rename_i same
      subst same
      right
      rw [removed] at stored free
      have above : spentBy (hive.slot id).paid < q.limit := by
        obtain ⟨value, rfl, same⟩ := limitOf_ok limited
        have more := of_decide_eq_true exceeds
        rw [← same] at more
        have spent := spentOn_eq_spentBy hive.entries id
        have less : spentOn hive.entries id < q.limit := by exact_mod_cast more
        rwa [spent] at less
      exact .approved c q stored free ⟨modality, rates, Or.inr above⟩
    · rename_i other
      left
      cases found : hive.approvals.lookup id with
      | none => simp [Hive.slot, found]
      | some q =>
        have keyed : q.card = id := Table.key_of_lookup found
        simp [Hive.slot, found, keyed, other]

theorem moves_interviewSendFunded {new : NewCard} {session : Uuid} {limit : Option Numeric}
    (sent : hive.interviewSendFunded event.around new session limit = .ok next) :
    Moves event hive next := by
  simp only [Hive.interviewSendFunded, bind_eq_ok_iff, orFail_eq_ok_iff, require_eq_ok_iff,
    exists_const, pure_eq_ok_iff] at sent
  obtain ⟨_, created, creates, payer, _, frozen, freezes, _, _, _, _, rfl⟩ := sent
  obtain ⟨absent, slots⟩ := slot_createCard creates
  intro id
  rcases freezeComputeBudget_ok freezes with ⟨rfl, _⟩ | fresh
  · exact moves_createCard creates id
  · obtain ⟨c, q, stored, modality, _, unapproved, _, rates, frozenSlots⟩ := fresh
    rw [frozenSlots, slots]
    rw [slots, if_pos rfl] at stored unapproved
    obtain rfl := Option.some.inj stored
    split
    · rename_i same
      subst same
      exact Or.inr (.created new (some q) absent
        (Or.inr ⟨q, rfl, modality, rates, Or.inl unapproved⟩))
    · exact Or.inl rfl

theorem slot_speechPriceCard {rateId : Uuid} {maxSeconds maxHoney : Numeric}
    (priced : hive.speechPriceCard event.around card rateId maxSeconds maxHoney = .ok next)
    (id : CardId) : next.slot id = hive.slot id := by
  simp only [Hive.speechPriceCard, bind_eq_ok_iff, require_eq_ok_iff, exists_const] at priced
  obtain ⟨⟨c, p⟩, _, _, rest⟩ := priced
  split at rest
  · simp only [bind_eq_ok_iff, require_eq_ok_iff, exists_const] at rest
    obtain ⟨_, rest⟩ := rest
    split at rest
    · simp only [bind_eq_ok_iff, require_eq_ok_iff, exists_const, pure_eq_ok_iff] at rest
      obtain ⟨_, rfl⟩ := rest
      rfl
    · simp only [bind_eq_ok_iff, require_eq_ok_iff, exists_const, orFail_eq_ok_iff] at rest
      obtain ⟨_, rate, _, _, rest⟩ := rest
      split at rest
      · simp only [bind_eq_ok_iff, require_eq_ok_iff, exists_const, orFail_eq_ok_iff,
          pure_eq_ok_iff] at rest
        obtain ⟨_, prices, _, rfl⟩ := rest
        rfl
      · cases rest
  · cases rest

/-- A posting for no card is in no slot. -/
theorem slot_post {postings : List Hive.Posting}
    (cardless : ∀ posting ∈ postings, posting.card? = none)
    (posted : hive.postTxn event.around postings = .ok next) (id : CardId) :
    next.slot id = hive.slot id := by
  obtain ⟨rows, stores, rfl⟩ := postTxn_ok posted
  have none : rows.filter (·.card? = some id) = [] := by
    clear posted
    induction stores with
    | nil => rfl
    | cons stored _ ih =>
      have free := stored.card.trans (cardless _ List.mem_cons_self)
      rw [List.filter_cons_of_neg (by simp [free])]
      exact ih fun posting member => cardless posting (List.mem_cons_of_mem _ member)
  rw [slot_entries, none, List.append_nil]

end Payers

section Steps

/-- A call that goes through makes at most one move on each card. -/
theorem moves_reply (replied : event.reply hive = .ok next) : Moves event hive next := by
  obtain ⟨around, op⟩ := event
  cases op with
  | nodeClaimCard rawKey =>
    obtain ⟨reply, claimed⟩ := map_fst_eq_ok_iff.mp replied
    exact moves_claim claimed
  | ctlPilotClaim rawKey project candidate =>
    obtain ⟨reply, claimed⟩ := map_fst_eq_ok_iff.mp replied
    exact moves_claim claimed
  | ctlDCtlPilotClaim rawKey project candidate =>
    obtain ⟨reply, claimed⟩ := map_fst_eq_ok_iff.mp replied
    exact moves_claim claimed
  | nodeCheckpoint rawKey card step state => exact moves_checkpoint replied
  | ctlDNodeCheckpoint rawKey card step state => exact moves_checkpoint replied
  | nodeCompleteCard rawKey card content usage =>
    obtain ⟨honey, completed⟩ := map_fst_eq_ok_iff.mp replied
    exact moves_completeCard rfl completed
  | ctlDNodeCompleteCard rawKey card content usage =>
    obtain ⟨honey, completed⟩ := map_fst_eq_ok_iff.mp replied
    exact moves_completeCard rfl completed
  | nodeReleaseCard rawKey card => exact moves_release replied
  | ctlDNodeReleaseCard rawKey card => exact moves_release replied
  | nodeWaitOnChild rawKey card child => exact moves_waitOnChild replied
  | ctlDNodeWaitOnChild rawKey card child => exact moves_waitOnChild replied
  | nodeFailCard rawKey card reason => exact moves_failCard replied
  | ctlDNodeFailCard rawKey card reason => exact moves_failCard replied
  | reapExpiredLeases =>
    obtain rfl := Except.ok.inj replied
    exact moves_reap hive _ _
  | reapOrphanedLeases grace =>
    obtain rfl := Except.ok.inj replied
    exact moves_reap hive _ _
  | cardAccept card => exact moves_cardAccept rfl replied
  | cardSendBack card note => exact moves_cardSendBack rfl replied
  | cardPromote card => exact moves_cardPromote replied
  | computeBudgetApprove card limit => exact moves_computeBudgetApprove replied
  | computeBudgetReplace card limit expectedApproval expectedHash =>
    exact moves_computeBudgetReplace replied
  | interviewSendFunded new session limit => exact moves_interviewSendFunded replied
  | speechPriceCard card rateId maxSeconds maxHoney =>
    exact fun id => Or.inl (slot_speechPriceCard replied id)
  | createCard new => exact moves_createCard replied
  | post postings cardless => exact fun id => Or.inl (slot_post cardless replied id)

theorem moves_step (event : Event) (hive : Hive) : Moves event hive (hive.step event) := by
  unfold Hive.step
  split
  · exact moves_reply ‹event.reply hive = _›
  · exact fun id => Or.inl rfl

end Steps

end OHHive.Cloud
