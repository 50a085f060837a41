import OHHive.Cloud.ClaimAdmission

/-! What a call does to the lease of one card, and when a lease runs out. -/

namespace OHHive.Cloud

open Foundation

variable {hive next : Hive} {around : Surroundings} {event : Event} {card id : CardId}
  {node? : Option NodeId}

section Leases

/-- No lease is new or changed. -/
def Frees (hive next : Hive) : Prop :=
  ∀ id, next.leases.lookup id = hive.leases.lookup id ∨ next.leases.lookup id = none

theorem Frees.trans {between : Hive} (first : Frees hive between) (second : Frees between next) :
    Frees hive next := by
  intro id
  rcases second id with same | none
  · rw [same]
    exact first id
  · exact Or.inr none

theorem frees_of_slots (slots : ∀ id, (next.slot id).lease = (hive.slot id).lease) :
    Frees hive next := fun id => Or.inl (slots id)

theorem frees_of_leases (same : next.leases = hive.leases) : Frees hive next := by
  intro id
  rw [same]
  exact Or.inl rfl

theorem frees_of_deleteLeases {selects : Lease → Bool}
    (same : next.leases = (hive.deleteLeases selects).leases) : Frees hive next := by
  intro id
  have looked : next.leases.lookup id =
      (hive.leases.lookup id).filter fun lease => !selects lease := by
    rw [same]
    exact Table.lookup_keep hive.leases _ id
  rw [looked]
  cases hive.leases.lookup id with
  | none => exact Or.inl rfl
  | some lease =>
    by_cases selected : selects lease
    · right
      simp [selected]
    · left
      simp [selected]

theorem leases_cascadeChildStatus (depth : Nat) (hive : Hive) (parent? : Option CardId)
    (status : CardStatus) (childKey : String) :
    (hive.cascadeChildStatus parent? status childKey depth).leases = hive.leases := by
  induction depth generalizing hive parent? status childKey with
  | zero => rfl
  | succ depth ih =>
    unfold Hive.cascadeChildStatus
    split
    · rfl
    · split
      · rfl
      · split_ifs
        · rfl
        · rfl
        · rfl
        · exact ih _ _ _ _
        · rfl

theorem leases_setStatus (hive : Hive) (card : CardId) (status : CardStatus) :
    (hive.setStatus card status).leases = hive.leases := by
  unfold Hive.setStatus
  split
  · rfl
  · dsimp only
    split
    · rfl
    · exact leases_cascadeChildStatus _ _ _ _ _

theorem frees_completeCard {content : String} {usage : Usage} {honey : Int}
    (completed : hive.completeCard around node? card content usage = .ok (next, honey)) :
    Frees hive next := by
  simp only [Hive.completeCard, bind_eq_ok_iff, orFail_eq_ok_iff, require_eq_ok_iff, exists_const]
    at completed
  obtain ⟨nid, _, lease, _, c, _, p, _, charge, _, _, released, releases, _, rest⟩ := completed
  obtain ⟨rows, _, ends, _⟩ := payment_ok rest
  obtain ⟨rfl, _⟩ := Prod.mk.inj ends
  obtain ⟨_, leases, _⟩ := slot_released releases
  let ended (lease : Lease) : Bool := lease.card = card
  have same : ((({ released with entries := released.entries ++ rows } : Hive).deleteLeases
      ended).setStatus card .review).leases = (hive.deleteLeases ended).leases := by
    rw [leases_setStatus]
    show released.leases.keep _ = hive.leases.keep _
    rw [leases]
  exact frees_of_deleteLeases same

theorem frees_release (released : hive.release node? card = .ok next) : Frees hive next := by
  simp only [Hive.release, bind_eq_ok_iff, orFail_eq_ok_iff] at released
  obtain ⟨nid, _, rest⟩ := released
  split at rest
  · obtain rfl := Except.ok.inj rest
    exact frees_of_leases rfl
  · obtain rfl := Except.ok.inj rest
    exact frees_of_deleteLeases rfl

theorem frees_waitOnChild {child : CardId}
    (waited : hive.waitOnChild node? card child = .ok next) : Frees hive next := by
  simp only [Hive.waitOnChild, bind_eq_ok_iff, orFail_eq_ok_iff, require_eq_ok_iff, exists_const,
    pure_eq_ok_iff] at waited
  obtain ⟨nid, _, lease, _, _, rfl⟩ := waited
  exact frees_of_deleteLeases (leases_setStatus _ _ _)

theorem frees_failCard {reason : String} (failed : hive.failCard node? card reason = .ok next) :
    Frees hive next := by
  simp only [Hive.failCard, bind_eq_ok_iff, orFail_eq_ok_iff, pure_eq_ok_iff] at failed
  obtain ⟨nid, _, lease, _, rfl⟩ := failed
  exact frees_of_deleteLeases (leases_setStatus _ _ _)

theorem frees_cardAccept (accepted : hive.cardAccept around card = .ok next) :
    Frees hive next := by
  simp only [Hive.cardAccept, bind_eq_ok_iff] at accepted
  obtain ⟨c, _, rest⟩ := accepted
  split at rest
  · obtain rfl := Except.ok.inj rest
    exact frees_of_leases (leases_setStatus _ _ _)
  · obtain rfl := Except.ok.inj rest
    exact frees_of_leases rfl

theorem frees_cardSendBack {note : String}
    (sent : hive.cardSendBack around card note = .ok next) : Frees hive next := by
  simp only [Hive.cardSendBack, bind_eq_ok_iff, pure_eq_ok_iff] at sent
  obtain ⟨c, _, rfl⟩ := sent
  exact frees_of_deleteLeases rfl

theorem frees_cardPromote (promoted : hive.cardPromote around card = .ok next) :
    Frees hive next := by
  simp only [Hive.cardPromote, bind_eq_ok_iff] at promoted
  obtain ⟨c, _, rest⟩ := promoted
  split at rest
  · obtain rfl := Except.ok.inj rest
    exact frees_of_leases (leases_setStatus _ _ _)
  · obtain rfl := Except.ok.inj rest
    exact frees_of_leases rfl

theorem frees_freezeComputeBudget (event : Event) {payer : AccountId} {limit : Option Numeric}
    {session : Option Uuid} {approvedAt : Time}
    (frozen : hive.freezeComputeBudget event.around card payer limit session approvedAt =
      .ok next) : Frees hive next := by
  rcases freezeComputeBudget_ok frozen with ⟨rfl, _⟩ | fresh
  · exact frees_of_leases rfl
  · obtain ⟨_, _, _, _, _, _, _, _, slots⟩ := fresh
    apply frees_of_slots
    intro id
    rw [slots]
    split <;> rfl

theorem frees_speechPriceCard (event : Event) {rateId : Uuid} {maxSeconds maxHoney : Numeric}
    (priced : hive.speechPriceCard event.around card rateId maxSeconds maxHoney = .ok next) :
    Frees hive next :=
  frees_of_slots fun id => congrArg Slot.lease (slot_speechPriceCard priced id)

theorem frees_post (event : Event) {postings : List Hive.Posting}
    (cardless : ∀ posting ∈ postings, posting.card? = none)
    (posted : hive.postTxn event.around postings = .ok next) : Frees hive next :=
  frees_of_slots fun id => congrArg Slot.lease (slot_post cardless posted id)

theorem frees_createCard {new : NewCard} (created : hive.createCard new = .ok next) :
    Frees hive next := by
  obtain ⟨_, slots⟩ := slot_createCard created
  apply frees_of_slots
  intro id
  rw [slots]
  split <;> rfl

end Leases

section Effects

/-- The node, the card, the step and the state of a checkpoint. -/
def Event.checkpoint? (event : Event) : Option (Option NodeId × CardId × Int × String) :=
  match event.op with
  | .nodeCheckpoint rawKey card step state =>
    some (event.around.verifyNodeKey rawKey, card, step, state)
  | .ctlDNodeCheckpoint rawKey card step state =>
    some (event.around.ctlDelegateNode rawKey, card, step, state)
  | _ => none

/-- A checkpoint of a card that goes through. -/
def Event.Checkpoints (event : Event) (hive : Hive) (card : CardId) : Prop :=
  ∃ node? step state next, event.checkpoint? = some (node?, card, step, state) ∧
    hive.checkpoint event.around node? card step state = .ok next

def Op.Reaps : Op → Prop
  | .reapExpiredLeases | .reapOrphanedLeases _ => True
  | _ => False

/-- What a call does to the lease of one card. -/
inductive LeaseEffect (event : Event) (hive : Hive) (id : CardId) : Option Lease → Prop
  | kept : LeaseEffect event hive id (hive.leases.lookup id)
  | ended (spares : ¬ event.op.Reaps) : LeaseEffect event hive id none
  | granted (nid : NodeId) (n : Node) (c : Card) (free : hive.leases.lookup id = none)
      (found : event.around.node nid = some n) (checkedIn : n.presence = .checkedIn)
      (stored : hive.cards.lookup id = some c) :
      LeaseEffect event hive id (some ⟨id, nid, event.around.now + claimTtl c.modality⟩)
  | checkpointed (c : Card) (lease : Lease) (checkpoints : event.Checkpoints hive id)
      (stored : hive.cards.lookup id = some c) (leased : hive.leases.lookup id = some lease) :
      LeaseEffect event hive id
        (some { lease with expiresAt := event.around.now + checkpointTtl c.modality })
  | expired (lease : Lease) (asked : event.op = .reapExpiredLeases)
      (leased : hive.leases.lookup id = some lease) (late : lease.expiresAt < event.around.now) :
      LeaseEffect event hive id none
  | orphaned (lease : Lease) (grace : Time) (asked : event.op = .reapOrphanedLeases grace)
      (leased : hive.leases.lookup id = some lease)
      (gone : Hive.orphaned event.around grace lease) : LeaseEffect event hive id none

theorem LeaseEffect.of_frees (frees : Frees hive next) (spares : ¬ event.op.Reaps) :
    LeaseEffect event hive id (next.leases.lookup id) := by
  rcases frees id with same | none
  · rw [same]
    exact .kept
  · rw [none]
    exact .ended spares

theorem leaseEffect_claim {own : NodeId → Card → Project → Bool} {reply : ClaimReply}
    (claimed : hive.claim event.around node? own = .ok (next, reply)) :
    LeaseEffect event hive id (next.leases.lookup id) := by
  simp only [Hive.claim, bind_eq_ok_iff, orFail_eq_ok_iff] at claimed
  obtain ⟨nid, _, n, found, rest⟩ := claimed
  split at rest
  · obtain ⟨rfl, _⟩ := Prod.mk.inj (Except.ok.inj rest)
    exact .kept
  · rename_i present
    split at rest
    · obtain ⟨rfl, _⟩ := Prod.mk.inj (Except.ok.inj rest)
      exact .kept
    · split at rest
      · obtain ⟨rfl, _⟩ := Prod.mk.inj (Except.ok.inj rest)
        exact .kept
      · rename_i c p selected
        simp only [bind_eq_ok_iff, pure_eq_ok_iff, Prod.mk.injEq] at rest
        obtain ⟨leased, inserted, rfl, _⟩ := rest
        obtain ⟨stored, _, _, claimable⟩ := select_ok selected
        obtain ⟨_, free⟩ := claimable_ready claimable
        obtain ⟨_, _, _, _, slots⟩ := insertLease_ok inserted rfl
        have looked : ((leased.setStatus c.id .running).leases.lookup id) =
            (leased.slot id).lease := by
          rw [leases_setStatus]
          rfl
        rw [looked, slots]
        by_cases same : id = c.id
        · subst same
          rw [if_pos rfl]
          exact .granted nid n c free found (not_not.mp present) stored
        · rw [if_neg same]
          exact .kept

/-- A checkpoint sets the expiry of its card's lease, which its node holds. -/
theorem lookup_checkpoint {step : Int} {state : String}
    (checked : hive.checkpoint event.around node? card step state = .ok next) :
    ∃ c lease, node? = some lease.node ∧ hive.cards.lookup card = some c ∧
      hive.leases.lookup card = some lease ∧ ∀ id, next.leases.lookup id =
        if id = card then
          some { lease with expiresAt := event.around.now + checkpointTtl c.modality }
        else hive.leases.lookup id := by
  simp only [Hive.checkpoint, bind_eq_ok_iff, orFail_eq_ok_iff, pure_eq_ok_iff] at checked
  obtain ⟨nid, authenticated, lease, owned, c, stored, rfl⟩ := checked
  obtain ⟨leased, rfl⟩ := leaseOf_ok owned
  refine ⟨c, lease, authenticated, stored, leased, fun id => ?_⟩
  let selects (row : Lease) : Bool := row.card = card && row.node = lease.node
  have looked := Table.lookup_updateWhere hive.leases selects
    (fun lease => { lease with expiresAt := event.around.now + checkpointTtl c.modality })
    (fun _ => rfl) id
  refine looked.trans ?_
  by_cases same : id = card
  · subst same
    have keyed : lease.card = id := Table.key_of_lookup leased
    rw [leased, if_pos rfl, Option.map_some, if_pos (by simp [selects, keyed])]
  · rw [if_neg same]
    cases found : hive.leases.lookup id with
    | none => rfl
    | some row =>
      have keyed : row.card = id := Table.key_of_lookup found
      rw [Option.map_some, if_neg (by simp [selects, keyed, same])]

theorem leaseEffect_checkpoint {step : Int} {state : String}
    (asked : event.checkpoint? = some (node?, card, step, state))
    (checked : hive.checkpoint event.around node? card step state = .ok next) :
    LeaseEffect event hive id (next.leases.lookup id) := by
  obtain ⟨c, lease, _, stored, leased, looked⟩ := lookup_checkpoint checked
  rw [looked]
  by_cases same : id = card
  · subst same
    rw [if_pos rfl]
    exact .checkpointed c lease ⟨node?, step, state, next, asked, checked⟩ stored leased
  · rw [if_neg same]
    exact .kept

theorem lookup_reaped (hive : Hive) (selects : Lease → Bool) (reaped : List CardId) (id : CardId) :
    ((hive.deleteLeases selects).readyAgain reaped).leases.lookup id = hive.leases.lookup id ∨
      ∃ lease, hive.leases.lookup id = some lease ∧ selects lease ∧
        ((hive.deleteLeases selects).readyAgain reaped).leases.lookup id = none := by
  have looked : ((hive.deleteLeases selects).readyAgain reaped).leases.lookup id =
      (hive.leases.lookup id).filter fun lease => !selects lease :=
    Table.lookup_keep hive.leases _ id
  rw [looked]
  cases hive.leases.lookup id with
  | none => exact Or.inl rfl
  | some lease =>
    by_cases selected : selects lease
    · right
      exact ⟨lease, rfl, selected, by simp [selected]⟩
    · left
      simp [selected]

theorem leaseEffect_reply (replied : event.reply hive = .ok next) :
    LeaseEffect event hive id (next.leases.lookup id) := by
  obtain ⟨around, op⟩ := event
  cases op with
  | nodeClaimCard rawKey =>
    obtain ⟨reply, claimed⟩ := map_fst_eq_ok_iff.mp replied
    exact leaseEffect_claim claimed
  | ctlPilotClaim rawKey project candidate =>
    obtain ⟨reply, claimed⟩ := map_fst_eq_ok_iff.mp replied
    exact leaseEffect_claim claimed
  | ctlDCtlPilotClaim rawKey project candidate =>
    obtain ⟨reply, claimed⟩ := map_fst_eq_ok_iff.mp replied
    exact leaseEffect_claim claimed
  | nodeCheckpoint rawKey card step state => exact leaseEffect_checkpoint rfl replied
  | ctlDNodeCheckpoint rawKey card step state => exact leaseEffect_checkpoint rfl replied
  | nodeCompleteCard rawKey card content usage =>
    obtain ⟨honey, completed⟩ := map_fst_eq_ok_iff.mp replied
    exact .of_frees (frees_completeCard completed) not_false
  | ctlDNodeCompleteCard rawKey card content usage =>
    obtain ⟨honey, completed⟩ := map_fst_eq_ok_iff.mp replied
    exact .of_frees (frees_completeCard completed) not_false
  | nodeReleaseCard rawKey card => exact .of_frees (frees_release replied) not_false
  | ctlDNodeReleaseCard rawKey card => exact .of_frees (frees_release replied) not_false
  | nodeWaitOnChild rawKey card child => exact .of_frees (frees_waitOnChild replied) not_false
  | ctlDNodeWaitOnChild rawKey card child => exact .of_frees (frees_waitOnChild replied) not_false
  | nodeFailCard rawKey card reason => exact .of_frees (frees_failCard replied) not_false
  | ctlDNodeFailCard rawKey card reason => exact .of_frees (frees_failCard replied) not_false
  | reapExpiredLeases =>
    obtain rfl := Except.ok.inj replied
    rcases lookup_reaped hive (fun lease => lease.expiresAt < around.now) _ id with same | gone
    · rw [Hive.reapExpiredLeases, same]
      exact .kept
    · obtain ⟨lease, leased, late, none⟩ := gone
      rw [Hive.reapExpiredLeases, none]
      exact .expired lease rfl leased (of_decide_eq_true late)
  | reapOrphanedLeases grace =>
    obtain rfl := Except.ok.inj replied
    rcases lookup_reaped hive (Hive.orphaned around grace) _ id with same | gone
    · rw [Hive.reapOrphanedLeases, same]
      exact .kept
    · obtain ⟨lease, leased, gone, none⟩ := gone
      rw [Hive.reapOrphanedLeases, none]
      exact .orphaned lease grace rfl leased gone
  | cardAccept card =>
    exact .of_frees (frees_cardAccept replied) not_false
  | cardSendBack card note =>
    exact .of_frees (frees_cardSendBack replied) not_false
  | cardPromote card =>
    exact .of_frees (frees_cardPromote replied) not_false
  | computeBudgetApprove card limit =>
    simp only [Event.reply, Hive.computeBudgetApprove, bind_eq_ok_iff] at replied
    obtain ⟨_, _, frozen⟩ := replied
    exact .of_frees (frees_freezeComputeBudget ⟨around, .computeBudgetApprove card limit⟩ frozen)
      not_false
  | computeBudgetReplace card limit expectedApproval expectedHash =>
    simp only [Event.reply, Hive.computeBudgetReplace, bind_eq_ok_iff] at replied
    obtain ⟨_, _, _, _, _, _, _, _, _, _, _, _, frozen⟩ := replied
    have freed := frees_freezeComputeBudget
      ⟨around, .computeBudgetReplace card limit expectedApproval expectedHash⟩ frozen
    have unapproved : Frees hive { hive with approvals := hive.approvals.keep (·.card ≠ card) } :=
      frees_of_leases rfl
    exact .of_frees (unapproved.trans freed) not_false
  | interviewSendFunded new session limit =>
    simp only [Event.reply, Hive.interviewSendFunded, bind_eq_ok_iff, pure_eq_ok_iff] at replied
    obtain ⟨_, _, created, creates, _, _, frozen, freezes, _, _, _, _, rfl⟩ := replied
    have first := frees_createCard creates
    have second := frees_freezeComputeBudget ⟨around, .interviewSendFunded new session limit⟩
      freezes
    exact .of_frees (first.trans second) not_false
  | speechPriceCard card rateId maxSeconds maxHoney =>
    exact .of_frees (frees_speechPriceCard
      ⟨around, .speechPriceCard card rateId maxSeconds maxHoney⟩ replied) not_false
  | createCard new => exact .of_frees (frees_createCard replied) not_false
  | post postings cardless =>
    exact .of_frees (frees_post ⟨around, .post postings cardless⟩ cardless replied) not_false

theorem leaseEffect_step (event : Event) (hive : Hive) (id : CardId) :
    LeaseEffect event hive id ((hive.step event).leases.lookup id) := by
  unfold Hive.step
  split
  · exact leaseEffect_reply ‹event.reply hive = _›
  · exact .kept

end Effects

section Exclusion

/-- No node holds two leases. -/
def Hive.Sole (hive : Hive) : Prop := (hive.leases.rows.map Lease.node).Nodup

/-- Every lease was there before, for the same node. -/
def Narrows (hive next : Hive) : Prop :=
  ∀ id, ∀ lease ∈ next.leases.lookup id, ∃ old ∈ hive.leases.lookup id, old.node = lease.node

theorem Narrows.of_frees (frees : Frees hive next) : Narrows hive next := by
  intro id lease found
  rcases frees id with same | none
  · exact ⟨lease, same ▸ found, rfl⟩
  · cases none.symm.trans found

theorem Narrows.sole (narrows : Narrows hive next) (sole : hive.Sole) : next.Sole := by
  have earlier : ∀ lease ∈ next.leases.rows, ∃ old ∈ hive.leases.lookup lease.card,
      old.node = lease.node := fun lease stored =>
    narrows _ lease ((next.leases.lookup_eq_some_iff _ _).mpr ⟨stored, rfl⟩)
  refine List.Nodup.map_on ?_ (next.leases.distinct.imp fun apart same => apart (congrArg Lease.card same))
  intro lease stored other member same
  obtain ⟨old, before, node⟩ := earlier lease stored
  obtain ⟨older, before', node'⟩ := earlier other member
  obtain rfl := List.inj_on_of_nodup_map sole (Table.mem_of_lookup before)
    (Table.mem_of_lookup before') (node.trans (same.trans node'.symm))
  exact next.leases.eq_of_key stored member
    ((Table.key_of_lookup before).symm.trans (Table.key_of_lookup before'))

/-- A claim leases to a node without a lease. -/
theorem Hive.Sole.claim {own : NodeId → Card → Project → Bool} {reply : ClaimReply}
    (sole : hive.Sole) (claimed : hive.claim around node? own = .ok (next, reply)) : next.Sole := by
  simp only [Hive.claim, bind_eq_ok_iff, orFail_eq_ok_iff] at claimed
  obtain ⟨nid, _, n, _, rest⟩ := claimed
  split at rest
  · exact (Prod.mk.inj (Except.ok.inj rest)).1 ▸ sole
  · split at rest
    · exact (Prod.mk.inj (Except.ok.inj rest)).1 ▸ sole
    · rename_i unleased
      split at rest
      · exact (Prod.mk.inj (Except.ok.inj rest)).1 ▸ sole
      · simp only [bind_eq_ok_iff, pure_eq_ok_iff, Prod.mk.injEq] at rest
        obtain ⟨leased, inserted, rfl, _⟩ := rest
        obtain ⟨_, _, _, rows, _⟩ := insertLease_ok inserted rfl
        have free : nid ∉ hive.leases.rows.map Lease.node := by simpa using unleased
        unfold Hive.Sole
        rw [leases_setStatus, rows, List.map_append]
        exact List.concat_eq_append ▸ sole.concat free

/-- A call that goes the same way where no node is known grants no lease. -/
theorem narrows_of_reply {op : Op} (replied : Event.reply ⟨around, op⟩ hive = .ok next)
    (same : Event.reply ⟨around, op⟩ hive =
      Event.reply ⟨{ around with node := fun _ => none }, op⟩ hive) : Narrows hive next := by
  intro id lease found
  have effect := @leaseEffect_reply hive next _ id (same.symm.trans replied)
  generalize next.leases.lookup id = after at effect found
  cases effect with
  | kept => exact ⟨lease, found, rfl⟩
  | granted nid n c free known => cases known
  | checkpointed c held _ _ leased =>
    obtain rfl := Option.some.inj found
    exact ⟨held, leased, rfl⟩
  | _ => cases found

theorem Hive.Sole.step (sole : hive.Sole) (event : Event) : (hive.step event).Sole := by
  unfold Hive.step
  split
  · rename_i next replied
    cases claiming : event.claiming with
    | some claim =>
      rw [reply_of_claiming claiming] at replied
      obtain ⟨reply, claimed⟩ := map_fst_eq_ok_iff.mp replied
      exact sole.claim claimed
    | none =>
      refine Narrows.sole ?_ sole
      obtain ⟨around, op⟩ := event
      cases op with
      | nodeClaimCard | ctlPilotClaim | ctlDCtlPilotClaim => cases claiming
      | nodeCompleteCard | ctlDNodeCompleteCard =>
        obtain ⟨honey, completed⟩ := map_fst_eq_ok_iff.mp replied
        exact .of_frees (frees_completeCard completed)
      | reapOrphanedLeases =>
        obtain rfl := Except.ok.inj replied
        exact .of_frees (frees_of_deleteLeases rfl)
      | _ => exact narrows_of_reply replied rfl
  · exact sole

/-- In every run of whole calls, no node ever holds two leases. -/
theorem sole_hiveAt (events : List Event) (moment : Nat) : (hiveAt events moment).Sole :=
  stateAt_invariant Hive.step Hive.empty events Hive.Sole .nil (fun _ event _ sole => sole.step event)
    moment

end Exclusion

end OHHive.Cloud
