import OHHive.Foundation.Fence
import OHHive.Bots.Effects

/-! Delivery fencing. Every transaction moves a delivery row along one of nine named
steps, each a move of the abstract fenced cell; the laws of all runs are the cell's. -/

namespace OHHive.Bots

open Foundation

/-- What one transaction does to the row of one delivery. -/
inductive DeliveryStep (store : Store) (key : DeliveryKey) :
    Op → Option AgentDelivery → Option AgentDelivery → Prop
  | unchanged (op row) : DeliveryStep store key op row row
  | created (request id ts recipient) (addressed : key = ⟨id, recipient⟩) :
      DeliveryStep store key (.send request id ts) none (some (request.delivery id ts recipient))
  | reaped (row : AgentDelivery) (agent limit ts) (running : row.status = .running) :
      DeliveryStep store key (.pendingForAgent agent limit ts) (some row) (some (row.reaped ts))
  | claimed (row : AgentDelivery) (ts) (pending : row.status = .pending)
      (returned : ∃ next, botsDeliveryClaim store key ts = .ok (next, row.claimed ts)) :
      DeliveryStep store key (.claim key ts) (some row) (some (row.claimed ts))
  | claimedWithinBudget (row : AgentDelivery) (most ts) (pending : row.status = .pending)
      (returned : ∃ next,
        botsDeliveryClaimWithinBudget store key most ts = .ok (next, row.claimed ts)) :
      DeliveryStep store key (.claimWithinBudget key most ts) (some row) (some (row.claimed ts))
  | completed (row : AgentDelivery) (ts noticeId) (running : row.status = .running) :
      DeliveryStep store key (.complete key row.leaseGeneration ts noticeId) (some row)
        (some (row.finished .done none ts))
  | failed (row : AgentDelivery) (retryAfter ts noticeId) (running : row.status = .running) :
      DeliveryStep store key (.fail key row.leaseGeneration retryAfter ts noticeId) (some row)
        (some (row.finished (if retryAfter.isSome then .pending else .failed) retryAfter ts))
  | cancelled (row : AgentDelivery) (actor ts) (isOpen : row.status.isTerminal = false) :
      DeliveryStep store key (.cancel actor key ts) (some row) (some (row.cancelledAt ts))
  | published (row : AgentDelivery) (binding operation reply id ts)
      (addressed : key = ⟨operation, binding.agent⟩) (running : row.status = .running) :
      DeliveryStep store key
        (.publishSubscription binding operation row.leaseGeneration reply id ts)
        (some row) (some (row.published binding reply ts))
  | released (row : AgentDelivery) (root ts) (held : row.status = .held)
      (under : row.rootMessageId = some root) :
      DeliveryStep store key (.releaseRoot root ts) (some row) (some (row.released ts))

theorem delivery?_of_append {store next : Store} {added : List AgentDelivery} (key : DeliveryKey)
    (rows : next.deliveries.rows = store.deliveries.rows ++ added) :
    next.delivery? key =
      (store.delivery? key).or (added.find? (fun delivery => delivery.key = key)) := by
  simp only [Store.delivery?, Table.lookup, rows, List.find?_append]

private theorem send_step {store next : Store} {request : SendRequest} {id sent : MessageId}
    {ts : Int} (key : DeliveryKey)
    (done : sendInsert store request id ts = .ok (next, sent)) :
    DeliveryStep store key (.send request id ts) (store.delivery? key) (next.delivery? key) := by
  rcases sendInsert_ok done with ⟨_, _, rfl, _⟩ | ⟨_, _, _, _, _, rows, fresh, _⟩
  · exact .unchanged _ _
  · rw [delivery?_of_append key rows]
    cases before : store.delivery? key with
    | some row => exact .unchanged _ _
    | none =>
      cases added : (request.deliveries id ts).find? (fun delivery => delivery.key = key) with
      | none => exact .unchanged _ _
      | some delivery =>
        have member := List.mem_of_find?_eq_some added
        have same : delivery.key = key := by simpa using List.find?_some added
        unfold SendRequest.deliveries at member
        split at member
        · simp at member
        · obtain ⟨recipient, _, rfl⟩ := List.mem_map.mp member
          exact .created request id ts recipient same.symm

private theorem pending_step {store next : Store} {agent : AgentId} {limit : Nat} {ts : Int}
    {deliveries : List AgentDelivery} (key : DeliveryKey)
    (done : botsDeliveriesPendingForAgent store agent limit ts = .ok (next, deliveries)) :
    DeliveryStep store key (.pendingForAgent agent limit ts) (store.delivery? key)
      (next.delivery? key) := by
  obtain rfl := botsDeliveriesPendingForAgent_ok done
  rw [Store.delivery?_updateDeliveries]
  cases store.delivery? key with
  | none => exact .unchanged _ _
  | some row =>
    simp only [Option.map_some]
    split
    · rename_i selected
      simp only [AgentDelivery.expired, Bool.and_eq_true, decide_eq_true_eq] at selected
      exact .reaped row agent limit ts selected.2.1
    · exact .unchanged _ _

private theorem claim_step {store next : Store} {claimKey key : DeliveryKey} {admits : Bool}
    {refusal : HubError} {ts : Int} {delivery : AgentDelivery} {op : Op}
    (done : claimWhere store claimKey admits refusal ts = .ok (next, delivery))
    (step : ∀ row : AgentDelivery, claimKey = key → row.status = .pending →
      delivery = row.claimed ts → DeliveryStep store key op (some row) (some (row.claimed ts))) :
    DeliveryStep store key op (store.delivery? key) (next.delivery? key) := by
  obtain ⟨row, found, claimable, _, returned, _, rfl⟩ := claimWhere_ok done
  rw [Store.delivery?_updateDeliveries]
  cases present : store.delivery? key with
  | none => exact .unchanged _ _
  | some other =>
    simp only [Option.map_some]
    split
    · rename_i selected
      simp only [Bool.and_eq_true, decide_eq_true_eq] at selected
      have same : claimKey = key := selected.1.1.symm.trans (Store.key_of_delivery? present)
      subst same
      obtain rfl : row = other := Option.some.inj (found.symm.trans present)
      have pending : row.status = .pending := by
        simp only [AgentDelivery.claimable, Bool.and_eq_true, decide_eq_true_eq] at claimable
        exact claimable.1
      exact step row rfl pending returned
    · exact .unchanged _ _

private theorem finish_step {store next : Store} {finishKey key : DeliveryKey} {generation : Nat}
    {status : DeliveryStatus} {retry : Option Int} {ts : Int} {noticeId : MessageId}
    {delivery : AgentDelivery} {op : Op}
    (done : botsDeliveryFinish store finishKey generation status retry ts noticeId =
      .ok (next, delivery))
    (step : ∀ row : AgentDelivery, finishKey = key → row.leaseGeneration = generation →
      row.status = .running →
      DeliveryStep store key op (some row) (some (row.finished status retry ts))) :
    DeliveryStep store key op (store.delivery? key) (next.delivery? key) := by
  rw [delivery?_of_finish done]
  cases present : store.delivery? key with
  | none => exact .unchanged _ _
  | some other =>
    simp only [Option.map_some]
    split
    · rename_i selected
      simp only [Bool.and_eq_true, decide_eq_true_eq] at selected
      obtain ⟨⟨same, current⟩, running⟩ := selected
      exact step other (same.symm.trans (Store.key_of_delivery? present)) current running
    · exact .unchanged _ _

private theorem cancel_step {store next : Store} {actor : Principal} {cancelKey : DeliveryKey}
    {ts : Int} {delivery : AgentDelivery} (key : DeliveryKey)
    (done : botsDeliveryCancel store actor cancelKey ts = .ok (next, delivery)) :
    DeliveryStep store key (.cancel actor cancelKey ts) (store.delivery? key)
      (next.delivery? key) := by
  obtain ⟨row, found, isOpen, rfl⟩ := botsDeliveryCancel_ok done
  rw [Store.delivery?_updateDeliveries]
  cases present : store.delivery? key with
  | none => exact .unchanged _ _
  | some other =>
    simp only [Option.map_some]
    split
    · rename_i selected
      have same : cancelKey = key :=
        (of_decide_eq_true selected).symm.trans (Store.key_of_delivery? present)
      subst same
      obtain rfl : row = other := Option.some.inj (found.symm.trans present)
      exact .cancelled row actor ts isOpen
    · exact .unchanged _ _

private theorem publish_step {store next : Store} {binding : Binding} {operation : Uuid}
    {generation : Nat} {reply : CompletedReply} {id sent : MessageId} {ts : Int}
    (key : DeliveryKey)
    (done : botsPublishSubscription store binding operation generation reply id ts =
      .ok (next, sent)) :
    DeliveryStep store key (.publishSubscription binding operation generation reply id ts)
      (store.delivery? key) (next.delivery? key) := by
  rcases botsPublishSubscription_ok done with
    rfl | ⟨row, message, posted, found, current, running, _, _, _, frame, _, _, rfl⟩
  · exact .unchanged _ _
  · have same : posted.delivery? key = store.delivery? key := by
      rw [frame]
      rfl
    rw [Store.delivery?_updateDeliveries, same]
    cases present : store.delivery? key with
    | none => exact .unchanged _ _
    | some other =>
      simp only [Option.map_some]
      split
      · rename_i selected
        have addressed : key = ⟨operation, binding.agent⟩ :=
          (Store.key_of_delivery? present).symm.trans (of_decide_eq_true selected)
        rw [← addressed] at found
        obtain rfl : row = other := Option.some.inj (found.symm.trans present)
        subst current
        exact .published row binding operation reply id ts addressed running
      · exact .unchanged _ _

private theorem release_step {store next : Store} {root : MessageId} {ts : Int} {count : Nat}
    (key : DeliveryKey) (done : botsDeliveriesReleaseRoot store root ts = .ok (next, count)) :
    DeliveryStep store key (.releaseRoot root ts) (store.delivery? key) (next.delivery? key) := by
  obtain rfl := botsDeliveriesReleaseRoot_ok done
  rw [Store.delivery?_updateDeliveries]
  cases store.delivery? key with
  | none => exact .unchanged _ _
  | some row =>
    simp only [Option.map_some]
    split
    · rename_i selected
      simp only [Bool.and_eq_true, decide_eq_true_eq] at selected
      exact .released row root ts selected.2 selected.1
    · exact .unchanged _ _

theorem ok_of_map {result : Result (Store × α)} {next : Store}
    (done : Prod.fst <$> result = .ok next) : ∃ value, result = .ok (next, value) := by
  obtain ⟨⟨_, value⟩, stored, rfl⟩ := map_eq_ok_iff.mp done
  exact ⟨value, stored⟩

/-- Every transaction moves every delivery row along one of the named steps. -/
theorem delivery_step (store : Store) (op : Op) (key : DeliveryKey) :
    DeliveryStep store key op (store.delivery? key) ((store.step op).delivery? key) := by
  unfold Store.step
  split
  · rename_i next done
    cases op with
    | send request id ts =>
      obtain ⟨_, done⟩ := ok_of_map done
      exact send_step key done
    | pendingForAgent agent limit ts =>
      obtain ⟨_, done⟩ := ok_of_map done
      exact pending_step key done
    | claim claimKey ts =>
      obtain ⟨_, done⟩ := ok_of_map done
      apply claim_step done
      rintro row rfl pending rfl
      exact .claimed row ts pending ⟨next, done⟩
    | claimWithinBudget claimKey most ts =>
      obtain ⟨_, done⟩ := ok_of_map done
      apply claim_step done
      rintro row rfl pending rfl
      exact .claimedWithinBudget row most ts pending ⟨next, done⟩
    | complete finishKey generation ts noticeId =>
      obtain ⟨_, done⟩ := ok_of_map done
      apply finish_step done
      rintro row rfl rfl running
      exact .completed row ts noticeId running
    | fail finishKey generation retryAfter ts noticeId =>
      obtain ⟨_, done⟩ := ok_of_map done
      cases retryAfter with
      | none =>
        apply finish_step done
        rintro row rfl rfl running
        exact .failed row none ts noticeId running
      | some deadline =>
        apply finish_step done
        rintro row rfl rfl running
        exact .failed row (some deadline) ts noticeId running
    | cancel actor cancelKey ts =>
      obtain ⟨_, done⟩ := ok_of_map done
      exact cancel_step key done
    | publishSubscription binding operation generation reply id ts =>
      obtain ⟨_, done⟩ := ok_of_map done
      exact publish_step key done
    | releaseRoot root ts =>
      obtain ⟨_, done⟩ := ok_of_map done
      exact release_step key done
    | administer agents conversations members =>
      obtain ⟨_, _, rfl⟩ := administerTables_ok done
      exact .unchanged _ _
  · exact .unchanged _ _

section Cells

/-- A held row is parked; so is `unknown`, which no transaction writes. -/
def DeliveryStatus.phase : DeliveryStatus → Fence.Phase DeliveryStatus
  | .pending => .waiting
  | .running => .working
  | .held | .unknown => .parked
  | .done => .closed .done
  | .failed => .closed .failed
  | .cancelled => .closed .cancelled

def AgentDelivery.cell (delivery : AgentDelivery) : Fence.Cell DeliveryStatus :=
  ⟨delivery.status.phase, delivery.leaseGeneration⟩

/-- The abstract move of a transaction on a row it changed. -/
def Op.move : Op → Fence.Move
  | .send .. => .appear
  | .pendingForAgent .. => .expire
  | .claim .. | .claimWithinBudget .. => .claim
  | .complete _ generation .. | .fail _ generation .. => .resolve generation
  | .publishSubscription _ _ generation .. => .resolve generation
  | .cancel .. => .revoke
  | .releaseRoot .. => .release
  | .administer .. => .rest

def moveBetween (op : Op) (before after : Option AgentDelivery) : Fence.Move :=
  if after = before then .rest else op.move

theorem phase_eq_closed_iff {status final : DeliveryStatus} :
    status.phase = .closed final ↔ status.isTerminal = true ∧ status = final := by
  cases status <;> simp [DeliveryStatus.phase, DeliveryStatus.isTerminal]

theorem phase_eq_working_iff {status : DeliveryStatus} :
    status.phase = .working ↔ status = .running := by
  cases status <;> simp [DeliveryStatus.phase]

/-- The store simulates the abstract fenced cell, row by row. -/
theorem DeliveryStep.fenced {store : Store} {key : DeliveryKey} {op : Op}
    {before after : Option AgentDelivery} (step : DeliveryStep store key op before after) :
    Fence.Step (before.map AgentDelivery.cell) (moveBetween op before after)
      (after.map AgentDelivery.cell) := by
  by_cases same : after = before
  · subst same
    simp only [moveBetween, if_true]
    exact .rest _
  · simp only [moveBetween, same, if_false]
    cases step with
    | unchanged => exact absurd rfl same
    | created request id ts recipient =>
      simp only [Option.map_none, Option.map_some, Op.move, AgentDelivery.cell,
        SendRequest.delivery]
      cases request.hold
      · exact .wait
      · exact .park
    | reaped row agent limit ts running =>
      simp only [Option.map_some, Op.move, AgentDelivery.cell, AgentDelivery.reaped, running]
      exact .expire _
    | claimed row ts pending =>
      simp only [Option.map_some, Op.move, AgentDelivery.cell, AgentDelivery.claimed, pending]
      exact .claim _
    | claimedWithinBudget row most ts pending =>
      simp only [Option.map_some, Op.move, AgentDelivery.cell, AgentDelivery.claimed, pending]
      exact .claim _
    | completed row ts noticeId running =>
      simp only [Option.map_some, Op.move, AgentDelivery.cell, AgentDelivery.finished, running]
      exact .settle _ _
    | failed row retryAfter ts noticeId running =>
      simp only [Option.map_some, Op.move, AgentDelivery.cell, AgentDelivery.finished, running]
      cases retryAfter
      · exact .settle _ _
      · exact .requeue _
    | cancelled row actor ts isOpen =>
      simp only [Option.map_some, Op.move, AgentDelivery.cell, AgentDelivery.cancelledAt]
      apply Fence.Step.revoke
      intro final closed
      rw [phase_eq_closed_iff, isOpen] at closed
      exact absurd closed.1 (by simp)
    | published row binding operation reply id ts addressed running =>
      simp only [Option.map_some, Op.move, AgentDelivery.cell, AgentDelivery.published, running]
      exact .settle _ _
    | released row root ts held =>
      simp only [Option.map_some, Op.move, AgentDelivery.cell, AgentDelivery.released, held]
      exact .release _

end Cells

section Runs

variable (ops : List Op) (key : DeliveryKey)

def rowAt (moment : Nat) : Option AgentDelivery := (storeAt ops moment).delivery? key

/-- The operation is a successful claim of the delivery and returns the generation. -/
def Op.claimReturns (store : Store) (key : DeliveryKey) (generation : Nat) : Op → Prop
  | .claim claimKey ts => claimKey = key ∧ ∃ next delivery,
      botsDeliveryClaim store key ts = .ok (next, delivery) ∧
        delivery.leaseGeneration = generation
  | .claimWithinBudget claimKey most ts => claimKey = key ∧ ∃ next delivery,
      botsDeliveryClaimWithinBudget store key most ts = .ok (next, delivery) ∧
        delivery.leaseGeneration = generation
  | _ => False

/-- The delivery and the generation a complete, fail or publish acts for. -/
def Op.resolution? : Op → Option (DeliveryKey × Nat)
  | .complete key generation .. | .fail key generation .. => some (key, generation)
  | .publishSubscription binding operation generation .. =>
      some (⟨operation, binding.agent⟩, generation)
  | _ => none

/-- At this moment of the run the delivery is claimed under the returned generation. -/
def ClaimedAt (moment generation : Nat) : Prop :=
  ∃ op, ops[moment]? = some op ∧ op.claimReturns (storeAt ops moment) key generation

/-- At this moment a complete, fail or publish with the generation changes the store. -/
def ResolvedAt (moment generation : Nat) : Prop :=
  ∃ op, ops[moment]? = some op ∧ op.resolution? = some (key, generation) ∧
    storeAt ops (moment + 1) ≠ storeAt ops moment

theorem rowAt_step (moment : Nat) :
    (∃ op, ops[moment]? = some op ∧ DeliveryStep (storeAt ops moment) key op
      (rowAt ops key moment) (rowAt ops key (moment + 1))) ∨
    ops[moment]? = none ∧ rowAt ops key (moment + 1) = rowAt ops key moment := by
  rcases stateAt_next Store.step Store.empty ops moment with ⟨op, present, next⟩ | ⟨absent, next⟩
  · left
    refine ⟨op, present, ?_⟩
    simp only [rowAt, storeAt, next]
    exact delivery_step _ op key
  · right
    exact ⟨absent, by simp only [rowAt, storeAt, next]⟩

/-- A delivery's history as a fenced cell. -/
def deliveryHistory : Fence.History DeliveryStatus where
  cell moment := (rowAt ops key moment).map AgentDelivery.cell
  move moment := match ops[moment]? with
    | some op => moveBetween op (rowAt ops key moment) (rowAt ops key (moment + 1))
    | none => .rest
  absent := by simp [rowAt, storeAt, Store.empty, Store.delivery?]
  step := by
    intro moment
    rcases rowAt_step ops key moment with ⟨op, present, step⟩ | ⟨absent, same⟩
    · simp only [present]
      exact step.fenced
    · simp only [absent, same]
      exact .rest _

variable {ops key}

private theorem changed_of_claim {op : Op} {before after : Option AgentDelivery}
    (move : moveBetween op before after = .claim) : after ≠ before ∧ op.move = .claim := by
  unfold moveBetween at move
  split at move
  · cases move
  · rename_i changed
    exact ⟨changed, move⟩

/-- An abstract claim is a successful claim operation of this delivery. -/
theorem claimedAt_of_move {moment : Nat}
    (move : (deliveryHistory ops key).move moment = .claim) :
    ∃ row generation, rowAt ops key (moment + 1) = some row ∧
      row.status = .running ∧ row.leaseGeneration = generation ∧
      ClaimedAt ops key moment generation := by
  simp only [deliveryHistory] at move
  rcases rowAt_step ops key moment with ⟨op, present, step⟩ | ⟨absent, _⟩
  · simp only [present] at move
    obtain ⟨changed, kind⟩ := changed_of_claim move
    generalize rowAt ops key moment = before at step changed
    generalize rowAt ops key (moment + 1) = after at step changed
    cases step with
    | unchanged => exact absurd rfl changed
    | claimed row ts pending returned =>
      obtain ⟨next, returned⟩ := returned
      exact ⟨_, _, rfl, rfl, rfl, .claim key ts, present, rfl, next, _, returned, rfl⟩
    | claimedWithinBudget row most ts pending returned =>
      obtain ⟨next, returned⟩ := returned
      exact ⟨_, _, rfl, rfl, rfl, .claimWithinBudget key most ts, present, rfl, next, _, returned,
        rfl⟩
    | _ => cases kind
  · simp [absent] at move

private theorem step_of_claimReturns {store : Store} {op : Op} {generation : Nat}
    (returns : op.claimReturns store key generation) :
    ∃ row ts, store.delivery? key = some row ∧ row.leaseGeneration < generation ∧
      (row.claimed ts).leaseGeneration = generation ∧ op.move = .claim ∧
      (store.step op).delivery? key = some (row.claimed ts) := by
  cases op with
  | claim claimKey ts =>
    obtain ⟨rfl, next, delivery, done, rfl⟩ := returns
    obtain ⟨row, found, _, rfl, after⟩ := botsDeliveryClaim_ok done
    refine ⟨row, ts, found, Nat.lt_succ_self _, rfl, rfl, ?_⟩
    simpa [Store.step, Op.perform, done] using after
  | claimWithinBudget claimKey most ts =>
    obtain ⟨rfl, next, delivery, done, rfl⟩ := returns
    obtain ⟨row, found, claimable, admitted, rfl, _, changed⟩ := claimWhere_ok done
    refine ⟨row, ts, found, Nat.lt_succ_self _, rfl, rfl, ?_⟩
    have stepped : store.step (.claimWithinBudget claimKey most ts) = next := by
      simp [Store.step, Op.perform, done]
    rw [stepped, changed, Store.delivery?_updateDeliveries, found]
    simp only [Option.map_some, Store.key_of_delivery? found, claimable, admitted, decide_true,
      Bool.and_self, if_true]
  | _ => exact returns.elim

/-- A successful claim raises the generation and leaves the row running under it. -/
theorem ClaimedAt.raises {moment generation : Nat}
    (claimed : ClaimedAt ops key moment generation) :
    ∃ before after, rowAt ops key moment = some before ∧
      before.leaseGeneration < generation ∧ rowAt ops key (moment + 1) = some after ∧
      after.status = .running ∧ after.leaseGeneration = generation := by
  obtain ⟨op, present, returns⟩ := claimed
  obtain ⟨row, ts, found, raised, returned, _, after⟩ := step_of_claimReturns returns
  refine ⟨row, row.claimed ts, found, raised, ?_, rfl, returned⟩
  simp only [rowAt, storeAt, stateAt_succ Store.step Store.empty present]
  exact after

private theorem ClaimedAt.move {moment generation : Nat}
    (claimed : ClaimedAt ops key moment generation) :
    (deliveryHistory ops key).move moment = .claim ∧
      (deliveryHistory ops key).cell (moment + 1) = some ⟨.working, generation⟩ := by
  obtain ⟨before, after, first, raised, second, running, current⟩ := claimed.raises
  obtain ⟨op, present, returns⟩ := claimed
  obtain ⟨_, _, _, _, _, kind, _⟩ := step_of_claimReturns returns
  simp only [deliveryHistory, present, moveBetween, first, second, Option.some.injEq,
    Option.map_some, AgentDelivery.cell, running, current, DeliveryStatus.phase, and_true]
  split
  · rename_i same
    rw [same] at current
    omega
  · exact kind

private theorem moved_of_finish {store next : Store} {generation : Nat} {status : DeliveryStatus}
    {retry : Option Int} {ts : Int} {noticeId : MessageId} {delivery : AgentDelivery}
    (done : botsDeliveryFinish store key generation status retry ts noticeId =
      .ok (next, delivery)) (other : status ≠ .running) :
    ∃ row, store.delivery? key = some row ∧ row.status = .running ∧
      row.leaseGeneration = generation ∧
      ∀ after, next.delivery? key = some after → after.status ≠ .running := by
  obtain ⟨row, found, current, running, moved⟩ := row_of_finish done
  refine ⟨row, found, running, current, ?_⟩
  intro after present
  obtain rfl := Option.some.inj (moved.symm.trans present)
  exact other

/-- A resolving operation that changes the store found this row running under its generation,
and moved it. -/
private theorem row_of_resolution {store : Store} {op : Op} {generation : Nat}
    (resolves : op.resolution? = some (key, generation)) (changed : store.step op ≠ store) :
    ∃ row, store.delivery? key = some row ∧ row.status = .running ∧
      row.leaseGeneration = generation ∧
      ∀ after, (store.step op).delivery? key = some after → after.status ≠ .running := by
  have performed : ∃ next, op.perform store = .ok next ∧ store.step op = next := by
    unfold Store.step at changed ⊢
    split
    · rename_i next done
      exact ⟨next, done, rfl⟩
    · rename_i failed
      simp [failed] at changed
  obtain ⟨next, done, stepped⟩ := performed
  rw [stepped]
  cases op with
  | complete finishKey finishGeneration ts noticeId =>
    obtain ⟨rfl, rfl⟩ := Prod.mk.inj (Option.some.inj resolves)
    obtain ⟨_, done⟩ := ok_of_map done
    exact moved_of_finish done (by simp)
  | fail finishKey finishGeneration retryAfter ts noticeId =>
    obtain ⟨rfl, rfl⟩ := Prod.mk.inj (Option.some.inj resolves)
    obtain ⟨_, done⟩ := ok_of_map done
    cases retryAfter with
    | none => exact moved_of_finish done (by simp)
    | some deadline => exact moved_of_finish done (by simp)
  | publishSubscription binding operation publishGeneration reply id ts =>
    obtain ⟨rfl, rfl⟩ := Prod.mk.inj (Option.some.inj resolves)
    obtain ⟨_, done⟩ := ok_of_map done
    rcases botsPublishSubscription_ok done with
      rfl | ⟨row, message, posted, found, current, running, _, _, _, frame, _, _, rfl⟩
    · exact absurd stepped changed
    · refine ⟨row, found, running, current, ?_⟩
      intro after present
      have same : posted.delivery? ⟨operation, binding.agent⟩ = some row := by
        rw [frame]
        exact found
      rw [Store.delivery?_updateDeliveries, same] at present
      simp only [Option.map_some, Store.key_of_delivery? found, decide_true, if_true,
        Option.some.injEq] at present
      subst present
      simp [AgentDelivery.published]
  | _ => cases resolves

private theorem ResolvedAt.move {moment generation : Nat}
    (resolved : ResolvedAt ops key moment generation) :
    (deliveryHistory ops key).move moment = .resolve generation := by
  obtain ⟨op, present, resolves, changed⟩ := resolved
  rw [storeAt, stateAt_succ Store.step Store.empty present] at changed
  obtain ⟨row, found, running, current, left⟩ := row_of_resolution resolves changed
  have different : rowAt ops key (moment + 1) ≠ rowAt ops key moment := by
    intro same
    have after : ((storeAt ops moment).step op).delivery? key = some row := by
      rw [← stateAt_succ Store.step Store.empty present]
      exact same.trans found
    exact left row after running
  simp only [deliveryHistory, present, moveBetween, different, if_false]
  cases op with
  | complete | fail | publishSubscription =>
    obtain ⟨_, rfl⟩ := Prod.mk.inj (Option.some.inj resolves)
    rfl
  | _ => cases resolves

private theorem row_of_cell {row : Option AgentDelivery} {phase : Fence.Phase DeliveryStatus}
    {generation : Nat} (cell : row.map AgentDelivery.cell = some ⟨phase, generation⟩) :
    ∃ delivery, row = some delivery ∧ delivery.status.phase = phase ∧
      delivery.leaseGeneration = generation := by
  cases row with
  | none => cases cell
  | some delivery =>
    simp only [Option.map_some, AgentDelivery.cell, Option.some.injEq, Fence.Cell.mk.injEq] at cell
    exact ⟨delivery, rfl, cell.1, cell.2⟩

/-- The fencing contract of one delivery over one run. -/
structure DeliveryFenced (ops : List Op) (key : DeliveryKey) : Prop where
  generation_le : ∀ first second, first ≤ second → ∀ row, rowAt ops key first = some row →
    ∃ later, rowAt ops key second = some later ∧ row.leaseGeneration ≤ later.leaseGeneration
  claim_raises : ∀ moment generation, ClaimedAt ops key moment generation →
    ∃ before after, rowAt ops key moment = some before ∧ before.leaseGeneration < generation ∧
      rowAt ops key (moment + 1) = some after ∧ after.status = .running ∧
      after.leaseGeneration = generation
  claim_unique : ∀ first second generation, ClaimedAt ops key first generation →
    ClaimedAt ops key second generation → first = second
  resolve_claimed : ∀ moment generation, ResolvedAt ops key moment generation →
    ∃ claimed, claimed < moment ∧ ClaimedAt ops key claimed generation ∧
      ∀ between, claimed < between → between ≤ moment →
        ∃ row, rowAt ops key between = some row ∧ row.status = .running ∧
          row.leaseGeneration = generation
  resolve_once : ∀ first second generation, ResolvedAt ops key first generation →
    ResolvedAt ops key second generation → first = second
  terminal_absorbing : ∀ first second, first ≤ second → ∀ row, rowAt ops key first = some row →
    row.status.isTerminal = true → rowAt ops key second = some row
  held_leaves : ∀ moment row, rowAt ops key moment = some row → row.status = .held →
    rowAt ops key (moment + 1) = some row ∨
      (∃ root ts, ops[moment]? = some (.releaseRoot root ts) ∧ row.rootMessageId = some root ∧
        rowAt ops key (moment + 1) = some (row.released ts)) ∨
      ∃ actor ts, ops[moment]? = some (.cancel actor key ts) ∧
        rowAt ops key (moment + 1) = some (row.cancelledAt ts)

private theorem terminal_step {moment : Nat} {row : AgentDelivery}
    (present : rowAt ops key moment = some row) (terminal : row.status.isTerminal = true) :
    rowAt ops key (moment + 1) = some row := by
  rcases rowAt_step ops key moment with ⟨op, _, step⟩ | ⟨_, same⟩
  · rw [present] at step
    generalize rowAt ops key (moment + 1) = after at step
    cases step with
    | unchanged => rfl
    | reaped _ agent limit ts running => simp [running, DeliveryStatus.isTerminal] at terminal
    | claimed _ ts pending => simp [pending, DeliveryStatus.isTerminal] at terminal
    | claimedWithinBudget _ most ts pending => simp [pending, DeliveryStatus.isTerminal] at terminal
    | completed _ ts noticeId running => simp [running, DeliveryStatus.isTerminal] at terminal
    | failed _ retryAfter ts noticeId running =>
      simp [running, DeliveryStatus.isTerminal] at terminal
    | cancelled _ actor ts isOpen => simp [isOpen] at terminal
    | published _ binding operation reply id ts addressed running =>
      simp [running, DeliveryStatus.isTerminal] at terminal
    | released _ root ts held => simp [held, DeliveryStatus.isTerminal] at terminal
  · exact same.trans present

private theorem held_step {moment : Nat} {row : AgentDelivery}
    (present : rowAt ops key moment = some row) (held : row.status = .held) :
    rowAt ops key (moment + 1) = some row ∨
      (∃ root ts, ops[moment]? = some (.releaseRoot root ts) ∧ row.rootMessageId = some root ∧
        rowAt ops key (moment + 1) = some (row.released ts)) ∨
      ∃ actor ts, ops[moment]? = some (.cancel actor key ts) ∧
        rowAt ops key (moment + 1) = some (row.cancelledAt ts) := by
  rcases rowAt_step ops key moment with ⟨op, performed, step⟩ | ⟨_, same⟩
  · rw [present] at step
    generalize rowAt ops key (moment + 1) = after at step ⊢
    cases step with
    | unchanged => exact Or.inl rfl
    | cancelled _ actor ts => exact Or.inr (Or.inr ⟨actor, ts, performed, rfl⟩)
    | released _ root ts _ under => exact Or.inr (Or.inl ⟨root, ts, performed, under, rfl⟩)
    | reaped _ agent limit ts running => simp [held] at running
    | claimed _ ts pending => simp [held] at pending
    | claimedWithinBudget _ most ts pending => simp [held] at pending
    | completed _ ts noticeId running => simp [held] at running
    | failed _ retryAfter ts noticeId running => simp [held] at running
    | published _ binding operation reply id ts addressed running => simp [held] at running
  · exact Or.inl (same.trans present)

/-- Every run of the store keeps the fencing contract of every delivery. -/
theorem delivery_fencing (ops : List Op) (key : DeliveryKey) : DeliveryFenced ops key where
  generation_le := by
    intro first second ordered row present
    have cell : (deliveryHistory ops key).cell first = some row.cell := by
      simp [deliveryHistory, present]
    obtain ⟨later, laterCell, raised⟩ := (deliveryHistory ops key).generation_le ordered cell
    obtain ⟨delivery, found, _, current⟩ := row_of_cell laterCell
    exact ⟨delivery, found, current ▸ raised⟩
  claim_raises := fun _ _ claimed => claimed.raises
  claim_unique := by
    intro first second generation firstClaimed secondClaimed
    obtain ⟨firstMove, firstCell⟩ := firstClaimed.move
    obtain ⟨secondMove, secondCell⟩ := secondClaimed.move
    exact (deliveryHistory ops key).claim_unique firstMove secondMove firstCell secondCell
  resolve_claimed := by
    intro moment generation resolved
    obtain ⟨claimed, before, move, held⟩ := (deliveryHistory ops key).resolve_claimed resolved.move
    refine ⟨claimed, before, ?_, ?_⟩
    · obtain ⟨row, returned, present, _, current, isClaim⟩ := claimedAt_of_move move
      obtain ⟨delivery, found, _, generationHeld⟩ := row_of_cell
        (held (claimed + 1) (by omega) (by omega))
      obtain rfl : row = delivery := Option.some.inj (present.symm.trans found)
      rw [← generationHeld, current]
      exact isClaim
    · intro between after upTo
      obtain ⟨delivery, found, working, current⟩ := row_of_cell (held between after upTo)
      exact ⟨delivery, found, phase_eq_working_iff.mp working, current⟩
  resolve_once := by
    intro first second generation firstResolved secondResolved
    exact (deliveryHistory ops key).resolve_unique firstResolved.move secondResolved.move
  terminal_absorbing := by
    intro first second ordered row present terminal
    exact holds_from (fun moment => rowAt ops key moment = some row)
      (fun _ reached => terminal_step reached terminal) ordered present
  held_leaves := fun _ _ present held => held_step present held

end Runs

section Leases

/-- A running delivery has ten minutes from its claim, which no retry time was after. -/
def AgentDelivery.Timed (row : AgentDelivery) : Prop :=
  row.status = .running → row.leaseDeadline = some (row.updatedAt + 600) ∧
    row.retryDeadline.all (fun retry => retry ≤ row.updatedAt) = true

theorem timed_of_claimWhere {store next : Store} {key : DeliveryKey} {admits : Bool}
    {refusal : HubError} {ts : Int} {row : AgentDelivery}
    (done : claimWhere store key admits refusal ts = .ok (next, row.claimed ts)) :
    (row.claimed ts).Timed := by
  obtain ⟨other, _, claimable, _, same, _⟩ := claimWhere_ok done
  rw [AgentDelivery.claimable, Bool.and_eq_true] at claimable
  exact fun _ => ⟨rfl, same ▸ claimable.2⟩

theorem DeliveryStep.timed {store : Store} {key : DeliveryKey} {op : Op}
    {before after : Option AgentDelivery} (step : DeliveryStep store key op before after)
    (timed : ∀ row ∈ before, row.Timed) : ∀ row ∈ after, row.Timed := by
  cases step with
  | unchanged => exact timed
  | claimed _ _ _ returned | claimedWithinBudget _ _ _ _ returned =>
    rintro _ ⟨⟩
    exact timed_of_claimWhere returned.choose_spec
  | created request =>
    rintro _ ⟨⟩ running
    unfold SendRequest.delivery at running
    cases held : request.hold <;> simp [held] at running
  | failed row retryAfter =>
    rintro _ ⟨⟩ running
    cases retryAfter <;> cases running
  | _ =>
    rintro _ ⟨⟩ running
    cases running

theorem timed_rowAt (ops : List Op) (key : DeliveryKey) (moment : Nat) :
    ∀ row ∈ rowAt ops key moment, row.Timed := by
  induction moment with
  | zero =>
    intro row found
    cases found
  | succ moment ih =>
    rcases rowAt_step ops key moment with ⟨op, _, step⟩ | ⟨_, same⟩
    · exact step.timed ih
    · exact same ▸ ih

/-- A worker keeps a delivery for ten minutes from its claim; a later poll makes it claimable. -/
def LeasesEnd (store : Store) (key : DeliveryKey) : Prop :=
  ∀ row limit ts next queue, store.delivery? key = some row → row.status = .running →
    botsDeliveriesPendingForAgent store key.recipient limit ts = .ok (next, queue) →
    next.delivery? key = some (if ts < row.updatedAt + 600 then row else row.reaped ts) ∧
    (row.updatedAt + 600 ≤ ts → (row.reaped ts).claimable ts = true)

/-- In every run, no delivery stays with a worker that is gone. -/
theorem leases_end (ops : List Op) (key : DeliveryKey) (moment : Nat) :
    LeasesEnd (storeAt ops moment) key := by
  intro row limit ts next queue present running polled
  obtain ⟨deadline, retry⟩ := timed_rowAt ops key moment row present running
  refine ⟨?_, fun late => ?_⟩
  · rw [botsDeliveriesPendingForAgent_ok polled, Store.delivery?_updateDeliveries, present]
    simp only [Option.map_some, Store.key_of_delivery? present, AgentDelivery.expired, running,
      deadline, Option.any_some, decide_true, Bool.true_and, decide_eq_true_eq, ← not_lt, ite_not]
  · show row.retryDeadline.all (fun retry => retry ≤ ts) = true
    simp only [Option.all_eq_true, decide_eq_true_eq] at retry ⊢
    exact fun time found => (retry time found).trans (by omega)

end Leases

end OHHive.Bots
