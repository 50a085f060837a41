import OHHive.Bots.LoopSafety

/-! The concurrency budget of an agent. Only a claim makes a delivery running, and a budgeted
claim counts the running ones in the statement that claims. -/

namespace OHHive.Bots

open Foundation

variable {agent : AgentId} {most : Nat} {store : Store} {op : Op}

/-- The deliveries of an agent that are mid-turn, as `bots_active_turns_for_agent` counts them. -/
def activeTurns (store : Store) (agent : AgentId) : Nat :=
  store.deliveries.rows.countP (fun delivery =>
    delivery.key.recipient = agent && delivery.status = .running)

/-- Claims are made within a budget only. -/
def Op.ClaimsWithin (most : Nat) : Op → Prop
  | .claim _ _ => False
  | .claimWithinBudget _ budget _ => budget = most
  | _ => True

instance (most : Nat) (op : Op) : Decidable (op.ClaimsWithin most) := by
  unfold Op.ClaimsWithin
  split <;> infer_instance

/-- A row that is running after a step was running before, or a claim of it was admitted. -/
theorem DeliveryStep.running {key : DeliveryKey} {before after : AgentDelivery}
    (step : DeliveryStep store key op (some before) (some after))
    (running : after.status = .running) :
    before.status = .running ∨ (∃ ts, op = .claim key ts) ∨
      ∃ most ts next, op = .claimWithinBudget key most ts ∧
        botsDeliveryClaimWithinBudget store key most ts = .ok (next, after) := by
  cases step with
  | unchanged => exact Or.inl running
  | claimed _ ts => exact Or.inr (Or.inl ⟨ts, rfl⟩)
  | claimedWithinBudget _ most ts _ returned =>
    obtain ⟨next, done⟩ := returned
    exact Or.inr (Or.inr ⟨most, ts, next, rfl, done⟩)
  | reaped | released | cancelled | completed | published => cases running
  | failed _ retryAfter =>
    cases retryAfter with
    | none => cases running
    | some => cases running

/-- An admitted claim found its agent below the budget. -/
theorem activeTurns_lt_of_claim {key : DeliveryKey} {ts : Int} {next : Store}
    {delivery : AgentDelivery}
    (done : botsDeliveryClaimWithinBudget store key most ts = .ok (next, delivery)) :
    activeTurns store key.recipient < most := by
  obtain ⟨_, _, _, admits, _⟩ := claimWhere_ok done
  exact of_decide_eq_true admits

/-- No send creates a running delivery. -/
theorem countP_running_deliveries (request : SendRequest) (id : MessageId) (ts : Int)
    (agent : AgentId) :
    (request.deliveries id ts).countP (fun delivery =>
      delivery.key.recipient = agent && delivery.status = .running) = 0 := by
  apply List.countP_eq_zero.mpr
  intro delivery member counted
  have running := of_decide_eq_true (Bool.and_eq_true_iff.mp counted).2
  unfold SendRequest.deliveries at member
  split at member
  · exact absurd member List.not_mem_nil
  · obtain ⟨recipient, _, rfl⟩ := List.mem_map.mp member
    cases held : request.hold <;> simp [SendRequest.delivery, held] at running

private theorem countP_or_le {Row : Type} (rows : List Row) (first second : Row → Bool) :
    rows.countP (fun row => first row || second row) ≤ rows.countP first + rows.countP second := by
  induction rows with
  | nil => exact Nat.le_refl 0
  | cons row rest ih =>
    simp only [List.countP_cons]
    cases first row <;> cases second row <;> simp <;> omega

/-- A step whose claim, if it is one, is budgeted keeps every agent within the budget. -/
theorem activeTurns_step (budgeted : op.ClaimsWithin most) (within : activeTurns store agent ≤ most) :
    activeTurns (store.step op) agent ≤ most := by
  obtain ⟨rewrite, added, rows, steps, origin⟩ := rows_step store op
  have new : added.countP (fun delivery =>
      delivery.key.recipient = agent && delivery.status = .running) = 0 := by
    rcases origin with rfl | ⟨request, id, ts, rfl, rfl, _⟩
    · rfl
    · exact countP_running_deliveries request id ts agent
  have after : activeTurns (store.step op) agent =
      store.deliveries.rows.countP (fun row => (rewrite row).key.recipient = agent &&
        (rewrite row).status = .running) := by
    rw [activeTurns, rows, List.countP_append, new, List.countP_map]
    rfl
  have sameKey : ∀ row ∈ store.deliveries.rows, (rewrite row).key = row.key := by
    intro row member
    obtain ⟨later, same, chain⟩ := (steps row member).sameChain
    exact Option.some.inj same ▸ chain.key
  rw [after]
  by_cases claims : ∃ row ∈ store.deliveries.rows, (rewrite row).key.recipient = agent ∧
      (rewrite row).status = .running ∧ row.status ≠ .running
  · obtain ⟨claimed, member, recipient, running, idle⟩ := claims
    rcases (steps claimed member).running running with was | ⟨ts, rfl⟩ | ⟨budget, ts, next, rfl, done⟩
    · exact absurd was idle
    · exact absurd budgeted id
    · obtain rfl : budget = most := budgeted
      have below := activeTurns_lt_of_claim done
      rw [← sameKey claimed member, recipient] at below
      have only : store.deliveries.rows.countP (fun row => (rewrite row).key.recipient = agent &&
          (rewrite row).status = .running) ≤ store.deliveries.rows.countP (fun row =>
            (row.key.recipient = agent && row.status = .running) || row.key = claimed.key) := by
        apply List.countP_mono_left
        intro row rowMember counted
        simp only [Bool.and_eq_true, decide_eq_true_eq, Bool.or_eq_true] at counted ⊢
        rw [sameKey row rowMember] at counted
        rcases (steps row rowMember).running counted.2 with was | ⟨_, other⟩ | ⟨_, _, _, same, _⟩
        · exact Or.inl ⟨counted.1, was⟩
        · cases other
        · injection same with keys
          exact Or.inr keys.symm
      have one := store.deliveries.countP_le_one AgentDelivery.key (fun _ _ => id) claimed.key
      have both := countP_or_le store.deliveries.rows
        (fun row => row.key.recipient = agent && row.status = .running)
        (fun row => row.key = claimed.key)
      unfold activeTurns at below
      omega
  · apply Nat.le_trans _ within
    apply List.countP_mono_left
    intro row member counted
    simp only [Bool.and_eq_true, decide_eq_true_eq] at counted ⊢
    refine ⟨sameKey row member ▸ counted.1, ?_⟩
    by_contra idle
    exact claims ⟨row, member, counted.1, counted.2, idle⟩

/-- When every claim is made within one budget, no agent ever has more deliveries running than
the budget allows, whatever pollers, senders, reapers and people do meanwhile. -/
theorem concurrency_budget (ops : List Op) (most : Nat)
    (budgeted : ∀ op ∈ ops, op.ClaimsWithin most) (agent : AgentId) (moment : Nat) :
    activeTurns (storeAt ops moment) agent ≤ most :=
  stateAt_invariant Store.step Store.empty ops (fun store => activeTurns store agent ≤ most)
    (Nat.zero_le most) (fun _ op member within => activeTurns_step (budgeted op member) within)
    moment

/-- Two messages to one agent, and two pollers that claim both within a budget of one turn. -/
def twoPollers : List Op :=
  [openRoom 1,
    .send (ownerMessage [0]) 1 0,
    .send { ownerMessage [0] with clientRequestId := "again" } 2 0,
    .claimWithinBudget ⟨1, 0⟩ 1 0,
    .claimWithinBudget ⟨2, 0⟩ 1 0]

theorem concurrency_budget_twoPollers :
    activeTurns (storeAt twoPollers 4) 0 = 1 ∧ activeTurns (storeAt twoPollers 5) 0 ≤ 1 :=
  ⟨by decide, concurrency_budget twoPollers 1 (by decide) 0 5⟩

end OHHive.Bots
