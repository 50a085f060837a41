import OHHive.Bots.LoopSafety

/-! The turn budget of a chain. The gate counts the deliveries under a root in one store call
and the reply is sent in a later one, so the budget is kept in the runs in which the count a
gate read still stands when its reply is sent. -/

namespace OHHive.Bots

open Foundation

variable {isAlphanumeric : Char → Bool} {budgets : HandoffBudgets} {root : MessageId}

section Counts

/-- The turns recorded under a root that wait for nobody. -/
def nonHeld (store : Store) (root : MessageId) : Nat :=
  store.deliveries.rows.countP (fun row =>
    row.rootMessageId = some root && row.status ≠ .held)

theorem nonHeld_le_turnsUnder (store : Store) (root : MessageId) :
    nonHeld store root ≤ turnsUnder store root := by
  apply List.countP_mono_left
  intro row _ counted
  simp only [Bool.and_eq_true, decide_eq_true_eq] at counted
  simpa using counted.1

/-- A chain starts with a stored message. -/
def RootsStored (store : Store) : Prop :=
  ∀ row ∈ store.deliveries.rows, ∀ root ∈ row.rootMessageId, (store.message? root).isSome

theorem RootsStored.step {store : Store} (stored : RootsStored store) (op : Op) :
    RootsStored (store.step op) := by
  obtain ⟨rewrite, added, rows, steps, origin⟩ := rows_step store op
  intro row member root isRoot
  rw [rows, List.mem_append] at member
  rcases member with kept | new
  · obtain ⟨old, oldMember, rfl⟩ := List.mem_map.mp kept
    obtain ⟨later, same, chain⟩ := (steps old oldMember).sameChain
    rw [Option.some.inj same, chain.root] at isRoot
    obtain ⟨message, found⟩ := Option.isSome_iff_exists.mp (stored old oldMember root isRoot)
    rw [message?_step op found]
    rfl
  · rcases origin with rfl | ⟨request, id, ts, rfl, rfl, sent⟩
    · exact absurd new List.not_mem_nil
    · exact sent.roots row new root isRoot

/-- Nothing is recorded under a message that is not stored. -/
theorem RootsStored.turnsUnder_eq_zero {store : Store} (stored : RootsStored store)
    (absent : store.message? root = none) : turnsUnder store root = 0 := by
  apply List.countP_eq_zero.mpr
  intro row member under
  have present := stored row member root (of_decide_eq_true under)
  rw [absent] at present
  cases present

/-- A held row stays held unless a person cancels it or releases its chain. -/
theorem DeliveryStep.held {store : Store} {key : DeliveryKey} {op : Op}
    {before after : AgentDelivery} (step : DeliveryStep store key op (some before) (some after))
    (held : before.status = .held) :
    after.status = .held ∨ (∃ actor ts, op = .cancel actor key ts) ∨
      ∃ root ts, op = .releaseRoot root ts ∧ before.rootMessageId = some root := by
  cases step with
  | unchanged => exact Or.inl held
  | cancelled row actor ts => exact Or.inr (Or.inl ⟨actor, ts, rfl⟩)
  | released row root ts _ under => exact Or.inr (Or.inr ⟨root, ts, rfl, under⟩)
  | reaped _ _ _ _ running | completed _ _ _ running | failed _ _ _ _ running
  | published _ _ _ _ _ _ _ running => exact absurd (held.symm.trans running) (by decide)
  | claimed _ _ pending | claimedWithinBudget _ _ _ pending =>
    exact absurd (held.symm.trans pending) (by decide)

end Counts

section Gate

/-- The steps that keep the budget of a root. A reply that was not held finds the count its
gate read, or still fits on top of what it finds; the message that starts the chain addresses
no more agents than the budget; and nobody cancels a held turn or releases the chain. -/
def Action.KeepsBudget (budgets : HandoffBudgets) (root : MessageId) (system : System) :
    Action → Prop
  | .transact (.send request id _) =>
      request.cause = none ∧
        (id = root → request.hold = false → request.draft.kind ≠ .system →
          request.recipientIds.length ≤ budgets.maxTurnsPerRoot)
  | .transact (.cancel _ key _) =>
      ∀ row ∈ system.store.delivery? key, row.rootMessageId = some root → row.status ≠ .held
  | .transact (.releaseRoot released _) => released ≠ root
  | .send worker _ _ _ =>
    match system.worker worker with
    | .gated plan spent false =>
        (replyCause plan.delivery).rootMessageId = root → plan.recipients ≠ [] →
          spent = some (turnsUnder system.store root) ∨
            turnsUnder system.store root + plan.recipients.length ≤ budgets.maxTurnsPerRoot
    | _ => True
  | _ => True

instance (budgets : HandoffBudgets) (root : MessageId) (system : System) (action : Action) :
    Decidable (action.KeepsBudget budgets root system) := by
  unfold Action.KeepsBudget
  split
  · infer_instance
  · infer_instance
  · infer_instance
  · split <;> infer_instance
  · infer_instance

private theorem nonHeld_of_rewrite {system : System} {action : Action} {op : Op}
    (keeps : action.KeepsBudget budgets root system)
    (asked : action.op? budgets system = some op) {rewrite : AgentDelivery → AgentDelivery}
    (steps : ∀ row ∈ system.store.deliveries.rows,
      DeliveryStep system.store row.key op (some row) (some (rewrite row))) :
    (system.store.deliveries.rows.map rewrite).countP (fun row =>
      row.rootMessageId = some root && row.status ≠ .held) ≤ nonHeld system.store root := by
  rw [List.countP_map]
  apply List.countP_mono_left
  intro row member counted
  simp only [Function.comp_apply, Bool.and_eq_true, decide_eq_true_eq] at counted ⊢
  obtain ⟨under, notHeld⟩ := counted
  obtain ⟨later, same, chain⟩ := (steps row member).sameChain
  rw [Option.some.inj same, chain.root] at under
  refine ⟨under, ?_⟩
  intro held
  rcases (steps row member).held held with still | ⟨actor, ts, rfl⟩ | ⟨released, ts, rfl, isRoot⟩
  · exact notHeld still
  · obtain rfl := Action.op?_eq_own asked rfl
    exact keeps row (Store.delivery?_eq_some_iff.mpr ⟨member, rfl⟩) under held
  · obtain rfl := Action.op?_eq_own asked rfl
    exact keeps (Option.some.inj (isRoot.symm.trans under))

/-- The rows of a send that count under a root. -/
private theorem countP_deliveries_le (root : MessageId) (request : SendRequest) (id : MessageId)
    (ts : Int) :
    (request.deliveries id ts).countP (fun row =>
        row.rootMessageId = some root && row.status ≠ .held) ≤
      if (request.cause.map DeliveryCause.rootMessageId).getD id = root ∧ request.hold = false ∧
          request.draft.kind ≠ .system then request.recipientIds.length else 0 := by
  unfold SendRequest.deliveries
  split
  · exact Nat.zero_le _
  · rename_i addressed
    split
    · exact Nat.le_trans List.countP_le_length (by rw [List.length_map])
    · rename_i other
      rw [Nat.le_zero, List.countP_eq_zero]
      intro row member counted
      obtain ⟨recipient, _, rfl⟩ := List.mem_map.mp member
      rw [Bool.and_eq_true] at counted
      have under := Option.some.inj (of_decide_eq_true counted.1)
      have notHeld := of_decide_eq_true counted.2
      apply other
      refine ⟨under, ?_, addressed⟩
      cases held : request.hold with
      | false => rfl
      | true => exact absurd (by simp [SendRequest.delivery, held]) notHeld

/-- The count a reply's gate read leaves room for it, when it still stands. -/
private theorem fits_of_affordable {store : Store} {plan : ReplyPlan} {spent : Option Nat}
    (room : budgets.maxTurnsPerRoot < u32Max) (affordable : Affordable budgets plan spent)
    (woken : plan.recipients ≠ [])
    (stands : spent = some (turnsUnder store root) ∨
      turnsUnder store root + plan.recipients.length ≤ budgets.maxTurnsPerRoot) :
    turnsUnder store root + plan.recipients.length ≤ budgets.maxTurnsPerRoot := by
  rcases stands with rfl | fits
  · obtain ⟨count, same, within⟩ := affordable woken
    obtain rfl := Option.some.inj same
    unfold saturatingAdd at within
    omega
  · exact fits

/-- A step that keeps the budget leaves no more turns under the root than it allows. -/
theorem nonHeld_step {system : System} {action : Action}
    (room : budgets.maxTurnsPerRoot < u32Max)
    (known : ∀ worker, (system.worker worker).Known budgets system.store)
    (stored : RootsStored system.store) (keeps : action.KeepsBudget budgets root system)
    (within : nonHeld system.store root ≤ budgets.maxTurnsPerRoot) :
    nonHeld (system.step isAlphanumeric budgets action).store root ≤ budgets.maxTurnsPerRoot := by
  rcases System.store_step isAlphanumeric budgets system action with same | ⟨op, asked, same⟩
  · rw [same]
    exact within
  · rw [same]
    obtain ⟨rewrite, added, rows, steps, origin⟩ := rows_step system.store op
    have kept := nonHeld_of_rewrite keeps asked steps
    rw [nonHeld, rows, List.countP_append]
    rcases origin with rfl | ⟨request, id, ts, rfl, rfl, sent⟩
    · exact Nat.le_trans kept within
    · have new := countP_deliveries_le root request id ts
      rcases Action.op?_eq_send asked with
        rfl | ⟨worker, fault, plan, spent, hold, rfl, phase, rfl⟩ |
        ⟨worker, fault, plan, message, index, notice, _, rfl⟩
      · obtain ⟨causeless, few⟩ := keeps
        simp only [causeless, Option.map_none, Option.getD_none] at new
        split at new
        · rename_i starts
          have absent : system.store.message? root = none := starts.1 ▸ sent.fresh
          have before := nonHeld_le_turnsUnder system.store root
          rw [stored.turnsUnder_eq_zero absent] at before
          have addressed := few starts.1 starts.2.1 starts.2.2
          omega
        · omega
      · split at new
        · rename_i continues
          obtain ⟨under, unheld, _⟩ := continues
          change (replyCause plan.delivery).rootMessageId = root at under
          change hold = false at unheld
          subst unheld
          have planned := known worker
          rw [phase] at planned
          simp only [Action.KeepsBudget, phase] at keeps
          have before := nonHeld_le_turnsUnder system.store root
          change _ ≤ plan.recipients.length at new
          by_cases woken : plan.recipients = []
          · rw [woken, List.length_nil] at new
            omega
          · have fits := fits_of_affordable room (planned.2 rfl) woken (keeps under woken)
            omega
        · omega
      · split at new
        · rename_i chats
          exact absurd rfl chats.2.2
        · omega

/-- In every run whose steps all keep the budget of a root, the turns recorded under it that
are not held never exceed the budget. -/
theorem turn_budget (isAlphanumeric : Char → Bool) (budgets : HandoffBudgets) (root : MessageId)
    (room : budgets.maxTurnsPerRoot < u32Max) (actions : List Action)
    (keeps : EachStep (System.step isAlphanumeric budgets) System.start
      (fun system action => action.KeepsBudget budgets root system) actions) (moment : Nat) :
    nonHeld (systemAt isAlphanumeric budgets actions moment).store root ≤
      budgets.maxTurnsPerRoot := by
  have invariant := keeps.invariant (fun system : System =>
    (∀ worker, (system.worker worker).Known budgets system.store) ∧
      RootsStored system.store ∧ nonHeld system.store root ≤ budgets.maxTurnsPerRoot)
    ⟨fun _ => trivial, fun _ member => absurd member List.not_mem_nil, Nat.zero_le _⟩
    (fun system action guarded ⟨known, stored, within⟩ => by
      refine ⟨known_step action known, ?_, nonHeld_step room known stored guarded within⟩
      rcases System.store_step isAlphanumeric budgets system action with same | ⟨op, _, same⟩
      · exact same ▸ stored
      · exact same ▸ stored.step op) moment
  exact invariant.2.2

end Gate

section Races

/-- Budgets of three turns for each chain. -/
def raceBudgets : HandoffBudgets :=
  { maxActiveTurnsPerAgent := 1
    maxActiveSpecialistHandoffsPerRun := 1
    maxDepth := 6
    maxTurnsPerRoot := 3
    width_le := one_le_u32Max
    depth_le := six_le_u32Max }

/-- Two workers draft a reply to the owner's one message, each naming the third agent. -/
def twoDrafts : List Action :=
  [.transact (openRoom 3), .transact (.send (ownerMessage [0, 1]) 1 0),
    .claim 0 ⟨1, 0⟩ 1 .none, .claim 1 ⟨1, 1⟩ 1 .none,
    .locate 0 .none, .authorize 0 .none, .brief 0 .none, .run 0 (.reply "@agent2"),
    .locate 1 .none, .authorize 1 .none, .brief 1 .none, .run 1 (.reply "@agent2")]

/-- Both gates read two turns before either reply is sent. -/
def race : List Action :=
  twoDrafts ++ [.gate 0 .none, .gate 1 .none, .send 0 2 2 .none, .send 1 3 2 .none]

/-- Each gate is followed by its own send. -/
def turns : List Action :=
  twoDrafts ++ [.gate 0 .none, .send 0 2 2 .none, .gate 1 .none, .send 1 3 2 .none]

/-- Nobody released the root, and nothing else happened than the two replies. -/
theorem race_quiet : ∀ action ∈ race, action.Causeless ∧
    ∀ released ts, action ≠ .transact (.releaseRoot released ts) := by
  simp [race, twoDrafts, Action.Causeless, openRoom, ownerMessage]

/-- The gate does not bound the turns of every run: two gates that read before either reply
is sent let the chain run past its budget. -/
theorem turns_past_budget :
    ¬ ∀ (isAlphanumeric : Char → Bool) (budgets : HandoffBudgets) (root : MessageId)
      (actions : List Action),
      (∀ action ∈ actions, action.Causeless ∧
        ∀ released ts, action ≠ .transact (.releaseRoot released ts)) →
      ∀ moment, nonHeld (systemAt isAlphanumeric budgets actions moment).store root ≤
        budgets.maxTurnsPerRoot := by
  intro bounded
  have within := bounded Char.isAlphanum raceBudgets 1 race race_quiet 16
  revert within
  decide

/-- One gate after the other, the second reply is held. -/
theorem turn_budget_turns :
    nonHeld (systemAt Char.isAlphanum raceBudgets turns 16).store 1 ≤ 3 :=
  turn_budget Char.isAlphanum raceBudgets 1 (by decide) turns (eachStep_of_lt (by decide)) 16

end Races

end OHHive.Bots
