import OHHive.Bots.TurnBudget

/-! What a release buys. The gate counts every delivery ever made under a root, the turns
spent before a release and the released ones included, so a released chain is held again
before it has spent another full budget. -/

namespace OHHive.Bots

open Foundation

section Growth

theorem turnsUnder_le_step (store : Store) (op : Op) (root : MessageId) :
    turnsUnder store root ≤ turnsUnder (store.step op) root := by
  obtain ⟨rewrite, added, rows, steps, _⟩ := rows_step store op
  have kept : (store.deliveries.rows.map rewrite).countP (fun row => row.rootMessageId = some root) =
      turnsUnder store root := by
    rw [List.countP_map]
    apply List.countP_congr
    intro row member
    obtain ⟨later, same, chain⟩ := (steps row member).sameChain
    simp only [Function.comp_apply, Option.some.inj same, chain.root]
  rw [turnsUnder, turnsUnder, rows, List.countP_append, kept]
  exact Nat.le_add_right _ _

variable (isAlphanumeric : Char → Bool) (budgets : HandoffBudgets)

/-- The turns under a root only ever grow. -/
theorem turnsUnder_mono (actions : List Action) (root : MessageId) {first second : Nat}
    (ordered : first ≤ second) :
    turnsUnder (systemAt isAlphanumeric budgets actions first).store root ≤
      turnsUnder (systemAt isAlphanumeric budgets actions second).store root := by
  apply stateAt_relates (System.step isAlphanumeric budgets) System.start
    (fun earlier later : System => turnsUnder earlier.store root ≤ turnsUnder later.store root)
    (fun _ => Nat.le_refl _) (fun _ _ _ => Nat.le_trans) _ actions ordered
  intro system action
  rcases System.store_step isAlphanumeric budgets system action with same | ⟨op, _, same⟩
  · rw [same]
  · rw [same]
    exact turnsUnder_le_step system.store op root

end Growth

section Gates

def Phase.routed? : Phase → Option ReplyPlan
  | .routed plan => some plan
  | _ => none

/-- The worker is about to send its reply as a held one. -/
def Phase.isHeld : Phase → Bool
  | .gated _ _ hold => hold
  | _ => false

theorem Phase.routed?_eq_some_iff {phase : Phase} {plan : ReplyPlan} :
    phase.routed? = some plan ↔ phase = .routed plan := by
  cases phase <;> simp [Phase.routed?]

/-- The gate passes a reply that wakes somebody when it can read the count and the count
leaves room. -/
theorem gate_passes_iff (isAlphanumeric : Char → Bool) {budgets : HandoffBudgets}
    {system : System} {worker : Nat} (fault : Fault) {plan : ReplyPlan}
    (phase : system.worker worker = .routed plan) (known : PlanKnown budgets system.store plan)
    (woken : plan.recipients ≠ []) :
    ((system.step isAlphanumeric budgets (.gate worker fault)).worker worker).isHeld = false ↔
      fault = .none ∧
        turnsUnder system.store (replyCause plan.delivery).rootMessageId ≤ u32Max ∧
        saturatingAdd (turnsUnder system.store (replyCause plan.delivery).rootMessageId)
          plan.recipients.length ≤ budgets.maxTurnsPerRoot := by
  generalize counted : turnsUnder system.store (replyCause plan.delivery).rootMessageId = count
  have read : attemptRead fault
      (botsTurnsForRoot system.store (replyCause plan.delivery).rootMessageId) =
      if fault = .none ∧ count ≤ u32Max then some count else none := by
    rw [botsTurnsForRoot, counted, asU32]
    cases fault <;> by_cases readable : count ≤ u32Max <;> simp [attemptRead, readable]
  have decides := turnBudgetDecision_eq_proceed_iff
    (attemptRead fault (botsTurnsForRoot system.store (replyCause plan.delivery).rootMessageId))
    budgets.maxTurnsPerRoot known.inRange
  have opened : plan.recipients.isEmpty = false := by simpa using woken
  simp only [System.step, phase, opened, Bool.false_eq_true, if_false]
  split
  · rename_i proceeds
    obtain ⟨found, isRead, within⟩ := decides.mp proceeds
    rw [read] at isRead
    split at isRead
    · rename_i readable
      obtain rfl := Option.some.inj isRead
      simp [System.worker_enter, Phase.isHeld, readable, within]
    · cases isRead
  · rename_i notice held
    have refused : ¬ (fault = .none ∧ count ≤ u32Max ∧
        saturatingAdd count plan.recipients.length ≤ budgets.maxTurnsPerRoot) := by
      rintro ⟨healthy, readable, within⟩
      have proceeds := decides.mpr ⟨count, by rw [read, if_pos ⟨healthy, readable⟩], within⟩
      rw [held] at proceeds
      cases proceeds
    simp [System.worker_enter, Phase.isHeld, refused]

end Gates

section Releases

variable (isAlphanumeric : Char → Bool) (budgets : HandoffBudgets) (actions : List Action)
  (root : MessageId)

/-- A person releases the root while deliveries under it are held. -/
structure IsRelease (release : Nat) : Prop where
  action : ∃ ts, actions[release]? = some (.transact (.releaseRoot root ts))
  held : ∃ row ∈ (systemAt isAlphanumeric budgets actions release).store.deliveries.rows,
    row.rootMessageId = some root ∧ row.status = .held

/-- A worker takes a reply under the root, one that wakes somebody, to the gate. -/
structure AtGate (moment worker : Nat) (fault : Fault) (plan : ReplyPlan) : Prop where
  action : actions[moment]? = some (.gate worker fault)
  routed : ((systemAt isAlphanumeric budgets actions moment).worker worker).routed? = some plan
  under : (replyCause plan.delivery).rootMessageId = root
  woken : plan.recipients ≠ []

/-- The turns recorded under the root after a release, up to a later moment. -/
def turnsSince (release moment : Nat) : Nat :=
  turnsUnder (systemAt isAlphanumeric budgets actions moment).store root -
    turnsUnder (systemAt isAlphanumeric budgets actions (release + 1)).store root

/-- What a release promises: no later reply is held again that keeps the turns since the
release within the budget. -/
def Headroom (release : Nat) : Prop :=
  ∀ moment worker fault plan, release < moment →
    AtGate isAlphanumeric budgets actions root moment worker fault plan →
    turnsSince isAlphanumeric budgets actions root release moment + plan.recipients.length ≤
      budgets.maxTurnsPerRoot →
    ((systemAt isAlphanumeric budgets actions (moment + 1)).worker worker).isHeld = false

/-- The turns already recorded at the release leave room for the replies that follow it, and
their gates can read the count. -/
def Unspent (release : Nat) : Prop :=
  ∀ moment worker fault plan, release < moment →
    AtGate isAlphanumeric budgets actions root moment worker fault plan →
    turnsSince isAlphanumeric budgets actions root release moment + plan.recipients.length ≤
      budgets.maxTurnsPerRoot →
    fault = .none ∧
      turnsUnder (systemAt isAlphanumeric budgets actions moment).store root ≤ u32Max ∧
      saturatingAdd (turnsUnder (systemAt isAlphanumeric budgets actions (release + 1)).store root +
        turnsSince isAlphanumeric budgets actions root release moment) plan.recipients.length ≤
        budgets.maxTurnsPerRoot

variable {isAlphanumeric budgets actions root}

variable (isAlphanumeric budgets actions root) in
theorem turnsUnder_eq_add_turnsSince {release moment : Nat} (later : release < moment) :
    turnsUnder (systemAt isAlphanumeric budgets actions moment).store root =
      turnsUnder (systemAt isAlphanumeric budgets actions (release + 1)).store root +
        turnsSince isAlphanumeric budgets actions root release moment := by
  have grown : turnsUnder (systemAt isAlphanumeric budgets actions (release + 1)).store root ≤
      turnsUnder (systemAt isAlphanumeric budgets actions moment).store root :=
    turnsUnder_mono isAlphanumeric budgets actions root later
  unfold turnsSince
  omega

theorem AtGate.passes_iff {moment worker : Nat} {fault : Fault} {plan : ReplyPlan}
    (gate : AtGate isAlphanumeric budgets actions root moment worker fault plan) :
    ((systemAt isAlphanumeric budgets actions (moment + 1)).worker worker).isHeld = false ↔
      fault = .none ∧
        turnsUnder (systemAt isAlphanumeric budgets actions moment).store root ≤ u32Max ∧
        saturatingAdd (turnsUnder (systemAt isAlphanumeric budgets actions moment).store root)
          plan.recipients.length ≤ budgets.maxTurnsPerRoot := by
  have phase := Phase.routed?_eq_some_iff.mp gate.routed
  have known := phase_known isAlphanumeric budgets actions moment worker
  rw [phase] at known
  have passes := gate_passes_iff isAlphanumeric fault phase known gate.woken
  rw [gate.under] at passes
  rw [systemAt, stateAt_succ _ _ gate.action]
  exact passes

theorem AtGate.isHeld_of_over {moment worker : Nat} {fault : Fault} {plan : ReplyPlan}
    (gate : AtGate isAlphanumeric budgets actions root moment worker fault plan)
    (bounded : budgets.maxTurnsPerRoot < u32Max)
    (beyond : budgets.maxTurnsPerRoot <
      turnsUnder (systemAt isAlphanumeric budgets actions moment).store root +
        plan.recipients.length) :
    ((systemAt isAlphanumeric budgets actions (moment + 1)).worker worker).isHeld = true := by
  rw [← Bool.not_eq_false, gate.passes_iff]
  rintro ⟨_, _, within⟩
  unfold saturatingAdd at within
  omega

/-- A held row under the root is one turn that the release does not give back. -/
theorem IsRelease.turnsUnder_pos {release : Nat}
    (released : IsRelease isAlphanumeric budgets actions root release) :
    0 < turnsUnder (systemAt isAlphanumeric budgets actions (release + 1)).store root := by
  obtain ⟨row, member, under, _⟩ := released.held
  apply Nat.lt_of_lt_of_le _
    (turnsUnder_mono isAlphanumeric budgets actions root (Nat.le_succ release))
  exact List.countP_pos_iff.mpr ⟨row, member, by simpa using under⟩

/-- A release as the code makes it: when it keeps its promise, and what it never buys. -/
structure ReleaseBuys (isAlphanumeric : Char → Bool) (budgets : HandoffBudgets)
    (actions : List Action) (root : MessageId) (release : Nat) : Prop where
  headroom_iff : Headroom isAlphanumeric budgets actions root release ↔
    Unspent isAlphanumeric budgets actions root release
  short : budgets.maxTurnsPerRoot < u32Max → ∀ moment worker fault plan, release < moment →
    AtGate isAlphanumeric budgets actions root moment worker fault plan →
    budgets.maxTurnsPerRoot ≤
      turnsSince isAlphanumeric budgets actions root release moment + plan.recipients.length →
    ((systemAt isAlphanumeric budgets actions (moment + 1)).worker worker).isHeld = true
  exhausted : budgets.maxTurnsPerRoot < u32Max →
    budgets.maxTurnsPerRoot ≤
      turnsUnder (systemAt isAlphanumeric budgets actions (release + 1)).store root →
    ∀ moment worker fault plan, release < moment →
      AtGate isAlphanumeric budgets actions root moment worker fault plan →
      ((systemAt isAlphanumeric budgets actions (moment + 1)).worker worker).isHeld = true

/-- A release keeps its promise exactly in the runs whose later replies fit on top of the
turns already recorded; the reply that would spend the last of another budget is held, and
once a budget is spent every reply that wakes somebody is. -/
theorem release_headroom (isAlphanumeric : Char → Bool) (budgets : HandoffBudgets)
    (actions : List Action) (root : MessageId) (release : Nat)
    (released : IsRelease isAlphanumeric budgets actions root release) :
    ReleaseBuys isAlphanumeric budgets actions root release := by
  constructor
  · constructor
    · intro headroom moment worker fault plan later gate within
      have passes := gate.passes_iff.mp (headroom moment worker fault plan later gate within)
      rw [← turnsUnder_eq_add_turnsSince isAlphanumeric budgets actions root later]
      exact passes
    · intro unspent moment worker fault plan later gate within
      have fits := unspent moment worker fault plan later gate within
      rw [← turnsUnder_eq_add_turnsSince isAlphanumeric budgets actions root later] at fits
      exact gate.passes_iff.mpr fits
  · intro bounded moment worker fault plan later gate last
    have pos := released.turnsUnder_pos
    have total := turnsUnder_eq_add_turnsSince isAlphanumeric budgets actions root later
    exact gate.isHeld_of_over bounded (by omega)
  · intro bounded spent moment worker fault plan later gate
    have total := turnsUnder_eq_add_turnsSince isAlphanumeric budgets actions root later
    have woken := List.length_pos_of_ne_nil gate.woken
    exact gate.isHeld_of_over bounded (by omega)

end Releases

section Examples

/-- Budgets of one turn for each chain. -/
def singleTurn : HandoffBudgets :=
  { maxActiveTurnsPerAgent := 1
    maxActiveSpecialistHandoffsPerRun := 1
    maxDepth := 6
    maxTurnsPerRoot := 1
    width_le := one_le_u32Max
    depth_le := six_le_u32Max
    turns_le := one_le_u32Max }

/-- The first reply is held, the owner releases the chain, and the released turn replies. -/
def releasedChain : List Action :=
  [.transact (openRoom 2), .transact (.send (ownerMessage [0]) 1 0),
    .claim 0 ⟨1, 0⟩ 1 .none, .locate 0 .none, .authorize 0 .none, .brief 0 .none,
    .run 0 (.reply "@agent1"), .gate 0 .none, .send 0 2 2 .none,
    .transact (.releaseRoot 1 3),
    .claim 1 ⟨2, 1⟩ 4 .none, .locate 1 .none, .authorize 1 .none, .brief 1 .none,
    .run 1 (.reply "@agent0"), .gate 1 .none]

theorem isRelease_releasedChain :
    IsRelease Char.isAlphanum singleTurn releasedChain 1 9 :=
  ⟨⟨3, rfl⟩, by decide⟩

private theorem atGate_releasedChain : ∃ plan,
    AtGate Char.isAlphanum singleTurn releasedChain 1 15 1 .none plan ∧
      plan.recipients.length = 1 := by
  have routed : ∃ plan ∈ ((systemAt Char.isAlphanum singleTurn releasedChain 15).worker 1).routed?,
      (replyCause plan.delivery).rootMessageId = 1 ∧ plan.recipients ≠ [] ∧
        plan.recipients.length = 1 := by decide
  obtain ⟨plan, isRouted, under, woken, one⟩ := routed
  exact ⟨plan, ⟨rfl, isRouted, under, woken⟩, one⟩

/-- A release does not buy every chain another full budget: the first reply after it, the
first turn of a budget of one, is held again. -/
theorem no_headroom :
    ¬ ∀ (isAlphanumeric : Char → Bool) (budgets : HandoffBudgets) (actions : List Action)
      (root : MessageId) (release : Nat), IsRelease isAlphanumeric budgets actions root release →
      Headroom isAlphanumeric budgets actions root release := by
  intro promised
  have headroom := promised _ _ _ _ _ isRelease_releasedChain
  obtain ⟨plan, gate, one⟩ := atGate_releasedChain
  have passes := headroom 15 1 .none plan (by decide) gate (by rw [one]; decide)
  revert passes
  decide

/-- The run of the one held and released reply. -/
theorem release_headroom_releasedChain :
    ReleaseBuys Char.isAlphanum singleTurn releasedChain 1 9 :=
  release_headroom Char.isAlphanum singleTurn releasedChain 1 9 isRelease_releasedChain

end Examples

end OHHive.Bots
