import OHHive.LocalHub.Statements

/-! A claim serves the first ready card its session may take, as long as no card ahead of it fails
the checks of another subsystem: such a failure is the claim's own. -/

namespace OHHive.LocalHub

open Foundation

variable {around : Surroundings} {board next : Board} {hub : Session}

section Eligibility

/-- The session may look at the card: it is in scope and for this computer, and a remotely
prepared card is looked at for an explicit run only. -/
structure Addressed (around : Surroundings) (hub : Session) (card : ClaimedCard) : Prop where
  scope : ∀ id ∈ hub.claimScope, id = card.id
  target : ∀ target ∈ card.requiredCapabilities.targetNodeId, target = hub.node
  explicit : (around.preparation card.id).isSome = hub.runScope.isSome

/-- The other subsystems vouch for the card's agent and, in an explicit run, for the computer. -/
structure Vouched (around : Surroundings) (hub : Session) (card : ClaimedCard) : Prop where
  assigned : around.assignment card = .ok ()
  enlisted : hub.runScope.isSome → ∃ owner, around.verifiedOwner hub.node = .ok owner ∧
    around.verifyTarget owner hub.node = .ok ()

/-- A run that may start: queued, neither stopped nor retried, and the session's first attempt
at the card. -/
structure Startable (board : Board) (hub : Session) (card : ClaimedCard)
    (operation : OperationId) : Prop where
  queued : ∃ run ∈ board.privateRuns.rows, run.id = operation ∧ run.cardId = card.id ∧
    run.targetNodeId = hub.node ∧ run.state = .queued
  unstopped : ∀ stop ∈ board.privateRunStops.rows, stop.operationId ≠ operation
  current : ∀ retry ∈ board.privateRunRetries.rows, retry.previousId ≠ operation
  fresh : ∀ old ∈ board.privateRuns.rows, old.cardId = card.id → old.id ≠ operation →
    old.session ≠ some hub.session

/-- The node can do the work and has what the card needs. -/
structure Able (around : Surroundings) (board : Board) (caps : Capabilities)
    (card : ClaimedCard) : Prop where
  capable : caps.satisfies card.requirements = true
  server : ∀ server ∈ card.requiredCapabilities.mcpServerId,
    caps.toolsLevel = .sandboxedTools ∧ around.mcpEnabled server = true
  supplied : (dependencyOutputs board card).isSome

/-- The session may take the card. -/
structure Eligible (around : Surroundings) (board : Board) (hub : Session) (caps : Capabilities)
    (card : ClaimedCard) : Prop where
  addressed : Addressed around hub card
  vouched : Vouched around hub card
  startable : ∀ operation ∈ hub.runScope, Startable board hub card operation
  able : Able around board caps card

/-- The session looks at the card, and another subsystem refuses to vouch for it. -/
structure Raises (around : Surroundings) (hub : Session) (card : ClaimedCard) : Prop where
  addressed : Addressed around hub card
  refused : ¬ Vouched around hub card

theorem startable_iff {card : ClaimedCard} {operation : OperationId} :
    (board.privateRuns.rows.any (fun run =>
          run.id = operation && run.cardId = card.id && run.targetNodeId = hub.node &&
            run.state = .queued) &&
        !board.privateRunStops.rows.any (fun stop => stop.operationId = operation) &&
        !board.privateRunRetries.rows.any (fun retry => retry.previousId = operation) &&
        !board.privateRuns.rows.any (fun old => old.cardId = card.id && old.id ≠ operation &&
          old.session = some hub.session)) = true ↔ Startable board hub card operation := by
  simp only [Bool.and_eq_true, Bool.not_eq_true', List.any_eq_false, List.any_eq_true,
    decide_eq_true_eq, not_and]
  constructor
  · rintro ⟨⟨⟨⟨run, member, ⟨⟨same, card⟩, target⟩, queued⟩, unstopped⟩, current⟩, fresh⟩
    exact ⟨⟨run, member, same, card, target, queued⟩, unstopped, current,
      fun old oldMember ofCard other => fresh old oldMember ⟨ofCard, other⟩⟩
  · rintro ⟨⟨run, member, same, card, target, queued⟩, unstopped, current, fresh⟩
    exact ⟨⟨⟨⟨run, member, ⟨⟨same, card⟩, target⟩, queued⟩, unstopped⟩, current⟩,
      fun old oldMember both => fresh old oldMember both.1 both.2⟩

private theorem any_ne_iff {α : Type} [DecidableEq α] {value? : Option α} {wanted : α} :
    value?.any (fun value => value ≠ wanted) = true ↔ ¬ ∀ value ∈ value?, value = wanted := by
  cases value? <;> simp

theorem allowsClaim_of_elsewhere {card : ClaimedCard}
    (scope : ∀ id ∈ hub.claimScope, id = card.id) (elsewhere : ¬ Addressed around hub card) :
    allowsClaim around board hub card = .ok false := by
  unfold allowsClaim
  by_cases target : ∀ target ∈ card.requiredCapabilities.targetNodeId, target = hub.node
  · have kind : (around.preparation card.id).isSome ≠ hub.runScope.isSome :=
      fun explicit => elsewhere ⟨scope, target, explicit⟩
    rw [if_neg (fun away => any_ne_iff.mp away target)]
    cases remote : around.preparation card.id <;> cases explicit : hub.runScope <;>
      simp_all
  · rw [if_pos (any_ne_iff.mpr target)]

/-- A card that is not addressed to the session is passed over. -/
theorem eligible_of_elsewhere {caps : Capabilities} {card : ClaimedCard}
    (elsewhere : ¬ Addressed around hub card) :
    eligible around board hub caps card = .ok none := by
  unfold eligible
  by_cases scope : ∀ id ∈ hub.claimScope, id = card.id
  · rw [if_neg (fun away => any_ne_iff.mp away scope), allowsClaim_of_elsewhere scope elsewhere]
    simp [pure, Except.pure, bind, Except.bind]
  · rw [if_pos (any_ne_iff.mpr scope)]
    rfl

/-- The admission of a card that is looked at and vouched for is a matter of its run. -/
theorem allowsClaim_of_vouched {card : ClaimedCard} (addressed : Addressed around hub card)
    (vouched : Vouched around hub card) :
    ∃ allowed, allowsClaim around board hub card = .ok allowed ∧
      (allowed = true ↔ ∀ operation ∈ hub.runScope, Startable board hub card operation) := by
  unfold allowsClaim
  rw [if_neg (fun away => any_ne_iff.mp away addressed.target)]
  have explicit := addressed.explicit
  cases remote : around.preparation card.id with
  | none =>
    cases scope : hub.runScope with
    | none => exact ⟨true, by simp [vouched.assigned, bind, Except.bind, pure, Except.pure], by simp⟩
    | some operation => simp [remote, scope] at explicit
  | some preparation =>
    cases scope : hub.runScope with
    | none => simp [remote, scope] at explicit
    | some operation =>
      obtain ⟨owner, verified, target⟩ := vouched.enlisted (by rw [scope]; rfl)
      simp only [vouched.assigned, verified, target, bind, Except.bind, pure, Except.pure]
      exact ⟨_, rfl, startable_iff.trans (by simp)⟩

/-- A refusal of another subsystem is the admission's own error. -/
theorem allowsClaim_of_refused {card : ClaimedCard} (raises : Raises around hub card) :
    ∃ failure, allowsClaim around board hub card = .error failure := by
  obtain ⟨addressed, refused⟩ := raises
  unfold allowsClaim
  rw [if_neg (fun away => any_ne_iff.mp away addressed.target)]
  have explicit := addressed.explicit
  cases assigned : around.assignment card with
  | error failure =>
    refine ⟨failure, ?_⟩
    cases remote : around.preparation card.id <;> cases scope : hub.runScope <;>
      simp_all [bind, Except.bind]
  | ok passed =>
    cases remote : around.preparation card.id with
    | none =>
      have generic : hub.runScope.isSome = false := by rw [← explicit, remote]; rfl
      exact absurd ⟨assigned, by simp [generic]⟩ refused
    | some preparation =>
      cases scope : hub.runScope with
      | none => simp [remote, scope] at explicit
      | some operation =>
        cases verified : around.verifiedOwner hub.node with
        | error failure => exact ⟨failure, by simp [bind, Except.bind]⟩
        | ok owner =>
          cases target : around.verifyTarget owner hub.node with
          | error failure => exact ⟨failure, by simp [bind, Except.bind, target]⟩
          | ok passed =>
            exact absurd ⟨assigned, fun _ => ⟨owner, verified, target⟩⟩ refused

theorem eligible_of_raises {caps : Capabilities} {card : ClaimedCard}
    (raises : Raises around hub card) :
    ∃ failure, eligible around board hub caps card = .error failure := by
  obtain ⟨failure, refused⟩ := allowsClaim_of_refused raises
  refine ⟨failure, ?_⟩
  unfold eligible
  rw [if_neg (fun away => any_ne_iff.mp away raises.addressed.scope), refused]
  rfl

private theorem server_refused_iff {server? : Option String} {refuses : String → Bool} :
    server?.any refuses = true ↔ ∃ server ∈ server?, refuses server = true := by
  cases server? <;> simp

theorem eligible_of_unable {caps : Capabilities} {card : ClaimedCard} {allowed : Bool}
    (addressed : Addressed around hub card)
    (answered : allowsClaim around board hub card = .ok allowed)
    (unable : ¬ (allowed = true ∧ Able around board caps card)) :
    eligible around board hub caps card = .ok none := by
  unfold eligible
  rw [if_neg (fun away => any_ne_iff.mp away addressed.scope), answered]
  simp only [bind, Except.bind, pure, Except.pure]
  split
  · rfl
  · rename_i passes
    obtain ⟨rfl, capable⟩ : allowed = true ∧ caps.satisfies card.requirements = true := by
      simpa using passes
    rw [if_neg (fun away => any_ne_iff.mp away addressed.target)]
    split
    · rfl
    · rename_i served
      cases supplied : dependencyOutputs board card with
      | none => rfl
      | some outputs =>
        have able : Able around board caps card := by
          refine ⟨capable, ?_, by rw [supplied]; rfl⟩
          intro server named
          have serves := fun refused => served (server_refused_iff.mpr ⟨server, named, refused⟩)
          simpa using serves
        exact absurd ⟨rfl, able⟩ unable

theorem eligible_of_able {caps : Capabilities} {card : ClaimedCard}
    (addressed : Addressed around hub card)
    (answered : allowsClaim around board hub card = .ok true) (able : Able around board caps card) :
    eligible around board hub caps card = .ok (dependencyOutputs board card) := by
  unfold eligible
  rw [if_neg (fun away => any_ne_iff.mp away addressed.scope), answered]
  simp only [bind, Except.bind, pure, Except.pure]
  rw [if_neg (by simp [able.capable]), if_neg (fun away => any_ne_iff.mp away addressed.target),
    if_neg]
  intro refused
  obtain ⟨server, named, refuses⟩ := server_refused_iff.mp refused
  obtain ⟨sandboxed, enabled⟩ := able.server server named
  simp [sandboxed, enabled] at refuses

/-- Every card is taken, passed over, or fails the claim. -/
theorem eligible_cases (around : Surroundings) (board : Board) (hub : Session)
    (caps : Capabilities) (card : ClaimedCard) :
    (Eligible around board hub caps card ∧
      ∃ outputs, eligible around board hub caps card = .ok (some outputs)) ∨
    (¬ Eligible around board hub caps card ∧ ¬ Raises around hub card ∧
      eligible around board hub caps card = .ok none) ∨
    (Raises around hub card ∧ ∃ failure, eligible around board hub caps card = .error failure) := by
  by_cases addressed : Addressed around hub card
  · by_cases vouched : Vouched around hub card
    · have calm : ¬ Raises around hub card := fun raises => raises.refused vouched
      obtain ⟨allowed, answered, startable⟩ := allowsClaim_of_vouched addressed
        vouched
      by_cases able : allowed = true ∧ Able around board caps card
      · obtain ⟨rfl, able⟩ := able
        obtain ⟨outputs, supplied⟩ := Option.isSome_iff_exists.mp able.supplied
        refine Or.inl ⟨⟨addressed, vouched, startable.mp rfl, able⟩, outputs, ?_⟩
        rw [eligible_of_able addressed answered able, supplied]
      · refine Or.inr (Or.inl ⟨?_, calm, eligible_of_unable addressed answered able⟩)
        exact fun takes => able ⟨startable.mpr takes.startable, takes.able⟩
    · have raises : Raises around hub card := ⟨addressed, vouched⟩
      exact Or.inr (Or.inr ⟨raises, eligible_of_raises raises⟩)
  · refine Or.inr (Or.inl ⟨fun takes => addressed takes.addressed,
      fun raises => addressed raises.addressed, eligible_of_elsewhere addressed⟩)

end Eligibility

section Queue

variable {settled : Board} {caps : Capabilities} {now : Int}

/-- The first card of a queue that the session may take, with those ahead of it. -/
structure FirstEligible (around : Surroundings) (settled : Board) (hub : Session)
    (caps : Capabilities) (queue earlier : List Card) (card : Card) : Prop where
  splits : ∃ later, queue = earlier ++ card :: later
  takes : Eligible around settled hub caps card.data
  ahead : ∀ other ∈ earlier, ¬ Eligible around settled hub caps other.data

/-- What the owner of a queue expects of a claim. -/
structure Serves (around : Surroundings) (settled : Board) (hub : Session) (caps : Capabilities)
    (queue : List Card) (reply : Result (Board × Claim)) : Prop where
  first : ∀ earlier card, FirstEligible around settled hub caps queue earlier card →
    ∃ next claimed, reply = .ok (next, .leased claimed) ∧ claimed.card = card.data
  idle : (∀ card ∈ queue, ¬ Eligible around settled hub caps card.data) →
    reply = .ok (settled, .nothingToDo)

/-- No card up to the first eligible one makes another subsystem fail, and that card is free. -/
structure Clear (around : Surroundings) (settled : Board) (hub : Session) (caps : Capabilities)
    (queue : List Card) : Prop where
  calm : ∀ earlier card later, queue = earlier ++ card :: later →
    (∀ other ∈ earlier, ¬ Eligible around settled hub caps other.data) →
    ¬ Raises around hub card.data
  free : ∀ earlier card, FirstEligible around settled hub caps queue earlier card →
    settled.lease? card.id = none

theorem firstEligible_cons_of_takes {head : Card} {rest earlier : List Card} {card : Card}
    (takes : Eligible around settled hub caps head.data) :
    FirstEligible around settled hub caps (head :: rest) earlier card ↔
      earlier = [] ∧ card = head := by
  constructor
  · rintro ⟨⟨later, splits⟩, _, ahead⟩
    cases earlier with
    | nil => exact ⟨rfl, (List.cons.inj splits).1.symm⟩
    | cons first others =>
      obtain ⟨rfl, _⟩ := List.cons.inj splits
      exact absurd takes (ahead head List.mem_cons_self)
  · rintro ⟨rfl, rfl⟩
    exact ⟨⟨rest, rfl⟩, takes, by simp⟩

theorem firstEligible_cons_of_passed {head : Card} {rest earlier : List Card} {card : Card}
    (passed : ¬ Eligible around settled hub caps head.data) :
    FirstEligible around settled hub caps (head :: rest) earlier card ↔
      ∃ others, earlier = head :: others ∧
        FirstEligible around settled hub caps rest others card := by
  constructor
  · rintro ⟨⟨later, splits⟩, takes, ahead⟩
    cases earlier with
    | nil =>
      obtain ⟨rfl, _⟩ := List.cons.inj splits
      exact absurd takes passed
    | cons first others =>
      obtain ⟨rfl, tail⟩ := List.cons.inj splits
      exact ⟨others, rfl, ⟨later, tail⟩, takes,
        fun other member => ahead other (List.mem_cons_of_mem _ member)⟩
  · rintro ⟨others, rfl, ⟨later, splits⟩, takes, ahead⟩
    refine ⟨⟨later, by rw [splits]; rfl⟩, takes, ?_⟩
    intro other member
    rcases List.mem_cons.mp member with rfl | member
    · exact passed
    · exact ahead other member

theorem exists_firstEligible {queue : List Card}
    (some : ∃ card ∈ queue, Eligible around settled hub caps card.data) :
    ∃ earlier card, FirstEligible around settled hub caps queue earlier card := by
  induction queue with
  | nil => simp at some
  | cons head rest ih =>
    by_cases takes : Eligible around settled hub caps head.data
    · exact ⟨[], head, (firstEligible_cons_of_takes takes).mpr ⟨rfl, rfl⟩⟩
    · obtain ⟨card, member, eligible⟩ := some
      rcases List.mem_cons.mp member with rfl | member
      · exact absurd eligible takes
      · obtain ⟨earlier, first, found⟩ := ih ⟨card, member, eligible⟩
        exact ⟨head :: earlier, first,
          (firstEligible_cons_of_passed takes).mpr ⟨earlier, rfl, found⟩⟩

theorem serves_cons_of_takes {head : Card} {rest : List Card} {reply : Result (Board × Claim)}
    (takes : Eligible around settled hub caps head.data) :
    Serves around settled hub caps (head :: rest) reply ↔
      ∃ next claimed, reply = .ok (next, .leased claimed) ∧ claimed.card = head.data := by
  constructor
  · exact fun serves => serves.first [] head ((firstEligible_cons_of_takes takes).mpr ⟨rfl, rfl⟩)
  · intro leased
    refine ⟨?_, fun idle => absurd takes (idle head List.mem_cons_self)⟩
    intro earlier card first
    obtain ⟨_, rfl⟩ := (firstEligible_cons_of_takes takes).mp first
    exact leased

theorem serves_cons_of_passed {head : Card} {rest : List Card} {reply : Result (Board × Claim)}
    (passed : ¬ Eligible around settled hub caps head.data) :
    Serves around settled hub caps (head :: rest) reply ↔
      Serves around settled hub caps rest reply := by
  constructor
  · intro serves
    refine ⟨?_, fun idle => serves.idle (by simpa [passed] using idle)⟩
    exact fun earlier card first => serves.first (head :: earlier) card
      ((firstEligible_cons_of_passed passed).mpr ⟨earlier, rfl, first⟩)
  · intro serves
    refine ⟨?_, fun idle => serves.idle (fun card member =>
      idle card (List.mem_cons_of_mem _ member))⟩
    intro earlier card first
    obtain ⟨others, _, found⟩ := (firstEligible_cons_of_passed passed).mp first
    exact serves.first others card found

theorem not_serves_error {queue : List Card} {failure : HubError} :
    ¬ Serves around settled hub caps queue (.error failure) := by
  intro serves
  by_cases some : ∃ card ∈ queue, Eligible around settled hub caps card.data
  · obtain ⟨earlier, card, first⟩ := exists_firstEligible some
    obtain ⟨_, _, done, _⟩ := serves.first earlier card first
    cases done
  · have done := serves.idle (fun card member takes => some ⟨card, member, takes⟩)
    cases done

theorem clear_cons_of_takes {head : Card} {rest : List Card}
    (takes : Eligible around settled hub caps head.data) :
    Clear around settled hub caps (head :: rest) ↔ settled.lease? head.id = none := by
  constructor
  · exact fun clear => clear.free [] head ((firstEligible_cons_of_takes takes).mpr ⟨rfl, rfl⟩)
  · intro free
    constructor
    · intro earlier card later splits ahead raises
      cases earlier with
      | nil =>
        obtain ⟨rfl, _⟩ := List.cons.inj splits
        exact raises.refused takes.vouched
      | cons first others =>
        obtain ⟨rfl, _⟩ := List.cons.inj splits
        exact ahead head List.mem_cons_self takes
    · intro earlier card first
      obtain ⟨_, rfl⟩ := (firstEligible_cons_of_takes takes).mp first
      exact free

theorem clear_cons_of_passed {head : Card} {rest : List Card}
    (passed : ¬ Eligible around settled hub caps head.data) (calm : ¬ Raises around hub head.data) :
    Clear around settled hub caps (head :: rest) ↔ Clear around settled hub caps rest := by
  constructor
  · intro clear
    constructor
    · intro earlier card later splits ahead
      exact clear.calm (head :: earlier) card later (by rw [splits]; rfl)
        (by simpa [passed] using ahead)
    · exact fun earlier card first => clear.free (head :: earlier) card
        ((firstEligible_cons_of_passed passed).mpr ⟨earlier, rfl, first⟩)
  · intro clear
    constructor
    · intro earlier card later splits ahead
      cases earlier with
      | nil =>
        obtain ⟨rfl, _⟩ := List.cons.inj splits
        exact calm
      | cons first others =>
        obtain ⟨rfl, tail⟩ := List.cons.inj splits
        exact clear.calm others card later tail
          (fun other member => ahead other (List.mem_cons_of_mem _ member))
    · intro earlier card first
      obtain ⟨others, _, found⟩ := (firstEligible_cons_of_passed passed).mp first
      exact clear.free others card found

/-- The lease of an eligible card can be stored exactly when the card has none. -/
theorem leaseCard_leases_iff {card : Card} (outputs : List (String × String)) (now : Int)
    (homed : (settled.projects.lookup card.data.projectId).isSome)
    (nodeFree : ∀ lease ∈ settled.leases.rows, lease.nodeId ≠ hub.node) :
    (∃ next claimed, leaseCard settled hub card.data outputs now = .ok (next, .leased claimed) ∧
      claimed.card = card.data) ↔ settled.lease? card.id = none := by
  constructor
  · rintro ⟨next, claimed, done, _⟩
    simp only [leaseCard, bind_eq_ok_iff] at done
    obtain ⟨_, _, leased, inserted, _⟩ := done
    exact (Board.slot_insertLease inserted).1
  · intro free
    obtain ⟨project, stored⟩ := Option.isSome_iff_exists.mp homed
    have fits : settled.leases.Fits
        ⟨card.data.id, hub.node, hub.session, now + leaseTtl card.data, leaseTtl card.data⟩ := by
      rintro lease member (same | same)
      · exact Board.lease?_eq_none_iff.mp free lease member same
      · exact nodeFree lease member same
    simp only [leaseCard, stored, Board.insertLease, Table.insert?, dif_pos fits, orFail, bind,
      Except.bind, pure, Except.pure]
    exact ⟨_, _, rfl, rfl⟩

/-- A claim over a queue serves its first eligible card exactly when the queue is clear. -/
theorem claimFirst_serves_iff {queue : List Card}
    (homed : ∀ card ∈ queue, (settled.projects.lookup card.data.projectId).isSome)
    (nodeFree : ∀ lease ∈ settled.leases.rows, lease.nodeId ≠ hub.node) :
    Serves around settled hub caps queue (claimFirst around settled hub caps now queue) ↔
      Clear around settled hub caps queue := by
  induction queue with
  | nil =>
    have unsplit : ∀ earlier card, ¬ FirstEligible around settled hub caps [] earlier card := by
      rintro earlier card ⟨⟨later, splits⟩, _⟩
      simp at splits
    exact ⟨fun _ => ⟨by simp, fun earlier card first => absurd first (unsplit earlier card)⟩,
      fun _ => ⟨fun earlier card first => absurd first (unsplit earlier card), fun _ => rfl⟩⟩
  | cons head rest ih =>
    rw [claimFirst]
    rcases eligible_cases around settled hub caps head.data with
      ⟨takes, outputs, answered⟩ | ⟨passed, calm, answered⟩ | ⟨raises, failure, answered⟩
    · rw [answered, clear_cons_of_takes takes, serves_cons_of_takes takes]
      exact leaseCard_leases_iff outputs now (homed head List.mem_cons_self) nodeFree
    · rw [answered, clear_cons_of_passed passed calm, serves_cons_of_passed passed]
      exact ih (fun card member => homed card (List.mem_cons_of_mem _ member))
    · rw [answered]
      refine ⟨fun serves => absurd serves not_serves_error, ?_⟩
      exact fun clear => absurd raises (clear.calm [] head rest rfl (by simp))

end Queue

section Runs

variable {id : CardId} {clock : Nat → Int}

/-- Every card belongs to a stored project. -/
def Homed (board : Board) : Prop :=
  ∀ card ∈ board.cards.rows, (board.projects.lookup card.data.projectId).isSome

theorem homed_updateCards (homed : Homed board) (selects : Card → Bool) (change : Card → Card)
    (fixed) : Homed (board.updateCards selects change fixed) := by
  intro card member
  obtain ⟨stored, inBoard, rfl⟩ := List.mem_map.mp member
  have project : (if selects stored then change stored else stored).data.projectId =
      stored.data.projectId := by
    split
    · exact congrArg (fun identity => identity.2.1) (fixed stored)
    · rfl
  rw [project]
  exact homed stored inBoard

theorem Statement.homed (statement : Statement board next) (homed : Homed board) :
    Homed next := by
  cases statement with
  | cards selects change fixed spares parks => exact homed_updateCards homed selects change fixed
  | ended held change fixed => exact homed_updateCards homed _ change fixed
  | created inserted =>
    simp only [Board.insertCard, bind_eq_ok_iff, require_eq_ok_iff, exists_const,
      orFail_eq_ok_iff, pure_eq_ok_iff] at inserted
    obtain ⟨project, cards, added, rfl⟩ := inserted
    intro card member
    rw [Table.rows_of_insert? added, List.mem_append, List.mem_singleton] at member
    rcases member with stored | rfl
    · exact homed card stored
    · exact project
  | planned added =>
    intro card member
    simp only [Table.lookup_insert? added]
    split
    · rfl
    · exact homed card member
  | leases leases kept => exact homed
  | records nodes outputs checkpoints childLinks => exact homed

theorem Statements.homed (statements : Statements board next) (homed : Homed board) :
    Homed next := by
  induction statements with
  | refl => exact homed
  | tail _ statement ih => exact statement.homed ih

theorem homed_startRun (homed : Homed board) : Homed (startRun board hub) := by
  unfold startRun
  split <;> exact homed

theorem homed_owners {event : Event} (owners : event.op.isOwners = true)
    (done : event.reply board = .ok next) (homed : Homed board) : Homed next := by
  unfold Event.reply at done
  cases asked : event.op with
  | privateRunRequest hub operation task =>
    rw [asked] at done
    rcases privateRunRequest_ok done with ⟨_, rfl⟩ | ⟨run, privateRuns, requested⟩
    · exact homed
    · rw [requested.next_eq]
      apply homed_updateCards
      exact homed
  | privateRunStop hub operation =>
    rw [asked] at done
    rcases privateRunStop_ok done with rfl | ⟨run, stops, stopped⟩
    · exact homed
    · rw [stopped.next_eq]
      apply homed_updateCards
      exact homed
  | privateRunRetry hub previous later =>
    rw [asked] at done
    rcases privateRunRetry_ok done with ⟨_, _, _, _, rfl⟩ | ⟨prior, run, retry, _, _, retried⟩
    · exact homed
    · obtain ⟨now, rfl⟩ := retried.result
      apply homed_updateCards
      exact homed
  | privateRunReady hub operation =>
    rw [asked] at done
    obtain ⟨run, readied⟩ := privateRunReady_ok done
    rw [readied.next_eq]
    exact homed_updateCards homed _ _ _
  | publishPrivateCodeTask id node read workspace =>
    simp only [asked, Op.perform, publishPrivateCodeTask, bind_eq_ok_iff, pure_eq_ok_iff] at done
    obtain ⟨_, _, _, _, rfl⟩ := done
    exact homed_updateCards homed _ _ _
  | retryPrivateCodeTask id node read =>
    simp only [asked, Op.perform, retryPrivateCodeTask, bind_eq_ok_iff, pure_eq_ok_iff] at done
    obtain ⟨_, _, _, _, rfl⟩ := done
    apply homed_updateCards
    exact homed
  | completePreparation id workspace =>
    simp only [asked, Op.perform, completePreparation, bind_eq_ok_iff, pure_eq_ok_iff] at done
    obtain ⟨_, _, _, _, rfl⟩ := done
    exact homed_updateCards homed _ _ _
  | _ =>
    rw [asked] at owners
    cases owners

theorem homed_step (event : Event) (homed : Homed board) : Homed (board.step event) := by
  cases owners : event.op.isOwners with
  | false =>
    rcases statements_step event board owners with statements | ⟨hub, card, _, _, leases⟩
    · exact statements.homed homed
    · obtain ⟨stored, result⟩ := leases.result
      rw [result]
      apply homed_startRun
      apply homed_updateCards
      exact (statements_settle _ _ _).homed homed
  | true =>
    unfold Board.step
    split
    · rename_i next done
      exact homed_owners owners done homed
    · exact homed

theorem homed_run (events : List Event) (moment : Nat) : Homed (boardAt events moment) :=
  stateAt_invariant Board.step Board.empty events Homed (fun _ member => nomatch member)
    (fun _ event _ homed => homed_step event homed) moment

/-- A checked-in node without a lease waits for work. -/
structure Waiting (settled : Board) (hub : Session) (caps : Capabilities) : Prop where
  checkedIn : ∃ node, settled.nodes.lookup hub.node = some node ∧ node.checkedIn = true ∧
    node.caps = some caps
  free : ∀ lease ∈ settled.leases.rows, lease.nodeId ≠ hub.node

/-- A waiting node's claim is served from the ready cards of the settled board. -/
def ServesFirst (around : Surroundings) (board : Board) (hub : Session) (clock : Nat → Int) :
    Prop :=
  let settled := settle board (clock 0) (clock 1)
  ∀ caps, Waiting settled hub caps →
    Serves around settled hub caps settled.ready (claimCard around board hub clock)

/-- The ready cards stand in no waiting node's way. -/
def QueueClear (around : Surroundings) (board : Board) (hub : Session) (clock : Nat → Int) :
    Prop :=
  let settled := settle board (clock 0) (clock 1)
  ∀ caps, Waiting settled hub caps → Clear around settled hub caps settled.ready

theorem claimCard_of_waiting {caps : Capabilities}
    (waiting : Waiting (settle board (clock 0) (clock 1)) hub caps) :
    claimCard around board hub clock =
      claimFirst around (settle board (clock 0) (clock 1)) hub caps (clock 2)
        (settle board (clock 0) (clock 1)).ready := by
  obtain ⟨⟨node, stored, checkedIn, able⟩, free⟩ := waiting
  have unleased : ¬ (settle board (clock 0) (clock 1)).leases.rows.any
      (fun lease => lease.nodeId = hub.node) = true := by
    simpa using free
  simp only [claimCard, stored, orFail, bind, Except.bind, checkedIn, able, claimSettled,
    if_neg unleased]
  rfl

/-- Wherever a run has led, a claim serves the first eligible ready card exactly when no ready
card up to it fails in another subsystem. -/
theorem serves_first_iff (events : List Event) (moment : Nat) (around : Surroundings)
    (hub : Session) (clock : Nat → Int) :
    ServesFirst around (boardAt events moment) hub clock ↔
      QueueClear around (boardAt events moment) hub clock := by
  have homed := (statements_settle (boardAt events moment) (clock 0) (clock 1)).homed
    (homed_run events moment)
  apply forall_congr'
  intro caps
  apply imp_congr_right
  intro waiting
  rw [claimCard_of_waiting waiting]
  exact claimFirst_serves_iff (fun card member => homed card (mem_ready.mp member).1) waiting.free

end Runs

section Examples

/-- A coding task staged for the laptop, and prepared there. -/
def stagedTask : ClaimedCard :=
  { essay with
    id := 8
    key := "private-code-8"
    title := "Task"
    modality := .code
    requiredCapabilities :=
      { essay.requiredCapabilities with
        targetNodeId := some "laptop"
        submission := some ⟨8, 1, "laptop", ""⟩ } }

/-- The agent of every staged task has been archived. -/
def archivedAgent : Surroundings :=
  { openSurroundings with
    assignment := fun card =>
      if card.requiredCapabilities.submission.isSome then
        .error (rejected ("agent must be active, owned by this fleet and assigned to the " ++
          "execution computer"))
      else .ok () }

/-- The staged task is made ready by its host ahead of an ordinary card. -/
def essayBehindTask : List Event :=
  [(Op.createProject ⟨1, "P", ""⟩).at 0, (Op.enroll "laptop").at 0,
    (Op.checkIn workerSession laptop).at 0, (Op.stagePrivateCodeTask stagedTask).at 0,
    (Op.publishPrivateCodeTask 8 "laptop" stagedTask "/work").at 0, (Op.addCard essay).at 0]

/-- Claims do not always serve the first eligible card: the archived agent of a task ahead makes
the claim fail. -/
theorem claim_fails_behind_task :
    ¬ ∀ (events : List Event) (moment : Nat) (around : Surroundings) (hub : Session)
      (clock : Nat → Int), ServesFirst around (boardAt events moment) hub clock := by
  intro serves
  have idle : Waiting (settle (boardAt essayBehindTask 6) 1 1) workerSession laptop :=
    ⟨⟨⟨"laptop", some laptop, true⟩, by decide, rfl, rfl⟩, by decide⟩
  have served := serves essayBehindTask 6 archivedAgent workerSession (fun _ => 1) laptop idle
  have first : FirstEligible archivedAgent (settle (boardAt essayBehindTask 6) 1 1) workerSession
      laptop (settle (boardAt essayBehindTask 6) 1 1).ready
      [Card.prepared "/work" .ready none ⟨stagedTask, .blocked, some waiting⟩]
      ⟨essay, .ready, none⟩ := by
    refine ⟨⟨[], by decide⟩, ⟨⟨by decide, by decide, rfl⟩, ⟨rfl, nofun⟩, nofun, ?_⟩, ?_⟩
    · exact ⟨by decide, nofun, by decide⟩
    · intro other member takes
      rw [List.mem_singleton.mp member] at takes
      have passed := takes.vouched.assigned
      revert passed
      decide
  obtain ⟨next, claimed, done, _⟩ := served.first _ _ first
  have failed : (claimCard archivedAgent (boardAt essayBehindTask 6) workerSession
      (fun _ => 1)).toOption.isNone := by decide
  rw [done] at failed
  cases failed

end Examples

end OHHive.LocalHub
