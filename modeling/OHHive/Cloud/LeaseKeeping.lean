import OHHive.Cloud.LeaseEffects
import OHHive.Cloud.Presence

/-! A node that tends its card keeps the lease on it: no checkpoint brings the end of a lease
nearer, and the reapers spare it. -/

namespace OHHive.Cloud

open Foundation

section Statement

def FleetEvent.Checkpoints (event : FleetEvent) (fleet : Fleet) (card : CardId) : Prop :=
  ∃ op, event.op = .call op ∧ (fleet.call event.around op).Checkpoints fleet.hive card

def FleetEvent.Reaps (event : FleetEvent) : Prop :=
  ∃ op, event.op = .call op ∧ op.Reaps

/-- The calls take effect in the order of their times. -/
def InOrder (events : List FleetEvent) : Prop :=
  ∀ (first second : Nat) (early late : FleetEvent), first ≤ second →
    events[first]? = some early → events[second]? = some late → early.around.now ≤ late.around.now

/-- A call that gives a card the lease that it did not have. -/
structure Granted (events : List FleetEvent) (claim : Nat) (event : FleetEvent) (card : CardId)
    (lease : Lease) : Prop where
  called : events[claim]? = some event
  free : (fleetAt events claim).hive.leases.lookup card = none
  leased : (fleetAt events (claim + 1)).hive.leases.lookup card = some lease

/-- The node of a lease tends it up to a moment: it checkpoints the card at least once in every
period as long as the lease was at first, and no stale reaper finds it silent. -/
structure Tends (events : List FleetEvent) (claim : Nat) (card : CardId) (node : NodeId)
    (period : Time) (stop : Nat) : Prop where
  checkpoints : ∀ moment event, claim < moment → moment ≤ stop → events[moment]? = some event →
    ∃ mark last, claim ≤ mark ∧ mark ≤ moment ∧ events[mark]? = some last ∧
      (mark = claim ∨ last.Checkpoints (fleetAt events mark) card) ∧
      event.around.now ≤ last.around.now + period
  heartbeats : ∀ moment event stale, claim < moment → moment ≤ stop →
    events[moment]? = some event → event.op = .reapStaleNodes stale →
    ∃ beat last, beat < moment ∧ events[beat]? = some last ∧ last.hears node ∧
      event.around.now - stale ≤ last.around.now

/-- A working node keeps its card. -/
structure WorkersKeepLeases (events : List FleetEvent) : Prop where
  extended : ∀ moment event card lease, events[moment]? = some event →
    event.Checkpoints (fleetAt events moment) card →
    (fleetAt events moment).hive.leases.lookup card = some lease →
    ∃ later, (fleetAt events (moment + 1)).hive.leases.lookup card = some later ∧
      lease.expiresAt ≤ later.expiresAt
  kept : ∀ claim first card lease stop event, Granted events claim first card lease →
    Tends events claim card lease.node (lease.expiresAt - first.around.now) stop →
    (∀ moment, claim < moment → moment ≤ stop →
      ((fleetAt events moment).hive.leases.lookup card).isSome) →
    claim < stop → events[stop]? = some event → event.Reaps →
    ((fleetAt events (stop + 1)).hive.leases.lookup card).isSome

/-- No checkpoint that goes through is of a code card. -/
def FleetEvent.SparesCode (fleet : Fleet) (event : FleetEvent) : Prop :=
  ∀ card c, event.Checkpoints fleet card → fleet.hive.cards.lookup card = some c →
    c.modality ≠ .code

end Statement

section Fleets

variable {fleet : Fleet} {event : FleetEvent} {card id : CardId}

/-- What an event does to the lease of one card. -/
inductive FleetLeaseEffect (event : FleetEvent) (fleet : Fleet) (id : CardId) :
    Option Lease → Prop
  | called (op : Op) (asked : event.op = .call op) (after : Option Lease)
      (effect : LeaseEffect (fleet.call event.around op) fleet.hive id after) :
      FleetLeaseEffect event fleet id after
  | kept (uncalled : ∀ op, event.op ≠ .call op) :
      FleetLeaseEffect event fleet id (fleet.hive.leases.lookup id)
  | extended (uncalled : ∀ op, event.op ≠ .call op) (c : Card) (lease : Lease)
      (stored : fleet.hive.cards.lookup id = some c) (text : c.modality = .text)
      (leased : fleet.hive.leases.lookup id = some lease) :
      FleetLeaseEffect event fleet id
        (some { lease with expiresAt := event.around.now + claimTtl c.modality })

theorem fleetLeaseEffect_step (fleet : Fleet) (event : FleetEvent) (id : CardId) :
    FleetLeaseEffect event fleet id ((fleet.step event).hive.leases.lookup id) := by
  obtain ⟨around, op⟩ := event
  cases op with
  | call op => exact .called op rfl _ (leaseEffect_step _ fleet.hive id)
  | ctlPilotHeartbeats project valid =>
    have looked := Table.lookup_updateWhere fleet.hive.leases
      (fleet.pilotExtends around project valid)
      (fun lease => { lease with expiresAt := around.now + 15 * 60000000 }) (fun _ => rfl) id
    show FleetLeaseEffect _ fleet id
      ((fleet.ctlPilotHeartbeats around project valid).hive.leases.lookup id)
    rw [Fleet.ctlPilotHeartbeats, looked]
    cases leased : fleet.hive.leases.lookup id with
    | none =>
      rw [Option.map_none, ← leased]
      exact .kept (by simp)
    | some lease =>
      rw [Option.map_some]
      split
      · rename_i named
        simp only [Fleet.pilotExtends, Bool.and_eq_true, Option.any_eq_true, decide_eq_true_eq]
          at named
        obtain ⟨⟨_, c, stored, _, text⟩, _⟩ := named
        have keyed : lease.card = id := Table.key_of_lookup leased
        rw [keyed] at stored
        have effect : FleetLeaseEffect ⟨around, .ctlPilotHeartbeats project valid⟩ fleet id
            (some { lease with expiresAt := around.now + claimTtl c.modality }) :=
          .extended (by simp) c lease stored text leased
        rwa [text] at effect
      · rw [← leased]
        exact .kept (by simp)
  | memberNodeCheckout node =>
    have same : (fleet.memberNodeCheckout around node).hive = fleet.hive := by
      unfold Fleet.memberNodeCheckout
      split <;> rfl
    show FleetLeaseEffect _ fleet id ((fleet.memberNodeCheckout around node).hive.leases.lookup id)
    rw [same]
    exact .kept (by simp)
  | _ => exact .kept (by simp)

theorem card_step (event : FleetEvent) {c : Card} (stored : fleet.hive.cards.lookup id = some c) :
    ∃ later, (fleet.step event).hive.cards.lookup id = some later ∧
      later.modality = c.modality := by
  obtain ⟨around, op⟩ := event
  cases op with
  | call op =>
    rcases moves_step (fleet.call around op) fleet.hive id with same | move
    · have looked : ((fleet.hive.step (fleet.call around op)).slot id).card = some c := by
        rw [same]
        exact stored
      exact ⟨c, looked, rfl⟩
    · obtain ⟨later, looked, revises⟩ := move.revises stored
      exact ⟨later, looked, revises.modality⟩
  | memberNodeCheckout node =>
    have same : (fleet.memberNodeCheckout around node).hive = fleet.hive := by
      unfold Fleet.memberNodeCheckout
      split <;> rfl
    refine ⟨c, ?_, rfl⟩
    show (fleet.memberNodeCheckout around node).hive.cards.lookup id = some c
    rw [same]
    exact stored
  | _ => exact ⟨c, stored, rfl⟩

/-- A checkpoint that is no code card's gives its lease as long as a claim would. -/
theorem checkpointTtl_eq {modality : Modality} (uncoded : modality ≠ .code) :
    checkpointTtl modality = claimTtl modality := by
  cases modality with
  | code => exact absurd rfl uncoded
  | _ => rfl

theorem checkpointTtl_le (modality : Modality) : checkpointTtl modality ≤ claimTtl modality := by
  cases modality <;> decide

/-- What a checkpoint that goes through does to its lease. -/
theorem lookup_of_checkpoints (checkpoints : event.Checkpoints fleet card) :
    ∃ c lease, fleet.hive.cards.lookup card = some c ∧
      fleet.hive.leases.lookup card = some lease ∧
      (fleet.step event).hive.leases.lookup card =
        some { lease with expiresAt := event.around.now + checkpointTtl c.modality } := by
  obtain ⟨around, _⟩ := event
  obtain ⟨op, rfl, node?, step, state, next, asked, checked⟩ := checkpoints
  obtain ⟨c, lease, _, stored, leased, looked⟩ := lookup_checkpoint checked
  refine ⟨c, lease, stored, leased, ?_⟩
  have replied : (fleet.call around op).reply fleet.hive = .ok next := by
    unfold Event.checkpoint? at asked
    split at asked
    · rename_i called
      cases asked
      rw [Event.reply, called]
      exact checked
    · rename_i called
      cases asked
      rw [Event.reply, called]
      exact checked
    · cases asked
  show (fleet.hive.step (fleet.call around op)).leases.lookup card = _
  rw [Hive.step, replied]
  exact (looked card).trans (if_pos rfl)

/-- No lease lasts longer than one that is granted now. -/
def Hive.Ahead (hive : Hive) (now : Time) : Prop :=
  ∀ id lease, hive.leases.lookup id = some lease →
    ∃ c, hive.cards.lookup id = some c ∧ lease.expiresAt ≤ now + claimTtl c.modality

theorem Hive.Ahead.later {hive : Hive} {now after : Time} (ahead : hive.Ahead now)
    (later : now ≤ after) : hive.Ahead after := by
  intro id lease leased
  obtain ⟨c, stored, within⟩ := ahead id lease leased
  exact ⟨c, stored, Int.le_trans within (Int.add_le_add_right later _)⟩

theorem ahead_step (ahead : fleet.hive.Ahead event.around.now) :
    (fleet.step event).hive.Ahead event.around.now := by
  intro id after leased
  have effect := fleetLeaseEffect_step fleet event id
  rw [leased] at effect
  have known {c : Card} (stored : fleet.hive.cards.lookup id = some c)
      (within : after.expiresAt ≤ event.around.now + claimTtl c.modality) :
      ∃ c, (fleet.step event).hive.cards.lookup id = some c ∧
        after.expiresAt ≤ event.around.now + claimTtl c.modality := by
    obtain ⟨later, looked, modality⟩ := card_step event stored
    exact ⟨later, looked, modality ▸ within⟩
  have unchanged (same : fleet.hive.leases.lookup id = some after) :
      ∃ c, (fleet.step event).hive.cards.lookup id = some c ∧
        after.expiresAt ≤ event.around.now + claimTtl c.modality := by
    obtain ⟨c, stored, within⟩ := ahead id after same
    exact known stored within
  generalize held : some after = after? at effect
  cases effect with
  | called op asked _ effect =>
    cases effect with
    | kept => exact unchanged held.symm
    | ended spares => cases held
    | granted nid n c free found checkedIn stored =>
      obtain rfl := Option.some.inj held
      exact known stored le_rfl
    | checkpointed c lease checkpoints stored before =>
      obtain rfl := Option.some.inj held
      exact known stored (Int.add_le_add_left (checkpointTtl_le c.modality) _)
    | expired lease asked before late => cases held
    | orphaned lease grace asked before gone => cases held
  | kept uncalled => exact unchanged held.symm
  | extended uncalled c lease stored text before =>
    obtain rfl := Option.some.inj held
    exact known stored le_rfl

end Fleets

section Runs

variable {events : List FleetEvent} {event : FleetEvent} {claim moment stop : Nat} {card : CardId}

theorem fleetAt_succ (present : events[moment]? = some event) :
    fleetAt events (moment + 1) = (fleetAt events moment).step event :=
  stateAt_succ Fleet.step Fleet.empty present

/-- No lease of a run lasts longer than one that is granted now. -/
theorem ahead_fleetAt (ordered : InOrder events) (present : events[moment]? = some event) :
    (fleetAt events moment).hive.Ahead event.around.now := by
  induction moment generalizing event with
  | zero =>
    intro id lease leased
    cases leased
  | succ previous ih =>
    have inside : previous < events.length :=
      Nat.lt_of_succ_lt (List.getElem?_eq_some_iff.mp present).1
    have before := List.getElem?_eq_getElem inside
    rw [fleetAt_succ before]
    exact (ahead_step (ih before)).later (ordered _ _ _ _ (Nat.le_succ previous) before present)

/-- A node that was heard of was heard of since, ever after. -/
theorem heardSince_fleetAt (ordered : InOrder events) {node : NodeId} {beat : Nat}
    {last : FleetEvent} (heard : events[beat]? = some last) (hears : last.hears node)
    (later : beat < moment) (inside : moment ≤ events.length) :
    (fleetAt events moment).HeardSince node last.around.now := by
  induction moment, later using Nat.le_induction with
  | base =>
    rw [fleetAt_succ heard]
    exact heardSince_of_hears hears
  | succ moment later ih =>
    have present := List.getElem?_eq_getElem (Nat.lt_of_succ_le inside)
    rw [fleetAt_succ present]
    exact heardSince_step (ih (Nat.le_of_succ_le inside))
      (ordered _ _ _ _ (Nat.le_of_succ_le later) heard present)

/-- A lease that its node tends: the node works, and the lease lasts a period beyond every one of
the node's marks. -/
structure Tended (events : List FleetEvent) (claim : Nat) (card : CardId) (node : NodeId)
    (period : Time) (moment : Nat) (lease : Lease) : Prop where
  leased : (fleetAt events moment).hive.leases.lookup card = some lease
  ofNode : lease.node = node
  stored : ∃ c, (fleetAt events moment).hive.cards.lookup card = some c ∧
    period = claimTtl c.modality
  working : (fleetAt events moment).Working node
  lasts : ∀ mark last, claim ≤ mark → mark < moment → events[mark]? = some last →
    (mark = claim ∨ last.Checkpoints (fleetAt events mark) card) →
    last.around.now + period ≤ lease.expiresAt

theorem tended_of_granted {lease : Lease} (granted : Granted events claim event card lease) :
    Tended events claim card lease.node (lease.expiresAt - event.around.now) (claim + 1) lease := by
  obtain ⟨called, free, leased⟩ := granted
  have next := fleetAt_succ called
  have effect := fleetLeaseEffect_step (fleetAt events claim) event card
  rw [← next, leased] at effect
  generalize held : some lease = after? at effect
  cases effect with
  | called op asked _ effect =>
    cases effect with
    | kept =>
      rw [free] at held
      cases held
    | ended spares => cases held
    | granted nid n c _ found checkedIn stored =>
      obtain rfl := Option.some.inj held
      have period : event.around.now + claimTtl c.modality - event.around.now =
          claimTtl c.modality := add_sub_cancel_left _ _
      obtain ⟨later, looked, modality⟩ := card_step event stored
      refine ⟨leased, rfl, ⟨later, ?_, ?_⟩, ?_, ?_⟩
      · rw [next]
        exact looked
      · rw [modality]
        exact period
      · obtain ⟨standing, stands, row⟩ := Option.bind_eq_some_iff.mp found
        obtain ⟨n, _, rfl⟩ := Option.map_eq_some_iff.mp row
        refine ⟨standing, ?_, ?_⟩
        · rw [next, Fleet.step, asked]
          exact stands
        · intro out
          rw [show standing.presence = .checkedIn from checkedIn] at out
          cases out
      · intro mark last since before marked _
        obtain rfl : mark = claim := Nat.le_antisymm (Nat.le_of_lt_succ before) since
        obtain rfl := Option.some.inj (called.symm.trans marked)
        exact le_of_eq (congrArg (event.around.now + ·) period)
    | checkpointed c other checkpoints stored before =>
      rw [free] at before
      cases before
    | expired other asked before late => cases held
    | orphaned other grace asked before gone => cases held
  | kept uncalled =>
    rw [free] at held
    cases held
  | extended uncalled c other stored text before =>
    rw [free] at before
    cases before

theorem notReaped_of_working {node : NodeId} {grace : Time} {fleet : Fleet} {lease : Lease}
    (working : fleet.Working node) (ofNode : lease.node = node) (around : Surroundings) :
    ¬ Hive.orphaned (fleet.surroundings around) grace lease := by
  intro gone
  obtain ⟨standing, stands, works⟩ := working
  obtain ⟨n, found, silent⟩ := (Option.any_eq_true _ _).mp gone
  rw [ofNode] at found
  obtain ⟨other, same, row⟩ := Option.bind_eq_some_iff.mp found
  obtain rfl := Option.some.inj (stands.symm.trans same)
  obtain ⟨n, _, rfl⟩ := Option.map_eq_some_iff.mp row
  simp only [Bool.and_eq_true, decide_eq_true_eq] at silent
  cases presence : standing.presence with
  | checkedIn => exact silent.1.1 presence
  | checkedOut => exact works presence
  | draining => exact silent.1.2 presence

/-- While its node tends it, a lease that is still there is tended. -/
theorem tended_step (ordered : InOrder events)
    (uncoded : EachStep Fleet.step Fleet.empty FleetEvent.SparesCode events) {node : NodeId}
    {period : Time} {lease later : Lease}
    (tends : Tends events claim card node period stop) (since : claim < moment)
    (before : moment ≤ stop) (present : events[moment]? = some event)
    (tended : Tended events claim card node period moment lease)
    (leased : (fleetAt events (moment + 1)).hive.leases.lookup card = some later) :
    Tended events claim card node period (moment + 1) later := by
  have next := fleetAt_succ present
  obtain ⟨c, stored, length⟩ := tended.stored
  obtain ⟨after, looked, modality⟩ := card_step event stored
  have held : lease ∈ (fleetAt events moment).hive.leases.rows := Table.mem_of_lookup tended.leased
  have working : ((fleetAt events moment).step event).Working lease.node := by
    refine working_step (tended.ofNode.symm ▸ tended.working) held fun stale asked => ?_
    obtain ⟨beat, last, earlier, heard, hears, recent⟩ :=
      tends.heartbeats moment event stale since before present asked
    have since := heardSince_fleetAt ordered heard hears earlier
      (Nat.le_of_lt (List.getElem?_eq_some_iff.mp present).1)
    intro standing found checkedIn
    rw [tended.ofNode] at found
    obtain ⟨time, known, within⟩ := since standing found checkedIn
    exact ⟨time, known, le_trans recent within⟩
  have effect := fleetLeaseEffect_step (fleetAt events moment) event card
  rw [← next, leased] at effect
  -- the new lease lasts as long as the old one, and as long as one that is granted now if changed
  have outcome : later.node = lease.node ∧ (later = lease ∨
      later.expiresAt = event.around.now + period) := by
    generalize given : some later = later? at effect
    cases effect with
    | called op asked _ effect =>
      cases effect with
      | kept => exact ⟨congrArg Lease.node (Option.some.inj (given.trans tended.leased)),
          Or.inl (Option.some.inj (given.trans tended.leased))⟩
      | ended spares => cases given
      | granted nid n row free found checkedIn ofCard =>
        rw [tended.leased] at free
        cases free
      | checkpointed row other checkpoints ofCard found =>
        obtain rfl := Option.some.inj given
        obtain rfl := Option.some.inj (tended.leased.symm.trans found)
        obtain rfl := Option.some.inj (stored.symm.trans ofCard)
        have plain := uncoded moment event present card c ⟨op, asked, checkpoints⟩ stored
        refine ⟨rfl, Or.inr ?_⟩
        rw [length, ← checkpointTtl_eq plain]
        rfl
      | expired other asked found late => cases given
      | orphaned other grace asked found gone => cases given
    | kept uncalled => exact ⟨congrArg Lease.node (Option.some.inj (given.trans tended.leased)),
        Or.inl (Option.some.inj (given.trans tended.leased))⟩
    | extended uncalled row other ofCard text found =>
      obtain rfl := Option.some.inj given
      obtain rfl := Option.some.inj (tended.leased.symm.trans found)
      obtain rfl := Option.some.inj (stored.symm.trans ofCard)
      exact ⟨rfl, Or.inr (length ▸ rfl)⟩
  obtain ⟨sameNode, lasts⟩ := outcome
  refine ⟨leased, sameNode.trans tended.ofNode, ⟨after, next ▸ looked, modality ▸ length⟩, ?_, ?_⟩
  · rw [next, ← tended.ofNode]
    exact working
  · intro mark last starts ends marked named
    rcases Nat.lt_succ_iff_lt_or_eq.mp ends with earlier | rfl
    · have kept := tended.lasts mark last starts earlier marked named
      rcases lasts with rfl | renewed
      · exact kept
      · rw [renewed]
        exact Int.add_le_add_right (ordered _ _ _ _ (Nat.le_of_lt earlier) marked present) _
    · obtain rfl := Option.some.inj (present.symm.trans marked)
      have checkpoints := named.resolve_left (Nat.ne_of_gt since)
      obtain ⟨row, other, ofCard, found, changed⟩ := lookup_of_checkpoints checkpoints
      rw [← next, leased] at changed
      obtain rfl := Option.some.inj changed
      obtain rfl := Option.some.inj (stored.symm.trans ofCard)
      have plain := uncoded mark event present card c checkpoints stored
      rw [length, ← checkpointTtl_eq plain]

/-- While its node tends it, a lease that is still there is tended. -/
theorem tended_fleetAt (ordered : InOrder events)
    (uncoded : EachStep Fleet.step Fleet.empty FleetEvent.SparesCode events) {lease : Lease}
    (granted : Granted events claim event card lease)
    (tends : Tends events claim card lease.node (lease.expiresAt - event.around.now) stop)
    (held : ∀ moment, claim < moment → moment ≤ stop →
      ((fleetAt events moment).hive.leases.lookup card).isSome)
    (inside : stop < events.length) (since : claim < moment) (before : moment ≤ stop) :
    ∃ later, Tended events claim card lease.node (lease.expiresAt - event.around.now) moment
      later := by
  induction moment, since using Nat.le_induction with
  | base => exact ⟨lease, tended_of_granted granted⟩
  | succ moment since ih =>
    obtain ⟨current, tended⟩ := ih (Nat.le_of_succ_le before)
    have present := List.getElem?_eq_getElem (Nat.lt_of_lt_of_le before (Nat.le_of_lt inside))
    obtain ⟨later, leased⟩ := Option.isSome_iff_exists.mp
      (held (moment + 1) (Nat.lt_succ_of_lt since) before)
    exact ⟨later, tended_step ordered uncoded tends since (Nat.le_of_succ_le before) present tended
      leased⟩

/-- In every run whose calls take effect in the order of their times and in which no code card is
checkpointed, no checkpoint brings the end of a lease nearer, and no reaper takes the lease of a
node that checkpoints as often as the lease was long and heartbeats. -/
theorem workers_keep_leases (events : List FleetEvent) (ordered : InOrder events)
    (uncoded : EachStep Fleet.step Fleet.empty FleetEvent.SparesCode events) :
    WorkersKeepLeases events := by
  constructor
  · intro moment event card lease present checkpoints leased
    obtain ⟨c, other, stored, found, changed⟩ := lookup_of_checkpoints checkpoints
    obtain rfl := Option.some.inj (leased.symm.trans found)
    rw [← fleetAt_succ present] at changed
    refine ⟨_, changed, ?_⟩
    obtain ⟨row, ofCard, within⟩ := ahead_fleetAt ordered present card lease leased
    obtain rfl := Option.some.inj (stored.symm.trans ofCard)
    have plain := uncoded moment event present card c checkpoints stored
    rwa [← checkpointTtl_eq plain] at within
  · intro claim first card lease stop event granted tends held since present reaps
    obtain ⟨op, asked, reaping⟩ := reaps
    have inside : stop < events.length := (List.getElem?_eq_some_iff.mp present).1
    obtain ⟨current, tended⟩ :=
      tended_fleetAt ordered uncoded granted tends held inside since le_rfl
    have effect := fleetLeaseEffect_step (fleetAt events stop) event card
    rw [← fleetAt_succ present] at effect
    generalize (fleetAt events (stop + 1)).hive.leases.lookup card = after? at effect
    cases effect with
    | called op' asked' _ effect =>
      obtain rfl := FleetOp.call.inj (asked.symm.trans asked')
      cases effect with
      | kept => exact Option.isSome_iff_exists.mpr ⟨_, tended.leased⟩
      | ended spares => exact absurd reaping spares
      | granted nid n c free found checkedIn stored => rfl
      | checkpointed c other checkpoints stored found => rfl
      | expired other expiring found late =>
        obtain rfl := Option.some.inj (tended.leased.symm.trans found)
        obtain ⟨mark, last, starts, ends, marked, named, recent⟩ :=
          tends.checkpoints stop event since le_rfl present
        have earlier : mark ≠ stop := by
          rintro rfl
          have checkpoints := named.resolve_left (Nat.ne_of_gt since)
          obtain rfl := Option.some.inj (present.symm.trans marked)
          obtain ⟨op', same, _, _, _, _, checkpoint, _⟩ := checkpoints
          obtain rfl := FleetOp.call.inj (asked.symm.trans same)
          rw [Event.checkpoint?, expiring] at checkpoint
          cases checkpoint
        have lasts := tended.lasts mark last starts (lt_of_le_of_ne ends earlier) marked named
        exact absurd late (not_lt.mpr (le_trans recent lasts))
      | orphaned other grace orphaning found gone =>
        obtain rfl := Option.some.inj (tended.leased.symm.trans found)
        exact absurd gone (notReaped_of_working tended.working tended.ofNode event.around)
    | kept uncalled => exact Option.isSome_iff_exists.mpr ⟨_, tended.leased⟩
    | extended uncalled c other stored text found => rfl

theorem inOrder_of_pairwise (sorted : (events.map (·.around.now)).Pairwise (· ≤ ·)) :
    InOrder events := by
  intro first second early late before found present
  rcases Nat.lt_or_eq_of_le before with earlier | rfl
  · obtain ⟨inFirst, rfl⟩ := List.getElem?_eq_some_iff.mp found
    obtain ⟨inSecond, rfl⟩ := List.getElem?_eq_some_iff.mp present
    exact List.pairwise_iff_getElem.mp (List.pairwise_map.mp sorted) first second inFirst inSecond
      earlier
  · obtain rfl := Option.some.inj (found.symm.trans present)
    exact le_rfl

end Runs

section Examples

/-- The owner's own node may run local code cards. -/
def workstation : Node :=
  { laptop with member := some 1, modalities := [.text, .code], sandboxedTools := true }

def localSurroundings (now : Time) : Surroundings :=
  { surroundings now with
    project := fun id => if id = 1 then some { library with executionMode := .localMode } else none
    node := fun id => if id = 7 then some workstation else none }

/-- A card is claimed at once, checkpointed after a while, and the reapers pass later. -/
def tendedRun (modality : Modality) (checkpoint pass : Time) : List FleetEvent :=
  [⟨localSurroundings 0, .enrollNode 7⟩,
    ⟨localSurroundings 0, .nodeCheckin "laptop"⟩,
    ⟨localSurroundings 0, .call (.createCard ⟨{ essay with modality }, Or.inr rfl⟩)⟩,
    ⟨localSurroundings 0, .call (.nodeClaimCard "laptop")⟩,
    ⟨localSurroundings checkpoint, .call (.nodeCheckpoint "laptop" 1 1 "")⟩,
    ⟨localSurroundings pass, .nodeHeartbeat "laptop"⟩,
    ⟨localSurroundings pass, .call .reapExpiredLeases⟩,
    ⟨localSurroundings pass, .call (.reapOrphanedLeases 300000000)⟩,
    ⟨localSurroundings pass, .reapStaleNodes 90000000⟩]

/-- A text card that is checkpointed after ten minutes is safe after twenty. -/
theorem workers_keep_leases_text :
    WorkersKeepLeases (tendedRun .text 600000000 1200000000) := by
  apply workers_keep_leases
  · apply inOrder_of_pairwise
    decide
  · apply eachStep_of_lt
    intro count inside card c checkpoints stored
    obtain ⟨op, asked, node?, step, state, next, checkpoint, _⟩ := checkpoints
    have text : ((fleetAt (tendedRun .text 600000000 1200000000) 4).hive.cards.lookup 1).map
        Card.modality = some .text := by
      decide +kernel
    simp only [tendedRun, List.length_cons, List.length_nil] at inside
    interval_cases count
    case «4» =>
      cases asked
      cases checkpoint
      rw [show (fleetAt (tendedRun .text 600000000 1200000000) 4).hive.cards.lookup 1 = some c
        from stored, Option.map_some] at text
      rw [Option.some.inj text]
      simp
    all_goals
      cases asked
      try cases checkpoint

/-- A code card is claimed for four hours; its first checkpoint leaves it fifteen minutes, and it
is reaped within the hour. -/
theorem code_card_reaped :
    ((fleetAt (tendedRun .code 60000000 3600000000) 4).hive.leases.lookup 1).map
        Lease.expiresAt = some 14400000000 ∧
      ((fleetAt (tendedRun .code 60000000 3600000000) 5).hive.leases.lookup 1).map
        Lease.expiresAt = some 960000000 ∧
      Tends (tendedRun .code 60000000 3600000000) 3 1 7 14400000000 6 ∧
      (fleetAt (tendedRun .code 60000000 3600000000) 7).hive.leases.lookup 1 = none ∧
      ¬ WorkersKeepLeases (tendedRun .code 60000000 3600000000) := by
  have granted : (fleetAt (tendedRun .code 60000000 3600000000) 4).hive.leases.lookup 1 =
      some ⟨1, 7, 14400000000⟩ := by
    decide +kernel
  have reaped : (fleetAt (tendedRun .code 60000000 3600000000) 7).hive.leases.lookup 1 = none := by
    decide +kernel
  have tends : Tends (tendedRun .code 60000000 3600000000) 3 1 7 14400000000 6 := by
    constructor
    · intro moment event since before present
      refine ⟨3, _, le_rfl, Nat.le_of_lt since, rfl, Or.inl rfl, ?_⟩
      interval_cases moment
      all_goals
        obtain rfl := Option.some.inj present
        decide
    · intro moment event stale since before present asked
      interval_cases moment
      all_goals
        obtain rfl := Option.some.inj present
        cases asked
  refine ⟨by rw [granted]; rfl, by decide +kernel, tends, reaped, fun keeps => ?_⟩
  have held : ∀ moment, 3 < moment → moment ≤ 6 →
      ((fleetAt (tendedRun .code 60000000 3600000000) moment).hive.leases.lookup 1).isSome := by
    intro moment since before
    interval_cases moment <;> decide +kernel
  have kept := keeps.kept 3 _ 1 ⟨1, 7, 14400000000⟩ 6 _ ⟨rfl, by decide +kernel, granted⟩ tends held
    (by decide) rfl ⟨_, rfl, trivial⟩
  rw [reaped] at kept
  cases kept

end Examples

end OHHive.Cloud
