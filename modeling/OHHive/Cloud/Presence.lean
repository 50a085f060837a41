import OHHive.Cloud.Operations

/-! The presence of the nodes, and the store with its nodes under any sequence of calls.
`housekeeping` is three of these calls: the two reapers of leases and the one of nodes. -/

namespace OHHive.Cloud

open Foundation

/-- What a node's row says of its work. -/
structure Standing where
  presence : Presence
  lastHeartbeat : Option Time
deriving DecidableEq

/-- A heartbeat counts only while its node is checked in. -/
def Standing.heartbeat (now : Time) (standing : Standing) : Standing :=
  if standing.presence = .checkedIn then { standing with lastHeartbeat := some now } else standing

/-- The stale reaper: a node that is checked in and was not heard of lately. -/
def Standing.reapStale (now stale : Time) (standing : Standing) : Standing :=
  if standing.presence = .checkedIn ∧ standing.lastHeartbeat.all (· < now - stale) then
    { standing with presence := .checkedOut }
  else standing

/-- A valid entry of a batch of heartbeats: its node, and the leases that its token names. -/
structure PilotBeat where
  node : NodeId
  leases : List CardId

/-- The calls on the store and on its nodes. A registration of a server or a server's heartbeat
stands for one whose other checks passed. -/
inductive FleetOp where
  | call (op : Op)
  | enrollNode (node : NodeId)
  | nodeCheckin (rawKey : String)
  | ctlDNodeCheckin (rawKey : String)
  | serverRegister (rawKey : String)
  | serverHeartbeat (rawKey : String)
  | nodeCheckout (rawKey : String)
  | ctlDNodeCheckout (rawKey : String)
  | memberNodeCheckout (node : NodeId)
  | nodeHeartbeat (rawKey : String)
  | ctlPilotHeartbeats (project : ProjectId) (valid : List PilotBeat)
  | reapStaleNodes (stale : Time)

structure FleetEvent where
  around : Surroundings
  op : FleetOp

/-- The cloud's store with the standing of its nodes. -/
structure Fleet where
  hive : Hive
  standing : NodeId → Option Standing

namespace Fleet

/-- An update of one node's row; without a node nothing happens. -/
def onNode (fleet : Fleet) (node? : Option NodeId) (change : Standing → Standing) : Fleet :=
  { fleet with
    standing := fun id =>
      if node? = some id then (fleet.standing id).map change else fleet.standing id }

/-- What a call finds around it: the nodes as they stand. -/
def surroundings (fleet : Fleet) (around : Surroundings) : Surroundings :=
  { around with
    node := fun id => (fleet.standing id).bind fun standing =>
      (around.node id).map fun node =>
        { node with presence := standing.presence, lastHeartbeat := standing.lastHeartbeat } }

/-- The row of a new node, unless there is one. -/
def enrollNode (fleet : Fleet) (node : NodeId) : Fleet :=
  { fleet with
    standing := fun id =>
      if node = id ∧ (fleet.standing id).isNone then some ⟨.checkedOut, none⟩
      else fleet.standing id }

/-- `node_checkin`, its delegated copy, `server_register` and `server_heartbeat`. -/
def checkin (fleet : Fleet) (around : Surroundings) (node? : Option NodeId) : Fleet :=
  fleet.onNode node? fun _ => ⟨.checkedIn, some around.now⟩

/-- Where a node goes that works no more: it finishes the card that it holds. -/
def leaving (fleet : Fleet) (node? : Option NodeId) : Presence :=
  if fleet.hive.leases.rows.any fun lease => node? = some lease.node then .draining else .checkedOut

/-- `node_checkout` and its delegated copy. -/
def checkout (fleet : Fleet) (around : Surroundings) (node? : Option NodeId) : Fleet :=
  fleet.onNode node? fun _ => ⟨fleet.leaving node?, some around.now⟩

/-- `member_node_checkout`, by the node's own member. -/
def memberNodeCheckout (fleet : Fleet) (around : Surroundings) (node : NodeId) : Fleet :=
  if (around.node node).any fun row => row.member.isSome && row.member = around.user then
    fleet.onNode (some node) fun standing => { standing with presence := fleet.leaving (some node) }
  else fleet

/-- The leases that a batch of heartbeats extends. -/
def pilotExtends (fleet : Fleet) (around : Surroundings) (project : ProjectId)
    (valid : List PilotBeat) (lease : Lease) : Bool :=
  (valid.any fun beat => beat.node = lease.node && beat.leases.contains lease.card) &&
    ((fleet.hive.cards.lookup lease.card).any fun card =>
      card.projectId = project && card.modality = .text) &&
    around.now < lease.expiresAt

/-- `ctl_pilot_heartbeats`. -/
def ctlPilotHeartbeats (fleet : Fleet) (around : Surroundings) (project : ProjectId)
    (valid : List PilotBeat) : Fleet where
  hive := { fleet.hive with
    leases := fleet.hive.leases.updateWhere (fleet.pilotExtends around project valid)
      (fun lease => { lease with expiresAt := around.now + 15 * 60000000 }) fun _ => rfl }
  standing := fun id =>
    if valid.any fun beat => beat.node = id then
      (fleet.standing id).map (Standing.heartbeat around.now)
    else fleet.standing id

/-- `reap_stale_nodes`. -/
def reapStaleNodes (fleet : Fleet) (around : Surroundings) (stale : Time) : Fleet :=
  { fleet with
    standing := fun id => (fleet.standing id).map (Standing.reapStale around.now stale) }

/-- A call on the store sees the nodes as they stand. -/
def call (fleet : Fleet) (around : Surroundings) (op : Op) : Event :=
  ⟨fleet.surroundings around, op⟩

def step (fleet : Fleet) (event : FleetEvent) : Fleet :=
  let around := event.around
  match event.op with
  | .call op => { fleet with hive := fleet.hive.step (fleet.call around op) }
  | .enrollNode node => fleet.enrollNode node
  | .nodeCheckin rawKey => fleet.checkin around (around.verifyNodeKey rawKey)
  | .ctlDNodeCheckin rawKey => fleet.checkin around (around.ctlDelegateNode rawKey)
  | .serverRegister rawKey => fleet.checkin around (around.verifyNodeKey rawKey)
  | .serverHeartbeat rawKey => fleet.checkin around (around.verifyNodeKey rawKey)
  | .nodeCheckout rawKey => fleet.checkout around (around.verifyNodeKey rawKey)
  | .ctlDNodeCheckout rawKey => fleet.checkout around (around.ctlDelegateNode rawKey)
  | .memberNodeCheckout node => fleet.memberNodeCheckout around node
  | .nodeHeartbeat rawKey =>
    fleet.onNode (around.verifyNodeKey rawKey) (Standing.heartbeat around.now)
  | .ctlPilotHeartbeats project valid => fleet.ctlPilotHeartbeats around project valid
  | .reapStaleNodes stale => fleet.reapStaleNodes around stale

def empty : Fleet := ⟨Hive.empty, fun _ => none⟩

end Fleet

/-- The store and its nodes after the first events of a run. -/
def fleetAt (events : List FleetEvent) : Nat → Fleet := stateAt Fleet.step Fleet.empty events

/-- The nodes that an event hears of. -/
def FleetEvent.hears (event : FleetEvent) (node : NodeId) : Prop :=
  match event.op with
  | .nodeCheckin rawKey => event.around.verifyNodeKey rawKey = some node
  | .ctlDNodeCheckin rawKey => event.around.ctlDelegateNode rawKey = some node
  | .serverRegister rawKey => event.around.verifyNodeKey rawKey = some node
  | .serverHeartbeat rawKey => event.around.verifyNodeKey rawKey = some node
  | .nodeHeartbeat rawKey => event.around.verifyNodeKey rawKey = some node
  | .ctlPilotHeartbeats _ valid => ∃ beat ∈ valid, beat.node = node
  | _ => False

section Standings

variable {fleet : Fleet} {event : FleetEvent} {node : NodeId}

/-- A node that counts as working was heard of at a time or later. -/
def Fleet.HeardSince (fleet : Fleet) (node : NodeId) (since : Time) : Prop :=
  ∀ standing, fleet.standing node = some standing → standing.presence = .checkedIn →
    ∃ heard, standing.lastHeartbeat = some heard ∧ since ≤ heard

/-- A node that works or finishes its work. -/
def Fleet.Working (fleet : Fleet) (node : NodeId) : Prop :=
  ∃ standing, fleet.standing node = some standing ∧ standing.presence ≠ .checkedOut

/-- What an event does to the standing of one node. -/
inductive StandingEffect (event : FleetEvent) (fleet : Fleet) (node : NodeId) :
    Option Standing → Option Standing → Prop
  | kept (standing : Option Standing) (silent : ¬ event.hears node) :
      StandingEffect event fleet node standing standing
  | unknown : StandingEffect event fleet node none none
  | enrolled : StandingEffect event fleet node none (some ⟨.checkedOut, none⟩)
  | arrived (standing : Standing) :
      StandingEffect event fleet node (some standing) (some ⟨.checkedIn, some event.around.now⟩)
  | left (standing : Standing) (lastHeartbeat : Option Time) (silent : ¬ event.hears node) :
      StandingEffect event fleet node (some standing)
        (some ⟨fleet.leaving (some node), lastHeartbeat⟩)
  | heard (standing : Standing) :
      StandingEffect event fleet node (some standing)
        (some (standing.heartbeat event.around.now))
  | reaped (standing : Standing) (stale : Time) (asked : event.op = .reapStaleNodes stale) :
      StandingEffect event fleet node (some standing)
        (some (standing.reapStale event.around.now stale))

theorem standing_onNode {node? : Option NodeId} {change : Standing → Standing} :
    (fleet.onNode node? change).standing node =
      if node? = some node then (fleet.standing node).map change else fleet.standing node := rfl

/-- An update of the node's own row, and of no other row. -/
theorem StandingEffect.of_onNode {node? : Option NodeId} {change : Standing → Standing}
    (silent : node? ≠ some node → ¬ event.hears node)
    (moves : node? = some node → ∀ standing,
      StandingEffect event fleet node (some standing) (some (change standing))) :
    StandingEffect event fleet node (fleet.standing node)
      ((fleet.onNode node? change).standing node) := by
  rw [standing_onNode]
  by_cases own : node? = some node
  · rw [if_pos own]
    cases fleet.standing node with
    | none => exact .unknown
    | some standing => exact moves own standing
  · rw [if_neg own]
    exact .kept _ (silent own)

theorem standing_step (fleet : Fleet) (event : FleetEvent) (node : NodeId) :
    StandingEffect event fleet node (fleet.standing node) ((fleet.step event).standing node) := by
  obtain ⟨around, op⟩ := event
  cases op with
  | call op => exact .kept _ not_false
  | enrollNode enrolled =>
    show StandingEffect _ fleet node (fleet.standing node)
      (if enrolled = node ∧ (fleet.standing node).isNone then some ⟨.checkedOut, none⟩
        else fleet.standing node)
    split
    · rename_i fresh
      rw [Option.isNone_iff_eq_none.mp fresh.2]
      exact .enrolled
    · exact .kept _ not_false
  | nodeCheckin rawKey => exact .of_onNode (fun other => other) fun _ => .arrived
  | ctlDNodeCheckin rawKey => exact .of_onNode (fun other => other) fun _ => .arrived
  | serverRegister rawKey => exact .of_onNode (fun other => other) fun _ => .arrived
  | serverHeartbeat rawKey => exact .of_onNode (fun other => other) fun _ => .arrived
  | nodeCheckout rawKey =>
    refine .of_onNode (fun _ => not_false) fun own standing => ?_
    rw [own]
    exact .left standing _ not_false
  | ctlDNodeCheckout rawKey =>
    refine .of_onNode (fun _ => not_false) fun own standing => ?_
    rw [own]
    exact .left standing _ not_false
  | memberNodeCheckout leaver =>
    show StandingEffect _ fleet node (fleet.standing node)
      ((fleet.memberNodeCheckout around leaver).standing node)
    unfold Fleet.memberNodeCheckout
    split
    · refine .of_onNode (fun _ => not_false) fun own standing => ?_
      rw [own]
      exact .left standing _ not_false
    · exact .kept _ not_false
  | nodeHeartbeat rawKey => exact .of_onNode (fun other => other) fun _ => .heard
  | ctlPilotHeartbeats project valid =>
    show StandingEffect _ fleet node (fleet.standing node)
      (if valid.any fun beat => beat.node = node then
        (fleet.standing node).map (Standing.heartbeat around.now) else fleet.standing node)
    split
    · cases fleet.standing node with
      | none => exact .unknown
      | some standing => exact .heard standing
    · rename_i unnamed
      refine .kept _ ?_
      rintro ⟨beat, member, named⟩
      exact unnamed (List.any_eq_true.mpr ⟨beat, member, decide_eq_true named⟩)
  | reapStaleNodes stale =>
    show StandingEffect _ fleet node (fleet.standing node)
      ((fleet.standing node).map (Standing.reapStale around.now stale))
    cases fleet.standing node with
    | none => exact .unknown
    | some standing => exact .reaped standing stale rfl

theorem leaving_ne_checkedIn (fleet : Fleet) (node? : Option NodeId) :
    fleet.leaving node? ≠ .checkedIn := by
  unfold Fleet.leaving
  split <;> simp

/-- A node with a lease only drains. -/
theorem leaving_of_lease {lease : Lease} (held : lease ∈ fleet.hive.leases.rows) :
    fleet.leaving (some lease.node) = .draining := by
  unfold Fleet.leaving
  rw [if_pos (List.any_eq_true.mpr ⟨lease, held, decide_eq_true rfl⟩)]

/-- While the clock runs on, a node was heard of since any earlier time that it was heard at. -/
theorem heardSince_step {since : Time} (heard : fleet.HeardSince node since)
    (later : since ≤ event.around.now) : (fleet.step event).HeardSince node since := by
  intro after found checkedIn
  have effect := standing_step fleet event node
  rw [found] at effect
  generalize before : fleet.standing node = standing? at effect
  cases effect with
  | kept _ silent => exact heard after before checkedIn
  | enrolled => cases checkedIn
  | arrived standing => exact ⟨_, rfl, later⟩
  | left standing lastHeartbeat silent =>
    exact absurd checkedIn (leaving_ne_checkedIn fleet (some node))
  | heard standing =>
    unfold Standing.heartbeat at checkedIn ⊢
    split at checkedIn
    · rename_i works
      rw [if_pos works]
      exact ⟨_, rfl, later⟩
    · rename_i idle
      exact absurd checkedIn idle
  | reaped standing stale asked =>
    unfold Standing.reapStale at checkedIn ⊢
    split at checkedIn
    · cases checkedIn
    · rename_i fresh
      rw [if_neg fresh]
      exact heard standing before checkedIn

/-- A node that an event hears of was heard of since. -/
theorem heardSince_of_hears (hears : event.hears node) :
    (fleet.step event).HeardSince node event.around.now := by
  intro after found checkedIn
  have effect := standing_step fleet event node
  rw [found] at effect
  generalize fleet.standing node = standing? at effect
  cases effect with
  | kept _ silent => exact absurd hears silent
  | enrolled => cases checkedIn
  | arrived standing => exact ⟨_, rfl, le_rfl⟩
  | left standing lastHeartbeat silent => exact absurd hears silent
  | heard standing =>
    unfold Standing.heartbeat at checkedIn ⊢
    split at checkedIn
    · rename_i works
      rw [if_pos works]
      exact ⟨_, rfl, le_rfl⟩
    · rename_i idle
      exact absurd checkedIn idle
  | reaped standing stale asked =>
    rw [FleetEvent.hears, asked] at hears
    cases hears

/-- A node with a lease works on, or finishes, unless the stale reaper finds it silent. -/
theorem working_step {lease : Lease} (working : fleet.Working lease.node)
    (held : lease ∈ fleet.hive.leases.rows)
    (fresh : ∀ stale, event.op = .reapStaleNodes stale →
      fleet.HeardSince lease.node (event.around.now - stale)) :
    (fleet.step event).Working lease.node := by
  obtain ⟨before, found, works⟩ := working
  have effect := standing_step fleet event lease.node
  rw [found] at effect
  generalize after : (fleet.step event).standing lease.node = standing? at effect
  cases effect with
  | kept _ silent => exact ⟨before, after, works⟩
  | arrived standing => exact ⟨_, after, by simp⟩
  | left standing lastHeartbeat silent =>
    refine ⟨_, after, ?_⟩
    rw [leaving_of_lease held]
    simp
  | heard standing =>
    refine ⟨_, after, ?_⟩
    unfold Standing.heartbeat
    split <;> exact works
  | reaped standing stale asked =>
    refine ⟨_, after, ?_⟩
    unfold Standing.reapStale
    split
    · rename_i silent
      obtain ⟨checkedIn, old⟩ := silent
      obtain ⟨heard, last, since⟩ := fresh stale asked before found checkedIn
      rw [last, Option.all_some, decide_eq_true_eq] at old
      exact absurd old (not_lt.mpr since)
    · exact works

end Standings

end OHHive.Cloud
