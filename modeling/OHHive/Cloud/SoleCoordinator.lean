import OHHive.Cloud.Coordinators

/-! A single coordinator: the lease has one holder at a time, and a server gives up the flag with
its lease in exactly the runs in which it hears from the hub. -/

namespace OHHive.Cloud

open Foundation

section Properties

/-- A grant of the lease. -/
def ElectionReply.grants : ElectionReply → Bool
  | .tried coordinator .. => coordinator
  | .released _ => false

/-- No heartbeat is over that began after the last lease of the server had ended, and left the flag
set. -/
def ServerProcess.Honest (db : ElectionDb) (server : ServerProcess) : Prop :=
  server.isCoordinator → ∃ ends, db.leaseEnd server.node = some ends ∧
    ∀ began ∈ server.completed, began ≤ ends

/-- The lease of the server has ended, and its next heartbeat is still to come. -/
def ServerProcess.Lapsing (db : ElectionDb) (clock : Time) (server : ServerProcess) : Prop :=
  ∃ ends, db.leaseEnd server.node = some ends ∧ ends < clock ∧
    ∀ began ∈ server.completed, began ≤ ends

/-- Servers act on leases of theirs, and never two of them after the failover time. -/
structure Region.SoleCoordinator (region : Region) : Prop where
  honest : ∀ server ∈ region.servers.rows, server.Honest region.hub.committed
  apart : ∀ first ∈ region.servers.rows, ∀ second ∈ region.servers.rows,
    first.isCoordinator → second.isCoordinator → first.node ≠ second.node →
    first.Lapsing region.hub.committed region.clock ∨
      second.Lapsing region.hub.committed region.clock

/-- The lease row from one state to the next: a new holder is a new generation, and comes after the
old lease, a standby 30 s after it. -/
structure LeaseKept (directory : Directory) (clock : Time) (before after : ElectionDb) : Prop where
  holder : (after.lease.nodeId = before.lease.nodeId ∧
      after.lease.generation = before.lease.generation) ∨
    ∃ nid tier now, directory.tierOf nid = some tier ∧ before.lease.nodeId ≠ some nid ∧
      after.lease.nodeId = some nid ∧
      after.lease.generation = before.lease.generation + 1 ∧ now ≤ clock ∧
      (before.lease.nodeId = none ∨
        ∃ ends, before.lease.expiresAt = some ends ∧ ends + tier.grace < now)
  granted : after.answers = before.answers ∨ ∃ answer, after.answers = before.answers ++ [answer] ∧
    (answer.reply.grants → after.lease.nodeId = directory.nodeOf answer.call.rawKey)

/-- No call of a server commits after the server has begun a newer heartbeat. -/
def Region.Prompt (region : Region) (move : RegionMove) : Prop :=
  ∀ ticket call, move = .advances ticket → region.hub.commits (.advance ticket) = some call →
    ∀ server ∈ region.servers.rows,
      region.hub.committed.directory.nodeOf call.rawKey = some server.node →
      ∀ beat ∈ server.beat, call.ticket = beat.ticket

/-- No election call fails that a coordinator makes after its last lease has ended. -/
def Region.Answered (region : Region) (move : RegionMove) : Prop :=
  ∀ node server beat, move = .fails node → region.servers.lookup node = some server →
    server.waits → server.isCoordinator → server.beat = some beat →
    ∃ ends, region.hub.committed.leaseEnd node = some ends ∧ beat.began ≤ ends

end Properties

section Leases

variable {directory : Directory} {region : Region}

theorem leaseKept_refl (clock : Time) (db : ElectionDb) : LeaseKept directory clock db db :=
  ⟨Or.inl ⟨rfl, rfl⟩, Or.inl rfl⟩

/-- What one commit does. -/
theorem leaseKept_of_settles {clock : Time} {before after : ElectionDb} {call : ElectionCall}
    {reply : ElectionReply} (consistent : before.Consistent) (timely : call.now ≤ clock)
    (listed : before.directory = directory)
    (answers : after.answers = before.answers ++ [⟨call, reply⟩])
    (settled : Settles before.directory call before.lease after.lease reply) :
    LeaseKept directory clock before after := by
  rw [listed] at settled
  have held := consistent.held
  generalize row : before.lease = lease at settled held
  generalize left : after.lease = leased at settled
  cases settled with
  | renewed verified holds =>
    refine ⟨Or.inl ?_, Or.inr ⟨_, answers, fun _ => ?_⟩⟩
    · rw [left, row]
      exact ⟨rfl, rfl⟩
    · rw [left]
      exact holds.trans verified.symm
  | @taken _ _ _ now nid tier _ _ _ verified registered other free =>
    refine ⟨Or.inr ⟨nid, tier, now, registered, ?_⟩, Or.inr ⟨_, answers, fun _ => ?_⟩⟩
    · rw [left, row]
      refine ⟨other, rfl, rfl, timely, ?_⟩
      cases holds : lease.nodeId with
      | none => exact Or.inl rfl
      | some holder =>
        obtain ⟨ends, expires, _⟩ := held holder holds
        exact Or.inr ⟨ends, expires, CoordinatorLease.ended_of_isFree free holds expires⟩
    · rw [left]
      exact verified.symm
  | refused =>
    refine ⟨Or.inl ?_, Or.inr ⟨_, answers, fun granted => nomatch granted⟩⟩
    rw [left, row]
    exact ⟨rfl, rfl⟩
  | released verified holds =>
    refine ⟨Or.inl ?_, Or.inr ⟨_, answers, fun granted => nomatch granted⟩⟩
    rw [left, row]
    exact ⟨rfl, rfl⟩
  | unheld =>
    refine ⟨Or.inl ?_, Or.inr ⟨_, answers, fun granted => nomatch granted⟩⟩
    rw [left, row]
    exact ⟨rfl, rfl⟩

/-- Only a statement of the hub can commit. -/
theorem committed_step (region : Region) (move : RegionMove) :
    (region.step move).hub.committed = region.hub.committed ∨
      ∃ ticket call, move = .advances ticket ∧
        region.hub.commits (.advance ticket) = some call ∧
        region.step move = { region with
          hub := region.hub.step ElectionCall.program (.advance ticket) } := by
  cases move with
  | advances ticket =>
    cases commits : region.hub.commits (.advance ticket) with
    | none => exact Or.inl (System.committed_of_not_commits commits)
    | some call => exact Or.inr ⟨ticket, call, rfl, commits, rfl⟩
  | aborts ticket => exact Or.inl rfl
  | arrives ticket =>
    left
    simp only [Region.step, Region.arrives]
    split
    · rfl
    · exact System.committed_of_not_commits rfl
  | beats node =>
    left
    simp only [Region.step, Region.beats]
    split
    · rfl
    · split <;> rfl
  | boots rawKey =>
    left
    simp only [Region.step, Region.boots]
    split
    · rfl
    · split <;> rfl
  | answered node =>
    left
    simp only [Region.step, Region.answered]
    split <;> rfl
  | fails node =>
    left
    simp only [Region.step, Region.fails]
    split
    · rfl
    · split <;> rfl
  | stops node =>
    left
    simp only [Region.step, Region.stops]
    split
    · rfl
    · split <;> rfl
  | _ => exact Or.inl rfl

theorem Region.Sound.leaseKept (sound : region.Sound directory) (move : RegionMove) :
    LeaseKept directory region.clock region.hub.committed (region.step move).hub.committed := by
  rcases committed_step region move with same | ⟨ticket, call, rfl, commits, stepped⟩
  · rw [same]
    exact leaseKept_refl _ _
  · obtain ⟨_, reply, answers, settled⟩ := settled_of_commits sound.valid commits
    obtain ⟨client, member, rfl⟩ := System.exists_client_of_commits commits
    have timely := (sound.clients client member).1
    rw [stepped]
    exact leaseKept_of_settles sound.consistent timely sound.listed answers settled

/-- Of two nodes with leases at most one has the lease row; the other's lease has ended. -/
theorem Region.Sound.apart (sound : region.Sound directory)
    (honest : ∀ server ∈ region.servers.rows, server.Honest region.hub.committed) :
    region.SoleCoordinator := by
  refine ⟨honest, ?_⟩
  have lapsing (server : ServerProcess) (member : server ∈ region.servers.rows)
      (flag : server.isCoordinator)
      (other : region.hub.committed.lease.nodeId ≠ some server.node) :
      server.Lapsing region.hub.committed region.clock := by
    obtain ⟨ends, last, completed⟩ := honest server member flag
    obtain ⟨answer, stored, later⟩ := sound.consistent.lost server.node ends last other
    exact ⟨ends, last, lt_of_lt_of_le later (sound.answers answer stored).1, completed⟩
  intro first firstMember second secondMember firstFlag secondFlag different
  by_cases held : region.hub.committed.lease.nodeId = some first.node
  · right
    apply lapsing second secondMember secondFlag
    rw [held]
    exact fun same => different (Option.some.inj same)
  · exact Or.inl (lapsing first firstMember firstFlag held)

end Leases

section Flags

variable {directory : Directory} {region : Region} {node : NodeId}

/-- What a run keeps in which calls are prompt and answered. -/
structure Region.Flags (region : Region) : Prop where
  honest : ∀ server ∈ region.servers.rows, server.Honest region.hub.committed
  granted : ∀ server ∈ region.servers.rows, ∀ beat ∈ server.beat,
    ∀ answer ∈ region.hub.committed.answers, answer.call.ticket = beat.ticket →
      answer.reply.grants → ∃ ends, region.hub.committed.leaseEnd server.node = some ends ∧
        beat.began ≤ ends

/-- A prompt commit leaves the lease of a server alone, or is the grant to its heartbeat. -/
theorem Region.Sound.leaseEnd_commits (sound : region.Sound directory) {ticket : Nat}
    {call : ElectionCall} {reply : ElectionReply} {after : ElectionDb}
    (prompt : region.Prompt (.advances ticket))
    (commits : region.hub.commits (.advance ticket) = some call)
    (listed : after.directory = region.hub.committed.directory)
    (answers : after.answers = region.hub.committed.answers ++ [⟨call, reply⟩])
    {server : ServerProcess} (member : server ∈ region.servers.rows) {beat : Beat}
    (newest : beat ∈ server.beat) :
    (after.leaseEnd server.node = region.hub.committed.leaseEnd server.node ∧
      ¬ (call.ticket = beat.ticket ∧ reply.grants)) ∨
    ∃ ends, after.leaseEnd server.node = some ends ∧ beat.began ≤ ends := by
  obtain ⟨client, stored, rfl⟩ := System.exists_client_of_commits commits
  have owns := (sound.clients client stored).2.2 server member beat newest
  have keyed := (sound.servers server member).keyed
  rw [leaseEnd_of_answered listed answers]
  by_cases own : region.hub.committed.directory.nodeOf client.call.rawKey = some server.node
  · have same := prompt ticket client.call rfl commits server member own beat newest
    obtain ⟨now, began, made⟩ := owns same
    rw [made] at own ⊢
    cases reply with
    | released done =>
      left
      refine ⟨?_, fun grants => Bool.noConfusion grants.2⟩
      simp [ElectionAnswer.leaseEnd?]
    | tried coordinator holder name url expires generation =>
      cases coordinator with
      | false =>
        left
        refine ⟨?_, fun grants => Bool.noConfusion grants.2⟩
        simp [ElectionAnswer.leaseEnd?]
      | true =>
        right
        refine ⟨now + seconds 90, ?_, ?_⟩
        · rw [ElectionAnswer.leaseEnd?, if_pos own]
          rfl
        · exact le_trans began (Int.le_add_of_nonneg_right (by decide))
  · left
    rw [leaseEnd?_of_other own, Option.none_or]
    refine ⟨rfl, fun grants => own ?_⟩
    obtain ⟨now, _, made⟩ := owns grants.1
    rw [made, sound.listed]
    exact keyed

/-- A commit keeps the flags. -/
theorem Region.Flags.commits (flags : region.Flags) (sound : region.Sound directory) {ticket : Nat}
    {call : ElectionCall} (prompt : region.Prompt (.advances ticket))
    (commits : region.hub.commits (.advance ticket) = some call) :
    ({ region with
      hub := region.hub.step ElectionCall.program (.advance ticket) } : Region).Flags := by
  obtain ⟨listed, reply, answers, _⟩ := settled_of_commits sound.valid commits
  have moved (server : ServerProcess) (member : server ∈ region.servers.rows) (beat : Beat)
      (newest : beat ∈ server.beat) :=
    sound.leaseEnd_commits prompt commits listed answers member newest
  constructor
  · intro server member flag
    cases newest : server.beat with
    | none =>
      rw [((sound.servers server member).idle newest).1] at flag
      cases flag
    | some beat =>
      rcases moved server member beat newest with ⟨same, _⟩ | ⟨ends, last, began⟩
      · obtain ⟨ends, last, completed⟩ := flags.honest server member flag
        exact ⟨ends, same.trans last, completed⟩
      · have earlier := ((sound.servers server member).beat beat newest).2.2
        exact ⟨ends, last, fun time ended => le_trans (earlier time ended) began⟩
  · intro server member beat newest answer stored ticketed grants
    change answer ∈ (region.hub.step ElectionCall.program (.advance ticket)).committed.answers
      at stored
    rw [answers] at stored
    rcases moved server member beat newest with ⟨same, other⟩ | granted
    · rcases List.mem_append.mp stored with before | new
      · obtain ⟨ends, last, began⟩ :=
          flags.granted server member beat newest answer before ticketed grants
        exact ⟨ends, same.trans last, began⟩
      · obtain rfl := List.mem_singleton.mp new
        exact absurd ⟨ticketed, grants⟩ other
    · exact granted

/-- Servers that only end, begin anew or wait keep the flags. -/
theorem Region.Flags.servers {next : Region} (flags : region.Flags)
    (committed : next.hub.committed = region.hub.committed)
    (honest : ∀ server ∈ next.servers.rows, server.Honest region.hub.committed)
    (beats : ∀ server ∈ next.servers.rows, ∀ beat ∈ server.beat,
      (∃ before ∈ region.servers.rows, before.node = server.node ∧ beat ∈ before.beat) ∨
      ∀ answer ∈ region.hub.committed.answers, answer.call.ticket ≠ beat.ticket) :
    next.Flags := by
  constructor
  · rw [committed]
    exact honest
  · rw [committed]
    intro server member beat newest answer stored ticketed grants
    rcases beats server member beat newest with ⟨before, had, same, old⟩ | fresh
    · exact same ▸ flags.granted before had beat old answer stored ticketed grants
    · exact absurd ticketed (fresh answer stored)

theorem Region.Flags.updateServer (flags : region.Flags) {change : ServerProcess → ServerProcess}
    {fixed : ∀ server, (change server).node = server.node} {next : Region}
    (hub : next.hub = region.hub)
    (servers : next.servers = (region.updateServer node change fixed).servers)
    (honest : ∀ server, region.servers.lookup node = some server →
      (change server).Honest region.hub.committed)
    (beats : ∀ server, region.servers.lookup node = some server → ∀ beat ∈ (change server).beat,
      beat ∈ server.beat ∨
        ∀ answer ∈ region.hub.committed.answers, answer.call.ticket ≠ beat.ticket) :
    next.Flags := by
  refine flags.servers (congrArg System.committed hub) ?_ ?_
  · rw [servers]
    exact Region.forall_updateServer change fixed
      (fun server stored _ => flags.honest server stored) honest
  · rw [servers]
    refine Region.forall_updateServer change fixed ?_ ?_
    · exact fun server stored _ beat newest => Or.inl ⟨server, stored, rfl, newest⟩
    · intro server stored beat newest
      rcases beats server stored beat newest with old | fresh
      · exact Or.inl ⟨server, Table.mem_of_lookup stored, (fixed server).symm, old⟩
      · exact Or.inr fresh

theorem Region.Flags.answered (flags : region.Flags) (node : NodeId) :
    (region.answered node).Flags := by
  unfold Region.answered
  split
  · exact flags
  · rename_i coordinator replied
    obtain ⟨server, beat, found, _, newest, answer, stored, ticketed, reply⟩ :=
      waits_of_replyFor replied
    refine flags.updateServer rfl rfl ?_ fun _ _ _ old => Or.inl old
    intro other lookedUp flag
    obtain rfl := Option.some.inj (found.symm.trans lookedUp)
    have grants : answer.reply.grants := by
      obtain ⟨_, _, _, _, _, same⟩ := reply
      rw [same]
      exact flag
    obtain ⟨ends, last, began⟩ := flags.granted server (Table.mem_of_lookup found) beat newest
      answer stored ticketed grants
    refine ⟨ends, last, fun time ended => ?_⟩
    simp only [ServerProcess.ends, newest, Option.map_some, Option.mem_some_iff] at ended
    exact ended ▸ began

theorem Region.Flags.fails (flags : region.Flags) (node : NodeId)
    (answered : region.Answered (.fails node)) : (region.fails node).Flags := by
  unfold Region.fails
  split
  · exact flags
  · rename_i server found
    split
    · rename_i waits
      refine flags.updateServer rfl rfl ?_ fun _ _ _ old => Or.inl old
      intro other lookedUp flag
      obtain rfl := Option.some.inj (found.symm.trans lookedUp)
      have keyed : server.node = node := Table.key_of_lookup found
      cases newest : server.beat with
      | none =>
        obtain ⟨ends, last, _⟩ := flags.honest server (Table.mem_of_lookup found) flag
        refine ⟨ends, last, fun time ended => ?_⟩
        simp [ServerProcess.ends, newest] at ended
      | some beat =>
        obtain ⟨ends, last, began⟩ := answered node server beat rfl found waits flag newest
        refine ⟨ends, keyed.symm ▸ last, fun time ended => ?_⟩
        simp only [ServerProcess.ends, newest, Option.map_some, Option.mem_some_iff] at ended
        exact ended ▸ began
    · exact flags

theorem Region.Flags.beats (flags : region.Flags) (sound : region.Sound directory)
    (node : NodeId) : (region.beats node).Flags := by
  unfold Region.beats
  split
  · exact flags
  · split
    · exact flags
    · refine @Region.Flags.updateServer region node flags
        (·.begins region.tickets region.clock) (fun _ => rfl) _ rfl rfl ?_ ?_
      · exact fun server stored flag => flags.honest server (Table.mem_of_lookup stored) flag
      · intro server stored beat newest
        right
        obtain rfl := Option.some.inj newest
        intro answer member same
        have given := (sound.answers answer member).2.1
        rw [same] at given
        exact absurd given (Nat.lt_irrefl _)

/-- Every move that is prompt and answered keeps the flags. -/
theorem Region.Flags.step (flags : region.Flags) (sound : region.Sound directory)
    {move : RegionMove} (prompt : region.Prompt move) (answered : region.Answered move) :
    (region.step move).Flags := by
  have same {next : Region} (committed : next.hub.committed = region.hub.committed)
      (fewer : ∀ server ∈ next.servers.rows, server ∈ region.servers.rows) : next.Flags :=
    flags.servers committed (fun server member => flags.honest server (fewer server member))
      fun server member beat newest => Or.inl ⟨server, fewer server member, rfl, newest⟩
  cases move with
  | passes time => exact same rfl fun _ member => member
  | boots rawKey =>
    simp only [Region.step, Region.boots]
    split
    · exact flags
    · split
      · exact flags
      · rename_i servers inserted
        have rows := Table.rows_of_insert? inserted
        refine flags.servers rfl ?_ ?_
        · intro server member
          rw [rows, List.mem_append, List.mem_singleton] at member
          rcases member with stored | rfl
          · exact flags.honest server stored
          · exact fun flag => Bool.noConfusion flag
        · intro server member beat newest
          rw [rows, List.mem_append, List.mem_singleton] at member
          rcases member with stored | rfl
          · exact Or.inl ⟨server, stored, rfl, newest⟩
          · cases newest
  | beats node => exact flags.beats sound node
  | answered node => exact flags.answered node
  | fails node => exact flags.fails node answered
  | stops node =>
    have kept : ∀ server ∈ (region.withoutServer node).servers.rows,
        server ∈ region.servers.rows := fun server member => (List.mem_filter.mp member).1
    simp only [Region.step, Region.stops]
    split
    · exact flags
    · split
      · exact same rfl kept
      · exact same rfl kept
  | crashes node => exact same rfl fun server member => (List.mem_filter.mp member).1
  | arrives ticket =>
    simp only [Region.step, Region.arrives]
    split
    · exact flags
    · exact same (System.committed_of_not_commits rfl) fun _ member => member
  | loses ticket => exact same rfl fun _ member => member
  | advances ticket =>
    cases commits : region.hub.commits (.advance ticket) with
    | none => exact same (System.committed_of_not_commits commits) fun _ member => member
    | some call => exact flags.commits sound prompt commits
  | aborts ticket => exact same rfl fun _ member => member

end Flags

section Runs

variable (directory : Directory) (clock : Time) (moves : List RegionMove)

theorem sound_regionAt (moment : Nat) :
    (Region.regionAt directory clock moves moment).Sound directory := by
  apply stateAt_invariant
  · exact {
      listed := rfl
      valid := ⟨trivial, fun _ member => (nomatch member), fun _ member => (nomatch member)⟩
      consistent := ⟨fun _ holds => (nomatch holds), fun _ _ has => (nomatch has)⟩
      servers := fun _ member => (nomatch member)
      requests := fun _ member => (nomatch member)
      clients := fun _ member => (nomatch member)
      answers := fun _ member => (nomatch member) }
  · exact fun region move _ sound => sound.step move

/-- A call that fails after the lease has ended leaves the flag set. -/
theorem not_honest_of_not_answered {region : Region} {move : RegionMove}
    (unanswered : ¬ region.Answered move) :
    ∃ server ∈ (region.step move).servers.rows,
      ¬ server.Honest (region.step move).hub.committed := by
  simp only [Region.Answered, not_forall] at unanswered
  obtain ⟨node, server, beat, rfl, found, waits, flag, newest, ended⟩ := unanswered
  have stepped : region.step (.fails node) =
      region.updateServer node (·.ends none) fun _ => rfl := by
    simp only [Region.step, Region.fails, found, waits, if_true]
  have keyed : server.node = node := Table.key_of_lookup found
  rw [stepped]
  refine ⟨server.ends none, ?_, ?_⟩
  · refine List.mem_map.mpr ⟨server, Table.mem_of_lookup found, ?_⟩
    simp [keyed]
  · intro honest
    obtain ⟨ends, last, completed⟩ := honest flag
    refine ended ⟨ends, keyed ▸ last, completed beat.began ?_⟩
    simp [ServerProcess.ends, newest]

/-- In every run the lease row has one holder at a time. Where every call is prompt, the servers act
as coordinator one at a time if and only if no call of a coordinator fails after its lease has
ended. -/
theorem sole_coordinator_iff_answered :
    (∀ moment, LeaseKept directory (Region.regionAt directory clock moves moment).clock
      (Region.regionAt directory clock moves moment).hub.committed
      (Region.regionAt directory clock moves (moment + 1)).hub.committed) ∧
    (EachStep Region.step (Region.initial directory clock) Region.Prompt moves →
      ((∀ moment, (Region.regionAt directory clock moves moment).SoleCoordinator) ↔
        EachStep Region.step (Region.initial directory clock) Region.Answered moves)) := by
  refine ⟨fun moment => ?_, fun prompt => ⟨?_, ?_⟩⟩
  · have sound := sound_regionAt directory clock moves moment
    rcases stateAt_next Region.step (Region.initial directory clock) moves moment with
      ⟨move, _, next⟩ | ⟨_, next⟩
    · simp only [Region.regionAt] at sound ⊢
      rw [next]
      exact sound.leaseKept move
    · simp only [Region.regionAt]
      rw [next]
      exact leaseKept_refl _ _
  · intro sole moment move present
    by_contra unanswered
    obtain ⟨server, member, dishonest⟩ := not_honest_of_not_answered unanswered
    have next := stateAt_succ Region.step (Region.initial directory clock) present
    have here := (sole (moment + 1)).honest
    rw [Region.regionAt, next] at here
    exact dishonest (here server member)
  · intro answered moment
    have both : EachStep Region.step (Region.initial directory clock)
        (fun region move => region.Prompt move ∧ region.Answered move) moves :=
      fun moment move present => ⟨prompt moment move present, answered moment move present⟩
    have flags : (Region.regionAt directory clock moves moment).Sound directory ∧
        (Region.regionAt directory clock moves moment).Flags := by
      refine both.invariant (fun region => region.Sound directory ∧ region.Flags) ?_ ?_ moment
      · refine ⟨sound_regionAt directory clock moves 0, ?_⟩
        exact ⟨fun _ member => (nomatch member), fun _ member => (nomatch member)⟩
      · intro region move guarded kept
        exact ⟨kept.1.step move, kept.2.step kept.1 guarded.1 guarded.2⟩
    exact flags.1.apart flags.2.honest

/-- A directory with one server. -/
def soloDirectory : Directory where
  keys := ⟨[⟨1, keyHash [], none⟩], List.pairwise_singleton _ _⟩
  servers := ⟨[⟨1, .primary, none⟩], List.pairwise_singleton _ _⟩
  displayName _ := some "solo"

/-- A coordinator that hears nothing more from the hub. -/
def cutOff : List RegionMove :=
  [.boots [], .beats 1, .arrives 0] ++ List.replicate 10 (.advances 0) ++
    [.answered 1, .passes 120000000, .beats 1, .loses 1, .fails 1]

/-- Two minutes after its last grant of 90 s the server is coordinator still. -/
theorem cutOff_coordinator :
    ¬ ∀ directory clock moves moment,
      (Region.regionAt directory clock moves moment).SoleCoordinator := by
  intro sole
  have honest := (sole soloDirectory 0 cutOff 18).honest
  have flag : ((Region.regionAt soloDirectory 0 cutOff 18).servers.lookup 1).map
      (fun server => (server.node, server.isCoordinator, server.completed)) =
        some (1, true, some 120000000) := by decide +kernel
  have last : (Region.regionAt soloDirectory 0 cutOff 18).hub.committed.leaseEnd 1 =
      some 90000000 := by decide +kernel
  obtain ⟨server, found, same⟩ := Option.map_eq_some_iff.mp flag
  obtain ⟨node, set, completed⟩ : server.node = 1 ∧ server.isCoordinator = true ∧
      server.completed = some 120000000 := by simpa using same
  obtain ⟨ends, until', expired⟩ := honest server (Table.mem_of_lookup found) set
  rw [node, last] at until'
  obtain rfl := Option.some.inj until'
  exact absurd (expired 120000000 (by rw [completed]; rfl)) (by decide)

end Runs

end OHHive.Cloud
