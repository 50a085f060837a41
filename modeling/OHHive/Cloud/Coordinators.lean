import OHHive.Cloud.Election

/-! The regional servers of an election: each acts on a flag of its own, which the heartbeat loop
takes from the answers of the hub. -/

namespace OHHive.Cloud

open Foundation

section Servers

/-- One election call of the heartbeat loop, and when it was made. -/
structure Beat where
  ticket : Nat
  began : Time
deriving DecidableEq, Repr

/-- A running server: what `App` and the heartbeat loop know. -/
structure ServerProcess where
  node : NodeId
  rawKey : Text
  isCoordinator : Bool
  beat : Option Beat
  waits : Bool
  /-- When the last heartbeat began that is over. -/
  completed : Option Time
deriving DecidableEq, Repr

/-- A request on its way to the hub. -/
inductive ElectionRequest where
  | coordinatorTry (ticket : Nat) (rawKey : Text) (ttlSeconds : Int)
  | coordinatorRelease (ticket : Nat) (rawKey : Text)
deriving DecidableEq, Repr

def ElectionRequest.ticket : ElectionRequest → Nat
  | .coordinatorTry ticket .. => ticket
  | .coordinatorRelease ticket _ => ticket

/-- The transaction of a request begins when the request arrives. -/
def ElectionRequest.at (request : ElectionRequest) (now : Time) : ElectionCall :=
  match request with
  | .coordinatorTry ticket rawKey ttlSeconds => .coordinatorTry ticket rawKey ttlSeconds now
  | .coordinatorRelease ticket rawKey => .coordinatorRelease ticket rawKey now

@[simp] theorem ElectionRequest.ticket_at (request : ElectionRequest) (now : Time) :
    (request.at now).ticket = request.ticket := by
  cases request <;> rfl

@[simp] theorem ElectionRequest.now_at (request : ElectionRequest) (now : Time) :
    (request.at now).now = now := by
  cases request <;> rfl

/-- The servers, the requests in flight, and the hub. -/
structure Region where
  clock : Time
  tickets : Nat
  servers : Table ServerProcess (Table.SameKey ServerProcess.node)
  requests : List ElectionRequest
  hub : System ElectionDb ElectionRow ElectionCall

/-- What may happen. A request that was sent may be lost, or its connection; an answer may be lost,
or come after the server has given up on it. -/
inductive RegionMove where
  | passes (time : Nat)
  | boots (rawKey : Text)
  | beats (node : NodeId)
  | answered (node : NodeId)
  | fails (node : NodeId)
  | stops (node : NodeId)
  | crashes (node : NodeId)
  | arrives (ticket : Nat)
  | loses (ticket : Nat)
  | advances (ticket : Nat)
  | aborts (ticket : Nat)
deriving DecidableEq, Repr

/-- What the hub answered to a ticket. -/
def ElectionDb.answerTo (db : ElectionDb) (ticket : Nat) : Option ElectionReply :=
  (db.answers.find? fun answer => answer.call.ticket = ticket).map ElectionAnswer.reply

/-- The heartbeat loop makes its election call, with a lease time of 90 s. -/
def ServerProcess.begins (server : ServerProcess) (ticket : Nat) (now : Time) : ServerProcess :=
  { server with beat := some ⟨ticket, now⟩, waits := true }

/-- The loop goes on; a call that failed leaves the flag as it was. -/
def ServerProcess.ends (server : ServerProcess) (coordinator? : Option Bool) : ServerProcess :=
  { server with
    isCoordinator := coordinator?.getD server.isCoordinator
    waits := false
    completed := server.beat.map Beat.began }

namespace Region

def updateServer (region : Region) (node : NodeId) (change : ServerProcess → ServerProcess)
    (fixed : ∀ server, (change server).node = server.node) : Region :=
  { region with
    servers := region.servers.updateWhere (fun server => server.node = node) change fixed }

def withoutServer (region : Region) (node : NodeId) : Region :=
  { region with servers := region.servers.keep fun server => server.node ≠ node }

/-- `run_server`, once the hub has registered it. -/
def boots (region : Region) (rawKey : Text) : Region :=
  match region.hub.committed.directory.nodeOf rawKey with
  | none => region
  | some node =>
    match region.servers.insert? ⟨node, rawKey, false, none, false, none⟩ with
    | none => region
    | some servers => { region with servers }

def beats (region : Region) (node : NodeId) : Region :=
  match region.servers.lookup node with
  | none => region
  | some server =>
    if server.waits then region
    else
      { region with
        servers :=
          (region.updateServer node (·.begins region.tickets region.clock) fun _ => rfl).servers
        tickets := region.tickets + 1
        requests := region.requests ++ [.coordinatorTry region.tickets server.rawKey 90] }

/-- The reply of the call that a server waits for. -/
def replyFor (region : Region) (node : NodeId) : Option Bool :=
  (region.servers.lookup node).bind fun server =>
    if server.waits then
      match server.beat.bind fun beat => region.hub.committed.answerTo beat.ticket with
      | some (.tried coordinator ..) => some coordinator
      | _ => none
    else none

def answered (region : Region) (node : NodeId) : Region :=
  match region.replyFor node with
  | none => region
  | some coordinator => region.updateServer node (·.ends (some coordinator)) fun _ => rfl

def fails (region : Region) (node : NodeId) : Region :=
  match region.servers.lookup node with
  | none => region
  | some server =>
    if server.waits then region.updateServer node (·.ends none) fun _ => rfl else region

/-- A graceful shutdown: the tasks end, and a coordinator steps down. -/
def stops (region : Region) (node : NodeId) : Region :=
  match region.servers.lookup node with
  | none => region
  | some server =>
    if server.isCoordinator then
      { region with
        servers := (region.withoutServer node).servers
        tickets := region.tickets + 1
        requests := region.requests ++ [.coordinatorRelease region.tickets server.rawKey] }
    else region.withoutServer node

def arrives (region : Region) (ticket : Nat) : Region :=
  match region.requests.find? fun request => request.ticket = ticket with
  | none => region
  | some request =>
    { region with
      requests := region.requests.erase request
      hub := region.hub.step ElectionCall.program (.start ticket (request.at region.clock)) }

def step (region : Region) : RegionMove → Region
  | .passes time => { region with clock := region.clock + time }
  | .boots rawKey => region.boots rawKey
  | .beats node => region.beats node
  | .answered node => region.answered node
  | .fails node => region.fails node
  | .stops node => region.stops node
  | .crashes node => region.withoutServer node
  | .arrives ticket => region.arrives ticket
  | .loses ticket =>
    { region with requests := region.requests.filter fun request => request.ticket ≠ ticket }
  | .advances ticket =>
    { region with hub := region.hub.step ElectionCall.program (.advance ticket) }
  | .aborts ticket => { region with hub := region.hub.step ElectionCall.program (.abort ticket) }

/-- Nothing has happened yet, and nobody is coordinator. -/
def initial (directory : Directory) (clock : Time) : Region where
  clock
  tickets := 0
  servers := .empty
  requests := []
  hub := ⟨⟨directory, .initial, []⟩, .empty⟩

/-- The region after the first moves of a run. -/
def regionAt (directory : Directory) (clock : Time) (moves : List RegionMove) : Nat → Region :=
  stateAt step (initial directory clock) moves

end Region

end Servers

section Leases

/-- When the lease of a node ends, as an answer says: a grant moves the end, and a release does. -/
def ElectionAnswer.leaseEnd? (directory : Directory) (node : NodeId) (answer : ElectionAnswer) :
    Option Time :=
  if directory.nodeOf answer.call.rawKey = some node then
    match answer.call, answer.reply with
    | .coordinatorTry _ _ ttlSeconds now, .tried true .. => some (now + seconds ttlSeconds)
    | .coordinatorRelease _ _ now, .released true => some now
    | _, _ => none
  else none

/-- When the last lease of a node ends. -/
def ElectionDb.leaseEnd (db : ElectionDb) (node : NodeId) : Option Time :=
  db.answers.reverse.findSome? (ElectionAnswer.leaseEnd? db.directory node)

variable {db after : ElectionDb} {call : ElectionCall} {reply : ElectionReply}

theorem leaseEnd_of_answered (directory : after.directory = db.directory)
    (answers : after.answers = db.answers ++ [⟨call, reply⟩]) (node : NodeId) :
    after.leaseEnd node =
      (ElectionAnswer.leaseEnd? db.directory node ⟨call, reply⟩).or (db.leaseEnd node) := by
  unfold ElectionDb.leaseEnd
  rw [directory, answers, List.reverse_append, List.reverse_singleton, List.singleton_append,
    List.findSome?_cons]
  cases ElectionAnswer.leaseEnd? db.directory node ⟨call, reply⟩ <;> rfl

/-- An answer is about the lease of the caller alone. -/
theorem leaseEnd?_of_other {directory : Directory} {node : NodeId}
    (other : directory.nodeOf call.rawKey ≠ some node) :
    ElectionAnswer.leaseEnd? directory node ⟨call, reply⟩ = none := by
  rw [ElectionAnswer.leaseEnd?, if_neg other]

/-- The lease row and the answers agree: the row has the end of its holder's last lease, and whoever
lost the lease lost it after its end. -/
structure ElectionDb.Consistent (db : ElectionDb) : Prop where
  held : ∀ holder, db.lease.nodeId = some holder →
    ∃ ends, db.lease.expiresAt = some ends ∧ db.leaseEnd holder = some ends
  lost : ∀ node ends, db.leaseEnd node = some ends → db.lease.nodeId ≠ some node →
    ∃ answer ∈ db.answers, ends < answer.call.now

theorem Tier.grace_nonneg (tier : Tier) : 0 ≤ tier.grace := by
  cases tier with
  | primary => exact le_refl _
  | standby => decide

/-- A lease that is taken had ended, for a standby at least 30 s before. -/
theorem CoordinatorLease.ended_of_isFree {lease : CoordinatorLease} {tier : Tier} {now ends : Time}
    {holder : NodeId} (free : lease.isFree tier now) (holds : lease.nodeId = some holder)
    (expires : lease.expiresAt = some ends) : ends + tier.grace < now := by
  simp only [CoordinatorLease.isFree, holds, expires, Option.isNone_some, Option.all_some,
    Bool.false_or, decide_eq_true_eq] at free
  exact Int.add_lt_of_lt_sub_right free

/-- An answer that says nothing of any lease. -/
theorem ElectionDb.Consistent.unwritten (consistent : db.Consistent)
    (directory : after.directory = db.directory)
    (answers : after.answers = db.answers ++ [⟨call, reply⟩]) (lease : after.lease = db.lease)
    (silent : ∀ node, ElectionAnswer.leaseEnd? db.directory node ⟨call, reply⟩ = none) :
    after.Consistent where
  held holder holds := by
    rw [leaseEnd_of_answered directory answers, silent, Option.none_or, lease]
    exact consistent.held holder (lease ▸ holds)
  lost node ends has other := by
    rw [leaseEnd_of_answered directory answers, silent, Option.none_or] at has
    obtain ⟨answer, member, later⟩ := consistent.lost node ends has (lease ▸ other)
    exact ⟨answer, by rw [answers]; exact List.mem_append_left _ member, later⟩

/-- An answer that says when the lease of the holder ends. -/
theorem ElectionDb.Consistent.written (consistent : db.Consistent) {nid : NodeId} {ends : Time}
    (directory : after.directory = db.directory)
    (answers : after.answers = db.answers ++ [⟨call, reply⟩])
    (verified : db.directory.nodeOf call.rawKey = some nid)
    (told : ElectionAnswer.leaseEnd? db.directory nid ⟨call, reply⟩ = some ends)
    (holder : after.lease.nodeId = some nid) (expires : after.lease.expiresAt = some ends)
    (lapsed : ∀ other earlier, db.lease.nodeId = some other → other ≠ nid →
      db.lease.expiresAt = some earlier → earlier < call.now) :
    after.Consistent where
  held node holds := by
    obtain rfl := Option.some.inj (holder.symm.trans holds)
    exact ⟨ends, expires, by rw [leaseEnd_of_answered directory answers, told, Option.some_or]⟩
  lost node ends' has other := by
    have apart : node ≠ nid := fun same => other (same ▸ holder)
    have elsewhere : db.directory.nodeOf call.rawKey ≠ some node := by
      rw [verified]
      exact fun same => apart (Option.some.inj same).symm
    rw [leaseEnd_of_answered directory answers, leaseEnd?_of_other elsewhere,
      Option.none_or] at has
    rw [answers]
    by_cases held : db.lease.nodeId = some node
    · obtain ⟨earlier, row, last⟩ := consistent.held node held
      obtain rfl := Option.some.inj (last.symm.trans has)
      exact ⟨⟨call, reply⟩, by simp, lapsed node earlier held apart row⟩
    · obtain ⟨answer, member, later⟩ := consistent.lost node ends' has held
      exact ⟨answer, List.mem_append_left _ member, later⟩

/-- Every commit of an election keeps the row and the answers in agreement. -/
theorem ElectionDb.Consistent.settles (consistent : db.Consistent)
    (directory : after.directory = db.directory)
    (answers : after.answers = db.answers ++ [⟨call, reply⟩])
    (settled : Settles db.directory call db.lease after.lease reply) : after.Consistent := by
  generalize before : db.lease = lease at settled
  generalize later : after.lease = leased at settled
  have held (node : NodeId) (holds : lease.nodeId = some node) (other : NodeId) (ends : Time)
      (theirs : db.lease.nodeId = some other) (apart : other ≠ node)
      (_ : db.lease.expiresAt = some ends) : ends < call.now := by
    rw [before, holds] at theirs
    exact absurd (Option.some.inj theirs).symm apart
  cases settled with
  | renewed verified holds =>
    apply consistent.written directory answers verified
    · exact if_pos verified
    · rw [later]
      exact holds
    · rw [later]
      rfl
    · exact held _ holds
  | taken verified registered other free =>
    apply consistent.written directory answers verified
    · exact if_pos verified
    · rw [later]
      rfl
    · rw [later]
      rfl
    · intro holder ends theirs _ row
      have ended := CoordinatorLease.ended_of_isFree free (before ▸ theirs) (before ▸ row)
      exact lt_of_le_of_lt (le_add_of_nonneg_right (Tier.grace_nonneg _)) ended
  | refused =>
    apply consistent.unwritten directory answers (later.trans before.symm)
    intro node
    unfold ElectionAnswer.leaseEnd?
    split <;> rfl
  | released verified holds =>
    apply consistent.written directory answers verified
    · exact if_pos verified
    · rw [later]
      exact holds
    · rw [later]
    · exact held _ holds
  | unheld =>
    apply consistent.unwritten directory answers (later.trans before.symm)
    intro node
    unfold ElectionAnswer.leaseEnd?
    split <;> rfl

end Leases

section Soundness

/-- A ticket that was given out; if it is of a server's newest heartbeat, that one made it. -/
def Region.Owns (region : Region) (ticket : Nat) (made : Text → Beat → Prop) : Prop :=
  ticket < region.tickets ∧ ∀ server ∈ region.servers.rows, ∀ beat ∈ server.beat,
    ticket = beat.ticket → made server.rawKey beat

/-- The request of a heartbeat. -/
def ElectionRequest.IsOf (request : ElectionRequest) (rawKey : Text) (beat : Beat) : Prop :=
  request = .coordinatorTry beat.ticket rawKey 90

/-- The call of a heartbeat. -/
def ElectionCall.IsOf (call : ElectionCall) (rawKey : Text) (beat : Beat) : Prop :=
  ∃ now, beat.began ≤ now ∧ call = .coordinatorTry beat.ticket rawKey 90 now

/-- What a server knows is in order. -/
structure ServerProcess.Sound (server : ServerProcess) (directory : Directory) (clock : Time)
    (tickets : Nat) : Prop where
  keyed : directory.nodeOf server.rawKey = some server.node
  idle : server.beat = none → server.isCoordinator = false ∧ server.waits = false ∧
    server.completed = none
  beat : ∀ beat ∈ server.beat, beat.ticket < tickets ∧ beat.began ≤ clock ∧
    ∀ began ∈ server.completed, began ≤ beat.began

/-- Requests, transactions and answers are those of the servers. -/
structure Region.Sound (directory : Directory) (region : Region) : Prop where
  listed : region.hub.committed.directory = directory
  valid : region.hub.Valid election
  consistent : region.hub.committed.Consistent
  servers : ∀ server ∈ region.servers.rows, server.Sound directory region.clock region.tickets
  requests : ∀ request ∈ region.requests, region.Owns request.ticket request.IsOf
  clients : ∀ client ∈ region.hub.clients.rows,
    client.call.now ≤ region.clock ∧ region.Owns client.call.ticket client.call.IsOf
  answers : ∀ answer ∈ region.hub.committed.answers,
    answer.call.now ≤ region.clock ∧ region.Owns answer.call.ticket answer.call.IsOf

/-- Time goes on, tickets are given out in turn, and a newer heartbeat has a newer ticket. -/
structure Region.Extends (region next : Region) : Prop where
  clock : region.clock ≤ next.clock
  tickets : region.tickets ≤ next.tickets
  beats : ∀ server ∈ next.servers.rows, ∀ beat ∈ server.beat,
    (∃ before ∈ region.servers.rows, before.rawKey = server.rawKey ∧ beat ∈ before.beat) ∨
      region.tickets ≤ beat.ticket

variable {directory : Directory} {region next : Region} {ticket : Nat} {node : NodeId}

theorem Region.Owns.extends {made : Text → Beat → Prop} (owns : region.Owns ticket made)
    (extended : region.Extends next) : next.Owns ticket made := by
  refine ⟨lt_of_lt_of_le owns.1 extended.tickets, ?_⟩
  intro server member beat newest same
  rcases extended.beats server member beat newest with ⟨before, stored, key, had⟩ | newer
  · exact key ▸ owns.2 before stored beat had same
  · exact absurd owns.1 (by omega)

theorem ServerProcess.Sound.later {server : ServerProcess} {clock clock' : Time}
    {tickets tickets' : Nat} (sound : server.Sound directory clock tickets)
    (time : clock ≤ clock') (more : tickets ≤ tickets') :
    server.Sound directory clock' tickets' where
  keyed := sound.keyed
  idle := sound.idle
  beat beat newest := by
    obtain ⟨given, began, completed⟩ := sound.beat beat newest
    exact ⟨lt_of_lt_of_le given more, le_trans began time, completed⟩

/-- Without the hub. -/
theorem Region.Sound.extends (sound : region.Sound directory) (extended : region.Extends next)
    (hub : next.hub = region.hub)
    (servers : ∀ server ∈ next.servers.rows, server.Sound directory next.clock next.tickets)
    (requests : ∀ request ∈ next.requests, request ∈ region.requests ∨
      next.Owns request.ticket request.IsOf) :
    next.Sound directory where
  listed := hub ▸ sound.listed
  valid := hub ▸ sound.valid
  consistent := hub ▸ sound.consistent
  servers := servers
  requests request member := by
    rcases requests request member with stored | owns
    · exact (sound.requests request stored).extends extended
    · exact owns
  clients client member := by
    obtain ⟨time, owns⟩ := sound.clients client (hub ▸ member)
    exact ⟨le_trans time extended.clock, owns.extends extended⟩
  answers answer member := by
    obtain ⟨time, owns⟩ := sound.answers answer (hub ▸ member)
    exact ⟨le_trans time extended.clock, owns.extends extended⟩

/-- The rules of the hub allow every move. -/
theorem permits_election (hub : System ElectionDb ElectionRow ElectionCall)
    (move : Move ElectionCall) : hub.Permits election move :=
  ⟨fun _ _ _ => trivial, fun _ _ => trivial, fun _ _ _ _ _ => trivial⟩

/-- What a commit of the hub is. -/
theorem settled_of_commits {hub : System ElectionDb ElectionRow ElectionCall}
    (valid : hub.Valid election) {move : Move ElectionCall} {call : ElectionCall}
    (commits : hub.commits move = some call) :
    let after := (hub.step ElectionCall.program move).committed
    after.directory = hub.committed.directory ∧ ∃ reply,
      after.answers = hub.committed.answers ++ [⟨call, reply⟩] ∧
      Settles hub.committed.directory call hub.committed.lease after.lease reply :=
  valid.ensures (permits_election _ _) commits

/-- A statement in the hub. -/
theorem Region.Sound.hubStep (sound : region.Sound directory) {move : Move ElectionCall}
    {requests : List ElectionRequest} (fewer : ∀ request ∈ requests, request ∈ region.requests)
    (starts : ∀ process call, move = .start process call →
      call.now ≤ region.clock ∧ region.Owns call.ticket call.IsOf) :
    ({ region with
      requests
      hub := region.hub.step ElectionCall.program move } : Region).Sound directory := by
  have committed : (region.hub.step ElectionCall.program move).committed = region.hub.committed ∨
      ∃ call, region.hub.commits move = some call := by
    cases commits : region.hub.commits move with
    | none => exact Or.inl (System.committed_of_not_commits commits)
    | some call => exact Or.inr ⟨call, rfl⟩
  have valid := sound.valid.step (fun call store _ _ => safe_election call store)
    (permits_election region.hub move)
  have clients : ∀ client ∈ (region.hub.step ElectionCall.program move).clients.rows,
      client.call.now ≤ region.clock ∧ region.Owns client.call.ticket client.call.IsOf := by
    intro client member
    rcases System.call_of_mem_step member with ⟨before, stored, same⟩ | ⟨process, started⟩
    · exact same ▸ sound.clients before stored
    · exact starts process client.call started
  rcases committed with same | ⟨call, commits⟩
  · exact {
      listed := same ▸ sound.listed
      valid := valid
      consistent := same ▸ sound.consistent
      servers := sound.servers
      requests := fun request member => sound.requests request (fewer request member)
      clients := clients
      answers := fun answer member => sound.answers answer (same ▸ member) }
  · obtain ⟨fixed, reply, answers, settled⟩ := settled_of_commits sound.valid commits
    obtain ⟨client, member, rfl⟩ := System.exists_client_of_commits commits
    exact {
      listed := fixed.trans sound.listed
      valid := valid
      consistent := sound.consistent.settles fixed answers settled
      servers := sound.servers
      requests := fun request member => sound.requests request (fewer request member)
      clients := clients
      answers := by
        intro answer stored
        change answer ∈ (region.hub.step ElectionCall.program move).committed.answers at stored
        rw [answers] at stored
        rcases List.mem_append.mp stored with before | new
        · exact sound.answers answer before
        · obtain rfl := List.mem_singleton.mp new
          exact sound.clients client member }

/-- A change of one server, whose newest heartbeat is the old one or a new one. -/
theorem Region.extends_updateServer {change : ServerProcess → ServerProcess}
    {fixed : ∀ server, (change server).node = server.node} {tickets : Nat}
    {requests : List ElectionRequest} (given : region.tickets ≤ tickets)
    (beats : ∀ server ∈ region.servers.rows, server.node = node →
      (change server).rawKey = server.rawKey ∧
      ∀ beat ∈ (change server).beat, beat ∈ server.beat ∨ region.tickets ≤ beat.ticket) :
    region.Extends { region with
      servers := (region.updateServer node change fixed).servers, tickets, requests } where
  clock := le_refl region.clock
  tickets := given
  beats server member beat newest := by
    obtain ⟨before, stored, rfl⟩ := List.mem_map.mp member
    by_cases own : before.node = node
    · simp only [own, decide_true, if_true] at newest ⊢
      obtain ⟨key, old⟩ := beats before stored own
      rcases old beat newest with had | newer
      · exact Or.inl ⟨before, stored, key.symm, had⟩
      · exact Or.inr newer
    · simp only [own, decide_false, Bool.false_eq_true, if_false] at newest ⊢
      exact Or.inl ⟨before, stored, rfl, newest⟩

/-- The servers after a change of one of them. -/
theorem Region.forall_updateServer {holds : ServerProcess → Prop}
    (change : ServerProcess → ServerProcess) (fixed : ∀ server, (change server).node = server.node)
    (others : ∀ server ∈ region.servers.rows, server.node ≠ node → holds server)
    (own : ∀ server, region.servers.lookup node = some server → holds (change server)) :
    ∀ server ∈ (region.updateServer node change fixed).servers.rows, holds server := by
  intro server member
  obtain ⟨before, stored, rfl⟩ := List.mem_map.mp member
  by_cases same : before.node = node
  · simp only [same, decide_true, if_true]
    exact own before ((Table.lookup_eq_some_iff _ _ _).mpr ⟨stored, same⟩)
  · simp only [same, decide_false, Bool.false_eq_true, if_false]
    exact others before stored same

theorem Region.Sound.beats (sound : region.Sound directory) (node : NodeId) :
    (region.beats node).Sound directory := by
  unfold Region.beats
  split
  · exact sound
  · rename_i server found
    split
    · exact sound
    · have extended := @Region.extends_updateServer region node
        (·.begins region.tickets region.clock) (fun _ => rfl) (region.tickets + 1)
        (region.requests ++ [.coordinatorTry region.tickets server.rawKey 90])
        (Nat.le_succ _) fun own _ _ => ⟨rfl, fun beat newest => Or.inr (by
          obtain rfl := Option.some.inj newest
          exact le_refl _)⟩
      refine sound.extends extended rfl ?_ ?_
      · refine Region.forall_updateServer (·.begins _ _) (fun _ => rfl) ?_ ?_
        · intro other stored _
          exact (sound.servers other stored).later (le_refl _) (Nat.le_succ _)
        · intro own stored
          have before := sound.servers own (Table.mem_of_lookup stored)
          refine ⟨before.keyed, fun none => (nomatch none), ?_⟩
          intro beat newest
          obtain rfl := Option.some.inj newest
          refine ⟨Nat.lt_succ_self _, le_refl _, ?_⟩
          intro began completed
          cases had : own.beat with
          | none => simp [(before.idle had).2.2, ServerProcess.begins] at completed
          | some old =>
            obtain ⟨_, earlier, after⟩ := before.beat old had
            exact le_trans (after began completed) earlier
      · intro request member
        rcases List.mem_append.mp member with stored | new
        · exact Or.inl stored
        · right
          obtain rfl := List.mem_singleton.mp new
          refine ⟨Nat.lt_succ_self _, ?_⟩
          refine Region.forall_updateServer (·.begins _ _) (fun _ => rfl) ?_ ?_
          · intro other stored _ beat newest same
            exact absurd ((sound.servers other stored).beat beat newest).1
              (by rw [← same]; exact Nat.lt_irrefl _)
          · intro own stored beat newest _
            obtain rfl := Option.some.inj newest
            obtain rfl := Option.some.inj (found.symm.trans stored)
            rfl

/-- The end of a heartbeat. -/
theorem Region.Sound.ends (sound : region.Sound directory) (node : NodeId)
    (coordinator? : Option Bool)
    (waits : ∀ server, region.servers.lookup node = some server → server.waits = true) :
    (region.updateServer node (·.ends coordinator?) fun _ => rfl).Sound directory := by
  have extended := @Region.extends_updateServer region node (·.ends coordinator?) (fun _ => rfl)
    region.tickets region.requests (le_refl _) fun own _ _ => ⟨rfl, fun _ newest => Or.inl newest⟩
  refine sound.extends extended rfl ?_ fun request member => Or.inl member
  refine Region.forall_updateServer (·.ends coordinator?) (fun _ => rfl) ?_ ?_
  · exact fun other stored _ => sound.servers other stored
  · intro own stored
    have before := sound.servers own (Table.mem_of_lookup stored)
    refine ⟨before.keyed, ?_, ?_⟩
    · intro none
      have idle := (before.idle none).2.1
      rw [waits own stored] at idle
      cases idle
    · intro beat newest
      obtain ⟨given, began, _⟩ := before.beat beat newest
      refine ⟨given, began, ?_⟩
      intro time completed
      have newest' : own.beat = some beat := newest
      simp only [ServerProcess.ends, newest', Option.map_some, Option.mem_some_iff] at completed
      exact completed ▸ le_refl _

/-- A server that is gone. -/
theorem Region.Sound.withoutServer (sound : region.Sound directory) (node : NodeId)
    {tickets : Nat} {requests : List ElectionRequest} (given : region.tickets ≤ tickets)
    (sent : ∀ request ∈ requests, request ∈ region.requests ∨
      region.tickets ≤ request.ticket ∧ request.ticket < tickets) :
    ({ region with
      servers := (region.withoutServer node).servers, tickets, requests } : Region).Sound
        directory := by
  have kept : ∀ server ∈ (region.withoutServer node).servers.rows, server ∈ region.servers.rows :=
    fun server member => (List.mem_filter.mp member).1
  have extended : region.Extends { region with
      servers := (region.withoutServer node).servers, tickets, requests } :=
    ⟨le_refl region.clock, given, fun server member beat newest =>
      Or.inl ⟨server, kept server member, rfl, newest⟩⟩
  refine sound.extends extended rfl ?_ ?_
  · exact fun server member => (sound.servers server (kept server member)).later (le_refl _) given
  · intro request member
    rcases sent request member with stored | ⟨fresh, below⟩
    · exact Or.inl stored
    · right
      refine ⟨below, ?_⟩
      intro server stored beat newest same
      exact absurd ((sound.servers server (kept server stored)).beat beat newest).1 (by omega)

theorem Region.Sound.boots (sound : region.Sound directory) (rawKey : Text) :
    (region.boots rawKey).Sound directory := by
  unfold Region.boots
  split
  · exact sound
  · rename_i node verified
    rw [sound.listed] at verified
    split
    · exact sound
    · rename_i servers inserted
      have rows := Table.rows_of_insert? inserted
      have cases (server : ServerProcess) (member : server ∈ servers.rows) :
          server ∈ region.servers.rows ∨ server = ⟨node, rawKey, false, none, false, none⟩ := by
        rwa [rows, List.mem_append, List.mem_singleton] at member
      have extended : region.Extends { region with servers } := by
        refine ⟨le_refl region.clock, le_refl region.tickets, ?_⟩
        intro server member beat newest
        rcases cases server member with stored | rfl
        · exact Or.inl ⟨server, stored, rfl, newest⟩
        · cases newest
      refine sound.extends extended rfl ?_ fun request member => Or.inl member
      intro server member
      rcases cases server member with stored | rfl
      · exact sound.servers server stored
      · exact ⟨verified, fun _ => ⟨rfl, rfl, rfl⟩, fun beat newest => (nomatch newest)⟩

theorem waits_of_replyFor {coordinator : Bool} (replied : region.replyFor node = some coordinator) :
    ∃ server beat, region.servers.lookup node = some server ∧ server.waits = true ∧
      server.beat = some beat ∧ ∃ answer ∈ region.hub.committed.answers,
        answer.call.ticket = beat.ticket ∧ ∃ holder name url expires generation,
          answer.reply = .tried coordinator holder name url expires generation := by
  obtain ⟨server, found, waiting⟩ := Option.bind_eq_some_iff.mp replied
  split at waiting
  · rename_i waits
    split at waiting
    · rename_i answered
      obtain ⟨beat, newest, reply⟩ := Option.bind_eq_some_iff.mp answered
      obtain ⟨answer, found', same⟩ := Option.map_eq_some_iff.mp reply
      obtain rfl := Option.some.inj waiting
      exact ⟨server, beat, found, waits, newest, answer, List.mem_of_find?_eq_some found',
        by simpa using List.find?_some found', _, _, _, _, _, same⟩
    · cases waiting
  · cases waiting

/-- Every move keeps the region sound. -/
theorem Region.Sound.step (sound : region.Sound directory) (move : RegionMove) :
    (region.step move).Sound directory := by
  cases move with
  | passes time =>
    have later : region.clock ≤ region.clock + time :=
      Int.le_add_of_nonneg_right (Int.natCast_nonneg time)
    have extended : region.Extends { region with clock := region.clock + time } :=
      ⟨later, le_refl _, fun server member beat newest => Or.inl ⟨server, member, rfl, newest⟩⟩
    refine sound.extends extended rfl ?_ fun request member => Or.inl member
    exact fun server member => (sound.servers server member).later later (le_refl _)
  | boots rawKey => exact sound.boots rawKey
  | beats node => exact sound.beats node
  | answered node =>
    simp only [Region.step, Region.answered]
    split
    · exact sound
    · rename_i coordinator replied
      obtain ⟨server, _, found, waits, _⟩ := waits_of_replyFor replied
      refine sound.ends node (some coordinator) fun other stored => ?_
      obtain rfl := Option.some.inj (found.symm.trans stored)
      exact waits
  | fails node =>
    simp only [Region.step, Region.fails]
    split
    · exact sound
    · rename_i server found
      split
      · rename_i waits
        refine sound.ends node none fun other stored => ?_
        obtain rfl := Option.some.inj (found.symm.trans stored)
        exact waits
      · exact sound
  | stops node =>
    simp only [Region.step, Region.stops]
    split
    · exact sound
    · split
      · refine sound.withoutServer node (Nat.le_succ _) fun request member => ?_
        rcases List.mem_append.mp member with stored | new
        · exact Or.inl stored
        · obtain rfl := List.mem_singleton.mp new
          exact Or.inr ⟨le_refl _, Nat.lt_succ_self _⟩
      · exact sound.withoutServer node (le_refl _) fun request member => Or.inl member
  | crashes node =>
    exact sound.withoutServer node (le_refl _) fun request member => Or.inl member
  | arrives ticket =>
    simp only [Region.step, Region.arrives]
    split
    · exact sound
    · rename_i request found
      have stored := List.mem_of_find?_eq_some found
      refine sound.hubStep (fun other member => List.mem_of_mem_erase member) ?_
      intro process call started
      obtain ⟨rfl, rfl⟩ := Move.start.inj started
      refine ⟨le_of_eq (request.now_at _), ?_⟩
      rw [request.ticket_at]
      obtain ⟨given, owns⟩ := sound.requests request stored
      refine ⟨given, fun server member beat newest same => ?_⟩
      have began := ((sound.servers server member).beat beat newest).2.1
      rw [owns server member beat newest same]
      exact ⟨region.clock, began, rfl⟩
  | loses ticket =>
    have extended : region.Extends { region with
        requests := region.requests.filter fun request => request.ticket ≠ ticket } :=
      ⟨le_refl region.clock, le_refl _, fun server member beat newest =>
        Or.inl ⟨server, member, rfl, newest⟩⟩
    exact sound.extends extended rfl sound.servers fun request member =>
      Or.inl (List.mem_filter.mp member).1
  | advances ticket =>
    exact sound.hubStep (fun _ member => member) fun _ _ started => nomatch started
  | aborts ticket =>
    exact sound.hubStep (fun _ member => member) fun _ _ started => nomatch started

end Soundness

end OHHive.Cloud
