import OHHive.AgentTools.Hub

/-! All that a tool that goes through can do, and the authority it went through on. -/

namespace OHHive.AgentTools

open Foundation
open Bots (AgentId AgentToolTurn MemberAction RoomBook UserId turnActions turnAliveCheck)
open Fleet (withNode)
open Vault (Catalog DocumentRow VaultDb vaultAccess)

section Authority

variable {book : RoomBook} {world : World} {store next : ToolStore} {caller : ToolCaller}
variable {agent : AgentId} {turn : AgentToolTurn} {node vault : Uuid} {now : Int}

/-- The delivery runs under the turn's generation with a lease to come, on a message that the
agent may read. -/
structure LiveTurn (book : RoomBook) (agent : AgentId) (turn : AgentToolTurn) (now : Int) :
    Prop where
  running : ∃ delivery, book.store.delivery? ⟨turn.message, agent⟩ = some delivery ∧
    delivery.status = .running ∧ delivery.leaseGeneration = turn.generation ∧
    ∃ deadline, delivery.leaseDeadline = some deadline ∧ now < deadline
  readable : ∃ message member, book.store.message? turn.message = some message ∧
    message.conversationId = turn.conversation ∧
    book.store.member? turn.conversation (.agent agent) = some member ∧
    MemberAction.read ∈ member.allowedActions ∧
    book.historyBoundary member.key ≤ message.createdAt

theorem liveTurn_of_turnAliveCheck (alive : turnAliveCheck book agent turn now = .ok ()) :
    LiveTurn book agent turn now := by
  unfold turnAliveCheck at alive
  obtain ⟨_, _, alive⟩ := bind_eq_ok_iff.mp alive
  obtain ⟨actions, found, alive⟩ := bind_eq_ok_iff.mp alive
  have mayRead := require_eq_ok_iff.mp alive
  have found := orFail_eq_ok_iff.mp found
  simp only [turnActions, Option.bind_eq_bind, Option.bind_eq_some_iff] at found
  obtain ⟨delivery, delivered, message, sent, conversation, opened, member, joined, found⟩ := found
  split at found
  · rename_i live
    obtain ⟨room, running, generation, ⟨deadline, leased, ahead⟩, _, boundary⟩ := live
    obtain rfl := Option.some.inj found
    have home : conversation.id = message.conversationId := Table.key_of_lookup opened
    rw [room] at joined
    exact ⟨⟨delivery, delivered, running, generation, deadline, leased, ahead⟩,
      ⟨message, member, sent, home.symm.trans room, joined, mayRead, boundary⟩⟩
  · cases found

/-- What the hub has to say of a caller for any tool to go through. -/
structure World.Authorizes (world : World) (caller : ToolCaller) (node : Uuid) (now : Int) :
    Prop where
  authenticated : withNode world.fleet caller.keyHash = .ok node
  owner : world.Owns node caller.agent
  host : world.Hosts node caller.agent
  live : LiveTurn world.book caller.agent caller.turn now
  policy : (world.policy caller.agent).revision = caller.revision

theorem of_turnCheck (checked : turnCheck store agent turn now = .ok ()) :
    LiveTurn store.world.book agent turn now ∧ store.used agent turn < toolLimit := by
  unfold turnCheck at checked
  obtain ⟨_, alive, checked⟩ := bind_eq_ok_iff.mp checked
  exact ⟨liveTurn_of_turnAliveCheck alive, require_eq_ok_iff.mp checked⟩

theorem of_hostedTurn {current : AgentToolPolicy}
    (hosted : hostedTurn store caller now = .ok (node, current)) :
    store.world.Authorizes caller node now ∧ store.used caller.agent caller.turn < toolLimit ∧
      current = store.world.policy caller.agent := by
  unfold hostedTurn at hosted
  obtain ⟨found, authenticated, hosted⟩ := bind_eq_ok_iff.mp hosted
  obtain ⟨_, owned, hosted⟩ := bind_eq_ok_iff.mp hosted
  obtain ⟨_, assigned, hosted⟩ := bind_eq_ok_iff.mp hosted
  obtain ⟨_, checked, hosted⟩ := bind_eq_ok_iff.mp hosted
  obtain ⟨_, known, hosted⟩ := bind_eq_ok_iff.mp hosted
  obtain ⟨rfl, rfl⟩ := Prod.mk.inj (pure_eq_ok_iff.mp hosted)
  obtain ⟨live, room⟩ := of_turnCheck checked
  exact ⟨⟨authenticated, require_eq_ok_iff.mp owned, require_eq_ok_iff.mp assigned, live,
    require_eq_ok_iff.mp known⟩, room, rfl⟩

/-- A ready vault that was granted to the computer. -/
structure Opens (catalog : Catalog) (node vault : Uuid) : Prop where
  granted : (vault, node) ∈ catalog.readers
  ready : ∃ info, catalog.db.vaults.lookup vault = some info ∧ info.state = .ready

theorem opens_of_vaultAccess {catalog : Catalog} {info : Vault.VaultInfo}
    (opened : vaultAccess catalog node vault true = .ok info) : Opens catalog node vault := by
  unfold vaultAccess at opened
  obtain ⟨_, granted, opened⟩ := bind_eq_ok_iff.mp opened
  obtain ⟨found, looked, opened⟩ := bind_eq_ok_iff.mp opened
  obtain ⟨_, ready, opened⟩ := bind_eq_ok_iff.mp opened
  exact ⟨require_eq_ok_iff.mp granted, found, orFail_eq_ok_iff.mp looked,
    require_eq_ok_iff.mp ready rfl⟩

end Authority

section Records

variable {store next : ToolStore} {caller : ToolCaller} {node receipt : Uuid} {now : Int}

/-- What a recorded call leaves: a receipt and its turn, in an attempt with calls to spare. -/
structure ToolStore.Records (store : ToolStore) (caller : ToolCaller) (node receipt : Uuid)
    (next : ToolStore) : Prop where
  room : store.used caller.agent caller.turn < toolLimit
  receipts : ∃ row : ToolReceipt, row.id = receipt ∧ row.agent = caller.agent ∧ row.node = node ∧
    row.policyRevision = caller.revision ∧ next.receipts.rows = store.receipts.rows ++ [row]
  turns : next.turns.rows = store.turns.rows ++ [⟨receipt, caller.turn.message,
    caller.turn.conversation, caller.agent, caller.turn.generation⟩]

theorem records_of_record {tool : String} {vault : Text} {revision : Nat}
    (recorded : store.record caller node tool vault revision receipt now = .ok next)
    (room : store.used caller.agent caller.turn < toolLimit) (known : revision = caller.revision) :
    store.Records caller node receipt next ∧ next.evidence = store.evidence ∧
      next.world = store.world := by
  unfold ToolStore.record at recorded
  obtain ⟨receipts, received, recorded⟩ := bind_eq_ok_iff.mp recorded
  obtain ⟨turns, turned, recorded⟩ := bind_eq_ok_iff.mp recorded
  obtain rfl := pure_eq_ok_iff.mp recorded
  exact ⟨⟨room, ⟨_, rfl, rfl, rfl, known, Table.rows_of_insert? (orFail_eq_ok_iff.mp received)⟩,
    Table.rows_of_insert? (orFail_eq_ok_iff.mp turned)⟩, rfl, rfl⟩

theorem of_recordEvidence {row : Evidence} (recorded : store.recordEvidence row = .ok next) :
    next.receipts = store.receipts ∧ next.turns = store.turns ∧ next.world = store.world ∧
      next.evidence.rows = store.evidence.rows ++ [row] := by
  unfold ToolStore.recordEvidence at recorded
  obtain ⟨evidence, inserted, recorded⟩ := bind_eq_ok_iff.mp recorded
  obtain rfl := pure_eq_ok_iff.mp recorded
  exact ⟨rfl, rfl, rfl, Table.rows_of_insert? (orFail_eq_ok_iff.mp inserted)⟩

end Records

section Saving

variable {services : Services} {store next : ToolStore} {caller : ToolCaller} {draws : Draws}
variable {node vault : Uuid} {title findings : Text} {receipts : List Uuid}
variable {sources : List SourceRecord}

/-- A new row beside those that are there, and no other change. -/
structure AddsDocument (db : VaultDb) (row : DocumentRow) (next : VaultDb) : Prop where
  fresh : ∀ stored ∈ db.documents.rows, ¬ stored.Clash row
  rows : next.documents.rows = db.documents.rows ++ [row]
  others : next = { db with documents := next.documents }

theorem addsDocument_of_insertDocument {db after : VaultDb} {row : DocumentRow}
    (inserted : db.insertDocument row = .ok after) : AddsDocument db row after := by
  unfold VaultDb.insertDocument at inserted
  obtain ⟨_, _, inserted⟩ := bind_eq_ok_iff.mp inserted
  obtain ⟨documents, added, inserted⟩ := bind_eq_ok_iff.mp inserted
  obtain rfl := pure_eq_ok_iff.mp inserted
  obtain ⟨fits, rows⟩ := Table.insert?_eq_some_iff.mp (orFail_eq_ok_iff.mp added)
  exact ⟨fits, rows, rfl⟩

/-- A source is supported by evidence of the caller's own attempt that succeeded. -/
structure ToolStore.Supports (store : ToolStore) (caller : ToolCaller) (node : Uuid)
    (source : SourceRecord) : Prop where
  observed : ∃ row ∈ store.evidence.rows, row.receipt = source.receipt ∧
    row.source = source.source ∧ row.contentSha256 = source.contentSha256 ∧
    ∃ observation : Observation, row.observation = some observation ∧
      observation.succeeded = true ∧ observation.toObservationMeta = source.observation
  call : ∃ call ∈ store.receipts.rows, call.id = source.receipt ∧ call.agent = caller.agent ∧
    call.node = node ∧ call.policyRevision = caller.revision
  attempt : ∃ turn ∈ store.turns.rows, turn.receipt = source.receipt ∧
    turn.message = caller.turn.message ∧ turn.conversation = caller.turn.conversation ∧
    turn.generation = caller.turn.generation

theorem supports_of_sourceRecord {current : AgentToolPolicy} {receipt : Uuid}
    {source : SourceRecord}
    (cited : sourceRecord services store caller node current receipt = .ok source) :
    source.receipt = receipt ∧ store.Supports caller node source := by
  unfold sourceRecord at cited
  obtain ⟨⟨row, observation⟩, found, cited⟩ := bind_eq_ok_iff.mp cited
  obtain ⟨recordedAt, _, cited⟩ := bind_eq_ok_iff.mp cited
  obtain ⟨_, succeeded, cited⟩ := bind_eq_ok_iff.mp cited
  obtain ⟨_, _, cited⟩ := bind_eq_ok_iff.mp cited
  obtain rfl := pure_eq_ok_iff.mp cited
  have found := orFail_eq_ok_iff.mp found
  simp only [ToolStore.observed, Option.bind_eq_bind, Option.bind_eq_some_iff] at found
  obtain ⟨evidence, looked, call, called, turn, turned, reported, present, found⟩ := found
  split at found
  · rename_i own
    obtain ⟨agent, host, revision, message, conversation, generation⟩ := own
    obtain ⟨rfl, rfl⟩ := Prod.mk.inj (Option.some.inj found)
    exact ⟨rfl,
      ⟨evidence, Table.mem_of_lookup looked, Table.key_of_lookup looked, rfl, rfl, reported,
        present, require_eq_ok_iff.mp succeeded, rfl⟩,
      ⟨call, Table.mem_of_lookup called, Table.key_of_lookup called, agent, host, revision⟩,
      ⟨turn, Table.mem_of_lookup turned, Table.key_of_lookup turned, message, conversation,
        generation⟩⟩
  · cases found

/-- What the hub has to say of a caller for its findings to be saved. -/
structure ToolStore.MaySave (store : ToolStore) (caller : ToolCaller) (node vault : Uuid)
    (receipts : List Uuid) (sources : List SourceRecord) (now : Int) : Prop where
  authorized : store.world.Authorizes caller node now
  granted : vault ∈ (store.world.policy caller.agent).writableVaults
  opens : Opens store.world.catalog node vault
  manual : store.world.catalog.db.folderBacked vault = false
  cited : sources.map SourceRecord.receipt = citedReceipts receipts
  supported : ∀ source ∈ sources, store.Supports caller node source

/-- What a first save leaves: one new document, and a receipt for it. -/
structure ToolStore.Saves (services : Services) (store : ToolStore) (caller : ToolCaller)
    (draws : Draws) (node vault : Uuid) (title findings : Text) (sources : List SourceRecord)
    (next : ToolStore) : Prop where
  document : AddsDocument store.world.catalog.db
    (findingsRow services caller draws vault title findings sources) next.world.catalog.db
  records : store.Records caller node draws.receipt next
  evidence : next.evidence = store.evidence

theorem saves_of_saveFindings {cited : List Uuid} {answer : SavedFindings}
    (saved : saveFindings services store caller draws node vault title findings cited sources =
      .ok (next, answer)) :
    store.Saves services caller draws node vault title findings sources next ∧
      answer.alreadySaved = false := by
  unfold saveFindings at saved
  obtain ⟨_, checked, saved⟩ := bind_eq_ok_iff.mp saved
  obtain ⟨db, inserted, saved⟩ := bind_eq_ok_iff.mp saved
  obtain ⟨saves, _, saved⟩ := bind_eq_ok_iff.mp saved
  obtain ⟨after, recorded, saved⟩ := bind_eq_ok_iff.mp saved
  obtain ⟨rfl, rfl⟩ := Prod.mk.inj (pure_eq_ok_iff.mp saved)
  obtain ⟨_, room⟩ := of_turnCheck checked
  obtain ⟨⟨room, received, turned⟩, evidence, world⟩ := records_of_record recorded room rfl
  refine ⟨⟨?_, ⟨room, received, turned⟩, evidence⟩, rfl⟩
  rw [world]
  exact addsDocument_of_insertDocument inserted

theorem sources_of_mapM {current : AgentToolPolicy} {cited : List Uuid}
    (listed : cited.mapM (sourceRecord services store caller node current) = .ok sources) :
    sources.map SourceRecord.receipt = cited ∧
      ∀ source ∈ sources, store.Supports caller node source := by
  have records := forall₂_of_mapM listed
  clear listed
  induction records with
  | nil => exact ⟨rfl, fun _ member => absurd member List.not_mem_nil⟩
  | cons head _ ih =>
    obtain ⟨named, supported⟩ := supports_of_sourceRecord head
    obtain ⟨rest, others⟩ := ih
    refine ⟨by rw [List.map_cons, named, rest], ?_⟩
    intro source member
    rcases List.mem_cons.mp member with rfl | later
    · exact supported
    · exact others source later

/-- A save goes through on a check of everything, and then repeats an earlier one or is the first
of its attempt. -/
theorem of_botsAgentLibrarySave {answer : SavedFindings}
    (saved : botsAgentLibrarySave services store caller draws vault title findings receipts =
      .ok (next, answer)) :
    ∃ node sources, store.MaySave caller node vault receipts sources (draws.clock 0) ∧
      (next = store ∧ answer.alreadySaved = true ∨
        store.Saves services caller draws node vault title findings sources next ∧
          answer.alreadySaved = false) := by
  unfold botsAgentLibrarySave at saved
  obtain ⟨_, _, saved⟩ := bind_eq_ok_iff.mp saved
  obtain ⟨_, _, saved⟩ := bind_eq_ok_iff.mp saved
  obtain ⟨_, _, saved⟩ := bind_eq_ok_iff.mp saved
  obtain ⟨node, authenticated, saved⟩ := bind_eq_ok_iff.mp saved
  obtain ⟨_, owned, saved⟩ := bind_eq_ok_iff.mp saved
  obtain ⟨_, alive, saved⟩ := bind_eq_ok_iff.mp saved
  obtain ⟨_, assigned, saved⟩ := bind_eq_ok_iff.mp saved
  obtain ⟨_, known, saved⟩ := bind_eq_ok_iff.mp saved
  obtain ⟨_, accessed, saved⟩ := bind_eq_ok_iff.mp saved
  obtain ⟨sources, listed, saved⟩ := bind_eq_ok_iff.mp saved
  obtain ⟨revision, granted⟩ := require_eq_ok_iff.mp known
  unfold saveAccess at accessed
  obtain ⟨_, opened, accessed⟩ := bind_eq_ok_iff.mp accessed
  obtain ⟨_, _, _, _, _, _, manual⟩ := require_eq_ok_iff.mp accessed
  obtain ⟨cited, supported⟩ := sources_of_mapM listed
  have authorized : store.world.Authorizes caller node (draws.clock 0) :=
    ⟨authenticated, require_eq_ok_iff.mp owned, require_eq_ok_iff.mp assigned,
      liveTurn_of_turnAliveCheck alive, revision⟩
  refine ⟨node, sources,
    ⟨authorized, granted, opens_of_vaultAccess opened, manual, cited, supported⟩, ?_⟩
  cases present : store.world.saved caller vault with
  | some found =>
    rw [present] at saved
    obtain ⟨_, _, saved⟩ := bind_eq_ok_iff.mp saved
    obtain ⟨rfl, rfl⟩ := Prod.mk.inj (pure_eq_ok_iff.mp saved)
    exact Or.inl ⟨rfl, rfl⟩
  | none =>
    rw [present] at saved
    exact Or.inr (saves_of_saveFindings saved)

end Saving

section Effects

variable {services : Services} {call : ToolCall} {store next : ToolStore} {answer : ToolAnswer}

/-- What a save is asked for, by either of its entry points. -/
structure SaveRequest where
  vault : Uuid
  title : Text
  findings : Text
  receipts : List Uuid
deriving DecidableEq, Repr

def ToolOp.save? : ToolOp → Option SaveRequest
  | .execute (.vaultSave vault title findings receipts) => some ⟨vault, title, findings, receipts⟩
  | .librarySave vault title findings receipts => some ⟨vault, title, findings, receipts⟩
  | _ => none

/-- The grants a call needs beyond the fences. -/
def ToolOp.Granted (services : Services) (store : ToolStore) (caller : ToolCaller) (node : Uuid) :
    ToolOp → Prop
  | .execute (.vaultSearch vault _ _) | .execute (.vaultRead vault _ _) =>
    vault ∈ (store.world.policy caller.agent).readableVaults ∧
      Opens store.world.catalog node vault
  | .execute (.vaultSave vault _ _ _) | .librarySave vault _ _ _ =>
    vault ∈ (store.world.policy caller.agent).writableVaults ∧
      Opens store.world.catalog node vault
  | .execute _ => False
  | .webAuthorize url => ∃ host, reachableHost services url "fetched" = .ok host ∧
    hostAllowed (store.world.policy caller.agent).webHosts (effectiveHost host) = true
  | .webPostAuthorize url _ => ∃ host, reachableHost services url "posted to" = .ok host ∧
    hostAllowed (store.world.policy caller.agent).webPostHosts (effectiveHost host) = true
  | .webObserve receipt _ => store.Fetches caller node receipt
  | .handoffCreate target _ _ _ => target ∈ (store.world.policy caller.agent).handoffTargets
  | .handoffResolve handoff _ _ => store.world.handoffTarget handoff = some caller.agent

/-- What a recorded call that is not a save leaves. -/
structure ToolCall.Recorded (call : ToolCall) (store : ToolStore) (node : Uuid)
    (next : ToolStore) : Prop where
  records : store.Records call.caller node call.draws.receipt next
  evidence : ∃ added, next.evidence.rows = store.evidence.rows ++ added
  world : next.world = store.world

/-- All that a call that goes through can do. -/
inductive ToolCall.Effect (services : Services) (call : ToolCall) (store : ToolStore) :
    ToolStore → ToolAnswer → Prop
  | recorded (node : Uuid) (next : ToolStore) (answer : ToolAnswer)
      (authorized : store.world.Authorizes call.caller node (call.draws.clock 0))
      (unsaved : call.op.save? = none) (granted : call.op.Granted services store call.caller node)
      (recorded : call.Recorded store node next) : Effect services call store next answer
  | repeated (node : Uuid) (request : SaveRequest) (sources : List SourceRecord)
      (answer : SavedFindings) (asked : call.op.save? = some request)
      (allowed : store.MaySave call.caller node request.vault request.receipts sources
        (call.draws.clock 0))
      (again : answer.alreadySaved = true) : Effect services call store store (.saved answer)
  | saved (node : Uuid) (request : SaveRequest) (sources : List SourceRecord) (next : ToolStore)
      (answer : SavedFindings) (asked : call.op.save? = some request)
      (allowed : store.MaySave call.caller node request.vault request.receipts sources
        (call.draws.clock 0))
      (saves : store.Saves services call.caller call.draws node request.vault request.title
        request.findings sources next)
      (first : answer.alreadySaved = false) : Effect services call store next (.saved answer)
  | confirmed (node receipt : Uuid) (observation : Observation) (evidence : Evidence)
      (called : call.op = .webObserve receipt observation)
      (authorized : store.world.Authorizes call.caller node (call.draws.clock 0))
      (fetches : store.Fetches call.caller node receipt)
      (same : evidence.observation = some observation) :
      Effect services call store store (.evidence evidence)
  | reported (node receipt : Uuid) (observation : Observation) (now : Int) (evidence : Evidence)
      (called : call.op = .webObserve receipt observation)
      (authorized : store.world.Authorizes call.caller node (call.draws.clock 0))
      (fetches : store.Fetches call.caller node receipt) :
      Effect services call store (store.report services receipt observation now)
        (.evidence evidence)

theorem recorded_of_record {node : Uuid} {tool : String} {vault : Text} {revision : Nat}
    {now : Int}
    (recorded : store.record call.caller node tool vault revision call.draws.receipt now =
      .ok next)
    (room : store.used call.caller.agent call.caller.turn < toolLimit)
    (known : revision = call.caller.revision) : call.Recorded store node next := by
  obtain ⟨records, evidence, world⟩ := records_of_record recorded room known
  exact ⟨records, ⟨[], by rw [evidence, List.append_nil]⟩, world⟩

/-- Evidence may be added to what a recorded call left. -/
theorem ToolCall.Recorded.evidenced {node : Uuid} {middle : ToolStore} {row : Evidence}
    (recorded : call.Recorded store node middle)
    (evidenced : middle.recordEvidence row = .ok next) : call.Recorded store node next := by
  obtain ⟨receipts, turns, world, rows⟩ := of_recordEvidence evidenced
  obtain ⟨⟨room, received, turned⟩, ⟨added, earlier⟩, before⟩ := recorded
  refine ⟨⟨room, ?_, ?_⟩, ⟨added ++ [row], ?_⟩, world.trans before⟩
  · rw [receipts]
    exact received
  · rw [turns]
    exact turned
  · rw [rows, earlier, List.append_assoc]

theorem effect_library {tool : AgentToolCall} (called : call.op = .execute tool)
    (unsaved : call.op.save? = none)
    (done : botsAgentToolExecute services store call.caller call.draws tool = .ok (next, answer)) :
    call.Effect services store next answer := by
  unfold botsAgentToolExecute at done
  split at done
  · rw [called] at unsaved
    cases unsaved
  · obtain ⟨⟨node, current⟩, hosted, done⟩ := bind_eq_ok_iff.mp done
    obtain ⟨⟨vault, library⟩, reads, done⟩ := bind_eq_ok_iff.mp done
    obtain ⟨_, granted, done⟩ := bind_eq_ok_iff.mp done
    obtain ⟨_, opened, done⟩ := bind_eq_ok_iff.mp done
    obtain ⟨result, _, done⟩ := bind_eq_ok_iff.mp done
    obtain ⟨middle, recorded, done⟩ := bind_eq_ok_iff.mp done
    obtain ⟨after, evidenced, done⟩ := bind_eq_ok_iff.mp done
    obtain ⟨rfl, rfl⟩ := Prod.mk.inj (pure_eq_ok_iff.mp done)
    obtain ⟨authorized, room, rfl⟩ := of_hostedTurn hosted
    have receipted := recorded_of_record recorded room authorized.policy
    have allowed : vault ∈ (store.world.policy call.caller.agent).readableVaults ∧
        Opens store.world.catalog node vault :=
      ⟨require_eq_ok_iff.mp granted, opens_of_vaultAccess opened⟩
    refine .recorded node _ _ authorized unsaved ?_ ?_
    · rw [called]
      cases tool with
      | vaultSearch | vaultRead =>
        obtain ⟨rfl, _⟩ := Prod.mk.inj (Except.ok.inj reads)
        exact allowed
      | _ => cases reads
    · unfold recordLibrary at evidenced
      split at evidenced
      · exact receipted.evidenced evidenced
      · obtain rfl := Except.ok.inj evidenced
        exact receipted

theorem effect_fetch {url : Text} {grant : WebFetchGrant} (called : call.op = .webAuthorize url)
    (done : botsAgentWebAuthorize services store call.caller call.draws url = .ok (next, grant)) :
    call.Effect services store next answer := by
  unfold botsAgentWebAuthorize at done
  obtain ⟨_, _, done⟩ := bind_eq_ok_iff.mp done
  obtain ⟨host, reached, done⟩ := bind_eq_ok_iff.mp done
  obtain ⟨⟨node, current⟩, hosted, done⟩ := bind_eq_ok_iff.mp done
  obtain ⟨_, granted, done⟩ := bind_eq_ok_iff.mp done
  obtain ⟨middle, recorded, done⟩ := bind_eq_ok_iff.mp done
  obtain ⟨after, evidenced, done⟩ := bind_eq_ok_iff.mp done
  obtain ⟨rfl, rfl⟩ := Prod.mk.inj (pure_eq_ok_iff.mp done)
  obtain ⟨authorized, room, rfl⟩ := of_hostedTurn hosted
  have receipted := recorded_of_record recorded room authorized.policy
  refine .recorded node _ _ authorized (called ▸ rfl) ?_ (receipted.evidenced evidenced)
  rw [called]
  exact ⟨host, reached, require_eq_ok_iff.mp granted⟩

theorem effect_post {url : Text} {body : PostBody} {grant : WebPostGrant}
    (called : call.op = .webPostAuthorize url body)
    (done : botsAgentWebPostAuthorize services store call.caller call.draws url body =
      .ok (next, grant)) :
    call.Effect services store next answer := by
  unfold botsAgentWebPostAuthorize at done
  obtain ⟨_, _, done⟩ := bind_eq_ok_iff.mp done
  obtain ⟨_, _, done⟩ := bind_eq_ok_iff.mp done
  obtain ⟨host, reached, done⟩ := bind_eq_ok_iff.mp done
  obtain ⟨⟨node, current⟩, hosted, done⟩ := bind_eq_ok_iff.mp done
  obtain ⟨_, granted, done⟩ := bind_eq_ok_iff.mp done
  obtain ⟨middle, recorded, done⟩ := bind_eq_ok_iff.mp done
  obtain ⟨rfl, rfl⟩ := Prod.mk.inj (pure_eq_ok_iff.mp done)
  obtain ⟨authorized, room, rfl⟩ := of_hostedTurn hosted
  have receipted := recorded_of_record recorded room authorized.policy
  refine .recorded node _ _ authorized (called ▸ rfl) ?_ receipted
  rw [called]
  exact ⟨host, reached, require_eq_ok_iff.mp granted⟩

theorem effect_handoffCreate {target : AgentId} {task criteria : String} {minutes : Int}
    {owner : UserId} (called : call.op = .handoffCreate target task criteria minutes)
    (done : botsAgentHandoffCreate store call.caller call.draws target task criteria minutes =
      .ok (next, owner)) :
    call.Effect services store next answer := by
  unfold botsAgentHandoffCreate at done
  obtain ⟨_, _, done⟩ := bind_eq_ok_iff.mp done
  obtain ⟨_, _, done⟩ := bind_eq_ok_iff.mp done
  obtain ⟨_, _, done⟩ := bind_eq_ok_iff.mp done
  obtain ⟨⟨node, current⟩, hosted, done⟩ := bind_eq_ok_iff.mp done
  obtain ⟨_, granted, done⟩ := bind_eq_ok_iff.mp done
  obtain ⟨_, _, done⟩ := bind_eq_ok_iff.mp done
  obtain ⟨_, _, done⟩ := bind_eq_ok_iff.mp done
  obtain ⟨middle, recorded, done⟩ := bind_eq_ok_iff.mp done
  obtain ⟨rfl, rfl⟩ := Prod.mk.inj (pure_eq_ok_iff.mp done)
  obtain ⟨authorized, room, rfl⟩ := of_hostedTurn hosted
  have allowed := require_eq_ok_iff.mp granted
  have receipted := recorded_of_record recorded room authorized.policy
  refine .recorded node _ _ authorized (called ▸ rfl) ?_ receipted
  rw [called]
  exact allowed

theorem effect_handoffResolve {handoff : Uuid} {state : HandoffState} {summary : String}
    {owner : UserId} (called : call.op = .handoffResolve handoff state summary)
    (done : botsAgentHandoffResolve store call.caller call.draws handoff state summary =
      .ok (next, owner)) :
    call.Effect services store next answer := by
  unfold botsAgentHandoffResolve at done
  obtain ⟨_, _, done⟩ := bind_eq_ok_iff.mp done
  obtain ⟨_, _, done⟩ := bind_eq_ok_iff.mp done
  obtain ⟨⟨node, current⟩, hosted, done⟩ := bind_eq_ok_iff.mp done
  obtain ⟨target, addressed, done⟩ := bind_eq_ok_iff.mp done
  obtain ⟨_, own, done⟩ := bind_eq_ok_iff.mp done
  obtain ⟨_, _, done⟩ := bind_eq_ok_iff.mp done
  obtain ⟨middle, recorded, done⟩ := bind_eq_ok_iff.mp done
  obtain ⟨rfl, rfl⟩ := Prod.mk.inj (pure_eq_ok_iff.mp done)
  obtain ⟨authorized, room, rfl⟩ := of_hostedTurn hosted
  obtain rfl := require_eq_ok_iff.mp own
  have receipted := recorded_of_record recorded room authorized.policy
  refine .recorded node _ _ authorized (called ▸ rfl) ?_ receipted
  rw [called]
  exact orFail_eq_ok_iff.mp addressed

theorem effect_observe {receipt : Uuid} {observation : Observation} {evidence : Evidence}
    (called : call.op = .webObserve receipt observation)
    (done : botsAgentWebObserve services store call.caller call.draws receipt observation =
      .ok (next, evidence)) :
    call.Effect services store next (.evidence evidence) := by
  unfold botsAgentWebObserve at done
  obtain ⟨_, _, done⟩ := bind_eq_ok_iff.mp done
  obtain ⟨node, authenticated, done⟩ := bind_eq_ok_iff.mp done
  obtain ⟨_, owned, done⟩ := bind_eq_ok_iff.mp done
  obtain ⟨_, alive, done⟩ := bind_eq_ok_iff.mp done
  obtain ⟨_, known, done⟩ := bind_eq_ok_iff.mp done
  obtain ⟨_, fetched, done⟩ := bind_eq_ok_iff.mp done
  obtain ⟨existing, _, done⟩ := bind_eq_ok_iff.mp done
  have fetches := require_eq_ok_iff.mp fetched
  obtain ⟨_, _, _, _, _, _, _, _, _, _, _, host⟩ := fetches
  have authorized : store.world.Authorizes call.caller node (call.draws.clock 0) :=
    ⟨authenticated, require_eq_ok_iff.mp owned, host, liveTurn_of_turnAliveCheck alive,
      require_eq_ok_iff.mp known⟩
  cases finished : existing.observation with
  | some saved =>
    rw [finished] at done
    obtain ⟨_, same, done⟩ := bind_eq_ok_iff.mp done
    obtain ⟨rfl, rfl⟩ := Prod.mk.inj (pure_eq_ok_iff.mp done)
    obtain rfl := require_eq_ok_iff.mp same
    exact .confirmed node receipt saved _ called authorized (require_eq_ok_iff.mp fetched) finished
  | none =>
    rw [finished] at done
    obtain ⟨_, _, done⟩ := bind_eq_ok_iff.mp done
    obtain ⟨rfl, rfl⟩ := Prod.mk.inj (pure_eq_ok_iff.mp done)
    exact .reported node receipt observation _ _ called authorized (require_eq_ok_iff.mp fetched)

theorem effect_save {request : SaveRequest} {findings : SavedFindings}
    (asked : call.op.save? = some request)
    (done : botsAgentLibrarySave services store call.caller call.draws request.vault request.title
      request.findings request.receipts = .ok (next, findings)) :
    call.Effect services store next (.saved findings) := by
  obtain ⟨node, sources, allowed, ⟨rfl, again⟩ | ⟨saves, first⟩⟩ := of_botsAgentLibrarySave done
  · exact .repeated node request sources findings asked allowed again
  · exact .saved node request sources next findings asked allowed saves first

/-- Every call that goes through has one of the effects. -/
theorem effect_of_reply (done : call.reply services store = .ok (next, answer)) :
    call.Effect services store next answer := by
  unfold ToolCall.reply at done
  cases called : call.op with
  | execute tool =>
    rw [called] at done
    cases asked : call.op.save? with
    | none => exact effect_library called asked done
    | some request =>
      rw [called] at asked
      cases tool with
      | vaultSave vault title findings receipts =>
        obtain ⟨⟨_, saved⟩, through, same⟩ := map_eq_ok_iff.mp done
        obtain ⟨rfl, rfl⟩ := Prod.mk.inj same
        exact @effect_save _ _ _ _ ⟨vault, title, findings, receipts⟩ _ (called ▸ rfl) through
      | _ => cases asked
  | librarySave vault title findings receipts =>
    rw [called] at done
    obtain ⟨⟨_, saved⟩, through, same⟩ := map_eq_ok_iff.mp done
    obtain ⟨rfl, rfl⟩ := Prod.mk.inj same
    exact @effect_save _ _ _ _ ⟨vault, title, findings, receipts⟩ _ (called ▸ rfl) through
  | webAuthorize url =>
    rw [called] at done
    obtain ⟨⟨_, grant⟩, through, same⟩ := map_eq_ok_iff.mp done
    obtain ⟨rfl, rfl⟩ := Prod.mk.inj same
    exact effect_fetch called through
  | webPostAuthorize url body =>
    rw [called] at done
    obtain ⟨⟨_, grant⟩, through, same⟩ := map_eq_ok_iff.mp done
    obtain ⟨rfl, rfl⟩ := Prod.mk.inj same
    exact effect_post called through
  | webObserve receipt observation =>
    rw [called] at done
    obtain ⟨⟨_, evidence⟩, through, same⟩ := map_eq_ok_iff.mp done
    obtain ⟨rfl, rfl⟩ := Prod.mk.inj same
    exact effect_observe called through
  | handoffCreate target task criteria minutes =>
    rw [called] at done
    obtain ⟨⟨_, owner⟩, through, same⟩ := map_eq_ok_iff.mp done
    obtain ⟨rfl, rfl⟩ := Prod.mk.inj same
    exact effect_handoffCreate called through
  | handoffResolve handoff state summary =>
    rw [called] at done
    obtain ⟨⟨_, owner⟩, through, same⟩ := map_eq_ok_iff.mp done
    obtain ⟨rfl, rfl⟩ := Prod.mk.inj same
    exact effect_handoffResolve called through

end Effects

end OHHive.AgentTools
