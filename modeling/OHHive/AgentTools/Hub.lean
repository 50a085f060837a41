import OHHive.AgentTools.Types
import OHHive.Foundation.Journal

/-! The entry points of an agent's tools. Each is one transaction that derives the authority of the
caller anew, does its work and leaves a receipt. -/

namespace OHHive.AgentTools

open Foundation
open Bots (AgentId AgentToolTurn UserId ftsQuery turnAliveCheck)
open Coder (arrayOf byteLength uuidText)
open Fleet (withNode)
open Vault (Catalog DocumentRow VaultIndex revisionOf vaultAccess visibleRows)

section Fences

/-- Who calls a tool: the key it authenticates with, the agent it speaks for, and the policy
revision and turn it vouches for. -/
structure ToolCaller where
  keyHash : Text
  agent : AgentId
  revision : Nat
  turn : AgentToolTurn
deriving DecidableEq, Repr

variable (world : World) (store : ToolStore) (caller : ToolCaller)

/-- The computer belongs to the owner of the agent, which is not archived. -/
def World.Owns (node : Uuid) (agent : AgentId) : Prop :=
  ∃ profile ∈ world.book.store.agent? agent, profile.archived = false ∧
    ∃ computer ∈ world.fleet.nodes.lookup node, computer.ownerMemberId = some profile.owner

/-- The computer is the one that the agent is assigned to. -/
def World.Hosts (node : Uuid) (agent : AgentId) : Prop :=
  ∃ profile ∈ world.book.store.agent? agent,
    profile.runtimeKind = .local ∧ profile.preferredHost = some node

instance (node : Uuid) (agent : AgentId) : Decidable (world.Owns node agent) := by
  unfold World.Owns
  infer_instance

instance (node : Uuid) (agent : AgentId) : Decidable (world.Hosts node agent) := by
  unfold World.Hosts
  infer_instance

def ownerCheck (node : Uuid) (agent : AgentId) : Result Unit :=
  require (world.Owns node agent) (rejected "forbidden: active agent owner")

/-- `policy`: an agent without a saved one has no grants. -/
def World.policy (agent : AgentId) : AgentToolPolicy :=
  (world.policies agent).getD AgentToolPolicy.default

/-- The recorded calls of an attempt. -/
def ToolStore.used (agent : AgentId) (turn : AgentToolTurn) : Nat :=
  countIn ToolTurn.attempt store.turns.rows (turn.message, agent, turn.generation)

def toolLimit : Nat := 8

def turnCheck (agent : AgentId) (turn : AgentToolTurn) (now : Int) : Result Unit := do
  turnAliveCheck store.world.book agent turn now
  require (store.used agent turn < toolLimit) (rejected "chat library tool limit reached")

/-- The fences of every tool but saving: the owner's computer, the assigned host, a live turn with
calls to spare and the policy that the caller knows. -/
def hostedTurn (now : Int) : Result (Uuid × AgentToolPolicy) := do
  let node ← withNode store.world.fleet caller.keyHash
  ownerCheck store.world node caller.agent
  require (store.world.Hosts node caller.agent)
    (rejected "tool calls must come from the assigned agent host")
  turnCheck store caller.agent caller.turn now
  let current := store.world.policy caller.agent
  require (current.revision = caller.revision) (rejected "tool policy changed; reload access")
  return (node, current)

/-- The receipt of a call and the turn it belongs to. -/
def ToolStore.record (node : Uuid) (tool : String) (vault : Text) (revision : Nat)
    (receipt : Uuid) (now : Int) : Result ToolStore := do
  let receipts ← orFail
    (store.receipts.insert? ⟨receipt, caller.agent, node, tool, vault, revision, now⟩) dbError
  let turns ← orFail (store.turns.insert? ⟨receipt, caller.turn.message, caller.turn.conversation,
    caller.agent, caller.turn.generation⟩) dbError
  return { store with receipts, turns }

def ToolStore.recordEvidence (row : Evidence) : Result ToolStore := do
  let evidence ← orFail (store.evidence.insert? row) dbError
  return { store with evidence }

end Fences

section Calls

/-- What the hub takes from elsewhere: the full-text index, the digest, the parser of URLs and the
pretty printer of an origin. -/
structure Services where
  index : VaultIndex
  sha256 : Text → Text
  parseUrl : Text → Option Url
  printOrigin : Origin → Text

/-- What one call draws: its readings of the clock and the identities it mints. -/
structure Draws where
  clock : Nat → Int
  receipt : Uuid
  document : Uuid

inductive LibraryResult where
  | hits (hits : List LibraryHit)
  | text (text : LibraryText)
deriving DecidableEq, Repr

/-- What a tool that went through answers. -/
inductive ToolAnswer where
  | library (receipt : Uuid) (result : LibraryResult)
  | saved (findings : SavedFindings)
  | fetch (grant : WebFetchGrant)
  | post (grant : WebPostGrant)
  | evidence (evidence : Evidence)
  | handoff (owner : UserId)

end Calls

section Library

/-- The part of a call that reads a vault. -/
inductive LibraryCall where
  | search (query : String) (limit : Nat)
  | read (document : Uuid) (revision : Text)
deriving DecidableEq, Repr

def LibraryCall.tool : LibraryCall → String
  | .search .. => "vault_search"
  | .read .. => "vault_read"

/-- The vault a call reads; the other tools have entry points of their own. -/
def AgentToolCall.library : AgentToolCall → Result (Uuid × LibraryCall)
  | .vaultSearch vault query limit => .ok (vault, .search query limit)
  | .vaultRead vault document revision => .ok (vault, .read document revision)
  | .webFetch _ => .error (rejected
    "web fetches are authorized with bots_agent_web_authorize and performed on the agent host")
  | .webPost _ _ => .error (rejected
    "web posts are authorized with bots_agent_web_post_authorize and performed on the agent host")
  | .handoffCreate .. => .error (rejected "handoffs are created with bots_agent_handoff_create")
  | .handoffResolve .. => .error (rejected "handoffs are resolved with bots_agent_handoff_resolve")
  -- A save is passed on before the transaction begins.
  | .vaultSave .. => .error dbError

/-- The longest start of a text within a number of bytes. -/
def truncate (limit : Nat) : Text → Text
  | [] => []
  | char :: rest =>
    if char.utf8Size ≤ limit then char :: truncate (limit - char.utf8Size) rest else []

def searchHit (index : VaultIndex) (query : String) (row : DocumentRow) : LibraryHit :=
  ⟨row.id, row.path, row.revision, row.title, index.snippet query row⟩

def LibraryCall.run (index : VaultIndex) (catalog : Catalog) (vault : Uuid) :
    LibraryCall → Result LibraryResult
  | .search query limit => do
    checkText query 2048
    require (1 ≤ limit ∧ limit ≤ 20) (rejected "agent search limit must be 1..20")
    let terms := ftsQuery query
    let found := (visibleRows catalog.db vault).filter (index.isMatch terms)
    return .hits (((found.mergeSort (index.ranked catalog.db.documents.rows terms)).take limit).map
      (searchHit index terms))
  | .read document revision => do
    checkText (String.ofList revision) 256
    let row ← orFail ((visibleRows catalog.db vault).find? (·.id = document))
      (rejected "document not found")
    require (row.revision = revision) (rejected "document revision changed; search again")
    return .text ⟨document, vault, row.path, row.revision, row.title, truncate 32768 row.content,
      32768 < byteLength row.content⟩

/-- `observed_digest`. -/
def observedDigest (sha256 : Text → Text) (observation : Observation) : Option Text :=
  if observation.error.isSome || observation.redirectTo.isSome then none
  else some (sha256 observation.content)

/-- `record_library`, for the calls that read a document. -/
def recordLibrary (sha256 : Text → Text) (store : ToolStore) (receipt vault : Uuid) (now : Int) :
    LibraryCall → LibraryResult → Result ToolStore
  | .read document revision, .text text =>
    let observation : Observation :=
      ⟨⟨none, some "text/plain".toList, some text.title, text.truncated, none, none⟩, text.content⟩
    store.recordEvidence ⟨receipt, .library vault document revision, some observation, some now,
      observedDigest sha256 observation⟩
  | _, _ => .ok store

end Library

section Saving

variable (services : Services) (store : ToolStore) (caller : ToolCaller) (draws : Draws)

/-- `save_access`: a ready vault that both the caller and the agent's computer may read, and that
no folder writes. -/
def saveAccess (world : World) (node : Uuid) (agent : AgentId) (vault : Uuid) : Result Unit := do
  let _ ← vaultAccess world.catalog node vault true
  require (∃ profile ∈ world.book.store.agent? agent, ∃ host ∈ profile.preferredHost,
      (vault, host) ∈ world.catalog.readers ∧
      (∃ info ∈ world.catalog.db.vaults.lookup vault, info.state = .ready) ∧
      world.catalog.db.folderBacked vault = false)
    (rejected "choose a ready manual collection shared with the agent computer")

def Observation.succeeded (observation : Observation) : Bool :=
  observation.error.isNone && observation.redirectTo.isNone &&
    observation.status.all (fun status => 200 ≤ status && status ≤ 299) &&
    !observation.content.all isWhitespace

/-- The observation under a receipt of the same attempt, made under the same policy. -/
def ToolStore.observed (node receipt : Uuid) : Option (Evidence × Observation) := do
  let row ← store.evidence.lookup receipt
  let call ← store.receipts.lookup receipt
  let turn ← store.turns.lookup receipt
  let observation ← row.observation
  if call.agent = caller.agent ∧ call.node = node ∧ call.policyRevision = caller.revision ∧
      turn.message = caller.turn.message ∧ turn.conversation = caller.turn.conversation ∧
      turn.generation = caller.turn.generation then
    some (row, observation)
  else none

/-- Retaining a receipt is not durable access: the grants are checked again. -/
def sourceAccess (world : World) (node : Uuid) (current : AgentToolPolicy) :
    Source → Result Unit
  | .library vault _ _ => do
    require (vault ∈ current.readableVaults) (rejected "source library read access revoked")
    let _ ← vaultAccess world.catalog node vault true
    return ()
  | .web url => do
    let parsed ← orFail (services.parseUrl url) (rejected "invalid recorded source")
    let host ← orFail parsed.host (rejected "invalid recorded source host")
    require (hostAllowed current.webHosts (effectiveHost host))
      (rejected "source web access revoked")

/-- One source that the findings rest on. -/
def sourceRecord (node : Uuid) (current : AgentToolPolicy) (receipt : Uuid) :
    Result SourceRecord := do
  let (row, observation) ← orFail (store.observed caller node receipt)
    (rejected "source was not observed in this attempt")
  let recordedAt ← orFail row.observedAt dbError
  require (observation.succeeded)
    (rejected "failed, redirected or empty sources cannot support saved findings")
  sourceAccess services store.world node current row.source
  return ⟨receipt, row.source, observation.toObservationMeta, recordedAt, row.contentSha256⟩

/-- `sort` and `dedup`. -/
def citedReceipts (receipts : List Uuid) : List Uuid :=
  (receipts.insertionSort fun first second => first.value ≤ second.value).destutter (· ≠ ·)

def fingerprint (title findings : Text) (receipts : List Uuid) : Text :=
  services.sha256 (arrayOf [.text title, .text findings,
    arrayOf (receipts.map fun receipt => .text (uuidText receipt))]).print

def findingsPath (agent : AgentId) (turn : AgentToolTurn) : Text :=
  "agent-findings/".toList ++ uuidText agent ++ '/' :: uuidText turn.message ++
    '-' :: Nat.toDigits 10 turn.generation ++ ".md".toList

/-- The note: the title, the findings, and the record of the sources they rest on. -/
def findingsContent (title findings : Text) (origin : Origin) : Text :=
  "# ".toList ++ title ++ "\n\n## Agent findings\n\n".toList ++ findings ++
    ("\n\n## Source record\n\nSaved under your explicit collection permission. Findings are " ++
      "model-generated claims, not independently verified facts. Source records describe " ++
      "executor-reported retrieval; truncated sources are partial.\n\n```json\n").toList ++
    services.printOrigin origin ++ "\n```\n".toList

/-- What an attempt already saved to a collection, if the document is still there. -/
def World.saved (world : World) (caller : ToolCaller) (vault : Uuid) :
    Option (DocumentRow × LibrarySave) := do
  let save ← world.saves.lookup
    (caller.agent, caller.turn.message, caller.turn.generation, vault)
  let document ← world.catalog.db.documents.rows.find? (·.id = save.document)
  return (document, save)

/-- The row of a new note. -/
def findingsRow (vault : Uuid) (title findings : Text) (sources : List SourceRecord) :
    DocumentRow :=
  let path := findingsPath caller.agent caller.turn
  let content := findingsContent services title findings
    ⟨caller.agent, caller.turn.message, caller.turn.conversation, caller.turn.generation,
      caller.revision, draws.clock 2, sources⟩
  ⟨⟨draws.document, vault, path, revisionOf services.sha256 draws.document path title content,
    title, content⟩, some (draws.clock 3)⟩

/-- The end of a first save: the document, the save and the receipt. -/
def saveFindings (node vault : Uuid) (title findings : Text) (receipts : List Uuid)
    (sources : List SourceRecord) : Result (ToolStore × SavedFindings) := do
  turnCheck store caller.agent caller.turn (draws.clock 1)
  let row := findingsRow services caller draws vault title findings sources
  let db ← store.world.catalog.db.insertDocument row
  let saves ← orFail (store.world.saves.insert? ⟨caller.agent, caller.turn.message,
    caller.turn.generation, vault, draws.document, fingerprint services title findings receipts,
    draws.clock 4⟩) dbError
  let world := { store.world with
    catalog := store.world.catalog.write (1000 * draws.clock 3) db
    saves }
  let store ← { store with world }.record caller node "vault_save" (uuidText vault)
    caller.revision draws.receipt (draws.clock 5)
  return (store, ⟨draws.document, vault, row.path, title, false⟩)

/-- `bots_agent_library_save`: a repeated save answers with the document of the first. -/
def botsAgentLibrarySave (vault : Uuid) (title findings : Text) (receipts : List Uuid) :
    Result (ToolStore × SavedFindings) := do
  checkText (String.ofList title) 200
  checkText (String.ofList findings) 16384
  let receipts := citedReceipts receipts
  require (receipts ≠ [] ∧ receipts.length ≤ 8)
    (rejected "save requires 1..8 observed source receipts from this attempt")
  let node ← withNode store.world.fleet caller.keyHash
  ownerCheck store.world node caller.agent
  turnAliveCheck store.world.book caller.agent caller.turn (draws.clock 0)
  require (store.world.Hosts node caller.agent)
    (rejected "save must come from the assigned agent host")
  let current := store.world.policy caller.agent
  require (current.revision = caller.revision ∧ vault ∈ current.writableVaults)
    (rejected "collection save access changed or is not granted")
  saveAccess store.world node caller.agent vault
  let sources ← receipts.mapM (sourceRecord services store caller node current)
  match store.world.saved caller vault with
  | some (document, save) =>
    require (save.payload = fingerprint services title findings receipts)
      (rejected "this attempt already saved different findings to this collection")
    return (store, ⟨document.id, vault, document.path, document.title, true⟩)
  | none => saveFindings services store caller draws node vault title findings receipts sources

end Saving

section Tools

variable (services : Services) (store : ToolStore) (caller : ToolCaller) (draws : Draws)

/-- `bots_agent_tool_execute`: policy, grants and the read share one transaction. -/
def botsAgentToolExecute (call : AgentToolCall) : Result (ToolStore × ToolAnswer) :=
  match call with
  | .vaultSave vault title findings receipts =>
    Prod.map id .saved <$>
      botsAgentLibrarySave services store caller draws vault title findings receipts
  | call => do
    let (node, current) ← hostedTurn store caller (draws.clock 0)
    let (vault, library) ← call.library
    require (vault ∈ current.readableVaults) (rejected "agent does not have access to this library")
    let _ ← vaultAccess store.world.catalog node vault true
    let result ← library.run services.index store.world.catalog vault
    let store ← store.record caller node library.tool (uuidText vault) current.revision
      draws.receipt (draws.clock 1)
    let store ← recordLibrary services.sha256 store draws.receipt vault (draws.clock 2) library
      result
    return (store, .library draws.receipt result)

/-- The host of an address that a tool may reach. -/
def reachableHost (url : Text) (reached : String) : Result Text := do
  let parsed ← orFail (services.parseUrl url) (rejected "invalid url")
  let host ← orFail (parsed.host.map (List.map Char.toLower)) (rejected "url has no host")
  require (parsed.scheme = "https".toList ∨ parsed.scheme = "http".toList ∧ isLoopback host)
    (rejected ("only https urls can be " ++ reached))
  require (parsed.username = [] ∧ parsed.password = none)
    (rejected ("urls with credentials cannot be " ++ reached))
  return host

/-- The grant to fetch one address; the hub never opens the connection. -/
def botsAgentWebAuthorize (url : Text) : Result (ToolStore × WebFetchGrant) := do
  checkText (String.ofList url) 2048
  let host ← reachableHost services url "fetched"
  let (node, current) ← hostedTurn store caller (draws.clock 0)
  require (hostAllowed current.webHosts (effectiveHost host))
    (rejected "agent does not have access to this web host")
  let store ← store.record caller node "web_fetch" host current.revision draws.receipt
    (draws.clock 1)
  let store ← store.recordEvidence ⟨draws.receipt, .web url, none, none, none⟩
  return (store, ⟨draws.receipt, url, host⟩)

/-- The grant to post one body; the secret is put in before it crosses to the agent's host. -/
def botsAgentWebPostAuthorize (url : Text) (body : PostBody) :
    Result (ToolStore × WebPostGrant) := do
  checkText (String.ofList url) 2048
  require (byteLength body.print ≤ 65536) (rejected "post body too large")
  let host ← reachableHost services url "posted to"
  let (node, current) ← hostedTurn store caller (draws.clock 0)
  require (hostAllowed current.webPostHosts (effectiveHost host))
    (rejected "agent does not have write access to this web host")
  let resolved := substituteSecret body (store.world.secrets caller.agent host)
  let store ← store.record caller node "web_post_json" host current.revision draws.receipt
    (draws.clock 1)
  return (store, ⟨draws.receipt, url, host, resolved⟩)

/-- The owner of the agent, for the part of a handoff that follows in transactions of its own. -/
def ownerOf (world : World) (agent : AgentId) : Result UserId := do
  let profile ← orFail (world.book.store.agent? agent) dbError
  return profile.owner

/-- The first transaction of `bots_agent_handoff_create`. -/
def botsAgentHandoffCreate (target : AgentId) (taskOrQuestion acceptanceCriteria : String)
    (deadlineMinutes : Int) : Result (ToolStore × UserId) := do
  checkText taskOrQuestion 4000
  checkText acceptanceCriteria 4000
  require (1 ≤ deadlineMinutes ∧ deadlineMinutes ≤ 10080)
    (rejected "deadline must be between 1 minute and 7 days (10080 minutes) out")
  let (node, current) ← hostedTurn store caller (draws.clock 0)
  require (target ∈ current.handoffTargets)
    (rejected "agent is not allowed to hand work to this target")
  require (∃ profile ∈ store.world.book.store.agent? target, profile.archived = false)
    (rejected "handoff target agent not found")
  let owner ← ownerOf store.world caller.agent
  let store ← store.record caller node "handoff_create" (uuidText target) current.revision
    draws.receipt (draws.clock 1)
  return (store, owner)

/-- The first transaction of `bots_agent_handoff_resolve`. -/
def botsAgentHandoffResolve (handoff : Uuid) (state : HandoffState) (summary : String) :
    Result (ToolStore × UserId) := do
  require (state.isTerminal) (rejected "a handoff must resolve to a terminal state")
  checkText summary 20000
  let (node, current) ← hostedTurn store caller (draws.clock 0)
  let target ← orFail (store.world.handoffTarget handoff) (rejected "handoff not found")
  require (target = caller.agent) (rejected "only the handoff's target agent may resolve it")
  let owner ← ownerOf store.world caller.agent
  let store ← store.record caller node "handoff_resolve" (uuidText handoff) current.revision
    draws.receipt (draws.clock 1)
  return (store, owner)

/-- Whether an executor's report keeps to the bounds of a source observation. -/
def Observation.bounded (observation : Observation) : Bool :=
  byteLength observation.content ≤ 32768 &&
    observation.status.all (fun status => 100 ≤ status && status ≤ 599) &&
    observation.contentType.all (fun text => byteLength text ≤ 256) &&
    observation.title.all (fun text => byteLength text ≤ 512) &&
    observation.error.all (fun text => text ≠ [] && byteLength text ≤ 512) &&
    observation.redirectTo.all (fun text => byteLength text ≤ 2048) &&
    !(observation.error.isSome && observation.content ≠ []) &&
    !(observation.redirectTo.isSome &&
      (!observation.status.any (fun status => 300 ≤ status && status ≤ 399) ||
        observation.content ≠ [])) &&
    !(observation.error.isNone && observation.status.isNone)

/-- The receipt under which a fetch was authorized, from the same host in the same turn. -/
def ToolStore.Fetches (node receipt : Uuid) : Prop :=
  ∃ call ∈ store.receipts.lookup receipt, ∃ turn ∈ store.turns.lookup receipt,
    call.agent = caller.agent ∧ call.node = node ∧ call.tool = "web_fetch" ∧
    call.policyRevision = caller.revision ∧ turn.message = caller.turn.message ∧
    turn.conversation = caller.turn.conversation ∧ turn.generation = caller.turn.generation ∧
    store.world.Hosts node caller.agent

instance (node receipt : Uuid) : Decidable (store.Fetches caller node receipt) := by
  unfold ToolStore.Fetches
  infer_instance

/-- The store with a report on a fetch whose outcome was not reported yet. -/
def ToolStore.report (receipt : Uuid) (observation : Observation) (now : Int) : ToolStore :=
  { store with
    evidence := store.evidence.updateWhere
      (fun row => row.receipt = receipt && row.observation.isNone)
      (fun row => { row with
        observation := some observation
        observedAt := some now
        contentSha256 := observedDigest services.sha256 observation }) (fun _ => rfl) }

/-- `bots_agent_web_observe`: a report is not another call, and it is made once. -/
def botsAgentWebObserve (receipt : Uuid) (observation : Observation) :
    Result (ToolStore × Evidence) := do
  require (observation.bounded) (rejected "invalid bounded source observation")
  let node ← withNode store.world.fleet caller.keyHash
  ownerCheck store.world node caller.agent
  turnAliveCheck store.world.book caller.agent caller.turn (draws.clock 0)
  let current := store.world.policy caller.agent
  require (current.revision = caller.revision) (rejected "tool policy changed; reload access")
  require (store.Fetches caller node receipt)
    (rejected "source observation does not match authorized host and turn")
  let existing ← orFail (store.evidence.lookup receipt) dbError
  match existing.observation with
  | some saved =>
    require (saved = observation) (rejected "source observation is immutable")
    return (store, existing)
  | none =>
    let store := store.report services receipt observation (draws.clock 1)
    let reported ← orFail (store.evidence.lookup receipt) dbError
    return (store, reported)

end Tools

section Operations

inductive ToolOp where
  | execute (call : AgentToolCall)
  | librarySave (vault : Uuid) (title findings : Text) (receipts : List Uuid)
  | webAuthorize (url : Text)
  | webPostAuthorize (url : Text) (body : PostBody)
  | webObserve (receipt : Uuid) (observation : Observation)
  | handoffCreate (target : AgentId) (taskOrQuestion acceptanceCriteria : String)
      (deadlineMinutes : Int)
  | handoffResolve (handoff : Uuid) (state : HandoffState) (summary : String)

structure ToolCall where
  caller : ToolCaller
  op : ToolOp
  draws : Draws

def ToolCall.reply (services : Services) (call : ToolCall) (store : ToolStore) :
    Result (ToolStore × ToolAnswer) :=
  match call.op with
  | .execute tool => botsAgentToolExecute services store call.caller call.draws tool
  | .librarySave vault title findings receipts =>
    Prod.map id .saved <$>
      botsAgentLibrarySave services store call.caller call.draws vault title findings receipts
  | .webAuthorize url =>
    Prod.map id .fetch <$> botsAgentWebAuthorize services store call.caller call.draws url
  | .webPostAuthorize url body =>
    Prod.map id .post <$> botsAgentWebPostAuthorize services store call.caller call.draws url body
  | .webObserve receipt observation =>
    Prod.map id .evidence <$>
      botsAgentWebObserve services store call.caller call.draws receipt observation
  | .handoffCreate target task criteria minutes =>
    Prod.map id .handoff <$>
      botsAgentHandoffCreate store call.caller call.draws target task criteria minutes
  | .handoffResolve handoff state summary =>
    Prod.map id .handoff <$>
      botsAgentHandoffResolve store call.caller call.draws handoff state summary

/-- A call, or whatever the rest of the hub does: leases that expire or are claimed again,
profiles that are archived or move, and policies, memberships and vaults that change. -/
inductive ToolEvent where
  | call (call : ToolCall)
  | elsewhere (world : World)

/-- A transaction that fails is rolled back. -/
def ToolStore.step (services : Services) (store : ToolStore) : ToolEvent → ToolStore
  | .call call =>
    match call.reply services store with
    | .ok (next, _) => next
    | .error _ => store
  | .elsewhere world => { store with world }

abbrev toolsAt (services : Services) (world : World) (events : List ToolEvent) (moment : Nat) :
    ToolStore :=
  stateAt (ToolStore.step services) (ToolStore.new world) events moment

end Operations

end OHHive.AgentTools
