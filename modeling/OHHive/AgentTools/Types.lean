import OHHive.Fleet.Enrollment
import OHHive.Vault.Catalog

/-! The tools of an agent: what its owner granted, the calls it can make, and the receipts, turns
and evidence that the hub keeps of them. -/

namespace OHHive.AgentTools

open Foundation
open Bots (AgentId ConversationId MessageId RoomBook)

section Grants

/-- What the owner of an agent saved for its tools. -/
structure AgentToolPolicy where
  revision : Nat
  readableVaults : List Uuid
  writableVaults? : Option (List Uuid)
  webHosts? : Option (List Text)
  webPostHosts? : Option (List Text)
  handoffTargets? : Option (List AgentId)
deriving DecidableEq, Repr

namespace AgentToolPolicy

def default : AgentToolPolicy := ⟨0, [], none, none, none, none⟩

variable (policy : AgentToolPolicy)

def writableVaults : List Uuid := policy.writableVaults?.getD []

def webHosts : List Text := policy.webHosts?.getD []

def webPostHosts : List Text := policy.webPostHosts?.getD []

def handoffTargets : List AgentId := policy.handoffTargets?.getD []

end AgentToolPolicy

/-- `str::strip_suffix`. -/
def stripSuffix (marker text : Text) : Option Text :=
  if marker.isSuffixOf text then some (text.take (text.length - marker.length)) else none

/-- A host is allowed when it is an entry or a subdomain of one. -/
def hostAllowed (allow : List Text) (host : Text) : Bool :=
  allow.any fun entry =>
    host = entry || (stripSuffix entry host).any fun rest => rest.getLast? = some '.'

/-- The parts of a parsed URL that the hub looks at. -/
structure Url where
  scheme : Text
  username : Text
  password : Option Text
  host : Option Text
deriving DecidableEq, Repr

def isLoopback (host : Text) : Bool :=
  host = "127.0.0.1".toList || host = "localhost".toList

/-- The name under which a host is granted. -/
def effectiveHost (host : Text) : Text := if isLoopback host then "localhost".toList else host

end Grants

section Posts

mutual

/-- The JSON of a post; a number is kept as it is written. -/
inductive PostBody where
  | null
  | bool (value : Bool)
  | number (literal : Text)
  | text (value : Text)
  | array (items : PostItems)
  | object (members : PostMembers)

inductive PostItems where
  | nil
  | cons (first : PostBody) (rest : PostItems)

inductive PostMembers where
  | nil
  | cons (key : Text) (value : PostBody) (rest : PostMembers)

end

mutual

/-- `serde_json::to_vec`. -/
def PostBody.print : PostBody → Text
  | .null => "null".toList
  | .bool true => "true".toList
  | .bool false => "false".toList
  | .number literal => literal
  | .text value => quote value
  | .array items => '[' :: items.print []
  | .object members => '\x7b' :: members.print []

def PostItems.print (separator : Text) : PostItems → Text
  | .nil => [']']
  | .cons first rest => separator ++ (first.print ++ rest.print [','])

def PostMembers.print (separator : Text) : PostMembers → Text
  | .nil => ['\x7d']
  | .cons key value rest =>
    separator ++ (quote key ++ ':' :: (value.print ++ rest.print [',']))

end

def secretPlaceholder : Text := "\x7b\x7bSECRET\x7d\x7d".toList

mutual

/-- Every text that is exactly the placeholder becomes the secret; keys are left alone. -/
def PostBody.walk (secret : Text) : PostBody → PostBody
  | .null => .null
  | .bool value => .bool value
  | .number literal => .number literal
  | .text value => .text (if value = secretPlaceholder then secret else value)
  | .array items => .array (items.walk secret)
  | .object members => .object (members.walk secret)

def PostItems.walk (secret : Text) : PostItems → PostItems
  | .nil => .nil
  | .cons first rest => .cons (first.walk secret) (rest.walk secret)

def PostMembers.walk (secret : Text) : PostMembers → PostMembers
  | .nil => .nil
  | .cons key value rest => .cons key (value.walk secret) (rest.walk secret)

end

def substituteSecret (body : PostBody) (secret : Option Text) : PostBody :=
  match secret with
  | none => body
  | some secret => body.walk secret

end Posts

section Calls

inductive HandoffState where
  | requested
  | accepted
  | rejected
  | inProgress
  | awaitingCorrection
  | completed
  | failed
  | expired
deriving DecidableEq, Repr

def HandoffState.isTerminal : HandoffState → Bool
  | .rejected | .completed | .failed | .expired => true
  | .requested | .accepted | .inProgress | .awaitingCorrection => false

inductive AgentToolCall where
  | vaultSearch (vault : Uuid) (query : String) (limit : Nat)
  | vaultRead (vault document : Uuid) (revision : Text)
  | vaultSave (vault : Uuid) (title findings : Text) (sourceReceipts : List Uuid)
  | webFetch (url : Text)
  | webPost (url : Text) (body : PostBody)
  | handoffCreate (target : AgentId) (taskOrQuestion acceptanceCriteria : String)
      (deadlineMinutes : Int)
  | handoffResolve (handoffId : Uuid) (state : HandoffState) (summary : String)

structure WebFetchGrant where
  receipt : Uuid
  url : Text
  host : Text
deriving DecidableEq, Repr

structure WebPostGrant where
  receipt : Uuid
  url : Text
  host : Text
  body : PostBody

structure LibraryHit where
  id : Uuid
  path : Text
  revision : Text
  title : Text
  snippet : Text
deriving DecidableEq, Repr

structure LibraryText where
  id : Uuid
  vault : Uuid
  path : Text
  revision : Text
  title : Text
  content : Text
  truncated : Bool
deriving DecidableEq, Repr

structure SavedFindings where
  document : Uuid
  vault : Uuid
  path : Text
  title : Text
  alreadySaved : Bool
deriving DecidableEq, Repr

end Calls

section Evidence

inductive Source where
  | web (url : Text)
  | library (vault document : Uuid) (revision : Text)
deriving DecidableEq, Repr

/-- What an executor reports of a source, less the text. -/
structure ObservationMeta where
  status : Option Nat
  contentType : Option Text
  title : Option Text
  truncated : Bool
  error : Option Text
  redirectTo : Option Text
deriving DecidableEq, Repr

structure Observation extends ObservationMeta where
  content : Text
deriving DecidableEq, Repr

structure Evidence where
  receipt : Uuid
  source : Source
  observation : Option Observation
  observedAt : Option Int
  contentSha256 : Option Text
deriving DecidableEq, Repr

/-- A source as the origin of saved findings lists it. -/
structure SourceRecord where
  receipt : Uuid
  source : Source
  observation : ObservationMeta
  recordedAt : Int
  contentSha256 : Option Text
deriving DecidableEq, Repr

structure Origin where
  agent : AgentId
  message : MessageId
  conversation : ConversationId
  generation : Nat
  policyRevision : Nat
  savedAt : Int
  sources : List SourceRecord
deriving DecidableEq, Repr

end Evidence

section Store

/-- The `vault` column names what the call was about: a vault, a host, an agent or a handoff. -/
structure ToolReceipt where
  id : Uuid
  agent : AgentId
  node : Uuid
  tool : String
  vault : Text
  policyRevision : Nat
  createdAt : Int
deriving DecidableEq, Repr

structure ToolTurn where
  receipt : Uuid
  message : MessageId
  conversation : ConversationId
  agent : AgentId
  generation : Nat
deriving DecidableEq, Repr

/-- The attempt a call belongs to. -/
def ToolTurn.attempt (turn : ToolTurn) : MessageId × AgentId × Nat :=
  (turn.message, turn.agent, turn.generation)

structure LibrarySave where
  agent : AgentId
  message : MessageId
  generation : Nat
  vault : Uuid
  document : Uuid
  payload : Text
  createdAt : Int
deriving DecidableEq, Repr

def LibrarySave.key (save : LibrarySave) : AgentId × MessageId × Nat × Uuid :=
  (save.agent, save.message, save.generation, save.vault)

/-- The tables that the rest of the hub writes as well. -/
structure World where
  book : RoomBook
  fleet : Fleet.FleetStore
  catalog : Vault.Catalog
  policies : AgentId → Option AgentToolPolicy
  secrets : AgentId → Text → Option Text
  handoffTarget : Uuid → Option AgentId
  saves : Table LibrarySave (Table.SameKey LibrarySave.key)

/-- The world with the tables that only the tools write. -/
structure ToolStore where
  world : World
  receipts : Table ToolReceipt (Table.SameKey ToolReceipt.id)
  turns : Table ToolTurn (Table.SameKey ToolTurn.receipt)
  evidence : Table Evidence (Table.SameKey Evidence.receipt)

def ToolStore.new (world : World) : ToolStore := ⟨world, Table.empty, Table.empty, Table.empty⟩

end Store

end OHHive.AgentTools
