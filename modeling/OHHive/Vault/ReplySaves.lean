import OHHive.Vault.LibraryDeletion

/-! `bots_library_save`: the owner of a computer saves the reply of an agent as a document. The
library runs together with the conversations that its saved replies come from. -/

namespace OHHive.Vault

open Bots (AgentProfile Conversation ConversationId ConversationMember Message MessageId UserId)
open Coder (arrayOf byteLength optionalText record uuidText)
open Foundation

section Hub

/-- The library, the conversations, the messages that were edited or removed, and the owners that
computers have confirmed. -/
structure ReplyHub where
  library : Library
  chats : Bots.Store
  revised : List MessageId
  owners : Uuid → Option UserId

def ReplyHub.empty : ReplyHub := ⟨.empty, .empty, [], fun _ => none⟩

/-- One call of `bots_library_save`: what `with_node` answers about its caller, its arguments, the
identity the document would get, and what `reply_metadata` answers. The storage may fail before
the transaction commits. -/
structure ReplySave where
  caller : Result Uuid
  message : MessageId
  vault : Uuid
  title : String
  document : Uuid
  sources : Result (List Json)
  now : Int
  interrupted : Bool

/-- What the checks of a call have read. -/
structure Admission where
  node : Uuid
  owner : UserId
  row : Message
  profile : AgentProfile
  body : String
deriving DecidableEq

variable (hub : ReplyHub)

/-- The text of an agent of the owner, in a conversation of the owner. -/
def ReplyHub.sourceReply (owner : UserId) (message : MessageId) : Option (Message × AgentProfile) :=
  (hub.chats.message? message).bind fun row =>
    (hub.chats.conversation? row.conversationId).bind fun conversation =>
      match row.author with
      | .user _ => none
      | .agent id => (hub.chats.agent? id).bind fun profile =>
        if conversation.owner = owner ∧ profile.owner = owner ∧ row.kind = .text then
          some (row, profile)
        else none

/-- Whether the owner may read the conversation. -/
def ReplyHub.ownerReads (owner : UserId) (conversation : ConversationId) : Bool :=
  (hub.chats.member? conversation (.user owner)).any (·.allowedActions.contains .read)

/-- The checks of a call. -/
def ReplyHub.admit (call : ReplySave) : Result Admission := do
  checkText call.title 200
  let node ← call.caller
  let owner ← orFail (hub.owners node) (rejected "Private Fleet owner is required")
  require ((call.vault, node) ∈ hub.library.catalog.readers ∧ hub.library.db.takesSaves call.vault)
    (rejected "choose an available manual collection shared with this computer")
  let source ← orFail (hub.sourceReply owner call.message)
    (rejected "saved agent reply not found for this owner")
  let body ← orFail source.1.body dbError
  require (hub.ownerReads owner source.1.conversationId)
    (rejected "conversation read access required")
  require (call.message ∉ hub.revised)
    (rejected "edited or removed replies cannot be saved by this action")
  return ⟨node, owner, source.1, source.2, body⟩

/-- The document that the reply was saved as in the vault before. -/
def ReplyHub.saved? (owner : UserId) (message : MessageId) (vault : Uuid) : Option DocumentRow :=
  (hub.library.saves.rows.find? fun save =>
      save.message = message && save.vault = vault && save.owner = owner).bind fun save =>
    hub.library.db.documents.rows.find? (·.id = save.document)

/-- A stored document as it is returned. -/
def DocumentRow.answer (row : DocumentRow) (vault : Uuid) : VaultDocument :=
  ⟨row.id, vault, row.path, row.revision, row.title, row.content⟩

end Hub

section Documents

/-- The digest, and `to_string_pretty`. -/
structure ReplyTexts where
  sha256 : Text → Text
  pretty : Json → Text

variable (texts : ReplyTexts)

/-- Where a saved reply comes from, by the names in their order. -/
def replyProvenance (call : ReplySave) (admission : Admission) (sources : List Json) : Json :=
  record [("agent", .text (uuidText admission.profile.id)),
    ("agent_name", .text admission.profile.name.toList),
    ("body_sha256", .text (texts.sha256 admission.body.toList)),
    ("conversation", .text (uuidText admission.row.conversationId)),
    ("message", .text (uuidText call.message)),
    ("reply_created_at", .number admission.row.createdAt),
    ("saved_at", .number (call.now / 1000)),
    ("source_event", optionalText (admission.row.sourceEventRef.map String.toList)),
    ("sources", arrayOf sources),
    ("turn", optionalText (admission.row.turnRef.map String.toList))]

/-- The text of a saved reply. -/
def replyContent (title body : Text) (provenance : Json) : Text :=
  "# ".toList ++ title ++ "\n\n## Saved agent reply\n\n".toList ++ body ++
    ("\n\n## Origin\n\nSaved by your explicit Library action. This is an agent reply, not " ++
      "independently verified research. Links and citations in the reply have not been " ++
      "verified by saving it.\n\n```json\n").toList ++ texts.pretty provenance ++ "\n```\n".toList

def replyPath (message : MessageId) : Text :=
  "agent-replies/".toList ++ uuidText message ++ ".md".toList

/-- The document that a first save writes. -/
def replyDocument (call : ReplySave) (admission : Admission) (sources : List Json) : DocumentRow :=
  let title := call.title.toList
  let path := replyPath call.message
  let content := replyContent texts title admission.body.toList
    (replyProvenance texts call admission sources)
  ⟨⟨call.document, call.vault, path, revisionOf texts.sha256 call.document path title content,
    title, content⟩, some admission.row.createdAt⟩

/-- The receipt that goes with it. -/
def replyReceipt (call : ReplySave) (admission : Admission) : LibrarySave :=
  ⟨call.message, call.vault, call.document, admission.owner, admission.node, call.now / 1000⟩

/-- A first save: the document, then its receipt. -/
def ReplyHub.store (hub : ReplyHub) (call : ReplySave) (admission : Admission) :
    Result (ReplyHub × VaultDocument) := do
  let body := admission.body.toList
  require (trim body ≠ [] ∧ byteLength body ≤ 65536)
    (rejected "reply has no bounded text to save")
  let sources ← call.sources
  let row := replyDocument texts call admission sources
  let db ← hub.library.db.insertDocument row
  let library ← (hub.library.write call.now db).recordSave
    (.reply call.message admission.owner admission.node) call.vault row.id (call.now / 1000)
  return ({ hub with library }, row.answer call.vault)

/-- `bots_library_save`. -/
def ReplyHub.botsLibrarySave (hub : ReplyHub) (call : ReplySave) :
    Result (ReplyHub × VaultDocument) := do
  let admission ← hub.admit call
  match hub.saved? admission.owner call.message call.vault with
  | some row => return (hub, row.answer call.vault)
  | none => hub.store texts call admission

/-- What a call does; a transaction that fails is rolled back. -/
def ReplyHub.outcome (hub : ReplyHub) (call : ReplySave) : Result (ReplyHub × VaultDocument) := do
  let done ← hub.botsLibrarySave texts call
  require (call.interrupted = false) dbError
  return done

end Documents

section Machine

variable (texts : ReplyTexts) (formats : DateFormats)

def LibraryOp.savesReply : LibraryOp → Bool
  | .save (.reply _ _ _) _ _ _ _ _ _ => true
  | _ => false

/-- A call, another transaction on the library, or a change of the conversations. Messages and
conversations are only added; profiles, memberships and owners change at will. -/
inductive ReplyEvent where
  | save (call : ReplySave)
  | library (event : LibraryEvent) (other : event.op.savesReply = false)
  | post (message : Message)
  | converse (conversation : Conversation)
  | staff (agents : Table AgentProfile (Table.SameKey AgentProfile.id))
      (members : Table ConversationMember (Table.SameKey ConversationMember.key))
  | revise (message : MessageId)
  | own (owners : Uuid → Option UserId)

def ReplyHub.step (hub : ReplyHub) : ReplyEvent → ReplyHub
  | .save call => ((hub.outcome texts call).map Prod.fst).toOption.getD hub
  | .library event _ => { hub with library := hub.library.step texts.sha256 formats event }
  | .post message => { hub with chats := (hub.chats.insertMessage message).toOption.getD hub.chats }
  | .converse conversation =>
    { hub with
      chats := { hub.chats with
        conversations :=
          (hub.chats.conversations.insert? conversation).getD hub.chats.conversations } }
  | .staff agents members => { hub with chats := { hub.chats with agents, members } }
  | .revise message => { hub with revised := message :: hub.revised }
  | .own owners => { hub with owners }

abbrev replyHubAt (events : List ReplyEvent) (moment : Nat) : ReplyHub :=
  stateAt (ReplyHub.step texts formats) .empty events moment

end Machine

end OHHive.Vault
