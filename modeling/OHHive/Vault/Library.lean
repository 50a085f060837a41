import OHHive.Vault.Maintenance

/-! The library: the catalog with the tables that refer to its vaults, among them the projects and
the saved replies. Deleting a vault is modelled statement by statement, for the store checks every
foreign key at the end of a statement. -/

namespace OHHive.Vault

open Foundation
open Coder (uuidText)

section Tables

structure ProvenanceEvent where
  vaultId : Uuid
  documentId : Uuid
  atMs : Int
  kind : String
  revision : Text
  path : Text
deriving DecidableEq, Repr

structure Project where
  id : Uuid
  title : String
  goal : String
deriving DecidableEq, Repr

/-- The collection of a project; nothing deletes the link. -/
structure ProjectVault where
  projectId : Uuid
  vaultId : Uuid
deriving DecidableEq, Repr

def ProjectVault.Clash (earlier later : ProjectVault) : Prop :=
  earlier.projectId = later.projectId ∨ earlier.vaultId = later.vaultId

instance : DecidableRel ProjectVault.Clash := fun _ _ => inferInstanceAs (Decidable (_ ∨ _))

/-- A row of `bots_library_saves`; it goes with its document, and with its vault. -/
structure LibrarySave where
  message : Uuid
  vault : Uuid
  document : Uuid
  owner : Uuid
  node : Uuid
  createdAt : Int
deriving DecidableEq, Repr

def LibrarySave.Clash (earlier later : LibrarySave) : Prop :=
  earlier.message = later.message ∧ earlier.vault = later.vault ∨ earlier.document = later.document

instance : DecidableRel LibrarySave.Clash := fun _ _ => inferInstanceAs (Decidable (_ ∧ _ ∨ _))

/-- The turn and the collection that an agent saved findings of, and in. -/
structure SaveKey where
  agent : Uuid
  message : Uuid
  generation : Int
  vault : Uuid
deriving DecidableEq, Repr

/-- A row of `bots_agent_library_saves`; it goes with its document, but not with its vault. -/
structure AgentLibrarySave where
  key : SaveKey
  document : Uuid
  payload : Text
  createdAt : Int
deriving DecidableEq, Repr

structure Library where
  catalog : Catalog
  provenance : List ProvenanceEvent
  paired : List Uuid
  projects : Table Project (Table.SameKey Project.id)
  projectVaults : Table ProjectVault ProjectVault.Clash
  saves : Table LibrarySave LibrarySave.Clash
  agentSaves : Table AgentLibrarySave (Table.SameKey AgentLibrarySave.key)

def Library.empty : Library :=
  ⟨.empty, [], [], Table.empty, Table.empty, Table.empty, Table.empty⟩

def Library.db (library : Library) : VaultDb := library.catalog.db

def Library.hasVault (library : Library) (vault : Uuid) : Bool :=
  (library.db.vaults.lookup vault).isSome

end Tables

section Triggers

/-- What the triggers on `vault_documents` append for a row. -/
def provenanceEvent (kind : String) (now : Int) (row : DocumentRow) : ProvenanceEvent :=
  ⟨row.vaultId, row.id, wholeSeconds now, kind, row.revision, row.path⟩

/-- The entry for a row that was inserted, or rewritten at another revision. -/
def writtenEvent (before : List DocumentRow) (now : Int) (row : DocumentRow) :
    Option ProvenanceEvent :=
  match before.find? (·.id = row.id) with
  | none => some (provenanceEvent "indexed" now row)
  | some old =>
    if old.revision = row.revision then none else some (provenanceEvent "revised" now row)

def provenanceOf (before after : List DocumentRow) (now : Int) : List ProvenanceEvent :=
  (before.filter fun row => !after.any (·.id = row.id)).map (provenanceEvent "source_removed" now) ++
    after.filterMap (writtenEvent before now)

/-- The library after a statement on its catalog: the triggers run, and the saves of documents that
are gone go too. -/
def Library.adopt (library : Library) (now : Int) (catalog : Catalog) : Library :=
  let documents := catalog.db.documents.rows
  { library with
    catalog
    provenance := library.provenance ++ provenanceOf library.db.documents.rows documents now
    saves := library.saves.keep fun save => documents.any (·.id = save.document)
    agentSaves := library.agentSaves.keep fun save => documents.any (·.id = save.document) }

def Library.write (library : Library) (now : Int) (db : VaultDb) : Library :=
  library.adopt now (library.catalog.write now db)

end Triggers

section Deletion

/-- No row holds a vault by a foreign key that does not cascade. -/
def Library.Unreferenced (library : Library) (vault : Uuid) : Prop :=
  (∀ row ∈ library.db.documents.rows, row.vaultId ≠ vault) ∧
    (∀ reader ∈ library.catalog.readers, reader.1 ≠ vault) ∧
    (∀ source ∈ library.db.sources.rows, source.vaultId ≠ vault) ∧
    (∀ receipt ∈ library.db.intake.rows, receipt.vaultId ≠ vault) ∧
    (∀ schedule ∈ library.db.maintenance.rows, schedule.vaultId ≠ vault) ∧
    (∀ link ∈ library.projectVaults.rows, link.vaultId ≠ vault) ∧
    ∀ save ∈ library.agentSaves.rows, save.key.vault ≠ vault

instance (library : Library) (vault : Uuid) : Decidable (library.Unreferenced vault) :=
  inferInstanceAs (Decidable (_ ∧ _))

/-- The vault itself goes, and the replies saved in it. -/
def Library.removeVault (library : Library) (vault : Uuid) : Library :=
  let catalog := library.catalog
  { library with
    catalog := { catalog with
      db := { catalog.db with vaults := catalog.db.vaults.keep (·.id ≠ vault) } }
    saves := library.saves.keep (·.vault ≠ vault) }

/-- `DELETE FROM vaults WHERE id=?1`. -/
def Library.deleteVaultRow (library : Library) (vault : Uuid) : Result Library := do
  require (library.Unreferenced vault) dbError
  return library.removeVault vault

/-- The rows that belong to a vault alone: its grants, its folder, its receipts, its schedule. -/
def Library.deleteBelongings (library : Library) (vault : Uuid) : Library :=
  let catalog := library.catalog
  let db := catalog.db
  { library with
    catalog := { catalog with
      readers := catalog.readers.filter (·.1 ≠ vault)
      db := { db with
        sources := db.sources.keep (·.vaultId ≠ vault)
        intake := db.intake.keep (·.vaultId ≠ vault)
        maintenance := db.maintenance.keep (·.vaultId ≠ vault) } } }

/-- `DELETE FROM vault_documents WHERE vault_id=?1`, with its triggers and cascades. -/
def Library.withoutDocuments (library : Library) (vault : Uuid) (now : Int) : Library :=
  let db := library.db
  library.write now { db with documents := db.documents.keep (·.vaultId ≠ vault) }

/-- `vault_delete`. -/
def Library.vaultDelete (library : Library) (vault : Uuid) (now : Int) : Result Library := do
  require (library.hasVault vault) (rejected "collection not found")
  ((library.withoutDocuments vault now).deleteBelongings vault).deleteVaultRow vault

end Deletion

section Operations

variable (sha256 : Text → Text) (formats : DateFormats)

/-- `INSERT OR IGNORE INTO vault_readers`. -/
def Catalog.grantAll (catalog : Catalog) (grants : List (Uuid × Uuid)) : Catalog :=
  { catalog with readers := catalog.readers ++ grants.filter (· ∉ catalog.readers) }

/-- `insert_project`: the project, its collection, and the grants of the paired computers. -/
def Library.createProject (library : Library) (project vault : Uuid) (title goal : String)
    (now : Int) : Result Library := do
  checkText title 500
  require (¬ 100000 < goal.utf8ByteSize) (rejected "goal too large")
  let projects ← orFail (library.projects.insert? ⟨project, title, goal⟩) dbError
  let vaults ← orFail (library.db.vaults.insert? ⟨vault, title, .unavailable⟩) dbError
  let projectVaults ← orFail (library.projectVaults.insert? ⟨project, vault⟩) dbError
  let library := library.write now { library.db with vaults }
  return { library with
    projects
    projectVaults
    catalog := library.catalog.grantAll (library.paired.map (vault, ·)) }

/-- Where a document that is saved from a chat comes from. -/
inductive SaveOrigin where
  | reply (message owner node : Uuid)
  | findings (agent message : Uuid) (generation : Int) (payload : Text)

def SaveOrigin.path : SaveOrigin → Text
  | .reply message _ _ => "agent-replies/".toList ++ uuidText message ++ ".md".toList
  | .findings agent message generation _ => "agent-findings/".toList ++ uuidText agent ++
      "/".toList ++ uuidText message ++ "-".toList ++ (toString generation).toList ++ ".md".toList

/-- The receipt of a save; it is written behind its document. -/
def Library.recordSave (library : Library) (origin : SaveOrigin) (vault document : Uuid)
    (now : Int) : Result Library :=
  match origin with
  | .reply message owner node => do
    let saves ← orFail (library.saves.insert? ⟨message, vault, document, owner, node, now⟩) dbError
    return { library with saves }
  | .findings agent message generation payload => do
    let agentSaves ← orFail (library.agentSaves.insert?
      ⟨⟨agent, message, generation, vault⟩, document, payload, now⟩) dbError
    return { library with agentSaves }

/-- Whether the same reply or turn was saved in the collection before, and the same findings. -/
def Library.saved (library : Library) (origin : SaveOrigin) (vault : Uuid) : Result Bool :=
  match origin with
  | .reply message owner _ =>
    return library.saves.rows.any fun save =>
      save.message = message && save.vault = vault && save.owner = owner
  | .findings agent message generation payload =>
    match library.agentSaves.lookup ⟨agent, message, generation, vault⟩ with
    | none => return false
    | some save => do
      require (save.payload = payload)
        (rejected "this attempt already saved different findings to this collection")
      return true

/-- The transaction of `bots_library_save` and of `bots_agent_library_save` on the library. -/
def Library.save (library : Library) (origin : SaveOrigin) (vault node document : Uuid)
    (title : String) (content : Text) (date : Option Int) (now : Int) : Result Library := do
  checkText title 200
  require ((vault, node) ∈ library.catalog.readers ∧ library.db.takesSaves vault)
    (rejected "choose an available manual collection shared with this computer")
  let saved ← library.saved origin vault
  if saved then return library
  else
    let db ← saveDocument sha256 library.db vault document origin.path title.toList content date
    (library.write now db).recordSave origin vault document now

/-- A transaction on the library. -/
inductive LibraryOp where
  | vault (op : CatalogOp)
  | write (write : VaultWrite)
  | claim (token : Uuid)
  | publish (claim : MaintenanceClaim) (scan : Option (Result CurationReport))
  | pair (node : Uuid)
  | revoke (node : Uuid)
  | reconcileGrants
  | createProject (project vault : Uuid) (title goal : String)
  | save (origin : SaveOrigin) (vault node document : Uuid) (title : String) (content : Text)
    (date : Option Int)

structure LibraryEvent where
  op : LibraryOp
  now : Int

def LibraryEvent.reply (event : LibraryEvent) (library : Library) : Result Library :=
  let now := event.now
  match event.op with
  | .vault (.delete vault) => library.vaultDelete vault now
  | .vault op => library.adopt now <$> CatalogEvent.reply sha256 formats ⟨op, now⟩ library.catalog
  | .write write =>
    (fun written => (written.1.foldl (Library.write · now) library).write now written.2) <$>
      write.reply sha256 library.db now
  | .claim token => (fun claimed => library.write now claimed.1) <$>
      claimMaintenance library.db token now
  | .publish claim scan => (fun published => library.write now published.1) <$>
      publishMaintenance library.db claim scan now
  | .pair node => do
    require (node ∈ library.catalog.nodes) dbError
    return { library with paired := library.paired.insert node }
  | .revoke node => .ok { library with paired := library.paired.filter (· ≠ node) }
  | .reconcileGrants =>
    let vaults := library.db.vaults.rows.map VaultInfo.id
    let grants := vaults.flatMap fun vault => library.paired.map (vault, ·)
    .ok { library with catalog := library.catalog.grantAll grants }
  | .createProject project vault title goal => library.createProject project vault title goal now
  | .save origin vault node document title content date =>
    library.save sha256 origin vault node document title content date now

/-- A transaction that fails is rolled back. -/
def Library.step (library : Library) (event : LibraryEvent) : Library :=
  match event.reply sha256 formats library with
  | .ok next => next
  | .error _ => library

abbrev libraryAt (events : List LibraryEvent) (moment : Nat) : Library :=
  stateAt (Library.step sha256 formats) Library.empty events moment

end Operations

end OHHive.Vault
