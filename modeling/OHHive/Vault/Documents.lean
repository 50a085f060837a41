import OHHive.Coder.Wire
import OHHive.Foundation.Table

/-! The vaults of the local store: collections of documents, some written by hand and some
mirroring a folder. -/

namespace OHHive.Vault

open Foundation
open Coder (arrayOf byteLength record uuidText)

section Dates

/-- `str::trim`. -/
def trim (text : Text) : Text :=
  ((text.dropWhile isWhitespace).reverse.dropWhile isWhitespace).reverse

/-- `str::trim_matches` with one character. -/
def trimMatches (char : Char) (text : Text) : Text :=
  ((text.dropWhile (· = char)).reverse.dropWhile (· = char)).reverse

/-- The text before the first occurrence of a marker. -/
def before? (marker : Text) : Text → Option Text
  | [] => if marker = [] then some [] else none
  | char :: rest =>
    if marker.isPrefixOf (char :: rest) then some []
    else (before? marker rest).map (char :: ·)

/-- The formats that `chrono` reads, as Unix seconds: RFC 3339, `%Y-%m-%d %H:%M` and `%Y-%m-%d`. -/
structure DateFormats where
  rfc3339 : Text → Option Int
  minute : Text → Option Int
  day : Text → Option Int

/-- Formats that read nothing. -/
def noDates : DateFormats := ⟨fun _ => none, fun _ => none, fun _ => none⟩

variable (formats : DateFormats)

def parseDateValue (raw : Text) : Option Int :=
  let value := trimMatches '\'' (trimMatches '\"' (trim raw))
  if value = [] then none
  else
    let start := trim ((before? " - ".toList value).getD value)
    formats.rfc3339 start <|> formats.minute start <|> formats.day start

/-- The first line of a list that carries a readable date behind a key. -/
def dateOfLines (key : Text) (texts : List Text) : Option Int :=
  texts.findSome? fun line => (stripPrefix key (trim line)).bind (parseDateValue formats)

/-- The date of a front matter, else of a `Date:` line among the first sixty. -/
def extractDocumentDate (content : Text) : Option Int :=
  let fenced := (stripPrefix "---\n".toList content).bind (before? "\n---".toList)
  fenced.bind (fun front => dateOfLines formats "date:".toList (lines front)) <|>
    dateOfLines formats "Date:".toList ((lines content).take 60)

end Dates

section Rows

inductive VaultState where
  | unavailable
  | ready
deriving DecidableEq, Repr

structure VaultInfo where
  id : Uuid
  name : String
  state : VaultState
deriving DecidableEq, Repr

structure VaultDocument where
  id : Uuid
  vaultId : Uuid
  path : Text
  revision : Text
  title : Text
  content : Text
deriving DecidableEq, Repr

/-- A row of `vault_documents`: the document, and the date that a later migration added. -/
structure DocumentRow extends VaultDocument where
  documentDate : Option Int
deriving DecidableEq, Repr

/-- The folder a vault mirrors, with the number of its publications and failures. -/
structure VaultSource where
  vaultId : Uuid
  root : Text
  rootIdentity : Text
  generation : Int
  indexedAt : Option Int
  lastError : Option String
deriving DecidableEq, Repr

/-- The overlay that hides a document; `snapshot` is kept as the document it encodes. -/
structure VaultArchive where
  documentId : Uuid
  vaultId : Uuid
  revision : Text
  snapshot : Option VaultDocument
  archivedMs : Int
deriving DecidableEq, Repr

/-- The receipt of a managed source; an excluded one has no revision. -/
structure VaultIntake where
  vaultId : Uuid
  sourceId : Uuid
  generation : Int
  fingerprint : Text
  documentId : Uuid
  revision : Option Text
deriving DecidableEq, Repr

/-- The primary key, and one receipt per document. -/
def VaultIntake.Clash (earlier later : VaultIntake) : Prop :=
  earlier.vaultId = later.vaultId ∧ earlier.sourceId = later.sourceId ∨
    earlier.documentId = later.documentId

instance : DecidableRel VaultIntake.Clash := fun _ _ => inferInstanceAs (Decidable (_ ∧ _ ∨ _))

structure CurationEvent where
  vaultId : Uuid
  documentId : Uuid
  atMs : Int
  action : String
  revision : Text
  actor : String
  reason : String
deriving DecidableEq, Repr

structure MaintenancePolicy where
  enabled : Bool
  intervalSeconds : Nat
  staleAfterDays : Nat
  redundantSnapshotDays : Option Nat
  archiveQuotaBytes : Int
deriving DecidableEq, Repr

/-- What a maintenance pass found in a vault, and did. -/
structure MaintenanceResult where
  vaultId : Uuid
  finishedMs : Int
  outcome : String
  notes : Nat
  stale : Nat
  snapshotsExpired : Nat
  staleCandidates : List Uuid
  archiveBytes : Int
  overQuota : Bool
deriving DecidableEq, Repr

/-- The schedule of a vault's maintenance; a pass that is under way holds a token. -/
structure VaultMaintenance where
  vaultId : Uuid
  policy : MaintenancePolicy
  nextDueMs : Int
  token : Option Uuid
  leaseUntilMs : Int
  lastFinishedMs : Option Int
  lastResult : Option MaintenanceResult
deriving DecidableEq, Repr

/-- The primary key, and one document per path of a vault. -/
def DocumentRow.Clash (earlier later : DocumentRow) : Prop :=
  earlier.id = later.id ∨ earlier.vaultId = later.vaultId ∧ earlier.path = later.path

instance : DecidableRel DocumentRow.Clash := fun earlier later =>
  inferInstanceAs (Decidable (earlier.id = later.id ∨ _ ∧ _))

theorem DocumentRow.Clash.symm {earlier later : DocumentRow} (clash : earlier.Clash later) :
    later.Clash earlier :=
  clash.imp Eq.symm fun ⟨vault, path⟩ => ⟨vault.symm, path.symm⟩

structure VaultDb where
  vaults : Table VaultInfo (Table.SameKey VaultInfo.id)
  sources : Table VaultSource (Table.SameKey VaultSource.vaultId)
  documents : Table DocumentRow DocumentRow.Clash
  archives : Table VaultArchive (Table.SameKey VaultArchive.documentId)
  intake : Table VaultIntake VaultIntake.Clash
  events : List CurationEvent
  maintenance : Table VaultMaintenance (Table.SameKey VaultMaintenance.vaultId)

def VaultDb.empty : VaultDb :=
  ⟨Table.empty, Table.empty, Table.empty, Table.empty, Table.empty, [], Table.empty⟩

end Rows

section Reading

variable {db : VaultDb} {vault id : Uuid} {row : DocumentRow}

/-- The row of a document, if the vault has it. -/
def VaultDb.documentRow? (db : VaultDb) (vault id : Uuid) : Option DocumentRow :=
  db.documents.rows.find? fun row => row.vaultId = vault ∧ row.id = id

/-- `document`: the columns that a snapshot has. -/
def VaultDb.document? (db : VaultDb) (vault id : Uuid) : Option VaultDocument :=
  (db.documentRow? vault id).map DocumentRow.toVaultDocument

/-- Whether a folder writes the vault's documents. -/
def VaultDb.folderBacked (db : VaultDb) (vault : Uuid) : Bool := (db.sources.lookup vault).isSome

/-- `encode`, as `serde_json` writes the struct. -/
def VaultDocument.encode (document : VaultDocument) : Text :=
  (record
    [("id", .text (uuidText document.id)), ("vault_id", .text (uuidText document.vaultId)),
      ("path", .text document.path), ("revision", .text document.revision),
      ("title", .text document.title), ("content", .text document.content)]).print

/-- `digest`: SHA-256 of the UTF-8 bytes, in hexadecimal. -/
def digest (text : Text) : Text := Sha256.digest (text.flatMap String.utf8EncodeChar)

/-- The digest of a document's identity and texts. -/
def revisionOf (sha256 : Text → Text) (id : Uuid) (path title content : Text) : Text :=
  sha256 (arrayOf [.text (uuidText id), .text path, .text title, .text content]).print

/-- Two rows under one identity are the same row. -/
theorem VaultDb.eq_of_id (db : VaultDb) {first second : DocumentRow}
    (stored : first ∈ db.documents.rows) (kept : second ∈ db.documents.rows)
    (same : first.id = second.id) : first = second :=
  db.documents.eq_of_clash (fun _ _ => DocumentRow.Clash.symm) stored kept (Or.inl same)

theorem VaultDb.eq_of_path (db : VaultDb) {first second : DocumentRow}
    (stored : first ∈ db.documents.rows) (kept : second ∈ db.documents.rows)
    (vault : first.vaultId = second.vaultId) (path : first.path = second.path) : first = second :=
  db.documents.eq_of_clash (fun _ _ => DocumentRow.Clash.symm) stored kept (Or.inr ⟨vault, path⟩)

theorem VaultDb.documentRow?_eq_some_iff :
    db.documentRow? vault id = some row ↔
      row ∈ db.documents.rows ∧ row.vaultId = vault ∧ row.id = id := by
  constructor
  · intro found
    have selected := List.find?_some found
    exact ⟨List.mem_of_find?_eq_some found, by simpa using selected⟩
  · rintro ⟨stored, inVault, named⟩
    cases found : db.documentRow? vault id with
    | none =>
      have absent := List.find?_eq_none.mp found row stored
      exact absurd (decide_eq_true (And.intro inVault named)) absent
    | some other =>
      have kept := List.mem_of_find?_eq_some found
      have selected := List.find?_some found
      obtain ⟨_, sameId⟩ : other.vaultId = vault ∧ other.id = id := by simpa using selected
      rw [db.eq_of_id kept stored (sameId.trans named.symm)]

theorem VaultDb.documentRow?_eq_none_iff :
    db.documentRow? vault id = none ↔
      ∀ row ∈ db.documents.rows, row.vaultId = vault → row.id ≠ id := by
  simp [VaultDb.documentRow?, List.find?_eq_none]

theorem VaultDocument.encode_injective : Function.Injective VaultDocument.encode := by
  intro first second same
  have values := Json.print_injective same
  cases first
  cases second
  simpa [record, Coder.membersOf] using values

/-- Distinct documents have distinct texts under the digest. -/
theorem revisionOf_inj {sha256 : Text → Text} (distinct : Function.Injective sha256)
    {id other : Uuid} {path title content path' title' content' : Text} :
    revisionOf sha256 id path title content = revisionOf sha256 other path' title' content' ↔
      id = other ∧ path = path' ∧ title = title' ∧ content = content' := by
  rw [revisionOf, revisionOf, distinct.eq_iff, Json.print_injective.eq_iff, Coder.arrayOf_inj]
  simp

end Reading

section Writing

variable (sha256 : Text → Text) (formats : DateFormats)

/-- Whether a vault may hold a document under this path. -/
def pathOk (path : Text) : Bool :=
  path ≠ [] && byteLength path ≤ 4096 && !path.any (['\\', '\x00', ':'].contains ·) &&
    path.head? ≠ some '/' &&
    (path.splitOn '/').all (fun part => part ≠ [] && part ≠ ['.'] && part ≠ ['.', '.']) &&
    ".md".toList.isSuffixOf path

/-- `vault_create`, with the identity it mints. -/
def vaultCreate (db : VaultDb) (id : Uuid) (name : String) : Result VaultDb := do
  checkText name 200
  let vaults ← orFail (db.vaults.insert? ⟨id, name, .unavailable⟩) dbError
  return { db with vaults }

def VaultDb.setState (db : VaultDb) (vault : Uuid) (state : VaultState) : VaultDb :=
  { db with
    vaults := db.vaults.updateWhere (fun info => info.id = vault)
      (fun info => { info with state }) (fun _ => rfl) }

def vaultSetAvailable (db : VaultDb) (vault : Uuid) (available : Bool) : Result VaultDb := do
  require ((db.vaults.lookup vault).isSome) (rejected "vault not found")
  return db.setState vault (if available then .ready else .unavailable)

/-- `INSERT INTO vault_documents`: the vault must exist, and no stored row may clash. -/
def VaultDb.insertDocument (db : VaultDb) (row : DocumentRow) : Result VaultDb := do
  require ((db.vaults.lookup row.vaultId).isSome) dbError
  let documents ← orFail (db.documents.insert? row) dbError
  return { db with documents }

/-- `INSERT … ON CONFLICT(id) DO UPDATE`: everything but the vault is taken from the new row. -/
def VaultDb.upsertDocument (db : VaultDb) (row : DocumentRow) : Result VaultDb :=
  if db.documents.rows.any (·.id = row.id) then do
    let documents ← orFail (db.documents.rewrite? fun stored =>
      if stored.id = row.id then { row with vaultId := stored.vaultId } else stored) dbError
    return { db with documents }
  else
    db.insertDocument row

/-- A document written by hand, with the date its content carries. -/
def vaultPut (db : VaultDb) (vault id : Uuid) (path title content : Text) :
    Result (VaultDb × Text) := do
  require (pathOk path ∧ byteLength title ≤ 4096 ∧ byteLength content ≤ 4 * 1024 * 1024)
    (rejected "invalid vault document")
  let revision := revisionOf sha256 id path title content
  require (¬ db.folderBacked vault) (rejected "folder vault writes require reconciliation")
  require (∀ row ∈ db.documents.rows, row.id = id → row.vaultId = vault)
    (rejected "document belongs to another vault")
  let db ← db.upsertDocument
    ⟨⟨id, vault, path, revision, title, content⟩, extractDocumentDate formats content⟩
  return (db, revision)

def VaultDb.deleteDocument (db : VaultDb) (vault id : Uuid) : VaultDb :=
  { db with documents := db.documents.keep fun row => !(row.id = id ∧ row.vaultId = vault) }

def vaultRemoveDocument (db : VaultDb) (vault id : Uuid) : Result VaultDb := do
  require (¬ db.folderBacked vault) (rejected "folder vault writes require reconciliation")
  return db.deleteDocument vault id

theorem VaultDb.documentRow?_of_insertDocument {db next : VaultDb} {row : DocumentRow}
    (done : db.insertDocument row = .ok next) :
    next.documentRow? row.vaultId row.id = some row := by
  unfold VaultDb.insertDocument at done
  obtain ⟨_, _, done⟩ := bind_eq_ok_iff.mp done
  obtain ⟨documents, inserted, done⟩ := bind_eq_ok_iff.mp done
  rw [orFail_eq_ok_iff] at inserted
  rw [pure_eq_ok_iff] at done
  rw [VaultDb.documentRow?_eq_some_iff, ← done, Table.rows_of_insert? inserted]
  exact ⟨List.mem_append_right _ (List.mem_singleton_self _), rfl, rfl⟩

theorem VaultDb.documentRow?_deleteDocument (db : VaultDb) (vault id : Uuid) :
    (db.deleteDocument vault id).documentRow? vault id = none := by
  rw [VaultDb.documentRow?_eq_none_iff]
  intro row kept inVault named
  obtain ⟨_, differs⟩ := List.mem_filter.mp kept
  simp [inVault, named] at differs

/-- A write by hand is an upsert into a vault without a folder, under a document's own vault. -/
theorem vaultPut_ok {sha256 : Text → Text} {formats : DateFormats} {db next : VaultDb}
    {vault id : Uuid} {path title content revision : Text}
    (done : vaultPut sha256 formats db vault id path title content = .ok (next, revision)) :
    (∀ row ∈ db.documents.rows, row.id = id → row.vaultId = vault) ∧
      db.upsertDocument ⟨⟨id, vault, path, revisionOf sha256 id path title content, title, content⟩,
        extractDocumentDate formats content⟩ = .ok next := by
  unfold vaultPut at done
  obtain ⟨_, _, done⟩ := bind_eq_ok_iff.mp done
  obtain ⟨_, _, done⟩ := bind_eq_ok_iff.mp done
  obtain ⟨_, owned, done⟩ := bind_eq_ok_iff.mp done
  obtain ⟨written, upserted, done⟩ := bind_eq_ok_iff.mp done
  obtain ⟨rfl, _⟩ := Prod.mk.inj (pure_eq_ok_iff.mp done)
  exact ⟨require_eq_ok_iff.mp owned, upserted⟩

end Writing

end OHHive.Vault
