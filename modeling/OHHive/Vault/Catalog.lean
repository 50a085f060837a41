import Mathlib.Data.Char
import Mathlib.Data.List.Lex
import OHHive.Bots.Reading
import OHHive.Vault.Archive
import OHHive.Vault.Folder

/-! The catalog of the vaults: what its readers see, what the curation scan considers, and the
transactions that write, hide and delete documents. -/

namespace OHHive.Vault

open Foundation
open Bots (ftsQuery)
open Coder (byteLength)

section Store

/-- When the index saw a document; the triggers on `vault_documents` keep it. -/
structure VaultObservation where
  vaultId : Uuid
  revision : Text
  path : Text
  firstObservedMs : Int
  changedMs : Int
  isPresent : Bool
deriving DecidableEq, Repr

/-- The vaults with the nodes that were granted to read them, and the observations by document. -/
structure Catalog where
  db : VaultDb
  nodes : List Uuid
  readers : List (Uuid × Uuid)
  observations : Uuid → Option VaultObservation

def Catalog.empty : Catalog := ⟨.empty, [], [], fun _ => none⟩

/-- `strftime('%s','now')` in milliseconds. -/
def wholeSeconds (now : Int) : Int := now / 1000 * 1000

/-- `vault_observe_insert`. -/
def observeInsert (row : DocumentRow) (now : Int) (seen : Option VaultObservation) :
    Option VaultObservation :=
  match seen with
  | none => some ⟨row.vaultId, row.revision, row.path, wholeSeconds now, wholeSeconds now, true⟩
  | some seen =>
    some { seen with
      vaultId := row.vaultId
      revision := row.revision
      path := row.path
      changedMs := wholeSeconds now
      isPresent := true }

/-- `vault_observe_update`, for a row whose revision changed. -/
def observeUpdate (old row : DocumentRow) (now : Int) (seen : Option VaultObservation) :
    Option VaultObservation :=
  if old.revision = row.revision then seen
  else seen.map fun seen =>
    { seen with
      revision := row.revision
      path := row.path
      changedMs := wholeSeconds now
      isPresent := true }

/-- `vault_observe_delete`. -/
def observeDelete (seen : Option VaultObservation) : Option VaultObservation :=
  seen.map fun seen => { seen with isPresent := false }

/-- The triggers of a statement that left the second documents in place of the first. -/
def observe (before after : List DocumentRow) (now : Int)
    (observations : Uuid → Option VaultObservation) (id : Uuid) : Option VaultObservation :=
  match before.find? (·.id = id), after.find? (·.id = id) with
  | none, none => observations id
  | none, some row => observeInsert row now (observations id)
  | some old, some row => observeUpdate old row now (observations id)
  | some _, none => observeDelete (observations id)

/-- The catalog after a transaction on its vaults. -/
def Catalog.write (catalog : Catalog) (now : Int) (db : VaultDb) : Catalog :=
  { catalog with
    db
    observations :=
      observe catalog.db.documents.rows db.documents.rows now catalog.observations }

end Store

section Administration

/-- The rest of `vault_delete`: the grants go with the vault. -/
def Catalog.delete (catalog : Catalog) (vault : Uuid) (now : Int) : Result Catalog := do
  let db ← vaultDelete catalog.db vault
  return { catalog.write now db with readers := catalog.readers.filter (·.1 ≠ vault) }

def vaultGrant (catalog : Catalog) (vault node : Uuid) (enabled : Bool) : Result Catalog := do
  if enabled then
    if (vault, node) ∈ catalog.readers then return catalog
    else
      require ((catalog.db.vaults.lookup vault).isSome ∧ node ∈ catalog.nodes) dbError
      return { catalog with readers := catalog.readers ++ [(vault, node)] }
  else return { catalog with readers := catalog.readers.filter (· ≠ (vault, node)) }

def MaintenancePolicy.validate (policy : MaintenancePolicy) : Result Unit :=
  require ((60 ≤ policy.intervalSeconds ∧ policy.intervalSeconds ≤ 2592000) ∧
      (1 ≤ policy.staleAfterDays ∧ policy.staleAfterDays ≤ 3650) ∧
      (∀ days ∈ policy.redundantSnapshotDays, 1 ≤ days ∧ days ≤ 3650) ∧
      1024 ≤ policy.archiveQuotaBytes ∧ policy.archiveQuotaBytes ≤ maxBytes)
    (rejected "invalid maintenance policy")

/-- A new schedule needs its vault; a new policy takes the token from a pass that is under way. -/
def vaultConfigureMaintenance (db : VaultDb) (vault : Uuid) (policy : MaintenancePolicy)
    (now : Int) : Result VaultDb := do
  policy.validate
  if (db.maintenance.lookup vault).isSome then
    return { db with
      maintenance := db.maintenance.updateWhere (fun row => row.vaultId = vault)
        (fun row => { row with policy, nextDueMs := now, token := none, leaseUntilMs := 0 })
        (fun _ => rfl) }
  else
    require ((db.vaults.lookup vault).isSome) dbError
    let maintenance ← orFail
      (db.maintenance.insert? ⟨vault, policy, now, none, 0, none, none⟩) dbError
    return { db with maintenance }

variable {db next : VaultDb} {vault : Uuid} {policy : MaintenancePolicy} {now : Int}

/-- Only the schedule of the vault is configured: it is due, and held by no pass. -/
structure Configured (db next : VaultDb) (vault : Uuid) (policy : MaintenancePolicy) (now : Int) :
    Prop where
  valid : policy.validate = .ok ()
  known : (db.vaults.lookup vault).isSome ∨ (db.maintenance.lookup vault).isSome
  rest : next = { db with maintenance := next.maintenance }
  row : ∃ finished result,
    next.maintenance.lookup vault = some ⟨vault, policy, now, none, 0, finished, result⟩
  others : ∀ other, other ≠ vault → next.maintenance.lookup other = db.maintenance.lookup other

theorem configured_of_vaultConfigureMaintenance
    (done : vaultConfigureMaintenance db vault policy now = .ok next) :
    Configured db next vault policy now := by
  unfold vaultConfigureMaintenance at done
  obtain ⟨_, valid, done⟩ := bind_eq_ok_iff.mp done
  by_cases present : (db.maintenance.lookup vault).isSome
  · rw [if_pos present] at done
    obtain rfl := pure_eq_ok_iff.mp done
    obtain ⟨row, stored⟩ := Option.isSome_iff_exists.mp present
    have named : row.vaultId = vault := Table.key_of_lookup stored
    refine ⟨valid, Or.inr present, rfl, ⟨row.lastFinishedMs, row.lastResult, ?_⟩, ?_⟩
    · rw [Table.lookup_updateWhere, stored]
      simp [named]
    · intro other differs
      rw [Table.lookup_updateWhere]
      cases found : db.maintenance.lookup other with
      | none => rfl
      | some held =>
        have own : held.vaultId = other := Table.key_of_lookup found
        simp [own, differs]
  · rw [if_neg present] at done
    obtain ⟨_, known, done⟩ := bind_eq_ok_iff.mp done
    obtain ⟨maintenance, inserted, done⟩ := bind_eq_ok_iff.mp done
    rw [require_eq_ok_iff] at known
    rw [orFail_eq_ok_iff] at inserted
    obtain rfl := pure_eq_ok_iff.mp done
    refine ⟨valid, Or.inl known, rfl, ⟨none, none, ?_⟩, ?_⟩
    · rw [Table.lookup_insert? inserted, if_pos rfl]
    · intro other differs
      rw [Table.lookup_insert? inserted, if_neg (Ne.symm differs)]

end Administration

section Readers

/-- `vault_access`: the vault must be granted to the node, and ready where documents are read. -/
def vaultAccess (catalog : Catalog) (node vault : Uuid) (requireReady : Bool) :
    Result VaultInfo := do
  require ((vault, node) ∈ catalog.readers) (rejected "vault not available to this node")
  let info ← orFail (catalog.db.vaults.lookup vault) (rejected "vault not available to this node")
  require (requireReady → info.state = .ready) (.transport "vault unavailable")
  return info

/-- The rows of a vault that no archive of the same vault hides. -/
def visibleRows (db : VaultDb) (vault : Uuid) : List DocumentRow :=
  db.documents.rows.filter fun row =>
    row.vaultId = vault && !db.archives.rows.any fun archive =>
      archive.documentId = row.id && archive.vaultId = row.vaultId

def vaultRead (catalog : Catalog) (node vault id : Uuid) (revision : Text) :
    Result VaultDocument := do
  let _ ← vaultAccess catalog node vault true
  let row ← orFail ((visibleRows catalog.db vault).find? (·.id = id))
    (rejected "document not found")
  require (row.revision = revision) (rejected "document revision changed; search again")
  return row.toVaultDocument

structure VaultHit where
  id : Uuid
  path : Text
  revision : Text
  title : Text
  snippet : Text
  documentDate : Option Int
deriving DecidableEq, Repr

/-- `ORDER BY title,path`. -/
def listOrder (first second : DocumentRow) : Prop :=
  first.title < second.title ∨ first.title = second.title ∧ first.path ≤ second.path

instance : DecidableRel listOrder := fun _ _ => inferInstanceAs (Decidable (_ ∨ _))

def listHit (row : DocumentRow) : VaultHit :=
  ⟨row.id, row.path, row.revision, row.title, row.content.take 96, row.documentDate⟩

def vaultListDocuments (catalog : Catalog) (node vault : Uuid) (limit : Nat) :
    Result (List VaultHit) := do
  require (1 ≤ limit ∧ limit ≤ 1000) (rejected "list limit must be 1..1000")
  let _ ← vaultAccess catalog node vault true
  return (((visibleRows catalog.db vault).insertionSort listOrder).take limit).map listHit

/-- What the full-text index answers: whether an expression matches a document, the snippet it
shows, and the rank of a document among all that are indexed. -/
structure VaultIndex where
  isMatch : String → DocumentRow → Bool
  snippet : String → DocumentRow → Text
  ranked : List DocumentRow → String → DocumentRow → DocumentRow → Bool

variable (index : VaultIndex)

def searchHit (query : String) (row : DocumentRow) : VaultHit :=
  ⟨row.id, row.path, row.revision, row.title, index.snippet query row, row.documentDate⟩

def vaultSearch (catalog : Catalog) (node vault : Uuid) (query : String) (limit : Nat) :
    Result (List VaultHit) := do
  checkText query 2048
  require (1 ≤ limit ∧ limit ≤ 100) (rejected "search limit must be 1..100")
  let query := ftsQuery query
  let _ ← vaultAccess catalog node vault true
  let found := (visibleRows catalog.db vault).filter (index.isMatch query)
  return ((found.mergeSort (index.ranked catalog.db.documents.rows query)).take limit).map
    (searchHit index query)

end Readers

section Curation

def maxDocuments : Nat := 10000

structure CurationNote where
  id : Uuid
  revision : Text
  path : Text
  changedMs : Int
  folderBacked : Bool
deriving DecidableEq, Repr

structure CurationReport where
  notes : List CurationNote
  stale : List Uuid
  observedAtMs : Int
  vaultState : VaultState
  staleAfterDays : Nat
deriving DecidableEq, Repr

/-- The rows of a vault that no archive hides, whichever vault the archive is of. -/
def curatedRows (db : VaultDb) (vault : Uuid) : List DocumentRow :=
  db.documents.rows.filter fun row =>
    row.vaultId = vault && !db.archives.rows.any fun archive => archive.documentId = row.id

/-- A curated row joined to its observation. -/
def curationNote (catalog : Catalog) (row : DocumentRow) : Option CurationNote :=
  (catalog.observations row.id).map fun seen =>
    ⟨row.id, row.revision, row.path, seen.changedMs, catalog.db.folderBacked row.vaultId⟩

/-- `i64::saturating_sub`. -/
def saturatingSub (first second : Int) : Int := max (-i64Max - 1) (min i64Max (first - second))

/-- `curation_scan_at`, up to its comparison of the contents. -/
def curationScanAt (catalog : Catalog) (vault : Uuid) (days : Nat) (observedAt : Int) :
    Result CurationReport := do
  require (1 ≤ days ∧ days ≤ 3650) (rejected "staleness must be 1..3650 days")
  let info ← orFail (catalog.db.vaults.lookup vault) (rejected "vault not found")
  let rows := curatedRows catalog.db vault
  require (¬ (maxDocuments < rows.length ∨
      maxBytes < (rows.map fun row => (byteLength row.content : Int)).sum))
    (rejected "curation corpus exceeds 10000 notes or 64 MiB")
  let notes := (rows.insertionSort (fun first second => first.id.value ≤ second.id.value)).filterMap
    (curationNote catalog)
  return {
    notes
    stale := (notes.filter fun note =>
      (days : Int) * dayMs ≤ saturatingSub observedAt note.changedMs).map CurationNote.id
    observedAtMs := observedAt
    vaultState := info.state
    staleAfterDays := days }

end Curation

section Operations

variable (sha256 : Text → Text) (formats : DateFormats)

/-- One transaction of the host on its vaults. -/
inductive CatalogOp where
  | enroll (node : Uuid)
  | create (vault : Uuid) (name : String)
  | setAvailable (vault : Uuid) (available : Bool)
  | grant (vault node : Uuid) (enabled : Bool)
  | configureMaintenance (vault : Uuid) (policy : MaintenancePolicy)
  | put (vault id : Uuid) (path title content : Text)
  | removeDocument (vault id : Uuid)
  | archive (vault id : Uuid) (revision : Text) (actor reason : String)
  | restore (vault id : Uuid) (expected : Text) (actor reason : String)
  | delete (vault : Uuid)

structure CatalogEvent where
  op : CatalogOp
  now : Int

def CatalogEvent.reply (event : CatalogEvent) (catalog : Catalog) : Result Catalog :=
  let db := catalog.db
  match event.op with
  | .enroll node => .ok { catalog with nodes := catalog.nodes ++ [node] }
  | .create vault name => catalog.write event.now <$> vaultCreate db vault name
  | .setAvailable vault available =>
    catalog.write event.now <$> vaultSetAvailable db vault available
  | .grant vault node enabled => vaultGrant catalog vault node enabled
  | .configureMaintenance vault policy =>
    catalog.write event.now <$> vaultConfigureMaintenance db vault policy event.now
  | .put vault id path title content =>
    (catalog.write event.now ∘ Prod.fst) <$> vaultPut sha256 formats db vault id path title content
  | .removeDocument vault id => catalog.write event.now <$> vaultRemoveDocument db vault id
  | .archive vault id revision actor reason =>
    catalog.write event.now <$> vaultArchive db vault id revision actor reason event.now
  | .restore vault id expected actor reason =>
    catalog.write event.now <$> vaultRestore db vault id expected actor reason event.now
  | .delete vault => catalog.delete vault event.now

/-- A transaction that fails is rolled back. -/
def Catalog.step (catalog : Catalog) (event : CatalogEvent) : Catalog :=
  match event.reply sha256 formats catalog with
  | .ok next => next
  | .error _ => catalog

abbrev catalogAt (events : List CatalogEvent) (moment : Nat) : Catalog :=
  stateAt (Catalog.step sha256 formats) Catalog.empty events moment

end Operations

end OHHive.Vault
