import Mathlib.Data.List.Sort
import OHHive.Vault.Documents

/-! Archiving and restoring. An archive hides a document and keeps a snapshot of it; restoring takes
the overlay away, and writes the document back if it is gone. The snapshot has no date, so a
document whose row carries one comes back without it. -/

namespace OHHive.Vault

open Foundation
open Coder (byteLength)

section Quota

def maxBytes : Int := 64 * 1024 * 1024

def dayMs : Int := 86400000

/-- `i64::saturating_add`. -/
def saturatingAdd (first second : Int) : Int := max (-i64Max - 1) (min i64Max (first + second))

/-- `MaintenancePolicy::default`: every snapshot is kept. -/
def MaintenancePolicy.default : MaintenancePolicy := ⟨false, 86400, 90, none, maxBytes⟩

variable (db : VaultDb) (vault : Uuid) (now : Int)

def policyOf : MaintenancePolicy :=
  ((db.maintenance.lookup vault).map VaultMaintenance.policy).getD .default

def VaultDocument.size (document : VaultDocument) : Int := byteLength document.encode

/-- The bytes of the snapshots that a vault's archives hold. -/
def archiveBytes : Int :=
  ((db.archives.rows.filter (·.vaultId = vault)).map fun archive =>
    (archive.snapshot.map VaultDocument.size).getD 0).sum

/-- `record`: an event of the curation history. -/
def VaultDb.recordEvent (db : VaultDb) (event : CurationEvent) : VaultDb :=
  { db with events := db.events ++ [event] }

def archiveOrder (first second : VaultArchive) : Prop :=
  first.archivedMs < second.archivedMs ∨
    first.archivedMs = second.archivedMs ∧ first.documentId.value ≤ second.documentId.value

instance : DecidableRel archiveOrder := fun _ _ => inferInstanceAs (Decidable (_ ∨ _))

/-- The aged snapshots of revisions that are still indexed, oldest first. -/
def expirable (cutoff : Int) : List VaultArchive :=
  ((db.archives.rows.filter fun archive =>
    archive.vaultId = vault && archive.snapshot.isSome && archive.archivedMs ≤ cutoff &&
      (db.document? vault archive.documentId).any (·.revision = archive.revision)).insertionSort
    archiveOrder).take 1000

def VaultDb.dropSnapshot (db : VaultDb) (vault id : Uuid) : VaultDb :=
  { db with
    archives := db.archives.updateWhere
      (fun archive => archive.documentId = id ∧ archive.vaultId = vault)
      (fun archive => { archive with snapshot := none }) (fun _ => rfl) }

/-- A snapshot is dropped where the very same text is still indexed. -/
def expireSnapshot (db : VaultDb) (archive : VaultArchive) : VaultDb :=
  if (db.document? vault archive.documentId).map VaultDocument.encode =
      archive.snapshot.map VaultDocument.encode then
    (db.dropSnapshot vault archive.documentId).recordEvent
      ⟨vault, archive.documentId, now, "expire_snapshot", archive.revision, "host-maintenance",
        "opt-in retention: identical indexed copy retained; archive overlay preserved"⟩
  else db

def expire (policy : MaintenancePolicy) : Result VaultDb := do
  let info ← orFail (db.vaults.lookup vault) dbError
  match info.state, policy.redundantSnapshotDays with
  | .ready, some days =>
    return (expirable db vault (saturatingAdd now (-(days * dayMs)))).foldl
      (expireSnapshot vault now) db
  | _, _ => return db

/-- Expired snapshots make way for one that does not fit. -/
def makeRoom (policy : MaintenancePolicy) (incoming : Int) : Result VaultDb :=
  if policy.archiveQuotaBytes < saturatingAdd (archiveBytes db vault) incoming then
    expire db vault now policy
  else .ok db

/-- Room for a snapshot within the quota. -/
def reserveArchive (incoming : Int) : Result VaultDb := do
  let policy := policyOf db vault
  require (¬ policy.archiveQuotaBytes < incoming)
    (rejected "snapshot exceeds configured archive quota")
  let db ← makeRoom db vault now policy incoming
  require (¬ policy.archiveQuotaBytes < saturatingAdd (archiveBytes db vault) incoming)
    (rejected "archive quota full; protected snapshots retained")
  return db

/-- Two stores that differ in their archives' snapshots and in their history at most. -/
def SameDocuments (before after : VaultDb) : Prop :=
  after.documents = before.documents ∧ after.sources = before.sources ∧
    after.vaults = before.vaults ∧ after.intake = before.intake

variable {db vault now}

theorem SameDocuments.trans {first second third : VaultDb} (earlier : SameDocuments first second)
    (later : SameDocuments second third) : SameDocuments first third := by
  obtain ⟨documents, sources, vaults, intake⟩ := earlier
  obtain ⟨documents', sources', vaults', intake'⟩ := later
  exact ⟨documents'.trans documents, sources'.trans sources, vaults'.trans vaults,
    intake'.trans intake⟩

theorem sameDocuments_expireSnapshot (db : VaultDb) (archive : VaultArchive) :
    SameDocuments db (expireSnapshot vault now db archive) := by
  unfold expireSnapshot
  split
  · exact ⟨rfl, rfl, rfl, rfl⟩
  · exact ⟨rfl, rfl, rfl, rfl⟩

theorem sameDocuments_foldl (archives : List VaultArchive) (db : VaultDb) :
    SameDocuments db (archives.foldl (expireSnapshot vault now) db) := by
  induction archives generalizing db with
  | nil => exact ⟨rfl, rfl, rfl, rfl⟩
  | cons archive rest ih => exact (sameDocuments_expireSnapshot db archive).trans (ih _)

theorem sameDocuments_expire {policy : MaintenancePolicy} {next : VaultDb}
    (done : expire db vault now policy = .ok next) : SameDocuments db next := by
  unfold expire at done
  obtain ⟨info, _, done⟩ := bind_eq_ok_iff.mp done
  split at done
  · rw [pure_eq_ok_iff] at done
    exact done ▸ sameDocuments_foldl _ db
  · rw [pure_eq_ok_iff] at done
    exact done ▸ ⟨rfl, rfl, rfl, rfl⟩

/-- Making room touches no document. -/
theorem sameDocuments_reserveArchive {incoming : Int} {next : VaultDb}
    (done : reserveArchive db vault now incoming = .ok next) : SameDocuments db next := by
  unfold reserveArchive at done
  obtain ⟨_, _, done⟩ := bind_eq_ok_iff.mp done
  obtain ⟨room, expired, done⟩ := bind_eq_ok_iff.mp done
  obtain ⟨_, _, done⟩ := bind_eq_ok_iff.mp done
  rw [pure_eq_ok_iff] at done
  subst done
  unfold makeRoom at expired
  split at expired
  · exact sameDocuments_expire expired
  · exact Except.ok.inj expired ▸ ⟨rfl, rfl, rfl, rfl⟩

end Quota

section Curation

/-- `attribution`: who acts, and why. -/
def attribution (actor reason : String) : Result Unit := do
  checkText actor 200
  checkText reason 2048

/-- Hides a document at the revision its reader saw, and keeps a snapshot of it. -/
def vaultArchive (db : VaultDb) (vault id : Uuid) (revision : Text) (actor reason : String)
    (now : Int) : Result VaultDb := do
  attribution actor reason
  let document ← orFail (db.document? vault id) (rejected "document not found")
  require (document.revision = revision) (rejected "document revision changed; review again")
  let db ← reserveArchive db vault now document.size
  require (¬ maxBytes < saturatingAdd (archiveBytes db vault) document.size)
    (rejected "archive exceeds 64 MiB per vault")
  let archives ← orFail
    (db.archives.insert? ⟨id, vault, revision, some document, now⟩) dbError
  return { db with archives }.recordEvent ⟨vault, id, now, "archive", revision, actor, reason⟩

/-- The archive of a document in a vault. -/
def VaultDb.archive? (db : VaultDb) (vault id : Uuid) : Option VaultArchive :=
  (db.archives.lookup id).filter (·.vaultId = vault)

/-- A document that is gone is written back from the snapshot: the columns it has, and no date. -/
def restoreDocument (db : VaultDb) (vault id : Uuid) (saved? : Option VaultDocument) :
    Option VaultDocument → Result VaultDb
  | some _ => .ok db
  | none => do
    let saved ← orFail saved? (rejected "snapshot expired")
    require (¬ db.folderBacked vault)
      (rejected "restore missing folder note at source before unarchiving")
    require (¬ db.intake.rows.any fun source =>
        source.vaultId = vault && source.documentId = id && source.revision = none)
      (rejected "excluded intake source requires a new intake generation")
    db.insertDocument ⟨⟨id, vault, saved.path, saved.revision, saved.title, saved.content⟩, none⟩

/-- Takes the overlay away from the revision that was reviewed. -/
def vaultRestore (db : VaultDb) (vault id : Uuid) (expected : Text) (actor reason : String)
    (now : Int) : Result VaultDb := do
  attribution actor reason
  let archive ← orFail (db.archive? vault id) (rejected "archive not found")
  let current := db.document? vault id
  let document ← orFail (current <|> archive.snapshot)
    (rejected "retained snapshot expired and source missing")
  require (document.revision = expected) (rejected "restore revision changed; review again")
  let db ← restoreDocument db vault id archive.snapshot current
  let archives := db.archives.keep fun archive => !(archive.documentId = id ∧ archive.vaultId = vault)
  return { db with archives }.recordEvent ⟨vault, id, now, "restore", expected, actor, reason⟩

variable {db next : VaultDb} {vault id : Uuid} {revision : Text} {actor reason : String} {now : Int}

/-- Archiving makes room for the document that it hides, and stores its snapshot. -/
theorem vaultArchive_ok
    (done : vaultArchive db vault id revision actor reason now = .ok next) :
    ∃ document room archives, db.document? vault id = some document ∧
      reserveArchive db vault now document.size = .ok room ∧
      room.archives.insert? ⟨id, vault, revision, some document, now⟩ = some archives ∧
      { room with archives }.recordEvent ⟨vault, id, now, "archive", revision, actor, reason⟩ =
        next := by
  unfold vaultArchive at done
  obtain ⟨_, _, done⟩ := bind_eq_ok_iff.mp done
  obtain ⟨document, found, done⟩ := bind_eq_ok_iff.mp done
  obtain ⟨_, _, done⟩ := bind_eq_ok_iff.mp done
  obtain ⟨room, reserved, done⟩ := bind_eq_ok_iff.mp done
  obtain ⟨_, _, done⟩ := bind_eq_ok_iff.mp done
  obtain ⟨archives, inserted, done⟩ := bind_eq_ok_iff.mp done
  rw [orFail_eq_ok_iff] at found inserted
  exact ⟨document, room, archives, found, reserved, inserted, pure_eq_ok_iff.mp done⟩

/-- Restoring finds the archive and a document at the reviewed revision, which it writes back
where it is gone. -/
theorem vaultRestore_ok {expected : Text}
    (done : vaultRestore db vault id expected actor reason now = .ok next) :
    ∃ archive document written, db.archive? vault id = some archive ∧
      (db.document? vault id <|> archive.snapshot) = some document ∧
      document.revision = expected ∧
      restoreDocument db vault id archive.snapshot (db.document? vault id) = .ok written ∧
      { written with
        archives := written.archives.keep fun archive =>
          !(archive.documentId = id ∧ archive.vaultId = vault) }.recordEvent
        ⟨vault, id, now, "restore", expected, actor, reason⟩ = next := by
  unfold vaultRestore at done
  obtain ⟨_, _, done⟩ := bind_eq_ok_iff.mp done
  obtain ⟨archive, found, done⟩ := bind_eq_ok_iff.mp done
  obtain ⟨document, shown, done⟩ := bind_eq_ok_iff.mp done
  obtain ⟨_, reviewed, done⟩ := bind_eq_ok_iff.mp done
  obtain ⟨written, restored, done⟩ := bind_eq_ok_iff.mp done
  rw [orFail_eq_ok_iff] at found shown
  exact ⟨archive, document, written, found, shown, require_eq_ok_iff.mp reviewed, restored,
    pure_eq_ok_iff.mp done⟩

/-- What archiving leaves: the documents as they were, and the snapshot of the one it hides. -/
theorem archived_of_vaultArchive
    (done : vaultArchive db vault id revision actor reason now = .ok next) :
    SameDocuments db next ∧ ∃ document, db.document? vault id = some document ∧
      next.archive? vault id = some ⟨id, vault, revision, some document, now⟩ := by
  obtain ⟨document, room, archives, found, reserved, inserted, rfl⟩ := vaultArchive_ok done
  have kept : SameDocuments db room := sameDocuments_reserveArchive reserved
  refine ⟨kept, document, found, ?_⟩
  have stored : archives.lookup id = some ⟨id, vault, revision, some document, now⟩ := by
    rw [Table.lookup_insert? inserted, if_pos rfl]
  simp [VaultDb.archive?, VaultDb.recordEvent, stored]

/-- Restoring a document that is gone writes the snapshot back. -/
theorem documentRow?_of_vaultRestore {archivedMs : Int} {saved : VaultDocument}
    {archivedRevision expected : Text} (gone : db.documentRow? vault id = none)
    (archived : db.archive? vault id =
      some ⟨id, vault, archivedRevision, some saved, archivedMs⟩)
    (done : vaultRestore db vault id expected actor reason now = .ok next) :
    next.documentRow? vault id =
      some ⟨⟨id, vault, saved.path, saved.revision, saved.title, saved.content⟩, none⟩ := by
  have absent : db.document? vault id = none := by rw [VaultDb.document?, gone, Option.map_none]
  obtain ⟨archive, _, written, found, _, _, restored, rfl⟩ := vaultRestore_ok done
  obtain rfl := Option.some.inj (archived.symm.trans found)
  rw [absent] at restored
  unfold restoreDocument at restored
  obtain ⟨document, retained, restored⟩ := bind_eq_ok_iff.mp restored
  rw [orFail_eq_ok_iff, Option.some.injEq] at retained
  subst retained
  obtain ⟨_, _, restored⟩ := bind_eq_ok_iff.mp restored
  obtain ⟨_, _, restored⟩ := bind_eq_ok_iff.mp restored
  exact VaultDb.documentRow?_of_insertDocument restored

end Curation

section RoundTrips

/-- A document is archived, its source removed, and the archive restored. -/
structure RoundTrip where
  row : DocumentRow
  start : VaultDb
  stored : row ∈ start.documents.rows
  revision : Text
  archivist : String
  cause : String
  archivedMs : Int
  archived : VaultDb
  archiving : vaultArchive start row.vaultId row.id revision archivist cause archivedMs = .ok archived
  removed : VaultDb
  removing : vaultRemoveDocument archived row.vaultId row.id = .ok removed
  expected : Text
  restorer : String
  reason : String
  restoredMs : Int
  restored : VaultDb
  restoring : vaultRestore removed row.vaultId row.id expected restorer reason restoredMs = .ok restored

/-- The row that a round trip ends with: the document it began with, without a date. -/
theorem RoundTrip.documentRow?_restored (trip : RoundTrip) :
    trip.restored.documentRow? trip.row.vaultId trip.row.id =
      some { trip.row with documentDate := none } := by
  have before : trip.start.documentRow? trip.row.vaultId trip.row.id = some trip.row :=
    VaultDb.documentRow?_eq_some_iff.mpr ⟨trip.stored, rfl, rfl⟩
  obtain ⟨_, document, found, archived⟩ := archived_of_vaultArchive trip.archiving
  rw [VaultDb.document?, before, Option.map_some, Option.some.injEq] at found
  have removing := trip.removing
  unfold vaultRemoveDocument at removing
  obtain ⟨_, _, removing⟩ := bind_eq_ok_iff.mp removing
  rw [pure_eq_ok_iff] at removing
  have gone : trip.removed.documentRow? trip.row.vaultId trip.row.id = none := by
    rw [← removing]
    exact VaultDb.documentRow?_deleteDocument trip.archived _ _
  have retained : trip.removed.archive? trip.row.vaultId trip.row.id =
      trip.archived.archive? trip.row.vaultId trip.row.id := by
    rw [← removing]
    rfl
  rw [documentRow?_of_vaultRestore gone (retained.trans archived) trip.restoring, ← found]

/-- The row comes back as it was exactly if it carries no date. -/
theorem restored_iff (trip : RoundTrip) :
    trip.restored.documentRow? trip.row.vaultId trip.row.id = some trip.row ↔
      trip.row.documentDate = none := by
  rw [trip.documentRow?_restored, Option.some.injEq]
  constructor
  · intro same
    rw [← same]
  · intro undated
    rw [← undated]

/-- A note with a date in its front matter is written, archived, removed and restored; its row before
and after. -/
def datedTrip : Result (Option DocumentRow × Option DocumentRow) := do
  let formats : DateFormats :=
    ⟨fun _ => none, fun _ => none, fun value =>
      if value = "2026-01-02".toList then some 1767312000 else none⟩
  let db ← vaultCreate .empty 1 "Meetings"
  let (db, revision) ← vaultPut digest formats db 1 2 "kickoff.md".toList "Kickoff".toList
    "---
date: 2026-01-02
---
# Kickoff
".toList
  let written := db.documentRow? 1 2
  let db ← vaultArchive db 1 2 revision "owner" "done with it" 1767400000000
  let db ← vaultRemoveDocument db 1 2
  let db ← vaultRestore db 1 2 revision "owner" "needed again" 1767500000000
  return (written, db.documentRow? 1 2)

theorem date_lost :
    datedTrip.map (fun (written, restored) =>
      (written.bind DocumentRow.documentDate, restored.map DocumentRow.documentDate,
        decide (restored = written))) =
      .ok (some 1767312000, some none, false) := by
  decide +kernel

end RoundTrips

end OHHive.Vault
