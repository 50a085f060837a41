import OHHive.Vault.Archive
import OHHive.Vault.Folder

/-! The other transactions that write vaults: renaming, folder scans, managed intake and the saving
of agents' replies. They leave archives and schedules alone, and every vault where it is. -/

namespace OHHive.Vault

open Foundation
open Coder (byteLength)

section Intake

variable (sha256 : Text → Text)

/-- What `prepare` makes of a source that is not excluded. -/
structure Prepared where
  path : Text
  title : Text
  content : Text
  documentDate : Option Int
deriving DecidableEq, Repr

structure IntakeReceipt where
  documentId : Uuid
  revision : Option Text
  unchanged : Bool
deriving DecidableEq, Repr

/-- `INSERT … ON CONFLICT(vault_id,source_id) DO UPDATE`. -/
def VaultDb.recordIntake (db : VaultDb) (receipt : VaultIntake) : Result VaultDb :=
  if db.intake.rows.any fun row =>
      row.vaultId = receipt.vaultId && row.sourceId = receipt.sourceId then
    .ok { db with
      intake := db.intake.update (fun row =>
        if row.vaultId = receipt.vaultId ∧ row.sourceId = receipt.sourceId then
          { row with
            generation := receipt.generation
            fingerprint := receipt.fingerprint
            revision := receipt.revision }
        else row) (by
          intro earlier later clash
          unfold VaultIntake.Clash at clash ⊢
          split at clash <;> split at clash <;> exact clash) }
  else do
    require ((db.vaults.lookup receipt.vaultId).isSome) dbError
    let intake ← orFail (db.intake.insert? receipt) dbError
    return { db with intake }

/-- The document of a source is written, or goes where the source is excluded. -/
def VaultDb.writePrepared (db : VaultDb) (vault id : Uuid) (revision : Text) :
    Option Prepared → Result VaultDb
  | some prepared => do
    let others := (db.documents.rows.filter fun row => row.vaultId = vault && row.id ≠ id).map
      fun row => (byteLength row.content : Int)
    require (¬ maxBytes < others.sum + byteLength prepared.content)
      (rejected "intake corpus limit reached")
    db.upsertDocument
      ⟨⟨id, vault, prepared.path, revision, prepared.title, prepared.content⟩,
        prepared.documentDate⟩
  | none => .ok (db.deleteDocument vault id)

/-- `vault_intake`, with the document identity of the source and the digest of the item. -/
def vaultIntake (db : VaultDb) (vault source id : Uuid) (generation : Int) (fingerprint : Text)
    (prepared? : Option Prepared) : Result (VaultDb × IntakeReceipt) := do
  require (0 < generation ∧ source ≠ ⟨0⟩) (rejected "invalid intake identity")
  let revision := prepared?.map fun prepared =>
    revisionOf sha256 id prepared.path prepared.title prepared.content
  require (¬ db.folderBacked vault) (rejected "managed intake requires a separate non-folder vault")
  let old := db.intake.rows.find? fun row => row.vaultId = vault ∧ row.sourceId = source
  let current := db.documents.rows.find? (·.id = id)
  require (current.map (fun row => row.revision) = old.bind VaultIntake.revision ∧
      ∀ row ∈ current, row.vaultId = vault)
    (rejected "managed document changed outside intake; review required")
  require (∀ earlier ∈ old, ¬ generation < earlier.generation)
    (rejected "stale intake generation")
  match old.filter (·.generation = generation) with
  | some earlier =>
    require (earlier.fingerprint = fingerprint) (rejected "conflicting intake generation")
    return (db, ⟨id, earlier.revision, true⟩)
  | none =>
    require (old = none → db.intake.rows.countP (·.vaultId = vault) < 10000)
      (rejected "intake source limit reached")
    let db ← db.writePrepared vault id (revision.getD []) prepared?
    let db ← db.recordIntake ⟨vault, source, generation, fingerprint, id, revision⟩
    return (db, ⟨id, revision, false⟩)

end Intake

section Others

variable (sha256 : Text → Text)

def vaultRename (db : VaultDb) (vault : Uuid) (name : String) : Result VaultDb := do
  checkText name 200
  require ((db.vaults.lookup vault).isSome) (rejected "collection not found")
  return { db with
    vaults := db.vaults.updateWhere (fun info => info.id = vault) (fun info => { info with name })
      (fun _ => rfl) }

/-- Whether a collection is ready, and written by hand. -/
def VaultDb.takesSaves (db : VaultDb) (vault : Uuid) : Bool :=
  (db.vaults.lookup vault).any (·.state = .ready) && !db.folderBacked vault

/-- The document that a saved reply becomes. -/
def saveDocument (db : VaultDb) (vault id : Uuid) (path title content : Text) (date : Option Int) :
    Result VaultDb := do
  require (db.takesSaves vault)
    (rejected "choose an available manual collection shared with this computer")
  db.insertDocument ⟨⟨id, vault, path, revisionOf sha256 id path title content, title, content⟩,
    date⟩

inductive VaultWrite where
  | rename (vault : Uuid) (name : String)
  | attach (vault : Uuid) (root rootIdentity : Text)
  | publish (vault : Uuid) (generation : Int) (removed : List Uuid)
      (inserted : List DocumentRow)
  | fail (vault : Uuid) (generation : Int)
  | reopen
  | intake (vault source id : Uuid) (generation : Int) (fingerprint : Text)
      (prepared? : Option Prepared)

/-- The stores that a transaction passes through, and the one it leaves. -/
def VaultWrite.reply (db : VaultDb) (now : Int) : VaultWrite → Result (List VaultDb × VaultDb)
  | .rename vault name => ([], ·) <$> vaultRename db vault name
  | .attach vault root rootIdentity => ([], ·) <$> vaultAttachFolder db vault root rootIdentity
  | .publish vault generation removed inserted =>
    (fun published => ([removed.foldl (fun db id => db.deleteDocument vault id) db],
      published.1)) <$> publishFolder db vault generation removed inserted now
  | .fail vault generation => .ok ([], failScan db vault generation)
  | .reopen => .ok ([], reopenVaults db)
  | .intake vault source id generation fingerprint prepared? =>
    (fun taken => ([], taken.1)) <$>
      vaultIntake sha256 db vault source id generation fingerprint prepared?

end Others

section Effects

variable {sha256 : Text → Text} {db next : VaultDb} {vault : Uuid}

/-- Vaults stay. -/
def VaultsStay (before after : VaultDb) : Prop :=
  ∀ vault, (before.vaults.lookup vault).isSome → (after.vaults.lookup vault).isSome

theorem VaultsStay.of_eq {before after : VaultDb} (same : after.vaults = before.vaults) :
    VaultsStay before after := by
  intro vault known
  rw [same]
  exact known

theorem rest_of_insertDocument {row : DocumentRow} (done : db.insertDocument row = .ok next) :
    next = { db with documents := next.documents } := by
  unfold VaultDb.insertDocument at done
  obtain ⟨_, _, done⟩ := bind_eq_ok_iff.mp done
  obtain ⟨documents, _, done⟩ := bind_eq_ok_iff.mp done
  obtain rfl := pure_eq_ok_iff.mp done
  rfl

theorem rest_of_upsertDocument {row : DocumentRow} (done : db.upsertDocument row = .ok next) :
    next = { db with documents := next.documents } := by
  unfold VaultDb.upsertDocument at done
  split at done
  · obtain ⟨documents, _, done⟩ := bind_eq_ok_iff.mp done
    obtain rfl := pure_eq_ok_iff.mp done
    rfl
  · exact rest_of_insertDocument done

theorem rest_of_insertAll {rows : List DocumentRow}
    (done : rows.foldlM VaultDb.insertDocument db = .ok next) :
    next = { db with documents := next.documents } := by
  induction rows generalizing db with
  | nil =>
    obtain rfl := pure_eq_ok_iff.mp done
    rfl
  | cons row rows ih =>
    rw [List.foldlM_cons] at done
    obtain ⟨first, inserted, done⟩ := bind_eq_ok_iff.mp done
    rw [ih done, rest_of_insertDocument inserted]

theorem rest_deleteAll (db : VaultDb) (vault : Uuid) (removed : List Uuid) :
    removed.foldl (fun db id => db.deleteDocument vault id) db =
      { db with
        documents := (removed.foldl (fun db id => db.deleteDocument vault id) db).documents } := by
  induction removed generalizing db with
  | nil => rfl
  | cons id removed ih =>
    rw [List.foldl_cons, ih]
    rfl

theorem vaultsStay_updateWhere {where? : VaultInfo → Bool} {change : VaultInfo → VaultInfo}
    (fixed : ∀ info, (change info).id = info.id)
    (changed : next.vaults = db.vaults.updateWhere where? change fixed) : VaultsStay db next := by
  intro vault known
  rw [changed, Table.lookup_updateWhere, Option.isSome_map]
  exact known

theorem vaultsStay_map {change : VaultInfo → VaultInfo} (fixed : ∀ info, (change info).id = info.id)
    (changed : next.vaults.rows = db.vaults.rows.map change) : VaultsStay db next := by
  have updated : next.vaults = db.vaults.update change
      (fun first second same => (fixed first).symm.trans (same.trans (fixed second))) :=
    Table.eq_of_rows changed
  intro vault known
  rw [updated, Table.lookup_update _ _ _ fixed, Option.isSome_map]
  exact known

/-- Only documents, sources, receipts and the vaults' own fields are written. -/
structure Written (before after : VaultDb) : Prop where
  rest : after = { before with
    vaults := after.vaults
    sources := after.sources
    documents := after.documents
    intake := after.intake }
  vaults : VaultsStay before after

theorem Written.of_documents (rest : next = { db with documents := next.documents }) :
    Written db next := by
  rw [rest]
  exact ⟨rfl, .of_eq rfl⟩

/-- An accepted item has its receipt already, or its document is written and then its receipt. -/
theorem vaultIntake_ok {source id : Uuid} {generation : Int} {fingerprint : Text}
    {prepared? : Option Prepared} {receipt : IntakeReceipt}
    (done : vaultIntake sha256 db vault source id generation fingerprint prepared? =
      .ok (next, receipt)) :
    next = db ∨ ∃ revision written recorded,
      db.writePrepared vault id revision prepared? = .ok written ∧
      written.recordIntake recorded = .ok next := by
  unfold vaultIntake at done
  obtain ⟨_, _, done⟩ := bind_eq_ok_iff.mp done
  obtain ⟨_, _, done⟩ := bind_eq_ok_iff.mp done
  obtain ⟨_, _, done⟩ := bind_eq_ok_iff.mp done
  obtain ⟨_, _, done⟩ := bind_eq_ok_iff.mp done
  split at done
  · obtain ⟨_, _, done⟩ := bind_eq_ok_iff.mp done
    exact Or.inl (Prod.mk.inj (pure_eq_ok_iff.mp done)).1.symm
  · obtain ⟨_, _, done⟩ := bind_eq_ok_iff.mp done
    obtain ⟨written, wrote, done⟩ := bind_eq_ok_iff.mp done
    obtain ⟨recorded, noted, done⟩ := bind_eq_ok_iff.mp done
    obtain ⟨rfl, _⟩ := Prod.mk.inj (pure_eq_ok_iff.mp done)
    exact Or.inr ⟨_, written, _, wrote, noted⟩

theorem rest_of_vaultIntake {source id : Uuid} {generation : Int} {fingerprint : Text}
    {prepared? : Option Prepared} {receipt : IntakeReceipt}
    (done : vaultIntake sha256 db vault source id generation fingerprint prepared? =
      .ok (next, receipt)) :
    next = { db with documents := next.documents, intake := next.intake } := by
  rcases vaultIntake_ok done with rfl | ⟨_, written, _, wrote, noted⟩
  · rfl
  · have first : written = { db with documents := written.documents } := by
      cases prepared? with
      | none =>
        obtain rfl := Except.ok.inj wrote
        rfl
      | some prepared =>
        obtain ⟨_, _, wrote⟩ := bind_eq_ok_iff.mp wrote
        exact rest_of_upsertDocument wrote
    have second : next = { written with intake := next.intake } := by
      unfold VaultDb.recordIntake at noted
      split at noted
      · obtain rfl := Except.ok.inj noted
        rfl
      · obtain ⟨_, _, noted⟩ := bind_eq_ok_iff.mp noted
        obtain ⟨_, _, noted⟩ := bind_eq_ok_iff.mp noted
        obtain rfl := pure_eq_ok_iff.mp noted
        rfl
    rw [second, first]

theorem written_of_publishFolder {generation now : Int} {removed : List Uuid}
    {inserted : List DocumentRow} {status : VaultScanStatus}
    (done : publishFolder db vault generation removed inserted now = .ok (next, status)) :
    Written db next := by
  unfold publishFolder at done
  obtain ⟨_, _, done⟩ := bind_eq_ok_iff.mp done
  obtain ⟨_, _, done⟩ := bind_eq_ok_iff.mp done
  obtain ⟨stored, added, done⟩ := bind_eq_ok_iff.mp done
  obtain ⟨rfl, _⟩ := Prod.mk.inj (pure_eq_ok_iff.mp done)
  have rest : stored = { db with documents := stored.documents } := by
    rw [rest_of_insertAll added, rest_deleteAll db vault removed]
  rw [rest]
  exact ⟨rfl, vaultsStay_updateWhere (by intro info; rfl) rfl⟩

/-- What the other transactions write. -/
theorem written_of_reply {write : VaultWrite} {now : Int} {between : List VaultDb}
    (done : write.reply sha256 db now = .ok (between, next)) : Written db next := by
  cases write with
  | rename vault name =>
    obtain ⟨renamed, made, same⟩ := map_eq_ok_iff.mp done
    obtain ⟨_, rfl⟩ := Prod.mk.inj same
    obtain ⟨_, _, made⟩ := bind_eq_ok_iff.mp made
    obtain ⟨_, _, made⟩ := bind_eq_ok_iff.mp made
    obtain rfl := pure_eq_ok_iff.mp made
    exact ⟨rfl, vaultsStay_updateWhere (by intro info; rfl) rfl⟩
  | attach vault root rootIdentity =>
    obtain ⟨attached, made, same⟩ := map_eq_ok_iff.mp done
    obtain ⟨_, rfl⟩ := Prod.mk.inj same
    obtain ⟨_, _, made⟩ := bind_eq_ok_iff.mp made
    obtain ⟨_, _, made⟩ := bind_eq_ok_iff.mp made
    obtain ⟨sources, _, made⟩ := bind_eq_ok_iff.mp made
    obtain rfl := pure_eq_ok_iff.mp made
    exact ⟨rfl, vaultsStay_updateWhere (by intro info; rfl) rfl⟩
  | publish vault generation removed inserted =>
    obtain ⟨published, made, same⟩ := map_eq_ok_iff.mp done
    obtain ⟨_, rfl⟩ := Prod.mk.inj same
    exact written_of_publishFolder made
  | fail vault generation =>
    obtain ⟨_, rfl⟩ := Prod.mk.inj (Except.ok.inj done)
    unfold failScan
    generalize (db.sources.rows.any _) = current
    cases current with
    | true => exact ⟨rfl, vaultsStay_updateWhere (by intro info; rfl) rfl⟩
    | false => exact ⟨rfl, .of_eq rfl⟩
  | reopen =>
    obtain ⟨_, rfl⟩ := Prod.mk.inj (Except.ok.inj done)
    exact ⟨rfl, vaultsStay_map (by intro info; rfl) rfl⟩
  | intake vault source id generation fingerprint prepared? =>
    obtain ⟨taken, made, same⟩ := map_eq_ok_iff.mp done
    obtain ⟨_, rfl⟩ := Prod.mk.inj same
    rw [rest_of_vaultIntake made]
    exact ⟨rfl, .of_eq rfl⟩

theorem written_of_saveDocument {id : Uuid} {path title content : Text} {date : Option Int}
    (done : saveDocument sha256 db vault id path title content date = .ok next) :
    Written db next := by
  obtain ⟨_, _, done⟩ := bind_eq_ok_iff.mp done
  exact .of_documents (rest_of_insertDocument done)

end Effects

end OHHive.Vault
