import OHHive.Vault.Maintenance
import OHHive.Vault.Retention

/-! What the transactions of the host do to the schedules, the vaults and the archives. -/

namespace OHHive.Vault

open Foundation

section Writes

variable {sha256 : Text → Text} {formats : DateFormats} {db next : VaultDb} {vault id : Uuid}
  {path title content revision expected : Text} {actor reason : String} {now : Int}

theorem rest_of_vaultPut
    (done : vaultPut sha256 formats db vault id path title content = .ok (next, revision)) :
    next = { db with documents := next.documents } := by
  exact rest_of_upsertDocument (vaultPut_ok done).2

/-- Restoring takes the archive away, and may write its document back. -/
theorem rest_of_vaultRestore
    (done : vaultRestore db vault id expected actor reason now = .ok next) :
    next = { db with
      documents := next.documents
      archives := db.archives.keep fun archive =>
        !(archive.documentId = id ∧ archive.vaultId = vault)
      events := next.events } := by
  obtain ⟨archive, _, written, _, _, _, restored, rfl⟩ := vaultRestore_ok done
  unfold restoreDocument at restored
  split at restored
  · obtain rfl := Except.ok.inj restored
    rfl
  · obtain ⟨_, _, restored⟩ := bind_eq_ok_iff.mp restored
    obtain ⟨_, _, restored⟩ := bind_eq_ok_iff.mp restored
    obtain ⟨_, _, restored⟩ := bind_eq_ok_iff.mp restored
    rw [rest_of_insertDocument restored]
    rfl

end Writes

section Effects

variable {sha256 : Text → Text} {formats : DateFormats} {catalog next : Catalog}
  {event : CatalogEvent}

/-- A restored document is there at the revision that was reviewed; its archive is gone. -/
structure Restored (before after : VaultDb) (vault id : Uuid) (expected : Text) : Prop where
  archives : after.archives = before.archives.keep fun archive =>
    !(archive.documentId = id ∧ archive.vaultId = vault)
  document : ∃ document, after.document? vault id = some document ∧ document.revision = expected

theorem restored_of_vaultRestore {db next : VaultDb} {vault id : Uuid} {expected : Text}
    {actor reason : String} {now : Int}
    (done : vaultRestore db vault id expected actor reason now = .ok next) :
    Restored db next vault id expected := by
  refine ⟨by rw [rest_of_vaultRestore done], ?_⟩
  obtain ⟨archive, document, written, _, shown, reviewed, restored, rfl⟩ := vaultRestore_ok done
  cases current : db.document? vault id with
  | some held =>
    rw [current] at shown restored
    obtain rfl := Except.ok.inj restored
    obtain rfl := Option.some.inj shown
    exact ⟨held, current, reviewed⟩
  | none =>
    rw [current] at shown restored
    obtain ⟨saved, snapshot, restored⟩ := bind_eq_ok_iff.mp restored
    obtain ⟨_, _, restored⟩ := bind_eq_ok_iff.mp restored
    obtain ⟨_, _, restored⟩ := bind_eq_ok_iff.mp restored
    rw [orFail_eq_ok_iff] at snapshot
    obtain rfl := Option.some.inj (snapshot.symm.trans shown)
    have found := VaultDb.documentRow?_of_insertDocument restored
    refine ⟨⟨id, vault, saved.path, saved.revision, saved.title, saved.content⟩, ?_, reviewed⟩
    change (written.documentRow? vault id).map _ = _
    rw [found]
    rfl

/-- What a transaction of the host does to the schedules, the vaults and the archives. -/
inductive HostEffect (before after : VaultDb) (event : CatalogEvent) : Prop
  | edited (schedules : after.maintenance = before.maintenance) (vaults : VaultsStay before after)
      (archives : after.archives = before.archives)
  | restored (vault id : Uuid) (expected : Text)
      (op : ∃ actor reason, event.op = .restore vault id expected actor reason)
      (schedules : after.maintenance = before.maintenance)
      (vaults : after.vaults = before.vaults) (done : Restored before after vault id expected)
  | archived (vault id : Uuid)
      (op : ∃ revision actor reason, event.op = .archive vault id revision actor reason)
      (schedules : after.maintenance = before.maintenance)
      (vaults : after.vaults = before.vaults) (added : Archived before after vault id event.now)
  | configured (vault : Uuid) (policy : MaintenancePolicy)
      (op : event.op = .configureMaintenance vault policy)
      (done : Configured before after vault policy event.now)
  | deleted (vault : Uuid) (op : event.op = .delete vault)
      (schedules : after.maintenance = before.maintenance.keep (·.vaultId ≠ vault))
      (vaults : after.vaults = before.vaults.keep (·.id ≠ vault))
      (archives : after.archives = before.archives)

theorem db_of_vaultGrant {vault node : Uuid} {enabled : Bool}
    (done : vaultGrant catalog vault node enabled = .ok next) : next.db = catalog.db := by
  unfold vaultGrant at done
  split at done
  · split at done
    · rw [← pure_eq_ok_iff.mp done]
    · obtain ⟨_, _, done⟩ := bind_eq_ok_iff.mp done
      rw [← pure_eq_ok_iff.mp done]
  · rw [← pure_eq_ok_iff.mp done]

theorem hostEffect_of_reply (valid : catalog.db.ValidPolicies)
    (done : event.reply sha256 formats catalog = .ok next) :
    HostEffect catalog.db next.db event := by
  obtain ⟨op, now⟩ := event
  cases op with
  | enroll node =>
    obtain rfl := Except.ok.inj done
    exact .edited rfl (.of_eq rfl) rfl
  | create vault name =>
    obtain ⟨db, created, rfl⟩ := map_eq_ok_iff.mp done
    obtain ⟨_, _, created⟩ := bind_eq_ok_iff.mp created
    obtain ⟨vaults, inserted, created⟩ := bind_eq_ok_iff.mp created
    rw [orFail_eq_ok_iff] at inserted
    obtain rfl := pure_eq_ok_iff.mp created
    refine .edited rfl (fun known held => ?_) rfl
    obtain ⟨info, stored⟩ := Option.isSome_iff_exists.mp held
    have kept : vaults.lookup known = some info := Table.lookup_insert?_of_some inserted stored
    exact Option.isSome_iff_exists.mpr ⟨info, kept⟩
  | setAvailable vault available =>
    obtain ⟨db, changed, rfl⟩ := map_eq_ok_iff.mp done
    obtain ⟨_, _, changed⟩ := bind_eq_ok_iff.mp changed
    obtain rfl := pure_eq_ok_iff.mp changed
    refine .edited rfl (fun known held => ?_) rfl
    simpa [Catalog.write, VaultDb.setState, Table.lookup_updateWhere] using held
  | grant vault node enabled =>
    rw [db_of_vaultGrant done]
    exact .edited rfl (.of_eq rfl) rfl
  | configureMaintenance vault policy =>
    obtain ⟨db, configured, rfl⟩ := map_eq_ok_iff.mp done
    exact .configured vault policy rfl (configured_of_vaultConfigureMaintenance configured)
  | put vault id path title content =>
    obtain ⟨⟨db, revision⟩, written, rfl⟩ := map_eq_ok_iff.mp done
    have rest := rest_of_vaultPut written
    change HostEffect catalog.db db _
    rw [rest]
    exact .edited rfl (.of_eq rfl) rfl
  | removeDocument vault id =>
    obtain ⟨db, removed, rfl⟩ := map_eq_ok_iff.mp done
    obtain ⟨_, _, removed⟩ := bind_eq_ok_iff.mp removed
    obtain rfl := pure_eq_ok_iff.mp removed
    exact .edited rfl (.of_eq rfl) rfl
  | archive vault id revision actor reason =>
    obtain ⟨db, archived, rfl⟩ := map_eq_ok_iff.mp done
    have added := archived_within_quota valid archived
    refine .archived vault id ⟨revision, actor, reason, rfl⟩ ?_ ?_ added
    · rw [added.rest]
      rfl
    · rw [added.rest]
      rfl
  | restore vault id expected actor reason =>
    obtain ⟨db, restored, rfl⟩ := map_eq_ok_iff.mp done
    have rest := rest_of_vaultRestore restored
    refine .restored vault id expected ⟨actor, reason, rfl⟩ ?_ ?_ (restored_of_vaultRestore restored)
    · change db.maintenance = _
      rw [rest]
    · change db.vaults = _
      rw [rest]
  | delete vault =>
    obtain ⟨db, deleted, done⟩ := bind_eq_ok_iff.mp done
    obtain rfl := pure_eq_ok_iff.mp done
    obtain ⟨_, _, deleted⟩ := bind_eq_ok_iff.mp deleted
    obtain rfl := pure_eq_ok_iff.mp deleted
    exact .deleted vault rfl rfl rfl rfl

end Effects

end OHHive.Vault
