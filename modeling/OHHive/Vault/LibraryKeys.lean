import OHHive.Vault.MaintenanceRuns
import OHHive.Vault.Library

/-! The foreign keys of the library. Every transaction keeps them, and keeps each saved document in
the vault of its save; so the documents of a vault take its saves with them. -/

namespace OHHive.Vault

open Foundation

section Traces

variable {Row : Type} {vaultOf : Row → Uuid} {before after next : VaultDb}

/-- Every new row is of a vault that an old row was of, or that is there. -/
def Traced (vaultOf : Row → Uuid) (after : VaultDb) (old new : List Row) : Prop :=
  ∀ row ∈ new, (∃ earlier ∈ old, vaultOf earlier = vaultOf row) ∨
    (after.vaults.lookup (vaultOf row)).isSome

theorem Traced.of_subset {old new : List Row} (kept : new ⊆ old) :
    Traced vaultOf after old new :=
  fun row member => Or.inl ⟨row, kept member, rfl⟩

theorem Traced.of_eq {old new : List Row} (same : new = old) : Traced vaultOf after old new :=
  .of_subset (same ▸ List.Subset.refl _)

theorem Traced.of_map {old new : List Row} {change : Row → Row}
    (fixed : ∀ row, vaultOf (change row) = vaultOf row) (changed : new = old.map change) :
    Traced vaultOf after old new := by
  intro row member
  rw [changed] at member
  obtain ⟨earlier, stored, rfl⟩ := List.mem_map.mp member
  exact Or.inl ⟨earlier, stored, (fixed earlier).symm⟩

theorem Traced.of_append {old new : List Row} {row : Row} (added : new = old ++ [row])
    (known : (after.vaults.lookup (vaultOf row)).isSome) : Traced vaultOf after old new := by
  intro other member
  rw [added] at member
  rcases List.mem_append.mp member with stored | last
  · exact Or.inl ⟨other, stored, rfl⟩
  · obtain rfl := List.mem_singleton.mp last
    exact Or.inr known

/-- The foreign keys to `vaults` within the vault tables. -/
structure VaultDb.Referred (db : VaultDb) : Prop where
  documents : ∀ row ∈ db.documents.rows, (db.vaults.lookup row.vaultId).isSome
  sources : ∀ row ∈ db.sources.rows, (db.vaults.lookup row.vaultId).isSome
  intake : ∀ row ∈ db.intake.rows, (db.vaults.lookup row.vaultId).isSome
  maintenance : ∀ row ∈ db.maintenance.rows, (db.vaults.lookup row.vaultId).isSome

/-- A step that takes no vault away, and moves no document to another. -/
structure Keeps (before after : VaultDb) : Prop where
  vaults : VaultsStay before after
  documents : Traced (·.vaultId) after before.documents.rows after.documents.rows
  same : ∀ old ∈ before.documents.rows, ∀ row ∈ after.documents.rows, row.id = old.id →
    row.vaultId = old.vaultId
  sources : Traced VaultSource.vaultId after before.sources.rows after.sources.rows
  intake : Traced VaultIntake.vaultId after before.intake.rows after.intake.rows
  maintenance : Traced VaultMaintenance.vaultId after before.maintenance.rows
    after.maintenance.rows

theorem Traced.known {old new : List Row} (traced : Traced vaultOf after old new)
    (vaults : VaultsStay before after)
    (known : ∀ row ∈ old, (before.vaults.lookup (vaultOf row)).isSome) :
    ∀ row ∈ new, (after.vaults.lookup (vaultOf row)).isSome := by
  intro row member
  rcases traced row member with ⟨earlier, stored, same⟩ | there
  · exact same ▸ vaults _ (known earlier stored)
  · exact there

theorem Keeps.referred (keeps : Keeps before after) (referred : before.Referred) :
    after.Referred :=
  ⟨keeps.documents.known keeps.vaults referred.documents,
    keeps.sources.known keeps.vaults referred.sources,
    keeps.intake.known keeps.vaults referred.intake,
    keeps.maintenance.known keeps.vaults referred.maintenance⟩

/-- The same documents, whatever else is written. -/
theorem same_of_documents (documents : after.documents = before.documents) :
    ∀ old ∈ before.documents.rows, ∀ row ∈ after.documents.rows, row.id = old.id →
      row.vaultId = old.vaultId := by
  intro old stored row member named
  rw [documents] at member
  rw [before.eq_of_id member stored named]

theorem Keeps.of_documents (rest : after = { before with documents := after.documents })
    (documents : Traced (·.vaultId) after before.documents.rows after.documents.rows)
    (same : ∀ old ∈ before.documents.rows, ∀ row ∈ after.documents.rows, row.id = old.id →
      row.vaultId = old.vaultId) : Keeps before after := by
  have vaults : after.vaults = before.vaults := by rw [rest]
  have sources : after.sources = before.sources := by rw [rest]
  have intake : after.intake = before.intake := by rw [rest]
  have maintenance : after.maintenance = before.maintenance := by rw [rest]
  exact ⟨.of_eq vaults, documents, same, .of_eq (by rw [sources]), .of_eq (by rw [intake]),
    .of_eq (by rw [maintenance])⟩

/-- A step that leaves documents, folders, receipts and schedules alone. -/
theorem Keeps.of_rest (vaults : VaultsStay before after)
    (documents : after.documents = before.documents) (sources : after.sources = before.sources)
    (intake : after.intake = before.intake)
    (maintenance : after.maintenance = before.maintenance) : Keeps before after :=
  ⟨vaults, .of_eq (by rw [documents]), same_of_documents documents, .of_eq (by rw [sources]),
    .of_eq (by rw [intake]), .of_eq (by rw [maintenance])⟩

theorem Keeps.refl (db : VaultDb) : Keeps db db := .of_rest (.of_eq rfl) rfl rfl rfl rfl

/-- Documents are filtered: the others stay where they are. -/
theorem Keeps.of_filter {kept : DocumentRow → Bool}
    (rest : after = { before with documents := after.documents })
    (rows : after.documents.rows = before.documents.rows.filter kept) : Keeps before after := by
  refine .of_documents rest ?_ ?_
  · rw [rows]
    exact .of_subset List.filter_sublist.subset
  · intro old stored row member named
    rw [rows] at member
    rw [before.eq_of_id (List.mem_filter.mp member).1 stored named]

theorem same_of_subset (kept : before.documents.rows ⊆ after.documents.rows) :
    ∀ old ∈ before.documents.rows, ∀ row ∈ after.documents.rows, row.id = old.id →
      row.vaultId = old.vaultId := by
  intro old stored row member named
  rw [after.eq_of_id member (kept stored) named]

theorem Keeps.of_insertDocument {row : DocumentRow} (done : before.insertDocument row = .ok after) :
    Keeps before after := by
  have rest := rest_of_insertDocument done
  unfold VaultDb.insertDocument at done
  obtain ⟨_, known, done⟩ := bind_eq_ok_iff.mp done
  obtain ⟨documents, inserted, done⟩ := bind_eq_ok_iff.mp done
  rw [require_eq_ok_iff] at known
  rw [orFail_eq_ok_iff, Table.insert?_eq_some_iff] at inserted
  obtain ⟨_, rows⟩ := inserted
  obtain rfl := pure_eq_ok_iff.mp done
  refine .of_documents rest (.of_append rows known) (same_of_subset ?_)
  change _ ⊆ documents.rows
  rw [rows]
  exact List.subset_append_left _ _

theorem Keeps.of_upsertDocument {row : DocumentRow} (done : before.upsertDocument row = .ok after) :
    Keeps before after := by
  have rest := rest_of_upsertDocument done
  unfold VaultDb.upsertDocument at done
  split at done
  · obtain ⟨documents, rewritten, done⟩ := bind_eq_ok_iff.mp done
    rw [orFail_eq_ok_iff] at rewritten
    have rows := Table.rows_of_rewrite? rewritten
    obtain rfl := pure_eq_ok_iff.mp done
    have named : ∀ stored : DocumentRow,
        (if stored.id = row.id then { row with vaultId := stored.vaultId } else stored).id =
          stored.id := by
      intro stored
      split
      · next same => exact same.symm
      · rfl
    have owned : ∀ stored : DocumentRow,
        (if stored.id = row.id then { row with vaultId := stored.vaultId } else stored).vaultId =
          stored.vaultId := by
      intro stored
      split <;> rfl
    refine .of_documents rest (.of_map owned rows) ?_
    intro old stored other member same
    change other ∈ documents.rows at member
    rw [rows] at member
    obtain ⟨first, held, rfl⟩ := List.mem_map.mp member
    rw [named] at same
    rw [owned, before.eq_of_id held stored same]
  · exact .of_insertDocument done

theorem known_of_insertAll {rows : List DocumentRow}
    (done : rows.foldlM VaultDb.insertDocument before = .ok after) :
    ∀ row ∈ rows, (before.vaults.lookup row.vaultId).isSome := by
  induction rows generalizing before with
  | nil => exact fun row member => nomatch member
  | cons first rows ih =>
    rw [List.foldlM_cons] at done
    obtain ⟨added, inserted, done⟩ := bind_eq_ok_iff.mp done
    have vaults : added.vaults = before.vaults := by rw [rest_of_insertDocument inserted]
    obtain ⟨_, known, _⟩ := bind_eq_ok_iff.mp inserted
    rw [require_eq_ok_iff] at known
    intro row member
    rcases List.mem_cons.mp member with rfl | later
    · exact known
    · exact vaults ▸ ih done row later

theorem Keeps.of_insertAll {rows : List DocumentRow}
    (done : rows.foldlM VaultDb.insertDocument before = .ok after) : Keeps before after := by
  have rest := rest_of_insertAll done
  have vaults : after.vaults = before.vaults := by rw [rest]
  obtain ⟨added, _, _⟩ := Vault.of_insertAll done
  refine .of_documents rest ?_ (same_of_subset ?_)
  · intro row member
    rw [added] at member
    rcases List.mem_append.mp member with stored | new
    · exact Or.inl ⟨row, stored, rfl⟩
    · rw [vaults]
      exact Or.inr (known_of_insertAll done row new)
  · rw [added]
    exact List.subset_append_left _ _

/-- Documents and receipts are left alone behind the first step. -/
theorem Keeps.trans_rest (first : Keeps before after) (vaults : VaultsStay after next)
    (documents : next.documents = after.documents)
    (sources : Traced VaultSource.vaultId next after.sources.rows next.sources.rows)
    (intake : Traced VaultIntake.vaultId next after.intake.rows next.intake.rows)
    (maintenance : next.maintenance = after.maintenance) : Keeps before next := by
  have through : ∀ {Row : Type} {vaultOf : Row → Uuid} {old mid new : List Row},
      Traced vaultOf after old mid → Traced vaultOf next mid new →
        Traced vaultOf next old new := by
    intro Row vaultOf old mid new earlier later row member
    rcases later row member with ⟨middle, stored, same⟩ | known
    · rcases earlier middle stored with ⟨first, held, same'⟩ | there
      · exact Or.inl ⟨first, held, same'.trans same⟩
      · exact Or.inr (same ▸ vaults _ there)
    · exact Or.inr known
  refine ⟨fun vault known => vaults _ (first.vaults _ known),
    through first.documents (.of_eq (by rw [documents])), ?_, through first.sources sources,
    through first.intake intake, through first.maintenance (.of_eq (by rw [maintenance]))⟩
  rw [documents]
  exact first.same

end Traces

section Transactions

variable {sha256 : Text → Text} {formats : DateFormats} {db next : VaultDb} {vault id : Uuid}
  {path title content revision expected : Text} {actor reason : String} {now : Int}

theorem keeps_of_vaultPut
    (done : vaultPut sha256 formats db vault id path title content = .ok (next, revision)) :
    Keeps db next := by
  exact .of_upsertDocument (vaultPut_ok done).2

theorem keeps_of_vaultRestore
    (done : vaultRestore db vault id expected actor reason now = .ok next) : Keeps db next := by
  obtain ⟨archive, _, written, _, _, _, restored, rfl⟩ := vaultRestore_ok done
  have first : Keeps db written := by
    unfold restoreDocument at restored
    split at restored
    · obtain rfl := Except.ok.inj restored
      exact .refl _
    · obtain ⟨_, _, restored⟩ := bind_eq_ok_iff.mp restored
      obtain ⟨_, _, restored⟩ := bind_eq_ok_iff.mp restored
      obtain ⟨_, _, restored⟩ := bind_eq_ok_iff.mp restored
      exact .of_insertDocument restored
  exact first.trans_rest (.of_eq rfl) rfl (.of_eq rfl) (.of_eq rfl) rfl

theorem keeps_of_configured {policy : MaintenancePolicy}
    (done : Configured db next vault policy now) (referred : db.Referred) : Keeps db next := by
  have vaults : next.vaults = db.vaults := by rw [done.rest]
  have documents : next.documents = db.documents := by rw [done.rest]
  have sources : next.sources = db.sources := by rw [done.rest]
  have intake : next.intake = db.intake := by rw [done.rest]
  refine ⟨.of_eq vaults, .of_eq (by rw [documents]), same_of_documents documents,
    .of_eq (by rw [sources]), .of_eq (by rw [intake]), ?_⟩
  intro row stored
  have found := (Table.lookup_eq_some_iff _ row.vaultId row).mpr ⟨stored, rfl⟩
  by_cases own : row.vaultId = vault
  · right
    rw [vaults, own]
    rcases done.known with known | scheduled
    · exact known
    · obtain ⟨old, held⟩ := Option.isSome_iff_exists.mp scheduled
      have named : old.vaultId = vault := Table.key_of_lookup held
      exact named ▸ referred.maintenance old (Table.mem_of_lookup held)
  · rw [done.others _ own] at found
    exact Or.inl ⟨row, Table.mem_of_lookup found, rfl⟩

theorem keeps_of_rescheduled {token : Option Uuid} (done : Rescheduled db next vault token)
    (rest : next.documents = db.documents ∧ next.sources = db.sources ∧ next.intake = db.intake) :
    Keeps db next := by
  obtain ⟨documents, sources, intake⟩ := rest
  refine ⟨.of_eq done.vaults, .of_eq (by rw [documents]), same_of_documents documents,
    .of_eq (by rw [sources]), .of_eq (by rw [intake]), ?_⟩
  intro row stored
  obtain ⟨old, member, same, _⟩ := done.rows row stored
  exact Or.inl ⟨old, member, same.symm⟩

theorem keeps_of_vaultArchive
    (done : vaultArchive db vault id revision actor reason now = .ok next) : Keeps db next := by
  rw [rest_of_vaultArchive done]
  exact .of_rest (.of_eq rfl) rfl rfl rfl rfl

/-- Every transaction of the catalog that deletes no vault. -/
theorem keeps_of_reply {catalog after : Catalog} {event : CatalogEvent}
    (referred : catalog.db.Referred) (kept : ∀ vault, event.op ≠ .delete vault)
    (done : event.reply sha256 formats catalog = .ok after) : Keeps catalog.db after.db := by
  obtain ⟨op, now⟩ := event
  cases op with
  | enroll node =>
    obtain rfl := Except.ok.inj done
    exact .refl _
  | create vault name =>
    obtain ⟨db, created, rfl⟩ := map_eq_ok_iff.mp done
    obtain ⟨_, _, created⟩ := bind_eq_ok_iff.mp created
    obtain ⟨vaults, inserted, created⟩ := bind_eq_ok_iff.mp created
    rw [orFail_eq_ok_iff] at inserted
    obtain rfl := pure_eq_ok_iff.mp created
    refine .of_rest (fun known held => ?_) rfl rfl rfl rfl
    obtain ⟨info, stored⟩ := Option.isSome_iff_exists.mp held
    have there : vaults.lookup known = some info := Table.lookup_insert?_of_some inserted stored
    exact Option.isSome_iff_exists.mpr ⟨info, there⟩
  | setAvailable vault available =>
    obtain ⟨db, changed, rfl⟩ := map_eq_ok_iff.mp done
    obtain ⟨_, _, changed⟩ := bind_eq_ok_iff.mp changed
    obtain rfl := pure_eq_ok_iff.mp changed
    exact .of_rest (vaultsStay_updateWhere (by intro info; rfl) rfl) rfl rfl rfl rfl
  | grant vault node enabled =>
    rw [db_of_vaultGrant done]
    exact .refl _
  | configureMaintenance vault policy =>
    obtain ⟨db, configured, rfl⟩ := map_eq_ok_iff.mp done
    exact keeps_of_configured (configured_of_vaultConfigureMaintenance configured) referred
  | put vault id path title content =>
    obtain ⟨⟨db, revision⟩, written, rfl⟩ := map_eq_ok_iff.mp done
    exact keeps_of_vaultPut written
  | removeDocument vault id =>
    obtain ⟨db, removed, rfl⟩ := map_eq_ok_iff.mp done
    obtain ⟨_, _, removed⟩ := bind_eq_ok_iff.mp removed
    obtain rfl := pure_eq_ok_iff.mp removed
    exact .of_filter rfl rfl
  | archive vault id revision actor reason =>
    obtain ⟨db, archived, rfl⟩ := map_eq_ok_iff.mp done
    exact keeps_of_vaultArchive archived
  | restore vault id expected actor reason =>
    obtain ⟨db, restored, rfl⟩ := map_eq_ok_iff.mp done
    exact keeps_of_vaultRestore restored
  | delete vault => exact absurd rfl (kept vault)

theorem keeps_of_vaultIntake {source : Uuid} {generation : Int} {fingerprint : Text}
    {prepared? : Option Prepared} {receipt : IntakeReceipt}
    (done : vaultIntake sha256 db vault source id generation fingerprint prepared? =
      .ok (next, receipt)) : Keeps db next := by
  rcases vaultIntake_ok done with rfl | ⟨_, written, _, wrote, noted⟩
  · exact .refl _
  · have first : Keeps db written := by
      cases prepared? with
      | none =>
        obtain rfl := Except.ok.inj wrote
        exact .of_filter rfl rfl
      | some prepared =>
        obtain ⟨_, _, wrote⟩ := bind_eq_ok_iff.mp wrote
        exact .of_upsertDocument wrote
    unfold VaultDb.recordIntake at noted
    split at noted
    · obtain rfl := Except.ok.inj noted
      refine first.trans_rest (.of_eq rfl) rfl (.of_eq rfl) (.of_map ?_ rfl) rfl
      intro receipt
      split <;> rfl
    · obtain ⟨_, known, noted⟩ := bind_eq_ok_iff.mp noted
      obtain ⟨intake, inserted, noted⟩ := bind_eq_ok_iff.mp noted
      rw [require_eq_ok_iff] at known
      rw [orFail_eq_ok_iff] at inserted
      obtain rfl := pure_eq_ok_iff.mp noted
      exact first.trans_rest (.of_eq rfl) rfl (.of_eq rfl)
        (.of_append (Table.rows_of_insert? inserted) known) rfl

/-- The stores that the other transactions pass through, each kept by the step behind it. -/
theorem chain_of_reply {write : VaultWrite} {between : List VaultDb}
    (done : write.reply sha256 db now = .ok (between, next)) :
    List.IsChain Keeps (db :: (between ++ [next])) := by
  cases write with
  | rename vault name =>
    obtain ⟨renamed, made, same⟩ := map_eq_ok_iff.mp done
    obtain ⟨rfl, rfl⟩ := Prod.mk.inj same
    obtain ⟨_, _, made⟩ := bind_eq_ok_iff.mp made
    obtain ⟨_, _, made⟩ := bind_eq_ok_iff.mp made
    obtain rfl := pure_eq_ok_iff.mp made
    refine List.isChain_pair.mpr ?_
    exact .of_rest (vaultsStay_updateWhere (by intro info; rfl) rfl) rfl rfl rfl rfl
  | attach vault root rootIdentity =>
    obtain ⟨attached, made, same⟩ := map_eq_ok_iff.mp done
    obtain ⟨rfl, rfl⟩ := Prod.mk.inj same
    obtain ⟨_, _, made⟩ := bind_eq_ok_iff.mp made
    obtain ⟨_, known, made⟩ := bind_eq_ok_iff.mp made
    obtain ⟨sources, inserted, made⟩ := bind_eq_ok_iff.mp made
    rw [require_eq_ok_iff] at known
    rw [orFail_eq_ok_iff] at inserted
    obtain rfl := pure_eq_ok_iff.mp made
    have stay : VaultsStay db ({ db with sources }.setState vault .unavailable) :=
      vaultsStay_updateWhere (by intro info; rfl) rfl
    refine List.isChain_pair.mpr ?_
    exact ⟨stay, .of_eq rfl, same_of_documents rfl,
      .of_append (Table.rows_of_insert? inserted) (stay _ known), .of_eq rfl, .of_eq rfl⟩
  | publish vault generation removed inserted =>
    obtain ⟨⟨published, status⟩, made, same⟩ := map_eq_ok_iff.mp done
    obtain ⟨rfl, rfl⟩ := Prod.mk.inj same
    obtain ⟨_, _, made⟩ := bind_eq_ok_iff.mp made
    obtain ⟨_, _, made⟩ := bind_eq_ok_iff.mp made
    obtain ⟨stored, added, made⟩ := bind_eq_ok_iff.mp made
    obtain ⟨rfl, _⟩ := Prod.mk.inj (pure_eq_ok_iff.mp made)
    refine List.isChain_cons_cons.mpr ⟨?_, List.isChain_pair.mpr ?_⟩
    · exact .of_filter (rest_deleteAll db vault removed) (rows_deleteAll db vault removed)
    · refine (Keeps.of_insertAll added).trans_rest (vaultsStay_updateWhere (by intro info; rfl) rfl)
        rfl (.of_map ?_ rfl) (.of_eq rfl) rfl
      intro source
      split <;> rfl
  | fail vault generation =>
    obtain ⟨rfl, rfl⟩ := Prod.mk.inj (Except.ok.inj done)
    refine List.isChain_pair.mpr ?_
    unfold failScan
    generalize (db.sources.rows.any _) = current
    have stay : VaultsStay db (if current then db.setState vault .unavailable else db) := by
      cases current with
      | true => exact vaultsStay_updateWhere (by intro info; rfl) rfl
      | false => exact .of_eq rfl
    cases current with
    | true => exact ⟨stay, .of_eq rfl, same_of_documents rfl, .of_map (by intro source; split <;> rfl)
        rfl, .of_eq rfl, .of_eq rfl⟩
    | false => exact ⟨stay, .of_eq rfl, same_of_documents rfl,
        .of_map (by intro source; split <;> rfl) rfl, .of_eq rfl, .of_eq rfl⟩
  | reopen =>
    obtain ⟨rfl, rfl⟩ := Prod.mk.inj (Except.ok.inj done)
    refine List.isChain_pair.mpr ?_
    exact .of_rest (vaultsStay_map (by intro info; rfl) rfl) rfl rfl rfl rfl
  | intake vault source id generation fingerprint prepared? =>
    obtain ⟨⟨taken, receipt⟩, made, same⟩ := map_eq_ok_iff.mp done
    obtain ⟨rfl, rfl⟩ := Prod.mk.inj same
    exact List.isChain_pair.mpr (keeps_of_vaultIntake made)

end Transactions

end OHHive.Vault
