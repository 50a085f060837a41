import OHHive.Vault.Catalog

/-! Curation and its readers. The scan hides a document by any archive of its identity, the readers
by an archive of its own vault: they agree as long as no document is written under an identity
whose archive is of another vault. -/

namespace OHHive.Vault

open Foundation
open Bots (ftsQuery)

section Overlays

variable {db next : VaultDb} {vault id : Uuid}

/-- The archived identities, with the vaults they were archived in. -/
def overlays (db : VaultDb) : List (Uuid × Uuid) :=
  db.archives.rows.map fun archive => (archive.documentId, archive.vaultId)

/-- Every archive of a stored document is of the document's own vault. -/
def OwnOverlays (db : VaultDb) : Prop :=
  ∀ row ∈ db.documents.rows, ∀ vault, (row.id, vault) ∈ overlays db → vault = row.vaultId

theorem mem_overlays {archive : VaultArchive} (stored : archive ∈ db.archives.rows) :
    (archive.documentId, archive.vaultId) ∈ overlays db :=
  List.mem_map_of_mem stored

theorem OwnOverlays.mono (own : OwnOverlays db)
    (documents : ∀ row ∈ next.documents.rows,
      ∃ old ∈ db.documents.rows, old.id = row.id ∧ old.vaultId = row.vaultId)
    (archives : overlays next ⊆ overlays db) : OwnOverlays next := by
  intro row stored vault archived
  obtain ⟨old, member, sameId, sameVault⟩ := documents row stored
  rw [own old member vault (sameId ▸ archives archived), sameVault]

/-- One more document, whose identity is archived in its own vault at most. -/
theorem OwnOverlays.insert (own : OwnOverlays db) {row : DocumentRow}
    (done : db.insertDocument row = .ok next)
    (free : ∀ vault, (row.id, vault) ∈ overlays db → vault = row.vaultId) : OwnOverlays next := by
  unfold VaultDb.insertDocument at done
  obtain ⟨_, _, done⟩ := bind_eq_ok_iff.mp done
  obtain ⟨documents, inserted, done⟩ := bind_eq_ok_iff.mp done
  rw [orFail_eq_ok_iff] at inserted
  rw [pure_eq_ok_iff] at done
  subst done
  intro stored member vault archived
  have listed : stored ∈ db.documents.rows ++ [row] := Table.rows_of_insert? inserted ▸ member
  rcases List.mem_append.mp listed with old | new
  · exact own stored old vault archived
  · obtain rfl := List.mem_singleton.mp new
    exact free vault archived

theorem overlays_expireSnapshot (vault : Uuid) (now : Int) (db : VaultDb) (archive : VaultArchive) :
    overlays (expireSnapshot vault now db archive) = overlays db := by
  unfold expireSnapshot
  split
  · simp only [overlays, VaultDb.recordEvent, VaultDb.dropSnapshot, Table.rows_updateWhere,
      List.map_map]
    apply List.map_congr_left
    intro stored _
    simp only [Function.comp_apply]
    split
    · rfl
    · rfl
  · rfl

theorem overlays_foldl (vault : Uuid) (now : Int) (archives : List VaultArchive) (db : VaultDb) :
    overlays (archives.foldl (expireSnapshot vault now) db) = overlays db := by
  induction archives generalizing db with
  | nil => rfl
  | cons archive rest ih => exact (ih _).trans (overlays_expireSnapshot vault now db archive)

/-- Making room drops snapshots, and no overlay. -/
theorem overlays_reserveArchive {now incoming : Int}
    (done : reserveArchive db vault now incoming = .ok next) : overlays next = overlays db := by
  unfold reserveArchive at done
  obtain ⟨_, _, done⟩ := bind_eq_ok_iff.mp done
  obtain ⟨room, expired, done⟩ := bind_eq_ok_iff.mp done
  obtain ⟨_, _, done⟩ := bind_eq_ok_iff.mp done
  rw [pure_eq_ok_iff] at done
  subst done
  unfold makeRoom at expired
  split at expired
  · unfold expire at expired
    obtain ⟨info, _, expired⟩ := bind_eq_ok_iff.mp expired
    split at expired
    · rw [pure_eq_ok_iff] at expired
      exact expired ▸ overlays_foldl vault now _ db
    · rw [pure_eq_ok_iff] at expired
      exact expired ▸ rfl
  · exact Except.ok.inj expired ▸ rfl

end Overlays

section Views

variable {catalog : Catalog} {node vault id : Uuid}

/-- Every stored document has been observed. -/
def Observed (catalog : Catalog) : Prop :=
  ∀ row ∈ catalog.db.documents.rows, (catalog.observations row.id).isSome

theorem curatedRows_eq (own : OwnOverlays catalog.db) (vault : Uuid) :
    curatedRows catalog.db vault = visibleRows catalog.db vault := by
  apply List.filter_congr
  intro row stored
  congr 2
  apply Bool.eq_iff_iff.mpr
  simp only [List.any_eq_true, Bool.and_eq_true, decide_eq_true_eq]
  constructor
  · rintro ⟨archive, archived, named⟩
    exact ⟨archive, archived, named, own row stored _ (named ▸ mem_overlays archived)⟩
  · rintro ⟨archive, archived, named, _⟩
    exact ⟨archive, archived, named⟩

/-- A scan that answers, on a ready vault that a node may read. -/
structure Scan (catalog : Catalog) where
  node : Uuid
  vault : Uuid
  days : Nat
  observedAt : Int
  info : VaultInfo
  report : CurationReport
  granted : vaultAccess catalog node vault true = .ok info
  scanned : curationScanAt catalog vault days observedAt = .ok report

def Scan.Considers (scan : Scan catalog) (id : Uuid) : Prop :=
  ∃ note ∈ scan.report.notes, note.id = id

theorem Scan.considers_iff (scan : Scan catalog) (observed : Observed catalog) :
    scan.Considers id ↔ ∃ row ∈ curatedRows catalog.db scan.vault, row.id = id := by
  have scanned := scan.scanned
  unfold curationScanAt at scanned
  obtain ⟨_, _, scanned⟩ := bind_eq_ok_iff.mp scanned
  obtain ⟨_, _, scanned⟩ := bind_eq_ok_iff.mp scanned
  obtain ⟨_, _, scanned⟩ := bind_eq_ok_iff.mp scanned
  rw [pure_eq_ok_iff] at scanned
  rw [Scan.Considers, ← scanned]
  constructor
  · rintro ⟨note, listed, rfl⟩
    obtain ⟨row, curated, noted⟩ := List.mem_filterMap.mp listed
    obtain ⟨seen, _, rfl⟩ := Option.map_eq_some_iff.mp noted
    exact ⟨row, (List.mem_insertionSort _).mp curated, rfl⟩
  · rintro ⟨row, curated, rfl⟩
    have stored := (List.mem_filter.mp curated).1
    obtain ⟨seen, found⟩ := Option.isSome_iff_exists.mp (observed row stored)
    refine ⟨⟨row.id, row.revision, row.path, seen.changedMs, catalog.db.folderBacked row.vaultId⟩,
      List.mem_filterMap.mpr ⟨row, (List.mem_insertionSort _).mpr curated, ?_⟩, rfl⟩
    rw [curationNote, found, Option.map_some]

/-- A granted reader reads exactly the visible rows. -/
theorem readable_iff {info : VaultInfo} (granted : vaultAccess catalog node vault true = .ok info) :
    (∃ revision document, vaultRead catalog node vault id revision = .ok document) ↔
      ∃ row ∈ visibleRows catalog.db vault, row.id = id := by
  constructor
  · rintro ⟨revision, document, done⟩
    unfold vaultRead at done
    obtain ⟨_, _, done⟩ := bind_eq_ok_iff.mp done
    obtain ⟨row, found, _⟩ := bind_eq_ok_iff.mp done
    rw [orFail_eq_ok_iff] at found
    exact ⟨row, List.mem_of_find?_eq_some found, by simpa using List.find?_some found⟩
  · rintro ⟨row, shown, named⟩
    have some? : ((visibleRows catalog.db vault).find? (·.id = id)).isSome :=
      List.find?_isSome.mpr ⟨row, shown, by simpa using named⟩
    obtain ⟨other, found⟩ := Option.isSome_iff_exists.mp some?
    refine ⟨other.revision, other.toVaultDocument, ?_⟩
    rw [vaultRead, granted, ok_bind, found, orFail_some, ok_bind]
    simp [require, pure, Except.pure, Bind.bind, Except.bind]

/-- A page that is not full shows everything that was selected. -/
theorem take_eq_of_unfilled {α β : Type} {rows : List α} {limit : Nat} (hit : α → β)
    (unfilled : ((rows.take limit).map hit).length < limit) : rows.take limit = rows := by
  rw [List.length_map, List.length_take] at unfilled
  exact List.take_of_length_le (by omega)

/-- What the scan considers is what the readers of its vault see, and all of it can be archived
while there is room for the snapshot. -/
structure ViewsAgree (index : VaultIndex) (catalog : Catalog) : Prop where
  read : ∀ (scan : Scan catalog) id, scan.Considers id ↔
    ∃ revision document, vaultRead catalog scan.node scan.vault id revision = .ok document
  list : ∀ (scan : Scan catalog) limit hits,
    vaultListDocuments catalog scan.node scan.vault limit = .ok hits →
      (∀ hit ∈ hits, scan.Considers hit.id) ∧
      (hits.length < limit → ∀ id, scan.Considers id → ∃ hit ∈ hits, hit.id = id)
  search : ∀ (scan : Scan catalog) query limit hits,
    vaultSearch index catalog scan.node scan.vault query limit = .ok hits →
      (∀ hit ∈ hits, scan.Considers hit.id) ∧
      (hits.length < limit → ∀ row ∈ catalog.db.documents.rows, row.vaultId = scan.vault →
        index.isMatch (ftsQuery query) row → scan.Considers row.id → ∃ hit ∈ hits, hit.id = row.id)
  archivable : ∀ node vault id revision document actor reason now room,
    vaultRead catalog node vault id revision = .ok document →
    attribution actor reason = .ok () →
    reserveArchive catalog.db vault now document.size = .ok room →
    ¬ maxBytes < saturatingAdd (archiveBytes room vault) document.size →
    ∃ next, vaultArchive catalog.db vault id revision actor reason now = .ok next

theorem listed_iff {info : VaultInfo} {limit : Nat} {hits : List VaultHit}
    (granted : vaultAccess catalog node vault true = .ok info)
    (done : vaultListDocuments catalog node vault limit = .ok hits) :
    hits = (((visibleRows catalog.db vault).insertionSort listOrder).take limit).map listHit := by
  unfold vaultListDocuments at done
  obtain ⟨_, _, done⟩ := bind_eq_ok_iff.mp done
  rw [granted, ok_bind, pure_eq_ok_iff] at done
  exact done.symm

theorem searched_iff {index : VaultIndex} {info : VaultInfo} {query : String} {limit : Nat}
    {hits : List VaultHit} (granted : vaultAccess catalog node vault true = .ok info)
    (done : vaultSearch index catalog node vault query limit = .ok hits) :
    hits = ((((visibleRows catalog.db vault).filter (index.isMatch (ftsQuery query))).mergeSort
      (index.ranked catalog.db.documents.rows (ftsQuery query))).take limit).map
        (searchHit index (ftsQuery query)) := by
  unfold vaultSearch at done
  obtain ⟨_, _, done⟩ := bind_eq_ok_iff.mp done
  obtain ⟨_, _, done⟩ := bind_eq_ok_iff.mp done
  rw [granted, ok_bind, pure_eq_ok_iff] at done
  exact done.symm

/-- What a reader is given is a visible row, as the vault stores it. -/
theorem visible_of_vaultRead {revision : Text} {document : VaultDocument}
    (done : vaultRead catalog node vault id revision = .ok document) :
    ∃ row ∈ visibleRows catalog.db vault, row.id = id ∧ row.revision = revision ∧
      document = row.toVaultDocument := by
  unfold vaultRead at done
  obtain ⟨_, _, done⟩ := bind_eq_ok_iff.mp done
  obtain ⟨row, found, done⟩ := bind_eq_ok_iff.mp done
  obtain ⟨_, current, done⟩ := bind_eq_ok_iff.mp done
  rw [orFail_eq_ok_iff] at found
  rw [require_eq_ok_iff] at current
  rw [pure_eq_ok_iff] at done
  exact ⟨row, List.mem_of_find?_eq_some found, by simpa using List.find?_some found, current,
    done.symm⟩

/-- With room for its snapshot, a document of no archived identity is archived. -/
theorem exists_vaultArchive {db room : VaultDb} {document : VaultDocument} {revision : Text}
    {actor reason : String} {now : Int} (found : db.document? vault id = some document)
    (current : document.revision = revision) (attributed : attribution actor reason = .ok ())
    (reserved : reserveArchive db vault now document.size = .ok room)
    (fits : ¬ maxBytes < saturatingAdd (archiveBytes room vault) document.size)
    (unarchived : ∀ other, (id, other) ∉ overlays db) :
    ∃ next, vaultArchive db vault id revision actor reason now = .ok next := by
  have free : room.archives.Fits ⟨id, vault, revision, some document, now⟩ := by
    intro stored member same
    have named : stored.documentId = id := same
    have listed := mem_overlays member
    rw [overlays_reserveArchive reserved, named] at listed
    exact unarchived stored.vaultId listed
  obtain ⟨archives, inserted, _⟩ := Table.exists_insert? free
  have within := not_lt.mp fits
  simp [vaultArchive, attributed, found, current, reserved, within, inserted, require, orFail, pure,
    Except.pure]

/-- Where every archive is of its document's vault, the views agree. -/
theorem viewsAgree_of_own (index : VaultIndex) (observed : Observed catalog)
    (own : OwnOverlays catalog.db) : ViewsAgree index catalog := by
  have considers : ∀ (scan : Scan catalog) id, scan.Considers id ↔
      ∃ row ∈ visibleRows catalog.db scan.vault, row.id = id := by
    intro scan id
    rw [scan.considers_iff observed, curatedRows_eq own]
  constructor
  case read =>
    intro scan id
    rw [considers, readable_iff scan.granted]
  case list =>
    intro scan limit hits done
    obtain rfl := listed_iff scan.granted done
    constructor
    · intro hit member
      obtain ⟨row, shown, rfl⟩ := List.mem_map.mp member
      have visible := (List.mem_insertionSort _).mp (List.mem_of_mem_take shown)
      exact (considers scan _).mpr ⟨row, visible, rfl⟩
    · intro unfilled id considered
      obtain ⟨row, visible, rfl⟩ := (considers scan id).mp considered
      rw [take_eq_of_unfilled _ unfilled]
      exact ⟨listHit row, List.mem_map_of_mem ((List.mem_insertionSort _).mpr visible), rfl⟩
  case search =>
    intro scan query limit hits done
    obtain rfl := searched_iff scan.granted done
    constructor
    · intro hit member
      obtain ⟨row, shown, rfl⟩ := List.mem_map.mp member
      have found := List.mem_mergeSort.mp (List.mem_of_mem_take shown)
      exact (considers scan _).mpr ⟨row, (List.mem_filter.mp found).1, rfl⟩
    · intro unfilled row stored inVault answers considered
      obtain ⟨other, visible, named⟩ := (considers scan row.id).mp considered
      obtain rfl := catalog.db.eq_of_id (List.mem_filter.mp visible).1 stored named
      rw [take_eq_of_unfilled _ unfilled]
      refine ⟨searchHit index (ftsQuery query) other, List.mem_map_of_mem ?_, rfl⟩
      exact List.mem_mergeSort.mpr (List.mem_filter.mpr ⟨visible, answers⟩)
  case archivable =>
    intro node vault id revision document actor reason now room done attributed reserved fits
    obtain ⟨row, visible, rfl, current, rfl⟩ := visible_of_vaultRead done
    obtain ⟨stored, unhidden⟩ := List.mem_filter.mp visible
    simp only [Bool.and_eq_true, decide_eq_true_eq, Bool.not_eq_true',
      List.any_eq_false] at unhidden
    obtain ⟨inVault, unhidden⟩ := unhidden
    have found : catalog.db.document? vault row.id = some row.toVaultDocument := by
      rw [VaultDb.document?, VaultDb.documentRow?_eq_some_iff.mpr ⟨stored, inVault, rfl⟩,
        Option.map_some]
    refine exists_vaultArchive found current attributed reserved fits ?_
    intro other archived
    obtain ⟨archive, member, same⟩ := List.mem_map.mp archived
    obtain ⟨named, home⟩ := Prod.mk.inj same
    have sameVault := own row stored other archived
    exact unhidden archive member ⟨named, home.trans sameVault⟩

end Views

section Runs

variable {sha256 : Text → Text} {formats : DateFormats} {catalog : Catalog}

/-- The triggers observe every document that a statement leaves. -/
theorem observed_write (observed : Observed catalog) (now : Int) (db : VaultDb) :
    Observed (catalog.write now db) := by
  intro row stored
  have some? : (db.documents.rows.find? (·.id = row.id)).isSome :=
    List.find?_isSome.mpr ⟨row, stored, by simp⟩
  obtain ⟨after, found⟩ := Option.isSome_iff_exists.mp some?
  change (observe catalog.db.documents.rows db.documents.rows now catalog.observations
    row.id).isSome
  unfold observe
  rw [found]
  cases before : catalog.db.documents.rows.find? (·.id = row.id) with
  | none =>
    dsimp only
    unfold observeInsert
    split
    · rfl
    · rfl
  | some old =>
    have named : old.id = row.id := by simpa using List.find?_some before
    have seen := observed old (List.mem_of_find?_eq_some before)
    rw [named] at seen
    dsimp only
    unfold observeUpdate
    split
    · exact seen
    · rwa [Option.isSome_map]

theorem observed_reply {event : CatalogEvent} {next : Catalog} (observed : Observed catalog)
    (done : event.reply sha256 formats catalog = .ok next) : Observed next := by
  obtain ⟨op, now⟩ := event
  cases op with
  | enroll node =>
    obtain rfl := Except.ok.inj done
    exact observed
  | create vault name =>
    obtain ⟨db, _, rfl⟩ := map_eq_ok_iff.mp done
    exact observed_write observed now db
  | setAvailable vault available =>
    obtain ⟨db, _, rfl⟩ := map_eq_ok_iff.mp done
    exact observed_write observed now db
  | grant vault node enabled =>
    change vaultGrant catalog vault node enabled = _ at done
    unfold vaultGrant at done
    split at done
    · split at done
      · exact pure_eq_ok_iff.mp done ▸ observed
      · obtain ⟨_, _, done⟩ := bind_eq_ok_iff.mp done
        exact pure_eq_ok_iff.mp done ▸ observed
    · exact pure_eq_ok_iff.mp done ▸ observed
  | configureMaintenance vault policy =>
    obtain ⟨db, _, rfl⟩ := map_eq_ok_iff.mp done
    exact observed_write observed now db
  | put vault id path title content =>
    obtain ⟨written, _, rfl⟩ := map_eq_ok_iff.mp done
    exact observed_write observed now written.1
  | removeDocument vault id =>
    obtain ⟨db, _, rfl⟩ := map_eq_ok_iff.mp done
    exact observed_write observed now db
  | archive vault id revision actor reason =>
    obtain ⟨db, _, rfl⟩ := map_eq_ok_iff.mp done
    exact observed_write observed now db
  | restore vault id expected actor reason =>
    obtain ⟨db, _, rfl⟩ := map_eq_ok_iff.mp done
    exact observed_write observed now db
  | delete vault =>
    obtain ⟨db, _, done⟩ := bind_eq_ok_iff.mp done
    rw [pure_eq_ok_iff] at done
    exact done ▸ observed_write observed now db

/-- A document is not written under a free identity whose archive is of another vault. -/
def WritesOwn (catalog : Catalog) (event : CatalogEvent) : Prop :=
  match event.op with
  | .put vault id _ _ _ =>
    (∀ row ∈ catalog.db.documents.rows, row.id ≠ id) →
      ∀ other, (id, other) ∈ overlays catalog.db → other = vault
  | _ => True

theorem own_vaultPut {db next : VaultDb} {vault id : Uuid} {path title content revision : Text}
    (own : OwnOverlays db)
    (free : (∀ row ∈ db.documents.rows, row.id ≠ id) →
      ∀ other, (id, other) ∈ overlays db → other = vault)
    (done : vaultPut sha256 formats db vault id path title content = .ok (next, revision)) :
    OwnOverlays next := by
  obtain ⟨_, upserted⟩ := vaultPut_ok done
  unfold VaultDb.upsertDocument at upserted
  split at upserted
  · obtain ⟨documents, rewritten, upserted⟩ := bind_eq_ok_iff.mp upserted
    rw [orFail_eq_ok_iff] at rewritten
    rw [pure_eq_ok_iff] at upserted
    subst upserted
    refine own.mono ?_ (List.Subset.refl _)
    intro row member
    have listed := Table.rows_of_rewrite? rewritten ▸ member
    obtain ⟨old, stored, rfl⟩ := List.mem_map.mp listed
    refine ⟨old, stored, ?_⟩
    split
    · rename_i same
      exact ⟨same, rfl⟩
    · exact ⟨rfl, rfl⟩
  · rename_i absent
    have new : ∀ row ∈ db.documents.rows, row.id ≠ id := by simpa using absent
    exact own.insert upserted (free new)

theorem own_vaultArchive {db next : VaultDb} {vault id : Uuid} {revision : Text}
    {actor reason : String} {now : Int} (own : OwnOverlays db)
    (done : vaultArchive db vault id revision actor reason now = .ok next) : OwnOverlays next := by
  obtain ⟨document, room, archives, found, reserved, inserted, rfl⟩ := vaultArchive_ok done
  obtain ⟨current, shown, rfl⟩ := Option.map_eq_some_iff.mp found
  obtain ⟨currentStored, inVault, named⟩ := VaultDb.documentRow?_eq_some_iff.mp shown
  have documents : room.documents = db.documents := (sameDocuments_reserveArchive reserved).1
  intro row stored other archived
  change row ∈ room.documents.rows at stored
  rw [documents] at stored
  obtain ⟨archive, member, same⟩ := List.mem_map.mp archived
  have listed := Table.rows_of_insert? inserted ▸ member
  obtain ⟨sameId, rfl⟩ := Prod.mk.inj same
  rcases List.mem_append.mp listed with old | new
  · have kept := overlays_reserveArchive reserved ▸ mem_overlays old
    exact own row stored _ (sameId ▸ kept)
  · obtain rfl := List.mem_singleton.mp new
    rw [db.eq_of_id stored currentStored (sameId.symm.trans named.symm)]
    exact inVault.symm

theorem own_vaultRestore {db next : VaultDb} {vault id : Uuid} {expected : Text}
    {actor reason : String} {now : Int} (own : OwnOverlays db)
    (done : vaultRestore db vault id expected actor reason now = .ok next) : OwnOverlays next := by
  obtain ⟨archive, _, written, found, _, _, restored, rfl⟩ := vaultRestore_ok done
  obtain ⟨looked, inVault⟩ := Option.filter_eq_some_iff.mp found
  have inVault := of_decide_eq_true inVault
  obtain ⟨archived, named⟩ := (db.archives.lookup_eq_some_iff id archive).mp looked
  -- the one archive of the identity is of this vault
  have only : ∀ other, (id, other) ∈ overlays db → other = vault := by
    intro other listed
    obtain ⟨another, member, same⟩ := List.mem_map.mp listed
    obtain ⟨sameId, rfl⟩ := Prod.mk.inj same
    rw [db.archives.eq_of_key member archived (sameId.trans named.symm), inVault]
  have ownWritten : OwnOverlays written := by
    cases current : db.document? vault id with
    | some document =>
      rw [current] at restored
      exact Except.ok.inj restored ▸ own
    | none =>
      rw [current] at restored
      obtain ⟨saved, _, restored⟩ := bind_eq_ok_iff.mp restored
      obtain ⟨_, _, restored⟩ := bind_eq_ok_iff.mp restored
      obtain ⟨_, _, restored⟩ := bind_eq_ok_iff.mp restored
      exact own.insert restored only
  refine ownWritten.mono (fun row stored => ⟨row, stored, rfl, rfl⟩) ?_
  intro pair listed
  obtain ⟨kept, member, rfl⟩ := List.mem_map.mp listed
  exact mem_overlays (List.mem_filter.mp member).1

theorem own_reply {event : CatalogEvent} {next : Catalog} (own : OwnOverlays catalog.db)
    (writes : WritesOwn catalog event) (done : event.reply sha256 formats catalog = .ok next) :
    OwnOverlays next.db := by
  obtain ⟨op, now⟩ := event
  have fewer : ∀ {db : VaultDb}, db.documents.rows ⊆ catalog.db.documents.rows →
      db.archives = catalog.db.archives → OwnOverlays db := by
    intro db documents archives
    refine own.mono (fun row stored => ⟨row, documents stored, rfl, rfl⟩) ?_
    rw [overlays, archives]
    exact List.Subset.refl _
  cases op with
  | enroll node => exact Except.ok.inj done ▸ own
  | create vault name =>
    obtain ⟨db, created, rfl⟩ := map_eq_ok_iff.mp done
    obtain ⟨_, _, created⟩ := bind_eq_ok_iff.mp created
    obtain ⟨vaults, _, created⟩ := bind_eq_ok_iff.mp created
    obtain rfl := pure_eq_ok_iff.mp created
    exact own
  | setAvailable vault available =>
    obtain ⟨db, changed, rfl⟩ := map_eq_ok_iff.mp done
    obtain ⟨_, _, changed⟩ := bind_eq_ok_iff.mp changed
    obtain rfl := pure_eq_ok_iff.mp changed
    exact own
  | grant vault node enabled =>
    change vaultGrant catalog vault node enabled = _ at done
    unfold vaultGrant at done
    split at done
    · split at done
      · exact pure_eq_ok_iff.mp done ▸ own
      · obtain ⟨_, _, done⟩ := bind_eq_ok_iff.mp done
        exact pure_eq_ok_iff.mp done ▸ own
    · exact pure_eq_ok_iff.mp done ▸ own
  | configureMaintenance vault policy =>
    obtain ⟨db, configured, rfl⟩ := map_eq_ok_iff.mp done
    rw [(configured_of_vaultConfigureMaintenance configured).rest]
    exact own
  | put vault id path title content =>
    obtain ⟨⟨db, revision⟩, written, rfl⟩ := map_eq_ok_iff.mp done
    exact own_vaultPut own writes written
  | removeDocument vault id =>
    obtain ⟨db, removed, rfl⟩ := map_eq_ok_iff.mp done
    obtain ⟨_, _, removed⟩ := bind_eq_ok_iff.mp removed
    obtain rfl := pure_eq_ok_iff.mp removed
    exact fewer (fun _ member => (List.mem_filter.mp member).1) rfl
  | archive vault id revision actor reason =>
    obtain ⟨db, archived, rfl⟩ := map_eq_ok_iff.mp done
    exact own_vaultArchive own archived
  | restore vault id expected actor reason =>
    obtain ⟨db, restored, rfl⟩ := map_eq_ok_iff.mp done
    exact own_vaultRestore own restored
  | delete vault =>
    obtain ⟨db, deleted, done⟩ := bind_eq_ok_iff.mp done
    obtain rfl := pure_eq_ok_iff.mp done
    obtain ⟨_, _, deleted⟩ := bind_eq_ok_iff.mp deleted
    obtain rfl := pure_eq_ok_iff.mp deleted
    exact fewer (fun _ member => (List.mem_filter.mp member).1) rfl

/-- In every run that writes no document under an identity archived in another vault, the curation
scan and the readers agree in every state, and what is visible can be archived. -/
theorem views_agree (index : VaultIndex) {events : List CatalogEvent}
    (guarded : EachStep (Catalog.step sha256 formats) Catalog.empty WritesOwn events)
    (moment : Nat) : ViewsAgree index (catalogAt sha256 formats events moment) := by
  have kept := guarded.invariant (fun catalog => Observed catalog ∧ OwnOverlays catalog.db)
    ⟨nofun, nofun⟩ (by
      intro catalog event writes ⟨observed, own⟩
      unfold Catalog.step
      split
      · rename_i next done
        exact ⟨observed_reply observed done, own_reply own writes done⟩
      · exact ⟨observed, own⟩) moment
  exact viewsAgree_of_own index kept.1 kept.2

end Runs

section Examples

/-- A minute of the clock between transactions. -/
def CatalogOp.at (op : CatalogOp) (minute : Nat) : CatalogEvent := ⟨op, minute * 60000⟩

def note : Text := "a note".toList

def noteRevision : Text := revisionOf id 5 "note.md".toList "Note".toList note

/-- Two vaults, both ready and granted to a node; a document of the first is archived and removed,
and written under the same identity in the second. -/
def movedNote : List CatalogEvent :=
  [(CatalogOp.enroll 9).at 0, (CatalogOp.create 1 "First").at 0, (CatalogOp.create 2 "Second").at 0,
    (CatalogOp.setAvailable 1 true).at 0, (CatalogOp.setAvailable 2 true).at 0,
    (CatalogOp.grant 1 9 true).at 0, (CatalogOp.grant 2 9 true).at 0,
    (CatalogOp.put 1 5 "note.md".toList "Note".toList note).at 1,
    (CatalogOp.archive 1 5 noteRevision "owner" "old").at 2,
    (CatalogOp.removeDocument 1 5).at 3,
    (CatalogOp.put 2 5 "note.md".toList "Note".toList note).at 4]

/-- The scan and the readers do not always agree. -/
theorem moved_note_unseen :
    ¬ ∀ (index : VaultIndex) (sha256 : Text → Text) (formats : DateFormats)
      (events : List CatalogEvent) (moment : Nat),
      ViewsAgree index (catalogAt sha256 formats events moment) := by
  intro agree
  have views := agree ⟨fun _ _ => false, fun _ _ => [], fun _ _ _ _ => true⟩ id noDates movedNote 11
  let scan : Scan (catalogAt id noDates movedNote 11) :=
    { node := 9
      vault := 2
      days := 90
      observedAt := 300000
      info := ⟨2, "Second", .ready⟩
      report := ⟨[], [], 300000, .ready, 90⟩
      granted := by decide +kernel
      scanned := by decide +kernel }
  have readable : ∃ revision document,
      vaultRead (catalogAt id noDates movedNote 11) 9 2 5 revision = .ok document :=
    ⟨noteRevision, ⟨5, 2, "note.md".toList, noteRevision, "Note".toList, note⟩, by decide +kernel⟩
  obtain ⟨_, listed, _⟩ := (views.read scan 5).mpr readable
  cases listed

/-- A document that is archived, removed and written again in its own vault. -/
def rewrittenNote : List CatalogEvent :=
  [(CatalogOp.create 1 "First").at 0, (CatalogOp.put 1 5 "note.md".toList "Note".toList note).at 1,
    (CatalogOp.archive 1 5 noteRevision "owner" "old").at 2,
    (CatalogOp.removeDocument 1 5).at 3,
    (CatalogOp.put 1 5 "again.md".toList "Note".toList note).at 4]

theorem views_agree_rewrittenNote :
    ViewsAgree ⟨fun _ _ => false, fun _ _ => [], fun _ _ _ _ => true⟩
      (catalogAt id noDates rewrittenNote 5) := by
  refine views_agree _ (eachStep_of_lt ?_) 5
  intro count inside
  change count < 5 at inside
  interval_cases count
  · trivial
  · exact fun _ other archived => nomatch archived
  · trivial
  · trivial
  · intro _ other archived
    have archives : overlays (catalogAt id noDates rewrittenNote 4).db = [(5, 1)] := by
      decide +kernel
    have listed := List.mem_singleton.mp (archives ▸ archived)
    exact (Prod.mk.inj listed).2

end Examples

end OHHive.Vault
