import OHHive.Vault.Documents

/-! Folder vaults. A scan reads the folder twice, plans the rows from what the store has, and
publishes them in one transaction if no other scan came first. -/

namespace OHHive.Vault

open Foundation

section Planning

/-- A Markdown file of the folder. -/
structure Note where
  path : Text
  title : Text
  content : Text
deriving DecidableEq, Repr

/-- The files of one walk through the folder. -/
structure FolderSnapshot where
  notes : List Note
  distinct : (notes.map Note.path).Nodup

instance : DecidableEq FolderSnapshot := fun first second =>
  decidable_of_iff (first.notes = second.notes) (by cases first; cases second; simp)

def DocumentRow.note (row : DocumentRow) : Note := ⟨row.path, row.title, row.content⟩

/-- The documents of a vault. -/
def VaultDb.documentsOf (db : VaultDb) (vault : Uuid) : List DocumentRow :=
  db.documents.rows.filter (·.vaultId = vault)

variable (sha256 : Text → Text) (fresh : Text → Uuid) (vault : Uuid) (old : List DocumentRow)
  (notes : List Note)

/-- `removed`: the identities whose path is gone, by content. -/
def removedUnder (content : Text) : List Uuid :=
  (old.filter fun row => row.path ∉ notes.map Note.path ∧ row.content = content).map (·.id)

/-- `added`: how many notes under new paths have a content. -/
def addedUnder (content : Text) : Nat :=
  notes.countP fun note => note.path ∉ old.map (·.path) ∧ note.content = content

/-- A note keeps the identity of its path, takes that of the one document it was moved from, or
gets a new one. -/
def identityOf (note : Note) : Uuid :=
  match old.find? (·.path = note.path) with
  | some row => row.id
  | none =>
    match removedUnder old notes note.content with
    | [id] => if addedUnder old notes note.content = 1 then id else fresh note.path
    | _ => fresh note.path

/-- The row of a note; a folder's documents carry no date. -/
def rowOf (note : Note) : DocumentRow :=
  let id := identityOf fresh old notes note
  ⟨⟨id, vault, note.path, revisionOf sha256 id note.path note.title note.content, note.title,
    note.content⟩, none⟩

def plannedRows : List DocumentRow := notes.map (rowOf sha256 fresh vault old notes)

/-- `keep`: the identities whose revision at their path is the stored one. -/
def keptIds : List Uuid :=
  ((plannedRows sha256 fresh vault old notes).filter fun row =>
    old.any fun stored => stored.path = row.path && stored.revision = row.revision).map (·.id)

/-- `removed_ids`: what is deleted before the replacements are inserted. -/
def removedIds : List Uuid :=
  (old.filter (·.id ∉ keptIds sha256 fresh vault old notes)).map (·.id)

def insertedRows : List DocumentRow :=
  (plannedRows sha256 fresh vault old notes).filter (·.id ∉ keptIds sha256 fresh vault old notes)

end Planning

section Publishing

structure VaultScanStatus where
  generation : Int
  indexedAt : Option Int
  lastError : Option String
deriving DecidableEq, Repr

/-- The vault is served again, one generation later. -/
def VaultDb.markPublished (db : VaultDb) (vault : Uuid) (now : Int) : VaultDb :=
  { db with
    sources := db.sources.updateWhere (fun source => source.vaultId = vault)
      (fun source => { source with
        generation := source.generation + 1, indexedAt := some now, lastError := none })
      (fun _ => rfl) }.setState vault .ready

/-- The transaction of `reconcile_folder`. -/
def publishFolder (db : VaultDb) (vault : Uuid) (generation : Int) (removed : List Uuid)
    (inserted : List DocumentRow) (now : Int) : Result (VaultDb × VaultScanStatus) := do
  let source ← orFail (db.sources.lookup vault) dbError
  require (source.generation = generation) (rejected "superseded vault scan")
  let db := removed.foldl (fun db id => db.deleteDocument vault id) db
  let db ← inserted.foldlM VaultDb.insertDocument db
  return (db.markPublished vault now, ⟨generation + 1, some now, none⟩)

/-- The transaction behind a failed scan: it counts unless a newer scan has come first. -/
def failScan (db : VaultDb) (vault : Uuid) (generation : Int) : VaultDb :=
  let current := db.sources.rows.any fun source =>
    source.vaultId = vault && source.generation = generation
  let db := if current then db.setState vault .unavailable else db
  { db with
    sources := db.sources.updateWhere
      (fun source => source.vaultId = vault ∧ source.generation = generation)
      (fun source => { source with
        generation := source.generation + 1
        lastError := some "Source scan failed; existing index preserved" })
      (fun _ => rfl) }

/-- `vault_attach_folder`, once the folder is open: the vault must be empty. -/
def vaultAttachFolder (db : VaultDb) (vault : Uuid) (root rootIdentity : Text) : Result VaultDb := do
  require (db.documentsOf vault = []) (rejected "attach a folder to a new empty vault")
  require ((db.vaults.lookup vault).isSome) dbError
  let sources ← orFail (db.sources.insert? ⟨vault, root, rootIdentity, 0, none, none⟩) dbError
  return { db with sources }.setState vault .unavailable

/-- `vault_delete`: the documents and the folder go with the vault, its archives stay. -/
def vaultDelete (db : VaultDb) (vault : Uuid) : Result VaultDb := do
  require ((db.vaults.lookup vault).isSome) (rejected "collection not found")
  return { db with
    vaults := db.vaults.keep (·.id ≠ vault)
    sources := db.sources.keep (·.vaultId ≠ vault)
    documents := db.documents.keep (·.vaultId ≠ vault)
    intake := db.intake.keep (·.vaultId ≠ vault)
    maintenance := db.maintenance.keep (·.vaultId ≠ vault) }

/-- What opening the store does: a folder must be scanned again before its vault is served. -/
def reopenVaults (db : VaultDb) : VaultDb :=
  { db with
    vaults := db.vaults.update
      (fun info => { info with state := if db.folderBacked info.id then .unavailable else .ready })
      (fun _ _ same => same) }

variable {db next : VaultDb} {vault : Uuid} {generation now : Int} {status : VaultScanStatus}

theorem rows_deleteAll (db : VaultDb) (vault : Uuid) (removed : List Uuid) :
    (removed.foldl (fun db id => db.deleteDocument vault id) db).documents.rows =
      db.documents.rows.filter fun row => !(row.vaultId = vault ∧ row.id ∈ removed) := by
  induction removed generalizing db with
  | nil => simp
  | cons id removed ih =>
    rw [List.foldl_cons, ih, VaultDb.deleteDocument, Table.rows_keep, List.filter_filter]
    congr 1
    funext row
    by_cases inVault : row.vaultId = vault
    · by_cases named : row.id = id
      · simp [inVault, named]
      · simp [inVault, named]
    · simp [inVault]

theorem others_deleteAll (db : VaultDb) (vault : Uuid) (removed : List Uuid) :
    (removed.foldl (fun db id => db.deleteDocument vault id) db).sources = db.sources ∧
      (removed.foldl (fun db id => db.deleteDocument vault id) db).vaults = db.vaults := by
  induction removed generalizing db with
  | nil => exact ⟨rfl, rfl⟩
  | cons id removed ih => exact ih (db.deleteDocument vault id)

theorem of_insertDocument {row : DocumentRow} (done : db.insertDocument row = .ok next) :
    next.documents.rows = db.documents.rows ++ [row] ∧ next.sources = db.sources ∧
      next.vaults = db.vaults := by
  unfold VaultDb.insertDocument at done
  obtain ⟨_, _, done⟩ := bind_eq_ok_iff.mp done
  obtain ⟨documents, inserted, done⟩ := bind_eq_ok_iff.mp done
  rw [orFail_eq_ok_iff] at inserted
  rw [pure_eq_ok_iff] at done
  subst done
  exact ⟨Table.rows_of_insert? inserted, rfl, rfl⟩

theorem of_insertAll {rows : List DocumentRow}
    (done : rows.foldlM VaultDb.insertDocument db = .ok next) :
    next.documents.rows = db.documents.rows ++ rows ∧ next.sources = db.sources ∧
      next.vaults = db.vaults := by
  induction rows generalizing db with
  | nil =>
    rw [List.foldlM_nil, pure_eq_ok_iff] at done
    subst done
    exact ⟨(List.append_nil _).symm, rfl, rfl⟩
  | cons row rows ih =>
    rw [List.foldlM_cons] at done
    obtain ⟨middle, inserted, done⟩ := bind_eq_ok_iff.mp done
    obtain ⟨head, sources, vaults⟩ := of_insertDocument inserted
    obtain ⟨tail, laterSources, laterVaults⟩ := ih done
    refine ⟨?_, laterSources.trans sources, laterVaults.trans vaults⟩
    rw [tail, head, List.append_assoc, List.singleton_append]

/-- What a publication does: it was still current, and replaces rows of its vault. -/
theorem of_publishFolder {removed : List Uuid} {inserted : List DocumentRow}
    (done : publishFolder db vault generation removed inserted now = .ok (next, status)) :
    (∃ source, db.sources.lookup vault = some source ∧ source.generation = generation) ∧
      next.documents.rows =
        (db.documents.rows.filter fun row => !(row.vaultId = vault ∧ row.id ∈ removed)) ++ inserted ∧
      next.sources.rows = db.sources.rows.map (fun source =>
        if source.vaultId = vault then { source with
          generation := source.generation + 1, indexedAt := some now, lastError := none }
        else source) ∧
      next.vaults.rows.map (·.id) = db.vaults.rows.map (·.id) := by
  unfold publishFolder at done
  obtain ⟨source, found, done⟩ := bind_eq_ok_iff.mp done
  obtain ⟨_, current, done⟩ := bind_eq_ok_iff.mp done
  obtain ⟨written, insertions, done⟩ := bind_eq_ok_iff.mp done
  rw [orFail_eq_ok_iff] at found
  rw [require_eq_ok_iff] at current
  rw [pure_eq_ok_iff, Prod.mk.injEq] at done
  obtain ⟨rfl, _⟩ := done
  obtain ⟨rows, sources, vaults⟩ := of_insertAll insertions
  obtain ⟨sameSources, sameVaults⟩ := others_deleteAll db vault removed
  refine ⟨⟨source, found, current⟩, ?_, ?_, ?_⟩
  · exact rows.trans (by rw [rows_deleteAll])
  · simp [VaultDb.markPublished, VaultDb.setState, sources, sameSources]
  · rw [VaultDb.markPublished, VaultDb.setState, vaults, sameVaults, Table.rows_updateWhere,
      List.map_map]
    apply List.map_congr_left
    intro info _
    rw [Function.comp_apply]
    split <;> rfl

/-- A failing scan that a newer generation has overtaken changes nothing. -/
theorem failScan_stale
    (stale : ∀ source ∈ db.sources.rows, source.vaultId = vault → source.generation ≠ generation) :
    failScan db vault generation = db := by
  have outdated : (db.sources.rows.any fun source =>
      source.vaultId = vault && source.generation = generation) = false := by
    simpa using stale
  simp only [failScan, outdated, Bool.false_eq_true, if_false]
  rw [Table.updateWhere_eq_self]
  simpa using stale

end Publishing

section Identities

variable {sha256 : Text → Text} {fresh : Text → Uuid} {vault : Uuid} {old : List DocumentRow}
  {notes : List Note} {note : Note} {row : DocumentRow}

theorem note_eq_of_path {other : Note} (distinct : (notes.map Note.path).Nodup)
    (first : note ∈ notes) (second : other ∈ notes) (same : note.path = other.path) :
    note = other :=
  List.inj_on_of_nodup_map distinct first second same

/-- Which identity a note gets. -/
theorem identityOf_cases (fresh : Text → Uuid) (old : List DocumentRow) (notes : List Note)
    (note : Note) :
    (∃ row ∈ old, row.path = note.path ∧ identityOf fresh old notes note = row.id) ∨
      (∃ row ∈ old, row.path ∉ notes.map Note.path ∧ identityOf fresh old notes note = row.id) ∨
      identityOf fresh old notes note = fresh note.path := by
  unfold identityOf
  split
  · rename_i row found
    refine Or.inl ⟨row, List.mem_of_find?_eq_some found, ?_, rfl⟩
    simpa using List.find?_some found
  · split
    · rename_i id alone
      split
      · have member : id ∈ removedUnder old notes note.content := by simp [alone]
        obtain ⟨row, removed, named⟩ := List.mem_map.mp member
        obtain ⟨stored, gone⟩ := List.mem_filter.mp removed
        exact Or.inr (Or.inl ⟨row, stored, (of_decide_eq_true gone).1, named.symm⟩)
      · exact Or.inr (Or.inr rfl)
    · exact Or.inr (Or.inr rfl)

/-- A document at the same path keeps its identity. -/
theorem identityOf_samePath
    (paths : ∀ first ∈ old, ∀ second ∈ old, first.path = second.path → first = second)
    (stored : row ∈ old) (same : row.path = note.path) : identityOf fresh old notes note = row.id := by
  unfold identityOf
  split
  · rename_i found present
    have samePath : found.path = note.path := by simpa using List.find?_some present
    rw [paths found (List.mem_of_find?_eq_some present) row stored (samePath.trans same.symm)]
  · rename_i absent
    have missing := List.find?_eq_none.mp absent row stored
    simp [same] at missing

/-- A duplicate-free list filtered down to one of its members. -/
theorem filter_eq_singleton {α : Type} [DecidableEq α] {rows : List α} {row : α}
    (selects : α → Bool) (apart : rows.Nodup) (member : row ∈ rows)
    (only : ∀ other ∈ rows, selects other = true ↔ other = row) : rows.filter selects = [row] := by
  calc rows.filter selects
      = rows.filter (· == row) := by
        apply List.filter_congr
        intro other inRows
        rw [Bool.eq_iff_iff, only other inRows, beq_iff_eq]
    _ = List.replicate (rows.count row) row := List.filter_beq row
    _ = [row] := by rw [List.count_eq_one_of_mem apart member, List.replicate_one]

/-- A document whose content is found once before and once after keeps its identity when its path is
gone and the new path is new. -/
theorem identityOf_moved (apart : old.Nodup) (distinct : (notes.map Note.path).Nodup)
    (stored : row ∈ old) (present : note ∈ notes) (sameContent : note.content = row.content)
    (gone : row.path ∉ notes.map Note.path) (new : note.path ∉ old.map (·.path))
    (uniqueBefore : ∀ other ∈ old, other.content = row.content → other = row)
    (uniqueAfter : ∀ other ∈ notes, other.content = row.content → other = note) :
    identityOf fresh old notes note = row.id := by
  have unfound : old.find? (·.path = note.path) = none := by
    rw [List.find?_eq_none]
    intro other member same
    exact new (List.mem_map.mpr ⟨other, member, of_decide_eq_true same⟩)
  have removed : removedUnder old notes note.content = [row.id] := by
    have alone := filter_eq_singleton
      (fun row => row.path ∉ notes.map Note.path ∧ row.content = note.content)
      apart stored (by
        intro other member
        rw [decide_eq_true_iff]
        constructor
        · rintro ⟨_, same⟩
          exact uniqueBefore other member (same.trans sameContent)
        · rintro rfl
          exact ⟨gone, sameContent.symm⟩)
    rw [removedUnder, alone, List.map_singleton]
  have added : addedUnder old notes note.content = 1 := by
    have alone := filter_eq_singleton
      (fun other => other.path ∉ old.map (·.path) ∧ other.content = note.content)
      (List.Nodup.of_map _ distinct) present (by
        intro other member
        rw [decide_eq_true_iff]
        constructor
        · rintro ⟨_, same⟩
          exact uniqueAfter other member (same.trans sameContent)
        · rintro rfl
          exact ⟨new, rfl⟩)
    rw [addedUnder, List.countP_eq_length_filter, alone, List.length_singleton]
  simp only [identityOf, unfound, removed, added, if_true]

variable (ids : ∀ first ∈ old, ∀ second ∈ old, first.id = second.id → first = second)
  (paths : ∀ first ∈ old, ∀ second ∈ old, first.path = second.path → first = second)
  (honest : ∀ row ∈ old, row.revision = revisionOf sha256 row.id row.path row.title row.content)
  (collisionFree : Function.Injective sha256)

include paths honest collisionFree in
/-- The kept identities are those of the documents that the folder still has as they are. -/
theorem mem_keptIds_iff {id : Uuid} :
    id ∈ keptIds sha256 fresh vault old notes ↔ ∃ row ∈ old, row.note ∈ notes ∧ row.id = id := by
  constructor
  · intro kept
    obtain ⟨planned, inFilter, named⟩ := List.mem_map.mp kept
    obtain ⟨inPlan, current⟩ := List.mem_filter.mp inFilter
    obtain ⟨note, present, rfl⟩ := List.mem_map.mp inPlan
    obtain ⟨row, stored, same⟩ := List.any_eq_true.mp current
    rw [Bool.and_eq_true, decide_eq_true_eq, decide_eq_true_eq] at same
    obtain ⟨samePath, sameRevision⟩ := same
    have keeps : identityOf fresh old notes note = row.id :=
      identityOf_samePath paths stored samePath
    have revised : revisionOf sha256 row.id row.path row.title row.content =
        revisionOf sha256 (identityOf fresh old notes note) note.path note.title note.content :=
      (honest row stored).symm.trans sameRevision
    obtain ⟨_, path, title, content⟩ := (revisionOf_inj collisionFree).mp revised
    refine ⟨row, stored, ?_, keeps.symm.trans named⟩
    rw [DocumentRow.note, path, title, content]
    exact present
  · rintro ⟨row, stored, present, rfl⟩
    have keeps : identityOf fresh old notes row.note = row.id := identityOf_samePath paths stored rfl
    refine List.mem_map.mpr ⟨rowOf sha256 fresh vault old notes row.note, ?_, keeps⟩
    refine List.mem_filter.mpr ⟨List.mem_map_of_mem present, ?_⟩
    refine List.any_eq_true.mpr ⟨row, stored, ?_⟩
    rw [Bool.and_eq_true, decide_eq_true_eq, decide_eq_true_eq]
    refine ⟨rfl, ?_⟩
    rw [honest row stored]
    show _ = revisionOf sha256 (identityOf fresh old notes row.note) _ _ _
    rw [keeps]
    rfl

include ids paths honest collisionFree in
/-- A note's planned row is left out exactly if the note is a document's as it stands. -/
theorem identityOf_mem_keptIds_iff (distinct : (notes.map Note.path).Nodup)
    (minted : ∀ note ∈ notes, ∀ row ∈ old, fresh note.path ≠ row.id) (present : note ∈ notes) :
    identityOf fresh old notes note ∈ keptIds sha256 fresh vault old notes ↔
      ∃ row ∈ old, row.note = note := by
  rw [mem_keptIds_iff paths honest collisionFree]
  constructor
  · rintro ⟨row, stored, kept, named⟩
    refine ⟨row, stored, ?_⟩
    rcases identityOf_cases fresh old notes note with
      ⟨other, member, samePath, same⟩ | ⟨other, member, gone, same⟩ | new
    · have alike := ids row stored other member (named.trans same)
      exact note_eq_of_path distinct kept present (alike ▸ samePath)
    · have alike := ids row stored other member (named.trans same)
      exact absurd (List.mem_map_of_mem kept) (alike ▸ gone)
    · exact absurd (named.trans new).symm (minted note present row stored)
  · rintro ⟨row, stored, rfl⟩
    exact ⟨row, stored, present, (identityOf_samePath paths stored rfl).symm⟩

end Identities

end OHHive.Vault
