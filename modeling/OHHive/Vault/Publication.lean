import OHHive.Vault.Folder

/-! What one publication makes of a vault: its documents are the folder's notes, identities stay where
their path or their only copy stays, and unchanged rows are not written. -/

namespace OHHive.Vault

open Foundation

section Publications

variable {sha256 : Text → Text} {before after : VaultDb} {vault : Uuid}

/-- The documents of a vault carry the digests of their own texts. -/
def Honest (sha256 : Text → Text) (db : VaultDb) (vault : Uuid) : Prop :=
  ∀ row ∈ db.documentsOf vault,
    row.revision = revisionOf sha256 row.id row.path row.title row.content

/-- What a publication of some notes makes of a vault. -/
structure Published (sha256 : Text → Text) (before after : VaultDb) (vault : Uuid)
    (notes : List Note) : Prop where
  sound : ∀ row ∈ after.documentsOf vault, row.note ∈ notes
  digests : Honest sha256 after vault
  complete : ∀ note ∈ notes, ∃ row ∈ after.documentsOf vault, row.note = note
  distinctIds : ((after.documentsOf vault).map (·.id)).Nodup
  samePath : ∀ old ∈ before.documentsOf vault, ∀ row ∈ after.documentsOf vault,
    row.path = old.path → row.id = old.id
  /-- Moved to a new path, away from one that is gone. -/
  moved : ∀ old ∈ before.documentsOf vault, ∀ row ∈ after.documentsOf vault,
    row.content = old.content → old.path ∉ notes.map Note.path →
    row.path ∉ (before.documentsOf vault).map (·.path) →
    (∀ other ∈ before.documentsOf vault, other.content = old.content → other = old) →
    (∀ other ∈ after.documentsOf vault, other.content = old.content → other = row) →
    row.id = old.id
  /-- Unchanged rows, and those of other vaults, stay where they are. -/
  unwritten : ∃ written,
    after.documents.rows =
      (before.documents.rows.filter fun row => row.vaultId ≠ vault ∨ row.note ∈ notes) ++ written ∧
    ∀ row ∈ written, row.vaultId = vault ∧ ∀ old ∈ before.documentsOf vault, old.note ≠ row.note

theorem mem_documentsOf {db : VaultDb} {row : DocumentRow} :
    row ∈ db.documentsOf vault ↔ row ∈ db.documents.rows ∧ row.vaultId = vault := by
  rw [VaultDb.documentsOf, List.mem_filter, decide_eq_true_iff]

theorem VaultDb.nodup_documents (db : VaultDb) : db.documents.rows.Nodup :=
  db.documents.distinct.imp fun free same => free (Or.inl (congrArg (·.id) same))

theorem VaultDb.nodup_ids (db : VaultDb) : (db.documents.rows.map (·.id)).Nodup := by
  rw [List.Nodup, List.pairwise_map]
  exact db.documents.distinct.imp fun free same => free (Or.inl same)

theorem documentsOf_ids {db : VaultDb} {first second : DocumentRow}
    (inFirst : first ∈ db.documentsOf vault) (inSecond : second ∈ db.documentsOf vault)
    (same : first.id = second.id) : first = second :=
  db.eq_of_id (mem_documentsOf.mp inFirst).1 (mem_documentsOf.mp inSecond).1 same

theorem documentsOf_paths {db : VaultDb} {first second : DocumentRow}
    (inFirst : first ∈ db.documentsOf vault) (inSecond : second ∈ db.documentsOf vault)
    (same : first.path = second.path) : first = second := by
  obtain ⟨stored, inVault⟩ := mem_documentsOf.mp inFirst
  obtain ⟨kept, alsoInVault⟩ := mem_documentsOf.mp inSecond
  exact db.eq_of_path stored kept (inVault.trans alsoInVault.symm) same

/-- What planning relies on: stored digests are honest, distinct texts have distinct digests, and a
minted identity is new. -/
structure Plannable (sha256 : Text → Text) (fresh : Text → Uuid) (before : VaultDb) (vault : Uuid)
    (snapshot : FolderSnapshot) : Prop where
  honest : Honest sha256 before vault
  collisionFree : Function.Injective sha256
  minted : ∀ note ∈ snapshot.notes, ∀ row ∈ before.documentsOf vault, fresh note.path ≠ row.id

namespace Plannable

variable {fresh : Text → Uuid} {snapshot : FolderSnapshot} {generation now : Int}
  {status : VaultScanStatus} (plan : Plannable sha256 fresh before vault snapshot)

include plan

theorem kept_iff {row : DocumentRow} (stored : row ∈ before.documentsOf vault) :
    row.id ∈ keptIds sha256 fresh vault (before.documentsOf vault) snapshot.notes ↔
      row.note ∈ snapshot.notes := by
  rw [mem_keptIds_iff (fun _ inFirst _ inSecond => documentsOf_paths inFirst inSecond) plan.honest
    plan.collisionFree]
  constructor
  · rintro ⟨other, member, present, same⟩
    exact documentsOf_ids member stored same ▸ present
  · intro present
    exact ⟨row, stored, present, rfl⟩

theorem mem_insertedRows_iff {row : DocumentRow} :
    row ∈ insertedRows sha256 fresh vault (before.documentsOf vault) snapshot.notes ↔
      ∃ note ∈ snapshot.notes, (∀ old ∈ before.documentsOf vault, old.note ≠ note) ∧
        row = rowOf sha256 fresh vault (before.documentsOf vault) snapshot.notes note := by
  have left {note : Note} (present : note ∈ snapshot.notes) :
      identityOf fresh (before.documentsOf vault) snapshot.notes note ∈
          keptIds sha256 fresh vault (before.documentsOf vault) snapshot.notes ↔
        ∃ row ∈ before.documentsOf vault, row.note = note :=
    identityOf_mem_keptIds_iff (fun _ inFirst _ inSecond => documentsOf_ids inFirst inSecond)
      (fun _ inFirst _ inSecond => documentsOf_paths inFirst inSecond) plan.honest
      plan.collisionFree snapshot.distinct plan.minted present
  constructor
  · intro inserted
    obtain ⟨planned, added⟩ := List.mem_filter.mp inserted
    obtain ⟨note, present, rfl⟩ := List.mem_map.mp planned
    refine ⟨note, present, ?_, rfl⟩
    intro old stored same
    exact of_decide_eq_true added ((left present).mpr ⟨old, stored, same⟩)
  · rintro ⟨note, present, new, rfl⟩
    refine List.mem_filter.mpr ⟨List.mem_map_of_mem present, decide_eq_true ?_⟩
    intro kept
    obtain ⟨old, stored, same⟩ := (left present).mp kept
    exact new old stored same

variable (done : publishFolder before vault generation
  (removedIds sha256 fresh vault (before.documentsOf vault) snapshot.notes)
  (insertedRows sha256 fresh vault (before.documentsOf vault) snapshot.notes) now =
    .ok (after, status))

include done

/-- The rows after a publication: those that stay, and then the new ones. -/
theorem rows_after :
    after.documents.rows =
      (before.documents.rows.filter fun row =>
        row.vaultId ≠ vault ∨ row.note ∈ snapshot.notes) ++
      insertedRows sha256 fresh vault (before.documentsOf vault) snapshot.notes := by
  obtain ⟨_, rows, _, _⟩ := of_publishFolder done
  rw [rows]
  congr 1
  apply List.filter_congr
  intro row member
  by_cases inVault : row.vaultId = vault
  · have stored := mem_documentsOf.mpr ⟨member, inVault⟩
    have removed : row.id ∈ removedIds sha256 fresh vault (before.documentsOf vault)
        snapshot.notes ↔ row.note ∉ snapshot.notes := by
      rw [← plan.kept_iff stored]
      constructor
      · intro dropped
        obtain ⟨other, inFilter, same⟩ := List.mem_map.mp dropped
        rw [← same]
        exact of_decide_eq_true (List.mem_filter.mp inFilter).2
      · intro unkept
        exact List.mem_map.mpr ⟨row, List.mem_filter.mpr ⟨stored, decide_eq_true unkept⟩, rfl⟩
    simp [inVault, removed]
  · simp [inVault]

theorem mem_after_iff {row : DocumentRow} :
    row ∈ after.documentsOf vault ↔
      (row ∈ before.documentsOf vault ∧ row.note ∈ snapshot.notes) ∨
        ∃ note ∈ snapshot.notes, (∀ old ∈ before.documentsOf vault, old.note ≠ note) ∧
          row = rowOf sha256 fresh vault (before.documentsOf vault) snapshot.notes note := by
  rw [mem_documentsOf, plan.rows_after done, List.mem_append, plan.mem_insertedRows_iff,
    List.mem_filter, mem_documentsOf, decide_eq_true_iff]
  constructor
  · rintro ⟨⟨member, kept⟩ | added, inVault⟩
    · exact Or.inl ⟨⟨member, inVault⟩, kept.resolve_left (fun other => other inVault)⟩
    · exact Or.inr added
  · rintro (⟨⟨member, inVault⟩, kept⟩ | ⟨note, present, new, rfl⟩)
    · exact ⟨Or.inl ⟨member, Or.inr kept⟩, inVault⟩
    · exact ⟨Or.inr ⟨note, present, new, rfl⟩, rfl⟩

theorem complete {note : Note} (present : note ∈ snapshot.notes) :
    ∃ row ∈ after.documentsOf vault, row.note = note := by
  by_cases stands : ∃ old ∈ before.documentsOf vault, old.note = note
  · obtain ⟨old, stored, rfl⟩ := stands
    exact ⟨old, (plan.mem_after_iff done).mpr (Or.inl ⟨stored, present⟩), rfl⟩
  · have new : ∀ old ∈ before.documentsOf vault, old.note ≠ note :=
      fun old stored same => stands ⟨old, stored, same⟩
    exact ⟨_, (plan.mem_after_iff done).mpr (Or.inr ⟨note, present, new, rfl⟩), rfl⟩

/-- A publication planned from the documents it replaces. -/
theorem published : Published sha256 before after vault snapshot.notes where
  sound row member := by
    rcases (plan.mem_after_iff done).mp member with ⟨_, kept⟩ | ⟨note, present, _, rfl⟩
    · exact kept
    · exact present
  digests row member := by
    rcases (plan.mem_after_iff done).mp member with ⟨stored, _⟩ | ⟨note, _, _, rfl⟩
    · exact plan.honest row stored
    · rfl
  complete note present := plan.complete done present
  distinctIds := by
    have part : (after.documentsOf vault).Sublist after.documents.rows := List.filter_sublist
    exact (part.map _).nodup after.nodup_ids
  samePath old stored row member same := by
    rcases (plan.mem_after_iff done).mp member with ⟨kept, _⟩ | ⟨note, _, _, rfl⟩
    · rw [documentsOf_paths kept stored same]
    · exact identityOf_samePath (fun _ inFirst _ inSecond => documentsOf_paths inFirst inSecond)
        stored same.symm
  moved old stored row member sameContent gone new uniqueBefore uniqueAfter := by
    rcases (plan.mem_after_iff done).mp member with ⟨kept, _⟩ | ⟨note, present, _, rfl⟩
    · exact absurd (List.mem_map.mpr ⟨row, kept, rfl⟩) new
    · apply identityOf_moved (before.nodup_documents.filter _) snapshot.distinct stored present
        sameContent gone new uniqueBefore
      intro other inNotes same
      obtain ⟨copy, inAfter, rfl⟩ := plan.complete done inNotes
      rw [uniqueAfter copy inAfter same]
      rfl
  unwritten := by
    refine ⟨_, plan.rows_after done, ?_⟩
    intro row inserted
    obtain ⟨note, _, new, rfl⟩ := plan.mem_insertedRows_iff.mp inserted
    exact ⟨rfl, new⟩

end Plannable

end Publications

end OHHive.Vault
