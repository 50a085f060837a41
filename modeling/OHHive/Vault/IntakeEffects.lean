import OHHive.Vault.IntakeHost

/-! What one item does to the documents and the receipts. -/

namespace OHHive.Vault

open Foundation
open Coder (byteLength)

section Documents

variable {db next : VaultDb} {vault id : Uuid} {row other : DocumentRow}

/-- The row under an identity, in whichever vault. -/
def VaultDb.held? (db : VaultDb) (id : Uuid) : Option DocumentRow :=
  db.documents.rows.find? (·.id = id)

theorem VaultDb.held?_eq_some_iff :
    db.held? id = some row ↔ row ∈ db.documents.rows ∧ row.id = id :=
  db.documents.find?_eq_some_iff (fun _ _ => DocumentRow.Clash.symm) (fun row => row.id)
    (fun _ _ => Or.inl) id row

theorem VaultDb.held?_eq_none_iff :
    db.held? id = none ↔ ∀ row ∈ db.documents.rows, row.id ≠ id := by
  simp [VaultDb.held?, List.find?_eq_none]

def VaultDb.vaultBytes (db : VaultDb) (vault : Uuid) : Int :=
  ((db.documents.rows.filter fun row => row.vaultId = vault).map
    fun row => (byteLength row.content : Int)).sum

/-- The rows besides the written one stay. -/
theorem mem_upsertDocument
    (owned : ∀ stored ∈ db.documents.rows, stored.id = row.id → stored.vaultId = row.vaultId)
    (done : db.upsertDocument row = .ok next) (other : DocumentRow) :
    other ∈ next.documents.rows ↔
      other = row ∨ other ∈ db.documents.rows ∧ other.id ≠ row.id := by
  unfold VaultDb.upsertDocument at done
  split at done
  · rename_i present
    obtain ⟨documents, rewritten, done⟩ := bind_eq_ok_iff.mp done
    rw [orFail_eq_ok_iff] at rewritten
    obtain rfl := pure_eq_ok_iff.mp done
    obtain ⟨old, held, named⟩ := List.any_eq_true.mp present
    have named := of_decide_eq_true named
    change other ∈ documents.rows ↔ _
    rw [Table.rows_of_rewrite? rewritten, List.mem_map]
    constructor
    · rintro ⟨stored, member, rfl⟩
      by_cases same : stored.id = row.id
      · rw [if_pos same, owned stored member same]
        exact Or.inl rfl
      · rw [if_neg same]
        exact Or.inr ⟨member, same⟩
    · rintro (rfl | ⟨member, differs⟩)
      · exact ⟨old, held, by rw [if_pos named, owned old held named]⟩
      · exact ⟨other, member, if_neg differs⟩
  · rename_i absent
    unfold VaultDb.insertDocument at done
    obtain ⟨_, _, done⟩ := bind_eq_ok_iff.mp done
    obtain ⟨documents, inserted, done⟩ := bind_eq_ok_iff.mp done
    rw [orFail_eq_ok_iff] at inserted
    obtain rfl := pure_eq_ok_iff.mp done
    change other ∈ documents.rows ↔ _
    rw [Table.rows_of_insert? inserted, List.mem_append, List.mem_singleton]
    constructor
    · rintro (member | last)
      · exact Or.inr ⟨member, fun same =>
          absent (List.any_eq_true.mpr ⟨other, member, decide_eq_true same⟩)⟩
      · exact Or.inl last
    · rintro (last | ⟨member, _⟩)
      · exact Or.inr last
      · exact Or.inl member

theorem nodup_documents (db : VaultDb) : db.documents.rows.Nodup :=
  db.documents.distinct.imp fun free same => free (Or.inl (by rw [same]))

/-- A vault's bytes are those of one document and those of the others. -/
theorem vaultBytes_le (rows : ∀ other, other ∈ next.documents.rows ↔
      other = row ∨ other ∈ db.documents.rows ∧ other.id ≠ row.id) :
    next.vaultBytes row.vaultId ≤
      ((db.documents.rows.filter fun stored =>
        stored.vaultId = row.vaultId && stored.id ≠ row.id).map
          fun stored => (byteLength stored.content : Int)).sum + byteLength row.content := by
  have inVault := (nodup_documents next).filter fun stored => stored.vaultId = row.vaultId
  have others := (nodup_documents db).filter fun stored =>
    stored.vaultId = row.vaultId && stored.id ≠ row.id
  have fresh : row ∉ db.documents.rows.filter fun stored =>
      stored.vaultId = row.vaultId && stored.id ≠ row.id := by simp
  have same : (next.documents.rows.filter fun stored => stored.vaultId = row.vaultId).Perm
      (row :: db.documents.rows.filter fun stored =>
        stored.vaultId = row.vaultId && stored.id ≠ row.id) := by
    refine (List.perm_ext_iff_of_nodup inVault (others.cons fresh)).mpr fun stored => ?_
    rw [List.mem_filter, rows, List.mem_cons, List.mem_filter]
    by_cases own : stored = row
    · simp [own]
    · simp only [own, false_or, decide_eq_true_eq, Bool.and_eq_true]
      tauto
  rw [VaultDb.vaultBytes, (same.map _).sum_eq, List.map_cons, List.sum_cons, Int.add_comm]

end Documents

section Writes

variable {sha256 : Text → Text} {db next : VaultDb} {vault id : Uuid} {revision : Text}
  {prepared? : Option Prepared}

def Prepared.row (prepared : Prepared) (vault id : Uuid) (revision : Text) : DocumentRow :=
  ⟨⟨id, vault, prepared.path, revision, prepared.title, prepared.content⟩, prepared.documentDate⟩

/-- The document of a source is the prepared one, or none; the others stay. -/
structure Wrote (db next : VaultDb) (vault id : Uuid) (revision : Text)
    (prepared? : Option Prepared) : Prop where
  rest : next = { db with documents := next.documents }
  rows : ∀ row, row ∈ next.documents.rows ↔
    (∃ prepared ∈ prepared?, row = prepared.row vault id revision) ∨
      row ∈ db.documents.rows ∧ row.id ≠ id
  bytes : prepared?.isSome → next.vaultBytes vault ≤ maxBytes

theorem wrote_of_writePrepared
    (owned : ∀ stored ∈ db.documents.rows, stored.id = id → stored.vaultId = vault)
    (done : db.writePrepared vault id revision prepared? = .ok next) :
    Wrote db next vault id revision prepared? := by
  cases prepared? with
  | none =>
    obtain rfl := Except.ok.inj done
    refine ⟨rfl, fun row => ?_, nofun⟩
    change row ∈ db.documents.rows.filter _ ↔ _
    rw [List.mem_filter]
    constructor
    · intro ⟨member, kept⟩
      refine Or.inr ⟨member, fun named => ?_⟩
      simp [named, owned row member named] at kept
    · rintro (⟨_, none, _⟩ | ⟨member, other⟩)
      · cases none
      · exact ⟨member, by simp [other]⟩
  | some prepared =>
    obtain ⟨_, room, done⟩ := bind_eq_ok_iff.mp done
    rw [require_eq_ok_iff] at room
    have rows : ∀ other, other ∈ next.documents.rows ↔
        other = prepared.row vault id revision ∨ other ∈ db.documents.rows ∧ other.id ≠ id :=
      mem_upsertDocument owned done
    refine ⟨rest_of_upsertDocument done, fun row => ?_, fun _ => ?_⟩
    · rw [rows]
      simp [Prepared.row]
    · exact (vaultBytes_le rows).trans (not_lt.mp room)

/-- The document's row after the write. -/
theorem Wrote.own (wrote : Wrote db next vault id revision prepared?) :
    next.held? id = prepared?.map (·.row vault id revision) := by
  cases prepared? with
  | none =>
    refine VaultDb.held?_eq_none_iff.mpr fun row member => ?_
    rcases (wrote.rows row).mp member with ⟨_, none, _⟩ | ⟨_, other⟩
    · cases none
    · exact other
  | some prepared =>
    exact VaultDb.held?_eq_some_iff.mpr ⟨(wrote.rows _).mpr (Or.inl ⟨prepared, rfl, rfl⟩), rfl⟩

theorem Wrote.other (wrote : Wrote db next vault id revision prepared?) {another : Uuid}
    (apart : another ≠ id) : next.held? another = db.held? another := by
  ext row
  rw [VaultDb.held?_eq_some_iff, VaultDb.held?_eq_some_iff]
  constructor
  · rintro ⟨member, rfl⟩
    rcases (wrote.rows row).mp member with ⟨prepared, _, rfl⟩ | ⟨stored, _⟩
    · exact absurd rfl apart
    · exact ⟨stored, rfl⟩
  · rintro ⟨stored, rfl⟩
    exact ⟨(wrote.rows row).mpr (Or.inr ⟨stored, apart⟩), rfl⟩

end Writes

section Items

variable (sha256 : Text → Text) (formats : DateFormats)

/-- The document is as the receipt has it, and no folder writes the vault. -/
structure Untouched (db : VaultDb) (vault source : Uuid) : Prop where
  managed : db.folderBacked vault = false
  revision : (db.held? (intakeId sha256 vault source)).map (fun row => row.revision) =
    (db.receipt? vault source).bind VaultIntake.revision
  owner : ∀ row ∈ db.held? (intakeId sha256 vault source), row.vaultId = vault

/-- The revision that a prepared document gets. -/
def revisionFor (id : Uuid) (prepared? : Option Prepared) : Option Text :=
  prepared?.map fun prepared => revisionOf sha256 id prepared.path prepared.title prepared.content

def IntakeItem.receipt (item : IntakeItem) (vault : Uuid) (prepared? : Option Prepared) :
    VaultIntake :=
  let id := intakeId sha256 vault item.sourceId
  ⟨vault, item.sourceId, item.generation, item.fingerprint sha256, id,
    revisionFor sha256 id prepared?⟩

/-- A newer generation was written, with its receipt. -/
structure Taken (db next : VaultDb) (vault : Uuid) (item : IntakeItem)
    (prepared? : Option Prepared) : Prop where
  newer : ∀ row ∈ db.receipt? vault item.sourceId, row.generation < item.generation
  prepared : prepare sha256 formats item (intakeId sha256 vault item.sourceId) = .ok prepared?
  room : db.receipt? vault item.sourceId = none →
    db.intake.rows.countP (·.vaultId = vault) < 10000
  wrote : ∃ written, Wrote db written vault (intakeId sha256 vault item.sourceId)
      ((revisionFor sha256 (intakeId sha256 vault item.sourceId) prepared?).getD []) prepared? ∧
    Recorded written next (item.receipt sha256 vault prepared?)

/-- What an accepted item comes to: its receipt is there already, or it is newer. -/
inductive Intaken (db next : VaultDb) (vault : Uuid) (item : IntakeItem)
    (receipt : IntakeReceipt) : Prop
  | kept (row : VaultIntake) (found : db.receipt? vault item.sourceId = some row)
      (generation : row.generation = item.generation)
      (print : row.fingerprint = item.fingerprint sha256) (same : next = db)
      (given : receipt = ⟨intakeId sha256 vault item.sourceId, row.revision, true⟩)
  | stored (prepared? : Option Prepared) (taken : Taken sha256 formats db next vault item prepared?)
      (given : receipt = ⟨intakeId sha256 vault item.sourceId,
        revisionFor sha256 (intakeId sha256 vault item.sourceId) prepared?, false⟩)

variable {sha256 : Text → Text} {formats : DateFormats} {db next : VaultDb} {vault : Uuid}
  {item : IntakeItem} {receipt : IntakeReceipt}

/-- What an accepted item found. -/
theorem untouched_of_vaultIntakeItem
    (done : vaultIntakeItem sha256 formats db vault item = .ok (next, receipt)) :
    0 < item.generation ∧ Untouched sha256 db vault item.sourceId := by
  obtain ⟨_, identity, done⟩ := bind_eq_ok_iff.mp done
  obtain ⟨prepared?, _, done⟩ := bind_eq_ok_iff.mp done
  unfold vaultIntake at done
  obtain ⟨_, _, done⟩ := bind_eq_ok_iff.mp done
  obtain ⟨_, managed, done⟩ := bind_eq_ok_iff.mp done
  obtain ⟨_, protects, done⟩ := bind_eq_ok_iff.mp done
  rw [require_eq_ok_iff] at identity managed protects
  exact ⟨identity.1, Bool.eq_false_iff.mpr managed, protects.1, protects.2⟩

theorem identity_of_vaultIntakeItem
    (done : vaultIntakeItem sha256 formats db vault item = .ok (next, receipt)) :
    item.sourceId ≠ ⟨0⟩ ∧
      ∃ prepared?, prepare sha256 formats item (intakeId sha256 vault item.sourceId) =
        .ok prepared? := by
  obtain ⟨_, identity, done⟩ := bind_eq_ok_iff.mp done
  obtain ⟨prepared?, made, _⟩ := bind_eq_ok_iff.mp done
  rw [require_eq_ok_iff] at identity
  exact ⟨identity.2, prepared?, made⟩

/-- An item whose receipt is there is answered with it. -/
theorem vaultIntakeItem_again {prepared? : Option Prepared} {row : VaultIntake}
    (positive : 0 < item.generation) (named : item.sourceId ≠ ⟨0⟩)
    (made : prepare sha256 formats item (intakeId sha256 vault item.sourceId) = .ok prepared?)
    (untouched : Untouched sha256 db vault item.sourceId)
    (found : db.receipt? vault item.sourceId = some row) (same : row.generation = item.generation)
    (print : row.fingerprint = item.fingerprint sha256) :
    vaultIntakeItem sha256 formats db vault item =
      .ok (db, ⟨intakeId sha256 vault item.sourceId, row.revision, true⟩) := by
  have identity : require (0 < item.generation ∧ item.sourceId ≠ ⟨0⟩)
      (rejected "invalid intake identity") = .ok () := require_eq_ok_iff.mpr ⟨positive, named⟩
  have managed : require (¬ db.folderBacked vault)
      (rejected "managed intake requires a separate non-folder vault") = .ok () :=
    require_eq_ok_iff.mpr (Bool.eq_false_iff.mp untouched.managed)
  have protects : require
      ((db.held? (intakeId sha256 vault item.sourceId)).map (fun row => row.revision) =
          (db.receipt? vault item.sourceId).bind VaultIntake.revision ∧
        ∀ row ∈ db.held? (intakeId sha256 vault item.sourceId), row.vaultId = vault)
      (rejected "managed document changed outside intake; review required") = .ok () :=
    require_eq_ok_iff.mpr ⟨untouched.revision, untouched.owner⟩
  have order : require (∀ earlier ∈ some row, ¬ item.generation < earlier.generation)
      (rejected "stale intake generation") = .ok () := by
    refine require_eq_ok_iff.mpr fun earlier member => ?_
    obtain rfl := Option.some.inj member
    exact not_lt.mpr (le_of_eq same)
  have agrees : require (row.fingerprint = item.fingerprint sha256)
      (rejected "conflicting intake generation") = .ok () := require_eq_ok_iff.mpr print
  have latest : (some row).filter (·.generation = item.generation) = some row :=
    Option.filter_some_pos (decide_eq_true same)
  unfold VaultDb.held? at protects
  unfold VaultDb.receipt? at protects found
  rw [found] at protects
  simp only [vaultIntakeItem, vaultIntake, identity, made, managed, ok_bind, found, protects, order,
    latest, agrees]
  rfl

theorem intaken_of_vaultIntakeItem
    (done : vaultIntakeItem sha256 formats db vault item = .ok (next, receipt)) :
    Intaken sha256 formats db next vault item receipt := by
  have untouched := (untouched_of_vaultIntakeItem done).2
  obtain ⟨_, _, done⟩ := bind_eq_ok_iff.mp done
  obtain ⟨prepared?, made, done⟩ := bind_eq_ok_iff.mp done
  unfold vaultIntake at done
  obtain ⟨_, _, done⟩ := bind_eq_ok_iff.mp done
  obtain ⟨_, _, done⟩ := bind_eq_ok_iff.mp done
  obtain ⟨_, _, done⟩ := bind_eq_ok_iff.mp done
  obtain ⟨_, order, done⟩ := bind_eq_ok_iff.mp done
  rw [require_eq_ok_iff] at order
  change ∀ earlier ∈ db.receipt? vault item.sourceId, _ at order
  split at done
  · rename_i earlier found
    obtain ⟨_, print, done⟩ := bind_eq_ok_iff.mp done
    obtain ⟨rfl, rfl⟩ := Prod.mk.inj (pure_eq_ok_iff.mp done)
    rw [require_eq_ok_iff] at print
    obtain ⟨stored, generation⟩ := Option.filter_eq_some_iff.mp found
    exact .kept earlier stored (of_decide_eq_true generation) print rfl rfl
  · rename_i absent
    obtain ⟨_, room, done⟩ := bind_eq_ok_iff.mp done
    obtain ⟨written, wrote, done⟩ := bind_eq_ok_iff.mp done
    obtain ⟨recorded, noted, done⟩ := bind_eq_ok_iff.mp done
    obtain ⟨rfl, rfl⟩ := Prod.mk.inj (pure_eq_ok_iff.mp done)
    rw [require_eq_ok_iff] at room
    refine .stored prepared? ⟨fun row found => ?_, made, room, written, ?_,
      recorded_of_recordIntake noted⟩ rfl
    · refine lt_of_le_of_ne (not_lt.mp (order row found)) fun same => ?_
      exact Option.filter_eq_none_iff.mp absent row found (decide_eq_true same)
    · refine wrote_of_writePrepared (fun row member named => ?_) wrote
      exact untouched.owner row (VaultDb.held?_eq_some_iff.mpr ⟨member, named⟩)

/-- The receipts are those of before, but for the source's own. -/
theorem Taken.receipts {prepared? : Option Prepared}
    (taken : Taken sha256 formats db next vault item prepared?) :
    next.receipt? vault item.sourceId = some (db.recorded (item.receipt sha256 vault prepared?)) ∧
      ∀ vault' source, ¬ (vault' = vault ∧ source = item.sourceId) →
        next.receipt? vault' source = db.receipt? vault' source := by
  obtain ⟨written, wrote, recorded⟩ := taken.wrote
  have same : ∀ vault source, written.receipt? vault source = db.receipt? vault source := by
    intro vault source
    rw [wrote.rest]
    rfl
  refine ⟨?_, fun vault' source apart => (recorded.other apart).trans (same vault' source)⟩
  refine recorded.own.trans ?_
  unfold VaultDb.recorded
  rw [same]

/-- The documents are those of before, but for the source's own. -/
theorem Taken.documents {prepared? : Option Prepared}
    (taken : Taken sha256 formats db next vault item prepared?) :
    next.held? (intakeId sha256 vault item.sourceId) =
        prepared?.map (·.row vault (intakeId sha256 vault item.sourceId)
          ((revisionFor sha256 (intakeId sha256 vault item.sourceId) prepared?).getD [])) ∧
      (∀ id, id ≠ intakeId sha256 vault item.sourceId → next.held? id = db.held? id) ∧
      (prepared?.isSome → next.vaultBytes vault ≤ maxBytes) := by
  obtain ⟨written, wrote, recorded⟩ := taken.wrote
  have documents : next.documents = written.documents := by rw [recorded.rest]
  have held : ∀ id, next.held? id = written.held? id := by
    intro id
    unfold VaultDb.held?
    rw [documents]
  refine ⟨(held _).trans wrote.own, fun id apart => (held id).trans (wrote.other apart), ?_⟩
  intro present
  have bytes := wrote.bytes present
  unfold VaultDb.vaultBytes at bytes ⊢
  rw [documents]
  exact bytes

/-- A source more only where there was room. -/
theorem Taken.count {prepared? : Option Prepared}
    (taken : Taken sha256 formats db next vault item prepared?)
    (few : ∀ vault, db.intake.rows.countP (·.vaultId = vault) ≤ 10000) (vault' : Uuid) :
    next.intake.rows.countP (·.vaultId = vault') ≤ 10000 := by
  obtain ⟨written, wrote, recorded⟩ := taken.wrote
  have intake : written.intake = db.intake := by rw [wrote.rest]
  have counted := recorded.count vault'
  unfold VaultDb.receipt? at counted
  rw [intake] at counted
  rw [counted]
  split
  · rename_i fresh
    obtain ⟨absent, rfl⟩ := fresh
    exact taken.room absent
  · exact few vault'

end Items

end OHHive.Vault
