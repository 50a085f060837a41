import OHHive.Foundation.Run
import OHHive.Vault.Publication

/-! Overlapping scans of folder vaults, step by step, among all the other writes to the vaults. -/

namespace OHHive.Vault

open Foundation

section Scans

/-- Where a scan stands. `planned` has read the documents it will replace. -/
inductive ScanPhase where
  | idle
  | begun (vault : Uuid) (generation : Int)
  | surveyed (vault : Uuid) (generation : Int) (snapshot : FolderSnapshot)
  | planned (vault : Uuid) (generation : Int) (snapshot : FolderSnapshot) (old : List DocumentRow)
  | failing (vault : Uuid) (generation : Int)

/-- The vault a scan works on, and the generation it began under. -/
def ScanPhase.job? : ScanPhase → Option (Uuid × Int)
  | .idle => none
  | .begun vault generation => some (vault, generation)
  | .surveyed vault generation _ => some (vault, generation)
  | .planned vault generation _ _ => some (vault, generation)
  | .failing vault generation => some (vault, generation)

/-- The store, the identities of all vaults there ever were, and the scans in flight. -/
structure FolderHub where
  db : VaultDb
  minted : List Uuid
  scan : Nat → ScanPhase

def FolderHub.start : FolderHub := ⟨.empty, [], fun _ => .idle⟩

inductive FolderOp where
  | create (id : Uuid) (name : String)
  | attach (vault : Uuid) (root rootIdentity : Text)
  | delete (vault : Uuid)
  | setAvailable (vault : Uuid) (available : Bool)
  | reopen
  /-- Any write to documents of manual vaults: by hand, by intake or from a chat. -/
  | write (documents : Table DocumentRow DocumentRow.Clash)
  | begin (scan : Nat) (vault : Uuid)
  /-- Two walks through the folder, each of which may fail, and whether the watcher still runs. -/
  | observe (scan : Nat) (first second : Option FolderSnapshot) (enabled : Bool)
  | readOld (scan : Nat)
  | publish (scan : Nat) (fresh : Text → Uuid) (now : Int)
  | fail (scan : Nat)
  | crash (scan : Nat)

/-- The scan that an operation belongs to. -/
def FolderOp.scan? : FolderOp → Option Nat
  | .begin scan _ => some scan
  | .observe scan _ _ _ => some scan
  | .readOld scan => some scan
  | .publish scan _ _ => some scan
  | .fail scan => some scan
  | .crash scan => some scan
  | _ => none

def FolderHub.enter (hub : FolderHub) (scan : Nat) (phase : ScanPhase) : FolderHub :=
  { hub with scan := Function.update hub.scan scan phase }

/-- A call that takes effect unless it fails. -/
def FolderHub.attempt (hub : FolderHub) (call : Result VaultDb) : FolderHub :=
  match call with
  | .ok db => { hub with db }
  | .error _ => hub

/-- The rows of every folder vault are the same in both tables. -/
def FoldersKept (db : VaultDb) (documents : Table DocumentRow DocumentRow.Clash) : Prop :=
  ∀ source ∈ db.sources.rows,
    documents.rows.filter (·.vaultId = source.vaultId) = db.documentsOf source.vaultId

instance (db : VaultDb) (documents : Table DocumentRow DocumentRow.Clash) :
    Decidable (FoldersKept db documents) :=
  inferInstanceAs (Decidable (∀ source ∈ db.sources.rows, _))

/-- What a scan makes of its two walks. -/
def surveyOf (vault : Uuid) (generation : Int) (first second : Option FolderSnapshot)
    (enabled : Bool) : ScanPhase :=
  match first with
  | some snapshot =>
    if second = some snapshot ∧ enabled = true then .surveyed vault generation snapshot
    else .failing vault generation
  | none => .failing vault generation

/-- `reconcile_folder` from its plan on. A minted identity that is in use never occurs. -/
def FolderHub.publish (sha256 : Text → Text) (hub : FolderHub) (scan : Nat) (vault : Uuid)
    (generation : Int) (snapshot : FolderSnapshot) (old : List DocumentRow) (fresh : Text → Uuid)
    (now : Int) : FolderHub :=
  if ∀ note ∈ snapshot.notes, ∀ row ∈ old, fresh note.path ≠ row.id then
    match publishFolder hub.db vault generation (removedIds sha256 fresh vault old snapshot.notes)
        (insertedRows sha256 fresh vault old snapshot.notes) now with
    | .ok (db, _) => { hub with db }.enter scan .idle
    | .error _ => hub.enter scan (.failing vault generation)
  else hub

def folderStep (sha256 : Text → Text) (hub : FolderHub) : FolderOp → FolderHub
  | .create id name =>
    if id ∈ hub.minted then hub
    else
      match vaultCreate hub.db id name with
      | .ok db => { hub with db, minted := id :: hub.minted }
      | .error _ => hub
  | .attach vault root rootIdentity => hub.attempt (vaultAttachFolder hub.db vault root rootIdentity)
  | .delete vault => hub.attempt (vaultDelete hub.db vault)
  | .setAvailable vault available => hub.attempt (vaultSetAvailable hub.db vault available)
  | .reopen => { hub with db := reopenVaults hub.db }
  | .write documents =>
    if FoldersKept hub.db documents then { hub with db := { hub.db with documents } } else hub
  | .begin scan vault =>
    match hub.scan scan, hub.db.sources.lookup vault with
    | .idle, some source => hub.enter scan (.begun vault source.generation)
    | _, _ => hub
  | .observe scan first second enabled =>
    match hub.scan scan with
    | .begun vault generation => hub.enter scan (surveyOf vault generation first second enabled)
    | _ => hub
  | .readOld scan =>
    match hub.scan scan with
    | .surveyed vault generation snapshot =>
      hub.enter scan (.planned vault generation snapshot (hub.db.documentsOf vault))
    | _ => hub
  | .publish scan fresh now =>
    match hub.scan scan with
    | .planned vault generation snapshot old =>
      hub.publish sha256 scan vault generation snapshot old fresh now
    | _ => hub
  | .fail scan =>
    match hub.scan scan with
    | .failing vault generation =>
      { hub with db := failScan hub.db vault generation }.enter scan .idle
    | _ => hub
  | .crash scan => hub.enter scan .idle

/-- The hub after the first operations of a run. -/
abbrev hubAt (sha256 : Text → Text) : List FolderOp → Nat → FolderHub :=
  stateAt (folderStep sha256) .start

end Scans

section Writers

variable {db next : VaultDb} {vault id : Uuid}

end Writers

section Steps

variable {sha256 : Text → Text} {before after : VaultDb} {vault : Uuid}

/-- Every folder belongs to a vault that exists. -/
def Homed (db : VaultDb) : Prop :=
  ∀ source ∈ db.sources.rows, ∃ info ∈ db.vaults.rows, info.id = source.vaultId

/-- What a step makes of a folder: nothing, a later generation, or a new and empty one. Only a
publication writes documents. -/
inductive SourceStep (sha256 : Text → Text) (publishes : Prop) (before after : VaultDb)
    (later : VaultSource) : Prop where
  | same (source : VaultSource) (stored : source ∈ before.sources.rows)
      (vault : source.vaultId = later.vaultId) (generation : source.generation = later.generation)
      (documents : after.documentsOf later.vaultId = before.documentsOf later.vaultId)
  | advanced (source : VaultSource) (stored : source ∈ before.sources.rows)
      (vault : source.vaultId = later.vaultId) (generation : source.generation < later.generation)
      (honest : Honest sha256 before later.vaultId → Honest sha256 after later.vaultId)
      (documents : ¬ publishes →
        after.documentsOf later.vaultId = before.documentsOf later.vaultId)
  | attached (unknown : ∀ source ∈ before.sources.rows, source.vaultId ≠ later.vaultId)
      (documents : after.documentsOf later.vaultId = [])

/-- What any step but a creation does to the vaults and their folders. -/
structure Advances (sha256 : Text → Text) (publishes : Prop) (before after : VaultDb) : Prop where
  vaults : ∀ info ∈ after.vaults.rows, ∃ known ∈ before.vaults.rows, known.id = info.id
  homed : Homed after
  kept : ∀ source ∈ before.sources.rows,
    (∃ later ∈ after.sources.rows,
      later.vaultId = source.vaultId ∧ source.generation ≤ later.generation) ∨
    ∀ info ∈ after.vaults.rows, info.id ≠ source.vaultId
  sources : ∀ later ∈ after.sources.rows, SourceStep sha256 publishes before after later

theorem exists_of_ids (ids : after.vaults.rows.map (·.id) = before.vaults.rows.map (·.id))
    (known : ∃ info ∈ before.vaults.rows, info.id = vault) :
    ∃ info ∈ after.vaults.rows, info.id = vault := by
  obtain ⟨info, member, rfl⟩ := known
  have inAfter : info.id ∈ after.vaults.rows.map (·.id) := ids ▸ List.mem_map_of_mem member
  exact List.mem_map.mp inAfter

theorem homed_of_ids (homed : Homed before)
    (ids : after.vaults.rows.map (·.id) = before.vaults.rows.map (·.id))
    (sources : ∀ later ∈ after.sources.rows, ∃ source ∈ before.sources.rows,
      source.vaultId = later.vaultId) : Homed after := by
  intro later stored
  obtain ⟨source, known, same⟩ := sources later stored
  exact exists_of_ids ids (same ▸ homed source known)

theorem known_of_ids (ids : after.vaults.rows.map (·.id) = before.vaults.rows.map (·.id)) :
    ∀ info ∈ after.vaults.rows, ∃ known ∈ before.vaults.rows, known.id = info.id :=
  fun info member => exists_of_ids ids.symm ⟨info, member, rfl⟩

/-- A step that keeps the folders and their documents. -/
theorem advances_of_kept (homed : Homed before) (sources : after.sources = before.sources)
    (ids : after.vaults.rows.map (·.id) = before.vaults.rows.map (·.id))
    (documents : ∀ source ∈ before.sources.rows,
      after.documentsOf source.vaultId = before.documentsOf source.vaultId) :
    Advances sha256 False before after where
  vaults := known_of_ids ids
  homed := homed_of_ids homed ids fun later stored => ⟨later, sources ▸ stored, rfl⟩
  kept source stored := Or.inl ⟨source, sources ▸ stored, rfl, Int.le_refl _⟩
  sources later stored := by
    rw [sources] at stored
    exact .same later stored rfl rfl (documents later stored)

theorem ids_setState (db : VaultDb) (vault : Uuid) (state : VaultState) :
    (db.setState vault state).vaults.rows.map (·.id) = db.vaults.rows.map (·.id) := by
  rw [VaultDb.setState, Table.rows_updateWhere, List.map_map]
  apply List.map_congr_left
  intro info _
  rw [Function.comp_apply]
  split <;> rfl

theorem advances_of_setAvailable {available : Bool} (homed : Homed before)
    (done : vaultSetAvailable before vault available = .ok after) : Advances sha256 False before after := by
  unfold vaultSetAvailable at done
  obtain ⟨_, _, done⟩ := bind_eq_ok_iff.mp done
  rw [pure_eq_ok_iff] at done
  subst done
  exact advances_of_kept homed rfl (ids_setState before vault _) fun _ _ => rfl

theorem advances_reopenVaults (homed : Homed before) :
    Advances sha256 False before (reopenVaults before) := by
  refine advances_of_kept homed rfl ?_ fun _ _ => rfl
  rw [reopenVaults, Table.rows_update, List.map_map]
  rfl

theorem advances_of_write {documents : Table DocumentRow DocumentRow.Clash} (homed : Homed before)
    (folders : FoldersKept before documents) :
    Advances sha256 False before { before with documents } :=
  advances_of_kept homed rfl rfl folders

/-- A folder is attached to a vault that has no documents and no folder. -/
theorem advances_of_attach {root rootIdentity : Text} (homed : Homed before)
    (done : vaultAttachFolder before vault root rootIdentity = .ok after) :
    Advances sha256 False before after := by
  unfold vaultAttachFolder at done
  obtain ⟨_, empty, done⟩ := bind_eq_ok_iff.mp done
  obtain ⟨_, present, done⟩ := bind_eq_ok_iff.mp done
  obtain ⟨sources, inserted, done⟩ := bind_eq_ok_iff.mp done
  rw [require_eq_ok_iff] at empty present
  rw [orFail_eq_ok_iff] at inserted
  rw [pure_eq_ok_iff] at done
  subst done
  obtain ⟨fits, rows⟩ := Table.insert?_eq_some_iff.mp inserted
  obtain ⟨info, found⟩ := Option.isSome_iff_exists.mp present
  obtain ⟨member, named⟩ := (Table.lookup_eq_some_iff _ _ _).mp found
  have ids := ids_setState { before with sources } vault .unavailable
  have cases (later : VaultSource) (stored : later ∈ sources.rows) :
      later ∈ before.sources.rows ∨ later = ⟨vault, root, rootIdentity, 0, none, none⟩ := by
    rw [rows, List.mem_append, List.mem_singleton] at stored
    exact stored
  refine ⟨known_of_ids ids, ?_, ?_, ?_⟩
  · intro later stored
    apply exists_of_ids ids
    rcases cases later stored with old | rfl
    · exact homed later old
    · exact ⟨info, member, named⟩
  · intro source stored
    refine Or.inl ⟨source, ?_, rfl, Int.le_refl _⟩
    show source ∈ sources.rows
    rw [rows]
    exact List.mem_append_left _ stored
  · intro later stored
    rcases cases later stored with old | rfl
    · exact .same later old rfl rfl rfl
    · exact .attached fits empty

theorem advances_of_delete (homed : Homed before) (done : vaultDelete before vault = .ok after) :
    Advances sha256 False before after := by
  unfold vaultDelete at done
  obtain ⟨_, _, done⟩ := bind_eq_ok_iff.mp done
  rw [pure_eq_ok_iff] at done
  subst done
  have other (source : VaultSource) (stored : source ∈ before.sources.rows.filter (·.vaultId ≠ vault)) :
      source ∈ before.sources.rows ∧ source.vaultId ≠ vault := by
    obtain ⟨member, differs⟩ := List.mem_filter.mp stored
    exact ⟨member, of_decide_eq_true differs⟩
  refine ⟨?_, ?_, ?_, ?_⟩
  · intro info member
    exact ⟨info, (List.mem_filter.mp member).1, rfl⟩
  · intro source stored
    obtain ⟨member, differs⟩ := other source stored
    obtain ⟨info, known, named⟩ := homed source member
    exact ⟨info, List.mem_filter.mpr ⟨known, decide_eq_true (named ▸ differs)⟩, named⟩
  · intro source stored
    by_cases same : source.vaultId = vault
    · refine Or.inr ?_
      intro info member
      rw [same]
      exact of_decide_eq_true (List.mem_filter.mp member).2
    · exact Or.inl ⟨source, List.mem_filter.mpr ⟨stored, decide_eq_true same⟩, rfl, Int.le_refl _⟩
  · intro later stored
    obtain ⟨member, differs⟩ := other later stored
    refine .same later member rfl rfl ?_
    rw [VaultDb.documentsOf, VaultDb.documentsOf, Table.rows_keep, List.filter_filter]
    apply List.filter_congr
    intro row _
    by_cases inVault : row.vaultId = later.vaultId
    · simp [inVault, differs]
    · simp [inVault]

/-- A step that raises the generations of the sources it scanned. -/
theorem advances_of_scanned {publishes : Prop} {scanned : VaultSource → Prop}
    [DecidablePred scanned] {change : VaultSource → VaultSource} (homed : Homed before)
    (ids : after.vaults.rows.map (·.id) = before.vaults.rows.map (·.id))
    (rows : after.sources.rows = before.sources.rows.map fun source =>
      if scanned source then change source else source)
    (vaults : ∀ source, (change source).vaultId = source.vaultId)
    (raised : ∀ source, (change source).generation = source.generation + 1)
    (steps : ∀ source later, source ∈ before.sources.rows → source.vaultId = later.vaultId →
      (¬ scanned source ∧ source.generation = later.generation ∨
        scanned source ∧ source.generation < later.generation) →
      SourceStep sha256 publishes before after later) :
    Advances sha256 publishes before after := by
  have origin (later : VaultSource) (stored : later ∈ after.sources.rows) :
      ∃ source ∈ before.sources.rows, source.vaultId = later.vaultId ∧
        (¬ scanned source ∧ source.generation = later.generation ∨
          scanned source ∧ source.generation < later.generation) := by
    rw [rows] at stored
    obtain ⟨source, member, rfl⟩ := List.mem_map.mp stored
    refine ⟨source, member, ?_⟩
    split
    · rename_i hit
      exact ⟨(vaults source).symm, Or.inr ⟨hit, raised source ▸ Int.lt_succ _⟩⟩
    · rename_i missed
      exact ⟨rfl, Or.inl ⟨missed, rfl⟩⟩
  refine ⟨known_of_ids ids, ?_, ?_, ?_⟩
  · apply homed_of_ids homed ids
    intro later stored
    obtain ⟨source, member, same, _⟩ := origin later stored
    exact ⟨source, member, same⟩
  · intro source stored
    refine Or.inl ⟨_, rows ▸ List.mem_map_of_mem stored, ?_⟩
    split
    · exact ⟨vaults source, raised source ▸ Int.le_of_lt (Int.lt_succ _)⟩
    · exact ⟨rfl, Int.le_refl _⟩
  · intro later stored
    obtain ⟨source, member, same, moved⟩ := origin later stored
    exact steps source later member same moved

/-- A failed scan raises the generation it began under and leaves the documents alone. -/
theorem advances_failScan (homed : Homed before) (vault : Uuid) (generation : Int) :
    Advances sha256 False before (failScan before vault generation) := by
  have ids : (failScan before vault generation).vaults.rows.map (·.id) =
      before.vaults.rows.map (·.id) := by
    simp only [failScan]
    split
    · exact ids_setState before vault .unavailable
    · rfl
  have documents (vault' : Uuid) : (failScan before vault generation).documentsOf vault' =
      before.documentsOf vault' := by
    simp only [failScan]
    split <;> rfl
  have rows : (failScan before vault generation).sources.rows = before.sources.rows.map fun source =>
      if source.vaultId = vault ∧ source.generation = generation then
        { source with
          generation := source.generation + 1
          lastError := some "Source scan failed; existing index preserved" }
      else source := by
    simp only [failScan]
    split <;> simp [VaultDb.setState]
  refine advances_of_scanned homed ids rows (fun _ => rfl) (fun _ => rfl) ?_
  intro source later stored same
  rintro (⟨_, kept⟩ | ⟨_, advanced⟩)
  · exact .same source stored same kept (documents later.vaultId)
  · refine .advanced source stored same advanced ?_ fun _ => documents later.vaultId
    intro honest row inVault
    rw [documents] at inVault
    exact honest row inVault

/-- A publication leaves the documents of every other vault alone. -/
theorem Published.others {notes : List Note} (published : Published sha256 before after vault notes)
    {other : Uuid} (differs : other ≠ vault) :
    after.documentsOf other = before.documentsOf other := by
  obtain ⟨written, rows, ofVault⟩ := published.unwritten
  have none : written.filter (·.vaultId = other) = [] := by
    rw [List.filter_eq_nil_iff]
    intro row member same
    exact differs ((of_decide_eq_true same).symm.trans (ofVault row member).1)
  rw [VaultDb.documentsOf, rows, List.filter_append, none, List.append_nil, List.filter_filter]
  apply List.filter_congr
  intro row _
  by_cases inOther : row.vaultId = other
  · simp [inOther, differs]
  · simp [inOther]

theorem advances_of_publishFolder {generation now : Int} {status : VaultScanStatus}
    {removed : List Uuid} {inserted : List DocumentRow} {notes : List Note} (homed : Homed before)
    (published : Published sha256 before after vault notes)
    (done : publishFolder before vault generation removed inserted now = .ok (after, status)) :
    Advances sha256 True before after := by
  obtain ⟨_, _, rows, ids⟩ := of_publishFolder done
  refine advances_of_scanned homed ids rows (fun _ => rfl) (fun _ => rfl) ?_
  intro source later stored sameVault
  rintro (⟨differs, kept⟩ | ⟨same, advanced⟩)
  · exact .same source stored sameVault kept (published.others (sameVault ▸ differs))
  · refine .advanced source stored sameVault advanced ?_ fun silent => absurd trivial silent
    intro _
    rw [← sameVault, same]
    exact published.digests

end Steps

end OHHive.Vault
