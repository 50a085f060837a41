import Mathlib.Data.List.Perm.Lattice
import Mathlib.Data.List.Sort
import Mathlib.Data.String.Basic
import OHHive.Foundation.Fallible
import OHHive.Foundation.Table
import OHHive.LocalHub.Basics

/-! Bringing a database file up to date: migrations are identified by their names, a counter-era
file is adopted by its counter, and all of it is one transaction. -/

namespace OHHive.LocalHub

open Foundation

section Ladder

/-- `MIGRATIONS`, by their names. -/
def migrationNames : List String :=
  ["0001-base-schema", "0002-vault", "0003-vault-folders", "0004-vault-intake",
    "0005-vault-curation", "0006-vault-maintenance", "0007-bots", "0008-owner",
    "0009-enrollment", "0010-conversation-title", "0011-bots-causation", "0012-bots-provider",
    "0013-bots-room-receipts", "0014-project-repositories", "0015-delivery-lease-deadline",
    "0016-private-preparation", "0017-private-run", "0018-private-run-stop",
    "0019-private-run-retry", "0020-private-preparation-recovery", "0021-private-readiness",
    "0022-bots-agent-bios-and-user-profiles", "0023-bots-agent-tool-policies",
    "0024-bots-agent-tool-turns", "20260920-0348-schedules-foundation",
    "20260924-agent-web-post", "20260924-hub-name", "20260924-user-profile-avatar",
    "20260925-agent-budgets", "20260927-project-vaults", "20260928-vault-document-date",
    "20260928-vault-document-date-backfill", "20260928-vault-document-date-backfill-2",
    "20261001-private-review-workflows", "20261002-chat-library-save",
    "20261002-source-evidence", "20261002-source-evidence-saves"]

theorem nodup_migrationNames : migrationNames.Nodup := by decide +kernel

/-- A row of `applied_migrations`. -/
structure AppliedMigration where
  name : String
  appliedAt : Int
deriving DecidableEq, Repr

abbrev AppliedMigrations := Table AppliedMigration (Table.SameKey AppliedMigration.name)

def appliedNames (applied : AppliedMigrations) : List String :=
  applied.rows.map AppliedMigration.name

/-- A database file: its other tables, the record of its migrations once there is one, and
`user_version`. -/
structure HubFile (Tables : Type) where
  tables : Tables
  applied : Option AppliedMigrations
  userVersion : Int

/-- What a build brings to a file: the script of each migration, run with foreign keys enforced or
not; what it does to the tables at every opening; the check of the foreign keys; and its clock when
it records a name. -/
structure Build (Tables : Type) where
  apply : String → Bool → Tables × Int → Result (Tables × Int)
  prepare : Tables → Result Tables
  foreignKeysHold : Tables → Bool
  clock : String → Int

end Ladder

section Migrate

variable {Tables : Type} (build : Build Tables)

/-- `INSERT OR IGNORE INTO applied_migrations`. -/
def recordApplied (applied : AppliedMigrations) (name : String) : AppliedMigrations :=
  (applied.insert? ⟨name, build.clock name⟩).getD applied

def aheadText (legacy : Int) : String :=
  "local database is at schema " ++ toString legacy ++ " and this build only knows " ++
    toString migrationNames.length ++ "; update this machine's Hive before opening it"

/-- A counter-era file, which has no record of its own, has applied the first names. -/
def adopt (legacy : Int) (applied : AppliedMigrations) : Result AppliedMigrations :=
  if applied.rows = [] ∧ 1 ≤ legacy then
    if migrationNames.length < legacy.toNat then .error (rejected (aheadText legacy))
    else .ok ((migrationNames.take legacy.toNat).foldl (recordApplied build) applied)
  else .ok applied

/-- The recorded names that no migration of this build has, in order. -/
def unknownNames (applied : AppliedMigrations) : List String :=
  ((appliedNames applied).filter (· ∉ migrationNames)).insertionSort (· ≤ ·)

def unknownText (unknown : List String) : String :=
  "local database has schema changes this build does not know about (" ++
    ", ".intercalate unknown ++ "); update this machine's Hive before opening it"

/-- Every migration that was not applied when the loop began is applied and recorded. -/
def applyMissing (enforced : Bool) (before : List String) :
    List String → Tables × Int → AppliedMigrations → Result ((Tables × Int) × AppliedMigrations)
  | [], state, applied => .ok (state, applied)
  | name :: rest, state, applied =>
    if name ∈ before then applyMissing enforced before rest state applied
    else do
      let state ← build.apply name enforced state
      applyMissing enforced before rest state (recordApplied build applied name)

def migrate (enforced : Bool) (file : HubFile Tables) : Result (HubFile Tables) := do
  let applied ← adopt build file.userVersion (file.applied.getD Table.empty)
  require (unknownNames applied = []) (rejected (unknownText (unknownNames applied)))
  let done ← applyMissing build enforced (appliedNames applied) migrationNames
    (file.tables, file.userVersion) applied
  return ⟨done.1.1, some done.2, migrationNames.length⟩

def foreignKeyText : String := "foreign key integrity check failed during initialization"

/-- The transaction that opens a file. -/
def openingTransaction (enforced : Bool) (file : HubFile Tables) : Result (HubFile Tables) := do
  let file ← migrate build enforced file
  let tables ← build.prepare file.tables
  require (enforced ∨ build.foreignKeysHold tables) (rejected foreignKeyText)
  return { file with tables }

/-- `from_connection`: foreign keys are enforced by the `user_version` that was seen before the
writer lock, and a failure rolls everything back. -/
def fromConnection (seen : Int) (file : HubFile Tables) : HubFile Tables × Result Unit :=
  match openingTransaction build (19 ≤ seen) file with
  | .ok next => (next, .ok ())
  | .error failure => (file, .error failure)

end Migrate

section Records

variable {Tables : Type} {build : Build Tables} {applied : AppliedMigrations}

theorem nodup_appliedNames (applied : AppliedMigrations) : (appliedNames applied).Nodup := by
  unfold appliedNames
  rw [List.nodup_iff_pairwise_ne, List.pairwise_map]
  exact applied.distinct.imp (fun apart same => apart same)

variable (build) in
theorem appliedNames_recordApplied {name : String} (new : name ∉ appliedNames applied) :
    appliedNames (recordApplied build applied name) = appliedNames applied ++ [name] := by
  have fits : applied.Fits ⟨name, build.clock name⟩ := by
    intro stored member same
    exact new (List.mem_map.mpr ⟨stored, member, same⟩)
  obtain ⟨next, inserted, rows⟩ := Table.exists_insert? fits
  rw [recordApplied, inserted, Option.getD_some, appliedNames, rows, List.map_append]
  rfl

/-- Recording new names, each once, appends them in order. -/
theorem appliedNames_foldl {names : List String} (distinct : names.Nodup)
    (new : ∀ name ∈ names, name ∉ appliedNames applied) :
    appliedNames (names.foldl (recordApplied build) applied) = appliedNames applied ++ names := by
  induction names generalizing applied with
  | nil => rw [List.foldl_nil, List.append_nil]
  | cons name rest ih =>
    obtain ⟨apart, distinct⟩ := List.nodup_cons.mp distinct
    have recorded := appliedNames_recordApplied build (new name List.mem_cons_self)
    rw [List.foldl_cons, ih distinct, recorded, List.append_assoc, List.singleton_append]
    intro other member
    rw [recorded, List.mem_append, List.mem_singleton]
    rintro (old | rfl)
    · exact new other (List.mem_cons_of_mem _ member) old
    · exact apart member

theorem unknownNames_eq_nil_iff :
    unknownNames applied = [] ↔ ∀ name ∈ appliedNames applied, name ∈ migrationNames := by
  have perm := List.perm_insertionSort (· ≤ ·)
    ((appliedNames applied).filter (· ∉ migrationNames))
  constructor
  · intro none name member
    by_contra unknown
    have listed := perm.mem_iff.mpr (List.mem_filter.mpr ⟨member, by simpa using unknown⟩)
    have empty : unknownNames applied ≠ [] := List.ne_nil_of_mem listed
    exact empty none
  · intro known
    have empty : (appliedNames applied).filter (· ∉ migrationNames) = [] := by
      apply List.filter_eq_nil_iff.mpr
      intro name member
      simpa using known name member
    rw [unknownNames, empty, List.insertionSort_nil]

/-- The loop runs the scripts of the names that were missing when it began, in order, and records
them. -/
theorem applyMissing_eq (enforced : Bool) (before names : List String) (state : Tables × Int)
    (applied : AppliedMigrations) :
    applyMissing build enforced before names state applied =
      (fun last => (last, (names.filter (· ∉ before)).foldl (recordApplied build) applied)) <$>
        (names.filter (· ∉ before)).foldlM (fun state name => build.apply name enforced state)
          state := by
  induction names generalizing state applied with
  | nil => rfl
  | cons name rest ih =>
    rw [applyMissing]
    split
    · rename_i present
      rw [List.filter_cons_of_neg (by simpa using present), ih]
    · rename_i missing
      rw [List.filter_cons_of_pos (by simpa using missing), List.foldlM_cons, List.foldl_cons]
      cases build.apply name enforced state with
      | error failure => rfl
      | ok next => exact ih next _

end Records

section Opening

variable {Tables : Type} {build : Build Tables} {seen : Int} {file next : HubFile Tables}

def HubFile.recorded (file : HubFile Tables) : List String :=
  appliedNames (file.applied.getD Table.empty)

/-- The names a file counts as applied: its record, or as many as its counter says. -/
def HubFile.counted (file : HubFile Tables) : List String :=
  if file.recorded = [] then migrationNames.take file.userVersion.toNat else file.recorded

/-- The migrations an opening has to run. -/
def HubFile.missing (file : HubFile Tables) : List String :=
  migrationNames.filter (· ∉ file.counted)

/-- Everything recorded is known, and a counter without a record is within the ladder. -/
structure HubFile.Openable (file : HubFile Tables) : Prop where
  known : ∀ name ∈ file.recorded, name ∈ migrationNames
  counter : file.recorded = [] → file.userVersion ≤ migrationNames.length

/-- The scripts of some names, one after the other. -/
def Build.run (build : Build Tables) (enforced : Bool) (names : List String)
    (file : HubFile Tables) : Result (Tables × Int) :=
  names.foldlM (fun state name => build.apply name enforced state) (file.tables, file.userVersion)

theorem rows_eq_nil_iff : (file.applied.getD Table.empty).rows = [] ↔ file.recorded = [] := by
  rw [HubFile.recorded, appliedNames, List.map_eq_nil_iff]

variable (build) in
theorem adopt_of_openable (openable : file.Openable) :
    ∃ applied, adopt build file.userVersion (file.applied.getD Table.empty) = .ok applied ∧
      appliedNames applied = file.counted := by
  unfold adopt HubFile.counted
  by_cases empty : file.recorded = []
  · rw [if_pos empty]
    have rows := rows_eq_nil_iff.mpr empty
    by_cases counts : 1 ≤ file.userVersion
    · have within := openable.counter empty
      rw [if_pos ⟨rows, counts⟩, if_neg (by omega)]
      refine ⟨_, rfl, ?_⟩
      rw [appliedNames_foldl (nodup_migrationNames.sublist (List.take_sublist _ _))]
      · exact (congrArg (· ++ _) empty)
      · intro name _ recorded
        have none : file.recorded = [] := empty
        rw [HubFile.recorded] at none
        rw [none] at recorded
        cases recorded
    · rw [if_neg (fun both => counts both.2)]
      have zero : file.userVersion.toNat = 0 := by omega
      exact ⟨_, rfl, empty.trans (by rw [zero, List.take_zero])⟩
  · rw [if_neg empty, if_neg (fun both => empty (rows_eq_nil_iff.mp both.1))]
    exact ⟨_, rfl, rfl⟩

theorem counted_known (openable : file.Openable) :
    ∀ name ∈ file.counted, name ∈ migrationNames := by
  intro name member
  unfold HubFile.counted at member
  split at member
  · exact List.mem_of_mem_take member
  · exact openable.known name member

theorem nodup_counted (file : HubFile Tables) : file.counted.Nodup := by
  unfold HubFile.counted
  split
  · exact nodup_migrationNames.sublist (List.take_sublist _ _)
  · exact nodup_appliedNames _

/-- The record of a file that may be opened, after its missing migrations. -/
theorem perm_counted_append_missing (openable : file.Openable) :
    (file.counted ++ file.missing).Perm migrationNames := by
  have apart : ∀ name ∈ file.counted, name ∉ file.missing := by
    intro name counted missing
    have absent := (List.mem_filter.mp missing).2
    simp [counted] at absent
  refine (List.perm_ext_iff_of_nodup ?_ nodup_migrationNames).mpr ?_
  · rw [List.nodup_append']
    exact ⟨nodup_counted file, nodup_migrationNames.filter _, apart⟩
  · intro name
    rw [List.mem_append, HubFile.missing, List.mem_filter]
    constructor
    · rintro (counted | ⟨listed, _⟩)
      · exact counted_known openable name counted
      · exact listed
    · intro listed
      by_cases counted : name ∈ file.counted
      · exact .inl counted
      · exact .inr ⟨listed, by simpa using counted⟩

variable (build) in
/-- Migrating a file that may be opened runs its missing migrations and records every name. -/
theorem migrate_of_openable (openable : file.Openable) (enforced : Bool) :
    ∃ applied, (appliedNames applied).Perm migrationNames ∧
      migrate build enforced file =
        (fun last => ⟨last.1, some applied, migrationNames.length⟩) <$>
          build.run enforced file.missing file := by
  obtain ⟨adopted, taken, names⟩ := adopt_of_openable build openable
  refine ⟨file.missing.foldl (recordApplied build) adopted, ?_, ?_⟩
  · have distinct : file.missing.Nodup := nodup_migrationNames.filter _
    rw [appliedNames_foldl distinct, names]
    · exact perm_counted_append_missing openable
    · intro name missing
      rw [names]
      simpa using (List.mem_filter.mp missing).2
  · have known : unknownNames adopted = [] := by
      rw [unknownNames_eq_nil_iff, names]
      exact counted_known openable
    rw [migrate, taken, ok_bind, require, if_pos known, ok_bind, applyMissing_eq, names]
    cases ran : build.run enforced file.missing file with
    | error failure =>
      rw [Build.run, HubFile.missing] at ran
      rw [ran]
      rfl
    | ok last =>
      rw [Build.run, HubFile.missing] at ran
      rw [ran]
      rfl

variable (build) in
/-- A file that is ahead of the build is refused. -/
theorem migrate_of_ahead (ahead : ¬ file.Openable) (enforced : Bool) :
    ∃ failure, migrate build enforced file = .error failure := by
  by_cases empty : file.recorded = []
  · have above : ¬ file.userVersion ≤ migrationNames.length := by
      intro within
      refine ahead ⟨?_, fun _ => within⟩
      intro name member
      rw [empty] at member
      cases member
    have refused : adopt build file.userVersion (file.applied.getD Table.empty) =
        .error (rejected (aheadText file.userVersion)) := by
      rw [adopt, if_pos ⟨rows_eq_nil_iff.mpr empty, by omega⟩, if_pos (by omega)]
    exact ⟨_, by rw [migrate, refused]; rfl⟩
  · have kept : adopt build file.userVersion (file.applied.getD Table.empty) =
        .ok (file.applied.getD Table.empty) := by
      rw [adopt, if_neg (fun both => empty (rows_eq_nil_iff.mp both.1))]
    have unknown : unknownNames (file.applied.getD Table.empty) ≠ [] := by
      intro none
      exact ahead ⟨unknownNames_eq_nil_iff.mp none, fun absent => absurd absent empty⟩
    exact ⟨_, by rw [migrate, kept, ok_bind, require, if_neg unknown]; rfl⟩

theorem fromConnection_of_error {failure : HubError}
    (failed : openingTransaction build (19 ≤ seen) file = .error failure) :
    fromConnection build seen file = (file, .error failure) := by
  rw [fromConnection, failed]

theorem openingTransaction_of_error {enforced : Bool} {failure : HubError}
    (failed : migrate build enforced file = .error failure) :
    openingTransaction build enforced file = .error failure := by
  rw [openingTransaction, failed]
  rfl

/-- What the end of an opening does with migrated tables. -/
def Build.finish (build : Build Tables) (enforced : Bool) (tables : Tables) : Result Tables := do
  let tables ← build.prepare tables
  require (enforced ∨ build.foreignKeysHold tables) (rejected foreignKeyText)
  return tables

variable (build seen) in
/-- An opening is all of it or nothing: the missing migrations, then the end of the opening. -/
theorem fromConnection_of_openable (openable : file.Openable) :
    ∃ applied, (appliedNames applied).Perm migrationNames ∧
      fromConnection build seen file =
        match build.run (19 ≤ seen) file.missing file >>= fun last =>
            build.finish (19 ≤ seen) last.1 with
        | .ok tables => (⟨tables, some applied, migrationNames.length⟩, .ok ())
        | .error failure => (file, .error failure) := by
  obtain ⟨applied, names, migrated⟩ := migrate_of_openable build openable (19 ≤ seen)
  refine ⟨applied, names, ?_⟩
  rw [fromConnection, openingTransaction, migrated]
  cases build.run (19 ≤ seen) file.missing file with
  | error failure => rfl
  | ok last =>
    simp only [Build.finish, Functor.map, Except.map, ok_bind]
    cases build.prepare last.1 with
    | error failure => rfl
    | ok tables =>
      rw [ok_bind, ok_bind]
      by_cases checked : (19 ≤ seen : Bool) = true ∨ build.foreignKeysHold tables = true
      · rw [require, if_pos checked]
        rfl
      · rw [require, if_neg checked]
        rfl

/-- An opening runs exactly the missing migrations, in order and each once, or changes nothing. -/
structure MigratesOnce (build : Build Tables) (seen : Int) (file : HubFile Tables) : Prop where
  opens : file.Openable → ∀ last tables,
    build.run (19 ≤ seen) file.missing file = .ok last →
    build.finish (19 ≤ seen) last.1 = .ok tables →
    ∃ next, fromConnection build seen file = (next, .ok ())
  applies : ∀ next, fromConnection build seen file = (next, .ok ()) →
    file.Openable ∧ (∃ last, build.run (19 ≤ seen) file.missing file = .ok last ∧
      build.finish (19 ≤ seen) last.1 = .ok next.tables) ∧
    next.recorded.Perm migrationNames ∧ next.userVersion = migrationNames.length
  again : ∀ next, fromConnection build seen file = (next, .ok ()) →
    ∀ (later : Build Tables) seenLater, fromConnection later seenLater next =
      match later.finish (19 ≤ seenLater) next.tables with
      | .ok tables => ({ next with tables }, .ok ())
      | .error failure => (next, .error failure)
  unknown : (∃ name ∈ file.recorded, name ∉ migrationNames) →
    ∃ failure, fromConnection build seen file = (file, .error failure)
  ahead : file.recorded = [] → (migrationNames.length : Int) < file.userVersion →
    ∃ failure, fromConnection build seen file = (file, .error failure)
  step : file.Openable → ∀ failure, build.run (19 ≤ seen) file.missing file = .error failure →
    fromConnection build seen file = (file, .error failure)
  foreignKeys : file.Openable → ∀ last tables,
    build.run (19 ≤ seen) file.missing file = .ok last → build.prepare last.1 = .ok tables →
    ¬ 19 ≤ seen → build.foreignKeysHold tables = false →
    fromConnection build seen file = (file, .error (rejected foreignKeyText))

variable (build) in
/-- A file whose record is complete is migrated already. -/
theorem migrate_of_complete {applied : AppliedMigrations} (enforced : Bool)
    (complete : (appliedNames applied).Perm migrationNames) (tables : Tables) (version : Int) :
    migrate build enforced ⟨tables, some applied, version⟩ =
      .ok ⟨tables, some applied, migrationNames.length⟩ := by
  have recorded : applied.rows ≠ [] := by
    intro none
    have empty := complete
    rw [appliedNames, none, List.map_nil] at empty
    exact absurd empty.length_eq (by decide)
  have kept : adopt build version applied = .ok applied := by
    rw [adopt, if_neg (fun both => recorded both.1)]
  have known : unknownNames applied = [] :=
    unknownNames_eq_nil_iff.mpr (fun name member => complete.mem_iff.mp member)
  have missing : migrationNames.filter (· ∉ appliedNames applied) = [] := by
    apply List.filter_eq_nil_iff.mpr
    intro name listed
    simpa using complete.mem_iff.mpr listed
  rw [migrate, Option.getD_some, kept, ok_bind, require, if_pos known, ok_bind, applyMissing_eq,
    missing]
  rfl

variable (build seen) in
theorem refused_of_ahead (ahead : ¬ file.Openable) :
    ∃ failure, fromConnection build seen file = (file, .error failure) := by
  obtain ⟨failure, failed⟩ := migrate_of_ahead build ahead (19 ≤ seen)
  exact ⟨failure, fromConnection_of_error (openingTransaction_of_error failed)⟩

/-- The file that a successful opening leaves. -/
theorem opened_of_ok (done : fromConnection build seen file = (next, .ok ())) :
    file.Openable ∧ ∃ applied last, (appliedNames applied).Perm migrationNames ∧
      build.run (19 ≤ seen) file.missing file = .ok last ∧
      build.finish (19 ≤ seen) last.1 = .ok next.tables ∧
      next = ⟨next.tables, some applied, migrationNames.length⟩ := by
  by_cases openable : file.Openable
  · refine ⟨openable, ?_⟩
    obtain ⟨applied, names, opened⟩ := fromConnection_of_openable build seen openable
    rw [opened] at done
    cases ran : build.run (19 ≤ seen) file.missing file with
    | error failure =>
      rw [ran] at done
      cases (Prod.mk.inj done).2
    | ok last =>
      rw [ran, ok_bind] at done
      cases finished : build.finish (19 ≤ seen) last.1 with
      | error failure =>
        rw [finished] at done
        cases (Prod.mk.inj done).2
      | ok tables =>
        rw [finished] at done
        obtain ⟨rfl, _⟩ := Prod.mk.inj done
        exact ⟨applied, last, names, rfl, finished, rfl⟩
  · obtain ⟨failure, refused⟩ := refused_of_ahead build seen openable
    rw [refused] at done
    cases (Prod.mk.inj done).2

theorem migrates_once (build : Build Tables) (seen : Int) (file : HubFile Tables) :
    MigratesOnce build seen file := by
  constructor
  case opens =>
    intro openable last tables ran finished
    obtain ⟨applied, _, opened⟩ := fromConnection_of_openable build seen openable
    rw [ran, ok_bind, finished] at opened
    exact ⟨_, opened⟩
  case applies =>
    intro next done
    obtain ⟨openable, applied, last, complete, ran, finished, whole⟩ := opened_of_ok done
    refine ⟨openable, ⟨last, ran, finished⟩, ?_, ?_⟩
    · rw [whole]
      exact complete
    · rw [whole]
  case again =>
    intro next done later seenLater
    obtain ⟨_, applied, last, complete, _, _, whole⟩ := opened_of_ok done
    have migrated := migrate_of_complete later (19 ≤ seenLater) complete next.tables
      migrationNames.length
    rw [← whole] at migrated
    rw [fromConnection, openingTransaction, migrated, ok_bind, Build.finish]
    cases later.prepare next.tables with
    | error failure => rfl
    | ok tables =>
      rw [ok_bind, ok_bind]
      by_cases checked : (19 ≤ seenLater : Bool) = true ∨ later.foreignKeysHold tables = true
      · rw [require, if_pos checked]
        rfl
      · rw [require, if_neg checked]
        rfl
  case unknown =>
    rintro ⟨name, recorded, unknown⟩
    exact refused_of_ahead build seen (fun openable => unknown (openable.known name recorded))
  case ahead =>
    intro empty above
    exact refused_of_ahead build seen (fun openable => absurd (openable.counter empty) (by omega))
  case step =>
    intro openable failure failed
    obtain ⟨applied, _, opened⟩ := fromConnection_of_openable build seen openable
    rw [failed] at opened
    exact opened
  case foreignKeys =>
    intro openable last tables ran prepared unenforced broken
    obtain ⟨applied, _, opened⟩ := fromConnection_of_openable build seen openable
    have refused : build.finish (19 ≤ seen) last.1 = .error (rejected foreignKeyText) := by
      rw [Build.finish, prepared, ok_bind, require, if_neg (by simp [unenforced, broken])]
      rfl
    rw [ran, ok_bind, refused] at opened
    exact opened

end Opening

end OHHive.LocalHub
