import OHHive.Vault.LibraryRuns

/-! Deleting a vault from the library. A vault that no project is linked to goes with everything
that belongs to it; what is kept about its documents is their archives and their history, which
gains an entry for each of them. -/

namespace OHHive.Vault

open Foundation

section Outcome

/-- What deleting a vault does, and all it does. -/
structure Deleted (before after : Library) (vault : Uuid) (now : Int) : Prop where
  vaults : after.db.vaults = before.db.vaults.keep (·.id ≠ vault)
  documents : after.db.documents = before.db.documents.keep (·.vaultId ≠ vault)
  readers : after.catalog.readers = before.catalog.readers.filter (·.1 ≠ vault)
  sources : after.db.sources = before.db.sources.keep (·.vaultId ≠ vault)
  intake : after.db.intake = before.db.intake.keep (·.vaultId ≠ vault)
  maintenance : after.db.maintenance = before.db.maintenance.keep (·.vaultId ≠ vault)
  saves : after.saves.rows = before.saves.rows.filter (·.vault ≠ vault)
  agentSaves : after.agentSaves.rows = before.agentSaves.rows.filter (·.key.vault ≠ vault)
  archives : after.db.archives = before.db.archives
  events : after.db.events = before.db.events
  observations : ∀ id, after.catalog.observations id =
    if before.db.documents.rows.any (fun row => row.id = id && row.vaultId = vault) then
      observeDelete (before.catalog.observations id)
    else before.catalog.observations id
  provenance : after.provenance = before.provenance ++
    (before.db.documents.rows.filter (·.vaultId = vault)).map
      (provenanceEvent "source_removed" now)
  others : after.catalog.nodes = before.catalog.nodes ∧ after.paired = before.paired ∧
    after.projects = before.projects ∧ after.projectVaults = before.projectVaults

variable {library next : Library} {vault : Uuid} {now : Int}

theorem sound_withoutDocuments (sound : library.Sound) (vault : Uuid) (now : Int) :
    (library.withoutDocuments vault now).Sound :=
  sound.write now (.of_filter rfl rfl)

/-- Nothing but a project's link would hold the vault. -/
theorem unreferenced_deleteBelongings (now : Int) (sound : library.Sound)
    (unlinked : ∀ link ∈ library.projectVaults.rows, link.vaultId ≠ vault) :
    ((library.withoutDocuments vault now).deleteBelongings vault).Unreferenced vault := by
  have apart : ∀ row ∈ (library.withoutDocuments vault now).db.documents.rows,
      row.vaultId ≠ vault := by
    intro row stored
    exact of_decide_eq_true (List.mem_filter.mp stored).2
  refine ⟨apart, ?_, ?_, ?_, ?_, unlinked, ?_⟩
  · intro reader granted
    exact of_decide_eq_true (List.mem_filter.mp granted).2
  · intro source stored
    exact of_decide_eq_true (List.mem_filter.mp stored).2
  · intro receipt stored
    exact of_decide_eq_true (List.mem_filter.mp stored).2
  · intro schedule stored
    exact of_decide_eq_true (List.mem_filter.mp stored).2
  · intro save stored
    obtain ⟨row, member, _, own⟩ := (sound_withoutDocuments sound vault now).agentSaved save stored
    exact own ▸ apart row member

theorem any_keep_iff (db : VaultDb) (vault : Uuid) {row : DocumentRow} (stored : row ∈ db.documents.rows) :
    (db.documents.keep (·.vaultId ≠ vault)).rows.any (·.id = row.id) = true ↔
      row.vaultId ≠ vault := by
  rw [List.any_eq_true]
  constructor
  · rintro ⟨other, kept, named⟩
    obtain ⟨member, apart⟩ := List.mem_filter.mp kept
    rw [← db.eq_of_id member stored (of_decide_eq_true named)]
    exact of_decide_eq_true apart
  · intro apart
    exact ⟨row, List.mem_filter.mpr ⟨stored, decide_eq_true apart⟩, decide_eq_true rfl⟩

/-- The triggers of the deletion: one entry for each document of the vault. -/
theorem provenanceOf_keep (db : VaultDb) (vault : Uuid) (now : Int) :
    provenanceOf db.documents.rows (db.documents.keep (·.vaultId ≠ vault)).rows now =
      (db.documents.rows.filter (·.vaultId = vault)).map
        (provenanceEvent "source_removed" now) := by
  have removed : db.documents.rows.filter
      (fun row => !(db.documents.keep (·.vaultId ≠ vault)).rows.any (·.id = row.id)) =
        db.documents.rows.filter (·.vaultId = vault) := by
    apply List.filter_congr
    intro row stored
    have kept := any_keep_iff db vault stored
    by_cases own : row.vaultId = vault
    · rw [Bool.eq_false_of_not_eq_true fun there => kept.mp there own, decide_eq_true own]
      rfl
    · rw [kept.mpr own, decide_eq_false own]
      rfl
  have written : (db.documents.keep (·.vaultId ≠ vault)).rows.filterMap
      (writtenEvent db.documents.rows now) = [] := by
    rw [List.filterMap_eq_nil_iff]
    intro row kept
    have stored := (List.mem_filter.mp kept).1
    have found : db.documents.rows.find? (·.id = row.id) = some row :=
      (db.documents.find?_eq_some_iff (fun _ _ => DocumentRow.Clash.symm) (·.id)
        (fun _ _ => Or.inl) row.id row).mpr ⟨stored, rfl⟩
    unfold writtenEvent
    rw [found]
    exact if_pos rfl
  unfold provenanceOf
  rw [removed, written, List.append_nil]

theorem find?_document (db : VaultDb) (id : Uuid) (row : DocumentRow) :
    db.documents.rows.find? (·.id = id) = some row ↔ row ∈ db.documents.rows ∧ row.id = id :=
  db.documents.find?_eq_some_iff (fun _ _ => DocumentRow.Clash.symm) (·.id) (fun _ _ => Or.inl) id
    row

theorem observe_keep (db : VaultDb) (vault : Uuid) (now : Int)
    (observations : Uuid → Option VaultObservation) (id : Uuid) :
    observe db.documents.rows (db.documents.keep (·.vaultId ≠ vault)).rows now observations id =
      if db.documents.rows.any (fun row => row.id = id && row.vaultId = vault) then
        observeDelete (observations id)
      else observations id := by
  have kept := db.documents.find?_keep (fun _ _ => DocumentRow.Clash.symm) (·.id)
    (fun _ _ => Or.inl) (·.vaultId ≠ vault) id
  unfold observe
  rw [kept]
  cases found : db.documents.rows.find? (·.id = id) with
  | none =>
    have absent : ¬ db.documents.rows.any (fun row => row.id = id && row.vaultId = vault) := by
      intro there
      obtain ⟨row, stored, selected⟩ := List.any_eq_true.mp there
      have named := (Bool.and_eq_true_iff.mp selected).1
      exact List.find?_eq_none.mp found row stored named
    rw [if_neg absent]
    rfl
  | some row =>
    obtain ⟨stored, named⟩ := (find?_document db id row).mp found
    by_cases own : row.vaultId = vault
    · have there : db.documents.rows.any (fun row => row.id = id && row.vaultId = vault) :=
        List.any_eq_true.mpr ⟨row, stored, by simp [named, own]⟩
      rw [Option.filter_some_neg (by simp [own]), if_pos there]
    · have absent : ¬ db.documents.rows.any (fun row => row.id = id && row.vaultId = vault) := by
        intro there
        obtain ⟨other, member, selected⟩ := List.any_eq_true.mp there
        obtain ⟨same, mine⟩ := Bool.and_eq_true_iff.mp selected
        rw [db.eq_of_id member stored ((of_decide_eq_true same).trans named.symm)] at mine
        exact own (of_decide_eq_true mine)
      rw [Option.filter_some_pos (by simp [own]), if_neg absent]
      exact if_pos rfl

/-- A save goes with the document, exactly where it is of the vault. -/
theorem kept_of_holds (db : VaultDb) (vault : Uuid) {document owner : Uuid}
    (held : db.Holds document owner) (apart : owner ≠ vault) :
    (db.documents.keep (·.vaultId ≠ vault)).rows.any (·.id = document) = true := by
  obtain ⟨row, stored, rfl, rfl⟩ := held
  exact (any_keep_iff db vault stored).mpr apart

theorem not_kept_of_holds (db : VaultDb) (vault : Uuid) {document : Uuid}
    (held : db.Holds document vault) :
    (db.documents.keep (·.vaultId ≠ vault)).rows.any (·.id = document) = false := by
  obtain ⟨row, stored, rfl, own⟩ := held
  exact Bool.eq_false_of_not_eq_true fun there => (any_keep_iff db vault stored).mp there own

/-- A vault that nothing refers to goes without leaving a dangling row. -/
theorem Library.Sound.removeVault (sound : library.Sound)
    (free : (library.deleteBelongings vault).Unreferenced vault) :
    ((library.deleteBelongings vault).removeVault vault).Sound := by
  obtain ⟨documents, readers, sources, intake, maintenance, links, agentSaves⟩ := free
  have stay : ∀ known, known ≠ vault → library.hasVault known = true →
      ((library.db.vaults.keep (·.id ≠ vault)).lookup known).isSome := by
    intro known apart held
    obtain ⟨info, found⟩ := Option.isSome_iff_exists.mp held
    have named : info.id = known := Table.key_of_lookup found
    rw [Table.lookup_keep, found, Option.filter_some_pos (by simpa [named] using apart)]
    rfl
  refine ⟨⟨?_, ?_, ?_, ?_⟩, ?_, sound.paired, ?_, ?_, sound.agentSaved⟩
  · intro row stored
    exact stay _ (documents row stored) (sound.referred.documents row stored)
  · intro source stored
    exact stay _ (sources source stored) (sound.referred.sources _ (List.mem_filter.mp stored).1)
  · intro receipt stored
    exact stay _ (intake receipt stored) (sound.referred.intake _ (List.mem_filter.mp stored).1)
  · intro schedule stored
    exact stay _ (maintenance schedule stored)
      (sound.referred.maintenance _ (List.mem_filter.mp stored).1)
  · intro reader granted
    obtain ⟨known, node⟩ := sound.readers reader (List.mem_filter.mp granted).1
    exact ⟨stay _ (readers reader granted) known, node⟩
  · intro link stored
    obtain ⟨project, known⟩ := sound.links link stored
    exact ⟨project, stay _ (links link stored) known⟩
  · intro save stored
    exact sound.saved save (List.mem_filter.mp stored).1

/-- The vault is deleted, and the library is sound behind it. -/
theorem vaultDelete_of_sound (sound : library.Sound) (known : library.hasVault vault = true)
    (unlinked : ∀ link ∈ library.projectVaults.rows, link.vaultId ≠ vault) (now : Int) :
    ∃ after, library.vaultDelete vault now = .ok after ∧ Deleted library after vault now ∧
      after.Sound := by
  have free := unreferenced_deleteBelongings now sound unlinked
  have before := sound_withoutDocuments sound vault now
  refine ⟨((library.withoutDocuments vault now).deleteBelongings vault).removeVault vault,
    ?_, ?_, ?_⟩
  · unfold Library.vaultDelete Library.deleteVaultRow
    have there : require (library.hasVault vault) (rejected "collection not found") = .ok () :=
      require_eq_ok_iff.mpr known
    have passed : require (((library.withoutDocuments vault now).deleteBelongings
        vault).Unreferenced vault) dbError = .ok () := require_eq_ok_iff.mpr free
    rw [there, ok_bind, passed, ok_bind]
    rfl
  · have saves : (((library.withoutDocuments vault now).deleteBelongings vault).removeVault
        vault).saves.rows = (library.saves.rows.filter fun save =>
          (library.db.documents.keep (·.vaultId ≠ vault)).rows.any (·.id = save.document)).filter
            (·.vault ≠ vault) := rfl
    have agentSaves : (((library.withoutDocuments vault now).deleteBelongings vault).removeVault
        vault).agentSaves.rows = library.agentSaves.rows.filter fun save =>
          (library.db.documents.keep (·.vaultId ≠ vault)).rows.any (·.id = save.document) := rfl
    refine ⟨rfl, rfl, rfl, rfl, rfl, rfl, ?_, ?_, rfl, rfl, ?_, ?_, rfl, rfl, rfl, rfl⟩
    · rw [saves, List.filter_filter]
      apply List.filter_congr
      intro save stored
      by_cases own : save.vault = vault
      · simp [own]
      · rw [kept_of_holds library.db vault (sound.saved save stored) own, Bool.and_true]
    · rw [agentSaves]
      apply List.filter_congr
      intro save stored
      have held := sound.agentSaved save stored
      by_cases own : save.key.vault = vault
      · rw [own] at held
        rw [not_kept_of_holds library.db vault held, decide_eq_false (not_not_intro own)]
      · rw [kept_of_holds library.db vault held own, decide_eq_true own]
    · intro id
      exact observe_keep library.db vault now library.catalog.observations id
    · exact congrArg (library.provenance ++ ·) (provenanceOf_keep library.db vault now)
  · exact before.removeVault free

theorem Library.Sound.vaultDelete (sound : library.Sound)
    (done : library.vaultDelete vault now = .ok next) : next.Sound := by
  unfold Library.vaultDelete Library.deleteVaultRow at done
  obtain ⟨_, _, done⟩ := bind_eq_ok_iff.mp done
  obtain ⟨_, free, done⟩ := bind_eq_ok_iff.mp done
  rw [require_eq_ok_iff] at free
  obtain rfl := pure_eq_ok_iff.mp done
  exact (sound_withoutDocuments sound vault now).removeVault free

end Outcome

section Runs

variable {sha256 : Text → Text} {formats : DateFormats} {library next : Library}

theorem keeps_of_claimMaintenance {db next : VaultDb} {token : Uuid} {now : Int}
    {claim? : Option MaintenanceClaim}
    (done : claimMaintenance db token now = .ok (next, claim?)) : Keeps db next := by
  cases claim? with
  | none =>
    obtain ⟨rfl, _⟩ := unclaimed_of_claimMaintenance done
    exact .refl _
  | some claim =>
    have claimed := claimed_of_claimMaintenance done
    refine keeps_of_rescheduled claimed.rescheduled ⟨?_, ?_, ?_⟩
    · rw [claimed.rest]
    · rw [claimed.rest]
    · rw [claimed.rest]

theorem keeps_of_publishMaintenance {db next : VaultDb} {claim : MaintenanceClaim}
    {scan : Option (Result CurationReport)} {finished : Int} {result? : Option MaintenanceResult}
    (done : publishMaintenance db claim scan finished = .ok (next, result?)) : Keeps db next := by
  rcases published_of_publishMaintenance done with ⟨_, rfl, _⟩ | published
  · exact .refl _
  · obtain ⟨made, safe, rest⟩ := published.made
    refine keeps_of_rescheduled published.rescheduled ⟨?_, ?_, ?_⟩
    · rw [rest, safe.rest]
    · rw [rest, safe.rest]
    · rw [rest, safe.rest]

theorem Library.Sound.reply (sound : library.Sound) {event : LibraryEvent}
    (done : event.reply sha256 formats library = .ok next) : next.Sound := by
  obtain ⟨op, now⟩ := event
  cases op with
  | vault op =>
    by_cases deletes : ∃ vault, op = .delete vault
    · obtain ⟨vault, rfl⟩ := deletes
      exact sound.vaultDelete done
    · have kept : ∀ vault, op ≠ .delete vault := fun vault same => deletes ⟨vault, same⟩
      have adopted : library.adopt now <$>
          CatalogEvent.reply sha256 formats ⟨op, now⟩ library.catalog = .ok next := by
        cases op with
        | delete vault => exact absurd rfl (kept vault)
        | _ => exact done
      obtain ⟨catalog, replied, rfl⟩ := map_eq_ok_iff.mp adopted
      obtain ⟨nodes, readers⟩ := readers_of_reply kept replied
      exact sound.adopt now (keeps_of_reply sound.referred kept replied) readers nodes
  | write write =>
    obtain ⟨⟨between, db⟩, written, rfl⟩ := map_eq_ok_iff.mp done
    exact sound.writes now (chain_of_reply written)
  | claim token =>
    obtain ⟨⟨db, claim?⟩, claimed, rfl⟩ := map_eq_ok_iff.mp done
    exact sound.write now (keeps_of_claimMaintenance claimed)
  | publish claim scan =>
    obtain ⟨⟨db, result?⟩, published, rfl⟩ := map_eq_ok_iff.mp done
    exact sound.write now (keeps_of_publishMaintenance published)
  | pair node =>
    obtain ⟨_, known, done⟩ := bind_eq_ok_iff.mp done
    rw [require_eq_ok_iff] at known
    obtain rfl := pure_eq_ok_iff.mp done
    refine ⟨sound.referred, sound.readers, ?_, sound.links, sound.saved, sound.agentSaved⟩
    intro other there
    rcases List.mem_insert_iff.mp there with rfl | old
    · exact known
    · exact sound.paired other old
  | revoke node =>
    obtain rfl := Except.ok.inj done
    exact ⟨sound.referred, sound.readers,
      fun other there => sound.paired other (List.mem_filter.mp there).1, sound.links,
      sound.saved, sound.agentSaved⟩
  | reconcileGrants =>
    obtain rfl := Except.ok.inj done
    refine sound.grantAll ?_
    intro grant member
    obtain ⟨vault, listed, granted⟩ := List.mem_flatMap.mp member
    obtain ⟨info, stored, rfl⟩ := List.mem_map.mp listed
    obtain ⟨node, there, rfl⟩ := List.mem_map.mp granted
    refine ⟨Option.isSome_iff_exists.mpr ⟨info, ?_⟩, sound.paired node there⟩
    exact (Table.lookup_eq_some_iff _ _ _).mpr ⟨stored, rfl⟩
  | createProject project vault title goal => exact sound.createProject done
  | save origin vault node document title content date => exact sound.save done

theorem sound_libraryAt (sha256 : Text → Text) (formats : DateFormats)
    (events : List LibraryEvent) (moment : Nat) : (libraryAt sha256 formats events moment).Sound :=
  stateAt_invariant (Library.step sha256 formats) .empty events Library.Sound .start
    (fun library event _ sound => by
      unfold Library.step
      split
      · next reply => exact sound.reply reply
      · exact sound) moment

/-- In every run, no row of the library dangles. -/
theorem foreignKeys_libraryAt (events : List LibraryEvent) (moment : Nat) :
    (libraryAt sha256 formats events moment).ForeignKeys :=
  (sound_libraryAt sha256 formats events moment).foreignKeys

/-- In every run, a vault that no project is linked to is deleted, and no row dangles behind it. -/
theorem vaultDelete_libraryAt (sha256 : Text → Text) (formats : DateFormats)
    (events : List LibraryEvent) (moment : Nat) (vault : Uuid) (now : Int)
    (known : (libraryAt sha256 formats events moment).hasVault vault = true)
    (unlinked : ∀ link ∈ (libraryAt sha256 formats events moment).projectVaults.rows,
      link.vaultId ≠ vault) :
    ∃ after, (libraryAt sha256 formats events moment).vaultDelete vault now = .ok after ∧
      Deleted (libraryAt sha256 formats events moment) after vault now ∧ after.ForeignKeys := by
  obtain ⟨after, done, deleted, sound⟩ :=
    vaultDelete_of_sound (sound_libraryAt sha256 formats events moment) known unlinked now
  exact ⟨after, done, deleted, sound.foreignKeys⟩

/-- A vault with a document in it. -/
def oneNote : List LibraryEvent :=
  [⟨.vault (.create 1 "First"), 0⟩,
    ⟨.vault (.put 1 5 "note.md".toList "Note".toList "a note".toList), 0⟩]

theorem vaultDelete_oneNote :
    ∃ after, (libraryAt id noDates oneNote 2).vaultDelete 1 60000 = .ok after ∧
      Deleted (libraryAt id noDates oneNote 2) after 1 60000 ∧ after.ForeignKeys :=
  vaultDelete_libraryAt id noDates oneNote 2 1 60000 (by decide +kernel) (by decide +kernel)

/-- A project, with the collection that was made for it. -/
def oneProject : List LibraryEvent := [⟨.createProject 1 2 "Atlas" "Draw the maps", 0⟩]

/-- The collection of a project is not deleted, and what is recorded of the documents of a vault
does not stay as it was. -/
theorem vaultDelete_not_unconditional :
    (¬ ∀ (sha256 : Text → Text) (formats : DateFormats) (events : List LibraryEvent)
      (moment : Nat) (vault : Uuid) (now : Int),
      (libraryAt sha256 formats events moment).hasVault vault = true →
      ∃ after, (libraryAt sha256 formats events moment).vaultDelete vault now = .ok after) ∧
    ¬ ∀ (sha256 : Text → Text) (formats : DateFormats) (events : List LibraryEvent)
      (moment : Nat) (vault : Uuid) (now : Int) (after : Library),
      (libraryAt sha256 formats events moment).vaultDelete vault now = .ok after →
      after.catalog.observations = (libraryAt sha256 formats events moment).catalog.observations ∧
        after.provenance = (libraryAt sha256 formats events moment).provenance := by
  constructor
  · intro succeeds
    obtain ⟨after, done⟩ := succeeds id noDates oneProject 1 2 0 (by decide +kernel)
    have refused : ((libraryAt id noDates oneProject 1).vaultDelete 2 0).isOk = false := by
      decide +kernel
    rw [done] at refused
    cases refused
  · intro unchanged
    have changed : ((libraryAt id noDates oneNote 2).vaultDelete 1 60000).toOption.any
        (·.provenance ≠ (libraryAt id noDates oneNote 2).provenance) = true := by decide +kernel
    cases done : (libraryAt id noDates oneNote 2).vaultDelete 1 60000 with
    | error failure =>
      rw [done] at changed
      cases changed
    | ok after =>
      have same := (unchanged id noDates oneNote 2 1 60000 after done).2
      rw [done] at changed
      exact of_decide_eq_true changed same

end Runs

end OHHive.Vault
