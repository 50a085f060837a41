import OHHive.Vault.LibraryKeys

/-! The library over its runs: every foreign key holds, and every saved document lies in the vault
of its save. -/

namespace OHHive.Vault

open Foundation

section Soundness

/-- No row points at a vault, a document, a project or a computer that is not there. -/
structure Library.ForeignKeys (library : Library) : Prop where
  referred : library.db.Referred
  readers : ∀ reader ∈ library.catalog.readers,
    library.hasVault reader.1 = true ∧ reader.2 ∈ library.catalog.nodes
  links : ∀ link ∈ library.projectVaults.rows,
    (library.projects.lookup link.projectId).isSome ∧ library.hasVault link.vaultId = true
  saves : ∀ save ∈ library.saves.rows,
    library.hasVault save.vault = true ∧ ∃ row ∈ library.db.documents.rows, row.id = save.document
  agentSaves : ∀ save ∈ library.agentSaves.rows, library.hasVault save.key.vault = true ∧
    ∃ row ∈ library.db.documents.rows, row.id = save.document

/-- A document that lies in the vault of its save. -/
def VaultDb.Holds (db : VaultDb) (document vault : Uuid) : Prop :=
  ∃ row ∈ db.documents.rows, row.id = document ∧ row.vaultId = vault

structure Library.Sound (library : Library) : Prop where
  referred : library.db.Referred
  readers : ∀ reader ∈ library.catalog.readers,
    library.hasVault reader.1 = true ∧ reader.2 ∈ library.catalog.nodes
  paired : ∀ node ∈ library.paired, node ∈ library.catalog.nodes
  links : ∀ link ∈ library.projectVaults.rows,
    (library.projects.lookup link.projectId).isSome ∧ library.hasVault link.vaultId = true
  saved : ∀ save ∈ library.saves.rows, library.db.Holds save.document save.vault
  agentSaved : ∀ save ∈ library.agentSaves.rows, library.db.Holds save.document save.key.vault

variable {library next : Library}

theorem Library.Sound.hasVault_of_holds (sound : library.Sound) {document vault : Uuid}
    (held : library.db.Holds document vault) : library.hasVault vault = true := by
  obtain ⟨row, stored, _, own⟩ := held
  exact own ▸ sound.referred.documents row stored

theorem Library.Sound.foreignKeys (sound : library.Sound) : library.ForeignKeys := by
  refine ⟨sound.referred, sound.readers, sound.links, ?_, ?_⟩
  · intro save stored
    have known := sound.hasVault_of_holds (sound.saved save stored)
    obtain ⟨row, member, named, _⟩ := sound.saved save stored
    exact ⟨known, row, member, named⟩
  · intro save stored
    have known := sound.hasVault_of_holds (sound.agentSaved save stored)
    obtain ⟨row, member, named, _⟩ := sound.agentSaved save stored
    exact ⟨known, row, member, named⟩

theorem Library.Sound.start : Library.empty.Sound := by
  refine ⟨⟨?_, ?_, ?_, ?_⟩, ?_, ?_, ?_, ?_, ?_⟩
  · intro row stored
    cases stored
  · intro row stored
    cases stored
  · intro row stored
    cases stored
  · intro row stored
    cases stored
  · intro reader granted
    cases granted
  · intro node there
    cases there
  · intro link stored
    cases stored
  · intro save stored
    cases stored
  · intro save stored
    cases stored

theorem holds_of_keeps {before after : VaultDb} (keeps : Keeps before after)
    {document vault : Uuid} (held : before.Holds document vault)
    (there : after.documents.rows.any (·.id = document) = true) : after.Holds document vault := by
  obtain ⟨row, member, named⟩ := List.any_eq_true.mp there
  obtain ⟨old, stored, same, own⟩ := held
  have named : row.id = document := of_decide_eq_true named
  exact ⟨row, member, named, (keeps.same old stored row member (named.trans same.symm)).trans own⟩

/-- A step on the catalog keeps the library sound. -/
theorem Library.Sound.adopt (sound : library.Sound) {catalog : Catalog} (now : Int)
    (keeps : Keeps library.db catalog.db)
    (readers : ∀ reader ∈ catalog.readers, reader ∈ library.catalog.readers ∨
      (catalog.db.vaults.lookup reader.1).isSome ∧ reader.2 ∈ catalog.nodes)
    (nodes : library.catalog.nodes ⊆ catalog.nodes) : (library.adopt now catalog).Sound := by
  refine ⟨keeps.referred sound.referred, ?_, ?_, ?_, ?_, ?_⟩
  · intro reader granted
    rcases readers reader granted with old | new
    · obtain ⟨known, node⟩ := sound.readers reader old
      exact ⟨keeps.vaults _ known, nodes node⟩
    · exact new
  · intro node there
    exact nodes (sound.paired node there)
  · intro link stored
    obtain ⟨project, known⟩ := sound.links link stored
    exact ⟨project, keeps.vaults _ known⟩
  · intro save stored
    obtain ⟨held, there⟩ := List.mem_filter.mp stored
    exact holds_of_keeps keeps (sound.saved save held) there
  · intro save stored
    obtain ⟨held, there⟩ := List.mem_filter.mp stored
    exact holds_of_keeps keeps (sound.agentSaved save held) there

theorem Library.Sound.write (sound : library.Sound) {db : VaultDb} (now : Int)
    (keeps : Keeps library.db db) : (library.write now db).Sound :=
  sound.adopt now keeps (fun _ granted => Or.inl granted) (List.Subset.refl _)

/-- So does a transaction of several statements. -/
theorem Library.Sound.writes (sound : library.Sound) {between : List VaultDb} {db : VaultDb}
    (now : Int) (chain : List.IsChain Keeps (library.db :: (between ++ [db]))) :
    ((between.foldl (Library.write · now) library).write now db).Sound := by
  induction between generalizing library with
  | nil => exact sound.write now (List.isChain_pair.mp chain)
  | cons first between ih =>
    obtain ⟨keeps, rest⟩ := List.isChain_cons_cons.mp chain
    exact ih (sound.write now keeps) rest

theorem Library.Sound.grantAll (sound : library.Sound) {grants : List (Uuid × Uuid)}
    (known : ∀ grant ∈ grants,
      library.hasVault grant.1 = true ∧ grant.2 ∈ library.catalog.nodes) :
    Library.Sound { library with catalog := library.catalog.grantAll grants } := by
  refine ⟨sound.referred, ?_, sound.paired, sound.links, sound.saved, sound.agentSaved⟩
  intro reader granted
  rcases List.mem_append.mp granted with old | new
  · exact sound.readers reader old
  · exact known reader (List.mem_filter.mp new).1

end Soundness

section Steps

variable {sha256 : Text → Text} {formats : DateFormats} {library next : Library} {now : Int}
  {vault : Uuid}

/-- What a transaction of the catalog does to the grants and the computers. -/
theorem readers_of_reply {catalog after : Catalog} {event : CatalogEvent}
    (kept : ∀ vault, event.op ≠ .delete vault)
    (done : event.reply sha256 formats catalog = .ok after) :
    catalog.nodes ⊆ after.nodes ∧ ∀ reader ∈ after.readers, reader ∈ catalog.readers ∨
      (after.db.vaults.lookup reader.1).isSome ∧ reader.2 ∈ after.nodes := by
  obtain ⟨op, now⟩ := event
  have unchanged : ∀ db : VaultDb, catalog.nodes ⊆ (catalog.write now db).nodes ∧
      ∀ reader ∈ (catalog.write now db).readers, reader ∈ catalog.readers ∨
        (db.vaults.lookup reader.1).isSome ∧ reader.2 ∈ (catalog.write now db).nodes :=
    fun _ => ⟨List.Subset.refl _, fun _ granted => Or.inl granted⟩
  cases op with
  | enroll node =>
    obtain rfl := Except.ok.inj done
    exact ⟨List.subset_append_left _ _, fun _ granted => Or.inl granted⟩
  | create vault name =>
    obtain ⟨db, _, rfl⟩ := map_eq_ok_iff.mp done
    exact unchanged db
  | setAvailable vault available =>
    obtain ⟨db, _, rfl⟩ := map_eq_ok_iff.mp done
    exact unchanged db
  | grant vault node enabled =>
    change vaultGrant catalog vault node enabled = .ok after at done
    unfold vaultGrant at done
    split at done
    · split at done
      · obtain rfl := pure_eq_ok_iff.mp done
        exact ⟨List.Subset.refl _, fun _ granted => Or.inl granted⟩
      · obtain ⟨_, known, done⟩ := bind_eq_ok_iff.mp done
        rw [require_eq_ok_iff] at known
        obtain rfl := pure_eq_ok_iff.mp done
        refine ⟨List.Subset.refl _, fun reader granted => ?_⟩
        rcases List.mem_append.mp granted with old | new
        · exact Or.inl old
        · obtain rfl := List.mem_singleton.mp new
          exact Or.inr known
    · obtain rfl := pure_eq_ok_iff.mp done
      exact ⟨List.Subset.refl _, fun _ granted => Or.inl (List.mem_filter.mp granted).1⟩
  | configureMaintenance vault policy =>
    obtain ⟨db, _, rfl⟩ := map_eq_ok_iff.mp done
    exact unchanged db
  | put vault id path title content =>
    obtain ⟨⟨db, revision⟩, _, rfl⟩ := map_eq_ok_iff.mp done
    exact unchanged db
  | removeDocument vault id =>
    obtain ⟨db, _, rfl⟩ := map_eq_ok_iff.mp done
    exact unchanged db
  | archive vault id revision actor reason =>
    obtain ⟨db, _, rfl⟩ := map_eq_ok_iff.mp done
    exact unchanged db
  | restore vault id expected actor reason =>
    obtain ⟨db, _, rfl⟩ := map_eq_ok_iff.mp done
    exact unchanged db
  | delete vault => exact absurd rfl (kept vault)

theorem Library.Sound.createProject (sound : library.Sound) {project : Uuid} {title goal : String}
    (done : library.createProject project vault title goal now = .ok next) : next.Sound := by
  unfold Library.createProject at done
  obtain ⟨_, _, done⟩ := bind_eq_ok_iff.mp done
  obtain ⟨_, _, done⟩ := bind_eq_ok_iff.mp done
  obtain ⟨projects, added, done⟩ := bind_eq_ok_iff.mp done
  obtain ⟨vaults, inserted, done⟩ := bind_eq_ok_iff.mp done
  obtain ⟨projectVaults, linked, done⟩ := bind_eq_ok_iff.mp done
  rw [orFail_eq_ok_iff] at added inserted linked
  obtain rfl := pure_eq_ok_iff.mp done
  have stay : ∀ known, library.hasVault known = true → (vaults.lookup known).isSome := by
    intro known held
    obtain ⟨info, stored⟩ := Option.isSome_iff_exists.mp held
    exact Option.isSome_iff_exists.mpr ⟨info, Table.lookup_insert?_of_some inserted stored⟩
  have here : (vaults.lookup vault).isSome := by
    rw [Table.lookup_insert? inserted, if_pos rfl]
    rfl
  have wrote : (library.write now { library.db with vaults }).Sound :=
    sound.write now (.of_rest stay rfl rfl rfl rfl)
  have known : ∀ grant ∈ library.paired.map (vault, ·),
      (vaults.lookup grant.1).isSome ∧ grant.2 ∈ library.catalog.nodes := by
    intro grant member
    obtain ⟨node, there, rfl⟩ := List.mem_map.mp member
    exact ⟨here, sound.paired node there⟩
  have granted := wrote.grantAll known
  refine ⟨granted.referred, granted.readers, granted.paired, ?_, granted.saved,
    granted.agentSaved⟩
  intro link stored
  change link ∈ projectVaults.rows at stored
  change (projects.lookup link.projectId).isSome ∧ (vaults.lookup link.vaultId).isSome
  rw [Table.rows_of_insert? linked] at stored
  rcases List.mem_append.mp stored with old | new
  · obtain ⟨known, held⟩ := sound.links link old
    obtain ⟨row, found⟩ := Option.isSome_iff_exists.mp known
    exact ⟨Option.isSome_iff_exists.mpr ⟨row, Table.lookup_insert?_of_some added found⟩,
      stay _ held⟩
  · obtain rfl := List.mem_singleton.mp new
    refine ⟨?_, here⟩
    rw [Table.lookup_insert? added, if_pos rfl]
    rfl

theorem Library.Sound.recordSave (sound : library.Sound) {origin : SaveOrigin} {document : Uuid}
    (held : library.db.Holds document vault)
    (done : library.recordSave origin vault document now = .ok next) : next.Sound := by
  unfold Library.recordSave at done
  cases origin with
  | reply message owner node =>
    obtain ⟨saves, inserted, done⟩ := bind_eq_ok_iff.mp done
    rw [orFail_eq_ok_iff] at inserted
    obtain rfl := pure_eq_ok_iff.mp done
    refine ⟨sound.referred, sound.readers, sound.paired, sound.links, ?_, sound.agentSaved⟩
    intro save stored
    change save ∈ saves.rows at stored
    rw [Table.rows_of_insert? inserted] at stored
    rcases List.mem_append.mp stored with old | new
    · exact sound.saved save old
    · obtain rfl := List.mem_singleton.mp new
      exact held
  | findings agent message generation payload =>
    obtain ⟨agentSaves, inserted, done⟩ := bind_eq_ok_iff.mp done
    rw [orFail_eq_ok_iff] at inserted
    obtain rfl := pure_eq_ok_iff.mp done
    refine ⟨sound.referred, sound.readers, sound.paired, sound.links, sound.saved, ?_⟩
    intro save stored
    change save ∈ agentSaves.rows at stored
    rw [Table.rows_of_insert? inserted] at stored
    rcases List.mem_append.mp stored with old | new
    · exact sound.agentSaved save old
    · obtain rfl := List.mem_singleton.mp new
      exact held

theorem Library.Sound.save (sound : library.Sound) {origin : SaveOrigin} {node document : Uuid}
    {title : String} {content : Text} {date : Option Int}
    (done : library.save sha256 origin vault node document title content date now = .ok next) :
    next.Sound := by
  unfold Library.save at done
  obtain ⟨_, _, done⟩ := bind_eq_ok_iff.mp done
  obtain ⟨_, _, done⟩ := bind_eq_ok_iff.mp done
  obtain ⟨saved, _, done⟩ := bind_eq_ok_iff.mp done
  split at done
  · obtain rfl := pure_eq_ok_iff.mp done
    exact sound
  · obtain ⟨db, written, done⟩ := bind_eq_ok_iff.mp done
    obtain ⟨_, _, inserted⟩ := bind_eq_ok_iff.mp written
    have found := VaultDb.documentRow?_of_insertDocument inserted
    obtain ⟨stored, own, named⟩ := VaultDb.documentRow?_eq_some_iff.mp found
    exact (sound.write now (.of_insertDocument inserted)).recordSave ⟨_, stored, named, own⟩ done

end Steps

end OHHive.Vault
