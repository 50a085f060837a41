import OHHive.Vault.MaintenanceSurvival

/-! What archiving, expiry and maintenance keep safe: an archive fits the quota of its vault, a
snapshot goes only where the same document stays, and a pass that was overtaken writes nothing. -/

namespace OHHive.Vault

open Foundation

section Drops

variable {db made : VaultDb} {archive : VaultArchive} {document : VaultDocument} {vault : Uuid}
  {now : Int}

/-- The snapshot of an archive goes while the very same document is in its vault. -/
structure SafelyDropped (before after : VaultDb) (archive : VaultArchive)
    (document : VaultDocument) (now : Int) : Prop where
  ready : ∃ info, before.vaults.lookup archive.vaultId = some info ∧ info.state = .ready
  aged : ∃ days : Nat, (policyOf before archive.vaultId).redundantSnapshotDays = some days ∧
    archive.archivedMs ≤ saturatingAdd now (-(days * dayMs))
  same : before.document? archive.vaultId archive.documentId = some document ∧
    document.revision = archive.revision
  stays : after.document? archive.vaultId archive.documentId = some document
  overlay : after.archives.lookup archive.documentId = some { archive with snapshot := none }

theorem SafelyDropped.transfer {next : VaultDb} (safe : SafelyDropped db made archive document now)
    (documents : next.documents = made.documents)
    (archives : next.archives.lookup archive.documentId =
      made.archives.lookup archive.documentId) :
    SafelyDropped db next archive document now := by
  refine ⟨safe.ready, safe.aged, safe.same, ?_, archives.trans safe.overlay⟩
  rw [← safe.stays]
  unfold VaultDb.document? VaultDb.documentRow?
  rw [documents]

theorem dropped_of_safeExpiry (safe : SafeExpiry vault (policyOf db vault) now db made)
    (stored : db.archives.lookup archive.documentId = some archive)
    (snapshot : archive.snapshot = some document) :
    made.archives.lookup archive.documentId = some archive ∨
      SafelyDropped db made archive document now := by
  rcases safe with rfl | ⟨info, days, known, ready, retained, expiry⟩
  · exact Or.inl stored
  · rcases expiry.archives archive.documentId with kept | ⟨other, redundant, named, dropped⟩
    · exact Or.inl (kept.trans stored)
    · have one : other = archive := by
        have found := redundant.stored
        rw [named, stored] at found
        exact (Option.some.inj found).symm
      rw [one] at redundant dropped
      obtain ⟨held, saved, current, revised⟩ := redundant.same
      obtain rfl := Option.some.inj (snapshot.symm.trans saved)
      have own := redundant.own
      refine Or.inr ⟨⟨info, own ▸ known, ready⟩, ⟨days, own ▸ retained, redundant.aged⟩,
        ⟨own ▸ current, revised⟩, ?_, dropped⟩
      rw [expiry.document?, own]
      exact current

end Drops

section Safety

variable (sha256 : Text → Text) (formats : DateFormats)

/-- The reading of the clock that a step measures retention by. -/
inductive Reading (state : Maintained) : MaintenanceMove → Int → Prop
  | archive (vault id : Uuid) (revision : Text) (actor reason : String) (now : Int) :
    Reading state (.host ⟨.archive vault id revision actor reason, now⟩) now
  | tick (loop : Nat) (finished : Int) (claim : MaintenanceClaim)
    (scan : Option (Result CurationReport)) (mine : state.passes loop = .scanned claim scan) :
    Reading state (.publish loop finished) claim.now

/-- What becomes of an archive that holds a snapshot: it stays, or loses the snapshot safely, or is
taken away as its document is restored. -/
inductive SnapshotFate (before after : Maintained) (move : MaintenanceMove)
    (archive : VaultArchive) (document : VaultDocument) : Prop
  | kept (stored : after.catalog.db.archives.lookup archive.documentId = some archive)
  | dropped (now : Int) (reading : Reading before move now)
      (safe : SafelyDropped before.catalog.db after.catalog.db archive document now)
  | restored (expected : Text) (actor reason : String) (now : Int)
      (asked : move =
        .host ⟨.restore archive.vaultId archive.documentId expected actor reason, now⟩)
      (gone : after.catalog.db.archives.lookup archive.documentId = none)
      (back : ∃ shown, after.catalog.db.document? archive.vaultId archive.documentId =
        some shown ∧ shown.revision = expected)

structure Retains (moves : List MaintenanceMove) : Prop where
  quota : ∀ moment vault id revision actor reason now next,
    moves[moment]? = some (.host ⟨.archive vault id revision actor reason, now⟩) →
    vaultArchive (maintainedAt sha256 formats moves moment).catalog.db vault id revision actor
      reason now = .ok next →
    archiveBytes (maintainedAt sha256 formats moves (moment + 1)).catalog.db vault ≤
      (policyOf (maintainedAt sha256 formats moves (moment + 1)).catalog.db
        vault).archiveQuotaBytes ∧
    (policyOf (maintainedAt sha256 formats moves (moment + 1)).catalog.db
      vault).archiveQuotaBytes ≤ 64 * 1024 * 1024
  expiry : ∀ moment move archive document, moves[moment]? = some move →
    (maintainedAt sha256 formats moves moment).catalog.db.archives.lookup archive.documentId =
      some archive →
    archive.snapshot = some document →
    SnapshotFate (maintainedAt sha256 formats moves moment)
      (maintainedAt sha256 formats moves (moment + 1)) move archive document
  replaced : ∀ moment loop claim,
    claim ∈ ((maintainedAt sha256 formats moves moment).passes loop).claim? →
    (∀ row ∈ (maintainedAt sha256 formats moves moment).catalog.db.maintenance.rows,
      row.vaultId = claim.vault → row.token ≠ some claim.token) →
    ∀ later, moment ≤ later → ∀ scan finished,
      publishMaintenance (maintainedAt sha256 formats moves later).catalog.db claim scan finished =
        .ok ((maintainedAt sha256 formats moves later).catalog.db, none)
  reconfigured : ∀ moment event loop claim, moves[moment]? = some (.host event) →
    event.op.Replaces claim.vault →
    (∃ next, event.reply sha256 formats (maintainedAt sha256 formats moves moment).catalog =
      .ok next) →
    claim ∈ ((maintainedAt sha256 formats moves moment).passes loop).claim? →
    ∀ later, moment < later → ∀ scan finished,
      publishMaintenance (maintainedAt sha256 formats moves later).catalog.db claim scan finished =
        .ok ((maintainedAt sha256 formats moves later).catalog.db, none)

variable {sha256 formats} {before after : Maintained} {move : MaintenanceMove}
  {archive : VaultArchive} {document : VaultDocument}

/-- A schedule that a pass holds has the policy that the pass was claimed under. -/
theorem Maintained.Sound.policyOf_eq (sound : before.Sound) (loop : Nat)
    {claim : MaintenanceClaim} (mine : claim ∈ (before.passes loop).claim?)
    (holds : before.catalog.db.holds claim = true) :
    policyOf before.catalog.db claim.vault = claim.policy := by
  obtain ⟨row, stored, own, held⟩ := holds_eq_true_iff.mp holds
  have found : before.catalog.db.maintenance.lookup claim.vault = some row :=
    (Table.lookup_eq_some_iff _ _ _).mpr ⟨stored, own⟩
  unfold policyOf
  rw [found, ← sound.held loop claim mine row stored own held]
  rfl

theorem fate_of_effect (sound : before.Sound)
    (effect : MaintenanceEffect sha256 formats before after move)
    (stored : before.catalog.db.archives.lookup archive.documentId = some archive)
    (snapshot : archive.snapshot = some document) :
    SnapshotFate before after move archive document := by
  cases effect with
  | rested same => exact .kept (same ▸ stored)
  | host event asked reply done passes minted =>
    subst asked
    obtain ⟨op, now⟩ := event
    cases done with
    | edited schedules vaults archives => exact .kept (archives ▸ stored)
    | restored vault id expected op schedules vaults done =>
      obtain ⟨actor, reason, rfl⟩ := op
      have left := Table.lookup_keep before.catalog.db.archives
        (fun archive => !(archive.documentId = id ∧ archive.vaultId = vault)) archive.documentId
      rw [← done.archives, stored] at left
      by_cases own : archive.documentId = id ∧ archive.vaultId = vault
      · obtain ⟨rfl, rfl⟩ := own
        rw [Option.filter_some_neg (by simp)] at left
        exact .restored expected actor reason now rfl left done.document
      · rw [Option.filter_some_pos (by rw [decide_eq_false own]; rfl)] at left
        exact .kept left
    | archived vault id op schedules vaults added =>
      obtain ⟨revision, actor, reason, rfl⟩ := op
      obtain ⟨made, safe, others, free⟩ := added.room
      have documents : after.catalog.db.documents = made.documents := by
        rw [added.rest, safe.rest]
      have apart : ∀ held, made.archives.lookup archive.documentId = some held →
          archive.documentId ≠ id := by
        intro held found same
        rw [same, free] at found
        cases found
      rcases dropped_of_safeExpiry safe stored snapshot with kept | dropped
      · exact .kept ((others _ (apart _ kept)).trans kept)
      · exact .dropped now (.archive vault id revision actor reason now)
          (dropped.transfer documents (others _ (apart _ dropped.overlay)))
    | configured vault policy op done =>
      refine .kept ?_
      rw [done.rest]
      exact stored
    | deleted vault op schedules vaults archives => exact .kept (archives ▸ stored)
  | written done passes minted =>
    refine .kept ?_
    rw [done.rest]
    exact stored
  | claimed loop now claim done passes minted =>
    refine .kept ?_
    rw [done.rest]
    exact stored
  | slept loop catalog passes minted => exact .kept (catalog ▸ stored)
  | read loop claim pass mine mine' apart moved => exact .kept (moved ▸ stored)
  | ended loop claim asked mine gone moved => exact .kept (moved ▸ stored)
  | published loop claim scan asked mine done passes minted =>
    obtain ⟨finished, rfl⟩ := asked
    obtain ⟨made, safe, rest⟩ := done.made
    have policy := sound.policyOf_eq loop (by rw [mine]; rfl) done.holds
    rw [← policy] at safe
    have archives : after.catalog.db.archives = made.archives := by rw [rest]
    rcases dropped_of_safeExpiry safe stored snapshot with kept | dropped
    · exact .kept (archives ▸ kept)
    · exact .dropped claim.now (.tick loop finished claim scan mine)
        (dropped.transfer (by rw [rest]) (by rw [archives]))

variable {moves : List MaintenanceMove}

theorem quota_of_archive {moment : Nat} {vault id : Uuid} {revision : Text} {actor reason : String}
    {now : Int} {next : VaultDb}
    (present : moves[moment]? = some (.host ⟨.archive vault id revision actor reason, now⟩))
    (done : vaultArchive (maintainedAt sha256 formats moves moment).catalog.db vault id revision
      actor reason now = .ok next) :
    archiveBytes (maintainedAt sha256 formats moves (moment + 1)).catalog.db vault ≤
        (policyOf (maintainedAt sha256 formats moves (moment + 1)).catalog.db
          vault).archiveQuotaBytes ∧
      (policyOf (maintainedAt sha256 formats moves (moment + 1)).catalog.db
        vault).archiveQuotaBytes ≤ 64 * 1024 * 1024 := by
  have reply : CatalogEvent.reply sha256 formats ⟨.archive vault id revision actor reason, now⟩
      (maintainedAt sha256 formats moves moment).catalog =
        .ok ((maintainedAt sha256 formats moves moment).catalog.write now next) :=
    map_eq_ok_iff.mpr ⟨next, done, rfl⟩
  have stepped : maintainedAt sha256 formats moves (moment + 1) =
      { maintainedAt sha256 formats moves moment with
        catalog := (maintainedAt sha256 formats moves moment).catalog.write now next } :=
    (stateAt_succ _ _ present).trans (step_host_of_reply reply)
  have added := archived_within_quota (sound_maintainedAt sha256 formats moves moment).validPolicies
    done
  rw [stepped]
  exact ⟨added.bytes, added.quota⟩

/-- Over every run archives fit their quota, snapshots expire safely, and a pass whose token or
whose vault's policy was replaced writes nothing. -/
theorem retains_maintainedAt (sha256 : Text → Text) (formats : DateFormats)
    (moves : List MaintenanceMove) : Retains sha256 formats moves := by
  refine ⟨?_, ?_, ?_, ?_⟩
  · intro moment vault id revision actor reason now next present done
    exact quota_of_archive present done
  · intro moment move archive document present stored snapshot
    have sound := sound_maintainedAt sha256 formats moves moment
    have next : maintainedAt sha256 formats moves (moment + 1) =
        (maintainedAt sha256 formats moves moment).step sha256 formats move :=
      stateAt_succ _ _ present
    rw [next]
    exact fate_of_effect sound (effect_of_step sound) stored snapshot
  · intro moment loop claim mine lost later upTo scan finished
    have minted := (sound_maintainedAt sha256 formats moves moment).minted loop claim mine
    have gone : (maintainedAt sha256 formats moves moment).catalog.db.holds claim = false := by
      by_contra back
      obtain ⟨row, stored, own, held⟩ := holds_eq_true_iff.mp (Bool.eq_true_of_not_eq_false back)
      exact lost row stored own held
    exact publish_eq_of_lost (holds_eq_false_of_le upTo minted gone) scan finished
  · intro moment event loop claim present replaces ⟨next, reply⟩ mine later after scan finished
    exact publish_eq_of_replaces present replaces reply mine after scan finished

end Safety

end OHHive.Vault
