import OHHive.Vault.FolderScans

/-! Folder publication. However scans of one folder overlap, a publication makes the vault's
documents the folder's notes, and a scan that a newer one has overtaken changes nothing. -/

namespace OHHive.Vault

open Foundation

section Invariant

variable {sha256 : Text → Text} {publishes : Prop} {hub : FolderHub} {vault : Uuid}
  {generation : Int}

/-- The vault's folder has come to a generation, or is gone for good. -/
def Reached (hub : FolderHub) (vault : Uuid) (generation : Int) : Prop :=
  vault ∈ hub.minted ∧
    ((∀ info ∈ hub.db.vaults.rows, info.id ≠ vault) ∨
      ∃ source ∈ hub.db.sources.rows, source.vaultId = vault ∧ generation ≤ source.generation)

/-- A newer generation has come than the one a scan began under. -/
def Overtaken (hub : FolderHub) (vault : Uuid) (generation : Int) : Prop :=
  Reached hub vault (generation + 1)

/-- A plan replaces what the vault has, as long as its generation is current. -/
def Fresh (hub : FolderHub) (vault : Uuid) (generation : Int) (old : List DocumentRow) : Prop :=
  ∀ source ∈ hub.db.sources.rows, source.vaultId = vault → source.generation = generation →
    hub.db.documentsOf vault = old

structure HubInvariant (sha256 : Text → Text) (hub : FolderHub) : Prop where
  known : ∀ info ∈ hub.db.vaults.rows, info.id ∈ hub.minted
  homed : Homed hub.db
  honest : ∀ source ∈ hub.db.sources.rows, Honest sha256 hub.db source.vaultId
  jobs : ∀ scan vault generation, (hub.scan scan).job? = some (vault, generation) →
    Reached hub vault generation
  plans : ∀ scan vault generation snapshot old,
    hub.scan scan = .planned vault generation snapshot old → Fresh hub vault generation old

theorem reached_of_advances {db : VaultDb} (advances : Advances sha256 publishes hub.db db)
    (reached : Reached hub vault generation) : Reached { hub with db } vault generation := by
  obtain ⟨minted, absent | ⟨source, stored, rfl, upTo⟩⟩ := reached
  · refine ⟨minted, Or.inl ?_⟩
    intro info member same
    obtain ⟨known, before, sameId⟩ := advances.vaults info member
    exact absent known before (sameId.trans same)
  · rcases advances.kept source stored with ⟨later, present, same, newer⟩ | gone
    · exact ⟨minted, Or.inr ⟨later, present, same, Int.le_trans upTo newer⟩⟩
    · exact ⟨minted, Or.inl gone⟩

/-- A folder that a scan works on is never attached anew. -/
theorem Reached.attached {db : VaultDb} (reached : Reached hub vault generation)
    (advances : Advances sha256 publishes hub.db db) {later : VaultSource} (stored : later ∈ db.sources.rows)
    (same : later.vaultId = vault) : ∃ source ∈ hub.db.sources.rows, source.vaultId = vault ∧
      generation ≤ source.generation := by
  rcases reached.2 with absent | present
  · obtain ⟨info, member, named⟩ := advances.homed later stored
    obtain ⟨known, before, sameId⟩ := advances.vaults info member
    exact absurd (sameId.trans (named.trans same)) (absent known before)
  · exact present

theorem fresh_of_advances {db : VaultDb} {old : List DocumentRow}
    (advances : Advances sha256 publishes hub.db db) (reached : Reached hub vault generation)
    (fresh : Fresh hub vault generation old) : Fresh { hub with db } vault generation old := by
  intro later stored sameVault sameGeneration
  obtain ⟨held, heldStored, heldVault, upTo⟩ := reached.attached advances stored sameVault
  cases advances.sources later stored with
  | same source before vault' generation' documents =>
    rw [sameVault] at documents
    exact documents.trans (fresh source before (vault'.trans sameVault)
      (generation'.trans sameGeneration))
  | advanced source before vault' newer _ _ =>
    have one : held = source :=
      hub.db.sources.eq_of_key heldStored before (heldVault.trans (vault'.trans sameVault).symm)
    rw [one] at upTo
    exact absurd newer (by omega)
  | attached unknown _ => exact absurd (heldVault.trans sameVault.symm) (unknown held heldStored)

theorem invariant_of_advances {db : VaultDb} (invariant : HubInvariant sha256 hub)
    (advances : Advances sha256 publishes hub.db db) : HubInvariant sha256 { hub with db } where
  known info member := by
    obtain ⟨known, before, same⟩ := advances.vaults info member
    exact same ▸ invariant.known known before
  homed := advances.homed
  honest later stored := by
    cases advances.sources later stored with
    | same source before vault _ documents =>
      have honest := invariant.honest source before
      rw [vault] at honest
      intro row member
      rw [documents] at member
      exact honest row member
    | advanced source before vault _ honest _ => exact honest (vault ▸ invariant.honest source before)
    | attached _ documents =>
      intro row member
      rw [documents] at member
      exact absurd member List.not_mem_nil
  jobs scan vault generation working :=
    reached_of_advances advances (invariant.jobs scan vault generation working)
  plans scan vault generation snapshot old planned := by
    have working : (hub.scan scan).job? = some (vault, generation) := by
      rw [show hub.scan scan = _ from planned, ScanPhase.job?]
    exact fresh_of_advances advances (invariant.jobs scan vault generation working)
      (invariant.plans scan vault generation snapshot old planned)

/-- A scan moves on, to a phase that is in order. -/
theorem invariant_enter {scan : Nat} {phase : ScanPhase} (invariant : HubInvariant sha256 hub)
    (job : ∀ vault generation, phase.job? = some (vault, generation) → Reached hub vault generation)
    (plan : ∀ vault generation snapshot old, phase = .planned vault generation snapshot old →
      Fresh hub vault generation old) : HubInvariant sha256 (hub.enter scan phase) where
  known := invariant.known
  homed := invariant.homed
  honest := invariant.honest
  jobs other vault generation working := by
    by_cases same : other = scan
    · simp only [FolderHub.enter, same, Function.update_self] at working
      exact job vault generation working
    · simp only [FolderHub.enter, Function.update_of_ne same] at working
      exact invariant.jobs other vault generation working
  plans other vault generation snapshot old planned := by
    by_cases same : other = scan
    · simp only [FolderHub.enter, same, Function.update_self] at planned
      exact plan vault generation snapshot old planned
    · simp only [FolderHub.enter, Function.update_of_ne same] at planned
      exact invariant.plans other vault generation snapshot old planned

theorem invariant_idle {scan : Nat} (invariant : HubInvariant sha256 hub) :
    HubInvariant sha256 (hub.enter scan .idle) :=
  invariant_enter invariant (fun _ _ working => nomatch working)
    (fun _ _ _ _ planned => nomatch planned)

/-- What a step keeps, and what it does not do. -/
structure HubStep (sha256 : Text → Text) (publishes : Prop) (hub next : FolderHub) : Prop where
  invariant : HubInvariant sha256 next
  reached : ∀ vault generation, Reached hub vault generation → Reached next vault generation
  documents : ¬ publishes → ∀ source ∈ hub.db.sources.rows, ∀ later ∈ next.db.sources.rows,
    source.vaultId = later.vaultId →
    next.db.documentsOf later.vaultId = hub.db.documentsOf later.vaultId

theorem step_of_advances {db : VaultDb} (invariant : HubInvariant sha256 hub)
    (advances : Advances sha256 publishes hub.db db) :
    HubStep sha256 publishes hub { hub with db } where
  invariant := invariant_of_advances invariant advances
  reached _ _ := reached_of_advances advances
  documents silent source before later stored same := by
    cases advances.sources later stored with
    | same _ _ _ _ documents => exact documents
    | advanced _ _ _ _ _ documents => exact documents silent
    | attached unknown _ => exact absurd same (unknown source before)

theorem step_of_attempt {call : Result VaultDb} (invariant : HubInvariant sha256 hub)
    (advances : ∀ db, call = .ok db → Advances sha256 publishes hub.db db) :
    HubStep sha256 publishes hub (hub.attempt call) := by
  unfold FolderHub.attempt
  split
  · rename_i db
    exact step_of_advances invariant (advances db rfl)
  · exact ⟨invariant, fun _ _ => id, fun _ _ _ _ _ _ => rfl⟩

theorem step_of_enter {scan : Nat} {phase : ScanPhase} (invariant : HubInvariant sha256 hub)
    (job : ∀ vault generation, phase.job? = some (vault, generation) → Reached hub vault generation)
    (plan : ∀ vault generation snapshot old, phase = .planned vault generation snapshot old →
      Fresh hub vault generation old) :
    HubStep sha256 publishes hub (hub.enter scan phase) where
  invariant := invariant_enter invariant job plan
  reached _ _ := id
  documents _ _ _ _ _ _ := rfl

theorem step_of_rest (invariant : HubInvariant sha256 hub) : HubStep sha256 publishes hub hub :=
  ⟨invariant, fun _ _ => id, fun _ _ _ _ _ _ => rfl⟩

/-- A vault is created under a new identity, and without a folder. -/
theorem step_of_create {id : Uuid} {name : String} {db : VaultDb}
    (invariant : HubInvariant sha256 hub) (new : id ∉ hub.minted)
    (done : vaultCreate hub.db id name = .ok db) :
    HubStep sha256 publishes hub { hub with db, minted := id :: hub.minted } := by
  unfold vaultCreate at done
  obtain ⟨_, _, done⟩ := bind_eq_ok_iff.mp done
  obtain ⟨vaults, inserted, done⟩ := bind_eq_ok_iff.mp done
  rw [orFail_eq_ok_iff] at inserted
  rw [pure_eq_ok_iff] at done
  subst done
  have rows := Table.rows_of_insert? inserted
  have cases (info : VaultInfo) (member : info ∈ vaults.rows) :
      info ∈ hub.db.vaults.rows ∨ info.id = id := by
    rw [rows, List.mem_append, List.mem_singleton] at member
    exact member.imp_right fun same => by rw [same]
  have reached (vault : Uuid) (generation : Int) (before : Reached hub vault generation) :
      Reached { hub with db := { hub.db with vaults }, minted := id :: hub.minted } vault
        generation := by
    refine ⟨List.mem_cons_of_mem _ before.1, before.2.imp_left ?_⟩
    intro absent info member same
    rcases cases info member with old | named
    · exact absent info old same
    · exact new (named ▸ same ▸ before.1)
  refine ⟨⟨?_, ?_, invariant.honest, ?_, invariant.plans⟩, reached, fun _ _ _ _ _ _ => rfl⟩
  · intro info member
    rcases cases info member with old | rfl
    · exact List.mem_cons_of_mem _ (invariant.known info old)
    · exact List.mem_cons_self
  · intro source stored
    obtain ⟨info, member, named⟩ := invariant.homed source stored
    refine ⟨info, ?_, named⟩
    show info ∈ vaults.rows
    rw [rows]
    exact List.mem_append_left _ member
  · intro scan vault generation working
    exact reached vault generation (invariant.jobs scan vault generation working)

/-- What a publication step can do: nothing to the store, or a publication that overtakes every scan
of the vault that is in flight. -/
theorem publish_cases {scan : Nat} {snapshot : FolderSnapshot} {old : List DocumentRow}
    (collisionFree : Function.Injective sha256) (invariant : HubInvariant sha256 hub)
    (planned : hub.scan scan = .planned vault generation snapshot old) (fresh : Text → Uuid)
    (now : Int) :
    hub.publish sha256 scan vault generation snapshot old fresh now = hub ∨
    hub.publish sha256 scan vault generation snapshot old fresh now =
      hub.enter scan (.failing vault generation) ∨
    ∃ db, hub.publish sha256 scan vault generation snapshot old fresh now =
        { hub with db }.enter scan .idle ∧
      Published sha256 hub.db db vault snapshot.notes ∧ Advances sha256 True hub.db db ∧
      ∀ earlier, Reached hub vault earlier → Overtaken { hub with db } vault earlier := by
  unfold FolderHub.publish
  split
  · rename_i minted
    split
    · rename_i db status done
      obtain ⟨⟨source, found, current⟩, _, rows, _⟩ := of_publishFolder done
      obtain ⟨stored, named⟩ := (Table.lookup_eq_some_iff _ _ _).mp found
      have read := invariant.plans scan vault generation snapshot old planned source stored named
        current
      subst read
      have plan : Plannable sha256 fresh hub.db vault snapshot :=
        ⟨named ▸ invariant.honest source stored, collisionFree, minted⟩
      have published := plan.published done
      refine Or.inr (Or.inr ⟨db, rfl, published,
        advances_of_publishFolder invariant.homed published done, ?_⟩)
      intro earlier reached
      refine ⟨reached.1, Or.inr ⟨_, rows ▸ List.mem_map_of_mem stored, ?_⟩⟩
      rw [if_pos named]
      refine ⟨named, ?_⟩
      rcases reached.2 with absent | ⟨other, otherStored, otherNamed, upTo⟩
      · obtain ⟨info, member, same⟩ := invariant.homed source stored
        exact absurd (same.trans named) (absent info member)
      · have one : other = source :=
          hub.db.sources.eq_of_key otherStored stored (otherNamed.trans named.symm)
        exact Int.add_le_add_right (one ▸ upTo) 1
    · exact Or.inr (Or.inl rfl)
  · exact Or.inl rfl

end Invariant

section Runs

variable {sha256 : Text → Text} {hub : FolderHub}

/-- Whether an operation is a publication. -/
def FolderOp.Publishes : FolderOp → Prop
  | .publish _ _ _ => True
  | _ => False

theorem hubStep_folderStep (collisionFree : Function.Injective sha256)
    (invariant : HubInvariant sha256 hub) (op : FolderOp) :
    HubStep sha256 op.Publishes hub (folderStep sha256 hub op) := by
  have homed := invariant.homed
  cases op with
  | create id name =>
    simp only [folderStep]
    split
    · exact step_of_rest invariant
    · rename_i new
      split
      · rename_i db done
        exact step_of_create invariant new done
      · exact step_of_rest invariant
  | attach vault root rootIdentity =>
    exact step_of_attempt invariant fun _ done => advances_of_attach homed done
  | delete vault => exact step_of_attempt invariant fun _ done => advances_of_delete homed done
  | setAvailable vault available =>
    exact step_of_attempt invariant fun _ done => advances_of_setAvailable homed done
  | reopen => exact step_of_advances invariant (advances_reopenVaults homed)
  | write documents =>
    simp only [folderStep]
    split
    · rename_i folders
      exact step_of_advances invariant (advances_of_write homed folders)
    · exact step_of_rest invariant
  | begin scan vault =>
    simp only [folderStep]
    split
    · rename_i source idle found
      obtain ⟨stored, named⟩ := (Table.lookup_eq_some_iff _ _ _).mp found
      obtain ⟨info, member, same⟩ := homed source stored
      apply step_of_enter invariant
      · rintro _ _ ⟨⟩
        refine ⟨?_, Or.inr ⟨source, stored, named, Int.le_refl _⟩⟩
        rw [← named, ← same]
        exact invariant.known info member
      · intro _ _ _ _ planned
        cases planned
    · exact step_of_rest invariant
  | observe scan first second enabled =>
    simp only [folderStep]
    split
    · rename_i vault generation working
      have job : (hub.scan scan).job? = some (vault, generation) := by
        rw [working, ScanPhase.job?]
      have surveyed : (surveyOf vault generation first second enabled).job? =
          some (vault, generation) := by
        unfold surveyOf
        split
        · split <;> rfl
        · rfl
      apply step_of_enter invariant
      · intro vault' generation' same
        rw [surveyed] at same
        exact invariant.jobs scan vault' generation' (job.trans same)
      · intro _ _ _ _ planned
        unfold surveyOf at planned
        split at planned
        · split at planned <;> cases planned
        · cases planned
    · exact step_of_rest invariant
  | readOld scan =>
    simp only [folderStep]
    split
    · rename_i vault generation snapshot working
      have job : (hub.scan scan).job? = some (vault, generation) := by
        rw [working, ScanPhase.job?]
      apply step_of_enter invariant
      · rintro _ _ ⟨⟩
        exact invariant.jobs scan vault generation job
      · rintro _ _ _ _ ⟨⟩ source _ _ _
        rfl
    · exact step_of_rest invariant
  | publish scan fresh now =>
    simp only [folderStep]
    split
    · rename_i vault generation snapshot old planned
      rcases publish_cases collisionFree invariant planned fresh now with
        same | same | ⟨db, same, _, advances, _⟩
      · rw [same]
        exact step_of_rest invariant
      · rw [same]
        have job : (hub.scan scan).job? = some (vault, generation) := by
          rw [planned, ScanPhase.job?]
        apply step_of_enter invariant
        · rintro _ _ ⟨⟩
          exact invariant.jobs scan vault generation job
        · intro _ _ _ _ planned
          cases planned
      · rw [same]
        have written := step_of_advances invariant advances
        exact ⟨invariant_idle written.invariant, written.reached, written.documents⟩
    · exact step_of_rest invariant
  | fail scan =>
    simp only [folderStep]
    split
    · rename_i vault generation working
      have failed := step_of_advances invariant (advances_failScan homed vault generation)
      exact ⟨invariant_idle failed.invariant, failed.reached, failed.documents⟩
    · exact step_of_rest invariant
  | crash scan =>
    exact ⟨invariant_idle invariant, fun _ _ => id, fun _ _ _ _ _ _ => rfl⟩

theorem hubInvariant_start (sha256 : Text → Text) : HubInvariant sha256 .start where
  known _ member := absurd member List.not_mem_nil
  homed _ stored := absurd stored List.not_mem_nil
  honest _ stored := absurd stored List.not_mem_nil
  jobs _ _ _ working := nomatch working
  plans _ _ _ _ _ planned := nomatch planned

theorem hubInvariant_at (collisionFree : Function.Injective sha256) (ops : List FolderOp)
    (count : Nat) : HubInvariant sha256 (hubAt sha256 ops count) :=
  stateAt_invariant (folderStep sha256) .start ops (HubInvariant sha256) (hubInvariant_start sha256)
    (fun _ op _ invariant => (hubStep_folderStep collisionFree invariant op).invariant) count

variable {vault : Uuid} {generation : Int}

/-- A generation that was overtaken is not the folder's current one. -/
theorem Overtaken.outdated (homed : Homed hub.db) (overtaken : Overtaken hub vault generation) :
    ∀ source ∈ hub.db.sources.rows, source.vaultId = vault → source.generation ≠ generation := by
  intro source stored named current
  rcases overtaken.2 with absent | ⟨other, otherStored, otherNamed, newer⟩
  · obtain ⟨info, member, same⟩ := homed source stored
    exact absent info member (same.trans named)
  · have one : other = source :=
      hub.db.sources.eq_of_key otherStored stored (otherNamed.trans named.symm)
    rw [one] at newer
    omega

/-- A scan that was overtaken changes nothing in the store. -/
theorem folderStep_overtaken {op : FolderOp} {scan : Nat} (homed : Homed hub.db)
    (byScan : op.scan? = some scan) (job : (hub.scan scan).job? = some (vault, generation))
    (overtaken : Overtaken hub vault generation) : (folderStep sha256 hub op).db = hub.db := by
  have outdated := overtaken.outdated homed
  cases op with
  | create | attach | delete | setAvailable | reopen | write => cases byScan
  | begin other vault' =>
    cases byScan
    simp only [folderStep]
    split
    · rename_i idle _
      rw [idle] at job
      cases job
    · rfl
  | observe other first second enabled =>
    simp only [folderStep]
    split <;> rfl
  | readOld other =>
    simp only [folderStep]
    split <;> rfl
  | publish other fresh now =>
    cases byScan
    simp only [folderStep]
    split
    · rename_i planned
      rw [planned, ScanPhase.job?, Option.some.injEq, Prod.mk.injEq] at job
      obtain ⟨rfl, rfl⟩ := job
      unfold FolderHub.publish
      split
      · split
        · rename_i done
          obtain ⟨⟨source, found, current⟩, _⟩ := of_publishFolder done
          obtain ⟨stored, named⟩ := (Table.lookup_eq_some_iff _ _ _).mp found
          exact absurd current (outdated source stored named)
        · rfl
      · rfl
    · rfl
  | fail other =>
    cases byScan
    simp only [folderStep]
    split
    · rename_i failing
      rw [failing, ScanPhase.job?, Option.some.injEq, Prod.mk.injEq] at job
      obtain ⟨rfl, rfl⟩ := job
      exact failScan_stale outdated
    · rfl
  | crash other => rfl

/-- What holds of the folder vaults over a whole run, however its scans overlap. -/
structure FoldersPublished (sha256 : Text → Text) (ops : List FolderOp) : Prop where
  /-- A reconciliation changes nothing or publishes the notes it saw, and every scan of the vault
  that is in flight is overtaken. -/
  publications : ∀ count scan fresh now, ops[count]? = some (.publish scan fresh now) →
    (hubAt sha256 ops (count + 1)).db = (hubAt sha256 ops count).db ∨
    ∃ vault generation snapshot old,
      (hubAt sha256 ops count).scan scan = .planned vault generation snapshot old ∧
      Published sha256 (hubAt sha256 ops count).db (hubAt sha256 ops (count + 1)).db vault
        snapshot.notes ∧
      ∀ other earlier, ((hubAt sha256 ops count).scan other).job? = some (vault, earlier) →
        Overtaken (hubAt sha256 ops (count + 1)) vault earlier
  /-- Nothing else, a failing scan included, writes the documents of a folder vault. -/
  untouched : ∀ count op, ops[count]? = some op → ¬ op.Publishes →
    ∀ source ∈ (hubAt sha256 ops count).db.sources.rows,
    ∀ later ∈ (hubAt sha256 ops (count + 1)).db.sources.rows, source.vaultId = later.vaultId →
    (hubAt sha256 ops (count + 1)).db.documentsOf later.vaultId =
      (hubAt sha256 ops count).db.documentsOf later.vaultId
  /-- A scan whose generation was overtaken changes nothing at all, -/
  silent : ∀ count op scan vault generation, ops[count]? = some op → op.scan? = some scan →
    ((hubAt sha256 ops count).scan scan).job? = some (vault, generation) →
    Overtaken (hubAt sha256 ops count) vault generation →
    (hubAt sha256 ops (count + 1)).db = (hubAt sha256 ops count).db
  /-- and an overtaken generation stays so. -/
  lasting : ∀ first second vault generation, first ≤ second →
    Overtaken (hubAt sha256 ops first) vault generation →
    Overtaken (hubAt sha256 ops second) vault generation

/-- Publications in every run, where distinct texts have distinct digests. -/
theorem folders_published (collisionFree : Function.Injective sha256) (ops : List FolderOp) :
    FoldersPublished sha256 ops where
  publications count scan fresh now present := by
    have invariant := hubInvariant_at collisionFree ops count
    have next : hubAt sha256 ops (count + 1) = _ := stateAt_succ (folderStep sha256) .start present
    rw [next]
    simp only [folderStep]
    split
    · rename_i vault generation snapshot old planned
      rcases publish_cases collisionFree invariant planned fresh now with
        same | same | ⟨db, same, published, _, overtakes⟩
      · rw [same]
        exact Or.inl rfl
      · rw [same]
        exact Or.inl rfl
      · rw [same]
        refine Or.inr ⟨vault, generation, snapshot, old, planned, published, ?_⟩
        intro other earlier job
        exact overtakes earlier (invariant.jobs other vault earlier job)
    · exact Or.inl rfl
  untouched count op present quiet := by
    have next : hubAt sha256 ops (count + 1) = _ := stateAt_succ (folderStep sha256) .start present
    rw [next]
    exact (hubStep_folderStep collisionFree (hubInvariant_at collisionFree ops count) op).documents
      quiet
  silent count op scan vault generation present byScan job overtaken := by
    have next : hubAt sha256 ops (count + 1) = _ := stateAt_succ (folderStep sha256) .start present
    rw [next]
    exact folderStep_overtaken (hubInvariant_at collisionFree ops count).homed byScan job overtaken
  lasting first second vault generation ordered := by
    apply holds_from (fun moment => Overtaken (hubAt sha256 ops moment) vault generation) _ ordered
    intro moment overtaken
    have invariant := hubInvariant_at collisionFree ops moment
    rcases stateAt_next (folderStep sha256) .start ops moment with ⟨op, _, next⟩ | ⟨_, next⟩
    · rw [hubAt, next]
      exact (hubStep_folderStep collisionFree invariant op).reached vault _ overtaken
    · rw [hubAt, next]
      exact overtaken

end Runs

section Swaps

/-- The digests of some texts, and distinct texts for all others. -/
def sha256On (texts : List Text) (text : Text) : Text :=
  if text ∈ texts then digest text else 'x' :: text

theorem sha256On_injective {texts : List Text}
    (apart : (texts.map digest).Nodup)
    (hexadecimal : ∀ text ∈ texts, (digest text).head? ≠ some 'x') :
    Function.Injective (sha256On texts) := by
  intro first second same
  unfold sha256On at same
  split at same <;> split at same
  · rename_i inFirst inSecond
    exact List.inj_on_of_nodup_map apart inFirst inSecond same
  · rename_i inFirst _
    exact absurd (congrArg List.head? same) (hexadecimal first inFirst)
  · rename_i _ inSecond
    exact absurd (congrArg List.head? same).symm (hexadecimal second inSecond)
  · exact (List.cons.inj same).2

def swapSnapshot (first second : String) : FolderSnapshot :=
  ⟨[⟨"a.md".toList, "A".toList, first.toList⟩, ⟨"b.md".toList, "B".toList, second.toList⟩], by
    simp⟩

/-- A scan that sees the same files twice and publishes them. -/
def scanOf (snapshot : FolderSnapshot) (first second : Uuid) (now : Int) : List FolderOp :=
  [.begin 0 9, .observe 0 (some snapshot) (some snapshot) true, .readOld 0,
    .publish 0 (fun path => if path = "a.md".toList then first else second) now]

/-- Two notes are indexed, and then exchange their contents. -/
def swapRun : List FolderOp :=
  [.create 9 "Notes", .attach 9 "/notes".toList "1:2".toList] ++
    (scanOf (swapSnapshot "x" "y") 1 2 100 ++ scanOf (swapSnapshot "y" "x") 3 4 200)

/-- The texts whose digests the run takes. -/
def swapTexts : List Text :=
  [("x", 1, "a.md", "A"), ("y", 2, "b.md", "B"), ("y", 1, "a.md", "A"),
    ("x", 2, "b.md", "B")].map fun (content, id, path, title) =>
      revisionOf (fun text => text) ⟨id⟩ path.toList title.toList content.toList

theorem swapTexts_digests :
    (swapTexts.map digest).Nodup ∧ ∀ text ∈ swapTexts, (digest text).head? ≠ some 'x' := by
  decide +kernel

/-- Each content is unique before and after, and yet moves under the other identity. -/
theorem swapped_contents :
    ((hubAt digest swapRun 6).db.documentsOf 9).map (fun row => (row.id, row.content)) =
        [(1, "x".toList), (2, "y".toList)] ∧
      ((hubAt digest swapRun 10).db.documentsOf 9).map (fun row => (row.id, row.content)) =
        [(1, "y".toList), (2, "x".toList)] := by
  decide +kernel

theorem folders_published_swapRun :
    Function.Injective (sha256On swapTexts) ∧ FoldersPublished (sha256On swapTexts) swapRun :=
  have injective := sha256On_injective swapTexts_digests.1 swapTexts_digests.2
  ⟨injective, folders_published injective swapRun⟩

end Swaps

end OHHive.Vault
