import OHHive.Vault.IntakeEffects

/-! What intake, approvals and edits by hand do to the receipts, step by step and over a run. -/

namespace OHHive.Vault

open Foundation

section Receipts

variable {sha256 : Text → Text} {formats : DateFormats}

/-- The other transactions leave the receipts alone. -/
theorem intake_of_reply {catalog next : Catalog} {event : CatalogEvent}
    (stays : event.op.isDelete = false) (done : event.reply sha256 formats catalog = .ok next) :
    next.db.intake = catalog.db.intake := by
  obtain ⟨op, now⟩ := event
  cases op with
  | enroll node =>
    obtain rfl := Except.ok.inj done
    rfl
  | create vault name =>
    obtain ⟨db, created, rfl⟩ := map_eq_ok_iff.mp done
    obtain ⟨_, _, created⟩ := bind_eq_ok_iff.mp created
    obtain ⟨_, _, created⟩ := bind_eq_ok_iff.mp created
    obtain rfl := pure_eq_ok_iff.mp created
    rfl
  | setAvailable vault available =>
    obtain ⟨db, changed, rfl⟩ := map_eq_ok_iff.mp done
    obtain ⟨_, _, changed⟩ := bind_eq_ok_iff.mp changed
    obtain rfl := pure_eq_ok_iff.mp changed
    rfl
  | grant vault node enabled => rw [db_of_vaultGrant done]
  | configureMaintenance vault policy =>
    obtain ⟨db, configured, rfl⟩ := map_eq_ok_iff.mp done
    change db.intake = _
    rw [(configured_of_vaultConfigureMaintenance configured).rest]
  | put vault id path title content =>
    obtain ⟨⟨db, revision⟩, written, rfl⟩ := map_eq_ok_iff.mp done
    change db.intake = _
    rw [rest_of_vaultPut written]
  | removeDocument vault id =>
    obtain ⟨db, removed, rfl⟩ := map_eq_ok_iff.mp done
    obtain ⟨_, _, removed⟩ := bind_eq_ok_iff.mp removed
    obtain rfl := pure_eq_ok_iff.mp removed
    rfl
  | archive vault id revision actor reason =>
    obtain ⟨db, archived, rfl⟩ := map_eq_ok_iff.mp done
    change db.intake = _
    rw [rest_of_vaultArchive archived]
  | restore vault id expected actor reason =>
    obtain ⟨db, restored, rfl⟩ := map_eq_ok_iff.mp done
    change db.intake = _
    rw [rest_of_vaultRestore restored]
  | delete vault => cases stays

theorem intake_of_write {db next : VaultDb} {write : VaultWrite} {now : Int}
    {between : List VaultDb} (other : write.isIntake = false)
    (done : write.reply sha256 db now = .ok (between, next)) : next.intake = db.intake := by
  cases write with
  | rename vault name =>
    obtain ⟨renamed, made, same⟩ := map_eq_ok_iff.mp done
    obtain ⟨_, rfl⟩ := Prod.mk.inj same
    obtain ⟨_, _, made⟩ := bind_eq_ok_iff.mp made
    obtain ⟨_, _, made⟩ := bind_eq_ok_iff.mp made
    obtain rfl := pure_eq_ok_iff.mp made
    rfl
  | attach vault root rootIdentity =>
    obtain ⟨attached, made, same⟩ := map_eq_ok_iff.mp done
    obtain ⟨_, rfl⟩ := Prod.mk.inj same
    obtain ⟨_, _, made⟩ := bind_eq_ok_iff.mp made
    obtain ⟨_, _, made⟩ := bind_eq_ok_iff.mp made
    obtain ⟨_, _, made⟩ := bind_eq_ok_iff.mp made
    obtain rfl := pure_eq_ok_iff.mp made
    rfl
  | publish vault generation removed inserted =>
    obtain ⟨⟨published, status⟩, made, same⟩ := map_eq_ok_iff.mp done
    obtain ⟨_, rfl⟩ := Prod.mk.inj same
    obtain ⟨_, _, made⟩ := bind_eq_ok_iff.mp made
    obtain ⟨_, _, made⟩ := bind_eq_ok_iff.mp made
    obtain ⟨stored, added, made⟩ := bind_eq_ok_iff.mp made
    obtain ⟨rfl, _⟩ := Prod.mk.inj (pure_eq_ok_iff.mp made)
    change stored.intake = _
    rw [rest_of_insertAll added, rest_deleteAll db vault removed]
  | fail vault generation =>
    obtain ⟨_, rfl⟩ := Prod.mk.inj (Except.ok.inj done)
    unfold failScan
    generalize (db.sources.rows.any _) = current
    cases current <;> rfl
  | reopen =>
    obtain ⟨_, rfl⟩ := Prod.mk.inj (Except.ok.inj done)
    rfl
  | intake vault source id generation fingerprint prepared? => cases other

/-- A receipt stays as it is, or a newer generation takes its place. -/
def Grew (before after : VaultDb) : Prop :=
  ∀ vault source, ∀ row ∈ before.receipt? vault source, ∃ later ∈ after.receipt? vault source,
    later = row ∨ row.generation < later.generation

theorem Grew.of_intake {before after : VaultDb} (same : after.intake = before.intake) :
    Grew before after := by
  intro vault source row found
  refine ⟨row, ?_, Or.inl rfl⟩
  unfold VaultDb.receipt? at found ⊢
  rwa [same]

theorem Grew.trans {first second third : VaultDb} (earlier : Grew first second)
    (later : Grew second third) : Grew first third := by
  intro vault source row found
  obtain ⟨between, held, grown⟩ := earlier vault source row found
  obtain ⟨last, kept, newer⟩ := later vault source between held
  refine ⟨last, kept, ?_⟩
  rcases grown with rfl | grown
  · exact newer
  · rcases newer with rfl | newer
    · exact Or.inr grown
    · exact Or.inr (grown.trans newer)

/-- What is recorded for an item is its generation and its fingerprint. -/
theorem recorded_receipt (db : VaultDb) (sha256 : Text → Text) (vault : Uuid) (item : IntakeItem)
    (prepared? : Option Prepared) :
    let row := db.recorded (item.receipt sha256 vault prepared?)
    row.generation = item.generation ∧ row.fingerprint = item.fingerprint sha256 ∧
      row.revision = revisionFor sha256 (intakeId sha256 vault item.sourceId) prepared? := by
  unfold VaultDb.recorded
  split <;> exact ⟨rfl, rfl, rfl⟩

theorem grew_of_intaken {db next : VaultDb} {vault : Uuid} {item : IntakeItem}
    {receipt : IntakeReceipt} (intaken : Intaken sha256 formats db next vault item receipt) :
    Grew db next := by
  cases intaken with
  | kept row found generation print same given => exact .of_intake (by rw [same])
  | stored prepared? taken given =>
    intro vault' source row found
    by_cases own : vault' = vault ∧ source = item.sourceId
    · obtain ⟨rfl, rfl⟩ := own
      refine ⟨_, taken.receipts.1, Or.inr ?_⟩
      rw [(recorded_receipt db sha256 vault' item prepared?).1]
      exact taken.newer row found
    · exact ⟨row, (taken.receipts.2 _ _ own).trans found, Or.inl rfl⟩

end Receipts

section Steps

variable (sha256 : Text → Text) (formats : DateFormats)

/-- What a transaction comes to for the receipts. -/
inductive IntakeEffect (host next : IntakeHost) (event : IntakeEvent) : Prop
  | rest (none : host.submission? sha256 event.move = none)
      (same : next.db.intake = host.db.intake)
  | refused (vault : Uuid) (item : IntakeItem) (error : HubError)
      (submitted : host.submission? sha256 event.move = some (vault, item))
      (answer : vaultIntakeItem sha256 formats host.db vault item = .error error)
      (same : next.db = host.db)
  | accepted (vault : Uuid) (item : IntakeItem) (receipt : IntakeReceipt)
      (submitted : host.submission? sha256 event.move = some (vault, item))
      (answer : vaultIntakeItem sha256 formats host.db vault item = .ok (next.db, receipt))

variable {sha256 : Text → Text} {formats : DateFormats}

/-- A transaction that takes an item in replies as the intake does. -/
theorem reply_of_submission {host : IntakeHost} {event : IntakeEvent} {vault : Uuid}
    {item : IntakeItem} (submitted : host.submission? sha256 event.move = some (vault, item)) :
    event.reply sha256 formats host = host.submit sha256 formats event.now vault item := by
  obtain ⟨move, now⟩ := event
  cases move with
  | edit op stays => cases submitted
  | write write other => cases submitted
  | save vault id path title content date => cases submitted
  | readApproval caller vault relativePath project markdown => cases submitted
  | intake vault item =>
    obtain ⟨rfl, rfl⟩ := Prod.mk.inj (Option.some.inj submitted)
    rfl
  | applyApproval caller =>
    obtain ⟨approval, pending, same⟩ := Option.map_eq_some_iff.mp submitted
    obtain ⟨rfl, rfl⟩ := Prod.mk.inj same
    simp only [IntakeEvent.reply, pending]

theorem intake_of_rest {host : IntakeHost} {event : IntakeEvent} {next : Catalog}
    (none : host.submission? sha256 event.move = none)
    (done : event.reply sha256 formats host = .ok next) : next.db.intake = host.db.intake := by
  obtain ⟨move, now⟩ := event
  cases move with
  | edit op stays => exact intake_of_reply stays done
  | write write other =>
    obtain ⟨⟨between, db⟩, written, rfl⟩ := map_eq_ok_iff.mp done
    exact intake_of_write other written
  | save vault id path title content date =>
    obtain ⟨db, saved, rfl⟩ := map_eq_ok_iff.mp done
    obtain ⟨_, _, saved⟩ := bind_eq_ok_iff.mp saved
    change db.intake = _
    rw [rest_of_insertDocument saved]
  | intake vault item => cases none
  | readApproval caller vault relativePath project markdown =>
    obtain rfl := Except.ok.inj done
    rfl
  | applyApproval caller =>
    have idle : host.approvals caller = Option.none := Option.map_eq_none_iff.mp none
    simp only [IntakeEvent.reply, idle] at done
    obtain rfl := Except.ok.inj done
    rfl

theorem intakeEffect_of_step (host : IntakeHost) (event : IntakeEvent) :
    IntakeEffect sha256 formats host (host.step sha256 formats event) event := by
  cases submitted : host.submission? sha256 event.move with
  | none =>
    refine .rest submitted ?_
    change ((event.reply sha256 formats host).toOption.getD host.catalog).db.intake = _
    cases reply : event.reply sha256 formats host with
    | error error => rfl
    | ok next => exact intake_of_rest submitted reply
  | some submission =>
    obtain ⟨vault, item⟩ := submission
    have reply : event.reply sha256 formats host =
        host.submit sha256 formats event.now vault item := reply_of_submission submitted
    have next : (host.step sha256 formats event).catalog =
        (host.submit sha256 formats event.now vault item).toOption.getD host.catalog := by
      rw [← reply]
      rfl
    cases answer : vaultIntakeItem sha256 formats host.db vault item with
    | error error =>
      refine .refused vault item error submitted answer ?_
      change (host.step sha256 formats event).catalog.db = _
      rw [next, IntakeHost.submit, answer]
      rfl
    | ok taken =>
      refine .accepted vault item taken.2 submitted ?_
      change _ = Except.ok ((host.step sha256 formats event).catalog.db, _)
      rw [next, IntakeHost.submit, answer]
      rfl

theorem grew_of_step (host : IntakeHost) (event : IntakeEvent) :
    Grew host.db (host.step sha256 formats event).db := by
  have effect : IntakeEffect sha256 formats host _ event := intakeEffect_of_step host event
  cases effect with
  | rest none same => exact .of_intake same
  | refused vault item error submitted answer same => exact .of_intake (by rw [same])
  | accepted vault item receipt submitted answer =>
    exact grew_of_intaken (intaken_of_vaultIntakeItem answer)

end Steps

section Runs

variable (sha256 : Text → Text) (formats : DateFormats)

/-- What a pending approval has read is the source's receipt, or was. -/
def Approval.Read (approval : Approval) (db : VaultDb) : Prop :=
  ∀ last print, approval.previous = some (last, print) → 0 < last ∧
    ∃ row ∈ db.receipt? approval.vault approval.sourceId,
      row.generation = last ∧ row.fingerprint = print ∨ last < row.generation

structure IntakeHost.Sound (host : IntakeHost) : Prop where
  ids : ∀ row ∈ host.db.intake.rows, row.documentId = intakeId sha256 row.vaultId row.sourceId
  positive : ∀ row ∈ host.db.intake.rows, 0 < row.generation
  few : ∀ vault, host.db.intake.rows.countP (·.vaultId = vault) ≤ 10000
  read : ∀ caller approval, host.approvals caller = some approval → approval.Read host.db

variable {sha256 : Text → Text} {formats : DateFormats} {host : IntakeHost}

theorem Approval.Read.grown {approval : Approval} {before after : VaultDb}
    (read : approval.Read before) (grew : Grew before after) : approval.Read after := by
  intro last print previous
  obtain ⟨positive, row, found, state⟩ := read last print previous
  obtain ⟨later, held, newer⟩ := grew _ _ row found
  refine ⟨positive, later, held, ?_⟩
  rcases newer with rfl | newer
  · exact state
  · rcases state with ⟨rfl, _⟩ | older
    · exact Or.inr newer
    · exact Or.inr (older.trans newer)

theorem read_approveFile {db : VaultDb} {vault : Uuid} {relativePath markdown : Text}
    {project : Option Text} {approval : Approval}
    (positive : ∀ row ∈ db.intake.rows, 0 < row.generation)
    (done : approveFile sha256 db vault relativePath project markdown = .ok approval) :
    approval.Read db := by
  obtain ⟨_, _, done⟩ := bind_eq_ok_iff.mp done
  obtain ⟨_, _, done⟩ := bind_eq_ok_iff.mp done
  obtain rfl := pure_eq_ok_iff.mp done
  intro last print previous
  obtain ⟨row, found, same⟩ := Option.map_eq_some_iff.mp previous
  obtain ⟨rfl, rfl⟩ := Prod.mk.inj same
  have stored := (VaultDb.receipt?_eq_some_iff.mp found).1
  exact ⟨positive row stored, row, found, Or.inl ⟨rfl, rfl⟩⟩

/-- The rows of a receipt table that one item has been recorded in. -/
theorem Taken.mem_intake {db next : VaultDb} {vault : Uuid} {item : IntakeItem}
    {prepared? : Option Prepared} (taken : Taken sha256 formats db next vault item prepared?)
    {row : VaultIntake} (member : row ∈ next.intake.rows) :
    row = db.recorded (item.receipt sha256 vault prepared?) ∨ row ∈ db.intake.rows := by
  obtain ⟨written, wrote, recorded⟩ := taken.wrote
  have intake : written.intake = db.intake := by rw [wrote.rest]
  rcases (recorded.rows row).mp member with same | ⟨stored, _⟩
  · refine Or.inl (same.trans ?_)
    unfold VaultDb.recorded VaultDb.receipt?
    rw [intake]
  · exact Or.inr (intake ▸ stored)

theorem IntakeHost.Sound.start : (IntakeHost.initial).Sound sha256 :=
  ⟨nofun, nofun, fun _ => Nat.zero_le _, nofun⟩

theorem IntakeHost.Sound.next (sound : host.Sound sha256) (event : IntakeEvent) :
    (host.step sha256 formats event).Sound sha256 := by
  have grew : Grew host.db (host.step sha256 formats event).db := grew_of_step host event
  have read : ∀ caller approval, (host.step sha256 formats event).approvals caller = some approval →
      approval.Read (host.step sha256 formats event).db := by
    intro caller approval pending
    suffices before : approval.Read host.db from before.grown grew
    obtain ⟨move, now⟩ := event
    change move.approvals sha256 host caller = some approval at pending
    cases move with
    | edit op stays => exact sound.read caller approval pending
    | write write other => exact sound.read caller approval pending
    | save vault id path title content date => exact sound.read caller approval pending
    | intake vault item => exact sound.read caller approval pending
    | readApproval reader vault relativePath project markdown =>
      rw [IntakeMove.approvals, Function.update_apply] at pending
      split at pending
      · cases opened : approveFile sha256 host.db vault relativePath project markdown with
        | error error =>
          rw [opened] at pending
          cases pending
        | ok read =>
          rw [opened] at pending
          obtain rfl := Option.some.inj pending
          exact read_approveFile sound.positive opened
      · exact sound.read caller approval pending
    | applyApproval reader =>
      rw [IntakeMove.approvals, Function.update_apply] at pending
      split at pending
      · cases pending
      · exact sound.read caller approval pending
  have effect : IntakeEffect sha256 formats host _ event := intakeEffect_of_step host event
  cases effect with
  | rest none same => exact ⟨same ▸ sound.ids, same ▸ sound.positive, same ▸ sound.few, read⟩
  | refused vault item error submitted answer same =>
    exact ⟨same ▸ sound.ids, same ▸ sound.positive, same ▸ sound.few, read⟩
  | accepted vault item receipt submitted answer =>
    have positive := (untouched_of_vaultIntakeItem answer).1
    cases intaken_of_vaultIntakeItem answer with
    | kept row found generation print same given =>
      exact ⟨same ▸ sound.ids, same ▸ sound.positive, same ▸ sound.few, read⟩
    | stored prepared? taken given =>
      refine ⟨fun row member => ?_, fun row member => ?_, taken.count sound.few, read⟩
      · rcases taken.mem_intake member with rfl | stored
        · unfold VaultDb.recorded
          split
          · rename_i old found
            exact sound.ids old (VaultDb.receipt?_eq_some_iff.mp found).1
          · rfl
        · exact sound.ids row stored
      · rcases taken.mem_intake member with rfl | stored
        · rw [(recorded_receipt host.db sha256 vault item prepared?).1]
          exact positive
        · exact sound.positive row stored

variable (events : List IntakeEvent)

theorem sound_intakeHostAt (sha256 : Text → Text) (formats : DateFormats) (moment : Nat) :
    (intakeHostAt sha256 formats events moment).Sound sha256 :=
  stateAt_invariant _ _ events (IntakeHost.Sound sha256) .start
    (fun _ event _ sound => sound.next event) moment

theorem grew_between (sha256 : Text → Text) (formats : DateFormats) {first second : Nat}
    (ordered : first ≤ second) :
    Grew (intakeHostAt sha256 formats events first).db
      (intakeHostAt sha256 formats events second).db :=
  stateAt_relates _ _ (fun before after : IntakeHost => Grew before.db after.db)
    (fun _ => .of_intake rfl) (fun _ _ _ => Grew.trans) grew_of_step events ordered

end Runs

end OHHive.Vault
