import OHHive.Vault.HostEffects
import OHHive.Vault.Intake

/-! The host that takes sources in: an item goes through one transaction, an approved file through
two, and between them the vaults are edited by hand. -/

namespace OHHive.Vault

open Foundation
open Coder (byteLength record uuidText)

section Identities

variable (sha256 : Text → Text) (formats : DateFormats)

/-- The value of a hexadecimal digit. -/
def hexValue (char : Char) : Nat :=
  if char.isDigit then char.toNat - '0'.toNat else char.toNat - 'a'.toNat + 10

/-- The first sixteen bytes of a digest. -/
def uuidOfDigest (hash : Text) : Uuid :=
  ⟨(hash.take 32).foldl (fun value char => 16 * value + hexValue char) 0⟩

/-- The document of a source. -/
def intakeId (vault source : Uuid) : Uuid :=
  uuidOfDigest (sha256 ("hive-intake-v1:".toList ++ uuidText vault ++ ':' :: uuidText source))

def sourceIdFor (vault : Uuid) (relativePath : Text) : Uuid :=
  uuidOfDigest (sha256 ("hive-intake-folder-v1:".toList ++ uuidText vault ++ ':' :: relativePath))

def IntakeItem.fingerprint (item : IntakeItem) : Text := sha256 item.toJson.print

theorem toJson_injective : Function.Injective IntakeItem.toJson := by
  intro first second same
  obtain ⟨source, generation, content⟩ := first
  obtain ⟨source', generation', content'⟩ := second
  cases content <;> cases content' <;>
    simp_all [IntakeItem.toJson, IntakeContent.toJson, record, Coder.membersOf,
      Coder.uuidText_injective.eq_iff, Coder.optionalText_inj]

/-- `vault_intake`. -/
def vaultIntakeItem (db : VaultDb) (vault : Uuid) (item : IntakeItem) :
    Result (VaultDb × IntakeReceipt) := do
  require (0 < item.generation ∧ item.sourceId ≠ ⟨0⟩) (rejected "invalid intake identity")
  let id := intakeId sha256 vault item.sourceId
  let prepared? ← prepare sha256 formats item id
  vaultIntake sha256 db vault item.sourceId id item.generation (item.fingerprint sha256) prepared?

end Identities

section Approvals

variable (sha256 : Text → Text)

/-- What `vault_intake_approve_file` has read when its second transaction starts; `previous` is the
generation and the fingerprint of the source's receipt. -/
structure Approval where
  vault : Uuid
  sourceId : Uuid
  content : IntakeContent
  previous : Option (Int × Text)

def guessTitle (markdown fallback : Text) : Text :=
  (((lines markdown).findSome? (stripPrefix "# ".toList)).map (·.take 512)).getD fallback

def fileName (relativePath : Text) : Text :=
  (relativePath.splitOn '/').getLast?.getD relativePath

def VaultDb.receipt? (db : VaultDb) (vault source : Uuid) : Option VaultIntake :=
  db.intake.rows.find? fun row => row.vaultId = vault ∧ row.sourceId = source

/-- The first transaction of an approval, with the file's text. -/
def approveFile (db : VaultDb) (vault : Uuid) (relativePath : Text) (project : Option Text)
    (markdown : Text) : Result Approval := do
  require (pathOk relativePath) (rejected "invalid intake path")
  require (byteLength markdown ≤ maxSource) (rejected "intake source exceeds size limit")
  let sourceId := sourceIdFor sha256 vault relativePath
  return {
    vault
    sourceId
    content := .knowledge (guessTitle markdown (fileName relativePath))
      ("Folder intake: ".toList ++ relativePath) project markdown
    previous := (db.receipt? vault sourceId).map fun row => (row.generation, row.fingerprint) }

/-- The same generation for what was submitted last, else the next one; the sum wraps. -/
def Approval.generation (approval : Approval) : Int :=
  match approval.previous with
  | none => 1
  | some (last, print) =>
    if IntakeItem.fingerprint sha256 ⟨approval.sourceId, last, approval.content⟩ = print then last
    else Int.bmod (last + 1) (2 ^ 64)

def Approval.item (approval : Approval) : IntakeItem :=
  ⟨approval.sourceId, approval.generation sha256, approval.content⟩

end Approvals

section Host

variable (sha256 : Text → Text) (formats : DateFormats)

/-- The catalog, and the approvals that have read their source's receipt. -/
structure IntakeHost where
  catalog : Catalog
  approvals : Nat → Option Approval

def IntakeHost.db (host : IntakeHost) : VaultDb := host.catalog.db

def IntakeHost.initial : IntakeHost := ⟨.empty, fun _ => none⟩

def CatalogOp.isDelete : CatalogOp → Bool
  | .delete _ => true
  | _ => false

def VaultWrite.isIntake : VaultWrite → Bool
  | .intake .. => true
  | _ => false

/-- A transaction on the vaults. Those that delete a vault, and its receipts, are not among them. -/
inductive IntakeMove where
  | edit (op : CatalogOp) (stays : op.isDelete = false)
  | write (write : VaultWrite) (other : write.isIntake = false)
  | save (vault id : Uuid) (path title content : Text) (date : Option Int)
  | intake (vault : Uuid) (item : IntakeItem)
  | readApproval (caller : Nat) (vault : Uuid) (relativePath : Text) (project : Option Text)
      (markdown : Text)
  | applyApproval (caller : Nat)

structure IntakeEvent where
  move : IntakeMove
  now : Int

/-- The item that a transaction takes in. -/
def IntakeHost.submission? (host : IntakeHost) : IntakeMove → Option (Uuid × IntakeItem)
  | .intake vault item => some (vault, item)
  | .applyApproval caller =>
    (host.approvals caller).map fun approval => (approval.vault, approval.item sha256)
  | _ => none

def IntakeHost.submit (host : IntakeHost) (now : Int) (vault : Uuid) (item : IntakeItem) :
    Result Catalog :=
  (fun taken => host.catalog.write now taken.1) <$>
    vaultIntakeItem sha256 formats host.db vault item

def IntakeEvent.reply (event : IntakeEvent) (host : IntakeHost) : Result Catalog :=
  match event.move with
  | .edit op _ => CatalogEvent.reply sha256 formats ⟨op, event.now⟩ host.catalog
  | .write write _ =>
    (fun written => host.catalog.writes event.now written.1 written.2) <$>
      write.reply sha256 host.db event.now
  | .save vault id path title content date =>
    host.catalog.write event.now <$> saveDocument sha256 host.db vault id path title content date
  | .intake vault item => host.submit sha256 formats event.now vault item
  | .readApproval .. => .ok host.catalog
  | .applyApproval caller =>
    match host.approvals caller with
    | some approval =>
      host.submit sha256 formats event.now approval.vault (approval.item sha256)
    | none => .ok host.catalog

/-- An approval is under way between its two transactions. -/
def IntakeMove.approvals (move : IntakeMove) (host : IntakeHost) : Nat → Option Approval :=
  match move with
  | .readApproval caller vault relativePath project markdown =>
    Function.update host.approvals caller
      (approveFile sha256 host.db vault relativePath project markdown).toOption
  | .applyApproval caller => Function.update host.approvals caller none
  | _ => host.approvals

/-- A transaction that fails is rolled back. -/
def IntakeHost.step (host : IntakeHost) (event : IntakeEvent) : IntakeHost :=
  ⟨(event.reply sha256 formats host).toOption.getD host.catalog,
    event.move.approvals sha256 host⟩

abbrev intakeHostAt (events : List IntakeEvent) (moment : Nat) : IntakeHost :=
  stateAt (IntakeHost.step sha256 formats) .initial events moment

end Host

section Receipts

variable {db next : VaultDb} {vault source : Uuid} {row : VaultIntake}

theorem VaultIntake.Clash.symm {earlier later : VaultIntake} (clash : earlier.Clash later) :
    later.Clash earlier :=
  clash.imp (fun ⟨vault, source⟩ => ⟨vault.symm, source.symm⟩) Eq.symm

theorem VaultDb.receipt?_eq_some_iff :
    db.receipt? vault source = some row ↔
      row ∈ db.intake.rows ∧ row.vaultId = vault ∧ row.sourceId = source := by
  constructor
  · intro found
    exact ⟨List.mem_of_find?_eq_some found, by simpa using List.find?_some found⟩
  · intro ⟨stored, inVault, named⟩
    cases found : db.receipt? vault source with
    | none =>
      have absent := List.find?_eq_none.mp found row stored
      exact absurd (decide_eq_true (And.intro inVault named)) absent
    | some other =>
      have kept := List.mem_of_find?_eq_some found
      obtain ⟨otherVault, otherSource⟩ : other.vaultId = vault ∧ other.sourceId = source := by
        simpa using List.find?_some found
      rw [db.intake.eq_of_clash (fun _ _ => VaultIntake.Clash.symm) kept stored
        (Or.inl ⟨otherVault.trans inVault.symm, otherSource.trans named.symm⟩)]

theorem VaultDb.receipt?_eq_none_iff :
    db.receipt? vault source = none ↔
      ∀ row ∈ db.intake.rows, row.vaultId = vault → row.sourceId ≠ source := by
  simp [VaultDb.receipt?, List.find?_eq_none]

/-- The row that a receipt becomes: one that is there keeps its document. -/
def VaultDb.recorded (db : VaultDb) (receipt : VaultIntake) : VaultIntake :=
  match db.receipt? receipt.vaultId receipt.sourceId with
  | some old =>
    { old with
      generation := receipt.generation
      fingerprint := receipt.fingerprint
      revision := receipt.revision }
  | none => receipt

/-- What `recordIntake` writes. -/
structure Recorded (db next : VaultDb) (receipt : VaultIntake) : Prop where
  rest : next = { db with intake := next.intake }
  rows : ∀ row, row ∈ next.intake.rows ↔
    row = db.recorded receipt ∨
      row ∈ db.intake.rows ∧ ¬ (row.vaultId = receipt.vaultId ∧ row.sourceId = receipt.sourceId)
  count : ∀ vault, next.intake.rows.countP (·.vaultId = vault) =
    db.intake.rows.countP (·.vaultId = vault) +
      if db.receipt? receipt.vaultId receipt.sourceId = none ∧ receipt.vaultId = vault then 1
      else 0

theorem recorded_of_recordIntake {receipt : VaultIntake}
    (done : db.recordIntake receipt = .ok next) : Recorded db next receipt := by
  unfold VaultDb.recordIntake at done
  split at done
  · rename_i present
    obtain ⟨old, stored, own⟩ := List.any_eq_true.mp present
    have own : old.vaultId = receipt.vaultId ∧ old.sourceId = receipt.sourceId := by
      simpa using own
    have found : db.receipt? receipt.vaultId receipt.sourceId = some old :=
      VaultDb.receipt?_eq_some_iff.mpr ⟨stored, own⟩
    obtain rfl := Except.ok.inj done
    refine ⟨rfl, fun row => ?_, fun vault => ?_⟩
    · simp only [VaultDb.recorded, found, Table.rows_update, List.mem_map]
      constructor
      · rintro ⟨earlier, member, changed⟩
        by_cases same : earlier.vaultId = receipt.vaultId ∧ earlier.sourceId = receipt.sourceId
        · rw [if_pos same] at changed
          have this : earlier = old := Option.some.inj
            ((VaultDb.receipt?_eq_some_iff.mpr ⟨member, same⟩).symm.trans found)
          exact Or.inl (by rw [← changed, this])
        · rw [if_neg same] at changed
          exact Or.inr (changed ▸ ⟨member, same⟩)
      · rintro (rfl | ⟨member, other⟩)
        · exact ⟨old, stored, if_pos own⟩
        · exact ⟨row, member, if_neg other⟩
    · have inVault : ((fun row : VaultIntake => decide (row.vaultId = vault)) ∘ fun row =>
          if row.vaultId = receipt.vaultId ∧ row.sourceId = receipt.sourceId then
            { row with
              generation := receipt.generation
              fingerprint := receipt.fingerprint
              revision := receipt.revision }
          else row) = fun row => decide (row.vaultId = vault) := by
        funext row
        simp only [Function.comp_apply]
        split <;> rfl
      rw [Table.rows_update, List.countP_map, inVault, found]
      rfl
  · rename_i absent
    obtain ⟨_, _, done⟩ := bind_eq_ok_iff.mp done
    obtain ⟨intake, inserted, done⟩ := bind_eq_ok_iff.mp done
    rw [orFail_eq_ok_iff] at inserted
    obtain rfl := pure_eq_ok_iff.mp done
    have fresh : ∀ row ∈ db.intake.rows,
        ¬ (row.vaultId = receipt.vaultId ∧ row.sourceId = receipt.sourceId) := by
      intro row member own
      exact absent (List.any_eq_true.mpr ⟨row, member, by simpa using own⟩)
    have missing : db.receipt? receipt.vaultId receipt.sourceId = none :=
      VaultDb.receipt?_eq_none_iff.mpr fun row member vault source =>
        fresh row member ⟨vault, source⟩
    have rows := Table.rows_of_insert? inserted
    refine ⟨rfl, fun row => ?_, fun vault => ?_⟩
    · simp only [VaultDb.recorded, missing]
      rw [rows, List.mem_append, List.mem_singleton]
      constructor
      · rintro (member | last)
        · exact Or.inr ⟨member, fresh row member⟩
        · exact Or.inl last
      · rintro (last | ⟨member, _⟩)
        · exact Or.inr last
        · exact Or.inl member
    · rw [rows, List.countP_append, missing]
      simp [List.countP_singleton]

/-- After it, the source's receipt is the one recorded; others stay. -/
theorem Recorded.own {receipt : VaultIntake} (recorded : Recorded db next receipt) :
    next.receipt? receipt.vaultId receipt.sourceId = some (db.recorded receipt) := by
  refine VaultDb.receipt?_eq_some_iff.mpr ⟨(recorded.rows _).mpr (Or.inl rfl), ?_⟩
  unfold VaultDb.recorded
  split
  · rename_i old found
    exact (VaultDb.receipt?_eq_some_iff.mp found).2
  · exact ⟨rfl, rfl⟩

theorem Recorded.other {receipt : VaultIntake} (recorded : Recorded db next receipt)
    (apart : ¬ (vault = receipt.vaultId ∧ source = receipt.sourceId)) :
    next.receipt? vault source = db.receipt? vault source := by
  ext row
  rw [VaultDb.receipt?_eq_some_iff, VaultDb.receipt?_eq_some_iff]
  constructor
  · rintro ⟨member, rfl, rfl⟩
    rcases (recorded.rows row).mp member with rfl | ⟨stored, _⟩
    · exact absurd (VaultDb.receipt?_eq_some_iff.mp recorded.own).2 apart
    · exact ⟨stored, rfl, rfl⟩
  · rintro ⟨stored, rfl, rfl⟩
    exact ⟨(recorded.rows row).mpr (Or.inr ⟨stored, apart⟩), rfl, rfl⟩

end Receipts

end OHHive.Vault
