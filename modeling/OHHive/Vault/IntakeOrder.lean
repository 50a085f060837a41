import OHHive.Vault.IntakeRuns

/-! Intake applies in order and overwrites nothing, in every run of intake, approvals and edits by
hand. -/

namespace OHHive.Vault

open Foundation
open Coder (byteLength)

section Order

variable (sha256 : Text → Text) (formats : DateFormats) (events : List IntakeEvent)

/-- A transaction of the run hands an item in. -/
def Submits (moment : Nat) (vault : Uuid) (item : IntakeItem) : Prop :=
  ∃ event, events[moment]? = some event ∧
    (intakeHostAt sha256 formats events moment).submission? sha256 event.move = some (vault, item)

/-- The answer to an item at this moment. -/
abbrev intakeAnswer (moment : Nat) (vault : Uuid) (item : IntakeItem) :
    Result (VaultDb × IntakeReceipt) :=
  vaultIntakeItem sha256 formats (intakeHostAt sha256 formats events moment).db vault item

/-- It is accepted, and the store is what the answer made of it. -/
structure Accepts (moment : Nat) (vault : Uuid) (item : IntakeItem) (receipt : IntakeReceipt) :
    Prop where
  submits : Submits sha256 formats events moment vault item
  answer : intakeAnswer sha256 formats events moment vault item =
    .ok ((intakeHostAt sha256 formats events (moment + 1)).db, receipt)

/-- The run applies the approval of a caller. -/
structure Applies (moment : Nat) (approval : Approval) : Prop where
  submits : Submits sha256 formats events moment approval.vault (approval.item sha256)
  event : ∃ caller now, events[moment]? = some ⟨.applyApproval caller, now⟩ ∧
    (intakeHostAt sha256 formats events moment).approvals caller = some approval

/-- The file has the text, under the title and the project, that was submitted last. -/
def Approval.Unchanged (approval : Approval) : Prop :=
  ∃ last, approval.previous =
    some (last, IntakeItem.fingerprint sha256 ⟨approval.sourceId, last, approval.content⟩)

/-- Two items that the digest tells apart, if they differ. -/
def ToldApart (first second : IntakeItem) : Prop :=
  sha256 first.toJson.print = sha256 second.toJson.print → first.toJson.print = second.toJson.print

/-- The receipts, and the documents of the sources, at one moment. -/
structure OneDocument (db : VaultDb) (vault source : Uuid) : Prop where
  receipts : db.intake.rows.countP (fun row => row.vaultId = vault ∧ row.sourceId = source) ≤ 1
  documents : db.documents.rows.countP (·.id = intakeId sha256 vault source) ≤ 1
  named : ∀ row ∈ db.receipt? vault source, row.documentId = intakeId sha256 vault source

/-- What a run of intake, approvals and edits by hand keeps to. -/
structure IntakeOrder : Prop where
  single : ∀ moment vault source,
    OneDocument sha256 (intakeHostAt sha256 formats events moment).db vault source
  /-- A refused item changes nothing. -/
  refused : ∀ moment vault item error, Submits sha256 formats events moment vault item →
    intakeAnswer sha256 formats events moment vault item = .error error →
    (intakeHostAt sha256 formats events (moment + 1)).db =
      (intakeHostAt sha256 formats events moment).db
  older : ∀ earlier later vault item item' receipt, earlier < later →
    Accepts sha256 formats events earlier vault item receipt →
    Submits sha256 formats events later vault item' → item'.sourceId = item.sourceId →
    item'.generation < item.generation →
    ∃ error, intakeAnswer sha256 formats events later vault item' = .error error
  conflicting : ∀ earlier later vault item item' receipt, earlier < later →
    Accepts sha256 formats events earlier vault item receipt →
    Submits sha256 formats events later vault item' → item'.sourceId = item.sourceId →
    item'.generation = item.generation → item' ≠ item → ToldApart sha256 item' item →
    ∃ error, intakeAnswer sha256 formats events later vault item' = .error error
  increasing : ∀ earlier later vault item item' receipt receipt', earlier < later →
    Accepts sha256 formats events earlier vault item receipt →
    Accepts sha256 formats events later vault item' receipt' → item'.sourceId = item.sourceId →
    receipt'.unchanged = false → item.generation < item'.generation
  /-- The item again: it changes nothing, and is answered with the same document and revision. -/
  again : ∀ earlier later vault item receipt receipt', earlier < later →
    Accepts sha256 formats events earlier vault item receipt →
    Accepts sha256 formats events later vault item receipt' →
    receipt' = ⟨receipt.documentId, receipt.revision, true⟩ ∧
      (intakeHostAt sha256 formats events (later + 1)).db =
        (intakeHostAt sha256 formats events later).db
  /-- It is accepted again as long as its document is as intake left it and no newer one came. -/
  accepted_again : ∀ earlier later vault item receipt, earlier < later →
    Accepts sha256 formats events earlier vault item receipt →
    Submits sha256 formats events later vault item →
    ((∃ receipt', Accepts sha256 formats events later vault item receipt') ↔
      Untouched sha256 (intakeHostAt sha256 formats events later).db vault item.sourceId ∧
        ∀ between newer receipt', earlier < between → between < later →
          Accepts sha256 formats events between vault newer receipt' →
          newer.sourceId = item.sourceId → newer.generation ≤ item.generation)
  /-- A document that is not as intake left it stays as it is. -/
  guarded : ∀ moment vault item receipt, Accepts sha256 formats events moment vault item receipt →
    Untouched sha256 (intakeHostAt sha256 formats events moment).db vault item.sourceId
  /-- No other document and no other receipt is written. -/
  others : ∀ moment vault item receipt, Accepts sha256 formats events moment vault item receipt →
    (∀ id, id ≠ intakeId sha256 vault item.sourceId →
      (intakeHostAt sha256 formats events (moment + 1)).db.held? id =
        (intakeHostAt sha256 formats events moment).db.held? id) ∧
    ∀ vault' source, ¬ (vault' = vault ∧ source = item.sourceId) →
      (intakeHostAt sha256 formats events (moment + 1)).db.receipt? vault' source =
        (intakeHostAt sha256 formats events moment).db.receipt? vault' source
  /-- A document that was accepted is there afterwards, or gone where it is excluded. -/
  stored : ∀ moment vault item receipt, Accepts sha256 formats events moment vault item receipt →
    receipt.unchanged = false →
    ∃ prepared?, prepare sha256 formats item receipt.documentId = .ok prepared? ∧
      receipt.revision = revisionFor sha256 receipt.documentId prepared? ∧
      (intakeHostAt sha256 formats events (moment + 1)).db.held? receipt.documentId =
        prepared?.map (·.row vault receipt.documentId (receipt.revision.getD []))
  sources : ∀ moment vault,
    (intakeHostAt sha256 formats events moment).db.intake.rows.countP (·.vaultId = vault) ≤ 10000
  /-- Where a document was written, the vault has room for it. -/
  bytes : ∀ moment vault item receipt, Accepts sha256 formats events moment vault item receipt →
    receipt.unchanged = false → item.content ≠ .excluded →
    (intakeHostAt sha256 formats events (moment + 1)).db.vaultBytes vault ≤ maxBytes
  /-- An approval under way was opened by its caller. -/
  opened : ∀ moment caller approval,
    (intakeHostAt sha256 formats events moment).approvals caller = some approval →
    ∃ opening vault relativePath project markdown now, opening < moment ∧
      events[opening]? = some ⟨.readApproval caller vault relativePath project markdown, now⟩ ∧
      approveFile sha256 (intakeHostAt sha256 formats events opening).db vault relativePath project
        markdown = .ok approval
  unchanged : ∀ moment approval, Applies sha256 formats events moment approval →
    approval.Unchanged sha256 →
    (intakeHostAt sha256 formats events (moment + 1)).db =
      (intakeHostAt sha256 formats events moment).db
  /-- An approval that writes found the receipt that it had read. -/
  current : ∀ moment approval receipt, Applies sha256 formats events moment approval →
    Accepts sha256 formats events moment approval.vault (approval.item sha256) receipt →
    receipt.unchanged = false →
    approval.previous =
      ((intakeHostAt sha256 formats events moment).db.receipt? approval.vault
        approval.sourceId).map fun row => (row.generation, row.fingerprint)

end Order

section Facts

variable {sha256 : Text → Text} {formats : DateFormats} {events : List IntakeEvent}
  {moment earlier later : Nat} {vault : Uuid} {item item' : IntakeItem}
  {receipt receipt' : IntakeReceipt}

theorem effect_of_submits (submits : Submits sha256 formats events moment vault item) :
    (∃ error, intakeAnswer sha256 formats events moment vault item = .error error ∧
        (intakeHostAt sha256 formats events (moment + 1)).db =
          (intakeHostAt sha256 formats events moment).db) ∨
      ∃ receipt, Accepts sha256 formats events moment vault item receipt := by
  obtain ⟨event, present, submitted⟩ := submits
  have stepped : intakeHostAt sha256 formats events (moment + 1) =
      (intakeHostAt sha256 formats events moment).step sha256 formats event :=
    stateAt_succ _ _ present
  have effect : IntakeEffect sha256 formats _ _ event :=
    intakeEffect_of_step (intakeHostAt sha256 formats events moment) event
  rw [← stepped] at effect
  cases effect with
  | rest none same =>
    rw [none] at submitted
    cases submitted
  | refused vault' item' error found answer same =>
    obtain ⟨rfl, rfl⟩ := Prod.mk.inj (Option.some.inj (found.symm.trans submitted))
    exact Or.inl ⟨error, answer, same⟩
  | accepted vault' item' receipt found answer =>
    obtain ⟨rfl, rfl⟩ := Prod.mk.inj (Option.some.inj (found.symm.trans submitted))
    exact Or.inr ⟨receipt, ⟨event, present, submitted⟩, answer⟩

theorem Accepts.intaken (accepts : Accepts sha256 formats events moment vault item receipt) :
    Intaken sha256 formats (intakeHostAt sha256 formats events moment).db
      (intakeHostAt sha256 formats events (moment + 1)).db vault item receipt :=
  intaken_of_vaultIntakeItem accepts.answer

/-- The receipt that an accepted item has afterwards. -/
theorem Accepts.recorded (accepts : Accepts sha256 formats events moment vault item receipt) :
    ∃ row ∈ (intakeHostAt sha256 formats events (moment + 1)).db.receipt? vault item.sourceId,
      row.generation = item.generation ∧ row.fingerprint = item.fingerprint sha256 ∧
        row.revision = receipt.revision := by
  cases accepts.intaken with
  | kept row found generation print same given =>
    rw [same]
    exact ⟨row, found, generation, print, by rw [given]⟩
  | stored prepared? taken given =>
    obtain ⟨generation, print, revision⟩ := recorded_receipt
      (intakeHostAt sha256 formats events moment).db sha256 vault item prepared?
    exact ⟨_, taken.receipts.1, generation, print, revision.trans (by rw [given])⟩

theorem Accepts.documentId (accepts : Accepts sha256 formats events moment vault item receipt) :
    receipt.documentId = intakeId sha256 vault item.sourceId := by
  cases accepts.intaken with
  | kept row found generation print same given => rw [given]
  | stored prepared? taken given => rw [given]

/-- Later there is that receipt, or one of a newer generation. -/
theorem Accepts.afterwards (accepts : Accepts sha256 formats events earlier vault item receipt)
    (ordered : earlier < later) :
    ∃ row ∈ (intakeHostAt sha256 formats events later).db.receipt? vault item.sourceId,
      (row.generation = item.generation ∧ row.fingerprint = item.fingerprint sha256 ∧
        row.revision = receipt.revision) ∨ item.generation < row.generation := by
  obtain ⟨row, found, generation, print, revision⟩ := accepts.recorded
  obtain ⟨last, held, newer⟩ := grew_between events sha256 formats ordered _ _ row found
  refine ⟨last, held, ?_⟩
  rcases newer with rfl | newer
  · exact Or.inl ⟨generation, print, revision⟩
  · exact Or.inr (generation ▸ newer)

/-- A second item of the source is the same as the first, or newer. -/
theorem Accepts.follows (accepts : Accepts sha256 formats events earlier vault item receipt)
    (follows : Accepts sha256 formats events later vault item' receipt')
    (source : item'.sourceId = item.sourceId) (ordered : earlier < later) :
    item.generation < item'.generation ∨
      item'.generation = item.generation ∧ item'.fingerprint sha256 = item.fingerprint sha256 ∧
        receipt' = ⟨receipt.documentId, receipt.revision, true⟩ ∧
        (intakeHostAt sha256 formats events (later + 1)).db =
          (intakeHostAt sha256 formats events later).db := by
  obtain ⟨row, found, state⟩ := accepts.afterwards ordered
  cases follows.intaken with
  | kept row' found' generation' print' same given =>
    rw [source] at found'
    obtain rfl := Option.some.inj (found'.symm.trans found)
    rcases state with ⟨generation, print, revision⟩ | newer
    · refine Or.inr ⟨generation'.symm.trans generation, print'.symm.trans print, ?_, same⟩
      rw [given, accepts.documentId, revision, source]
    · exact Or.inl (generation' ▸ newer)
  | stored prepared? taken given =>
    have newer := taken.newer row (source ▸ found)
    rcases state with ⟨generation, _⟩ | older
    · exact Or.inl (generation ▸ newer)
    · exact Or.inl (older.trans newer)

/-- A receipt that has changed was replaced by an item of a newer generation. -/
theorem newer_of_receipt {first second : Nat} (ordered : first ≤ second) {source : Uuid}
    {row : VaultIntake}
    (found : (intakeHostAt sha256 formats events first).db.receipt? vault source = some row) :
    (intakeHostAt sha256 formats events second).db.receipt? vault source = some row ∨
      ∃ between newer receipt, first ≤ between ∧ between < second ∧
        Accepts sha256 formats events between vault newer receipt ∧ newer.sourceId = source ∧
        row.generation < newer.generation := by
  induction second, ordered using Nat.le_induction with
  | base => exact Or.inl found
  | succ last ordered ih =>
    rcases ih with held | ⟨between, newer, receipt, after, before, accepts, own, grown⟩
    · have stepped := stateAt_next (IntakeHost.step sha256 formats) .initial events last
      rcases stepped with ⟨event, present, next⟩ | ⟨_, next⟩
      · have effect : IntakeEffect sha256 formats _ _ event :=
          intakeEffect_of_step (intakeHostAt sha256 formats events last) event
        rw [← next] at effect
        cases effect with
        | rest none same =>
          left
          unfold VaultDb.receipt? at held ⊢
          rwa [same]
        | refused vault' item error submitted answer same => exact Or.inl (same ▸ held)
        | accepted vault' item receipt submitted answer =>
          have accepts : Accepts sha256 formats events last vault' item receipt :=
            ⟨⟨event, present, submitted⟩, answer⟩
          cases accepts.intaken with
          | kept row' found' generation print same given => exact Or.inl (same ▸ held)
          | stored prepared? taken given =>
            by_cases own : vault = vault' ∧ source = item.sourceId
            · obtain ⟨rfl, rfl⟩ := own
              exact Or.inr ⟨last, item, receipt, ordered, Nat.lt_succ_self last, accepts, rfl,
                taken.newer row held⟩
            · exact Or.inl ((taken.receipts.2 _ _ own).trans held)
      · left
        rw [show intakeHostAt sha256 formats events (last + 1) = _ from next]
        exact held
    · exact Or.inr ⟨between, newer, receipt, after, before.trans (Nat.lt_succ_self last), accepts,
        own, grown⟩

theorem isSome_of_prepare {id : Uuid} {prepared? : Option Prepared}
    (included : item.content ≠ .excluded)
    (done : prepare sha256 formats item id = .ok prepared?) : prepared?.isSome := by
  unfold prepare at done
  split at done
  · rename_i excluded
    exact absurd excluded included
  · simp only [bind_eq_ok_iff, pure_eq_ok_iff] at done
    obtain ⟨_, _, _, _, _, _, _, _, _, _, rfl⟩ := done
    rfl

/-- An approval whose file was not changed has the generation that it read. -/
theorem Approval.Unchanged.previous {approval : Approval} (unchanged : approval.Unchanged sha256) :
    approval.previous =
      some ((approval.item sha256).generation, (approval.item sha256).fingerprint sha256) := by
  obtain ⟨last, previous⟩ := unchanged
  have generation : approval.generation sha256 = last := by
    rw [Approval.generation, previous]
    exact if_pos rfl
  rw [previous, Approval.item, generation]

theorem generation_le_of_previous {approval : Approval} {last : Int} {print : Text}
    (previous : approval.previous = some (last, print)) (positive : 0 < last) :
    approval.generation sha256 ≤ last + 1 := by
  simp only [Approval.generation, previous]
  split
  · exact Int.le_of_lt (Int.lt_succ last)
  · rw [Int.bmod_def]
    split <;> omega

/-- What an approval has read is the receipt, where it writes. -/
theorem Taken.previous {db next : VaultDb} {approval : Approval} {prepared? : Option Prepared}
    (read : approval.Read db) (positive : ∀ row ∈ db.intake.rows, 0 < row.generation)
    (taken : Taken sha256 formats db next approval.vault (approval.item sha256) prepared?) :
    approval.previous =
        (db.receipt? approval.vault approval.sourceId).map
          (fun row => (row.generation, row.fingerprint)) ∧
      ¬ approval.Unchanged sha256 := by
  cases previous : approval.previous with
  | none =>
    refine ⟨?_, fun unchanged => ?_⟩
    · have fresh : db.receipt? approval.vault approval.sourceId = none := by
        cases found : db.receipt? approval.vault approval.sourceId with
        | none => rfl
        | some row =>
          have newer : row.generation < approval.generation sha256 := taken.newer row found
          have first : approval.generation sha256 = 1 := by rw [Approval.generation, previous]
          have := positive row (VaultDb.receipt?_eq_some_iff.mp found).1
          omega
      rw [fresh]
      rfl
    · rw [unchanged.previous] at previous
      cases previous
  | some seen =>
    obtain ⟨last, print⟩ := seen
    obtain ⟨above, row, found, state⟩ := read last print previous
    have newer : row.generation < approval.generation sha256 := taken.newer row found
    have next : approval.generation sha256 ≤ last + 1 := generation_le_of_previous previous above
    have reached : row.generation = last ∧ row.fingerprint = print :=
      state.resolve_right (by omega)
    refine ⟨?_, fun unchanged => ?_⟩
    · rw [show db.receipt? approval.vault approval.sourceId = some row from found]
      obtain ⟨rfl, rfl⟩ := reached
      rfl
    · rw [unchanged.previous] at previous
      obtain ⟨same, _⟩ := Prod.mk.inj (Option.some.inj previous)
      have : approval.generation sha256 = last := same
      omega

/-- An approval under way was opened at an earlier moment. -/
theorem exists_opening (caller : Nat) (approval : Approval)
    (pending : (intakeHostAt sha256 formats events moment).approvals caller = some approval) :
    ∃ opening vault relativePath project markdown now, opening < moment ∧
      events[opening]? = some ⟨.readApproval caller vault relativePath project markdown, now⟩ ∧
      approveFile sha256 (intakeHostAt sha256 formats events opening).db vault relativePath project
        markdown = .ok approval := by
  induction moment with
  | zero => cases pending
  | succ moment ih =>
    suffices kept : (intakeHostAt sha256 formats events moment).approvals caller = some approval ∨
        ∃ vault relativePath project markdown now,
          events[moment]? = some ⟨.readApproval caller vault relativePath project markdown, now⟩ ∧
          approveFile sha256 (intakeHostAt sha256 formats events moment).db vault relativePath
            project markdown = .ok approval by
      rcases kept with before | ⟨vault, relativePath, project, markdown, now, present, opened⟩
      · obtain ⟨opening, vault, relativePath, project, markdown, now, earlier, rest⟩ := ih before
        exact ⟨opening, vault, relativePath, project, markdown, now,
          earlier.trans (Nat.lt_succ_self moment), rest⟩
      · exact ⟨moment, vault, relativePath, project, markdown, now, Nat.lt_succ_self moment,
          present, opened⟩
    rcases stateAt_next (IntakeHost.step sha256 formats) .initial events moment with
      ⟨⟨move, now⟩, present, next⟩ | ⟨_, next⟩
    · rw [show intakeHostAt sha256 formats events (moment + 1) = _ from next] at pending
      change move.approvals sha256 (intakeHostAt sha256 formats events moment) caller = _ at pending
      cases move with
      | edit op stays => exact Or.inl pending
      | write write other => exact Or.inl pending
      | save vault id path title content date => exact Or.inl pending
      | intake vault item => exact Or.inl pending
      | readApproval reader vault relativePath project markdown =>
        rw [IntakeMove.approvals, Function.update_apply] at pending
        split at pending
        · rename_i own
          subst own
          refine Or.inr ⟨vault, relativePath, project, markdown, now, present, ?_⟩
          cases opened : approveFile sha256 (intakeHostAt sha256 formats events moment).db vault
              relativePath project markdown with
          | error error =>
            rw [opened] at pending
            cases pending
          | ok read =>
            rw [opened] at pending
            rw [Option.some.inj pending]
        · exact Or.inl pending
      | applyApproval reader =>
        rw [IntakeMove.approvals, Function.update_apply] at pending
        split at pending
        · cases pending
        · exact Or.inl pending
    · rw [show intakeHostAt sha256 formats events (moment + 1) = _ from next] at pending
      exact Or.inl pending

end Facts

section Results

variable {sha256 : Text → Text} {formats : DateFormats} {events : List IntakeEvent}
  {earlier later : Nat} {vault : Uuid} {item : IntakeItem} {receipt : IntakeReceipt}

theorem accepted_again_iff (ordered : earlier < later)
    (accepts : Accepts sha256 formats events earlier vault item receipt)
    (submits : Submits sha256 formats events later vault item) :
    (∃ receipt', Accepts sha256 formats events later vault item receipt') ↔
      Untouched sha256 (intakeHostAt sha256 formats events later).db vault item.sourceId ∧
        ∀ between newer receipt', earlier < between → between < later →
          Accepts sha256 formats events between vault newer receipt' →
          newer.sourceId = item.sourceId → newer.generation ≤ item.generation := by
  constructor
  · intro ⟨receipt', repeats⟩
    refine ⟨(untouched_of_vaultIntakeItem repeats.answer).2, ?_⟩
    intro between newer receipt'' _ before among own
    rcases among.follows repeats own.symm before with older | ⟨same, _⟩
    · exact le_of_lt older
    · exact le_of_eq same.symm
  · intro ⟨untouched, latest⟩
    obtain ⟨row, found, generation, print, revision⟩ := accepts.recorded
    rcases newer_of_receipt (show earlier + 1 ≤ later from ordered) found with
      held | ⟨between, newer, receipt', after, before, among, own, grown⟩
    · obtain ⟨named, prepared?, made⟩ := identity_of_vaultIntakeItem accepts.answer
      have positive := (untouched_of_vaultIntakeItem accepts.answer).1
      have answer := vaultIntakeItem_again positive named made untouched held generation print
      rcases effect_of_submits submits with ⟨error, refused, _⟩ | accepted
      · rw [intakeAnswer, answer] at refused
        cases refused
      · exact accepted
    · have most := latest between newer receipt' after before among own
      omega

/-- Intake applies in order, and overwrites nothing. -/
theorem intake_applies_in_order (sha256 : Text → Text) (formats : DateFormats)
    (events : List IntakeEvent) : IntakeOrder sha256 formats events where
  single := by
    intro moment vault source
    have sound := sound_intakeHostAt events sha256 formats moment
    refine ⟨?_, ?_, fun row found => ?_⟩
    · apply Table.countP_le_one_of_clash
      intro first _ second _ own other
      obtain ⟨firstVault, firstSource⟩ := of_decide_eq_true own
      obtain ⟨secondVault, secondSource⟩ := of_decide_eq_true other
      exact Or.inl ⟨firstVault.trans secondVault.symm, firstSource.trans secondSource.symm⟩
    · exact (intakeHostAt sha256 formats events moment).db.documents.countP_le_one
        (fun row => row.id) (fun _ _ => Or.inl) (intakeId sha256 vault source)
    · obtain ⟨stored, rfl, rfl⟩ := VaultDb.receipt?_eq_some_iff.mp found
      exact sound.ids row stored
  refused := by
    intro moment vault item error submits refused
    rcases effect_of_submits submits with ⟨_, _, same⟩ | ⟨receipt, accepts⟩
    · exact same
    · rw [accepts.answer] at refused
      cases refused
  older := by
    intro earlier later vault item item' receipt ordered accepts submits own stale
    rcases effect_of_submits submits with ⟨error, refused, _⟩ | ⟨receipt', accepts'⟩
    · exact ⟨error, refused⟩
    · rcases accepts.follows accepts' own ordered with newer | ⟨same, _⟩
      · omega
      · omega
  conflicting := by
    intro earlier later vault item item' receipt ordered accepts submits own same differs apart
    rcases effect_of_submits submits with ⟨error, refused, _⟩ | ⟨receipt', accepts'⟩
    · exact ⟨error, refused⟩
    · rcases accepts.follows accepts' own ordered with newer | ⟨_, print, _⟩
      · omega
      · exact absurd (toJson_injective (Json.print_injective (apart print))) differs
  increasing := by
    intro earlier later vault item item' receipt receipt' ordered accepts accepts' own changed
    rcases accepts.follows accepts' own ordered with newer | ⟨_, _, given, _⟩
    · exact newer
    · rw [given] at changed
      cases changed
  again := by
    intro earlier later vault item receipt receipt' ordered accepts accepts'
    rcases accepts.follows accepts' rfl ordered with newer | ⟨_, _, given, same⟩
    · exact absurd newer (lt_irrefl _)
    · exact ⟨given, same⟩
  accepted_again := fun _ _ _ _ _ ordered => accepted_again_iff ordered
  guarded := fun _ _ _ _ accepts => (untouched_of_vaultIntakeItem accepts.answer).2
  others := by
    intro moment vault item receipt accepts
    cases accepts.intaken with
    | kept row found generation print same given =>
      rw [same]
      exact ⟨fun _ _ => rfl, fun _ _ _ => rfl⟩
    | stored prepared? taken given => exact ⟨taken.documents.2.1, taken.receipts.2⟩
  stored := by
    intro moment vault item receipt accepts changed
    cases accepts.intaken with
    | kept row found generation print same given =>
      rw [given] at changed
      cases changed
    | stored prepared? taken given =>
      subst given
      exact ⟨prepared?, taken.prepared, rfl, taken.documents.1⟩
  sources := fun moment => (sound_intakeHostAt events sha256 formats moment).few
  bytes := by
    intro moment vault item receipt accepts changed included
    cases accepts.intaken with
    | kept row found generation print same given =>
      rw [given] at changed
      cases changed
    | stored prepared? taken given =>
      exact taken.documents.2.2 (isSome_of_prepare included taken.prepared)
  opened := fun _ => exists_opening
  unchanged := by
    intro moment approval applies unchanged
    obtain ⟨caller, now, present, pending⟩ := applies.event
    have sound := sound_intakeHostAt events sha256 formats moment
    rcases effect_of_submits applies.submits with ⟨_, _, same⟩ | ⟨receipt, accepts⟩
    · exact same
    · cases accepts.intaken with
      | kept row found generation print same given => exact same
      | stored prepared? taken given =>
        have read := sound.read caller approval pending
        exact absurd unchanged (taken.previous read sound.positive).2
  current := by
    intro moment approval receipt applies accepts changed
    obtain ⟨caller, now, present, pending⟩ := applies.event
    have sound := sound_intakeHostAt events sha256 formats moment
    cases accepts.intaken with
    | kept row found generation print same given =>
      rw [given] at changed
      cases changed
    | stored prepared? taken given =>
      exact (taken.previous (sound.read caller approval pending) sound.positive).1

end Results

section Limits

variable {sha256 : Text → Text} {formats : DateFormats} {db : VaultDb} {vault id : Uuid}
  {path title content : Text}

/-- A new document can be written by hand. -/
theorem exists_vaultPut (accepted : pathOk path = true) (titled : byteLength title ≤ 4096)
    (small : byteLength content ≤ 4 * 1024 * 1024) (manual : db.folderBacked vault = false)
    (known : (db.vaults.lookup vault).isSome)
    (fresh : ∀ row ∈ db.documents.rows, row.id ≠ id ∧ ¬ (row.vaultId = vault ∧ row.path = path)) :
    ∃ documents, vaultPut sha256 formats db vault id path title content =
        .ok ({ db with documents }, revisionOf sha256 id path title content) ∧
      documents.rows = db.documents.rows ++
        [⟨⟨id, vault, path, revisionOf sha256 id path title content, title, content⟩,
          extractDocumentDate formats content⟩] := by
  have fits : db.documents.Fits
      ⟨⟨id, vault, path, revisionOf sha256 id path title content, title, content⟩,
        extractDocumentDate formats content⟩ := by
    intro stored member clash
    exact clash.elim (fresh stored member).1 (fresh stored member).2
  obtain ⟨documents, inserted, rows⟩ := Table.exists_insert? fits
  have absent : ¬ db.documents.rows.any (·.id = id) = true := by
    intro present
    obtain ⟨row, member, same⟩ := List.any_eq_true.mp present
    exact (fresh row member).1 (of_decide_eq_true same)
  have valid : require
      (pathOk path ∧ byteLength title ≤ 4096 ∧ byteLength content ≤ 4 * 1024 * 1024)
      (rejected "invalid vault document") = .ok () :=
    require_eq_ok_iff.mpr ⟨accepted, titled, small⟩
  have written : require (¬ db.folderBacked vault)
      (rejected "folder vault writes require reconciliation") = .ok () :=
    require_eq_ok_iff.mpr (Bool.eq_false_iff.mp manual)
  have owned : require (∀ row ∈ db.documents.rows, row.id = id → row.vaultId = vault)
      (rejected "document belongs to another vault") = .ok () :=
    require_eq_ok_iff.mpr fun row member same => absurd same (fresh row member).1
  have present : require (db.vaults.lookup vault).isSome dbError = .ok () :=
    require_eq_ok_iff.mpr known
  refine ⟨documents, ?_, rows⟩
  simp only [vaultPut, valid, written, owned, ok_bind, VaultDb.upsertDocument, absent,
    VaultDb.insertDocument, present, inserted, orFail_some]
  rfl

/-- As much as a document written by hand may have. -/
def longText : Text := List.replicate (4 * 1024 * 1024) 'a'

theorem byteLength_longText : byteLength longText = 4 * 1024 * 1024 := by
  have ascii : ∀ count : Nat, byteLength (List.replicate count 'a') = count := by
    intro count
    rw [byteLength, List.map_replicate, List.sum_replicate_nat, show 'a'.utf8Size = 1 from rfl,
      Nat.mul_one]
  exact ascii _

variable (sha256) in
/-- The identities of the notes, none of which is that of the source. -/
def noteId (count : Nat) : Uuid := ⟨(intakeId sha256 1 1).value + 1 + count⟩

def notePath (count : Nat) : Text := List.replicate (count + 1) 'n' ++ ".md".toList

variable (sha256 formats) in
def noteRow (count : Nat) : DocumentRow :=
  ⟨⟨noteId sha256 count, 1, notePath count,
    revisionOf sha256 (noteId sha256 count) (notePath count) [] longText, [], longText⟩,
    extractDocumentDate formats longText⟩

variable (sha256) in
/-- Seventeen long notes are written by hand, then a source is excluded. -/
def excludedLast : List IntakeEvent :=
  ⟨.edit (.create 1 "Notes") rfl, 0⟩ ::
    (List.range 17).map (fun count =>
      ⟨.edit (.put 1 (noteId sha256 count) (notePath count) [] longText) rfl, 0⟩) ++
    [⟨.intake 1 ⟨1, 1, .excluded⟩, 0⟩]

variable (sha256 formats) in
/-- So many notes have been written. -/
structure Filled (db : VaultDb) (count : Nat) : Prop where
  known : (db.vaults.lookup 1).isSome
  sources : db.sources = Table.empty
  intake : db.intake = Table.empty
  documents : db.documents.rows = (List.range count).map (noteRow sha256 formats)

theorem notePath_injective : Function.Injective notePath := by
  intro first second same
  have lengths := congrArg List.length same
  simpa [notePath] using lengths

theorem accepted_notePath : ∀ count < 17, pathOk (notePath count) = true := by decide +kernel

theorem filled_intakeHostAt (sha256 : Text → Text) (formats : DateFormats) (count : Nat)
    (few : count ≤ 17) :
    Filled sha256 formats
      (intakeHostAt sha256 formats (excludedLast sha256) (count + 1)).db count := by
  induction count with
  | zero => exact ⟨rfl, rfl, rfl, rfl⟩
  | succ count ih =>
    have filled := ih (Nat.le_of_succ_le few)
    have present : (excludedLast sha256)[count + 1]? =
        some ⟨.edit (.put 1 (noteId sha256 count) (notePath count) [] longText) rfl, 0⟩ := by
      rw [excludedLast, List.cons_append, List.getElem?_cons_succ,
        List.getElem?_append_left (by simpa using few), List.getElem?_map,
        List.getElem?_range few]
      rfl
    have stepped : intakeHostAt sha256 formats (excludedLast sha256) (count + 2) =
        (intakeHostAt sha256 formats (excludedLast sha256) (count + 1)).step sha256 formats
          ⟨.edit (.put 1 (noteId sha256 count) (notePath count) [] longText) rfl, 0⟩ :=
      stateAt_succ _ _ present
    generalize intakeHostAt sha256 formats (excludedLast sha256) (count + 1) = host at *
    have fresh : ∀ row ∈ host.db.documents.rows, row.id ≠ noteId sha256 count ∧
        ¬ (row.vaultId = 1 ∧ row.path = notePath count) := by
      intro row member
      rw [filled.documents] at member
      obtain ⟨other, before, rfl⟩ := List.mem_map.mp member
      have before := List.mem_range.mp before
      refine ⟨fun same => ?_, fun same => ?_⟩
      · have values := congrArg Uuid.value same
        simp only [noteRow, noteId] at values
        omega
      · have := notePath_injective same.2
        omega
    have manual : host.db.folderBacked 1 = false := by
      rw [VaultDb.folderBacked, filled.sources]
      rfl
    obtain ⟨documents, written, rows⟩ : ∃ documents,
        vaultPut sha256 formats host.db 1 (noteId sha256 count) (notePath count) [] longText =
          .ok ({ host.db with documents }, (noteRow sha256 formats count).revision) ∧
        documents.rows = host.db.documents.rows ++ [noteRow sha256 formats count] :=
      exists_vaultPut (accepted_notePath count few) (Nat.zero_le _) (le_of_eq byteLength_longText)
        manual filled.known fresh
    have next : (intakeHostAt sha256 formats (excludedLast sha256) (count + 2)).db =
        { host.db with documents } := by
      have reply : CatalogEvent.reply sha256 formats
          ⟨.put 1 (noteId sha256 count) (notePath count) [] longText, 0⟩ host.catalog =
            .ok (host.catalog.write 0 { host.db with documents }) := by
        change (host.catalog.write 0 ∘ Prod.fst) <$> vaultPut sha256 formats host.db _ _ _ _ _ = _
        rw [written]
        rfl
      rw [stepped]
      change ((CatalogEvent.reply sha256 formats
        ⟨.put 1 (noteId sha256 count) (notePath count) [] longText, 0⟩
          host.catalog).toOption.getD host.catalog).db = _
      rw [reply]
      rfl
    rw [show count + 1 + 1 = count + 2 from rfl, next]
    refine ⟨filled.known, filled.sources, filled.intake, ?_⟩
    change documents.rows = _
    rw [rows, filled.documents, List.range_succ, List.map_append]
    rfl

theorem sum_lengths (rows : List DocumentRow) (long : ∀ row ∈ rows, row.content = longText) :
    (rows.map fun row => (byteLength row.content : Int)).sum = rows.length * 4194304 := by
  induction rows with
  | nil => rfl
  | cons row rows ih =>
    obtain ⟨first, others⟩ := List.forall_mem_cons.mp long
    rw [List.map_cons, List.sum_cons, ih others, first, byteLength_longText, List.length_cons]
    push_cast
    ring

/-- The first source of a store can be excluded before it ever came. -/
theorem exists_exclusion {source : Uuid} (named : source ≠ ⟨0⟩)
    (manual : db.folderBacked vault = false) (known : (db.vaults.lookup vault).isSome)
    (empty : db.intake = Table.empty) (unheld : db.held? (intakeId sha256 vault source) = none) :
    ∃ taken, vaultIntakeItem sha256 formats db vault ⟨source, 1, .excluded⟩ = .ok taken := by
  let receipt := IntakeItem.receipt sha256 ⟨source, 1, .excluded⟩ vault none
  have rows : db.intake.rows = [] := by
    rw [empty]
    rfl
  have fresh : db.intake.rows.find? (fun row => row.vaultId = vault ∧ row.sourceId = source) =
      none := by
    rw [rows]
    rfl
  have few : db.intake.rows.countP (·.vaultId = vault) < 10000 := by
    rw [rows]
    exact Nat.zero_lt_succ _
  have recorded : ∃ next,
      (db.deleteDocument vault (intakeId sha256 vault source)).recordIntake receipt = .ok next := by
    have absent : ¬ (db.deleteDocument vault (intakeId sha256 vault source)).intake.rows.any
        (fun row => row.vaultId = receipt.vaultId && row.sourceId = receipt.sourceId) = true := by
      change ¬ db.intake.rows.any _ = true
      rw [rows]
      exact Bool.false_ne_true
    have fits : db.intake.Fits receipt := by
      rw [Table.Fits, rows]
      exact fun _ member => absurd member List.not_mem_nil
    obtain ⟨intake, inserted, _⟩ := Table.exists_insert? fits
    refine ⟨{ db.deleteDocument vault (intakeId sha256 vault source) with intake }, ?_⟩
    rw [VaultDb.recordIntake, if_neg absent]
    refine bind_eq_ok_iff.mpr ⟨(), require_eq_ok_iff.mpr known, ?_⟩
    exact bind_eq_ok_iff.mpr ⟨intake, orFail_eq_ok_iff.mpr inserted, rfl⟩
  obtain ⟨next, recorded⟩ := recorded
  unfold VaultDb.held? at unheld
  refine ⟨(next, ⟨intakeId sha256 vault source, none, false⟩), ?_⟩
  refine bind_eq_ok_iff.mpr ⟨(), require_eq_ok_iff.mpr ⟨Int.one_pos, named⟩, ?_⟩
  refine bind_eq_ok_iff.mpr ⟨none, rfl, ?_⟩
  unfold vaultIntake
  refine bind_eq_ok_iff.mpr ⟨(), require_eq_ok_iff.mpr ⟨Int.one_pos, named⟩, ?_⟩
  refine bind_eq_ok_iff.mpr ⟨(), require_eq_ok_iff.mpr (Bool.eq_false_iff.mp manual), ?_⟩
  simp only [fresh, unheld]
  refine bind_eq_ok_iff.mpr ⟨(), require_eq_ok_iff.mpr ⟨rfl, fun _ member => by cases member⟩, ?_⟩
  refine bind_eq_ok_iff.mpr ⟨(), require_eq_ok_iff.mpr (fun _ member => by cases member), ?_⟩
  refine bind_eq_ok_iff.mpr ⟨(), require_eq_ok_iff.mpr fun _ => few, ?_⟩
  refine bind_eq_ok_iff.mpr ⟨_, rfl, ?_⟩
  exact bind_eq_ok_iff.mpr ⟨next, recorded, rfl⟩

theorem submission_intake (host : IntakeHost) (vault : Uuid) (item : IntakeItem) :
    host.submission? sha256 (.intake vault item) = some (vault, item) := rfl

/-- The exclusion is accepted, in a vault that is larger than intake would make it. -/
theorem exists_excluded (sha256 : Text → Text) (formats : DateFormats) :
    ∃ receipt, Accepts sha256 formats (excludedLast sha256) 18 1 ⟨1, 1, .excluded⟩ receipt ∧
      maxBytes < (intakeHostAt sha256 formats (excludedLast sha256) 19).db.vaultBytes 1 := by
  have filled : Filled sha256 formats
      (intakeHostAt sha256 formats (excludedLast sha256) 18).db 17 :=
    filled_intakeHostAt sha256 formats 17 le_rfl
  have present : (excludedLast sha256)[18]? = some ⟨.intake 1 ⟨1, 1, .excluded⟩, 0⟩ := by
    rw [excludedLast, List.getElem?_append_right (by simp)]
    simp
  have submits : Submits sha256 formats (excludedLast sha256) 18 1 ⟨1, 1, .excluded⟩ :=
    ⟨_, present, submission_intake _ 1 _⟩
  have apart : ∀ row ∈ (intakeHostAt sha256 formats (excludedLast sha256) 18).db.documents.rows,
      row.id ≠ intakeId sha256 1 1 ∧ row.vaultId = 1 ∧ row.content = longText := by
    intro row member
    rw [filled.documents] at member
    obtain ⟨count, _, rfl⟩ := List.mem_map.mp member
    refine ⟨fun same => ?_, rfl, rfl⟩
    have values := congrArg Uuid.value same
    simp only [noteRow, noteId] at values
    omega
  have manual : (intakeHostAt sha256 formats (excludedLast sha256) 18).db.folderBacked 1 =
      false := by
    rw [VaultDb.folderBacked, filled.sources]
    rfl
  obtain ⟨taken, answer⟩ : ∃ taken,
      intakeAnswer sha256 formats (excludedLast sha256) 18 1 ⟨1, 1, .excluded⟩ = .ok taken :=
    exists_exclusion (by decide) manual filled.known filled.intake
      (VaultDb.held?_eq_none_iff.mpr fun row member => (apart row member).1)
  rcases effect_of_submits submits with ⟨error, refused, _⟩ | ⟨receipt, accepts⟩
  · rw [answer] at refused
    cases refused
  refine ⟨receipt, accepts, ?_⟩
  cases accepts.intaken with
  | kept row found generation print same given =>
    have stored := (VaultDb.receipt?_eq_some_iff.mp found).1
    rw [filled.intake] at stored
    cases stored
  | stored prepared? taken given =>
    obtain rfl : none = prepared? := Except.ok.inj taken.prepared
    obtain ⟨written, wrote, recorded⟩ := taken.wrote
    have documents : (intakeHostAt sha256 formats (excludedLast sha256) 19).db.documents =
        written.documents := by rw [recorded.rest]
    have same : written.documents.rows.Perm
        (intakeHostAt sha256 formats (excludedLast sha256) 18).db.documents.rows := by
      refine (List.perm_ext_iff_of_nodup (nodup_documents _) (nodup_documents _)).mpr fun row => ?_
      rw [wrote.rows]
      simp only [Option.mem_def, reduceCtorEq, false_and, exists_false, false_or]
      exact ⟨And.left, fun member => ⟨member, (apart row member).1⟩⟩
    have all : (intakeHostAt sha256 formats (excludedLast sha256) 18).db.documents.rows.filter
        (fun row => row.vaultId = 1) =
          (intakeHostAt sha256 formats (excludedLast sha256) 18).db.documents.rows :=
      List.filter_eq_self.mpr fun row member => decide_eq_true (apart row member).2.1
    rw [VaultDb.vaultBytes, documents, ((same.filter _).map _).sum_eq, all,
      sum_lengths _ fun row member => (apart row member).2.2, filled.documents, List.length_map,
      List.length_range]
    decide

end Limits

section Excess

def labNote : IntakeItem := ⟨1, 1, .knowledge "Notes".toList "Lab".toList none "text".toList⟩

/-- A source is taken in, its document edited by hand, and the source handed in again. -/
def retriedAfterEdit : List IntakeEvent :=
  [⟨.edit (.create 1 "Notes") rfl, 0⟩, ⟨.intake 1 labNote, 0⟩,
    ⟨.edit (.put 1 (intakeId id 1 1) "n.md".toList [] "edited".toList) rfl, 0⟩,
    ⟨.intake 1 labNote, 0⟩]

/-- An accepted exclusion leaves more in the vault than intake would put there, and the same item is
refused once its document was edited. -/
theorem intake_limits :
    (¬ ∀ (sha256 : Text → Text) (formats : DateFormats) (events : List IntakeEvent) (moment : Nat)
        (vault : Uuid) (item : IntakeItem) (receipt : IntakeReceipt),
      Accepts sha256 formats events moment vault item receipt →
        (intakeHostAt sha256 formats events (moment + 1)).db.vaultBytes vault ≤ maxBytes) ∧
    ¬ ∀ (sha256 : Text → Text) (formats : DateFormats) (events : List IntakeEvent)
        (earlier later : Nat) (vault : Uuid) (item : IntakeItem) (receipt : IntakeReceipt),
      earlier < later → Accepts sha256 formats events earlier vault item receipt →
        Submits sha256 formats events later vault item →
        ∃ receipt', Accepts sha256 formats events later vault item receipt' ∧
          receipt'.documentId = receipt.documentId ∧ receipt'.revision = receipt.revision := by
  constructor
  · intro within
    obtain ⟨receipt, accepts, large⟩ := exists_excluded id noDates
    exact absurd (within _ _ _ _ _ _ _ accepts) (not_le.mpr large)
  · intro same
    have first : Submits id noDates retriedAfterEdit 1 1 labNote :=
      ⟨⟨.intake 1 labNote, 0⟩, rfl, submission_intake _ 1 _⟩
    have second : Submits id noDates retriedAfterEdit 3 1 labNote :=
      ⟨⟨.intake 1 labNote, 0⟩, rfl, submission_intake _ 1 _⟩
    have taken : (intakeAnswer id noDates retriedAfterEdit 1 1 labNote).toOption.isSome = true := by
      decide +kernel
    have refused :
        (intakeAnswer id noDates retriedAfterEdit 3 1 labNote).toOption.isSome = false := by
      decide +kernel
    rcases effect_of_submits first with ⟨error, answer, _⟩ | ⟨receipt, accepts⟩
    · rw [answer] at taken
      cases taken
    · obtain ⟨receipt', accepts', _⟩ := same _ _ _ 1 3 1 labNote receipt (by decide) accepts second
      rw [accepts'.answer] at refused
      cases refused

end Excess

end OHHive.Vault
