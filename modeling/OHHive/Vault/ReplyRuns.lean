import OHHive.Vault.SavedReplies

/-! Saves of replies among edits, archivings, removals and everything else that happens to the
library and to the conversations. -/

namespace OHHive.Vault

open Bots (Conversation Message MessageId)
open Foundation

section Steps

variable {texts : ReplyTexts} {formats : DateFormats} {hub next : ReplyHub} {call : ReplySave}
  {document : VaultDocument}

/-- Messages stay as they are, and conversations with their owners. -/
structure ReplyHub.Keeps (hub next : ReplyHub) : Prop where
  messages : ∀ {id : MessageId} {row : Message}, hub.chats.message? id = some row →
    next.chats.message? id = some row
  conversations : ∀ {id : Bots.ConversationId} {conversation : Conversation},
    hub.chats.conversation? id = some conversation → next.chats.conversation? id = some conversation

theorem keeps_of_chats (same : next.chats = hub.chats) : hub.Keeps next := by
  constructor
  · intro id row found
    rw [same]
    exact found
  · intro id conversation found
    rw [same]
    exact found

theorem keeps_post (message : Message) :
    hub.Keeps (hub.step texts formats (.post message)) := by
  cases done : hub.chats.insertMessage message with
  | error error =>
    apply keeps_of_chats
    simp only [ReplyHub.step, done]
    rfl
  | ok chats =>
    have same : (hub.step texts formats (.post message)).chats = chats := by
      simp only [ReplyHub.step, done]
      rfl
    obtain ⟨_, _, done⟩ := bind_eq_ok_iff.mp done
    obtain ⟨_, _, done⟩ := bind_eq_ok_iff.mp done
    obtain ⟨messages, inserted, done⟩ := bind_eq_ok_iff.mp done
    obtain rfl := pure_eq_ok_iff.mp done
    constructor
    · intro id row found
      rw [same]
      change messages.rows.find? _ = some row
      rw [Table.rows_of_insert? (orFail_eq_ok_iff.mp inserted), List.find?_append]
      change (hub.chats.message? id).or _ = some row
      rw [found]
      rfl
    · intro id conversation found
      rw [same]
      exact found

theorem keeps_converse (conversation : Conversation) :
    hub.Keeps (hub.step texts formats (.converse conversation)) := by
  constructor
  · intro id row found
    exact found
  · intro id stored found
    change ((hub.chats.conversations.insert? conversation).getD hub.chats.conversations).lookup id =
      some stored
    cases inserted : hub.chats.conversations.insert? conversation with
    | none => exact found
    | some conversations => exact Table.lookup_insert?_of_some inserted found

theorem saved_of_outcome (done : hub.outcome texts call = .ok (next, document)) :
    hub.botsLibrarySave texts call = .ok (next, document) := by
  obtain ⟨_, saved, finished⟩ := bind_eq_ok_iff.mp done
  obtain ⟨_, _, finished⟩ := bind_eq_ok_iff.mp finished
  cases pure_eq_ok_iff.mp finished
  exact saved

theorem step_of_outcome (formats : DateFormats)
    (done : hub.outcome texts call = .ok (next, document)) :
    hub.step texts formats (.save call) = next := by
  change ((hub.outcome texts call).map Prod.fst).toOption.getD hub = next
  rw [done]
  rfl

theorem rest_of_outcome {error : HubError} (failed : hub.outcome texts call = .error error) :
    hub.step texts formats (.save call) = hub := by
  change ((hub.outcome texts call).map Prod.fst).toOption.getD hub = hub
  rw [failed]
  rfl

/-- A repeated save: the document as it is now, and nothing is written. -/
structure RepeatedSave (hub : ReplyHub) (call : ReplySave) (admission : Admission)
    (next : ReplyHub) (document : VaultDocument) : Prop where
  admitted : Admitted hub call admission
  unchanged : next = hub
  current : ∃ save ∈ hub.library.saves.rows, save.message = call.message ∧
    save.vault = call.vault ∧ ∃ row ∈ hub.library.db.documents.rows,
      row.id = save.document ∧ document = row.toVaultDocument

theorem answer_eq {row : DocumentRow} {vault : Uuid} (own : row.vaultId = vault) :
    row.answer vault = row.toVaultDocument := by
  rw [DocumentRow.answer, ← own]

/-- A save that succeeds was admitted, and is the first one or a repetition. -/
theorem save_cases (sound : hub.Sound) (done : hub.outcome texts call = .ok (next, document)) :
    ∃ admission, FirstSave texts hub call admission next document ∧ next.library.Sound ∨
      RepeatedSave hub call admission next document := by
  have saved := saved_of_outcome done
  obtain ⟨admission, checked, saved⟩ := bind_eq_ok_iff.mp saved
  obtain ⟨_, admitted⟩ := admit_eq_ok_iff.mp checked
  refine ⟨admission, ?_⟩
  cases found : hub.saved? admission.owner call.message call.vault with
  | none =>
    rw [found] at saved
    exact Or.inl (firstSave_of_store sound admitted found saved)
  | some row =>
    rw [found] at saved
    obtain ⟨rfl, rfl⟩ := Prod.mk.inj (pure_eq_ok_iff.mp saved)
    obtain ⟨save, member, message, vault, stored, named⟩ := receipt_of_saved? found
    obtain ⟨other, kept, same, own⟩ := sound.stays member
    have alike := hub.library.db.eq_of_id stored kept (named.trans same.symm)
    refine Or.inr ⟨admitted, rfl, save, member, message, vault, row, stored, named, ?_⟩
    exact answer_eq ((congrArg (fun row => row.vaultId) alike).trans (own.trans vault))

/-- A repetition that passes the checks is answered. -/
theorem outcome_of_saved (sound : hub.Sound) {admission : Admission} {save : LibrarySave}
    (titled : checkText call.title 200 = .ok ()) (admitted : Admitted hub call admission)
    (steady : call.interrupted = false) (member : save ∈ hub.library.saves.rows)
    (message : save.message = call.message) (vault : save.vault = call.vault) :
    ∃ row ∈ hub.library.db.documents.rows, row.id = save.document ∧
      hub.outcome texts call = .ok (hub, row.toVaultDocument) := by
  obtain ⟨row, stored, named, own, found⟩ :=
    sound.saved?_eq_some admitted member message vault
  refine ⟨row, stored, named, ?_⟩
  have done : hub.botsLibrarySave texts call = .ok (hub, row.toVaultDocument) := by
    refine bind_eq_ok_iff.mpr ⟨admission, admit_eq_ok_iff.mpr ⟨titled, admitted⟩, ?_⟩
    rw [found, ← answer_eq own]
    rfl
  refine bind_eq_ok_iff.mpr ⟨_, done, ?_⟩
  exact bind_eq_ok_iff.mpr ⟨(), require_eq_ok_iff.mpr steady, rfl⟩

theorem ReplyHub.Sound.of_keeps (sound : hub.Sound) (keeps : hub.Keeps next)
    (library : next.library.Sound)
    (saves : next.library.saves.rows ⊆ hub.library.saves.rows) : next.Sound := by
  refine ⟨library, ?_⟩
  intro save member
  obtain ⟨row, found, conversation, known, own⟩ := sound.owned save (saves member)
  exact ⟨row, keeps.messages found, conversation, keeps.conversations known, own⟩

/-- A transaction on the library, whether it succeeds or not. -/
theorem library_step {library : Library} {event : LibraryEvent} (sound : library.Sound)
    (other : event.op.savesReply = false) :
    (library.step texts.sha256 formats event).Sound ∧
      (library.step texts.sha256 formats event).saves.rows ⊆ library.saves.rows := by
  unfold Library.step
  cases done : event.reply texts.sha256 formats library with
  | error error => exact ⟨sound, List.Subset.refl _⟩
  | ok next => exact ⟨sound.reply done, saves_of_reply other done⟩

/-- A receipt that a step adds is that of a first save. -/
theorem receipts_step (sound : hub.Sound) {event : ReplyEvent} {save : LibrarySave}
    (member : save ∈ (hub.step texts formats event).library.saves.rows) :
    save ∈ hub.library.saves.rows ∨ ∃ call admission document, event = .save call ∧
      FirstSave texts hub call admission (hub.step texts formats event) document ∧
      save = replyReceipt call admission := by
  cases event with
  | save call =>
    cases done : hub.outcome texts call with
    | error error =>
      rw [rest_of_outcome done] at member
      exact Or.inl member
    | ok result =>
      obtain ⟨next, document⟩ := result
      have step : hub.step texts formats (.save call) = next := step_of_outcome formats done
      rw [step] at member ⊢
      obtain ⟨admission, ⟨first, _⟩ | repeated⟩ := save_cases sound done
      · rw [first.receipt] at member
        rcases List.mem_append.mp member with old | new
        · exact Or.inl old
        · exact Or.inr ⟨call, admission, document, rfl, first, List.mem_singleton.mp new⟩
      · rw [repeated.unchanged] at member
        exact Or.inl member
  | library event other => exact Or.inl ((library_step sound.library other).2 member)
  | _ => exact Or.inl member

theorem sound_step (sound : hub.Sound) (event : ReplyEvent) :
    (hub.step texts formats event).Sound := by
  cases event with
  | save call =>
    cases done : hub.outcome texts call with
    | error error =>
      rw [rest_of_outcome done]
      exact sound
    | ok result =>
      obtain ⟨next, document⟩ := result
      have step : hub.step texts formats (.save call) = next := step_of_outcome formats done
      rw [step]
      obtain ⟨admission, ⟨first, library⟩ | repeated⟩ := save_cases sound done
      · have chats : next.chats = hub.chats := by rw [first.rest]
        refine ⟨library, ?_⟩
        intro save member
        rw [first.receipt] at member
        rw [chats]
        rcases List.mem_append.mp member with old | new
        · exact sound.owned save old
        · rw [List.mem_singleton.mp new]
          exact ⟨admission.row, first.admitted.row, first.admitted.conversation⟩
      · rw [repeated.unchanged]
        exact sound
  | library event other =>
    have kept : (hub.library.step texts.sha256 formats event).Sound ∧
        (hub.library.step texts.sha256 formats event).saves.rows ⊆ hub.library.saves.rows :=
      library_step sound.library other
    exact sound.of_keeps (keeps_of_chats rfl) kept.1 kept.2
  | post message => exact sound.of_keeps (keeps_post message) sound.library (List.Subset.refl _)
  | converse conversation =>
    exact sound.of_keeps (keeps_converse conversation) sound.library (List.Subset.refl _)
  | staff agents members => exact sound.of_keeps ⟨id, id⟩ sound.library (List.Subset.refl _)
  | revise message => exact sound.of_keeps ⟨id, id⟩ sound.library (List.Subset.refl _)
  | own owners => exact sound.of_keeps ⟨id, id⟩ sound.library (List.Subset.refl _)

end Steps

section Runs

variable (texts : ReplyTexts) (formats : DateFormats) (events : List ReplyEvent)

theorem sound_replyHubAt (moment : Nat) : (replyHubAt texts formats events moment).Sound := by
  have start : ReplyHub.empty.Sound := ⟨.start, nofun⟩
  exact stateAt_invariant (ReplyHub.step texts formats) .empty events ReplyHub.Sound start
    (fun hub event _ sound => sound_step sound event) moment

/-- At this moment a call writes the receipt, with the document of its reply. -/
def WritesReceipt (moment : Nat) (save : LibrarySave) : Prop :=
  ∃ call admission document, events[moment]? = some (.save call) ∧
    FirstSave texts (replyHubAt texts formats events moment) call admission
      (replyHubAt texts formats events (moment + 1)) document ∧
    save = replyReceipt call admission

variable {texts formats events} {moment : Nat}

theorem writes_of_receipt {save : LibrarySave}
    (member : save ∈ (replyHubAt texts formats events moment).library.saves.rows) :
    ∃ earlier < moment, WritesReceipt texts formats events earlier save := by
  induction moment with
  | zero => cases member
  | succ moment ih =>
    have kept (member : save ∈ (replyHubAt texts formats events moment).library.saves.rows) :
        ∃ earlier < moment + 1, WritesReceipt texts formats events earlier save := by
      obtain ⟨earlier, before, writes⟩ := ih member
      exact ⟨earlier, Nat.lt_succ_of_lt before, writes⟩
    rcases stateAt_next (ReplyHub.step texts formats) .empty events moment with
      ⟨event, present, step⟩ | ⟨_, step⟩
    · have same : replyHubAt texts formats events (moment + 1) =
          (replyHubAt texts formats events moment).step texts formats event := step
      rw [same] at member
      rcases receipts_step (sound_replyHubAt texts formats events moment) member with
        old | ⟨call, admission, document, rfl, first, receipt⟩
      · exact kept old
      · refine ⟨moment, Nat.lt_succ_self moment, call, admission, document, present, ?_, receipt⟩
        rw [same]
        exact first
    · rw [replyHubAt, step] at member
      exact kept member

variable (texts formats events) in
/-- What a run of saves among all other changes keeps to. -/
structure FaithfulReplies : Prop where
  single : ∀ moment message vault,
    (replyHubAt texts formats events moment).library.saves.rows.countP
      (fun save => save.message = message ∧ save.vault = vault) ≤ 1
  held : ∀ moment, ∀ save ∈ (replyHubAt texts formats events moment).library.saves.rows,
    ∃ row ∈ (replyHubAt texts formats events moment).library.db.documents.rows,
      row.id = save.document ∧ row.vaultId = save.vault
  /-- A call that is answered saves the reply of the transcript, or returns what became of it. -/
  answered : ∀ {moment call next document}, events[moment]? = some (.save call) →
    (replyHubAt texts formats events moment).outcome texts call = .ok (next, document) →
    next = replyHubAt texts formats events (moment + 1) ∧ ∃ admission,
      FirstSave texts (replyHubAt texts formats events moment) call admission next document ∨
        RepeatedSave (replyHubAt texts formats events moment) call admission next document
  repeated : ∀ {moment call admission save}, events[moment]? = some (.save call) →
    save ∈ (replyHubAt texts formats events moment).library.saves.rows →
    save.message = call.message → save.vault = call.vault →
    checkText call.title 200 = .ok () →
    Admitted (replyHubAt texts formats events moment) call admission → call.interrupted = false →
    ∃ row ∈ (replyHubAt texts formats events moment).library.db.documents.rows,
      row.id = save.document ∧
      (replyHubAt texts formats events moment).outcome texts call =
        .ok (replyHubAt texts formats events moment, row.toVaultDocument)
  /-- Every receipt was written by a first save. -/
  origin : ∀ {moment}, ∀ save ∈ (replyHubAt texts formats events moment).library.saves.rows,
    ∃ earlier < moment, WritesReceipt texts formats events earlier save
  failed : ∀ {moment call error}, events[moment]? = some (.save call) →
    (replyHubAt texts formats events moment).outcome texts call = .error error →
    replyHubAt texts formats events (moment + 1) = replyHubAt texts formats events moment

end Runs

end OHHive.Vault
