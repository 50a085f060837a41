import OHHive.Vault.ReplySaves

/-! A saved reply is one document that holds what the transcript says. Its receipt stays with it,
and only the first save of a reply into a collection writes anything. -/

namespace OHHive.Vault

open Bots (AgentProfile Message MessageId UserId)
open Foundation

section Checks

variable {hub : ReplyHub} {call : ReplySave} {admission : Admission} {owner : UserId}
  {message : MessageId} {row : Message} {profile : AgentProfile}

theorem sourceReply_eq_some_iff : hub.sourceReply owner message = some (row, profile) ↔
    hub.chats.message? message = some row ∧
      (∃ conversation, hub.chats.conversation? row.conversationId = some conversation ∧
        conversation.owner = owner) ∧
      row.author = .agent profile.id ∧ hub.chats.agent? profile.id = some profile ∧
      profile.owner = owner ∧ row.kind = .text := by
  rw [ReplyHub.sourceReply, Option.bind_eq_some_iff]
  constructor
  · intro ⟨stored, found, rest⟩
    obtain ⟨conversation, known, rest⟩ := Option.bind_eq_some_iff.mp rest
    cases author : stored.author with
    | user id =>
      rw [author] at rest
      cases rest
    | agent id =>
      rw [author] at rest
      obtain ⟨agent, named, rest⟩ := Option.bind_eq_some_iff.mp rest
      split at rest
      · rename_i own
        obtain ⟨rfl, rfl⟩ := Prod.mk.inj (Option.some.inj rest)
        obtain rfl : agent.id = id := by
          have same := Table.key_of_lookup named
          exact same
        exact ⟨found, ⟨conversation, known, own.1⟩, author, named, own.2.1, own.2.2⟩
      · cases rest
  · intro ⟨found, ⟨conversation, known, own⟩, author, named, mine, text⟩
    refine ⟨row, found, Option.bind_eq_some_iff.mpr ⟨conversation, known, ?_⟩⟩
    rw [author]
    refine Option.bind_eq_some_iff.mpr ⟨profile, named, ?_⟩
    exact if_pos ⟨own, mine, text⟩

/-- What authorizes a save: the computer and its owner, the collection, and the reply. -/
structure Admitted (hub : ReplyHub) (call : ReplySave) (admission : Admission) : Prop where
  node : call.caller = .ok admission.node
  owner : hub.owners admission.node = some admission.owner
  granted : (call.vault, admission.node) ∈ hub.library.catalog.readers
  ready : ∃ info, hub.library.db.vaults.lookup call.vault = some info ∧ info.state = .ready
  manual : hub.library.db.sources.lookup call.vault = none
  row : hub.chats.message? call.message = some admission.row
  text : admission.row.kind = .text
  body : admission.row.body = some admission.body
  author : admission.row.author = .agent admission.profile.id
  profile : hub.chats.agent? admission.profile.id = some admission.profile
  employer : admission.profile.owner = admission.owner
  conversation : ∃ conversation,
    hub.chats.conversation? admission.row.conversationId = some conversation ∧
      conversation.owner = admission.owner
  reads : ∃ member,
    hub.chats.member? admission.row.conversationId (.user admission.owner) = some member ∧
      .read ∈ member.allowedActions
  unrevised : call.message ∉ hub.revised

theorem takesSaves_iff {db : VaultDb} {vault : Uuid} : db.takesSaves vault = true ↔
    (∃ info, db.vaults.lookup vault = some info ∧ info.state = .ready) ∧
      db.sources.lookup vault = none := by
  rw [VaultDb.takesSaves, Bool.and_eq_true, Option.any_eq_true, VaultDb.folderBacked,
    Bool.not_eq_true', Option.isSome_eq_false_iff, Option.isNone_iff_eq_none]
  refine and_congr_left fun _ => exists_congr fun info => ?_
  rw [decide_eq_true_eq]

theorem ownerReads_iff {conversation : Bots.ConversationId} :
    hub.ownerReads owner conversation = true ↔
      ∃ member, hub.chats.member? conversation (.user owner) = some member ∧
        .read ∈ member.allowedActions := by
  rw [ReplyHub.ownerReads, Option.any_eq_true]
  refine exists_congr fun member => and_congr_right fun _ => ?_
  rw [List.contains_iff_mem]

theorem admit_eq_ok_iff : hub.admit call = .ok admission ↔
    checkText call.title 200 = .ok () ∧ Admitted hub call admission := by
  constructor
  · intro done
    obtain ⟨_, titled, done⟩ := bind_eq_ok_iff.mp done
    obtain ⟨node, authentic, done⟩ := bind_eq_ok_iff.mp done
    obtain ⟨owner, confirmed, done⟩ := bind_eq_ok_iff.mp done
    obtain ⟨_, allowed, done⟩ := bind_eq_ok_iff.mp done
    obtain ⟨⟨row, profile⟩, source, done⟩ := bind_eq_ok_iff.mp done
    obtain ⟨body, written, done⟩ := bind_eq_ok_iff.mp done
    obtain ⟨_, reads, done⟩ := bind_eq_ok_iff.mp done
    obtain ⟨_, unrevised, done⟩ := bind_eq_ok_iff.mp done
    obtain rfl := pure_eq_ok_iff.mp done
    obtain ⟨granted, open'⟩ := require_eq_ok_iff.mp allowed
    obtain ⟨ready, manual⟩ := takesSaves_iff.mp open'
    obtain ⟨found, room, author, named, own, text⟩ :=
      sourceReply_eq_some_iff.mp (orFail_eq_ok_iff.mp source)
    exact ⟨titled, authentic, orFail_eq_ok_iff.mp confirmed, granted, ready, manual, found, text,
      orFail_eq_ok_iff.mp written, author, named, own, room,
      ownerReads_iff.mp (require_eq_ok_iff.mp reads), require_eq_ok_iff.mp unrevised⟩
  · intro ⟨titled, admitted⟩
    have source : hub.sourceReply admission.owner call.message =
        some (admission.row, admission.profile) :=
      sourceReply_eq_some_iff.mpr ⟨admitted.row, admitted.conversation, admitted.author,
        admitted.profile, admitted.employer, admitted.text⟩
    have allowed := takesSaves_iff.mpr ⟨admitted.ready, admitted.manual⟩
    refine bind_eq_ok_iff.mpr ⟨(), titled, ?_⟩
    refine bind_eq_ok_iff.mpr ⟨admission.node, admitted.node, ?_⟩
    refine bind_eq_ok_iff.mpr ⟨admission.owner, orFail_eq_ok_iff.mpr admitted.owner, ?_⟩
    refine bind_eq_ok_iff.mpr ⟨(), require_eq_ok_iff.mpr ⟨admitted.granted, allowed⟩, ?_⟩
    refine bind_eq_ok_iff.mpr ⟨_, orFail_eq_ok_iff.mpr source, ?_⟩
    refine bind_eq_ok_iff.mpr ⟨admission.body, orFail_eq_ok_iff.mpr admitted.body, ?_⟩
    refine bind_eq_ok_iff.mpr
      ⟨(), require_eq_ok_iff.mpr (ownerReads_iff.mpr admitted.reads), ?_⟩
    exact bind_eq_ok_iff.mpr ⟨(), require_eq_ok_iff.mpr admitted.unrevised, rfl⟩

end Checks

section Receipts

variable {sha256 : Text → Text} {formats : DateFormats} {library next : Library}

theorem saves_write (library : Library) (now : Int) (db : VaultDb) :
    (library.write now db).saves.rows ⊆ library.saves.rows := List.filter_sublist.subset

theorem saves_writes (library : Library) (now : Int) (between : List VaultDb) :
    (between.foldl (Library.write · now) library).saves.rows ⊆ library.saves.rows := by
  induction between generalizing library with
  | nil => exact List.Subset.refl _
  | cons db between ih => exact List.Subset.trans (ih _) (saves_write library now db)

theorem saves_vaultDelete {vault : Uuid} {now : Int}
    (done : library.vaultDelete vault now = .ok next) :
    next.saves.rows ⊆ library.saves.rows := by
  obtain ⟨_, _, done⟩ := bind_eq_ok_iff.mp done
  obtain ⟨_, _, done⟩ := bind_eq_ok_iff.mp done
  obtain rfl := pure_eq_ok_iff.mp done
  exact List.Subset.trans List.filter_sublist.subset (saves_write library now _)

theorem saves_createProject {project vault : Uuid} {title goal : String} {now : Int}
    (done : library.createProject project vault title goal now = .ok next) :
    next.saves.rows ⊆ library.saves.rows := by
  obtain ⟨_, _, done⟩ := bind_eq_ok_iff.mp done
  obtain ⟨_, _, done⟩ := bind_eq_ok_iff.mp done
  obtain ⟨_, _, done⟩ := bind_eq_ok_iff.mp done
  obtain ⟨_, _, done⟩ := bind_eq_ok_iff.mp done
  obtain ⟨_, _, done⟩ := bind_eq_ok_iff.mp done
  obtain rfl := pure_eq_ok_iff.mp done
  exact saves_write library now _

theorem saves_findings {agent message vault node document : Uuid} {generation now : Int}
    {payload content : Text} {title : String} {date : Option Int}
    (done : library.save sha256 (.findings agent message generation payload) vault node document
      title content date now = .ok next) : next.saves.rows ⊆ library.saves.rows := by
  obtain ⟨_, _, done⟩ := bind_eq_ok_iff.mp done
  obtain ⟨_, _, done⟩ := bind_eq_ok_iff.mp done
  obtain ⟨saved, _, done⟩ := bind_eq_ok_iff.mp done
  split at done
  · obtain rfl := pure_eq_ok_iff.mp done
    exact List.Subset.refl _
  · obtain ⟨db, _, done⟩ := bind_eq_ok_iff.mp done
    obtain ⟨_, _, done⟩ := bind_eq_ok_iff.mp done
    obtain rfl := pure_eq_ok_iff.mp done
    exact saves_write library now db

/-- Every other transaction on the library adds no receipt of a reply. -/
theorem saves_of_reply {event : LibraryEvent} (other : event.op.savesReply = false)
    (done : event.reply sha256 formats library = .ok next) :
    next.saves.rows ⊆ library.saves.rows := by
  obtain ⟨op, now⟩ := event
  cases op with
  | vault op =>
    by_cases deletes : ∃ vault, op = .delete vault
    · obtain ⟨vault, rfl⟩ := deletes
      exact saves_vaultDelete done
    · have adopted : library.adopt now <$>
          CatalogEvent.reply sha256 formats ⟨op, now⟩ library.catalog = .ok next := by
        cases op with
        | delete vault => exact absurd ⟨vault, rfl⟩ deletes
        | _ => exact done
      obtain ⟨catalog, _, rfl⟩ := map_eq_ok_iff.mp adopted
      exact List.filter_sublist.subset
  | write write =>
    obtain ⟨⟨between, db⟩, _, rfl⟩ := map_eq_ok_iff.mp done
    exact List.Subset.trans (saves_write _ now db) (saves_writes library now between)
  | claim token =>
    obtain ⟨⟨db, claim?⟩, _, rfl⟩ := map_eq_ok_iff.mp done
    exact saves_write library now db
  | publish claim scan =>
    obtain ⟨⟨db, result?⟩, _, rfl⟩ := map_eq_ok_iff.mp done
    exact saves_write library now db
  | pair node =>
    obtain ⟨_, _, done⟩ := bind_eq_ok_iff.mp done
    obtain rfl := pure_eq_ok_iff.mp done
    exact List.Subset.refl _
  | revoke node =>
    obtain rfl := Except.ok.inj done
    exact List.Subset.refl _
  | reconcileGrants =>
    obtain rfl := Except.ok.inj done
    exact List.Subset.refl _
  | createProject project vault title goal => exact saves_createProject done
  | save origin vault node document title content date =>
    cases origin with
    | reply message owner node => cases other
    | findings agent message generation payload => exact saves_findings done

end Receipts

section Saves

variable {texts : ReplyTexts} {hub next : ReplyHub} {call : ReplySave} {admission : Admission}
  {document : VaultDocument} {sources : List Json}

/-- The receipts lead to documents of their collections, and to messages of their owners. -/
structure ReplyHub.Sound (hub : ReplyHub) : Prop where
  library : hub.library.Sound
  owned : ∀ save ∈ hub.library.saves.rows, ∃ row,
    hub.chats.message? save.message = some row ∧ ∃ conversation,
      hub.chats.conversation? row.conversationId = some conversation ∧
        conversation.owner = save.owner

/-- What a first save writes: the document of the reply with its receipt, and nothing else. -/
structure FirstSave (texts : ReplyTexts) (hub : ReplyHub) (call : ReplySave) (admission : Admission)
    (next : ReplyHub) (document : VaultDocument) : Prop where
  admitted : Admitted hub call admission
  fresh : ∀ save ∈ hub.library.saves.rows, ¬ (save.message = call.message ∧ save.vault = call.vault)
  bounded : trim admission.body.toList ≠ [] ∧ Coder.byteLength admission.body.toList ≤ 65536
  written : ∃ sources, call.sources = .ok sources ∧
    document = (replyDocument texts call admission sources).toVaultDocument ∧
    next.library.db.documents.rows =
      hub.library.db.documents.rows ++ [replyDocument texts call admission sources]
  receipt : next.library.saves.rows = hub.library.saves.rows ++ [replyReceipt call admission]
  rest : next = { hub with library := next.library }

theorem ReplyHub.Sound.stays (sound : hub.Sound) {save : LibrarySave}
    (member : save ∈ hub.library.saves.rows) :
    ∃ row ∈ hub.library.db.documents.rows, row.id = save.document ∧ row.vaultId = save.vault :=
  sound.library.saved save member

/-- A receipt is found by its message and its vault. -/
theorem ReplyHub.Sound.saved?_eq_some (sound : hub.Sound) {save : LibrarySave}
    (admitted : Admitted hub call admission) (member : save ∈ hub.library.saves.rows)
    (message : save.message = call.message) (vault : save.vault = call.vault) :
    ∃ row ∈ hub.library.db.documents.rows, row.id = save.document ∧
      row.vaultId = call.vault ∧
      hub.saved? admission.owner call.message call.vault = some row := by
  obtain ⟨row, stored, named, own⟩ := sound.stays member
  refine ⟨row, stored, named, own.trans vault, ?_⟩
  have mine : save.owner = admission.owner := by
    obtain ⟨source, found, conversation, known, owned⟩ := sound.owned save member
    rw [message, admitted.row] at found
    obtain rfl := Option.some.inj found
    obtain ⟨other, room, holder⟩ := admitted.conversation
    rw [known] at room
    obtain rfl := Option.some.inj room
    exact owned.symm.trans holder
  have search : hub.library.saves.rows.find? (fun save =>
      save.message = call.message && save.vault = call.vault && save.owner = admission.owner) =
      some save := by
    cases found : hub.library.saves.rows.find? (fun save =>
        save.message = call.message && save.vault = call.vault &&
          save.owner = admission.owner) with
    | none =>
      have missed := List.find?_eq_none.mp found save member
      simp [message, vault, mine] at missed
    | some other =>
      have passed := List.find?_some found
      simp only [Bool.and_eq_true, decide_eq_true_eq] at passed
      have clash : LibrarySave.Clash other save :=
        Or.inl ⟨passed.1.1.trans message.symm, passed.1.2.trans vault.symm⟩
      have symmetric : ∀ earlier later, LibrarySave.Clash earlier later →
          LibrarySave.Clash later earlier := by
        intro earlier later clash
        exact clash.imp (fun both => ⟨both.1.symm, both.2.symm⟩) Eq.symm
      exact congrArg some (hub.library.saves.eq_of_clash symmetric
        (List.mem_of_find?_eq_some found) member clash)
  rw [ReplyHub.saved?, search, Option.bind_some]
  exact (find?_document hub.library.db save.document row).mpr ⟨stored, named⟩

/-- A found document has a receipt for the message and the vault. -/
theorem receipt_of_saved? {owner : UserId} {message : MessageId} {vault : Uuid} {row : DocumentRow}
    (found : hub.saved? owner message vault = some row) :
    ∃ save ∈ hub.library.saves.rows, save.message = message ∧ save.vault = vault ∧
      row ∈ hub.library.db.documents.rows ∧ row.id = save.document := by
  obtain ⟨save, search, held⟩ := Option.bind_eq_some_iff.mp found
  have passed := List.find?_some search
  simp only [Bool.and_eq_true, decide_eq_true_eq] at passed
  obtain ⟨stored, named⟩ := (find?_document hub.library.db save.document row).mp held
  exact ⟨save, List.mem_of_find?_eq_some search, passed.1.1, passed.1.2, stored, named⟩

/-- In a sound library every receipt survives a write that takes no document away. -/
theorem saves_write_of_subset {db : VaultDb} (now : Int) (sound : hub.Sound)
    (kept : hub.library.db.documents.rows ⊆ db.documents.rows) :
    (hub.library.write now db).saves.rows = hub.library.saves.rows := by
  refine List.filter_eq_self.mpr ?_
  intro save member
  obtain ⟨row, stored, named, _⟩ := sound.stays member
  exact List.any_eq_true.mpr ⟨row, kept stored, decide_eq_true named⟩

theorem firstSave_of_store (sound : hub.Sound) (admitted : Admitted hub call admission)
    (unsaved : hub.saved? admission.owner call.message call.vault = none)
    (done : hub.store texts call admission = .ok (next, document)) :
    FirstSave texts hub call admission next document ∧ next.library.Sound := by
  obtain ⟨_, bounded, done⟩ := bind_eq_ok_iff.mp done
  obtain ⟨sources, evidence, done⟩ := bind_eq_ok_iff.mp done
  obtain ⟨db, inserted, done⟩ := bind_eq_ok_iff.mp done
  obtain ⟨library, recorded, done⟩ := bind_eq_ok_iff.mp done
  obtain ⟨rfl, rfl⟩ := Prod.mk.inj (pure_eq_ok_iff.mp done)
  have rest := rest_of_insertDocument inserted
  obtain ⟨stored, own, named⟩ :=
    VaultDb.documentRow?_eq_some_iff.mp (VaultDb.documentRow?_of_insertDocument inserted)
  have keeps := Keeps.of_insertDocument inserted
  have kept : (hub.library.write call.now db).Sound := sound.library.write call.now keeps
  have after := kept.recordSave ⟨_, stored, named, own⟩ recorded
  have rows : db.documents.rows =
      hub.library.db.documents.rows ++ [replyDocument texts call admission sources] := by
    obtain ⟨_, _, inserted⟩ := bind_eq_ok_iff.mp inserted
    obtain ⟨documents, added, inserted⟩ := bind_eq_ok_iff.mp inserted
    rw [← pure_eq_ok_iff.mp inserted]
    exact Table.rows_of_insert? (orFail_eq_ok_iff.mp added)
  have standing : (hub.library.write call.now db).saves.rows = hub.library.saves.rows :=
    saves_write_of_subset call.now sound (rows ▸ List.subset_append_left _ _)
  obtain ⟨saves, receipted, recorded⟩ := bind_eq_ok_iff.mp recorded
  obtain rfl := pure_eq_ok_iff.mp recorded
  refine ⟨⟨admitted, ?_, require_eq_ok_iff.mp bounded, ⟨sources, evidence, rfl, rows⟩, ?_, rfl⟩,
    after⟩
  · intro save member ⟨message, vault⟩
    obtain ⟨row, _, _, _, found⟩ := sound.saved?_eq_some admitted member message vault
    rw [unsaved] at found
    cases found
  · have added := Table.rows_of_insert? (orFail_eq_ok_iff.mp receipted)
    rw [standing] at added
    exact added

end Saves

end OHHive.Vault
