import OHHive.Vault.Archive

/-! What archiving and expiry do to the archives of a vault: a snapshot goes only where the same
document is still there, and an archive fits the quota of its vault. -/

namespace OHHive.Vault

open Foundation

section Expiry

variable {db before after next : VaultDb} {vault : Uuid} {now cutoff : Int}

/-- A snapshot that may go: old enough, with the very same document in the vault. -/
structure Redundant (db : VaultDb) (vault : Uuid) (cutoff : Int) (archive : VaultArchive) :
    Prop where
  stored : db.archives.lookup archive.documentId = some archive
  own : archive.vaultId = vault
  aged : archive.archivedMs ≤ cutoff
  same : ∃ document, archive.snapshot = some document ∧
    db.document? vault archive.documentId = some document ∧
    document.revision = archive.revision

/-- Redundant snapshots are dropped; their archives stay, and so does all else. -/
structure Expiry (vault : Uuid) (cutoff : Int) (before after : VaultDb) : Prop where
  rest : after = { before with archives := after.archives, events := after.events }
  archives : ∀ id, after.archives.lookup id = before.archives.lookup id ∨
    ∃ archive, Redundant before vault cutoff archive ∧ archive.documentId = id ∧
      after.archives.lookup id = some { archive with snapshot := none }

theorem Expiry.refl (db : VaultDb) : Expiry vault cutoff db db := ⟨rfl, fun _ => Or.inl rfl⟩

theorem Expiry.document? (expiry : Expiry vault cutoff before after) (owner id : Uuid) :
    after.document? owner id = before.document? owner id := by
  rw [expiry.rest]
  rfl

theorem mem_expirable {archive : VaultArchive} (member : archive ∈ expirable db vault cutoff) :
    archive ∈ db.archives.rows ∧ archive.vaultId = vault ∧ archive.snapshot.isSome ∧
      archive.archivedMs ≤ cutoff ∧
      (db.document? vault archive.documentId).any (·.revision = archive.revision) := by
  have sorted := List.mem_of_mem_take member
  rw [List.mem_insertionSort, List.mem_filter] at sorted
  obtain ⟨stored, wanted⟩ := sorted
  simp only [Bool.and_eq_true, decide_eq_true_eq] at wanted
  exact ⟨stored, wanted.1.1.1, wanted.1.1.2, wanted.1.2, wanted.2⟩

/-- What is listed as expirable is redundant where the texts agree. -/
theorem redundant_of_expirable {archive : VaultArchive}
    (member : archive ∈ expirable db vault cutoff)
    (same : (db.document? vault archive.documentId).map VaultDocument.encode =
      archive.snapshot.map VaultDocument.encode) : Redundant db vault cutoff archive := by
  obtain ⟨stored, own, held, aged, revised⟩ := mem_expirable member
  obtain ⟨document, snapshot⟩ := Option.isSome_iff_exists.mp held
  have found : db.document? vault archive.documentId = some document := by
    rw [snapshot, Option.map_some] at same
    obtain ⟨current, found, encoded⟩ := Option.map_eq_some_iff.mp same
    rw [found, VaultDocument.encode_injective encoded]
  refine ⟨(Table.lookup_eq_some_iff _ _ _).mpr ⟨stored, rfl⟩, own, aged, document, snapshot,
    found, ?_⟩
  rw [found] at revised
  exact of_decide_eq_true revised

theorem lookup_dropSnapshot (db : VaultDb) (vault id other : Uuid) :
    (db.dropSnapshot vault id).archives.lookup other =
      (db.archives.lookup other).map fun archive =>
        if archive.documentId = id ∧ archive.vaultId = vault then { archive with snapshot := none }
        else archive := by
  simp only [VaultDb.dropSnapshot, Table.lookup_updateWhere, decide_eq_true_eq]

/-- One more of the expirable snapshots is dropped, or kept. -/
theorem Expiry.step (expiry : Expiry vault cutoff before db) {archive : VaultArchive}
    (member : archive ∈ expirable before vault cutoff) :
    Expiry vault cutoff before (expireSnapshot vault now db archive) := by
  unfold expireSnapshot
  rw [expiry.document?]
  by_cases same : (before.document? vault archive.documentId).map VaultDocument.encode =
      archive.snapshot.map VaultDocument.encode
  · rw [if_pos same]
    have redundant := redundant_of_expirable member same
    refine ⟨?_, fun id => ?_⟩
    · rw [expiry.rest]
      rfl
    · rw [VaultDb.recordEvent, lookup_dropSnapshot]
      by_cases own : archive.documentId = id
      · refine Or.inr ⟨archive, redundant, own, ?_⟩
        rcases expiry.archives id with kept | ⟨other, dropped, named, found⟩
        · rw [kept, ← own, redundant.stored]
          simp [redundant.own]
        · have one : other = archive := by
            have stored := dropped.stored
            rw [named, ← own, redundant.stored] at stored
            exact (Option.some.inj stored).symm
          rw [found, one]
          simp [own, redundant.own]
      · have untouched : ((db.archives.lookup id).map fun held =>
            if held.documentId = archive.documentId ∧ held.vaultId = vault then
              { held with snapshot := none } else held) = db.archives.lookup id := by
          cases found : db.archives.lookup id with
          | none => rfl
          | some held =>
            have named : held.documentId = id := Table.key_of_lookup found
            simp [named, Ne.symm own]
        rw [untouched]
        exact expiry.archives id
  · rw [if_neg same]
    exact expiry

theorem Expiry.foldl (archives : List VaultArchive)
    (members : archives ⊆ expirable before vault cutoff) (expiry : Expiry vault cutoff before db) :
    Expiry vault cutoff before (archives.foldl (expireSnapshot vault now) db) := by
  induction archives generalizing db with
  | nil => exact expiry
  | cons archive rest ih =>
    obtain ⟨member, others⟩ := List.cons_subset.mp members
    exact ih others (expiry.step member)

/-- Expiry does nothing, or the vault is ready and the retention that was configured has passed. -/
theorem expiry_of_expire {policy : MaintenancePolicy}
    (done : expire db vault now policy = .ok next) :
    next = db ∨ ∃ info days, db.vaults.lookup vault = some info ∧ info.state = .ready ∧
      policy.redundantSnapshotDays = some days ∧
      Expiry vault (saturatingAdd now (-(days * dayMs))) db next := by
  unfold expire at done
  obtain ⟨info, known, done⟩ := bind_eq_ok_iff.mp done
  rw [orFail_eq_ok_iff] at known
  split at done
  · next days ready retained =>
    obtain rfl := pure_eq_ok_iff.mp done
    exact Or.inr ⟨info, days, known, ready, retained,
      Expiry.foldl _ (List.Subset.refl _) (Expiry.refl db)⟩
  · exact Or.inl (pure_eq_ok_iff.mp done).symm

/-- What a step may do to the snapshots of a vault, by the policy and the reading of the clock. -/
def SafeExpiry (vault : Uuid) (policy : MaintenancePolicy) (now : Int) (before after : VaultDb) :
    Prop :=
  after = before ∨ ∃ info days, before.vaults.lookup vault = some info ∧ info.state = .ready ∧
    policy.redundantSnapshotDays = some days ∧
    Expiry vault (saturatingAdd now (-(days * dayMs))) before after

theorem SafeExpiry.rest {policy : MaintenancePolicy}
    (safe : SafeExpiry vault policy now before after) :
    after = { before with archives := after.archives, events := after.events } := by
  rcases safe with rfl | ⟨_, _, _, _, _, expiry⟩
  · rfl
  · exact expiry.rest

end Expiry

section Quota

variable {db next : VaultDb} {vault id : Uuid} {now : Int} {revision : Text} {actor reason : String}

/-- Policies are those that `validate` accepts. -/
def VaultDb.ValidPolicies (db : VaultDb) : Prop :=
  ∀ row ∈ db.maintenance.rows, row.policy.archiveQuotaBytes ≤ maxBytes

theorem quota_le (valid : db.ValidPolicies) (vault : Uuid) :
    (policyOf db vault).archiveQuotaBytes ≤ maxBytes := by
  unfold policyOf
  cases found : db.maintenance.lookup vault with
  | none => exact le_refl _
  | some row => exact valid row (Table.mem_of_lookup found)

/-- Below the quota nothing saturates. -/
theorem add_le_of_saturatingAdd_le {first second bound : Int} (small : bound ≤ maxBytes)
    (fits : saturatingAdd first second ≤ bound) : first + second ≤ bound := by
  have limit : maxBytes < i64Max := by decide
  unfold saturatingAdd at fits
  omega

/-- Room is made within the quota, by safe expiry. -/
theorem room_of_reserveArchive {incoming : Int}
    (done : reserveArchive db vault now incoming = .ok next) :
    SafeExpiry vault (policyOf db vault) now db next ∧
    saturatingAdd (archiveBytes next vault) incoming ≤ (policyOf db vault).archiveQuotaBytes := by
  unfold reserveArchive at done
  obtain ⟨_, _, done⟩ := bind_eq_ok_iff.mp done
  obtain ⟨room, made, done⟩ := bind_eq_ok_iff.mp done
  obtain ⟨_, fits, done⟩ := bind_eq_ok_iff.mp done
  rw [require_eq_ok_iff] at fits
  obtain rfl := pure_eq_ok_iff.mp done
  refine ⟨?_, not_lt.mp fits⟩
  unfold makeRoom at made
  split at made
  · exact expiry_of_expire made
  · exact Or.inl (Except.ok.inj made).symm

theorem rest_of_vaultArchive
    (done : vaultArchive db vault id revision actor reason now = .ok next) :
    next = { db with archives := next.archives, events := next.events } := by
  obtain ⟨_, made, _, _, reserved, _, rfl⟩ := vaultArchive_ok done
  rw [(room_of_reserveArchive reserved).1.rest]
  rfl

/-- An archive that is added, after safe expiry has made room for it. -/
structure Archived (db next : VaultDb) (vault id : Uuid) (now : Int) : Prop where
  room : ∃ made, SafeExpiry vault (policyOf db vault) now db made ∧
    (∀ other, other ≠ id → next.archives.lookup other = made.archives.lookup other) ∧
    made.archives.lookup id = none
  rest : next = { db with archives := next.archives, events := next.events }
  bytes : archiveBytes next vault ≤ (policyOf next vault).archiveQuotaBytes
  quota : (policyOf next vault).archiveQuotaBytes ≤ maxBytes

theorem archived_within_quota (valid : db.ValidPolicies)
    (done : vaultArchive db vault id revision actor reason now = .ok next) :
    Archived db next vault id now := by
  have rest := rest_of_vaultArchive done
  obtain ⟨document, made, archives, _, reserved, inserted, rfl⟩ := vaultArchive_ok done
  obtain ⟨safe, fits⟩ := room_of_reserveArchive reserved
  have small := quota_le valid vault
  have same : policyOf made vault = policyOf db vault := by rw [safe.rest]; rfl
  have bytes : archiveBytes ({ made with archives }.recordEvent
      ⟨vault, id, now, "archive", revision, actor, reason⟩) vault =
      archiveBytes made vault + document.size := by
    simp [archiveBytes, VaultDb.recordEvent, Table.rows_of_insert? inserted]
  refine ⟨⟨made, safe, ?_, ?_⟩, rest, ?_, ?_⟩
  · intro other differs
    exact (Table.lookup_insert? inserted other).trans (if_neg (Ne.symm differs))
  · obtain ⟨free, _⟩ := Table.insert?_eq_some_iff.mp inserted
    exact (Table.lookup_eq_none_iff _ _).mpr free
  · rw [bytes]
    change _ ≤ (policyOf made vault).archiveQuotaBytes
    rw [same]
    exact add_le_of_saturatingAdd_le small fits
  · change (policyOf made vault).archiveQuotaBytes ≤ maxBytes
    rw [same]
    exact small

end Quota

end OHHive.Vault
