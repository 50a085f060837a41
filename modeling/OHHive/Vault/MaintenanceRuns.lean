import OHHive.Vault.HostEffects

/-! Runs of the maintenance loops among other transactions: a schedule is held by the token of one
pass at most, with the policy that the pass was claimed under. -/

namespace OHHive.Vault

open Foundation

section Transactions

variable {db next : VaultDb} {claim : MaintenanceClaim} {claim? : Option MaintenanceClaim}
  {token : Uuid} {now finished : Int} {scan : Option (Result CurationReport)}

/-- One schedule is changed: its policy stays, and it is held by the given token or by none. -/
structure Rescheduled (before after : VaultDb) (vault : Uuid) (token : Option Uuid) : Prop where
  vaults : after.vaults = before.vaults
  rows : ∀ row ∈ after.maintenance.rows, ∃ old ∈ before.maintenance.rows,
    row.vaultId = old.vaultId ∧ row.policy = old.policy ∧
      (if old.vaultId = vault then row.token = token else row = old)

theorem rescheduled_setMaintenance {vault : Uuid} {held : Option Uuid}
    {change : VaultMaintenance → VaultMaintenance}
    (fixed : ∀ row, (change row).vaultId = row.vaultId)
    (policy : ∀ row, (change row).policy = row.policy) (holds : ∀ row, (change row).token = held) :
    Rescheduled db (db.setMaintenance vault change fixed) vault held := by
  refine ⟨rfl, fun row member => ?_⟩
  obtain ⟨old, stored, rfl⟩ := List.mem_map.mp member
  refine ⟨old, stored, ?_⟩
  by_cases own : old.vaultId = vault
  · simp [own, fixed old, policy, holds]
  · simp [own]

theorem Rescheduled.of_same {made : VaultDb} {vault : Uuid} {held : Option Uuid}
    (schedules : made.maintenance = db.maintenance) (vaults : made.vaults = db.vaults)
    (rescheduled : Rescheduled made next vault held) : Rescheduled db next vault held := by
  refine ⟨rescheduled.vaults.trans vaults, fun row member => ?_⟩
  rw [← schedules]
  exact rescheduled.rows row member

/-- A claim takes the first schedule that is due and enabled. -/
structure Claimed (db next : VaultDb) (token : Uuid) (now : Int) (claim : MaintenanceClaim) :
    Prop where
  first : ∃ row, (dueRows db now).find? (·.policy.enabled) = some row ∧
    row.vaultId = claim.vault ∧ row.policy = claim.policy
  minted : claim.token = token
  began : claim.now = now
  rescheduled : Rescheduled db next claim.vault (some token)
  rest : next = { db with maintenance := next.maintenance }

theorem claimed_of_claimMaintenance (done : claimMaintenance db token now = .ok (next, some claim)) :
    Claimed db next token now claim := by
  unfold claimMaintenance at done
  cases due : (dueRows db now).find? (·.policy.enabled) with
  | none =>
    rw [due] at done
    cases done
  | some row =>
    rw [due] at done
    obtain ⟨_, _, done⟩ := bind_eq_ok_iff.mp done
    obtain ⟨rfl, same⟩ := Prod.mk.inj (pure_eq_ok_iff.mp done)
    obtain rfl := Option.some.inj same
    exact ⟨⟨row, due, rfl, rfl⟩, rfl, rfl,
      rescheduled_setMaintenance _ (by intro row; rfl) (by intro row; rfl), rfl⟩

theorem unclaimed_of_claimMaintenance (done : claimMaintenance db token now = .ok (next, none)) :
    next = db ∧ (dueRows db now).find? (·.policy.enabled) = none := by
  unfold claimMaintenance at done
  cases due : (dueRows db now).find? (·.policy.enabled) with
  | none =>
    rw [due] at done
    exact ⟨(Prod.mk.inj (Except.ok.inj done)).1.symm, rfl⟩
  | some row =>
    rw [due] at done
    obtain ⟨_, _, done⟩ := bind_eq_ok_iff.mp done
    cases (Prod.mk.inj (pure_eq_ok_iff.mp done)).2

/-- Behind a scan snapshots expire safely. -/
theorem safeExpiry_of_applyScan {found : MaintenanceResult}
    (done : applyScan db claim finished scan = .ok (next, found)) :
    SafeExpiry claim.vault claim.policy claim.now db next := by
  unfold applyScan at done
  split at done
  · split at done
    · obtain ⟨expired, expiry, done⟩ := bind_eq_ok_iff.mp done
      obtain ⟨rfl, _⟩ := Prod.mk.inj (pure_eq_ok_iff.mp done)
      exact expiry_of_expire expiry
    · exact Or.inl (Prod.mk.inj (Except.ok.inj done)).1.symm
  · exact Or.inl (Prod.mk.inj (Except.ok.inj done)).1.symm
  · exact Or.inl (Prod.mk.inj (Except.ok.inj done)).1.symm

theorem exists_expire {vault : Uuid} {info : VaultInfo} (now : Int) (policy : MaintenancePolicy)
    (known : db.vaults.lookup vault = some info) :
    ∃ expired, expire db vault now policy = .ok expired := by
  unfold expire
  rw [known, orFail_some, ok_bind]
  split
  · exact ⟨_, rfl⟩
  · exact ⟨_, rfl⟩

theorem exists_applyScan {info : VaultInfo} (finished : Int) (scan : Option (Result CurationReport))
    (known : db.vaults.lookup claim.vault = some info) :
    ∃ answer, applyScan db claim finished scan = .ok answer := by
  unfold applyScan
  split
  · split
    · obtain ⟨expired, expiry⟩ := exists_expire claim.now claim.policy known
      rw [expiry]
      exact ⟨_, rfl⟩
    · exact ⟨_, rfl⟩
  · exact ⟨_, rfl⟩
  · exact ⟨_, rfl⟩

/-- A publication writes nothing, or lets go of the schedule that its pass holds. -/
structure ScanPublished (db next : VaultDb) (claim : MaintenanceClaim) : Prop where
  holds : db.holds claim = true
  made : ∃ made, SafeExpiry claim.vault claim.policy claim.now db made ∧
    next = { made with maintenance := next.maintenance }
  rescheduled : Rescheduled db next claim.vault none

theorem published_of_publishMaintenance {result? : Option MaintenanceResult}
    (done : publishMaintenance db claim scan finished = .ok (next, result?)) :
    (db.holds claim = false ∧ next = db ∧ result? = none) ∨ ScanPublished db next claim := by
  unfold publishMaintenance at done
  by_cases holds : db.holds claim = true
  · rw [if_pos holds] at done
    obtain ⟨⟨made, found⟩, applied, done⟩ := bind_eq_ok_iff.mp done
    obtain ⟨rfl, _⟩ := Prod.mk.inj (pure_eq_ok_iff.mp done)
    have safe := safeExpiry_of_applyScan applied
    have same : made.maintenance = db.maintenance ∧ made.vaults = db.vaults := by
      rw [safe.rest]
      exact ⟨rfl, rfl⟩
    refine Or.inr ⟨holds, ⟨made, safe, rfl⟩, ?_⟩
    apply Rescheduled.of_same same.1 same.2
    exact rescheduled_setMaintenance _ (by intro row; rfl) (by intro row; rfl)
  · rw [if_neg holds] at done
    obtain ⟨rfl, rfl⟩ := Prod.mk.inj (Except.ok.inj done)
    exact Or.inl ⟨Bool.eq_false_of_not_eq_true holds, rfl, rfl⟩

end Transactions

section Moves

variable {sha256 : Text → Text} {formats : DateFormats} {before after : Maintained}
  {move : MaintenanceMove}

/-- What is kept throughout: every schedule is of a vault that is there, under a policy that was
checked, and the pass that holds it was claimed under that policy. -/
structure Maintained.Sound (state : Maintained) : Prop where
  known : ∀ row ∈ state.catalog.db.maintenance.rows,
    (state.catalog.db.vaults.lookup row.vaultId).isSome
  valid : ∀ row ∈ state.catalog.db.maintenance.rows, row.policy.validate = .ok ()
  stamped : ∀ row ∈ state.catalog.db.maintenance.rows, ∀ token ∈ row.token,
    token.value < state.minted
  minted : ∀ loop, ∀ claim ∈ (state.passes loop).claim?, claim.token.value < state.minted
  held : ∀ loop, ∀ claim ∈ (state.passes loop).claim?,
    ∀ row ∈ state.catalog.db.maintenance.rows, row.vaultId = claim.vault →
      row.token = some claim.token → row.policy = claim.policy

/-- What a move does. A loop ends only where the vault of its claim is gone. -/
inductive MaintenanceEffect (sha256 : Text → Text) (formats : DateFormats)
    (before after : Maintained) (move : MaintenanceMove) : Prop
  | rested (same : after = before)
  | host (event : CatalogEvent) (asked : move = .host event)
      (reply : event.reply sha256 formats before.catalog = .ok after.catalog)
      (done : HostEffect before.catalog.db after.catalog.db event)
      (passes : after.passes = before.passes) (minted : after.minted = before.minted)
  | written (done : Written before.catalog.db after.catalog.db)
      (passes : after.passes = before.passes) (minted : after.minted = before.minted)
  | claimed (loop : Nat) (now : Int) (claim : MaintenanceClaim)
      (done : Claimed before.catalog.db after.catalog.db ⟨before.minted⟩ now claim)
      (passes : after.passes = Function.update before.passes loop (.claimed claim))
      (minted : after.minted = before.minted + 1)
  | slept (loop : Nat) (catalog : after.catalog = before.catalog)
      (passes : after.passes = Function.update before.passes loop .sleeping)
      (minted : before.minted ≤ after.minted)
  | read (loop : Nat) (claim : MaintenanceClaim) (pass : Pass)
      (mine : claim ∈ (before.passes loop).claim?) (mine' : claim ∈ pass.claim?)
      (apart : pass ≠ .claimed claim) (moved : after = before.setPass loop pass)
  | ended (loop : Nat) (claim : MaintenanceClaim) (asked : move = .ready loop)
      (mine : before.passes loop = .claimed claim)
      (gone : before.catalog.db.vaults.lookup claim.vault = none)
      (moved : after = before.setPass loop .ended)
  | published (loop : Nat) (claim : MaintenanceClaim) (scan : Option (Result CurationReport))
      (asked : ∃ finished, move = .publish loop finished)
      (mine : before.passes loop = .scanned claim scan)
      (done : ScanPublished before.catalog.db after.catalog.db claim)
      (passes : after.passes = Function.update before.passes loop .sleeping)
      (minted : after.minted = before.minted)

theorem archiveQuota_le_of_validate {policy : MaintenancePolicy}
    (valid : policy.validate = .ok ()) : policy.archiveQuotaBytes ≤ maxBytes := by
  unfold MaintenancePolicy.validate at valid
  rw [require_eq_ok_iff] at valid
  exact valid.2.2.2.2

theorem Maintained.Sound.validPolicies (sound : before.Sound) :
    before.catalog.db.ValidPolicies :=
  fun row stored => archiveQuota_le_of_validate (sound.valid row stored)

theorem holds_eq_true_iff {db : VaultDb} {claim : MaintenanceClaim} :
    db.holds claim = true ↔
      ∃ row ∈ db.maintenance.rows, row.vaultId = claim.vault ∧ row.token = some claim.token := by
  simp [VaultDb.holds, List.any_eq_true]

theorem effect_of_tickClaim (sound : before.Sound) {loop : Nat} {now : Int} :
    MaintenanceEffect sha256 formats before (before.tickClaim loop now) (.claim loop now) := by
  unfold Maintained.tickClaim
  cases done : claimMaintenance before.catalog.db ⟨before.minted⟩ now with
  | error failure =>
    unfold claimMaintenance at done
    cases due : (dueRows before.catalog.db now).find? (·.policy.enabled) with
    | none =>
      rw [due] at done
      cases done
    | some row =>
      have stored : row ∈ before.catalog.db.maintenance.rows := by
        have listed := List.mem_of_find?_eq_some due
        rw [dueRows, List.mem_insertionSort] at listed
        exact (List.mem_filter.mp listed).1
      rw [due] at done
      simp only [sound.valid row stored] at done
      cases done
  | ok answer =>
    obtain ⟨db, claim?⟩ := answer
    cases claim? with
    | none =>
      obtain ⟨rfl, _⟩ := unclaimed_of_claimMaintenance done
      exact .slept loop rfl rfl (Nat.le_succ _)
    | some claim => exact .claimed loop now claim (claimed_of_claimMaintenance done) rfl rfl

theorem effect_of_tickReady {loop : Nat} {claim : MaintenanceClaim}
    (mine : before.passes loop = .claimed claim) :
    MaintenanceEffect sha256 formats before (before.tickReady loop claim) (.ready loop) := by
  unfold Maintained.tickReady maintenanceReady
  cases known : before.catalog.db.vaults.lookup claim.vault with
  | none => exact .ended loop claim rfl mine known rfl
  | some info =>
    refine .read loop claim (.available claim (info.state = .ready)) ?_ rfl (by simp) rfl
    rw [mine]
    rfl

/-- A publication cannot fail: a schedule that is held is of a vault that is there. -/
theorem effect_of_tickPublish (sound : before.Sound) {loop : Nat} {now : Int}
    {claim : MaintenanceClaim} {scan : Option (Result CurationReport)}
    (mine : before.passes loop = .scanned claim scan) :
    MaintenanceEffect sha256 formats before (before.tickPublish loop claim scan now)
      (.publish loop now) := by
  unfold Maintained.tickPublish
  cases done : publishMaintenance before.catalog.db claim scan now with
  | error failure =>
    exfalso
    unfold publishMaintenance at done
    by_cases holds : before.catalog.db.holds claim = true
    · rw [if_pos holds] at done
      obtain ⟨row, stored, own, _⟩ := holds_eq_true_iff.mp holds
      have known := sound.known row stored
      rw [own] at known
      obtain ⟨info, found⟩ := Option.isSome_iff_exists.mp known
      obtain ⟨answer, applied⟩ := exists_applyScan now scan found
      rw [applied] at done
      cases done
    · rw [if_neg holds] at done
      cases done
  | ok answer =>
    obtain ⟨db, result?⟩ := answer
    rcases published_of_publishMaintenance done with ⟨_, rfl, _⟩ | published
    · exact .slept loop rfl rfl (le_refl _)
    · exact .published loop claim scan ⟨now, rfl⟩ mine published rfl rfl

theorem effect_of_step (sound : before.Sound) :
    MaintenanceEffect sha256 formats before (before.step sha256 formats move) move := by
  cases move with
  | host event =>
    cases reply : event.reply sha256 formats before.catalog with
    | error failure =>
      refine .rested ?_
      simp only [Maintained.step, Catalog.step, reply]
    | ok next =>
      have stepped : before.step sha256 formats (.host event) =
          { before with catalog := next } := by
        simp only [Maintained.step, Catalog.step, reply]
      rw [stepped]
      exact .host event rfl reply (hostEffect_of_reply sound.validPolicies reply) rfl rfl
  | write write now =>
    simp only [Maintained.step]
    split
    · next between db done => exact .written (written_of_reply done) rfl rfl
    · exact .rested rfl
  | save vault id path title content date now =>
    simp only [Maintained.step]
    split
    · next db done => exact .written (written_of_saveDocument done) rfl rfl
    · exact .rested rfl
  | claim loop now =>
    simp only [Maintained.step]
    split
    · exact effect_of_tickClaim sound
    · exact .rested rfl
  | ready loop =>
    simp only [Maintained.step]
    split
    · next claim mine => exact effect_of_tickReady mine
    · exact .rested rfl
  | scan loop now =>
    simp only [Maintained.step]
    split
    · next claim mine => exact .read loop claim _ (by rw [mine]; rfl) rfl (by simp) rfl
    · next claim mine => exact .read loop claim _ (by rw [mine]; rfl) rfl (by simp) rfl
    · exact .rested rfl
  | publish loop now =>
    simp only [Maintained.step]
    split
    · next claim scan mine => exact effect_of_tickPublish sound mine
    · exact .rested rfl

/-- Where a schedule comes from: it was there, is held by no pass, or was just claimed. -/
inductive RowOrigin (before after : Maintained) (row : VaultMaintenance) : Prop
  | kept (stored : row ∈ before.catalog.db.maintenance.rows)
  | released (valid : row.policy.validate = .ok ()) (free : row.token = none)
  | claimed (old : VaultMaintenance) (stored : old ∈ before.catalog.db.maintenance.rows)
      (policy : row.policy = old.policy) (token : row.token = some ⟨before.minted⟩)
      (more : before.minted < after.minted)

theorem Rescheduled.origin (sound : before.Sound) {vault : Uuid} {token : Option Uuid}
    (rescheduled : Rescheduled before.catalog.db after.catalog.db vault token)
    (fresh : token = none ∨ token = some ⟨before.minted⟩ ∧ before.minted < after.minted)
    {row : VaultMaintenance} (stored : row ∈ after.catalog.db.maintenance.rows) :
    RowOrigin before after row := by
  obtain ⟨old, member, _, policy, changed⟩ := rescheduled.rows row stored
  by_cases own : old.vaultId = vault
  · rw [if_pos own] at changed
    rcases fresh with rfl | ⟨rfl, more⟩
    · exact .released (policy ▸ sound.valid old member) changed
    · exact .claimed old member policy changed more
  · rw [if_neg own] at changed
    exact .kept (changed ▸ member)

theorem Configured.origin {vault : Uuid} {policy : MaintenancePolicy} {now : Int}
    (done : Configured before.catalog.db after.catalog.db vault policy now)
    {row : VaultMaintenance} (stored : row ∈ after.catalog.db.maintenance.rows) :
    RowOrigin before after row := by
  have found := (Table.lookup_eq_some_iff _ row.vaultId row).mpr ⟨stored, rfl⟩
  by_cases own : row.vaultId = vault
  · obtain ⟨finished, result, configured⟩ := done.row
    rw [own, configured] at found
    obtain rfl := Option.some.inj found
    exact .released done.valid rfl
  · rw [done.others _ own] at found
    exact .kept (Table.mem_of_lookup found)

theorem rowOrigin_of_effect (sound : before.Sound)
    (effect : MaintenanceEffect sha256 formats before after move) {row : VaultMaintenance}
    (stored : row ∈ after.catalog.db.maintenance.rows) : RowOrigin before after row := by
  cases effect with
  | rested same => exact .kept (same ▸ stored)
  | host event asked reply done passes minted =>
    cases done with
    | edited schedules vaults archives => exact .kept (schedules ▸ stored)
    | restored vault id expected op schedules vaults done => exact .kept (schedules ▸ stored)
    | archived vault id op schedules vaults added => exact .kept (schedules ▸ stored)
    | configured vault policy op done => exact done.origin stored
    | deleted vault op schedules vaults archives =>
      rw [schedules] at stored
      exact .kept (List.mem_filter.mp stored).1
  | written done passes minted =>
    rw [done.rest] at stored
    exact .kept stored
  | claimed loop now claim done passes minted =>
    exact done.rescheduled.origin sound (Or.inr ⟨rfl, minted ▸ Nat.lt_succ_self _⟩) stored
  | slept loop catalog passes minted => exact .kept (catalog ▸ stored)
  | read loop claim pass mine mine' apart moved =>
    rw [moved] at stored
    exact .kept stored
  | ended loop claim asked mine gone moved =>
    rw [moved] at stored
    exact .kept stored
  | published loop claim scan asked mine done passes minted =>
    exact done.rescheduled.origin sound (Or.inl rfl) stored

theorem minted_le_of_effect (effect : MaintenanceEffect sha256 formats before after move) :
    before.minted ≤ after.minted := by
  cases effect with
  | rested same => exact le_of_eq (same ▸ rfl)
  | host event asked reply done passes minted => exact le_of_eq minted.symm
  | written done passes minted => exact le_of_eq minted.symm
  | claimed loop now claim done passes minted => exact minted ▸ Nat.le_succ _
  | slept loop catalog passes minted => exact minted
  | read loop claim pass mine mine' apart moved => exact le_of_eq (moved ▸ rfl)
  | ended loop claim asked mine gone moved => exact le_of_eq (moved ▸ rfl)
  | published loop claim scan asked mine done passes minted => exact le_of_eq minted.symm

theorem mem_claim?_update {passes : Nat → Pass} {loop other : Nat} {pass : Pass}
    {claim : MaintenanceClaim} (mine : claim ∈ (Function.update passes other pass loop).claim?) :
    claim ∈ pass.claim? ∨ claim ∈ (passes loop).claim? := by
  by_cases own : loop = other
  · rw [own, Function.update_self] at mine
    exact Or.inl mine
  · rw [Function.update_of_ne own] at mine
    exact Or.inr mine

/-- Where the claim of a pass comes from: the pass had it, or just got it. -/
theorem claimOrigin_of_effect (effect : MaintenanceEffect sha256 formats before after move)
    {loop : Nat} {claim : MaintenanceClaim} (mine : claim ∈ (after.passes loop).claim?) :
    claim ∈ (before.passes loop).claim? ∨ ∃ now,
      Claimed before.catalog.db after.catalog.db ⟨before.minted⟩ now claim ∧
        after.minted = before.minted + 1 := by
  cases effect with
  | rested same => exact Or.inl (same ▸ mine)
  | host event asked reply done passes minted => exact Or.inl (passes ▸ mine)
  | written done passes minted => exact Or.inl (passes ▸ mine)
  | claimed other now taken done passes minted =>
    rw [passes] at mine
    rcases mem_claim?_update mine with same | had
    · obtain rfl := Option.some.inj same
      exact Or.inr ⟨now, done, minted⟩
    · exact Or.inl had
  | slept other catalog passes minted =>
    rw [passes] at mine
    exact (mem_claim?_update mine).elim (fun none => nomatch none) Or.inl
  | read other taken pass had has apart moved =>
    subst moved
    by_cases own : loop = other
    · have mine : claim ∈ (Function.update before.passes other pass other).claim? := own ▸ mine
      rw [Function.update_self] at mine
      obtain rfl := Option.some.inj (mine.symm.trans has)
      exact Or.inl (own ▸ had)
    · have mine : claim ∈ (Function.update before.passes other pass loop).claim? := mine
      rw [Function.update_of_ne own] at mine
      exact Or.inl mine
  | ended other taken asked had gone moved =>
    subst moved
    exact (mem_claim?_update mine).elim (fun none => nomatch none) Or.inl
  | published other taken scan asked had done passes minted =>
    rw [passes] at mine
    exact (mem_claim?_update mine).elim (fun none => nomatch none) Or.inl

/-- Vaults stay while a schedule of theirs is there. -/
theorem known_of_effect (sound : before.Sound)
    (effect : MaintenanceEffect sha256 formats before after move) {row : VaultMaintenance}
    (stored : row ∈ after.catalog.db.maintenance.rows) :
    (after.catalog.db.vaults.lookup row.vaultId).isSome := by
  cases effect with
  | rested same =>
    rw [same] at stored ⊢
    exact sound.known row stored
  | host event asked reply done passes minted =>
    cases done with
    | edited schedules vaults archives => exact vaults _ (sound.known row (schedules ▸ stored))
    | restored vault id expected op schedules vaults done =>
      rw [vaults]
      exact sound.known row (schedules ▸ stored)
    | archived vault id op schedules vaults added =>
      rw [vaults]
      exact sound.known row (schedules ▸ stored)
    | configured vault policy op done =>
      have vaults : after.catalog.db.vaults = before.catalog.db.vaults := by rw [done.rest]
      have found := (Table.lookup_eq_some_iff _ row.vaultId row).mpr ⟨stored, rfl⟩
      rw [vaults]
      by_cases own : row.vaultId = vault
      · rcases done.known with known | scheduled
        · exact own ▸ known
        · obtain ⟨old, member⟩ := Option.isSome_iff_exists.mp scheduled
          have named : old.vaultId = vault := Table.key_of_lookup member
          exact own.trans named.symm ▸ sound.known old (Table.mem_of_lookup member)
      · rw [done.others _ own] at found
        exact sound.known row (Table.mem_of_lookup found)
    | deleted vault op schedules vaults archives =>
      rw [schedules] at stored
      obtain ⟨member, apart⟩ := List.mem_filter.mp stored
      obtain ⟨info, found⟩ := Option.isSome_iff_exists.mp (sound.known row member)
      have named : info.id = row.vaultId := Table.key_of_lookup found
      rw [vaults, Table.lookup_keep, found, Option.filter_some_pos (named ▸ apart)]
      rfl
  | written done passes minted =>
    rw [done.rest] at stored
    exact done.vaults _ (sound.known row stored)
  | claimed loop now claim done passes minted =>
    obtain ⟨old, member, same, _⟩ := done.rescheduled.rows row stored
    rw [done.rescheduled.vaults, same]
    exact sound.known old member
  | slept loop catalog passes minted =>
    rw [catalog] at stored ⊢
    exact sound.known row stored
  | read loop claim pass mine mine' apart moved =>
    rw [moved] at stored ⊢
    exact sound.known row stored
  | ended loop claim asked mine gone moved =>
    rw [moved] at stored ⊢
    exact sound.known row stored
  | published loop claim scan asked mine done passes minted =>
    obtain ⟨old, member, same, _⟩ := done.rescheduled.rows row stored
    rw [done.rescheduled.vaults, same]
    exact sound.known old member

theorem Claimed.policy_eq {db next : VaultDb} {token : Uuid} {now : Int}
    {claim : MaintenanceClaim} (done : Claimed db next token now claim) {row : VaultMaintenance}
    (stored : row ∈ next.maintenance.rows) (own : row.vaultId = claim.vault) :
    row.policy = claim.policy := by
  obtain ⟨first, due, named, policy⟩ := done.first
  have listed := List.mem_of_find?_eq_some due
  rw [dueRows, List.mem_insertionSort] at listed
  obtain ⟨old, member, same, kept, _⟩ := done.rescheduled.rows row stored
  have one : old = first :=
    db.maintenance.eq_of_key member (List.mem_filter.mp listed).1
      ((same.symm.trans own).trans named.symm)
  rw [kept, one, policy]

theorem Maintained.Sound.next (sound : before.Sound)
    (effect : MaintenanceEffect sha256 formats before after move) : after.Sound := by
  have more := minted_le_of_effect effect
  refine ⟨fun row stored => known_of_effect sound effect stored, ?_, ?_, ?_, ?_⟩
  · intro row stored
    cases rowOrigin_of_effect sound effect stored with
    | kept member => exact sound.valid row member
    | released valid free => exact valid
    | claimed old member policy token later => exact policy ▸ sound.valid old member
  · intro row stored token held
    cases rowOrigin_of_effect sound effect stored with
    | kept member => exact lt_of_lt_of_le (sound.stamped row member token held) more
    | released valid free =>
      rw [free] at held
      cases held
    | claimed old member policy stamp later =>
      rw [stamp] at held
      exact Option.some.inj held ▸ later
  · intro loop claim mine
    rcases claimOrigin_of_effect effect mine with had | ⟨now, done, minted⟩
    · exact lt_of_lt_of_le (sound.minted loop claim had) more
    · rw [done.minted, minted]
      exact Nat.lt_succ_self _
  · intro loop claim mine row stored own held
    rcases claimOrigin_of_effect effect mine with had | ⟨now, done, minted⟩
    · cases rowOrigin_of_effect sound effect stored with
      | kept member => exact sound.held loop claim had row member own held
      | released valid free =>
        rw [free] at held
        cases held
      | claimed old member policy stamp later =>
        have earlier := sound.minted loop claim had
        rw [← Option.some.inj (stamp.symm.trans held)] at earlier
        exact absurd earlier (lt_irrefl _)
    · exact done.policy_eq stored own

theorem Maintained.Sound.start : Maintained.initial.Sound := by
  refine ⟨?_, ?_, ?_, ?_, ?_⟩
  · intro row stored
    cases stored
  · intro row stored
    cases stored
  · intro row stored
    cases stored
  · intro loop claim mine
    cases mine
  · intro loop claim mine
    cases mine

/-- A token that was lost does not come back: the tokens of claims are new. -/
theorem holds_eq_false_of_effect (sound : before.Sound)
    (effect : MaintenanceEffect sha256 formats before after move) {claim : MaintenanceClaim}
    (minted : claim.token.value < before.minted) (lost : before.catalog.db.holds claim = false) :
    after.catalog.db.holds claim = false := by
  by_contra back
  obtain ⟨row, stored, own, held⟩ := holds_eq_true_iff.mp (Bool.eq_true_of_not_eq_false back)
  cases rowOrigin_of_effect sound effect stored with
  | kept member =>
    have holds := holds_eq_true_iff.mpr ⟨row, member, own, held⟩
    exact Bool.false_ne_true (lost.symm.trans holds)
  | released valid free =>
    rw [free] at held
    cases held
  | claimed old member policy stamp later =>
    rw [← Option.some.inj (stamp.symm.trans held)] at minted
    exact lt_irrefl _ minted

end Moves

end OHHive.Vault
