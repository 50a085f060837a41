import OHHive.Vault.MaintenanceRuns

/-! What becomes of a maintenance loop while its vaults change. It ends where a vault is deleted
between the claim of its tick and the reading whether it is available; nothing else ends it. -/

namespace OHHive.Vault

open Foundation

section Conditions

/-- Whether a tick that reads the availability of its vault finds the vault. -/
def VaultFound (state : Maintained) (move : MaintenanceMove) : Prop :=
  ∀ loop claim, move = .ready loop → state.passes loop = .claimed claim →
    (state.catalog.db.vaults.lookup claim.vault).isSome

/-- A transaction that deletes a vault, or gives it a new policy. -/
def CatalogOp.Replaces (op : CatalogOp) (vault : Uuid) : Prop :=
  op = .delete vault ∨ ∃ policy, op = .configureMaintenance vault policy

/-- Whether a tick at this reading of the clock may take a schedule. -/
structure VaultMaintenance.Due (row : VaultMaintenance) (now : Int) : Prop where
  enabled : row.policy.enabled = true
  due : row.nextDueMs ≤ now
  free : row.token = none ∨ row.leaseUntilMs ≤ now

instance : Std.Total dueOrder := ⟨fun first second => by
  rcases lt_trichotomy first.nextDueMs second.nextDueMs with earlier | same | later
  · exact Or.inl (Or.inl earlier)
  · exact (Nat.le_total first.vaultId.value second.vaultId.value).imp
      (fun below => Or.inr ⟨same, below⟩) (fun below => Or.inr ⟨same.symm, below⟩)
  · exact Or.inr (Or.inl later)⟩

instance : IsTrans VaultMaintenance dueOrder := ⟨fun first second third earlier later => by
  rcases earlier with earlier | ⟨same, below⟩
  · rcases later with later | ⟨same, _⟩
    · exact Or.inl (lt_trans earlier later)
    · exact Or.inl (same ▸ earlier)
  · rcases later with later | ⟨same', below'⟩
    · exact Or.inl (same.symm ▸ later)
    · exact Or.inr ⟨same.trans same', le_trans below below'⟩⟩

theorem mem_dueRows {db : VaultDb} {now : Int} {row : VaultMaintenance} :
    row ∈ dueRows db now ↔ row ∈ db.maintenance.rows ∧ row.nextDueMs ≤ now ∧
      (row.token = none ∨ row.leaseUntilMs ≤ now) := by
  rw [dueRows, List.mem_insertionSort, List.mem_filter]
  simp

/-- Where a schedule is due, one that is due no later is taken. -/
theorem exists_first_due {db : VaultDb} {now : Int} {row : VaultMaintenance}
    (stored : row ∈ db.maintenance.rows) (due : row.Due now) :
    ∃ first ∈ db.maintenance.rows, (dueRows db now).find? (·.policy.enabled) = some first ∧
      first.Due now ∧ dueOrder first row := by
  have listed : row ∈ dueRows db now := mem_dueRows.mpr ⟨stored, due.due, due.free⟩
  have sorted : (dueRows db now).Pairwise dueOrder := List.pairwise_insertionSort dueOrder _
  cases found : (dueRows db now).find? (·.policy.enabled) with
  | none => exact absurd due.enabled (List.find?_eq_none.mp found row listed)
  | some first =>
    obtain ⟨member, early, free⟩ := mem_dueRows.mp (List.mem_of_find?_eq_some found)
    obtain ⟨enabled, earlier, later, split, skipped⟩ := List.find?_eq_some_iff_append.mp found
    refine ⟨first, member, rfl, ⟨enabled, early, free⟩, ?_⟩
    rw [split] at listed sorted
    rcases List.mem_append.mp listed with before | here
    · exact absurd due.enabled (by simpa using skipped row before)
    · rcases List.mem_cons.mp here with rfl | behind
      · exact (Std.Total.total (r := dueOrder) row row).elim id id
      · exact (List.pairwise_cons.mp (List.pairwise_append.mp sorted).2.1).1 row behind

end Conditions

section Survival

variable (sha256 : Text → Text) (formats : DateFormats)

/-- What maintenance promises of a run. -/
structure Survives (moves : List MaintenanceMove) : Prop where
  running : ∀ moment loop, (maintainedAt sha256 formats moves moment).passes loop ≠ .ended
  cancelled : ∀ moment event loop claim, moves[moment]? = some (.host event) →
    event.op.Replaces claim.vault →
    (∃ next, event.reply sha256 formats (maintainedAt sha256 formats moves moment).catalog =
      .ok next) →
    claim ∈ ((maintainedAt sha256 formats moves moment).passes loop).claim? →
    ∀ later, moment < later → ∀ scan finished,
      publishMaintenance (maintainedAt sha256 formats moves later).catalog.db claim scan finished =
        .ok ((maintainedAt sha256 formats moves later).catalog.db, none)
  served : ∀ moment loop now, moves[moment]? = some (.claim loop now) →
    (maintainedAt sha256 formats moves moment).passes loop = .sleeping →
    ∀ row ∈ (maintainedAt sha256 formats moves moment).catalog.db.maintenance.rows, row.Due now →
      ∃ claim, (maintainedAt sha256 formats moves (moment + 1)).passes loop = .claimed claim ∧
        ∃ first ∈ (maintainedAt sha256 formats moves moment).catalog.db.maintenance.rows,
          first.vaultId = claim.vault ∧ first.Due now ∧ dueOrder first row

variable {sha256 formats} {moves : List MaintenanceMove} {before after : Maintained}
  {move : MaintenanceMove}

variable (sha256 formats) in
theorem sound_maintainedAt (moves : List MaintenanceMove) (moment : Nat) :
    (maintainedAt sha256 formats moves moment).Sound :=
  stateAt_invariant (Maintained.step sha256 formats) .initial moves Maintained.Sound .start
    (fun _ _ _ sound => sound.next (effect_of_step sound)) moment

variable (sha256 formats) in
theorem effect_of_next (moves : List MaintenanceMove) (moment : Nat) :
    (∃ move, moves[moment]? = some move ∧
      MaintenanceEffect sha256 formats (maintainedAt sha256 formats moves moment)
        (maintainedAt sha256 formats moves (moment + 1)) move) ∨
    maintainedAt sha256 formats moves (moment + 1) = maintainedAt sha256 formats moves moment := by
  rcases stateAt_next (Maintained.step sha256 formats) .initial moves moment with
    ⟨move, present, next⟩ | ⟨_, next⟩
  · refine Or.inl ⟨move, present, ?_⟩
    unfold maintainedAt
    rw [next]
    exact effect_of_step (sound_maintainedAt sha256 formats moves moment)
  · exact Or.inr next

/-- A token that was lost is lost for good. -/
theorem holds_eq_false_of_le {claim : MaintenanceClaim} {first second : Nat}
    (ordered : first ≤ second)
    (minted : claim.token.value < (maintainedAt sha256 formats moves first).minted)
    (lost : (maintainedAt sha256 formats moves first).catalog.db.holds claim = false) :
    (maintainedAt sha256 formats moves second).catalog.db.holds claim = false := by
  have both := holds_from (fun moment =>
      claim.token.value < (maintainedAt sha256 formats moves moment).minted ∧
        (maintainedAt sha256 formats moves moment).catalog.db.holds claim = false) ?_ ordered
      ⟨minted, lost⟩
  · exact both.2
  · intro moment ⟨minted, lost⟩
    rcases effect_of_next sha256 formats moves moment with ⟨move, _, effect⟩ | rested
    · exact ⟨lt_of_lt_of_le minted (minted_le_of_effect effect),
        holds_eq_false_of_effect (sound_maintainedAt sha256 formats moves moment) effect minted lost⟩
    · rw [rested]
      exact ⟨minted, lost⟩

/-- Whoever replaces a vault or its policy takes the schedule from the pass that holds it. -/
theorem holds_eq_false_of_replaces {catalog next : Catalog} {event : CatalogEvent}
    {claim : MaintenanceClaim} (replaces : event.op.Replaces claim.vault)
    (reply : event.reply sha256 formats catalog = .ok next) : next.db.holds claim = false := by
  by_contra back
  obtain ⟨row, stored, own, held⟩ := holds_eq_true_iff.mp (Bool.eq_true_of_not_eq_false back)
  obtain ⟨op, now⟩ := event
  rcases replaces with rfl | ⟨policy, rfl⟩
  · obtain ⟨db, deleted, done⟩ := bind_eq_ok_iff.mp reply
    obtain rfl := pure_eq_ok_iff.mp done
    obtain ⟨_, _, deleted⟩ := bind_eq_ok_iff.mp deleted
    obtain rfl := pure_eq_ok_iff.mp deleted
    have apart := (List.mem_filter.mp stored).2
    simp [own] at apart
  · obtain ⟨db, configured, rfl⟩ := map_eq_ok_iff.mp reply
    obtain ⟨finished, result, set⟩ := (configured_of_vaultConfigureMaintenance configured).row
    have found := (Table.lookup_eq_some_iff _ row.vaultId row).mpr ⟨stored, rfl⟩
    rw [own] at found
    obtain rfl := Option.some.inj (found.symm.trans set)
    cases held

theorem step_host_of_reply {state : Maintained} {event : CatalogEvent} {next : Catalog}
    (reply : event.reply sha256 formats state.catalog = .ok next) :
    state.step sha256 formats (.host event) = { state with catalog := next } := by
  simp only [Maintained.step, Catalog.step, reply]

theorem publish_eq_of_lost {db : VaultDb} {claim : MaintenanceClaim}
    (lost : db.holds claim = false) (scan : Option (Result CurationReport)) (finished : Int) :
    publishMaintenance db claim scan finished = .ok (db, none) := by
  unfold publishMaintenance
  rw [if_neg (by rw [lost]; exact Bool.false_ne_true)]

/-- A pass whose vault was replaced or reconfigured publishes nothing. -/
theorem publish_eq_of_replaces {moment : Nat} {event : CatalogEvent} {loop : Nat}
    {claim : MaintenanceClaim} {next : Catalog} (present : moves[moment]? = some (.host event))
    (replaces : event.op.Replaces claim.vault)
    (reply : event.reply sha256 formats (maintainedAt sha256 formats moves moment).catalog =
      .ok next)
    (mine : claim ∈ ((maintainedAt sha256 formats moves moment).passes loop).claim?) {later : Nat}
    (after : moment < later) (scan : Option (Result CurationReport)) (finished : Int) :
    publishMaintenance (maintainedAt sha256 formats moves later).catalog.db claim scan finished =
      .ok ((maintainedAt sha256 formats moves later).catalog.db, none) := by
  have stepped : maintainedAt sha256 formats moves (moment + 1) =
      { maintainedAt sha256 formats moves moment with catalog := next } :=
    (stateAt_succ _ _ present).trans (step_host_of_reply reply)
  have minted := (sound_maintainedAt sha256 formats moves moment).minted loop claim mine
  have lost := holds_eq_false_of_replaces replaces reply
  have gone : (maintainedAt sha256 formats moves later).catalog.db.holds claim = false := by
    apply holds_eq_false_of_le (Nat.succ_le_of_lt after)
    · rw [stepped]
      exact minted
    · rw [stepped]
      exact lost
  exact publish_eq_of_lost gone scan finished

theorem served_of_due {moment loop : Nat} {now : Int}
    (present : moves[moment]? = some (.claim loop now))
    (sleeping : (maintainedAt sha256 formats moves moment).passes loop = .sleeping)
    {row : VaultMaintenance}
    (stored : row ∈ (maintainedAt sha256 formats moves moment).catalog.db.maintenance.rows)
    (due : row.Due now) :
    ∃ claim, (maintainedAt sha256 formats moves (moment + 1)).passes loop = .claimed claim ∧
      ∃ first ∈ (maintainedAt sha256 formats moves moment).catalog.db.maintenance.rows,
        first.vaultId = claim.vault ∧ first.Due now ∧ dueOrder first row := by
  obtain ⟨first, member, found, due, ordered⟩ := exists_first_due stored due
  refine ⟨⟨first.vaultId, first.policy, ⟨(maintainedAt sha256 formats moves moment).minted⟩, now⟩,
    ?_, first, member, rfl, due, ordered⟩
  have valid := (sound_maintainedAt sha256 formats moves moment).valid first member
  unfold maintainedAt at sleeping found valid ⊢
  rw [stateAt_succ _ _ present]
  simp only [Maintained.step, sleeping, Maintained.tickClaim, claimMaintenance, found, valid]
  exact Function.update_self _ _ _

theorem update_ne_ended {passes : Nat → Pass} (running : ∀ loop, passes loop ≠ .ended)
    {pass : Pass} (more : pass ≠ .ended) (other loop : Nat) :
    Function.update passes other pass loop ≠ .ended := by
  by_cases own : loop = other
  · rw [own, Function.update_self]
    exact more
  · rw [Function.update_of_ne own]
    exact running loop

/-- A step ends no loop where the tick finds the vault that it claimed. -/
theorem running_of_effect (effect : MaintenanceEffect sha256 formats before after move)
    (found : VaultFound before move) (running : ∀ loop, before.passes loop ≠ .ended) (loop : Nat) :
    after.passes loop ≠ .ended := by
  cases effect with
  | rested same => exact same ▸ running loop
  | host event asked reply done passes minted => exact passes ▸ running loop
  | written done passes minted => exact passes ▸ running loop
  | claimed other now claim done passes minted =>
    rw [passes]
    exact update_ne_ended running (by intro same; cases same) other loop
  | slept other catalog passes minted =>
    rw [passes]
    exact update_ne_ended running (by intro same; cases same) other loop
  | read other claim pass mine mine' apart moved =>
    rw [moved]
    refine update_ne_ended running ?_ other loop
    intro same
    rw [same] at mine'
    cases mine'
  | ended other claim asked mine gone moved =>
    have known := found other claim asked mine
    rw [gone] at known
    cases known
  | published other claim scan asked mine done passes minted =>
    rw [passes]
    exact update_ne_ended running (by intro same; cases same) other loop

/-- No loop ends while every tick finds the vault that it claimed. -/
theorem running_of_vaultFound
    (found : EachStep (Maintained.step sha256 formats) .initial VaultFound moves) (moment : Nat) :
    ∀ loop, (maintainedAt sha256 formats moves moment).passes loop ≠ .ended := by
  induction moment with
  | zero => exact fun loop same => nomatch same
  | succ moment ih =>
    rcases effect_of_next sha256 formats moves moment with ⟨move, present, effect⟩ | rested
    · exact running_of_effect effect (found moment move present) ih
    · rw [rested]
      exact ih

/-- Maintenance keeps its promises in exactly the runs in which every tick that reads whether its
vault is available finds the vault. -/
theorem survives_iff :
    Survives sha256 formats moves ↔
      EachStep (Maintained.step sha256 formats) .initial VaultFound moves := by
  constructor
  · intro survives moment move present loop claim asked mine
    by_contra gone
    rw [Option.not_isSome_iff_eq_none] at gone
    refine survives.running (moment + 1) loop ?_
    unfold maintainedAt
    rw [stateAt_succ _ _ present, asked]
    simp only [Maintained.step, mine, Maintained.tickReady, maintenanceReady, gone]
    exact Function.update_self _ _ _
  · intro found
    refine ⟨running_of_vaultFound found, ?_, ?_⟩
    · rintro moment event loop claim present replaces ⟨next, reply⟩ mine later after scan finished
      exact publish_eq_of_replaces present replaces reply mine after scan finished
    · intro moment loop now present sleeping row stored due
      exact served_of_due present sleeping stored due

/-- A vault that is claimed, and deleted before the tick reads whether it is available. -/
def deletedUnderTick : List MaintenanceMove :=
  [.host ⟨.create ⟨1⟩ "notes", 0⟩,
    .host ⟨.configureMaintenance ⟨1⟩ ⟨true, 86400, 90, none, maxBytes⟩, 0⟩,
    .claim 0 0, .host ⟨.delete ⟨1⟩, 0⟩, .ready 0]

theorem deletedUnderTick_ends : ¬ Survives id noDates deletedUnderTick := by
  intro survives
  exact survives.running 5 0 rfl

end Survival

end OHHive.Vault
