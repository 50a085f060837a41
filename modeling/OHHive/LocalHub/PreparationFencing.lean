import OHHive.LocalHub.Prepared

/-! Which session a preparation belongs to: taken by one at a time, completed by the one that has it
claimed, and never again by one that was retired from it. -/

namespace OHHive.LocalHub

open Foundation

variable {store next : PreparationStore} {around : Surroundings} {hub : Session}
  {operation : OperationId} {session : SessionId}

section Handover

/-- The owner has retired a session from a preparation. -/
def PreparationStore.Retired (store : PreparationStore) (operation : OperationId)
    (session : SessionId) : Prop :=
  ∃ recovery ∈ store.recoveries.rows,
    recovery.operationId = operation ∧ recovery.retiredSession = session

/-- A session that may take a preparation: it is not done, the session was not retired from it, and
no other session has it claimed. -/
structure Takes (store : PreparationStore) (hub : Session) (row : PreparationRow) : Prop where
  stored : row ∈ store.preparations.rows
  target : row.targetNodeId = hub.node
  undone : row.state ≠ .prepared
  unretired : ¬ store.Retired row.id hub.session
  unclaimed : row.state = .claimed → row.session = some hub.session

/-- A session that has a preparation claimed. -/
structure Claims (store : PreparationStore) (hub : Session) (row : PreparationRow) : Prop where
  stored : row ∈ store.preparations.rows
  target : row.targetNodeId = hub.node
  claimed : row.state = .claimed
  session : row.session = some hub.session

def PreparationRow.taken (session : SessionId) (row : PreparationRow) : PreparationRow :=
  { row with state := .claimed, session := some session }

def PreparationRow.done (workspace : String) (row : PreparationRow) : PreparationRow :=
  { row with state := .prepared, workspace := some workspace }

def PreparationRow.requeued (row : PreparationRow) : PreparationRow :=
  { row with state := .queued, session := none }

/-- The rows of a table in which one preparation was changed. -/
def Rewrites (operation : OperationId) (change : PreparationRow → PreparationRow)
    (store next : PreparationStore) : Prop :=
  ∀ row, row ∈ next.preparations.rows ↔ ∃ stored ∈ store.preparations.rows,
    (if stored.id = operation then change stored else stored) = row

/-- What one transaction does to the preparations and their recoveries. -/
inductive Handover (store next : PreparationStore) (op : PreparationOp) : Prop where
  | rests (rows : next.preparations = store.preparations)
      (recoveries : next.recoveries = store.recoveries)
  | requested (row : PreparationRow) (fresh : ∀ stored ∈ store.preparations.rows, stored.id ≠ row.id)
      (queued : row.state = .queued) (unclaimed : row.session = none)
      (rows : ∀ other, other ∈ next.preparations.rows ↔
        other ∈ store.preparations.rows ∨ other = row)
      (recoveries : next.recoveries = store.recoveries)
  | taken (hub : Session) (row : PreparationRow) (takes : Takes store hub row)
      (rows : Rewrites row.id (PreparationRow.taken hub.session) store next)
      (recoveries : next.recoveries = store.recoveries)
  | completed (hub : Session) (workspace : String) (row : PreparationRow)
      (completes : op = .complete hub row.id workspace) (claims : Claims store hub row)
      (rows : Rewrites row.id (PreparationRow.done workspace) store next)
      (recoveries : next.recoveries = store.recoveries)
  | recovered (row : PreparationRow) (session : SessionId) (recovery : Recovery)
      (stored : row ∈ store.preparations.rows) (claimed : row.state = .claimed)
      (held : row.session = some session)
      (retires : recovery.operationId = row.id ∧ recovery.retiredSession = session)
      (rows : Rewrites row.id PreparationRow.requeued store next)
      (recoveries : ∀ other, other ∈ next.recoveries.rows ↔
        other ∈ store.recoveries.rows ∨ other = recovery)

theorem not_retired_of_all (free : store.recoveries.rows.all (fun recovery =>
    ¬ (recovery.operationId = operation ∧ recovery.retiredSession = session)) = true) :
    ¬ store.Retired operation session := by
  rintro ⟨recovery, stored, retires⟩
  have apart := List.all_eq_true.mp free recovery stored
  exact of_decide_eq_true apart retires

theorem rewrites_update {change : PreparationRow → PreparationRow} {fixed} :
    Rewrites operation change store (store.updatePreparation operation change fixed) :=
  fun _ => mem_updatePreparation

/-- What a session takes is its own to take. -/
theorem takes_of_ok {inactive : CardId → Bool} {work : PreparationWork}
    (done : privatePreparationTake around store hub inactive = .ok (next, some work)) :
    ∃ row, Takes store hub row ∧ work = ⟨row.id, row.card⟩ ∧
      Rewrites row.id (PreparationRow.taken hub.session) store next ∧
      next.recoveries = store.recoveries := by
  unfold privatePreparationTake at done
  obtain ⟨owner, _, done⟩ := bind_eq_ok_iff.mp done
  obtain ⟨_, _, done⟩ := bind_eq_ok_iff.mp done
  split at done
  · cases done
  · rename_i row head
    obtain ⟨_, unretired, done⟩ := bind_eq_ok_iff.mp done
    obtain ⟨_, unclaimed, done⟩ := bind_eq_ok_iff.mp done
    obtain ⟨⟨current, bound⟩, _, done⟩ := bind_eq_ok_iff.mp done
    obtain ⟨_, _, done⟩ := bind_eq_ok_iff.mp done
    obtain ⟨rfl, work⟩ := Prod.mk.inj (pure_eq_ok_iff.mp done)
    obtain ⟨stored, target, undone⟩ := nextPreparation_mem head
    refine ⟨row, ⟨stored, target, undone, ?_, ?_⟩, (Option.some.inj work).symm, rewrites_update, rfl⟩
    · exact not_retired_of_all (require_eq_ok_iff.mp unretired)
    · intro claimed
      by_contra other
      exact require_eq_ok_iff.mp unclaimed ⟨claimed, other⟩

/-- A completion that succeeds is the first one of the session that has the preparation claimed, or
repeats it. -/
theorem complete_ok {workspace : String}
    (done : privatePreparationComplete around store hub operation workspace = .ok next) :
    ∃ row, row.id = operation ∧ row.session = some hub.session ∧
      ((row ∈ store.preparations.rows ∧ row.state = .prepared ∧ row.workspace = some workspace ∧
          next = store) ∨
        Claims store hub row ∧ Rewrites row.id (PreparationRow.done workspace) store next ∧
          next.recoveries = store.recoveries) := by
  simp only [privatePreparationComplete, bind_eq_ok_iff, require_eq_ok_iff, exists_const,
    orFail_eq_ok_iff] at done
  obtain ⟨_, _, _, owner, _, row, found, _, _, target, held, done⟩ := done
  obtain ⟨stored, rfl⟩ := preparation?_eq_some_iff.mp found
  refine ⟨row, rfl, held, ?_⟩
  split at done
  · rename_i prepared
    obtain ⟨_, same, done⟩ := bind_eq_ok_iff.mp done
    exact Or.inl ⟨stored, prepared, require_eq_ok_iff.mp same, (pure_eq_ok_iff.mp done).symm⟩
  · obtain ⟨_, claimed, done⟩ := bind_eq_ok_iff.mp done
    obtain ⟨⟨card, bound⟩, _, done⟩ := bind_eq_ok_iff.mp done
    obtain ⟨_, _, done⟩ := bind_eq_ok_iff.mp done
    obtain ⟨board, _, done⟩ := bind_eq_ok_iff.mp done
    obtain rfl := pure_eq_ok_iff.mp done
    exact Or.inr ⟨⟨stored, target, require_eq_ok_iff.mp claimed, held⟩, rewrites_update, rfl⟩

theorem rests_take {inactive : CardId → Bool}
    (done : privatePreparationTake around store hub inactive = .ok (next, none)) : next = store := by
  unfold privatePreparationTake at done
  obtain ⟨owner, _, done⟩ := bind_eq_ok_iff.mp done
  obtain ⟨_, _, done⟩ := bind_eq_ok_iff.mp done
  split at done
  · exact (Prod.mk.inj (pure_eq_ok_iff.mp done)).1.symm
  · obtain ⟨_, _, done⟩ := bind_eq_ok_iff.mp done
    obtain ⟨_, _, done⟩ := bind_eq_ok_iff.mp done
    obtain ⟨_, _, done⟩ := bind_eq_ok_iff.mp done
    obtain ⟨_, _, done⟩ := bind_eq_ok_iff.mp done
    cases (Prod.mk.inj (pure_eq_ok_iff.mp done)).2

theorem handover_request {card : CardId} {clock : Nat → Int} {op : PreparationOp}
    (done : privatePreparationRequest around store hub operation card clock = .ok next) :
    Handover store next op := by
  unfold privatePreparationRequest at done
  obtain ⟨_, _, done⟩ := bind_eq_ok_iff.mp done
  obtain ⟨owner, _, done⟩ := bind_eq_ok_iff.mp done
  obtain ⟨⟨stored, target⟩, _, done⟩ := bind_eq_ok_iff.mp done
  obtain ⟨_, _, done⟩ := bind_eq_ok_iff.mp done
  split at done
  · obtain ⟨_, _, done⟩ := bind_eq_ok_iff.mp done
    obtain rfl := pure_eq_ok_iff.mp done
    exact .rests rfl rfl
  · rename_i absent
    obtain ⟨_, _, done⟩ := bind_eq_ok_iff.mp done
    obtain ⟨preparations, inserted, done⟩ := bind_eq_ok_iff.mp done
    obtain rfl := pure_eq_ok_iff.mp done
    have rows := Table.rows_of_insert? (orFail_eq_ok_iff.mp inserted)
    refine .requested ⟨operation, card, target, stored.data, .queued, none, none, clock 0⟩ ?_ rfl rfl
      ?_ rfl
    · intro row member same
      have found := preparation?_eq_some_iff.mpr ⟨member, same⟩
      rw [absent] at found
      cases found
    · intro other
      change other ∈ preparations.rows ↔ _
      rw [rows, List.mem_append, List.mem_singleton]

theorem handover_recover {request : OperationId} {clock : Nat → Int} {op : PreparationOp}
    (done : privatePreparationRecover around store hub request operation clock = .ok next) :
    Handover store next op := by
  unfold privatePreparationRecover at done
  obtain ⟨_, _, done⟩ := bind_eq_ok_iff.mp done
  obtain ⟨owner, _, done⟩ := bind_eq_ok_iff.mp done
  obtain ⟨row, found, done⟩ := bind_eq_ok_iff.mp done
  obtain ⟨_, _, done⟩ := bind_eq_ok_iff.mp done
  obtain ⟨stored, rfl⟩ := preparation?_eq_some_iff.mp (orFail_eq_ok_iff.mp found)
  split at done
  · obtain ⟨_, _, done⟩ := bind_eq_ok_iff.mp done
    obtain rfl := pure_eq_ok_iff.mp done
    exact .rests rfl rfl
  · obtain ⟨_, claimed, done⟩ := bind_eq_ok_iff.mp done
    obtain ⟨⟨card, bound⟩, _, done⟩ := bind_eq_ok_iff.mp done
    obtain ⟨_, _, done⟩ := bind_eq_ok_iff.mp done
    obtain ⟨_, _, done⟩ := bind_eq_ok_iff.mp done
    obtain ⟨session, held, done⟩ := bind_eq_ok_iff.mp done
    obtain ⟨recoveries, inserted, done⟩ := bind_eq_ok_iff.mp done
    obtain rfl := pure_eq_ok_iff.mp done
    have rows := Table.rows_of_insert? (orFail_eq_ok_iff.mp inserted)
    refine .recovered row session ⟨request, row.id, session, hub.node, clock 0⟩ stored
      (require_eq_ok_iff.mp claimed) (orFail_eq_ok_iff.mp held) ⟨rfl, rfl⟩ ?_ ?_
    · exact fun _ => mem_updatePreparation
    · intro other
      change other ∈ recoveries.rows ↔ _
      rw [rows, List.mem_append, List.mem_singleton]

/-- What a step does to the preparations. -/
theorem handover_step (store : PreparationStore) (event : PreparationEvent) :
    Handover store (store.step event) event.op := by
  unfold PreparationStore.step
  split
  · rename_i next done
    obtain ⟨op, around, clock⟩ := event
    cases op with
    | board op apart =>
      obtain ⟨board, _, done⟩ := bind_eq_ok_iff.mp done
      obtain rfl := pure_eq_ok_iff.mp done
      exact .rests rfl rfl
    | request hub operation card => exact handover_request done
    | recover hub request operation => exact handover_recover done
    | take hub inactive =>
      obtain ⟨work?, done⟩ := map_fst_eq_ok_iff.mp done
      cases work? with
      | none =>
        obtain rfl := rests_take done
        exact .rests rfl rfl
      | some work =>
        obtain ⟨row, takes, _, rows, recoveries⟩ := takes_of_ok done
        exact .taken hub row takes rows recoveries
    | complete hub operation workspace =>
      obtain ⟨row, rfl, _, ⟨_, _, _, rfl⟩ | ⟨claims, rows, recoveries⟩⟩ := complete_ok done
      · exact .rests rfl rfl
      · exact .completed hub workspace row rfl claims rows recoveries
  · exact .rests rfl rfl

end Handover

section Fenced

/-- No session has what it was retired from. -/
def PreparationStore.Fenced (store : PreparationStore) : Prop :=
  ∀ row ∈ store.preparations.rows, ∀ session, row.session = some session →
    ¬ store.Retired row.id session

theorem Rewrites.fenced {change : PreparationRow → PreparationRow}
    (rows : Rewrites operation change store next) (recoveries : next.recoveries = store.recoveries)
    (fenced : store.Fenced)
    (keeps : ∀ row ∈ store.preparations.rows, row.id = operation →
      (change row).id = row.id ∧ ∀ session, (change row).session = some session →
        ¬ store.Retired row.id session) : next.Fenced := by
  intro row member session held retired
  obtain ⟨stored, inTable, rfl⟩ := (rows row).mp member
  unfold PreparationStore.Retired at retired
  rw [recoveries] at retired
  split at held
  · rename_i same
    rw [if_pos same] at retired
    obtain ⟨kept, apart⟩ := keeps stored inTable same
    exact apart session held (kept ▸ retired)
  · rename_i other
    rw [if_neg other] at retired
    exact fenced stored inTable session held retired

/-- A step keeps sessions away from what they were retired from. -/
theorem Handover.fenced {op : PreparationOp} (handover : Handover store next op)
    (fenced : store.Fenced) : next.Fenced := by
  cases handover with
  | rests rows recoveries =>
    intro row member session held retired
    obtain ⟨recovery, logged, retires⟩ := retired
    exact fenced row (rows ▸ member) session held ⟨recovery, recoveries ▸ logged, retires⟩
  | requested row _ _ unclaimed rows recoveries =>
    intro other member session held retired
    obtain ⟨recovery, logged, retires⟩ := retired
    rcases (rows other).mp member with stored | rfl
    · exact fenced other stored session held ⟨recovery, recoveries ▸ logged, retires⟩
    · rw [unclaimed] at held
      cases held
  | taken hub row takes rows recoveries =>
    refine rows.fenced recoveries fenced ?_
    intro stored _ same
    refine ⟨rfl, fun session held => ?_⟩
    obtain rfl := Option.some.inj held
    rw [same]
    exact takes.unretired
  | completed hub workspace row _ claims rows recoveries =>
    exact rows.fenced recoveries fenced fun stored inTable _ => ⟨rfl, fenced stored inTable⟩
  | recovered row session recovery stored claimed held retires rows recoveries =>
    intro other member session' held' retired
    obtain ⟨before, inTable, rfl⟩ := (rows other).mp member
    split at held'
    · cases held'
    · rename_i apart
      rw [if_neg apart] at retired
      obtain ⟨logged, member, retires'⟩ := retired
      rcases (recoveries logged).mp member with earlier | rfl
      · exact fenced before inTable session' held' ⟨logged, earlier, retires'⟩
      · exact apart (retires'.1.symm.trans retires.1)

theorem Handover.retired {op : PreparationOp} (handover : Handover store next op)
    (retired : store.Retired operation session) : next.Retired operation session := by
  obtain ⟨recovery, logged, retires⟩ := retired
  cases handover with
  | rests _ recoveries => exact ⟨recovery, recoveries.symm ▸ logged, retires⟩
  | requested _ _ _ _ _ recoveries => exact ⟨recovery, recoveries.symm ▸ logged, retires⟩
  | taken _ _ _ _ recoveries => exact ⟨recovery, recoveries.symm ▸ logged, retires⟩
  | completed _ _ _ _ _ _ recoveries => exact ⟨recovery, recoveries.symm ▸ logged, retires⟩
  | recovered _ _ _ _ _ _ _ _ recoveries =>
    exact ⟨recovery, (recoveries recovery).mpr (Or.inl logged), retires⟩

end Fenced

section Done

theorem row_unique {row other : PreparationRow} (stored : row ∈ store.preparations.rows)
    (stored' : other ∈ store.preparations.rows) (same : row.id = other.id) : row = other := by
  have found := preparation?_eq_some_iff.mpr ⟨stored, rfl⟩
  have found' := preparation?_eq_some_iff.mpr ⟨stored', same.symm⟩
  exact Option.some.inj (found.symm.trans found')

theorem Rewrites.keeps {change : PreparationRow → PreparationRow}
    (rows : Rewrites operation change store next) {row : PreparationRow}
    (stored : row ∈ store.preparations.rows) (other : row.id ≠ operation) :
    row ∈ next.preparations.rows :=
  (rows row).mpr ⟨row, stored, if_neg other⟩

/-- A preparation that is done stays as it is. -/
theorem Handover.keeps {op : PreparationOp} (handover : Handover store next op)
    {row : PreparationRow} (stored : row ∈ store.preparations.rows) (done : row.state = .prepared) :
    row ∈ next.preparations.rows := by
  cases handover with
  | rests rows _ => exact rows.symm ▸ stored
  | requested _ _ _ _ rows _ => exact (rows row).mpr (Or.inl stored)
  | taken hub other takes rows _ =>
    refine rows.keeps stored fun same => takes.undone ?_
    exact row_unique stored takes.stored same ▸ done
  | completed hub workspace other _ claims rows _ =>
    refine rows.keeps stored fun same => ?_
    have claimed := claims.claimed
    rw [← row_unique stored claims.stored same, done] at claimed
    cases claimed
  | recovered other session recovery inTable claimed _ _ rows _ =>
    refine rows.keeps stored fun same => ?_
    rw [← row_unique stored inTable same, done] at claimed
    cases claimed

/-- A preparation becomes done through the completion of the session that has it claimed. -/
theorem Handover.completes {op : PreparationOp} (handover : Handover store next op)
    {row : PreparationRow} (stored : row ∈ next.preparations.rows) (done : row.state = .prepared)
    (before : ∀ earlier ∈ store.preparations.rows, earlier.id = row.id →
      earlier.state ≠ .prepared) :
    ∃ hub workspace claimed, op = .complete hub row.id workspace ∧ Claims store hub claimed ∧
      row = claimed.done workspace := by
  cases handover with
  | rests rows _ => exact absurd done (before row (rows ▸ stored) rfl)
  | requested other _ queued _ rows _ =>
    rcases (rows row).mp stored with earlier | rfl
    · exact absurd done (before row earlier rfl)
    · rw [queued] at done
      cases done
  | taken hub other takes rows _ =>
    obtain ⟨earlier, inTable, rfl⟩ := (rows row).mp stored
    split at done
    · cases done
    · rename_i apart
      rw [if_neg apart] at before
      exact absurd done (before earlier inTable rfl)
  | completed hub workspace claimed completes claims rows _ =>
    obtain ⟨earlier, inTable, rfl⟩ := (rows row).mp stored
    by_cases same : earlier.id = claimed.id
    · obtain rfl := row_unique inTable claims.stored same
      rw [if_pos rfl]
      exact ⟨hub, workspace, earlier, completes, claims, rfl⟩
    · rw [if_neg same] at done before
      exact absurd done (before earlier inTable rfl)
  | recovered other session recovery inTable' claimed _ _ rows _ =>
    obtain ⟨earlier, inTable, rfl⟩ := (rows row).mp stored
    split at done
    · cases done
    · rename_i apart
      rw [if_neg apart] at before
      exact absurd done (before earlier inTable rfl)

/-- The row that an accepted completion leaves behind. -/
structure Done (store : PreparationStore) (hub : Session) (operation : OperationId)
    (workspace : String) (row : PreparationRow) : Prop where
  stored : row ∈ store.preparations.rows
  identity : row.id = operation
  prepared : row.state = .prepared
  target : row.targetNodeId = hub.node
  session : row.session = some hub.session
  workspace : row.workspace = some workspace

theorem done_of_ok {workspace : String}
    (done : privatePreparationComplete around store hub operation workspace = .ok next) :
    ∃ row, Done next hub operation workspace row := by
  obtain ⟨row, rfl, held, ⟨stored, prepared, same, rfl⟩ | ⟨claims, rows, _⟩⟩ := complete_ok done
  · simp only [privatePreparationComplete, bind_eq_ok_iff, require_eq_ok_iff, exists_const,
      orFail_eq_ok_iff] at done
    obtain ⟨_, _, _, owner, _, found, lookup, _, _, target, _⟩ := done
    obtain ⟨inTable, same'⟩ := preparation?_eq_some_iff.mp lookup
    obtain rfl := row_unique inTable stored same'
    exact ⟨found, stored, rfl, prepared, target, held, same⟩
  · refine ⟨row.done workspace, ?_, rfl, rfl, claims.target, held, rfl⟩
    exact (rows _).mpr ⟨row, claims.stored, if_pos rfl⟩

/-- What is done is completed again only as it was, and the repetition changes nothing. -/
theorem Done.repeats {workspace again : String} {row : PreparationRow} {hub' : Session}
    (finished : Done store hub operation workspace row)
    (done : privatePreparationComplete around store hub' operation again = .ok next) :
    again = workspace ∧ next = store := by
  obtain ⟨other, identity, _, ⟨stored, _, same, rfl⟩ | ⟨claims, _⟩⟩ := complete_ok done
  · obtain rfl := row_unique stored finished.stored (identity.trans finished.identity.symm)
    exact ⟨Option.some.inj (same.symm.trans finished.workspace), rfl⟩
  · have claimed := claims.claimed
    rw [row_unique claims.stored finished.stored (identity.trans finished.identity.symm),
      finished.prepared] at claimed
    cases claimed

/-- The session that completed a preparation may say so again. -/
theorem Done.replies {workspace owner : String} {row : PreparationRow}
    (finished : Done store hub operation workspace row) (text : checkText workspace 4096 = .ok ())
    (absolute : workspace.toList.head? = some '/')
    (verified : around.verifiedOwner hub.node = .ok owner)
    (bound : around.verifyTarget owner hub.node = .ok ()) :
    privatePreparationComplete around store hub operation workspace = .ok store := by
  have found := preparation?_eq_some_iff.mpr ⟨finished.stored, finished.identity⟩
  simp [privatePreparationComplete, text, absolute, verified, found, finished.target, bound,
    finished.session, finished.prepared, finished.workspace, require, orFail, bind, Except.bind,
    pure, Except.pure]

end Done

section Runs

variable {events : List PreparationEvent}

theorem handover_storeAt (events : List PreparationEvent) (moment : Nat) :
    (∃ event, events[moment]? = some event ∧
      Handover (storeAt events moment) (storeAt events (moment + 1)) event.op) ∨
    storeAt events (moment + 1) = storeAt events moment := by
  rcases stateAt_next PreparationStore.step PreparationStore.empty events moment with
    ⟨event, present, next⟩ | ⟨_, next⟩
  · have handover := handover_step (storeAt events moment) event
    rw [← next] at handover
    exact Or.inl ⟨event, present, handover⟩
  · exact Or.inr next

theorem fenced_storeAt (events : List PreparationEvent) (moment : Nat) :
    (storeAt events moment).Fenced := by
  induction moment with
  | zero => exact fun row member => nomatch member
  | succ moment ih =>
    rcases handover_storeAt events moment with ⟨event, _, handover⟩ | rests
    · exact handover.fenced ih
    · rw [rests]
      exact ih

theorem retired_storeAt {earlier moment : Nat} (ordered : earlier ≤ moment)
    (retired : (storeAt events earlier).Retired operation session) :
    (storeAt events moment).Retired operation session := by
  refine holds_from (fun moment => (storeAt events moment).Retired operation session) ?_ ordered
    retired
  intro moment retired
  rcases handover_storeAt events moment with ⟨event, _, handover⟩ | rests
  · exact handover.retired retired
  · exact rests.symm ▸ retired

theorem done_storeAt {earlier moment : Nat} {workspace : String} {row : PreparationRow}
    (ordered : earlier ≤ moment) (done : Done (storeAt events earlier) hub operation workspace row) :
    Done (storeAt events moment) hub operation workspace row := by
  refine ⟨?_, done.identity, done.prepared, done.target, done.session, done.workspace⟩
  refine holds_from (fun moment => row ∈ (storeAt events moment).preparations.rows) ?_ ordered
    done.stored
  intro moment stored
  rcases handover_storeAt events moment with ⟨event, _, handover⟩ | rests
  · exact handover.keeps stored done.prepared
  · exact rests.symm ▸ stored

/-- A session that was retired from a preparation cannot complete it. -/
theorem PreparationStore.Fenced.refuses {workspace : String} (fenced : store.Fenced)
    (retired : store.Retired operation hub.session) :
    privatePreparationComplete around store hub operation workspace ≠ .ok next := by
  intro done
  obtain ⟨row, rfl, held, ⟨stored, _⟩ | ⟨claims, _⟩⟩ := complete_ok done
  · exact fenced row stored hub.session held retired
  · exact fenced row claims.stored hub.session held retired

/-- What holds in a run of the sessions that take preparations and report on them. -/
structure PreparationFencing (events : List PreparationEvent) : Prop where
  retired : ∀ earlier moment operation, earlier ≤ moment → ∀ hub : Session,
    (storeAt events earlier).Retired operation hub.session → ∀ around,
      (∀ inactive next work, privatePreparationTake around (storeAt events moment) hub inactive =
        .ok (next, some work) → work.operationId ≠ operation) ∧
      ∀ workspace next, privatePreparationComplete around (storeAt events moment) hub operation
        workspace ≠ .ok next
  completed : ∀ count, ∀ row ∈ (storeAt events (count + 1)).preparations.rows,
    row.state = .prepared →
    (∀ before ∈ (storeAt events count).preparations.rows, before.id = row.id →
      before.state ≠ .prepared) →
    ∃ event hub workspace claimed, events[count]? = some event ∧
      event.op = .complete hub row.id workspace ∧ Claims (storeAt events count) hub claimed ∧
      row = claimed.done workspace
  replayed : ∀ count event hub operation workspace next, events[count]? = some event →
    event.op = .complete hub operation workspace →
    event.reply (storeAt events count) = .ok next → ∀ moment, count < moment → ∀ around owner,
      around.verifiedOwner hub.node = .ok owner → around.verifyTarget owner hub.node = .ok () →
      privatePreparationComplete around (storeAt events moment) hub operation workspace =
        .ok (storeAt events moment)
  settled : ∀ count event hub operation workspace next, events[count]? = some event →
    event.op = .complete hub operation workspace →
    event.reply (storeAt events count) = .ok next → ∀ moment, count < moment →
    ∀ around other again after, privatePreparationComplete around (storeAt events moment) other
      operation again = .ok after → again = workspace ∧ after = storeAt events moment

/-- An accepted completion leaves its preparation done from then on. -/
theorem done_of_accepted {count moment : Nat} {event : PreparationEvent} {workspace : String}
    (present : events[count]? = some event) (completes : event.op = .complete hub operation workspace)
    (accepted : event.reply (storeAt events count) = .ok next) (later : count < moment) :
    ∃ row, Done (storeAt events moment) hub operation workspace row := by
  have step : storeAt events (count + 1) = next := by
    rw [storeAt, stateAt_succ PreparationStore.step PreparationStore.empty present,
      PreparationStore.step, accepted]
  obtain ⟨op, around, clock⟩ := event
  obtain rfl : op = _ := completes
  obtain ⟨row, finished⟩ := done_of_ok accepted
  exact ⟨row, done_storeAt later (step.symm ▸ finished)⟩

theorem preparation_fencing (events : List PreparationEvent) : PreparationFencing events := by
  refine ⟨?_, ?_, ?_, ?_⟩
  · intro earlier moment operation ordered hub retired around
    have still := retired_storeAt ordered retired
    refine ⟨?_, fun workspace next => (fenced_storeAt events moment).refuses still⟩
    rintro inactive next work taken rfl
    obtain ⟨row, takes, rfl, _, _⟩ := takes_of_ok taken
    exact takes.unretired still
  · intro count row stored prepared before
    rcases handover_storeAt events count with ⟨event, present, handover⟩ | rests
    · obtain ⟨hub, workspace, claimed, completes, claims, same⟩ :=
        handover.completes stored prepared before
      exact ⟨event, hub, workspace, claimed, present, completes, claims, same⟩
    · exact absurd prepared (before row (rests ▸ stored) rfl)
  · intro count event hub operation workspace next present completes accepted moment later around
      owner verified bound
    obtain ⟨row, finished⟩ := done_of_accepted present completes accepted later
    obtain ⟨op, within, clock⟩ := event
    obtain rfl : op = _ := completes
    have accepted : privatePreparationComplete within (storeAt events count) hub operation
        workspace = .ok next := accepted
    simp only [privatePreparationComplete, bind_eq_ok_iff, require_eq_ok_iff, exists_const]
      at accepted
    obtain ⟨_, text, absolute, _⟩ := accepted
    exact finished.replies text absolute verified bound
  · intro count event hub operation workspace next present completes accepted moment later around
      other again after done
    obtain ⟨row, finished⟩ := done_of_accepted present completes accepted later
    exact finished.repeats done

end Runs

section Examples

/-- The first of two taken preparations is recovered, and another session completes it. -/
def recoveredTask : List PreparationEvent :=
  takenTask ++ [(PreparationOp.recover workerSession 41 21).at 4,
    (PreparationOp.take { workerSession with session := 3 } (fun _ => false)).at 5,
    (PreparationOp.complete { workerSession with session := 3 } 21 "/work").at 6]

/-- A session that was retired takes the computer's next preparation. -/
theorem retired_session_takes :
    ¬ ∀ (events : List PreparationEvent) (earlier moment : Nat) (operation : OperationId)
      (hub : Session), earlier ≤ moment →
      (storeAt events earlier).Retired operation hub.session →
      ∀ around inactive next work, privatePreparationTake around (storeAt events moment) hub
        inactive ≠ .ok (next, some work) := by
  intro refused
  have retired : (storeAt recoveredTask 8).Retired 21 workerSession.session :=
    ⟨⟨41, 21, workerSession.session, workerSession.node, 4⟩, by decide, rfl, rfl⟩
  have takes : ((privatePreparationTake openSurroundings (storeAt recoveredTask 10) workerSession
      (fun _ => false)).toOption.bind Prod.snd).isSome := by decide
  cases taken : privatePreparationTake openSurroundings (storeAt recoveredTask 10) workerSession
      (fun _ => false) with
  | error failure =>
    rw [taken] at takes
    cases takes
  | ok result =>
    obtain ⟨next, work?⟩ := result
    cases work? with
    | none =>
      rw [taken] at takes
      cases takes
    | some work =>
      exact refused recoveredTask 8 10 21 workerSession (by decide) retired openSurroundings
        (fun _ => false) next work taken

end Examples

end OHHive.LocalHub
