import OHHive.Subscription.Journal

/-! What a transaction on the journal does to each turn and to each session. -/

namespace OHHive.Subscription

open Foundation

variable {journal next : Journal} {lease : Lease} {now : Int}

section Moves

/-- What one transaction does to one turn; only the turn it is about can be a new one. -/
inductive TurnMove (journal : Journal) (focus key : TurnKey) : Option Turn → Option Turn → Prop
  | kept (turn : Option Turn) : TurnMove journal focus key turn turn
  | prepared (inputHash : String) (same : key = focus)
      (free : ∀ turn ∈ journal.turns.rows, turn.key.session = key.session →
        turn.state.isPending = false) :
      TurnMove journal focus key none (some ⟨key, inputHash, .prepared, none, none⟩)
  | dispatched (turn : Turn) (state : turn.state = .prepared) :
      TurnMove journal focus key (some turn) (some (turn.withState .dispatched))
  | lost (turn : Turn) (state : turn.state = .dispatched) :
      TurnMove journal focus key (some turn) (some (turn.withState .deliveryUnknown))
  | acknowledged (turn : Turn) (id : String) (sent : turn.state.isSent = true)
      (same : turn.record.otherTurn id = false) :
      TurnMove journal focus key (some turn) (some (turn.acknowledged id))
  | finished (turn : Turn) (state : TurnState) (id receipt : String)
      (sent : turn.state.isSent = true) (same : turn.record.otherTurn id = false)
      (terminal : state.isPending = false) :
      TurnMove journal focus key (some turn) (some (turn.finished state id receipt))

/-- What one transaction does to one session. -/
inductive SessionMove : Option SessionRow → Option SessionRow → Prop
  | kept (row : Option SessionRow) : SessionMove row row
  | opened (id : Uuid) (binding : Binding) (writer : Uuid) (expires : Int) :
      SessionMove none (some ⟨id, binding, some writer, 1, expires⟩)
  | claimed (row : SessionRow) (writer : Uuid) (expires : Int) :
      SessionMove (some row) (some (row.claimed writer expires))
  | extended (row : SessionRow) (expires : Int) :
      SessionMove (some row) (some (row.extended expires))
  | released (row : SessionRow) : SessionMove (some row) (some row.released)

structure JournalMove (journal next : Journal) : Prop where
  turns : ∃ focus, ∀ key, TurnMove journal focus key (journal.turn? key) (next.turn? key)
  sessions : ∀ id, SessionMove (journal.session? id) (next.session? id)

theorem JournalMove.refl (journal : Journal) : JournalMove journal journal :=
  ⟨⟨⟨0, 0⟩, fun _ => .kept _⟩, fun _ => .kept _⟩

end Moves

section Statements

/-- An update of selected turns moves each as it moves the selected ones. -/
theorem turnMove_updateWhere {where? : Turn → Bool} {change : Turn → Turn}
    {turns : Table Turn (Table.SameKey Turn.key)} {focus key : TurnKey}
    (fixed : ∀ turn, (change turn).key = turn.key) (updated : turns = journal.turns.updateWhere where? change fixed)
    (moves : ∀ turn, journal.turn? key = some turn → where? turn = true →
      TurnMove journal focus key (some turn) (some (change turn))) :
    TurnMove journal focus key (journal.turn? key) (turns.lookup key) := by
  rw [updated, Table.lookup_updateWhere _ _ _ fixed]
  change TurnMove journal focus key (journal.turn? key) ((journal.turn? key).map _)
  cases found : journal.turn? key with
  | none => exact .kept none
  | some turn =>
    by_cases selected : where? turn = true
    · rw [Option.map_some, if_pos selected]
      exact moves turn found selected
    · rw [Option.map_some, if_neg selected]
      exact .kept _

theorem turnMove_loseDispatched (journal : Journal) (session : Uuid) (focus key : TurnKey) :
    TurnMove journal focus key (journal.turn? key) ((journal.loseDispatched session).turn? key) := by
  apply turnMove_updateWhere (Turn.key_withState _) rfl
  intro turn _ selected
  simp only [Bool.and_eq_true, decide_eq_true_eq] at selected
  exact .lost turn selected.2

/-- An update of one session moves that session only. -/
theorem sessionMove_updateWhere {change : SessionRow → SessionRow}
    {sessions : Table SessionRow (Table.SameKey SessionRow.id)} {session : Uuid}
    (fixed : ∀ row, (change row).id = row.id)
    (updated : sessions = journal.sessions.updateWhere (fun row => row.id = session) change fixed)
    (moves : ∀ row, SessionMove (some row) (some (change row))) (id : Uuid) :
    SessionMove (journal.session? id) (sessions.lookup id) := by
  rw [updated, Table.lookup_updateWhere _ _ _ fixed]
  change SessionMove (journal.session? id) ((journal.session? id).map _)
  cases journal.session? id with
  | none => exact .kept none
  | some row =>
    rw [Option.map_some]
    split
    · exact moves row
    · exact .kept _

theorem fence_eq_ok_iff {fenced : Unit} :
    journal.fence lease now = .ok fenced ↔ journal.Current lease now := by
  simp only [Journal.fence, require_eq_ok_iff, List.any_eq_true, Bool.and_eq_true,
    decide_eq_true_eq, Journal.Current, Journal.session?, Table.lookup_eq_some_iff]
  constructor
  · rintro ⟨row, member, ⟨⟨same, writer⟩, generation⟩, live⟩
    exact ⟨row, ⟨member, same⟩, writer, generation, live⟩
  · rintro ⟨row, ⟨member, same⟩, writer, generation, live⟩
    exact ⟨row, member, ⟨⟨same, writer⟩, generation⟩, live⟩

end Statements

section Transactions

/-- The lease of a successful acquisition is newer than every lease of the session before. -/
theorem acquire_ok {binding : Binding} {writer : Uuid} {seconds : Nat}
    (done : journal.acquire binding writer seconds now = .ok (next, lease)) :
    JournalMove journal next ∧
      lease.session = binding.session ∧ lease.writer = writer ∧
      (∀ row, journal.session? binding.session = some row →
        row.generation < lease.generation ∧ row.expires ≤ now) ∧
      ∃ row, next.session? binding.session = some row ∧ row.writer = some writer ∧
        row.generation = lease.generation ∧ row.binding = binding := by
  simp only [Journal.acquire, bind_eq_ok_iff, require_eq_ok_iff, exists_const, orFail_eq_ok_iff,
    pure_eq_ok_iff, Prod.mk.injEq] at done
  obtain ⟨_, stored, found, bound, expired, _, rfl, rfl⟩ := done
  have turns : ∀ key, TurnMove journal ⟨0, 0⟩ key (journal.turn? key)
      ((journal.loseDispatched binding.session).turn? key) :=
    fun key => turnMove_loseDispatched journal _ _ key
  have taken : ∀ (sessions : Table SessionRow (Table.SameKey SessionRow.id)),
      sessions.lookup binding.session = some stored →
      (sessions.updateWhere (fun row => row.id = binding.session)
        (SessionRow.claimed writer (now + seconds)) (SessionRow.id_claimed _ _)).lookup
          binding.session = some (stored.claimed writer (now + seconds)) := by
    intro sessions stays
    have same := Table.key_of_lookup stays
    rw [Table.lookup_updateWhere _ _ _ (SessionRow.id_claimed _ _), stays, Option.map_some,
      if_pos (by simpa using same)]
  cases inserted : journal.sessions.insert? ⟨binding.session, binding, none, 0, 0⟩ with
  | none =>
    rw [inserted, Option.getD_none] at found
    refine ⟨⟨⟨_, turns⟩, ?_⟩, rfl, rfl, ?_, ?_⟩
    · simp only [Option.getD_none]
      exact sessionMove_updateWhere (SessionRow.id_claimed _ _) rfl (fun row => .claimed row writer _)
    · intro row present
      obtain rfl := Option.some.inj (found.symm.trans present)
      exact ⟨Nat.lt_succ_self _, expired⟩
    · refine ⟨stored.claimed writer (now + seconds), ?_, rfl, rfl, bound⟩
      simp only [Option.getD_none]
      exact taken _ found
  | some sessions =>
    rw [inserted, Option.getD_some] at found
    have fresh := Table.lookup_insert? inserted
    have absent : journal.session? binding.session = none := by
      rw [Journal.session?, Table.lookup_eq_none_iff]
      exact fun row member same => (Table.insert?_eq_some_iff.mp inserted).1 row member same
    refine ⟨⟨⟨_, turns⟩, ?_⟩, rfl, rfl, ?_, ?_⟩
    · intro id
      simp only [Option.getD_some]
      by_cases same : binding.session = id
      · subst same
        have opened := fresh binding.session
        rw [if_pos rfl, found] at opened
        obtain rfl := Option.some.inj opened
        rw [absent]
        change SessionMove none (Table.lookup _ _)
        rw [taken _ found]
        exact .opened _ _ _ _
      · have other : (sessions.updateWhere (fun row => row.id = binding.session)
            (SessionRow.claimed writer (now + seconds)) (SessionRow.id_claimed _ _)).lookup id =
              journal.session? id := by
          rw [Table.lookup_updateWhere _ _ _ (SessionRow.id_claimed _ _), fresh id, if_neg same]
          change Option.map _ (journal.session? id) = _
          cases present : journal.session? id with
          | none => rfl
          | some row =>
            have identity : row.id = id := Table.key_of_lookup present
            rw [Option.map_some, if_neg (by simp [identity, Ne.symm same])]
        change SessionMove _ (Table.lookup _ _)
        rw [other]
        exact .kept _
    · intro row present
      rw [absent] at present
      cases present
    · refine ⟨stored.claimed writer (now + seconds), ?_, rfl, rfl, bound⟩
      simp only [Option.getD_some]
      exact taken _ found

theorem renew_ok {seconds : Nat} {answer : Unit}
    (done : journal.renew lease seconds now = .ok (next, answer)) :
    journal.Current lease now ∧ JournalMove journal next := by
  simp only [Journal.renew, bind_eq_ok_iff, require_eq_ok_iff, exists_const, fence_eq_ok_iff,
    pure_eq_ok_iff, Prod.mk.injEq] at done
  obtain ⟨_, current, rfl, _⟩ := done
  exact ⟨current, ⟨⟨0, 0⟩, fun _ => .kept _⟩,
    sessionMove_updateWhere (SessionRow.id_extended _) rfl (fun row => .extended row _)⟩

theorem prepare_ok {operation : Uuid} {inputHash : String} {record : TurnRecord}
    (done : journal.prepare lease operation inputHash now = .ok (next, record)) :
    journal.Current lease now ∧ JournalMove journal next := by
  simp only [Journal.prepare, bind_eq_ok_iff, require_eq_ok_iff, exists_const,
    fence_eq_ok_iff] at done
  obtain ⟨_, current, body⟩ := done
  refine ⟨current, ?_⟩
  split at body
  · simp only [bind_eq_ok_iff, require_eq_ok_iff, exists_const, pure_eq_ok_iff,
      Prod.mk.injEq] at body
    obtain ⟨_, _, _, rfl, _⟩ := body
    exact .refl _
  · rename_i absent
    simp only [bind_eq_ok_iff, require_eq_ok_iff, exists_const, orFail_eq_ok_iff, pure_eq_ok_iff,
      Prod.mk.injEq] at body
    obtain ⟨idle, turns, inserted, _, _, rfl, _⟩ := body
    refine ⟨⟨⟨lease.session, operation⟩, ?_⟩, fun _ => .kept _⟩
    intro key
    have seen := Table.lookup_insert? inserted key
    change TurnMove journal _ key (journal.turn? key) (turns.lookup key)
    rw [seen]
    split
    · rename_i same
      change (⟨lease.session, operation⟩ : TurnKey) = key at same
      subst same
      rw [absent]
      refine .prepared inputHash rfl ?_
      intro turn member session
      simp only [List.any_eq_true, Bool.and_eq_true, decide_eq_true_eq, not_exists, not_and] at idle
      exact Bool.eq_false_iff.mpr (idle turn member session)
    · exact .kept _

/-- A true answer means that the turn was prepared, and is dispatched now. -/
theorem markDispatched_ok {operation : Uuid} {changed : Bool}
    (done : journal.markDispatched lease operation now = .ok (next, changed)) :
    journal.Current lease now ∧ JournalMove journal next ∧
      (changed = true → ∃ turn, journal.turn? ⟨lease.session, operation⟩ = some turn ∧
        turn.state = .prepared ∧
        next.turn? ⟨lease.session, operation⟩ = some (turn.withState .dispatched)) := by
  simp only [Journal.markDispatched, bind_eq_ok_iff, exists_const, fence_eq_ok_iff, pure_eq_ok_iff,
    Prod.mk.injEq] at done
  obtain ⟨current, rfl, rfl⟩ := done
  refine ⟨current, ⟨⟨⟨lease.session, operation⟩, ?_⟩, fun _ => .kept _⟩, ?_⟩
  · intro key
    apply turnMove_updateWhere (Turn.key_withState _) rfl
    intro turn _ selected
    simp only [Bool.and_eq_true, decide_eq_true_eq] at selected
    exact .dispatched turn selected.2
  · intro prepared
    obtain ⟨turn, found, state⟩ := (Option.any_eq_true _ _).mp prepared
    refine ⟨turn, found, of_decide_eq_true state, ?_⟩
    change Table.lookup _ _ = _
    have stored : journal.turns.lookup ⟨lease.session, operation⟩ = some turn := found
    rw [Table.lookup_updateWhere _ _ _ (Turn.key_withState _), stored, Option.map_some,
      if_pos (by simp [Table.key_of_lookup stored, of_decide_eq_true state])]

theorem pending_ok {turns : List PendingTurn} (done : journal.pending lease now = .ok turns) :
    journal.Current lease now := by
  simp only [Journal.pending, bind_eq_ok_iff, exists_const, fence_eq_ok_iff] at done
  exact done.1

/-- The update of the turn that an operation has read. -/
theorem turnMove_read {key focus : TurnKey} {record : TurnRecord} {change : Turn → Turn}
    (fixed : ∀ turn, (change turn).key = turn.key) (read : journal.read key = .ok record)
    (moves : ∀ turn, turn.record = record →
      TurnMove journal focus key (some turn) (some (change turn))) (other : TurnKey) :
    TurnMove journal focus other (journal.turn? other)
      ((journal.turns.updateWhere (fun turn => turn.key = key) change fixed).lookup other) := by
  simp only [Journal.read, bind_eq_ok_iff, orFail_eq_ok_iff, pure_eq_ok_iff] at read
  obtain ⟨stored, found, rfl⟩ := read
  by_cases same : key = other
  · subst same
    apply turnMove_updateWhere fixed rfl
    intro turn present _
    exact moves turn (congrArg Turn.record (Option.some.inj (present.symm.trans found)))
  · apply turnMove_updateWhere fixed rfl
    intro turn present selected
    have identity : turn.key = other := Table.key_of_lookup present
    exact absurd ((of_decide_eq_true selected).symm.trans identity) same

theorem acknowledge_ok {operation : Uuid} {providerTurn : String} {answer : Unit}
    (done : journal.acknowledge lease operation providerTurn now = .ok (next, answer)) :
    journal.Current lease now ∧ JournalMove journal next := by
  simp only [Journal.acknowledge, bind_eq_ok_iff, exists_const, fence_eq_ok_iff,
    require_eq_ok_iff, pure_eq_ok_iff, Prod.mk.injEq] at done
  obtain ⟨_, _, current, old, read, ⟨sent, same⟩, rfl, _⟩ := done
  refine ⟨current, ⟨⟨lease.session, operation⟩, ?_⟩, fun _ => .kept _⟩
  refine turnMove_read (Turn.key_acknowledged _) read ?_
  rintro turn rfl
  exact .acknowledged turn providerTurn sent (Bool.eq_false_iff.mpr same)

theorem release_ok {answer : Unit} (done : journal.release lease now = .ok (next, answer)) :
    journal.Current lease now ∧ JournalMove journal next := by
  simp only [Journal.release, bind_eq_ok_iff, exists_const, fence_eq_ok_iff, pure_eq_ok_iff,
    Prod.mk.injEq] at done
  obtain ⟨current, rfl, _⟩ := done
  refine ⟨current, ⟨⟨0, 0⟩, fun key => turnMove_loseDispatched journal _ _ key⟩, ?_⟩
  exact sessionMove_updateWhere SessionRow.id_released rfl (fun row => .released row)

theorem finish_ok {operation : Uuid} {providerTurn receipt : String} {succeeded : Bool}
    {answer : Unit}
    (done : journal.finish lease operation providerTurn receipt succeeded now =
      .ok (next, answer)) :
    journal.Current lease now ∧ JournalMove journal next := by
  simp only [Journal.finish, bind_eq_ok_iff, exists_const, fence_eq_ok_iff,
    require_eq_ok_iff] at done
  obtain ⟨_, _, _, _, current, previous, read, same, body⟩ := done
  refine ⟨current, ?_⟩
  split at body
  · simp only [pure_eq_ok_iff, Prod.mk.injEq] at body
    obtain ⟨rfl, _⟩ := body
    exact .refl _
  · simp only [bind_eq_ok_iff, exists_const, require_eq_ok_iff, pure_eq_ok_iff,
      Prod.mk.injEq] at body
    obtain ⟨sent, rfl, _⟩ := body
    refine ⟨⟨⟨lease.session, operation⟩, ?_⟩, fun _ => .kept _⟩
    refine turnMove_read (Turn.key_finished _ _ _) read ?_
    rintro turn rfl
    refine .finished turn _ providerTurn receipt sent (Bool.eq_false_iff.mpr same) ?_
    cases succeeded <;> rfl

end Transactions

end OHHive.Subscription
