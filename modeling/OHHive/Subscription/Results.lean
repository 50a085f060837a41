import OHHive.Subscription.Dispatch
import OHHive.Bots.Types

/-! The private reply storage beside the journal: one immutable result for each sent turn, stored
under a receipt of its own, and what a completed turn hands to its publication. -/

namespace OHHive.Subscription

open Foundation

section Records

/-- A stored row of `results`. -/
structure StoredResult where
  key : TurnKey
  providerTurn : String
  body : String
  receipt : String
deriving DecidableEq, Repr

/-- The primary key of `results`, or its unique receipt. -/
def StoredResult.Clash (earlier later : StoredResult) : Prop :=
  earlier.key = later.key ∨ earlier.receipt = later.receipt

instance : DecidableRel StoredResult.Clash :=
  fun earlier later => inferInstanceAs (Decidable (earlier.key = later.key ∨ _))

theorem StoredResult.Clash.symm {earlier later : StoredResult} (clash : earlier.Clash later) :
    later.Clash earlier :=
  clash.imp Eq.symm Eq.symm

abbrev Results := Table StoredResult StoredResult.Clash

def StoredResult.reply (row : StoredResult) : ProviderReply := ⟨row.providerTurn, row.body⟩

def StoredResult.completedReply (row : StoredResult) : Bots.CompletedReply :=
  ⟨row.body, row.providerTurn, row.receipt⟩

def Results.result? (results : Results) (key : TurnKey) : Option StoredResult :=
  results.rows.find? (fun row => row.key = key)

/-- The row of a turn that a reply completes. -/
def ProviderReply.row (reply : ProviderReply) (key : TurnKey) (receipt : Uuid) : StoredResult :=
  ⟨key, reply.turnId, reply.text, toString receipt⟩

/-- Neither part is empty, and neither is too long to be stored. -/
def ProviderReply.Storable (reply : ProviderReply) : Prop :=
  reply.turnId ≠ "" ∧ reply.turnId.utf8ByteSize ≤ 256 ∧ reply.text ≠ "" ∧
    reply.text.utf8ByteSize ≤ 256 * 1024

instance (reply : ProviderReply) : Decidable reply.Storable :=
  inferInstanceAs (Decidable (_ ∧ _))

end Records

section Transactions

/-- The turn of an operation, under the exact binding of its session. -/
def boundTurn (journal : Journal) (binding : Binding) (operation : Uuid) :
    Except RunError Turn := do
  let session ← orFail (journal.session? binding.session) .persistence
  let turn ← orFail (journal.turn? ⟨binding.session, operation⟩) .persistence
  require (session.binding = binding) .persistence
  pure turn

/-- One transaction of the store: with a reply it is stored, unless the same one already is. -/
def access (journal : Journal) (results : Results) (binding : Binding) (operation : Uuid)
    (reply? : Option ProviderReply) (receipt : Uuid) :
    Except RunError (Results × Option (ProviderReply × String)) := do
  let key : TurnKey := ⟨binding.session, operation⟩
  let turn ← boundTurn journal binding operation
  let existing := results.result? key
  match reply? with
  | some reply => do
    require reply.Storable .invalid
    require (turn.record.providerTurn = some reply.turnId) .persistence
    match existing with
    | some old => do
      require (old.providerTurn = reply.turnId ∧ old.body = reply.text) .persistence
      pure (results, some (old.reply, old.receipt))
    | none => do
      require turn.state.isSent .persistence
      let stored ← orFail (results.insert? (reply.row key receipt)) .persistence
      pure (stored, some (reply, toString receipt))
  | none => pure (results, existing.map (fun row => (row.reply, row.receipt)))

def persist (journal : Journal) (results : Results) (binding : Binding) (operation : Uuid)
    (reply : ProviderReply) (receipt : Uuid) : Except RunError (Results × String) := do
  let (results, answer) ← access journal results binding operation (some reply) receipt
  let (_, receipt) ← orFail answer .persistence
  pure (results, receipt)

def load (journal : Journal) (results : Results) (binding : Binding) (operation : Uuid) :
    Except RunError (Option ProviderReply) := do
  let (_, answer) ← access journal results binding operation none ⟨0⟩
  pure (answer.map Prod.fst)

/-- The result of a completed turn whose receipt and provider turn are those of the result. -/
def completed (journal : Journal) (results : Results) (binding : Binding) (operation : Uuid) :
    Except RunError Bots.CompletedReply := do
  let key : TurnKey := ⟨binding.session, operation⟩
  let row ← orFail (results.result? key) .persistence
  let turn ← orFail (journal.turn? key) .persistence
  let session ← orFail (journal.session? binding.session) .persistence
  require (session.binding = binding ∧ turn.state = .completed ∧
    turn.record.receipt = some row.receipt ∧ turn.record.providerTurn = some row.providerTurn)
    .persistence
  pure row.completedReply

end Transactions

section Effects

variable {journal : Journal} {results next : Results} {binding : Binding} {operation : Uuid}
  {reply : ProviderReply} {receipt : Uuid} {answer : String} {key : TurnKey} {row : StoredResult}

theorem result?_eq_some_iff :
    results.result? key = some row ↔ row ∈ results.rows ∧ row.key = key :=
  results.find?_eq_some_iff (fun _ _ => StoredResult.Clash.symm) StoredResult.key
    (fun _ _ => Or.inl) key row

theorem boundTurn_eq_ok_iff {turn : Turn} :
    boundTurn journal binding operation = .ok turn ↔
      journal.turn? ⟨binding.session, operation⟩ = some turn ∧
        ∃ session, journal.session? binding.session = some session ∧
          session.binding = binding := by
  simp only [boundTurn, bind_eq_ok_iff, orFail_eq_ok_iff, require_eq_ok_iff, exists_const,
    pure_eq_ok_iff]
  constructor
  · rintro ⟨session, stored, _, found, bound, rfl⟩
    exact ⟨found, session, stored, bound⟩
  · rintro ⟨found, session, stored, bound⟩
    exact ⟨session, stored, turn, found, bound, rfl⟩

/-- A reply that is already stored is answered with its receipt, and a new one is stored for a
sent turn; every other is refused. -/
theorem persist_eq_ok_iff :
    persist journal results binding operation reply receipt = .ok (next, answer) ↔
      reply.Storable ∧ ∃ turn, boundTurn journal binding operation = .ok turn ∧
        turn.record.providerTurn = some reply.turnId ∧
        ((∃ old, results.result? ⟨binding.session, operation⟩ = some old ∧ old.reply = reply ∧
            next = results ∧ answer = old.receipt) ∨
          results.result? ⟨binding.session, operation⟩ = none ∧ turn.state.isSent = true ∧
            results.insert? (reply.row ⟨binding.session, operation⟩ receipt) = some next ∧
            answer = toString receipt) := by
  simp only [persist, access, bind_eq_ok_iff, require_eq_ok_iff, exists_const]
  constructor
  · rintro ⟨⟨stored, answered⟩, ⟨turn, bound, storable, same, body⟩, given⟩
    obtain ⟨⟨_, first⟩, found, given⟩ := given
    obtain ⟨rfl, rfl⟩ := Prod.mk.inj (pure_eq_ok_iff.mp given)
    rw [orFail_eq_ok_iff] at found
    refine ⟨storable, turn, bound, same, ?_⟩
    cases existing : results.result? ⟨binding.session, operation⟩ with
    | some old =>
      simp only [existing, bind_eq_ok_iff, require_eq_ok_iff, exists_const, pure_eq_ok_iff,
        Prod.mk.injEq] at body
      obtain ⟨⟨turnId, text⟩, rfl, rfl⟩ := body
      obtain ⟨_, rfl⟩ := Prod.mk.inj (Option.some.inj found)
      refine Or.inl ⟨old, rfl, ?_, rfl, rfl⟩
      rw [StoredResult.reply, turnId, text]
    | none =>
      simp only [existing, bind_eq_ok_iff, require_eq_ok_iff, exists_const, orFail_eq_ok_iff,
        pure_eq_ok_iff, Prod.mk.injEq] at body
      obtain ⟨sent, _, inserted, rfl, rfl⟩ := body
      obtain ⟨_, rfl⟩ := Prod.mk.inj (Option.some.inj found)
      exact Or.inr ⟨rfl, sent, inserted, rfl⟩
  · rintro ⟨storable, turn, bound, same, ⟨old, existing, rfl, rfl, rfl⟩ |
      ⟨absent, sent, inserted, rfl⟩⟩
    · refine ⟨(next, some (old.reply, old.receipt)), ⟨turn, bound, storable, same, ?_⟩,
        (old.reply, old.receipt), rfl, rfl⟩
      rw [existing]
      simp [StoredResult.reply, require, bind, Except.bind, pure, Except.pure]
    · refine ⟨(next, some (reply, toString receipt)), ⟨turn, bound, storable, same, ?_⟩,
        (reply, toString receipt), rfl, rfl⟩
      rw [absent]
      simp [sent, inserted, require, orFail, bind, Except.bind, pure, Except.pure]

theorem load_eq_ok_iff {answer : Option ProviderReply} :
    load journal results binding operation = .ok answer ↔
      (∃ turn, boundTurn journal binding operation = .ok turn) ∧
        answer = (results.result? ⟨binding.session, operation⟩).map StoredResult.reply := by
  simp only [load, access, bind_eq_ok_iff, pure_eq_ok_iff]
  constructor
  · rintro ⟨_, ⟨turn, bound, rfl⟩, rfl⟩
    exact ⟨⟨turn, bound⟩, by rw [Option.map_map]; rfl⟩
  · rintro ⟨⟨turn, bound⟩, rfl⟩
    exact ⟨_, ⟨turn, bound, rfl⟩, by rw [Option.map_map]; rfl⟩

theorem completed_eq_ok_iff {given : Bots.CompletedReply} :
    completed journal results binding operation = .ok given ↔
      ∃ row turn, results.result? ⟨binding.session, operation⟩ = some row ∧
        row.completedReply = given ∧ boundTurn journal binding operation = .ok turn ∧
        turn.record = ⟨.completed, some row.providerTurn, some row.receipt⟩ := by
  simp only [completed, bind_eq_ok_iff, orFail_eq_ok_iff, require_eq_ok_iff, exists_const,
    pure_eq_ok_iff, boundTurn_eq_ok_iff]
  constructor
  · rintro ⟨row, found, turn, stored, session, kept, ⟨bound, state, receipt, provider⟩, rfl⟩
    refine ⟨row, turn, found, rfl, ⟨stored, session, kept, bound⟩, ?_⟩
    change turn.record.state = .completed at state
    rw [← state, ← receipt, ← provider]
  · rintro ⟨row, turn, found, rfl, ⟨stored, session, kept, bound⟩, record⟩
    refine ⟨row, found, turn, stored, session, kept, ⟨bound, ?_, ?_, ?_⟩, rfl⟩
    · rw [Turn.state, record]
    · rw [record]
    · rw [record]

end Effects

end OHHive.Subscription
