import OHHive.Bots.Turns
import OHHive.Bots.Unroutable

/-! The transcript of a room. Four pieces of code store messages, each under one more than
the largest number its room holds; over any order of their transactions a room counts its
messages from one without a gap. -/

namespace OHHive.Bots

open Foundation

section Rooms

/-- The messages of a room, in the order they were stored. -/
def Store.transcript (store : Store) (conversation : ConversationId) : List Message :=
  store.messages.rows.filter (fun message => message.conversationId = conversation)

/-- Every room of the store counts its messages from one. -/
def Ordered (store : Store) : Prop :=
  ∀ conversation, Numbered Message.serverSequence (store.transcript conversation)

/-- Every room keeps its messages, and counts on where it stood. -/
def CountsOn (store next : Store) : Prop :=
  ∀ conversation, ContinuedBy Message.serverSequence (store.transcript conversation)
    (next.transcript conversation)

theorem CountsOn.refl (store : Store) : CountsOn store store :=
  fun _ => ContinuedBy.refl _

theorem CountsOn.trans {first second third : Store} (before : CountsOn first second)
    (after : CountsOn second third) : CountsOn first third :=
  fun conversation => (before conversation).trans (after conversation)

theorem Ordered.of_countsOn {store next : Store} (ordered : Ordered store)
    (counts : CountsOn store next) : Ordered next :=
  fun conversation => (ordered conversation).of_continuedBy (counts conversation)

theorem ordered_empty : Ordered Store.empty := fun _ => numbered_nil

theorem countsOn_of_same {store next : Store} (same : next.messages.rows = store.messages.rows) :
    CountsOn store next := by
  intro conversation
  rw [Store.transcript, Store.transcript, same]
  exact ContinuedBy.refl _

/-- A message under the next number of its room continues that room and no other. -/
theorem Ordered.countsOn_append {store next : Store} (ordered : Ordered store) {message : Message}
    (number : message.serverSequence = store.nextSequence message.conversationId)
    (rows : next.messages.rows = store.messages.rows ++ [message]) : CountsOn store next := by
  intro conversation
  have grown : next.transcript conversation = store.transcript conversation ++
      [message].filter (fun message => message.conversationId = conversation) := by
    rw [Store.transcript, rows, List.filter_append]
    rfl
  rw [grown]
  by_cases here : message.conversationId = conversation
  · have kept : [message].filter (fun message => message.conversationId = conversation) =
        [message] := by simp [here]
    rw [kept]
    subst conversation
    exact (ordered message.conversationId).continuedBy number
  · have dropped : [message].filter (fun message => message.conversationId = conversation) =
        [] := by simp [here]
    rw [dropped, List.append_nil]
    exact ContinuedBy.refl _

/-- A send, a failure notice and a subscription reply all take the next number. -/
theorem MessagesStep.number {store : Store} {op : Op} {added : List Message}
    (step : MessagesStep store op added) :
    added = [] ∨ ∃ message, added = [message] ∧
      message.serverSequence = store.nextSequence message.conversationId := by
  cases step with
  | none => exact Or.inl rfl
  | sent request id ts absent => exact Or.inr ⟨_, rfl, rfl⟩
  | noticed key generation ts noticeId message conversation agent found unreplied =>
    exact Or.inr ⟨_, rfl, rfl⟩
  | published binding operation generation reply id ts message found room unreplied =>
    exact Or.inr ⟨_, rfl, rfl⟩

theorem Ordered.countsOn_step {store : Store} (ordered : Ordered store) (op : Op) :
    CountsOn store (store.step op) := by
  obtain ⟨added, step, rows⟩ := messages_step store op
  rcases step.number with rfl | ⟨message, rfl, number⟩
  · rw [List.append_nil] at rows
    exact countsOn_of_same rows
  · exact ordered.countsOn_append number rows

/-- The sweep adds a notice for each row of its query, and each takes the number that is next
once the earlier ones are stored. -/
theorem Ordered.countsOn_report {store next : Store} (ordered : Ordered store)
    {nodes : List Uuid} {owner : UserId} {host : Uuid} {localReady : Bool}
    {stamps : Nat → MessageId × Int} {count : Nat}
    (done : botsReportUnroutable store nodes owner host localReady stamps = .ok (next, count)) :
    CountsOn store next := by
  simp only [botsReportUnroutable, bind_eq_ok_iff, pure_eq_ok_iff, Prod.mk.injEq] at done
  obtain ⟨reported, inserted, rfl, _⟩ := done
  apply insertUnroutableNotices_induction (CountsOn store) _ (CountsOn.refl store) inserted
  intro between after row id ts counts stored
  obtain ⟨_, _, _, rows⟩ := Store.insertMessage_ok stored
  exact counts.trans ((ordered.of_countsOn counts).countsOn_append rfl rows)

end Rooms

section Runs

/-- One transaction on the rooms: those of the executors, senders and people, and the sweep
with the computers the vault knows at that moment. -/
inductive RoomOp where
  | transact (op : Op)
  | reportUnroutable (nodes : List Uuid) (owner : UserId) (host : Uuid) (localReady : Bool)
      (stamps : Nat → MessageId × Int)

def RoomOp.perform (store : Store) : RoomOp → Result Store
  | .transact op => op.perform store
  | .reportUnroutable nodes owner host localReady stamps =>
      Prod.fst <$> botsReportUnroutable store nodes owner host localReady stamps

/-- A failed transaction is rolled back. -/
def Store.roomStep (store : Store) (op : RoomOp) : Store :=
  match op.perform store with
  | .ok next => next
  | .error _ => store

abbrev roomsAt (ops : List RoomOp) (moment : Nat) : Store :=
  stateAt Store.roomStep Store.empty ops moment

theorem Ordered.countsOn_roomStep {store : Store} (ordered : Ordered store) (op : RoomOp) :
    CountsOn store (store.roomStep op) := by
  cases op with
  | transact op => exact ordered.countsOn_step op
  | reportUnroutable nodes owner host localReady stamps =>
    unfold Store.roomStep
    split
    · rename_i next done
      obtain ⟨_, done⟩ := ok_of_map done
      exact ordered.countsOn_report done
    · exact CountsOn.refl store

theorem ordered_at (ops : List RoomOp) (moment : Nat) : Ordered (roomsAt ops moment) := by
  apply stateAt_invariant Store.roomStep Store.empty ops Ordered ordered_empty
  intro store op _ ordered
  exact ordered.of_countsOn (ordered.countsOn_roomStep op)

/-- At every moment of every run a room's messages carry the numbers from one on, in the order
they were stored, and the next transaction keeps them and numbers what it adds from there. -/
theorem ordered_transcript (ops : List RoomOp) (moment : Nat) (conversation : ConversationId) :
    ((roomsAt ops moment).transcript conversation).map Message.serverSequence =
        List.range' 1 ((roomsAt ops moment).transcript conversation).length ∧
      ∃ added, (roomsAt ops (moment + 1)).transcript conversation =
          (roomsAt ops moment).transcript conversation ++ added ∧
        added.map Message.serverSequence =
          List.range' (((roomsAt ops moment).transcript conversation).length + 1)
            added.length := by
  have ordered := ordered_at ops moment
  have counts : CountsOn (roomsAt ops moment) (roomsAt ops (moment + 1)) := by
    rcases stateAt_next Store.roomStep Store.empty ops moment with ⟨op, _, next⟩ | ⟨_, next⟩
    · have counts := ordered.countsOn_roomStep op
      rwa [← next] at counts
    · unfold roomsAt
      rw [next]
      exact CountsOn.refl _
  exact ⟨ordered conversation, counts conversation⟩

end Runs

end OHHive.Bots
