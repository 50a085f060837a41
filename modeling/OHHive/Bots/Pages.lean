import OHHive.Bots.Automation

/-! How a room grows, and what somebody who reads it page by page from a number on comes across
first. -/

namespace OHHive.Bots

open Foundation

section Growth

/-- The messages stay, and what joins a room comes after them. -/
structure Grows (store next : Store) : Prop where
  kept : ∀ message ∈ store.messages.rows, message ∈ next.messages.rows
  later : ∀ message ∈ next.messages.rows, message ∉ store.messages.rows →
    ∀ earlier ∈ store.messages.rows, earlier.conversationId = message.conversationId →
      earlier.serverSequence < message.serverSequence

theorem Grows.of_same {store next : Store} (same : next.messages.rows = store.messages.rows) :
    Grows store next := by
  refine ⟨fun message member => same ▸ member, ?_⟩
  intro message member new
  exact absurd (same ▸ member) new

theorem Grows.trans {first second third : Store} (before : Grows first second)
    (after : Grows second third) : Grows first third := by
  refine ⟨fun message member => after.kept message (before.kept message member), ?_⟩
  intro message member new earlier stored room
  by_cases between : message ∈ second.messages.rows
  · exact before.later message between new earlier stored room
  · exact after.later message member between earlier (before.kept earlier stored) room

/-- A message under the next number of its room. -/
theorem Grows.of_append {store next : Store} {message : Message}
    (number : message.serverSequence = store.nextSequence message.conversationId)
    (rows : next.messages.rows = store.messages.rows ++ [message]) : Grows store next := by
  refine ⟨fun other member => rows ▸ List.mem_append_left _ member, ?_⟩
  intro other member new earlier stored room
  rw [rows, List.mem_append, List.mem_singleton] at member
  rcases member with old | rfl
  · exact absurd old new
  · rw [number, ← room]
    exact sequence_lt_next stored

theorem grows_step (store : Store) (op : Op) : Grows store (store.step op) := by
  obtain ⟨added, step, rows⟩ := messages_step store op
  rcases step.number with rfl | ⟨message, rfl, number⟩
  · rw [List.append_nil] at rows
    exact Grows.of_same rows
  · exact Grows.of_append number rows

theorem grows_roomStep (store : Store) (op : RoomOp) : Grows store (store.roomStep op) := by
  cases op with
  | transact op => exact grows_step store op
  | reportUnroutable nodes owner host localReady stamps =>
    unfold Store.roomStep
    split
    · rename_i next done
      obtain ⟨_, done⟩ := ok_of_map done
      simp only [botsReportUnroutable, bind_eq_ok_iff, pure_eq_ok_iff, Prod.mk.injEq] at done
      obtain ⟨reported, inserted, rfl, _⟩ := done
      apply insertUnroutableNotices_induction (Grows store) _ (Grows.of_same rfl) inserted
      intro between after row id ts grows stored
      obtain ⟨_, _, _, rows⟩ := Store.insertMessage_ok stored
      exact grows.trans (Grows.of_append rfl rows)
    · exact Grows.of_same rfl

theorem Grows.message? {store next : Store} (grows : Grows store next) {id : MessageId}
    {message : Message} (found : store.message? id = some message) :
    next.message? id = some message := by
  obtain ⟨member, same⟩ := Store.message?_eq_some_iff.mp found
  exact Store.message?_eq_some_iff.mpr ⟨grows.kept message member, same⟩

/-- The messages of a room have different numbers. -/
theorem eq_of_sequence {store : Store} {first second : Message}
    (firstStored : first ∈ store.messages.rows) (secondStored : second ∈ store.messages.rows)
    (room : first.conversationId = second.conversationId)
    (number : first.serverSequence = second.serverSequence) : first = second :=
  store.messages.eq_of_clash (fun _ _ => Message.Clash.symm) firstStored secondStored
    (Or.inr ⟨room, Or.inl number⟩)

end Growth

section Pages

variable {store : Store} {actor : Principal} {room : ConversationId} {after limit : Nat}
variable {page : List Message}

/-- The messages of a room that follow a number, oldest first. -/
def followers (store : Store) (room : ConversationId) (after : Nat) : List Message :=
  MessagePage.window ⟨none, some after, pageLimit⟩ store room

theorem mem_followers_iff {message : Message} :
    message ∈ followers store room after ↔ message ∈ store.messages.rows ∧
      message.conversationId = room ∧ after < message.serverSequence := by
  rw [followers, mem_window_iff, Store.transcript, List.mem_filter, decide_eq_true_eq, and_assoc]
  simp

theorem page_eq_take
    (listed : botsMessagesList store actor room ⟨none, some after, pageLimit⟩ = .ok page) :
    page = (followers store room after).take pageLimit := by
  simp only [botsMessagesList, bind_eq_ok_iff] at listed
  obtain ⟨_, _, _, _, read, cast, before, none, done⟩ := listed
  obtain rfl := pure_eq_ok_iff.mp none
  obtain rfl := optionMapM_ok cast
  exact (pure_eq_ok_iff.mp done).symm

theorem followers_sorted (store : Store) (room : ConversationId) (after : Nat) :
    (followers store room after).Pairwise bySequence :=
  List.pairwise_insertionSort bySequence _

/-- What is not above some message of a page is on the page as well. -/
theorem mem_page_of_le {first second : Message} {count : Nat}
    (firstFollows : first ∈ followers store room after)
    (secondListed : second ∈ (followers store room after).take count)
    (below : first.serverSequence ≤ second.serverSequence) :
    first ∈ (followers store room after).take count := by
  have sorted := followers_sorted store room after
  rw [← List.take_append_drop count (followers store room after)] at sorted firstFollows
  rcases List.mem_append.mp firstFollows with listed | beyond
  · exact listed
  · have above := (List.pairwise_append.mp sorted).2.2 second secondListed first beyond
    have firstStored := mem_followers_iff.mp (List.mem_of_mem_drop beyond)
    have secondStored := mem_followers_iff.mp (List.mem_of_mem_take secondListed)
    have same := eq_of_sequence firstStored.1 secondStored.1
      (firstStored.2.1.trans secondStored.2.1.symm) (Nat.le_antisymm below above)
    exact same ▸ secondListed

/-- The first of a page's messages that pass a test has the least number of them. -/
theorem find?_least {test : Message → Bool} {found other : Message} {count : Nat}
    (first : ((followers store room after).take count).find? test = some found)
    (listed : other ∈ (followers store room after).take count) (passes : test other = true) :
    found.serverSequence ≤ other.serverSequence := by
  have sorted : ((followers store room after).take count).Pairwise bySequence :=
    (followers_sorted store room after).sublist (List.take_sublist _ _)
  generalize (followers store room after).take count = rows at sorted first listed
  induction rows with
  | nil => exact absurd listed List.not_mem_nil
  | cons head rest ih =>
    obtain ⟨least, restSorted⟩ := List.pairwise_cons.mp sorted
    by_cases passed : test head = true
    · rw [List.find?_cons_of_pos passed] at first
      obtain rfl := Option.some.inj first
      rcases List.mem_cons.mp listed with rfl | later
      · exact Nat.le_refl _
      · exact least other later
    · rw [List.find?_cons_of_neg passed] at first
      rcases List.mem_cons.mp listed with rfl | later
      · exact absurd passes passed
      · exact ih restSorted first later

end Pages

end OHHive.Bots
