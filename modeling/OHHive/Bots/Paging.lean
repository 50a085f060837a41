import OHHive.Bots.Pages
import OHHive.Foundation.Paging

/-! A room read page by page, onward from a cursor or back from one, while the hub goes on. What
the pages of a whole reading hold together, and that a reading of a resting room ends. -/

namespace OHHive.Bots

open Foundation

section Readings

inductive Direction where
  | onward
  | back
deriving DecidableEq, Repr

def Direction.page (limit : Nat) (cursor : Option Nat) : Direction → MessagePage
  | .onward => ⟨none, cursor, limit⟩
  | .back => ⟨cursor, none, limit⟩

/-- The cursor of the next call: the number of the last message of a page, or of its first. -/
def Direction.follow (page : List Message) : Direction → Option Nat
  | .onward => page.getLast?.map Message.serverSequence
  | .back => page.head?.map Message.serverSequence

/-- The messages of all pages, in the order of the room. -/
def Direction.join (pages : List (List Message)) : Direction → List Message
  | .onward => pages.flatten
  | .back => pages.reverse.flatten

/-- Call after call under the cursor that the page before gave, until a page is empty. -/
inductive Reads (books : Nat → RoomBook) (actor : Principal) (room : ConversationId)
    (limit : Nat) (direction : Direction) : Nat → Option Nat → List (List Message) → Nat → Prop
  | done {call cursor} (listed : botsMessagesList (books call).store actor room
      (direction.page limit cursor) = .ok []) :
      Reads books actor room limit direction call cursor [] call
  | more {call cursor page pages last} (listed : botsMessagesList (books call).store actor room
      (direction.page limit cursor) = .ok page) (filled : page ≠ [])
      (rest : Reads books actor room limit direction (call + 1) (direction.follow page) pages
        last) :
      Reads books actor room limit direction call cursor (page :: pages) last

/-- What happens in the hub between the calls of a reading. -/
def GoesOn (books : Nat → RoomBook) : Prop :=
  ∀ call, ∃ op, (books (call + 1)).store = (books call).store.roomStep op

end Readings

section Pages

variable {store : Store} {actor : Principal} {room : ConversationId} {limit : Nat}
  {direction : Direction} {cursor : Option Nat} {page : List Message}

theorem mem_transcript_iff {message : Message} :
    message ∈ store.transcript room ↔
      message ∈ store.messages.rows ∧ message.conversationId = room := by
  simp [Store.transcript]

/-- The cursor does not pass over the message. -/
def Direction.Ahead (cursor : Option Nat) (message : Message) : Direction → Prop
  | .onward => ∀ after ∈ cursor, after < message.serverSequence
  | .back => ∀ before ∈ cursor, message.serverSequence < before

/-- The part of a room that lies ahead of a cursor, oldest message first. -/
def Direction.ahead (store : Store) (room : ConversationId) (cursor : Option Nat)
    (direction : Direction) : List Message :=
  (direction.page 0 cursor).window store room

theorem mem_ahead_iff {message : Message} :
    message ∈ direction.ahead store room cursor ↔ message ∈ store.messages.rows ∧
      message.conversationId = room ∧ direction.Ahead cursor message := by
  rw [Direction.ahead, mem_window_iff, Store.transcript, List.mem_filter, decide_eq_true_eq,
    and_assoc]
  cases direction <;> simp [Direction.page, Direction.Ahead]

/-- The messages of a room have different numbers, so its order is strict. -/
theorem ahead_rising (store : Store) (room : ConversationId) (cursor : Option Nat)
    (direction : Direction) :
    Rising Message.serverSequence (direction.ahead store room cursor) := by
  have sorted : (direction.ahead store room cursor).Pairwise bySequence :=
    List.pairwise_insertionSort bySequence _
  have distinct : (direction.ahead store room cursor).Nodup := by
    have stored : store.messages.rows.Nodup :=
      store.messages.distinct.imp (fun free same => free (Or.inl (congrArg Message.id same)))
    exact (List.perm_insertionSort bySequence _).nodup_iff.mpr
      ((stored.filter _).filter _)
  refine (sorted.and distinct).imp_of_mem ?_
  intro earlier later first second apart
  obtain ⟨firstStored, firstRoom, _⟩ := mem_ahead_iff.mp first
  obtain ⟨secondStored, secondRoom, _⟩ := mem_ahead_iff.mp second
  refine lt_of_le_of_ne apart.1 fun number => apart.2 ?_
  exact eq_of_sequence firstStored secondStored (firstRoom.trans secondRoom.symm) number

/-- Where the rows that a call takes stand: the oldest, or under a cursor going back the newest. -/
def Direction.select (count : Nat) (cursor : Option Nat) (rows : List Message) :
    Direction → List Message
  | .onward => rows.take count
  | .back => if cursor.isSome then rows.rtake count else rows.take count

theorem Direction.select_subset {count : Nat} {rows : List Message} (direction : Direction) :
    direction.select count cursor rows ⊆ rows := by
  cases direction with
  | onward => exact List.take_subset _ _
  | back =>
    by_cases bounded : cursor.isSome = true
    · rw [Direction.select, if_pos bounded]
      exact sublist_of_rtake.subset
    · rw [Direction.select, if_neg bounded]
      exact List.take_subset _ _

/-- A call is answered with one end of what lies ahead. -/
theorem list_ok
    (listed : botsMessagesList store actor room (direction.page limit cursor) = .ok page) :
    limit ≠ 0 ∧
      page = direction.select (min limit 500) cursor (direction.ahead store room cursor) := by
  unfold botsMessagesList at listed
  simp only [bind_eq_ok_iff, require_eq_ok_iff] at listed
  obtain ⟨_, _, _, positive, after, read, before, back, done⟩ := listed
  obtain rfl := optionMapM_ok read
  obtain rfl := optionMapM_ok back
  cases direction with
  | onward => exact ⟨positive, (pure_eq_ok_iff.mp done).symm⟩
  | back =>
    refine ⟨positive, ?_⟩
    cases cursor with
    | none => exact (pure_eq_ok_iff.mp done).symm
    | some before =>
      exact (pure_eq_ok_iff.mp done).symm.trans (List.rtake_eq_reverse_take_reverse _ _).symm

/-- A member that may read is answered, whatever the direction and the cursor. -/
theorem exists_list (allowed : botsRequireMember store room actor .read = .ok ())
    (positive : limit ≠ 0) (fits : ∀ number ∈ cursor, number ≤ i64Max) (direction : Direction) :
    ∃ page, botsMessagesList store actor room (direction.page limit cursor) = .ok page := by
  have cast : cursor.mapM asI64 = .ok cursor := by
    cases cursor with
    | none => rfl
    | some number => simp [asI64, fits number rfl]
  have admitted : require (limit ≠ 0)
      (rejected "invalid request: page limit must be greater than zero") = .ok () :=
    require_eq_ok_iff.mpr positive
  unfold botsMessagesList
  rw [allowed, ok_bind]
  cases direction with
  | onward =>
    rw [Direction.page, admitted, ok_bind, cast, ok_bind]
    exact ⟨_, rfl⟩
  | back =>
    rw [Direction.page, admitted, ok_bind, cast]
    cases cursor with
    | none => exact ⟨_, rfl⟩
    | some before => exact ⟨_, rfl⟩

end Pages

section Readings

variable {books : Nat → RoomBook} {actor : Principal} {room : ConversationId} {limit : Nat}
  {direction : Direction} {cursor : Option Nat}

theorem GoesOn.grows (goesOn : GoesOn books) {call later : Nat} (order : call ≤ later) :
    Grows (books call).store (books later).store := by
  induction later, order using Nat.le_induction with
  | base => exact Grows.of_same rfl
  | succ later _ ih =>
    obtain ⟨op, moved⟩ := goesOn later
    exact ih.trans (moved ▸ grows_roomStep (books later).store op)

theorem Reads.le {call last : Nat} {pages : List (List Message)}
    (reading : Reads books actor room limit direction call cursor pages last) : call ≤ last := by
  induction reading with
  | done => exact Nat.le_refl _
  | more _ _ _ ih => exact Nat.le_of_succ_le ih

/-- An empty page means that nothing lies ahead. -/
theorem ahead_of_empty {store : Store}
    (listed : botsMessagesList store actor room (direction.page limit cursor) = .ok []) :
    direction.ahead store room cursor = [] := by
  obtain ⟨positive, page⟩ := list_ok listed
  have count : min limit 500 ≠ 0 := by omega
  by_contra filled
  have taken : (direction.ahead store room cursor).take (min limit 500) ≠ [] := by
    rw [ne_eq, List.take_eq_nil_iff]
    exact fun empty => empty.elim count filled
  cases direction with
  | onward => exact taken page.symm
  | back =>
    by_cases bounded : cursor.isSome = true
    · rw [Direction.select, if_pos bounded] at page
      exact rtake_ne_nil filled count page.symm
    · rw [Direction.select, if_neg bounded] at page
      exact taken page.symm

/-- What the later pages of a reading do not show was in the room when this page was read. -/
theorem Grows.mem_of_le {store next : Store} (grows : Grows store next) {message shown : Message}
    (joined : message ∈ next.messages.rows) (stored : shown ∈ store.messages.rows)
    (same : shown.conversationId = message.conversationId)
    (below : message.serverSequence ≤ shown.serverSequence) : message ∈ store.messages.rows := by
  by_contra new
  exact absurd (grows.later message joined new shown stored same) (Nat.not_lt.mpr below)

/-- Read onward, the pages are what lay ahead of the first cursor when the last page was read. -/
theorem reads_onward (goesOn : GoesOn books) {call last : Nat} {pages : List (List Message)}
    (reading : Reads books actor room limit .onward call cursor pages last) :
    Rising Message.serverSequence pages.flatten ∧ ∀ message, message ∈ pages.flatten ↔
      message ∈ Direction.onward.ahead (books last).store room cursor := by
  induction reading with
  | done listed =>
    refine ⟨Rising.nil, fun message => ?_⟩
    rw [ahead_of_empty listed, List.flatten_nil]
  | @more call cursor page pages last listed filled rest ih =>
    obtain ⟨restRising, members⟩ := ih
    have grows := goesOn.grows (Nat.le_of_succ_le rest.le)
    obtain ⟨shown, ends⟩ : ∃ shown, page.getLast? = some shown :=
      ⟨_, List.getLast?_eq_some_getLast filled⟩
    have rising := ahead_rising (books call).store room cursor .onward
    have taken : page = (Direction.onward.ahead (books call).store room cursor).take
        (min limit 500) := (list_ok listed).2
    have part : page.Sublist (Direction.onward.ahead (books call).store room cursor) := by
      rw [taken]
      exact List.take_sublist _ _
    have pageRising := rising.sublist part
    have shownListed := List.mem_of_getLast? ends
    obtain ⟨shownStored, shownRoom, shownAhead⟩ := mem_ahead_iff.mp (part.subset shownListed)
    have next : Direction.onward.follow page = some shown.serverSequence := by
      rw [Direction.follow, ends, Option.map_some]
    rw [next] at members
    have following : ∀ message, message ∈ pages.flatten ↔
        message ∈ (books last).store.messages.rows ∧ message.conversationId = room ∧
          shown.serverSequence < message.serverSequence := by
      intro message
      rw [members, mem_ahead_iff]
      simp [Direction.Ahead]
    refine ⟨rising_append_iff.mpr ⟨pageRising, restRising, ?_⟩, fun message => ?_⟩
    · intro earlier onPage later after
      exact Nat.lt_of_le_of_lt (pageRising.le_last ends onPage) ((following later).mp after).2.2
    · rw [List.flatten_cons, List.mem_append, mem_ahead_iff]
      constructor
      · rintro (onPage | after)
        · obtain ⟨stored, inRoom, ahead⟩ := mem_ahead_iff.mp (part.subset onPage)
          exact ⟨grows.kept message stored, inRoom, ahead⟩
        · obtain ⟨stored, inRoom, above⟩ := (following message).mp after
          exact ⟨stored, inRoom, fun number is =>
            Nat.lt_trans (shownAhead number is) above⟩
      · rintro ⟨stored, inRoom, ahead⟩
        by_cases above : shown.serverSequence < message.serverSequence
        · exact Or.inr ((following message).mpr ⟨stored, inRoom, above⟩)
        · have below := Nat.le_of_not_lt above
          have early := grows.mem_of_le stored shownStored (shownRoom.trans inRoom.symm) below
          have inside := mem_ahead_iff.mpr ⟨early, inRoom, ahead⟩
          rw [taken] at shownListed
          have onPage := rising.mem_take_of_le inside shownListed below
          exact Or.inl (taken ▸ onPage)

/-- Read back, the pages are what lay below the first cursor when the first page was read. -/
theorem reads_back (goesOn : GoesOn books) {call last before : Nat} {pages : List (List Message)}
    (reading : Reads books actor room limit .back call (some before) pages last) :
    Rising Message.serverSequence pages.reverse.flatten ∧
      ∀ message, message ∈ pages.reverse.flatten ↔
        message ∈ Direction.back.ahead (books call).store room (some before) := by
  generalize origin : some before = cursor at reading
  induction reading generalizing before with
  | done listed =>
    refine ⟨Rising.nil, fun message => ?_⟩
    rw [ahead_of_empty listed]
    rfl
  | @more call cursor page pages last listed filled rest ih =>
    subst origin
    have grows := goesOn.grows (Nat.le_succ call)
    obtain ⟨shown, starts⟩ : ∃ shown, page.head? = some shown :=
      ⟨_, List.head?_eq_some_head filled⟩
    have rising := ahead_rising (books call).store room (some before) .back
    have taken : page = (Direction.back.ahead (books call).store room (some before)).rtake
        (min limit 500) := (list_ok listed).2
    have part : page.Sublist (Direction.back.ahead (books call).store room (some before)) := by
      rw [taken]
      exact sublist_of_rtake
    have pageRising := rising.sublist part
    have shownListed := List.mem_of_head? starts
    obtain ⟨shownStored, shownRoom, shownAhead⟩ := mem_ahead_iff.mp (part.subset shownListed)
    have next : Direction.back.follow page = some shown.serverSequence := by
      rw [Direction.follow, starts, Option.map_some]
    obtain ⟨restRising, members⟩ := ih next.symm
    have preceding : ∀ message, message ∈ pages.reverse.flatten ↔
        message ∈ (books (call + 1)).store.messages.rows ∧ message.conversationId = room ∧
          message.serverSequence < shown.serverSequence := by
      intro message
      rw [members, next, mem_ahead_iff]
      simp [Direction.Ahead]
    rw [List.reverse_cons, List.flatten_append, List.flatten_singleton]
    refine ⟨rising_append_iff.mpr ⟨restRising, pageRising, ?_⟩, fun message => ?_⟩
    · intro earlier older later onPage
      exact Nat.lt_of_lt_of_le ((preceding earlier).mp older).2.2
        (pageRising.head_le starts onPage)
    · rw [List.mem_append, mem_ahead_iff]
      constructor
      · rintro (older | onPage)
        · obtain ⟨joined, inRoom, below⟩ := (preceding message).mp older
          have stored := grows.mem_of_le joined shownStored (shownRoom.trans inRoom.symm)
            (Nat.le_of_lt below)
          exact ⟨stored, inRoom, fun number is => Nat.lt_trans below (shownAhead number is)⟩
        · exact mem_ahead_iff.mp (part.subset onPage)
      · rintro ⟨stored, inRoom, ahead⟩
        by_cases below : message.serverSequence < shown.serverSequence
        · exact Or.inl ((preceding message).mpr ⟨grows.kept message stored, inRoom, below⟩)
        · have inside := mem_ahead_iff.mpr ⟨stored, inRoom, ahead⟩
          rw [taken] at shownListed
          have onPage := rising.mem_rtake_of_le inside shownListed (Nat.le_of_not_lt below)
          exact Or.inr (taken ▸ onPage)

theorem Direction.Ahead.onward {shown message : Message}
    (ahead : direction.Ahead (some shown.serverSequence) message)
    (shownAhead : direction.Ahead cursor shown) : direction.Ahead cursor message := by
  cases direction with
  | onward => exact fun number is => Nat.lt_trans (shownAhead number is) (ahead _ rfl)
  | back => exact fun number is => Nat.lt_trans (ahead _ rfl) (shownAhead number is)

/-- Following a page leaves less to read. -/
theorem ahead_shrinks {store : Store} {shown : Message}
    (listed : shown ∈ direction.ahead store room cursor) :
    (direction.ahead store room (some shown.serverSequence)).length <
      (direction.ahead store room cursor).length := by
  obtain ⟨_, _, shownAhead⟩ := mem_ahead_iff.mp listed
  have rising := ahead_rising store room (some shown.serverSequence) direction
  have passed : shown ∉ direction.ahead store room (some shown.serverSequence) := by
    intro again
    obtain ⟨_, _, beyond⟩ := mem_ahead_iff.mp again
    cases direction with
    | onward => exact Nat.lt_irrefl _ (beyond _ rfl)
    | back => exact Nat.lt_irrefl _ (beyond _ rfl)
  have part : shown :: direction.ahead store room (some shown.serverSequence) ⊆
      direction.ahead store room cursor := by
    intro message member
    rcases List.mem_cons.mp member with rfl | later
    · exact listed
    · obtain ⟨stored, inRoom, ahead⟩ := mem_ahead_iff.mp later
      exact mem_ahead_iff.mpr ⟨stored, inRoom, ahead.onward shownAhead⟩
  exact (List.Nodup.subperm (List.nodup_cons.mpr ⟨passed, rising.nodup⟩) part).length_le

/-- A reading of a room that rests comes to an empty page. -/
theorem exists_reads {book : RoomBook} (call : Nat)
    (allowed : botsRequireMember book.store room actor .read = .ok ())
    (positive : limit ≠ 0) (fits : ∀ number ∈ cursor, number ≤ i64Max) :
    ∃ pages last, Reads (fun _ => book) actor room limit direction call cursor pages last := by
  induction left : (direction.ahead book.store room cursor).length using Nat.strong_induction_on
    generalizing call cursor with
  | _ count ih =>
    subst left
    obtain ⟨page, listed⟩ := exists_list allowed positive fits direction
    by_cases filled : page = []
    · subst filled
      exact ⟨[], call, Reads.done listed⟩
    · obtain ⟨_, taken⟩ := list_ok listed
      obtain ⟨shown, onPage, next⟩ : ∃ shown ∈ page,
          direction.follow page = some shown.serverSequence := by
        cases direction with
        | onward =>
          refine ⟨page.getLast filled, List.getLast_mem filled, ?_⟩
          rw [Direction.follow, List.getLast?_eq_some_getLast filled, Option.map_some]
        | back =>
          refine ⟨page.head filled, List.head_mem filled, ?_⟩
          rw [Direction.follow, List.head?_eq_some_head filled, Option.map_some]
      have inside : shown ∈ direction.ahead book.store room cursor :=
        (taken ▸ Direction.select_subset direction) onPage
      have bounded : ∀ number ∈ some shown.serverSequence, number ≤ i64Max := by
        intro number is
        obtain rfl := Option.some.inj is
        exact book.sequence_le shown (mem_ahead_iff.mp inside).1
      obtain ⟨pages, last, rest⟩ := ih _ (ahead_shrinks inside) (call + 1) bounded rfl
      exact ⟨page :: pages, last, Reads.more listed filled (next ▸ rest)⟩

end Readings

section Whole

variable {books : Nat → RoomBook} {actor : Principal} {room : ConversationId} {limit : Nat}

/-- What pages are worth to their reader: only the room's end is an empty page, a reading of a
resting room comes to it, and a reading shows the whole room in order, each message once. Going
back it starts from a cursor above the room. -/
structure PagesWholeRoom (books : Nat → RoomBook) (actor : Principal) (room : ConversationId)
    (limit : Nat) : Prop where
  filled : ∀ call (direction : Direction) cursor,
    botsMessagesList (books call).store actor room (direction.page limit cursor) = .ok [] →
      ∀ message ∈ (books call).store.transcript room, ¬ direction.Ahead cursor message
  ends : ∀ call (direction : Direction) cursor, (∀ number ∈ cursor, number ≤ i64Max) → limit ≠ 0 →
    botsRequireMember (books call).store room actor .read = .ok () →
      ∃ pages last, Reads (fun _ => books call) actor room limit direction 0 cursor pages last
  onward : ∀ pages last, Reads books actor room limit .onward 0 none pages last →
    Rising Message.serverSequence pages.flatten ∧
      ∀ message, message ∈ pages.flatten ↔ message ∈ (books last).store.transcript room
  back : ∀ top pages last,
    (∀ message ∈ (books 0).store.transcript room, message.serverSequence < top) →
    Reads books actor room limit .back 0 (some top) pages last →
      Rising Message.serverSequence pages.reverse.flatten ∧
        ∀ message, message ∈ pages.reverse.flatten ↔
          message ∈ (books 0).store.transcript room

theorem mem_ahead_of_transcript {store : Store} {direction : Direction} {cursor : Option Nat}
    {message : Message} (ahead : ∀ message ∈ store.transcript room,
      direction.Ahead cursor message) :
    message ∈ direction.ahead store room cursor ↔ message ∈ store.transcript room := by
  rw [mem_ahead_iff, ← and_assoc, ← mem_transcript_iff]
  exact ⟨And.left, fun member => ⟨member, ahead message member⟩⟩

/-- A room with two messages of its owner. -/
def pagedRoom : RoomBook :=
  { store := [openRoom 0, .send (ownerMessage []) 1 0,
      .send { ownerMessage [] with clientRequestId := "again" } 2 0].foldl Store.step Store.empty
    historyBoundary := fun _ => 0
    projectOf := fun _ => none
    sequence_le := by decide +kernel
    length_le := by decide +kernel }

/-- A claim of a delivery that does not exist changes nothing. -/
theorem pagedRoom_goesOn : GoesOn (fun _ => pagedRoom) :=
  fun _ => ⟨.transact (.claim ⟨9, 9⟩ 0), rfl⟩

end Whole

end OHHive.Bots
