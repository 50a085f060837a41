import OHHive.Bots.LoopSafety
import OHHive.Bots.Transcript

/-! What a member reads. The pages of a room, the search over the rooms of a member and the
check of an agent's tools each query the messages; only the last looks at the history
boundary, and the search does not ask for the permission to read either. -/

namespace OHHive.Bots

open Foundation

section Operations

/-- The tables with the `history_boundary` of the memberships and the `project_id` of the
rooms. Sequence numbers and row ids are 64-bit integers. -/
structure RoomBook where
  store : Store
  historyBoundary : ConversationId × Principal → Int
  projectOf : ConversationId → Option Uuid
  sequence_le : ∀ message ∈ store.messages.rows, message.serverSequence ≤ i64Max
  length_le : store.messages.rows.length ≤ i64Max

structure MessagePage where
  before : Option Nat
  after : Option Nat
  limit : Nat
deriving DecidableEq, Repr

def bySequence (earlier later : Message) : Prop := earlier.serverSequence ≤ later.serverSequence

instance : DecidableRel bySequence := fun earlier later => by
  unfold bySequence
  infer_instance

/-- The messages of a page's window, oldest first. -/
def MessagePage.window (page : MessagePage) (store : Store) (conversation : ConversationId) :
    List Message :=
  ((store.transcript conversation).filter (fun message =>
    page.after.all (fun after => after < message.serverSequence) &&
      page.before.all (fun before => message.serverSequence < before))).insertionSort bySequence

/-- `before` alone asks for the newest messages of the window, anything else for the oldest. -/
def botsMessagesList (store : Store) (actor : Principal) (conversation : ConversationId)
    (page : MessagePage) : Result (List Message) := do
  botsRequireMember store conversation actor .read
  require (page.limit ≠ 0)
    (rejected "invalid request: page limit must be greater than zero")
  let limit := min page.limit 500
  let after ← page.after.mapM asI64
  let before ← page.before.mapM asI64
  let window := MessagePage.window ⟨before, after, limit⟩ store conversation
  if before.isSome && after.isNone then pure (window.reverse.take limit).reverse
  else pure (window.take limit)

inductive SearchScope where
  | everything
  | conversation (id : ConversationId)
  | project (id : Uuid)
deriving DecidableEq, Repr

structure SearchHit (Score : Type) where
  message : Message
  score : Score

structure SearchPage (Score : Type) where
  hits : List (SearchHit Score)
  nextCursor : Option String

/-- What the full-text index answers: whether a query matches an indexed body, and the rank
of a message under it among everything that is indexed, smaller ranks first. -/
structure FullText (Score : Type) where
  isMatch : String → String → Bool
  bm25 : List Message → String → Message → Score

def searchPageSize : Nat := 20

/-- `str::split_whitespace`, each term quoted for the index. -/
def searchTerms (query : String) : List String :=
  ((query.toList.splitOnP isWhitespace).filter (fun term => !term.isEmpty)).map (fun term =>
    String.ofList (['"'] ++ term.flatMap (fun char => if char = '"' then ['"', '"'] else [char]) ++
      ['"']))

def ftsQuery (query : String) : String := " AND ".intercalate (searchTerms query)

/-- `str::parse::<i64>`: an optional sign and decimal digits within range. -/
def parseI64 (text : String) : Option Int :=
  let (negative, digits) := match text.toList with
    | '-' :: rest => (true, rest)
    | '+' :: rest => (false, rest)
    | characters => (false, characters)
  if digits.isEmpty || !digits.all Char.isDigit then none
  else
    let value := Nat.ofDigitChars 10 digits 0
    if negative then if value ≤ i64Max + 1 then some (-value) else none
    else if value ≤ i64Max then some value else none

/-- The indexed body of a message. -/
def Message.indexed (message : Message) : String := message.body.getD ""

def SearchScope.admits (book : RoomBook) (message : Message) : SearchScope → Bool
  | .everything => true
  | .conversation id => message.conversationId = id
  | .project id => book.projectOf message.conversationId = some id

variable {Score : Type} [LinearOrder Score]

/-- `ORDER BY bm25, id`. -/
def FullText.ranked (text : FullText Score) (corpus : List Message) (query : String)
    (first second : Message) : Prop :=
  text.bm25 corpus query first < text.bm25 corpus query second ∨
    text.bm25 corpus query first = text.bm25 corpus query second ∧
      first.id.value ≤ second.id.value

instance (text : FullText Score) (corpus : List Message) (query : String) :
    DecidableRel (text.ranked corpus query) := fun first second => by
  unfold FullText.ranked
  infer_instance

/-- Every match in the rooms the actor is a member of, best first. -/
def searchRows (text : FullText Score) (book : RoomBook) (actor : Principal)
    (scope : SearchScope) (query : String) : List Message :=
  (book.store.messages.rows.filter (fun message =>
    botsIsMember book.store message.conversationId actor &&
      text.isMatch query message.indexed && scope.admits book message)).insertionSort
    (text.ranked book.store.messages.rows query)

def cursorOffset (cursor : Option String) : Result Int :=
  match cursor with
  | none => .ok 0
  | some cursor => orFail (parseI64 cursor) (rejected "invalid request: bad search cursor")

/-- `LIMIT ... OFFSET`, with one row more than a page to know whether another one follows. -/
def searchPage (text : FullText Score) (book : RoomBook) (actor : Principal)
    (scope : SearchScope) (query : String) (offset : Int) : SearchPage Score :=
  let rows := ((searchRows text book actor scope query).drop offset.toNat).take
    (searchPageSize + 1)
  { hits := (rows.take searchPageSize).map (fun message =>
      ⟨message, text.bm25 book.store.messages.rows query message⟩)
    nextCursor :=
      if searchPageSize < rows.length then some (toString (offset + searchPageSize)) else none }

def botsConversationSearch (text : FullText Score) (book : RoomBook) (actor : Principal)
    (scope : SearchScope) (query : String) (cursor : Option String) :
    Result (SearchPage Score) := do
  checkText query 2048
  require (searchTerms query ≠ []) (rejected "invalid request: empty search query")
  let offset ← cursorOffset cursor
  pure (searchPage text book actor scope (ftsQuery query) offset)

/-- The turn an executor vouches for when an agent calls a tool. -/
structure AgentToolTurn where
  message : MessageId
  conversation : ConversationId
  generation : Nat
  conversationRevision : Nat
deriving DecidableEq, Repr

/-- The actions of the agent, when its turn is still running on a message it may see. -/
def turnActions (book : RoomBook) (agent : AgentId) (turn : AgentToolTurn) (now : Int) :
    Option (List MemberAction) := do
  let delivery ← book.store.delivery? ⟨turn.message, agent⟩
  let message ← book.store.message? turn.message
  let conversation ← book.store.conversation? message.conversationId
  let member ← book.store.member? conversation.id (.agent agent)
  if conversation.id = turn.conversation ∧ delivery.status = .running ∧
      delivery.leaseGeneration = turn.generation ∧
      (∃ deadline ∈ delivery.leaseDeadline, now < deadline) ∧
      conversation.policyRevision = turn.conversationRevision ∧
      book.historyBoundary member.key ≤ message.createdAt then
    some member.allowedActions
  else none

/-- The check every tool of an agent makes first. -/
def turnAliveCheck (book : RoomBook) (agent : AgentId) (turn : AgentToolTurn) (now : Int) :
    Result Unit := do
  require (turn.generation ≤ i64Max) (rejected "invalid delivery generation")
  let actions ← orFail (turnActions book agent turn now)
    (rejected "chat attempt is no longer active")
  require (MemberAction.read ∈ actions) (rejected "conversation read access revoked")

end Operations

section Numbers

theorem optionMapM_ok {number? result : Option Nat} (cast : number?.mapM asI64 = .ok result) :
    result = number? := by
  cases number? with
  | none => exact (pure_eq_ok_iff.mp cast).symm
  | some number =>
    simp only [Option.mapM_some, map_eq_pure_bind, bind_eq_ok_iff, pure_eq_ok_iff] at cast
    obtain ⟨value, read, rfl⟩ := cast
    rw [asI64_ok read]

/-- A position printed in a cursor is read back. -/
theorem parseI64_toString {number : Nat} (bounded : number ≤ i64Max) :
    parseI64 (toString number) = some (number : Int) := by
  have characters : (toString number).toList = Nat.toDigits 10 number := by
    rw [Nat.toString_eq_ofList_toDigits, String.toList_ofList]
  have digits : ∀ char ∈ Nat.toDigits 10 number, char.isDigit = true :=
    fun _ member => Nat.isDigit_of_mem_toDigits (by decide) (by decide) member
  have value : Nat.ofDigitChars 10 (Nat.toDigits 10 number) 0 = number :=
    Nat.ofDigitChars_toDigits (by decide) (by decide)
  have allDigits : (Nat.toDigits 10 number).all Char.isDigit = true := List.all_eq_true.mpr digits
  unfold parseI64
  rw [characters]
  cases written : Nat.toDigits 10 number with
  | nil => exact absurd written Nat.toDigits_ne_nil
  | cons first rest =>
    have digit : first.isDigit = true := digits first (written ▸ List.mem_cons_self)
    have unsigned : first ≠ '-' ∧ first ≠ '+' := by
      constructor <;> rintro rfl <;> exact absurd digit (by decide)
    rw [written] at value allDigits
    simp [unsigned.1, unsigned.2, allDigits, value, bounded]

end Numbers

section Pages

instance : Std.Total bySequence := ⟨fun _ _ => Nat.le_total _ _⟩

instance : IsTrans Message bySequence := ⟨fun _ _ _ => Nat.le_trans⟩

theorem mem_window_iff {page : MessagePage} {store : Store} {conversation : ConversationId}
    {message : Message} :
    message ∈ page.window store conversation ↔ message ∈ store.transcript conversation ∧
      (∀ after ∈ page.after, after < message.serverSequence) ∧
      ∀ before ∈ page.before, message.serverSequence < before := by
  simp [MessagePage.window, List.mem_insertionSort, List.mem_filter, Option.all_eq_true]

/-- A page is part of the room, and is only handed to members that may read. -/
theorem botsMessagesList_ok {store : Store} {actor : Principal} {conversation : ConversationId}
    {page : MessagePage} {messages : List Message}
    (done : botsMessagesList store actor conversation page = .ok messages) :
    botsRequireMember store conversation actor .read = .ok () ∧
      ∀ message ∈ messages, message ∈ store.transcript conversation := by
  simp only [botsMessagesList, bind_eq_ok_iff, require_eq_ok_iff, exists_const] at done
  obtain ⟨_, allowed, _, after, _, before, _, done⟩ := done
  refine ⟨allowed, fun message member => ?_⟩
  split at done
  · obtain rfl := pure_eq_ok_iff.mp done
    have listed := List.mem_of_mem_take (List.mem_reverse.mp member)
    exact (mem_window_iff.mp (List.mem_reverse.mp listed)).1
  · obtain rfl := pure_eq_ok_iff.mp done
    exact (mem_window_iff.mp (List.mem_of_mem_take member)).1

/-- The page of one message that follows the number before a message's own. -/
def pageOf (message : Message) : MessagePage :=
  { before := none
    after := if message.serverSequence = 0 then none else some (message.serverSequence - 1)
    limit := 1 }

/-- The oldest message of its page is the message itself. -/
theorem mem_pageOf {store : Store} {conversation : ConversationId} {message : Message}
    (stored : message ∈ store.transcript conversation) :
    message ∈ ((pageOf message).window store conversation).take 1 := by
  have inside : message ∈ (pageOf message).window store conversation := by
    refine mem_window_iff.mpr ⟨stored, fun after isAfter => ?_, fun before isBefore => ?_⟩
    · unfold pageOf at isAfter
      split at isAfter
      · cases isAfter
      · obtain rfl := Option.some.inj isAfter
        omega
    · cases isBefore
  have sorted : ((pageOf message).window store conversation).Pairwise bySequence :=
    List.pairwise_insertionSort bySequence _
  cases window : (pageOf message).window store conversation with
  | nil =>
    rw [window] at inside
    exact absurd inside List.not_mem_nil
  | cons first rest =>
    have firstInside : first ∈ (pageOf message).window store conversation :=
      window ▸ List.mem_cons_self
    rw [window] at sorted inside
    rcases List.mem_cons.mp inside with rfl | later
    · exact List.mem_cons_self
    · -- No other message of the room has the number of the first.
      have below : first.serverSequence ≤ message.serverSequence :=
        (List.pairwise_cons.mp sorted).1 message later
      obtain ⟨firstStored, after, _⟩ := mem_window_iff.mp firstInside
      have above : message.serverSequence ≤ first.serverSequence := by
        by_cases zero : message.serverSequence = 0
        · omega
        · have next := after (message.serverSequence - 1) (by simp [pageOf, zero])
          omega
      obtain ⟨member, room⟩ := List.mem_filter.mp stored
      obtain ⟨firstMember, firstRoom⟩ := List.mem_filter.mp firstStored
      have clash : first.Clash message :=
        Or.inr ⟨(of_decide_eq_true firstRoom).trans (of_decide_eq_true room).symm,
          Or.inl (Nat.le_antisymm below above)⟩
      rw [store.messages.eq_of_clash (fun _ _ => Message.Clash.symm) firstMember member clash]
      exact List.mem_cons_self

/-- Every message of the room is on some page of a member that may read. -/
theorem botsMessagesList_pageOf {store : Store} {actor : Principal}
    {conversation : ConversationId} {message : Message}
    (allowed : botsRequireMember store conversation actor .read = .ok ())
    (bounded : message.serverSequence ≤ i64Max) :
    botsMessagesList store actor conversation (pageOf message) =
      .ok (((pageOf message).window store conversation).take 1) := by
  have cast : (pageOf message).after.mapM asI64 = .ok (pageOf message).after := by
    unfold pageOf
    split
    · rfl
    · have within : message.serverSequence - 1 ≤ i64Max := by omega
      simp [asI64, within]
  unfold botsMessagesList
  rw [allowed, cast]
  rfl

end Pages

section Search

variable {Score : Type} [LinearOrder Score] {text : FullText Score} {book : RoomBook}
  {actor : Principal} {scope : SearchScope} {query : String}

theorem mem_searchRows_iff {message : Message} :
    message ∈ searchRows text book actor scope query ↔
      message ∈ book.store.messages.rows ∧
        botsIsMember book.store message.conversationId actor = true ∧
        text.isMatch query message.indexed = true ∧ scope.admits book message = true := by
  simp [searchRows, List.mem_insertionSort, List.mem_filter, and_assoc]

theorem botsConversationSearch_ok {cursor : Option String} {page : SearchPage Score}
    (done : botsConversationSearch text book actor scope query cursor = .ok page) :
    checkText query 2048 = .ok () ∧ searchTerms query ≠ [] ∧
      ∀ hit ∈ page.hits, hit.message ∈ searchRows text book actor scope (ftsQuery query) := by
  simp only [botsConversationSearch, bind_eq_ok_iff, require_eq_ok_iff, exists_const,
    pure_eq_ok_iff] at done
  obtain ⟨_, checked, terms, offset, _, rfl⟩ := done
  refine ⟨checked, terms, fun hit member => ?_⟩
  obtain ⟨message, listed, rfl⟩ := List.mem_map.mp member
  exact List.mem_of_mem_drop (List.mem_of_mem_take (List.mem_of_mem_take listed))

theorem searchRows_length_le : (searchRows text book actor scope query).length ≤ i64Max := by
  unfold searchRows
  rw [List.length_insertionSort]
  exact Nat.le_trans (List.length_filter_le _ _) book.length_le

/-- Every match is the first hit of some cursor. -/
theorem botsConversationSearch_cursor {message : Message}
    (checked : checkText query 2048 = .ok ()) (terms : searchTerms query ≠ [])
    (found : message ∈ searchRows text book actor scope (ftsQuery query)) :
    ∃ cursor page, botsConversationSearch text book actor scope query cursor = .ok page ∧
      ∃ hit ∈ page.hits, hit.message = message := by
  obtain ⟨index, inside, same⟩ := List.mem_iff_getElem.mp found
  have bounded : index ≤ i64Max := by
    have := @searchRows_length_le _ _ text book actor scope (ftsQuery query)
    omega
  have rest : (searchRows text book actor scope (ftsQuery query)).drop index =
      message :: (searchRows text book actor scope (ftsQuery query)).drop (index + 1) := by
    rw [List.drop_eq_getElem_cons inside, same]
  refine ⟨some (toString index), searchPage text book actor scope (ftsQuery query) index, ?_,
    ⟨message, text.bm25 book.store.messages.rows (ftsQuery query) message⟩, ?_, rfl⟩
  · simp only [botsConversationSearch, bind_eq_ok_iff, require_eq_ok_iff, exists_const,
      pure_eq_ok_iff]
    have offset : cursorOffset (some (toString index)) = .ok (index : Int) := by
      rw [cursorOffset, parseI64_toString bounded]
      rfl
    exact ⟨(), checked, terms, index, offset, rfl⟩
  · apply List.mem_map_of_mem
    simp [rest, searchPageSize]

end Search

section History

/-- One membership of the book. -/
structure Membership where
  book : RoomBook
  member : ConversationMember
  stored : member ∈ book.store.members.rows

namespace Membership

variable (membership : Membership)

def conversation : ConversationId := membership.member.conversationId

def actor : Principal := membership.member.principal

/-- The instant before which the member sees nothing. -/
def boundary : Int := membership.book.historyBoundary membership.member.key

/-- The member may read at all, and the message is not from before its boundary. -/
def MaySee (message : Message) : Prop :=
  .read ∈ membership.member.allowedActions ∧ membership.boundary ≤ message.createdAt

variable {Score : Type} [LinearOrder Score] (text : FullText Score)

/-- Every operation on behalf of the member keeps to what it may see of the room. -/
structure HistoryKept : Prop where
  listed : ∀ page messages,
    botsMessagesList membership.book.store membership.actor membership.conversation page =
      .ok messages →
    ∀ message ∈ messages, membership.MaySee message
  searched : ∀ scope query cursor page,
    botsConversationSearch text membership.book membership.actor scope query cursor = .ok page →
    ∀ hit ∈ page.hits, hit.message.conversationId = membership.conversation →
      membership.MaySee hit.message
  tools : ∀ agent turn now, membership.actor = .agent agent →
    turn.conversation = membership.conversation →
    turnAliveCheck membership.book agent turn now = .ok () →
    ∃ message, membership.book.store.message? turn.message = some message ∧
      membership.MaySee message

/-- Some query of acceptable length has at least one term and matches the message. -/
def Findable (message : Message) : Prop :=
  ∃ query, checkText query 2048 = .ok () ∧ searchTerms query ≠ [] ∧
    text.isMatch (ftsQuery query) message.indexed = true

/-- The room holds nothing to withhold: a member that may read joined before its first message,
and a member that may not finds no words in it. -/
structure NothingWithheld : Prop where
  listed : .read ∈ membership.member.allowedActions →
    ∀ message ∈ membership.book.store.transcript membership.conversation,
      membership.boundary ≤ message.createdAt
  searched : .read ∉ membership.member.allowedActions →
    ∀ message ∈ membership.book.store.transcript membership.conversation, ¬ Findable text message

variable {membership text}

theorem member?_eq :
    membership.book.store.member? membership.conversation membership.actor =
      some membership.member :=
  (Table.lookup_eq_some_iff _ _ _).mpr ⟨membership.stored, rfl⟩

theorem requireMember_iff :
    botsRequireMember membership.book.store membership.conversation membership.actor .read =
      .ok () ↔ .read ∈ membership.member.allowedActions := by
  simp only [botsRequireMember, member?_eq, orFail_some, ok_bind, require_eq_ok_iff]

/-- Tools are only alive for an agent that may see the message of its turn. -/
theorem turnAliveCheck_ok {agent : AgentId} {turn : AgentToolTurn} {now : Int}
    (isActor : membership.actor = .agent agent) (here : turn.conversation = membership.conversation)
    (alive : turnAliveCheck membership.book agent turn now = .ok ()) :
    ∃ message, membership.book.store.message? turn.message = some message ∧
      membership.MaySee message := by
  simp only [turnAliveCheck, bind_eq_ok_iff, require_eq_ok_iff, exists_const,
    orFail_eq_ok_iff] at alive
  obtain ⟨_, actions, found, readable⟩ := alive
  simp only [turnActions, Option.bind_eq_bind, Option.bind_eq_some_iff] at found
  obtain ⟨delivery, _, message, messageFound, conversation, room, member, joined, selected⟩ := found
  split at selected
  · rename_i conditions
    obtain ⟨same, _, _, _, _, recent⟩ := conditions
    obtain rfl := Option.some.inj selected
    have isMember : membership.book.store.member? conversation.id (.agent agent) =
        some membership.member := by
      rw [same, here, ← isActor]
      exact member?_eq
    obtain rfl := Option.some.inj (joined.symm.trans isMember)
    exact ⟨message, messageFound, readable, recent⟩
  · cases selected

theorem HistoryKept.nothingWithheld (kept : membership.HistoryKept text) :
    membership.NothingWithheld text := by
  constructor
  · intro readable message stored
    have bounded := membership.book.sequence_le message (List.mem_filter.mp stored).1
    have page := botsMessagesList_pageOf (requireMember_iff.mpr readable) bounded
    exact (kept.listed _ _ page message (mem_pageOf stored)).2
  · rintro unreadable message stored ⟨query, checked, terms, matched⟩
    obtain ⟨member, room⟩ := List.mem_filter.mp stored
    have here : message.conversationId = membership.conversation := of_decide_eq_true room
    have isMember :
        botsIsMember membership.book.store message.conversationId membership.actor = true := by
      rw [here, botsIsMember, member?_eq]
      rfl
    have found : message ∈ searchRows text membership.book membership.actor .everything
        (ftsQuery query) := mem_searchRows_iff.mpr ⟨member, isMember, matched, rfl⟩
    obtain ⟨cursor, page, done, hit, listed, rfl⟩ :=
      botsConversationSearch_cursor checked terms found
    exact unreadable (kept.searched _ _ _ _ done hit listed here).1

theorem NothingWithheld.historyKept (withheld : membership.NothingWithheld text) :
    membership.HistoryKept text := by
  constructor
  · intro page messages done message member
    obtain ⟨allowed, inside⟩ := botsMessagesList_ok done
    have readable := requireMember_iff.mp allowed
    exact ⟨readable, withheld.listed readable message (inside message member)⟩
  · intro scope query cursor page done hit member here
    obtain ⟨checked, terms, inside⟩ := botsConversationSearch_ok done
    obtain ⟨row, _, matched, _⟩ := mem_searchRows_iff.mp (inside hit member)
    have stored : hit.message ∈ membership.book.store.transcript membership.conversation :=
      List.mem_filter.mpr ⟨row, decide_eq_true here⟩
    by_cases readable : .read ∈ membership.member.allowedActions
    · exact ⟨readable, withheld.listed readable _ stored⟩
    · exact absurd ⟨query, checked, terms, matched⟩ (withheld.searched readable _ stored)
  · intro agent turn now isActor here alive
    exact turnAliveCheck_ok isActor here alive

end Membership

/-- The operations keep a member to its history exactly when the room holds nothing to keep
from it. -/
theorem history_kept_iff {Score : Type} [LinearOrder Score] (text : FullText Score)
    (membership : Membership) :
    membership.HistoryKept text ↔ membership.NothingWithheld text :=
  ⟨Membership.HistoryKept.nothingWithheld, Membership.NothingWithheld.historyKept⟩

/-- The owner writes at second 5 and agent 1 joins the room at second 10. -/
def joinAfterMessage : List RoomOp :=
  [.transact (openRoom 1), .transact (.send (ownerMessage []) 1 5), .transact (openRoom 2)]

def lateJoiner : Membership where
  book :=
    { store := roomsAt joinAfterMessage 3
      historyBoundary := fun key => if key = (0, .agent 1) then 10 else 0
      projectOf := fun _ => none
      sequence_le := by decide
      length_le := by decide }
  member := roomMember (.agent 1)
  stored := by decide

/-- An index of single words, all of one rank. -/
def wordIndex : FullText Nat :=
  { isMatch := fun query body => query ∈ searchTerms body
    bm25 := fun _ _ _ => 0 }

/-- The new member reads what was written before it joined. -/
theorem earlier_message_listed :
    lateJoiner.boundary = 10 ∧ (∃ message, botsMessagesList lateJoiner.book.store lateJoiner.actor
        lateJoiner.conversation ⟨none, none, 50⟩ = .ok [message] ∧ message.createdAt = 5) ∧
      ¬ lateJoiner.HistoryKept wordIndex := by
  have page : botsMessagesList lateJoiner.book.store lateJoiner.actor lateJoiner.conversation
      ⟨none, none, 50⟩ = .ok [(ownerMessage []).message 1 1 5] := by rfl
  refine ⟨by decide, ⟨_, page, rfl⟩, fun kept => ?_⟩
  have seen := (kept.listed _ _ page _ List.mem_cons_self).2
  exact absurd seen (by decide)

end History

end OHHive.Bots
