import OHHive.Bots.RoomCreation

/-! Runs of room creations among whatever else the hub does with profiles, rooms and memberships: a
request makes one room, and every repetition gets that room back. -/

namespace OHHive.Bots

open Foundation

section Events

/-- One call of `bots_rooms_create`; the storage may fail before its transaction commits. -/
structure RoomCall where
  request : RoomRequest
  id : ConversationId
  ts : Int
  interrupted : Bool
deriving DecidableEq, Repr

/-- What a call does; what a failed transaction wrote is rolled back. -/
def RoomCall.outcome (call : RoomCall) (store : RoomStore) : Result (RoomStore × Room) := do
  let done ← store.botsRoomsCreate call.request call.id call.ts
  require (call.interrupted = false) dbError
  return done

/-- Nothing but a creation writes the receipts; the other tables change at will. -/
inductive RoomEvent where
  | create (call : RoomCall)
  | elsewhere (agents : Table AgentProfile (Table.SameKey AgentProfile.id))
      (rooms : Table Room (Table.SameKey fun room => room.id))
      (members : Table RoomMember (Table.SameKey RoomMember.key))

def RoomStore.step (store : RoomStore) : RoomEvent → RoomStore
  | .create call => ((call.outcome store).map Prod.fst).toOption.getD store
  | .elsewhere agents rooms members => { store with agents, rooms, members }

abbrev roomStoreAt (events : List RoomEvent) (moment : Nat) : RoomStore :=
  stateAt RoomStore.step .empty events moment

variable {store next : RoomStore} {call : RoomCall} {room : Room}

theorem outcome_ok (done : call.outcome store = .ok (next, room)) :
    store.botsRoomsCreate call.request call.id call.ts = .ok (next, room) ∧
      store.step (.create call) = next := by
  have step : store.step (.create call) = next := by
    change ((call.outcome store).map Prod.fst).toOption.getD store = next
    rw [done]
    rfl
  obtain ⟨_, created, finished⟩ := bind_eq_ok_iff.mp done
  obtain ⟨_, _, finished⟩ := bind_eq_ok_iff.mp finished
  cases pure_eq_ok_iff.mp finished
  exact ⟨created, step⟩

theorem outcome_error {error : HubError} (failed : call.outcome store = .error error) :
    store.step (.create call) = store := by
  change ((call.outcome store).map Prod.fst).toOption.getD store = store
  rw [failed]
  rfl

/-- A stored receipt stays. -/
theorem receipt_step {event : RoomEvent} {key : UserId × Uuid} {receipt : RoomReceipt}
    (found : store.receipts.lookup key = some receipt) :
    (store.step event).receipts.lookup key = some receipt := by
  cases event with
  | elsewhere agents rooms members => exact found
  | create call =>
    cases done : call.outcome store with
    | error error =>
      rw [outcome_error done]
      exact found
    | ok result =>
      obtain ⟨next, room⟩ := result
      obtain ⟨created, step⟩ := outcome_ok done
      rw [step]
      obtain ⟨_, _, ⟨rfl, _⟩ | made⟩ := botsRoomsCreate_ok created
      · exact found
      · exact Table.lookup_insert?_of_some made.receipts found

end Events

section Receipts

variable {events : List RoomEvent} {moment later : Nat} {call : RoomCall} {room : Room}
  {next : RoomStore}

/-- At this moment the call makes the room. -/
structure Makes (events : List RoomEvent) (moment : Nat) (call : RoomCall) (room : Room) :
    Prop where
  present : events[moment]? = some (.create call)
  made : RoomMade (roomStoreAt events moment) call.request call.ts room
    (roomStoreAt events (moment + 1))

/-- At this moment the call is answered with the room. -/
structure Answers (events : List RoomEvent) (moment : Nat) (call : RoomCall) (room : Room) :
    Prop where
  present : events[moment]? = some (.create call)
  answer : call.outcome (roomStoreAt events moment) = .ok (roomStoreAt events (moment + 1), room)

theorem receipt_stays {key : UserId × Uuid} {receipt : RoomReceipt} (ordered : moment ≤ later)
    (found : (roomStoreAt events moment).receipts.lookup key = some receipt) :
    (roomStoreAt events later).receipts.lookup key = some receipt := by
  induction later, ordered using Nat.le_induction with
  | base => exact found
  | succ last _ ih =>
    rcases stateAt_next RoomStore.step .empty events last with ⟨event, _, step⟩ | ⟨_, step⟩
    · rw [roomStoreAt, step]
      exact receipt_step ih
    · rw [roomStoreAt, step]
      exact ih

theorem Makes.receipt (makes : Makes events moment call room) (after : moment < later) :
    (roomStoreAt events later).receipts.lookup call.request.key =
      some (call.request.receipt room) := by
  apply receipt_stays after
  rw [Table.lookup_insert? makes.made.receipts]
  exact if_pos rfl

/-- A receipt was written by the call that made its room. -/
theorem makes_of_receipt {key : UserId × Uuid} {receipt : RoomReceipt}
    (found : (roomStoreAt events moment).receipts.lookup key = some receipt) :
    ∃ earlier < moment, ∃ call, call.request.key = key ∧
      Makes events earlier call receipt.response ∧
      receipt = call.request.receipt receipt.response := by
  induction moment with
  | zero => cases found
  | succ moment ih =>
    have kept (found : (roomStoreAt events moment).receipts.lookup key = some receipt) :
        ∃ earlier < moment + 1, ∃ call, call.request.key = key ∧
          Makes events earlier call receipt.response ∧
          receipt = call.request.receipt receipt.response := by
      obtain ⟨earlier, before, rest⟩ := ih found
      exact ⟨earlier, Nat.lt_succ_of_lt before, rest⟩
    rcases stateAt_next RoomStore.step .empty events moment with ⟨event, present, step⟩ | ⟨_, step⟩
    · have same : roomStoreAt events (moment + 1) = (roomStoreAt events moment).step event := step
      cases event with
      | elsewhere agents rooms members =>
        rw [same] at found
        exact kept found
      | create call =>
        cases done : call.outcome (roomStoreAt events moment) with
        | error error =>
          rw [same, outcome_error done] at found
          exact kept found
        | ok result =>
          obtain ⟨next, room⟩ := result
          obtain ⟨created, stepped⟩ := outcome_ok done
          rw [stepped] at same
          obtain ⟨_, _, ⟨rfl, _⟩ | made⟩ := botsRoomsCreate_ok created
          · rw [same] at found
            exact kept found
          · rw [same, Table.lookup_insert? made.receipts] at found
            split at found
            · rename_i own
              obtain rfl := Option.some.inj found
              exact ⟨moment, Nat.lt_succ_self moment, call, own, ⟨present, same ▸ made⟩, rfl⟩
            · exact kept found
    · have same : roomStoreAt events (moment + 1) = roomStoreAt events moment := step
      rw [same] at found
      exact kept found

/-- An answered call made its room, or an earlier call with the same details did. -/
theorem makes_of_answers (answers : Answers events moment call room) :
    Makes events moment call room ∨ roomStoreAt events (moment + 1) = roomStoreAt events moment ∧
      ∃ earlier < moment, ∃ first, first.request.key = call.request.key ∧
        first.request.SameDetails call.request ∧ Makes events earlier first room := by
  obtain ⟨_, _, ⟨same, receipt, found, payload, rfl⟩ | made⟩ :=
    botsRoomsCreate_ok (outcome_ok answers.answer).1
  · obtain ⟨earlier, before, first, key, makes, shape⟩ := makes_of_receipt found
    refine Or.inr ⟨same, earlier, before, first, key, ?_, makes⟩
    rw [shape] at payload
    exact fingerprint_eq_iff.mp payload
  · exact Or.inl ⟨answers.present, made⟩

/-- The receipt of an answered call, from then on. -/
theorem Answers.receipt (answers : Answers events moment call room) (after : moment < later) :
    ∃ receipt, (roomStoreAt events later).receipts.lookup call.request.key = some receipt ∧
      receipt.payload = call.request.fingerprint ∧ receipt.response = room := by
  rcases makes_of_answers answers with makes | ⟨_, earlier, before, first, key, details, makes⟩
  · exact ⟨_, makes.receipt after, rfl, rfl⟩
  · refine ⟨_, key ▸ makes.receipt (lt_trans before after), ?_, rfl⟩
    exact fingerprint_eq_iff.mpr details

end Receipts

section Creation

/-- A call with the request identity and all the details of another one. -/
structure RoomCall.Repeats (again call : RoomCall) : Prop where
  key : again.request.key = call.request.key
  details : again.request.SameDetails call.request
  scope : again.request.draft.storageScope = call.request.draft.storageScope

variable {events : List RoomEvent} {moment later : Nat} {call again : RoomCall} {room : Room}

theorem RoomCall.Repeats.wellFormed (repeats : again.Repeats call)
    (formed : call.request.WellFormed) (short : again.request.agents.length ≤ 16) :
    again.request.WellFormed := by
  obtain ⟨named, titled, brief, staffed, _, scope, kind, planned⟩ := formed
  obtain ⟨_, sameId⟩ := Prod.mk.inj repeats.key
  refine ⟨?_, ?_, ?_, ?_, short, repeats.scope.trans scope, ?_, ?_⟩
  · rwa [sameId]
  · rwa [repeats.details.title]
  · rwa [repeats.details.title]
  · intro none
    obtain ⟨agent, member⟩ := List.exists_mem_of_ne_nil _ staffed
    have listed := (repeats.details.agents agent).mpr member
    rw [none] at listed
    cases listed
  · rwa [repeats.details.kind]
  · rw [repeats.details.kind, repeats.details.projectId]
    exact planned

theorem RoomCall.Repeats.coordinated (repeats : again.Repeats call)
    (coordinated : call.request.Coordinated) : again.request.Coordinated := by
  intro id chosen
  rw [repeats.details.coordinator] at chosen
  exact mem_roster.mpr ((repeats.details.agents id).mpr (mem_roster.mp (coordinated id chosen)))

/-- A room of a request is made once, as a whole, and out of agents its owner has. -/
structure RoomCreation (events : List RoomEvent) : Prop where
  repeated : ∀ {moment later call again room}, moment < later → Answers events moment call room →
    events[later]? = some (.create again) → again.Repeats call →
    again.request.agents.length ≤ 16 → again.interrupted = false →
    again.outcome (roomStoreAt events later) = .ok (roomStoreAt events later, room) ∧
      roomStoreAt events (later + 1) = roomStoreAt events later
  differing : ∀ {moment later call again room}, moment < later → Answers events moment call room →
    events[later]? = some (.create again) → again.request.key = call.request.key →
    ¬ again.Repeats call → ∃ error, again.outcome (roomStoreAt events later) = .error error
  /-- A call that is not such a repetition makes its room with all that belongs to it. -/
  made : ∀ {moment call next room}, events[moment]? = some (.create call) →
    call.outcome (roomStoreAt events moment) = .ok (next, room) →
    Answers events moment call room ∧ (Makes events moment call room ∨
      roomStoreAt events (moment + 1) = roomStoreAt events moment ∧
      ∃ earlier < moment, ∃ first, first.request.key = call.request.key ∧
        first.request.SameDetails call.request ∧ Makes events earlier first room)
  once : ∀ {moment later call again room other}, Makes events moment call room →
    Makes events later again other → again.request.key = call.request.key → moment = later
  roster : ∀ request : RoomRequest, request.roster.Nodup ∧
    ∀ agent, agent ∈ request.roster ↔ agent ∈ request.agents
  failed : ∀ {moment call error}, events[moment]? = some (.create call) →
    call.outcome (roomStoreAt events moment) = .error error →
    roomStoreAt events (moment + 1) = roomStoreAt events moment
  /-- An agent that becomes a member is a profile of the owner that is not archived. -/
  admitted : ∀ {moment call member agent}, events[moment]? = some (.create call) →
    member ∈ (roomStoreAt events (moment + 1)).members.rows →
    member ∉ (roomStoreAt events moment).members.rows → member.principal = .agent agent →
    call.request.Allowed (roomStoreAt events moment) agent

theorem answers_of_outcome {next : RoomStore} (present : events[moment]? = some (.create call))
    (done : call.outcome (roomStoreAt events moment) = .ok (next, room)) :
    Answers events moment call room := by
  have step : roomStoreAt events (moment + 1) = next :=
    (stateAt_succ RoomStore.step .empty present).trans (outcome_ok done).2
  exact ⟨present, by rw [step]; exact done⟩

theorem rest_of_outcome {error : HubError} (present : events[moment]? = some (.create call))
    (failed : call.outcome (roomStoreAt events moment) = .error error) :
    roomStoreAt events (moment + 1) = roomStoreAt events moment :=
  (stateAt_succ RoomStore.step .empty present).trans (outcome_error failed)

/-- The repetition of an answered call. -/
theorem outcome_of_repeats (ordered : moment < later) (answers : Answers events moment call room)
    (repeats : again.Repeats call) (short : again.request.agents.length ≤ 16)
    (steady : again.interrupted = false) :
    again.outcome (roomStoreAt events later) = .ok (roomStoreAt events later, room) := by
  obtain ⟨formed, coordinated, _⟩ := botsRoomsCreate_ok (outcome_ok answers.answer).1
  obtain ⟨receipt, found, payload, rfl⟩ := answers.receipt ordered
  rw [← repeats.key] at found
  have same : receipt.payload = again.request.fingerprint :=
    payload.trans (fingerprint_eq_iff.mpr repeats.details).symm
  refine bind_eq_ok_iff.mpr ⟨_, botsRoomsCreate_of_receipt (repeats.wellFormed formed short)
    (repeats.coordinated coordinated) found same, ?_⟩
  exact bind_eq_ok_iff.mpr ⟨(), require_eq_ok_iff.mpr steady, rfl⟩

/-- A call that is answered under a request identity in use repeats the call that used it. -/
theorem repeats_of_answers {other : Room} (ordered : moment < later)
    (answers : Answers events moment call room) (answered : Answers events later again other)
    (key : again.request.key = call.request.key) : again.Repeats call := by
  obtain ⟨formed, _, _⟩ := botsRoomsCreate_ok (outcome_ok answers.answer).1
  obtain ⟨formedAgain, _, replayed | made⟩ := botsRoomsCreate_ok (outcome_ok answered.answer).1
  · obtain ⟨_, receipt, found, payload, _⟩ := replayed
    obtain ⟨stored, kept, fingerprint, _⟩ := answers.receipt ordered
    rw [key, kept] at found
    obtain rfl := Option.some.inj found
    have details := fingerprint_eq_iff.mp (payload.symm.trans fingerprint)
    obtain ⟨_, _, _, _, _, scope, _⟩ := formed
    obtain ⟨_, _, _, _, _, scopeAgain, _⟩ := formedAgain
    exact ⟨key, details, scopeAgain.trans scope.symm⟩
  · obtain ⟨stored, kept, _⟩ := answers.receipt ordered
    obtain ⟨fits, _⟩ := Table.insert?_eq_some_iff.mp made.receipts
    have same := (Table.key_of_lookup kept).trans key.symm
    exact absurd same (fits stored (Table.mem_of_lookup kept))

theorem not_makes_after {other : Room} (makes : Makes events moment call room)
    (again' : Makes events later again other) (key : again.request.key = call.request.key) :
    ¬ moment < later := by
  intro ordered
  have kept := makes.receipt ordered
  obtain ⟨fits, _⟩ := Table.insert?_eq_some_iff.mp again'.made.receipts
  exact fits _ (Table.mem_of_lookup kept) key.symm

theorem allowed_of_member {agent : AgentId} {member : RoomMember}
    (present : events[moment]? = some (.create call))
    (joined : member ∈ (roomStoreAt events (moment + 1)).members.rows)
    (stranger : member ∉ (roomStoreAt events moment).members.rows)
    (named : member.principal = .agent agent) :
    call.request.Allowed (roomStoreAt events moment) agent := by
  cases done : call.outcome (roomStoreAt events moment) with
  | error error =>
    rw [rest_of_outcome present done] at joined
    exact absurd joined stranger
  | ok result =>
    obtain ⟨next, room⟩ := result
    have answers := answers_of_outcome present done
    rcases makes_of_answers answers with makes | ⟨same, _⟩
    · rw [makes.made.members] at joined
      rcases List.mem_append.mp joined with old | added
      · exact absurd old stranger
      · rcases List.mem_cons.mp added with rfl | added
        · cases named
        · obtain ⟨other, member, rfl⟩ := List.mem_map.mp added
          obtain rfl := Principal.agent.inj named
          exact makes.made.admitted other (mem_roster.mp member)
    · rw [same] at joined
      exact absurd joined stranger

/-- Room creation is atomic and idempotent in every run. -/
theorem rooms_created_once (events : List RoomEvent) : RoomCreation events where
  repeated ordered answers present repeats short steady := by
    have done := outcome_of_repeats ordered answers repeats short steady
    refine ⟨done, ?_⟩
    exact (stateAt_succ RoomStore.step .empty present).trans (outcome_ok done).2
  differing ordered answers present key different := by
    cases done : RoomCall.outcome _ (roomStoreAt events _) with
    | error error => exact ⟨error, rfl⟩
    | ok result =>
      have answered := answers_of_outcome present done
      exact absurd (repeats_of_answers ordered answers answered key) different
  made present done := by
    have answers := answers_of_outcome present done
    exact ⟨answers, makes_of_answers answers⟩
  once makes again key :=
    Nat.le_antisymm (not_lt.mp (not_makes_after again makes key.symm))
      (not_lt.mp (not_makes_after makes again key))
  roster request := ⟨nodup_sortedIds request.agents, fun _ => mem_roster⟩
  failed present done := rest_of_outcome present done
  admitted present joined stranger named := allowed_of_member present joined stranger named

end Creation

section Limits

/-- The owner's only agent. -/
def helper : AgentProfile :=
  { id := 2, owner := 1, name := "Helper", runtimeKind := .local, preferredHost := none,
    providerAccountRef := none, archived := false }

def helpers : Table AgentProfile (Table.SameKey AgentProfile.id) :=
  ⟨[helper], List.pairwise_singleton _ _⟩

/-- A room with the agent, named so many times. -/
def helpersRoom (times : Nat) : RoomRequest :=
  { requestId := 3
    draft :=
      { title := some " Team ".toList, owner := 1, kind := .team, projectId := none,
        coordinator := none, storageScope := .localOnly }
    agents := List.replicate times 2 }

def helpersCall (times : Nat) : RoomCall := ⟨helpersRoom times, 4, 0, false⟩

/-- The room is made, and asked for again with a list that names its agent seventeen times. -/
def longRepetition : List RoomEvent :=
  [.elsewhere helpers .empty .empty,
    .create (helpersCall 1), .create (helpersCall 17)]

/-- The length of a list counts its repetitions: the same request with a longer list is refused. -/
theorem long_repetition_refused :
    ¬ ∀ {events moment later call again room}, moment < later → Answers events moment call room →
      events[later]? = some (.create again) → again.Repeats call → again.interrupted = false →
      again.outcome (roomStoreAt events later) = .ok (roomStoreAt events later, room) := by
  intro replayed
  have taken : ((helpersCall 1).outcome (roomStoreAt longRepetition 1)).toOption.isSome = true := by
    decide +kernel
  have refused :
      ((helpersCall 17).outcome (roomStoreAt longRepetition 2)).toOption.isSome = false := by
    decide +kernel
  cases done : (helpersCall 1).outcome (roomStoreAt longRepetition 1) with
  | error error =>
    rw [done] at taken
    cases taken
  | ok result =>
    obtain ⟨next, room⟩ := result
    have answers : Answers longRepetition 1 (helpersCall 1) room := answers_of_outcome rfl done
    have repeats : (helpersCall 17).Repeats (helpersCall 1) := by
      refine ⟨rfl, ⟨rfl, rfl, rfl, rfl, ?_⟩, rfl⟩
      intro agent
      rw [helpersCall, helpersCall, helpersRoom, helpersRoom, List.mem_replicate,
        List.mem_replicate]
      simp
    have answer := replayed (by decide : 1 < 2) answers rfl repeats rfl
    rw [answer] at refused
    cases refused

end Limits
end OHHive.Bots
