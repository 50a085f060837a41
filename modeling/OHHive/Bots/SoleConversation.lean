import OHHive.Bots.DirectMessages

/-! One direct conversation for an owner and an agent, as long as searches come across it and no
creation follows another one. -/

namespace OHHive.Bots

open Foundation

section Lists

variable {α : Type} {items : List α} {chosen : α} {test : α → Bool} {stamp : α → Int} {limit : Nat}

/-- A search among the newest comes across an item that is newer than all others it looks for. -/
theorem find?_take_newest
    (newest : items.Pairwise fun earlier later => stamp later ≤ stamp earlier)
    (member : chosen ∈ items) (passes : test chosen = true)
    (foremost : ∀ other ∈ items, test other = true → other ≠ chosen → stamp other < stamp chosen)
    (early : items.countP (fun item => stamp chosen ≤ stamp item) ≤ limit) :
    (items.take limit).find? test = some chosen := by
  induction items generalizing limit with
  | nil => cases member
  | cons first rest ih =>
    obtain ⟨older, restNewest⟩ := List.pairwise_cons.mp newest
    have asNew : stamp chosen ≤ stamp first := by
      rcases List.mem_cons.mp member with rfl | later
      · exact le_rfl
      · exact older chosen later
    have counted : rest.countP (fun item => stamp chosen ≤ stamp item) + 1 ≤ limit := by
      simpa only [List.countP_cons, decide_eq_true asNew, if_true] using early
    obtain ⟨limit, rfl⟩ := Nat.exists_eq_add_of_le' (le_trans (Nat.le_add_left 1 _) counted)
    rw [List.take_succ_cons]
    by_cases same : first = chosen
    · rw [same, List.find?_cons_of_pos passes]
    · have fails : ¬ test first = true := by
        intro wanted
        exact absurd (foremost first List.mem_cons_self wanted same) (not_lt.mpr asNew)
      rw [List.find?_cons_of_neg fails]
      have later : chosen ∈ rest := (List.mem_cons.mp member).resolve_left (Ne.symm same)
      exact ih restNewest later
        (fun other inRest => foremost other (List.mem_cons_of_mem _ inRest))
        (Nat.le_of_succ_le_succ counted)

end Lists

section Stores

variable {store next last : RoomStore} {owner : UserId} {agent : AgentId} {actor : Principal}
  {room : Room}

theorem mem_roomsOf : room ∈ store.roomsOf actor ↔
    room ∈ store.rooms.rows ∧ ∃ member ∈ store.members.rows, member.key = (room.id, actor) := by
  rw [RoomStore.roomsOf, List.mem_filter, Option.isSome_iff_exists]
  refine and_congr_right fun _ => exists_congr fun member => ?_
  exact Table.lookup_eq_some_iff _ _ _

theorem mem_dms :
    room ∈ store.dms owner agent ↔ room ∈ store.roomsOf (.user owner) ∧ room.isDm agent = true :=
  List.mem_filter

/-- Conversations and memberships stay. -/
structure RoomStore.Grown (store next : RoomStore) : Prop where
  rooms : store.rooms.rows ⊆ next.rooms.rows
  members : store.members.rows ⊆ next.members.rows

theorem RoomStore.Grown.refl (store : RoomStore) : store.Grown store :=
  ⟨List.Subset.refl _, List.Subset.refl _⟩

theorem RoomStore.Grown.trans (first : store.Grown next) (second : next.Grown last) :
    store.Grown last :=
  ⟨List.Subset.trans first.rooms second.rooms, List.Subset.trans first.members second.members⟩

theorem RoomStore.Grown.dms (grown : store.Grown next) (member : room ∈ store.dms owner agent) :
    room ∈ next.dms owner agent := by
  obtain ⟨joined, wanted⟩ := mem_dms.mp member
  obtain ⟨stored, membership, inMembers, named⟩ := mem_roomsOf.mp joined
  exact mem_dms.mpr
    ⟨mem_roomsOf.mpr ⟨grown.rooms stored, membership, grown.members inMembers, named⟩, wanted⟩

theorem grown_insertMembers {members : List RoomMember}
    (inserted : members.foldlM RoomStore.insertMember store = .ok next) : store.Grown next := by
  obtain ⟨rows, same⟩ := insertMembers_ok inserted
  constructor
  · rw [same]
    exact List.Subset.refl _
  · rw [rows]
    exact List.subset_append_left _ _

theorem grown_insertMember {member : RoomMember} (inserted : store.insertMember member = .ok next) :
    store.Grown next := by
  obtain ⟨rows, same⟩ := insertMember_ok inserted
  constructor
  · rw [same]
    exact List.Subset.refl _
  · rw [rows]
    exact List.subset_append_left _ _

theorem grown_insertRoom (inserted : store.insertRoom room = .ok next) : store.Grown next := by
  obtain ⟨_, rows, same⟩ := insertRoom_ok inserted
  constructor
  · rw [rows]
    exact List.subset_append_left _ _
  · rw [same]
    exact List.Subset.refl _

/-- A created conversation is stored with its owner among its members. -/
theorem botsConversationsCreate_ok {draft : NewConversation} {id : ConversationId} {ts : Int}
    (created : store.botsConversationsCreate draft id ts = .ok next) :
    store.Grown next ∧ draft.room id ts ∈ next.roomsOf (.user draft.owner) := by
  obtain ⟨first, roomAdded, created⟩ := bind_eq_ok_iff.mp created
  obtain ⟨second, ownerAdded, agentsAdded⟩ := bind_eq_ok_iff.mp created
  have later := (grown_insertMember ownerAdded).trans (grown_insertMembers agentsAdded)
  refine ⟨(grown_insertRoom roomAdded).trans later, mem_roomsOf.mpr ⟨?_, ?_⟩⟩
  · apply later.rooms
    rw [(insertRoom_ok roomAdded).2.1]
    exact List.mem_append_right _ List.mem_cons_self
  · refine ⟨(draft.room id ts).ownerMember ts, ?_, rfl⟩
    apply (grown_insertMembers agentsAdded).members
    rw [(insertMember_ok ownerAdded).1]
    exact List.mem_append_right _ List.mem_cons_self

theorem grown_join {conversation : ConversationId} {ts : Int}
    (joined : store.botsConversationsJoin actor conversation ts = .ok next) : store.Grown next := by
  unfold RoomStore.botsConversationsJoin at joined
  split at joined
  · cases joined
    exact RoomStore.Grown.refl store
  · exact grown_insertMember joined

theorem grown_createRoom (call : RoomCall) : store.Grown (store.step (.create call)) := by
  cases done : call.outcome store with
  | error error =>
    rw [outcome_error done]
    exact RoomStore.Grown.refl store
  | ok result =>
    obtain ⟨next, room⟩ := result
    obtain ⟨created, step⟩ := outcome_ok done
    rw [step]
    obtain ⟨_, _, ⟨rfl, _⟩ | made⟩ := botsRoomsCreate_ok created
    · exact RoomStore.Grown.refl next
    · constructor
      · rw [made.rooms]
        exact List.subset_append_left _ _
      · rw [made.members]
        exact List.subset_append_left _ _

end Stores

section Searches

variable {store : RoomStore} {listing : Listing} {owner : UserId} {agent : AgentId} {dm : Room}

/-- What a search finds is a direct conversation of the two. -/
theorem mem_dms_of_searchDm (found : store.searchDm listing owner agent = some dm) :
    dm ∈ store.dms owner agent := by
  have wanted : dm.isDm agent = true := by
    have passed := List.find?_some found
    exact passed
  refine mem_dms.mpr ⟨?_, wanted⟩
  exact (listing.perm _).mem_iff.mp (List.mem_of_mem_take (List.mem_of_find?_eq_some found))

/-- A search comes across the foremost conversation of the two. -/
theorem searchDm_of_foremost (member : dm ∈ store.dms owner agent)
    (foremost : store.Foremost owner agent dm.id) :
    store.searchDm listing owner agent = some dm := by
  obtain ⟨older, early⟩ := foremost dm member rfl
  obtain ⟨joined, wanted⟩ := mem_dms.mp member
  have perm := listing.perm (store.roomsOf (.user owner))
  apply find?_take_newest (listing.newest _) (perm.mem_iff.mpr joined) wanted
  · intro other listed wanted different
    exact older other (mem_dms.mpr ⟨perm.mem_iff.mp listed, wanted⟩) different
  · rw [perm.countP_eq]
    exact early

end Searches

section Calls

variable {owner : UserId} {agent : AgentId} {call : DmCall} {id : ConversationId}

theorem established_of_created (created : call.created? owner agent = some id) :
    call.established? owner agent = some id := by
  unfold DmCall.created? at created
  unfold DmCall.established?
  split at created
  · rename_i named
    rw [if_pos named]
    cases progress : call.progress with
    | found other => rw [progress] at created; cases created
    | missing => rw [progress] at created; cases created
    | failed => rw [progress] at created; cases created
    | _ => rw [progress] at created; exact created
  · cases created

theorem mem_established {hub : DmHub} : id ∈ hub.established owner agent ↔
    ∃ call ∈ hub.calls, call.established? owner agent = some id := List.mem_filterMap

theorem named_of_established (established : call.established? owner agent = some id) :
    call.owner = owner ∧ call.agent = agent ∧ call.progress.conversation? = some id := by
  unfold DmCall.established? at established
  split at established
  · rename_i named
    exact ⟨named.1, named.2, established⟩
  · cases established

/-- The calls of the two have one conversation, and it is stored. -/
structure Kept (owner : UserId) (agent : AgentId) (hub : DmHub) : Prop where
  stored : ∀ call ∈ hub.calls, ∀ {id}, call.established? owner agent = some id →
    ∃ dm ∈ hub.store.dms owner agent, dm.id = id
  one : OneConversation owner agent hub

variable {hub next : DmHub}

/-- Calls that stand where they stood keep their conversation in a store that grows. -/
theorem Kept.standing (kept : Kept owner agent hub) (grown : hub.store.Grown next.store)
    (standing : ∀ (index : Nat) (call : DmCall), next.calls[index]? = some call →
      ∃ before : DmCall, hub.calls[index]? = some before ∧
        before.established? owner agent = call.established? owner agent ∧
        before.created? owner agent = call.created? owner agent) :
    Kept owner agent next := by
  have before (call : DmCall) (member : call ∈ next.calls) : ∃ before ∈ hub.calls,
      before.established? owner agent = call.established? owner agent := by
    obtain ⟨index, present⟩ := List.mem_iff_getElem?.mp member
    obtain ⟨old, stood, same, _⟩ := standing index call present
    exact ⟨old, List.mem_of_getElem? stood, same⟩
  refine ⟨?_, ?_, ?_⟩
  · intro call member id established
    obtain ⟨old, inCalls, same⟩ := before call member
    obtain ⟨dm, stored, named⟩ := kept.stored old inCalls (same.trans established)
    exact ⟨dm, grown.dms stored, named⟩
  · intro first member second another id other established found
    obtain ⟨old, inCalls, same⟩ := before first member
    obtain ⟨elder, inCallsToo, alike⟩ := before second another
    exact kept.one.same old inCalls elder inCallsToo (same.trans established) (alike.trans found)
  · intro index place first second present another created made
    obtain ⟨old, stood, _, same⟩ := standing index first present
    obtain ⟨elder, stoodToo, _, alike⟩ := standing place second another
    exact kept.one.sole stood stoodToo (same ▸ created) (alike ▸ made)

theorem Kept.quiet (kept : Kept owner agent hub) (grown : hub.store.Grown next.store)
    (same : next.calls = hub.calls) : Kept owner agent next := by
  refine kept.standing grown ?_
  intro index call present
  rw [same] at present
  exact ⟨call, present, rfl, rfl⟩

/-- A call that comes further without finding or making a conversation. -/
theorem Kept.proceeds {index : Nat} {progress : DmProgress} (kept : Kept owner agent hub)
    (present : hub.calls[index]? = some call) (store : next.store = hub.store)
    (calls : next.calls = hub.proceed index call progress)
    (conversation : progress.conversation? = call.progress.conversation?)
    (creation : progress.creation? = call.progress.creation?) : Kept owner agent next := by
  refine kept.standing (store ▸ RoomStore.Grown.refl hub.store) ?_
  intro place stood found
  rw [calls, DmHub.proceed, List.getElem?_set] at found
  split at found
  · rename_i here
    split at found
    · obtain rfl := Option.some.inj found
      refine ⟨call, here ▸ present, ?_, ?_⟩
      · rw [DmCall.established?, DmCall.established?, conversation]
      · rw [DmCall.created?, DmCall.created?, creation]
    · cases found
  · exact ⟨stood, found, rfl, rfl⟩

/-- A call that begins with what a search found. -/
theorem Kept.begins (kept : Kept owner agent hub) (store : next.store = hub.store)
    (calls : next.calls = hub.calls ++ [call]) (creation : call.progress.creation? = none)
    (stored : ∀ {id}, call.established? owner agent = some id →
      ∃ dm ∈ hub.store.dms owner agent, dm.id = id)
    (met : ∀ {id other}, call.established? owner agent = some id →
      other ∈ hub.established owner agent → id = other) :
    Kept owner agent next := by
  have uncreated : call.created? owner agent = none := by
    rw [DmCall.created?, creation, ite_self]
  refine ⟨?_, ?_, ?_⟩
  · intro stood member id established
    rw [store]
    rw [calls, List.mem_append, List.mem_singleton] at member
    rcases member with old | rfl
    · exact kept.stored stood old established
    · exact stored established
  · intro first member second another id other established found
    rw [calls, List.mem_append, List.mem_singleton] at member another
    rcases member with old | rfl
    · rcases another with elder | rfl
      · exact kept.one.same first old second elder established found
      · exact (met found (mem_established.mpr ⟨first, old, established⟩)).symm
    · rcases another with elder | rfl
      · exact met established (mem_established.mpr ⟨second, elder, found⟩)
      · exact Option.some.inj (established.symm.trans found)
  · intro index place first second present another created made
    have before {index : Nat} {stood : DmCall} (present : next.calls[index]? = some stood)
        (created : (stood.created? owner agent).isSome) : hub.calls[index]? = some stood := by
      rw [calls, List.getElem?_append] at present
      split at present
      · exact present
      · have here := List.mem_singleton.mp (List.mem_of_getElem? present)
        rw [here, uncreated] at created
        cases created
    exact kept.one.sole (before present created) (before another made) created made

/-- A call that creates the first conversation of the two. -/
theorem Kept.creates {index : Nat} (none' : hub.established owner agent = [])
    (calls : next.calls = hub.proceed index call (.made id))
    (stored : call.owner = owner → call.agent = agent →
      ∃ dm ∈ next.store.dms owner agent, dm.id = id) : Kept owner agent next := by
  have only {place : Nat} {stood : DmCall} {other : ConversationId}
      (present : next.calls[place]? = some stood)
      (established : stood.established? owner agent = some other) :
      place = index ∧ other = id ∧ ∃ dm ∈ next.store.dms owner agent, dm.id = id := by
    rw [calls, DmHub.proceed, List.getElem?_set] at present
    split at present
    · rename_i here
      split at present
      · obtain rfl := Option.some.inj present
        obtain ⟨sameOwner, sameAgent, made⟩ := named_of_established established
        exact ⟨here.symm, (Option.some.inj made).symm, stored sameOwner sameAgent⟩
      · cases present
    · have listed : other ∈ hub.established owner agent :=
        mem_established.mpr ⟨stood, List.mem_of_getElem? present, established⟩
      rw [none'] at listed
      cases listed
  refine ⟨?_, ?_, ?_⟩
  · intro stood member other established
    obtain ⟨place, present⟩ := List.mem_iff_getElem?.mp member
    obtain ⟨_, rfl, dm⟩ := only present established
    exact dm
  · intro first member second another mine yours established found
    obtain ⟨place, present⟩ := List.mem_iff_getElem?.mp member
    obtain ⟨elsewhere, stands⟩ := List.mem_iff_getElem?.mp another
    exact (only present established).2.1.trans (only stands found).2.1.symm
  · intro first second _ _ present another created made
    obtain ⟨mine, created⟩ := Option.isSome_iff_exists.mp created
    obtain ⟨yours, made⟩ := Option.isSome_iff_exists.mp made
    exact (only present (established_of_created created)).1.trans
      (only another (established_of_created made)).1.symm

end Calls

section Steps

variable {owner : UserId} {agent : AgentId} {listing : Listing} {hub : DmHub}

theorem kept_search {caller : UserId} {wanted : AgentId} {interrupted : Bool}
    (kept : Kept owner agent hub)
    (settled : Settled owner agent hub (.search caller wanted interrupted)) :
    Kept owner agent (hub.search listing caller wanted interrupted) := by
  cases interrupted with
  | true =>
    refine kept.begins rfl rfl rfl ?_ ?_
    · intro id established
      cases (named_of_established established).2.2
    · intro id other established
      cases (named_of_established established).2.2
  | false =>
    cases searched : hub.store.searchDm listing caller wanted with
    | none =>
      have next : hub.search listing caller wanted false =
          { hub with calls := hub.calls ++ [⟨caller, wanted, .missing⟩] } := by
        simp only [DmHub.search, searched, Bool.false_eq_true, if_false]
      rw [next]
      refine kept.begins rfl rfl rfl ?_ ?_
      · intro id established
        cases (named_of_established established).2.2
      · intro id other established
        cases (named_of_established established).2.2
    | some room =>
      have next : hub.search listing caller wanted false =
          { hub with calls := hub.calls ++ [⟨caller, wanted, .found room.id⟩] } := by
        simp only [DmHub.search, searched, Bool.false_eq_true, if_false]
      rw [next]
      have listed := mem_dms_of_searchDm searched
      refine kept.begins rfl rfl rfl ?_ ?_
      · intro id established
        obtain ⟨rfl, rfl, found⟩ := named_of_established established
        exact ⟨room, listed, Option.some.inj found⟩
      · intro id other established earlier
        obtain ⟨rfl, rfl, found⟩ := named_of_established established
        obtain ⟨call, member, has⟩ := mem_established.mp earlier
        obtain ⟨dm, stored, rfl⟩ := kept.stored call member has
        -- the search comes across the conversation of the earlier call
        have met : hub.store.searchDm listing _ _ = some dm :=
          searchDm_of_foremost stored (settled rfl rfl rfl dm.id earlier)
        rw [searched] at met
        rw [← Option.some.inj met]
        exact (Option.some.inj found).symm

theorem kept_create {index : Nat} {id : ConversationId} {ts : Int} {interrupted : Bool}
    (kept : Kept owner agent hub)
    (settled : Settled owner agent hub (.create index id ts interrupted)) :
    Kept owner agent (hub.create index id ts interrupted) := by
  unfold DmHub.create
  split
  · rename_i call present
    split
    · rename_i missing
      dsimp only
      split
      · rename_i store created
        obtain ⟨grown, joined⟩ := botsConversationsCreate_ok created
        by_cases named : call.owner = owner ∧ call.agent = agent
        · obtain ⟨sameOwner, sameAgent⟩ := named
          refine Kept.creates (settled call present sameOwner sameAgent missing rfl) rfl ?_
          intro _ _
          refine ⟨(dmDraft call.owner call.agent).room id ts, mem_dms.mpr ⟨?_, ?_⟩, rfl⟩
          · rw [← sameOwner]
            exact joined
          · rw [← sameAgent]
            simp [Room.isDm, NewConversation.room, dmDraft]
        · refine kept.standing grown ?_
          intro place stood found
          rw [DmHub.proceed, List.getElem?_set] at found
          split at found
          · rename_i here
            split at found
            · obtain rfl := Option.some.inj found
              refine ⟨call, here ▸ present, ?_, ?_⟩
              · rw [DmCall.established?, DmCall.established?, if_neg named, if_neg named]
              · rw [DmCall.created?, DmCall.created?, if_neg named, if_neg named]
            · cases found
          · exact ⟨stood, found, rfl, rfl⟩
      · exact kept.proceeds present rfl rfl (by rw [missing]; rfl) (by rw [missing]; rfl)
    · exact kept
  · exact kept

theorem kept_fetch {index : Nat} {interrupted : Bool} (kept : Kept owner agent hub) :
    Kept owner agent (hub.fetch index interrupted) := by
  unfold DmHub.fetch
  split
  · rename_i call present
    split
    · rename_i id made
      split
      · rename_i room read
        have stored : hub.store.rooms.lookup id = some room := orFail_eq_ok_iff.mp read
        obtain rfl : room.id = id := by
          have named := Table.key_of_lookup stored
          exact named
        exact kept.proceeds present rfl rfl (by rw [made]; rfl) (by rw [made]; rfl)
      · exact kept.proceeds present rfl rfl (by rw [made]; rfl) (by rw [made]; rfl)
    · exact kept
  · exact kept

theorem kept_settle {result : Result RoomStore} (kept : Kept owner agent hub)
    (grown : ∀ {store}, result = .ok store → hub.store.Grown store) :
    Kept owner agent (hub.settle result) := by
  cases done : result with
  | error error => exact kept.quiet (RoomStore.Grown.refl hub.store) rfl
  | ok store =>
    have grown : hub.store.Grown (hub.settle (.ok store)).store := grown done
    exact kept.quiet grown rfl

theorem kept_step {event : DmEvent} (kept : Kept owner agent hub)
    (settled : Settled owner agent hub event) : Kept owner agent (hub.step listing event) := by
  cases event with
  | search caller wanted interrupted => exact kept_search kept settled
  | create index id ts interrupted => exact kept_create kept settled
  | fetch index interrupted => exact kept_fetch kept
  | converse draft id ts =>
    exact kept_settle kept fun created => (botsConversationsCreate_ok created).1
  | room call => exact kept.quiet (grown_createRoom call) rfl
  | join actor conversation ts => exact kept_settle kept fun joined => grown_join joined
  | profiles agents => exact kept.quiet ⟨List.Subset.refl _, List.Subset.refl _⟩ rfl

/-- In every run whose searches come across what calls have found or made, and whose creations for
an owner and an agent follow none, the two have one conversation. -/
theorem sole_conversation (listing : Listing) (owner : UserId) (agent : AgentId)
    (events : List DmEvent)
    (settled : EachStep (fun hub event => hub.step listing event) .empty (Settled owner agent)
      events)
    (moment : Nat) : OneConversation owner agent (dmHubAt listing events moment) := by
  have start : Kept owner agent .empty := by
    refine ⟨?_, ?_, ?_⟩
    · exact nofun
    · exact nofun
    · intro index place first second present
      cases present
  have kept := settled.invariant (Kept owner agent) start
    (fun _ _ settled kept => kept_step kept settled) moment
  exact kept.one

end Steps

section Races

/-- The newest first, and those of one second as they were. -/
def newestFirst : Listing where
  order rooms := rooms.insertionSort fun earlier later => later.createdAt ≤ earlier.createdAt
  perm rooms := List.perm_insertionSort _ rooms
  newest rooms := by
    let order : Room → Room → Prop := fun earlier later => later.createdAt ≤ earlier.createdAt
    have total : Std.Total order :=
      ⟨fun earlier later => le_total later.createdAt earlier.createdAt⟩
    have transitive : IsTrans Room order := ⟨fun _ _ _ before after => le_trans after before⟩
    exact List.pairwise_insertionSort order rooms

/-- A hub with one agent. -/
def staffed : DmEvent := .profiles helpers

/-- One call after another. -/
def oneByOne : List DmEvent :=
  [staffed, .search 1 2 false, .create 0 3 10 false, .fetch 0 false, .search 1 2 false]

theorem sole_conversation_oneByOne :
    OneConversation 1 2 (dmHubAt newestFirst oneByOne 5) ∧
      (dmHubAt newestFirst oneByOne 5).established 1 2 = [3, 3] := by
  constructor
  · apply sole_conversation
    apply eachStep_of_lt
    have settled : ∀ place : Fin oneByOne.length,
        Settled 1 2 (dmHubAt newestFirst oneByOne place) (oneByOne.get place) := by
      decide +kernel
    intro count inside
    exact settled ⟨count, inside⟩
  · decide +kernel

/-- Two callers, each of which searches before the other one creates. -/
def sideBySide : List DmEvent :=
  [staffed, .search 1 2 false, .search 1 2 false, .create 0 3 10 false, .create 1 4 10 false,
    .fetch 0 false, .fetch 1 false]

/-- Two callers at once get a conversation each. -/
theorem two_conversations : ¬ OneConversation 1 2 (dmHubAt newestFirst sideBySide 7) := by
  intro one
  have calls : (dmHubAt newestFirst sideBySide 7).calls =
      [⟨1, 2, .returned 3⟩, ⟨1, 2, .returned 4⟩] := by
    decide +kernel
  have first : DmCall.mk 1 2 (.returned 3) ∈ (dmHubAt newestFirst sideBySide 7).calls := by
    rw [calls]
    exact List.mem_cons_self
  have second : DmCall.mk 1 2 (.returned 4) ∈ (dmHubAt newestFirst sideBySide 7).calls := by
    rw [calls]
    exact List.mem_cons_of_mem _ List.mem_cons_self
  have same : (3 : ConversationId) = 4 := one.same _ first _ second rfl rfl
  exact absurd same (by decide)

end Races

end OHHive.Bots
