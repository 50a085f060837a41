import OHHive.Bots.Rooms

/-! The creation of a room happens once for a request: a repetition is answered from the receipt
whatever became of the room, and what a creation writes it writes as a whole. -/

namespace OHHive.Bots

open AgentTools (mem_sorted sortedIds)
open Coder (arrayOf_inj optionalText_inj uuidText uuidText_injective)
open Foundation

section Rosters

variable {ids others : List Uuid}

/-- Neighbours that differ in an ordered list rise. -/
theorem rising_of_ordered (ordered : ids.Pairwise fun first second => first.value ≤ second.value)
    (apart : ids.IsChain (· ≠ ·)) :
    ids.Pairwise fun first second => first.value < second.value := by
  induction ids with
  | nil => exact List.Pairwise.nil
  | cons first rest ih =>
    obtain ⟨below, restOrdered⟩ := List.pairwise_cons.mp ordered
    refine List.pairwise_cons.mpr ⟨?_, ih restOrdered apart.tail⟩
    intro other member
    cases rest with
    | nil => cases member
    | cons next rest =>
      have differs : first ≠ next := (List.isChain_cons_cons.mp apart).1
      have less : first.value < next.value := by
        refine lt_of_le_of_ne (below next List.mem_cons_self) ?_
        intro same
        cases first
        cases next
        exact differs (congrArg Uuid.mk same)
      rcases List.mem_cons.mp member with rfl | later
      · exact less
      · exact lt_of_lt_of_le less ((List.pairwise_cons.mp restOrdered).1 other later)

theorem rising_sortedIds (ids : List Uuid) :
    (sortedIds ids).Pairwise fun first second => first.value < second.value := by
  let order : Uuid → Uuid → Prop := fun first second => first.value ≤ second.value
  have total : Std.Total order := ⟨fun first second => le_total first.value second.value⟩
  have transitive : IsTrans Uuid order := ⟨fun _ _ _ before after => le_trans before after⟩
  have ordered : (ids.insertionSort order).Pairwise order := List.pairwise_insertionSort order ids
  have apart := ordered.sublist (List.destutter_sublist (· ≠ ·) _)
  exact rising_of_ordered apart (List.isChain_destutter _ _)

theorem nodup_sortedIds (ids : List Uuid) : (sortedIds ids).Nodup :=
  (rising_sortedIds ids).imp fun less same => absurd (same ▸ less) (lt_irrefl _)

theorem mem_sortedIds {id : Uuid} : id ∈ sortedIds ids ↔ id ∈ ids := mem_sorted

/-- Sorting without repetition forgets exactly the order and the repetitions. -/
theorem sortedIds_eq_iff : sortedIds ids = sortedIds others ↔ ∀ id, id ∈ ids ↔ id ∈ others := by
  constructor
  · intro same id
    rw [← mem_sortedIds, same, mem_sortedIds]
  · intro same
    have alike : (sortedIds ids).Perm (sortedIds others) := by
      refine (List.perm_ext_iff_of_nodup (nodup_sortedIds ids) (nodup_sortedIds others)).mpr ?_
      intro id
      rw [mem_sortedIds, mem_sortedIds]
      exact same id
    refine List.Perm.eq_of_pairwise ?_ (rising_sortedIds ids) (rising_sortedIds others) alike
    intro first second _ _ less more
    exact absurd more (lt_asymm less)

end Rosters

section Requests

variable {request other : RoomRequest}

theorem mem_roster {agent : AgentId} : agent ∈ request.roster ↔ agent ∈ request.agents :=
  mem_sortedIds

/-- Two requests ask for the same room: the titles are compared without the blanks around them, the
agents without their order and repetitions. -/
structure RoomRequest.SameDetails (request other : RoomRequest) : Prop where
  title : request.title = other.title
  kind : request.draft.kind = other.draft.kind
  projectId : request.draft.projectId = other.draft.projectId
  coordinator : request.draft.coordinator = other.draft.coordinator
  agents : ∀ agent, agent ∈ request.agents ↔ agent ∈ other.agents

theorem fingerprint_eq_iff :
    request.fingerprint = other.fingerprint ↔ request.SameDetails other := by
  have ids : Function.Injective (List.map fun agent => Json.text (uuidText agent)) := by
    refine List.map_injective_iff.mpr ?_
    intro first second same
    exact uuidText_injective (Json.text.inj same)
  have maps : Function.Injective (Option.map uuidText) := Option.map_injective uuidText_injective
  rw [RoomRequest.fingerprint, RoomRequest.fingerprint, Json.print_injective.eq_iff,
    RoomRequest.payload, RoomRequest.payload, arrayOf_inj]
  simp only [List.cons.injEq, and_true, optionalText_inj, Json.text.injEq, arrayOf_inj,
    ConversationKind.toStr_injective.eq_iff, maps.eq_iff, ids.eq_iff, RoomRequest.normalized,
    Option.some.injEq]
  constructor
  · rintro ⟨title, kind, projectId, coordinator, roster⟩
    exact ⟨title, kind, projectId, coordinator, sortedIds_eq_iff.mp roster⟩
  · intro same
    exact ⟨same.title, same.kind, same.projectId, same.coordinator,
      sortedIds_eq_iff.mpr same.agents⟩

end Requests

section Statements

variable {store next : RoomStore}

theorem insertRoom_ok {room : Room} (inserted : store.insertRoom room = .ok next) :
    store.rooms.lookup room.id = none ∧ next.rooms.rows = store.rooms.rows ++ [room] ∧
      next = { store with rooms := next.rooms } := by
  obtain ⟨_, _, inserted⟩ := bind_eq_ok_iff.mp inserted
  obtain ⟨rooms, added, inserted⟩ := bind_eq_ok_iff.mp inserted
  obtain rfl := pure_eq_ok_iff.mp inserted
  obtain ⟨fits, rows⟩ := Table.insert?_eq_some_iff.mp (orFail_eq_ok_iff.mp added)
  refine ⟨?_, rows, rfl⟩
  rw [Table.lookup_eq_none_iff]
  exact fits

theorem insertMember_ok {member : RoomMember} (inserted : store.insertMember member = .ok next) :
    next.members.rows = store.members.rows ++ [member] ∧
      next = { store with members := next.members } := by
  obtain ⟨_, _, inserted⟩ := bind_eq_ok_iff.mp inserted
  obtain ⟨members, added, inserted⟩ := bind_eq_ok_iff.mp inserted
  obtain rfl := pure_eq_ok_iff.mp inserted
  exact ⟨Table.rows_of_insert? (orFail_eq_ok_iff.mp added), rfl⟩

theorem insertMembers_ok {members : List RoomMember}
    (inserted : members.foldlM RoomStore.insertMember store = .ok next) :
    next.members.rows = store.members.rows ++ members ∧
      next = { store with members := next.members } := by
  induction members generalizing store with
  | nil =>
    obtain rfl := pure_eq_ok_iff.mp inserted
    exact ⟨(List.append_nil _).symm, rfl⟩
  | cons member members ih =>
    rw [List.foldlM_cons] at inserted
    obtain ⟨middle, first, later⟩ := bind_eq_ok_iff.mp inserted
    obtain ⟨firstRows, firstSame⟩ := insertMember_ok first
    obtain ⟨laterRows, laterSame⟩ := ih later
    constructor
    · rw [laterRows, firstRows, List.append_assoc]
      rfl
    · rw [laterSame, firstSame]

theorem insertReceipt_ok {receipt : RoomReceipt}
    (inserted : store.insertReceipt receipt = .ok next) :
    store.receipts.insert? receipt = some next.receipts ∧
      next = { store with receipts := next.receipts } := by
  obtain ⟨_, _, inserted⟩ := bind_eq_ok_iff.mp inserted
  obtain ⟨receipts, added, inserted⟩ := bind_eq_ok_iff.mp inserted
  obtain rfl := pure_eq_ok_iff.mp inserted
  exact ⟨orFail_eq_ok_iff.mp added, rfl⟩

end Statements

section Making

variable {store next : RoomStore} {request : RoomRequest} {room : Room} {id : ConversationId}
  {ts : Int}

/-- A room made for a request: what it looks like, who may be in it, and the rows written. -/
structure RoomMade (store : RoomStore) (request : RoomRequest) (ts : Int) (room : Room)
    (next : RoomStore) : Prop where
  shape : room = request.normalized.room room.id ts
  fresh : store.rooms.lookup room.id = none
  admitted : ∀ agent ∈ request.agents, request.Allowed store agent
  agents : next.agents = store.agents
  rooms : next.rooms.rows = store.rooms.rows ++ [room]
  members : next.members.rows =
    store.members.rows ++ room.ownerMember ts :: request.roster.map (room.agentMember ts)
  receipts : store.receipts.insert? (request.receipt room) = some next.receipts

theorem makeRoom_ok (made : store.makeRoom request id ts = .ok (next, room)) :
    RoomMade store request ts room next := by
  obtain ⟨_, allowed, made⟩ := bind_eq_ok_iff.mp made
  obtain ⟨first, roomAdded, made⟩ := bind_eq_ok_iff.mp made
  obtain ⟨second, ownerAdded, made⟩ := bind_eq_ok_iff.mp made
  obtain ⟨third, agentsAdded, made⟩ := bind_eq_ok_iff.mp made
  obtain ⟨_, _, made⟩ := bind_eq_ok_iff.mp made
  obtain ⟨fourth, receiptAdded, made⟩ := bind_eq_ok_iff.mp made
  cases pure_eq_ok_iff.mp made
  obtain ⟨fresh, rooms, sameFirst⟩ := insertRoom_ok roomAdded
  obtain ⟨owner, sameSecond⟩ := insertMember_ok ownerAdded
  obtain ⟨agents, sameThird⟩ := insertMembers_ok agentsAdded
  obtain ⟨receipts, sameFourth⟩ := insertReceipt_ok receiptAdded
  have allowed := require_eq_ok_iff.mp allowed
  refine ⟨rfl, fresh, fun agent member => allowed agent (mem_roster.mpr member), ?_, ?_, ?_, ?_⟩
  · rw [sameFourth, sameThird, sameSecond, sameFirst]
  · rw [sameFourth, sameThird, sameSecond]
    exact rooms
  · rw [sameFourth]
    change third.members.rows = _
    rw [agents, owner, sameFirst, List.append_assoc]
    rfl
  · rw [sameThird, sameSecond, sameFirst] at receipts
    exact receipts

/-- A call that succeeds found the room in its receipt, or made it. -/
theorem botsRoomsCreate_ok (created : store.botsRoomsCreate request id ts = .ok (next, room)) :
    request.WellFormed ∧ request.Coordinated ∧
      ((next = store ∧ ∃ receipt, store.receipts.lookup request.key = some receipt ∧
          receipt.payload = request.fingerprint ∧ receipt.response = room) ∨
        RoomMade store request ts room next) := by
  obtain ⟨_, formed, created⟩ := bind_eq_ok_iff.mp created
  obtain ⟨_, coordinated, created⟩ := bind_eq_ok_iff.mp created
  refine ⟨require_eq_ok_iff.mp formed, require_eq_ok_iff.mp coordinated, ?_⟩
  cases found : store.receipts.lookup request.key with
  | some receipt =>
    rw [found] at created
    obtain ⟨_, same, created⟩ := bind_eq_ok_iff.mp created
    cases pure_eq_ok_iff.mp created
    exact Or.inl ⟨rfl, receipt, rfl, require_eq_ok_iff.mp same, rfl⟩
  | none =>
    rw [found] at created
    exact Or.inr (makeRoom_ok created)

/-- A well-formed repetition is answered from the receipt. -/
theorem botsRoomsCreate_of_receipt {receipt : RoomReceipt} (formed : request.WellFormed)
    (coordinated : request.Coordinated)
    (found : store.receipts.lookup request.key = some receipt)
    (same : receipt.payload = request.fingerprint) :
    store.botsRoomsCreate request id ts = .ok (store, receipt.response) := by
  refine bind_eq_ok_iff.mpr ⟨(), require_eq_ok_iff.mpr formed, ?_⟩
  refine bind_eq_ok_iff.mpr ⟨(), require_eq_ok_iff.mpr coordinated, ?_⟩
  rw [found]
  exact bind_eq_ok_iff.mpr ⟨(), require_eq_ok_iff.mpr same, rfl⟩

end Making

end OHHive.Bots
