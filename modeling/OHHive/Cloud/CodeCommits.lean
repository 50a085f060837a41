import OHHive.Cloud.OneTimeCodes

/-! What a call on one-time codes commits, whatever other calls commit between its statements. -/

namespace OHHive.Cloud

open Foundation

section Effects

/-- A raw key is that of a node. -/
def CodeTables.KeyOf (tables : CodeTables) (rawKey : Text) (nodeId? : Option NodeId) : Prop :=
  ∃ key, tables.keys.lookup (keyHash rawKey) = some key ∧ nodeId? = some key.nodeId

/-- The raw key that is parked in a pairing is a key of its node. -/
def CodeTables.Keyed (tables : CodeTables) : Prop :=
  ∀ row ∈ tables.pairings.rows, ∀ rawKey, row.rawKey = some rawKey →
    tables.KeyOf rawKey row.nodeId

/-- What a commit does, and what it answers. -/
inductive CodeEffect (before after : CodeTables) : CodeAnswer → Prop
  | began {code secret : Text} {hint : String} {now : Time}
      (same : after = before.beginPairing code (keyHash secret) hint now) :
      CodeEffect before after (.began code secret)
  | claimed {read : Pairing} {member : MemberId} {nodeId : NodeId} {rawKey : Text}
      {node : PairedNode} {now : Time} {displayName hint : String} (own : node.id = nodeId)
      (unclaimed : read.claimedBy = none) (newNode : before.nodes.lookup nodeId = none)
      (newKey : before.keys.lookup (keyHash rawKey) = none)
      (same : after =
        (before.addNode node rawKey).claimPairing read.code member nodeId rawKey now) :
      CodeEffect before after (.claimed read member nodeId rawKey displayName hint)
  | handedOut {read : Pairing} {rawKey : Text} {node : Option PairedNode}
      (parked : read.rawKey = some rawKey) (keyed : before.KeyOf rawKey read.nodeId)
      (same : after = before.dropPairing read.code) :
      CodeEffect before after (.handedOut read rawKey read.nodeId node)
  | dropped {code : Text} (same : after = before.dropPairing code) :
      CodeEffect before after .expired
  | expired (same : after = before) : CodeEffect before after .expired
  | pending (same : after = before) : CodeEffect before after .pending
  | swept {codes : List Text} {now : Time} {count : Nat}
      (same : after = before.sweepPairings codes now) : CodeEffect before after (.swept count)
  | linkCode {code : Text} {member : MemberId} {now : Time}
      (same : after = before.addLinkCode code member now) :
      CodeEffect before after (.linkCode code)
  | linked {read : LinkCode} {now : Time} {subscription : ChatSubscription}
      {channel externalChatId displayName : String} (unused : read.usedAt = none)
      (same : after = (before.useLinkCode read.code now).subscribe subscription) :
      CodeEffect before after (.linked read channel externalChatId displayName)

variable {before after : CodeTables} {answer : CodeAnswer}

/-- A new node, with a new key. -/
structure CodeTables.Adds (before after : CodeTables) (nodeId : NodeId) (rawKey : Text) : Prop where
  newNode : before.nodes.lookup nodeId = none
  newKey : before.keys.lookup (keyHash rawKey) = none
  keyRows : after.keys.rows = before.keys.rows ++ [⟨nodeId, keyHash rawKey, none⟩]
  keys : ∀ hash, after.keys.lookup hash =
    if keyHash rawKey = hash then some ⟨nodeId, keyHash rawKey, none⟩
    else before.keys.lookup hash
  node : (after.nodes.lookup nodeId).isSome
  nodes : ∀ id, id ≠ nodeId → after.nodes.lookup id = before.nodes.lookup id

theorem CodeTables.adds_addNode {tables : CodeTables} {node : PairedNode} {rawKey : Text}
    (newNode : tables.nodes.lookup node.id = none)
    (newKey : tables.keys.lookup (keyHash rawKey) = none) :
    tables.Adds (tables.addNode node rawKey) node.id rawKey := by
  have keyFits : tables.keys.Fits ⟨node.id, keyHash rawKey, none⟩ :=
    (Table.lookup_eq_none_iff _ _).mp newKey
  have nodeFits : tables.nodes.Fits node := (Table.lookup_eq_none_iff _ _).mp newNode
  obtain ⟨keys, addedKey, keyRows⟩ := Table.exists_insert? keyFits
  obtain ⟨nodes, addedNode, _⟩ := Table.exists_insert? nodeFits
  have added : tables.addNode node rawKey = { tables with nodes, keys } := by
    simp only [CodeTables.addNode, addedKey, addedNode, Option.getD_some]
  rw [added]
  exact {
    newNode := newNode
    newKey := newKey
    keyRows := keyRows
    keys := Table.lookup_insert? addedKey
    node := by rw [Table.lookup_insert? addedNode, if_pos rfl]; rfl
    nodes := fun id other => by rw [Table.lookup_insert? addedNode, if_neg (Ne.symm other)] }

theorem CodeEffect.adds {read : Pairing} {member : MemberId} {nodeId : NodeId} {rawKey : Text}
    {displayName hint : String}
    (effect : CodeEffect before after (.claimed read member nodeId rawKey displayName hint)) :
    before.Adds after nodeId rawKey := by
  cases effect with
  | claimed own _ newNode newKey same =>
    subst own
    rw [same]
    have added := CodeTables.adds_addNode newNode newKey
    exact ⟨newNode, newKey, added.keyRows, added.keys, added.node, added.nodes⟩

/-- Only a claim adds a key, and a node. -/
theorem CodeEffect.lookups (effect : CodeEffect before after answer) :
    (after.keys = before.keys ∧ after.nodes = before.nodes) ∨
    ∃ read member nodeId rawKey displayName hint,
      answer = .claimed read member nodeId rawKey displayName hint ∧
      before.Adds after nodeId rawKey := by
  cases effect with
  | @claimed read member nodeId rawKey _ _ displayName hint own unclaimed newNode newKey same =>
    have effect : CodeEffect before after
        (.claimed read member nodeId rawKey displayName hint) :=
      .claimed own unclaimed newNode newKey same
    exact Or.inr ⟨read, member, nodeId, rawKey, displayName, hint, rfl, effect.adds⟩
  | began same => exact Or.inl ⟨same ▸ rfl, same ▸ rfl⟩
  | handedOut _ _ same => exact Or.inl ⟨same ▸ rfl, same ▸ rfl⟩
  | dropped same => exact Or.inl ⟨same ▸ rfl, same ▸ rfl⟩
  | expired same => exact Or.inl ⟨same ▸ rfl, same ▸ rfl⟩
  | pending same => exact Or.inl ⟨same ▸ rfl, same ▸ rfl⟩
  | swept same => exact Or.inl ⟨same ▸ rfl, same ▸ rfl⟩
  | linkCode same => exact Or.inl ⟨same ▸ rfl, same ▸ rfl⟩
  | linked _ same => exact Or.inl ⟨same ▸ rfl, same ▸ rfl⟩

/-- Keys stay. -/
theorem CodeEffect.keys_stay (effect : CodeEffect before after answer) {hash : Text} {key : NodeKey}
    (stored : before.keys.lookup hash = some key) : after.keys.lookup hash = some key := by
  rcases effect.lookups with ⟨keys, _⟩ | ⟨_, _, nodeId, rawKey, _, _, _, adds⟩
  · rw [keys, stored]
  · have other : keyHash rawKey ≠ hash := by
      rintro rfl
      rw [adds.newKey] at stored
      cases stored
    rw [adds.keys, if_neg other, stored]

/-- Nodes stay. -/
theorem CodeEffect.nodes_stay (effect : CodeEffect before after answer) {id : NodeId}
    (stored : (before.nodes.lookup id).isSome) : (after.nodes.lookup id).isSome := by
  rcases effect.lookups with ⟨_, nodes⟩ | ⟨_, _, nodeId, _, _, _, _, adds⟩
  · rw [nodes]
    exact stored
  · have other : id ≠ nodeId := by
      rintro rfl
      rw [adds.newNode] at stored
      cases stored
    rw [adds.nodes id other]
    exact stored

theorem CodeTables.KeyOf.stay (keyed : before.KeyOf rawKey nodeId?)
    (effect : CodeEffect before after answer) : after.KeyOf rawKey nodeId? := by
  obtain ⟨key, stored, same⟩ := keyed
  exact ⟨key, effect.keys_stay stored, same⟩

/-- The pairing code that a call claims, or hands out. -/
def CodeAnswer.takes : CodeAnswer → Option Text
  | .claimed read .. => some read.code
  | .handedOut read .. => some read.code
  | _ => none

/-- A row of a pairing afterwards is one from before that was not taken, or new, or claimed. -/
theorem CodeEffect.pairings (effect : CodeEffect before after answer) {row : Pairing}
    (member : row ∈ after.pairings.rows) :
    (row ∈ before.pairings.rows ∧ answer.takes ≠ some row.code) ∨
    (∃ code secret, answer = .began code secret ∧ row.serial = before.serials ∧
      row.claimedBy = none ∧ row.rawKey = none) ∨
    ∃ read owner nodeId rawKey displayName hint now, ∃ old ∈ before.pairings.rows,
      answer = .claimed read owner nodeId rawKey displayName hint ∧ old.code = read.code ∧
      row = old.claim owner nodeId rawKey now := by
  cases effect with
  | @began code secret hint now same =>
    rw [same] at member
    simp only [CodeTables.beginPairing] at member
    cases inserted : before.pairings.insert?
        ⟨before.serials, code, keyHash secret, now + eightMinutes, none, none, none, hint⟩ with
    | none =>
      rw [inserted] at member
      exact Or.inl ⟨member, nofun⟩
    | some pairings =>
      rw [inserted, Option.getD_some, Table.rows_of_insert? inserted, List.mem_append,
        List.mem_singleton] at member
      rcases member with stored | rfl
      · exact Or.inl ⟨stored, nofun⟩
      · exact Or.inr (Or.inl ⟨code, secret, rfl, rfl, rfl, rfl⟩)
  | @claimed read owner nodeId rawKey node now displayName hint _ _ _ _ same =>
    rw [same] at member
    obtain ⟨old, stored, rfl⟩ := List.mem_map.mp member
    by_cases own : old.code = read.code
    · right; right
      exact ⟨read, owner, nodeId, rawKey, displayName, hint, now, old, stored, rfl, own, if_pos own⟩
    · rw [if_neg own]
      exact Or.inl ⟨stored, fun same => own (Option.some.inj same).symm⟩
  | handedOut _ _ same =>
    rw [same] at member
    obtain ⟨stored, other⟩ := List.mem_filter.mp member
    exact Or.inl ⟨stored, fun own => of_decide_eq_true other (Option.some.inj own).symm⟩
  | dropped same =>
    rw [same] at member
    exact Or.inl ⟨(List.mem_filter.mp member).1, nofun⟩
  | swept same =>
    rw [same] at member
    exact Or.inl ⟨(List.mem_filter.mp member).1, nofun⟩
  | expired same => exact Or.inl ⟨same ▸ member, nofun⟩
  | pending same => exact Or.inl ⟨same ▸ member, nofun⟩
  | linkCode same =>
    rw [same] at member
    exact Or.inl ⟨member, nofun⟩
  | linked _ same =>
    rw [same] at member
    exact Or.inl ⟨member, nofun⟩

theorem CodeEffect.keyed (effect : CodeEffect before after answer) (keyed : before.Keyed) :
    after.Keyed := by
  intro row member rawKey parked
  rcases effect.pairings member with
    ⟨stored, _⟩ | ⟨_, _, _, _, _, none⟩ | ⟨read, owner, nodeId, raw, _, _, _, old, _, rfl, _, rfl⟩
  · exact (keyed row stored rawKey parked).stay effect
  · rw [none] at parked
    cases parked
  · obtain rfl := Option.some.inj parked
    exact ⟨⟨nodeId, keyHash raw, none⟩, (effect.adds.keys _).trans (if_pos rfl), rfl⟩

/-- Serial numbers go up, and a new pairing takes one. -/
theorem CodeEffect.serials (effect : CodeEffect before after answer) :
    before.serials ≤ after.serials ∧
      ∀ code secret, answer = .began code secret → before.serials < after.serials := by
  cases effect with
  | began same => exact ⟨same ▸ Nat.le_succ _, fun _ _ _ => same ▸ Nat.lt_succ_self _⟩
  | claimed _ _ _ _ same => exact ⟨same ▸ le_refl _, nofun⟩
  | handedOut _ _ same => exact ⟨same ▸ le_refl _, nofun⟩
  | linked _ same => exact ⟨same ▸ le_refl _, nofun⟩
  | _ same => exact ⟨same ▸ le_refl _, nofun⟩

theorem CodeEffect.unclaimed {read : Pairing} {member : MemberId} {nodeId : NodeId} {rawKey : Text}
    {displayName hint : String}
    (effect : CodeEffect before after (.claimed read member nodeId rawKey displayName hint)) :
    read.claimedBy = none := by
  cases effect with
  | claimed _ unclaimed _ _ _ => exact unclaimed

theorem CodeEffect.parked {read : Pairing} {rawKey : Text} {nodeId : Option NodeId}
    {node : Option PairedNode}
    (effect : CodeEffect before after (.handedOut read rawKey nodeId node)) :
    read.rawKey = some rawKey ∧ nodeId = read.nodeId ∧ before.KeyOf rawKey nodeId := by
  cases effect with
  | handedOut parked keyed _ => exact ⟨parked, rfl, keyed⟩

theorem CodeEffect.unused {read : LinkCode} {channel externalChatId displayName : String}
    (effect : CodeEffect before after (.linked read channel externalChatId displayName)) :
    read.usedAt = none := by
  cases effect with
  | linked unused _ => exact unused

/-- The link code that a call redeems. -/
def CodeAnswer.redeems (code : Text) : CodeAnswer → Bool
  | .linked read .. => read.code = code
  | _ => false

/-- A link code stays; it is used if the call redeems it, and as before if it does not. -/
theorem CodeEffect.links (effect : CodeEffect before after answer) {code : Text} {row : LinkCode}
    (stored : before.links.lookup code = some row) :
    ∃ row', after.links.lookup code = some row' ∧
      if answer.redeems code then row'.usedAt ≠ none else row' = row := by
  cases effect with
  | linkCode same =>
    rw [same]
    refine ⟨row, ?_, rfl⟩
    simp only [CodeTables.addLinkCode]
    cases inserted : before.links.insert? _ with
    | none => exact stored
    | some links => exact Table.lookup_insert?_of_some inserted stored
  | @linked read now _ _ _ _ unused same =>
    rw [same]
    simp only [CodeTables.subscribe, CodeTables.useLinkCode, Table.lookup_updateWhere, stored,
      Option.map_some, CodeAnswer.redeems]
    have keyed : row.code = code := Table.key_of_lookup stored
    by_cases own : read.code = code
    · exact ⟨_, rfl, by simp [keyed, own]⟩
    · refine ⟨_, rfl, ?_⟩
      simp [keyed, own, Ne.symm own]
  | claimed _ _ _ _ same =>
    refine ⟨row, ?_, rfl⟩
    rw [same]
    exact stored
  | handedOut _ _ same =>
    refine ⟨row, ?_, rfl⟩
    rw [same]
    exact stored
  | _ same =>
    refine ⟨row, ?_, rfl⟩
    rw [same]
    exact stored

end Effects

section Safety

/-- What others leave alone: keys, and the rows that a call has locked. -/
structure CodeRely (locks : List CodeRow) (before after : CodeDb) : Prop where
  keys : ∀ hash key, before.tables.keys.lookup hash = some key →
    after.tables.keys.lookup hash = some key
  lockedKey : ∀ hash, .key hash ∈ locks →
    after.tables.keys.lookup hash = before.tables.keys.lookup hash
  lockedNode : ∀ id, .node id ∈ locks →
    after.tables.nodes.lookup id = before.tables.nodes.lookup id

def codes : Discipline CodeDb CodeRow CodeCall where
  invariant db := db.tables.Keyed
  makes _ := True
  timely _ _ := True
  compatible _ _ _ _ _ := True
  ensures _ before after := ∃ answer, after.answers = before.answers ++ [answer] ∧
    CodeEffect before.tables after.tables answer
  rely _ locks before after := CodeRely locks before after
  counts _ := True
  refl _ _ _ := ⟨fun _ _ stored => stored, fun _ _ => rfl, fun _ _ => rfl⟩
  trans _ _ _ _ _ early late := ⟨
    fun hash key stored => late.keys hash key (early.keys hash key stored),
    fun hash held => (late.lockedKey hash held).trans (early.lockedKey hash held),
    fun id held => (late.lockedNode id held).trans (early.lockedNode id held)⟩
  weaken _ _ _ _ _ kept relied := ⟨relied.keys,
    fun hash held => relied.lockedKey hash (kept _ held trivial),
    fun id held => relied.lockedNode id (kept _ held trivial)⟩

variable {call : CodeCall} {locks : List CodeRow} {seen store : CodeDb} {change : CodeDb → CodeDb}

/-- A call may commit an effect; for a claim it has locked the new node and its key. -/
theorem commits_of_effect {answer : CodeAnswer}
    (answers : ∀ store, (change store).answers = store.answers ++ [answer])
    (effect : ∀ store, codes.Later call ⟨locks, change, seen⟩ store →
      CodeEffect store.tables (change store).tables answer)
    (held : ∀ read member nodeId rawKey displayName hint,
      answer = .claimed read member nodeId rawKey displayName hint →
      .node nodeId ∈ locks ∧ .key (keyHash rawKey) ∈ locks) :
    codes.Commits call ⟨locks, change, seen⟩ := by
  intro store later _
  have done := effect store later
  refine ⟨done.keyed later.1, ⟨answer, answers store, done⟩, ?_⟩
  intro other others apart _
  constructor
  · exact fun hash key stored => done.keys_stay stored
  · intro hash theirs
    rcases done.lookups with ⟨keys, _⟩ | ⟨_, _, nodeId, rawKey, _, _, same, adds⟩
    · rw [keys]
    · have free : keyHash rawKey ≠ hash := by
        rintro rfl
        exact apart (held _ _ _ _ _ _ same).2 theirs
      rw [adds.keys, if_neg free]
  · intro id theirs
    rcases done.lookups with ⟨_, nodes⟩ | ⟨_, _, nodeId, _, _, _, same, adds⟩
    · rw [nodes]
    · refine adds.nodes id ?_
      rintro rfl
      exact apart (held _ _ _ _ _ _ same).1 theirs

theorem wp_beginLoop {hint : String} {secret : Text} {now : Time} {drawn : List Text} :
    codes.wp call (fun _ => codes.Commits call) (beginLoop hint secret now drawn)
      ⟨locks, id, seen⟩ := by
  induction drawn generalizing locks seen with
  | nil => trivial
  | cons code more ih =>
    refine Discipline.wp_bind.mpr fun _ _ => ?_
    refine Discipline.wp_bind.mpr fun _ _ => ?_
    refine Discipline.wp_ite.mpr ⟨fun _ => ?_, fun _ => ?_⟩
    · exact ih
    · refine commits_of_effect (fun _ => rfl) (fun _ _ => .began rfl) ?_
      exact fun _ _ _ _ _ _ => nofun

theorem safe_pairBegin (hint : String) (secret : Text) (drawn : List Text) (now : Time) :
    codes.Safe call (pairBegin hint secret drawn now) ⟨[], id, store⟩ :=
  Discipline.wp_bind.mpr fun _ _ => wp_beginLoop

theorem safe_pairClaim (upper : Text → Text) (member : Option MemberId) (code : Text)
    (displayName : String) (allowInternet : Bool) (toolsLevel : String) (nodeId : NodeId)
    (rawKey : Text) (now : Time) :
    codes.Safe call (pairClaim upper member code displayName allowInternet toolsLevel nodeId rawKey
      now) ⟨[], id, store⟩ := by
  refine Discipline.wp_bind.mpr (Discipline.wp_orRaise.mpr fun uid _ => ?_)
  refine Discipline.wp_bind.mpr fun _ _ => ?_
  refine Discipline.wp_bind.mpr (Discipline.wp_orRaise.mpr fun r _ => ?_)
  refine Discipline.wp_bind.mpr (Discipline.wp_check.mpr fun _ => ?_)
  refine Discipline.wp_bind.mpr (Discipline.wp_check.mpr fun unclaimed => ?_)
  refine Discipline.wp_bind.mpr fun _ _ => ?_
  refine Discipline.wp_bind.mpr fun _ _ => ?_
  refine Discipline.wp_bind.mpr fun asked _ => ?_
  refine Discipline.wp_bind.mpr (Discipline.wp_check.mpr fun unique => ?_)
  refine Discipline.wp_bind.mpr fun locked late => ?_
  obtain ⟨newNode, newKey⟩ : (asked.tables.nodes.lookup nodeId).isNone ∧
      (asked.tables.keys.lookup (keyHash rawKey)).isNone := by
    simpa using unique
  refine commits_of_effect (fun _ => rfl) ?_ ?_
  · intro store later
    refine .claimed rfl unclaimed ?_ ?_ rfl
    · rw [later.2.lockedNode nodeId (by simp), late.2.lockedNode nodeId (by simp)]
      exact Option.isNone_iff_eq_none.mp newNode
    · rw [later.2.lockedKey (keyHash rawKey) (by simp), late.2.lockedKey (keyHash rawKey) (by simp)]
      exact Option.isNone_iff_eq_none.mp newKey
  · intro _ _ _ _ _ _ same
    cases same
    simp

theorem safe_pairPoll (secret : Text) (now : Time) :
    codes.Safe call (pairPoll secret now) ⟨[], id, store⟩ := by
  have quiet {locks : List CodeRow} {seen : CodeDb} {change : CodeDb → CodeDb}
      {answer : CodeAnswer} (answers : ∀ store, (change store).answers = store.answers ++ [answer])
      (effect : ∀ store, CodeEffect store.tables (change store).tables answer)
      (other : ∀ read member nodeId rawKey displayName hint,
        answer ≠ .claimed read member nodeId rawKey displayName hint) :
      codes.Commits call ⟨locks, change, seen⟩ :=
    commits_of_effect answers (fun store _ => effect store)
      fun _ _ _ _ _ _ same => absurd same (other _ _ _ _ _ _)
  refine Discipline.wp_bind.mpr (Discipline.wp_ask.mpr fun first early => ?_)
  cases found : first.tables.pairings.rows.find? fun row => row.secretHash = keyHash secret with
  | none =>
    simp only [id_eq, found]
    exact quiet (fun _ => rfl) (fun _ => .expired rfl) fun _ _ _ _ _ _ same => by cases same
  | some r =>
    simp only [id_eq, found]
    cases parked : r.rawKey with
    | none =>
      refine Discipline.wp_ite.mpr ⟨fun _ => ?_, fun _ => ?_⟩
      · refine Discipline.wp_bind.mpr fun _ _ => ?_
        exact quiet (fun _ => rfl) (fun _ => .dropped rfl) fun _ _ _ _ _ _ same => by cases same
      · exact quiet (fun _ => rfl) (fun _ => .pending rfl) fun _ _ _ _ _ _ same => by cases same
    | some nodeKey =>
      obtain ⟨key, stored, same⟩ :=
        early.1 r (List.mem_of_find?_eq_some found) nodeKey parked
      refine Discipline.wp_bind.mpr fun asked middle => ?_
      refine Discipline.wp_bind.mpr fun locked late => ?_
      refine commits_of_effect (fun _ => rfl) ?_ fun _ _ _ _ _ _ same => by cases same
      intro store later
      have kept := later.2.keys _ key (late.2.keys _ key (middle.2.keys _ key stored))
      exact .handedOut parked ⟨key, kept, same⟩ rfl

theorem wp_forEach_acquire {α : Type} {row : α → CodeRow} {items : List α}
    {post : Unit → Position CodeDb CodeRow → Prop}
    (holds : ∀ locks seen, post () ⟨locks, id, seen⟩) :
    codes.wp call post (.forEach items fun item => .acquire (row item)) ⟨locks, id, seen⟩ := by
  induction items generalizing locks seen with
  | nil => exact holds locks seen
  | cons item items ih => exact Discipline.wp_bind.mpr fun _ _ => ih

theorem safe_pairSweep (now : Time) :
    codes.Safe call (pairSweep now) ⟨[], id, store⟩ := by
  refine Discipline.wp_bind.mpr fun first _ => ?_
  refine Discipline.wp_bind.mpr (wp_forEach_acquire fun locks seen => ?_)
  refine Discipline.wp_bind.mpr fun _ _ => ?_
  exact commits_of_effect (fun _ => rfl) (fun _ _ => .swept rfl) fun _ _ _ _ _ _ => nofun

theorem safe_memberCreateLinkCode (member : Option MemberId) (code : Text) (now : Time) :
    codes.Safe call (memberCreateLinkCode member code now) ⟨[], id, store⟩ := by
  refine Discipline.wp_bind.mpr (Discipline.wp_orRaise.mpr fun uid _ => ?_)
  refine Discipline.wp_bind.mpr fun _ _ => ?_
  refine Discipline.wp_bind.mpr fun _ _ => ?_
  refine Discipline.wp_bind.mpr (Discipline.wp_check.mpr fun _ => ?_)
  exact commits_of_effect (fun _ => rfl) (fun _ _ => .linkCode rfl) fun _ _ _ _ _ _ => nofun

theorem safe_chatRedeemLink (upper : Text → Text) (code : Text) (channel externalChatId : String)
    (now : Time) :
    codes.Safe call (chatRedeemLink upper code channel externalChatId now) ⟨[], id, store⟩ := by
  refine Discipline.wp_bind.mpr fun first _ => ?_
  refine Discipline.wp_bind.mpr (Discipline.wp_orRaise.mpr fun read found => ?_)
  obtain ⟨stored, valid⟩ := Option.filter_eq_some_iff.mp found
  have keyed : read.code = upper code := Table.key_of_lookup stored
  have unused : read.usedAt = none := by
    simp only [Bool.and_eq_true, Option.isNone_iff_eq_none] at valid
    exact valid.1
  refine Discipline.wp_bind.mpr fun _ _ => ?_
  refine Discipline.wp_bind.mpr (Discipline.wp_perform.mpr ?_)
  refine Discipline.wp_bind.mpr (Discipline.wp_check.mpr fun _ => ?_)
  refine Discipline.wp_bind.mpr (Discipline.wp_perform.mpr ?_)
  refine Discipline.wp_bind.mpr fun _ _ => ?_
  rw [← keyed]
  exact commits_of_effect (fun _ => rfl) (fun _ _ => .linked unused rfl) fun _ _ _ _ _ _ => nofun

/-- Every call is safe on its own. -/
theorem safe_codes (upper : Text → Text) (call : CodeCall) (store : CodeDb) :
    codes.Safe call (call.program upper) ⟨[], id, store⟩ := by
  cases call with
  | pairBegin hint secret drawn now => exact safe_pairBegin _ _ _ _
  | pairClaim member code displayName allowInternet toolsLevel nodeId rawKey now =>
    exact safe_pairClaim _ _ _ _ _ _ _ _ _
  | pairPoll secret now => exact safe_pairPoll _ _
  | pairSweep now => exact safe_pairSweep _
  | memberCreateLinkCode member code now => exact safe_memberCreateLinkCode _ _ _
  | chatRedeemLink code channel externalChatId now => exact safe_chatRedeemLink _ _ _ _ _

end Safety

end OHHive.Cloud
