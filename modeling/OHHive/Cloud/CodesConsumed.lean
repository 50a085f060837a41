import OHHive.Cloud.CodeCommits

/-! One-time codes in any interleaving: every key that is handed out is that of the node, and every
code is consumed once, in the runs in which no decision is overtaken. -/

namespace OHHive.Cloud

open Foundation

section Properties

def CodeAnswer.claims (serial : Nat) : CodeAnswer → Bool
  | .claimed read .. => read.serial = serial
  | _ => false

def CodeAnswer.hands (rawKey : Text) : CodeAnswer → Bool
  | .handedOut _ nodeKey .. => nodeKey = rawKey
  | _ => false

/-- A pairing is claimed once, a key handed out once, and a link code redeemed once. -/
structure CodeDb.ConsumedOnce (db : CodeDb) : Prop where
  claimed : ∀ serial, db.answers.countP (·.claims serial) ≤ 1
  handedOut : ∀ rawKey, db.answers.countP (·.hands rawKey) ≤ 1
  redeemed : ∀ code, db.answers.countP (·.redeems code) ≤ 1

/-- A claim has made one node with one key, and a key that is handed out is that of the node that
the pairing records. -/
structure CodeDb.KeysBelong (db : CodeDb) : Prop where
  claimed : ∀ read member nodeId rawKey displayName hint,
    .claimed read member nodeId rawKey displayName hint ∈ db.answers →
    (db.tables.nodes.lookup nodeId).isSome ∧
    db.tables.keys.rows.filter (fun key => key.nodeId = nodeId) =
      [⟨nodeId, keyHash rawKey, none⟩]
  handedOut : ∀ read nodeKey nodeId node, .handedOut read nodeKey nodeId node ∈ db.answers →
    nodeId = read.nodeId ∧ db.tables.KeyOf nodeKey nodeId

/-- The row that a call decided on is there still as it read it. -/
def CodeAnswer.Current (tables : CodeTables) : CodeAnswer → Prop
  | .claimed read .. => read ∈ tables.pairings.rows
  | .handedOut read .. => read ∈ tables.pairings.rows
  | .linked read .. => tables.links.lookup read.code = some read
  | _ => True

/-- No claim, poll with a key or redemption commits when another call has changed or deleted the row
that it had read. -/
def Undisturbed (upper : Text → Text) (system : System CodeDb CodeRow CodeCall)
    (move : Move CodeCall) : Prop :=
  ∀ answer, (system.step (·.program upper) move).committed.answers =
    system.committed.answers ++ [answer] → answer.Current system.committed.tables

/-- Tables whose keys are those of nodes, with at most one pairing for each key. -/
structure CodeTables.WellFormed (tables : CodeTables) : Prop where
  references : ∀ key ∈ tables.keys.rows, (tables.nodes.lookup key.nodeId).isSome
  keyed : tables.Keyed
  serials : ∀ row ∈ tables.pairings.rows, row.serial < tables.serials
  apart : ∀ first ∈ tables.pairings.rows, ∀ second ∈ tables.pairings.rows,
    first.rawKey.isSome → first.rawKey = second.rawKey → first = second

/-- Tables to begin with. -/
structure CodeStart where
  tables : CodeTables
  wellFormed : tables.WellFormed

def CodeStart.db (start : CodeStart) : CodeDb := ⟨start.tables, []⟩

def codesAt (upper : Text → Text) (start : CodeStart) (moves : List (Move CodeCall))
    (moment : Nat) : System CodeDb CodeRow CodeCall :=
  System.systemAt (·.program upper) start.db moves moment

end Properties

section Steps

variable {db after : CodeDb} {answer : CodeAnswer}

/-- Keys are those of nodes. -/
def CodeTables.References (tables : CodeTables) : Prop :=
  ∀ key ∈ tables.keys.rows, (tables.nodes.lookup key.nodeId).isSome

theorem CodeTables.References.step (references : db.tables.References)
    (effect : CodeEffect db.tables after.tables answer) : after.tables.References := by
  intro key member
  rcases effect.lookups with ⟨keys, nodes⟩ | ⟨_, _, nodeId, rawKey, _, _, _, adds⟩
  · rw [nodes]
    exact references key (keys ▸ member)
  · rw [adds.keyRows, List.mem_append, List.mem_singleton] at member
    rcases member with stored | rfl
    · exact effect.nodes_stay (references key stored)
    · exact adds.node

/-- The keys of a node that is there are made. -/
theorem CodeEffect.keysOf
    (effect : CodeEffect db.tables after.tables answer) {nodeId : NodeId}
    (known : (db.tables.nodes.lookup nodeId).isSome) :
    after.tables.keys.rows.filter (fun key => key.nodeId = nodeId) =
      db.tables.keys.rows.filter fun key => key.nodeId = nodeId := by
  rcases effect.lookups with ⟨keys, _⟩ | ⟨_, _, new, _, _, _, _, adds⟩
  · rw [keys]
  · have other : new ≠ nodeId := by
      rintro rfl
      rw [adds.newNode] at known
      cases known
    rw [adds.keyRows, List.filter_append]
    simp [other]

theorem CodeTables.References.keysOf_claimed (references : db.tables.References)
    {nodeId : NodeId} {rawKey : Text} (adds : db.tables.Adds after.tables nodeId rawKey) :
    after.tables.keys.rows.filter (fun key => key.nodeId = nodeId) =
      [⟨nodeId, keyHash rawKey, none⟩] := by
  have none : db.tables.keys.rows.filter (fun key => key.nodeId = nodeId) = [] := by
    apply List.filter_eq_nil_iff.mpr
    intro key member own
    have known := references key member
    rw [of_decide_eq_true own, adds.newNode] at known
    cases known
  rw [adds.keyRows, List.filter_append, none]
  simp

theorem CodeDb.KeysBelong.step (belong : db.KeysBelong) (references : db.tables.References)
    (answers : after.answers = db.answers ++ [answer])
    (effect : CodeEffect db.tables after.tables answer) : after.KeysBelong := by
  constructor
  · intro read member nodeId rawKey displayName hint stored
    rw [answers, List.mem_append, List.mem_singleton] at stored
    rcases stored with before | rfl
    · obtain ⟨known, keys⟩ := belong.claimed _ _ _ _ _ _ before
      exact ⟨effect.nodes_stay known, (effect.keysOf known).trans keys⟩
    · exact ⟨effect.adds.node, references.keysOf_claimed effect.adds⟩
  · intro read nodeKey nodeId node stored
    rw [answers, List.mem_append, List.mem_singleton] at stored
    rcases stored with before | rfl
    · obtain ⟨same, keyed⟩ := belong.handedOut _ _ _ _ before
      exact ⟨same, keyed.stay effect⟩
    · obtain ⟨_, same, keyed⟩ := effect.parked
      exact ⟨same, keyed.stay effect⟩

/-- What holds of codes that are consumed once. -/
structure CodeDb.Fresh (db : CodeDb) : Prop extends db.ConsumedOnce where
  unclaimed : ∀ row ∈ db.tables.pairings.rows, row.claimedBy = none →
    db.answers.countP (·.claims row.serial) = 0
  unborn : ∀ serial, db.tables.serials ≤ serial → db.answers.countP (·.claims serial) = 0
  serials : ∀ row ∈ db.tables.pairings.rows, row.serial < db.tables.serials
  parked : ∀ row ∈ db.tables.pairings.rows, ∀ rawKey, row.rawKey = some rawKey →
    db.answers.countP (·.hands rawKey) = 0
  apart : ∀ first ∈ db.tables.pairings.rows, ∀ second ∈ db.tables.pairings.rows,
    first.rawKey.isSome → first.rawKey = second.rawKey → first = second
  used : ∀ code, 0 < db.answers.countP (·.redeems code) →
    ∃ row, db.tables.links.lookup code = some row ∧ row.usedAt ≠ none

/-- A count over the answers after one more. -/
theorem countP_answered (counts : CodeAnswer → Bool)
    (answers : after.answers = db.answers ++ [answer]) :
    after.answers.countP counts = db.answers.countP counts + if counts answer then 1 else 0 := by
  rw [answers, List.countP_append, List.countP_singleton]

/-- Rows of one serial number, or of one code, are one row. -/
theorem eq_of_pairingClash {tables : CodeTables} {first second : Pairing}
    (firstMember : first ∈ tables.pairings.rows) (secondMember : second ∈ tables.pairings.rows)
    (clash : PairingClash first second) : first = second := by
  apply tables.pairings.eq_of_clash _ firstMember secondMember clash
  rintro earlier later (serial | code | secret)
  · exact Or.inl serial.symm
  · exact Or.inr (Or.inl code.symm)
  · exact Or.inr (Or.inr secret.symm)

/-- A claim that is current is the first one of its pairing. -/
theorem CodeDb.Fresh.claimed_step (fresh : db.Fresh)
    (answers : after.answers = db.answers ++ [answer])
    (effect : CodeEffect db.tables after.tables answer) (current : answer.Current db.tables)
    (serial : Nat) : after.answers.countP (·.claims serial) ≤ 1 := by
  rw [countP_answered _ answers]
  by_cases claims : answer.claims serial
  · cases answer with
    | claimed read member nodeId rawKey displayName hint =>
      obtain rfl : read.serial = serial := of_decide_eq_true claims
      rw [fresh.unclaimed read current effect.unclaimed, if_pos claims]
    | _ => cases claims
  · rw [if_neg claims]
    exact fresh.claimed serial

/-- What is left unclaimed has not been claimed. -/
theorem CodeDb.Fresh.unclaimed_step (fresh : db.Fresh)
    (answers : after.answers = db.answers ++ [answer])
    (effect : CodeEffect db.tables after.tables answer) (current : answer.Current db.tables)
    {row : Pairing} (member : row ∈ after.tables.pairings.rows) (unclaimed : row.claimedBy = none) :
    after.answers.countP (·.claims row.serial) = 0 := by
  rw [countP_answered _ answers]
  rcases effect.pairings member with
    ⟨stored, left⟩ | ⟨_, _, rfl, born, _, _⟩ | ⟨_, _, _, _, _, _, _, _, _, _, _, rfl⟩
  · rw [fresh.unclaimed row stored unclaimed]
    cases answer with
    | claimed read owner nodeId rawKey displayName hint =>
      have other : ¬ (CodeAnswer.claimed read owner nodeId rawKey displayName hint).claims
          row.serial := by
        intro claims
        have same := eq_of_pairingClash current stored (Or.inl (of_decide_eq_true claims))
        exact left (same ▸ rfl)
      rw [if_neg other]
    | _ => rfl
  · rw [born, fresh.unborn _ (le_refl _)]
    rfl
  · cases unclaimed

theorem CodeDb.Fresh.unborn_step (fresh : db.Fresh)
    (answers : after.answers = db.answers ++ [answer])
    (effect : CodeEffect db.tables after.tables answer) (current : answer.Current db.tables)
    {serial : Nat} (unborn : after.tables.serials ≤ serial) :
    after.answers.countP (·.claims serial) = 0 := by
  have later := le_trans effect.serials.1 unborn
  rw [countP_answered _ answers, fresh.unborn serial later]
  cases answer with
  | claimed read owner nodeId rawKey displayName hint =>
    have given := fresh.serials read current
    have other : ¬ (CodeAnswer.claimed read owner nodeId rawKey displayName hint).claims
        serial := by
      intro claims
      exact absurd (of_decide_eq_true claims) (by omega)
    rw [if_neg other]
  | _ => rfl

theorem CodeDb.Fresh.serials_step (fresh : db.Fresh)
    (effect : CodeEffect db.tables after.tables answer) {row : Pairing}
    (member : row ∈ after.tables.pairings.rows) : row.serial < after.tables.serials := by
  have more := effect.serials.1
  rcases effect.pairings member with
    ⟨stored, _⟩ | ⟨code, secret, rfl, born, _, _⟩ | ⟨_, _, _, _, _, _, _, old, stored, _, _, rfl⟩
  · exact lt_of_lt_of_le (fresh.serials row stored) more
  · exact born ▸ effect.serials.2 code secret rfl
  · exact lt_of_lt_of_le (fresh.serials old stored) more

/-- A key that is handed out was parked, and not handed out before. -/
theorem CodeDb.Fresh.handedOut_step (fresh : db.Fresh)
    (answers : after.answers = db.answers ++ [answer])
    (effect : CodeEffect db.tables after.tables answer) (current : answer.Current db.tables)
    (rawKey : Text) : after.answers.countP (·.hands rawKey) ≤ 1 := by
  rw [countP_answered _ answers]
  by_cases hands : answer.hands rawKey
  · cases answer with
    | handedOut read nodeKey nodeId node =>
      obtain rfl : nodeKey = rawKey := of_decide_eq_true hands
      rw [fresh.parked read current nodeKey effect.parked.1, if_pos hands]
    | _ => cases hands
  · rw [if_neg hands]
    exact fresh.handedOut rawKey

/-- A new key is parked in no row, and has not been handed out. -/
theorem CodeDb.KeysBelong.new_key (belong : db.KeysBelong) {nodeId : NodeId} {rawKey : Text}
    (adds : db.tables.Adds after.tables nodeId rawKey) :
    db.answers.countP (·.hands rawKey) = 0 := by
  apply List.countP_eq_zero.mpr
  intro answer stored hands
  cases answer with
  | handedOut read nodeKey nodeId node =>
    obtain rfl : nodeKey = rawKey := of_decide_eq_true hands
    obtain ⟨_, key, known, _⟩ := belong.handedOut _ _ _ _ stored
    rw [adds.newKey] at known
    cases known
  | _ => cases hands

theorem CodeDb.Fresh.parked_step (fresh : db.Fresh) (belong : db.KeysBelong)
    (answers : after.answers = db.answers ++ [answer])
    (effect : CodeEffect db.tables after.tables answer) (current : answer.Current db.tables)
    {row : Pairing} (member : row ∈ after.tables.pairings.rows) {rawKey : Text}
    (parked : row.rawKey = some rawKey) : after.answers.countP (·.hands rawKey) = 0 := by
  rw [countP_answered _ answers]
  rcases effect.pairings member with
    ⟨stored, left⟩ | ⟨_, _, _, _, _, none⟩ | ⟨_, _, _, _, _, _, _, _, _, rfl, _, rfl⟩
  · rw [fresh.parked row stored rawKey parked]
    cases answer with
    | handedOut read nodeKey nodeId node =>
      have other : ¬ (CodeAnswer.handedOut read nodeKey nodeId node).hands rawKey := by
        intro hands
        obtain rfl : nodeKey = rawKey := of_decide_eq_true hands
        have own := effect.parked.1
        have same := fresh.apart read current row stored (own ▸ rfl) (own.trans parked.symm)
        exact left (same ▸ rfl)
      rw [if_neg other]
    | _ => rfl
  · rw [none] at parked
    cases parked
  · obtain rfl := Option.some.inj parked
    rw [belong.new_key effect.adds]
    rfl

theorem CodeDb.Fresh.apart_step (fresh : db.Fresh) (keyed : db.tables.Keyed)
    (effect : CodeEffect db.tables after.tables answer) {first second : Pairing}
    (firstMember : first ∈ after.tables.pairings.rows)
    (secondMember : second ∈ after.tables.pairings.rows) (parked : first.rawKey.isSome)
    (same : first.rawKey = second.rawKey) : first = second := by
  have new {row : Pairing} {rawKey : Text} {nodeId : NodeId}
      (stored : row ∈ db.tables.pairings.rows) (had : row.rawKey = some rawKey)
      (adds : db.tables.Adds after.tables nodeId rawKey) : False := by
    obtain ⟨key, known, _⟩ := keyed row stored rawKey had
    rw [adds.newKey] at known
    cases known
  rcases effect.pairings firstMember with
    ⟨stored, _⟩ | ⟨_, _, _, _, _, none⟩ | ⟨_, _, _, raw, _, _, _, old, _, rfl, coded, rfl⟩
  · rcases effect.pairings secondMember with
      ⟨stored', _⟩ | ⟨_, _, _, _, _, none⟩ | ⟨_, _, _, raw, _, _, _, _, _, rfl, _, rfl⟩
    · exact fresh.apart first stored second stored' parked same
    · rw [same, none] at parked
      cases parked
    · exact (new stored same effect.adds).elim
  · rw [none] at parked
    cases parked
  · rcases effect.pairings secondMember with
      ⟨stored', _⟩ | ⟨_, _, _, _, _, none⟩ | ⟨_, _, _, _, _, _, _, _, _, claimed, coded', rfl⟩
    · exact (new stored' same.symm effect.adds).elim
    · rw [none] at same
      cases same
    · cases claimed
      exact eq_of_pairingClash firstMember secondMember (Or.inr (Or.inl (coded.trans coded'.symm)))

theorem CodeDb.Fresh.redeemed_step (fresh : db.Fresh)
    (answers : after.answers = db.answers ++ [answer])
    (effect : CodeEffect db.tables after.tables answer) (current : answer.Current db.tables)
    (code : Text) : after.answers.countP (·.redeems code) ≤ 1 := by
  rw [countP_answered _ answers]
  by_cases redeems : answer.redeems code
  · cases answer with
    | linked read channel externalChatId displayName =>
      obtain rfl : read.code = code := of_decide_eq_true redeems
      have first : db.answers.countP (·.redeems read.code) = 0 := by
        by_contra some
        obtain ⟨row, stored, used⟩ := fresh.used read.code (Nat.pos_of_ne_zero some)
        obtain rfl := Option.some.inj (current.symm.trans stored)
        exact used effect.unused
      rw [first, if_pos redeems]
    | _ => cases redeems
  · rw [if_neg redeems]
    exact fresh.redeemed code

theorem CodeDb.Fresh.used_step (fresh : db.Fresh)
    (answers : after.answers = db.answers ++ [answer])
    (effect : CodeEffect db.tables after.tables answer) (current : answer.Current db.tables)
    {code : Text} (redeemed : 0 < after.answers.countP (·.redeems code)) :
    ∃ row, after.tables.links.lookup code = some row ∧ row.usedAt ≠ none := by
  rw [countP_answered _ answers] at redeemed
  by_cases redeems : answer.redeems code
  · cases answer with
    | linked read channel externalChatId displayName =>
      obtain rfl : read.code = code := of_decide_eq_true redeems
      obtain ⟨row, stored, used⟩ := effect.links current
      rw [if_pos redeems] at used
      exact ⟨row, stored, used⟩
    | _ => cases redeems
  · rw [if_neg redeems] at redeemed
    obtain ⟨row, stored, used⟩ := fresh.used code redeemed
    obtain ⟨row', stored', same⟩ := effect.links stored
    rw [if_neg redeems] at same
    exact ⟨row', stored', same ▸ used⟩

/-- A call that is current keeps what is fresh. -/
theorem CodeDb.Fresh.step (fresh : db.Fresh) (belong : db.KeysBelong) (keyed : db.tables.Keyed)
    (answers : after.answers = db.answers ++ [answer])
    (effect : CodeEffect db.tables after.tables answer) (current : answer.Current db.tables) :
    after.Fresh where
  claimed := fresh.claimed_step answers effect current
  handedOut := fresh.handedOut_step answers effect current
  redeemed := fresh.redeemed_step answers effect current
  unclaimed _ member unclaimed := fresh.unclaimed_step answers effect current member unclaimed
  unborn _ unborn := fresh.unborn_step answers effect current unborn
  serials _ member := fresh.serials_step effect member
  parked _ member _ parked := fresh.parked_step belong answers effect current member parked
  apart _ member _ member' parked same := fresh.apart_step keyed effect member member' parked same
  used _ redeemed := fresh.used_step answers effect current redeemed

end Steps

section Runs

variable (upper : Text → Text) (start : CodeStart) (moves : List (Move CodeCall))

theorem permits_codes {system : System CodeDb CodeRow CodeCall} {move : Move CodeCall} :
    system.Permits codes move :=
  ⟨fun _ _ _ => trivial, fun _ _ => trivial, fun _ _ _ _ _ => trivial⟩

theorem keyed_codesAt (moment : Nat) :
    (codesAt upper start moves moment).committed.tables.Keyed :=
  (System.valid_systemAt start.wellFormed.keyed (fun call store _ _ => safe_codes upper call store)
    (fun _ _ _ => permits_codes) moment).invariant

/-- From one moment to the next a call commits its effect, or nothing changes. -/
theorem effect_codesAt (moment : Nat) :
    (codesAt upper start moves (moment + 1)).committed =
        (codesAt upper start moves moment).committed ∨
      ∃ move answer, moves[moment]? = some move ∧
        (codesAt upper start moves (moment + 1)).committed =
          ((codesAt upper start moves moment).step (·.program upper) move).committed ∧
        (codesAt upper start moves (moment + 1)).committed.answers =
          (codesAt upper start moves moment).committed.answers ++ [answer] ∧
        CodeEffect (codesAt upper start moves moment).committed.tables
          (codesAt upper start moves (moment + 1)).committed.tables answer := by
  rcases @System.ensures_systemAt _ _ _ codes (·.program upper) _ start.db start.wellFormed.keyed
      (fun call store _ _ => safe_codes upper call store) moves (fun _ _ _ => permits_codes)
      moment with ⟨same, _⟩ | ⟨move, call, present, _, answer, answers, effect⟩
  · exact Or.inl same
  · refine Or.inr ⟨move, answer, present, ?_, answers, effect⟩
    exact congrArg System.committed <|
      stateAt_succ (System.step fun call : CodeCall => call.program upper) ⟨start.db, .empty⟩ present

/-- Keys belong to their nodes in every run. -/
theorem belong_codesAt (moment : Nat) :
    (codesAt upper start moves moment).committed.tables.References ∧
      (codesAt upper start moves moment).committed.KeysBelong := by
  induction moment with
  | zero =>
    refine ⟨start.wellFormed.references, ?_⟩
    exact ⟨fun _ _ _ _ _ _ stored => (nomatch stored), fun _ _ _ _ stored => (nomatch stored)⟩
  | succ moment ih =>
    rcases effect_codesAt upper start moves moment with same | ⟨_, _, _, _, answers, effect⟩
    · exact same ▸ ih
    · exact ⟨ih.1.step effect, ih.2.step ih.1 answers effect⟩

/-- In every run the keys that are handed out are those of the nodes. Where no decision is
overtaken, every code is consumed once. -/
theorem codes_consumed_once (moment : Nat) :
    (codesAt upper start moves moment).committed.KeysBelong ∧
    (EachStep (System.step (·.program upper)) ⟨start.db, .empty⟩ (Undisturbed upper) moves →
      (codesAt upper start moves moment).committed.ConsumedOnce) := by
  refine ⟨(belong_codesAt upper start moves moment).2, fun undisturbed => ?_⟩
  have fresh : (codesAt upper start moves moment).committed.Fresh := by
    induction moment with
    | zero =>
      exact {
        claimed := fun _ => Nat.zero_le 1
        handedOut := fun _ => Nat.zero_le 1
        redeemed := fun _ => Nat.zero_le 1
        unclaimed := fun _ _ _ => rfl
        unborn := fun _ _ => rfl
        serials := start.wellFormed.serials
        parked := fun _ _ _ _ => rfl
        apart := start.wellFormed.apart
        used := fun _ redeemed => absurd redeemed (Nat.lt_irrefl 0) }
    | succ moment ih =>
      rcases effect_codesAt upper start moves moment with
        same | ⟨move, answer, present, stepped, answers, effect⟩
      · exact same ▸ ih
      · have current := undisturbed moment move present answer (stepped ▸ answers)
        exact ih.step (belong_codesAt upper start moves moment).2
          (keyed_codesAt upper start moves moment) answers effect current
  exact fresh.toConsumedOnce

/-- One pairing code, of a node that polls for its key. -/
def onePairing : CodeStart where
  tables := {
    serials := 1
    pairings := ⟨[⟨0, "HK7-3PQ".toList, keyHash [], 1000, none, none, none, "laptop"⟩],
      List.pairwise_singleton _ _⟩
    nodes := .empty
    keys := .empty
    links := .empty
    subscriptions := []
    profileName := fun _ => none }
  wellFormed := by
    refine ⟨nofun, ?_, ?_, ?_⟩
    · intro row member rawKey parked
      obtain rfl := List.mem_singleton.mp member
      cases parked
    · intro row member
      obtain rfl := List.mem_singleton.mp member
      exact Nat.zero_lt_one
    · intro first member second member' _ _
      rw [List.mem_singleton.mp member, List.mem_singleton.mp member']

/-- Two members claim the code at once: both read it before either writes. -/
def claimedTwice : List (Move CodeCall) :=
  [.start 0 (.pairClaim (some 1) "HK7-3PQ".toList "desk" false "sandboxed_tools" 21 ['a'] 0),
    .start 1 (.pairClaim (some 2) "HK7-3PQ".toList "desk" false "sandboxed_tools" 22 ['b'] 0),
    .advance 0, .advance 1] ++ List.replicate 8 (.advance 0) ++ List.replicate 8 (.advance 1)

theorem claimedTwice_not_once :
    ¬ ∀ upper start moves moment, (codesAt upper start moves moment).committed.ConsumedOnce := by
  intro once
  have claimed := (once id onePairing claimedTwice 20).claimed 0
  exact absurd claimed (by decide +kernel)

end Runs

end OHHive.Cloud
