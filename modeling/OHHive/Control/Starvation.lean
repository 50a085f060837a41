import Mathlib.Data.List.Nodup
import OHHive.Control.ClaimLoop

/-! The claim loop is one pass over the cards, and serves its node exactly where nothing is in the
way of the cards that fit. -/

namespace OHHive.Control

open Foundation

section Walks

variable {answers : Answers} {node : NodeView} {card : Value} {cards rest : List Value}
  {attempt place : Nat} {ids : List Uuid} {id : Uuid}

/-- The loop as one pass over the cards. -/
def walk (answers : Answers) (node : NodeView) : Nat → List Value → ClaimRun
  | _, [] => ⟨[], .ok nothingToDo⟩
  | attempt, card :: cards =>
    match job card with
    | none => ⟨[], .ok nothingToDo⟩
    | some read =>
      if fits node read then
        match answers attempt read.id with
        | .error status => ⟨[read.id], .error status⟩
        | .ok result =>
          if hasStatus "nothing_to_do" result then
            (walk answers node (attempt + 1) cards).after read.id
          else ⟨[read.id], .ok result⟩
      else walk answers node attempt cards

theorem turn_succ :
    turn answers attempt (id :: ids) (place + 1) = turn answers (attempt + 1) ids place := by
  simp only [turn, List.getElem?_cons_succ, Nat.add_assoc, Nat.add_comm 1 place]

theorem verdict_refused_iff {result : Value} :
    verdict (.ok result) = .refused ↔ hasStatus "nothing_to_do" result = true := by
  unfold verdict
  by_cases refused : hasStatus "nothing_to_do" result = true
  · simp [refused]
  · by_cases leased : hasStatus "leased" result = true
    · simp [refused, leased]
    · simp [refused, leased]

/-- The database leases a candidate without failing one before it, and every card before it
decodes. -/
def Reaches (answers : Answers) (node : NodeView) (attempt : Nat) (cards : List Value)
    (place : Nat) : Prop :=
  turn answers attempt (candidatesFrom node cards) place = some .leased ∧
  (∀ earlier < place,
    turn answers attempt (candidatesFrom node cards) earlier = some .refused) ∧
  ReadableBefore node cards place

/-- It leases the first candidate, or refuses it and leases one of the others. -/
theorem reaches_from_fit {read : Job} (readable : job card = some read)
    (fit : fits node read = true) :
    (∃ place, Reaches answers node attempt (card :: cards) place) ↔
      verdict (answers attempt read.id) = .leased ∨
      verdict (answers attempt read.id) = .refused ∧
        ∃ place, Reaches answers node (attempt + 1) cards place := by
  unfold Reaches
  rw [candidatesFrom_fit readable fit]
  constructor
  · rintro ⟨place, leased, refused, before⟩
    cases place with
    | zero => exact Or.inl (Option.some.inj leased)
    | succ place =>
      refine Or.inr ⟨Option.some.inj (refused 0 (Nat.succ_pos _)), place, ?_, ?_, ?_⟩
      · rw [← turn_succ]
        exact leased
      · intro earlier less
        rw [← turn_succ]
        exact refused (earlier + 1) (Nat.succ_lt_succ less)
      · exact (readableBefore_fit_succ readable fit).mp before
  · rintro (leased | ⟨first, place, leased, refused, before⟩)
    · exact ⟨0, congrArg some leased, nofun, readableBefore_fit readable fit⟩
    · refine ⟨place + 1, ?_, ?_, (readableBefore_fit_succ readable fit).mpr before⟩
      · rw [turn_succ]
        exact leased
      · intro earlier less
        cases earlier with
        | zero => exact congrArg some first
        | succ earlier =>
          rw [turn_succ]
          exact refused earlier (Nat.lt_of_succ_lt_succ less)

/-- A pass leases a card exactly where the database leases a candidate, refuses all candidates
before it, and no card before it fails to decode. -/
theorem walk_leases_iff :
    verdict (walk answers node attempt cards).result = .leased ↔
      ∃ place, Reaches answers node attempt cards place := by
  induction cards generalizing attempt with
  | nil =>
    refine iff_of_false nofun ?_
    rintro ⟨_, leased, _⟩
    cases leased
  | cons card cards ih =>
    unfold walk
    cases readable : job card with
    | none =>
      refine iff_of_false nofun ?_
      rintro ⟨_, _, _, before⟩
      exact not_readableBefore_unreadable readable before
    | some read =>
      by_cases fit : fits node read = true
      · simp only [if_pos fit]
        rw [reaches_from_fit readable fit, ← ih]
        cases answered : answers attempt read.id with
        | error status => simp [verdict]
        | ok result =>
          by_cases refused : hasStatus "nothing_to_do" result = true
          · simp [verdict, refused, ClaimRun.after]
          · simp [verdict_refused_iff, refused]
      · simp only [if_neg fit]
        rw [Bool.not_eq_true] at fit
        simp only [Reaches, candidatesFrom_misfit readable fit, readableBefore_misfit readable fit]
        exact ih

/-- The candidates are tried in order. -/
theorem tried_prefix : (walk answers node attempt cards).tried <+: candidatesFrom node cards := by
  induction cards generalizing attempt with
  | nil => exact List.prefix_rfl
  | cons card cards ih =>
    unfold walk
    cases readable : job card with
    | none => exact List.nil_prefix
    | some read =>
      by_cases fit : fits node read = true
      · simp only [if_pos fit]
        rw [candidatesFrom_fit readable fit]
        have alone : [read.id] <+: read.id :: candidatesFrom node cards :=
          List.prefix_append [read.id] _
        cases answers attempt read.id with
        | error status => exact alone
        | ok result =>
          by_cases refused : hasStatus "nothing_to_do" result = true
          · simp only [if_pos refused]
            exact (List.prefix_cons_inj read.id).mpr ih
          · simp only [if_neg refused]
            exact alone
      · simp only [if_neg fit]
        rw [Bool.not_eq_true] at fit
        rw [candidatesFrom_misfit readable fit]
        exact ih

end Walks

section Identities

variable {answers : Answers} {node : NodeView} {card other : Value} {cards rest passed : List Value}
  {id : Uuid} {snapshot : Value} {attempt fuel : Nat}

theorem eq_of_writesUuid {value : Value} (writes : writesUuid value id = true) :
    value = .text (Coder.uuidText id) := by
  have held := of_decide_eq_true writes
  cases value with
  | text text => exact congrArg Value.text (Option.some.inj held)
  | _ => cases held

theorem Written.tail (written : Written (card :: cards)) : Written cards where
  canonical other member := written.canonical other (List.mem_cons_of_mem card member)
  distinct := (List.nodup_cons.mp written.distinct).2

theorem job_id {read : Job} (readable : job card = some read) :
    uuid (card.get "id") = some read.id := by
  unfold job at readable
  simp only [Option.bind_eq_bind, Option.bind_eq_some_iff] at readable
  obtain ⟨_, _, _, _, id, known, _, _, same⟩ := readable
  rw [← Option.some.inj same]
  exact known

theorem mem_candidatesFrom (member : id ∈ candidatesFrom node cards) :
    ∃ card ∈ cards, uuid (card.get "id") = some id := by
  obtain ⟨card, stored, fit⟩ := List.mem_filterMap.mp member
  obtain ⟨read, readable, chosen⟩ := Option.bind_eq_some_iff.mp fit
  by_cases fitting : fits node read = true
  · rw [if_pos fitting] at chosen
    exact ⟨card, stored, Option.some.inj chosen ▸ job_id readable⟩
  · rw [if_neg fitting] at chosen
    cases chosen

/-- Only one card writes an identity. -/
theorem Written.writes_of_mem (written : Written (card :: cards)) (member : other ∈ cards)
    (writes : writesUuid (card.get "id") id = true) : writesUuid (other.get "id") id = false := by
  apply Bool.eq_false_of_not_eq_true
  intro again
  have same : other.get "id" = card.get "id" :=
    (eq_of_writesUuid again).trans (eq_of_writesUuid writes).symm
  refine (List.nodup_cons.mp written.distinct).1 ?_
  exact List.mem_map.mpr ⟨other, member, same⟩

theorem Written.nodup_candidatesFrom (written : Written cards) :
    (candidatesFrom node cards).Nodup := by
  induction cards with
  | nil => exact List.nodup_nil
  | cons card cards ih =>
    cases readable : job card with
    | none =>
      rw [candidatesFrom_unreadable readable]
      exact ih written.tail
    | some read =>
      by_cases fit : fits node read = true
      · rw [candidatesFrom_fit readable fit]
        refine List.nodup_cons.mpr ⟨?_, ih written.tail⟩
        intro again
        obtain ⟨other, member, known⟩ := mem_candidatesFrom again
        have writes := written.canonical card List.mem_cons_self _ (job_id readable)
        have apart := written.writes_of_mem member writes
        rw [written.canonical other (List.mem_cons_of_mem card member) _ known] at apart
        cases apart
      · rw [Bool.not_eq_true] at fit
        rw [candidatesFrom_misfit readable fit]
        exact ih written.tail

theorem Written.of_perm (written : Written cards) (same : cards.Perm rest) : Written rest where
  canonical card member := written.canonical card (same.mem_iff.mpr member)
  distinct := (same.map _).nodup_iff.mp written.distinct

/-- The card that was tried is left out, and no other. -/
theorem Written.filter_tried (written : Written (passed ++ card :: cards))
    (known : uuid (card.get "id") = some id) :
    (passed ++ card :: cards).filter (fun other => !writesUuid (other.get "id") id) =
      passed ++ cards := by
  have front : Written (card :: (passed ++ cards)) := written.of_perm List.perm_middle
  have writes := front.canonical card List.mem_cons_self id known
  have others : ∀ other ∈ passed ++ cards, (!writesUuid (other.get "id") id) = true := by
    intro other member
    rw [front.writes_of_mem member writes]
    rfl
  rw [List.filter_append, List.filter_cons_of_neg (by rw [writes]; nofun), ← List.filter_append]
  exact List.filter_eq_self.mpr others

end Identities

section Loops

variable {answers : Answers} {node : NodeView} {cards passed : List Value} {id : Uuid}
  {snapshot : Value} {attempt fuel : Nat}

/-- Cards that the node does not fit. -/
def Misfits (node : NodeView) (cards : List Value) : Prop :=
  ∀ card ∈ cards, ∃ read, job card = some read ∧ fits node read = false

theorem chooseFrom_append (misfits : Misfits node passed) :
    chooseFrom node (passed ++ cards) = chooseFrom node cards := by
  induction passed with
  | nil => rfl
  | cons card passed ih =>
    obtain ⟨read, readable, misfit⟩ := misfits card List.mem_cons_self
    have behind := ih fun other member => misfits other (List.mem_cons_of_mem card member)
    rw [List.cons_append, chooseFrom, readable]
    simp only [misfit]
    exact behind

/-- What a snapshot holds: a node, and cards. -/
structure Holds (snapshot : Value) (node : NodeView) (cards : List Value) : Prop where
  node : nodeView snapshot = some node
  cards : (snapshot.get "cards").asArray = some cards

theorem Holds.choose_eq (holds : Holds snapshot node cards) :
    choose snapshot = chooseFrom node cards := by
  simp [choose, holds.node, holds.cards]

theorem Holds.candidates_eq (holds : Holds snapshot node cards) :
    candidates snapshot = candidatesFrom node cards := by
  simp [candidates, holds.node, holds.cards]

theorem Holds.retain (holds : Holds snapshot node cards) :
    Holds (retain id snapshot) node (cards.filter fun card => !writesUuid (card.get "id") id) where
  node := by
    have kept {key : String} (apart : key.toList ≠ "cards".toList) :
        (Control.retain id snapshot).get key = snapshot.get key := Value.get_mapMember_of_ne apart
    rw [← holds.node]
    unfold nodeView
    rw [kept (by decide), kept (by decide)]
  cards := by
    refine (Value.asArray_get_mapMember _).trans ?_
    rw [holds.cards]
    rfl

/-- With fuel for every card the loop is one pass. -/
theorem claimLoop_eq_walk (holds : Holds snapshot node (passed ++ cards))
    (written : Written (passed ++ cards)) (misfits : Misfits node passed)
    (enough : cards.length < fuel) :
    claimLoop answers fuel attempt snapshot = some (walk answers node attempt cards) := by
  induction cards generalizing passed snapshot attempt fuel with
  | nil =>
    cases fuel with
    | zero => cases enough
    | succ fuel =>
      rw [claimLoop, holds.choose_eq, chooseFrom_append misfits]
      rfl
  | cons card cards ih =>
    cases fuel with
    | zero => cases enough
    | succ fuel =>
      unfold walk
      cases readable : job card with
      | none =>
        have chosen : choose snapshot = none := by
          rw [holds.choose_eq, chooseFrom_append misfits, chooseFrom, readable]
        simp only [claimLoop, chosen]
      | some read =>
        by_cases fit : fits node read = true
        · have chosen : choose snapshot = some read.id := by
            rw [holds.choose_eq, chooseFrom_append misfits, chooseFrom, readable]
            exact if_pos fit
          simp only [claimLoop, chosen, if_pos fit]
          cases answers attempt read.id with
          | error status => rfl
          | ok result =>
            by_cases refused : hasStatus "nothing_to_do" result = true
            · simp only [if_pos refused]
              have left := written.filter_tried (job_id readable)
              have rest : Written (passed ++ cards) := (written.of_perm List.perm_middle).tail
              rw [ih (left ▸ holds.retain) rest misfits (Nat.lt_of_succ_lt_succ enough)]
              rfl
            · simp only [if_neg refused]
        · rw [Bool.not_eq_true] at fit
          have more : Misfits node (passed ++ [card]) := by
            intro other member
            rcases List.mem_append.mp member with before | last
            · exact misfits other before
            · exact ⟨read, (List.mem_singleton.mp last) ▸ readable, fit⟩
          have split : passed ++ card :: cards = passed ++ [card] ++ cards := by
            rw [List.append_assoc, List.singleton_append]
          simp only [fit, Bool.false_eq_true, if_false]
          exact ih (split ▸ holds) (split ▸ written) more (Nat.lt_of_succ_lt enough)

end Loops

section Starvation

variable {answers : Answers} {node : NodeView} {cards : List Value} {place : Nat}

/-- A card is leased wherever the database would lease one, exactly where it fails no candidate
before the first of these, and every card before it decodes. -/
theorem walk_leases_would_lease_iff :
    ((∃ place, WouldLease answers 0 (candidatesFrom node cards) place) →
        verdict (walk answers node 0 cards).result = .leased) ↔
      ∀ place, WouldLease answers 0 (candidatesFrom node cards) place →
        (∀ earlier < place, turn answers 0 (candidatesFrom node cards) earlier ≠ some .failed) ∧
        ReadableBefore node cards place := by
  rw [walk_leases_iff]
  constructor
  · intro leases place would
    obtain ⟨reached, leased, refused, readable⟩ := leases ⟨place, would⟩
    have same : reached = place := by
      rcases Nat.lt_trichotomy reached place with less | same | more
      · rcases would.2 reached less with other | other <;> rw [other] at leased <;> cases leased
      · exact same
      · have other := refused place more
        rw [would.1] at other
        cases other
    subst same
    refine ⟨fun earlier less failed => ?_, readable⟩
    rw [refused earlier less] at failed
    cases failed
  · rintro clear ⟨place, would⟩
    obtain ⟨unfailed, readable⟩ := clear place would
    exact ⟨place, would.1, fun earlier less =>
      (would.2 earlier less).resolve_right (unfailed earlier less), readable⟩

/-- The cards that do not decode come after the first candidate, and the database fails no
candidate before one that it would lease, nor does a card before that one fail to decode. -/
structure Unobstructed (answers : Answers) (node : NodeView) (cards : List Value) : Prop where
  first : candidatesFrom node cards ≠ [] → ReadableBefore node cards 0
  claims : ∀ place, WouldLease answers 0 (candidatesFrom node cards) place →
    (∀ earlier < place, turn answers 0 (candidatesFrom node cards) earlier ≠ some .failed) ∧
    ReadableBefore node cards place

theorem Holds.ends {snapshot : Value} (holds : Holds snapshot node cards) (answers : Answers)
    (written : Written cards) : Ends answers snapshot (walk answers node 0 cards) := by
  intro fuel enough
  rw [holds.cards] at enough
  exact @claimLoop_eq_walk answers node cards [] snapshot 0 fuel holds written nofun enough

theorem Ends.unique {snapshot : Value} {run other : ClaimRun} (ends : Ends answers snapshot run)
    (again : Ends answers snapshot other) : other = run :=
  Option.some.inj ((again _ (Nat.lt_succ_self _)).symm.trans (ends _ (Nat.lt_succ_self _)))

/-- Without a node, or without cards, there is nothing to claim. -/
theorem dispatches_of_not_holds {snapshot : Value} (answers : Answers)
    (none : ¬ ∃ node cards, Holds snapshot node cards) : Dispatches answers snapshot := by
  have unheld : choose snapshot = Option.none ∧ candidates snapshot = [] := by
    unfold choose candidates
    cases node : nodeView snapshot with
    | none => exact ⟨rfl, rfl⟩
    | some node =>
      cases cards : (snapshot.get "cards").asArray with
      | none => exact ⟨rfl, rfl⟩
      | some cards => exact absurd ⟨_, _, node, cards⟩ none
  refine ⟨by rw [unheld.1, unheld.2]; rfl, ⟨[], .ok nothingToDo⟩, ?_, List.nodup_nil, ?_⟩
  · intro fuel enough
    cases fuel with
    | zero => cases enough
    | succ fuel => simp only [claimLoop, unheld.1]
  · rw [unheld.2]
    rintro ⟨place, leased, _⟩
    cases leased

/-- The claim loop serves the node exactly where nothing is in the way of its candidates. -/
theorem dispatches_iff (answers : Answers) (snapshot : Snapshot) :
    Dispatches answers snapshot.value ↔
      ∀ node cards, Holds snapshot.value node cards → Unobstructed answers node cards := by
  constructor
  · intro dispatches node cards holds
    have ends := holds.ends answers (snapshot.written cards holds.cards)
    obtain ⟨run, ended, _, leases⟩ := dispatches.claims
    have first := dispatches.first
    rw [holds.choose_eq, holds.candidates_eq] at first
    rw [ends.unique ended, holds.candidates_eq] at leases
    exact ⟨chooseFrom_eq_iff.mp first, walk_leases_would_lease_iff.mp leases⟩
  · intro clear
    by_cases held : ∃ node cards, Holds snapshot.value node cards
    · obtain ⟨node, cards, holds⟩ := held
      have written := snapshot.written cards holds.cards
      obtain ⟨first, claims⟩ := clear node cards holds
      refine ⟨?_, walk answers node 0 cards, holds.ends answers written, ?_, ?_⟩
      · rw [holds.choose_eq, holds.candidates_eq]
        exact chooseFrom_eq_iff.mpr first
      · exact tried_prefix.sublist.nodup written.nodup_candidatesFrom
      · rw [holds.candidates_eq]
        exact walk_leases_would_lease_iff.mpr claims
    · exact dispatches_of_not_holds answers held

/-- The database where nothing but the trigger keeps a node from a card. -/
def triggered (node : Uuid) (cards : List Value) : Answers := fun _ id =>
  match cards.find? fun card => writesUuid (card.get "id") id with
  | some card => (enforceLeaseTargetNode card node).map fun _ =>
      .object [("status".toList, .text "leased".toList)]
  | none => .ok nothingToDo

/-- A desktop that is checked in and idle. -/
def desktop : Value :=
  .object [
    ("id".toList, .text (Coder.uuidText ⟨1⟩)), ("region".toList, .text "eu".toList),
    ("presence".toList, .text "checked_in".toList),
    ("capabilities".toList, .object [
      ("hardware".toList, .object [
        ("cpu_model".toList, .text "M4".toList), ("cpu_cores".toList, .posInt 10),
        ("ram_bytes".toList, .posInt 24000000000), ("gpu_vendor".toList, .text "apple".toList),
        ("disk_free_bytes".toList, .posInt 100000000000)]),
      ("modalities".toList, .array [.text "text".toList]), ("models".toList, .array []),
      ("allow_internet".toList, .bool false),
      ("tools_level".toList, .text "sandboxed_tools".toList)])]

/-- A text card, with its requirements. -/
def textCard (id : Nat) (required : List (Text × Value)) : Value :=
  .object [
    ("id".toList, .text (Coder.uuidText ⟨id⟩)), ("project_id".toList, .text (Coder.uuidText ⟨9⟩)),
    ("modality".toList, .text "text".toList), ("requires_internet".toList, .bool false),
    ("required_capabilities".toList, .object required)]

/-- A card for another node, before one for any node. -/
def twoCards : List Value :=
  [textCard 2 [("target_node_id".toList, .text (Coder.uuidText ⟨7⟩))], textCard 3 []]

def twoCardSnapshot : Snapshot where
  value := .object [("node".toList, desktop), ("active_leases".toList, .posInt 0),
    ("cards".toList, .array twoCards)]
  written := by
    intro cards held
    obtain rfl := Option.some.inj held
    have first : uuid (.text (Coder.uuidText ⟨2⟩)) = some ⟨2⟩ := by decide +kernel
    have second : uuid (.text (Coder.uuidText ⟨3⟩)) = some ⟨3⟩ := by decide +kernel
    constructor
    · intro card member id known
      rcases List.mem_cons.mp member with rfl | member
      · obtain rfl := Option.some.inj (first.symm.trans known)
        decide +kernel
      · obtain rfl := List.mem_singleton.mp member
        obtain rfl := Option.some.inj (second.symm.trans known)
        decide +kernel
    · refine List.nodup_cons.mpr ⟨fun again => ?_, List.nodup_singleton _⟩
      have same := congrArg Value.asText (List.mem_singleton.mp again)
      exact absurd same (by decide +kernel)

theorem twoCards_starved :
    ¬ ∀ answers (snapshot : Snapshot), Dispatches answers snapshot.value := by
  intro dispatches
  obtain ⟨run, ends, _, leases⟩ := (dispatches (triggered ⟨1⟩ twoCards) twoCardSnapshot).claims
  have would : WouldLease (triggered ⟨1⟩ twoCards) 0 (candidates twoCardSnapshot.value) 1 := by
    refine ⟨by decide +kernel, fun earlier less => Or.inr ?_⟩
    obtain rfl := Nat.lt_one_iff.mp less
    decide +kernel
  have failed : (claimLoop (triggered ⟨1⟩ twoCards) 3 0 twoCardSnapshot.value).map
      (fun run => verdict run.result) = some .failed := by decide +kernel
  rw [ends 3 (by decide), Option.map_some, leases ⟨1, would⟩] at failed
  cases failed

end Starvation

end OHHive.Control
