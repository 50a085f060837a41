import OHHive.Control.Choose

/-! The claim of a card by the control service: it offers the database one card of the snapshot
after the other until one is leased. -/

namespace OHHive.Control

open Foundation

section Loop

inductive StatusCode where
  | serviceUnavailable
  | conflict
deriving DecidableEq, Repr

/-- What the database answers to the claim of a card, at each attempt. -/
abbrev Answers := Nat → Uuid → Except StatusCode Value

/-- The cards that were tried, and the reply. -/
structure ClaimRun where
  tried : List Uuid
  result : Except StatusCode Value

def hasStatus (status : String) (result : Value) : Bool :=
  (result.get "status").asText = some status.toList

def nothingToDo : Value := .object [("status".toList, .text "nothing_to_do".toList)]

/-- `cards.retain(|card| card["id"] != json!(id))`. -/
def retain (id : Uuid) (snapshot : Value) : Value :=
  snapshot.mapMember "cards"
    (Value.mapItems (List.filter fun card => !writesUuid (card.get "id") id))

def ClaimRun.after (id : Uuid) (run : ClaimRun) : ClaimRun := { run with tried := id :: run.tried }

/-- The claim loop; it has no bound of its own. -/
def claimLoop (answers : Answers) : Nat → Nat → Value → Option ClaimRun
  | 0, _, _ => none
  | fuel + 1, attempt, snapshot =>
    match choose snapshot with
    | none => some ⟨[], .ok nothingToDo⟩
    | some id =>
      match answers attempt id with
      | .error status => some ⟨[id], .error status⟩
      | .ok result =>
        if hasStatus "nothing_to_do" result then
          (claimLoop answers fuel (attempt + 1) (retain id snapshot)).map (ClaimRun.after id)
        else some ⟨[id], .ok result⟩

/-- The trigger `enforce_lease_target_node`: a card that names a node is leased to no other. -/
def enforceLeaseTargetNode (card : Value) (node : Uuid) : Except StatusCode Unit :=
  match (card.get "required_capabilities").get "target_node_id" with
  | .null => .ok ()
  | .text target => if target = Coder.uuidText node then .ok () else .error .conflict
  | _ => .error .conflict

end Loop

section Claim

/-- The cards that the node fits, in order. -/
def candidatesFrom (node : NodeView) (cards : List Value) : List Uuid :=
  cards.filterMap fun card => (job card).bind fun job =>
    if fits node job then some job.id else none

def candidates (snapshot : Value) : List Uuid :=
  match nodeView snapshot, (snapshot.get "cards").asArray with
  | some node, some cards => candidatesFrom node cards
  | _, _ => []

inductive Verdict where
  | leased
  | refused
  | failed
  | ended
deriving DecidableEq, Repr

/-- An answer that is no refusal of the card ends the loop. -/
def verdict : Except StatusCode Value → Verdict
  | .error _ => .failed
  | .ok result =>
    if hasStatus "nothing_to_do" result then .refused
    else if hasStatus "leased" result then .leased
    else .ended

/-- What the database answers for a candidate when all before it have been tried. -/
def turn (answers : Answers) (attempt : Nat) (ids : List Uuid) (place : Nat) : Option Verdict :=
  ids[place]?.map fun id => verdict (answers (attempt + place) id)

/-- The database would lease this candidate, after it refused or failed all before it. -/
def WouldLease (answers : Answers) (attempt : Nat) (ids : List Uuid) (place : Nat) : Prop :=
  turn answers attempt ids place = some .leased ∧
  ∀ earlier < place, turn answers attempt ids earlier = some .refused ∨
    turn answers attempt ids earlier = some .failed

/-- A run of the loop ends after at most one round for each card and one more. -/
def Ends (answers : Answers) (snapshot : Value) (run : ClaimRun) : Prop :=
  ∀ fuel, ((snapshot.get "cards").asArray.getD []).length < fuel →
    claimLoop answers fuel 0 snapshot = some run

/-- The choice is the first card that fits; the loop ends, tries no card twice, and claims a card
where the database would lease one. -/
structure Dispatches (answers : Answers) (snapshot : Value) : Prop where
  first : choose snapshot = (candidates snapshot).head?
  claims : ∃ run, Ends answers snapshot run ∧ run.tried.Nodup ∧
    ((∃ place, WouldLease answers 0 (candidates snapshot) place) → verdict run.result = .leased)

/-- Every card that does not decode comes after the candidate at this place. -/
def ReadableBefore (node : NodeView) (cards : List Value) (place : Nat) : Prop :=
  ∀ before card after, cards = before ++ card :: after → job card = none →
    place < (candidatesFrom node before).length

/-- Cards as the database writes them: each by its own identity, in the one form. -/
structure Written (cards : List Value) : Prop where
  canonical : ∀ card ∈ cards, ∀ id, uuid (card.get "id") = some id →
    writesUuid (card.get "id") id
  distinct : (cards.map (·.get "id")).Nodup

/-- A snapshot of the database. -/
structure Snapshot where
  value : Value
  written : ∀ cards, (value.get "cards").asArray = some cards → Written cards

end Claim

section Candidates

variable {node : NodeView} {card : Value} {cards : List Value} {place : Nat}

theorem candidatesFrom_unreadable (unreadable : job card = none) :
    candidatesFrom node (card :: cards) = candidatesFrom node cards := by
  simp [candidatesFrom, unreadable]

theorem candidatesFrom_misfit {read : Job} (readable : job card = some read)
    (misfit : fits node read = false) :
    candidatesFrom node (card :: cards) = candidatesFrom node cards := by
  simp [candidatesFrom, readable, misfit]

theorem candidatesFrom_fit {read : Job} (readable : job card = some read)
    (fit : fits node read = true) :
    candidatesFrom node (card :: cards) = read.id :: candidatesFrom node cards := by
  simp [candidatesFrom, readable, fit]

theorem not_readableBefore_unreadable (unreadable : job card = none) :
    ¬ ReadableBefore node (card :: cards) place := by
  intro readable
  exact absurd (readable [] card cards rfl unreadable) (Nat.not_lt_zero _)

/-- Behind a card that decodes, the place is counted by the candidates from there. -/
theorem readableBefore_cons {read : Job} (readable : job card = some read) :
    ReadableBefore node (card :: cards) place ↔
      ∀ before other after, cards = before ++ other :: after → job other = none →
        place < (candidatesFrom node (card :: before)).length := by
  constructor
  · intro before earlier other after split unreadable
    exact before (card :: earlier) other after (by rw [split]; rfl) unreadable
  · intro behind before other after split unreadable
    cases before with
    | nil =>
      obtain ⟨rfl, _⟩ := List.cons.inj split
      rw [readable] at unreadable
      cases unreadable
    | cons first before =>
      obtain ⟨rfl, rest⟩ := List.cons.inj split
      exact behind before other after rest unreadable

theorem readableBefore_misfit {read : Job} (readable : job card = some read)
    (misfit : fits node read = false) :
    ReadableBefore node (card :: cards) place ↔ ReadableBefore node cards place := by
  rw [readableBefore_cons readable]
  simp only [candidatesFrom_misfit readable misfit, ReadableBefore]

theorem readableBefore_fit {read : Job} (readable : job card = some read)
    (fit : fits node read = true) :
    ReadableBefore node (card :: cards) 0 := by
  rw [readableBefore_cons readable]
  intro before other after _ _
  rw [candidatesFrom_fit readable fit]
  exact Nat.succ_pos _

theorem readableBefore_fit_succ {read : Job} (readable : job card = some read)
    (fit : fits node read = true) :
    ReadableBefore node (card :: cards) (place + 1) ↔ ReadableBefore node cards place := by
  rw [readableBefore_cons readable]
  simp only [candidatesFrom_fit readable fit, List.length_cons, Nat.add_lt_add_iff_right,
    ReadableBefore]

/-- The first candidate is chosen exactly where no card before it fails to decode. -/
theorem chooseFrom_eq_iff :
    chooseFrom node cards = (candidatesFrom node cards).head? ↔
      (candidatesFrom node cards ≠ [] → ReadableBefore node cards 0) := by
  induction cards with
  | nil => exact iff_of_true rfl fun some => absurd rfl some
  | cons card cards ih =>
    unfold chooseFrom
    cases readable : job card with
    | none =>
      rw [candidatesFrom_unreadable readable]
      simp only [not_readableBefore_unreadable readable, imp_false, not_not]
      rw [eq_comm, List.head?_eq_none_iff]
    | some read =>
      by_cases fit : fits node read = true
      · simp only [if_pos fit, candidatesFrom_fit readable fit, List.head?_cons, true_iff]
        exact fun _ => readableBefore_fit readable fit
      · simp only [if_neg fit]
        rw [Bool.not_eq_true] at fit
        rw [candidatesFrom_misfit readable fit, readableBefore_misfit readable fit]
        exact ih

end Candidates

end OHHive.Control
