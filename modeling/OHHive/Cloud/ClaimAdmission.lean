import OHHive.Cloud.Invisibility
import OHHive.Cloud.Budgets

/-! Whether the card that a claim query selects passes the triggers on its lease, in any store,
archived or not. -/

namespace OHHive.Cloud

open Foundation

section Archival

/-- A call on the cards, or the archival of a month of the ledger. -/
inductive StoreCall where
  | call (event : Event)
  | archive (request : ArchiveRequest)

/-- The store after the archival of a month. -/
def Hive.archive (hive : Hive) (request : ArchiveRequest) : Hive :=
  match ledgerArchiveApply hive.ledger request with
  | .ok next =>
    { hive with
      entries := next.entries
      balances := next.checkpoints
      archiveLog := next.archiveLog }
  | .error _ => hive

def Hive.advance (hive : Hive) : StoreCall → Hive
  | .call event => hive.step event
  | .archive request => hive.archive request

/-- The store after the first calls of a run that may archive. -/
def storeAt (calls : List StoreCall) : Nat → Hive := stateAt Hive.advance Hive.empty calls

theorem holdsLease_storeAt (calls : List StoreCall) (moment : Nat) :
    ∀ id, ((storeAt calls moment).slot id).HoldsLease := by
  apply stateAt_invariant Hive.advance Hive.empty calls fun hive => ∀ id, (hive.slot id).HoldsLease
  · exact fun id _ => rfl
  · intro hive call _ holds id
    cases call with
    | call event =>
      rcases moves_step event hive id with kept | move
      · exact kept ▸ holds id
      · exact move.holdsLease (holds id)
    | archive request =>
      change ((hive.archive request).slot id).HoldsLease
      unfold Hive.archive
      split
      · exact holds id
      · exact holds id

end Archival

section Admission

variable {around : Surroundings} {hive next : Hive} {c : Card} {p : Project} {nid : NodeId}

/-- Who pays for a lease, and how much is held for it. -/
def Hive.funding (hive : Hive) (c : Card) (p : Project) : Option (AccountId × Int) :=
  match p.executionMode with
  | .localMode => none
  | .hiveMode =>
    if c.modality = .speech then
      (hive.prices.lookup c.id).map fun q => (p.fundAccount, q.maxHoney)
    else (hive.approvals.lookup c.id).map fun q => (q.payer, hive.remaining q)

/-- The sources of an account, net of what is held on them, cover an amount. -/
def Hive.Covers (hive : Hive) (around : Surroundings) (payer : AccountId) (amount : Int) : Prop :=
  (around.chart payer).isSome ∧ amount ≤ capacity (available hive.ledger payer) debitOrder

/-- A card is meant for the node or for any, and its payer's sources cover what a lease holds. -/
structure Leasable (around : Surroundings) (hive : Hive) (nid : NodeId) (c : Card) (p : Project) :
    Prop where
  target : Hive.targets nid c
  covered : ∀ payer amount, hive.funding c p = some (payer, amount) →
    hive.Covers around payer amount

/-- Holds can be inserted where the card has none. -/
theorem insertReservations_isOk {card : CardId} {debits : List Debit}
    (positive : ∀ d ∈ debits, 0 < d.amount) (distinct : (debits.map Debit.source).Nodup)
    (free : ∀ row ∈ hive.reservations.rows, row.card = card →
      row.source ∉ debits.map Debit.source) :
    ∃ next, Hive.insertReservations card debits hive = .ok next := by
  induction debits generalizing hive with
  | nil => exact ⟨hive, rfl⟩
  | cons d debits ih =>
    obtain ⟨fresh, rest⟩ := List.nodup_cons.mp distinct
    have amount := positive d List.mem_cons_self
    let row : Reservation := ⟨card, d.account, d.source, d.amount, amount⟩
    have fits : hive.reservations.Fits row := by
      intro stored member same
      obtain ⟨ofCard, ofSource⟩ := Prod.mk.inj same
      exact free stored member ofCard (ofSource ▸ List.mem_cons_self)
    obtain ⟨reservations, added, rows⟩ := Table.exists_insert? fits
    have later : ∃ next, Hive.insertReservations card debits { hive with reservations } =
        .ok next := by
      apply ih (fun other member => positive other (List.mem_cons_of_mem _ member)) rest
      intro stored member ofCard inRest
      rw [show ({ hive with reservations } : Hive).reservations.rows = _ from rows] at member
      rcases List.mem_append.mp member with old | new
      · exact free stored old ofCard (List.mem_cons_of_mem _ inRest)
      · rw [List.mem_singleton.mp new] at inRest
        exact fresh inRest
    obtain ⟨next, inserted⟩ := later
    refine ⟨next, ?_⟩
    have built : Hive.hold card d = .ok row := dif_pos amount
    simp only [Hive.insertReservations, bind_eq_ok_iff, orFail_eq_ok_iff]
    exact ⟨row, built, reservations, added, inserted⟩

/-- A split of a covered amount can be held for a card that holds nothing yet. -/
theorem holds_isOk {payer : AccountId} {amount : Int} {card : CardId} (positive : 0 < amount)
    (covers : hive.Covers around payer amount)
    (free : ∀ row ∈ hive.reservations.rows, row.card ≠ card) :
    ∃ debits next, splitDebit around.chart hive.ledger payer amount debitOrder = .ok debits ∧
      Hive.insertReservations card debits hive = .ok next := by
  obtain ⟨debits, splits⟩ := (splitDebit_ok_iff positive).mpr covers
  have parts := split_of_splitDebit positive splits
  have distinct : (debits.map Debit.source).Nodup := parts.distinct.nodup (by decide)
  obtain ⟨next, inserted⟩ := insertReservations_isOk parts.positive distinct
    fun row member ofCard => absurd ofCard (free row member)
  exact ⟨debits, next, splits, inserted⟩

theorem covers_of_split {payer : AccountId} {amount : Int} {debits : List Debit}
    (positive : 0 < amount)
    (splits : splitDebit around.chart hive.ledger payer amount debitOrder = .ok debits) :
    hive.Covers around payer amount :=
  (splitDebit_ok_iff positive).mp ⟨debits, splits⟩

/-- What the admission of a hive-mode card was based on. -/
theorem claimable_funded {n : Node} (claimable : hive.claimable around n c p)
    (hiveMode : p.executionMode = .hiveMode) : hive.cardHasFundedBudget around c := by
  simp only [Hive.claimable, Bool.and_eq_true, Bool.or_eq_true, decide_eq_true_eq, hiveMode]
    at claimable
  simp at claimable
  tauto

/-- The first trigger on a lease passes where the second needs to be asked, and the other way. -/
theorem requireSpeechPriceOnLease_isOk (ofProject : around.project c.projectId = some p)
    (free : ∀ row ∈ hive.reservations.rows, row.card ≠ c.id)
    (funded : p.executionMode = .hiveMode → hive.cardHasFundedBudget around c)
    (covered : ∀ payer amount, hive.funding c p = some (payer, amount) →
      hive.Covers around payer amount) :
    ∃ next, hive.requireSpeechPriceOnLease around c p = .ok next := by
  unfold Hive.requireSpeechPriceOnLease
  split
  · rename_i speech
    obtain ⟨isSpeech, hiveMode⟩ := speech
    have budget := funded hiveMode
    unfold Hive.cardHasFundedBudget at budget
    simp only [isSpeech] at budget
    cases priced : hive.prices.lookup c.id with
    | none => simp [priced] at budget
    | some sp =>
      simp only [priced, ofProject, Option.any_some, Bool.and_eq_true, decide_eq_true_eq]
        at budget
      have covers := covered p.fundAccount sp.maxHoney (by
        simp [Hive.funding, hiveMode, isSpeech, priced])
      obtain ⟨debits, next, splits, inserted⟩ := holds_isOk sp.positive covers free
      refine ⟨next, ?_⟩
      simp only [bind_eq_ok_iff, orFail_eq_ok_iff, require_eq_ok_iff, exists_const]
      exact ⟨sp, rfl, ⟨budget.2.1.symm, budget.1⟩, covers.1, debits, splits, inserted⟩
  · exact ⟨hive, rfl⟩

theorem reserveComputeOnLease_isOk
    (free : ∀ row ∈ hive.reservations.rows, row.card ≠ c.id)
    (funded : p.executionMode = .hiveMode → hive.cardHasFundedBudget around c)
    (covered : ∀ payer amount, hive.funding c p = some (payer, amount) →
      hive.Covers around payer amount) :
    ∃ next, hive.reserveComputeOnLease around c p = .ok next := by
  unfold Hive.reserveComputeOnLease
  split
  · rename_i compute
    obtain ⟨notSpeech, hiveMode⟩ := compute
    have budget := funded hiveMode
    unfold Hive.cardHasFundedBudget at budget
    split at budget
    · exact absurd ‹c.modality = .speech› notSpeech
    · split at budget
      · cases budget
      · rename_i q valid
        simp only [Bool.and_eq_true, decide_eq_true_eq] at budget
        have covers := covered q.payer (hive.remaining q) (by
          simp [Hive.funding, hiveMode, notSpeech, validateComputeBudget_ok valid])
        obtain ⟨debits, next, splits, inserted⟩ := holds_isOk budget.1 covers free
        refine ⟨next, ?_⟩
        simp only [bind_eq_ok_iff, require_eq_ok_iff, exists_const]
        exact ⟨q, valid, budget.1, debits, splits, inserted⟩
  · exact ⟨hive, rfl⟩

/-- The triggers pass on a lease whose card is meant for the node and whose payer covers it. -/
theorem insertLease_isOk {lease : Lease} (ofProject : around.project c.projectId = some p)
    (free : ∀ row ∈ hive.reservations.rows, row.card ≠ c.id)
    (unleased : hive.leases.lookup c.id = none) (ofCard : lease.card = c.id)
    (funded : p.executionMode = .hiveMode → hive.cardHasFundedBudget around c)
    (leasable : Leasable around hive lease.node c p) :
    ∃ next, hive.insertLease around c p lease = .ok next := by
  obtain ⟨priced, speech⟩ := requireSpeechPriceOnLease_isOk ofProject free funded leasable.covered
  have reserves : ∃ held, priced.reserveComputeOnLease around c p = .ok held ∧
      held.leases = hive.leases := by
    by_cases isSpeech : c.modality = .speech
    · refine ⟨priced, ?_, ?_⟩
      · simp [Hive.reserveComputeOnLease, isSpeech]
      · obtain ⟨_, holds, _⟩ := requireSpeechPriceOnLease_ok speech
        rw [holds.frame]
    · have same : priced = hive := by
        have untouched : hive.requireSpeechPriceOnLease around c p = .ok hive := by
          simp [Hive.requireSpeechPriceOnLease, isSpeech]
        exact Except.ok.inj (speech.symm.trans untouched)
      obtain ⟨held, compute⟩ := reserveComputeOnLease_isOk free funded leasable.covered
      refine ⟨held, same ▸ compute, ?_⟩
      obtain ⟨_, holds, _⟩ := reserveComputeOnLease_ok compute
      rw [holds.frame]
  obtain ⟨held, compute, leases⟩ := reserves
  have fits : held.leases.Fits lease := by
    intro stored member same
    rw [leases] at member
    exact (hive.leases.lookup_eq_none_iff c.id).mp unleased stored member (same.trans ofCard)
  obtain ⟨added, inserted, _⟩ := Table.exists_insert? fits
  refine ⟨{ held with leases := added }, ?_⟩
  simp only [Hive.insertLease, bind_eq_ok_iff, orFail_eq_ok_iff, pure_eq_ok_iff]
  exact ⟨(), require_eq_ok_iff.mpr leasable.target, priced, speech, held, compute, added, inserted,
    rfl⟩

/-- A lease that the triggers let pass is for the node, and its payer covered it. -/
theorem leasable_of_insertLease {lease : Lease}
    (inserted : hive.insertLease around c p lease = .ok next) :
    Leasable around hive lease.node c p := by
  simp only [Hive.insertLease, bind_eq_ok_iff, orFail_eq_ok_iff, pure_eq_ok_iff] at inserted
  obtain ⟨_, targeted, priced, speech, held, compute, _⟩ := inserted
  refine ⟨require_eq_ok_iff.mp targeted, ?_⟩
  intro payer amount funding
  unfold Hive.funding at funding
  split at funding
  · cases funding
  · rename_i hiveMode
    split at funding
    · rename_i isSpeech
      obtain ⟨q, stored, same⟩ := Option.map_eq_some_iff.mp funding
      obtain ⟨rfl, rfl⟩ := Prod.mk.inj same
      unfold Hive.requireSpeechPriceOnLease at speech
      rw [if_pos ⟨isSpeech, hiveMode⟩] at speech
      simp only [bind_eq_ok_iff, orFail_eq_ok_iff, require_eq_ok_iff, exists_const] at speech
      obtain ⟨q', stored', _, _, debits, splits, _⟩ := speech
      obtain rfl := Option.some.inj (stored.symm.trans stored')
      exact covers_of_split q.positive splits
    · rename_i notSpeech
      obtain ⟨q, stored, same⟩ := Option.map_eq_some_iff.mp funding
      obtain ⟨rfl, rfl⟩ := Prod.mk.inj same
      have untouched : hive.requireSpeechPriceOnLease around c p = .ok hive := by
        simp [Hive.requireSpeechPriceOnLease, notSpeech]
      obtain rfl := Except.ok.inj (speech.symm.trans untouched)
      unfold Hive.reserveComputeOnLease at compute
      rw [if_pos ⟨notSpeech, hiveMode⟩] at compute
      simp only [bind_eq_ok_iff, require_eq_ok_iff, exists_const] at compute
      obtain ⟨q', valid, left, debits, splits, _⟩ := compute
      obtain rfl := Option.some.inj (stored.symm.trans (validateComputeBudget_ok valid))
      exact covers_of_split left splits

end Admission

section Claims

variable {around : Surroundings} {hive : Hive} {node? : Option NodeId}
  {own : NodeId → Card → Project → Bool} {nid : NodeId} {c : Card} {p : Project}

/-- A claim gets as far as a card that it selects for the calling node. -/
structure Selects (around : Surroundings) (hive : Hive) (node? : Option NodeId)
    (own : NodeId → Card → Project → Bool) (nid : NodeId) (c : Card) (p : Project) : Prop where
  authenticated : node? = some nid
  selected : ∃ n, around.node nid = some n ∧ n.presence = .checkedIn ∧
    hive.select around n (own nid) = some (c, p)
  unleased : ¬ hive.leases.rows.any fun lease => lease.node = nid

/-- A claim leases the card that it selects. -/
def Leases (hive : Hive) (around : Surroundings) (node? : Option NodeId)
    (own : NodeId → Card → Project → Bool) (nid : NodeId) (c : Card) : Prop :=
  ∃ next expiresAt, hive.claim around node? own = .ok (next, .leased c expiresAt) ∧
    next.leases.lookup c.id = some ⟨c.id, nid, expiresAt⟩

theorem claim_of_selects (selects : Selects around hive node? own nid c p) :
    hive.claim around node? own = (do
      let leased ← hive.insertLease around c p ⟨c.id, nid, around.now + claimTtl c.modality⟩
      pure (leased.setStatus c.id .running, .leased c (around.now + claimTtl c.modality))) := by
  obtain ⟨rfl, ⟨n, stored, checkedIn, selected⟩, unleased⟩ := selects
  simp only [Hive.claim, orFail_some, ok_bind, stored, checkedIn, ne_eq, not_true_eq_false,
    if_false, unleased, selected, Bool.false_eq_true]

/-- A claim leases the card that it selects exactly where that card can be leased, and aborts
elsewhere. -/
theorem leases_iff (holds : ∀ id, (hive.slot id).HoldsLease)
    (selects : Selects around hive node? own nid c p) :
    (Leases hive around node? own nid c ↔ Leasable around hive nid c p) ∧
      ((∃ result, hive.claim around node? own = .ok result) ↔ Leasable around hive nid c p) := by
  obtain ⟨n, _, _, selected⟩ := selects.selected
  obtain ⟨_, ofProject, _, claimable⟩ := select_ok selected
  obtain ⟨_, unleased⟩ := claimable_ready claimable
  have free : ∀ row ∈ hive.reservations.rows, row.card ≠ c.id := by
    intro row member ofCard
    have held : row ∈ (hive.slot c.id).holds :=
      List.mem_filter.mpr ⟨member, decide_eq_true ofCard⟩
    rw [holds c.id unleased] at held
    cases held
  have leased (leasable : Leasable around hive nid c p) : Leases hive around node? own nid c := by
    let lease : Lease := ⟨c.id, nid, around.now + claimTtl c.modality⟩
    have passes : ∃ next, hive.insertLease around c p lease = .ok next :=
      insertLease_isOk ofProject free unleased rfl (claimable_funded claimable) leasable
    obtain ⟨next, inserted⟩ := passes
    refine ⟨next.setStatus c.id .running, lease.expiresAt, ?_, ?_⟩
    · rw [claim_of_selects selects, inserted]
      rfl
    · obtain ⟨_, _, _, _, slots⟩ := insertLease_ok inserted rfl
      have slot : ((next.setStatus c.id .running).slot c.id).lease = some lease := by
        rw [slot_setStatus, slots, if_pos rfl]
      exact slot
  have allowed (result : Hive × ClaimReply) (claimed : hive.claim around node? own = .ok result) :
      Leasable around hive nid c p := by
    rw [claim_of_selects selects, bind_eq_ok_iff] at claimed
    obtain ⟨next, inserted, _⟩ := claimed
    exact leasable_of_insertLease inserted
  constructor
  · exact ⟨fun ⟨next, _, claimed, _⟩ => allowed _ claimed, leased⟩
  · refine ⟨fun ⟨result, claimed⟩ => allowed result claimed, fun leasable => ?_⟩
    obtain ⟨next, _, claimed, _⟩ := leased leasable
    exact ⟨_, claimed⟩

/-- The node and the own condition of each of the three claims. -/
def Event.claiming (event : Event) :
    Option (Option NodeId × (NodeId → Card → Project → Bool)) :=
  match event.op with
  | .nodeClaimCard rawKey =>
    some (event.around.verifyNodeKey rawKey, fun nid c _ => Hive.targets nid c)
  | .ctlPilotClaim rawKey project candidate =>
    some (event.around.verifyNodeKey rawKey, fun _ => Hive.piloted project candidate)
  | .ctlDCtlPilotClaim rawKey project candidate =>
    some (event.around.ctlDelegateNode rawKey, fun _ => Hive.piloted project candidate)
  | _ => none

theorem reply_of_claiming {event : Event} (claiming : event.claiming = some (node?, own)) :
    event.reply hive = (hive.claim event.around node? own).map Prod.fst := by
  obtain ⟨around, op⟩ := event
  cases op with
  | nodeClaimCard rawKey =>
    cases claiming
    rfl
  | ctlPilotClaim rawKey project candidate =>
    cases claiming
    rfl
  | ctlDCtlPilotClaim rawKey project candidate =>
    cases claiming
    rfl
  | _ => cases claiming

/-- A claim leases the card that it selected. -/
def Event.Leases (event : Event) (hive : Hive) (nid : NodeId) (c : Card) : Prop :=
  ∃ next expiresAt, event.reply hive = .ok next ∧
    next.leases.lookup c.id = some ⟨c.id, nid, expiresAt⟩

end Claims

section Unarchived

variable {around : Surroundings} {hive : Hive} {payer : AccountId}

/-- The three sources make up a total. -/
private theorem total_sources {Row : Type} (value : Row → Int) (rows : List Row)
    (selects : Row → Bool) (source : Row → HoneySource) :
    total value rows selects =
      (debitOrder.map fun b => total value rows fun row => selects row && source row = b).sum := by
  induction rows with
  | nil => simp [debitOrder]
  | cons row rows ih =>
    simp only [total_cons, ih, debitOrder, List.map_cons, List.map_nil, List.sum_cons,
      List.sum_nil]
    cases source row <;> simp <;> split <;> omega

end Unarchived

section Examples

/-- The essay, meant for another node. -/
def aimedEssay : Card :=
  { essay with
    requiredCapabilities := { essay.requiredCapabilities with targetNodeId := some "8" } }

/-- The project is given 100 at some time, and a limit of 50 for a card later. -/
def funded (card : Card) (ready : card.status = .ready) (given : Time) : List StoreCall :=
  [.call ⟨surroundings given, .post donation donation_cardless⟩,
    .call ⟨surroundings given, .createCard ⟨card, Or.inr ready⟩⟩,
    .call ⟨surroundings given, .computeBudgetApprove 1 (some (.finite 50))⟩]

def pilotClaim : Event := ⟨surroundings 0, .ctlPilotClaim "laptop" 1 1⟩

/-- A claim after the month of the gift was archived. -/
def lateClaim : Event := ⟨surroundings (january + 10000000000000), .nodeClaimCard "laptop"⟩

/-- The essay's project was paid in January, which is archived before the essay is claimed. -/
def archivedFunds : List StoreCall := funded essay rfl january ++ [.archive (januaryRequest 2)]

end Examples

end OHHive.Cloud
