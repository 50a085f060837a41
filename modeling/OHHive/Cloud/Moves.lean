import OHHive.Cloud.Slots

/-! The moves of a slot. A call that goes through makes at most one of them on each card. -/

namespace OHHive.Cloud

open Foundation

section Moves

/-- Another version of a card: only its status and its inputs are ever updated. -/
structure Card.Revises (later card : Card) : Prop where
  modality : later.modality = card.modality
  project : later.projectId = card.projectId

/-- An approval that may take the place of the one of a slot. -/
structure Approval.Renews (approval : Approval) (card : Card) (before : Slot) : Prop where
  modality : card.modality = .text ∨ card.modality = .code
  rates : 0 ≤ approval.inputRate ∧ 0 < approval.outputRate
  above : before.approval = none ∨ spentBy before.paid < approval.limit

/-- What the lease triggers hold for a card: nothing for local work, and all that is left of the
limit for a text or code card. -/
structure Reserves (p : Project) (card : Card) (before : Slot) (held : List Reservation) : Prop where
  nothing : p.executionMode = .localMode → held = []
  compute : p.executionMode = .hiveMode → card.modality ≠ .speech →
    ∃ approval ∈ before.approval, 0 < leftOf approval before.paid ∧
      (∀ row ∈ held, row.account = approval.payer) ∧
      (held.map Reservation.amount).sum = leftOf approval before.paid

/-- The rows of a payment: debits of the payer, and the credit of the node's owner. -/
structure Pays (around : Surroundings) (payer : AccountId) (nid : NodeId) (amount : Int)
    (debits : List LedgerEntry) (credit : LedgerEntry) : Prop where
  debit : ∀ entry ∈ debits, entry.account = payer ∧ entry.entryType = .spendJob ∧
    entry.direction = .debit
  sum : (debits.map LedgerEntry.amount).sum = amount
  wallet : Hive.nodeWallet around nid = some credit.account
  credit : credit.entryType = .earnCompute ∧ credit.direction = .credit ∧ credit.amount = amount

/-- A completion as it was asked for. -/
structure Completion where
  node? : Option NodeId
  card : CardId
  content : String
  usage : Usage

def Event.completion (event : Event) : Option Completion :=
  match event.op with
  | .nodeCompleteCard rawKey card content usage =>
    some ⟨event.around.verifyNodeKey rawKey, card, content, usage⟩
  | .ctlDNodeCompleteCard rawKey card content usage =>
    some ⟨event.around.ctlDelegateNode rawKey, card, content, usage⟩
  | _ => none

/-- What a completion at the frozen rates asks for and posts. -/
structure FrozenCharge (around : Surroundings) (before : Slot) (lease : Lease) (usage : Usage)
    (approval : Approval) (tokensIn tokensOut : Int) (rows : List LedgerEntry) : Prop where
  approved : before.approval = some approval
  reported : usage.tokensIn = some tokensIn ∧ usage.tokensOut = some tokensOut
  nonnegative : 0 ≤ tokensIn ∧ 0 ≤ tokensOut
  within : Hive.frozenCharge approval tokensIn tokensOut ≤ leftOf approval before.paid
  free : Hive.frozenCharge approval tokensIn tokensOut ≤ 0 → rows = []
  paid : 0 < Hive.frozenCharge approval tokensIn tokensOut → ∃ debits credit,
    rows = debits ++ [credit] ∧ Pays around approval.payer lease.node
      (Hive.frozenCharge approval tokensIn tokensOut) debits credit

/-- What a completion posts: nothing for local work, and a frozen charge for a text or code card. -/
structure Charges (around : Surroundings) (p : Project) (card : Card) (before : Slot)
    (lease : Lease) (usage : Usage) (rows : List LedgerEntry) : Prop where
  nothing : p.executionMode = .localMode → rows = []
  compute : p.executionMode = .hiveMode → card.modality ≠ .speech →
    ∃ approval tokensIn tokensOut,
      FrozenCharge around before lease usage approval tokensIn tokensOut rows

/-- What a call can do to the slot of one card. -/
inductive SlotMove (event : Event) (id : CardId) (before : Slot) : Slot → Prop
  | created (new : NewCard) (approval : Option Approval) (absent : before.card = none)
      (renews : approval = before.approval ∨
        ∃ fresh, approval = some fresh ∧ fresh.Renews new.card before) :
      SlotMove event id before { before with card := some new.card, approval }
  | claimed (card : Card) (p : Project) (lease : Lease) (held : List Reservation)
      (stored : before.card = some card) (ready : card.status = .ready)
      (free : before.lease = none) (ofProject : event.around.project card.projectId = some p)
      (reserves : Reserves p card before held) :
      SlotMove event id before { before with
        card := some (card.moved .running)
        lease := some lease
        holds := before.holds ++ held }
  | extended (lease : Lease) (expiresAt : Time) (leased : before.lease = some lease) :
      SlotMove event id before { before with lease := some { lease with expiresAt } }
  | completed (asked : Completion) (card : Card) (p : Project) (lease : Lease)
      (rows : List LedgerEntry) (completion : event.completion = some asked)
      (ofCard : asked.card = id) (authenticated : asked.node? = some lease.node)
      (stored : before.card = some card) (leased : before.lease = some lease)
      (ofProject : event.around.project card.projectId = some p)
      (charges : Charges event.around p card before lease asked.usage rows) :
      SlotMove event id before { before with
        card := some (card.moved .review)
        lease := none
        holds := []
        outputs := before.outputs ++ [⟨id, some lease.node, asked.content⟩]
        paid := before.paid ++ rows }
  | ended (lease : Lease) (change : Card → Card) (outputs : List CardOutput)
      (leased : before.lease = some lease) (stops : ∀ card, (change card).status ≠ .running)
      (revises : ∀ card, (change card).Revises card) :
      SlotMove event id before { before with
        card := before.card.map change
        lease := none
        holds := []
        outputs := before.outputs ++ outputs }
  | accepted (card : Card) (asked : event.op = .cardAccept id) (stored : before.card = some card)
      (finished : card.status = .review ∨ card.status = .running ∨ card.status = .blocked) :
      SlotMove event id before { before with card := some (card.moved .done) }
  | sentBack (card later : Card) (note : String) (asked : event.op = .cardSendBack id note)
      (stored : before.card = some card) (ready : later.status = .ready)
      (revises : later.Revises card) :
      SlotMove event id before { before with
        card := some later
        lease := none
        holds := if before.lease.isSome then [] else before.holds }
  | opened (card : Card) (status : CardStatus) (outputs : List CardOutput)
      (stored : before.card = some card)
      (waits : card.status = .suggested ∨ card.status = .waitingOnChild)
      (opens : status = .ready ∨ status = .blocked) :
      SlotMove event id before { before with
        card := some (card.moved status)
        outputs := before.outputs ++ outputs }
  | approved (card : Card) (approval : Approval) (stored : before.card = some card)
      (free : before.lease = none) (renews : approval.Renews card before) :
      SlotMove event id before { before with approval := some approval }

/-- What a call does to every slot: one move, or nothing. -/
def Moves (event : Event) (hive next : Hive) : Prop :=
  ∀ id, next.slot id = hive.slot id ∨ SlotMove event id (hive.slot id) (next.slot id)

theorem Card.moved_revises (card : Card) (status : CardStatus) : (card.moved status).Revises card :=
  ⟨rfl, rfl⟩

end Moves

section Cascades

variable {hive : Hive}

/-- A wait that ended. -/
def Opens (before after : Slot) : Prop :=
  ∃ card status outputs, before.card = some card ∧ card.status = .waitingOnChild ∧
    (status = .ready ∨ status = .blocked) ∧
    after = { before with
      card := some (card.moved status)
      outputs := before.outputs ++ outputs }

theorem Opens.move {before after : Slot} (opens : Opens before after) (event : Event)
    (id : CardId) : SlotMove event id before after := by
  obtain ⟨card, status, outputs, stored, waits, opened, rfl⟩ := opens
  exact .opened card status outputs stored (Or.inr waits) opened

theorem slot_of_opened {card : Card} {status : CardStatus} {id : CardId}
    (found : hive.cards.lookup id = some card) :
    (hive.withStatus id status).slot id =
      { hive.slot id with card := some (card.moved status) } := by
  rw [slot_withStatus, if_pos rfl, found, Option.map_some]

theorem slot_of_other {status : CardStatus} {card id : CardId} (other : id ≠ card) :
    (hive.withStatus card status).slot id = hive.slot id := by
  rw [slot_withStatus, if_neg other]

/-- A cascade ends waits and does nothing else. -/
theorem slot_cascadeChildStatus (depth : Nat) (hive : Hive) (parent? : Option CardId)
    (status : CardStatus) (childKey : String) (id : CardId) :
    (hive.cascadeChildStatus parent? status childKey depth).slot id = hive.slot id ∨
      Opens (hive.slot id) ((hive.cascadeChildStatus parent? status childKey depth).slot id) := by
  induction depth generalizing hive parent? status childKey with
  | zero => exact Or.inl rfl
  | succ depth ih =>
    unfold Hive.cascadeChildStatus
    split
    · exact Or.inl rfl
    · rename_i parent
      split
      · exact Or.inl rfl
      · rename_i row found
        split
        · exact Or.inl rfl
        · rename_i waiting
          have waits : row.status = .waitingOnChild := not_not.mp waiting
          split
          · split
            · by_cases same : id = parent
              · right
                rw [same, slot_of_opened found]
                exact ⟨row, .ready, [], found, waits, Or.inl rfl, by simp⟩
              · exact Or.inl (slot_of_other same)
            · exact Or.inl rfl
          · split
            · by_cases same : id = parent
              · right
                have stays := ih (hive.withStatus parent .blocked) row.parentCardId .blocked row.key
                rw [same] at stays ⊢
                rw [slot_of_opened found] at stays
                have unopened : ∀ after, ¬ Opens
                    { hive.slot parent with card := some (row.moved .blocked) } after := by
                  rintro after ⟨card, status, outputs, stored, waits', _⟩
                  cases stored
                  cases waits'
                have kept := stays.resolve_right (unopened _)
                rw [slot_insertOutput, kept, if_pos rfl]
                exact ⟨row, .blocked, _, found, waits, Or.inr rfl, rfl⟩
              · have climbed := ih (hive.withStatus parent .blocked) row.parentCardId .blocked
                  row.key
                rw [slot_of_other same] at climbed
                rw [slot_insertOutput, if_neg (fun equal => same equal.symm), List.append_nil]
                exact climbed
            · exact Or.inl rfl

/-- Only a child that finished or failed ends a wait. -/
theorem cascadeChildStatus_idle {status : CardStatus} (unfinished : Hive.finished status = false)
    (unfailed : status ≠ .blocked) (hive : Hive) (parent? : Option CardId) (childKey : String)
    (depth : Nat) : hive.cascadeChildStatus parent? status childKey depth = hive := by
  cases depth with
  | zero => rfl
  | succ depth =>
    unfold Hive.cascadeChildStatus
    split
    · rfl
    · split
      · rfl
      · simp [unfinished, unfailed]

theorem slot_setStatus_self {card : Card} {id : CardId} (found : hive.cards.lookup id = some card)
    (status : CardStatus) :
    (hive.setStatus id status).slot id = { hive.slot id with card := some (card.moved status) } := by
  unfold Hive.setStatus
  rw [found]
  dsimp only
  split
  · exact slot_of_opened found
  · rw [← slot_of_opened found]
    by_cases leaves : status = .waitingOnChild
    · subst leaves
      rw [cascadeChildStatus_idle rfl (by simp)]
    · rcases slot_cascadeChildStatus hive.cards.rows.length (hive.withStatus id status)
        card.parentCardId status card.key id with kept | opened
      · exact kept
      · obtain ⟨row, after, outputs, stored, waits, _⟩ := opened
        rw [slot_of_opened found] at stored
        cases stored
        exact absurd waits leaves

theorem slot_setStatus (hive : Hive) (id : CardId) (status : CardStatus) :
    (hive.setStatus id status).slot id =
      { hive.slot id with card := (hive.slot id).card.map (·.moved status) } := by
  cases found : hive.cards.lookup id with
  | none =>
    have kept : hive.setStatus id status = hive := by
      unfold Hive.setStatus
      rw [found]
    rw [kept]
    simp [Hive.slot, found]
  | some card =>
    rw [slot_setStatus_self found]
    simp [Hive.slot, found]

theorem slot_setStatus_other {card id : CardId} (status : CardStatus) (other : id ≠ card) :
    (hive.setStatus card status).slot id = hive.slot id ∨
      Opens (hive.slot id) ((hive.setStatus card status).slot id) := by
  unfold Hive.setStatus
  split
  · exact Or.inl rfl
  · dsimp only
    split
    · exact Or.inl (slot_of_other other)
    · rename_i row found changed
      have climbed := slot_cascadeChildStatus hive.cards.rows.length
        (hive.withStatus card status) row.parentCardId status row.key id
      rwa [slot_of_other other] at climbed

end Cascades

end OHHive.Cloud
