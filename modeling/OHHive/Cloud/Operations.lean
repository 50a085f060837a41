import OHHive.Cloud.Claims
import OHHive.Foundation.Run

/-! The other functions on a card: its worker's, the reapers', its project's admins' and its
payer's; and the store under any sequence of calls. Each call is one transaction. -/

namespace OHHive.Cloud

open Foundation

/-- What a worker reports with a completion. -/
structure Usage where
  tokensIn : Option Int
  tokensOut : Option Int
  computeSeconds : Option Numeric
deriving DecidableEq

/-- The lease time of a checkpoint, in microseconds. -/
def checkpointTtl : Modality → Time
  | .video => 90 * 60000000
  | .image => 20 * 60000000
  | .music => 30 * 60000000
  | _ => 15 * 60000000

def invalidKey : CloudError := .raised "invalid_or_revoked_node_key"

def noLease : CloudError := .raised "no_lease_for_this_node"

namespace Hive

section Completion

/-- The price of a speech card for the seconds used. -/
def speechCharge (around : Surroundings) (hive : Hive) (c : Card) (p : Project) (lease : Lease)
    (usage : Usage) : Except CloudError (SpeechPrice × Int) := do
  let price ← orFail (hive.prices.lookup c.id) (.raised "speech_price_not_approved")
  require (price.approvedBy = p.owner ∧ price.inputHash = around.inputHash c)
    (.raised "speech_input_changed")
  require (around.now < lease.expiresAt) (.raised "speech_lease_expired")
  match usage.computeSeconds with
  | some (.finite seconds) =>
    require (0 ≤ seconds ∧ seconds ≤ price.maxSeconds ∧ usage.tokensIn.getD 0 = 0 ∧
      usage.tokensOut.getD 0 = 0) (.raised "invalid_speech_usage")
    return (price, min (roundMicro (seconds * price.honeyPerSecond)) price.maxHoney)
  | _ => .error (.raised "invalid_speech_usage")

/-- The price of a text or code card for the tokens used, at the frozen rates. -/
def frozenCharge (approval : Approval) (tokensIn tokensOut : Int) : Int :=
  roundMicro (tokensIn * approval.inputRate + tokensOut * approval.outputRate)

/-- The checks on a completion that a compute budget pays for. -/
def computeCharge (around : Surroundings) (hive : Hive) (c : Card) (lease : Lease)
    (usage : Usage) : Except CloudError (Approval × Int) := do
  let budget ← hive.validateComputeBudget around c.id
  require (around.now < lease.expiresAt) (.raised "compute_lease_expired")
  match usage.tokensIn, usage.tokensOut, usage.computeSeconds with
  | some tokensIn, some tokensOut, some (.finite seconds) =>
    require (0 ≤ tokensIn ∧ 0 ≤ tokensOut ∧ 0 ≤ seconds) (.raised "invalid_compute_usage")
    require (frozenCharge budget tokensIn tokensOut ≤ hive.remaining budget)
      (.raised "compute_budget_exceeded")
    return (budget, frozenCharge budget tokensIn tokensOut)
  | _, _, _ => .error (.raised "invalid_compute_usage")

/-- Who pays for a completion, how much, and what the holds for it must come to. -/
structure Charge where
  payer : AccountId
  amount : Int
  held : Option Int

/-- The amount of a completion: frozen rates, a frozen speech price, or nothing. -/
def charge (around : Surroundings) (hive : Hive) (c : Card) (p : Project) (lease : Lease)
    (usage : Usage) : Except CloudError Charge :=
  match p.executionMode, c.modality with
  | .localMode, _ => .ok ⟨p.fundAccount, 0, none⟩
  | .hiveMode, .speech => do
    let (price, amount) ← hive.speechCharge around c p lease usage
    return ⟨p.fundAccount, amount, some price.maxHoney⟩
  | .hiveMode, _ => do
    let (budget, amount) ← hive.computeCharge around c lease usage
    return ⟨budget.payer, amount, some (hive.remaining budget)⟩

/-- `delete from speech_reservations where card_id = …`. -/
def dropReservations (hive : Hive) (card : CardId) : Hive :=
  { hive with reservations := hive.reservations.keep fun row => row.card ≠ card }

/-- The wallet of a node's owner. -/
def nodeWallet (around : Surroundings) (nid : NodeId) : Option AccountId :=
  (around.node nid).bind fun n => n.member.bind around.memberWallet

/-- The debits of a charge and the credit of the node's owner, posted. -/
def pay (around : Surroundings) (hive : Hive) (payer : AccountId) (amount : Int) (card : CardId)
    (nid : NodeId) : Except CloudError Hive := do
  let debits ← splitDebit around.chart hive.ledger payer amount debitOrder
  let wallet ← orFail (nodeWallet around nid) (.violates "ledger_entries_account_id_not_null")
  hive.postTxn around (debits.map (fun d =>
      (⟨d.account, .spendJob, .debit, d.amount, d.source, some card⟩ : Posting)) ++
    [⟨wallet, .earnCompute, .credit, amount, .earned, some card⟩])

/-- The holds of a charge are given up just before it is posted; they must be as approved. -/
def releaseHolds (hive : Hive) (card : CardId) (charge : Charge) (missing : CloudError) :
    Except CloudError Hive :=
  match charge.held with
  | none => .ok hive
  | some held => do
    require (hive.heldFor card charge.payer = held) missing
    return hive.dropReservations card

def missingHold : Modality → CloudError
  | .speech => .raised "speech_reservation_missing"
  | _ => .raised "compute_reservation_missing"

/-- The body of the two completion functions. -/
def completeCard (around : Surroundings) (hive : Hive) (node? : Option NodeId) (card : CardId)
    (content : String) (usage : Usage) : Except CloudError (Hive × Int) := do
  let nid ← orFail node? invalidKey
  let lease ← orFail (hive.leaseOf card nid) noLease
  let c ← orFail (hive.cards.lookup card) (.violates "card_outputs_card_id_fkey")
  let p ← orFail (around.project c.projectId) (.violates "cards_project_id_fkey")
  let charge ← hive.charge around c p lease usage
  require (around.chart charge.payer).isSome (.raised "project_fund_not_found")
  let released ← (hive.insertOutput ⟨card, some nid, content⟩).releaseHolds card charge
    (missingHold c.modality)
  let balance := max (accountBalance released.ledger charge.payer around.now) 0
  require (¬ (p.executionMode = .hiveMode ∧ balance < charge.amount))
    (.raised "insufficient_compute_funds")
  let amount := min charge.amount balance
  let paid ← if 0 < amount then released.pay around charge.payer amount card nid else .ok released
  return ((paid.deleteLeases (·.card = card)).setStatus card .review, amount)

/-- `node_complete_card`. -/
def nodeCompleteCard (around : Surroundings) (hive : Hive) (rawKey : String) (card : CardId)
    (content : String) (usage : Usage) : Except CloudError (Hive × Int) :=
  hive.completeCard around (around.verifyNodeKey rawKey) card content usage

/-- `ctl_d_node_complete_card`. -/
def ctlDNodeCompleteCard (around : Surroundings) (hive : Hive) (rawKey : String) (card : CardId)
    (content : String) (usage : Usage) : Except CloudError (Hive × Int) :=
  hive.completeCard around (around.ctlDelegateNode rawKey) card content usage

end Completion

section Workers

/-- `node_checkpoint` and its delegated copy. -/
def checkpoint (around : Surroundings) (hive : Hive) (node? : Option NodeId) (card : CardId)
    (step : Int) (state : String) : Except CloudError Hive := do
  let nid ← orFail node? invalidKey
  let _ ← orFail (hive.leaseOf card nid) noLease
  let c ← orFail (hive.cards.lookup card) (.violates "checkpoints_card_id_fkey")
  return { hive with
    checkpoints := hive.checkpoints ++ [⟨card, nid, step, state⟩]
    leases := hive.leases.updateWhere (fun lease => lease.card = card && lease.node = nid)
      (fun lease => { lease with expiresAt := around.now + checkpointTtl c.modality })
      fun _ => rfl }

/-- `node_release_card` and its delegated copy; without a lease it does nothing. -/
def release (hive : Hive) (node? : Option NodeId) (card : CardId) : Except CloudError Hive := do
  let nid ← orFail node? invalidKey
  match hive.leaseOf card nid with
  | none => return hive
  | some _ => return (hive.deleteLeases (·.card = card)).readyAgain [card]

/-- `node_wait_on_child` and its delegated copy. -/
def waitOnChild (hive : Hive) (node? : Option NodeId) (card child : CardId) :
    Except CloudError Hive := do
  let nid ← orFail node? invalidKey
  let _ ← orFail (hive.leaseOf card nid) noLease
  require (hive.cards.rows.any fun row => row.id = child && row.parentCardId = some card)
    (.raised "not_a_child_of_this_card")
  return (hive.deleteLeases (·.card = card)).setStatus card .waitingOnChild

/-- `node_fail_card` and its delegated copy. -/
def failCard (hive : Hive) (node? : Option NodeId) (card : CardId) (reason : String) :
    Except CloudError Hive := do
  let nid ← orFail node? invalidKey
  let _ ← orFail (hive.leaseOf card nid) (.raised "no_owned_lease")
  return ((hive.deleteLeases (·.card = card)).setStatus card .blocked).insertOutput
    ⟨card, some nid, "FAILED: " ++ reason⟩

/-- `reap_expired_leases`. -/
def reapExpiredLeases (around : Surroundings) (hive : Hive) : Hive :=
  let expired (lease : Lease) : Bool := lease.expiresAt < around.now
  (hive.deleteLeases expired).readyAgain ((hive.leases.rows.filter expired).map Lease.card)

/-- The leases of nodes that neither work nor drain and have not been heard of. -/
def orphaned (around : Surroundings) (grace : Time) (lease : Lease) : Bool :=
  (around.node lease.node).any fun nd =>
    (nd.presence ≠ .checkedIn && nd.presence ≠ .draining) &&
      nd.lastHeartbeat.all (· < around.now - grace)

/-- `reap_orphaned_leases`. -/
def reapOrphanedLeases (around : Surroundings) (hive : Hive) (grace : Time) : Hive :=
  (hive.deleteLeases (orphaned around grace)).readyAgain
    ((hive.leases.rows.filter (orphaned around grace)).map Lease.card)

end Workers

section Admins

/-- The card that an admin of its project acts on. -/
def administered (around : Surroundings) (hive : Hive) (card : CardId) : Except CloudError Card := do
  let c ← orFail (hive.cards.lookup card) (.raised "not_project_admin")
  require (around.isProjectAdmin c.projectId) (.raised "not_project_admin")
  return c

/-- `card_accept`. -/
def cardAccept (around : Surroundings) (hive : Hive) (card : CardId) : Except CloudError Hive := do
  let c ← hive.administered around card
  if c.status = .review ∨ c.status = .running ∨ c.status = .blocked then
    return hive.setStatus card .done
  else return hive

/-- `card_send_back`. -/
def cardSendBack (around : Surroundings) (hive : Hive) (card : CardId) (note : String) :
    Except CloudError Hive := do
  let _ ← hive.administered around card
  let free := hive.deleteLeases (·.card = card)
  return { free with
    cards := free.cards.updateWhere (fun row => row.id = card)
      (fun row => { row with
        status := .ready
        inputs := if note = "" then row.inputs else row.inputs ++ "\n\nReviewer note: " ++ note })
      fun _ => rfl }

/-- `card_promote`. -/
def cardPromote (around : Surroundings) (hive : Hive) (card : CardId) : Except CloudError Hive := do
  let c ← hive.administered around card
  if c.status = .suggested then return hive.setStatus card .ready else return hive

end Admins

section Payers

def startable (status : CardStatus) : Bool :=
  status = .suggested || status = .ready || status = .blocked

/-- A limit that `freeze_compute_budget` takes: positive, finite, of six decimals. -/
def limitOf : Option Numeric → Except CloudError { limit : Int // 0 < limit }
  | some (.finite value) =>
    if exact : 0 < roundMicro value ∧ (roundMicro value : ℚ) = value then
      .ok ⟨roundMicro value, exact.1⟩
    else .error (.raised "invalid_compute_budget")
  | _ => .error (.raised "invalid_compute_budget")

/-- The current rates, if a budget can be frozen at them. -/
def currentRates (around : Surroundings) : Except CloudError (ℚ × ℚ) :=
  match around.inputRate.getD (.finite 0), around.outputRate with
  | .finite input, some (.finite output) => do
    require (0 ≤ input ∧ 0 < output) (.raised "compute_rate_not_configured")
    return (input, output)
  | _, _ => .error (.raised "compute_rate_not_configured")

/-- `freeze_compute_budget`; a replacement sets the time of the row that it gets. -/
def freezeComputeBudget (around : Surroundings) (hive : Hive) (card : CardId) (payer : AccountId)
    (limit : Option Numeric) (session : Option Uuid) (approvedAt : Time) :
    Except CloudError Hive := do
  let limit ← limitOf limit
  let c ← orFail (hive.cards.lookup card) (.raised "unsupported_compute_card")
  require (c.modality = .text ∨ c.modality = .code) (.raised "unsupported_compute_card")
  match hive.approvals.lookup card with
  | some q =>
    require (some q.approvedBy = around.user ∧ q.payer = payer ∧ q.limit = limit.1 ∧
        q.session = session ∧ q.inputHash = around.inputHash c)
      (.raised "compute_budget_already_approved")
    return hive
  | none =>
    require (startable c.status ∧ (hive.leases.lookup card).isNone)
      (.raised "compute_card_already_started")
    let rates ← currentRates around
    let user ← orFail around.user (.violates "compute_card_budgets_approved_by_not_null")
    let approvals ← orFail
      (hive.approvals.insert?
        { card, approvedBy := user, payer, limit := limit.1, inputRate := rates.1,
          outputRate := rates.2, inputHash := around.inputHash c, session, approvedAt,
          positive := limit.2 })
      (.violates "compute_card_budgets_pkey")
    return { hive with approvals }

/-- The project of a card whose budget its owner may set. -/
def ownedProject (around : Surroundings) (hive : Hive) (card : CardId) :
    Except CloudError (Card × Project) := do
  require around.isMember (.raised "not_a_member")
  let c ← orFail (hive.cards.lookup card) (.raised "not_owned_hive_card")
  let p ← orFail (around.project c.projectId) (.raised "not_owned_hive_card")
  require (some p.owner = around.user ∧ p.executionMode = .hiveMode ∧ ¬ p.deleted)
    (.raised "not_owned_hive_card")
  return (c, p)

/-- `hive_compute_budget_approve`. -/
def computeBudgetApprove (around : Surroundings) (hive : Hive) (card : CardId)
    (limit : Option Numeric) : Except CloudError Hive := do
  let (_, p) ← hive.ownedProject around card
  hive.freezeComputeBudget around card p.fundAccount limit none around.now

/-- A new limit above what was spent. -/
def exceeds (limit : Option Numeric) (spent : Int) : Bool :=
  match limit with
  | some (.finite value) => (spent : ℚ) < value
  | _ => false

/-- `hive_compute_budget_replace`. -/
def computeBudgetReplace (around : Surroundings) (hive : Hive) (card : CardId)
    (limit : Option Numeric) (expectedApproval : Time) (expectedHash : String) :
    Except CloudError Hive := do
  let (c, p) ← hive.ownedProject around card
  let b ← orFail (hive.approvals.lookup card) (.raised "replace_project_budget_only")
  require b.session.isNone (.raised "replace_project_budget_only")
  require (b.approvedAt = expectedApproval ∧ around.inputHash c = expectedHash)
    (.raised "budget_changed_refresh_required")
  require (startable c.status ∧ (hive.leases.lookup card).isNone ∧
      ¬ hive.reservations.rows.any (·.card = card))
    (.raised "compute_card_already_started")
  require (exceeds limit (spentOn hive.entries card)) (.raised "limit_must_exceed_spent")
  { hive with approvals := hive.approvals.keep (·.card ≠ card) }.freezeComputeBudget around card
    p.fundAccount limit none around.clockTimestamp

/-- `speech_price_card`. -/
def speechPriceCard (around : Surroundings) (hive : Hive) (card : CardId) (rateId : Uuid)
    (maxSeconds maxHoney : Numeric) : Except CloudError Hive := do
  let (c, p) ← hive.ownedProject around card
  require (c.modality = .speech) (.raised "not_owned_hive_speech_card")
  match maxSeconds, maxHoney with
  | .finite seconds, .finite honey =>
    require (0 < seconds ∧ seconds ≤ 600 ∧ 0 < honey) (.raised "invalid_speech_budget")
    match hive.prices.lookup card with
    | some q =>
      require (q.rateId = rateId ∧ q.maxSeconds = seconds ∧ (q.maxHoney : ℚ) ≤ honey ∧
          q.inputHash = around.inputHash c)
        (.raised "speech_price_already_approved")
      return hive
    | none =>
      require (startable c.status ∧ (hive.leases.lookup card).isNone)
        (.raised "speech_card_already_started")
      let rate ← orFail around.speechRate (.raised "speech_rate_not_configured")
      require (rate.1 = rateId) (.raised "speech_rate_changed_review_again")
      if positive : 0 < roundMicro (seconds * rate.2) then
        require ((roundMicro (seconds * rate.2) : ℚ) ≤ honey) (.raised "speech_budget_exceeded")
        let prices ← orFail
          (hive.prices.insert?
            { card, rateId, approvedBy := p.owner, honeyPerSecond := rate.2, maxSeconds := seconds,
              maxHoney := roundMicro (seconds * rate.2), inputHash := around.inputHash c,
              positive })
          (.violates "speech_card_prices_pkey")
        return { hive with prices }
      else .error (.raised "speech_budget_exceeded")
  | _, _ => .error (.raised "invalid_speech_budget")

/-- The insertion of a card, by whatever function plans or spawns it. -/
def createCard (hive : Hive) (new : NewCard) : Except CloudError Hive := do
  let cards ← orFail (hive.cards.insert? new.card) (.violates "cards_pkey")
  return { hive with cards }

/-- The card, the budget and the early check of `hive_interview_send_funded`. -/
def interviewSendFunded (around : Surroundings) (hive : Hive) (new : NewCard) (session : Uuid)
    (limit : Option Numeric) : Except CloudError Hive := do
  require around.isMember (.raised "not_a_member")
  let created ← hive.createCard new
  let payer ← orFail (around.user.bind around.memberWallet)
    (.violates "compute_card_budgets_payer_account_id_not_null")
  let frozen ←
    created.freezeComputeBudget around new.card.id payer limit (some session) around.now
  let limit ← limitOf limit
  let _ ← splitDebit around.chart frozen.ledger payer limit.1 debitOrder
  return frozen

end Payers

end Hive

section Runs

/-- The calls on the cloud's cards. A posting stands for the other callers of `post_txn`. -/
inductive Op where
  | nodeClaimCard (rawKey : String)
  | ctlPilotClaim (rawKey : String) (pilotProject : ProjectId) (candidate : CardId)
  | ctlDCtlPilotClaim (rawKey : String) (pilotProject : ProjectId) (candidate : CardId)
  | nodeCheckpoint (rawKey : String) (card : CardId) (step : Int) (state : String)
  | ctlDNodeCheckpoint (rawKey : String) (card : CardId) (step : Int) (state : String)
  | nodeCompleteCard (rawKey : String) (card : CardId) (content : String) (usage : Usage)
  | ctlDNodeCompleteCard (rawKey : String) (card : CardId) (content : String) (usage : Usage)
  | nodeReleaseCard (rawKey : String) (card : CardId)
  | ctlDNodeReleaseCard (rawKey : String) (card : CardId)
  | nodeWaitOnChild (rawKey : String) (card child : CardId)
  | ctlDNodeWaitOnChild (rawKey : String) (card child : CardId)
  | nodeFailCard (rawKey : String) (card : CardId) (reason : String)
  | ctlDNodeFailCard (rawKey : String) (card : CardId) (reason : String)
  | reapExpiredLeases
  | reapOrphanedLeases (grace : Time)
  | cardAccept (card : CardId)
  | cardSendBack (card : CardId) (note : String)
  | cardPromote (card : CardId)
  | computeBudgetApprove (card : CardId) (limit : Option Numeric)
  | computeBudgetReplace (card : CardId) (limit : Option Numeric) (expectedApproval : Time)
      (expectedHash : String)
  | interviewSendFunded (new : NewCard) (session : Uuid) (limit : Option Numeric)
  | speechPriceCard (card : CardId) (rateId : Uuid) (maxSeconds maxHoney : Numeric)
  | createCard (new : NewCard)
  | post (postings : List Hive.Posting) (cardless : ∀ posting ∈ postings, posting.card? = none)

/-- A call with what it finds outside the store. -/
structure Event where
  around : Surroundings
  op : Op

/-- What an event's call makes of the store. -/
def Event.reply (event : Event) (hive : Hive) : Except CloudError Hive :=
  let around := event.around
  match event.op with
  | .nodeClaimCard rawKey => (hive.nodeClaimCard around rawKey).map Prod.fst
  | .ctlPilotClaim rawKey project candidate =>
    (hive.ctlPilotClaim around rawKey project candidate).map Prod.fst
  | .ctlDCtlPilotClaim rawKey project candidate =>
    (hive.ctlDCtlPilotClaim around rawKey project candidate).map Prod.fst
  | .nodeCheckpoint rawKey card step state =>
    hive.checkpoint around (around.verifyNodeKey rawKey) card step state
  | .ctlDNodeCheckpoint rawKey card step state =>
    hive.checkpoint around (around.ctlDelegateNode rawKey) card step state
  | .nodeCompleteCard rawKey card content usage =>
    (hive.nodeCompleteCard around rawKey card content usage).map Prod.fst
  | .ctlDNodeCompleteCard rawKey card content usage =>
    (hive.ctlDNodeCompleteCard around rawKey card content usage).map Prod.fst
  | .nodeReleaseCard rawKey card => hive.release (around.verifyNodeKey rawKey) card
  | .ctlDNodeReleaseCard rawKey card => hive.release (around.ctlDelegateNode rawKey) card
  | .nodeWaitOnChild rawKey card child =>
    hive.waitOnChild (around.verifyNodeKey rawKey) card child
  | .ctlDNodeWaitOnChild rawKey card child =>
    hive.waitOnChild (around.ctlDelegateNode rawKey) card child
  | .nodeFailCard rawKey card reason => hive.failCard (around.verifyNodeKey rawKey) card reason
  | .ctlDNodeFailCard rawKey card reason =>
    hive.failCard (around.ctlDelegateNode rawKey) card reason
  | .reapExpiredLeases => .ok (hive.reapExpiredLeases around)
  | .reapOrphanedLeases grace => .ok (hive.reapOrphanedLeases around grace)
  | .cardAccept card => hive.cardAccept around card
  | .cardSendBack card note => hive.cardSendBack around card note
  | .cardPromote card => hive.cardPromote around card
  | .computeBudgetApprove card limit => hive.computeBudgetApprove around card limit
  | .computeBudgetReplace card limit expectedApproval expectedHash =>
    hive.computeBudgetReplace around card limit expectedApproval expectedHash
  | .interviewSendFunded new session limit => hive.interviewSendFunded around new session limit
  | .speechPriceCard card rateId maxSeconds maxHoney =>
    hive.speechPriceCard around card rateId maxSeconds maxHoney
  | .createCard new => hive.createCard new
  | .post postings _ => hive.postTxn around postings

/-- A call that raises changes nothing. -/
def Hive.step (hive : Hive) (event : Event) : Hive :=
  match event.reply hive with
  | .ok next => next
  | .error _ => hive

def Hive.empty : Hive where
  cards := .empty
  leases := .empty
  outputs := []
  checkpoints := []
  approvals := .empty
  prices := .empty
  reservations := .empty
  entries := []
  balances := .empty
  archiveLog := .empty

/-- The store after the first events of a run. -/
def hiveAt (events : List Event) : Nat → Hive := stateAt Hive.step Hive.empty events

end Runs

end OHHive.Cloud
