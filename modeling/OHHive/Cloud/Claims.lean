import Mathlib.Data.List.Sort
import OHHive.Cloud.Funding

/-! The three claim functions: which card a node is given, and the lease that it gets. -/

namespace OHHive.Cloud

open Foundation

/-- The lease time of a claim, in microseconds. -/
def claimTtl : Modality → Time
  | .video => 90 * 60000000
  | .image => 20 * 60000000
  | .music => 30 * 60000000
  | .code => 4 * 3600000000
  | _ => 15 * 60000000

/-- What a claim answers. -/
inductive ClaimReply where
  | notCheckedIn
  | alreadyLeased
  | nothingToDo
  | leased (card : Card) (expiresAt : Time)
deriving DecidableEq

namespace Hive

section Selection

/-- The conditions that the three claim queries share. -/
def claimable (around : Surroundings) (hive : Hive) (n : Node) (c : Card) (p : Project) : Bool :=
  !p.deleted && c.status = .ready &&
    (!c.requiredCapabilities.declaresAcceptance || n.runsAcceptance) &&
    (hive.leases.lookup c.id).isNone &&
    n.modalities.contains c.modality &&
    (!(c.requiresInternet || p.requiresInternet) || n.allowInternet) &&
    (c.requiredCapabilities.toolsLevel.getD "inference_only" = "inference_only" ||
      n.sandboxedTools) &&
    c.requiredCapabilities.modelId.all n.models.contains &&
    ((p.executionMode = .localMode && n.member = some p.owner) ||
      (p.executionMode = .hiveMode && hive.cardHasFundedBudget around c)) &&
    c.deps.all (fun key => hive.cards.rows.any fun dep =>
      dep.projectId = c.projectId && dep.key = key && finished dep.status) &&
    c.requiredCapabilities.mcpServerId.all (fun server =>
      n.member = some p.owner && n.sandboxedTools && around.mcpServerEnabled server p.owner) &&
    (c.modality ≠ .code || (p.executionMode = .localMode && n.sandboxedTools))

/-- The condition of `node_claim_card` alone. -/
def targets (node : NodeId) (c : Card) : Bool :=
  c.requiredCapabilities.targetNodeId.all (· = toString node)

/-- The condition of the pilot claims alone. -/
def piloted (project : ProjectId) (candidate : CardId) (c : Card) (p : Project) : Bool :=
  c.projectId = project && c.id = candidate && p.executionMode = .hiveMode

/-- `order by c.priority desc, c.order_index, c.created_at`. -/
def precedes (first second : Card) : Bool :=
  second.priority < first.priority || (first.priority = second.priority &&
    (first.orderIndex < second.orderIndex || (first.orderIndex = second.orderIndex &&
      first.createdAt ≤ second.createdAt)))

/-- The card that a claim query gives, with its project. -/
def select (around : Surroundings) (hive : Hive) (n : Node) (own : Card → Project → Bool) :
    Option (Card × Project) :=
  let fits (c : Card) : Option (Card × Project) :=
    (around.project c.projectId).bind fun p =>
      if own c p && hive.claimable around n c p then some (c, p) else none
  ((hive.cards.rows.filterMap fits).mergeSort fun first second => precedes first.1 second.1).head?

end Selection

section Claims

/-- The body of the claim functions. -/
def claim (around : Surroundings) (hive : Hive) (node? : Option NodeId)
    (own : NodeId → Card → Project → Bool) : Except CloudError (Hive × ClaimReply) := do
  let nid ← orFail node? (.raised "invalid_or_revoked_node_key")
  let n ← orFail (around.node nid) (.violates "nodes_pkey")
  if n.presence ≠ .checkedIn then return (hive, .notCheckedIn)
  if hive.leases.rows.any fun lease => lease.node = nid then return (hive, .alreadyLeased)
  match hive.select around n (own nid) with
  | none => return (hive, .nothingToDo)
  | some (card, p) =>
    let expiresAt := around.now + claimTtl card.modality
    let leased ← hive.insertLease around card p ⟨card.id, nid, expiresAt⟩
    return (leased.setStatus card.id .running, .leased card expiresAt)

/-- `node_claim_card`. -/
def nodeClaimCard (around : Surroundings) (hive : Hive) (rawKey : String) :
    Except CloudError (Hive × ClaimReply) :=
  hive.claim around (around.verifyNodeKey rawKey) fun nid c _ => targets nid c

/-- `ctl_pilot_claim`. -/
def ctlPilotClaim (around : Surroundings) (hive : Hive) (rawKey : String)
    (pilotProject : ProjectId) (candidate : CardId) : Except CloudError (Hive × ClaimReply) :=
  hive.claim around (around.verifyNodeKey rawKey) fun _ => piloted pilotProject candidate

/-- `ctl_d_ctl_pilot_claim`. -/
def ctlDCtlPilotClaim (around : Surroundings) (hive : Hive) (rawKey : String)
    (pilotProject : ProjectId) (candidate : CardId) : Except CloudError (Hive × ClaimReply) :=
  hive.claim around (around.ctlDelegateNode rawKey) fun _ => piloted pilotProject candidate

end Claims

end Hive

end OHHive.Cloud
