import Mathlib.Data.List.Destutter
import OHHive.AgentTools.Authority

/-! What the owner of an agent grants its tools: a policy is replaced as a whole under its revision,
and two operations on the host add to it. -/

namespace OHHive.AgentTools

open Foundation
open Bots (AgentId)
open Coder (byteLength)
open Fleet (withNode)
open Vault (trim)

section Lists

variable {α : Type} [DecidableEq α]

/-- `sort` and `dedup`. -/
def sorted (order : α → α → Prop) [DecidableRel order] (items : List α) : List α :=
  (items.insertionSort order).destutter (· ≠ ·)

theorem mem_destutter'_ne {items : List α} {first item : α} :
    item ∈ items.destutter' (· ≠ ·) first ↔ item ∈ first :: items := by
  induction items generalizing first with
  | nil => rw [List.destutter'_nil]
  | cons next items ih =>
    by_cases same : first = next
    · rw [List.destutter'_cons_neg _ (not_not.mpr same), ih, same]
      simp
    · rw [List.destutter'_cons_pos _ same, List.mem_cons, ih]
      simp

@[simp] theorem mem_sorted {order : α → α → Prop} [DecidableRel order] {items : List α} {item : α} :
    item ∈ sorted order items ↔ item ∈ items := by
  have kept : item ∈ items.insertionSort order ↔ item ∈ items := List.mem_insertionSort order
  rw [← kept, sorted]
  cases items.insertionSort order with
  | nil => rfl
  | cons first rest => exact mem_destutter'_ne

theorem length_sorted_le (order : α → α → Prop) [DecidableRel order] (items : List α) :
    (sorted order items).length ≤ items.length := by
  have shorter := (List.destutter_sublist (· ≠ ·) (items.insertionSort order)).length_le
  rwa [List.length_insertionSort] at shorter

def sortedIds (ids : List Uuid) : List Uuid :=
  sorted (fun first second => first.value ≤ second.value) ids

def sortedTexts (texts : List Text) : List Text := sorted (· ≤ ·) texts

end Lists

section Checks

/-- A check of every entry passes where each does. -/
theorem forM_eq_ok_iff {α ε : Type} {check : α → Except ε Unit} {items : List α} :
    items.forM check = .ok () ↔ ∀ item ∈ items, check item = .ok () := by
  induction items with
  | nil => exact ⟨fun _ => nofun, fun _ => rfl⟩
  | cons first rest ih =>
    rw [List.forall_mem_cons]
    change (check first >>= fun _ => rest.forM check) = .ok () ↔ _
    rw [bind_eq_ok_iff]
    constructor
    · intro ⟨_, passed, others⟩
      exact ⟨passed, ih.mp others⟩
    · intro ⟨passed, others⟩
      exact ⟨(), passed, ih.mpr others⟩

/-- A rewriting check leaves a list as it is where it leaves each entry so. -/
theorem mapM_eq_self {α ε : Type} {check : α → Except ε α} {items : List α}
    (kept : ∀ item ∈ items, check item = .ok item) : items.mapM check = .ok items := by
  induction items with
  | nil => rfl
  | cons first rest ih =>
    obtain ⟨passed, others⟩ := List.forall_mem_cons.mp kept
    rw [List.mapM_cons, passed, ok_bind, ih others]
    rfl

end Checks

section Hosts

/-- A host name: labels of lowercase letters, digits and `-`; the loopback has a name as well. -/
def validWebHost (host : Text) : Bool :=
  host = "localhost".toList ||
    byteLength host ≤ 253 && host ≠ [] && host.head? ≠ some '.' && host.getLast? ≠ some '.' &&
      !host.tails.any ("..".toList.isPrefixOf ·) && 2 ≤ (host.splitOn '.').length &&
      host.all (fun char => char.isLower || char.isDigit || char = '-' || char = '.') &&
      !(host.splitOn '.').all fun label => label.all Char.isDigit

def bareHost (message : String) (host : Text) : Result Text := do
  let host := (trim host).map Char.toLower
  require (validWebHost host) (rejected message)
  return host

def webHostMessage : String := "web hosts must be bare lowercase host names like example.org"

def webPostHostMessage : String :=
  "web post hosts must be bare lowercase host names like example.org"

/-- A list of hosts on the wire. -/
def checkedHosts (limit message : String) (hosts : List Text) : Result (List Text) := do
  require (hosts.length ≤ 32) (rejected limit)
  let hosts ← hosts.mapM (bareHost message)
  return sortedTexts hosts

end Hosts

section Requests

/-- A policy with the template it was made from, which authorizes nothing. -/
structure SavedPolicy extends AgentToolPolicy where
  template : Option Text
deriving DecidableEq, Repr

def SavedPolicy.default : SavedPolicy := ⟨AgentToolPolicy.default, none⟩

def agentTemplates : List Text :=
  ["assistant-v1", "researcher-v1", "librarian-v1", "developer-v1", "reviewer-v1", "integrator-v1",
    "coordinator-v1", "tester-v1", "designer-v1", "fleet-operator-v1"].map String.toList

/-- A field that may be left out is checked where it is there. -/
def optionally {α β : Type} (check : α → Result β) : Option α → Result (Option β)
  | none => .ok none
  | some value => some <$> check value

def checkedIds (limit : String) (ids : List Uuid) : Result (List Uuid) := do
  require (ids.length ≤ 32) (rejected limit)
  return sortedIds ids

def checkedTargets (agent : AgentId) (targets : List AgentId) : Result (List AgentId) := do
  require (targets.length ≤ 32) (rejected "select at most 32 handoff targets")
  require (agent ∉ targets) (rejected "an agent cannot be its own handoff target")
  return sortedIds targets

/-- The part of `bots_agent_tool_policy_set` before its transaction. -/
def SavedPolicy.checked (next : SavedPolicy) (agent : AgentId) : Result SavedPolicy := do
  require (next.readableVaults.length ≤ 32) (rejected "select at most 32 libraries")
  require (∀ template ∈ next.template, template ∈ agentTemplates)
    (rejected "unknown agent template")
  let writableVaults? ←
    optionally (checkedIds "select at most 32 save collections") next.writableVaults?
  let webHosts? ←
    optionally (checkedHosts "select at most 32 web hosts" webHostMessage) next.webHosts?
  let webPostHosts? ←
    optionally (checkedHosts "select at most 32 web post hosts" webPostHostMessage)
      next.webPostHosts?
  let handoffTargets? ← optionally (checkedTargets agent) next.handoffTargets?
  return ⟨⟨next.revision, sortedIds next.readableVaults, writableVaults?, webHosts?, webPostHosts?,
    handoffTargets?⟩, next.template⟩

/-- A list that was left out stays as it is saved. -/
def SavedPolicy.completed (next previous : SavedPolicy) : SavedPolicy :=
  { next with
    writableVaults? := some (next.writableVaults?.getD previous.writableVaults)
    webHosts? := some (next.webHosts?.getD previous.webHosts)
    webPostHosts? := some (next.webPostHosts?.getD previous.webPostHosts)
    handoffTargets? := some (next.handoffTargets?.getD previous.handoffTargets) }

/-- `checked_add` on a `u32`. -/
def nextRevision (revision : Nat) : Result Nat := do
  require (revision < 2 ^ 32 - 1) (rejected "policy revision exhausted")
  return revision + 1

end Requests

section Store

/-- The world of the tools, with the columns that only the owner's operations look at. -/
structure PolicyHub where
  world : World
  templates : AgentId → Option Text
  roleRevisions : AgentId → Nat

variable (hub : PolicyHub) (agent : AgentId)

def PolicyHub.saved : SavedPolicy := ⟨hub.world.policy agent, hub.templates agent⟩

/-- The upsert of a policy; the agent's role revision counts it. -/
def PolicyHub.store (policy : SavedPolicy) : PolicyHub where
  world := { hub.world with
    policies := Function.update hub.world.policies agent (some policy.toAgentToolPolicy) }
  templates := Function.update hub.templates agent policy.template
  roleRevisions := Function.update hub.roleRevisions agent (hub.roleRevisions agent + 1)

/-- Another agent that is not archived. -/
def World.activeAgent (world : World) (agent : AgentId) : Prop :=
  ∃ profile ∈ world.book.store.agent? agent, profile.archived = false

instance (world : World) : Decidable (world.activeAgent agent) := by
  unfold World.activeAgent
  infer_instance

def ownedAgent (world : World) : Result Unit :=
  require (world.book.store.agent? agent).isSome (rejected "agent not found")

/-- Every entry of the policy is looked up, those that were there before too. -/
def validateEntries (node : Uuid) (next : SavedPolicy) : Result Unit := do
  next.readableVaults.forM fun vault =>
    require (hub.world.catalog.db.vaults.lookup vault).isSome (rejected "library not found")
  next.writableVaults.forM fun vault => saveAccess hub.world node agent vault
  next.handoffTargets.forM fun target =>
    require (hub.world.activeAgent target) (rejected "handoff target agent not found")

def botsAgentToolPolicySet (keyHash : Text) (next : SavedPolicy) :
    Result (PolicyHub × SavedPolicy) := do
  let next ← next.checked agent
  let node ← withNode hub.world.fleet keyHash
  ownerCheck hub.world node agent
  let previous := hub.saved agent
  require (next.revision = previous.revision)
    (rejected "Tool access changed. Reload before saving.")
  let next := next.completed previous
  validateEntries hub agent node next
  let revision ← nextRevision next.revision
  let next := { next with revision }
  return (hub.store agent next, next)

/-- `bots_agent_web_post_hosts_grant_local`. -/
def botsAgentWebPostHostsGrantLocal (hosts : List Text) : Result (PolicyHub × List Text) := do
  let hosts ← hosts.mapM (bareHost webPostHostMessage)
  ownedAgent agent hub.world
  let current := hub.saved agent
  let merged := sortedTexts (current.webPostHosts ++ hosts)
  require (merged.length ≤ 32) (rejected "select at most 32 web post hosts")
  let revision ← nextRevision current.revision
  return (hub.store agent { current with webPostHosts? := some merged, revision }, merged)

/-- `bots_agent_handoff_targets_grant_local`. -/
def botsAgentHandoffTargetsGrantLocal (targets : List AgentId) :
    Result (PolicyHub × List AgentId) := do
  ownedAgent agent hub.world
  targets.forM fun target => do
    require (target ≠ agent) (rejected "an agent cannot be its own handoff target")
    require (hub.world.activeAgent target) (rejected "handoff target agent not found")
  let current := hub.saved agent
  let merged := sortedIds (current.handoffTargets ++ targets)
  require (merged.length ≤ 32) (rejected "select at most 32 handoff targets")
  let revision ← nextRevision current.revision
  return (hub.store agent { current with handoffTargets? := some merged, revision }, merged)

def botsAgentToolPolicyGet (keyHash : Text) : Result SavedPolicy := do
  let node ← withNode hub.world.fleet keyHash
  ownerCheck hub.world node agent
  return hub.saved agent

end Store

section Runs

/-- A transaction on the policies, or whatever the rest of the hub does to the other tables. -/
inductive PolicyOp where
  | get (keyHash : Text) (agent : AgentId)
  | set (keyHash : Text) (agent : AgentId) (next : SavedPolicy)
  | grantHosts (agent : AgentId) (hosts : List Text)
  | grantTargets (agent : AgentId) (targets : List AgentId)
  | elsewhere (world : World) (roleRevisions : AgentId → Nat)

def PolicyOp.reply (hub : PolicyHub) : PolicyOp → Result PolicyHub
  | .get keyHash agent => (fun _ => hub) <$> botsAgentToolPolicyGet hub agent keyHash
  | .set keyHash agent next => Prod.fst <$> botsAgentToolPolicySet hub agent keyHash next
  | .grantHosts agent hosts => Prod.fst <$> botsAgentWebPostHostsGrantLocal hub agent hosts
  | .grantTargets agent targets => Prod.fst <$> botsAgentHandoffTargetsGrantLocal hub agent targets
  | .elsewhere world roleRevisions =>
    .ok { hub with world := { world with policies := hub.world.policies }, roleRevisions }

/-- A transaction that fails is rolled back. -/
def PolicyHub.step (hub : PolicyHub) (op : PolicyOp) : PolicyHub :=
  (op.reply hub).toOption.getD hub

/-- A hub on which no policy was saved yet. -/
def PolicyHub.new (world : World) (roleRevisions : AgentId → Nat) : PolicyHub :=
  ⟨{ world with policies := fun _ => none }, fun _ => none, roleRevisions⟩

abbrev policiesAt (start : PolicyHub) (ops : List PolicyOp) (moment : Nat) : PolicyHub :=
  stateAt PolicyHub.step start ops moment

end Runs

end OHHive.AgentTools
