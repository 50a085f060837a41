import OHHive.AgentTools.Policies

/-! Updates of a tool policy are not lost, in any interleaving of editors and grants. -/

namespace OHHive.AgentTools

open Foundation
open Bots (AgentId)

section Store

variable (hub : PolicyHub) (agent : AgentId) (policy : SavedPolicy)

@[simp] theorem saved_store : (hub.store agent policy).saved agent = policy := by
  simp [PolicyHub.store, PolicyHub.saved, World.policy]

theorem saved_store_of_ne {other : AgentId} (apart : other ≠ agent) :
    (hub.store agent policy).saved other = hub.saved other := by
  simp [PolicyHub.store, PolicyHub.saved, World.policy, apart]

theorem roleRevisions_store :
    (hub.store agent policy).roleRevisions agent = hub.roleRevisions agent + 1 :=
  Function.update_self _ _ _

end Store

section Steps

variable {hub next : PolicyHub} {agent : AgentId} {op : PolicyOp}

/-- The agent whose policy a transaction would write. -/
def PolicyOp.agent? : PolicyOp → Option AgentId
  | .set _ agent _ | .grantHosts agent _ | .grantTargets agent _ => some agent
  | .get .. | .elsewhere .. => none

theorem revision_of_checked {request checked : SavedPolicy}
    (made : request.checked agent = .ok checked) : checked.revision = request.revision := by
  unfold SavedPolicy.checked at made
  obtain ⟨_, _, made⟩ := bind_eq_ok_iff.mp made
  obtain ⟨_, _, made⟩ := bind_eq_ok_iff.mp made
  obtain ⟨_, _, made⟩ := bind_eq_ok_iff.mp made
  obtain ⟨_, _, made⟩ := bind_eq_ok_iff.mp made
  obtain ⟨_, _, made⟩ := bind_eq_ok_iff.mp made
  obtain ⟨_, _, made⟩ := bind_eq_ok_iff.mp made
  rw [← pure_eq_ok_iff.mp made]

theorem of_nextRevision {revision following : Nat} (done : nextRevision revision = .ok following) :
    following = revision + 1 := by
  obtain ⟨_, _, done⟩ := bind_eq_ok_iff.mp done
  exact (pure_eq_ok_iff.mp done).symm

/-- The policy that an operation makes of the one that is saved. -/
inductive Makes (current : SavedPolicy) (agent : AgentId) : PolicyOp → SavedPolicy → Prop
  | set (keyHash : Text) (request checked : SavedPolicy)
      (made : request.checked agent = .ok checked) (read : request.revision = current.revision) :
      Makes current agent (.set keyHash agent request)
        { checked.completed current with revision := current.revision + 1 }
  | hosts (hosts granted : List Text)
      (made : hosts.mapM (bareHost webPostHostMessage) = .ok granted)
      (room : (sortedTexts (current.webPostHosts ++ granted)).length ≤ 32) :
      Makes current agent (.grantHosts agent hosts)
        { current with
          webPostHosts? := some (sortedTexts (current.webPostHosts ++ granted))
          revision := current.revision + 1 }
  | targets (targets : List AgentId) (others : agent ∉ targets)
      (room : (sortedIds (current.handoffTargets ++ targets)).length ≤ 32) :
      Makes current agent (.grantTargets agent targets)
        { current with
          handoffTargets? := some (sortedIds (current.handoffTargets ++ targets))
          revision := current.revision + 1 }

theorem Makes.revision {current policy : SavedPolicy} (makes : Makes current agent op policy) :
    policy.revision = current.revision + 1 := by
  cases makes <;> rfl

/-- An operation that goes through writes the policy of its agent. -/
theorem makes_of_reply (writes : op.agent? = some agent) (done : op.reply hub = .ok next) :
    ∃ policy, next = hub.store agent policy ∧ Makes (hub.saved agent) agent op policy := by
  cases op with
  | get keyHash reader => cases writes
  | elsewhere world roleRevisions => cases writes
  | set keyHash writer request =>
    obtain rfl := Option.some.inj writes
    obtain ⟨⟨_, stored⟩, answered, rfl⟩ := map_eq_ok_iff.mp done
    obtain ⟨checked, made, answered⟩ := bind_eq_ok_iff.mp answered
    obtain ⟨node, _, answered⟩ := bind_eq_ok_iff.mp answered
    obtain ⟨_, _, answered⟩ := bind_eq_ok_iff.mp answered
    obtain ⟨_, same, answered⟩ := bind_eq_ok_iff.mp answered
    obtain ⟨_, _, answered⟩ := bind_eq_ok_iff.mp answered
    obtain ⟨revision, counted, answered⟩ := bind_eq_ok_iff.mp answered
    obtain ⟨rfl, _⟩ := Prod.mk.inj (pure_eq_ok_iff.mp answered)
    have same := require_eq_ok_iff.mp same
    obtain rfl := of_nextRevision counted
    refine ⟨_, rfl, ?_⟩
    change Makes _ _ _
      { checked.completed (hub.saved writer) with revision := checked.revision + 1 }
    rw [same]
    exact .set keyHash request checked made ((revision_of_checked made).symm.trans same)
  | grantHosts writer hosts =>
    obtain rfl := Option.some.inj writes
    obtain ⟨⟨_, merged⟩, answered, rfl⟩ := map_eq_ok_iff.mp done
    obtain ⟨granted, made, answered⟩ := bind_eq_ok_iff.mp answered
    obtain ⟨_, _, answered⟩ := bind_eq_ok_iff.mp answered
    obtain ⟨_, room, answered⟩ := bind_eq_ok_iff.mp answered
    obtain ⟨revision, counted, answered⟩ := bind_eq_ok_iff.mp answered
    obtain ⟨rfl, _⟩ := Prod.mk.inj (pure_eq_ok_iff.mp answered)
    obtain rfl := of_nextRevision counted
    exact ⟨_, rfl, .hosts hosts granted made (require_eq_ok_iff.mp room)⟩
  | grantTargets writer targets =>
    obtain rfl := Option.some.inj writes
    obtain ⟨⟨_, merged⟩, answered, rfl⟩ := map_eq_ok_iff.mp done
    obtain ⟨_, _, answered⟩ := bind_eq_ok_iff.mp answered
    obtain ⟨_, looked, answered⟩ := bind_eq_ok_iff.mp answered
    obtain ⟨_, room, answered⟩ := bind_eq_ok_iff.mp answered
    obtain ⟨revision, counted, answered⟩ := bind_eq_ok_iff.mp answered
    obtain ⟨rfl, _⟩ := Prod.mk.inj (pure_eq_ok_iff.mp answered)
    obtain rfl := of_nextRevision counted
    refine ⟨_, rfl, .targets targets (fun member => ?_) (require_eq_ok_iff.mp room)⟩
    obtain ⟨_, other, _⟩ := bind_eq_ok_iff.mp (forM_eq_ok_iff.mp looked writer member)
    exact require_eq_ok_iff.mp other rfl

theorem step_of_error {error : HubError} (refused : op.reply hub = .error error) :
    hub.step op = hub := by
  rw [PolicyHub.step, refused]
  rfl

theorem step_of_ok (done : op.reply hub = .ok next) : hub.step op = next := by
  rw [PolicyHub.step, done]
  rfl

/-- The other transactions leave every policy as it is. -/
theorem saved_of_none (none : op.agent? = none) : (hub.step op).saved agent = hub.saved agent := by
  cases reply : op.reply hub with
  | error error => rw [step_of_error reply]
  | ok next =>
    rw [step_of_ok reply]
    cases op with
    | get keyHash reader =>
      obtain ⟨_, _, rfl⟩ := map_eq_ok_iff.mp reply
      rfl
    | elsewhere world roleRevisions =>
      obtain rfl := Except.ok.inj reply
      rfl
    | set keyHash writer request => cases none
    | grantHosts writer hosts => cases none
    | grantTargets writer targets => cases none

/-- What a transaction does to the policy of one agent. -/
inductive PolicyEffect (hub : PolicyHub) (op : PolicyOp) (agent : AgentId) : Prop
  | kept (same : (hub.step op).saved agent = hub.saved agent)
      (rest : ∀ next, op.reply hub = .ok next → op.agent? ≠ some agent)
  | made (next : PolicyHub) (policy : SavedPolicy) (done : op.reply hub = .ok next)
      (writes : op.agent? = some agent) (makes : Makes (hub.saved agent) agent op policy)
      (stored : hub.step op = hub.store agent policy)

theorem policyEffect (hub : PolicyHub) (op : PolicyOp) (agent : AgentId) :
    PolicyEffect hub op agent := by
  cases reply : op.reply hub with
  | error error => exact .kept (by rw [step_of_error reply]) (by rw [reply]; exact nofun)
  | ok next =>
    cases writes : op.agent? with
    | none => exact .kept (saved_of_none writes) (by rw [writes]; exact nofun)
    | some writer =>
      obtain ⟨policy, rfl, makes⟩ := makes_of_reply writes reply
      by_cases own : writer = agent
      · subst own
        exact .made _ policy reply writes makes (step_of_ok reply)
      · refine .kept ?_ fun _ _ same => own (Option.some.inj (writes.symm.trans same))
        rw [step_of_ok reply, saved_store_of_ne _ _ _ (Ne.symm own)]

end Steps

section Entries

variable {current policy : SavedPolicy} {agent : AgentId} {op : PolicyOp}

/-- A set whose list leaves an entry out. -/
def DropsHost (agent : AgentId) (op : PolicyOp) (host : Text) : Prop :=
  ∃ keyHash request checked hosts, op = .set keyHash agent request ∧
    request.checked agent = .ok checked ∧ checked.webPostHosts? = some hosts ∧ host ∉ hosts

def DropsTarget (agent : AgentId) (op : PolicyOp) (target : AgentId) : Prop :=
  ∃ keyHash request checked targets, op = .set keyHash agent request ∧
    request.checked agent = .ok checked ∧ checked.handoffTargets? = some targets ∧
    target ∉ targets

theorem Makes.keeps_host (makes : Makes current agent op policy) {host : Text}
    (granted : host ∈ current.webPostHosts) :
    host ∈ policy.webPostHosts ∨ DropsHost agent op host := by
  cases makes with
  | set keyHash request checked made read =>
    cases listed : checked.webPostHosts? with
    | none =>
      left
      simpa [AgentToolPolicy.webPostHosts, SavedPolicy.completed, listed] using granted
    | some hosts =>
      by_cases kept : host ∈ hosts
      · left
        simpa [AgentToolPolicy.webPostHosts, SavedPolicy.completed, listed] using kept
      · exact Or.inr ⟨keyHash, request, checked, hosts, rfl, made, listed, kept⟩
  | hosts hosts added made room =>
    exact Or.inl (mem_sorted.mpr (List.mem_append_left _ granted))
  | targets targets others room => exact Or.inl granted

theorem Makes.keeps_target (makes : Makes current agent op policy) {target : AgentId}
    (granted : target ∈ current.handoffTargets) :
    target ∈ policy.handoffTargets ∨ DropsTarget agent op target := by
  cases makes with
  | set keyHash request checked made read =>
    cases listed : checked.handoffTargets? with
    | none =>
      left
      simpa [AgentToolPolicy.handoffTargets, SavedPolicy.completed, listed] using granted
    | some targets =>
      by_cases kept : target ∈ targets
      · left
        simpa [AgentToolPolicy.handoffTargets, SavedPolicy.completed, listed] using kept
      · exact Or.inr ⟨keyHash, request, checked, targets, rfl, made, listed, kept⟩
  | hosts hosts added made room => exact Or.inl granted
  | targets targets others room => exact Or.inl (mem_sorted.mpr (List.mem_append_left _ granted))

end Entries

section Runs

variable (start : PolicyHub) (ops : List PolicyOp)

/-- An operation of the run that goes through. -/
def Succeeds (moment : Nat) (op : PolicyOp) : Prop :=
  ops[moment]? = some op ∧ ∃ next, op.reply (policiesAt start ops moment) = .ok next

/-- The policy of an agent is what the last successful operation made of the one before it. -/
inductive LastMade (moment : Nat) (agent : AgentId) : Prop
  | initial (same : (policiesAt start ops moment).saved agent = start.saved agent)
      (quiet : ∀ earlier op, earlier < moment → Succeeds start ops earlier op →
        op.agent? ≠ some agent)
  | made (last : Nat) (op : PolicyOp) (before : last < moment) (done : Succeeds start ops last op)
      (makes : Makes ((policiesAt start ops last).saved agent) agent op
        ((policiesAt start ops moment).saved agent))
      (quiet : ∀ between op, last < between → between < moment → Succeeds start ops between op →
        op.agent? ≠ some agent)

/-- No update of a tool policy is lost. -/
structure UpdatesKept : Prop where
  once : ∀ first second agent keyHash keyHash' request request',
    Succeeds start ops first (.set keyHash agent request) →
    Succeeds start ops second (.set keyHash' agent request') →
    request.revision = request'.revision → first = second
  rises : ∀ moment op agent, Succeeds start ops moment op → op.agent? = some agent →
    ((policiesAt start ops (moment + 1)).saved agent).revision =
        ((policiesAt start ops moment).saved agent).revision + 1 ∧
      (policiesAt start ops (moment + 1)).roleRevisions agent =
        (policiesAt start ops moment).roleRevisions agent + 1
  /-- A set that goes through replaces the policy that its editor read. -/
  read : ∀ reading moment agent keyHash request, reading ≤ moment →
    Succeeds start ops moment (.set keyHash agent request) →
    request.revision = ((policiesAt start ops reading).saved agent).revision →
    (policiesAt start ops moment).saved agent = (policiesAt start ops reading).saved agent
  hosts : ∀ moment agent hosts granted host later,
    Succeeds start ops moment (.grantHosts agent hosts) →
    hosts.mapM (bareHost webPostHostMessage) = .ok granted → host ∈ granted → moment < later →
    host ∈ ((policiesAt start ops later).saved agent).webPostHosts ∨
      ∃ between op, moment < between ∧ between < later ∧ Succeeds start ops between op ∧
        DropsHost agent op host
  targets : ∀ moment agent targets target later,
    Succeeds start ops moment (.grantTargets agent targets) → target ∈ targets → moment < later →
    target ∈ ((policiesAt start ops later).saved agent).handoffTargets ∨
      ∃ between op, moment < between ∧ between < later ∧ Succeeds start ops between op ∧
        DropsTarget agent op target
  stored : ∀ moment agent, LastMade start ops moment agent
  /-- A refused operation leaves every policy and every role revision as they are. -/
  refused : ∀ moment op error, ops[moment]? = some op →
    op.reply (policiesAt start ops moment) = .error error →
    policiesAt start ops (moment + 1) = policiesAt start ops moment

variable {start : PolicyHub} {ops : List PolicyOp} {agent : AgentId}

/-- From one moment to the next. -/
theorem effect_of_moment (start : PolicyHub) (ops : List PolicyOp) (agent : AgentId)
    (moment : Nat) :
    ((policiesAt start ops (moment + 1)).saved agent = (policiesAt start ops moment).saved agent ∧
        ∀ op, Succeeds start ops moment op → op.agent? ≠ some agent) ∨
      ∃ op, Succeeds start ops moment op ∧ op.agent? = some agent ∧
        Makes ((policiesAt start ops moment).saved agent) agent op
          ((policiesAt start ops (moment + 1)).saved agent) ∧
        (policiesAt start ops (moment + 1)).roleRevisions agent =
          (policiesAt start ops moment).roleRevisions agent + 1 := by
  rcases stateAt_next PolicyHub.step start ops moment with ⟨op, present, next⟩ | ⟨absent, next⟩
  · have stepped : policiesAt start ops (moment + 1) = (policiesAt start ops moment).step op := next
    rw [stepped]
    cases policyEffect (policiesAt start ops moment) op agent with
    | kept same rest =>
      refine Or.inl ⟨same, fun other done => ?_⟩
      obtain rfl := Option.some.inj (present.symm.trans done.1)
      obtain ⟨next, reply⟩ := done.2
      exact rest next reply
    | made next policy done writes makes stored =>
      rw [stored, saved_store, roleRevisions_store]
      exact Or.inr ⟨op, ⟨present, next, done⟩, writes, makes, rfl⟩
  · rw [show policiesAt start ops (moment + 1) = policiesAt start ops moment from next]
    refine Or.inl ⟨rfl, fun op done => ?_⟩
    cases absent.symm.trans done.1

theorem revision_mono {first second : Nat} (ordered : first ≤ second) :
    ((policiesAt start ops first).saved agent).revision ≤
      ((policiesAt start ops second).saved agent).revision := by
  induction second, ordered using Nat.le_induction with
  | base => exact le_rfl
  | succ last _ ih =>
    rcases effect_of_moment start ops agent last with ⟨same, _⟩ | ⟨op, _, _, makes, _⟩
    · rwa [same]
    · rw [makes.revision]
      exact Nat.le_succ_of_le ih

/-- While the revision stays, so does the policy. -/
theorem saved_of_revision {first second : Nat} (ordered : first ≤ second)
    (same : ((policiesAt start ops first).saved agent).revision =
      ((policiesAt start ops second).saved agent).revision) :
    (policiesAt start ops second).saved agent = (policiesAt start ops first).saved agent := by
  induction second, ordered using Nat.le_induction with
  | base => rfl
  | succ last ordered ih =>
    have grown : ((policiesAt start ops first).saved agent).revision ≤
        ((policiesAt start ops last).saved agent).revision := revision_mono ordered
    rcases effect_of_moment start ops agent last with ⟨kept, _⟩ | ⟨op, _, _, makes, _⟩
    · rw [kept] at same ⊢
      exact ih same
    · have raised := makes.revision
      omega

theorem of_set {moment : Nat} {keyHash : Text} {request : SavedPolicy}
    (done : Succeeds start ops moment (.set keyHash agent request)) :
    request.revision = ((policiesAt start ops moment).saved agent).revision ∧
      ((policiesAt start ops (moment + 1)).saved agent).revision = request.revision + 1 := by
  rcases effect_of_moment start ops agent moment with ⟨_, quiet⟩ | ⟨op, again, _, makes, _⟩
  · exact absurd rfl (quiet _ done)
  · obtain rfl := Option.some.inj (done.1.symm.trans again.1)
    have raised := makes.revision
    generalize (policiesAt start ops (moment + 1)).saved agent = policy at makes raised
    cases makes with
    | set _ _ checked made read => exact ⟨read, by rw [raised, read]⟩

theorem set_once {first second : Nat} {keyHash keyHash' : Text} {request request' : SavedPolicy}
    (done : Succeeds start ops first (.set keyHash agent request))
    (again : Succeeds start ops second (.set keyHash' agent request'))
    (same : request.revision = request'.revision) : ¬ first < second := by
  intro before
  have grown : ((policiesAt start ops (first + 1)).saved agent).revision ≤
      ((policiesAt start ops second).saved agent).revision := revision_mono before
  have raised := (of_set done).2
  have read := (of_set again).1
  omega

/-- What holds of a policy holds on, until an operation ends it. -/
theorem holds_until {holds : SavedPolicy → Prop} {ends : PolicyOp → Prop}
    (keeps : ∀ current policy op, Makes current agent op policy → holds current →
      holds policy ∨ ends op)
    {first second : Nat} (ordered : first ≤ second)
    (initially : holds ((policiesAt start ops first).saved agent)) :
    holds ((policiesAt start ops second).saved agent) ∨
      ∃ between op, first ≤ between ∧ between < second ∧ Succeeds start ops between op ∧
        ends op := by
  induction second, ordered using Nat.le_induction with
  | base => exact Or.inl initially
  | succ last ordered ih =>
    rcases ih with held | ⟨between, op, after, before, done, ended⟩
    · rcases effect_of_moment start ops agent last with ⟨same, _⟩ | ⟨op, done, _, makes, _⟩
      · exact Or.inl (same ▸ held)
      · rcases keeps _ _ op makes held with kept | ended
        · exact Or.inl kept
        · exact Or.inr ⟨last, op, ordered, Nat.lt_succ_self last, done, ended⟩
    · exact Or.inr ⟨between, op, after, before.trans (Nat.lt_succ_self last), done, ended⟩

theorem lastMade (start : PolicyHub) (ops : List PolicyOp) (moment : Nat) (agent : AgentId) :
    LastMade start ops moment agent := by
  induction moment with
  | zero => exact .initial rfl fun _ _ before => absurd before (Nat.not_lt_zero _)
  | succ moment ih =>
    rcases effect_of_moment start ops agent moment with ⟨same, rest⟩ | ⟨op, done, _, makes, _⟩
    · cases ih with
      | initial kept quiet =>
        refine .initial (same.trans kept) fun earlier op before done => ?_
        rcases Nat.lt_succ_iff_lt_or_eq.mp before with before | rfl
        · exact quiet earlier op before done
        · exact rest op done
      | made last op before done makes quiet =>
        refine .made last op (before.trans (Nat.lt_succ_self moment)) done (same ▸ makes) ?_
        intro between other after inside done
        rcases Nat.lt_succ_iff_lt_or_eq.mp inside with inside | rfl
        · exact quiet between other after inside done
        · exact rest other done
    · refine .made moment op (Nat.lt_succ_self moment) done makes ?_
      intro between other after inside
      omega

/-- No update is lost, whoever edits and grants in between. -/
theorem policy_updates_kept (start : PolicyHub) (ops : List PolicyOp) :
    UpdatesKept start ops where
  once := by
    intro first second agent keyHash keyHash' request request' done again same
    have before := set_once done again same
    have after := set_once again done same.symm
    omega
  rises := by
    intro moment op agent done writes
    rcases effect_of_moment start ops agent moment with ⟨_, quiet⟩ | ⟨other, _, _, makes, role⟩
    · exact absurd writes (quiet op done)
    · exact ⟨makes.revision, role⟩
  read := by
    intro reading moment agent keyHash request ordered done same
    exact saved_of_revision ordered (same.symm.trans (of_set done).1)
  hosts := by
    intro moment agent hosts granted host later done made member before
    rcases effect_of_moment start ops agent moment with ⟨_, quiet⟩ | ⟨op, again, _, makes, _⟩
    · exact absurd rfl (quiet _ done)
    · obtain rfl := Option.some.inj (done.1.symm.trans again.1)
      have held : host ∈ ((policiesAt start ops (moment + 1)).saved agent).webPostHosts := by
        generalize (policiesAt start ops (moment + 1)).saved agent = policy at makes
        cases makes with
        | hosts _ added found room =>
          obtain rfl := Except.ok.inj (made.symm.trans found)
          exact mem_sorted.mpr (List.mem_append_right _ member)
      exact holds_until (fun _ _ _ makes => makes.keeps_host) before held
  targets := by
    intro moment agent targets target later done member before
    rcases effect_of_moment start ops agent moment with ⟨_, quiet⟩ | ⟨op, again, _, makes, _⟩
    · exact absurd rfl (quiet _ done)
    · obtain rfl := Option.some.inj (done.1.symm.trans again.1)
      have held : target ∈ ((policiesAt start ops (moment + 1)).saved agent).handoffTargets := by
        generalize (policiesAt start ops (moment + 1)).saved agent = policy at makes
        cases makes with
        | targets _ others room => exact mem_sorted.mpr (List.mem_append_right _ member)
      exact holds_until (fun _ _ _ makes => makes.keeps_target) before held
  stored := lastMade start ops
  refused := by
    intro moment op error present refused
    have stepped : policiesAt start ops (moment + 1) = (policiesAt start ops moment).step op :=
      stateAt_succ _ _ present
    rw [stepped, step_of_error refused]

end Runs

end OHHive.AgentTools
