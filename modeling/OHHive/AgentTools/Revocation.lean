import OHHive.AgentTools.PolicyUpdates

/-! When an owner can take access away: every entry that stays in the policy is looked up anew, and
one that is gone blocks the removal of the others. -/

namespace OHHive.AgentTools

open Foundation
open Bots (AgentId)
open Fleet (withNode)
open Vault (trim vaultAccess)

section Hosts

variable {message : String} {host raw : Text}

theorem valid_of_bareHost (done : bareHost message raw = .ok host) : validWebHost host = true := by
  obtain ⟨_, valid, done⟩ := bind_eq_ok_iff.mp done
  rw [← pure_eq_ok_iff.mp done]
  exact require_eq_ok_iff.mp valid

/-- The characters of a host name. -/
def hostChar (char : Char) : Bool := char.isLower || char.isDigit || char = '-' || char = '.'

theorem code_of_hostChar {char : Char} (named : hostChar char = true) :
    45 ≤ char.toNat ∧ char.toNat ≤ 57 ∨ 97 ≤ char.toNat ∧ char.toNat ≤ 122 := by
  have lower : char.isLower = (char.val ≥ 'a'.val && char.val ≤ 'z'.val) := rfl
  simp only [hostChar, lower, Char.isDigit, Bool.or_eq_true, Bool.and_eq_true, decide_eq_true_eq,
    UInt32.le_iff_toNat_le, ge_iff_le] at named
  rcases named with ((⟨low, high⟩ | ⟨low, high⟩) | rfl) | rfl
  · exact Or.inr ⟨low, high⟩
  · exact Or.inl ⟨Nat.le_trans (by decide) low, high⟩
  · decide
  · decide

theorem plain_of_hostChar {char : Char} (named : hostChar char = true) :
    isWhitespace char = false ∧ char.toLower = char := by
  have code := code_of_hostChar named
  constructor
  · have apart : ∀ blank ∈ [0x20, 0x85, 0xA0, 0x1680, 0x2028, 0x2029, 0x202F, 0x205F, 0x3000],
        char.toNat ≠ blank := by
      simp only [List.forall_mem_cons, List.not_mem_nil, false_imp_iff, implies_true, and_true]
      omega
    have listed : [0x20, 0x85, 0xA0, 0x1680, 0x2028, 0x2029, 0x202F, 0x205F, 0x3000].contains
        char.toNat = false := by
      rw [List.contains_eq_mem, decide_eq_false_iff_not]
      exact fun member => apart _ member rfl
    simp only [isWhitespace, listed, Bool.or_false, Bool.or_eq_false_iff, Bool.and_eq_false_iff,
      decide_eq_false_iff_not]
    omega
  · unfold Char.toLower
    split
    · rename_i upper
      have bounds : 65 ≤ char.toNat ∧ char.toNat ≤ 90 := upper
      omega
    · rfl
theorem hostChars_of_valid (valid : validWebHost host = true) : host.all hostChar = true := by
  rcases (Bool.or_eq_true _ _).mp valid with loopback | named
  · rw [of_decide_eq_true loopback]
    decide
  · simp only [Bool.and_eq_true] at named
    exact named.1.2

theorem trim_eq_self {text : Text} (plain : ∀ char ∈ text, isWhitespace char = false) :
    trim text = text := by
  have whole : ∀ rest : Text, (∀ char ∈ rest, isWhitespace char = false) →
      rest.dropWhile isWhitespace = rest := by
    intro rest plain
    cases rest with
    | nil => rfl
    | cons first rest =>
      exact List.dropWhile_cons_of_neg (by simp [plain first List.mem_cons_self])
  rw [trim, whole text plain, whole text.reverse fun char member => plain char
    (List.mem_reverse.mp member), List.reverse_reverse]

/-- A stored host passes the check as it is. -/
theorem bareHost_eq_self (valid : validWebHost host = true) : bareHost message host = .ok host := by
  have named : ∀ char ∈ host, hostChar char = true := List.all_eq_true.mp (hostChars_of_valid valid)
  have trimmed : trim host = host :=
    trim_eq_self fun char member => (plain_of_hostChar (named char member)).1
  have lower : host.map Char.toLower = host :=
    (List.map_congr_left fun char member => (plain_of_hostChar (named char member)).2).trans
      (List.map_id _)
  rw [bareHost, trimmed, lower]
  exact bind_eq_ok_iff.mpr ⟨(), require_eq_ok_iff.mpr valid, rfl⟩

theorem valid_of_mapM {hosts made : List Text} (done : hosts.mapM (bareHost message) = .ok made) :
    ∀ host ∈ made, validWebHost host = true := by
  have passed := forall₂_of_mapM done
  clear done
  induction passed with
  | nil => exact nofun
  | cons first _ ih => exact List.forall_mem_cons.mpr ⟨valid_of_bareHost first, ih⟩

end Hosts

section Validity

variable {agent : AgentId} {current request checked policy : SavedPolicy} {op : PolicyOp}

/-- A list of hosts that can be saved. -/
structure ValidHosts (hosts : List Text) : Prop where
  length : hosts.length ≤ 32
  valid : ∀ host ∈ hosts, validWebHost host = true

/-- What every saved policy keeps to. -/
structure SavedPolicy.Valid (policy : SavedPolicy) (agent : AgentId) : Prop where
  readable : policy.readableVaults.length ≤ 32
  template : ∀ template ∈ policy.template, template ∈ agentTemplates
  writable : policy.writableVaults.length ≤ 32
  webHosts : ValidHosts policy.webHosts
  webPostHosts : ValidHosts policy.webPostHosts
  targets : policy.handoffTargets.length ≤ 32
  others : agent ∉ policy.handoffTargets

theorem optionally_eq_ok_iff {α β : Type} {check : α → Result β} {value? : Option α}
    {result? : Option β} :
    optionally check value? = .ok result? ↔
      value? = none ∧ result? = none ∨
        ∃ value result, value? = some value ∧ result? = some result ∧ check value = .ok result := by
  cases value? with
  | none =>
    constructor
    · intro done
      exact Or.inl ⟨rfl, (Except.ok.inj done).symm⟩
    · rintro (⟨_, rfl⟩ | ⟨_, _, none, _⟩)
      · rfl
      · cases none
  | some value =>
    constructor
    · intro done
      obtain ⟨result, passed, rfl⟩ := map_eq_ok_iff.mp done
      exact Or.inr ⟨value, result, rfl, rfl, passed⟩
    · rintro (⟨none, _⟩ | ⟨_, result, same, rfl, passed⟩)
      · cases none
      · obtain rfl := Option.some.inj same
        exact map_eq_ok_iff.mpr ⟨result, passed, rfl⟩

/-- What the checks before the transaction come to. -/
structure Checked (request : SavedPolicy) (agent : AgentId) (checked : SavedPolicy) : Prop where
  readable : request.readableVaults.length ≤ 32
  template : ∀ template ∈ request.template, template ∈ agentTemplates
  writable : optionally (checkedIds "select at most 32 save collections")
    request.writableVaults? = .ok checked.writableVaults?
  webHosts : optionally (checkedHosts "select at most 32 web hosts" webHostMessage)
    request.webHosts? = .ok checked.webHosts?
  webPostHosts : optionally (checkedHosts "select at most 32 web post hosts" webPostHostMessage)
    request.webPostHosts? = .ok checked.webPostHosts?
  targets : optionally (checkedTargets agent) request.handoffTargets? = .ok checked.handoffTargets?
  rest : checked.revision = request.revision ∧ checked.template = request.template ∧
    checked.readableVaults = sortedIds request.readableVaults

theorem checked_eq_ok_iff :
    request.checked agent = .ok checked ↔ Checked request agent checked := by
  constructor
  · intro made
    obtain ⟨_, readable, made⟩ := bind_eq_ok_iff.mp made
    obtain ⟨_, template, made⟩ := bind_eq_ok_iff.mp made
    obtain ⟨_, writable, made⟩ := bind_eq_ok_iff.mp made
    obtain ⟨_, webHosts, made⟩ := bind_eq_ok_iff.mp made
    obtain ⟨_, webPostHosts, made⟩ := bind_eq_ok_iff.mp made
    obtain ⟨_, targets, made⟩ := bind_eq_ok_iff.mp made
    obtain rfl := pure_eq_ok_iff.mp made
    exact ⟨require_eq_ok_iff.mp readable, require_eq_ok_iff.mp template, writable, webHosts,
      webPostHosts, targets, rfl, rfl, rfl⟩
  · intro passes
    refine bind_eq_ok_iff.mpr ⟨(), require_eq_ok_iff.mpr passes.readable, ?_⟩
    refine bind_eq_ok_iff.mpr ⟨(), require_eq_ok_iff.mpr passes.template, ?_⟩
    refine bind_eq_ok_iff.mpr ⟨_, passes.writable, ?_⟩
    refine bind_eq_ok_iff.mpr ⟨_, passes.webHosts, ?_⟩
    refine bind_eq_ok_iff.mpr ⟨_, passes.webPostHosts, ?_⟩
    refine bind_eq_ok_iff.mpr ⟨_, passes.targets, ?_⟩
    obtain ⟨revision, template, readable⟩ := passes.rest
    rw [← revision, ← template, ← readable]
    rfl

theorem of_checkedIds {limit : String} {ids made : List Uuid}
    (done : checkedIds limit ids = .ok made) : ids.length ≤ 32 ∧ made = sortedIds ids := by
  obtain ⟨_, few, done⟩ := bind_eq_ok_iff.mp done
  exact ⟨require_eq_ok_iff.mp few, (pure_eq_ok_iff.mp done).symm⟩

theorem of_checkedTargets {targets made : List AgentId}
    (done : checkedTargets agent targets = .ok made) :
    targets.length ≤ 32 ∧ agent ∉ targets ∧ made = sortedIds targets := by
  obtain ⟨_, few, done⟩ := bind_eq_ok_iff.mp done
  obtain ⟨_, others, done⟩ := bind_eq_ok_iff.mp done
  exact ⟨require_eq_ok_iff.mp few, require_eq_ok_iff.mp others, (pure_eq_ok_iff.mp done).symm⟩

theorem valid_of_checkedHosts {limit message : String} {hosts made : List Text}
    (done : checkedHosts limit message hosts = .ok made) : ValidHosts made := by
  obtain ⟨_, few, done⟩ := bind_eq_ok_iff.mp done
  obtain ⟨plain, passed, done⟩ := bind_eq_ok_iff.mp done
  obtain rfl := pure_eq_ok_iff.mp done
  refine ⟨(length_sorted_le _ _).trans ?_, fun host member => ?_⟩
  · rw [← (forall₂_of_mapM passed).length_eq]
    exact require_eq_ok_iff.mp few
  · exact valid_of_mapM passed host (mem_sorted.mp member)

/-- A part of a stored list passes, and keeps its entries. -/
theorem checkedHosts_of_sublist {limit message : String} {hosts saved : List Text}
    (part : hosts.Sublist saved) (valid : ValidHosts saved) :
    checkedHosts limit message hosts = .ok (sortedTexts hosts) := by
  refine bind_eq_ok_iff.mpr ⟨(), require_eq_ok_iff.mpr (part.length_le.trans valid.length), ?_⟩
  refine bind_eq_ok_iff.mpr ⟨hosts, mapM_eq_self fun host member => ?_, rfl⟩
  exact bareHost_eq_self (valid.valid host (part.subset member))

theorem length_sortedIds_le (ids : List Uuid) : (sortedIds ids).length ≤ ids.length :=
  length_sorted_le _ _

/-- Every operation makes a valid policy of a valid one. -/
theorem Makes.valid (makes : Makes current agent op policy) (valid : current.Valid agent) :
    policy.Valid agent := by
  cases makes with
  | set keyHash request checked made read =>
    obtain ⟨readable, template, writable, webHosts, webPostHosts, targets, _, same,
      sortedReadable⟩ := checked_eq_ok_iff.mp made
    refine ⟨?_, same ▸ template, ?_, ?_, ?_, ?_, ?_⟩
    · change checked.readableVaults.length ≤ 32
      rw [sortedReadable]
      exact (length_sortedIds_le _).trans readable
    · change (checked.writableVaults?.getD current.writableVaults).length ≤ 32
      rcases optionally_eq_ok_iff.mp writable with ⟨_, none⟩ | ⟨ids, made, _, some, passed⟩
      · rw [none]
        exact valid.writable
      · obtain ⟨few, rfl⟩ := of_checkedIds passed
        rw [some]
        exact (length_sortedIds_le _).trans few
    · change ValidHosts (checked.webHosts?.getD current.webHosts)
      rcases optionally_eq_ok_iff.mp webHosts with ⟨_, none⟩ | ⟨hosts, made, _, some, passed⟩
      · rw [none]
        exact valid.webHosts
      · rw [some]
        exact valid_of_checkedHosts passed
    · change ValidHosts (checked.webPostHosts?.getD current.webPostHosts)
      rcases optionally_eq_ok_iff.mp webPostHosts with ⟨_, none⟩ | ⟨hosts, made, _, some, passed⟩
      · rw [none]
        exact valid.webPostHosts
      · rw [some]
        exact valid_of_checkedHosts passed
    · change (checked.handoffTargets?.getD current.handoffTargets).length ≤ 32
      rcases optionally_eq_ok_iff.mp targets with ⟨_, none⟩ | ⟨ids, made, _, some, passed⟩
      · rw [none]
        exact valid.targets
      · obtain ⟨few, _, rfl⟩ := of_checkedTargets passed
        rw [some]
        exact (length_sortedIds_le _).trans few
    · change agent ∉ checked.handoffTargets?.getD current.handoffTargets
      rcases optionally_eq_ok_iff.mp targets with ⟨_, none⟩ | ⟨ids, made, _, some, passed⟩
      · rw [none]
        exact valid.others
      · obtain ⟨_, others, rfl⟩ := of_checkedTargets passed
        rw [some]
        exact fun member => others (mem_sorted.mp member)
  | hosts hosts granted made room =>
    refine ⟨valid.readable, valid.template, valid.writable, valid.webHosts, ⟨room, ?_⟩,
      valid.targets, valid.others⟩
    intro host member
    rcases List.mem_append.mp (mem_sorted.mp member) with old | new
    · exact valid.webPostHosts.valid host old
    · exact valid_of_mapM made host new
  | targets targets others room =>
    refine ⟨valid.readable, valid.template, valid.writable, valid.webHosts, valid.webPostHosts,
      room, ?_⟩
    intro member
    rcases List.mem_append.mp (mem_sorted.mp member) with old | new
    · exact valid.others old
    · exact others new

theorem valid_policiesAt (world : World) (roleRevisions : AgentId → Nat) (ops : List PolicyOp)
    (moment : Nat) (agent : AgentId) :
    ((policiesAt (.new world roleRevisions) ops moment).saved agent).Valid agent := by
  induction moment with
  | zero =>
    have few : 0 ≤ 32 := Nat.zero_le 32
    exact ⟨few, nofun, few, ⟨few, nofun⟩, ⟨few, nofun⟩, few, nofun⟩
  | succ moment ih =>
    rcases effect_of_moment (.new world roleRevisions) ops agent moment with
      ⟨same, _⟩ | ⟨op, _, _, makes, _⟩
    · exact same ▸ ih
    · exact makes.valid ih

end Validity

section Access

variable {world : World} {node vault : Uuid} {agent : AgentId}

/-- A collection that findings can be saved in now: both computers may read it, it is ready, and no
folder writes it. -/
structure World.Savable (world : World) (node : Uuid) (agent : AgentId) (vault : Uuid) : Prop where
  opens : Opens world.catalog node vault
  host : ∃ profile ∈ world.book.store.agent? agent, ∃ host ∈ profile.preferredHost,
    (vault, host) ∈ world.catalog.readers
  manual : world.catalog.db.folderBacked vault = false

theorem saveAccess_eq_ok_iff :
    saveAccess world node agent vault = .ok () ↔ world.Savable node agent vault := by
  constructor
  · intro done
    obtain ⟨info, opened, done⟩ := bind_eq_ok_iff.mp done
    obtain ⟨profile, found, host, assigned, shared, _, manual⟩ := require_eq_ok_iff.mp done
    exact ⟨opens_of_vaultAccess opened, ⟨profile, found, host, assigned, shared⟩, manual⟩
  · intro ⟨⟨granted, info, stored, ready⟩, ⟨profile, found, host, assigned, shared⟩, manual⟩
    have opened : vaultAccess world.catalog node vault true = .ok info := by
      refine bind_eq_ok_iff.mpr ⟨(), require_eq_ok_iff.mpr granted, ?_⟩
      refine bind_eq_ok_iff.mpr ⟨info, orFail_eq_ok_iff.mpr stored, ?_⟩
      exact bind_eq_ok_iff.mpr ⟨(), require_eq_ok_iff.mpr fun _ => ready, rfl⟩
    refine bind_eq_ok_iff.mpr ⟨info, opened, require_eq_ok_iff.mpr ?_⟩
    exact ⟨profile, found, host, assigned, shared, ⟨info, stored, ready⟩, manual⟩

end Access

section Revocation

variable {hub : PolicyHub} {agent : AgentId} {node : Uuid} {keyHash : Text}
  {current request : SavedPolicy}

/-- A request that takes entries out of the policy; a list that it leaves out stays. -/
structure Revokes (current request : SavedPolicy) : Prop where
  revision : request.revision = current.revision
  template : ∀ template ∈ request.template, template ∈ current.template
  readable : request.readableVaults.Sublist current.readableVaults
  writable : ∀ kept ∈ request.writableVaults?, kept.Sublist current.writableVaults
  webHosts : ∀ kept ∈ request.webHosts?, kept.Sublist current.webHosts
  webPostHosts : ∀ kept ∈ request.webPostHosts?, kept.Sublist current.webPostHosts
  targets : ∀ kept ∈ request.handoffTargets?, kept.Sublist current.handoffTargets

/-- None of the entries that stay has gone stale, and the revision can be counted on. -/
structure NoneStale (hub : PolicyHub) (agent : AgentId) (node : Uuid) (kept : SavedPolicy) :
    Prop where
  libraries : ∀ vault ∈ kept.readableVaults, (hub.world.catalog.db.vaults.lookup vault).isSome
  collections : ∀ vault ∈ kept.writableVaults, hub.world.Savable node agent vault
  targets : ∀ target ∈ kept.handoffTargets, hub.world.activeAgent target
  revision : kept.revision < 2 ^ 32 - 1

theorem validateEntries_eq_ok_iff {next : SavedPolicy} :
    validateEntries hub agent node next = .ok () ↔
      (∀ vault ∈ next.readableVaults, (hub.world.catalog.db.vaults.lookup vault).isSome) ∧
      (∀ vault ∈ next.writableVaults, hub.world.Savable node agent vault) ∧
      ∀ target ∈ next.handoffTargets, hub.world.activeAgent target := by
  constructor
  · intro done
    obtain ⟨_, libraries, done⟩ := bind_eq_ok_iff.mp done
    obtain ⟨_, collections, targets⟩ := bind_eq_ok_iff.mp done
    exact ⟨fun vault member => require_eq_ok_iff.mp (forM_eq_ok_iff.mp libraries vault member),
      fun vault member => saveAccess_eq_ok_iff.mp (forM_eq_ok_iff.mp collections vault member),
      fun target member => require_eq_ok_iff.mp (forM_eq_ok_iff.mp targets target member)⟩
  · intro ⟨libraries, collections, targets⟩
    refine bind_eq_ok_iff.mpr ⟨(), forM_eq_ok_iff.mpr fun vault member =>
      require_eq_ok_iff.mpr (libraries vault member), ?_⟩
    refine bind_eq_ok_iff.mpr ⟨(), forM_eq_ok_iff.mpr fun vault member =>
      saveAccess_eq_ok_iff.mpr (collections vault member), ?_⟩
    exact forM_eq_ok_iff.mpr fun target member => require_eq_ok_iff.mpr (targets target member)

/-- The checks let a request through that only takes entries out. -/
theorem exists_checked (revokes : Revokes current request) (valid : current.Valid agent) :
    ∃ checked, request.checked agent = .ok checked := by
  have writable : ∃ result?, optionally (checkedIds "select at most 32 save collections")
      request.writableVaults? = .ok result? := by
    cases given : request.writableVaults? with
    | none => exact ⟨none, rfl⟩
    | some kept =>
      have few := (revokes.writable kept given).length_le.trans valid.writable
      exact ⟨some (sortedIds kept), map_eq_ok_iff.mpr
        ⟨_, bind_eq_ok_iff.mpr ⟨(), require_eq_ok_iff.mpr few, rfl⟩, rfl⟩⟩
  have webHosts : ∃ result?, optionally (checkedHosts "select at most 32 web hosts" webHostMessage)
      request.webHosts? = .ok result? := by
    cases given : request.webHosts? with
    | none => exact ⟨none, rfl⟩
    | some kept => exact ⟨some (sortedTexts kept), map_eq_ok_iff.mpr
        ⟨_, checkedHosts_of_sublist (revokes.webHosts kept given) valid.webHosts, rfl⟩⟩
  have webPostHosts : ∃ result?,
      optionally (checkedHosts "select at most 32 web post hosts" webPostHostMessage)
        request.webPostHosts? = .ok result? := by
    cases given : request.webPostHosts? with
    | none => exact ⟨none, rfl⟩
    | some kept => exact ⟨some (sortedTexts kept), map_eq_ok_iff.mpr
        ⟨_, checkedHosts_of_sublist (revokes.webPostHosts kept given) valid.webPostHosts, rfl⟩⟩
  have targets : ∃ result?, optionally (checkedTargets agent) request.handoffTargets? =
      .ok result? := by
    cases given : request.handoffTargets? with
    | none => exact ⟨none, rfl⟩
    | some kept =>
      have part := revokes.targets kept given
      have few := part.length_le.trans valid.targets
      have others : agent ∉ kept := fun member => valid.others (part.subset member)
      exact ⟨some (sortedIds kept), map_eq_ok_iff.mpr ⟨_, bind_eq_ok_iff.mpr
        ⟨(), require_eq_ok_iff.mpr few,
          bind_eq_ok_iff.mpr ⟨(), require_eq_ok_iff.mpr others, rfl⟩⟩, rfl⟩⟩
  obtain ⟨writableVaults?, writable⟩ := writable
  obtain ⟨webHosts?, webHosts⟩ := webHosts
  obtain ⟨webPostHosts?, webPostHosts⟩ := webPostHosts
  obtain ⟨handoffTargets?, targets⟩ := targets
  exact ⟨⟨⟨request.revision, sortedIds request.readableVaults, writableVaults?, webHosts?,
    webPostHosts?, handoffTargets?⟩, request.template⟩, checked_eq_ok_iff.mpr
      ⟨revokes.readable.length_le.trans valid.readable,
        fun template given => valid.template template (revokes.template template given),
        writable, webHosts, webPostHosts, targets, rfl, rfl, rfl⟩⟩

/-- Sorting changes none of the entries that are looked up. -/
theorem entries_of_checked (current : SavedPolicy) {checked : SavedPolicy}
    (made : request.checked agent = .ok checked) :
    (∀ vault, vault ∈ (checked.completed current).readableVaults ↔
        vault ∈ (request.completed current).readableVaults) ∧
      (∀ vault, vault ∈ (checked.completed current).writableVaults ↔
        vault ∈ (request.completed current).writableVaults) ∧
      ∀ target, target ∈ (checked.completed current).handoffTargets ↔
        target ∈ (request.completed current).handoffTargets := by
  have passes := checked_eq_ok_iff.mp made
  refine ⟨fun vault => ?_, fun vault => ?_, fun target => ?_⟩
  · change vault ∈ checked.readableVaults ↔ vault ∈ request.readableVaults
    rw [passes.rest.2.2]
    exact mem_sorted
  · change vault ∈ checked.writableVaults?.getD _ ↔ vault ∈ request.writableVaults?.getD _
    rcases optionally_eq_ok_iff.mp passes.writable with
      ⟨omitted, none⟩ | ⟨ids, made, given, some, passed⟩
    · rw [omitted, none]
    · obtain ⟨_, rfl⟩ := of_checkedIds passed
      rw [given, some]
      exact mem_sorted
  · change target ∈ checked.handoffTargets?.getD _ ↔ target ∈ request.handoffTargets?.getD _
    rcases optionally_eq_ok_iff.mp passes.targets with
      ⟨omitted, none⟩ | ⟨ids, made, given, some, passed⟩
    · rw [omitted, none]
    · obtain ⟨_, _, rfl⟩ := of_checkedTargets passed
      rw [given, some]
      exact mem_sorted

/-- Whether a policy can be set depends on the entries that stay in it. -/
theorem botsAgentToolPolicySet_iff (valid : (hub.saved agent).Valid agent)
    (authenticated : withNode hub.world.fleet keyHash = .ok node)
    (owner : hub.world.Owns node agent) (revokes : Revokes (hub.saved agent) request) :
    (∃ done, botsAgentToolPolicySet hub agent keyHash request = .ok done) ↔
      NoneStale hub agent node (request.completed (hub.saved agent)) := by
  constructor
  · intro ⟨_, done⟩
    obtain ⟨checked, made, done⟩ := bind_eq_ok_iff.mp done
    obtain ⟨caller, known, done⟩ := bind_eq_ok_iff.mp done
    obtain ⟨_, _, done⟩ := bind_eq_ok_iff.mp done
    obtain ⟨_, _, done⟩ := bind_eq_ok_iff.mp done
    obtain ⟨_, validated, done⟩ := bind_eq_ok_iff.mp done
    obtain ⟨_, counted, _⟩ := bind_eq_ok_iff.mp done
    obtain ⟨_, room, _⟩ := bind_eq_ok_iff.mp counted
    obtain rfl := Except.ok.inj (authenticated.symm.trans known)
    obtain ⟨libraries, collections, targets⟩ := validateEntries_eq_ok_iff.mp validated
    obtain ⟨readable, writable, handed⟩ := entries_of_checked (hub.saved agent) made
    refine ⟨fun vault member => libraries vault ((readable vault).mpr member),
      fun vault member => collections vault ((writable vault).mpr member),
      fun target member => targets target ((handed target).mpr member), ?_⟩
    have same := revision_of_checked made
    have bound : checked.revision < 2 ^ 32 - 1 := require_eq_ok_iff.mp room
    exact same ▸ bound
  · intro stands
    obtain ⟨checked, made⟩ := exists_checked revokes valid
    obtain ⟨readable, writable, handed⟩ := entries_of_checked (hub.saved agent) made
    have same := revision_of_checked made
    have validated : validateEntries hub agent node (checked.completed (hub.saved agent)) =
        .ok () :=
      validateEntries_eq_ok_iff.mpr
        ⟨fun vault member => stands.libraries vault ((readable vault).mp member),
          fun vault member => stands.collections vault ((writable vault).mp member),
          fun target member => stands.targets target ((handed target).mp member)⟩
    have room : checked.revision < 2 ^ 32 - 1 := same ▸ stands.revision
    let stored : SavedPolicy :=
      { checked.completed (hub.saved agent) with revision := checked.revision + 1 }
    refine ⟨(hub.store agent stored, stored), bind_eq_ok_iff.mpr ⟨checked, made, ?_⟩⟩
    refine bind_eq_ok_iff.mpr ⟨node, authenticated, ?_⟩
    refine bind_eq_ok_iff.mpr ⟨(), require_eq_ok_iff.mpr owner, ?_⟩
    refine bind_eq_ok_iff.mpr ⟨(), require_eq_ok_iff.mpr (same.trans revokes.revision), ?_⟩
    refine bind_eq_ok_iff.mpr ⟨(), validated, ?_⟩
    refine bind_eq_ok_iff.mpr ⟨checked.revision + 1, ?_, rfl⟩
    exact bind_eq_ok_iff.mpr ⟨(), require_eq_ok_iff.mpr room, rfl⟩

/-- In every state that a hub reaches, an owner can take entries out of a policy if and only if
none of those that stay has gone stale. -/
theorem revocation_succeeds_iff (world : World) (roleRevisions : AgentId → Nat)
    (ops : List PolicyOp) (moment : Nat)
    (authenticated :
      withNode (policiesAt (.new world roleRevisions) ops moment).world.fleet keyHash = .ok node)
    (owner : (policiesAt (.new world roleRevisions) ops moment).world.Owns node agent)
    (revokes : Revokes ((policiesAt (.new world roleRevisions) ops moment).saved agent) request) :
    (∃ done, botsAgentToolPolicySet (policiesAt (.new world roleRevisions) ops moment) agent keyHash
        request = .ok done) ↔
      NoneStale (policiesAt (.new world roleRevisions) ops moment) agent node
        (request.completed ((policiesAt (.new world roleRevisions) ops moment).saved agent)) :=
  botsAgentToolPolicySet_iff (valid_policiesAt world roleRevisions ops moment agent) authenticated
    owner revokes

/-- One agent, on a computer of its owner that may read these vaults. -/
def teamWorld (vaults : List Uuid) : World where
  book :=
    { store := Bots.Store.empty.step (.administer
        ⟨[{ Bots.roomProfile 7 with preferredHost := some 5 }], List.pairwise_singleton _ _⟩
        Table.empty Table.empty)
      historyBoundary := fun _ => 0
      projectOf := fun _ => none
      sequence_le := by decide
      length_le := by decide }
  fleet :=
    { Fleet.FleetStore.new 0 with
      nodes := ⟨[⟨5, "host", some 0⟩], List.pairwise_singleton _ _⟩
      keys := ⟨[⟨"key".toList, 5, false⟩], List.pairwise_singleton _ _⟩ }
  catalog :=
    { Vault.Catalog.empty with
      db := { Vault.VaultDb.empty with
        vaults := ⟨[⟨1, "Sources", .ready⟩, ⟨2, "Findings", .ready⟩], by decide⟩ }
      readers := vaults.map (·, 5) }
  policies := fun _ => none
  secrets := fun _ _ => none
  handoffTarget := fun _ => none
  saves := Table.empty

/-- The agent may read one library and save in another. -/
def researcher : PolicyOp := .set "key".toList 7 ⟨⟨0, [1], some [2], none, none, none⟩, none⟩

/-- The library is taken out; the list of collections is left out. -/
def withoutLibrary : SavedPolicy := ⟨⟨1, [], none, none, none, none⟩, none⟩

theorem saved_researcher :
    (policiesAt (.new (teamWorld [1, 2]) fun _ => 1) [researcher] 1).saved 7 =
      ⟨⟨1, [1], some [2], some [], some [], some []⟩, none⟩ := by decide +kernel

theorem revokes_withoutLibrary : Revokes ⟨⟨1, [1], some [2], some [], some [], some []⟩, none⟩
    withoutLibrary :=
  ⟨rfl, nofun, List.nil_sublist _, nofun, nofun, nofun, nofun⟩

theorem revocation_succeeds_iff_researcher :
    (∃ done, botsAgentToolPolicySet
        (policiesAt (.new (teamWorld [1, 2]) fun _ => 1) [researcher] 1) 7 "key".toList
        withoutLibrary = .ok done) ↔
      NoneStale (policiesAt (.new (teamWorld [1, 2]) fun _ => 1) [researcher] 1) 7 5
        (withoutLibrary.completed
          ((policiesAt (.new (teamWorld [1, 2]) fun _ => 1) [researcher] 1).saved 7)) :=
  revocation_succeeds_iff (teamWorld [1, 2]) (fun _ => 1) [researcher] 1 (by decide +kernel)
    (by decide +kernel) (saved_researcher ▸ revokes_withoutLibrary)

/-- A collection that is no longer shared keeps its agent's access to another library. -/
theorem unshared_collection_blocks :
    ¬ ∀ (world : World) (roleRevisions : AgentId → Nat) (ops : List PolicyOp) (moment : Nat)
        (agent : AgentId) (keyHash : Text) (node : Uuid) (request : SavedPolicy),
      withNode (policiesAt (.new world roleRevisions) ops moment).world.fleet keyHash = .ok node →
      (policiesAt (.new world roleRevisions) ops moment).world.Owns node agent →
      Revokes ((policiesAt (.new world roleRevisions) ops moment).saved agent) request →
      ∃ done, botsAgentToolPolicySet (policiesAt (.new world roleRevisions) ops moment) agent
        keyHash request = .ok done := by
  intro revocable
  let ops := [researcher, .elsewhere (teamWorld [1]) fun _ => 2]
  have saved : (policiesAt (.new (teamWorld [1, 2]) fun _ => 1) ops 2).saved 7 =
      ⟨⟨1, [1], some [2], some [], some [], some []⟩, none⟩ := by decide +kernel
  obtain ⟨done, accepted⟩ := revocable (teamWorld [1, 2]) (fun _ => 1) ops 2 7 "key".toList 5
    withoutLibrary (by decide +kernel) (by decide +kernel) (saved ▸ revokes_withoutLibrary)
  have refused : (botsAgentToolPolicySet (policiesAt (.new (teamWorld [1, 2]) fun _ => 1) ops 2) 7
      "key".toList withoutLibrary).toOption.isSome = false := by decide +kernel
  rw [accepted] at refused
  cases refused

end Revocation

end OHHive.AgentTools
