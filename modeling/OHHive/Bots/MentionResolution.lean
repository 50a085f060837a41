import OHHive.Bots.MentionOutline

/-! What resolving the mentions of a body promises about its outline, and the bodies for which
the promise is kept: those with no mention behind a stray run of backticks. -/

namespace OHHive.Bots.Mentions

section Names

variable {roster : List AgentProfile} {selfId : Option AgentId} {name other : String}

def isEveryone (name : String) : Bool := eqIgnoreAsciiCase name "everyone"

/-- The one live agent that a name means. -/
def named? (roster : List AgentProfile) (name : String) : Option AgentProfile :=
  match roster.filter (fun agent => !agent.archived && eqIgnoreAsciiCase agent.name name) with
  | [agent] => some agent
  | _ => none

theorem eqIgnoreAsciiCase_iff {first second : String} :
    eqIgnoreAsciiCase first second = true ↔
      first.toList.map Char.toLower = second.toList.map Char.toLower :=
  decide_eq_true_iff

/-- Names that differ in case only mean the same. -/
theorem named?_congr (same : eqIgnoreAsciiCase other name = true) :
    named? roster other = named? roster name := by
  have tests : ∀ text, eqIgnoreAsciiCase text other = eqIgnoreAsciiCase text name := by
    intro text
    unfold eqIgnoreAsciiCase
    rw [eqIgnoreAsciiCase_iff.mp same]
  unfold named?
  simp only [tests]

/-- What the names resolved so far have left in the result. -/
structure Resolved (roster : List AgentProfile) (selfId : Option AgentId) (names : List String)
    (result : MentionSet) : Prop where
  everyone : result.everyone = true ↔
    selfId = none ∧ ∃ name ∈ names, isEveryone name = true
  reached : ∀ name ∈ names, isEveryone name = false → ∀ agent, named? roster name = some agent →
    some agent.id ≠ selfId → agent.id ∈ result.recipients
  source : ∀ recipient ∈ result.recipients, result.everyone = true ∨
    ∃ name ∈ names, isEveryone name = false ∧
      ∃ agent, named? roster name = some agent ∧ agent.id = recipient
  reported : ∀ name ∈ names, isEveryone name = false → named? roster name = none →
    ∃ other ∈ result.unresolved, eqIgnoreAsciiCase other name = true
  unknown : ∀ name ∈ result.unresolved, name ∈ names ∧ isEveryone name = false ∧
    named? roster name = none

theorem mem_pushAll {items : List AgentId} {item : AgentId} (more : List AgentId) :
    item ∈ more.foldl pushNew items ↔ item ∈ items ∨ item ∈ more := by
  induction more generalizing items with
  | nil => simp
  | cons head tail ih =>
    rw [List.foldl_cons, ih, mem_pushNew, List.mem_cons, or_assoc]

/-- What one name does to the result. -/
inductive NameStep (roster : List AgentProfile) (selfId : Option AgentId) (result : MentionSet)
    (name : String) : MentionSet → Prop
  | broadcast (everyone : isEveryone name = true) (person : selfId = none) {recipients}
      (kept : ∀ recipient ∈ result.recipients, recipient ∈ recipients) :
      NameStep roster selfId result name { result with everyone := true, recipients }
  | muted (everyone : isEveryone name = true) (agent : selfId ≠ none) :
      NameStep roster selfId result name result
  | reach {agent recipients} (one : isEveryone name = false)
      (named : named? roster name = some agent)
      (members : ∀ recipient, recipient ∈ recipients ↔ recipient ∈ result.recipients ∨
        some agent.id ≠ selfId ∧ recipient = agent.id) :
      NameStep roster selfId result name { result with recipients }
  | report {unresolved} (one : isEveryone name = false) (unnamed : named? roster name = none)
      (kept : ∀ other ∈ result.unresolved, other ∈ unresolved)
      (known : ∀ other ∈ unresolved, other ∈ result.unresolved ∨ other = name)
      (listed : ∃ other ∈ unresolved, eqIgnoreAsciiCase other name = true) :
      NameStep roster selfId result name { result with unresolved }

theorem resolveName_step (roster : List AgentProfile) (selfId : Option AgentId)
    (result : MentionSet) (name : String) :
    NameStep roster selfId result name (resolveName roster selfId result name) := by
  unfold resolveName
  rw [show eqIgnoreAsciiCase name "everyone" = isEveryone name from rfl]
  by_cases everyone : isEveryone name = true
  · rw [if_pos everyone]
    cases selfId with
    | some id => exact NameStep.muted everyone nofun
    | none =>
      exact NameStep.broadcast everyone rfl fun recipient member =>
        (mem_pushAll _).mpr (Or.inl member)
  · have one : isEveryone name = false := eq_false_of_ne_true everyone
    rw [if_neg everyone]
    split
    · rename_i agent matched
      have named : named? roster name = some agent := by
        unfold named?
        rw [matched]
      by_cases other : some agent.id ≠ selfId
      · rw [if_pos other]
        refine NameStep.reach one named fun recipient => ?_
        rw [mem_pushNew, and_iff_right other]
      · rw [if_neg other]
        refine NameStep.reach one named fun recipient => ?_
        rw [or_iff_left fun added => other added.1]
    · rename_i several
      have unnamed : named? roster name = none := by
        unfold named?
        split
        · rename_i agent matched
          exact absurd matched (several agent)
        · rfl
      by_cases listed : result.unresolved.any (fun other => eqIgnoreAsciiCase other name) = true
      · rw [if_pos listed]
        exact NameStep.report one unnamed (fun _ => id) (fun _ => Or.inl)
          (List.any_eq_true.mp listed)
      · rw [if_neg listed]
        refine NameStep.report one unnamed (fun other => List.mem_append_left _)
          (fun other member => ?_) ⟨name, ?_, eqIgnoreAsciiCase_iff.mpr rfl⟩
        · exact (List.mem_append.mp member).imp_right List.mem_singleton.mp
        · exact List.mem_append_right _ (List.mem_singleton_self name)

theorem Resolved.nil : Resolved roster selfId [] ⟨[], [], false⟩ where
  everyone := by simp
  reached := nofun
  source := nofun
  reported := nofun
  unknown := nofun

theorem Resolved.snoc {names : List String} {result after : MentionSet}
    (resolved : Resolved roster selfId names result)
    (step : NameStep roster selfId result name after) :
    Resolved roster selfId (names ++ [name]) after := by
  obtain ⟨everyone, reached, source, reported, unknown⟩ := resolved
  have added : ∀ {test : String → Prop}, (∃ other ∈ names ++ [name], test other) ↔
      (∃ other ∈ names, test other) ∨ test name := by
    intro test
    simp [or_and_right, exists_or]
  have stays : ∀ other ∈ names, other ∈ names ++ [name] := fun _ => List.mem_append_left _
  have parts : ∀ other ∈ names ++ [name], other ∈ names ∨ other = name := fun other member =>
    (List.mem_append.mp member).imp_right List.mem_singleton.mp
  cases step with
  | broadcast all person kept =>
    refine ⟨?_, ?_, fun _ _ => Or.inl rfl, ?_, ?_⟩
    · exact ⟨fun _ => ⟨person, added.mpr (Or.inr all)⟩, fun _ => rfl⟩
    · intro other member one agent named apart
      rcases parts other member with old | rfl
      · exact kept _ (reached other old one agent named apart)
      · exact absurd all (ne_true_of_eq_false one)
    · intro other member one unnamed
      rcases parts other member with old | rfl
      · exact reported other old one unnamed
      · exact absurd all (ne_true_of_eq_false one)
    · exact fun other member => (unknown other member).imp_left (stays other)
  | muted all agent =>
    refine ⟨?_, ?_, ?_, ?_, ?_⟩
    · exact ⟨fun now => absurd (everyone.mp now).1 agent, fun person => absurd person.1 agent⟩
    · intro other member one
      rcases parts other member with old | rfl
      · exact reached other old one
      · exact absurd all (ne_true_of_eq_false one)
    · exact fun recipient member => (source recipient member).imp_right (added.mpr ∘ Or.inl)
    · intro other member one
      rcases parts other member with old | rfl
      · exact reported other old one
      · exact absurd all (ne_true_of_eq_false one)
    · exact fun other member => (unknown other member).imp_left (stays other)
  | @reach found recipients one named members =>
    refine ⟨?_, ?_, ?_, ?_, ?_⟩
    · rw [added, or_iff_left (ne_true_of_eq_false one)]
      exact everyone
    · intro other member single agent meant apart
      rcases parts other member with old | rfl
      · exact (members _).mpr (Or.inl (reached other old single agent meant apart))
      · obtain rfl := Option.some.inj (named.symm.trans meant)
        exact (members _).mpr (Or.inr ⟨apart, rfl⟩)
    · intro recipient member
      rcases (members recipient).mp member with old | ⟨_, rfl⟩
      · exact (source recipient old).imp_right (added.mpr ∘ Or.inl)
      · exact Or.inr (added.mpr (Or.inr ⟨one, found, named, rfl⟩))
    · intro other member single unnamed
      rcases parts other member with old | rfl
      · exact reported other old single unnamed
      · cases named.symm.trans unnamed
    · exact fun other member => (unknown other member).imp_left (stays other)
  | report one unnamed kept known listed =>
    refine ⟨?_, ?_, ?_, ?_, ?_⟩
    · rw [added, or_iff_left (ne_true_of_eq_false one)]
      exact everyone
    · intro other member single agent meant
      rcases parts other member with old | rfl
      · exact reached other old single agent meant
      · cases unnamed.symm.trans meant
    · exact fun recipient member => (source recipient member).imp_right (added.mpr ∘ Or.inl)
    · intro other member single absent
      rcases parts other member with old | rfl
      · obtain ⟨written, present, same⟩ := reported other old single absent
        exact ⟨written, kept written present, same⟩
      · exact listed
    · intro other member
      rcases known other member with old | rfl
      · exact (unknown other old).imp_left (stays other)
      · exact ⟨List.mem_append_right _ (List.mem_singleton_self _), one, unnamed⟩

theorem resolved_foldl (roster : List AgentProfile) (selfId : Option AgentId) {done : List String}
    {result : MentionSet} (resolved : Resolved roster selfId done result) (names : List String) :
    Resolved roster selfId (done ++ names) (names.foldl (resolveName roster selfId) result) := by
  induction names generalizing done result with
  | nil => exact (List.append_nil done).symm ▸ resolved
  | cons name rest ih =>
    have next := ih (resolved.snoc (resolveName_step roster selfId result name))
    rw [List.append_assoc] at next
    exact next

end Names

section Promise

variable {isAlphanumeric : Char → Bool} {body : String} {roster : List AgentProfile}
  {author : Principal}

/-- The mention tokens outside every fenced block and every closed code span. -/
def outsideMentions (isAlphanumeric : Char → Bool) (body : String) : List String :=
  mentions isAlphanumeric none (outline body)

/-- What the mentions of a body come to. Only distinct live agents other than the author are
woken, and by an agent's body only those it names; a token other than the broadcast is resolved
when it means exactly one live agent, and reported otherwise; what stands inside a fenced block
or a closed code span does not matter; and every mention outside of them is found. -/
structure KeepsMentions (isAlphanumeric : Char → Bool) (body : String)
    (roster : List AgentProfile) (author : Principal) : Prop where
  addressable : Addressable roster author
    (resolveMentions isAlphanumeric body roster author).recipients
  muted : ∀ id, author = .agent id →
    (resolveMentions isAlphanumeric body roster author).everyone = false ∧
      ∀ recipient ∈ (resolveMentions isAlphanumeric body roster author).recipients,
        ∃ token ∈ outsideMentions isAlphanumeric body, isEveryone token = false ∧
          ∃ agent, named? roster token = some agent ∧ agent.id = recipient
  reached : ∀ token ∈ outsideMentions isAlphanumeric body, isEveryone token = false →
    ∀ agent, named? roster token = some agent → author ≠ .agent agent.id →
      agent.id ∈ (resolveMentions isAlphanumeric body roster author).recipients
  resolved : ∀ token ∈ outsideMentions isAlphanumeric body, isEveryone token = false →
    ((named? roster token).isSome = true ↔
      ¬ ∃ other ∈ (resolveMentions isAlphanumeric body roster author).unresolved,
        eqIgnoreAsciiCase other token = true)
  inside : ∀ other, outline other = outline body →
    resolveMentions isAlphanumeric other roster author =
      resolveMentions isAlphanumeric body roster author
  found : mentionedNames isAlphanumeric body = outsideMentions isAlphanumeric body

/-- The promise is kept exactly for the bodies with no mention behind a stray run. -/
theorem keepsMentions_iff (isAlphanumeric : Char → Bool) (body : String)
    (roster : List AgentProfile) (author : Principal) :
    KeepsMentions isAlphanumeric body roster author ↔
      mentions isAlphanumeric (some backtick) (hidden (outline body)) = [] := by
  have split := mentions_eq isAlphanumeric (outline body)
  rw [← mentionedNames_eq] at split
  constructor
  · intro kept
    have same := kept.found.trans split
    exact List.self_eq_append_right.mp same
  · intro nothing
    rw [nothing, List.append_nil] at split
    have found : mentionedNames isAlphanumeric body = outsideMentions isAlphanumeric body :=
      split.symm
    have result : Resolved roster (Principal.agentId? author)
        (outsideMentions isAlphanumeric body)
        (resolveMentions isAlphanumeric body roster author) := by
      rw [resolveMentions, found]
      exact resolved_foldl roster _ Resolved.nil _
    refine ⟨resolveMentions_addressable isAlphanumeric body roster author, ?_, ?_, ?_, ?_, found⟩
    · rintro id rfl
      have silent : (resolveMentions isAlphanumeric body roster (.agent id)).everyone = false :=
        not_everyone_of_agent isAlphanumeric body id
      refine ⟨silent, fun recipient member => ?_⟩
      rcases result.source recipient member with broadcast | named
      · rw [silent] at broadcast
        cases broadcast
      · exact named
    · intro token member one agent named apart
      refine result.reached token member one agent named fun same => ?_
      exact apart (agentId?_eq_some_iff.mp same.symm)
    · intro token member one
      constructor
      · rintro known ⟨other, listed, same⟩
        obtain ⟨_, _, unnamed⟩ := result.unknown other listed
        rw [← named?_congr same, unnamed] at known
        cases known
      · intro absent
        by_contra unnamed
        rw [Option.not_isSome_iff_eq_none] at unnamed
        exact absent (result.reported token member one unnamed)
    · intro other same
      have names : mentionedNames isAlphanumeric other = mentionedNames isAlphanumeric body := by
        rw [mentionedNames_eq, mentionedNames_eq, same]
      rw [resolveMentions, names, resolveMentions]

def sif : AgentProfile :=
  { id := 1
    owner := 0
    name := "Sif"
    runtimeKind := .local
    preferredHost := none
    providerAccountRef := none
    archived := false }

/-- A stray backtick hides the mention behind it. -/
theorem stray_backtick_hides :
    ¬ ∀ isAlphanumeric body roster author, KeepsMentions isAlphanumeric body roster author := by
  intro kept
  have reached := (kept Char.isAlphanum "` @Sif" [sif] (.user 0)).reached "Sif"
    (by decide +kernel) (by decide +kernel) sif (by decide +kernel) nofun
  revert reached
  decide +kernel

end Promise

end OHHive.Bots.Mentions
