import OHHive.Bots.Types

/-! Mention resolution. A body is scanned line by line, outside code fences, inline code
and escapes, and the names found are resolved against the room roster only. -/

namespace OHHive.Bots.Mentions

structure MentionSet where
  recipients : List AgentId
  unresolved : List String
  everyone : Bool
deriving DecidableEq, Repr

section Scanning

/-- `str::lines`: a line feed ends a line and takes one carriage return with it. -/
def lines (reversed : List Char) : List Char → List (List Char)
  | [] => if reversed.isEmpty then [] else [reversed.reverse]
  | '\n' :: rest =>
      (match reversed with
        | '\r' :: kept => kept.reverse
        | kept => kept.reverse) :: lines [] rest
  | char :: rest => lines (char :: reversed) rest

/-- Strips the markers of nested quotes; `line` is what remains if no further one follows. -/
def stripQuotes (line : List Char) : List Char → List Char
  | ' ' :: rest => stripQuotes line rest
  | '>' :: ' ' :: rest => stripQuotes rest rest
  | '>' :: rest => stripQuotes rest rest
  | _ => line

def stripListMarker (line : List Char) : List Char :=
  match line.dropWhile (· = ' ') with
  | '-' :: ' ' :: rest | '*' :: ' ' :: rest | '+' :: ' ' :: rest => rest
  | _ => line

def nameChar (char : Char) : Bool := char.isAlphanum || char = '_' || char = '-'

/-- An `@` starts a mention only when it does not continue a word or an address. -/
def boundary (isAlphanumeric : Char → Bool) : Option Char → Bool
  | none => true
  | some previous =>
      !(isAlphanumeric previous || ['.', '_', '-', '+', '@', '/'].contains previous)

/-- The scan of one line. `inline` is the width of the open code span, `skip` counts the
characters already consumed; returned are the span left open and the names in order. -/
def scanLine (isAlphanumeric : Char → Bool) (inline skip : Nat) (previous : Option Char) :
    List Char → Nat × List String
  | [] => (inline, [])
  | char :: rest =>
    if skip > 0 then scanLine isAlphanumeric inline (skip - 1) (some char) rest
    else if char = '\\' ∧ inline = 0 then scanLine isAlphanumeric inline 1 (some char) rest
    else if char = Char.ofNat 96 then
      let width := 1 + (rest.takeWhile (· = Char.ofNat 96)).length
      let reopened := if inline = width then 0 else if inline = 0 then width else inline
      scanLine isAlphanumeric reopened (width - 1) (some char) rest
    else if inline = 0 ∧ char = '@' ∧ boundary isAlphanumeric previous then
      let name := rest.takeWhile nameChar
      let (left, names) := scanLine isAlphanumeric inline name.length (some char) rest
      (left, if name.isEmpty then names else String.ofList name :: names)
    else scanLine isAlphanumeric inline 0 (some char) rest

/-- The scan of a body. `fence` is the open code fence, with its marker and width. -/
def scanLines (isAlphanumeric : Char → Bool) (fence : Option (Char × Nat)) (inline : Nat) :
    List (List Char) → List String
  | [] => []
  | original :: rest =>
    let line := stripListMarker (stripQuotes original original)
    let trimmed := line.dropWhile (· = ' ')
    let indent := line.length - trimmed.length
    let marker := trimmed.headD ' '
    let run := (trimmed.takeWhile (· = marker)).length
    match fence with
    | some (char, width) =>
      if indent ≤ 3 ∧ marker = char ∧ width ≤ run ∧ (trimmed.drop run).all isWhitespace then
        scanLines isAlphanumeric none inline rest
      else scanLines isAlphanumeric fence inline rest
    | none =>
      if inline = 0 ∧ indent ≤ 3 ∧ (marker = Char.ofNat 96 ∨ marker = '~') ∧ 3 ≤ run then
        scanLines isAlphanumeric (some (marker, run)) inline rest
      else
        let (left, names) := scanLine isAlphanumeric inline 0 none line
        names ++ scanLines isAlphanumeric none left rest

def mentionedNames (isAlphanumeric : Char → Bool) (body : String) : List String :=
  scanLines isAlphanumeric none 0 (lines [] body.toList)

end Scanning

section Resolution

def eqIgnoreAsciiCase (first second : String) : Bool :=
  first.toList.map Char.toLower = second.toList.map Char.toLower

def pushNew [DecidableEq α] (items : List α) (item : α) : List α :=
  if item ∈ items then items else items ++ [item]

def Principal.agentId? : Principal → Option AgentId
  | .agent id => some id
  | .user _ => none

/-- One name: a broadcast reaches the roster only from a person, any other name must match
exactly one live agent. -/
def resolveName (roster : List AgentProfile) (selfId : Option AgentId) (result : MentionSet)
    (name : String) : MentionSet :=
  if eqIgnoreAsciiCase name "everyone" then
    if selfId.isSome then result
    else
      { result with
        everyone := true
        recipients := ((roster.filter (fun agent =>
          !agent.archived && some agent.id ≠ selfId)).map AgentProfile.id).foldl pushNew
            result.recipients }
  else
    match roster.filter (fun agent => !agent.archived && eqIgnoreAsciiCase agent.name name) with
    | [agent] =>
      if some agent.id ≠ selfId then
        { result with recipients := pushNew result.recipients agent.id }
      else result
    | _ =>
      if result.unresolved.any (fun other => eqIgnoreAsciiCase other name) then result
      else { result with unresolved := result.unresolved ++ [name] }

def resolveMentions (isAlphanumeric : Char → Bool) (body : String) (roster : List AgentProfile)
    (author : Principal) : MentionSet :=
  (mentionedNames isAlphanumeric body).foldl (resolveName roster (Principal.agentId? author))
    ⟨[], [], false⟩

/-- A person named in a reply is known, and wakes nobody. -/
def resolveMentionsWithParticipants (isAlphanumeric : Char → Bool) (body : String)
    (roster : List AgentProfile) (author : Principal) (nonAgentNames : List String) :
    MentionSet :=
  let resolved := resolveMentions isAlphanumeric body roster author
  { resolved with
    unresolved := resolved.unresolved.filter (fun name =>
      !nonAgentNames.any (fun known => eqIgnoreAsciiCase known name)) }

end Resolution

section Recipients

/-- Recipients are distinct live members of the roster, the author never among them. -/
structure Addressable (roster : List AgentProfile) (author : Principal)
    (recipients : List AgentId) : Prop where
  distinct : recipients.Nodup
  inRoster : ∀ recipient ∈ recipients, ∃ agent ∈ roster,
    agent.id = recipient ∧ agent.archived = false
  notSelf : ∀ recipient ∈ recipients, author ≠ .agent recipient

theorem mem_pushNew [DecidableEq α] {items : List α} {item other : α} :
    other ∈ pushNew items item ↔ other ∈ items ∨ other = item := by
  unfold pushNew
  split
  · rename_i member
    constructor
    · exact Or.inl
    · rintro (old | rfl)
      · exact old
      · exact member
  · simp

theorem nodup_pushNew [DecidableEq α] {items : List α} (distinct : items.Nodup) (item : α) :
    (pushNew items item).Nodup := by
  unfold pushNew
  split
  · exact distinct
  · rename_i absent
    rw [List.nodup_append]
    refine ⟨distinct, List.nodup_singleton item, ?_⟩
    intro old member new added same
    rw [List.mem_singleton.mp added] at same
    exact absent (same ▸ member)

variable {roster : List AgentProfile} {author : Principal}

theorem agentId?_eq_some_iff {id : AgentId} :
    Principal.agentId? author = some id ↔ author = .agent id := by
  cases author <;> simp [Principal.agentId?]

theorem Addressable.push {recipients : List AgentId}
    (valid : Addressable roster author recipients) {agent : AgentProfile}
    (member : agent ∈ roster) (live : agent.archived = false)
    (other : some agent.id ≠ Principal.agentId? author) :
    Addressable roster author (pushNew recipients agent.id) where
  distinct := nodup_pushNew valid.distinct _
  inRoster := by
    intro recipient found
    rcases mem_pushNew.mp found with old | rfl
    · exact valid.inRoster recipient old
    · exact ⟨agent, member, rfl, live⟩
  notSelf := by
    intro recipient found
    rcases mem_pushNew.mp found with old | rfl
    · exact valid.notSelf recipient old
    · exact fun same => other (agentId?_eq_some_iff.mpr same).symm

private theorem Addressable.pushAll (agents : List AgentProfile) {recipients : List AgentId}
    (valid : Addressable roster author recipients)
    (eligible : ∀ agent ∈ agents, agent ∈ roster ∧ agent.archived = false ∧
      some agent.id ≠ Principal.agentId? author) :
    Addressable roster author ((agents.map AgentProfile.id).foldl pushNew recipients) := by
  induction agents generalizing recipients with
  | nil => exact valid
  | cons agent rest ih =>
    obtain ⟨member, live, other⟩ := eligible agent (by simp)
    exact ih (valid.push member live other) (fun later present =>
      eligible later (List.mem_cons_of_mem _ present))

private theorem Addressable.resolveName {result : MentionSet}
    (valid : Addressable roster author result.recipients) (name : String) :
    Addressable roster author
      (resolveName roster (Principal.agentId? author) result name).recipients := by
  unfold Mentions.resolveName
  split
  · split
    · exact valid
    · apply Addressable.pushAll _ valid
      intro agent selected
      obtain ⟨member, passes⟩ := List.mem_filter.mp selected
      simp only [Bool.and_eq_true, Bool.not_eq_true', decide_eq_true_eq] at passes
      exact ⟨member, passes.1, passes.2⟩
  · split
    · rename_i agent matched
      obtain ⟨member, passes⟩ := List.mem_filter.mp (show agent ∈ roster.filter _ by
        rw [matched]; exact List.mem_singleton_self agent)
      simp only [Bool.and_eq_true, Bool.not_eq_true'] at passes
      split
      · rename_i other
        exact valid.push member passes.1 other
      · exact valid
    · split <;> exact valid

/-- Whatever a body says, it wakes distinct live roster agents other than its author. -/
theorem resolveMentions_addressable (isAlphanumeric : Char → Bool) (body : String)
    (roster : List AgentProfile) (author : Principal) :
    Addressable roster author
      (resolveMentions isAlphanumeric body roster author).recipients := by
  unfold resolveMentions
  generalize mentionedNames isAlphanumeric body = names
  have initial : Addressable roster author (⟨[], [], false⟩ : MentionSet).recipients :=
    ⟨List.nodup_nil, by simp, by simp⟩
  generalize (⟨[], [], false⟩ : MentionSet) = result at initial ⊢
  induction names generalizing result with
  | nil => exact initial
  | cons name rest ih => exact ih _ (initial.resolveName name)

/-- An agent's broadcast wakes nobody. -/
theorem not_everyone_of_agent (isAlphanumeric : Char → Bool) (body : String) (id : AgentId) :
    (resolveMentions isAlphanumeric body roster (.agent id)).everyone = false := by
  unfold resolveMentions
  generalize mentionedNames isAlphanumeric body = names
  have initial : (⟨[], [], false⟩ : MentionSet).everyone = false := rfl
  generalize (⟨[], [], false⟩ : MentionSet) = result at initial ⊢
  induction names generalizing result with
  | nil => exact initial
  | cons name rest ih =>
    apply ih
    simp only [Mentions.resolveName, Principal.agentId?, Option.isSome_some, if_true]
    split
    · exact initial
    · split
      · simp only [apply_ite MentionSet.everyone, initial, ite_self]
      · simp only [apply_ite MentionSet.everyone, initial, ite_self]

end Recipients

end OHHive.Bots.Mentions
