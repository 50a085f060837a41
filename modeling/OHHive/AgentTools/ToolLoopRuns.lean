import OHHive.AgentTools.ToolLoop

/-! A whole run of the tool loop: how often it calls the model and the authority, which calls get
through and which results they get. -/

namespace OHHive.AgentTools.ToolLoop

open Foundation

section Traces

def Act.call? : Act → Option AgentToolCall
  | .authority call => some call
  | _ => none

def Act.isModel : Act → Bool
  | .model _ _ _ => true
  | _ => false

def modelCalls (acts : List Act) : Nat := acts.countP Act.isModel

/-- A request to the model that asks for the final reply. -/
def Act.AsksFinal : Act → Prop
  | .model messages _ _ => message "user" finalReplyRequest ∈ messages
  | _ => False

/-- The calls that reached the authority, in order. -/
def authorityCalls (acts : List Act) : List AgentToolCall := acts.filterMap Act.call?

/-- The ids that tool results answer, in order. -/
def resultIds (messages : List ToolChatMessage) : List Text :=
  messages.filterMap ToolChatMessage.toolCallId

/-- The calls that the assistant's messages show, in order. -/
def shownCalls (messages : List ToolChatMessage) : List ToolCallOut :=
  messages.flatMap fun message => message.toolCalls.getD []

/-- The tool calls in one reply of the model. -/
def callsOf (outside : Surroundings) (number : Nat) : List ToolCallOut :=
  match outside.reply number with
  | .ok (.toolCalls calls, _, _) => calls
  | _ => []

/-- The tool calls in the first replies of the model, in order. -/
def given (outside : Surroundings) (count : Nat) : List ToolCallOut :=
  (List.range count).flatMap (callsOf outside)

def validCalls (codec : Codec) (tools : List String) (calls : List ToolCallOut) :
    List AgentToolCall :=
  calls.filterMap fun call => (validateCall codec tools call).toOption

theorem given_succ (outside : Surroundings) (count : Nat) :
    given outside (count + 1) = given outside count ++ callsOf outside count := by
  rw [given, List.range_succ, List.flatMap_append, List.flatMap_singleton, given]

theorem validCalls_append (codec : Codec) (tools : List String)
    (first second : List ToolCallOut) :
    validCalls codec tools (first ++ second) =
      validCalls codec tools first ++ validCalls codec tools second :=
  List.filterMap_append

theorem authorityCalls_append (first second : List Act) :
    authorityCalls (first ++ second) = authorityCalls first ++ authorityCalls second :=
  List.filterMap_append

theorem modelCalls_append (first second : List Act) :
    modelCalls (first ++ second) = modelCalls first + modelCalls second :=
  List.countP_append

theorem resultIds_append (first second : List ToolChatMessage) :
    resultIds (first ++ second) = resultIds first ++ resultIds second :=
  List.filterMap_append

theorem shownCalls_append (first second : List ToolChatMessage) :
    shownCalls (first ++ second) = shownCalls first ++ shownCalls second :=
  List.flatMap_append

theorem shownCalls_results {messages : List ToolChatMessage}
    (forms : ∀ message ∈ messages, ∃ id content, message = toolResult id content) :
    shownCalls messages = [] := by
  refine List.flatMap_eq_nil_iff.mpr fun message member => ?_
  obtain ⟨id, content, rfl⟩ := forms message member
  rfl

theorem numbered_cons (used : Nat) (call : ToolCallOut) (rest : List ToolCallOut) :
    numbered used (call :: rest) = { call with id := callId used } :: numbered (used + 1) rest := by
  rw [numbered, List.mapIdx_cons, numbered]
  simp only [Nat.add_zero, Nat.add_assoc, Nat.add_comm 1]

theorem numbered_append (used : Nat) (first second : List ToolCallOut) :
    numbered used (first ++ second) =
      numbered used first ++ numbered (used + first.length) second := by
  induction first generalizing used with
  | nil => rfl
  | cons call rest ih =>
    rw [List.cons_append, numbered_cons, numbered_cons, ih, List.cons_append, List.length_cons,
      Nat.add_assoc, Nat.add_comm 1]

theorem validCalls_cons (codec : Codec) (tools : List String) (call : ToolCallOut)
    (rest : List ToolCallOut) :
    validCalls codec tools (call :: rest) =
      (validateCall codec tools call).toOption.toList ++ validCalls codec tools rest := by
  rw [validCalls, List.filterMap_cons]
  cases (validateCall codec tools call).toOption <;> rfl

/-- A call is as valid under its number as under the id that the model gave it. -/
theorem validCalls_numbered (codec : Codec) (tools : List String) (used : Nat)
    (calls : List ToolCallOut) :
    validCalls codec tools (numbered used calls) = validCalls codec tools calls := by
  induction calls generalizing used with
  | nil => rfl
  | cons call rest ih =>
    have same : validateCall codec tools { call with id := callId used } =
        validateCall codec tools call := rfl
    rw [numbered_cons, validCalls_cons, validCalls_cons, ih (used + 1), same]

theorem callId_injective {first second : Nat} (same : callId first = callId second) :
    first = second := by
  have digits := List.append_cancel_left same
  have value := congrArg (fun chars => Nat.ofDigitChars 10 chars 0) digits
  simpa [Nat.ofDigitChars_toDigits] using value

/-- A call asks the authority once, whatever comes of it, and never the model. -/
theorem execute_acts (call : AgentToolCall) (answer : Answer) :
    authorityCalls (execute call answer).1 = [call] ∧
      ∀ act ∈ (execute call answer).1, act.isModel = false := by
  cases call with
  | webFetch url =>
    unfold execute
    cases answer.webAuthorize <;> exact ⟨rfl, by simp [Act.isModel]⟩
  | webPost url body =>
    unfold execute
    cases answer.webPostAuthorize <;> exact ⟨rfl, by simp [Act.isModel]⟩
  | vaultSearch | vaultRead | vaultSave | handoffCreate | handoffResolve =>
    exact ⟨rfl, by simp [execute, Act.isModel]⟩

theorem nodup_numbered (used : Nat) (calls : List ToolCallOut) :
    ((numbered used calls).map ToolCallOut.id).Nodup := by
  have ids : (numbered used calls).map ToolCallOut.id =
      (List.range calls.length).map fun index => callId (used + index) := by
    refine List.ext_getElem (by simp [numbered]) fun index _ _ => ?_
    simp [numbered]
  rw [ids]
  refine List.nodup_range.map fun first second same => ?_
  exact Nat.add_left_cancel (callId_injective same)

theorem modelCalls_of_none {acts : List Act} (none : ∀ act ∈ acts, act.isModel = false) :
    modelCalls acts = 0 :=
  List.countP_eq_zero.mpr fun act member => by simp [none act member]

end Traces

section Batches

variable {outside : Surroundings} {tools : List String}

def validOf (pairs : List (ToolCallOut × Except String AgentToolCall)) : List AgentToolCall :=
  pairs.filterMap fun pair => pair.2.toOption

theorem validOf_cons (call : ToolCallOut) (parsed : Except String AgentToolCall)
    (rest : List (ToolCallOut × Except String AgentToolCall)) :
    validOf ((call, parsed) :: rest) = parsed.toOption.toList ++ validOf rest := by
  cases parsed <;> rfl

/-- The outcome of a call that ends the turn. -/
def Fails (codec : Codec) : Except String Value → Prop
  | .error _ => True
  | .ok result => Coder.byteLength (codec.print result) > 65536

/-- What performing calls adds: the valid ones reach the authority and all get their results,
except that a call that fails leaves out what follows it. -/
structure Performed (outside : Surroundings) (loop : Loop)
    (pairs : List (ToolCallOut × Except String AgentToolCall)) (after : Loop)
    (failure : Option String) : Prop where
  acts : ∃ added, after.acts = loop.acts ++ added ∧ (∀ act ∈ added, act.isModel = false) ∧
    authorityCalls added <+: validOf pairs ∧
    (failure = none → authorityCalls added = validOf pairs) ∧
    (∀ reason, failure = some reason → ∃ call position,
      (authorityCalls added).getLast? = some call ∧
        Fails outside.codec (execute call (outside.answer position)).2)
  messages : ∃ added, after.messages = loop.messages ++ added ∧
    (∀ message ∈ added, ∃ id content, message = toolResult id content) ∧
    resultIds added <+: pairs.map (fun pair => pair.1.id) ∧
    (failure = none → resultIds added = pairs.map (fun pair => pair.1.id))
  used : failure = none → after.used = loop.used + pairs.length
  turns : after.invalidOnlyTurns = loop.invalidOnlyTurns
  recovery : after.finalOnlyRecovery = loop.finalOnlyRecovery

/-- One call that is performed to its end, before the rest of its batch. -/
theorem Performed.cons {loop between after : Loop} {failure : Option String}
    {call : ToolCallOut} {parsed : Except String AgentToolCall}
    {rest : List (ToolCallOut × Except String AgentToolCall)} {added : List Act} {content : Text}
    (performed : Performed outside between rest after failure)
    (actsBetween : between.acts = loop.acts ++ added)
    (quiet : ∀ act ∈ added, act.isModel = false)
    (asked : authorityCalls added = parsed.toOption.toList)
    (messagesBetween : between.messages = loop.messages ++ [toolResult call.id content])
    (usedBetween : between.used = loop.used + 1)
    (turnsBetween : between.invalidOnlyTurns = loop.invalidOnlyTurns)
    (recoveryBetween : between.finalOnlyRecovery = loop.finalOnlyRecovery) :
    Performed outside loop ((call, parsed) :: rest) after failure := by
  obtain ⟨more, actsAfter, quietMore, askedMore, askedAll, failed⟩ := performed.acts
  obtain ⟨results, messagesAfter, forms, answered, answeredAll⟩ := performed.messages
  have valid := validOf_cons call parsed rest
  refine ⟨⟨added ++ more, ?_, ?_, ?_, ?_, ?_⟩,
    ⟨toolResult call.id content :: results, ?_, ?_, ?_, ?_⟩, ?_, ?_, ?_⟩
  · rw [actsAfter, actsBetween, List.append_assoc]
  · intro act member
    rcases List.mem_append.mp member with first | second
    · exact quiet act first
    · exact quietMore act second
  · rw [authorityCalls_append, asked, valid]
    exact List.prefix_append_right_inj _ |>.mpr askedMore
  · intro whole
    rw [authorityCalls_append, asked, valid, askedAll whole]
  · intro reason failedSo
    obtain ⟨last, position, isLast, fails⟩ := failed reason failedSo
    refine ⟨last, position, ?_, fails⟩
    rw [authorityCalls_append, List.getLast?_append, isLast, Option.some_or]
  · rw [messagesAfter, messagesBetween, List.append_assoc, List.singleton_append]
  · intro message member
    rcases List.mem_cons.mp member with rfl | later
    · exact ⟨_, _, rfl⟩
    · exact forms message later
  · exact List.cons_prefix_cons.mpr ⟨rfl, answered⟩
  · intro whole
    exact congrArg (call.id :: ·) (answeredAll whole)
  · intro whole
    rw [performed.used whole, usedBetween, List.length_cons]
    omega
  · exact performed.turns.trans turnsBetween
  · exact performed.recovery.trans recoveryBetween

/-- A call whose failure ends the turn reached the authority all the same. -/
theorem Performed.failed {loop after : Loop} {reason : String} {call : ToolCallOut}
    {parsed : AgentToolCall} {rest : List (ToolCallOut × Except String AgentToolCall)}
    {added : List Act} (actsAfter : after.acts = loop.acts ++ added)
    (quiet : ∀ act ∈ added, act.isModel = false) (asked : authorityCalls added = [parsed])
    (position : Nat) (fails : Fails outside.codec (execute parsed (outside.answer position)).2)
    (messagesAfter : after.messages = loop.messages)
    (turns : after.invalidOnlyTurns = loop.invalidOnlyTurns)
    (recovery : after.finalOnlyRecovery = loop.finalOnlyRecovery) :
    Performed outside loop ((call, .ok parsed) :: rest) after (some reason) := by
  refine ⟨⟨added, actsAfter, quiet, ?_, nofun, ?_⟩,
    ⟨[], by rw [messagesAfter, List.append_nil], nofun, List.nil_prefix, nofun⟩, nofun, turns,
    recovery⟩
  · rw [asked]
    exact List.cons_prefix_cons.mpr ⟨rfl, List.nil_prefix⟩
  · intro _ _
    exact ⟨parsed, position, by rw [asked]; rfl, fails⟩

/-- The pairs of a batch: each call under its number, with what the check says of it. -/
theorem validOf_checked (codec : Codec) (used : Nat) (calls : List ToolCallOut) :
    validOf ((numbered used calls).zip ((numbered used calls).map (validateCall codec tools))) =
      validCalls codec tools calls := by
  rw [← validCalls_numbered codec tools used calls]
  induction numbered used calls with
  | nil => rfl
  | cons call rest ih =>
    rw [List.map_cons, List.zip_cons_cons, validOf_cons, validCalls_cons, ih]

theorem ids_checked (codec : Codec) (calls : List ToolCallOut) :
    (calls.zip (calls.map (validateCall codec tools))).map (fun pair => pair.1.id) =
      calls.map ToolCallOut.id := by
  induction calls with
  | nil => rfl
  | cons call rest ih =>
    rw [List.map_cons, List.zip_cons_cons, List.map_cons, List.map_cons, ih]

theorem performed_performCalls (pairs : List (ToolCallOut × Except String AgentToolCall))
    (loop : Loop) :
    Performed outside loop pairs (performCalls outside tools loop pairs).1
      (performCalls outside tools loop pairs).2 := by
  induction pairs generalizing loop with
  | nil => exact ⟨⟨[], by simp [performCalls, authorityCalls, validOf]⟩,
      ⟨[], by simp [performCalls, resultIds]⟩, fun _ => rfl, rfl, rfl⟩
  | cons pair rest ih =>
    obtain ⟨call, parsed⟩ := pair
    cases parsed with
    | error reason =>
      simp only [performCalls]
      exact Performed.cons (ih _) (List.append_nil _).symm nofun rfl rfl rfl rfl rfl
    | ok parsed =>
      obtain ⟨asked, quiet⟩ := execute_acts parsed (outside.answer loop.used)
      simp only [performCalls, Nat.add_sub_cancel]
      split
      · rename_i reason failed
        exact Performed.failed rfl quiet asked loop.used (by rw [failed]; trivial) rfl rfl rfl
      · rename_i result succeeded
        split
        · rename_i large
          exact Performed.failed rfl quiet asked loop.used (by rw [succeeded]; exact large)
            rfl rfl rfl
        · exact Performed.cons (ih _) rfl quiet asked rfl rfl rfl rfl

end Batches

section Rounds

variable {outside : Surroundings} {tools : List String} {think : Option Bool}

/-- A reply with tool calls of which none is valid. -/
def InvalidOnly (outside : Surroundings) (tools : List String) (number : Nat) : Prop :=
  callsOf outside number ≠ [] ∧
    ∀ call ∈ callsOf outside number, (validateCall outside.codec tools call).isOk = false

def Malformed (call : ToolCallOut) : Prop :=
  Coder.byteLength call.arguments > 8192 ∨ call.kind ≠ "function".toList

/-- Why a batch is refused as a whole. -/
inductive Refused (outside : Surroundings) (tools : List String) (number : Nat) (loop : Loop) :
    Prop
  | recovering (last : loop.finalOnlyRecovery = true)
  | tooMany (many : 8 < loop.used + (callsOf outside number).length)
  | malformed (call : ToolCallOut) (member : call ∈ callsOf outside number)
      (bad : Malformed call)
  | exhausted (first : loop.finalOnlyRecovery = false) (turns : 2 ≤ loop.invalidOnlyTurns)
      (invalid : InvalidOnly outside tools number)

/-- What one round does, by its outcome. -/
inductive RoundEffect (outside : Surroundings) (tools : List String) (number : Nat)
    (loop after : Loop) : Option Outcome → Prop
  | tooLong (reason : String) (same : after = loop) :
      RoundEffect outside tools number loop after (some (.error reason))
  | ended (offered : List String) (think : Option Bool) (outcome : Outcome)
      (acts : after.acts = loop.acts ++ [.model loop.messages offered think])
      (messages : after.messages = loop.messages)
      (noTools : loop.finalOnlyRecovery = true → offered = [])
      (whole : callsOf outside number = [] ∨
        Refused outside tools number loop ∧ ∃ reason, outcome = .error reason) :
      RoundEffect outside tools number loop after (some outcome)
  | asked (offered : List String) (think : Option Bool)
      (first : loop.finalOnlyRecovery = false)
      (noCalls : callsOf outside number = [])
      (acts : after.acts = loop.acts ++ [.model loop.messages offered think])
      (messages : after.messages = loop.messages ++ [message "user" finalReplyRequest])
      (used : after.used = loop.used)
      (recovery : after.finalOnlyRecovery = true) :
      RoundEffect outside tools number loop after none
  | performed (offered : List String) (think : Option Bool) (between : Loop)
      (failure : Option String)
      (first : loop.finalOnlyRecovery = false)
      (within : loop.used + (callsOf outside number).length ≤ 8)
      (acts : between.acts = loop.acts ++ [.model loop.messages offered think])
      (messages : between.messages = loop.messages ++
        [⟨"assistant", none, some (numbered loop.used (callsOf outside number)), none⟩])
      (used : between.used = loop.used)
      (recovery : between.finalOnlyRecovery = false)
      (turns : between.invalidOnlyTurns = 0 ∨
        between.invalidOnlyTurns = loop.invalidOnlyTurns + 1 ∧ InvalidOnly outside tools number)
      (batch : Performed outside between
        ((numbered loop.used (callsOf outside number)).zip
          ((numbered loop.used (callsOf outside number)).map (validateCall outside.codec tools)))
        after failure) :
      RoundEffect outside tools number loop after (failure.map .error)

theorem all_invalid (codec : Codec) (used : Nat) (calls : List ToolCallOut) :
    ((numbered used calls).map (validateCall codec tools)).all (fun result => !result.isOk) =
      calls.all fun call => !(validateCall codec tools call).isOk := by
  induction calls generalizing used with
  | nil => rfl
  | cons call rest ih =>
    have same : validateCall codec tools { call with id := callId used } =
        validateCall codec tools call := rfl
    rw [numbered_cons, List.map_cons, List.all_cons, List.all_cons, ih (used + 1), same]

theorem effect_of_batch {number : Nat} {loop called : Loop} {offered : List String}
    (acts : called.acts = loop.acts ++ [.model loop.messages offered think])
    (messages : called.messages = loop.messages) (used : called.used = loop.used)
    (turns : called.invalidOnlyTurns = loop.invalidOnlyTurns)
    (recovery : called.finalOnlyRecovery = loop.finalOnlyRecovery)
    (noTools : loop.finalOnlyRecovery = true → offered = []) :
    RoundEffect outside tools number loop
      (called.batch outside tools (callsOf outside number)).1
      (called.batch outside tools (callsOf outside number)).2 := by
  have ended : ∀ reason after, after.acts = called.acts → after.messages = called.messages →
      (callsOf outside number = [] ∨ Refused outside tools number loop) →
      RoundEffect outside tools number loop after (some (.error reason)) :=
    fun reason after sameActs sameMessages why => .ended offered think _ (sameActs.trans acts)
      (sameMessages.trans messages) noTools (why.imp_right fun refused => ⟨refused, reason, rfl⟩)
  unfold Loop.batch
  by_cases last : called.finalOnlyRecovery = true
  · rw [if_pos last]
    exact ended _ _ rfl rfl (.inr (.recovering (recovery.symm.trans last)))
  rw [if_neg last]
  have first := recovery.symm.trans (Bool.eq_false_iff.mpr last)
  by_cases many : ((callsOf outside number).isEmpty ||
      decide (called.used + (callsOf outside number).length > 8)) = true
  · rw [if_pos many]
    refine ended _ _ rfl rfl ?_
    rcases Bool.or_eq_true_iff.mp many with none | tooMany
    · exact .inl (List.isEmpty_iff.mp none)
    · exact .inr (.tooMany (used ▸ of_decide_eq_true tooMany))
  rw [if_neg many]
  obtain ⟨some, few⟩ : callsOf outside number ≠ [] ∧
      loop.used + (callsOf outside number).length ≤ 8 := by
    simp only [Bool.or_eq_true, decide_eq_true_eq, not_or, not_lt, List.isEmpty_iff] at many
    exact ⟨many.1, used ▸ many.2⟩
  split
  · rename_i bad
    obtain ⟨call, member, bad⟩ := List.any_eq_true.mp bad
    refine ended _ _ rfl rfl (.inr (.malformed call member ?_))
    exact (Bool.or_eq_true_iff.mp bad).imp of_decide_eq_true of_decide_eq_true
  · dsimp only
    rw [used, all_invalid]
    by_cases invalid : ((callsOf outside number).all
        fun call => !(validateCall outside.codec tools call).isOk) = true
    · have invalidOnly : InvalidOnly outside tools number :=
        ⟨some, fun call member => by simpa using List.all_eq_true.mp invalid call member⟩
      rw [if_pos invalid, invalid, Bool.true_and, turns]
      split
      · rename_i exhausted
        refine ended _ _ rfl rfl (.inr (.exhausted first ?_ invalidOnly))
        exact Nat.le_of_succ_le_succ (of_decide_eq_true exhausted)
      · refine .performed offered think _ _ first few ?_ ?_ ?_ ?_ ?_ (performed_performCalls _ _)
        · exact acts
        · exact congrArg (· ++ [_]) messages
        · rfl
        · exact recovery.trans first
        · exact .inr ⟨rfl, invalidOnly⟩
    · rw [if_neg invalid, Bool.eq_false_iff.mpr invalid, Bool.false_and, if_neg Bool.false_ne_true]
      refine .performed offered think _ _ first few ?_ ?_ ?_ ?_ ?_ (performed_performCalls _ _)
      · exact acts
      · exact congrArg (· ++ [_]) messages
      · rfl
      · exact recovery.trans first
      · exact .inl rfl

theorem effect_of_round (loop : Loop) (number : Nat) :
    RoundEffect outside tools number loop (loop.round outside tools think number).1
      (loop.round outside tools think number).2 := by
  unfold Loop.round
  by_cases long : outside.codec.encodedLength loop.messages > 256 * 1024
  · rw [if_pos long]
    exact .tooLong _ rfl
  rw [if_neg long]
  have noTools : loop.finalOnlyRecovery = true →
      (if loop.finalOnlyRecovery then [] else tools) = [] := fun recovery => if_pos recovery
  generalize (if loop.finalOnlyRecovery then [] else tools) = offered at noTools ⊢
  cases answered : outside.reply number with
  | error reason =>
    have noCalls : callsOf outside number = [] := by rw [callsOf, answered]
    exact .ended offered think _ rfl rfl noTools (.inl noCalls)
  | ok reply =>
    obtain ⟨result, tokensIn, tokensOut⟩ := reply
    cases result with
    | toolCalls calls =>
      have theCalls : callsOf outside number = calls := by rw [callsOf, answered]
      subst theCalls
      exact effect_of_batch rfl rfl rfl rfl rfl noTools
    | text text =>
      have noCalls : callsOf outside number = [] := by rw [callsOf, answered]
      dsimp only
      split
      · exact .ended offered think _ rfl rfl noTools (.inl noCalls)
      · split
        · by_cases recovery : loop.finalOnlyRecovery = true
          · rw [if_pos recovery]
            exact .ended offered think _ rfl rfl noTools (.inl noCalls)
          · rw [if_neg recovery]
            exact .asked offered think (Bool.eq_false_iff.mpr recovery) noCalls rfl rfl rfl rfl
        · exact .ended offered think _ rfl rfl noTools (.inl noCalls)

/-- What holds when so many rounds have gone by. -/
structure Kept (outside : Surroundings) (tools : List String) (rounds : Nat) (loop : Loop) :
    Prop where
  models : modelCalls loop.acts = rounds
  used : loop.used = (given outside rounds).length
  within : loop.used ≤ 8
  authority : authorityCalls loop.acts = validCalls outside.codec tools (given outside rounds)
  shown : shownCalls loop.messages = numbered 0 (given outside rounds)
  results : resultIds loop.messages = (shownCalls loop.messages).map ToolCallOut.id
  notAsked : ∀ act ∈ loop.acts, ¬ act.AsksFinal
  request : message "user" finalReplyRequest ∈ loop.messages ↔ loop.finalOnlyRecovery = true
  invalid : loop.finalOnlyRecovery = false → loop.invalidOnlyTurns ≤ rounds ∧
    ∀ back < loop.invalidOnlyTurns, InvalidOnly outside tools (rounds - 1 - back)

/-- Why the last reply with tool calls was not performed whole. -/
inductive Stopped (outside : Surroundings) (tools : List String) (number : Nat)
    (acts : List Act) : Prop
  | recovering (act : Act) (member : act ∈ acts) (asks : act.AsksFinal)
  | tooMany (many : 8 < (given outside (number + 1)).length)
  | malformed (call : ToolCallOut) (member : call ∈ callsOf outside number)
      (bad : Malformed call)
  | exhausted (turns : 2 ≤ number) (invalid : ∀ back ≤ 2, InvalidOnly outside tools (number - back))
  | failed (call : AgentToolCall) (position : Nat)
      (last : (authorityCalls acts).getLast? = some call)
      (fails : Fails outside.codec (execute call (outside.answer position)).2)

/-- Each valid call reached the authority and each call is shown and has its result. -/
structure Complete (outside : Surroundings) (tools : List String) (loop : Loop) : Prop where
  authority : authorityCalls loop.acts =
    validCalls outside.codec tools (given outside (modelCalls loop.acts))
  shown : shownCalls loop.messages = numbered 0 (given outside (modelCalls loop.acts))
  results : resultIds loop.messages = (shownCalls loop.messages).map ToolCallOut.id

/-- What holds of a run that has ended. -/
structure Bounded (outside : Surroundings) (tools : List String) (loop : Loop)
    (outcome : Outcome) : Prop where
  models : modelCalls loop.acts ≤ 9
  executed : (authorityCalls loop.acts).length ≤ 8
  authority : authorityCalls loop.acts <+:
    validCalls outside.codec tools (given outside (modelCalls loop.acts))
  earlier : validCalls outside.codec tools (given outside (modelCalls loop.acts - 1)) <+:
    authorityCalls loop.acts
  shown : shownCalls loop.messages <+: numbered 0 (given outside (modelCalls loop.acts))
  results : resultIds loop.messages <+: (shownCalls loop.messages).map ToolCallOut.id
  unique : ((shownCalls loop.messages).map ToolCallOut.id).Nodup
  complete : Complete outside tools loop ∨
    Stopped outside tools (modelCalls loop.acts - 1) loop.acts ∧ ∃ reason, outcome = .error reason
  recovery : ∀ before messages offered think after,
    loop.acts = before ++ .model messages offered think :: after →
    message "user" finalReplyRequest ∈ messages → offered = [] ∧ after = []

theorem length_validCalls_le (codec : Codec) (calls : List ToolCallOut) :
    (validCalls codec tools calls).length ≤ calls.length :=
  List.length_filterMap_le _ _

theorem given_grows (rounds : Nat) : given outside rounds <+: given outside (rounds + 1) := by
  rw [given_succ]
  exact List.prefix_append _ _

theorem validCalls_prefix (codec : Codec) {first second : List ToolCallOut}
    (before : first <+: second) : validCalls codec tools first <+: validCalls codec tools second :=
  before.filterMap _

theorem numbered_prefix {first second : List ToolCallOut} (before : first <+: second) :
    numbered 0 first <+: numbered 0 second := by
  obtain ⟨rest, rfl⟩ := before
  rw [numbered_append]
  exact List.prefix_append _ _

theorem modelCalls_request (acts : List Act) (messages : List ToolChatMessage)
    (offered : List String) (think : Option Bool) :
    modelCalls (acts ++ [.model messages offered think]) = modelCalls acts + 1 :=
  modelCalls_append acts _

theorem authorityCalls_request (acts : List Act) (messages : List ToolChatMessage)
    (offered : List String) (think : Option Bool) :
    authorityCalls (acts ++ [.model messages offered think]) = authorityCalls acts := by
  rw [authorityCalls_append]
  exact List.append_nil _

/-- An act that stands nowhere before the last one is the last one. -/
theorem last_of_split {α : Type} {initial before after : List α} {last found : α}
    (split : initial ++ [last] = before ++ found :: after) (fresh : found ∉ initial) :
    after = [] ∧ found = last := by
  rcases List.eq_nil_or_concat after with rfl | ⟨rest, final, rfl⟩
  · obtain ⟨-, same⟩ := List.append_inj' split rfl
    exact ⟨rfl, (List.head_eq_of_cons_eq same).symm⟩
  · rw [List.concat_eq_append, ← List.cons_append, ← List.append_assoc] at split
    obtain ⟨same, -⟩ := List.append_inj' split rfl
    exact absurd (same ▸ List.mem_append_right before List.mem_cons_self) fresh

theorem message_ne {other : ToolChatMessage} {role : String} (apart : role ≠ "user")
    (hasRole : other.role = role) : message "user" finalReplyRequest ≠ other :=
  fun same => apart (hasRole.symm.trans (congrArg ToolChatMessage.role same).symm)

theorem Kept.start (prompt : Text) : Kept outside tools 0 (.start prompt) where
  models := rfl
  used := rfl
  within := Nat.zero_le 8
  authority := rfl
  shown := rfl
  results := rfl
  notAsked := nofun
  request := by
    refine iff_of_false (fun member => ?_) Bool.false_ne_true
    exact message_ne (by decide : "system" ≠ "user") rfl (List.mem_singleton.mp member)
  invalid _ := ⟨le_rfl, nofun⟩

/-- No call of the model before this round asked for the final reply. -/
theorem Kept.recovery_of_request {loop : Loop} {rounds : Nat}
    (kept : Kept outside tools rounds loop) {acts : List Act} {offered : List String}
    (actsAre : acts = loop.acts ++ [.model loop.messages offered think])
    (noTools : loop.finalOnlyRecovery = true → offered = [])
    {before after : List Act} {messages : List ToolChatMessage} {tools : List String}
    {thinks : Option Bool} (split : acts = before ++ .model messages tools thinks :: after)
    (asked : message "user" finalReplyRequest ∈ messages) : tools = [] ∧ after = [] := by
  have fresh : .model messages tools thinks ∉ loop.acts :=
    fun member => kept.notAsked _ member asked
  obtain ⟨none, same⟩ := last_of_split (actsAre.symm.trans split) fresh
  obtain ⟨rfl, rfl, -⟩ := Act.model.inj same
  exact ⟨noTools (kept.request.mp asked), none⟩

/-- A refused batch leaves its reason in the trace. -/
theorem Kept.stopped_of_refused {loop : Loop} {rounds : Nat} {acts : List Act}
    {offered : List String} (kept : Kept outside tools rounds loop)
    (actsAre : acts = loop.acts ++ [.model loop.messages offered think])
    (refused : Refused outside tools rounds loop) : Stopped outside tools rounds acts := by
  cases refused with
  | recovering last =>
    refine .recovering (.model loop.messages offered think) ?_ (kept.request.mpr last)
    rw [actsAre]
    exact List.mem_append_right _ List.mem_cons_self
  | tooMany many =>
    refine .tooMany ?_
    rw [given_succ, List.length_append, ← kept.used]
    exact many
  | malformed call member bad => exact .malformed call member bad
  | exhausted first turns invalid =>
    obtain ⟨few, earlier⟩ := kept.invalid first
    refine .exhausted (turns.trans few) fun back near => ?_
    cases back with
    | zero => exact invalid
    | succ back =>
      have recent := earlier back (by omega)
      rwa [Nat.sub_sub, Nat.add_comm 1 back] at recent

/-- Nothing asked for the final reply when a batch has been performed. -/
theorem Kept.notAsked_performed {loop : Loop} {rounds : Nat}
    (kept : Kept outside tools rounds loop) (first : loop.finalOnlyRecovery = false)
    (offered : List String) (think : Option Bool) (added : List Act)
    (quiet : ∀ act ∈ added, act.isModel = false) :
    ∀ act ∈ loop.acts ++ [.model loop.messages offered think] ++ added, ¬ act.AsksFinal := by
  intro act member
  rcases List.mem_append.mp member with old | new
  · rcases List.mem_append.mp old with past | last
    · exact kept.notAsked act past
    · obtain rfl := List.mem_singleton.mp last
      exact fun asks => Bool.false_ne_true (first.symm.trans (kept.request.mp asks))
  · intro asks
    cases act with
    | model => exact absurd (quiet _ new) (by simp [Act.isModel])
    | authority | fetch | observe | post => exact asks

/-- What a batch shows and answers, whether or not it was performed whole. -/
theorem Kept.messages_performed {loop between after : Loop} {rounds : Nat}
    {failure : Option String} (kept : Kept outside tools rounds loop)
    (messages : between.messages = loop.messages ++
      [⟨"assistant", none, some (numbered loop.used (callsOf outside rounds)), none⟩])
    (batch : Performed outside between
      ((numbered loop.used (callsOf outside rounds)).zip
        ((numbered loop.used (callsOf outside rounds)).map (validateCall outside.codec tools)))
      after failure) :
    shownCalls after.messages = numbered 0 (given outside (rounds + 1)) ∧
      resultIds after.messages <+: (shownCalls after.messages).map ToolCallOut.id ∧
      (failure = none →
        resultIds after.messages = (shownCalls after.messages).map ToolCallOut.id) := by
  obtain ⟨results, messagesAfter, forms, answered, answeredAll⟩ := batch.messages
  rw [ids_checked] at answered answeredAll
  have shown : shownCalls after.messages =
      shownCalls loop.messages ++ numbered loop.used (callsOf outside rounds) := by
    rw [messagesAfter, shownCalls_append, shownCalls_results forms, List.append_nil, messages,
      shownCalls_append]
    exact congrArg _ (List.append_nil _)
  have ids : resultIds after.messages = resultIds loop.messages ++ resultIds results := by
    rw [messagesAfter, resultIds_append, messages, resultIds_append]
    exact congrArg (· ++ _) (List.append_nil _)
  refine ⟨?_, ?_, ?_⟩
  · rw [shown, kept.shown, given_succ, numbered_append, Nat.zero_add, ← kept.used]
  · rw [shown, ids, List.map_append, kept.results]
    exact (List.prefix_append_right_inj _).mpr answered
  · intro whole
    rw [shown, ids, List.map_append, kept.results, answeredAll whole]

theorem Kept.acts_performed {loop between after : Loop} {rounds : Nat} {offered : List String}
    {failure : Option String} (kept : Kept outside tools rounds loop)
    (acts : between.acts = loop.acts ++ [.model loop.messages offered think])
    (batch : Performed outside between
      ((numbered loop.used (callsOf outside rounds)).zip
        ((numbered loop.used (callsOf outside rounds)).map (validateCall outside.codec tools)))
      after failure) :
    modelCalls after.acts = rounds + 1 ∧
      validCalls outside.codec tools (given outside rounds) <+: authorityCalls after.acts ∧
      authorityCalls after.acts <+:
        validCalls outside.codec tools (given outside (rounds + 1)) ∧
      (failure = none → authorityCalls after.acts =
        validCalls outside.codec tools (given outside (rounds + 1))) ∧
      (∀ reason, failure = some reason → Stopped outside tools rounds after.acts) := by
  obtain ⟨added, actsAfter, quiet, asked, askedAll, failed⟩ := batch.acts
  rw [validOf_checked] at asked askedAll
  have calls : authorityCalls after.acts =
      validCalls outside.codec tools (given outside rounds) ++ authorityCalls added := by
    rw [actsAfter, authorityCalls_append, acts, authorityCalls_request, kept.authority]
  have next : validCalls outside.codec tools (given outside (rounds + 1)) =
      validCalls outside.codec tools (given outside rounds) ++
        validCalls outside.codec tools (callsOf outside rounds) := by
    rw [given_succ, validCalls_append]
  refine ⟨?_, ?_, ?_, ?_, ?_⟩
  · rw [actsAfter, modelCalls_append, acts, modelCalls_request, kept.models,
      modelCalls_of_none quiet]
  · exact ⟨_, calls.symm⟩
  · rw [calls, next]
    exact (List.prefix_append_right_inj _).mpr asked
  · intro whole
    rw [calls, next, askedAll whole]
  · intro reason failedSo
    obtain ⟨call, position, last, fails⟩ := failed reason failedSo
    refine .failed call position ?_ fails
    rw [calls, List.getLast?_append, last, Option.some_or]

/-- A round after which the run goes on. -/
theorem Kept.step {loop after : Loop} {rounds : Nat} (kept : Kept outside tools rounds loop)
    (effect : RoundEffect outside tools rounds loop after none) :
    Kept outside tools (rounds + 1) after := by
  generalize goesOn : (none : Option Outcome) = outcome at effect
  cases effect with
  | tooLong | ended => exact nomatch goesOn
  | asked offered think first noCalls acts messages used recovery =>
    have sameGiven : given outside (rounds + 1) = given outside rounds := by
      rw [given_succ, noCalls, List.append_nil]
    have sameShown : shownCalls after.messages = shownCalls loop.messages := by
      rw [messages, shownCalls_append]
      exact List.append_nil _
    refine ⟨?_, ?_, ?_, ?_, ?_, ?_, ?_, ?_, ?_⟩
    · rw [acts, modelCalls_request, kept.models]
    · rw [used, kept.used, sameGiven]
    · exact used ▸ kept.within
    · rw [acts, authorityCalls_request, kept.authority, sameGiven]
    · rw [sameShown, kept.shown, sameGiven]
    · rw [sameShown, ← kept.results, messages, resultIds_append]
      exact List.append_nil _
    · intro act member
      refine kept.notAsked_performed first offered think [] nofun act ?_
      rw [List.append_nil, ← acts]
      exact member
    · refine iff_of_true ?_ recovery
      rw [messages]
      exact List.mem_append_right _ List.mem_cons_self
    · exact fun open' => absurd (recovery.symm.trans open') (by decide)
  | performed offered think between failure first within acts messages used recovery turns
      batch =>
    obtain rfl : failure = none := Option.map_eq_none_iff.mp goesOn.symm
    obtain ⟨models, -, -, authority, -⟩ := kept.acts_performed acts batch
    obtain ⟨shown, -, results⟩ := kept.messages_performed messages batch
    obtain ⟨added, actsAfter, quiet, -⟩ := batch.acts
    obtain ⟨answers, messagesAfter, forms, -⟩ := batch.messages
    have usedAfter : after.used = loop.used + (callsOf outside rounds).length := by
      rw [batch.used rfl, used, List.length_zip, List.length_map, min_self, numbered,
        List.length_mapIdx]
    refine ⟨models, ?_, usedAfter ▸ within, authority rfl, shown, results rfl, ?_, ?_, ?_⟩
    · rw [usedAfter, kept.used, given_succ, List.length_append]
    · rw [actsAfter, acts]
      exact kept.notAsked_performed first offered think added quiet
    · refine iff_of_false (fun member => ?_)
        (Bool.eq_false_iff.mp (batch.recovery.trans recovery))
      rw [messagesAfter, messages] at member
      rcases List.mem_append.mp member with old | answer
      · rcases List.mem_append.mp old with past | call
        · exact Bool.false_ne_true (first.symm.trans (kept.request.mp past))
        · exact message_ne (by decide : "assistant" ≠ "user") rfl (List.mem_singleton.mp call)
      · obtain ⟨id, content, same⟩ := forms _ answer
        exact message_ne (by decide : "tool" ≠ "user") rfl same
    · intro _
      rw [batch.turns]
      rcases turns with none | ⟨one, invalid⟩
      · rw [none]
        exact ⟨Nat.zero_le _, nofun⟩
      · obtain ⟨few, earlier⟩ := kept.invalid first
        rw [one]
        refine ⟨Nat.succ_le_succ few, fun back near => ?_⟩
        cases back with
        | zero => exact invalid
        | succ back =>
          have recent := earlier back (Nat.lt_of_succ_lt_succ near)
          rwa [Nat.sub_sub, Nat.add_comm 1 back] at recent

/-- A run that stops between two rounds. -/
theorem Kept.bounded {loop : Loop} {rounds : Nat} (kept : Kept outside tools rounds loop)
    (few : rounds ≤ 9) (reason : String) : Bounded outside tools loop (.error reason) where
  models := kept.models ▸ few
  executed := by
    rw [kept.authority]
    exact (length_validCalls_le _ _).trans (kept.used ▸ kept.within)
  authority := by rw [kept.models, kept.authority]
  earlier := by
    rw [kept.models, kept.authority]
    cases rounds with
    | zero => exact List.prefix_refl _
    | succ previous => exact validCalls_prefix _ (given_grows previous)
  shown := by rw [kept.models, kept.shown]
  results := by rw [kept.results]
  unique := by
    rw [kept.shown]
    exact nodup_numbered _ _
  complete := .inl ⟨by rw [kept.models, kept.authority], by rw [kept.models, kept.shown],
    kept.results⟩
  recovery before messages offered think after split asked :=
    absurd asked (kept.notAsked (.model messages offered think)
      (split ▸ List.mem_append_right _ List.mem_cons_self))

/-- A round that ends the run. -/
theorem Kept.ends {loop after : Loop} {rounds : Nat} {outcome : Outcome}
    (kept : Kept outside tools rounds loop) (few : rounds < 9)
    (effect : RoundEffect outside tools rounds loop after (some outcome)) :
    Bounded outside tools after outcome := by
  generalize ends : some outcome = result at effect
  cases effect with
  | asked => exact nomatch ends
  | tooLong reason same =>
    obtain rfl := Option.some.inj ends
    obtain rfl := same
    exact kept.bounded few.le reason
  | ended offered think result acts messages noTools whole =>
    obtain rfl := Option.some.inj ends
    have models : modelCalls after.acts = rounds + 1 := by
      rw [acts, modelCalls_request, kept.models]
    have calls : authorityCalls after.acts =
        validCalls outside.codec tools (given outside rounds) := by
      rw [acts, authorityCalls_request, kept.authority]
    have shown : shownCalls after.messages = numbered 0 (given outside rounds) := by
      rw [messages, kept.shown]
    have results : resultIds after.messages = (shownCalls after.messages).map ToolCallOut.id := by
      rw [messages, kept.results]
    refine ⟨models ▸ few, ?_, ?_, ?_, ?_, ?_, ?_, ?_, ?_⟩
    · rw [calls]
      exact (length_validCalls_le _ _).trans (kept.used ▸ kept.within)
    · rw [models, calls]
      exact validCalls_prefix _ (given_grows rounds)
    · rw [models, calls, Nat.add_sub_cancel]
    · rw [models, shown]
      exact numbered_prefix (given_grows rounds)
    · rw [results]
    · rw [shown]
      exact nodup_numbered _ _
    · rcases whole with noCalls | ⟨refused, failed⟩
      · have same : given outside (rounds + 1) = given outside rounds := by
          rw [given_succ, noCalls, List.append_nil]
        exact .inl ⟨by rw [models, same, calls], by rw [models, same, shown], results⟩
      · rw [models, Nat.add_sub_cancel]
        exact .inr ⟨kept.stopped_of_refused acts refused, failed⟩
    · intro before messages' offered' think' after' split asked
      exact kept.recovery_of_request acts noTools split asked
  | performed offered think between failure first within acts messages used recovery turns
      batch =>
    obtain ⟨reason, failed, rfl⟩ := Option.map_eq_some_iff.mp ends.symm
    obtain ⟨models, earlier, authority, -, stopped⟩ := kept.acts_performed acts batch
    obtain ⟨shown, results, -⟩ := kept.messages_performed messages batch
    obtain ⟨added, actsAfter, quiet, -⟩ := batch.acts
    refine ⟨models ▸ few, ?_, models ▸ authority, ?_, ?_, results, ?_, ?_, ?_⟩
    · refine authority.length_le.trans ((length_validCalls_le _ _).trans ?_)
      rw [given_succ, List.length_append, ← kept.used]
      exact within
    · rw [models, Nat.add_sub_cancel]
      exact earlier
    · rw [models, shown]
    · rw [shown]
      exact nodup_numbered _ _
    · rw [models, Nat.add_sub_cancel]
      exact .inr ⟨stopped reason failed, reason, rfl⟩
    · intro before messages' offered' think' after' split asked
      refine absurd asked (kept.notAsked_performed first offered think added quiet
        (.model messages' offered' think') ?_)
      rw [← acts, ← actsAfter, split]
      exact List.mem_append_right _ List.mem_cons_self

theorem Kept.rounds {loop : Loop} {left number : Nat} (kept : Kept outside tools number loop)
    (few : number + left ≤ 9) :
    Bounded outside tools (loop.rounds outside tools think left number).1
      (loop.rounds outside tools think left number).2 := by
  induction left generalizing number loop with
  | zero => exact kept.bounded few _
  | succ left ih =>
    have effect : RoundEffect outside tools number loop
        (loop.round outside tools think number).1 (loop.round outside tools think number).2 :=
      effect_of_round loop number
    rw [Loop.rounds]
    rcases ran : loop.round outside tools think number with ⟨after, outcome⟩
    rw [ran] at effect
    cases outcome with
    | none => exact ih (kept.step effect) (by omega)
    | some outcome => exact kept.ends (by omega) effect

/-- A run calls the model at most nine times and the authority at most eight times, with the
valid calls only, in order and each once; its results answer the calls in order under unique ids,
completely when the run replies; and nothing follows the request for the final reply. -/
theorem run_bounded (outside : Surroundings) (policy : AgentToolPolicy)
    (deliveryGeneration : Nat) (prompt : Text) :
    Bounded outside (schemas policy) (run outside policy deliveryGeneration prompt).1
      (run outside policy deliveryGeneration prompt).2 := by
  have start : Kept outside (schemas policy) 0 (.start prompt) := .start prompt
  have refused (reason : String) :
      Bounded outside (schemas policy) (.start prompt) (.error reason) :=
    start.bounded (Nat.zero_le 9) reason
  unfold run
  by_cases inactive : deliveryGeneration = 0
  · rw [if_pos inactive]
    exact refused _
  rw [if_neg inactive]
  cases outside.capabilities with
  | none => exact refused _
  | some capabilities =>
    obtain ⟨toolSupport, thinkingSupport⟩ := capabilities
    dsimp only
    by_cases unsupported : toolSupport = some false
    · rw [if_pos unsupported]
      exact refused _
    · rw [if_neg unsupported]
      exact start.rounds le_rfl

section LostHub

def exampleUrl : Text := "https://example.com/".toList

def fetchCall : ToolCallOut :=
  ⟨"call".toList, "function".toList, "web_fetch".toList,
    "\x7b\"url\":\"https://example.com/\"\x7d".toList⟩

def fetchCodec : Codec where
  parse arguments :=
    if arguments = fetchCall.arguments then
      some (.object [("url".toList, .text exampleUrl)])
    else none
  fromValue
    | .object [(_, .text _), (_, .text url)] => some (.webFetch url)
    | _ => none
  print _ := "\x7b\x7d".toList
  encodedLength messages := 256 * messages.length

/-- The model asks for two pages in one reply, and the hub does not answer. -/
def lostHub : Surroundings where
  codec := fetchCodec
  capabilities := some (some true, none)
  reply _ := .ok (.toolCalls [fetchCall, fetchCall], 10, 10)
  answer _ := ⟨.error .badKey, .error (.transport "connection closed"),
    ⟨⟨none, none, none, false, none, none⟩, []⟩, .error .badKey, .error .badKey, .error [],
    .error .badKey⟩

def fetchPolicy : AgentToolPolicy := ⟨1, [], none, some ["example.com".toList], none, none⟩

/-- The first call is lost, so the second valid call never reaches the authority and neither gets
a result. -/
theorem second_call_lost :
    validCalls lostHub.codec (schemas fetchPolicy) (given lostHub 1) =
        [.webFetch exampleUrl, .webFetch exampleUrl] ∧
      modelCalls (run lostHub fetchPolicy 1 []).1.acts = 1 ∧
      authorityCalls (run lostHub fetchPolicy 1 []).1.acts = [.webFetch exampleUrl] ∧
      resultIds (run lostHub fetchPolicy 1 []).1.messages = [] :=
  ⟨rfl, rfl, rfl, rfl⟩

end LostHub

end Rounds

end OHHive.AgentTools.ToolLoop
