import Mathlib.Data.String.Basic
import OHHive.Foundation.Json
import OHHive.Foundation.SortedMap
import OHHive.LocalHub.LeaseAgreement

/-! Dependency outputs between the hub's claim and the page a worker infers from: the hub wraps
each content in an object, and the worker reads only plain texts. -/

namespace OHHive.LocalHub

open Foundation

section Wire

/-- The text of a value, for a text. -/
def asStr? : Json → Option Text
  | .text value => some value
  | _ => none

/-- `json!({"content": content})`. -/
def contentObject (content : String) : Json :=
  .object (.cons "content".toList (.text content.toList) .nil)

/-- The brief of a coordinator's children, as it is serialized. -/
abbrev Briefing := CardId → List ChildReport → Json

/-- The `dep_outputs` of a claim's reply. -/
def Claimed.wire (claimed : Claimed) (briefing : Briefing) : List (String × Json) :=
  let outputs := sortedMap (claimed.depOutputs.map (Prod.map id contentObject))
  match claimed.coordinated with
  | none => outputs
  | some children =>
    insertEntry "__hive_code_coordinator_v1" (briefing claimed.card.id children) outputs

/-- The stored outputs by key, in the order of the wire. -/
def Claimed.stored (claimed : Claimed) : List (String × Text) :=
  sortedMap (claimed.depOutputs.map (Prod.map id String.toList))

end Wire

section Worker

inductive Phase where
  | waitingOnChild
  | draft
  | critique
  | revise
  | done
deriving DecidableEq, Repr

structure LoopState where
  version : Nat
  phase : Phase
  step : Nat
  revisions : Nat
  draft : Option Text
  critique : Option Text
  usage : Usage
  model : Option String
  toolOutput : Option Text
  pendingChildKey : Option String
deriving DecidableEq, Repr

def loopStateVersion : Nat := 3

def LoopState.new (model : Option String) : LoopState :=
  { version := loopStateVersion
    phase := .draft
    step := 0
    revisions := 0
    draft := none
    critique := none
    usage := ⟨0, 0, ⟨0⟩⟩
    model
    toolOutput := none
    pendingChildKey := none }

/-- What the one tool step of a fresh start found: a summary, and a child to wait for. -/
structure ToolPhaseResult where
  summary : Option Text
  waitOnChild : Option (CardId × String)

/-- The worker's reading of the fields the hub keeps as text, its model for the card, its tool
step, and whether the hub accepts its wait for a child. -/
structure TextWorker where
  loopOf : RequiredCapabilities → Option String
  decodeState : String → Option LoopState
  model : ClaimedCard → Option String
  runTool : ClaimedCard → ToolPhaseResult
  waits : CardId → CardId → Bool

variable (worker : TextWorker)

def singleStep (card : ClaimedCard) : Bool :=
  worker.loopOf card.requiredCapabilities = some "single"

/-- The checkpoint a claim resumes from, when it was written in this version. -/
def resumeState (claimed : Claimed) : Option LoopState :=
  (claimed.checkpoint.bind (fun checkpoint => worker.decodeState checkpoint.state)).filter
    (fun state => state.version = loopStateVersion)

def childSection (key : String) (output : Text) : Text :=
  "Child card '".toList ++ key.toList ++ "' output:\n".toList ++ output

/-- The output of an awaited child joins the output of the tools. -/
def foldChild (key : String) (output : Text) (toolOutput : Option Text) : Option Text :=
  match toolOutput with
  | some previous => some (previous ++ "\n\n".toList ++ childSection key output)
  | none => some (childSection key output)

/-- A resumed card that awaited a child drafts with what is read of the child's output. -/
def resumeChild (read : String → Option Text) (state : LoopState) : LoopState :=
  if state.phase = .waitingOnChild then
    match state.pendingChildKey with
    | some key =>
      match read key with
      | some output =>
        { state with
          toolOutput := foldChild key output state.toolOutput
          pendingChildKey := none
          phase := .draft }
      | none => { state with pendingChildKey := none, phase := .draft }
    | none => { state with phase := .draft }
  else state

/-- A fresh start runs the tools once; `none` when the card is given up until its child is
finished. -/
def freshStart (card : ClaimedCard) : Option LoopState :=
  let tool := worker.runTool card
  let state := { LoopState.new (worker.model card) with toolOutput := tool.summary }
  match tool.waitOnChild with
  | none => some state
  | some (child, key) =>
    if worker.waits card.id child then none
    else some { state with pendingChildKey := some key, phase := .draft }

/-- The state a claimed card enters its loop with. -/
def enterLoop (claimed : Claimed) (read : String → Option Text) : Option LoopState :=
  match resumeState worker claimed with
  | some state => some (resumeChild read { state with model := worker.model claimed.card })
  | none => freshStart worker claimed.card

def outputSection (output : String × Text) : Text :=
  "--- ".toList ++ output.1.toList ++ " ---\n".toList ++ output.2 ++ "\n".toList

def dependencySection (sections : List (String × Text)) : Text :=
  if sections.isEmpty then []
  else
    "Outputs from cards this one depends on:\n".toList ++ sections.flatMap outputSection ++
      "\n".toList

def toolSection : Option Text → Text
  | none => []
  | some output =>
    "Tool output (exec_wasm ran before drafting):\n".toList ++ output ++ "\n\n".toList

def preamble (project : Project) : Text :=
  "You are a worker node in Hive, a community compute network.\n".toList ++
    ("Project: ".toList ++ project.title.toList ++ "\nProject goal: ".toList ++
      project.goal.toList ++ "\n\n".toList)

def taskSection (card : ClaimedCard) : Text :=
  "Card: ".toList ++ card.title.toList ++ "\nTask:\n".toList ++ card.inputs.toList ++
    "\n\nAcceptance criteria: ".toList ++ card.acceptance.toList ++ "\n".toList

/-- The page of a card: the inputs themselves for a single step, whose prompt the hub rendered. -/
def page (card : ClaimedCard) (project : Project) (sections : List (String × Text))
    (toolOutput : Option Text) : Text :=
  if singleStep worker card then card.inputs.toList
  else
    preamble project ++ dependencySection sections ++ toolSection toolOutput ++ taskSection card

/-- The page as the worker builds it: an output that is not a text is left blank. -/
def context (card : ClaimedCard) (project : Project) (deps : List (String × Json))
    (toolOutput : Option Text) : Text :=
  page worker card project (deps.map (Prod.map id (fun value => (asStr? value).getD [])))
    toolOutput

/-- The page a claimed text card is inferred from, unless it waits for a child. -/
def inferenceContext (claimed : Claimed) (briefing : Briefing) : Option Text :=
  let deps := claimed.wire briefing
  (enterLoop worker claimed (fun key => (deps.lookup key).bind asStr?)).map (fun state =>
    context worker claimed.card claimed.project deps state.toolOutput)

/-- The page that carries every stored output: under its key among the dependencies, and with
the tools for the child that was awaited. -/
def carryingContext (claimed : Claimed) : Option Text :=
  (enterLoop worker claimed (fun key => claimed.stored.lookup key)).map (fun state =>
    page worker claimed.card claimed.project claimed.stored state.toolOutput)

/-- The child a resumed card awaited, with what is read of its output. -/
def awaitedOutput (read : String → Option Text) (state : LoopState) : Option (String × Text) :=
  if state.phase = .waitingOnChild then
    state.pendingChildKey.bind (fun key => (read key).map (fun output => (key, output)))
  else none

/-- The stored output of the child that a claimed card awaited. -/
def Claimed.awaited (claimed : Claimed) : Option (String × Text) :=
  (resumeState worker claimed).bind (awaitedOutput (fun key => claimed.stored.lookup key))

end Worker

section Claims

variable {around : Surroundings} {board next : Board} {hub : Session} {clock : Nat → Int}
  {claimed : Claimed}

theorem outputs_of_eligible {caps : Capabilities} {card : ClaimedCard}
    {outputs : List (String × String)}
    (done : eligible around board hub caps card = .ok (some outputs)) :
    dependencyOutputs board card = some outputs := by
  unfold eligible at done
  split at done
  · cases Except.ok.inj done
  · obtain ⟨allowed, _, body⟩ := bind_eq_ok_iff.mp done
    split at body
    · cases Except.ok.inj body
    · dsimp only at body
      split at body
      · cases Except.ok.inj body
      · split at body
        · cases Except.ok.inj body
        · exact Except.ok.inj body

theorem outputs_of_claimFirst {settled : Board} {caps : Capabilities} {now : Int}
    {cards : List Card}
    (done : claimFirst around settled hub caps now cards = .ok (next, .leased claimed)) :
    dependencyOutputs settled claimed.card = some claimed.depOutputs ∧
      (claimed.card.modality = .text → claimed.coordinated = none) := by
  induction cards with
  | nil => cases Except.ok.inj done
  | cons card rest ih =>
    obtain ⟨outputs, checked, body⟩ := bind_eq_ok_iff.mp done
    cases outputs with
    | none => exact ih body
    | some outputs =>
      obtain ⟨project, _, body⟩ := bind_eq_ok_iff.mp body
      obtain ⟨leased, _, body⟩ := bind_eq_ok_iff.mp body
      obtain ⟨_, replied⟩ := Prod.mk.inj (pure_eq_ok_iff.mp body)
      obtain rfl := Claim.leased.inj replied
      refine ⟨outputs_of_eligible checked, ?_⟩
      intro text
      have other : card.data.modality ≠ .code := by
        rw [show card.data.modality = .text from text]
        nofun
      simp [other]

/-- A claim carries the stored output of every dependency, and of a text card nothing else. -/
theorem outputs_of_claimCard
    (done : claimCard around board hub clock = .ok (next, .leased claimed)) :
    dependencyOutputs (settle board (clock 0) (clock 1)) claimed.card = some claimed.depOutputs ∧
      (claimed.card.modality = .text → claimed.coordinated = none) := by
  obtain ⟨node, _, body⟩ := bind_eq_ok_iff.mp done
  split at body
  · unfold claimSettled at body
    split at body
    · cases Except.ok.inj body
    · exact outputs_of_claimFirst body
  · cases Except.ok.inj body

/-- Each output of the reply is the stored one of its key. -/
theorem dependencyOutput_of_mem {card : ClaimedCard} {outputs : List (String × String)}
    (read : dependencyOutputs board card = some outputs) {output : String × String}
    (member : output ∈ outputs) : dependencyOutput board card output.1 = some output.2 := by
  unfold dependencyOutputs at read
  generalize card.deps = keys at read
  induction keys generalizing outputs with
  | nil =>
    obtain rfl := Option.some.inj read
    cases member
  | cons key rest ih =>
    rw [List.mapM_cons] at read
    obtain ⟨first, found, read⟩ := Option.bind_eq_some_iff.mp read
    obtain ⟨later, others, read⟩ := Option.bind_eq_some_iff.mp read
    obtain rfl := Option.some.inj read
    rcases List.mem_cons.mp member with rfl | tail
    · obtain ⟨content, stored, rfl⟩ := Option.map_eq_some_iff.mp found
      exact stored
    · exact ih tail others

/-- The map by key holds every output of the reply. -/
theorem mem_stored (read : dependencyOutputs board claimed.card = some claimed.depOutputs)
    {output : String × String} (member : output ∈ claimed.depOutputs) :
    (output.1, output.2.toList) ∈ claimed.stored := by
  have held : output ∈ sortedMap claimed.depOutputs := by
    refine mem_sortedMap member ?_
    intro other listed same
    have first := dependencyOutput_of_mem read member
    have second := dependencyOutput_of_mem read listed
    rw [same, first] at second
    exact Prod.ext same (Option.some.inj second).symm
  rw [Claimed.stored, sortedMap_map]
  exact List.mem_map.mpr ⟨output, held, rfl⟩

theorem mem_of_mem_stored {output : String × Text} (member : output ∈ claimed.stored) :
    ∃ source ∈ claimed.depOutputs, output = (source.1, source.2.toList) := by
  obtain ⟨source, listed, rfl⟩ := List.mem_map.mp (mem_of_mem_sortedMap member)
  exact ⟨source, listed, rfl⟩

end Claims

section Pages

variable {worker : TextWorker} {claimed : Claimed} {briefing : Briefing}

/-- The sections with their keys alone. -/
def blanked (sections : List (String × Text)) : List (String × Text) :=
  sections.map (Prod.map id (fun _ => []))

theorem wire_of_uncoordinated (uncoordinated : claimed.coordinated = none) :
    claimed.wire briefing =
      (sortedMap claimed.depOutputs).map (Prod.map id contentObject) := by
  rw [Claimed.wire, uncoordinated, sortedMap_map]

/-- The worker's sections keep the keys and lose every content. -/
theorem sections_of_wire (uncoordinated : claimed.coordinated = none) :
    (claimed.wire briefing).map (Prod.map id (fun value => (asStr? value).getD [])) =
      blanked claimed.stored := by
  rw [wire_of_uncoordinated uncoordinated, Claimed.stored, sortedMap_map, blanked, List.map_map,
    List.map_map]
  rfl

/-- The worker reads no text under any key of the wire. -/
theorem lookup_wire (uncoordinated : claimed.coordinated = none) (key : String) :
    ((claimed.wire briefing).lookup key).bind asStr? = none := by
  rw [wire_of_uncoordinated uncoordinated]
  induction sortedMap claimed.depOutputs with
  | nil => rfl
  | cons first rest ih =>
    rw [List.map_cons, List.lookup_cons]
    split
    · rfl
    · exact ih

/-- Rendered sections are longer than the blank ones by their contents. -/
theorem length_rendered (heading : String → Text) (ending : Text)
    (outputs : List (String × Text)) :
    (outputs.flatMap (fun output => heading output.1 ++ output.2 ++ ending)).length =
      ((blanked outputs).flatMap (fun output => heading output.1 ++ output.2 ++ ending)).length +
        (outputs.map (fun output => output.2.length)).sum := by
  induction outputs with
  | nil => rfl
  | cons first rest ih =>
    simp only [blanked, List.map_cons, List.flatMap_cons, List.length_append, List.sum_cons,
      Prod.map_fst, Prod.map_snd, id_eq, List.length_nil] at ih ⊢
    omega

theorem length_framed (opening closing shown blank : Text) {extra : Nat}
    (longer : shown.length = blank.length + extra) :
    (opening ++ shown ++ closing).length = (opening ++ blank ++ closing).length + extra := by
  simp only [List.length_append]
  omega

theorem length_dependencySection (sections : List (String × Text)) :
    (dependencySection sections).length =
      (dependencySection (blanked sections)).length +
        (sections.map (fun output => output.2.length)).sum := by
  cases sections with
  | nil => rfl
  | cons first rest =>
    have rendered := length_rendered (fun key => "--- ".toList ++ key.toList ++ " ---\n".toList)
      "\n".toList (first :: rest)
    exact length_framed _ _ _ _ rendered

theorem toolSection_some (output : Text) : toolSection (some output) =
    "Tool output (exec_wasm ran before drafting):\n".toList ++ output ++ "\n\n".toList := rfl

theorem foldChild_some (key : String) (output previous : Text) :
    foldChild key output (some previous) =
      some (previous ++ "\n\n".toList ++ childSection key output) := rfl

theorem length_toolSection_foldChild (key : String) (output : Text) (toolOutput : Option Text) :
    (toolSection toolOutput).length < (toolSection (foldChild key output toolOutput)).length := by
  cases toolOutput with
  | none =>
    refine List.length_pos_iff.mpr (List.append_ne_nil_of_right_ne_nil _ ?_)
    exact List.cons_ne_nil _ _
  | some previous =>
    have gap : "\n\n".toList.length = 2 := rfl
    rw [foldChild_some, toolSection_some, toolSection_some]
    simp only [List.length_append, gap]
    generalize "Tool output (exec_wasm ran before drafting):\n".toList.length = opening
    omega

theorem toolOutput_resumeChild (read : String → Option Text) (state : LoopState) :
    (resumeChild read state).toolOutput =
      match awaitedOutput read state with
      | some (key, output) => foldChild key output state.toolOutput
      | none => state.toolOutput := by
  unfold resumeChild awaitedOutput
  split
  · cases state.pendingChildKey with
    | none => rfl
    | some key =>
      simp only [Option.bind_some]
      cases read key with
      | none => rfl
      | some output => rfl
  · rfl

theorem awaitedOutput_of_unread {read : String → Option Text} (unread : ∀ key, read key = none)
    (state : LoopState) : awaitedOutput read state = none := by
  unfold awaitedOutput
  split
  · cases state.pendingChildKey with
    | none => rfl
    | some key => rw [Option.bind_some, unread, Option.map_none]
  · rfl

/-- A page with blank sections is the whole page only if nothing was to be shown. -/
theorem eq_blanked_page_iff {card : ClaimedCard} {project : Project}
    {sections : List (String × Text)} {toolOutput : Option Text}
    {awaited : Option (String × Text)} (framed : singleStep worker card = false) :
    page worker card project sections
        (match awaited with
          | some (key, output) => foldChild key output toolOutput
          | none => toolOutput) =
      page worker card project (blanked sections) toolOutput ↔
      (∀ output ∈ sections, output.2 = []) ∧ awaited = none := by
  rw [page, page, framed]
  have shown := length_dependencySection sections
  constructor
  · intro same
    have lengths := congrArg List.length same
    simp only [Bool.false_eq_true, if_false, List.length_append] at lengths
    cases awaited with
    | some child =>
      have longer := length_toolSection_foldChild child.1 child.2 toolOutput
      dsimp only at lengths
      omega
    | none =>
      dsimp only at lengths
      have empty : (sections.map (fun output => output.2.length)).sum = 0 := by omega
      refine ⟨?_, rfl⟩
      intro output member
      have zero := List.sum_eq_zero_iff_forall_eq_nat.mp empty _ (List.mem_map_of_mem member)
      exact List.length_eq_zero_iff.mp zero
  · rintro ⟨empty, rfl⟩
    have same : blanked sections = sections := by
      refine (List.map_congr_left ?_).trans (List.map_id _)
      intro output member
      exact Prod.ext rfl (empty output member).symm
    rw [same]

end Pages

section Delivery

variable {worker : TextWorker} {around : Surroundings} {board next : Board} {hub : Session}
  {clock : Nat → Int} {claimed : Claimed} {briefing : Briefing}

/-- The texts occur one after the other. -/
def InOrder : List Text → Text → Prop
  | [], _ => True
  | first :: rest, text =>
    ∃ before after, text = before ++ first ++ after ∧ InOrder rest after

theorem InOrder.append {texts : List Text} {text : Text} (inOrder : InOrder texts text)
    (before after : Text) : InOrder texts (before ++ text ++ after) := by
  induction texts generalizing before text with
  | nil => trivial
  | cons first rest ih =>
    obtain ⟨opening, later, rfl, others⟩ := inOrder
    refine ⟨before ++ opening, later ++ after, by simp, ?_⟩
    simpa using ih others []

theorem inOrder_sections (sections : List (String × Text)) :
    InOrder (sections.map Prod.snd) (sections.flatMap outputSection) := by
  induction sections with
  | nil => trivial
  | cons first rest ih =>
    rw [List.map_cons, List.flatMap_cons]
    refine ⟨"--- ".toList ++ first.1.toList ++ " ---\n".toList,
      "\n".toList ++ rest.flatMap outputSection, ?_, ?_⟩
    · exact List.append_assoc _ _ _
    · have later := ih.append "\n".toList []
      rwa [List.append_nil] at later

/-- A page that the worker frames shows every section's content, in the order of the keys. -/
theorem inOrder_page {card : ClaimedCard} {project : Project} (sections : List (String × Text))
    (toolOutput : Option Text) (framed : singleStep worker card = false) :
    InOrder (sections.map Prod.snd) (page worker card project sections toolOutput) := by
  have shown : InOrder (sections.map Prod.snd) (dependencySection sections) := by
    cases sections with
    | nil => trivial
    | cons first rest => exact (inOrder_sections (first :: rest)).append _ _
  rw [page, framed]
  have inside := shown.append (preamble project) (toolSection toolOutput ++ taskSection card)
  simpa using inside

/-- The state of a card that awaited no child is the same whatever is read. -/
theorem toolOutput_enterLoop (worker : TextWorker) (claimed : Claimed)
    (read : String → Option Text) :
    (enterLoop worker claimed read).map LoopState.toolOutput =
      (enterLoop worker claimed (fun _ => none)).map (fun state =>
        match (resumeState worker claimed).bind (awaitedOutput read) with
        | some (key, output) => foldChild key output state.toolOutput
        | none => state.toolOutput) := by
  unfold enterLoop
  cases resumeState worker claimed with
  | none => rfl
  | some state =>
    simp only [Option.map_some, toolOutput_resumeChild, Option.bind_some,
      awaitedOutput_of_unread (fun _ => rfl)]
    rfl

end Delivery

section Examples

/-- A worker whose cards ask for no tools and name no loop. -/
def plainWorker : TextWorker :=
  { loopOf := fun _ => none
    decodeState := fun _ => none
    model := fun _ => none
    runTool := fun _ => ⟨none, none⟩
    waits := fun _ _ => true }

def noBriefing : Briefing := fun _ _ => .null

def sequel : ClaimedCard :=
  { essay with
    id := 9
    key := "sequel"
    title := "Sequel"
    deps := ["essay"] }

/-- The essay is written, and the sequel that depends on it added. -/
def essayWritten : List Event :=
  [(Op.createProject ⟨1, "P", ""⟩).at 0, (Op.enroll "laptop").at 0,
    (Op.checkIn workerSession laptop).at 0, (Op.addCard essay).at 0,
    (Op.claimCard workerSession).at 0,
    (Op.completeCard workerSession 7 "forty-two" none ⟨0, 0, ⟨0⟩⟩).at 1,
    (Op.addCard sequel).at 1]

def claimedSequel : Claimed :=
  { card := sequel
    project := ⟨1, "P", ""⟩
    depOutputs := [("essay", "forty-two")]
    coordinated := none
    checkpoint := none
    leaseExpiresAt := 902 }

theorem sequel_claimed : ∃ next, claimCard openSurroundings (boardAt essayWritten 7) workerSession
    (fun _ => 2) = .ok (next, .leased claimedSequel) :=
  ⟨_, rfl⟩

def sequelPage : Text :=
  context plainWorker claimedSequel.card claimedSequel.project (claimedSequel.wire noBriefing) none

end Examples

end OHHive.LocalHub
