import OHHive.Coder.Session
import OHHive.Foundation.Paths

/-! The guards of the coder's file writes. They read the path as it was spelled, and the file is
the one it normalizes to, so a spelling with dots in it can pass a guard that its file does not. -/

namespace OHHive.Coder

open Foundation

section Tools

inductive ToolExecError where
  | pathEscapesWorkspace (path : Text)
  | workflowFileNotAutomated (path : Text)
  | missingArgument (tool argument : Text)
  | skill (reason : Text)
deriving DecidableEq, Repr

/-- What a write is handed to: the file system, or the create-only store of skills. -/
inductive Write where
  | file (path : List Text) (content : Text)
  | newSkill (id content : Text)
deriving DecidableEq, Repr

/-- The file that a relative path leads to, if it does not leave the workspace. -/
def resolveInWorkspace (workspaceRoot : List Text) (candidate : Text) :
    Except ToolExecError (List Text) :=
  if isAbsolute candidate then .error (.pathEscapesWorkspace candidate)
  else
    let normalized := normalizeLexically [] (workspaceRoot.map .normal ++ components candidate)
    if workspaceRoot.isPrefixOf normalized then .ok normalized
    else .error (.pathEscapesWorkspace candidate)

def skillIdForPath (path : Text) : Option Text :=
  match (components path).map Component.text with
  | [dotHive, skills, id, file] =>
    if dotHive ≠ ".hive".toList ∨ skills ≠ "skills".toList ∨ file ≠ "SKILL.md".toList then none
    else some id
  | _ => none

/-- A component's name for the workflow guard; it skips dots, and `..` has no name. -/
def workflowName : Component → Option (Option Text)
  | .curDir => none
  | .parentDir => some none
  | other => some (some other.text)

def isWorkflowFile (path : Text) : Bool :=
  match (components path).filterMap workflowName with
  | some first :: some second :: some _ :: _ =>
    first = ".github".toList && second = "workflows".toList
  | _ => false

def validId (id : Text) : Bool :=
  id ≠ [] && byteLength id ≤ 64 && (id.head?.any Char.isLower) &&
    id.all fun char => char.isLower || char.isDigit || char = '-'

/-- The checks of the store on a new skill, past its identity. -/
abbrev SkillStore : Type := Text → Text → Except Text Unit

def writeNewSkillTool (store : SkillStore) (id content : Text) : Except ToolExecError Write := do
  require (validId id = true) (.skill "invalid skill identifier".toList)
  (store id content).mapError .skill
  return .newSkill id content

def writeFileTool (workspaceRoot : List Text) (path content : Text) :
    Except ToolExecError Write := do
  let resolved ← resolveInWorkspace workspaceRoot path
  return .file resolved content

variable (store : SkillStore) (workspaceRoot : List Text)

/-- The `write_file` tool. -/
def writeFile (path? content? : Option Text) : Except ToolExecError Write := do
  let missing := ToolExecError.missingArgument "write_file".toList
  let path ← orFail (path?.filter fun path => !path.all isWhitespace) (missing "path".toList)
  let content ← orFail content? (missing "content".toList)
  if isWorkflowFile path then .error (.workflowFileNotAutomated path)
  else
    match skillIdForPath path with
    | some id => writeNewSkillTool store id content
    | none => writeFileTool workspaceRoot path content

end Tools

section Guards

variable {store : SkillStore} {workspaceRoot file rest : List Text} {path content id : Text}

/-- A CI workflow, by its place under the root. -/
def IsWorkflow (rest : List Text) : Prop :=
  ∃ name more, rest = ".github".toList :: "workflows".toList :: name :: more

def skillPath (id : Text) : List Text :=
  [".hive".toList, "skills".toList, id, "SKILL.md".toList]

/-- What a file is to be treated as, by its place under the root. -/
structure Guarded (store : SkillStore) (file rest : List Text) (path content : Text)
    (outcome : Except ToolExecError Write) : Prop where
  workflow : IsWorkflow rest → outcome = .error (.workflowFileNotAutomated path)
  skill : ∀ id, rest = skillPath id → outcome = writeNewSkillTool store id content
  other : ¬ IsWorkflow rest → (∀ id, rest ≠ skillPath id) → outcome = .ok (.file file content)

/-- A path that the guards read as what it leads to. -/
structure SpelledOut (rest : List Text) (path : Text) : Prop where
  workflow : isWorkflowFile path = true ↔ IsWorkflow rest
  skill : ∀ id, skillIdForPath path = some id ↔ rest = skillPath id

theorem not_isWorkflow_skillPath (id : Text) : ¬ IsWorkflow (skillPath id) := by
  rintro ⟨name, more, same⟩
  exact absurd (List.cons.inj same).1 (by decide)

theorem skillPath_inj {id other : Text} (same : skillPath id = skillPath other) : id = other := by
  simpa [skillPath] using same

/-- A resolved path is its root with something under it. -/
theorem resolveInWorkspace_ok (resolved : resolveInWorkspace workspaceRoot path = .ok file) :
    isAbsolute path = false ∧
      normalizeLexically [] (workspaceRoot.map .normal ++ components path) = file ∧
      ∃ rest, file = workspaceRoot ++ rest := by
  unfold resolveInWorkspace at resolved
  split at resolved
  · cases resolved
  · rename_i relative
    dsimp only at resolved
    split at resolved
    · rename_i within
      obtain rfl := Except.ok.inj resolved
      obtain ⟨rest, shape⟩ := List.isPrefixOf_iff_prefix.mp within
      exact ⟨by simpa using relative, rfl, rest, shape.symm⟩
    · cases resolved

/-- A path without parent directories leads to its names, under the root. -/
theorem resolved_names (resolved : resolveInWorkspace workspaceRoot path = .ok file)
    (plain : Component.parentDir ∉ components path) :
    file = workspaceRoot ++ namesOf (components path) := by
  obtain ⟨relative, normal, _⟩ := resolveInWorkspace_ok resolved
  rw [normalizeLexically_append, normalizeLexically_normal, List.nil_append,
    normalizeLexically_names _ (rootDir_notMem_components relative) plain] at normal
  exact normal.symm

/-- The root of a resolved path is followed by its names. -/
theorem rest_names (resolved : resolveInWorkspace workspaceRoot path = .ok file)
    (plain : Component.parentDir ∉ components path) (shape : file = workspaceRoot ++ rest) :
    rest = namesOf (components path) :=
  List.append_cancel_left (shape.symm.trans (resolved_names resolved plain))

/-- Without parent directories the workflow guard reads the names. -/
theorem workflowNames {parts : List Component} (relative : Component.rootDir ∉ parts)
    (plain : Component.parentDir ∉ parts) :
    parts.filterMap workflowName = (namesOf parts).map some := by
  induction parts with
  | nil => rfl
  | cons part parts ih =>
    rw [List.mem_cons, not_or] at relative plain
    have later := ih relative.2 plain.2
    cases part with
    | rootDir => exact absurd rfl relative.1
    | parentDir => exact absurd rfl plain.1
    | curDir => exact later
    | normal name => exact congrArg (some name :: ·) later

theorem isWorkflowFile_iff (relative : Component.rootDir ∉ components path)
    (plain : Component.parentDir ∉ components path) :
    isWorkflowFile path = true ↔ IsWorkflow (namesOf (components path)) := by
  unfold isWorkflowFile
  rw [workflowNames relative plain]
  generalize namesOf (components path) = names
  constructor
  · intro passed
    match names, passed with
    | first :: second :: name :: more, passed =>
      simp only [List.map_cons, Bool.and_eq_true, decide_eq_true_eq] at passed
      obtain ⟨rfl, rfl⟩ := passed
      exact ⟨name, more, rfl⟩
  · rintro ⟨name, more, rfl⟩
    simp

theorem skillIdForPath_eq_some_iff :
    skillIdForPath path = some id ↔ (components path).map Component.text = skillPath id := by
  unfold skillIdForPath
  generalize (components path).map Component.text = texts
  constructor
  · intro found
    split at found
    · split at found
      · cases found
      · rename_i named
        obtain rfl := Option.some.inj found
        simp only [not_or, not_not] at named
        obtain ⟨rfl, rfl, rfl⟩ := named
        rfl
    · cases found
  · rintro rfl
    simp [skillPath]

/-- Without dots the components are the names. -/
theorem texts_eq_namesOf {parts : List Component} (relative : Component.rootDir ∉ parts)
    (plain : Component.parentDir ∉ parts) (undotted : Component.curDir ∉ parts) :
    parts.map Component.text = namesOf parts := by
  induction parts with
  | nil => rfl
  | cons part parts ih =>
    rw [List.mem_cons, not_or] at relative plain undotted
    have later := ih relative.2 plain.2 undotted.2
    cases part with
    | rootDir => exact absurd rfl relative.1
    | parentDir => exact absurd rfl plain.1
    | curDir => exact absurd rfl undotted.1
    | normal name => exact congrArg (name :: ·) later

theorem text_inj_normal {part : Component} {name : Text} (same : part.text = name)
    (slash : name ≠ ['/']) (dot : name ≠ ['.']) (dots : name ≠ ['.', '.']) :
    part = .normal name := by
  cases part with
  | rootDir => exact absurd same.symm slash
  | curDir => exact absurd same.symm dot
  | parentDir => exact absurd same.symm dots
  | normal other => exact congrArg Component.normal same

/-- A path that is spelled as a skill leads to that skill, unless it has dots for a name. -/
theorem skill_spelled (resolved : resolveInWorkspace workspaceRoot path = .ok file)
    (shape : file = workspaceRoot ++ rest) (spelled : skillIdForPath path = some id) :
    rest = skillPath id ∨ id = ['.', '.'] ∧ rest = [".hive".toList, "SKILL.md".toList] := by
  obtain ⟨relative, normal, _⟩ := resolveInWorkspace_ok resolved
  have texts := skillIdForPath_eq_some_iff.mp spelled
  have away := rootDir_notMem_components relative
  obtain ⟨first, _, parts, hive, more⟩ := List.map_eq_cons_iff.mp texts
  obtain ⟨second, _, rfl, skills, more⟩ := List.map_eq_cons_iff.mp more
  obtain ⟨third, _, rfl, named, more⟩ := List.map_eq_cons_iff.mp more
  obtain ⟨last, _, rfl, markdown, more⟩ := List.map_eq_cons_iff.mp more
  obtain rfl := List.map_eq_nil_iff.mp more
  obtain rfl := text_inj_normal hive (by decide) (by decide) (by decide)
  obtain rfl := text_inj_normal skills (by decide) (by decide) (by decide)
  obtain rfl := text_inj_normal markdown (by decide) (by decide) (by decide)
  cases third with
  | rootDir => simp [parts] at away
  | curDir =>
    rcases components_cases relative with ⟨_, same, _⟩ | undotted
    · simp [parts] at same
    · simp [parts] at undotted
  | parentDir =>
    refine Or.inr ⟨named.symm, ?_⟩
    rw [parts, normalizeLexically_append, normalizeLexically_normal, List.nil_append] at normal
    have popped : workspaceRoot ++ [".hive".toList, "SKILL.md".toList] = workspaceRoot ++ rest := by
      rw [← shape, ← normal]
      simp [normalizeLexically, pushComponent]
    exact (List.append_cancel_left popped).symm
  | normal name =>
    refine Or.inl ?_
    rw [rest_names resolved (by simp [parts]) shape, parts]
    change [_, _, name, _] = skillPath id
    rw [← named]
    rfl

theorem not_isWorkflowFile_of_skill (spelled : skillIdForPath path = some id) :
    isWorkflowFile path = false := by
  have texts := skillIdForPath_eq_some_iff.mp spelled
  obtain ⟨first, parts, shape, hive, _⟩ := List.map_eq_cons_iff.mp texts
  obtain rfl := text_inj_normal hive (by decide) (by decide) (by decide)
  unfold isWorkflowFile
  rw [shape]
  simp only [List.filterMap_cons, workflowName, Component.text]
  split
  · rename_i same
    have head := Option.some.inj (List.cons.inj same).1
    subst head
    simp
  · rfl

theorem writeFileTool_ok (resolved : resolveInWorkspace workspaceRoot path = .ok file) :
    writeFileTool workspaceRoot path content = .ok (.file file content) := by
  rw [writeFileTool, resolved]
  rfl

/-- The store answers with the skill it created, or with an error of its own. -/
theorem writeNewSkillTool_cases (store : SkillStore) (id content : Text) :
    (validId id = true ∧ writeNewSkillTool store id content = .ok (.newSkill id content)) ∨
      ∃ reason, writeNewSkillTool store id content = .error (.skill reason) := by
  unfold writeNewSkillTool
  cases valid : validId id with
  | false => exact Or.inr ⟨_, rfl⟩
  | true =>
    cases store id content with
    | error reason => exact Or.inr ⟨reason, rfl⟩
    | ok => exact Or.inl ⟨rfl, rfl⟩

theorem writeFile_workflow (named : path.all isWhitespace = false)
    (spelled : isWorkflowFile path = true) :
    writeFile store workspaceRoot (some path) (some content) =
      .error (.workflowFileNotAutomated path) := by
  simp [writeFile, Option.filter_some, named, orFail, spelled]

theorem writeFile_skill (named : path.all isWhitespace = false)
    (spelled : skillIdForPath path = some id) :
    writeFile store workspaceRoot (some path) (some content) =
      writeNewSkillTool store id content := by
  simp [writeFile, Option.filter_some, named, orFail, not_isWorkflowFile_of_skill spelled, spelled]

theorem writeFile_plain (named : path.all isWhitespace = false)
    (unflagged : isWorkflowFile path = false) (unskilled : skillIdForPath path = none)
    (resolved : resolveInWorkspace workspaceRoot path = .ok file) :
    writeFile store workspaceRoot (some path) (some content) = .ok (.file file content) := by
  rw [← writeFileTool_ok resolved]
  simp [writeFile, Option.filter_some, named, orFail, unflagged, unskilled]

/-- The three ways a write is treated. -/
theorem writeFile_cases (store : SkillStore) (content : Text)
    (named : path.all isWhitespace = false)
    (resolved : resolveInWorkspace workspaceRoot path = .ok file) :
    isWorkflowFile path = true ∧ writeFile store workspaceRoot (some path) (some content) =
        .error (.workflowFileNotAutomated path) ∨
      (∃ id, skillIdForPath path = some id ∧
        writeFile store workspaceRoot (some path) (some content) =
          writeNewSkillTool store id content) ∨
      isWorkflowFile path = false ∧ skillIdForPath path = none ∧
        writeFile store workspaceRoot (some path) (some content) = .ok (.file file content) := by
  cases spelled : isWorkflowFile path with
  | true => exact Or.inl ⟨rfl, writeFile_workflow named spelled⟩
  | false =>
    cases found : skillIdForPath path with
    | some id => exact Or.inr (Or.inl ⟨id, rfl, writeFile_skill named found⟩)
    | none => exact Or.inr (Or.inr ⟨rfl, rfl, writeFile_plain named spelled found resolved⟩)

/-- The store's answers are its own. -/
theorem writeNewSkillTool_ne (store : SkillStore) (id content : Text) :
    (∀ path, writeNewSkillTool store id content ≠ .error (.workflowFileNotAutomated path)) ∧
      ∀ file, writeNewSkillTool store id content ≠ .ok (.file file content) := by
  rcases writeNewSkillTool_cases store id content with ⟨_, same⟩ | ⟨_, same⟩
  · rw [same]
    exact ⟨nofun, nofun⟩
  · rw [same]
    exact ⟨nofun, nofun⟩

/-- A file's treatment tells what its path was taken for. -/
theorem spelledOut_of_guarded (named : path.all isWhitespace = false)
    (resolved : resolveInWorkspace workspaceRoot path = .ok file)
    (shape : file = workspaceRoot ++ rest)
    (guarded : Guarded store file rest path content
      (writeFile store workspaceRoot (some path) (some content))) :
    SpelledOut rest path := by
  have ordinary : ¬ IsWorkflow [".hive".toList, "SKILL.md".toList] := by
    rintro ⟨_, _, same⟩
    exact absurd (List.cons.inj same).1 (by decide)
  have unskilled (id : Text) : [".hive".toList, "SKILL.md".toList] ≠ skillPath id := by
    simp [skillPath]
  have spelledSkill {id : Text} (spelled : skillIdForPath path = some id) :
      rest = skillPath id := by
    rcases skill_spelled resolved shape spelled with leads | ⟨_, leads⟩
    · exact leads
    · have plain := guarded.other (leads ▸ ordinary) (leads ▸ unskilled)
      rw [writeFile_skill named spelled] at plain
      exact absurd plain ((writeNewSkillTool_ne store id content).2 file)
  rcases writeFile_cases store content named resolved with
    ⟨spelled, answer⟩ | ⟨id, spelled, answer⟩ | ⟨unflagged, none, answer⟩
  · have never (id : Text) : rest ≠ skillPath id := by
      intro leads
      have other := guarded.skill id leads
      rw [answer] at other
      exact (writeNewSkillTool_ne store id content).1 path other.symm
    refine ⟨iff_of_true spelled ?_, fun id => iff_of_false ?_ (never id)⟩
    · by_contra plain
      have other := guarded.other plain never
      rw [answer] at other
      cases other
    · intro found
      rw [not_isWorkflowFile_of_skill found] at spelled
      cases spelled
  · have leads := spelledSkill spelled
    refine ⟨iff_of_false ?_ (leads ▸ not_isWorkflow_skillPath id), fun other => ?_⟩
    · rw [not_isWorkflowFile_of_skill spelled]
      exact Bool.false_ne_true
    · rw [spelled, leads, Option.some.injEq]
      exact ⟨congrArg skillPath, skillPath_inj⟩
  · refine ⟨iff_of_false (by rw [unflagged]; exact Bool.false_ne_true) ?_,
      fun id => iff_of_false (by rw [none]; exact nofun) ?_⟩
    · intro leads
      have other := guarded.workflow leads
      rw [answer] at other
      cases other
    · intro leads
      have other := guarded.skill id leads
      rw [answer] at other
      exact (writeNewSkillTool_ne store id content).2 file other.symm

theorem guarded_of_spelledOut (named : path.all isWhitespace = false)
    (resolved : resolveInWorkspace workspaceRoot path = .ok file)
    (spelledOut : SpelledOut rest path) :
    Guarded store file rest path content
      (writeFile store workspaceRoot (some path) (some content)) where
  workflow leads := writeFile_workflow named (spelledOut.workflow.mpr leads)
  skill id leads := writeFile_skill named ((spelledOut.skill id).mpr leads)
  other ordinary unskilled := by
    have unflagged : isWorkflowFile path = false :=
      Bool.eq_false_iff.mpr fun spelled => ordinary (spelledOut.workflow.mp spelled)
    have none : skillIdForPath path = none :=
      Option.eq_none_iff_forall_ne_some.mpr fun id spelled =>
        unskilled id ((spelledOut.skill id).mp spelled)
    exact writeFile_plain named unflagged none resolved

/-- Without parent directories only a dot in front of a skill misleads the guards. -/
theorem spelledOut_iff (resolved : resolveInWorkspace workspaceRoot path = .ok file)
    (shape : file = workspaceRoot ++ rest) (plain : Component.parentDir ∉ components path) :
    SpelledOut rest path ↔
      ¬ ((components path).head? = some .curDir ∧ ∃ id, rest = skillPath id) := by
  obtain ⟨relative, _, _⟩ := resolveInWorkspace_ok resolved
  have away := rootDir_notMem_components relative
  have names := rest_names resolved plain shape
  have workflow := isWorkflowFile_iff away plain
  rw [← names] at workflow
  constructor
  · rintro spelledOut ⟨dotted, id, leads⟩
    have texts := skillIdForPath_eq_some_iff.mp ((spelledOut.skill id).mpr leads)
    obtain ⟨first, parts, same, hive, _⟩ := List.map_eq_cons_iff.mp texts
    rw [same, List.head?_cons, Option.some.injEq] at dotted
    rw [dotted] at hive
    exact absurd hive (by decide)
  · intro undotted
    refine ⟨workflow, fun id => ?_⟩
    rw [skillIdForPath_eq_some_iff]
    rcases components_cases relative with ⟨parts, same, _⟩ | never
    · have unskilled : ¬ rest = skillPath id := fun leads => undotted ⟨by rw [same]; rfl, id, leads⟩
      refine iff_of_false ?_ unskilled
      rw [same]
      intro texts
      exact absurd (List.cons.inj texts).1 (by decide)
    · rw [texts_eq_namesOf away plain never, names]

/-- Where a write goes. -/
def Write.target (workspaceRoot : List Text) : Write → List Text
  | .file path _ => path
  | .newSkill id _ => workspaceRoot ++ skillPath id

/-- A write stays under its root, and its file gets the treatment it should exactly when its
spelling shows what it is. -/
theorem write_guards (named : path.all isWhitespace = false)
    (resolved : resolveInWorkspace workspaceRoot path = .ok file) :
    ∃ rest, file = workspaceRoot ++ rest ∧
      (∀ write, writeFile store workspaceRoot (some path) (some content) = .ok write →
        workspaceRoot <+: write.target workspaceRoot) ∧
      (Guarded store file rest path content
          (writeFile store workspaceRoot (some path) (some content)) ↔ SpelledOut rest path) ∧
      (Component.parentDir ∉ components path →
        (SpelledOut rest path ↔
          ¬ ((components path).head? = some .curDir ∧ ∃ id, rest = skillPath id))) := by
  obtain ⟨_, _, rest, shape⟩ := resolveInWorkspace_ok resolved
  refine ⟨rest, shape, ?_, ⟨spelledOut_of_guarded named resolved shape,
    guarded_of_spelledOut named resolved⟩, spelledOut_iff resolved shape⟩
  intro write accepted
  rcases writeFile_cases store content named resolved with
    ⟨_, answer⟩ | ⟨id, _, answer⟩ | ⟨_, _, answer⟩
  · rw [answer] at accepted
    cases accepted
  · rw [answer] at accepted
    rcases writeNewSkillTool_cases store id content with ⟨_, same⟩ | ⟨_, same⟩
    · rw [same] at accepted
      obtain rfl := Except.ok.inj accepted
      exact List.prefix_append _ _
    · rw [same] at accepted
      cases accepted
  · rw [answer] at accepted
    obtain rfl := Except.ok.inj accepted
    exact ⟨rest, shape.symm⟩

end Guards

section Examples

def workflowFile : List Text := ["w", ".github", "workflows", "ci.yml"].map String.toList

def skillFile : List Text := ["w", ".hive", "skills", "plan", "SKILL.md"].map String.toList

/-- A store that takes any skill. -/
def openStore : SkillStore := fun _ _ => .ok ()

theorem write_guards_workflow :
    ∃ rest, workflowFile = ["w".toList] ++ rest ∧
      (Guarded openStore workflowFile rest ".github/workflows/ci.yml".toList "on: push".toList
          (writeFile openStore ["w".toList] (some ".github/workflows/ci.yml".toList)
            (some "on: push".toList)) ↔
        SpelledOut rest ".github/workflows/ci.yml".toList) := by
  have named : List.all ".github/workflows/ci.yml".toList isWhitespace = false := by decide
  have resolved : resolveInWorkspace ["w".toList] ".github/workflows/ci.yml".toList =
      .ok workflowFile := by decide
  obtain ⟨rest, shape, _, guarded, _⟩ := @write_guards openStore _ _ _ "on: push".toList named resolved
  exact ⟨rest, shape, guarded⟩

/-- A workflow file written through a detour, and a skill written past its store. -/
theorem guards_spelled_around :
    (resolveInWorkspace ["w".toList] "a/../.github/workflows/ci.yml".toList = .ok workflowFile ∧
      writeFile openStore ["w".toList] (some "a/../.github/workflows/ci.yml".toList)
        (some "on: push".toList) = .ok (.file workflowFile "on: push".toList)) ∧
    (resolveInWorkspace ["w".toList] "./.hive/skills/plan/SKILL.md".toList = .ok skillFile ∧
      writeFile openStore ["w".toList] (some "./.hive/skills/plan/SKILL.md".toList)
        (some "x".toList) = .ok (.file skillFile "x".toList) ∧
      writeFile openStore ["w".toList] (some ".hive/skills/plan/SKILL.md".toList)
        (some "x".toList) = .ok (.newSkill "plan".toList "x".toList)) := by
  decide

end Examples

end OHHive.Coder
