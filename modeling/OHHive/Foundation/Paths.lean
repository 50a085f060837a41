import OHHive.Foundation.Lines

/-! Paths as texts: their components, and their lexical normal form. -/

namespace OHHive.Foundation

section Paths

/-- A component of a Unix path. -/
inductive Component where
  | rootDir
  | curDir
  | parentDir
  | normal (name : Text)
deriving DecidableEq, Repr

def Component.text : Component → Text
  | .rootDir => ['/']
  | .curDir => ['.']
  | .parentDir => ['.', '.']
  | .normal name => name

def Component.ofName : Text → Component
  | ['.'] => .curDir
  | ['.', '.'] => .parentDir
  | name => .normal name

/-- The components of a path; a dot stays at the start of a relative path only. -/
def components (path : Text) : List Component :=
  let parts := ((path.splitOn '/').filter (· ≠ [])).map Component.ofName
  if path.head? = some '/' then .rootDir :: parts.filter (· ≠ .curDir)
  else
    match parts with
    | .curDir :: rest => .curDir :: rest.filter (· ≠ .curDir)
    | _ => parts.filter (· ≠ .curDir)

def isAbsolute (path : Text) : Bool := path.head? = some '/'

/-- The named components. -/
def namesOf (parts : List Component) : List Text :=
  parts.filterMap fun
    | .normal name => some name
    | _ => none

/-- One component onto an absolute path. -/
def pushComponent (path : List Text) : Component → List Text
  | .rootDir => []
  | .curDir => path
  | .parentDir => path.dropLast
  | .normal name => path ++ [name]

/-- The absolute path that components lead to from a directory. -/
def normalizeLexically (directory : List Text) (parts : List Component) : List Text :=
  parts.foldl pushComponent directory

variable {path : Text} {parts : List Component}

theorem rootDir_notMem_ofName (names : List Text) :
    Component.rootDir ∉ names.map Component.ofName := by
  intro member
  obtain ⟨name, _, same⟩ := List.mem_map.mp member
  unfold Component.ofName at same
  split at same <;> cases same

theorem rootDir_notMem_components (relative : isAbsolute path = false) :
    Component.rootDir ∉ components path := by
  have away := rootDir_notMem_ofName ((path.splitOn '/').filter (· ≠ []))
  unfold components
  rw [if_neg (of_decide_eq_false relative)]
  split
  · rename_i rest shape
    rw [shape] at away
    intro member
    rcases List.mem_cons.mp member with same | later
    · cases same
    · exact away (List.mem_cons_of_mem _ (List.mem_of_mem_filter later))
  · exact fun member => away (List.mem_of_mem_filter member)

/-- A dot is the first component of a relative path, or none. -/
theorem components_cases (relative : isAbsolute path = false) :
    (∃ rest, components path = .curDir :: rest ∧ Component.curDir ∉ rest) ∨
      Component.curDir ∉ components path := by
  have dropped (parts : List Component) : Component.curDir ∉ parts.filter (· ≠ .curDir) := by
    intro member
    simpa using List.of_mem_filter member
  unfold components
  rw [if_neg (of_decide_eq_false relative)]
  split
  · exact Or.inl ⟨_, rfl, dropped _⟩
  · exact Or.inr (dropped _)

theorem normalizeLexically_append (directory : List Text) (first second : List Component) :
    normalizeLexically directory (first ++ second) =
      normalizeLexically (normalizeLexically directory first) second :=
  List.foldl_append

theorem normalizeLexically_normal (directory names : List Text) :
    normalizeLexically directory (names.map .normal) = directory ++ names := by
  induction names generalizing directory with
  | nil => exact (List.append_nil directory).symm
  | cons name rest ih =>
    change normalizeLexically (directory ++ [name]) (rest.map .normal) = _
    rw [ih, List.append_assoc, List.singleton_append]

/-- Without a parent directory a relative path leads to its names. -/
theorem normalizeLexically_names (directory : List Text) (relative : Component.rootDir ∉ parts)
    (plain : Component.parentDir ∉ parts) :
    normalizeLexically directory parts = directory ++ namesOf parts := by
  induction parts generalizing directory with
  | nil => exact (List.append_nil directory).symm
  | cons part rest ih =>
    rw [List.mem_cons, not_or] at relative plain
    have later (next : List Text) := ih next relative.2 plain.2
    cases part with
    | rootDir => exact absurd rfl relative.1
    | parentDir => exact absurd rfl plain.1
    | curDir => exact later directory
    | normal name =>
      change normalizeLexically (directory ++ [name]) rest = _
      rw [later, List.append_assoc]
      rfl

end Paths

end OHHive.Foundation
