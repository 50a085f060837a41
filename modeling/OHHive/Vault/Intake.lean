import OHHive.Vault.Writes

/-! Managed intake: how a source becomes a document, and which date the document's text then
carries. -/

namespace OHHive.Vault

open Foundation
open Coder (byteLength optionalText record uuidText)

section Items

/-- What a source adapter hands in; an excluded source carries no text. -/
inductive IntakeContent where
  | knowledge (title sourceLabel : Text) (project : Option Text) (markdown : Text)
  | excluded
deriving DecidableEq, Repr

structure IntakeItem where
  sourceId : Uuid
  generation : Int
  content : IntakeContent
deriving DecidableEq, Repr

/-- The enumeration as `serde` tags it. -/
def IntakeContent.toJson : IntakeContent → Json
  | .knowledge title sourceLabel project markdown =>
    record
      [("disposition", .text "knowledge".toList), ("title", .text title),
        ("source_label", .text sourceLabel), ("project", optionalText project),
        ("markdown", .text markdown)]
  | .excluded => record [("disposition", .text "excluded".toList)]

def IntakeItem.toJson (item : IntakeItem) : Json :=
  record
    [("source_id", .text (uuidText item.sourceId)), ("generation", .number item.generation),
      ("content", item.content.toJson)]

end Items

section Preparation

def maxSource : Nat := 1024 * 1024

/-- The folder that a leading heading of the source asks for. -/
def kindOf (markdown : Text) : Text :=
  let heading := ((lines markdown).find? fun line => trim line ≠ []).getD []
  let heading := String.ofList ((trim heading).map Char.toLower)
  if heading ∈ ["# decision", "# decisions"] then "decisions".toList
  else if heading ∈ ["# research", "# benchmark", "# test report"] then "research".toList
  else if heading ∈ ["# procedure", "# walkthrough"] then "procedures".toList
  else "notes".toList

/-- One line of the preview. -/
def excerptLine (number : Nat) (trimmed : Text) : Text :=
  let quoted := trimmed.take 200
  "- Source line ".toList ++ (toString number).toList ++ ": ".toList ++ quoted ++
    (if byteLength quoted < byteLength trimmed then " …".toList else [])

def backtick : Char := Char.ofNat 96

/-- The preview quotes the first lines of prose, outside fenced blocks and headings. -/
def excerptsFrom (number : Nat) (fenced : Bool) : Nat → List Text → List Text
  | 0, _ => []
  | _, [] => []
  | left + 1, text :: rest =>
    let trimmed := trim text
    if [backtick, backtick, backtick].isPrefixOf trimmed || "~~~".toList.isPrefixOf trimmed then
      excerptsFrom (number + 1) (!fenced) (left + 1) rest
    else if fenced || trimmed = [] || "#".toList.isPrefixOf trimmed then
      excerptsFrom (number + 1) fenced (left + 1) rest
    else excerptLine number trimmed :: excerptsFrom (number + 1) fenced left rest

def noExcerpt : Text := "No prose excerpt available; read the source below.".toList

/-- The lines of the preview; there is one in any case. -/
def summaryLines (markdown : Text) : List Text :=
  match excerptsFrom 1 false 3 (lines markdown) with
  | [] => [noExcerpt]
  | excerpts => excerpts

variable (sha256 : Text → Text) (formats : DateFormats)

def metadata (item : IntakeItem) (sourceLabel markdown : Text) : Text :=
  (record
    [("generation", .number item.generation), ("method", .text "extractive-v1".toList),
      ("source_id", .text (uuidText item.sourceId)), ("source_label", .text sourceLabel),
      ("source_sha256", .text (sha256 markdown))]).print

/-- The document's text: a provenance header, the preview, and the source as it is. -/
def wrapped (item : IntakeItem) (title sourceLabel markdown : Text) : Text :=
  "# ".toList ++ title ++ "\n\n## Intake provenance\n".toList ++
    metadata sha256 item sourceLabel markdown ++
    "\n\n## Source excerpts (not independently verified)\n".toList ++
    (summaryLines markdown).flatMap (· ++ ['\n']) ++ "\n## Original source\n\n".toList ++ markdown

def singleLine (label : Text) : Bool := !label.contains '\n' && !label.contains '\r'

def projectOk (project : Text) : Bool :=
  project ≠ [] && byteLength project ≤ 80 &&
    project.all fun char => char.isAlphanum || char = '-' || char = '_'

def prepare (item : IntakeItem) (id : Uuid) : Result (Option Prepared) :=
  match item.content with
  | .excluded => .ok none
  | .knowledge title sourceLabel project markdown => do
    checkText (String.ofList title) 512
    checkText (String.ofList sourceLabel) 512
    checkText (String.ofList markdown) maxSource
    require (singleLine title ∧ singleLine sourceLabel)
      (rejected "intake labels must be single-line")
    let project := project.getD "inbox".toList
    require (projectOk project) (rejected "invalid intake project")
    return some
      { path := "Intake/".toList ++ project ++ '/' :: kindOf markdown ++ '/' :: uuidText id ++
          ".md".toList
        title
        content := wrapped sha256 item title sourceLabel markdown
        documentDate := extractDocumentDate formats markdown }

/-- What a prepared document is made of. -/
theorem prepare_ok {sha256 : Text → Text} {formats : DateFormats} {item : IntakeItem} {id : Uuid}
    {prepared : Prepared} (done : prepare sha256 formats item id = .ok (some prepared)) :
    ∃ title sourceLabel project markdown,
      item.content = .knowledge title sourceLabel project markdown ∧ singleLine title = true ∧
        prepared.title = title ∧
        prepared.content = wrapped sha256 item title sourceLabel markdown ∧
        prepared.documentDate = extractDocumentDate formats markdown := by
  unfold prepare at done
  split at done
  · cases done
  · rename_i title sourceLabel project markdown given
    simp only [bind_eq_ok_iff, pure_eq_ok_iff, require_eq_ok_iff] at done
    obtain ⟨_, _, _, _, _, _, _, single, _, _, made⟩ := done
    obtain rfl := Option.some.inj made
    exact ⟨title, sourceLabel, project, markdown, given, single.1, rfl, rfl, rfl⟩

end Preparation

section Lines

/-- A line that no date stands on. -/
def Undated (line : Text) : Prop := stripPrefix "Date:".toList (trim line) = none

/-- Whole lines without a date. -/
structure Preamble (text : Text) (count : Nat) : Prop where
  length : (lines text).length = count
  ends : ∀ rest, lines (text ++ rest) = lines text ++ lines rest
  undated : ∀ line ∈ lines text, Undated line

variable {char : Char} {rest line text later : Text}

/-- Trimming keeps a text's first character if that is not blank. -/
theorem trim_cons (solid : isWhitespace char = false) (rest : Text) :
    ∃ kept, trim (char :: rest) = char :: kept := by
  have front : (char :: rest).dropWhile isWhitespace = char :: rest :=
    List.dropWhile_cons_of_neg (by simp [solid])
  have last : [char].dropWhile isWhitespace = [char] :=
    List.dropWhile_cons_of_neg (by simp [solid])
  unfold trim
  rw [front, List.reverse_cons, List.dropWhile_append, last]
  split
  · exact ⟨[], rfl⟩
  · rw [List.reverse_append]
    exact ⟨_, rfl⟩

theorem undated_of_lead (solid : isWhitespace char = false) (other : char ≠ 'D') (rest : Text) :
    Undated (char :: rest) := by
  obtain ⟨kept, trimmed⟩ := trim_cons solid rest
  rw [Undated, trimmed, stripPrefix_eq_none_iff]
  intro marked
  exact other (List.cons_prefix_cons.mp marked).1.symm

theorem undated_nil : Undated [] := rfl

theorem preamble_empty : Preamble ['\n'] 1 where
  length := rfl
  ends := fun rest => lines_append [] rest
  undated := by
    intro line member
    rw [show lines ['\n'] = [[]] from rfl, List.mem_singleton] at member
    rw [member]
    exact undated_nil

theorem preamble_line (plain : '\n' ∉ char :: rest) (solid : isWhitespace char = false)
    (other : char ≠ 'D') : Preamble (char :: rest ++ ['\n']) 1 where
  length := by
    rw [lines_ended plain]
    rfl
  ends := by
    intro later
    rw [List.append_assoc]
    exact lines_append _ _
  undated := by
    intro line member
    rw [lines_ended plain, List.mem_singleton] at member
    rw [member]
    split
    · cases rest with
      | nil => exact undated_nil
      | cons next rest => exact undated_of_lead solid other _
    · exact undated_of_lead solid other rest

theorem Preamble.append {count more : Nat} (first : Preamble text count)
    (second : Preamble later more) : Preamble (text ++ later) (count + more) where
  length := by
    rw [first.ends, List.length_append, first.length, second.length]
  ends := by
    intro rest
    rw [List.append_assoc, first.ends, first.ends, second.ends, List.append_assoc]
  undated := by
    intro line member
    rw [first.ends] at member
    exact (List.mem_append.mp member).elim (first.undated line) (second.undated line)

theorem preamble_flatMap {texts : List Text}
    (each : ∀ text ∈ texts, Preamble (text ++ ['\n']) 1) :
    Preamble (texts.flatMap (· ++ ['\n'])) texts.length := by
  induction texts with
  | nil => exact ⟨rfl, fun _ => rfl, nofun⟩
  | cons text texts ih =>
    obtain ⟨first, others⟩ := List.forall_mem_cons.mp each
    rw [List.flatMap_cons, List.length_cons, Nat.add_comm]
    exact first.append (ih others)

end Lines

section Wrapping

variable {title text : Text}

theorem plain_trim {text : Text} (plain : '\n' ∉ text) : '\n' ∉ trim text := by
  intro member
  have first := (List.dropWhile_sublist _).subset (List.mem_reverse.mp member)
  exact plain ((List.dropWhile_sublist _).subset (List.mem_reverse.mp first))

theorem plain_excerptLine (number : Nat) {trimmed : Text} (plain : '\n' ∉ trimmed) :
    '\n' ∉ excerptLine number trimmed := by
  have digits : '\n' ∉ (toString number).toList := by
    have digits := (visible_toDigits number).oneLine
    rwa [← Nat.toList_repr] at digits
  have quoted : '\n' ∉ trimmed.take 200 := fun member => plain (List.mem_of_mem_take member)
  unfold excerptLine
  simp only [List.mem_append, not_or]
  refine ⟨⟨⟨⟨by decide, digits⟩, by decide⟩, quoted⟩, ?_⟩
  split <;> decide

theorem preamble_excerptLine (number : Nat) {trimmed : Text} (plain : '\n' ∉ trimmed) :
    Preamble (excerptLine number trimmed ++ ['\n']) 1 :=
  preamble_line (plain_excerptLine number plain) rfl (by decide)

theorem preamble_excerptsFrom {texts : List Text} (plain : ∀ text ∈ texts, '\n' ∉ text)
    (number : Nat) (fenced : Bool) (left : Nat) :
    ∀ text ∈ excerptsFrom number fenced left texts, Preamble (text ++ ['\n']) 1 := by
  induction texts generalizing number fenced left with
  | nil =>
    cases left <;> exact nofun
  | cons text texts ih =>
    obtain ⟨first, others⟩ := List.forall_mem_cons.mp plain
    cases left with
    | zero => exact nofun
    | succ left =>
      rw [excerptsFrom]
      split
      · exact ih others _ _ _
      · split
        · exact ih others _ _ _
        · exact List.forall_mem_cons.mpr
            ⟨preamble_excerptLine number (plain_trim first), ih others _ _ _⟩

/-- The preview takes up as many lines as it quotes, and no date stands there. -/
theorem preamble_summary (markdown : Text) :
    Preamble ((summaryLines markdown).flatMap (· ++ ['\n'])) (summaryLines markdown).length := by
  apply preamble_flatMap
  unfold summaryLines
  split
  · intro text member
    rw [List.mem_singleton.mp member]
    exact preamble_line (by decide) rfl (by decide)
  · exact preamble_excerptsFrom (fun _ member => plain_of_mem_lines member) 1 false 3

theorem length_excerptsFrom (number : Nat) (fenced : Bool) (left : Nat) (texts : List Text) :
    (excerptsFrom number fenced left texts).length ≤ left := by
  induction texts generalizing number fenced left with
  | nil => cases left <;> exact Nat.zero_le _
  | cons text texts ih =>
    cases left with
    | zero => exact Nat.zero_le _
    | succ left =>
      rw [excerptsFrom]
      split
      · exact ih _ _ _
      · split
        · exact ih _ _ _
        · exact Nat.succ_le_succ (ih _ _ _)

/-- One to three lines. -/
theorem length_summaryLines (markdown : Text) :
    0 < (summaryLines markdown).length ∧ (summaryLines markdown).length ≤ 3 := by
  have most := length_excerptsFrom 1 false 3 (lines markdown)
  unfold summaryLines
  split
  · exact ⟨Nat.one_pos, by decide⟩
  · rename_i filled
    exact ⟨List.length_pos_of_ne_nil filled, most⟩

/-- How many lines come before the source in its document. -/
def headerLines (markdown : Text) : Nat := 9 + (summaryLines markdown).length

/-- The lines of a document are its header's, without a date, and the source's. -/
theorem lines_wrapped (sha256 : Text → Text) (item : IntakeItem) (sourceLabel markdown : Text)
    (single : singleLine title = true) :
    ∃ header, lines (wrapped sha256 item title sourceLabel markdown) = header ++ lines markdown ∧
      header.length = headerLines markdown ∧ ∀ line ∈ header, Undated line := by
  have plainTitle : '\n' ∉ '#' :: ' ' :: title := by
    rw [singleLine, Bool.and_eq_true, Bool.not_eq_true'] at single
    simpa using single.1
  have titled : Preamble ('#' :: ' ' :: title ++ ['\n']) 1 :=
    preamble_line plainTitle rfl (by decide)
  have provenance : Preamble ("## Intake provenance".toList ++ ['\n']) 1 :=
    preamble_line (by decide) rfl (by decide)
  have receipt : Preamble (metadata sha256 item sourceLabel markdown ++ ['\n']) 1 := by
    have plain : '\n' ∉ metadata sha256 item sourceLabel markdown := (Json.visible_print _).oneLine
    exact preamble_line plain rfl (by decide)
  have sources : Preamble ("## Source excerpts (not independently verified)".toList ++ ['\n']) 1 :=
    preamble_line (by decide) rfl (by decide)
  have original : Preamble ("## Original source".toList ++ ['\n']) 1 :=
    preamble_line (by decide) rfl (by decide)
  have header := ((((((((titled.append preamble_empty).append provenance).append receipt).append
    preamble_empty).append sources).append (preamble_summary markdown)).append
      preamble_empty).append original).append preamble_empty
  refine ⟨_, ?_, ?_, header.undated⟩
  · rw [← header.ends]
    delta wrapped
    have first : "\n\n## Intake provenance\n".toList =
        ['\n'] ++ ['\n'] ++ ("## Intake provenance".toList ++ ['\n']) := by decide
    have second : "\n\n## Source excerpts (not independently verified)\n".toList =
        ['\n'] ++ ['\n'] ++
          ("## Source excerpts (not independently verified)".toList ++ ['\n']) := by decide
    have third : "\n## Original source\n\n".toList =
        ['\n'] ++ ("## Original source".toList ++ ['\n']) ++ ['\n'] := by decide
    have title : "# ".toList = ['#', ' '] := rfl
    simp only [first, second, third, title, List.append_assoc, List.cons_append, List.nil_append]
  · rw [header.length, headerLines]
    omega

end Wrapping

section Dates

variable (formats : DateFormats)

/-- The date in a leading front matter. -/
def frontMatterDate (content : Text) : Option Int :=
  ((stripPrefix "---\n".toList content).bind (before? "\n---".toList)).bind fun front =>
    dateOfLines formats "date:".toList (lines front)

/-- The date on a `Date:` line. -/
def lineDate (line : Text) : Option Int :=
  (stripPrefix "Date:".toList (trim line)).bind (parseDateValue formats)

/-- How many of a source's lines are among the first sixty of its document. -/
def window (markdown : Text) : Nat := 60 - headerLines markdown

variable {sha256 : Text → Text} {formats : DateFormats} {item : IntakeItem} {id : Uuid}
  {title sourceLabel markdown : Text} {project : Option Text} {prepared : Prepared}

theorem dateOfLines_eq_none {key : Text} {texts : List Text}
    (undated : ∀ line ∈ texts, stripPrefix key (trim line) = none) :
    dateOfLines formats key texts = none := by
  rw [dateOfLines, List.findSome?_eq_none_iff]
  intro line member
  rw [undated line member]
  rfl

theorem extractDocumentDate_eq (content : Text) :
    extractDocumentDate formats content =
      (frontMatterDate formats content).or
        (((lines content).take 60).findSome? (lineDate formats)) :=
  Option.or_eq_orElse.symm

/-- A document's text has no front matter, and fewer of the source's lines are looked at. -/
theorem extractDocumentDate_wrapped (formats : DateFormats) (sha256 : Text → Text)
    (item : IntakeItem) (sourceLabel markdown : Text) (single : singleLine title = true) :
    extractDocumentDate formats (wrapped sha256 item title sourceLabel markdown) =
      ((lines markdown).take (window markdown)).findSome? (lineDate formats) := by
  obtain ⟨header, split, length, undated⟩ :=
    lines_wrapped sha256 item sourceLabel markdown single
  have fewer := length_summaryLines markdown
  have short : header.length ≤ 60 := by
    rw [length, headerLines]
    omega
  have bare : (header.take 60).findSome? (lineDate formats) = none :=
    dateOfLines_eq_none fun line member => undated line (List.mem_of_mem_take member)
  have unfenced : frontMatterDate formats (wrapped sha256 item title sourceLabel markdown) = none :=
    rfl
  rw [extractDocumentDate_eq, unfenced, split, List.take_append, List.findSome?_append, bare,
    length]
  rfl

/-- The date of a source can be read from its document: the `Date:` line that gives it is near
enough to the start, and no other date stands in a front matter. -/
structure KeepsDate (formats : DateFormats) (markdown : Text) : Prop where
  front : ∀ date, frontMatterDate formats markdown = some date →
    ((lines markdown).take (window markdown)).findSome? (lineDate formats) = some date
  line : frontMatterDate formats markdown = none →
    ∀ line ∈ ((lines markdown).take 60).drop (window markdown), (lineDate formats line).isSome →
      ∃ earlier ∈ (lines markdown).take (window markdown), (lineDate formats earlier).isSome

/-- The lines looked at in a source are those looked at in its document, and a few more. -/
theorem dateOfSource_eq (markdown : Text) :
    ((lines markdown).take 60).findSome? (lineDate formats) =
      (((lines markdown).take (window markdown)).findSome? (lineDate formats)).or
        ((((lines markdown).take 60).drop (window markdown)).findSome? (lineDate formats)) := by
  have near : ((lines markdown).take 60).take (window markdown) =
      (lines markdown).take (window markdown) := by
    rw [List.take_take, Nat.min_eq_left (show window markdown ≤ 60 from Nat.sub_le _ _)]
  rw [← List.findSome?_append, ← near, List.take_append_drop]

theorem keepsDate_iff :
    ((lines markdown).take (window markdown)).findSome? (lineDate formats) =
      extractDocumentDate formats markdown ↔ KeepsDate formats markdown := by
  rw [extractDocumentDate_eq, dateOfSource_eq]
  constructor
  · intro same
    refine ⟨fun date dated => ?_, fun undated line beyond dated => ?_⟩
    · rw [same, dated]
      rfl
    · have found : ((((lines markdown).take 60).drop (window markdown)).findSome?
          (lineDate formats)).isSome := List.findSome?_isSome_iff.mpr ⟨line, beyond, dated⟩
      rw [undated, Option.none_or] at same
      apply List.findSome?_isSome_iff.mp
      rw [same, Option.isSome_or, found, Bool.or_true]
  · intro keeps
    cases dated : frontMatterDate formats markdown with
    | some date => exact keeps.front date dated
    | none =>
      rw [Option.none_or]
      cases first : ((lines markdown).take (window markdown)).findSome? (lineDate formats) with
      | some date => rfl
      | none =>
        have missing := List.findSome?_eq_none_iff.mp first
        rw [Option.none_or, eq_comm, List.findSome?_eq_none_iff]
        intro line beyond
        by_contra other
        obtain ⟨earlier, seen, dates⟩ :=
          keeps.line dated line beyond (Option.isSome_iff_ne_none.mpr other)
        rw [missing earlier seen] at dates
        cases dates

/-- The text that intake stores gives the source's date under this condition only. -/
theorem extractDocumentDate_prepared_iff
    (given : item.content = .knowledge title sourceLabel project markdown)
    (done : prepare sha256 formats item id = .ok (some prepared)) :
    extractDocumentDate formats prepared.content = extractDocumentDate formats markdown ↔
      KeepsDate formats markdown := by
  obtain ⟨_, _, _, _, content, single, _, stored, _⟩ := prepare_ok done
  obtain ⟨rfl, rfl, rfl, rfl⟩ := IntakeContent.knowledge.inj (given.symm.trans content)
  rw [stored, extractDocumentDate_wrapped _ _ _ _ _ single, keepsDate_iff]

/-- Formats that read one meeting's minute and one note's day. -/
def sampleFormats : DateFormats where
  rfc3339 := fun _ => none
  minute := fun text => if text = "2025-12-22 08:25".toList then some 1766391900 else none
  day := fun text => if text = "2026-09-27".toList then some 1790467200 else none

def sourceItem (markdown : Text) : IntakeItem :=
  ⟨1, 1, .knowledge "Notes".toList "Lab report".toList none markdown⟩

def meetingSource : Text := "Meeting: Sync\nDate: 2025-12-22 08:25 - 2025-12-22 15:18\n".toList

def datedNote : Text := "---\ndate: 2026-09-27\n---\nbody".toList

theorem meeting_keeps_date :
    ∃ prepared, prepare digest sampleFormats (sourceItem meetingSource) 2 = .ok (some prepared) ∧
      extractDocumentDate sampleFormats prepared.content =
        extractDocumentDate sampleFormats meetingSource := by
  have accepted : ∃ prepared,
      prepare digest sampleFormats (sourceItem meetingSource) 2 = .ok (some prepared) := ⟨_, rfl⟩
  obtain ⟨prepared, done⟩ := accepted
  refine ⟨prepared, done, (extractDocumentDate_prepared_iff rfl done).mpr ⟨?_, ?_⟩⟩
  · intro date dated
    rw [show frontMatterDate sampleFormats meetingSource = none by decide +kernel] at dated
    cases dated
  · intro _ line beyond
    rw [show ((lines meetingSource).take 60).drop (window meetingSource) = [] by decide +kernel]
      at beyond
    cases beyond

/-- The date of a front matter is not found in the document. -/
theorem note_loses_date :
    ¬ ∀ (formats : DateFormats) (item : IntakeItem) (id : Uuid) (prepared : Prepared)
        (title sourceLabel : Text) (project : Option Text) (markdown : Text),
      item.content = .knowledge title sourceLabel project markdown →
      prepare digest formats item id = .ok (some prepared) →
      extractDocumentDate formats prepared.content = extractDocumentDate formats markdown := by
  intro same
  have dated : extractDocumentDate sampleFormats datedNote = some 1790467200 := by decide +kernel
  have seen : ((lines datedNote).take (window datedNote)).findSome? (lineDate sampleFormats) =
      none := by decide +kernel
  have accepted : ∃ prepared,
      prepare digest sampleFormats (sourceItem datedNote) 2 = .ok (some prepared) := ⟨_, rfl⟩
  obtain ⟨prepared, done⟩ := accepted
  obtain ⟨_, _, _, _, content, single, _, stored, _⟩ := prepare_ok done
  obtain ⟨rfl, rfl, rfl, rfl⟩ := IntakeContent.knowledge.inj content
  have lost : extractDocumentDate sampleFormats prepared.content = none := by
    rw [stored]
    exact (extractDocumentDate_wrapped _ _ _ _ _ single).trans seen
  have kept := same sampleFormats (sourceItem datedNote) 2 prepared _ _ _ _ rfl done
  cases lost.symm.trans (kept.trans dated)

end Dates

end OHHive.Vault
