import Mathlib.Data.List.Basic

/-! The lines of a text, as `str::lines` reads them: a line ends before its line feed and one
carriage return in front of it; the text after the last line feed is a line if it is not
empty. -/

namespace OHHive.Foundation

abbrev Text := List Char

instance : LawfulBEq Text := inferInstance

/-- The pieces of a text that end at its line feeds. -/
def splitInclusive : Text → List Text
  | [] => []
  | char :: rest =>
    if char = '\n' then
      [char] :: splitInclusive rest
    else
      match splitInclusive rest with
      | [] => [[char]]
      | piece :: pieces => (char :: piece) :: pieces

/-- A piece without its line end. -/
def withoutEnd (piece : Text) : Text :=
  if piece.getLast? = some '\n' then
    if piece.dropLast.getLast? = some '\r' then piece.dropLast.dropLast else piece.dropLast
  else
    piece

def lines (text : Text) : List Text := (splitInclusive text).map withoutEnd

/-- `slice::join` with a line feed. -/
def joinLines : List Text → Text
  | [] => []
  | [line] => line
  | line :: next :: rest => line ++ '\n' :: joinLines (next :: rest)

/-- `str::strip_prefix`. -/
def stripPrefix (marker text : Text) : Option Text :=
  if marker.isPrefixOf text then some (text.drop marker.length) else none

section Splitting

variable {text rest piece : Text} {char : Char}

theorem splitInclusive_feed (rest : Text) :
    splitInclusive ('\n' :: rest) = ['\n'] :: splitInclusive rest := by
  rw [splitInclusive, if_pos rfl]

theorem splitInclusive_nil (other : char ≠ '\n') (empty : splitInclusive rest = []) :
    splitInclusive (char :: rest) = [[char]] := by
  rw [splitInclusive, if_neg other, empty]

theorem splitInclusive_cons {pieces : List Text} (other : char ≠ '\n')
    (split : splitInclusive rest = piece :: pieces) :
    splitInclusive (char :: rest) = (char :: piece) :: pieces := by
  rw [splitInclusive, if_neg other, split]

theorem splitInclusive_ne_nil (filled : text ≠ []) : splitInclusive text ≠ [] := by
  cases text with
  | nil => exact absurd rfl filled
  | cons char rest =>
    by_cases ends : char = '\n'
    · rw [ends, splitInclusive_feed]
      exact List.cons_ne_nil _ _
    · cases split : splitInclusive rest with
      | nil =>
        rw [splitInclusive_nil ends split]
        exact List.cons_ne_nil _ _
      | cons piece pieces =>
        rw [splitInclusive_cons ends split]
        exact List.cons_ne_nil _ _

/-- A line feed ends a piece, whatever follows it. -/
theorem splitInclusive_append (text rest : Text) :
    splitInclusive (text ++ '\n' :: rest) =
      splitInclusive (text ++ ['\n']) ++ splitInclusive rest := by
  induction text with
  | nil => exact splitInclusive_feed rest
  | cons char text ih =>
    rw [List.cons_append, List.cons_append]
    by_cases ends : char = '\n'
    · rw [ends, splitInclusive_feed, splitInclusive_feed, ih, List.cons_append]
    · cases split : splitInclusive (text ++ ['\n']) with
      | nil => exact absurd split (splitInclusive_ne_nil (List.concat_ne_nil _ _))
      | cons piece pieces =>
        rw [split, List.cons_append] at ih
        rw [splitInclusive_cons ends split, splitInclusive_cons ends ih, List.cons_append]

/-- A text without line feed is one piece. -/
theorem splitInclusive_plain (plain : '\n' ∉ text) (filled : text ≠ []) :
    splitInclusive text = [text] := by
  induction text with
  | nil => exact absurd rfl filled
  | cons char rest ih =>
    obtain ⟨differs, plainRest⟩ := not_or.mp (mt List.mem_cons.mpr plain)
    cases rest with
    | nil => exact splitInclusive_nil (Ne.symm differs) rfl
    | cons next rest =>
      exact splitInclusive_cons (Ne.symm differs) (ih plainRest (List.cons_ne_nil _ _))

theorem splitInclusive_ended (plain : '\n' ∉ text) :
    splitInclusive (text ++ ['\n']) = [text ++ ['\n']] := by
  induction text with
  | nil => exact splitInclusive_feed []
  | cons char rest ih =>
    obtain ⟨differs, plainRest⟩ := not_or.mp (mt List.mem_cons.mpr plain)
    exact splitInclusive_cons (Ne.symm differs) (ih plainRest)

/-- A piece is a line with or without its line feed. -/
theorem plain_of_mem_splitInclusive (member : piece ∈ splitInclusive text) :
    '\n' ∉ piece ∨ ∃ line, '\n' ∉ line ∧ piece = line ++ ['\n'] := by
  induction text generalizing piece with
  | nil => cases member
  | cons char rest ih =>
    by_cases ends : char = '\n'
    · rw [ends, splitInclusive_feed] at member
      rcases List.mem_cons.mp member with rfl | later
      · exact Or.inr ⟨[], List.not_mem_nil, rfl⟩
      · exact ih later
    · have differs : '\n' ≠ char := Ne.symm ends
      cases split : splitInclusive rest with
      | nil =>
        rw [splitInclusive_nil ends split, List.mem_singleton] at member
        subst member
        exact Or.inl (List.not_mem_cons_of_ne_of_not_mem differs List.not_mem_nil)
      | cons first pieces =>
        rw [splitInclusive_cons ends split] at member
        rw [split] at ih
        rcases List.mem_cons.mp member with rfl | later
        · rcases ih List.mem_cons_self with plain | ⟨line, plain, rfl⟩
          · exact Or.inl (List.not_mem_cons_of_ne_of_not_mem differs plain)
          · exact Or.inr ⟨char :: line, List.not_mem_cons_of_ne_of_not_mem differs plain, rfl⟩
        · exact ih (List.mem_cons_of_mem _ later)

end Splitting

section Lines

variable {text rest marker line : Text}

theorem lines_append (text rest : Text) :
    lines (text ++ '\n' :: rest) = lines (text ++ ['\n']) ++ lines rest := by
  rw [lines, splitInclusive_append, List.map_append]
  rfl

theorem withoutEnd_plain (plain : '\n' ∉ text) : withoutEnd text = text :=
  if_neg fun ends => plain (List.mem_of_getLast? ends)

theorem withoutEnd_ended (text : Text) :
    withoutEnd (text ++ ['\n']) = if text.getLast? = some '\r' then text.dropLast else text := by
  rw [withoutEnd, if_pos List.getLast?_concat, List.dropLast_concat]

/-- The text behind the last line feed is the last line. -/
theorem lines_plain (plain : '\n' ∉ text) (filled : text ≠ []) : lines text = [text] := by
  rw [lines, splitInclusive_plain plain filled, List.map_singleton, withoutEnd_plain plain]

theorem lines_ended (plain : '\n' ∉ text) :
    lines (text ++ ['\n']) = [if text.getLast? = some '\r' then text.dropLast else text] := by
  rw [lines, splitInclusive_ended plain, List.map_singleton, withoutEnd_ended]

/-- A line without line feed and carriage return is read back. -/
theorem lines_whole (plain : '\n' ∉ text) (solid : '\r' ∉ text) :
    lines (text ++ ['\n']) = [text] := by
  rw [lines_ended plain, if_neg fun ends => solid (List.mem_of_getLast? ends)]

/-- An empty line between two paragraphs. -/
theorem lines_paragraphs (text rest : Text) :
    lines (text ++ '\n' :: '\n' :: rest) = lines (text ++ ['\n']) ++ [] :: lines rest := by
  have gap : lines ('\n' :: rest) = [] :: lines rest := lines_append [] rest
  rw [lines_append, gap]

/-- No line contains a line feed. -/
theorem plain_of_mem_lines (member : line ∈ lines text) : '\n' ∉ line := by
  obtain ⟨piece, inText, rfl⟩ := List.mem_map.mp member
  rcases plain_of_mem_splitInclusive inText with plain | ⟨line, plain, rfl⟩
  · rwa [withoutEnd_plain plain]
  · rw [withoutEnd_ended]
    split
    · exact fun inBody => plain (List.dropLast_subset _ inBody)
    · exact plain

end Lines

section Markers

variable {text marker line : Text}

theorem stripPrefix_append (marker body : Text) : stripPrefix marker (marker ++ body) = some body := by
  rw [stripPrefix, if_pos (List.isPrefixOf_iff_prefix.mpr (List.prefix_append marker body)),
    List.drop_left]

theorem stripPrefix_eq_none_iff : stripPrefix marker text = none ↔ ¬ marker <+: text := by
  simp [stripPrefix]

/-- The start of an unmarked line is unmarked. -/
theorem unmarked_of_start {start : Text} (unmarked : stripPrefix marker line = none)
    (begins : start <+: line) : stripPrefix marker start = none := by
  rw [stripPrefix_eq_none_iff] at unmarked ⊢
  exact fun marked => unmarked (marked.trans begins)

/-- An unmarked line stays unmarked when it is read again. -/
theorem filterMap_lines_ended (plain : '\n' ∉ line) (unmarked : stripPrefix marker line = none) :
    (lines (line ++ ['\n'])).filterMap (stripPrefix marker) = [] := by
  have begins : (if line.getLast? = some '\r' then line.dropLast else line) <+: line := by
    split
    · exact List.dropLast_prefix line
    · exact List.prefix_rfl
  rw [lines_ended plain, List.filterMap_cons, unmarked_of_start unmarked begins]
  rfl

/-- Unmarked lines stay unmarked when they are joined and read again. -/
theorem filterMap_lines_joinLines {kept : List Text} (filled : marker ≠ [])
    (plain : ∀ line ∈ kept, '\n' ∉ line) (unmarked : ∀ line ∈ kept, stripPrefix marker line = none) :
    (lines (joinLines kept ++ ['\n'])).filterMap (stripPrefix marker) = [] := by
  fun_induction joinLines kept with
  | case1 =>
    have empty : stripPrefix marker [] = none := by
      rw [stripPrefix_eq_none_iff, List.prefix_nil]
      exact filled
    rw [show lines ([] ++ ['\n']) = [[]] from rfl, List.filterMap_cons, empty]
    rfl
  | case2 line =>
    exact filterMap_lines_ended (plain line List.mem_cons_self) (unmarked line List.mem_cons_self)
  | case3 line next rest ih =>
    rw [List.append_assoc, List.cons_append, lines_append, List.filterMap_append,
      filterMap_lines_ended (plain line List.mem_cons_self) (unmarked line List.mem_cons_self),
      List.nil_append]
    exact ih (fun other member => plain other (List.mem_cons_of_mem _ member))
      (fun other member => unmarked other (List.mem_cons_of_mem _ member))

end Markers

section Separators

/-- Two texts cut at their first separator are equal in both parts. -/
theorem cut_inj {separator : Char} {first second rest others : Text} (plain : separator ∉ first)
    (smooth : separator ∉ second) (same : first ++ separator :: rest = second ++ separator :: others) :
    first = second ∧ rest = others := by
  induction first generalizing second with
  | nil =>
    cases second with
    | nil => exact ⟨rfl, (List.cons.inj same).2⟩
    | cons char second => exact absurd (List.cons.inj same).1 (List.ne_of_not_mem_cons smooth)
  | cons char first ih =>
    cases second with
    | nil => exact absurd (List.cons.inj same).1.symm (List.ne_of_not_mem_cons plain)
    | cons other second =>
      obtain ⟨rfl, later⟩ := List.cons.inj same
      obtain ⟨rfl, rfl⟩ := ih (List.not_mem_of_not_mem_cons plain)
        (List.not_mem_of_not_mem_cons smooth) later
      exact ⟨rfl, rfl⟩

end Separators

end OHHive.Foundation
