import OHHive.Bots.Mentions

/-! The outline of a body: what stands outside its code fences and outside the code spans that an
equal run of backticks closes. The scan of mentions reads it up to the first stray run. -/

namespace OHHive.Bots.Mentions

section Outline

abbrev backtick : Char := Char.ofNat 96

/-- A line without the markers of its quotes and its list. -/
def content (line : List Char) : List Char := stripListMarker (stripQuotes line line)

/-- The widths of the backtick runs of a line, of which `width` backticks are read already. -/
def runs (width : Nat) : List Char → List Nat
  | [] => if width = 0 then [] else [width]
  | char :: rest =>
    if char = backtick then runs (width + 1) rest
    else if width = 0 then runs 0 rest else width :: runs 0 rest

/-- A span of this width is closed by an equal run, on its own line or on a later one. -/
def Closed (width : Nat) (line : List Char) (later : List (List Char)) : Prop :=
  width ∈ runs 0 line ∨ ∃ other ∈ later, width ∈ runs 0 (content other)

instance (width : Nat) (line : List Char) (later : List (List Char)) :
    Decidable (Closed width line later) := by
  unfold Closed
  infer_instance

/-- What a body shows outside its fenced blocks and its closed code spans. -/
inductive Piece where
  | char (char : Char)
  | escaped (char : Option Char)
  | span (width : Nat)
  | stray (width : Nat)
  | fence (marker : Char) (width : Nat)
  | lineEnd
deriving DecidableEq, Repr

/-- The outline of one line, `inline` being the width of the span that is open at its start. -/
def outlineLine (later : List (List Char)) (inline skip : Nat) : List Char → Nat × List Piece
  | [] => (inline, [])
  | char :: rest =>
    if skip > 0 then outlineLine later inline (skip - 1) rest
    else if char = '\\' ∧ inline = 0 then
      let (left, pieces) := outlineLine later inline 1 rest
      (left, .escaped rest.head? :: pieces)
    else if char = backtick then
      let width := 1 + (rest.takeWhile (· = backtick)).length
      if inline = 0 then
        if Closed width (rest.drop (width - 1)) later then
          let (left, pieces) := outlineLine later width (width - 1) rest
          (left, .span width :: pieces)
        else
          let (left, pieces) := outlineLine later 0 (width - 1) rest
          (left, .stray width :: pieces)
      else outlineLine later (if inline = width then 0 else inline) (width - 1) rest
    else
      let (left, pieces) := outlineLine later inline 0 rest
      (left, if inline = 0 then .char char :: pieces else pieces)

/-- A line as a fence: its indent, the character it starts with, how often, and what follows. -/
structure FenceLine where
  indent : Nat
  marker : Char
  run : Nat
  after : List Char

def fenceLine (line : List Char) : FenceLine :=
  let trimmed := line.dropWhile (· = ' ')
  let marker := trimmed.headD ' '
  let run := (trimmed.takeWhile (· = marker)).length
  ⟨line.length - trimmed.length, marker, run, trimmed.drop run⟩

def FenceLine.Opens (line : FenceLine) : Prop :=
  line.indent ≤ 3 ∧ (line.marker = backtick ∨ line.marker = '~') ∧ 3 ≤ line.run

instance (line : FenceLine) : Decidable line.Opens := by
  unfold FenceLine.Opens
  infer_instance

def FenceLine.Closes (fence : Char × Nat) (line : FenceLine) : Prop :=
  line.indent ≤ 3 ∧ line.marker = fence.1 ∧ fence.2 ≤ line.run ∧ line.after.all isWhitespace = true

instance (fence : Char × Nat) (line : FenceLine) : Decidable (line.Closes fence) := by
  unfold FenceLine.Closes
  infer_instance

def outlineLines (fence : Option (Char × Nat)) (inline : Nat) : List (List Char) → List Piece
  | [] => []
  | original :: rest =>
    let line := content original
    match fence with
    | some fence =>
      if (fenceLine line).Closes fence then outlineLines none inline rest
      else outlineLines (some fence) inline rest
    | none =>
      if inline = 0 ∧ (fenceLine line).Opens then
        .fence (fenceLine line).marker (fenceLine line).run ::
          outlineLines (some ((fenceLine line).marker, (fenceLine line).run)) inline rest
      else
        let (left, pieces) := outlineLine rest inline 0 line
        pieces ++ (if left = 0 then [.lineEnd] else []) ++ outlineLines none left rest

def outline (body : String) : List Piece := outlineLines none 0 (lines [] body.toList)

/-- The name that a list of pieces starts with. -/
def nameOf : List Piece → List Char
  | .char char :: rest => if nameChar char then char :: nameOf rest else []
  | _ => []

/-- The mention tokens of an outline: the names that follow an `@` at a boundary. -/
def mentions (isAlphanumeric : Char → Bool) (previous : Option Char) : List Piece → List String
  | [] => []
  | .char char :: rest =>
    if char = '@' ∧ boundary isAlphanumeric previous = true ∧ nameOf rest ≠ [] then
      String.ofList (nameOf rest) :: mentions isAlphanumeric (some char) rest
    else mentions isAlphanumeric (some char) rest
  | .escaped char :: rest => mentions isAlphanumeric char rest
  | .span _ :: rest => mentions isAlphanumeric (some backtick) rest
  | .stray _ :: rest => mentions isAlphanumeric (some backtick) rest
  | .fence _ _ :: rest => mentions isAlphanumeric none rest
  | .lineEnd :: rest => mentions isAlphanumeric none rest

def Piece.stray? : Piece → Option Nat
  | .stray width => some width
  | _ => none

/-- The outline up to its first stray run. -/
def visible (pieces : List Piece) : List Piece :=
  pieces.takeWhile (fun piece => piece.stray?.isNone)

/-- The outline behind its first stray run. -/
def hidden (pieces : List Piece) : List Piece :=
  (pieces.dropWhile (fun piece => piece.stray?.isNone)).tail

end Outline

section Skipping

variable {isAlphanumeric : Char → Bool} {inline : Nat} {previous : Option Char}

/-- The character before a position: the last one read, or what came before the line. -/
def before (previous : Option Char) (read : List Char) : Option Char :=
  read.getLast?.or previous

theorem before_cons (char : Char) (read : List Char) :
    before previous (char :: read) = before (some char) read := by
  rw [before, before, List.getLast?_cons]
  cases read.getLast? <;> rfl

theorem scanLine_skip (skip : Nat) (line : List Char) :
    scanLine isAlphanumeric inline skip previous line =
      scanLine isAlphanumeric inline 0 (before previous (line.take skip)) (line.drop skip) := by
  induction line generalizing skip previous with
  | nil =>
    rw [List.drop_nil]
    rfl
  | cons char rest ih =>
    cases skip with
    | zero => rfl
    | succ skip =>
      rw [List.take_succ_cons, List.drop_succ_cons, before_cons, ← ih skip]
      rfl

theorem outlineLine_skip (later : List (List Char)) (skip : Nat) (line : List Char) :
    outlineLine later inline skip line = outlineLine later inline 0 (line.drop skip) := by
  induction line generalizing skip with
  | nil =>
    rw [List.drop_nil]
    rfl
  | cons char rest ih =>
    cases skip with
    | zero => rfl
    | succ skip =>
      rw [List.drop_succ_cons, ← ih skip]
      rfl

theorem nameChar_plain {char : Char} (name : nameChar char = true) :
    char ≠ '\\' ∧ char ≠ backtick ∧ char ≠ '@' := by
  refine ⟨?_, ?_, ?_⟩ <;> rintro rfl <;> exact absurd name (by decide)

/-- Skipping the characters of a name finds what reading them finds. -/
theorem scanLine_name (previous : Option Char) (skip : Nat) (line : List Char)
    (name : ∀ char ∈ line.take skip, nameChar char = true) :
    scanLine isAlphanumeric 0 skip previous line = scanLine isAlphanumeric 0 0 previous line := by
  induction line generalizing skip previous with
  | nil => rfl
  | cons char rest ih =>
    cases skip with
    | zero => rfl
    | succ skip =>
      rw [List.take_succ_cons] at name
      obtain ⟨notEscape, notTick, notAt⟩ := nameChar_plain (name char List.mem_cons_self)
      have skipped := ih (some char) skip
        (fun other member => name other (List.mem_cons_of_mem _ member))
      have read : scanLine isAlphanumeric 0 0 previous (char :: rest) =
          scanLine isAlphanumeric 0 0 (some char) rest := by
        rw [scanLine]
        simp [notEscape, notTick, notAt]
      rw [read, ← skipped]
      rfl

end Skipping

section Runs

variable {isAlphanumeric : Char → Bool} {inline : Nat} {previous : Option Char}

/-- The width of the run that a backtick before these characters starts. -/
def runWidth (rest : List Char) : Nat := 1 + (rest.takeWhile (· = backtick)).length

theorem drop_runWidth (rest : List Char) :
    rest.drop (runWidth rest - 1) = rest.dropWhile (· = backtick) := by
  have cut := List.takeWhile_append_dropWhile (p := (· = backtick)) (l := rest)
  rw [runWidth, Nat.add_sub_cancel_left]
  exact (congrArg (List.drop _) cut.symm).trans List.drop_left

/-- The character before the end of a run is one of its backticks. -/
theorem before_run (rest : List Char) :
    before (some backtick) (rest.take (runWidth rest - 1)) = some backtick := by
  have ticks : rest.take (runWidth rest - 1) = rest.takeWhile (· = backtick) := by
    rw [runWidth, Nat.add_sub_cancel_left]
    exact (List.prefix_iff_eq_take.mp (List.takeWhile_prefix _)).symm
  rw [ticks, before]
  cases last : (rest.takeWhile (· = backtick)).getLast? with
  | none => rfl
  | some char =>
    have tick := List.all_eq_true.mp List.all_takeWhile char (List.mem_of_getLast? last)
    rw [of_decide_eq_true tick]
    rfl

theorem runs_eq (width : Nat) (line : List Char) (started : width ≠ 0) :
    runs width line = (width + (line.takeWhile (· = backtick)).length) ::
      runs 0 (line.dropWhile (· = backtick)) := by
  induction line generalizing width with
  | nil => simp [runs, started]
  | cons char rest ih =>
    by_cases tick : char = backtick
    · rw [runs, if_pos tick, ih _ (Nat.succ_ne_zero width), List.takeWhile_cons_of_pos (by simpa),
        List.dropWhile_cons_of_pos (by simpa), List.length_cons]
      congr 1
      omega
    · rw [runs, if_neg tick, if_neg started, List.takeWhile_cons_of_neg (by simpa),
        List.dropWhile_cons_of_neg (by simpa), List.length_nil, Nat.add_zero]
      rw [runs, if_neg tick, if_pos rfl]

/-- A line that starts with a backtick starts with a run. -/
theorem runs_backtick (rest : List Char) :
    runs 0 (backtick :: rest) = runWidth rest :: runs 0 (rest.drop (runWidth rest - 1)) := by
  rw [drop_runWidth, runs, if_pos rfl, Nat.zero_add, runs_eq 1 rest (by decide)]
  rfl

theorem runs_of_ne {char : Char} (other : char ≠ backtick) (rest : List Char) :
    runs 0 (char :: rest) = runs 0 rest := by
  rw [runs, if_neg other, if_pos rfl]

theorem scanLine_backtick (rest : List Char) :
    scanLine isAlphanumeric inline 0 previous (backtick :: rest) =
      scanLine isAlphanumeric
        (if inline = runWidth rest then 0 else if inline = 0 then runWidth rest else inline)
        (runWidth rest - 1) (some backtick) rest := rfl

/-- A span that nothing closes hides the rest of its line. -/
theorem scanLine_open (opened : inline ≠ 0) (line : List Char) (unclosed : inline ∉ runs 0 line) :
    scanLine isAlphanumeric inline 0 previous line = (inline, []) := by
  induction left : line.length using Nat.strongRecOn generalizing line previous with
  | ind count ih =>
    subst left
    cases line with
    | nil => rfl
    | cons char rest =>
      by_cases tick : char = backtick
      · subst tick
        rw [runs_backtick, List.mem_cons, not_or] at unclosed
        obtain ⟨different, later⟩ := unclosed
        have shorter : (rest.drop (runWidth rest - 1)).length < (backtick :: rest).length := by
          rw [List.length_drop, List.length_cons]
          omega
        rw [scanLine_backtick, if_neg different, if_neg opened, scanLine_skip]
        exact ih _ shorter _ later rfl
      · rw [runs_of_ne tick] at unclosed
        have read : scanLine isAlphanumeric inline 0 previous (char :: rest) =
            scanLine isAlphanumeric inline 0 (some char) rest := by
          rw [scanLine]
          simp [opened, tick]
        rw [read]
        exact ih _ (Nat.lt_succ_self _) _ unclosed rfl

theorem scanLines_open (opened : inline ≠ 0) (later : List (List Char))
    (unclosed : ∀ line ∈ later, inline ∉ runs 0 (content line)) :
    scanLines isAlphanumeric none inline later = [] := by
  induction later with
  | nil => rfl
  | cons line rest ih =>
    have here : scanLine isAlphanumeric inline 0 none
        (stripListMarker (stripQuotes line line)) = (inline, []) :=
      scanLine_open opened _ (unclosed line List.mem_cons_self)
    rw [scanLines]
    simp only [opened, false_and, if_false, here, List.nil_append]
    exact ih fun other member => unclosed other (List.mem_cons_of_mem _ member)

end Runs

section Lines

variable {isAlphanumeric : Char → Bool} {inline : Nat} {previous : Option Char}
  {later : List (List Char)} {char : Char}

theorem scanLine_inside (opened : inline ≠ 0) (other : char ≠ backtick) (rest : List Char) :
    scanLine isAlphanumeric inline 0 previous (char :: rest) =
      scanLine isAlphanumeric inline 0 (some char) rest := by
  rw [scanLine]
  simp [opened, other]

theorem scanLine_char (notEscape : char ≠ '\\') (notTick : char ≠ backtick) (rest : List Char) :
    scanLine isAlphanumeric 0 0 previous (char :: rest) =
      ((scanLine isAlphanumeric 0 0 (some char) rest).1,
        if char = '@' ∧ boundary isAlphanumeric previous = true ∧ rest.takeWhile nameChar ≠ [] then
          String.ofList (rest.takeWhile nameChar) ::
            (scanLine isAlphanumeric 0 0 (some char) rest).2
        else (scanLine isAlphanumeric 0 0 (some char) rest).2) := by
  have named : ∀ read ∈ rest.take (rest.takeWhile nameChar).length, nameChar read = true := by
    rw [← List.prefix_iff_eq_take.mp (List.takeWhile_prefix nameChar)]
    exact List.all_eq_true.mp List.all_takeWhile
  have skipped : scanLine isAlphanumeric 0 (rest.takeWhile nameChar).length (some char) rest =
      scanLine isAlphanumeric 0 0 (some char) rest := scanLine_name (some char) _ rest named
  by_cases mark : char = '@'
  · subst mark
    by_cases free : boundary isAlphanumeric previous = true
    · rw [scanLine, if_neg (Nat.lt_irrefl 0), if_neg (by decide), if_neg (by decide),
        if_pos ⟨rfl, rfl, free⟩]
      simp only [skipped, free, true_and, List.isEmpty_iff, ne_eq, ite_not]
    · rw [scanLine]
      simp [free]
  · rw [scanLine]
    simp [notEscape, notTick, mark]

theorem outlineLine_inside (opened : inline ≠ 0) (other : char ≠ backtick) (rest : List Char) :
    outlineLine later inline 0 (char :: rest) = outlineLine later inline 0 rest := by
  rw [outlineLine]
  simp [opened, other]

theorem outlineLine_char (notEscape : char ≠ '\\') (notTick : char ≠ backtick)
    (rest : List Char) :
    outlineLine later 0 0 (char :: rest) =
      ((outlineLine later 0 0 rest).1, .char char :: (outlineLine later 0 0 rest).2) := by
  rw [outlineLine]
  simp [notEscape, notTick]

theorem outlineLine_escape (rest : List Char) :
    outlineLine later 0 0 ('\\' :: rest) =
      ((outlineLine later 0 1 rest).1, .escaped rest.head? :: (outlineLine later 0 1 rest).2) :=
  rfl

theorem outlineLine_within (opened : inline ≠ 0) (rest : List Char) :
    outlineLine later inline 0 (backtick :: rest) =
      outlineLine later (if inline = runWidth rest then 0 else inline) (runWidth rest - 1)
        rest := by
  rw [outlineLine]
  simp only [gt_iff_lt, Nat.lt_irrefl, if_false, opened, and_false]
  rfl

theorem outlineLine_closed (rest : List Char)
    (closed : Closed (runWidth rest) (rest.drop (runWidth rest - 1)) later) :
    outlineLine later 0 0 (backtick :: rest) =
      ((outlineLine later (runWidth rest) (runWidth rest - 1) rest).1,
        .span (runWidth rest) ::
          (outlineLine later (runWidth rest) (runWidth rest - 1) rest).2) := by
  rw [outlineLine]
  exact (if_neg (by decide)).trans
    ((if_neg (by decide)).trans ((if_pos rfl).trans ((if_pos rfl).trans (if_pos closed))))

theorem outlineLine_stray (rest : List Char)
    (unclosed : ¬ Closed (runWidth rest) (rest.drop (runWidth rest - 1)) later) :
    outlineLine later 0 0 (backtick :: rest) =
      ((outlineLine later 0 (runWidth rest - 1) rest).1,
        .stray (runWidth rest) :: (outlineLine later 0 (runWidth rest - 1) rest).2) := by
  rw [outlineLine]
  exact (if_neg (by decide)).trans
    ((if_neg (by decide)).trans ((if_pos rfl).trans ((if_pos rfl).trans (if_neg unclosed))))

/-- The name at the start of a line is the name at the start of its outline. -/
theorem nameOf_outlineLine (line : List Char) :
    nameOf (visible (outlineLine later 0 0 line).2) = line.takeWhile nameChar := by
  induction line with
  | nil => rfl
  | cons char rest ih =>
    by_cases name : nameChar char = true
    · obtain ⟨notEscape, notTick, _⟩ := nameChar_plain name
      rw [outlineLine_char notEscape notTick, List.takeWhile_cons_of_pos name, ← ih]
      simp [visible, nameOf, name, Piece.stray?]
    · rw [List.takeWhile_cons_of_neg name]
      by_cases escape : char = '\\'
      · subst escape
        rw [outlineLine_escape]
        simp [visible, nameOf, Piece.stray?]
      · by_cases tick : char = backtick
        · subst tick
          by_cases closed : Closed (runWidth rest) (rest.drop (runWidth rest - 1)) later
          · rw [outlineLine_closed rest closed]
            simp [visible, nameOf, Piece.stray?]
          · rw [outlineLine_stray rest closed]
            simp [visible, nameOf, Piece.stray?]
        · rw [outlineLine_char escape tick]
          simp [visible, nameOf, name, Piece.stray?]

theorem visible_cons {piece : Piece} (plain : piece.stray? = none) (pieces : List Piece) :
    visible (piece :: pieces) = piece :: visible pieces := by
  rw [visible, List.takeWhile_cons_of_pos (by rw [plain]; rfl), visible]

/-- What the scan knows of the character before it: inside a span it is a backtick's turn. -/
def seen (inline : Nat) (previous : Option Char) : Option Char :=
  if inline = 0 then previous else some backtick

theorem seen_open (opened : inline ≠ 0) : seen inline previous = some backtick :=
  if_neg opened

theorem runWidth_ne_zero (rest : List Char) : runWidth rest ≠ 0 := by
  unfold runWidth
  omega

/-- The scan of a line reads its outline up to the first stray run, and stays in that run. -/
structure LineRead (isAlphanumeric : Char → Bool) (later : List (List Char)) (inline : Nat)
    (previous : Option Char) (line : List Char) (left : Nat) (pieces : List Piece) : Prop where
  scan : scanLine isAlphanumeric inline 0 previous line =
    ((pieces.findSome? Piece.stray?).getD left,
      mentions isAlphanumeric (seen inline previous) (visible pieces))
  unclosed : ∀ width, pieces.findSome? Piece.stray? = some width →
    width ≠ 0 ∧ ∀ other ∈ later, width ∉ runs 0 (content other)
  closes : left = 0 ∨ ∃ other ∈ later, left ∈ runs 0 (content other)
  ends : left ≠ 0 → pieces = [] ∧ inline = left ∨ ∃ front, pieces = front ++ [.span left]

variable {line rest : List Char} {left after : Nat} {next : Option Char} {pieces : List Piece}

/-- Reading on inside a span, or behind its end, adds nothing to the outline. -/
theorem LineRead.pass (read : LineRead isAlphanumeric later after next rest left pieces)
    (scan : scanLine isAlphanumeric inline 0 previous line =
      scanLine isAlphanumeric after 0 next rest)
    (kept : seen inline previous = seen after next) (same : after ≠ 0 → after = inline) :
    LineRead isAlphanumeric later inline previous line left pieces where
  scan := by rw [scan, kept, read.scan]
  unclosed := read.unclosed
  closes := read.closes
  ends := by
    intro opened
    rcases read.ends opened with ⟨empty, rfl⟩ | span
    · exact Or.inl ⟨empty, (same opened).symm⟩
    · exact Or.inr span

/-- A piece that is no stray run comes before what is read behind it. -/
theorem LineRead.cons {piece : Piece} (plain : piece.stray? = none)
    (read : LineRead isAlphanumeric later after next rest left pieces)
    (scan : scanLine isAlphanumeric inline 0 previous line =
      ((scanLine isAlphanumeric after 0 next rest).1,
        mentions isAlphanumeric (seen inline previous) (piece :: visible pieces)))
    (span : after ≠ 0 → piece = .span after) :
    LineRead isAlphanumeric later inline previous line left (piece :: pieces) where
  scan := by
    rw [scan, read.scan, visible_cons plain, List.findSome?_cons_of_isNone (by rw [plain]; rfl)]
  unclosed := by
    intro width first
    rw [List.findSome?_cons_of_isNone (by rw [plain]; rfl)] at first
    exact read.unclosed width first
  closes := read.closes
  ends := by
    intro opened
    refine Or.inr ?_
    rcases read.ends opened with ⟨rfl, rfl⟩ | ⟨front, rfl⟩
    · exact ⟨[], by rw [span opened]; rfl⟩
    · exact ⟨piece :: front, rfl⟩

/-- A span that is still open at a backtick run is closed by this run or by a later one. -/
theorem closed_backtick (closed : Closed inline (backtick :: rest) later)
    (different : inline ≠ runWidth rest) :
    Closed inline (rest.drop (runWidth rest - 1)) later := by
  rcases closed with here | beyond
  · rw [runs_backtick, List.mem_cons] at here
    exact Or.inl (here.resolve_left different)
  · exact Or.inr beyond

theorem lineRead (inline : Nat) (previous : Option Char) (line : List Char)
    (closing : inline = 0 ∨ Closed inline line later) :
    LineRead isAlphanumeric later inline previous line (outlineLine later inline 0 line).1
      (outlineLine later inline 0 line).2 := by
  induction size : line.length using Nat.strongRecOn generalizing line inline previous with
  | ind count ih =>
    subst size
    cases line with
    | nil =>
      refine ⟨rfl, nofun, ?_, fun _ => Or.inl ⟨rfl, rfl⟩⟩
      exact closing.imp_right fun closed => closed.resolve_left List.not_mem_nil
    | cons char rest =>
      have shorter : ∀ skip, (rest.drop skip).length < (char :: rest).length := by
        intro skip
        rw [List.length_drop, List.length_cons]
        omega
      by_cases tick : char = backtick
      · subst tick
        by_cases outside : inline = 0
        · subst outside
          have entered : scanLine isAlphanumeric 0 0 previous (backtick :: rest) =
              scanLine isAlphanumeric (runWidth rest) 0 (some backtick)
                (rest.drop (runWidth rest - 1)) := by
            rw [scanLine_backtick, if_neg (runWidth_ne_zero rest).symm, if_pos rfl, scanLine_skip,
              before_run]
          by_cases closed : Closed (runWidth rest) (rest.drop (runWidth rest - 1)) later
          · rw [outlineLine_closed rest closed, outlineLine_skip]
            have read := ih _ (shorter _) _ (some backtick) _ (Or.inr closed) rfl
            refine LineRead.cons rfl read ?_ fun _ => rfl
            rw [entered, read.scan, seen_open (runWidth_ne_zero rest)]
            rfl
          · rw [outlineLine_stray rest closed, outlineLine_skip]
            have read := ih _ (shorter (runWidth rest - 1)) 0 previous _ (Or.inl rfl) rfl
            refine ⟨?_, ?_, read.closes, ?_⟩
            · rw [entered, scanLine_open (runWidth_ne_zero rest) _ fun run => closed (Or.inl run)]
              rfl
            · intro width first
              obtain rfl := Option.some.inj first
              exact ⟨runWidth_ne_zero rest, fun other member run =>
                closed (Or.inr ⟨other, member, run⟩)⟩
            · intro opened
              rcases read.ends opened with ⟨_, same⟩ | ⟨front, pieces⟩
              · exact absurd same.symm opened
              · exact Or.inr ⟨.stray (runWidth rest) :: front, by rw [pieces]; rfl⟩
        · have closed := closing.resolve_left outside
          rw [outlineLine_within outside, outlineLine_skip]
          by_cases width : inline = runWidth rest
          · rw [if_pos width]
            have read := ih _ (shorter (runWidth rest - 1)) 0 (some backtick) _ (Or.inl rfl) rfl
            refine read.pass ?_ (seen_open outside) nofun
            rw [scanLine_backtick, if_pos width, scanLine_skip, before_run]
          · rw [if_neg width]
            have read := ih _ (shorter (runWidth rest - 1)) inline (some backtick) _
              (Or.inr (closed_backtick closed width)) rfl
            refine read.pass ?_ ((seen_open outside).trans (seen_open outside).symm) fun _ => rfl
            rw [scanLine_backtick, if_neg width, if_neg outside, scanLine_skip, before_run]
      · by_cases outside : inline = 0
        · subst outside
          by_cases escape : char = '\\'
          · subst escape
            rw [outlineLine_escape, outlineLine_skip]
            have read := ih _ (shorter 1) 0 (before (some '\\') (rest.take 1)) _ (Or.inl rfl) rfl
            refine LineRead.cons rfl read ?_ nofun
            have entered : scanLine isAlphanumeric 0 0 previous ('\\' :: rest) =
                scanLine isAlphanumeric 0 0 (before (some '\\') (rest.take 1)) (rest.drop 1) :=
              scanLine_skip 1 rest
            rw [entered, read.scan]
            cases rest with
            | nil => rfl
            | cons char tail => rfl
          · rw [outlineLine_char escape tick]
            have read := ih _ (shorter 0) 0 (some char) rest (Or.inl rfl) rfl
            refine LineRead.cons rfl read ?_ nofun
            rw [scanLine_char escape tick, read.scan, mentions, nameOf_outlineLine]
            rfl
        · rw [outlineLine_inside outside tick]
          have inside : Closed inline rest later := by
            rcases closing.resolve_left outside with here | beyond
            · exact Or.inl (runs_of_ne tick rest ▸ here)
            · exact Or.inr beyond
          have read := ih _ (shorter 0) inline (some char) rest (Or.inr inside) rfl
          exact read.pass (scanLine_inside outside tick rest)
            ((seen_open outside).trans (seen_open outside).symm) fun _ => rfl

end Lines

section Bodies

variable {isAlphanumeric : Char → Bool} {pieces others : List Piece}

/-- Mentions do not reach across a piece that is no character. -/
theorem mentions_append {piece : Piece} (rest : List Piece) (apart : nameOf (piece :: rest) = [])
    (resets : ∀ first second, mentions isAlphanumeric first (piece :: rest) =
      mentions isAlphanumeric second (piece :: rest)) (previous : Option Char)
    (pieces : List Piece) :
    mentions isAlphanumeric previous (pieces ++ piece :: rest) =
      mentions isAlphanumeric previous pieces ++ mentions isAlphanumeric none (piece :: rest) := by
  have name : ∀ pieces, nameOf (pieces ++ piece :: rest) = nameOf pieces := by
    intro pieces
    induction pieces with
    | nil => exact apart
    | cons head tail ih => cases head <;> simp [nameOf, ih]
  induction pieces generalizing previous with
  | nil => exact resets previous none
  | cons head tail ih =>
    cases head with
    | char char =>
      rw [List.cons_append, mentions, mentions, name, ih]
      split <;> rfl
    | escaped char => exact ih char
    | span width => exact ih (some backtick)
    | stray width => exact ih (some backtick)
    | fence marker width => exact ih none
    | lineEnd => exact ih none

theorem visible_append (shown : pieces.findSome? Piece.stray? = none) :
    visible (pieces ++ others) = pieces ++ visible others := by
  rw [List.findSome?_eq_none_iff] at shown
  rw [visible, List.takeWhile_append_of_pos fun piece member => by rw [shown piece member]; rfl,
    visible]

theorem visible_append_of_stray {width : Nat}
    (stray : pieces.findSome? Piece.stray? = some width) :
    visible (pieces ++ others) = visible pieces := by
  induction pieces with
  | nil => cases stray
  | cons head tail ih =>
    cases plain : head.stray? with
    | none =>
      rw [List.findSome?_cons_of_isNone (by rw [plain]; rfl)] at stray
      rw [List.cons_append, visible_cons plain, visible_cons plain, ih stray]
    | some width => simp [visible, plain]

theorem scanLines_fenced (fence : Char × Nat) (inline : Nat) (original : List Char)
    (rest : List (List Char)) :
    scanLines isAlphanumeric (some fence) inline (original :: rest) =
      if (fenceLine (content original)).Closes fence then scanLines isAlphanumeric none inline rest
      else scanLines isAlphanumeric (some fence) inline rest := rfl

theorem scanLines_unfenced (inline : Nat) (original : List Char) (rest : List (List Char)) :
    scanLines isAlphanumeric none inline (original :: rest) =
      if inline = 0 ∧ (fenceLine (content original)).Opens then
        scanLines isAlphanumeric
          (some ((fenceLine (content original)).marker, (fenceLine (content original)).run))
          inline rest
      else
        (scanLine isAlphanumeric inline 0 none (content original)).2 ++
          scanLines isAlphanumeric none
            (scanLine isAlphanumeric inline 0 none (content original)).1 rest := rfl

theorem outlineLines_fenced (fence : Char × Nat) (inline : Nat) (original : List Char)
    (rest : List (List Char)) :
    outlineLines (some fence) inline (original :: rest) =
      if (fenceLine (content original)).Closes fence then outlineLines none inline rest
      else outlineLines (some fence) inline rest := rfl

theorem outlineLines_unfenced (inline : Nat) (original : List Char) (rest : List (List Char)) :
    outlineLines none inline (original :: rest) =
      if inline = 0 ∧ (fenceLine (content original)).Opens then
        .fence (fenceLine (content original)).marker (fenceLine (content original)).run ::
          outlineLines
            (some ((fenceLine (content original)).marker, (fenceLine (content original)).run))
            inline rest
      else
        (outlineLine rest inline 0 (content original)).2 ++
          (if (outlineLine rest inline 0 (content original)).1 = 0 then [.lineEnd] else []) ++
          outlineLines none (outlineLine rest inline 0 (content original)).1 rest := rfl

/-- Behind a line that leaves no span open, or whose last piece opens one, the scan starts anew. -/
theorem mentions_line {inline left : Nat} {later : List Piece}
    (ends : left ≠ 0 → pieces = [] ∧ inline = left ∨ ∃ front, pieces = front ++ [.span left]) :
    mentions isAlphanumeric (seen inline none)
        (pieces ++ (if left = 0 then [.lineEnd] else []) ++ later) =
      mentions isAlphanumeric (seen inline none) pieces ++
        mentions isAlphanumeric (seen left none) later := by
  by_cases outside : left = 0
  · rw [if_pos outside, List.append_assoc, List.singleton_append,
      mentions_append later rfl fun _ _ => rfl]
    simp [mentions, seen, outside]
  · rw [if_neg outside, List.append_nil]
    rcases ends outside with ⟨rfl, rfl⟩ | ⟨front, rfl⟩
    · rfl
    · rw [List.append_assoc, List.singleton_append, mentions_append later rfl fun _ _ => rfl,
        mentions_append [] rfl fun _ _ => rfl, seen_open outside]
      simp [mentions]

/-- The scan of a body reads its outline up to the first stray run. -/
theorem scanLines_outline (fence : Option (Char × Nat)) (inline : Nat) (lines : List (List Char))
    (closing : inline = 0 ∨ ∃ line ∈ lines, inline ∈ runs 0 (content line))
    (apart : fence.isSome = true → inline = 0) :
    scanLines isAlphanumeric fence inline lines =
      mentions isAlphanumeric (seen inline none) (visible (outlineLines fence inline lines)) := by
  induction lines generalizing fence inline with
  | nil => rfl
  | cons original rest ih =>
    cases fence with
    | some fence =>
      obtain rfl := apart rfl
      rw [scanLines_fenced, outlineLines_fenced]
      by_cases closes : (fenceLine (content original)).Closes fence
      · rw [if_pos closes, if_pos closes]
        exact ih none 0 (Or.inl rfl) fun _ => rfl
      · rw [if_neg closes, if_neg closes]
        exact ih (some fence) 0 (Or.inl rfl) fun _ => rfl
    | none =>
      rw [scanLines_unfenced, outlineLines_unfenced]
      by_cases opens : inline = 0 ∧ (fenceLine (content original)).Opens
      · rw [if_pos opens, if_pos opens, visible_cons rfl, opens.1]
        exact ih _ 0 (Or.inl rfl) fun _ => rfl
      · rw [if_neg opens, if_neg opens]
        have closed : inline = 0 ∨ Closed inline (content original) rest := by
          rcases closing with outside | ⟨line, member, run⟩
          · exact Or.inl outside
          · rcases List.mem_cons.mp member with rfl | later
            · exact Or.inr (Or.inl run)
            · exact Or.inr (Or.inr ⟨line, later, run⟩)
        obtain ⟨scan, unclosed, closes, ends⟩ :=
          lineRead inline none (content original) closed
        rw [scan]
        cases stray : (outlineLine rest inline 0 (content original)).2.findSome? Piece.stray? with
        | some width =>
          -- The stray run stays open, and hides everything behind it.
          obtain ⟨opened, hides⟩ := unclosed width stray
          rw [Option.getD_some, scanLines_open opened rest hides, List.append_nil,
            List.append_assoc, visible_append_of_stray stray]
        | none =>
          have shown : visible (outlineLine rest inline 0 (content original)).2 =
              (outlineLine rest inline 0 (content original)).2 := by
            rw [← List.append_nil (outlineLine rest inline 0 (content original)).2]
            exact visible_append stray
          have kept : ∀ left later, visible ((if left = 0 then [.lineEnd] else []) ++ later) =
              (if left = 0 then [.lineEnd] else []) ++ visible later := by
            intro left later
            by_cases outside : left = 0
            · rw [if_pos outside, List.singleton_append, visible_cons rfl, List.singleton_append]
            · rw [if_neg outside, List.nil_append, List.nil_append]
          rw [Option.getD_none, ih none _ closes nofun, List.append_assoc, visible_append stray,
            shown, kept, ← List.append_assoc, mentions_line ends]

theorem mentionedNames_eq (isAlphanumeric : Char → Bool) (body : String) :
    mentionedNames isAlphanumeric body = mentions isAlphanumeric none (visible (outline body)) :=
  scanLines_outline none 0 _ (Or.inl rfl) nofun

/-- The text of a code span and the lines of a fenced block leave no trace in an outline. -/
example : outline "a `@x` b\n~~~\n@y\n~~~\n@z" = outline "a `c d` b\n~~~\n\n` e\n~~~\n@z" := by
  decide +kernel

/-- The mentions of a body are those before its first stray run and those behind it. -/
theorem mentions_eq (isAlphanumeric : Char → Bool) (pieces : List Piece) :
    mentions isAlphanumeric none pieces = mentions isAlphanumeric none (visible pieces) ++
      mentions isAlphanumeric (some backtick) (hidden pieces) := by
  have cut : visible pieces ++ pieces.dropWhile (fun piece => piece.stray?.isNone) = pieces :=
    List.takeWhile_append_dropWhile
  cases rest : pieces.dropWhile (fun piece => piece.stray?.isNone) with
  | nil =>
    rw [rest, List.append_nil] at cut
    rw [hidden, rest, cut]
    exact (List.append_nil _).symm
  | cons piece tail =>
    have stray : piece.stray?.isNone = false := by
      have first := List.head?_dropWhile_not (fun piece : Piece => piece.stray?.isNone) pieces
      rw [rest] at first
      simpa using first
    rw [rest] at cut
    rw [hidden, rest, List.tail_cons]
    cases piece with
    | stray width =>
      conv_lhs => rw [← cut]
      exact mentions_append tail rfl (fun _ _ => rfl) none _
    | char | escaped | span | fence | lineEnd => cases stray

end Bodies

end OHHive.Bots.Mentions
