import OHHive.Bots.HtmlEntities

/-! The text of a page by its tokens: characters, tags with their quoted attribute values,
comments, and the elements that are dropped with what they hold. -/

namespace OHHive.Bots.Html

open Foundation

section Tokens

/-- Where in a tag the reader of a page is. -/
inductive TagState where
  | opened
  | declaration
  | tagName
  | beforeName
  | name
  | afterName
  | beforeValue
  | quoted (quote : Char)
  | bare
deriving DecidableEq, Repr

def htmlBlank (char : Char) : Bool := [' ', '\t', '\n', '\r', Char.ofNat 12].contains char

/-- The next state, or none when the tag ends. Only a quoted attribute value holds a `>`. -/
def TagState.next (char : Char) : TagState → Option TagState
  | .quoted quote => some (if char = quote then .beforeName else .quoted quote)
  | state =>
    if char = '>' then none
    else match state with
      | .opened => if char = '!' ∨ char = '?' then some .declaration else some .tagName
      | .declaration => some .declaration
      | .tagName => if htmlBlank char || char = '/' then some .beforeName else some .tagName
      | .beforeName => if htmlBlank char || char = '/' then some .beforeName else some .name
      | .name =>
        if htmlBlank char then some .afterName
        else if char = '/' then some .beforeName
        else if char = '=' then some .beforeValue
        else some .name
      | .afterName =>
        if htmlBlank char then some .afterName
        else if char = '/' then some .beforeName
        else if char = '=' then some .beforeValue
        else some .name
      | .beforeValue =>
        if htmlBlank char then some .beforeValue
        else if char = '"' ∨ char = '\'' then some (.quoted char)
        else some .bare
      | .bare => if htmlBlank char then some .beforeName else some .bare
      | .quoted quote => some (.quoted quote)

/-- The rest of a tag, and what follows it. -/
def cutTag (state : TagState) : Text → Text × Text
  | [] => ([], [])
  | char :: rest =>
    match state.next char with
    | none => ([char], rest)
    | some next => (char :: (cutTag next rest).1, (cutTag next rest).2)

inductive Token where
  | text (char : Char)
  | tag (html : Text) (line : Text)
  | comment (html : Text)
  | dropped (element closing : Text)
deriving DecidableEq, Repr

/-- The token that starts with the `<` of `html`, and what follows it. -/
def markup (html : Text) : Token × Text :=
  match droppedElement? html with
  | some name =>
    let inside := (afterFirst ("</" ++ name) html).getD []
    (.dropped (html.take (html.length - inside.length)) (cutTag .tagName inside).1,
      (cutTag .tagName inside).2)
  | none =>
    if opens "<!--" html then
      let left := (afterFirst "-->" html).getD []
      (.comment (html.take (html.length - left.length)), left)
    else
      (.tag ('<' :: (cutTag .opened html.tail).1) (lineBreak html), (cutTag .opened html.tail).2)

/-- The tokens of a page, `skip` counting the characters of the last one still to pass. -/
def tokensFrom (skip : Nat) : Text → List Token
  | [] => []
  | char :: rest =>
    if skip > 0 then tokensFrom (skip - 1) rest
    else if char = '<' then
      (markup (char :: rest)).1 :: tokensFrom (rest.length - (markup (char :: rest)).2.length) rest
    else .text char :: tokensFrom 0 rest

def tokens (html : Text) : List Token := tokensFrom 0 html

def Token.chars : Token → Text
  | .text char => [char]
  | .tag html _ => html
  | .comment html => html
  | .dropped element closing => element ++ closing

/-- The text of a token: nothing from inside a tag, a comment or a dropped element. -/
def Token.plainText : Token → Text
  | .text char => [char]
  | _ => []

/-- What a token leaves in the text of a page: its text, or the line break of a block tag. -/
def Token.shown : Token → Text
  | .text char => [char]
  | .tag _ line => line
  | _ => []

/-- The token ends at its first `>`: none of its quoted attribute values holds one. -/
def Token.Plain : Token → Prop
  | .tag html _ => '>' ∉ html.dropLast
  | .dropped _ closing => '>' ∉ closing.dropLast
  | _ => True

/-- A character, or a tag or a comment with its only `>` at the end. -/
def Token.Simple : Token → Prop
  | .text char => char ≠ '<'
  | .tag html _ => ∃ body, html = '<' :: (body ++ ['>']) ∧ '>' ∉ body
  | .comment html => ∃ body, html = '<' :: (body ++ ['>']) ∧ '>' ∉ body
  | .dropped _ _ => False

end Tokens

section Cutting

theorem opens_close_iff {char : Char} {rest : Text} :
    opens ">" (char :: rest) = true ↔ char = '>' := by
  rw [opens, List.isPrefixOf_iff_prefix, List.map_cons]
  change ['>'] <+: _ ↔ _
  rw [List.cons_prefix_cons, and_iff_left List.nil_prefix]
  constructor
  · exact fun lower => eq_of_toLower (by decide) lower.symm
  · rintro rfl
    decide

theorem afterFirst_close (char : Char) (rest : Text) :
    afterFirst ">" (char :: rest) = if char = '>' then some rest else afterFirst ">" rest := by
  rw [afterFirst]
  simp only [opens_close_iff]
  rfl

theorem cutTag_suffix (state : TagState) (text : Text) : (cutTag state text).2 <:+ text := by
  induction text generalizing state with
  | nil => exact List.suffix_rfl
  | cons char rest ih =>
    rw [cutTag]
    cases state.next char with
    | none => exact List.suffix_cons char rest
    | some next => exact (ih next).trans (List.suffix_cons char rest)

theorem close_of_next {state : TagState} {char : Char} (ends : state.next char = none) :
    char = '>' := by
  by_contra other
  cases state <;> simp [TagState.next, other] at ends <;> split_ifs at ends

theorem cutTag_eq_nil {state : TagState} {text : Text} (empty : (cutTag state text).1 = []) :
    text = [] := by
  cases text with
  | nil => rfl
  | cons char rest =>
    rw [cutTag] at empty
    cases next : state.next char with
    | none =>
      rw [next] at empty
      cases empty
    | some state =>
      rw [next] at empty
      cases empty

/-- A tag with no early `>` ends where the first `>` stands. -/
theorem afterFirst_of_cutTag (state : TagState) (text : Text)
    (plain : '>' ∉ (cutTag state text).1.dropLast) :
    (afterFirst ">" text).getD [] = (cutTag state text).2 := by
  induction text generalizing state with
  | nil => rfl
  | cons char rest ih =>
    rw [afterFirst_close]
    rw [cutTag] at plain ⊢
    cases next : state.next char with
    | none =>
      rw [if_pos (close_of_next next)]
      rfl
    | some after =>
      simp only [next] at plain ⊢
      by_cases last : (cutTag after rest).1 = []
      · obtain rfl := cutTag_eq_nil last
        by_cases close : char = '>'
        · rw [if_pos close]
          rfl
        · rw [if_neg close]
          rfl
      · rw [List.dropLast_cons_of_ne_nil last, List.mem_cons, not_or] at plain
        rw [if_neg (Ne.symm plain.1)]
        exact ih after plain.2

theorem afterFirst_suffix {marker : String} {text left : Text}
    (found : afterFirst marker text = some left) : left <:+ text := by
  induction text with
  | nil => cases found
  | cons char rest ih =>
    rw [afterFirst] at found
    by_cases here : opens marker (char :: rest) = true
    · rw [if_pos here] at found
      obtain rfl := Option.some.inj found
      exact List.drop_suffix _ _
    · rw [if_neg here] at found
      exact (ih found).trans (List.suffix_cons char rest)

/-- A marker takes up at least one character. -/
theorem afterFirst_tail {marker : String} (filled : marker.toList ≠ []) (char : Char)
    (rest : Text) : (afterFirst marker (char :: rest)).getD [] <:+ rest := by
  rw [afterFirst]
  by_cases here : opens marker (char :: rest) = true
  · rw [if_pos here]
    obtain ⟨first, tail, marks⟩ := List.exists_cons_of_ne_nil filled
    rw [marks]
    exact List.drop_suffix tail.length rest
  · rw [if_neg here]
    cases found : afterFirst marker rest with
    | none => exact List.nil_suffix
    | some left => exact afterFirst_suffix found

theorem markup_suffix (rest : Text) : (markup ('<' :: rest)).2 <:+ rest := by
  unfold markup
  cases droppedElement? ('<' :: rest) with
  | some name =>
    have filled : ("</" ++ name).toList ≠ [] := by
      rw [String.toList_append]
      exact List.cons_ne_nil _ _
    exact (cutTag_suffix _ _).trans (afterFirst_tail filled '<' rest)
  | none =>
    by_cases comment : opens "<!--" ('<' :: rest) = true
    · simp only [if_pos comment]
      exact afterFirst_tail (by decide) '<' rest
    · simp only [if_neg comment]
      exact cutTag_suffix .opened rest

/-- Where all tags end at their first `>`, the scan goes on behind the token. -/
theorem afterMarkup_eq (rest : Text) (plain : (markup ('<' :: rest)).1.Plain) :
    afterMarkup ('<' :: rest) = (markup ('<' :: rest)).2 := by
  unfold afterMarkup
  unfold markup at plain ⊢
  cases element : droppedElement? ('<' :: rest) with
  | some name =>
    simp only [element] at plain ⊢
    exact afterFirst_of_cutTag .tagName _ plain
  | none =>
    simp only [element] at plain ⊢
    by_cases comment : opens "<!--" ('<' :: rest) = true
    · rw [if_pos comment, if_pos comment]
    · rw [if_neg comment] at plain ⊢
      rw [if_neg comment, afterFirst_close, if_neg (by decide)]
      refine afterFirst_of_cutTag .opened rest fun early => plain ?_
      have filled : (cutTag .opened rest).1 ≠ [] := by
        intro empty
        rw [empty] at early
        exact List.not_mem_nil early
      change '>' ∈ ('<' :: (cutTag .opened rest).1).dropLast
      rw [List.dropLast_cons_of_ne_nil filled]
      exact List.mem_cons_of_mem _ early

end Cutting

section Body

theorem bodyText_skip (skip : Nat) (html : Text) :
    bodyText skip html = bodyText 0 (html.drop skip) := by
  induction html generalizing skip with
  | nil =>
    rw [List.drop_nil]
    rfl
  | cons char rest ih =>
    cases skip with
    | zero => rfl
    | succ skip =>
      rw [List.drop_succ_cons, ← ih skip]
      rfl

theorem tokensFrom_skip (skip : Nat) (html : Text) :
    tokensFrom skip html = tokens (html.drop skip) := by
  induction html generalizing skip with
  | nil =>
    rw [List.drop_nil]
    rfl
  | cons char rest ih =>
    cases skip with
    | zero => rfl
    | succ skip =>
      rw [List.drop_succ_cons, ← ih skip]
      rfl

theorem drop_of_suffix {left rest : Text} (suffix : left <:+ rest) :
    rest.drop (rest.length - left.length) = left :=
  (List.suffix_iff_eq_drop.mp suffix).symm

theorem tokens_markup (rest : Text) :
    tokens ('<' :: rest) = (markup ('<' :: rest)).1 :: tokens (markup ('<' :: rest)).2 := by
  rw [tokens, tokensFrom, if_neg (Nat.lt_irrefl 0), if_pos rfl, tokensFrom_skip,
    drop_of_suffix (markup_suffix rest)]

theorem tokens_text {char : Char} (plain : char ≠ '<') (rest : Text) :
    tokens (char :: rest) = .text char :: tokens rest := by
  rw [tokens, tokensFrom, if_neg (Nat.lt_irrefl 0), if_neg plain]
  rfl

/-- What a token shows is the line break of its markup. -/
theorem shown_markup (html : Text) : (markup html).1.shown = lineBreak html := by
  unfold markup lineBreak
  cases droppedElement? html with
  | some name => rfl
  | none =>
    by_cases comment : opens "<!--" html = true
    · simp only [if_pos comment]
      simp [Token.shown, comment]
    · simp only [if_neg comment]
      simp [Token.shown, comment]

/-- Where all tags end at their first `>`, the body of a page is what its tokens show. -/
theorem bodyText_eq (html : Text) (plain : ∀ token ∈ tokens html, token.Plain) :
    bodyText 0 html = (tokens html).flatMap Token.shown := by
  induction size : html.length using Nat.strongRecOn generalizing html with
  | ind size ih =>
    subst size
    cases html with
    | nil => rfl
    | cons char rest =>
      by_cases mark : char = '<'
      · subst mark
        rw [tokens_markup] at plain ⊢
        obtain ⟨here, later⟩ := List.forall_mem_cons.mp plain
        have shorter : (markup ('<' :: rest)).2.length < ('<' :: rest).length :=
          Nat.lt_succ_of_le (markup_suffix rest).length_le
        rw [bodyText, if_neg (Nat.lt_irrefl 0), if_pos rfl, afterMarkup_eq rest here,
          bodyText_skip, drop_of_suffix (markup_suffix rest), ih _ shorter _ later rfl,
          List.flatMap_cons, shown_markup]
      · rw [tokens_text mark] at plain ⊢
        rw [bodyText, if_neg (Nat.lt_irrefl 0), if_neg mark,
          ih _ (Nat.lt_succ_self _) rest (List.forall_mem_cons.mp plain).2 rfl, List.flatMap_cons]
        rfl

end Body

section Promise

theorem stripTags_inside {body : Text} (plain : '>' ∉ body) (rest : Text) :
    stripTags true (body ++ '>' :: rest) = stripTags false rest := by
  induction body with
  | nil => rfl
  | cons char body ih =>
    rw [List.mem_cons, not_or] at plain
    rw [List.cons_append, stripTags, ih plain.2]
    by_cases mark : char = '<'
    · rw [if_pos mark]
    · rw [if_neg mark, if_neg (Ne.symm plain.1), if_pos rfl]

/-- Tags and comments are cut out of a title, and a `>` in its text as well. -/
theorem stripTags_tokens (inner : List Token) (simple : ∀ token ∈ inner, token.Simple) :
    stripTags false (inner.flatMap Token.chars) =
      (inner.flatMap Token.plainText).filter (fun char => char ≠ '>') := by
  induction inner with
  | nil => rfl
  | cons token rest ih =>
    obtain ⟨here, later⟩ := List.forall_mem_cons.mp simple
    have cut : ∀ body : Text, '>' ∉ body →
        stripTags false ('<' :: (body ++ ['>']) ++ rest.flatMap Token.chars) =
          (rest.flatMap Token.plainText).filter (fun char => char ≠ '>') := by
      intro body plain
      rw [List.cons_append, List.append_assoc, stripTags, if_pos rfl]
      exact (stripTags_inside plain _).trans (ih later)
    rw [List.flatMap_cons, List.flatMap_cons, List.filter_append]
    cases token with
    | text char =>
      rw [Token.chars, List.singleton_append, stripTags, if_neg here, ih later]
      by_cases close : char = '>'
      · simp [close, Token.plainText]
      · simp [close, Token.plainText]
    | tag html line =>
      obtain ⟨body, rfl, plain⟩ := here
      exact cut body plain
    | comment html =>
      obtain ⟨body, rfl, plain⟩ := here
      exact cut body plain
    | dropped element closing => exact absurd here id

/-- The text and the title of a page hold text of its tokens only: of all of them, and of a
stretch of them. -/
structure ShowsTextOnly (html : Text) : Prop where
  body : (htmlToText html).2 = collapse (decodeEntities ((tokens html).flatMap Token.shown))
  title : ∀ title, (htmlToText html).1 = some title → ∃ stretch, stretch <:+: tokens html ∧
    title = collapse (decodeEntities
      ((stretch.flatMap Token.plainText).filter (fun char => char ≠ '>')))

/-- No quoted attribute value holds a `>`, and what stands between the first `<title…>` and the
next `</title>` is made of whole characters, tags and comments of the page. -/
structure Tidy (html : Text) : Prop where
  tags : ∀ token ∈ tokens html, token.Plain
  title : ∀ text, titleText html = some text → ∃ inner, inner <:+: tokens html ∧
    text = inner.flatMap Token.chars ∧ ∀ token ∈ inner, token.Simple

theorem Tidy.showsTextOnly {html : Text} (tidy : Tidy html) : ShowsTextOnly html where
  body := by
    rw [htmlToText, bodyText_eq html tidy.tags]
  title := by
    intro title shown
    obtain ⟨found, _⟩ := Option.filter_eq_some_iff.mp shown
    obtain ⟨text, cut, rfl⟩ := Option.map_eq_some_iff.mp found
    obtain ⟨inner, part, rfl, simple⟩ := tidy.title text cut
    exact ⟨inner, part, by rw [stripTags_tokens inner simple]⟩

/-- A text comes back from its escaped form exactly when it holds no entity that is decoded after
the ampersand, and a tidy page shows nothing from inside a tag, a script or a style. -/
theorem htmlToText_keeps_text (text html : Text) :
    (ComesBack text ↔ ∀ entity ∈ lateEntities, ¬ entity.1.toList <:+: text) ∧
      (Tidy html → ShowsTextOnly html) :=
  ⟨comesBack_iff text, fun tidy => tidy.showsTextOnly⟩

instance (token : Token) : Decidable token.Plain := by
  unfold Token.Plain
  split <;> infer_instance

theorem titledPage_text_only : ShowsTextOnly "<title>A <b>B</b></title><p class='c'>D".toList := by
  refine (htmlToText_keeps_text [] _).2 ⟨by decide +kernel, fun text found => ?_⟩
  have cut : titleText "<title>A <b>B</b></title><p class='c'>D".toList =
      some "A <b>B</b>".toList := by decide +kernel
  obtain rfl := Option.some.inj (cut.symm.trans found)
  refine ⟨[.text 'A', .text ' ', .tag "<b>".toList [], .text 'B', .tag "</b>".toList []],
    ⟨[.tag "<title>".toList []], [.tag "</title>".toList [],
      .tag "<p class='c'>".toList ['\n'], .text 'D'], by decide +kernel⟩, by decide +kernel, ?_⟩
  simp only [List.forall_mem_cons, List.not_mem_nil, false_imp_iff, implies_true, and_true]
  have letters : 'A' ≠ '<' ∧ ' ' ≠ '<' ∧ 'B' ≠ '<' := by decide
  exact ⟨letters.1, letters.2.1, ⟨['b'], rfl, by decide⟩, letters.2.2,
    ⟨['/', 'b'], rfl, by decide⟩⟩

/-- An escaped entity is decoded twice, and a title is found inside a script. -/
theorem entity_and_script_leak :
    (¬ ∀ text, ComesBack text) ∧ ¬ ∀ html, ShowsTextOnly html := by
  constructor
  · intro back
    have page : htmlToText (escape "&lt;".toList) = (none, "<".toList) := by decide +kernel
    have kept : collapse "&lt;".toList = "&lt;".toList := by decide +kernel
    have same := (back "&lt;".toList).symm.trans page
    rw [kept, Prod.mk.injEq] at same
    exact absurd same.2 (by decide)
  · intro only
    have page : (htmlToText "<script>'<title>x</title>'</script>".toList).1 = some ['x'] := by
      decide +kernel
    have read : tokens "<script>'<title>x</title>'</script>".toList =
        [.dropped "<script>'<title>x</title>'</script".toList ">".toList] := by decide +kernel
    obtain ⟨stretch, part, shown⟩ := (only _).title _ page
    have silent : stretch.flatMap Token.plainText = [] := by
      refine List.flatMap_eq_nil_iff.mpr fun token member => ?_
      have listed := part.subset member
      rw [read, List.mem_singleton] at listed
      rw [listed]
      rfl
    rw [silent] at shown
    exact absurd shown (by decide)

end Promise

end OHHive.Bots.Html
