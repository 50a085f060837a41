import OHHive.Bots.Html

/-! A plain text whose special characters are written as entities, and what a page made of it
comes back as: the entities are replaced one after the other, so some are decoded twice. -/

namespace OHHive.Bots.Html

open Foundation

section Escaping

def specials : List Char := ['&', '<', '>', '"', '\'']

/-- The entity of a special character behind its ampersand. -/
def entityBody (char : Char) : Text :=
  if char = '&' then "amp;".toList
  else if char = '<' then "lt;".toList
  else if char = '>' then "gt;".toList
  else if char = '"' then "quot;".toList
  else "#39;".toList

def escapeChar (coded : List Char) (char : Char) : Text :=
  if char ∈ coded then '&' :: entityBody char else [char]

/-- The text with each special character written as its entity. -/
def escape (text : Text) : Text := text.flatMap (escapeChar specials)

/-- The entities that are decoded after the ampersand. -/
def lateEntities : List (String × String) :=
  [("&lt;", "<"), ("&gt;", ">"), ("&quot;", "\""), ("&#39;", "'"), ("&apos;", "'")]

def replaceEach (entities : List (String × String)) (text : Text) : Text :=
  entities.foldl (fun text (entity, char) => replaceAll entity.toList char.toList text) text

theorem decodeEntities_eq (text : Text) :
    decodeEntities text = replaceEach lateEntities
      (replaceAll "&amp;".toList "&".toList (replaceAll "&nbsp;".toList " ".toList text)) := rfl

end Escaping

section Stages

variable {coded others : List Char} {special char : Char}

theorem entityBody_ne_nil (char : Char) : entityBody char ≠ [] := by
  unfold entityBody
  split_ifs <;> decide

theorem amp_notMem_entityBody (char : Char) : '&' ∉ entityBody char := by
  unfold entityBody
  split_ifs <;> decide

theorem notMem_specials_of_body {symbol : Char} (member : symbol ∈ entityBody char) :
    symbol ∉ specials := by
  have plain {body : String} (checked : body.toList.all fun symbol => !specials.contains symbol)
      (inside : symbol ∈ body.toList) : symbol ∉ specials := by
    have apart := List.all_eq_true.mp checked symbol inside
    rwa [Bool.not_eq_true', List.contains_eq_mem, decide_eq_false_iff_not] at apart
  unfold entityBody at member
  split_ifs at member
  all_goals exact plain (by decide) member

theorem entityBody_heads : ∀ first ∈ specials, ∀ second ∈ specials, first ≠ second →
    (entityBody first).head? ≠ (entityBody second).head? := by
  have checked : specials.all fun first => specials.all fun second =>
      first == second || (entityBody first).head? != (entityBody second).head? := by decide
  intro first inFirst second inSecond apart
  have other := List.all_eq_true.mp (List.all_eq_true.mp checked first inFirst) second inSecond
  rcases Bool.or_eq_true_iff.mp other with same | differ
  · exact absurd (eq_of_beq same) apart
  · exact bne_iff_ne.mp differ

/-- The entities of two characters differ behind their ampersands at once. -/
theorem not_prefix_entityBody {body : Text} (filled : body ≠ [])
    (apart : body.head? ≠ (entityBody char).head?) (rest : Text) :
    ¬ body <+: entityBody char ++ rest := by
  intro found
  cases body with
  | nil => exact filled rfl
  | cons first tail =>
    cases coded : entityBody char with
    | nil => exact entityBody_ne_nil char coded
    | cons head others =>
      rw [coded, List.cons_append, List.cons_prefix_cons] at found
      rw [coded, found.1] at apart
      exact apart rfl

theorem silent_escapeChar {body : Text} (filled : body ≠ [])
    (apart : char ∈ coded → body.head? ≠ (entityBody char).head?)
    (plain : char ∉ coded → char ≠ '&') : Silent '&' body char (escapeChar coded char) := by
  unfold escapeChar
  by_cases member : char ∈ coded
  · rw [if_pos member]
    exact Or.inr ⟨_, rfl, amp_notMem_entityBody char,
      not_prefix_entityBody filled (apart member)⟩
  · rw [if_neg member]
    exact Or.inl ⟨rfl, plain member⟩

/-- No entity of an escaped text is a blank. -/
theorem replaceAll_nbsp_escape (text : Text) :
    replaceAll "&nbsp;".toList " ".toList (escape text) = escape text := by
  refine replaceAll_code text fun char => Or.inr ⟨rfl, silent_escapeChar (by decide) ?_ ?_⟩
  · intro member
    have heads : specials.all fun char => some 'n' != (entityBody char).head? := by decide
    exact bne_iff_ne.mp (List.all_eq_true.mp heads char member)
  · rintro absent rfl
    exact absent (by decide)

/-- Decoding the ampersands leaves the other special characters coded. -/
theorem replaceAll_amp_escape (text : Text) :
    replaceAll "&amp;".toList "&".toList (escape text) =
      text.flatMap (escapeChar ['<', '>', '"', '\'']) := by
  refine replaceAll_code text fun char => ?_
  by_cases isAmp : char = '&'
  · subst isAmp
    exact Or.inl ⟨rfl, rfl⟩
  · have same : char ∈ specials ↔ char ∈ ['<', '>', '"', '\''] := by
      simp [specials, isAmp]
    refine Or.inr ⟨?_, silent_escapeChar (by decide) ?_ fun _ => isAmp⟩
    · unfold escapeChar
      simp only [same]
    · intro member
      exact entityBody_heads '&' (by decide) char member (Ne.symm isAmp)

/-- Decoding one character decodes what the text itself writes as its entity as well. -/
theorem replaceAll_entity_escape (text : Text) (isSpecial : special ∈ specials)
    (notAmp : special ≠ '&') (new : special ∉ others) (amp : '&' ∉ others)
    (part : others ⊆ specials) :
    replaceAll ('&' :: entityBody special) [special]
        (text.flatMap (escapeChar (special :: others))) =
      (replaceAll ('&' :: entityBody special) [special] text).flatMap (escapeChar others) := by
  have literal : '&' ∉ special :: others := by
    rw [List.mem_cons, not_or]
    exact ⟨notAmp.symm, amp⟩
  refine replaceAll_code_literal text notAmp (amp_notMem_entityBody special) ?_ (if_neg new)
    (if_neg literal) (if_neg amp) ?_ ?_
  · exact if_pos List.mem_cons_self
  · intro symbol member
    refine if_neg fun coded => notMem_specials_of_body member ?_
    rcases List.mem_cons.mp coded with rfl | other
    · exact isSpecial
    · exact part other
  · intro symbol notSpecial plain
    have same : symbol ∈ special :: others ↔ symbol ∈ others := by
      simp [notSpecial]
    refine ⟨?_, silent_escapeChar (entityBody_ne_nil special) ?_ fun _ => plain⟩
    · unfold escapeChar
      simp only [same]
    · intro member
      exact entityBody_heads special isSpecial symbol (part (same.mp member))
        (Ne.symm notSpecial)

theorem decodeEach_escape (chars : List Char) (distinct : chars.Nodup) (amp : '&' ∉ chars)
    (part : chars ⊆ specials) (text : Text) :
    chars.foldl (fun text char => replaceAll ('&' :: entityBody char) [char] text)
        (text.flatMap (escapeChar chars)) =
      chars.foldl (fun text char => replaceAll ('&' :: entityBody char) [char] text) text := by
  induction chars generalizing text with
  | nil => exact congrArg (List.foldl _ · []) (List.flatMap_singleton' text)
  | cons char rest ih =>
    obtain ⟨new, others⟩ := List.nodup_cons.mp distinct
    rw [List.mem_cons, not_or] at amp
    obtain ⟨member, within⟩ := List.cons_subset.mp part
    rw [List.foldl_cons, List.foldl_cons,
      replaceAll_entity_escape text member (Ne.symm amp.1) new amp.2 within]
    exact ih others amp.2 within _

/-- What escaping protects is decoded once; the entities of the text itself are decoded too. -/
theorem decodeEntities_escape (text : Text) :
    decodeEntities (escape text) = replaceEach lateEntities text := by
  have each := decodeEach_escape ['<', '>', '"', '\''] (by decide) (by decide) (by decide) text
  rw [decodeEntities_eq, replaceAll_nbsp_escape, replaceAll_amp_escape]
  exact congrArg (replaceAll "&apos;".toList "'".toList) each

end Stages

section Blanks

/-- The characters of a text that are no blanks. -/
def inkOf (text : Text) : Nat := text.countP (fun char => !isWhitespace char)

theorem inkOf_append (first second : Text) : inkOf (first ++ second) = inkOf first + inkOf second :=
  List.countP_append

theorem inkOf_blank {char : Char} (blank : isWhitespace char = true) (rest : Text) :
    inkOf (char :: rest) = inkOf rest := by
  rw [inkOf, List.countP_cons_of_neg (by simp [blank]), inkOf]

theorem inkOf_reverse (text : Text) : inkOf text.reverse = inkOf text :=
  List.countP_reverse

theorem inkOf_dropWhile (text : Text) : inkOf (text.dropWhile isWhitespace) = inkOf text := by
  induction text with
  | nil => rfl
  | cons char rest ih =>
    by_cases blank : isWhitespace char = true
    · rw [List.dropWhile_cons_of_pos blank, ih, inkOf_blank blank]
    · rw [List.dropWhile_cons_of_neg blank]

theorem inkOf_trim (text : Text) : inkOf (trim text) = inkOf text := by
  rw [trim, inkOf_reverse, inkOf_dropWhile, inkOf_reverse, inkOf_dropWhile]

theorem inkOf_joinWords (words : List Text) :
    inkOf (joinWords words) = (words.map inkOf).sum := by
  induction words with
  | nil => rfl
  | cons word rest ih =>
    cases rest with
    | nil => simp [joinWords]
    | cons next rest =>
      rw [joinWords, inkOf_append, inkOf_blank (by decide), ih]
      rfl

theorem inkOf_words (word line : Text) :
    ((words word line).map inkOf).sum = inkOf word + inkOf line := by
  induction line generalizing word with
  | nil =>
    cases word with
    | nil => rfl
    | cons head tail =>
      change inkOf (head :: tail).reverse + 0 = _
      rw [inkOf_reverse]
      rfl
  | cons char rest ih =>
    by_cases blank : isWhitespace char = true
    · rw [words, if_pos blank, inkOf_blank blank]
      cases word with
      | nil => exact ih []
      | cons head tail =>
        change inkOf (head :: tail).reverse + ((words [] rest).map inkOf).sum = _
        rw [inkOf_reverse, ih]
        exact congrArg (inkOf (head :: tail) + ·) (Nat.zero_add _)
    · rw [words, if_neg blank, ih, inkOf, inkOf, inkOf, inkOf, List.countP_cons, List.countP_cons]
      omega

theorem inkOf_collapseLines (blank : Nat) (lines : List Text) :
    inkOf (collapseLines blank lines) = (lines.map inkOf).sum := by
  induction lines generalizing blank with
  | nil => rfl
  | cons line rest ih =>
    have ink : inkOf (joinWords (words [] line)) = inkOf line := by
      rw [inkOf_joinWords, inkOf_words]
      exact Nat.zero_add _
    have ended : ∀ blank, inkOf (joinWords (words [] line) ++ '\n' :: collapseLines blank rest) =
        ((line :: rest).map inkOf).sum := by
      intro blank
      rw [inkOf_append, inkOf_blank (by decide), ih, ink, List.map_cons, List.sum_cons]
    rw [collapseLines]
    by_cases empty : (joinWords (words [] line)).isEmpty = true
    · rw [if_pos empty]
      by_cases again : blank + 1 > 1
      · rw [if_pos again, ih, List.map_cons, List.sum_cons, ← ink, List.isEmpty_iff.mp empty]
        exact (Nat.zero_add _).symm
      · rw [if_neg again]
        exact ended _
    · rw [if_neg empty]
      exact ended _

theorem inkOf_dropLast {text : Text} {char : Char} (ends : text.getLast? = some char)
    (blank : isWhitespace char = true) : inkOf text.dropLast = inkOf text := by
  obtain ⟨front, rfl⟩ := List.getLast?_eq_some_iff.mp ends
  rw [List.dropLast_concat, inkOf_append, inkOf_blank blank]
  rfl

theorem inkOf_withoutEnd (piece : Text) : inkOf (withoutEnd piece) = inkOf piece := by
  unfold withoutEnd
  by_cases feed : piece.getLast? = some '\n'
  · rw [if_pos feed]
    by_cases back : piece.dropLast.getLast? = some '\r'
    · rw [if_pos back, inkOf_dropLast back (by decide), inkOf_dropLast feed (by decide)]
    · rw [if_neg back, inkOf_dropLast feed (by decide)]
  · rw [if_neg feed]

theorem inkOf_splitInclusive (text : Text) :
    ((splitInclusive text).map inkOf).sum = inkOf text := by
  induction text with
  | nil => rfl
  | cons char rest ih =>
    by_cases feed : char = '\n'
    · subst feed
      rw [splitInclusive_feed, List.map_cons, List.sum_cons, ih, inkOf_blank (by decide)]
      exact Nat.zero_add _
    · have head : ∀ text, inkOf (char :: text) = inkOf [char] + inkOf text := fun text =>
        inkOf_append [char] text
      cases split : splitInclusive rest with
      | nil =>
        rw [split] at ih
        rw [splitInclusive_nil feed split, head rest, ← ih]
        rfl
      | cons piece pieces =>
        rw [split, List.map_cons, List.sum_cons] at ih
        rw [splitInclusive_cons feed split, List.map_cons, List.sum_cons, head piece, head rest,
          ← ih, Nat.add_assoc]

theorem inkOf_lines (text : Text) : ((lines text).map inkOf).sum = inkOf text := by
  rw [lines, List.map_map, ← inkOf_splitInclusive]
  exact congrArg List.sum (List.map_congr_left fun piece _ => inkOf_withoutEnd piece)

/-- Collapsing moves blanks only. -/
theorem inkOf_collapse (text : Text) : inkOf (collapse text) = inkOf text := by
  rw [collapse, inkOf_trim, inkOf_collapseLines, inkOf_lines]

end Blanks

section Pages

/-- Replacing loses ink where one of the entities stands, and changes nothing elsewhere. -/
theorem inkOf_replaceEach (entities : List (String × String))
    (loses : ∀ entity ∈ entities, entity.1.toList ≠ [] ∧
      inkOf entity.2.toList < inkOf entity.1.toList) (text : Text) :
    inkOf (replaceEach entities text) ≤ inkOf text ∧
      ((∃ entity ∈ entities, entity.1.toList <:+: text) →
        inkOf (replaceEach entities text) < inkOf text) := by
  induction entities generalizing text with
  | nil => exact ⟨le_rfl, nofun⟩
  | cons entity rest ih =>
    obtain ⟨filled, less⟩ := loses entity List.mem_cons_self
    have onward := ih (fun other member => loses other (List.mem_cons_of_mem _ member))
    obtain ⟨first, strictly⟩ := countP_replaceAll filled less text
    obtain ⟨later, below⟩ := onward (replaceAll entity.1.toList entity.2.toList text)
    refine ⟨later.trans first, ?_⟩
    rintro ⟨other, member, found⟩
    by_cases here : entity.1.toList <:+: text
    · exact lt_of_le_of_lt later (strictly here)
    · have same : replaceAll entity.1.toList entity.2.toList text = text :=
        replaceAll_of_not_infix here
      rcases List.mem_cons.mp member with rfl | further
      · exact absurd found here
      · exact lt_of_lt_of_le (below ⟨other, further, same.symm ▸ found⟩) first

theorem replaceEach_cons (entity : String × String) (rest : List (String × String))
    (text : Text) : replaceEach (entity :: rest) text =
      replaceEach rest (replaceAll entity.1.toList entity.2.toList text) := rfl

theorem replaceEach_of_absent (entities : List (String × String)) (text : Text)
    (absent : ∀ entity ∈ entities, ¬ entity.1.toList <:+: text) :
    replaceEach entities text = text := by
  induction entities with
  | nil => rfl
  | cons entity rest ih =>
    rw [replaceEach_cons, replaceAll_of_not_infix (absent entity List.mem_cons_self)]
    exact ih fun other member => absent other (List.mem_cons_of_mem _ member)

theorem lt_notMem_escape (text : Text) : '<' ∉ escape text := by
  intro member
  obtain ⟨char, _, written⟩ := List.mem_flatMap.mp member
  unfold escapeChar at written
  by_cases special : char ∈ specials
  · rw [if_pos special, List.mem_cons] at written
    rcases written with same | inside
    · exact absurd same (by decide)
    · exact notMem_specials_of_body inside (by decide)
  · rw [if_neg special, List.mem_singleton] at written
    exact special (written ▸ (by decide))

theorem bodyText_plain {text : Text} (plain : '<' ∉ text) : bodyText 0 text = text := by
  induction text with
  | nil => rfl
  | cons char rest ih =>
    rw [List.mem_cons, not_or] at plain
    rw [bodyText, if_neg (Nat.lt_irrefl 0), if_neg (Ne.symm plain.1), ih plain.2]

/-- No letter is lower-cased to a symbol below the small letters. -/
theorem eq_of_toLower {char symbol : Char} (low : symbol.val.toNat < 97)
    (lower : char.toLower = symbol) : char = symbol := by
  unfold Char.toLower at lower
  split at lower
  · rename_i upper
    have atLeast : 65 ≤ char.val.toNat := upper.1
    have atMost : char.val.toNat ≤ 90 := upper.2
    have value := congrArg (fun char => char.val.toNat) lower
    change (char.val + 32).toNat = symbol.val.toNat at value
    rw [UInt32.toNat_add, show (32 : UInt32).toNat = 32 from rfl] at value
    omega
  · exact lower

/-- A marker that starts with an angle bracket is found at an angle bracket only. -/
theorem opens_lt {marker : String} {char : Char} {rest : Text}
    (starts : marker.toList.head? = some '<') (found : opens marker (char :: rest) = true) :
    char = '<' := by
  obtain ⟨tail, marks⟩ := List.head?_eq_some_iff.mp starts
  rw [opens, marks, List.isPrefixOf_iff_prefix, List.map_cons, List.cons_prefix_cons] at found
  exact eq_of_toLower (by decide) found.1.symm

theorem afterFirst_plain {marker : String} {text : Text}
    (starts : marker.toList.head? = some '<') (plain : '<' ∉ text) :
    afterFirst marker text = none := by
  induction text with
  | nil => rfl
  | cons char rest ih =>
    rw [List.mem_cons, not_or] at plain
    rw [afterFirst, if_neg fun found => plain.1 (opens_lt starts found).symm, ih plain.2]

theorem titleText_plain {text : Text} (plain : '<' ∉ text) : titleText text = none := by
  rw [titleText, afterFirst_plain (by decide) plain]
  rfl

/-- A text comes back from its escaped form with its blanks collapsed, and nothing else. -/
def ComesBack (text : Text) : Prop := htmlToText (escape text) = (none, collapse text)

/-- It does exactly when none of the entities decoded after the ampersand stands in it. -/
theorem comesBack_iff (text : Text) :
    ComesBack text ↔ ∀ entity ∈ lateEntities, ¬ entity.1.toList <:+: text := by
  have page : htmlToText (escape text) = (none, collapse (replaceEach lateEntities text)) := by
    rw [htmlToText, htmlTitle, titleText_plain (lt_notMem_escape text),
      bodyText_plain (lt_notMem_escape text), decodeEntities_escape]
    rfl
  rw [ComesBack, page, Prod.mk.injEq, and_iff_right rfl]
  constructor
  · intro same entity member found
    have loses := (inkOf_replaceEach lateEntities (by decide) text).2 ⟨entity, member, found⟩
    have ink := congrArg inkOf same
    rw [inkOf_collapse, inkOf_collapse] at ink
    exact absurd ink (ne_of_lt loses)
  · intro absent
    rw [replaceEach_of_absent lateEntities text absent]

end Pages

end OHHive.Bots.Html
