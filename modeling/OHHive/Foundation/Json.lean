import Mathlib.Logic.Function.Basic
import Mathlib.Tactic.IntervalCases
import OHHive.Foundation.Lines

/-! Compact JSON: no value's text is the start of another's, and none holds a control
character. -/

namespace OHHive.Foundation

mutual

inductive Json where
  | null
  | bool (value : Bool)
  | number (value : Int)
  | text (value : Text)
  | array (items : Items)
  | object (members : Members)

inductive Items where
  | nil
  | cons (first : Json) (rest : Items)

inductive Members where
  | nil
  | cons (key : Text) (value : Json) (rest : Members)

end

section Printing

/-- The letter of a two-character escape. -/
def escapeLetter? : Char → Option Char
  | '\"' => some '\"'
  | '\\' => some '\\'
  | '\x08' => some 'b'
  | '\x09' => some 't'
  | '\x0a' => some 'n'
  | '\x0c' => some 'f'
  | '\x0d' => some 'r'
  | _ => none

/-- A character of a string literal. -/
def escape (char : Char) : Text :=
  match escapeLetter? char with
  | some letter => ['\\', letter]
  | none =>
    if char.toNat < 32 then
      ['\\', 'u', '0', '0', Nat.digitChar (char.toNat / 16), Nat.digitChar (char.toNat % 16)]
    else
      [char]

def quote (text : Text) : Text := '\"' :: (text.flatMap escape ++ ['\"'])

def printNumber : Int → Text
  | .ofNat value => Nat.toDigits 10 value
  | .negSucc value => '-' :: Nat.toDigits 10 (value + 1)

mutual

/-- The compact text of a value. -/
def Json.print : Json → Text
  | .null => "null".toList
  | .bool true => "true".toList
  | .bool false => "false".toList
  | .number value => printNumber value
  | .text value => quote value
  | .array items => '[' :: items.print []
  | .object members => '\x7b' :: members.print []

/-- The items behind a separator, up to the closing bracket. -/
def Items.print (separator : Text) : Items → Text
  | .nil => [']']
  | .cons first rest => separator ++ (first.print ++ rest.print [','])

def Members.print (separator : Text) : Members → Text
  | .nil => ['\x7d']
  | .cons key value rest =>
    separator ++ (quote key ++ ':' :: (value.print ++ rest.print [',']))

end

end Printing

section Characters

variable {char : Char} {rest others text other : Text}

def hexValue (digit : Char) : Nat :=
  if digit.toNat < 58 then digit.toNat - 48 else digit.toNat - 87

/-- The character that a two-character escape stands for. -/
def escapedBy : Char → Char
  | 'b' => '\x08'
  | 't' => '\x09'
  | 'n' => '\x0a'
  | 'f' => '\x0c'
  | 'r' => '\x0d'
  | letter => letter

/-- One character of a string literal, read back. -/
def readChar : Text → Option (Char × Text)
  | '\\' :: 'u' :: '0' :: '0' :: high :: low :: rest =>
    some (Char.ofNat (16 * hexValue high + hexValue low), rest)
  | '\\' :: letter :: rest => some (escapedBy letter, rest)
  | char :: rest => some (char, rest)
  | [] => none

private theorem readChar_control {value : Nat} (control : value < 32) (rest : Text) :
    readChar (escape (Char.ofNat value) ++ rest) = some (Char.ofNat value, rest) := by
  interval_cases value <;> rfl

/-- A character that needs no escape stands for itself. -/
theorem escape_literal (visible : ¬ char.toNat < 32) (unquoted : char ≠ '\"')
    (unslashed : char ≠ '\\') : escape char = [char] := by
  have unlettered : escapeLetter? char = none := by
    unfold escapeLetter?
    split <;> first | rfl | contradiction
  rw [escape, unlettered]
  exact if_neg visible

theorem readChar_escape (char : Char) (rest : Text) :
    readChar (escape char ++ rest) = some (char, rest) := by
  by_cases control : char.toNat < 32
  · have read := readChar_control control rest
    rwa [Char.ofNat_toNat] at read
  · by_cases quoted : char = '\"'
    · subst quoted
      rfl
    · by_cases slash : char = '\\'
      · subst slash
        rfl
      · rw [escape_literal control quoted slash, List.singleton_append]
        unfold readChar
        split <;> simp_all

theorem escape_cases (char : Char) :
    escape char = [char] ∧ 32 ≤ char.toNat ∧ char ≠ '\"' ∨ ∃ body, escape char = '\\' :: body := by
  unfold escape
  split
  · exact Or.inr ⟨_, rfl⟩
  · rename_i unlettered
    split
    · exact Or.inr ⟨_, rfl⟩
    · rename_i visible
      refine Or.inl ⟨rfl, Nat.le_of_not_lt visible, ?_⟩
      rintro rfl
      cases unlettered

/-- An escaped character does not look like the closing quote. -/
theorem escape_ne_quote (char : Char) (rest others : Text) :
    escape char ++ rest ≠ '\"' :: others := by
  intro same
  rcases escape_cases char with ⟨literal, _, unquoted⟩ | ⟨body, escaped⟩
  · rw [literal] at same
    exact unquoted (List.cons.inj same).1
  · rw [escaped] at same
    exact absurd (List.cons.inj same).1 (by decide)

theorem escape_unique {first second : Char} (same : escape first ++ rest = escape second ++ others) :
    first = second ∧ rest = others := by
  have read := readChar_escape first rest
  rw [same, readChar_escape] at read
  obtain ⟨rfl, rfl⟩ := Prod.mk.inj (Option.some.inj read)
  exact ⟨rfl, rfl⟩

/-- A string literal is the start of no other. -/
theorem quote_unique (same : quote text ++ rest = quote other ++ others) :
    text = other ∧ rest = others := by
  have bodies : text.flatMap escape ++ '\"' :: rest = other.flatMap escape ++ '\"' :: others := by
    simpa [quote] using same
  clear same
  induction text generalizing other with
  | nil =>
    cases other with
    | nil => exact ⟨rfl, (List.cons.inj bodies).2⟩
    | cons second other =>
      rw [List.flatMap_cons, List.append_assoc] at bodies
      exact absurd bodies.symm (escape_ne_quote second _ _)
  | cons first text ih =>
    rw [List.flatMap_cons, List.append_assoc] at bodies
    cases other with
    | nil => exact absurd bodies (escape_ne_quote first _ _)
    | cons second other =>
      rw [List.flatMap_cons, List.append_assoc] at bodies
      obtain ⟨rfl, later⟩ := escape_unique bodies
      obtain ⟨rfl, rfl⟩ := ih later
      exact ⟨rfl, rfl⟩

end Characters

section Numbers

variable {rest others : Text}

/-- What follows a value inside a text: the end, a separator or a closing bracket. -/
def Follows (rest : Text) : Prop := ∀ char, rest.head? = some char → char.isDigit = false

private theorem takeDigits {digits : Text} (all : ∀ char ∈ digits, char.isDigit = true)
    (follows : Follows rest) : (digits ++ rest).takeWhile Char.isDigit = digits := by
  induction digits with
  | nil =>
    cases rest with
    | nil => rfl
    | cons char rest =>
      rw [List.nil_append, List.takeWhile_cons_of_neg]
      rw [follows char rfl]
      exact Bool.false_ne_true
  | cons char digits ih =>
    rw [List.cons_append, List.takeWhile_cons_of_pos (all char List.mem_cons_self),
      ih fun other member => all other (List.mem_cons_of_mem _ member)]

private theorem digits_unique {first second : Nat} (follows : Follows rest)
    (followed : Follows others)
    (same : Nat.toDigits 10 first ++ rest = Nat.toDigits 10 second ++ others) :
    first = second ∧ rest = others := by
  have all (value : Nat) : ∀ char ∈ Nat.toDigits 10 value, char.isDigit = true :=
    fun char member => Nat.isDigit_of_mem_toDigits (by decide) (by decide) member
  have digits : Nat.toDigits 10 first = Nat.toDigits 10 second := by
    rw [← takeDigits (all first) follows, same, takeDigits (all second) followed]
  have values : first = second := by
    rw [← Nat.ofDigitChars_ten_toDigits (n := first), digits, Nat.ofDigitChars_ten_toDigits]
  rw [digits] at same
  exact ⟨values, List.append_cancel_left same⟩

private theorem toDigits_ne_minus (value : Nat) (rest others : Text) :
    Nat.toDigits 10 value ++ rest ≠ '-' :: others := by
  intro same
  cases digits : Nat.toDigits 10 value with
  | nil => exact absurd digits Nat.toDigits_ne_nil
  | cons first more =>
    have digit : first.isDigit = true :=
      Nat.isDigit_of_mem_toDigits (by decide) (by decide) (digits ▸ List.mem_cons_self)
    rw [digits] at same
    rw [(List.cons.inj same).1] at digit
    cases digit

theorem printNumber_unique {first second : Int} (follows : Follows rest) (followed : Follows others)
    (same : printNumber first ++ rest = printNumber second ++ others) :
    first = second ∧ rest = others := by
  cases first with
  | ofNat first =>
    cases second with
    | ofNat second =>
      obtain ⟨rfl, rfl⟩ := digits_unique follows followed same
      exact ⟨rfl, rfl⟩
    | negSucc second => exact absurd same (toDigits_ne_minus first _ _)
  | negSucc first =>
    cases second with
    | ofNat second => exact absurd same.symm (toDigits_ne_minus second _ _)
    | negSucc second =>
      obtain ⟨successors, rfl⟩ := digits_unique follows followed (List.cons.inj same).2
      obtain rfl := Nat.succ.inj successors
      exact ⟨rfl, rfl⟩

end Numbers

section Values

inductive JsonKind where
  | null
  | bool
  | number
  | text
  | array
  | object
deriving DecidableEq

def Json.kind : Json → JsonKind
  | .null => .null
  | .bool _ => .bool
  | .number _ => .number
  | .text _ => .text
  | .array _ => .array
  | .object _ => .object

/-- The kind of value that starts with a character. -/
def kindOf (char : Char) : Option JsonKind :=
  if char = 'n' then some .null
  else if char = 't' ∨ char = 'f' then some .bool
  else if char = '-' ∨ char.isDigit then some .number
  else if char = '\"' then some .text
  else if char = '[' then some .array
  else if char = '\x7b' then some .object
  else none

theorem kindOf_digit {char : Char} (digit : char.isDigit = true) :
    kindOf char = some .number := by
  have differs (letter : Char) (plain : letter.isDigit = false) : char ≠ letter := by
    rintro rfl
    rw [digit] at plain
    cases plain
  simp [kindOf, digit, differs 'n' (by decide), differs 't' (by decide), differs 'f' (by decide)]

/-- A value's first character tells its kind. -/
theorem Json.print_lead (value : Json) :
    ∃ lead body, value.print = lead :: body ∧ kindOf lead = some value.kind := by
  cases value with
  | null => exact ⟨_, _, rfl, by decide⟩
  | bool value => cases value <;> exact ⟨_, _, rfl, by decide⟩
  | number value =>
    cases value with
    | ofNat value =>
      cases digits : Nat.toDigits 10 value with
      | nil => exact absurd digits Nat.toDigits_ne_nil
      | cons first more =>
        refine ⟨first, more, digits, kindOf_digit ?_⟩
        exact Nat.isDigit_of_mem_toDigits (by decide) (by decide) (digits ▸ List.mem_cons_self)
    | negSucc value => exact ⟨_, _, rfl, (by decide : kindOf '-' = some .number)⟩
  | text value => exact ⟨_, _, rfl, (by decide : kindOf '\"' = some .text)⟩
  | array items => exact ⟨_, _, rfl, (by decide : kindOf '[' = some .array)⟩
  | object members => exact ⟨_, _, rfl, (by decide : kindOf '\x7b' = some .object)⟩

theorem Json.kind_eq {first second : Json} {rest others : Text}
    (same : first.print ++ rest = second.print ++ others) : first.kind = second.kind := by
  obtain ⟨lead, body, printed, kind⟩ := first.print_lead
  obtain ⟨other, more, reprinted, kinds⟩ := second.print_lead
  rw [printed, reprinted] at same
  obtain rfl := (List.cons.inj same).1
  exact Option.some.inj (kind.symm.trans kinds)

theorem Items.follows (items : Items) (rest : Text) : Follows (items.print [','] ++ rest) := by
  intro char starts
  cases items <;> obtain rfl := Option.some.inj starts <;> rfl

theorem Members.follows (members : Members) (rest : Text) :
    Follows (members.print [','] ++ rest) := by
  intro char starts
  cases members <;> obtain rfl := Option.some.inj starts <;> rfl

/-- The separator of the first or of a later item. -/
def Separates (separator : Text) : Prop := separator = [] ∨ separator = [',']

theorem Items.nil_apart {separator rest others : Text} (separates : Separates separator)
    (first : Json) (items : Items) :
    Items.nil.print separator ++ rest ≠ (Items.cons first items).print separator ++ others := by
  intro same
  rcases separates with rfl | rfl
  · obtain ⟨lead, body, printed, kind⟩ := first.print_lead
    rw [Items.print, Items.print, printed] at same
    obtain rfl := (List.cons.inj same).1
    cases kind
  · exact absurd (List.cons.inj same).1 (by decide)

theorem Members.nil_apart {separator rest others : Text} (separates : Separates separator)
    (key : Text) (value : Json) (members : Members) :
    Members.nil.print separator ++ rest ≠
      (Members.cons key value members).print separator ++ others := by
  intro same
  rcases separates with rfl | rfl <;> exact absurd (List.cons.inj same).1 (by decide)

mutual

/-- The text of a value is the start of no other value's text. -/
theorem Json.print_unique (first second : Json) {rest others : Text} (follows : Follows rest)
    (followed : Follows others) (same : first.print ++ rest = second.print ++ others) :
    first = second ∧ rest = others := by
  have kinds := Json.kind_eq same
  cases first with
  | null =>
    cases second <;> cases kinds
    exact ⟨rfl, List.append_cancel_left same⟩
  | bool value =>
    cases second <;> cases kinds
    rename_i other
    cases value <;> cases other
    · exact ⟨rfl, List.append_cancel_left same⟩
    · exact absurd (List.cons.inj same).1 (by decide)
    · exact absurd (List.cons.inj same).1 (by decide)
    · exact ⟨rfl, List.append_cancel_left same⟩
  | number value =>
    cases second <;> cases kinds
    obtain ⟨rfl, rfl⟩ := printNumber_unique follows followed same
    exact ⟨rfl, rfl⟩
  | text value =>
    cases second <;> cases kinds
    obtain ⟨rfl, rfl⟩ := quote_unique same
    exact ⟨rfl, rfl⟩
  | array items =>
    cases second <;> cases kinds
    rename_i other
    obtain ⟨rfl, rfl⟩ := Items.print_unique items other (Or.inl rfl) (List.cons.inj same).2
    exact ⟨rfl, rfl⟩
  | object members =>
    cases second <;> cases kinds
    rename_i other
    obtain ⟨rfl, rfl⟩ := Members.print_unique members other (Or.inl rfl) (List.cons.inj same).2
    exact ⟨rfl, rfl⟩

theorem Items.print_unique (first second : Items) {separator rest others : Text}
    (separates : Separates separator)
    (same : first.print separator ++ rest = second.print separator ++ others) :
    first = second ∧ rest = others := by
  cases first with
  | nil =>
    cases second with
    | nil => exact ⟨rfl, List.append_cancel_left same⟩
    | cons value items => exact absurd same (Items.nil_apart separates value items)
  | cons value items =>
    cases second with
    | nil => exact absurd same.symm (Items.nil_apart separates value items)
    | cons other more =>
      simp only [Items.print, List.append_assoc] at same
      have bodies := List.append_cancel_left same
      obtain ⟨rfl, later⟩ :=
        Json.print_unique value other (items.follows rest) (more.follows others) bodies
      obtain ⟨rfl, rfl⟩ := Items.print_unique items more (Or.inr rfl) later
      exact ⟨rfl, rfl⟩

theorem Members.print_unique (first second : Members) {separator rest others : Text}
    (separates : Separates separator)
    (same : first.print separator ++ rest = second.print separator ++ others) :
    first = second ∧ rest = others := by
  cases first with
  | nil =>
    cases second with
    | nil => exact ⟨rfl, List.append_cancel_left same⟩
    | cons key value members => exact absurd same (Members.nil_apart separates key value members)
  | cons key value members =>
    cases second with
    | nil => exact absurd same.symm (Members.nil_apart separates key value members)
    | cons name other more =>
      simp only [Members.print, List.append_assoc, List.cons_append] at same
      obtain ⟨rfl, colon⟩ := quote_unique (List.append_cancel_left same)
      have values := (List.cons.inj colon).2
      obtain ⟨rfl, later⟩ :=
        Json.print_unique value other (members.follows rest) (more.follows others) values
      obtain ⟨rfl, rfl⟩ := Members.print_unique members more (Or.inr rfl) later
      exact ⟨rfl, rfl⟩

end

end Values

section Visible

/-- A text without control characters. -/
def Visible (text : Text) : Prop := ∀ char ∈ text, 32 ≤ char.toNat

variable {first second : Text} {char : Char}

theorem visible_of_all {text : Text}
    (visible : (text.all fun char => decide (32 ≤ char.toNat)) = true) : Visible text :=
  fun char member => of_decide_eq_true (List.all_eq_true.mp visible char member)

theorem Visible.append (visible : Visible first) (seen : Visible second) :
    Visible (first ++ second) := by
  intro char member
  rcases List.mem_append.mp member with inFirst | inSecond
  · exact visible char inFirst
  · exact seen char inSecond

theorem Visible.cons (visible : 32 ≤ char.toNat) (seen : Visible second) :
    Visible (char :: second) := by
  intro other member
  rcases List.mem_cons.mp member with rfl | later
  · exact visible
  · exact seen other later

theorem Visible.oneLine (visible : Visible first) : '\n' ∉ first :=
  fun member => absurd (visible _ member) (by decide)

theorem Visible.noReturn (visible : Visible first) : '\r' ∉ first :=
  fun member => absurd (visible _ member) (by decide)

theorem visible_digitChar {value : Nat} (digit : value < 32) :
    32 ≤ (Nat.digitChar value).toNat := by
  interval_cases value <;> decide

theorem visible_toDigits (value : Nat) : Visible (Nat.toDigits 10 value) := by
  intro char member
  have digit := Nat.isDigit_of_mem_toDigits (by decide) (by decide) member
  simp only [Char.isDigit, Bool.and_eq_true, decide_eq_true_eq] at digit
  have low : ('0' : Char).toNat ≤ char.toNat := digit.1
  exact Nat.le_trans (by decide) low

theorem visible_escapeLetter {letter : Char} (found : escapeLetter? char = some letter) :
    32 ≤ letter.toNat := by
  unfold escapeLetter? at found
  split at found <;> cases found <;> decide

theorem visible_escape (char : Char) : Visible (escape char) := by
  unfold escape
  split
  · rename_i letter found
    refine Visible.cons (by decide) (Visible.cons (visible_escapeLetter found) ?_)
    exact fun _ member => nomatch member
  · split
    · rename_i control
      have escaped : Visible ['\\', 'u', '0', '0'] := visible_of_all (by decide +kernel)
      refine Visible.append escaped ?_
      refine Visible.cons (visible_digitChar (by omega)) (Visible.cons (visible_digitChar (by omega)) ?_)
      exact fun _ member => nomatch member
    · rename_i visible
      exact Visible.cons (Nat.le_of_not_lt visible) fun _ member => nomatch member

theorem visible_quote (text : Text) : Visible (quote text) := by
  have body : Visible (text.flatMap escape) := by
    intro char member
    obtain ⟨source, _, inEscape⟩ := List.mem_flatMap.mp member
    exact visible_escape source char inEscape
  exact Visible.cons (by decide) (body.append (visible_of_all (by decide +kernel)))

mutual

/-- No value's text holds a control character. -/
theorem Json.visible_print (value : Json) : Visible value.print := by
  cases value with
  | null => exact visible_of_all (by decide +kernel)
  | bool value => cases value <;> exact visible_of_all (by decide +kernel)
  | number value =>
    cases value with
    | ofNat value => exact visible_toDigits value
    | negSucc value => exact Visible.cons (by decide) (visible_toDigits (value + 1))
  | text value => exact visible_quote value
  | array items => exact Visible.cons (by decide) (Items.visible_print items (Or.inl rfl))
  | object members => exact Visible.cons (by decide) (Members.visible_print members (Or.inl rfl))

theorem Items.visible_print (items : Items) {separator : Text} (separates : Separates separator) :
    Visible (items.print separator) := by
  have separated : Visible separator := by
    rcases separates with rfl | rfl <;> exact visible_of_all (by decide +kernel)
  cases items with
  | nil =>
    have closing : Visible [']'] := visible_of_all (by decide +kernel)
    exact closing
  | cons first rest =>
    rw [Items.print]
    exact separated.append
      ((Json.visible_print first).append (Items.visible_print rest (Or.inr rfl)))

theorem Members.visible_print (members : Members) {separator : Text}
    (separates : Separates separator) : Visible (members.print separator) := by
  have separated : Visible separator := by
    rcases separates with rfl | rfl <;> exact visible_of_all (by decide +kernel)
  cases members with
  | nil =>
    have closing : Visible ['\x7d'] := visible_of_all (by decide +kernel)
    exact closing
  | cons key value rest =>
    rw [Members.print]
    refine separated.append ((visible_quote key).append (Visible.cons (by decide) ?_))
    exact (Json.visible_print value).append (Members.visible_print rest (Or.inr rfl))

end

end Visible

section Codecs

universe u

/-- A type's compact texts: each is read back, and none holds a control character. -/
structure Codec (α : Type u) where
  encode : α → Text
  decode : Text → Option α
  decode_encode : ∀ value, decode (encode value) = some value
  visible : ∀ value, Visible (encode value)

variable {α : Type u}

theorem Json.print_injective : Function.Injective Json.print := by
  intro first second same
  have ended : Follows [] := fun _ starts => nomatch starts
  exact (Json.print_unique first second ended ended (by rw [same])).1

open Classical in
/-- The codec of a type whose values have distinct JSON values. -/
noncomputable def Codec.ofJson (toJson : α → Json) (apart : Function.Injective toJson) :
    Codec α where
  encode value := (toJson value).print
  decode text := if found : ∃ value, (toJson value).print = text then some found.choose else none
  decode_encode value := by
    have found : ∃ other, (toJson other).print = (toJson value).print := ⟨value, rfl⟩
    rw [dif_pos found]
    exact congrArg some (apart (Json.print_injective found.choose_spec))
  visible value := Json.visible_print (toJson value)

end Codecs

end OHHive.Foundation
